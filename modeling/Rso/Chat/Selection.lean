import Mathlib.Data.List.Induction
import Rso.Chat.Server

/-!
# The selection of a factory

`newChatRoom` asks every registered factory for its number of rooms and takes
one of them.  The comment in the source says which one it should be, a factory
with the fewest rooms (`LeastLoaded`).  The loop compares each count with `min`,
which stays 0, so it takes the last factory that has a room, and the first when
none has one (`lastPositive`).

The loop has no handler for a remote call that raises.  So one factory that does
not answer ends every `newChatRoom`, whatever the others do.
-/

namespace Rso.Chat.ChatServerImpl

variable {F R : Type}

/-! ## What the loop computes -/

/-- The position of the last positive count, positions counted from `index`, and
`minIndex` when no count is positive. -/
def lastPositive : List Int → (index minIndex : Nat) → Nat
  | [], _, minIndex => minIndex
  | n :: ns, index, minIndex => lastPositive ns (index + 1) (if 0 < n then index else minIndex)

theorem lastPositive_concat (n : Int) :
    ∀ (ns : List Int) (index minIndex : Nat), lastPositive (ns ++ [n]) index minIndex =
      if 0 < n then index + ns.length else lastPositive ns index minIndex := by
  intro ns
  induction ns with
  | nil =>
      intro index minIndex
      rfl
  | cons m ns ih =>
      intro index minIndex
      rw [List.cons_append, lastPositive, ih, lastPositive, List.length_cons, Nat.add_assoc,
        Nat.add_comm 1]

theorem lastPositive_of_nonpos :
    ∀ (ns : List Int) (index minIndex : Nat), (∀ n ∈ ns, n ≤ 0) →
      lastPositive ns index minIndex = minIndex := by
  intro ns
  induction ns with
  | nil =>
      intro _ _ _
      rfl
  | cons n ns ih =>
      intro index minIndex h
      have hn : ¬ 0 < n := Int.not_lt.mpr (h n (List.mem_cons_self ..))
      rw [lastPositive, if_neg hn]
      exact ih _ _ fun m hm => h m (List.mem_cons_of_mem _ hm)

/-- As soon as one count is positive, the loop ends at a positive one. -/
theorem lastPositive_of_pos (ns : List Int) (h : ∃ n ∈ ns, 0 < n) :
    ∃ n, ns[lastPositive ns 0 0]? = some n ∧ 0 < n := by
  induction ns using List.reverseRecOn with
  | nil =>
      obtain ⟨n, hn, -⟩ := h
      cases hn
  | append_singleton ns m ih =>
      rw [lastPositive_concat, Nat.zero_add]
      split
      next hm => exact ⟨m, List.getElem?_concat_length .., hm⟩
      next hm =>
        obtain ⟨n, hn, hpos⟩ := h
        have hin : n ∈ ns := by
          rcases List.mem_append.mp hn with hn | hn
          · exact hn
          · exact absurd (List.mem_singleton.mp hn ▸ hpos) hm
        obtain ⟨k, hk, hkpos⟩ := ih ⟨n, hin, hpos⟩
        exact ⟨k, by rw [List.getElem?_append_left (List.getElem?_eq_some_iff.mp hk).1, hk], hkpos⟩

/-- When every factory answers, the loop computes the last positive position. -/
theorem selectFactory_counts (getNumberOfRooms : Nat → F → Except Exception Int) :
    ∀ (factories : List F) (counts : List Int) (index minIndex : Nat),
      counts.length = factories.length →
      (∀ j f n, factories[j]? = some f → counts[j]? = some n →
        getNumberOfRooms (index + j) f = .ok n) →
      selectFactory getNumberOfRooms 0 (factories.map some) index minIndex =
        .ok (lastPositive counts index minIndex) := by
  intro factories
  induction factories with
  | nil =>
      intro counts index minIndex hlength _
      rw [List.eq_nil_of_length_eq_zero hlength]
      rfl
  | cons f fs ih =>
      intro counts index minIndex hlength hcounts
      cases counts with
      | nil => cases hlength
      | cons n ns =>
          have hn : getNumberOfRooms index f = .ok n := hcounts 0 f n rfl rfl
          rw [List.map_cons, selectFactory, Prx.call, hn]
          refine ih ns _ _ (Nat.succ.inj hlength) ?_
          intro j g m hg hm
          rw [Nat.add_assoc, Nat.add_comm 1]
          exact hcounts (j + 1) g m hg hm

/-! ## The least loaded factory -/

/-- No factory has fewer rooms than the one at this position. -/
def LeastLoaded (counts : List Int) (minIndex : Nat) : Prop :=
  ∃ n, counts[minIndex]? = some n ∧ ∀ m ∈ counts, n ≤ m

/-- The loop takes a least loaded factory exactly when no factory has a room, or
all have and none has fewer than the last one. -/
theorem selectFactory_leastLoaded_iff (factories : List F) (counts : List Int)
    (hsome : factories ≠ []) (hlength : counts.length = factories.length)
    (hcounts : ∀ n ∈ counts, 0 ≤ n) :
    (∃ minIndex, selectFactory (fun i _ => .ok (counts.getD i 0)) 0 (factories.map some) 0 0 =
        .ok minIndex ∧ LeastLoaded counts minIndex) ↔
      (∀ n ∈ counts, n = 0) ∨ ∃ n, counts.getLast? = some n ∧ 0 < n ∧ ∀ m ∈ counts, n ≤ m := by
  have hselect := selectFactory_counts (fun i _ => .ok (counts.getD i 0)) factories counts 0 0
    hlength (by intro j f n _ hn; rw [Nat.zero_add, List.getD_eq_getElem?_getD, hn]; rfl)
  have hne : counts ≠ [] := by
    rintro rfl
    exact hsome (List.eq_nil_of_length_eq_zero hlength.symm)
  constructor
  · rintro ⟨minIndex, hloop, n, hn, hle⟩
    rw [hselect] at hloop
    cases hloop
    by_cases hpos : ∃ m ∈ counts, 0 < m
    · obtain ⟨k, hk, hkpos⟩ := lastPositive_of_pos counts hpos
      rw [hn] at hk
      cases hk
      obtain ⟨front, last, rfl⟩ := (List.eq_nil_or_concat counts).resolve_left hne
      rw [List.concat_eq_append] at hn hle ⊢
      have hlast : 0 < last := Int.lt_of_lt_of_le hkpos (hle last (by simp))
      rw [lastPositive_concat, if_pos hlast, Nat.zero_add, List.getElem?_concat_length] at hn
      cases hn
      exact Or.inr ⟨n, List.getLast?_concat .., hlast, hle⟩
    · refine Or.inl fun m hm => ?_
      have hzero : ¬ 0 < m := fun h => hpos ⟨m, hm, h⟩
      have hm0 := hcounts m hm
      omega
  · intro h
    refine ⟨_, hselect, ?_⟩
    rcases h with hzero | ⟨n, hn, hpos, hle⟩
    · rw [lastPositive_of_nonpos counts 0 0 fun n hn => Int.le_of_eq (hzero n hn)]
      cases counts with
      | nil => exact absurd rfl hne
      | cons n ns =>
          refine ⟨n, rfl, fun m hm => ?_⟩
          have hm0 : n = m := (hzero n (List.mem_cons_self ..)).trans (hzero m hm).symm
          exact Int.le_of_eq hm0
    · obtain ⟨front, last, rfl⟩ := (List.eq_nil_or_concat counts).resolve_left hne
      rw [List.concat_eq_append] at hn hle ⊢
      rw [List.getLast?_concat] at hn
      cases hn
      refine ⟨n, ?_, hle⟩
      rw [lastPositive_concat, if_pos hpos, Nat.zero_add, List.getElem?_concat_length]

/-- With two rooms on the first factory and one on the second, the second is
taken. -/
theorem selectFactory_leastLoaded_two_one :
    ∃ minIndex, selectFactory (fun i _ => .ok (([2, 1] : List Int).getD i 0)) 0
        ([10, 11].map some) 0 0 = .ok minIndex ∧ LeastLoaded [2, 1] minIndex :=
  (selectFactory_leastLoaded_iff [10, 11] [2, 1] (by decide) rfl (by decide)).mpr
    (.inr ⟨1, rfl, by decide, by decide⟩)

/-- With one room on the first factory and two on the second, the second is taken
as well. -/
theorem selectFactory_not_leastLoaded_one_two :
    ¬ ∃ minIndex, selectFactory (fun i _ => .ok (([1, 2] : List Int).getD i 0)) 0
        ([10, 11].map some) 0 0 = .ok minIndex ∧ LeastLoaded [1, 2] minIndex := by
  rintro ⟨minIndex, hloop, n, hn, hle⟩
  cases hloop
  cases hn
  exact absurd (hle 1 (by decide)) (by decide)

/-! ## Factories that do not answer -/

section Alive

variable {alive : F → Prop} {replies : Replies F R}

/-- A call of a factory that has died raises, and every other call returns. -/
structure Answering (alive : F → Prop) (replies : Replies F R) : Prop where
  liveCount : ∀ i f, alive f → ∃ n, replies.getNumberOfRooms i f = .ok n
  deadCount : ∀ i f, ¬ alive f → ∃ e, replies.getNumberOfRooms i f = .error e
  liveRoom : ∀ f name, alive f → ∃ room, replies.newChatRoom f name = .ok room
  deadRoom : ∀ f name, ¬ alive f → ∃ e, replies.newChatRoom f name = .error e

/-- `newChatRoom` succeeds: a live factory makes the room, and the room is
published. -/
def CreatesOnLive (alive : F → Prop) (replies : Replies F R) (s : ChatServerImpl F R)
    (name : String) : Prop :=
  ∃ f room, some f ∈ s.roomFactoryList ∧ alive f ∧ replies.newChatRoom f name = .ok room ∧
    s.newChatRoom replies name = (.ok room, s.publish name room)

theorem selectFactory_alive (h : Answering alive replies) :
    ∀ (factories : List F) (index minIndex : Nat), (∀ f ∈ factories, alive f) →
      minIndex < index + factories.length →
      ∃ k, selectFactory replies.getNumberOfRooms 0 (factories.map some) index minIndex = .ok k ∧
        k < index + factories.length := by
  intro factories
  induction factories with
  | nil =>
      intro index minIndex _ hlt
      exact ⟨minIndex, rfl, hlt⟩
  | cons f fs ih =>
      intro index minIndex halive hlt
      obtain ⟨n, hn⟩ := h.liveCount index f (halive f (List.mem_cons_self ..))
      rw [List.length_cons] at hlt ⊢
      rw [List.map_cons, selectFactory, Prx.call, hn, Nat.add_comm fs.length, ← Nat.add_assoc]
      refine ih _ _ (fun g hg => halive g (List.mem_cons_of_mem _ hg)) ?_
      split <;> omega

/-- The first dead factory ends the loop. -/
theorem selectFactory_dead (h : Answering alive replies) :
    ∀ (factories : List F) (index minIndex : Nat), (∃ f ∈ factories, ¬ alive f) →
      ∃ i, ∃ f ∈ factories, ∃ e, ¬ alive f ∧ replies.getNumberOfRooms i f = .error e ∧
        selectFactory replies.getNumberOfRooms 0 (factories.map some) index minIndex =
          .error e := by
  intro factories
  induction factories with
  | nil =>
      rintro _ _ ⟨f, hf, -⟩
      cases hf
  | cons f fs ih =>
      intro index minIndex hdead
      by_cases hf : alive f
      · obtain ⟨n, hn⟩ := h.liveCount index f hf
        rw [List.map_cons, selectFactory, Prx.call, hn]
        have hlater : ∃ g ∈ fs, ¬ alive g := by
          obtain ⟨g, hg, hdead⟩ := hdead
          cases hg with
          | head => exact absurd hf hdead
          | tail _ hg => exact ⟨g, hg, hdead⟩
        obtain ⟨i, g, hg, hends⟩ := ih _ _ hlater
        exact ⟨i, g, List.mem_cons_of_mem f hg, hends⟩
      · obtain ⟨e, he⟩ := h.deadCount index f hf
        refine ⟨index, f, List.mem_cons_self, e, hf, he, ?_⟩
        rw [List.map_cons, selectFactory, Prx.call, he]

section Registered

variable {s : ChatServerImpl F R} {name : String} {factories : List F}

/-- With a name that is free and a registered factory, `newChatRoom` passes its two
checks. -/
theorem checks_passed (hname : name ∉ s.names) (hsome : factories ≠ [])
    (hfactories : s.roomFactoryList = factories.map some) :
    ¬ s.roomList.any (·.name == name) = true ∧ ¬ s.roomFactoryList.isEmpty = true := by
  refine ⟨mt (s.any_name_iff name).mp hname, ?_⟩
  rw [hfactories, List.isEmpty_iff, List.map_eq_nil_iff]
  exact hsome

theorem newChatRoom_alive (h : Answering alive replies) (hname : name ∉ s.names)
    (hsome : factories ≠ []) (hfactories : s.roomFactoryList = factories.map some)
    (halive : ∀ f ∈ factories, alive f) : CreatesOnLive alive replies s name := by
  have hlt : 0 < 0 + factories.length := by
    rw [Nat.zero_add]
    exact List.length_pos_iff.mpr hsome
  obtain ⟨k, hselect, hk⟩ := selectFactory_alive h factories 0 0 halive hlt
  rw [Nat.zero_add] at hk
  have hget : s.roomFactoryList[k]? = some (some factories[k]) := by
    rw [hfactories, List.getElem?_map, List.getElem?_eq_getElem hk]
    rfl
  have hin : factories[k] ∈ factories := List.getElem_mem hk
  obtain ⟨room, hroom⟩ := h.liveRoom factories[k] name (halive _ hin)
  refine ⟨factories[k], room, ?_, halive _ hin, hroom, ?_⟩
  · rw [hfactories]
    exact List.mem_map_of_mem hin
  · obtain ⟨hfree, hnonempty⟩ := checks_passed hname hsome hfactories
    rw [newChatRoom, if_neg hfree, if_neg hnonempty, hfactories, hselect]
    simp only [← hfactories, hget, Prx.call, hroom]

theorem newChatRoom_dead (h : Answering alive replies) (hname : name ∉ s.names)
    (hsome : factories ≠ []) (hfactories : s.roomFactoryList = factories.map some)
    (hdead : ∃ f ∈ factories, ¬ alive f) :
    ∃ i, ∃ f ∈ factories, ∃ e, ¬ alive f ∧ replies.getNumberOfRooms i f = .error e ∧
      s.newChatRoom replies name = (.error e, s) := by
  obtain ⟨i, f, hmem, e, hf, he, hselect⟩ := selectFactory_dead h factories 0 0 hdead
  refine ⟨i, f, hmem, e, hf, he, ?_⟩
  obtain ⟨hfree, hnonempty⟩ := checks_passed hname hsome hfactories
  rw [newChatRoom, if_neg hfree, if_neg hnonempty, hfactories, hselect]

end Registered

/-- For a name that is free, `newChatRoom` succeeds on a live factory when all
registered factories are alive, and otherwise raises what the call of a dead one of
them raised and changes nothing. -/
theorem newChatRoom_answering (h : Answering alive replies) {s : ChatServerImpl F R}
    {name : String} {factories : List F} (hname : name ∉ s.names) (hsome : factories ≠ [])
    (hfactories : s.roomFactoryList = factories.map some) :
    ((∀ f ∈ factories, alive f) → CreatesOnLive alive replies s name) ∧
      ((∃ f ∈ factories, ¬ alive f) →
        ∃ i, ∃ f ∈ factories, ∃ e, ¬ alive f ∧ replies.getNumberOfRooms i f = .error e ∧
          s.newChatRoom replies name = (.error e, s)) :=
  ⟨newChatRoom_alive h hname hsome hfactories, newChatRoom_dead h hname hsome hfactories⟩

end Alive

/-- The replies when one factory is alive.  It has no room and makes the room 7. -/
def onlyAlive (live : Nat) : Replies Nat Nat where
  getNumberOfRooms _ f := if f = live then .ok 0 else .error (.ice .localException)
  newChatRoom f _ := if f = live then .ok (some 7) else .error (.ice .localException)

theorem onlyAlive_answering (live : Nat) : Answering (· = live) (onlyAlive live) := by
  refine ⟨fun i f hf => ⟨0, if_pos hf⟩, fun i f hf => ⟨_, if_neg hf⟩,
    fun f name hf => ⟨some 7, if_pos hf⟩, fun f name hf => ⟨_, if_neg hf⟩⟩

/-- The first of two factories is dead. -/
theorem newChatRoom_answering_one_dead :
    ∃ i, ∃ f ∈ [0, 1], ∃ e, f ≠ 1 ∧ (onlyAlive 1).getNumberOfRooms i f = .error e ∧
      (⟨[], [some 0, some 1], ∅⟩ : ChatServerImpl Nat Nat).newChatRoom (onlyAlive 1) "a" =
        (.error e, ⟨[], [some 0, some 1], ∅⟩) :=
  have hlisted : (⟨[], [some 0, some 1], ∅⟩ : ChatServerImpl Nat Nat).roomFactoryList =
      [0, 1].map some := rfl
  (newChatRoom_answering (onlyAlive_answering 1) (by simp [names]) (by decide) hlisted).2
    ⟨0, by decide, by decide⟩

/-- The first of two factories is dead, and the second one is not enough. -/
theorem not_createsOnLive_one_dead :
    Answering (· = 1) (onlyAlive 1) ∧
      ¬ CreatesOnLive (· = 1) (onlyAlive 1) ⟨[], [some 0, some 1], ∅⟩ "a" := by
  refine ⟨onlyAlive_answering 1, ?_⟩
  rintro ⟨f, room, -, -, -, hroom⟩
  cases hroom

end Rso.Chat.ChatServerImpl
