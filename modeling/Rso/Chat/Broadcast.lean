import Mathlib.Logic.Function.Basic
import Rso.Chat.Membership

/-!
# Who a message reaches

Who is a member of a room can be read off the calls made so far and their
answers: a nick is a member when its latest successful `join` is later than its
latest successful `Leave`, with the proxy of that `join` (`currentMember`).

`BroadcastRight` is what a `postMessage` should then do.  With every user
reachable it does so at every point of a run exactly when the run is in
`JoinOrder`: the sender is looked up in `users` and the recipients are the
entries of the dictionary, so the two have to name the same members.
-/

namespace Rso.Chat

open Runs Members

namespace ChatRoomImpl

variable {U : Type}

/-! ## Members by the answers of a run -/

/-- What an answered call says about the members. -/
def recordMember (member : String → Option (Prx U)) :
    Call U × Answer U → String → Option (Prx U)
  | (.join nick who, ⟨.ok _, _⟩) => Function.update member nick (some who)
  | (.leave nick, ⟨.ok _, _⟩) => Function.update member nick none
  | _ => member

/-- The proxy of each current member, after the given calls and answers. -/
def currentMember (log : List (Call U × Answer U)) : String → Option (Prx U) :=
  log.foldl recordMember fun _ => none

/-- The calls of a run with the answers the servant gave, every user reachable. -/
def log (calls : List (Call U)) : List (Call U × Answer U) :=
  calls.zip (answers (step fun _ => .ok ()) .init calls)

/-- What `postMessage(message, fromWho)` should do: reach each member once if the
sender is a member, and otherwise raise `NoSuchUser` and reach nobody. -/
def BroadcastRight (member : String → Option (Prx U)) (message fromWho : String)
    (a : Answer U) : Prop :=
  if (member fromWho).isSome then
    a.result = .ok .unit ∧
      ∃ members : List (String × U), (members.map Prod.fst).Nodup ∧
        (∀ nick u, (nick, u) ∈ members ↔ member nick = some (some u)) ∧
        a.sent = members.map fun e => ⟨e.2, message, fromWho⟩
  else
    a.result = .error .noSuchUser ∧ a.sent = []

/-- Every `join` of the run passes a proxy that is not null. -/
def NonNull (calls : List (Call U)) : Prop :=
  ∀ nick, Call.join nick none ∉ calls

/-! ## The members of a run in join order -/

variable {r : ChatRoomImpl U} {t : Members U}

/-- An answered call records what the table does with it. -/
theorem recordMember_step (h : Represents r t) (c : Call U) :
    recordMember t.lookup (c, (step (fun _ => .ok ()) r c).2) = (Members.step t c).1.lookup := by
  funext nick
  cases c with
  | join n who =>
      by_cases hk : n ∈ t.keys
      · simp only [step, join_listed who ((h.mem_users n).mpr hk), Members.step, dif_pos hk]
        rfl
      · simp only [step, join_fresh who (mt (h.mem_users n).mp hk), Members.step, dif_neg hk]
        rw [OrderedTable.lookup_append]
        exact Function.update_apply t.lookup n (some who) nick
  | leave n =>
      by_cases hk : n ∈ t.keys
      · simp only [step, leave_listed ((h.mem_users n).mpr hk), Members.step, if_pos hk]
        rw [OrderedTable.lookup_erase]
        exact Function.update_apply t.lookup n none nick
      · simp only [step, leave_unlisted (mt (h.mem_users n).mp hk), Members.step, if_neg hk]
        rfl
  | getUser n =>
      cases hw : t.lookup n <;> simp only [Members.step, hw, recordMember]
  | listUsers => rfl
  | postMessage message fromWho =>
      simp only [Members.step, recordMember]
      split <;> rfl

/-- Along a run in join order the answers record the members of the table. -/
theorem foldl_recordMember :
    ∀ (calls : List (Call U)) {r : ChatRoomImpl U} {t : Members U}, Represents r t →
      Along Members.step LeavesOldest t calls →
      (calls.zip (answers (step fun _ => .ok ()) r calls)).foldl recordMember t.lookup =
        (run Members.step t calls).lookup := by
  intro calls
  induction calls with
  | nil =>
      intro _ _ _ _
      rfl
  | cons c calls ih =>
      intro r t h ho
      rw [answers_cons, List.zip_cons_cons, List.foldl_cons, recordMember_step h]
      exact ih (h.step ho.1) ho.2

theorem currentMember_log {calls : List (Call U)} (h : JoinOrder calls) :
    currentMember (log calls) = (run Members.step .empty calls).lookup :=
  foldl_recordMember calls init_represents h

/-- No member of the table has a null proxy, when none joined with one. -/
theorem lookup_ne_null {calls : List (Call U)} (h : NonNull calls) (nick : String) :
    (run Members.step .empty calls).lookup nick ≠ some none := by
  refine run_invariant (I := fun t : Members U => t.lookup nick ≠ some none) calls ?_ (by simp)
  intro t c hc ht
  cases c with
  | join n who =>
      by_cases hk : n ∈ t.keys
      · simpa only [Members.step, dif_pos hk] using ht
      · simp only [Members.step, dif_neg hk, OrderedTable.lookup_append]
        split
        · rintro ⟨⟩
          exact h n hc
        · exact ht
  | leave n =>
      simp only [Members.step]
      split
      · rw [OrderedTable.lookup_erase]
        split
        · simp
        · exact ht
      · exact ht
  | getUser n => cases hw : t.lookup n <;> simpa only [Members.step, hw] using ht
  | listUsers => exact ht
  | postMessage message fromWho =>
      simp only [Members.step]
      split <;> exact ht

/-! ## The broadcast -/

/-- Without null proxies the dictionary is a list of reachable members. -/
theorem exists_members (h : Represents r t) (hn : ∀ nick, t.lookup nick ≠ some none) :
    ∃ members : List (String × U), (members.map Prod.fst).Nodup ∧
      (∀ nick u, (nick, u) ∈ members ↔ t.lookup nick = some (some u)) ∧
      r.nickUserDictionary.toList = members.map fun e => (e.1, some e.2) := by
  have hmem : ∀ nick who, (nick, who) ∈ r.nickUserDictionary.toList ↔ t.lookup nick = some who :=
    fun nick who => by rw [Std.TreeMap.mem_toList_iff_getElem?_eq_some, h.dictionary]
  have hsome : ∀ e ∈ r.nickUserDictionary.toList, ∃ u, e.2 = some u := by
    rintro ⟨nick, who⟩ he
    cases who with
    | none => exact absurd ((hmem nick none).mp he) (hn nick)
    | some u => exact ⟨u, rfl⟩
  have hnd : (r.nickUserDictionary.toList.map Prod.fst).Nodup := by
    rw [Std.TreeMap.map_fst_toList_eq_keys]
    exact Std.TreeMap.nodup_keys
  obtain ⟨members, hlist⟩ : ∃ members : List (String × U),
      r.nickUserDictionary.toList = members.map fun e => (e.1, some e.2) := by
    generalize r.nickUserDictionary.toList = entries at hsome
    induction entries with
    | nil => exact ⟨[], rfl⟩
    | cons e es ih =>
        obtain ⟨u, hu⟩ := hsome e (List.mem_cons_self ..)
        obtain ⟨rest, hrest⟩ := ih fun e' he' => hsome e' (List.mem_cons_of_mem _ he')
        exact ⟨(e.1, u) :: rest, by rw [hrest, List.map_cons, ← hu]⟩
  refine ⟨members, ?_, fun nick u => ?_, hlist⟩
  · rw [hlist, List.map_map] at hnd
    exact hnd
  · rw [← hmem, hlist, List.mem_map]
    constructor
    · exact fun he => ⟨(nick, u), he, rfl⟩
    · rintro ⟨⟨nick', u'⟩, he, heq⟩
      cases heq
      exact he

/-- While the containers hold the members, `postMessage` does what it should. -/
theorem broadcastRight_of_represents (h : Represents r t)
    (hn : ∀ nick, t.lookup nick ≠ some none) (message fromWho : String) :
    BroadcastRight t.lookup message fromWho
      (step (fun _ => .ok ()) r (.postMessage message fromWho)).2 := by
  unfold BroadcastRight
  cases hw : t.lookup fromWho with
  | none =>
      have hu := mt (h.mem_users fromWho).mp ((t.lookup_eq_none_iff fromWho).mp hw)
      simp only [step, postMessage_unlisted _ message hu, Option.isSome_none, Bool.false_eq_true,
        if_false]
      exact ⟨rfl, trivial⟩
  | some who =>
      have hu : fromWho ∈ r.users := by
        rw [h.mem_users]
        exact OrderedTable.mem_keys_of_lookup hw
      obtain ⟨members, hnd, hmem, hlist⟩ := exists_members h hn
      simp only [step, postMessage_listed _ message hu, hlist, sendAll_reachable,
        Option.isSome_some, if_true]
      exact ⟨rfl, members, hnd, hmem, rfl⟩

/-- At every point of a run a `postMessage` reaches exactly the members, exactly
when members leave in the order in which they joined. -/
theorem broadcast_throughout_iff {calls : List (Call U)} (hn : NonNull calls) :
    (∀ before after, calls = before ++ after → ∀ message fromWho,
      BroadcastRight (currentMember (log before)) message fromWho
        (step (fun _ => .ok ()) (run (step fun _ => .ok ()) .init before)
          (.postMessage message fromWho)).2) ↔
      JoinOrder calls := by
  constructor
  · intro h
    by_contra ho
    obtain ⟨before, nick, after, oldest, younger, he, hb, hk, hy, hne⟩ :=
      exists_leave_out_of_order ho
    obtain ⟨hleave, hold⟩ := leave_out_of_order (fun _ => .ok ()) hb hk hy
    have hpost := h (before ++ [.leave nick]) after (by rw [he]; simp) "" oldest
    have hmember : currentMember (log (before ++ [.leave nick])) =
        Function.update (run Members.step .empty before).lookup nick none := by
      rw [log, answers_append, List.zip_append (by simp), currentMember, List.foldl_append]
      rw [answers_cons, hleave]
      show recordMember (currentMember (log before)) (.leave nick, { result := .ok .unit }) = _
      rw [currentMember_log hb]
      rfl
    have hin : oldest ∈ (run Members.step .empty before).keys := by
      rw [hk]; exact List.mem_cons_self ..
    obtain ⟨who, hwho⟩ := OrderedTable.exists_lookup hin
    rw [hmember, run_append, run_cons, hleave, BroadcastRight, Function.update_of_ne hne, hwho]
      at hpost
    simp only [Option.isSome_some, if_true, run_nil, step,
      postMessage_unlisted _ "" (r := ⟨younger, _⟩) hold, Except.map] at hpost
    cases hpost.1
  · intro ho before after he message fromWho
    rw [he, JoinOrder, along_append] at ho
    rw [currentMember_log ho.1]
    have hnb : NonNull before := fun nick hm => hn nick (he ▸ List.mem_append_left _ hm)
    exact broadcastRight_of_represents (represents_run _ ho.1) (lookup_ne_null hnb) message fromWho

/-- A message to the two members left of three, after the oldest one left. -/
theorem broadcast_throughout_in_join_order :
    BroadcastRight
      (currentMember (log [Call.join "a" (some 1), .join "b" (some 2), .leave "a",
        .join "c" (some 1)])) "hi" "b"
      (step (fun _ => .ok ()) (run (step fun _ => .ok ()) .init
        [Call.join "a" (some 1), .join "b" (some 2), .leave "a", .join "c" (some 1)])
        (.postMessage "hi" "b")).2 :=
  (broadcast_throughout_iff (by intro nick; simp)).mpr (by decide) _ [] rfl "hi" "b"

/-- With `"a"` the older member, `"a"` can no longer post after `Leave("b")`. -/
theorem broadcast_fails_after_leave_of_newest :
    ¬ BroadcastRight
      (currentMember (log [Call.join "a" (some 1), .join "b" (some 2), .leave "b"])) "hi" "a"
      (step (fun _ => .ok ()) (run (step fun _ => .ok ()) .init
        [Call.join "a" (some 1), .join "b" (some 2), .leave "b"]) (.postMessage "hi" "a")).2 := by
  intro h
  have hmember : (currentMember (log [Call.join "a" (some 1), .join "b" (some 2), .leave "b"])
      "a").isSome = true := by decide
  rw [BroadcastRight, if_pos hmember] at h
  exact absurd h.1 (by decide)

end ChatRoomImpl

end Rso.Chat
