import Mathlib.Data.String.Basic
import Rso.Chat.Broadcast

/-!
# A room with dead members

A client that ends without a `Leave` stays a member, and a call of its proxy
raises.  `postMessage` calls the members in the order of their nicks and has no
handler, so the first proxy that raises ends the loop.  Who is reached is then a
question of names: the members whose nicks sort before the nick of every member
that raises, and nobody else (`postMessage_reached`).
-/

namespace Rso.Chat

open Runs Members

/-! ## Prefixes of sorted lists -/

/-- In a sorted list the elements before the first that fails are those below
every one that fails. -/
theorem mem_takeWhile_iff_of_pairwise {α : Type} {r : α → α → Prop} (hirrefl : ∀ a, ¬ r a a)
    (htrans : ∀ a b c, r a b → r b c → r a c) {p : α → Bool} {l : List α}
    (h : l.Pairwise r) (x : α) :
    x ∈ l.takeWhile p ↔ x ∈ l ∧ ∀ y ∈ l, p y = false → r x y := by
  induction l with
  | nil => simp
  | cons a l ih =>
      obtain ⟨ha, hl⟩ := List.pairwise_cons.mp h
      cases hp : p a with
      | false =>
          rw [List.takeWhile_cons_of_neg (by simp [hp])]
          refine ⟨fun hx => absurd hx List.not_mem_nil, fun ⟨hx, hbelow⟩ => ?_⟩
          have hxa := hbelow a (List.mem_cons_self ..) hp
          rcases List.mem_cons.mp hx with rfl | hx
          · exact absurd hxa (hirrefl x)
          · exact absurd (htrans x a x hxa (ha x hx)) (hirrefl x)
      | true =>
          rw [List.takeWhile_cons_of_pos hp, List.mem_cons, ih hl, List.mem_cons]
          constructor
          · rintro (rfl | ⟨hx, hbelow⟩)
            · refine ⟨Or.inl rfl, List.forall_mem_cons.mpr ⟨?_, fun y hy _ => ha y hy⟩⟩
              intro hfail
              rw [hp] at hfail
              cases hfail
            · refine ⟨Or.inr hx, List.forall_mem_cons.mpr ⟨?_, hbelow⟩⟩
              intro hfail
              rw [hp] at hfail
              cases hfail
          · rintro ⟨rfl | hx, hbelow⟩
            · exact Or.inl rfl
            · exact Or.inr ⟨hx, fun y hy => hbelow y (List.mem_cons_of_mem _ hy)⟩

namespace ChatRoomImpl

variable {U : Type}

/-- The calls that bring these members into a room. -/
def joins (members : List (String × U)) : List (Call U) :=
  members.map fun e => .join e.1 (some e.2)

/-- The room of these members. -/
def joined (sendMessage : U → Except Exception Unit) (members : List (String × U)) :
    ChatRoomImpl U :=
  run (step sendMessage) .init (joins members)

/-- What a message should do in a room with dead members: it reaches each member
whose proxy does not raise, once. -/
def ReachesLive (sendMessage : U → Except Exception Unit) (members : List (String × U))
    (message fromWho : String) (a : Answer U) : Prop :=
  ∃ reached : List (String × U), (reached.map Prod.fst).Nodup ∧ (∀ e ∈ reached, e ∈ members) ∧
    (∀ e ∈ members, sendMessage e.2 = .ok () → e ∈ reached) ∧
    a.sent = reached.map fun e => ⟨e.2, message, fromWho⟩

/-! ## The room -/

/-- A run of joins is in join order. -/
theorem along_joins :
    ∀ (members : List (String × U)) (t : Members U),
      Along Members.step LeavesOldest t (joins members)
  | [], _ => trivial
  | _ :: es, _ => ⟨trivial, along_joins es _⟩

/-- Joins of fresh nicks append the members to the table. -/
theorem entries_joins :
    ∀ (members : List (String × U)) (t : Members U),
      (t.keys ++ members.map Prod.fst).Nodup →
      (run Members.step t (joins members)).entries =
        t.entries ++ members.map fun e => (e.1, some e.2) := by
  intro members
  induction members with
  | nil =>
      intro t _
      exact (List.append_nil _).symm
  | cons e es ih =>
      intro t hnd
      have hfresh : e.1 ∉ t.keys := fun hk =>
        List.disjoint_of_nodup_append hnd hk (List.mem_cons_self ..)
      have hstep : (Members.step t (.join e.1 (some e.2))).1 = t.append e.1 (some e.2) hfresh := by
        rw [Members.step, dif_neg hfresh]
      show (run Members.step (Members.step t (.join e.1 (some e.2))).1 (joins es)).entries = _
      rw [hstep, ih _ (by rw [OrderedTable.append_keys, List.append_assoc]; exact hnd),
        OrderedTable.append_entries, List.append_assoc]
      rfl

/-- The members of the room and their proxies, in the order of the dictionary. -/
theorem exists_sorted_members (sendMessage : U → Except Exception Unit)
    {members : List (String × U)} (hnd : (members.map Prod.fst).Nodup) :
    (joined sendMessage members).users = members.map Prod.fst ∧
      ∃ sorted : List (String × U), sorted.Pairwise (fun a b => a.1 < b.1) ∧
        (∀ e, e ∈ sorted ↔ e ∈ members) ∧
        (joined sendMessage members).nickUserDictionary.toList =
          sorted.map fun e => (e.1, some e.2) := by
  have h := represents_run sendMessage (along_joins members .empty)
  have hentries := entries_joins members .empty hnd
  have hlookup : ∀ nick who,
      (run Members.step .empty (joins members)).lookup nick = some who ↔
        (nick, who) ∈ members.map fun e => (e.1, some e.2) := by
    intro nick who
    rw [← OrderedTable.mem_entries_iff, hentries]
    rfl
  constructor
  · rw [joined, h.users, OrderedTable.keys, hentries, List.map_append, List.map_map]
    rfl
  · obtain ⟨sorted, -, hmem, hlist⟩ := exists_members h fun nick hnull => by
      obtain ⟨e, -, he⟩ := List.mem_map.mp ((hlookup nick none).mp hnull)
      cases he
    refine ⟨sorted, ?_, ?_, hlist⟩
    · have hsorted := Std.TreeMap.ordered_keys_toList
        (t := (joined sendMessage members).nickUserDictionary)
      rw [joined, hlist, List.pairwise_map] at hsorted
      exact hsorted.imp fun hlt => compare_lt_iff_lt.mp hlt
    · rintro ⟨nick, u⟩
      rw [hmem, hlookup, List.mem_map]
      constructor
      · rintro ⟨e, he, heq⟩
        cases heq
        exact he
      · exact fun he => ⟨(nick, u), he, rfl⟩

/-! ## The broadcast -/

/-- The loop reaches the members before the first that raises. -/
theorem sendAll_takeWhile (sendMessage : U → Except Exception Unit) (message fromWho : String)
    (members : List (String × U)) :
    (sendAll sendMessage message fromWho (members.map fun e => (e.1, some e.2))).1 =
      (members.takeWhile fun e => decide (sendMessage e.2 = .ok ())).map
        fun e => ⟨e.2, message, fromWho⟩ := by
  induction members with
  | nil => rfl
  | cons e es ih =>
      rw [List.map_cons, sendAll, List.takeWhile_cons]
      cases hu : sendMessage e.2 with
      | error e' => simp
      | ok _ => simp [ih]

/-- A message of a member reaches exactly the members whose nicks sort before the
nick of every member that raises, each of them once. -/
theorem postMessage_reached (sendMessage : U → Except Exception Unit)
    {members : List (String × U)} (hnd : (members.map Prod.fst).Nodup) (message : String)
    {fromWho : String} (hfrom : fromWho ∈ members.map Prod.fst) :
    ∃ reached : List (String × U), (reached.map Prod.fst).Nodup ∧
      (∀ e, e ∈ reached ↔
        e ∈ members ∧ ∀ d ∈ members, (∃ ex, sendMessage d.2 = .error ex) → e.1 < d.1) ∧
      (step sendMessage (joined sendMessage members) (.postMessage message fromWho)).2.sent =
        reached.map fun e => ⟨e.2, message, fromWho⟩ := by
  obtain ⟨husers, sorted, hsorted, hmem, hlist⟩ := exists_sorted_members sendMessage hnd
  refine ⟨sorted.takeWhile fun e => decide (sendMessage e.2 = .ok ()), ?_, fun e => ?_, ?_⟩
  · refine List.Nodup.sublist ((List.takeWhile_sublist _).map Prod.fst) ?_
    exact List.pairwise_map.mpr (hsorted.imp fun hlt => ne_of_lt hlt)
  · rw [mem_takeWhile_iff_of_pairwise (r := fun a b : String × U => a.1 < b.1)
      (fun a => lt_irrefl a.1) (fun a b c => lt_trans) hsorted, hmem]
    refine and_congr_right fun _ => forall_congr' fun d => ?_
    rw [hmem]
    refine forall_congr' fun _ => ?_
    cases hd : sendMessage d.2 <;> simp
  · rw [step, postMessage_listed _ _ (husers ▸ hfrom), hlist]
    exact sendAll_takeWhile sendMessage message fromWho sorted

/-- A call of user 1 raises. -/
def firstDead (u : ℕ) : Except Exception Unit :=
  if u = 1 then .error (.ice .localException) else .ok ()

/-- The dead `"b"` has joined last and stands between the others in the dictionary. -/
theorem postMessage_reached_firstDead :
    ∃ reached : List (String × ℕ), (reached.map Prod.fst).Nodup ∧
      (∀ e, e ∈ reached ↔ e ∈ [("c", 3), ("a", 2), ("b", 1)] ∧
        ∀ d ∈ [("c", 3), ("a", 2), ("b", 1)], (∃ ex, firstDead d.2 = .error ex) → e.1 < d.1) ∧
      (step firstDead (joined firstDead [("c", 3), ("a", 2), ("b", 1)])
        (.postMessage "hi" "c")).2.sent = reached.map fun e => ⟨e.2, "hi", "c"⟩ := by
  have hnd : (([("c", 3), ("a", 2), ("b", 1)] : List (String × ℕ)).map Prod.fst).Nodup := by
    decide
  exact postMessage_reached firstDead hnd "hi" (by decide)

/-- The sender itself gets nothing behind a dead member. -/
theorem not_reachesLive_firstDead :
    ¬ ReachesLive firstDead [("a", 1), ("b", 2)] "hi" "b"
      (step firstDead (joined firstDead [("a", 1), ("b", 2)]) (.postMessage "hi" "b")).2 := by
  rintro ⟨reached, -, -, hlive, hsent⟩
  have hnone : (step firstDead (joined firstDead [("a", 1), ("b", 2)])
      (.postMessage "hi" "b")).2.sent = [] := by decide
  rw [hnone] at hsent
  rw [List.map_eq_nil_iff.mp hsent.symm] at hlive
  exact absurd (hlive ("b", 2) (by decide) (by decide)) List.not_mem_nil

end ChatRoomImpl

end Rso.Chat
