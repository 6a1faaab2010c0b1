import Rso.Lib.OrderedTable
import Rso.Chat.Room

/-!
# What a room is for

A room is a table of members: an insertion-ordered map from nicks to proxies.
`Members.step` says what each call should do to the table and what it should
return.  It is a statement of purpose and is not read off the C++.

`Represents` ties the servant's two containers to a table: `users` lists the
keys and `nickUserDictionary` is the lookup.  Every call keeps it but one.  A
`Leave` of a member other than the oldest takes the oldest nick out of `users`,
so the condition on a call is `LeavesOldest`, and a run whose calls all meet it
is in `JoinOrder`.
-/

namespace Rso.Chat

open Runs

/-- The members of a room: nicks bound to proxies, in join order. -/
abbrev Members (U : Type) : Type := OrderedTable String (Prx U)

namespace Members

open ChatRoomImpl (Call Value)

variable {U : Type}

/-- What a call should do to the members, and what it should return. -/
def step (t : Members U) : Call U → Members U × Except Exception (Value U)
  | .join nick who =>
      if h : nick ∈ t.keys then (t, .error .nickNotAvailable)
      else (t.append nick who h, .ok .unit)
  | .leave nick =>
      if nick ∈ t.keys then (t.erase nick, .ok .unit) else (t, .error .noSuchUser)
  | .getUser nick =>
      match t.lookup nick with
      | some who => (t, .ok (.proxy who))
      | none => (t, .error .noSuchUser)
  | .listUsers => (t, .ok (.users t.keys))
  | .postMessage _ fromWho =>
      if fromWho ∈ t.keys then (t, .ok .unit) else (t, .error .noSuchUser)

/-- A `Leave` of a member names the member that joined first of those present. -/
def LeavesOldest (t : Members U) : Call U → Prop
  | .leave nick => nick ∈ t.keys → t.keys.head? = some nick
  | _ => True

instance (t : Members U) : ∀ c : Call U, Decidable (LeavesOldest t c)
  | .leave nick => inferInstanceAs (Decidable (nick ∈ t.keys → t.keys.head? = some nick))
  | .join _ _ => inferInstanceAs (Decidable True)
  | .getUser _ => inferInstanceAs (Decidable True)
  | .listUsers => inferInstanceAs (Decidable True)
  | .postMessage _ _ => inferInstanceAs (Decidable True)

/-- Members leave in the order in which they joined. -/
def JoinOrder (calls : List (Call U)) : Prop := Along step LeavesOldest .empty calls

instance (calls : List (Call U)) : Decidable (JoinOrder calls) :=
  inferInstanceAs (Decidable (Along step LeavesOldest .empty calls))

/-! ## The members of the servant -/

/-- The two containers of the servant hold the members `t`. -/
structure Represents (r : ChatRoomImpl U) (t : Members U) : Prop where
  users : r.users = t.keys
  dictionary : ∀ nick, r.nickUserDictionary[nick]? = t.lookup nick

theorem init_represents : Represents (ChatRoomImpl.init : ChatRoomImpl U) .empty :=
  ⟨rfl, fun _ => Std.TreeMap.getElem?_emptyc⟩

variable {sendMessage : U → Except Exception Unit} {r : ChatRoomImpl U} {t : Members U}

theorem Represents.mem_users (h : Represents r t) (nick : String) :
    nick ∈ r.users ↔ nick ∈ t.keys := by
  rw [h.users]

/-- A listed nick is looked up without changing the dictionary. -/
theorem Represents.getUser (h : Represents r t) {nick : String} {who : Prx U}
    (hw : t.lookup nick = some who) : r.getUser nick = (.ok who, r) := by
  have hk : nick ∈ t.keys := OrderedTable.mem_keys_of_lookup hw
  exact ChatRoomImpl.getUser_bound ((h.mem_users nick).mpr hk) (by rw [h.dictionary, hw])

theorem Represents.join (h : Represents r t) {nick : String} (who : Prx U)
    (hk : nick ∉ t.keys) : Represents (r.join nick who).2 (t.append nick who hk) := by
  rw [ChatRoomImpl.join_fresh who (by rwa [h.users])]
  refine ⟨by rw [OrderedTable.append_keys, ← h.users], fun n => ?_⟩
  rw [Dictionary.getElem?_insert, OrderedTable.lookup_append, h.dictionary]

/-- `Leave` of the oldest member takes out that member. -/
theorem Represents.leave (h : Represents r t) {nick : String} (hk : nick ∈ t.keys)
    (ho : t.keys.head? = some nick) : Represents (r.leave nick).2 (t.erase nick) := by
  rw [ChatRoomImpl.leave_listed (by rwa [h.users])]
  refine ⟨by rw [OrderedTable.erase_head ho, ← h.users], fun n => ?_⟩
  rw [Dictionary.getElem?_erase, OrderedTable.lookup_erase, h.dictionary]

/-- Every call that meets `LeavesOldest` keeps the containers and the members
together. -/
theorem Represents.step (h : Represents r t) {c : Call U} (hc : LeavesOldest t c) :
    Represents (r.step sendMessage c).1 (Members.step t c).1 := by
  cases c with
  | join nick who =>
      by_cases hk : nick ∈ t.keys
      · simpa only [ChatRoomImpl.step, ChatRoomImpl.join_listed who ((h.mem_users nick).mpr hk),
          Members.step, dif_pos hk] using h
      · simpa only [ChatRoomImpl.step, Members.step, dif_neg hk] using h.join who hk
  | leave nick =>
      by_cases hk : nick ∈ t.keys
      · simpa only [ChatRoomImpl.step, Members.step, if_pos hk] using h.leave hk (hc hk)
      · simpa only [ChatRoomImpl.step, ChatRoomImpl.leave_unlisted (mt (h.mem_users nick).mp hk),
          Members.step, if_neg hk] using h
  | getUser nick =>
      cases hw : t.lookup nick with
      | some who => simpa only [ChatRoomImpl.step, h.getUser hw, Members.step, hw] using h
      | none =>
          have hk := (t.lookup_eq_none_iff nick).mp hw
          simpa only [ChatRoomImpl.step, Members.step, hw,
            ChatRoomImpl.getUser_unlisted (mt (h.mem_users nick).mp hk)] using h
  | listUsers => exact h
  | postMessage message fromWho =>
      have ht : (Members.step t (.postMessage message fromWho)).1 = t := by
        simp only [Members.step]; split <;> rfl
      rw [ht]
      exact h

/-- After a run in join order the containers hold the members. -/
theorem represents_run (sendMessage : U → Except Exception Unit) {calls : List (Call U)}
    (h : JoinOrder calls) :
    Represents (run (ChatRoomImpl.step sendMessage) .init calls) (run step .empty calls) :=
  run_simulates (fun _ _ _ hr hc => hr.step hc) calls init_represents h

/-! ## The first `Leave` out of order -/

/-- A run that is not in join order has a first `Leave` that names a member
`nick` while an older member is present. -/
theorem exists_leave_out_of_order {calls : List (Call U)} (h : ¬ JoinOrder calls) :
    ∃ before nick after oldest younger, calls = before ++ .leave nick :: after ∧
      JoinOrder before ∧ (run step .empty before).keys = oldest :: younger ∧
      nick ∈ younger ∧ oldest ≠ nick := by
  obtain ⟨before, c, after, he, hb, hc⟩ := exists_first_failure step LeavesOldest _ _ h
  cases c with
  | leave nick =>
      simp only [LeavesOldest, Classical.not_imp] at hc
      obtain ⟨hmem, hhead⟩ := hc
      cases hk : (run step .empty before).keys with
      | nil => rw [hk] at hmem; cases hmem
      | cons oldest younger =>
          rw [hk] at hmem hhead
          have hne : oldest ≠ nick := fun ho => hhead (by rw [ho]; rfl)
          have hy : nick ∈ younger := by
            cases hmem with
            | head => exact absurd rfl hne
            | tail _ hy => exact hy
          exact ⟨before, nick, after, oldest, younger, he, hb, hk, hy, hne⟩
  | join nick who => exact absurd trivial hc
  | getUser nick => exact absurd trivial hc
  | listUsers => exact absurd trivial hc
  | postMessage message fromWho => exact absurd trivial hc

/-- What that `Leave` does to the servant: the oldest nick goes out of `users`
and the named one out of the dictionary. -/
theorem leave_out_of_order (sendMessage : U → Except Exception Unit) {before : List (Call U)}
    {nick oldest : String} {younger : List String} (hb : JoinOrder before)
    (hk : (run step .empty before).keys = oldest :: younger) (hy : nick ∈ younger) :
    let r := run (ChatRoomImpl.step sendMessage) .init before
    ChatRoomImpl.step sendMessage r (.leave nick) =
        (⟨younger, r.nickUserDictionary.erase nick⟩, { result := .ok .unit }) ∧
      oldest ∉ younger := by
  intro r
  have hr := represents_run sendMessage hb
  have hu : r.users = oldest :: younger := hr.users.trans hk
  have hmem : nick ∈ r.users := by rw [hu]; exact List.mem_cons_of_mem _ hy
  have hnd := (run step .empty before).keys_nodup
  rw [hk, List.nodup_cons] at hnd
  refine ⟨?_, hnd.1⟩
  simp only [ChatRoomImpl.step, ChatRoomImpl.leave_listed hmem, hu, List.tail_cons, Except.map]

end Members

end Rso.Chat
