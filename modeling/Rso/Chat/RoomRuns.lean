import Rso.Chat.Membership

/-!
# Runs of a room

Two properties of a whole run of `ChatRoomImpl`, and the runs that have them.

The representation invariant `Inv` says that `users` repeats no nick and lists
the keys of the dictionary.  The refinement `AnswersAsTable` says that each call
returns what the membership table returns.  Both fail after a `Leave` of a
member other than the oldest, and both hold throughout a run in `JoinOrder`.

For the refinement the failure need not show in the answers already given.  It
shows in what `listUsers` answers next, because a nick lost from `users` can
neither leave nor join again without an answer that differs (`Lost`).
-/

namespace Rso.Chat

open Runs Members

namespace ChatRoomImpl

variable {U : Type}

/-! ## The representation invariant -/

/-- `users` repeats no nick and lists the keys of `nickUserDictionary`. -/
structure Inv (r : ChatRoomImpl U) : Prop where
  nodup : r.users.Nodup
  keys : ∀ nick, nick ∈ r.users ↔ nick ∈ r.nickUserDictionary

theorem inv_of_represents {r : ChatRoomImpl U} {t : Members U} (h : Represents r t) : Inv r := by
  refine ⟨by rw [h.users]; exact t.keys_nodup, fun nick => ?_⟩
  rw [h.mem_users, Std.TreeMap.mem_iff_isSome_getElem?, h.dictionary, ← not_iff_not,
    ← t.lookup_eq_none_iff, Option.not_isSome_iff_eq_none]

/-- The invariant holds in every state of a run exactly when members leave in
the order in which they joined. -/
theorem inv_throughout_iff (sendMessage : U → Except Exception Unit) (calls : List (Call U)) :
    (∀ before after, calls = before ++ after → Inv (run (step sendMessage) .init before)) ↔
      JoinOrder calls := by
  constructor
  · intro h
    by_contra ho
    obtain ⟨before, nick, after, oldest, younger, he, hb, hk, hy, -⟩ :=
      exists_leave_out_of_order ho
    have hinv := h (before ++ [.leave nick]) after (by rw [he]; simp)
    rw [run_append, run_cons, (leave_out_of_order sendMessage hb hk hy).1] at hinv
    have hin := (hinv.keys nick).mp hy
    simp at hin
  · intro ho before after he
    rw [he, JoinOrder, along_append] at ho
    exact inv_of_represents (represents_run sendMessage ho.1)

/-- With `"a"` the older member, `Leave("b")` leaves `"b"` listed and unbound. -/
theorem inv_fails_after_leave_of_newest :
    ¬ Inv (run (step fun _ => .ok ()) (init : ChatRoomImpl Nat)
      [.join "a" (some 1), .join "b" (some 2), .leave "b"]) := by
  intro h
  have hin := (h.keys "b").mp (by decide)
  exact absurd hin (by decide)

/-! ## Refinement of the membership table -/

/-- A call answers as the table does.  `join` may fail with any exception, and a
`postMessage` is not compared. -/
def Agrees (c : Call U) (code spec : Except Exception (Value U)) : Prop :=
  match c, code, spec with
  | .postMessage _ _, _, _ => True
  | .join _ _, .error _, .error _ => True
  | _, _, _ => code = spec

/-- Every call of the run answers as the membership table does after the same
calls. -/
def AnswersAsTable (sendMessage : U → Except Exception Unit) (calls : List (Call U)) : Prop :=
  ∀ before c after, calls = before ++ c :: after →
    Agrees c (step sendMessage (run (step sendMessage) .init before) c).2.result
      (Members.step (run Members.step .empty before) c).2

variable {sendMessage : U → Except Exception Unit} {r : ChatRoomImpl U} {t : Members U}

/-- While the containers hold the members every call answers as the table. -/
theorem agrees_of_represents (h : Represents r t) (c : Call U) :
    Agrees c (step sendMessage r c).2.result (Members.step t c).2 := by
  cases c with
  | join nick who =>
      by_cases hk : nick ∈ t.keys
      · simp only [step, join_listed who ((h.mem_users nick).mpr hk), Members.step, dif_pos hk]
        trivial
      · simp only [step, join_fresh who (mt (h.mem_users nick).mp hk), Members.step, dif_neg hk]
        rfl
  | leave nick =>
      by_cases hk : nick ∈ t.keys
      · simp only [step, leave_listed ((h.mem_users nick).mpr hk), Members.step, if_pos hk]
        rfl
      · simp only [step, leave_unlisted (mt (h.mem_users nick).mp hk), Members.step, if_neg hk]
        rfl
  | getUser nick =>
      cases hw : t.lookup nick with
      | some who =>
          simp only [step, h.getUser hw, Members.step, hw]
          rfl
      | none =>
          have hk := mt (h.mem_users nick).mp ((t.lookup_eq_none_iff nick).mp hw)
          simp only [step, getUser_unlisted hk, Members.step, hw]
          rfl
  | listUsers =>
      simp only [step, listUsers, Members.step, h.users]
      rfl
  | postMessage message fromWho => trivial

/-- A member of the table that `users` no longer lists. -/
def Lost (nick : String) (r : ChatRoomImpl U) (t : Members U) : Prop :=
  nick ∈ t.keys ∧ nick ∉ r.users

/-- A call that answers as the table does not bring a lost nick back. -/
theorem Lost.step {lost : String} (h : Lost lost r t) {c : Call U}
    (ha : Agrees c (step sendMessage r c).2.result (Members.step t c).2) :
    Lost lost (ChatRoomImpl.step sendMessage r c).1 (Members.step t c).1 := by
  obtain ⟨hin, hout⟩ := h
  cases c with
  | join nick who =>
      by_cases hu : nick ∈ r.users <;> by_cases hk : nick ∈ t.keys <;>
        simp only [ChatRoomImpl.step, join_listed, join_fresh, Members.step, hu, hk,
          not_false_eq_true, dif_pos, dif_neg] at ha ⊢
      · exact ⟨hin, hout⟩
      · cases ha
      · cases ha
      · have hne : lost ≠ nick := fun he => hk (he ▸ hin)
        exact ⟨by simp [hin], by simp [hout, hne]⟩
  | leave nick =>
      by_cases hu : nick ∈ r.users <;> by_cases hk : nick ∈ t.keys <;>
        simp only [ChatRoomImpl.step, leave_listed, leave_unlisted, Members.step, hu, hk,
          not_false_eq_true, if_true, if_false] at ha ⊢
      · have hne : lost ≠ nick := fun he => hout (he ▸ hu)
        refine ⟨?_, fun hm => hout (List.mem_of_mem_tail hm)⟩
        rw [OrderedTable.erase_keys]
        exact (List.mem_erase_of_ne hne).mpr hin
      · cases ha
      · cases ha
      · exact ⟨hin, hout⟩
  | getUser nick =>
      have hr : (ChatRoomImpl.step sendMessage r (.getUser nick)).1.users = r.users := by
        simp only [ChatRoomImpl.step, ChatRoomImpl.getUser]; split <;> rfl
      have ht : (Members.step t (.getUser nick)).1 = t := by
        simp only [Members.step]; split <;> rfl
      exact ⟨by rw [ht]; exact hin, by rw [hr]; exact hout⟩
  | listUsers => exact ⟨hin, hout⟩
  | postMessage message fromWho =>
      have ht : (Members.step t (.postMessage message fromWho)).1 = t := by
        simp only [Members.step]; split <;> rfl
      exact ⟨by rw [ht]; exact hin, hout⟩

/-- A nick lost at some point of a run that answers as the table is lost at its
end. -/
theorem Lost.run {lost : String} :
    ∀ (calls : List (Call U)) {r : ChatRoomImpl U} {t : Members U}, Lost lost r t →
      (∀ before c after, calls = before ++ c :: after →
        Agrees c (ChatRoomImpl.step sendMessage
            (Runs.run (ChatRoomImpl.step sendMessage) r before) c).2.result
          (Members.step (Runs.run Members.step t before) c).2) →
      Lost lost (Runs.run (ChatRoomImpl.step sendMessage) r calls)
        (Runs.run Members.step t calls) := by
  intro calls
  induction calls with
  | nil =>
      intro _ _ h _
      exact h
  | cons c calls ih =>
      intro _ _ h ha
      refine ih (h.step (ha [] c calls rfl)) ?_
      intro before d after he
      exact ha (c :: before) d after (by rw [he]; rfl)

/-- A run answers as the membership table, and goes on to do so whatever is
called next, exactly when members leave in the order in which they joined. -/
theorem answersAsTable_iff (sendMessage : U → Except Exception Unit) (calls : List (Call U)) :
    (∀ next, AnswersAsTable sendMessage (calls ++ [next])) ↔ JoinOrder calls := by
  constructor
  · intro h
    by_contra ho
    obtain ⟨before, nick, after, oldest, younger, he, hb, hk, hy, hne⟩ :=
      exists_leave_out_of_order ho
    obtain ⟨hleave, hold⟩ := leave_out_of_order sendMessage hb hk hy
    have hlost : Lost oldest
        (step sendMessage (run (step sendMessage) .init before) (.leave nick)).1
        (Members.step (run Members.step .empty before) (.leave nick)).1 := by
      rw [hleave]
      refine ⟨?_, hold⟩
      simp only [Members.step, hk, List.mem_cons, hy, or_true, if_true]
      rw [OrderedTable.erase_keys, hk]
      exact (List.mem_erase_of_ne hne).mpr (List.mem_cons_self ..)
    have hend := hlost.run after fun before' c after' he' => by
      have ha := h .listUsers (before ++ .leave nick :: before') c (after' ++ [.listUsers])
        (by rw [he, he']; simp)
      rwa [run_append, run_append, run_cons, run_cons] at ha
    have hlist := h .listUsers calls .listUsers [] rfl
    rw [he, run_append, run_append, run_cons, run_cons] at hlist
    have hsame : (run (step sendMessage) (step sendMessage
          (run (step sendMessage) .init before) (.leave nick)).1 after).users =
        (run Members.step (Members.step
          (run Members.step .empty before) (.leave nick)).1 after).keys := by
      simpa only [Agrees, step, listUsers, Members.step, Except.ok.injEq,
        Value.users.injEq] using hlist
    exact hend.2 (hsame ▸ hend.1)
  · intro ho next before c after he
    have hb : JoinOrder before := by
      rcases after.eq_nil_or_concat with rfl | ⟨front, last, rfl⟩
      · rwa [← List.append_inj_left' he rfl]
      · have he' : calls ++ [next] = (before ++ c :: front) ++ [last] := by rw [he]; simp
        rw [List.append_inj_left' he' rfl, JoinOrder, along_append] at ho
        exact ho.1
    exact agrees_of_represents (represents_run sendMessage hb) c

/-- With `"a"` the older member, `listUsers` still names `"b"` after
`Leave("b")`, and no longer `"a"`. -/
theorem answers_differ_after_leave_of_newest :
    ¬ AnswersAsTable (U := Nat) (fun _ => .ok ())
      [.join "a" (some 1), .join "b" (some 2), .leave "b", .listUsers] := by
  intro h
  have hlist := h [.join "a" (some 1), .join "b" (some 2), .leave "b"] .listUsers [] rfl
  simp only [Agrees] at hlist
  exact absurd hlist (by decide)

end ChatRoomImpl

end Rso.Chat
