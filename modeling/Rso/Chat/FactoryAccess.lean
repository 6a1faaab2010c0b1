import Rso.Chat.Dispatch
import Rso.Chat.Selection

/-!
# The factory list under interleaved unregistration

`newChatRoom` reads `roomFactoryList` without the lock that `registerFactory` and
`unregisterFactory` take.  Inside the loop that does no harm as long as the test
and the access it guards are one piece of work.  At the end of the loop
`min_index` is used without a test, and the list may have become shorter since
the factory at that position gave its answer.

What a request has been told by the factories (`told`) fixes `min_index`: it is
the position of the last positive count.  So the accesses stay inside the list
in exactly the runs in which that position still exists when a loop ends
(`EndsInside`).
-/

namespace Rso.Chat.System

open Runs
open ChatServerImpl (lastPositive lastPositive_concat)

variable {F R : Type}

/-! ## Accesses -/

/-- What a step reads lies inside the list, and it asks a factory of the list. -/
structure AccessRight (factories : List (Prx F)) (es : List (Event F R)) : Prop where
  inside : ∀ id index size, .accessed id index size ∈ es → index < factories.length
  registered : ∀ id f, .asked id f ∈ es → some f ∈ factories

theorem accessRight_nil (factories : List (Prx F)) :
    AccessRight factories ([] : List (Event F R)) :=
  ⟨fun _ _ _ h => absurd h List.not_mem_nil, fun _ _ h => absurd h List.not_mem_nil⟩

theorem accessRight_checked (factories : List (Prx F)) (id : Nat) (name : String)
    (es : List (Event F R)) :
    AccessRight factories (.checked id name :: es) ↔ AccessRight factories es := by
  constructor
  · intro h
    exact ⟨fun i k n hm => h.inside i k n (List.mem_cons_of_mem _ hm),
      fun i f hm => h.registered i f (List.mem_cons_of_mem _ hm)⟩
  · intro h
    refine ⟨fun i k n hm => ?_, fun i f hm => ?_⟩
    · cases hm with
      | tail _ hm => exact h.inside i k n hm
    · cases hm with
      | tail _ hm => exact h.registered i f hm

/-- The loop goes wrong only at its end, when `min_index` is past the list. -/
theorem seek_accessRight_iff (id : Nat) (factories : List (Prx F)) (index minIndex : Nat) :
    AccessRight factories (seek (R := R) id factories index minIndex).2 ↔
      (factories.length ≤ index → minIndex < factories.length) := by
  rw [seek]
  cases hindex : factories[index]? with
  | some f =>
      have hlt := (List.getElem?_eq_some_iff.mp hindex).1
      have hright : AccessRight factories
          [(Event.accessed id index factories.length : Event F R)] := by
        refine ⟨fun i k n hm => ?_, fun i g hm => ?_⟩
        · cases List.mem_singleton.mp hm
          exact hlt
        · cases List.mem_singleton.mp hm
      cases f with
      | none => exact ⟨fun _ hle => absurd hlt (Nat.not_lt.mpr hle), fun _ => hright⟩
      | some f => exact ⟨fun _ hle => absurd hlt (Nat.not_lt.mpr hle), fun _ => hright⟩
  | none =>
      have hle := List.getElem?_eq_none_iff.mp hindex
      cases hmin : factories[minIndex]? with
      | none =>
          have hout := List.getElem?_eq_none_iff.mp hmin
          constructor
          · intro h
            exact absurd (h.inside id minIndex _ (List.mem_singleton_self _)) (Nat.not_lt.mpr hout)
          · intro h
            exact absurd (h hle) (Nat.not_lt.mpr hout)
      | some f =>
          have hlt := (List.getElem?_eq_some_iff.mp hmin).1
          refine ⟨fun _ _ => hlt, fun _ => ?_⟩
          cases f with
          | none =>
              refine ⟨fun i k n hm => ?_, fun i g hm => ?_⟩
              · cases List.mem_singleton.mp hm
                exact hlt
              · cases List.mem_singleton.mp hm
          | some f =>
              refine ⟨fun i k n hm => ?_, fun i g hm => ?_⟩
              · cases hm with
                | head => exact hlt
                | tail _ hm => cases List.mem_singleton.mp hm
              · cases hm with
                | tail _ hm =>
                    cases List.mem_singleton.mp hm
                    exact List.mem_of_getElem? hmin

theorem seek_counting {id : Nat} {factories : List (Prx F)} {index minIndex i m : Nat}
    (h : (seek (R := R) id factories index minIndex).1 = .counting i m) :
    index = i ∧ minIndex = m := by
  rw [seek] at h
  cases hindex : factories[index]? with
  | some f =>
      rw [hindex] at h
      cases f with
      | none => cases h
      | some f =>
          cases h
          exact ⟨rfl, rfl⟩
  | none =>
      rw [hindex] at h
      cases hmin : factories[minIndex]? with
      | none =>
          rw [hmin] at h
          cases h
      | some f =>
          rw [hmin] at h
          cases f <;> cases h

/-! ## What a request has been told -/

/-- The request waits for the number of rooms of a factory. -/
def Counting (s : System F R) (id : Nat) : Prop :=
  ∃ name index minIndex, s.requests[id]? = some ⟨name, .counting index minIndex⟩

/-- The count that an action tells a request. -/
def toldBy (s : System F R) (id : Nat) : Action F R → List Int
  | .counted id' (.ok n) =>
      match s.requests[id']? with
      | some ⟨_, .counting _ _⟩ => if id' = id then [n] else []
      | _ => []
  | _ => []

/-- The counts that a request has been told in a run, in order. -/
def told [BEq F] (s : System F R) (id : Nat) : List (Action F R) → List Int
  | [] => []
  | a :: as => toldBy s id a ++ told (step s a).1 id as

theorem told_concat [BEq F] (s : System F R) (id : Nat) (as : List (Action F R)) (a : Action F R) :
    told s id (as ++ [a]) = told s id as ++ toldBy (run step s as) id a := by
  induction as generalizing s with
  | nil => simp [told]
  | cons b as ih => rw [List.cons_append, told, told, ih, run_cons, List.append_assoc]

/-- The loop variables of each request follow from what it has been told. -/
structure Heard (s : System F R) (heard : Nat → List Int) : Prop where
  fresh : ∀ id, s.requests.length ≤ id → heard id = []
  counting : ∀ id name index minIndex, s.requests[id]? = some ⟨name, .counting index minIndex⟩ →
    (heard id).length = index ∧ lastPositive (heard id) 0 0 = minIndex

theorem init_heard : Heard (init : System F R) fun _ => [] :=
  ⟨fun _ _ => rfl, fun id name index minIndex h => by simp [init] at h⟩

section Step

variable {s : System F R} {heard : Nat → List Int}

/-- A step after which no request is in the loop that was not there before. -/
theorem Heard.quiet (h : Heard s heard) {s' : System F R}
    (hlength : s.requests.length ≤ s'.requests.length)
    (hsame : ∀ (id : Nat) (name : String) (index minIndex : Nat),
      s'.requests[id]? = some ⟨name, .counting index minIndex⟩ →
        s.requests[id]? = some ⟨name, .counting index minIndex⟩) : Heard s' heard :=
  ⟨fun id hid => h.fresh id (Nat.le_trans hlength hid),
    fun id name index minIndex hreq => h.counting id name index minIndex (hsame _ _ _ _ hreq)⟩

/-- A move of a request out of the loop. -/
theorem Heard.move (h : Heard s heard) {id : Nat} {name : String} {old phase : Phase F R}
    (hreq : s.requests[id]? = some ⟨name, old⟩) (hphase : ∀ i m, phase ≠ .counting i m) :
    Heard (s.move id name phase) heard := by
  refine h.quiet (by simp [System.move]) fun j name' index minIndex hj => ?_
  rcases request_moved hreq hj with hj | ⟨-, heq⟩
  · exact hj
  · cases heq
    exact absurd rfl (hphase _ _)

/-- A request is dispatched. -/
theorem Heard.arrive (h : Heard s heard) {s' : System F R} {name : String} {phase : Phase F R}
    (hreq : s'.requests = s.requests ++ [⟨name, phase⟩])
    (hphase : ∀ i m, phase = .counting i m → i = 0 ∧ m = 0) : Heard s' heard := by
  refine ⟨fun id hid => h.fresh id ?_, fun id name' index minIndex hid => ?_⟩
  · rw [hreq, List.length_append] at hid
    exact Nat.le_trans (Nat.le_add_right ..) hid
  · rcases request_dispatched (hreq ▸ hid) with hid | ⟨rfl, heq⟩
    · exact h.counting id name' index minIndex hid
    · cases heq
      obtain ⟨rfl, rfl⟩ := hphase index minIndex rfl
      rw [h.fresh _ (Nat.le_refl _)]
      exact ⟨rfl, rfl⟩

/-- A request in the loop is told a count, and goes on with the loop or out of it. -/
theorem Heard.counted (h : Heard s heard) {id : Nat} {name : String} {index minIndex : Nat}
    (hreq : s.requests[id]? = some ⟨name, .counting index minIndex⟩) (n : Int) :
    Heard
      (s.move id name (seek id s.servant.roomFactoryList (index + 1)
        (if 0 < n then index else minIndex)).1)
      fun j => heard j ++ if id = j then [n] else [] := by
  obtain ⟨hlength, hlast⟩ := h.counting id name index minIndex hreq
  have hlt : id < s.requests.length := (List.getElem?_eq_some_iff.mp hreq).1
  refine ⟨fun j hj => ?_, fun j name' i m hj => ?_⟩
  · rw [System.move, List.length_set] at hj
    rw [if_neg (by omega), h.fresh j hj, List.append_nil]
  · rw [getElem?_move hreq] at hj
    rcases eq_or_ne j id with rfl | hid
    · rw [if_pos rfl, Option.some.injEq, Request.mk.injEq] at hj
      obtain ⟨hi, hm⟩ := seek_counting hj.2
      rw [if_pos rfl, List.length_append, lastPositive_concat, hlength, hlast, Nat.zero_add]
      exact ⟨hi, hm⟩
    · rw [if_neg hid] at hj
      rw [if_neg (Ne.symm hid), List.append_nil]
      exact h.counting j name' i m hj

theorem Heard.step [BEq F] (h : Heard s heard) (a : Action F R) :
    Heard (s.step a).1 fun id => heard id ++ toldBy s id a := by
  cases a with
  | newChatRoom name =>
      simp only [toldBy, List.append_nil, System.step]
      split
      next => exact h.arrive rfl (by intro i m hp; cases hp)
      next =>
        split
        next => exact h.arrive rfl (by intro i m hp; cases hp)
        next =>
          refine h.arrive rfl fun i m hp => ?_
          obtain ⟨hi, hm⟩ := seek_counting hp
          exact ⟨hi.symm, hm.symm⟩
  | counted id reply =>
      cases reply with
      | error e =>
          simp only [toldBy, List.append_nil, System.step]
          split
          next name index minIndex hreq => exact h.move hreq (by simp)
          next => exact h
      | ok n =>
          cases hreq : s.requests[id]? with
          | none => simpa only [toldBy, System.step, hreq, List.append_nil] using h
          | some request =>
              obtain ⟨name, phase⟩ := request
              cases phase with
              | counting index minIndex =>
                  simp only [toldBy, System.step, hreq]
                  exact h.counted hreq n
              | creating f => simpa only [toldBy, System.step, hreq, List.append_nil] using h
              | publishing room => simpa only [toldBy, System.step, hreq, List.append_nil] using h
              | finished result => simpa only [toldBy, System.step, hreq, List.append_nil] using h
  | created id reply =>
      simp only [toldBy, List.append_nil, System.step]
      split
      next name f hreq =>
        cases reply with
        | error e => exact h.move hreq (by simp)
        | ok room => exact h.move hreq (by simp)
      next => exact h
  | publish id =>
      simp only [toldBy, List.append_nil, System.step]
      split
      next name room hreq =>
        exact (h.move hreq (by simp)).quiet (Nat.le_refl _) fun _ _ _ _ hj => hj
      next => exact h
  | registerFactory f =>
      simp only [toldBy, List.append_nil]
      exact h.quiet (Nat.le_refl _) fun _ _ _ _ hj => hj
  | unregisterFactory f =>
      simp only [toldBy, List.append_nil]
      exact h.quiet (Nat.le_refl _) fun _ _ _ _ hj => hj

end Step

variable [BEq F]

theorem heard_run (actions : List (Action F R)) :
    Heard (run step init actions) fun id => told init id actions := by
  induction actions using List.reverseRecOn with
  | nil => exact init_heard
  | append_singleton actions a ih =>
      simp only [told_concat, run_append]
      exact ih.step a

/-! ## Runs whose accesses are right -/

/-- When a count ends the loop of a request, the position of the last positive
count that it has been told is one of the list. -/
def EndsInside (before : List (Action F R)) : Action F R → Prop
  | .counted id (.ok n) =>
      let factories := (run step init before).servant.roomFactoryList
      let counts := told init id before ++ [n]
      Counting (run step init before) id → factories.length ≤ counts.length →
        lastPositive counts 0 0 < factories.length
  | _ => True

/-- The condition is the exact one at each step. -/
theorem accessRight_iff (before : List (Action F R)) (a : Action F R) :
    AccessRight (run step init before).servant.roomFactoryList
        (step (run step init before) a).2 ↔ EndsInside before a := by
  have hheard := heard_run before
  generalize hs : run step init before = s at hheard
  cases a with
  | newChatRoom name =>
      simp only [EndsInside, iff_true, step]
      split
      next => exact accessRight_nil _
      next =>
        split
        next => exact (accessRight_checked _ _ _ _).mpr (accessRight_nil _)
        next hempty =>
          refine (accessRight_checked _ _ _ _).mpr ((seek_accessRight_iff _ _ _ _).mpr ?_)
          intro hle
          exact absurd (List.isEmpty_iff_length_eq_zero.mpr (Nat.le_zero.mp hle)) hempty
  | counted id reply =>
      cases reply with
      | error e =>
          simp only [EndsInside, iff_true, step]
          split
          next => exact accessRight_nil _
          next => exact accessRight_nil _
      | ok n =>
          simp only [EndsInside, hs, step]
          split
          next name index minIndex hreq =>
            obtain ⟨hlength, hlast⟩ := hheard.counting id name index minIndex hreq
            rw [seek_accessRight_iff, lastPositive_concat, List.length_append, hlength, hlast,
              Nat.zero_add]
            exact ⟨fun h _ => h, fun h => h ⟨name, index, minIndex, hreq⟩⟩
          next hother =>
            refine ⟨fun _ hcounting => ?_, fun _ => accessRight_nil _⟩
            obtain ⟨name, index, minIndex, hreq⟩ := hcounting
            exact absurd hreq (hother name index minIndex)
  | created id reply =>
      simp only [EndsInside, iff_true, step]
      split
      next =>
        cases reply with
        | error e => exact accessRight_nil _
        | ok room => exact accessRight_nil _
      next => exact accessRight_nil _
  | publish id =>
      simp only [EndsInside, iff_true, step]
      split
      next name room hreq =>
        refine ⟨fun i k n hm => ?_, fun i f hm => ?_⟩
        · cases List.mem_singleton.mp hm
        · cases List.mem_singleton.mp hm
      next => exact accessRight_nil _
  | registerFactory f => exact ⟨fun _ => trivial, fun _ => accessRight_nil _⟩
  | unregisterFactory f => exact ⟨fun _ => trivial, fun _ => accessRight_nil _⟩

/-- Every access of a run is right exactly when every loop ends inside the list. -/
theorem accessRight_throughout_iff (actions : List (Action F R)) :
    (∀ before a after, actions = before ++ a :: after →
      AccessRight (run step init before).servant.roomFactoryList
        (step (run step init before) a).2) ↔
      ∀ before a after, actions = before ++ a :: after → EndsInside before a := by
  constructor
  · intro h before a after he
    exact (accessRight_iff before a).mp (h before a after he)
  · intro h before a after he
    exact (accessRight_iff before a).mpr (h before a after he)

/-- The only factory is unregistered before it answers. -/
theorem not_accessRight_unregistered :
    ¬ AccessRight
      (run step init ([.registerFactory (some 0), .newChatRoom "a",
        .unregisterFactory (some 0)] : List (Action Nat Nat))).servant.roomFactoryList
      (step (run step init ([.registerFactory (some 0), .newChatRoom "a",
        .unregisterFactory (some 0)] : List (Action Nat Nat))) (.counted 0 (.ok 0))).2 := by
  intro h
  exact absurd (h.inside 0 0 0 (List.mem_singleton_self _)) (Nat.lt_irrefl 0)

end Rso.Chat.System
