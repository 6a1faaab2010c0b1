import Mathlib.Data.List.Induction
import Mathlib.Data.List.Nodup
import Rso.Chat.Dispatch

/-!
# Room names under interleaved creation

`newChatRoom` looks a name up at its start and publishes it at its end, with
remote calls in between, and takes no lock.  Two requests for one name can both
find it free.

`Logged` ties a state to the events of the run that led to it: the listed names
are the published ones, and a request in flight found its name unpublished at
its check.  So the names stay unique in a run exactly when no request is
overtaken (`NoOvertaking`): between the check of a request and its publication no
other request publishes the same name.
-/

namespace Rso.Chat.System

open Runs

variable {F R : Type}

/-! ## Lists of events -/

/-- An element of an appended list lies in one of the two. -/
theorem split_append {α : Type} {xs ys before after : List α} {a : α}
    (h : xs ++ ys = before ++ a :: after) :
    (∃ more, xs = before ++ a :: more) ∨ ∃ more, before = xs ++ more ∧ ys = more ++ a :: after := by
  rcases List.append_eq_append_iff.mp h with ⟨more, hb, hy⟩ | ⟨more, hx, hc⟩
  · exact Or.inr ⟨more, hb, hy⟩
  · cases more with
    | nil => exact Or.inr ⟨[], by simpa using hx.symm, by simpa using hc.symm⟩
    | cons b more =>
        rw [List.cons_append, List.cons.injEq] at hc
        exact Or.inl ⟨more, by rw [hx, hc.1]⟩

theorem mem_publishedNames {es : List (Event F R)} {id : Nat} {name : String} {room : Prx R}
    (h : .published id name room ∈ es) : name ∈ publishedNames es :=
  List.mem_filterMap.mpr ⟨_, h, rfl⟩

/-- With distinct published names, a name has one publication. -/
theorem published_unique {es : List (Event F R)} (hnd : (publishedNames es).Nodup) {i j : Nat}
    {name : String} {room room' : Prx R} (hi : .published i name room ∈ es)
    (hj : .published j name room' ∈ es) : i = j ∧ room = room' := by
  induction es with
  | nil => cases hi
  | cons e es ih =>
      have htail : (publishedNames es).Nodup :=
        hnd.sublist (List.Sublist.filterMap _ (List.sublist_cons_self e es))
      cases hi with
      | head =>
          cases hj with
          | head => exact ⟨rfl, rfl⟩
          | tail _ hj =>
              have hn : name ∉ publishedNames es := (List.nodup_cons.mp hnd).1
              exact absurd (mem_publishedNames hj) hn
      | tail _ hi =>
          cases hj with
          | head =>
              have hn : name ∉ publishedNames es := (List.nodup_cons.mp hnd).1
              exact absurd (mem_publishedNames hi) hn
          | tail _ hj => exact ih htail hi hj

/-! ## A state and the events that led to it -/

/-- The state `s` was reached with the events `es`. -/
structure Logged (s : System F R) (es : List (Event F R)) : Prop where
  /-- The listed names are the published ones. -/
  names : s.servant.names = publishedNames es
  /-- A request in flight found its name unpublished. -/
  inFlight : ∀ id name phase, s.requests[id]? = some ⟨name, phase⟩ →
    (∀ result, phase ≠ .finished result) →
      ∃ before after, es = before ++ .checked id name :: after ∧ name ∉ publishedNames before
  /-- A request that returned a room published it. -/
  returned : ∀ id name room, s.requests[id]? = some ⟨name, .finished (.ok room)⟩ →
    .published id name room ∈ es
  /-- As long as no name was published twice, published rooms are bound. -/
  bound : (publishedNames es).Nodup → ∀ id name room, .published id name room ∈ es →
    s.servant.nameChatDictionary[name]? = some room
  /-- A request that published found its name unpublished before. -/
  checks : ∀ before after id name room, es = before ++ .published id name room :: after →
    ∃ early between, before = early ++ .checked id name :: between ∧ name ∉ publishedNames early

theorem init_logged : Logged (init : System F R) [] := by
  refine ⟨rfl, fun id name phase h => ?_, fun id name room h => ?_, fun _ id name room h => ?_,
    fun before after id name room h => ?_⟩
  · simp [init] at h
  · simp [init] at h
  · cases h
  · cases before <;> cases h

variable {s s' : System F R} {es more : List (Event F R)}

/-- The rooms and events of a step that publishes nothing keep what `Logged`
says of them. -/
theorem Logged.checks_append (h : Logged s es) (hmore : publishedNames more = [])
    {before after : List (Event F R)} {id : Nat} {name : String} {room : Prx R}
    (he : es ++ more = before ++ .published id name room :: after) :
    ∃ early between, before = early ++ .checked id name :: between ∧
      name ∉ publishedNames early := by
  rcases split_append he with ⟨rest, hes⟩ | ⟨rest, -, hrest⟩
  · exact h.checks before rest id name room hes
  · have hpublished : .published id name room ∈ more := by simp [hrest]
    have hin := mem_publishedNames hpublished
    rw [hmore] at hin
    cases hin

theorem Logged.inFlight_append (h : Logged s es) (more : List (Event F R)) {id : Nat}
    {name : String} {phase : Phase F R} (hreq : s.requests[id]? = some ⟨name, phase⟩)
    (hphase : ∀ result, phase ≠ .finished result) :
    ∃ before after, es ++ more = before ++ .checked id name :: after ∧
      name ∉ publishedNames before := by
  obtain ⟨before, after, he, hn⟩ := h.inFlight id name phase hreq hphase
  exact ⟨before, after ++ more, by rw [he]; simp, hn⟩

/-- A step that publishes nothing and leaves the rooms alone. -/
theorem Logged.sameRooms (h : Logged s es) (hs : SameRooms s s') (hmore : publishedNames more = [])
    (hflight : ∀ (id : Nat) (name : String) (phase : Phase F R),
      s'.requests[id]? = some ⟨name, phase⟩ →
      (∀ result, phase ≠ .finished result) →
        ∃ before after, es ++ more = before ++ .checked id name :: after ∧
          name ∉ publishedNames before)
    (hret : ∀ (id : Nat) (name : String) (room : Prx R),
      s'.requests[id]? = some ⟨name, .finished (.ok room)⟩ →
        s.requests[id]? = some ⟨name, .finished (.ok room)⟩) : Logged s' (es ++ more) := by
  have hpub : publishedNames (es ++ more) = publishedNames es := by
    rw [publishedNames_append, hmore, List.append_nil]
  refine ⟨?_, hflight, fun id name room hreq => ?_, fun hnd id name room hp => ?_,
    fun before after id name room he => h.checks_append hmore he⟩
  · rw [hpub, ← h.names, ChatServerImpl.names, hs.1]
    rfl
  · exact List.mem_append_left _ (h.returned id name room (hret id name room hreq))
  · rw [hs.2]
    rw [hpub] at hnd
    rcases List.mem_append.mp hp with hp | hp
    · exact h.bound hnd id name room hp
    · have hin := mem_publishedNames hp
      rw [hmore] at hin
      cases hin

/-- A request that publishes its room. -/
theorem Logged.publish (h : Logged s es) {id : Nat} {name : String} {room : Prx R}
    (hreq : s.requests[id]? = some ⟨name, .publishing room⟩) :
    Logged { s.move id name (.finished (.ok room)) with
      servant := s.servant.publish name room } (es ++ [.published id name room]) := by
  refine ⟨?_, fun i name' phase hr hp => ?_, fun i name' room' hr => ?_,
    fun hnd i name' room' hp => ?_, fun before after i name' room' hb => ?_⟩
  · rw [publishedNames_append, ← h.names]
    exact ChatServerImpl.publish_names _ _ _
  · rcases request_moved hreq hr with hr | ⟨-, heq⟩
    · exact h.inFlight_append _ hr hp
    · cases heq
      exact absurd rfl (hp _)
  · rcases request_moved hreq hr with hr | ⟨rfl, heq⟩
    · exact List.mem_append_left _ (h.returned i name' room' hr)
    · cases heq
      exact List.mem_append_right _ (List.mem_singleton_self _)
  · have hd : (s.servant.publish name room).nameChatDictionary[name']? =
        if name' = name then some room else s.servant.nameChatDictionary[name']? :=
      Dictionary.getElem?_insert _ _ _ _
    rw [publishedNames_append, List.nodup_append] at hnd
    rcases List.mem_append.mp hp with hp | hp
    · have hne : name' ≠ name :=
        hnd.2.2 name' (mem_publishedNames hp) name (List.mem_singleton_self _)
      rw [hd, if_neg hne]
      exact h.bound hnd.1 i name' room' hp
    · cases List.mem_singleton.mp hp
      rw [hd, if_pos rfl]
  · rcases split_append hb with ⟨rest, hes⟩ | ⟨rest, hbefore, hrest⟩
    · exact h.checks before rest i name' room' hes
    · cases rest with
      | nil =>
          rw [List.nil_append, List.cons.injEq] at hrest
          cases hrest.1
          rw [hbefore, List.append_nil]
          exact h.inFlight id name _ hreq (by simp)
      | cons e rest => cases rest <;> cases hrest

/-- Every step keeps the state and the events together. -/
theorem Logged.step (h : Logged s es) (he : Effect s s' more) : Logged s' (es ++ more) := by
  cases he with
  | quiet hs hreq =>
      refine h.sameRooms hs rfl (fun id name phase hr hp => ?_) fun id name room hr => ?_
      · exact h.inFlight_append [] (hreq ▸ hr) hp
      · exact hreq ▸ hr
  | refused hs hreq =>
      refine h.sameRooms hs rfl (fun id name phase hr hp => ?_) fun id name room hr => ?_
      · rcases request_dispatched (hreq ▸ hr) with hr | ⟨-, heq⟩
        · exact h.inFlight_append [] hr hp
        · cases heq
          exact absurd rfl (hp _)
      · rcases request_dispatched (hreq ▸ hr) with hr | ⟨-, heq⟩
        · exact hr
        · cases heq
  | @arrived _ name' phase' es' hs hfree hphase hreq hpub =>
      refine h.sameRooms hs hpub (fun id name phase hr hp => ?_) fun id name room hr => ?_
      · rcases request_dispatched (hreq ▸ hr) with hr | ⟨rfl, heq⟩
        · exact h.inFlight_append _ hr hp
        · cases heq
          exact ⟨es, es', rfl, by rw [← h.names]; exact hfree⟩
      · rcases request_dispatched (hreq ▸ hr) with hr | ⟨-, heq⟩
        · exact hr
        · cases heq
          exact absurd rfl (hphase room)
  | @moved id' name' old phase' es' hreq hold hphase hpub =>
      refine h.sameRooms (sameRooms_refl s) hpub (fun id name phase hr hp => ?_)
        fun id name room hr => ?_
      · rcases request_moved hreq hr with hr | ⟨rfl, heq⟩
        · exact h.inFlight_append _ hr hp
        · cases heq
          exact h.inFlight_append _ hreq hold
      · rcases request_moved hreq hr with hr | ⟨-, heq⟩
        · exact hr
        · cases heq
          exact absurd rfl (hphase room)
  | published hreq => exact h.publish hreq

theorem logged_run [BEq F] (actions : List (Action F R)) :
    Logged (run step init actions) (events actions) := by
  induction actions using List.reverseRecOn with
  | nil => exact init_logged
  | append_singleton actions a ih =>
      rw [run_append, events_concat]
      exact ih.step (step_effect _ a)

/-! ## Unique names -/

/-- At most one `newChatRoom` of a name has returned a room, no name is listed
twice, and a room that was returned to a client is the one its name is bound to. -/
structure UniqueNames (s : System F R) : Prop where
  once : ∀ (i j : Nat) (name : String) (room room' : Prx R),
    s.requests[i]? = some ⟨name, .finished (.ok room)⟩ →
    s.requests[j]? = some ⟨name, .finished (.ok room')⟩ → i = j
  listed : s.servant.names.Nodup
  bound : ∀ (id : Nat) (name : String) (room : Prx R),
    s.requests[id]? = some ⟨name, .finished (.ok room)⟩ →
      s.servant.nameChatDictionary[name]? = some room

/-- Between the check of a request and its publication, no other request
publishes the same name. -/
def NoOvertaking (es : List (Event F R)) : Prop :=
  ∀ before between after id name room,
    es = before ++ .checked id name :: between ++ .published id name room :: after →
      name ∉ publishedNames between

/-- A publication that overtakes nobody publishes a name that is new.  So each prefix of
the events is free of repetitions, by its last event. -/
theorem Logged.nodup (h : Logged s es) (hno : NoOvertaking es) : (publishedNames es).Nodup := by
  suffices ∀ front rest, es = front ++ rest → (publishedNames front).Nodup from
    this es [] (by simp)
  intro front
  induction front using List.reverseRecOn with
  | nil => exact fun _ _ => List.nodup_nil
  | append_singleton front e ih =>
      intro rest he
      have hfront := ih (e :: rest) (by rw [he]; simp)
      rw [publishedNames_append]
      cases e with
      | published id name room =>
          have hes : es = front ++ .published id name room :: rest := by rw [he]; simp
          obtain ⟨early, between, hf, hearly⟩ := h.checks front rest id name room hes
          have hbetween := hno early between rest id name room (by rw [hes, hf])
          have hnew : name ∉ publishedNames front := by
            rw [hf, publishedNames_append, List.mem_append]
            exact fun hm => hm.elim hearly hbetween
          exact List.Nodup.append hfront (List.nodup_singleton name)
            (List.disjoint_singleton.mpr hnew)
      | checked id name =>
          rwa [show publishedNames [.checked id name] = [] from rfl, List.append_nil]
      | accessed id index size =>
          rwa [show publishedNames [.accessed id index size] = [] from rfl, List.append_nil]
      | asked id f => rwa [show publishedNames [.asked id f] = [] from rfl, List.append_nil]

theorem Logged.uniqueNames (h : Logged s es) (hnd : (publishedNames es).Nodup) :
    UniqueNames s := by
  refine ⟨fun i j name room room' hi hj => ?_, by rw [h.names]; exact hnd,
    fun id name room hr => h.bound hnd id name room (h.returned id name room hr)⟩
  exact (published_unique hnd (h.returned i name room hi) (h.returned j name room' hj)).1

/-- An overtaken request publishes a name a second time. -/
theorem NoOvertaking.of_nodup (hnd : (publishedNames es).Nodup) : NoOvertaking es := by
  intro before between after id name room he hin
  rw [he, publishedNames_append, List.nodup_append] at hnd
  refine hnd.2.2 name ?_ name (mem_publishedNames (List.mem_cons_self ..)) rfl
  rw [publishedNames_append, List.mem_append]
  exact Or.inr (List.mem_filterMap.mpr ((List.mem_filterMap.mp hin).imp fun e hm =>
    ⟨List.mem_cons_of_mem _ hm.1, hm.2⟩))

/-- The names are unique in every state of a run exactly when no request is
overtaken. -/
theorem uniqueNames_throughout_iff [BEq F] (actions : List (Action F R)) :
    (∀ before after, actions = before ++ after → UniqueNames (run step init before)) ↔
      NoOvertaking (events actions) := by
  constructor
  · intro h
    have hu := (h actions [] (by simp)).listed
    rw [(logged_run actions).names] at hu
    exact .of_nodup hu
  · intro hno before after he
    have hsplit : events actions =
        events before ++ (answers step (run step init before) after).flatten := by
      rw [he, events, answers_append, List.flatten_append, events]
    have hnd := (logged_run actions).nodup hno
    rw [hsplit, publishedNames_append, List.nodup_append] at hnd
    exact (logged_run before).uniqueNames hnd.1

/-- Two requests for one name, both checked before either publishes. -/
theorem uniqueNames_fails_when_overtaken :
    ¬ UniqueNames (run step (init : System Nat Nat)
      [.registerFactory (some 0), .newChatRoom "a", .newChatRoom "a", .counted 0 (.ok 0),
        .counted 1 (.ok 0), .created 0 (.ok (some 10)), .created 1 (.ok (some 11)), .publish 0,
        .publish 1]) := by
  intro h
  exact absurd h.listed (by decide)

end Rso.Chat.System
