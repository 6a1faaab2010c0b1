import Rso.Chat.Server

/-!
# The server under several dispatch threads

With more than one dispatch thread a `newChatRoom` gives way to other requests
at each of its remote calls.  A request in flight is then a name and a phase,
the remote call it waits for, and `System.step` is one atomic piece of local
work: the code between two remote calls, the publication, or one of the two
operations that hold `roomFactoryListMutex`.

The local variables of the loop live in the phase.  `min` is not among them: the
loop never assigns it, so it is 0 throughout.

An access `roomFactoryList[i]` reads the list as it is at that moment.  The loop
test `index < roomFactoryList.size()` is made in the same piece of work as the
access it guards.  The test for an empty list and the choice of `min_index` are
not, and other requests can shorten the list in between.

An action that no request is waiting for does nothing, so every list of actions
is a run.  `Event` records what a step did that later theorems speak about.
-/

namespace Rso.Chat

open Runs

/-- What a `newChatRoom` in flight waits for. -/
inductive Phase (F R : Type) where
  /-- The reply of `roomFactoryList[index]->getNumberOfRooms()`. -/
  | counting (index minIndex : Nat)
  /-- The reply of `roomFactory->newChatRoom(name)`. -/
  | creating (roomFactory : F)
  /-- Nothing: it has the room and is about to publish it. -/
  | publishing (room : Prx R)
  /-- Nothing: it has returned or raised. -/
  | finished (result : Except Exception (Prx R))

/-- A `newChatRoom` request. -/
structure Request (F R : Type) where
  name : String
  phase : Phase F R

/-- The servant and the requests dispatched so far, numbered in that order. -/
structure System (F R : Type) where
  servant : ChatServerImpl F R
  requests : List (Request F R)

/-- A step of the system.  Replies carry the number of their request. -/
inductive Action (F R : Type) where
  | newChatRoom (name : String)
  | counted (id : Nat) (reply : Except Exception Int)
  | created (id : Nat) (reply : Except Exception (Prx R))
  | publish (id : Nat)
  | registerFactory (roomFactory : Prx F)
  | unregisterFactory (roomFactory : Prx F)

/-- What a step did. -/
inductive Event (F R : Type) where
  /-- A request found its name free. -/
  | checked (id : Nat) (name : String)
  /-- A request read `roomFactoryList[index]`, of so many entries. -/
  | accessed (id index size : Nat)
  /-- A request asked a factory for its room. -/
  | asked (id : Nat) (roomFactory : F)
  /-- A request published its room and returned it. -/
  | published (id : Nat) (name : String) (room : Prx R)

namespace System

variable {F R : Type}

/-- The system at the start: a fresh servant and no request. -/
def init : System F R := ⟨.init, []⟩

/-- The request `id` goes to another phase. -/
def move (s : System F R) (id : Nat) (name : String) (phase : Phase F R) : System F R :=
  { s with requests := s.requests.set id ⟨name, phase⟩ }

/-- The request `id` after a move, and the others. -/
theorem getElem?_move {s : System F R} {id : Nat} {name : String} {old phase : Phase F R}
    (hreq : s.requests[id]? = some ⟨name, old⟩) (i : Nat) :
    (s.move id name phase).requests[i]? =
      if i = id then some ⟨name, phase⟩ else s.requests[i]? := by
  have hlt : id < s.requests.length := (List.getElem?_eq_some_iff.mp hreq).1
  rw [move, List.getElem?_set]
  rcases eq_or_ne id i with rfl | hi
  · simp [hlt]
  · simp [hi, Ne.symm hi]

/-- A request after a move is the one that moved, or it was there before. -/
theorem request_moved {s : System F R} {id : Nat} {name : String} {old phase : Phase F R}
    (hreq : s.requests[id]? = some ⟨name, old⟩) {i : Nat} {r : Request F R}
    (h : (s.move id name phase).requests[i]? = some r) :
    s.requests[i]? = some r ∨ i = id ∧ r = ⟨name, phase⟩ := by
  rw [getElem?_move hreq] at h
  split at h
  next hi =>
    cases h
    exact Or.inr ⟨hi, rfl⟩
  next => exact Or.inl h

/-- A request after a dispatch is the one dispatched, or it was there before. -/
theorem request_dispatched {requests : List (Request F R)} {new r : Request F R} {i : Nat}
    (h : (requests ++ [new])[i]? = some r) :
    requests[i]? = some r ∨ i = requests.length ∧ r = new := by
  rw [List.getElem?_append] at h
  split at h
  next => exact Or.inl h
  next hle =>
    rw [List.getElem?_singleton] at h
    split at h
    next =>
      cases h
      exact Or.inr ⟨by omega, rfl⟩
    next => cases h

/-- The loop of `newChatRoom` from its test on: up to the next remote call, or out
of the loop and up to the call of the chosen factory. -/
def seek (id : Nat) (factories : List (Prx F)) (index minIndex : Nat) :
    Phase F R × List (Event F R) :=
  match factories[index]? with
  | some (some _) => (.counting index minIndex, [.accessed id index factories.length])
  | some none =>
      (.finished (.error .nullHandleException), [.accessed id index factories.length])
  | none =>
      match factories[minIndex]? with
      | some (some f) =>
          (.creating f, [.accessed id minIndex factories.length, .asked id f])
      | some none =>
          (.finished (.error .nullHandleException), [.accessed id minIndex factories.length])
      | none =>
          (.finished (.error .undefinedBehaviour), [.accessed id minIndex factories.length])

/-- One atomic step. -/
def step [BEq F] (s : System F R) : Action F R → System F R × List (Event F R)
  | .newChatRoom name =>
      let id := s.requests.length
      if s.servant.roomList.any (·.name == name) then
        ({ s with requests := s.requests ++ [⟨name, .finished (.error .nameAlreadyExists)⟩] }, [])
      else if s.servant.roomFactoryList.isEmpty then
        ({ s with requests := s.requests ++
            [⟨name, .finished (.error (.text "There is no room factories."))⟩] },
          [.checked id name])
      else
        let (phase, events) := seek id s.servant.roomFactoryList 0 0
        ({ s with requests := s.requests ++ [⟨name, phase⟩] }, .checked id name :: events)
  | .counted id reply =>
      match s.requests[id]? with
      | some ⟨name, .counting index minIndex⟩ =>
          match reply with
          | .error e => (s.move id name (.finished (.error e)), [])
          | .ok n =>
              let (phase, events) := seek id s.servant.roomFactoryList (index + 1)
                (if 0 < n then index else minIndex)
              (s.move id name phase, events)
      | _ => (s, [])
  | .created id reply =>
      match s.requests[id]? with
      | some ⟨name, .creating _⟩ =>
          match reply with
          | .error e => (s.move id name (.finished (.error e)), [])
          | .ok room => (s.move id name (.publishing room), [])
      | _ => (s, [])
  | .publish id =>
      match s.requests[id]? with
      | some ⟨name, .publishing room⟩ =>
          ({ s.move id name (.finished (.ok room)) with servant := s.servant.publish name room },
            [.published id name room])
      | _ => (s, [])
  | .registerFactory f => ({ s with servant := s.servant.registerFactory f }, [])
  | .unregisterFactory f => ({ s with servant := s.servant.unregisterFactory f }, [])

/-- What the steps of a run did, in order. -/
def events [BEq F] (actions : List (Action F R)) : List (Event F R) :=
  (answers step init actions).flatten

theorem events_concat [BEq F] (actions : List (Action F R)) (a : Action F R) :
    events (actions ++ [a]) = events actions ++ (step (run step init actions) a).2 := by
  rw [events, answers_append, List.flatten_append, answers_cons, answers_nil, List.flatten_cons,
    List.flatten_nil, List.append_nil, events]

/-! ## What a step does to the rooms -/

/-- The name an event publishes. -/
def publishedName : Event F R → Option String
  | .published _ name _ => some name
  | _ => none

/-- The names published, in order. -/
def publishedNames (events : List (Event F R)) : List String := events.filterMap publishedName

theorem publishedNames_append (es es' : List (Event F R)) :
    publishedNames (es ++ es') = publishedNames es ++ publishedNames es' := List.filterMap_append

theorem publishedNames_seek (id : Nat) (factories : List (Prx F)) (index minIndex : Nat) :
    publishedNames (seek (R := R) id factories index minIndex).2 = [] := by
  unfold seek
  split
  next => rfl
  next => rfl
  next => split <;> rfl

/-- A loop never returns a room. -/
theorem seek_phase (id : Nat) (factories : List (Prx F)) (index minIndex : Nat) (room : Prx R) :
    (seek (R := R) id factories index minIndex).1 ≠ .finished (.ok room) := by
  unfold seek
  split
  next => simp
  next => simp
  next => split <;> simp

/-- The servant's rooms are the same: only the factories may differ. -/
def SameRooms (s s' : System F R) : Prop :=
  s'.servant.roomList = s.servant.roomList ∧
    s'.servant.nameChatDictionary = s.servant.nameChatDictionary

/-- All that a step can do to the rooms and the requests. -/
inductive Effect (s : System F R) : System F R → List (Event F R) → Prop where
  /-- No request moves. -/
  | quiet {s' : System F R} : SameRooms s s' → s'.requests = s.requests → Effect s s' []
  /-- A request is dispatched and found its name taken. -/
  | refused {s' : System F R} {name : String} {e : Exception} : SameRooms s s' →
      s'.requests = s.requests ++ [⟨name, .finished (.error e)⟩] → Effect s s' []
  /-- A request is dispatched and found its name free. -/
  | arrived {s' : System F R} {name : String} {phase : Phase F R} {es : List (Event F R)} :
      SameRooms s s' → name ∉ s.servant.names → (∀ room, phase ≠ .finished (.ok room)) →
      s'.requests = s.requests ++ [⟨name, phase⟩] → publishedNames es = [] →
      Effect s s' (.checked s.requests.length name :: es)
  /-- A request in flight takes a reply. -/
  | moved {id : Nat} {name : String} {old phase : Phase F R} {es : List (Event F R)} :
      s.requests[id]? = some ⟨name, old⟩ → (∀ result, old ≠ .finished result) →
      (∀ room, phase ≠ .finished (.ok room)) → publishedNames es = [] →
      Effect s (s.move id name phase) es
  /-- A request publishes its room. -/
  | published {id : Nat} {name : String} {room : Prx R} :
      s.requests[id]? = some ⟨name, .publishing room⟩ →
      Effect s { s.move id name (.finished (.ok room)) with
        servant := s.servant.publish name room } [.published id name room]

theorem sameRooms_refl (s : System F R) : SameRooms s s := ⟨rfl, rfl⟩

theorem effect_stutter (s : System F R) : Effect s s [] := .quiet (sameRooms_refl s) rfl

/-- Every step has one of these effects. -/
theorem step_effect [BEq F] (s : System F R) (a : Action F R) :
    Effect s (s.step a).1 (s.step a).2 := by
  cases a with
  | newChatRoom name =>
      simp only [step]
      split
      next => exact .refused ⟨rfl, rfl⟩ rfl
      next hany =>
        have hfree : name ∉ s.servant.names := mt (s.servant.any_name_iff name).mpr hany
        split
        next => exact .arrived ⟨rfl, rfl⟩ hfree (by simp) rfl rfl
        next =>
          exact .arrived ⟨rfl, rfl⟩ hfree (seek_phase _ _ _ _) rfl (publishedNames_seek _ _ _ _)
  | counted id reply =>
      simp only [step]
      split
      next name index minIndex hreq =>
        cases reply with
        | error e => exact .moved hreq (by simp) (by simp) rfl
        | ok n =>
            exact .moved hreq (by simp) (seek_phase _ _ _ _) (publishedNames_seek _ _ _ _)
      next => exact effect_stutter s
  | created id reply =>
      simp only [step]
      split
      next name f hreq =>
        cases reply with
        | error e => exact .moved hreq (by simp) (by simp) rfl
        | ok room => exact .moved hreq (by simp) (by simp) rfl
      next => exact effect_stutter s
  | publish id =>
      simp only [step]
      split
      next name room hreq => exact .published hreq
      next => exact effect_stutter s
  | registerFactory f => exact .quiet ⟨rfl, rfl⟩ rfl
  | unregisterFactory f => exact .quiet ⟨rfl, rfl⟩ rfl

end System

end Rso.Chat
