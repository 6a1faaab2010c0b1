import Rso.Chat.Dispatch

/-!
# A request that nothing interrupts

`System` cuts `newChatRoom` into atomic steps; `ChatServerImpl.newChatRoom` is
the method as one piece.  Here the two meet: when the replies that a request
waits for come one after the other, and no step of another request between them,
the steps amount to the method.

The replies are sent as a list fixed in advance.  When the request ends early
the rest of them find nobody waiting, and do nothing.
-/

namespace Rso.Chat

open Runs

namespace ChatServerImpl

variable {F R : Type}

/-- What comes of the loop's result: the call of the chosen factory. -/
def createAt (replies : Replies F R) (factories : List (Prx F)) (name : String) :
    Except Exception Nat → Except Exception (Prx R)
  | .error e => .error e
  | .ok minIndex =>
      match factories[minIndex]? with
      | none => .error .undefinedBehaviour
      | some roomFactory => roomFactory.call fun f => replies.newChatRoom f name

/-- What `newChatRoom` comes to after its two tests. -/
def create (replies : Replies F R) (factories : List (Prx F)) (name : String) :
    Except Exception (Prx R) :=
  createAt replies factories name (selectFactory replies.getNumberOfRooms 0 factories 0 0)

theorem newChatRoom_create {replies : Replies F R} {s : ChatServerImpl F R} {name : String}
    (hname : ¬ s.roomList.any (·.name == name) = true)
    (hfactories : ¬ s.roomFactoryList.isEmpty = true) :
    s.newChatRoom replies name =
      match create replies s.roomFactoryList name with
      | .error e => (.error e, s)
      | .ok room => (.ok room, s.publish name room) := by
  rw [newChatRoom, if_neg hname, if_neg hfactories, create]
  cases selectFactory replies.getNumberOfRooms 0 s.roomFactoryList 0 0 with
  | error e => rfl
  | ok minIndex =>
      rw [createAt]
      cases hf : s.roomFactoryList[minIndex]? with
      | none => simp only [hf]
      | some roomFactory =>
          cases hreply : roomFactory.call fun f => replies.newChatRoom f name with
          | error e => simp only [hf, hreply]
          | ok room => simp only [hf, hreply]

end ChatServerImpl

namespace System

open ChatServerImpl (selectFactory create createAt)

variable {F R : Type} [BEq F]

/-- The replies to the loop of request `id`, from one position in the list on. -/
def counts (replies : Replies F R) (id : Nat) : Nat → List (Prx F) → List (Action F R)
  | _, [] => []
  | index, f :: fs =>
      .counted id (f.call (replies.getNumberOfRooms index)) :: counts replies id (index + 1) fs

/-- A request and the replies to it. -/
def undisturbed (replies : Replies F R) (s : System F R) (name : String) : List (Action F R) :=
  .newChatRoom name :: counts replies s.requests.length 0 s.servant.roomFactoryList ++
    [.created s.requests.length (create replies s.servant.roomFactoryList name),
      .publish s.requests.length]

/-- The system after a request of this name has come to this phase. -/
def dispatched (s : System F R) (name : String) (phase : Phase F R) : System F R :=
  { s with requests := s.requests ++ [⟨name, phase⟩] }

section Requests

variable (s : System F R) (name : String)

omit [BEq F] in
theorem dispatched_request (phase : Phase F R) :
    (s.dispatched name phase).requests[s.requests.length]? = some ⟨name, phase⟩ := by
  rw [dispatched, List.getElem?_append_right (Nat.le_refl _), Nat.sub_self]
  rfl

omit [BEq F] in
theorem dispatched_move (phase phase' : Phase F R) :
    (s.dispatched name phase).move s.requests.length name phase' = s.dispatched name phase' := by
  simp [dispatched, move, List.set_append_right]

/-- The phase that a request comes to when it is dispatched. -/
theorem step_newChatRoom :
    (step s (.newChatRoom name)).1 = s.dispatched name
      (if s.servant.roomList.any (·.name == name) then .finished (.error .nameAlreadyExists)
      else if s.servant.roomFactoryList.isEmpty then
        .finished (.error (.text "There is no room factories."))
      else (seek s.requests.length s.servant.roomFactoryList 0 0).1) := by
  rw [step]
  split
  next => rfl
  next =>
    split
    next => rfl
    next => rfl

/-- A request that has ended takes no reply. -/
theorem run_finished (result : Except Exception (Prx R)) (replies : Replies F R) :
    ∀ (fs : List (Prx F)) (index : Nat),
      run step (s.dispatched name (.finished result))
          (counts replies s.requests.length index fs) =
        s.dispatched name (.finished result) := by
  intro fs
  induction fs with
  | nil =>
      intro index
      rfl
  | cons f fs ih =>
      intro index
      rw [counts, run_cons, step, dispatched_request]
      exact ih (index + 1)

theorem run_finished_creation (result reply : Except Exception (Prx R)) :
    run step (s.dispatched name (.finished result))
        [.created s.requests.length reply, .publish s.requests.length] =
      s.dispatched name (.finished result) := by
  simp only [run_cons, run_nil, step, dispatched_request]

/-- Where the loop takes a request when all its replies come. -/
def loopEnd (id : Nat) (factories : List (Prx F)) : Except Exception Nat → Phase F R
  | .error e => .finished (.error e)
  | .ok minIndex => (seek id factories factories.length minIndex).1

/-- The replies to the loop, from any position in the list on. -/
theorem run_counts (replies : Replies F R) :
    ∀ (rest passed : List (Prx F)) (minIndex : Nat),
      s.servant.roomFactoryList = passed ++ rest →
      run step
          (s.dispatched name (seek s.requests.length (passed ++ rest) passed.length minIndex).1)
          (counts replies s.requests.length passed.length rest) =
        s.dispatched name (loopEnd s.requests.length (passed ++ rest)
          (selectFactory replies.getNumberOfRooms 0 rest passed.length minIndex)) := by
  intro rest
  induction rest with
  | nil =>
      intro passed minIndex _
      rw [counts, run_nil, selectFactory, loopEnd, List.append_nil]
  | cons f fs ih =>
      intro passed minIndex hfactories
      have hhere : (passed ++ f :: fs)[passed.length]? = some f := by
        rw [List.getElem?_append_right (Nat.le_refl _), Nat.sub_self]
        rfl
      have hnext := ih (passed ++ [f])
      rw [List.append_assoc, List.singleton_append, List.length_append, List.length_singleton]
        at hnext
      cases f with
      | none =>
          have hseek : (seek (R := R) s.requests.length (passed ++ none :: fs) passed.length
              minIndex).1 = .finished (.error .nullHandleException) := by
            rw [seek, hhere]
          rw [hseek, run_finished]
          rfl
      | some u =>
          have hseek : (seek (R := R) s.requests.length (passed ++ some u :: fs) passed.length
              minIndex).1 = .counting passed.length minIndex := by
            rw [seek, hhere]
          rw [hseek, counts, run_cons, step, dispatched_request]
          cases hcount : Prx.call (some u) (replies.getNumberOfRooms passed.length) with
          | error e =>
              simp only [selectFactory, hcount, dispatched_move]
              exact run_finished ..
          | ok n =>
              simp only [selectFactory, hcount, dispatched_move]
              rw [show (s.dispatched name _).servant.roomFactoryList = _ from hfactories]
              exact hnext _ hfactories

/-- The reply of the chosen factory, and the publication. -/
theorem run_creation (replies : Replies F R) (result : Except Exception Nat) :
    run step (s.dispatched name (loopEnd s.requests.length s.servant.roomFactoryList result))
        [.created s.requests.length (createAt replies s.servant.roomFactoryList name result),
          .publish s.requests.length] =
      match createAt replies s.servant.roomFactoryList name result with
      | .error e => s.dispatched name (.finished (.error e))
      | .ok room =>
          { s.dispatched name (.finished (.ok room)) with
            servant := s.servant.publish name room } := by
  cases result with
  | error e => exact run_finished_creation ..
  | ok minIndex =>
      have hend : s.servant.roomFactoryList[s.servant.roomFactoryList.length]? = none :=
        List.getElem?_eq_none (Nat.le_refl _)
      rw [loopEnd, seek, hend, createAt]
      cases s.servant.roomFactoryList[minIndex]? with
      | none => simp only [run_cons, run_nil, step, dispatched_request]
      | some roomFactory =>
          cases roomFactory with
          | none => simp only [run_cons, run_nil, step, dispatched_request, Prx.call]
          | some f =>
              cases hreply : replies.newChatRoom f name with
              | error e =>
                  simp only [run_cons, run_nil, step, dispatched_request, dispatched_move,
                    Prx.call, hreply]
              | ok room =>
                  simp only [run_cons, run_nil, step, dispatched_request, dispatched_move,
                    Prx.call, hreply]
                  rfl

end Requests

/-- A request that nothing interrupts does what `newChatRoom` does. -/
theorem run_undisturbed (replies : Replies F R) (s : System F R) (name : String) :
    run step s (undisturbed replies s name) =
      { s.dispatched name (.finished (s.servant.newChatRoom replies name).1) with
        servant := (s.servant.newChatRoom replies name).2 } := by
  rw [undisturbed, List.cons_append, run_cons, run_append, step_newChatRoom]
  by_cases hname : s.servant.roomList.any (·.name == name) = true
  · rw [if_pos hname, ChatServerImpl.newChatRoom, if_pos hname, run_finished,
      run_finished_creation]
    rfl
  · rw [if_neg hname]
    by_cases hfactories : s.servant.roomFactoryList.isEmpty = true
    · rw [if_pos hfactories, ChatServerImpl.newChatRoom, if_neg hname, if_pos hfactories,
        run_finished, run_finished_creation]
      rfl
    · have hcounts := s.run_counts name replies s.servant.roomFactoryList [] 0 rfl
      rw [List.nil_append, List.length_nil] at hcounts
      rw [if_neg hfactories, ChatServerImpl.newChatRoom_create hname hfactories, create, hcounts,
        run_creation]
      cases createAt replies s.servant.roomFactoryList name
        (selectFactory replies.getNumberOfRooms 0 s.servant.roomFactoryList 0 0) with
      | error e => rfl
      | ok room => rfl

end System

end Rso.Chat
