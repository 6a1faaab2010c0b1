import Rso.Chat.Room
import Rso.Chat.Selection

/-!
# What `chat.ice` declares

An operation of `chat.ice` names the user exceptions it may raise.  Any other
exception of the servant still comes to an end at the caller, but under another
name: a user exception that is not declared arrives as `UnknownUserException`,
and all else as `UnknownException` (`atCaller`).  The C++ compiler does not
compare the servants with the declarations.

`Proper` is what the interface promises of one call: it raises nothing that is
not declared, and it raises the exception that names the cause exactly when the
cause is there.  Three operations of the room break it.  `join` raises another
exception than the declared one, and `Leave` and `postMessage` declare none.
-/

namespace Rso.Chat

open Runs

/-- The exceptions that `chat.ice` declares as such. -/
def Exception.isUser : Exception → Bool
  | .noSuchRoom | .nameAlreadyExists | .noSuchUser | .nickNotAvailable => true
  | _ => false

/-- A handler for `Ice::Exception` or one for `const char*` takes the exception. -/
def Exception.isIceOrText : Exception → Bool
  | .outOfRange | .undefinedBehaviour => false
  | _ => true

/-- The exception of a servant as its caller gets it. -/
def Exception.atCaller (throws : List Exception) (e : Exception) : Exception :=
  if e ∈ throws then e
  else if e.isUser then .ice .unknownUserException
  else .ice .unknownException

/-- The `throws` clauses of interface `ChatRoom`. -/
def ChatRoomImpl.Call.throws {U : Type} : Call U → List Exception
  | .listUsers => []
  | .join _ _ => [.nickNotAvailable]
  | .postMessage _ _ => []
  | .getUser _ => [.noSuchUser]
  | .leave _ => []

/-- The `throws` clauses of interface `ChatServer`. -/
def ChatServerImpl.Call.throws {F R : Type} : Call F R → List Exception
  | .getRooms => []
  | .getRoom _ => [.noSuchRoom]
  | .newChatRoom _ _ => [.nameAlreadyExists]
  | .registerFactory _ => []
  | .unregisterFactory _ => []

/-! ## Proper results -/

namespace ChatRoomImpl

variable {U : Type}

/-- The cause for a refusal is not there, where `chat.ice` and the servant name
different ones, and a message meets no null proxy. -/
def Served (r : ChatRoomImpl U) : Call U → Prop
  | .listUsers => True
  | .join nick _ => nick ∉ r.users
  | .postMessage _ fromWho =>
      fromWho ∈ r.users ∧ ∀ nick : String, r.nickUserDictionary[nick]? ≠ some none
  | .getUser _ => True
  | .leave nick => nick ∈ r.users

end ChatRoomImpl

/-! ## The server -/

namespace ChatServerImpl

variable {F R : Type}

/-- No null proxy is registered. -/
def NonNull (s : ChatServerImpl F R) : Prop := none ∉ s.roomFactoryList

theorem NonNull.step [BEq F] {s : ChatServerImpl F R} (h : s.NonNull) {c : Call F R}
    (hc : c ≠ .registerFactory none) : (s.step c).1.NonNull := by
  cases c with
  | newChatRoom name replies =>
      rcases newChatRoom_cases replies s name with ⟨e, he⟩ | ⟨room, hr, -⟩
      · simpa only [ChatServerImpl.step, he] using h
      · simp only [ChatServerImpl.step, hr]
        exact h
  | getRooms => exact h
  | getRoom name => simpa only [NonNull, ChatServerImpl.step, getRoom_factories] using h
  | registerFactory f =>
      intro hm
      rcases List.mem_append.mp hm with hm | hm
      · exact h hm
      · exact hc (by rw [← List.mem_singleton.mp hm])
  | unregisterFactory f =>
      intro hm
      rw [ChatServerImpl.step, unregisterFactory, eraseFactory_eq, List.nil_append] at hm
      exact h (List.mem_of_mem_filter hm)

end ChatServerImpl

/-! ## Whole runs -/

end Rso.Chat
