import Rso.Lib.Script
import Rso.Chat.World

/-!
# The client program

Each menu action of `Client` is a script of remote calls.  What the user types is
an argument, and what is only printed is left out, except for the lists that an
action prints.

A `try` of the client has handlers for some user exceptions, and perhaps one for
`Ice::UnknownException`, the base of what Ice raises for a servant that threw
anything not declared.  Anything else passes through (`handling`).

`userRooms` is the client's own record of the rooms it is in.
-/

namespace Rso.Chat

open Script (invoke)

/-- A script of calls to the chat system. -/
abbrev Program (I α : Type) : Type := Script (Remote.Result (I := I)) Exception α

/-- One remote call. -/
abbrev remote {I : Type} (c : Remote I) : Program I c.Result := invoke c

/-- The exceptions that a handler for `Ice::UnknownException` takes. -/
def Exception.IsUnknown (e : Exception) : Prop :=
  e = .ice .unknownUserException ∨ e = .ice .unknownException

instance (e : Exception) : Decidable e.IsUnknown := inferInstanceAs (Decidable (_ ∨ _))

/-- A `try` block whose handlers go on with `otherwise`. -/
def handling {I α : Type} (handled : Exception → Prop) [DecidablePred handled]
    (otherwise : Program I α) (body : Program I α) : Program I α :=
  tryCatch body fun e => if handled e then otherwise else throw e

/-- The members of a `Client` that its actions use. -/
structure Client (I : Type) where
  username : String
  /-- The proxy of the client's own object. -/
  user : Prx I
  userRooms : List RoomInfo

namespace Client

variable {I : Type} (c : Client I)

/-- The names in `userRooms`. -/
def joined : List String := c.userRooms.map RoomInfo.name

/-! ## The menu actions -/

def createRoom (roomName : String) : Program I Unit :=
  handling (fun e => e = .nameAlreadyExists ∨ e.IsUnknown) (return ()) do
    let _ ← remote (.newChatRoom roomName)
    return ()

/-- The names that are printed. -/
def printListAllRooms : Program I (List String) := do
  let rooms ← remote .getRooms
  return rooms.map RoomInfo.name

def joinToRoom (name : String) : Program I (Client I) :=
  handling (fun e => e = .noSuchRoom ∨ e = .nickNotAvailable ∨ e.IsUnknown) (return c) do
    let room ← remote (.getRoom name)
    remote (.join room c.username c.user)
    return { c with userRooms := c.userRooms ++ [⟨name, 0⟩] }

/-- The loop of `leaveRoom`, with the entries that the iterator has passed and
the rest.  A room that was left is erased, and the method returns. -/
def leaveFrom (username roomName : String) :
    (passed rest : List RoomInfo) → Program I (List RoomInfo)
  | passed, [] => return passed
  | passed, room :: rest =>
      if room.name = roomName then do
        let left ← handling (fun e => e = .noSuchUser ∨ e.IsUnknown) (return false) do
          let chatRoom ← remote (.getRoom roomName)
          remote (.leave chatRoom username)
          return true
        if left then return passed ++ rest else leaveFrom username roomName (passed ++ [room]) rest
      else leaveFrom username roomName (passed ++ [room]) rest

def leaveRoom (roomName : String) : Program I (Client I) := do
  let userRooms ← leaveFrom c.username roomName [] c.userRooms
  return { c with userRooms := userRooms }

/-- `room_name` is the argument, and `typed` the name that is asked for when the
argument is empty. -/
def getUsersInRoom (room_name typed : String) : Program I (List String) :=
  let roomName := if room_name.isEmpty then typed else room_name
  handling (fun e => e = .noSuchRoom ∨ e.IsUnknown) (return []) do
    let room ← remote (.getRoom roomName)
    let users ← remote (.listUsers room)
    return users

/-- The nicks that are printed. -/
def printUsersInRoom (typed : String) : Program I (List String) :=
  handling (fun e => e.IsUnknown) (return []) (getUsersInRoom "" typed)

def sendMessageToRoom (targetRoom content : String) : Program I Unit :=
  if c.userRooms.any (·.name == targetRoom) then
    handling (fun e => e = .noSuchUser) (return ()) <|
      handling (fun e => e = .noSuchRoom) (return ()) do
        let chatRoom ← remote (.getRoom targetRoom)
        remote (.postMessage chatRoom content c.username)
  else return ()

def sendPrivateMessageToUser (targetChannel typed targetUsername message : String) :
    Program I Unit := do
  let found ← handling (fun e => e = .noSuchRoom) (return none) do
    let usersAvailable ← getUsersInRoom targetChannel typed
    return some usersAvailable
  match found with
  | none => return ()
  | some usersAvailable =>
      if usersAvailable.any (· == targetUsername) then
        handling (fun e => e = .noSuchUser ∨ e = .noSuchRoom) (return ()) do
          let chatRoom ← remote (.getRoom targetChannel)
          let userPrx ← remote (.getUser chatRoom targetUsername)
          remote (.sendPrivateMessage userPrx message c.username)
      else return ()

/-- A choice of the menu other than the exit, with what is typed for it. -/
inductive Action where
  | createRoom (roomName : String)
  | printListAllRooms
  | joinToRoom (name : String)
  | leaveRoom (roomName : String)
  | sendMessageToRoom (targetRoom content : String)
  | printUsersInRoom (typed : String)
  | sendPrivateMessageToUser (targetChannel typed targetUsername message : String)
deriving DecidableEq

/-- A turn of the menu loop.  It ends with the client as the action leaves it. -/
def act : Action → Program I (Client I)
  | .createRoom roomName => do
      createRoom roomName
      return c
  | .printListAllRooms => do
      let _ ← printListAllRooms
      return c
  | .joinToRoom name => c.joinToRoom name
  | .leaveRoom roomName => c.leaveRoom roomName
  | .sendMessageToRoom targetRoom content => do
      c.sendMessageToRoom targetRoom content
      return c
  | .printUsersInRoom typed => do
      let _ ← printUsersInRoom typed
      return c
  | .sendPrivateMessageToUser targetChannel typed targetUsername message => do
      c.sendPrivateMessageToUser targetChannel typed targetUsername message
      return c

/-! ## The exit -/

/-- The loop of `disconnect`: one turn for each entry that the iterator still has
to pass, and `userRooms.at(counter)` in each turn. -/
def disconnectFrom : (rest : List RoomInfo) → (counter : Nat) → Program I Unit
  | [], _ => return ()
  | _ :: rest, counter => do
      let counter ← handling (fun e => e = .noSuchUser ∨ e.IsUnknown) (return counter) do
        match c.userRooms[counter]? with
        | none => throw .outOfRange
        | some roomInfo =>
            let chatRoom ← remote (.getRoom roomInfo.name)
            remote (.leave chatRoom c.username)
            return counter + 1
      disconnectFrom rest counter

def disconnect : Program I Unit := c.disconnectFrom c.userRooms 0

/-- The loop of `~Client`.  What comes after it, the end of the communicator, is
no call of the system. -/
def destructorFrom : List RoomInfo → Program I Unit
  | [] => return ()
  | room :: rest => do
      let chatRoomPrx ← remote (.getRoom room.name)
      remote (.leave chatRoomPrx c.username)
      destructorFrom rest

def destructor : Program I Unit := c.destructorFrom c.userRooms

/-- Menu option 0: `disconnect`, and the end of `main` destroys the client. -/
def exit : Program I Unit := do
  c.disconnect
  c.destructor

end Client

/-! ## Running alone -/

section Running

variable {I α : Type} {w : World I} {d : Directory Nat} {ice : Creation}

theorem run_remote (c : Remote I) :
    (remote c).run (World.handle ice) w =
      ⟨(World.handle ice c w).1, [c], (World.handle ice c w).2⟩ :=
  Script.run_invoke c w

/-- A program that begins with the lookup of a bound name. -/
theorem run_getRoom_bound (hw : World.Wired w d) {name : String} {n : Nat}
    (hn : d.lookup name = some (some n)) (f : Prx Nat → Program I α) :
    (remote (.getRoom name) >>= f).run (World.handle ice) w =
      ((f (some n)).run (World.handle ice) w).after [.getRoom name] := by
  have hget : (remote (.getRoom name)).run (World.handle ice) w =
      ⟨.ok (some n), [.getRoom name], w⟩ := by
    rw [run_remote, hw.getRoom_bound ice hn]
  rw [Script.run_bind_ok (congrArg Script.Outcome.result hget), hget]

theorem run_getRoom_unbound (hw : World.Wired w d) {name : String} (hn : d.lookup name = none)
    (f : Prx Nat → Program I α) :
    (remote (.getRoom name) >>= f).run (World.handle ice) w =
      ⟨.error .noSuchRoom, [.getRoom name], w⟩ := by
  have hget : (remote (.getRoom name)).run (World.handle ice) w =
      ⟨.error .noSuchRoom, [.getRoom name], w⟩ := by
    rw [run_remote, hw.getRoom_unbound ice hn]
  rw [Script.run_bind_error (congrArg Script.Outcome.result hget), hget]

variable {handled : Exception → Prop} [DecidablePred handled] {otherwise body : Program I α}

/-- The handlers have no part in a `try` block that returns. -/
theorem run_handling_ok {a : α} (h : (body.run (World.handle ice) w).result = .ok a) :
    (handling handled otherwise body).run (World.handle ice) w =
      body.run (World.handle ice) w :=
  Script.run_tryCatch_ok h

theorem run_handling_error {e : Exception} (he : handled e)
    (h : (body.run (World.handle ice) w).result = .error e) :
    (handling handled otherwise body).run (World.handle ice) w =
      (otherwise.run (World.handle ice) (body.run (World.handle ice) w).state).after
        (body.run (World.handle ice) w).calls := by
  rw [handling, Script.run_tryCatch_error h, if_pos he]

/-- A `try` block that looks up a bound name and makes calls on the room that
return. -/
theorem run_handling_located (hw : World.Wired w d) {name : String} {n : Nat}
    (hn : d.lookup name = some (some n)) {p : Prx Nat → Program I Unit} {a : α}
    {calls : List (Remote I)} {w' : World I}
    (hp : (p (some n)).run (World.handle ice) w = ⟨.ok (), calls, w'⟩) :
    Script.run (World.handle ice) (handling handled otherwise do
        let room ← remote (.getRoom name)
        p room
        return a) w =
      ⟨.ok a, .getRoom name :: calls, w'⟩ := by
  have hreturn := congrArg Script.Outcome.result hp
  rw [run_handling_ok, run_getRoom_bound hw hn, Script.run_bind_ok hreturn, hp]
  · simp [Script.Outcome.after]
  · rw [run_getRoom_bound hw hn, Script.run_bind_ok hreturn]
    rfl

end Running

end Rso.Chat
