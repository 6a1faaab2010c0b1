import Rso.Lib.Play
import Rso.Chat.Client
import Rso.Chat.Menu

/-!
# The client at its terminal

`main` of the client with all that it reads and prints.  The actions are those of
`Client`, but with their names and messages read from the input, by `cin >>`, `cin.ignore`
and `getline`.

Whoever sits at the terminal types when the program asks for something (`Prompt`).  What
is typed goes to the input as a whole, so it is left there for a later read if the program
does not take it.
-/

namespace Rso.Chat

open Proc Scan

/-! ## Reading -/

namespace Istream

/-- `cin >> s` for a fresh string: the next word. -/
def word (s : Istream) : String × Istream :=
  if s.failed then ("", s)
  else if skipSpace s.rest = [] then ("", ⟨[], true⟩)
  else
    (String.ofList ((skipSpace s.rest).takeWhile fun c => !isSpace c),
      ⟨skipWord (skipSpace s.rest), false⟩)

/-- The text behind the next `delim`, but at most `n` characters further on. -/
def ignoreIn (delim : Char) : (n : ℕ) → List Char → List Char
  | 0, text => text
  | _ + 1, [] => []
  | n + 1, c :: text => if c = delim then text else ignoreIn delim n text

/-- `cin.ignore(n, delim)`. -/
def ignore (n : ℕ) (delim : Char) (s : Istream) : Istream :=
  if s.failed then s else { s with rest := ignoreIn delim n s.rest }

/-- `getline(cin, s)` for a fresh string. -/
def getline (s : Istream) : String × Istream :=
  if s.failed then ("", s)
  else if s.rest = [] then ("", ⟨[], true⟩)
  else
    (String.ofList (s.rest.takeWhile (· ≠ '\n')),
      ⟨(s.rest.dropWhile (· ≠ '\n')).tail, false⟩)

end Istream

/-- What the program asks for. -/
inductive Prompt where
  | username
  | menu
  | newRoom
  | room
  | content
  | target
  | message
deriving DecidableEq, Repr

/-- What is printed for it; that of the menu is what `printMenu` prints. -/
def Prompt.text : Prompt → String
  | .username => "Enter your username: \n"
  | .menu => "\nMENU\n1 -> Create room\n2 ->  Get all available rooms\n3 -> Join to room\n" ++
      "4 -> Leave room\n5 -> Send message to room\n6 -> Get list of users in room\n" ++
      "7 -> Send private message to other user\n0 -> Exit\n\n"
  | .newRoom => "Enter name for new room \n"
  | .room => "Enter the name of the room:\n"
  | .content => "Please, enter content of message you want to send to\n"
  | .target => "Enter the name of the user you want to write to\n"
  | .message => "Enter the content of message you want to send to\n"

/-- What the program does with `cin` and `cout`. -/
inductive Io where
  | print (text : String)
  | ask (p : Prompt)
  | word
  | ignore (n : ℕ) (delim : Char)
  | getline
  | getChoice (fuel : ℕ) (m : Menu)

/-- `getChoice` may read for ever. -/
abbrev Io.Result : Io → Type
  | .print _ => Unit
  | .ask _ => Unit
  | .word => String
  | .ignore _ _ => Unit
  | .getline => String
  | .getChoice _ _ => Option (Int32 × Menu)

/-- The terminal, and the one who sits there. -/
structure Terminal (υ : Type) where
  stream : Istream
  printed : String
  user : υ

/-- The terminal, with what is typed when the program asks. -/
def Terminal.answer {υ : Type} (types : Prompt → υ → String × υ) :
    (l : Io) → Terminal υ → l.Result × Terminal υ
  | .print text, t => ((), { t with printed := t.printed ++ text })
  | .ask p, t =>
      let (typed, user) := types p t.user
      ((), ⟨{ t.stream with rest := t.stream.rest ++ typed.toList }, t.printed ++ p.text, user⟩)
  | .word, t =>
      let (w, stream) := t.stream.word
      (w, { t with stream := stream })
  | .ignore n delim, t => ((), { t with stream := t.stream.ignore n delim })
  | .getline, t =>
      let (line, stream) := t.stream.getline
      (line, { t with stream := stream })
  | .getChoice fuel m, t =>
      match Menu.getChoice fuel m t.stream with
      | .ok choice stream => (some choice, { t with stream := stream })
      | .error _ stream => (none, { t with stream := stream })

/-! ## The program -/

namespace Console

open Script (Both inward outward)

/-- A script of calls to the chat system and to the terminal. -/
abbrev Sitting (I α : Type) : Type := Both (Remote.Result (I := I)) Io.Result Exception α

variable {I α : Type}

def print (text : String) : Sitting I Unit := inward (Io.print text)

def ask (p : Prompt) : Sitting I Unit := inward (Io.ask p)

def handling (handled : Exception → Prop) [DecidablePred handled]
    (otherwise : Exception → Sitting I α) (body : Sitting I α) : Sitting I α :=
  tryCatch body fun e => if handled e then otherwise e else throw e

/-- One name on each line. -/
def lines (names : List String) : String := String.join (names.map (· ++ "\n"))

def scrollConsole : Sitting I Unit := print "\n\n"

def getNameOfTheRoom : Sitting I String := do
  scrollConsole
  ask .room
  let roomName ← inward Io.word
  inward (Io.ignore 1000 '\n')
  return roomName

def createRoom : Sitting I Unit := do
  scrollConsole
  ask .newRoom
  let roomName ← inward Io.word
  inward (Io.ignore 1000 '\n')
  handling (fun e => e = .nameAlreadyExists ∨ e.IsUnknown)
    (fun e => print (if e = .nameAlreadyExists then
      "Cannot create. There is a room with that name already.\n" else "Cannot create\n")) do
    let _ ← outward (Remote.newChatRoom roomName)
    return ()
  scrollConsole

def printListAllRooms : Sitting I Unit := do
  scrollConsole
  let rooms ← outward Remote.getRooms
  print "Available rooms are: \n"
  print (lines (rooms.map RoomInfo.name))
  print "\n"

variable (c : Client I)

def joinToRoom : Sitting I (Client I) := do
  let name ← getNameOfTheRoom
  let c ← handling (fun e => e = .noSuchRoom ∨ e = .nickNotAvailable ∨ e.IsUnknown)
    (fun e => do
      print (if e = .noSuchRoom then "There is no such room\n"
        else if e = .nickNotAvailable then "Such userr already exist\n"
        else "Operation couldn't be realized.\n")
      return c) do
    let room ← outward (Remote.getRoom name)
    outward (Remote.join room c.username c.user)
    return { c with userRooms := c.userRooms ++ [⟨name, 0⟩] }
  scrollConsole
  return c

section Printing

-- What `<<` prints of an exception.
variable (what : Exception → String)

/-- The loop of `leaveRoom`.  `none` is its end without a `return`. -/
def leaveFrom (username roomName : String) :
    (passed rest : List RoomInfo) → Sitting I (Option (List RoomInfo))
  | _, [] => return none
  | passed, room :: rest =>
      if room.name = roomName then do
        let left ← handling (fun e => e = .noSuchUser ∨ e.IsUnknown)
          (fun e => do
            print (if e = .noSuchUser then
              "Ooopss.. something is wrong. You couldn't be found on user list for that room. " ++
                "Sorry!\n" else what e ++ "\n")
            return false) do
          let chatRoom ← outward (Remote.getRoom roomName)
          outward (Remote.leave chatRoom username)
          print ("Leaving room " ++ roomName ++ "\n")
          return true
        if left then return some (passed ++ rest)
        else leaveFrom username roomName (passed ++ [room]) rest
      else leaveFrom username roomName (passed ++ [room]) rest

def leaveRoom : Sitting I (Client I) := do
  scrollConsole
  let roomName ← getNameOfTheRoom
  match ← leaveFrom what c.username roomName [] c.userRooms with
  | some userRooms => return { c with userRooms := userRooms }
  | none => do
      print ("You were not joined to room " ++ roomName ++ "\n")
      return c

def getUsersInRoom (room_name : String) : Sitting I (List String) := do
  let roomName ← if room_name.isEmpty then getNameOfTheRoom else pure room_name
  handling (fun e => e = .noSuchRoom ∨ e.IsUnknown)
    (fun e => do
      print (if e = .noSuchRoom then "There is no such room\n" else what e ++ "\n")
      return []) do
    let room ← outward (Remote.getRoom roomName)
    let users ← outward (Remote.listUsers room)
    return users

def printUsersInRoom : Sitting I Unit :=
  handling (fun e => e.IsUnknown) (fun _ => print "Operation couldn't be realized.\n") do
    let users ← getUsersInRoom what ""
    scrollConsole
    print "Users available in room \n"
    print (lines users)

def sendMessageToRoom : Sitting I Unit := do
  scrollConsole
  let targetRoom ← getNameOfTheRoom
  if c.userRooms.any (·.name == targetRoom) then
    handling (fun e => e = .noSuchUser)
      (fun _ => print ("Ooopss.. something is wrong. You couldn't be found on user list for " ++
        "that room. Sorry!\n")) do
      ask .content
      let content ← inward Io.getline
      handling (fun e => e = .noSuchRoom) (fun _ => print "No such room\n") do
        let chatRoom ← outward (Remote.getRoom targetRoom)
        outward (Remote.postMessage chatRoom content c.username)
  else print ("You are not joined to room " ++ targetRoom ++ "\n")

def sendPrivateMessageToUser : Sitting I Unit := do
  let found ← handling (fun e => e = .noSuchRoom)
    (fun e => do
      print (what e ++ "\n")
      return none) do
    let targetChannel ← getNameOfTheRoom
    let usersAvailable ← getUsersInRoom what targetChannel
    return some (targetChannel, usersAvailable)
  match found with
  | none => return ()
  | some (targetChannel, usersAvailable) => do
      ask .target
      let targetUsername ← inward Io.word
      if usersAvailable.any (· == targetUsername) then do
        ask .message
        inward (Io.ignore 1000 '\n')
        let message ← inward Io.getline
        handling (fun e => e = .noSuchUser ∨ e = .noSuchRoom)
          (fun e => print (if e = .noSuchUser then "No such user.\n" else "No such room\n")) do
          let chatRoom ← outward (Remote.getRoom targetChannel)
          let userPrx ← outward (Remote.getUser chatRoom targetUsername)
          outward (Remote.sendPrivateMessage userPrx message c.username)
      else print "No such user found. Sorry.\n"

/-- The loop of `disconnect`. -/
def disconnectFrom : (rest : List RoomInfo) → (counter : Nat) → Sitting I Unit
  | [], _ => return ()
  | _ :: rest, counter => do
      let counter ← handling (fun e => e = .noSuchUser ∨ e.IsUnknown)
        (fun e => do
          print (if e = .noSuchUser then
            "Ooopss.. something is wrong. You couldn't be found on user list for that room. " ++
              "Sorry!\n" else what e ++ "\n")
          return counter) do
        match c.userRooms[counter]? with
        | none => throw .outOfRange
        | some roomInfo =>
            let chatRoom ← outward (Remote.getRoom roomInfo.name)
            outward (Remote.leave chatRoom c.username)
            print "Leaving room \n"
            return counter + 1
      disconnectFrom rest counter

def disconnect : Sitting I Unit := disconnectFrom c what c.userRooms 0

/-- The loop of `~Client`. -/
def destructorFrom : List RoomInfo → Sitting I Unit
  | [] => return ()
  | room :: rest => do
      let chatRoomPrx ← outward (Remote.getRoom room.name)
      outward (Remote.leave chatRoomPrx c.username)
      destructorFrom rest

/-- The cases of the `switch` but the last. -/
def turn (choice : Int32) : Sitting I (Client I) :=
  if choice = 1 then do
    createRoom
    return c
  else if choice = 2 then do
    printListAllRooms
    return c
  else if choice = 3 then joinToRoom c
  else if choice = 4 then leaveRoom c what
  else if choice = 5 then do
    sendMessageToRoom c
    return c
  else if choice = 6 then do
    printUsersInRoom what
    return c
  else if choice = 7 then do
    sendPrivateMessageToUser c what
    return c
  else return c

/-- The loop of `main`, as far as a run follows it.  `choices` is for the loop in
`getChoice`. -/
def mainLoop (choices : ℕ) : (turns : ℕ) → Menu → Client I → Sitting I (Option Int32)
  | 0, _, _ => return none
  | turns + 1, m, c => do
      ask .menu
      match ← inward (Io.getChoice choices m) with
      | none => return none
      | some (choice, m) =>
          if choice = 0 then do
            disconnect c what
            destructorFrom c c.userRooms
            return some 0
          else do
            let c ← turn c what choice
            mainLoop choices turns m c

/-- `main`, with the proxy of the client's own object. -/
def main (user : Prx I) (m : Menu) (choices turns : ℕ) : Sitting I (Option Int32) := do
  ask .username
  let username ← inward Io.word
  mainLoop what choices turns m ⟨username, user, []⟩

end Printing

end Console

end Rso.Chat
