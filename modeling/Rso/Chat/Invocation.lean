import Rso.Chat.Stubs

/-!
# Calls over proxies

The servants of the processes, each reached through a stub and the skeletons: the
server, the factories and the rooms with what they call themselves, and the clients'
objects, which print what they get.

`World.callWire` is the call of a client over proxies.  `callWire_eq` says that it is
`World.handle`.
-/

namespace Rso.Chat

open Rpc

/-- What the generated code is run with: the streams between processes, with the
proxies of the server's and the factories' operations and those of the rooms', and the
`ctime` of a client. -/
structure Wires (V I : Type) where
  streams : Streams V Nat
  userStreams : Streams V I
  ctime : String

/-- What `sendMessage` and `sendPrivateMessage` of `UserImpl` print. -/
def UserImpl.line (ctime message fromWho : String) : String :=
  ctime ++ fromWho ++ " says: " ++ message ++ "\n"

/-- The servant `UserImpl`, for what has been printed so far. -/
def UserImpl.servant (ctime : String) : User String where
  sendMessage message fromWho out := (.ok (), out ++ UserImpl.line ctime message fromWho)
  sendPrivateMessage message fromWho out := (.ok (), out ++ UserImpl.line ctime message fromWho)

/-- The servant `ChatRoomFactoryImpl`, with `object` the next room object. -/
def ChatRoomFactoryImpl.servant (ice : Creation) (object : Nat) :
    ChatRoomFactory ChatRoomFactoryImpl Nat where
  newChatRoom name f := f.newChatRoom ice object name
  getNumberOfRooms f := (.ok f.getNumberOfRooms, f)

/-- A call of a method of what a proxy stands for. -/
def Prx.invoke {σ α β : Type} (p : Prx α) (method : α → Method σ β) : Method σ β :=
  match p with
  | none => fun s => (.error .nullHandleException, s)
  | some a => method a

namespace World

variable {V I : Type} (wires : Wires V I)

/-! ## The objects -/

/-- A request to the object of a client. -/
def invokeUser (w : World I) (i : I) (request : Incoming V) (out : String) :
    Reply V Exception × String :=
  if w.alive i then
    User.iceDispatch wires.userStreams (UserImpl.servant wires.ctime) request out
  else (.connectionLost, out)

def userPrx (w : World I) (i : I) : User String :=
  User.iceProxy wires.userStreams (w.invokeUser wires i)

def factoryPrx (ice : Creation) (object : Nat) : ChatRoomFactory ChatRoomFactoryImpl Nat :=
  ChatRoomFactory.iceProxy wires.streams
    (ChatRoomFactory.iceDispatch wires.streams (ChatRoomFactoryImpl.servant ice object))

/-- What the server gets from the factories. -/
def repliesWire (ice : Creation) (w : World I) : Replies Nat Nat where
  getNumberOfRooms _ f := ((factoryPrx wires ice w.made).getNumberOfRooms (w.factories f)).1
  newChatRoom f name := ((factoryPrx wires ice w.made).newChatRoom name (w.factories f)).1

/-- The servant `ChatServerImpl`. -/
def chatServer (ice : Creation) : ChatServer (World I) Nat where
  getRooms w := (.ok w.server.getRooms, w)
  getRoom name w :=
    let (result, server) := w.server.getRoom name
    (result, { w with server := server })
  newChatRoom name w :=
    let (result, server) := w.server.newChatRoom (w.repliesWire wires ice) name
    (result,
      match w.server.asked (w.repliesWire wires ice) name with
      | none => { w with server := server }
      | some f =>
          { w with
            server := server
            factories := Function.update w.factories f
              ((factoryPrx wires ice w.made).newChatRoom name (w.factories f)).2
            made := w.made + 1 })
  registerFactory crf w := (.ok (), { w with server := w.server.registerFactory crf })
  unregisterFactory crf w := (.ok (), { w with server := w.server.unregisterFactory crf })

def serverPrx (ice : Creation) : ChatServer (World I) Nat :=
  ChatServer.iceProxy wires.streams (ChatServer.iceDispatch wires.streams (chatServer wires ice))

/-- An operation of the room with this number. -/
def inRoom {α : Type} (n : Nat)
    (operation : ChatRoomImpl I → Except Exception α × ChatRoomImpl I) : Method (World I) α :=
  fun w =>
    let (result, r) := operation (w.rooms n)
    (result, { w with rooms := Function.update w.rooms n r })

/-- The servant `ChatRoomImpl`. -/
def chatRoom (n : Nat) : ChatRoom (World I) I where
  listUsers := inRoom n fun r => (.ok r.listUsers, r)
  join nick who := inRoom n fun r => r.join nick who
  postMessage message fromWho w :=
    let sendMessage := fun i => ((w.userPrx wires i).sendMessage message fromWho "").1
    inRoom n (fun r => ((r.postMessage sendMessage message fromWho).2, r)) w
  getUser name := inRoom n fun r => r.getUser name
  leave name := inRoom n fun r => r.leave name

def roomPrx (n : Nat) : ChatRoom (World I) I :=
  ChatRoom.iceProxy wires.userStreams (ChatRoom.iceDispatch wires.userStreams (chatRoom wires n))

/-! ## Calls -/

/-- A call of a client, made over proxies. -/
def callWire (ice : Creation) : (c : Remote I) → Method (World I) c.Result
  | .newChatRoom name => (serverPrx wires ice).newChatRoom name
  | .getRooms => (serverPrx wires ice).getRooms
  | .getRoom name => (serverPrx wires ice).getRoom name
  | .join room nick who => room.invoke fun n => (roomPrx wires n).join nick who
  | .leave room nick => room.invoke fun n => (roomPrx wires n).leave nick
  | .listUsers room => room.invoke fun n => (roomPrx wires n).listUsers
  | .getUser room nick => room.invoke fun n => (roomPrx wires n).getUser nick
  | .postMessage room message fromWho =>
      room.invoke fun n => (roomPrx wires n).postMessage message fromWho
  | .sendPrivateMessage user message fromWho =>
      user.invoke fun i w =>
        (((w.userPrx wires i).sendPrivateMessage message fromWho "").1, w)

/-! ## The users -/

/-- A message to a client's object is printed there, if its process runs. -/
theorem userPrx_eq (w : World I) (i : I) : w.userPrx wires i =
    if w.alive i then UserImpl.servant wires.ctime
    else ⟨fun _ _ out => (.error (.ice .localException), out),
      fun _ _ out => (.error (.ice .localException), out)⟩ := by
  cases halive : w.alive i with
  | true =>
      have hinvoke : w.invokeUser wires i =
          User.iceDispatch wires.userStreams (UserImpl.servant wires.ctime) := by
        funext request out
        rw [invokeUser, halive, if_pos rfl]
      rw [userPrx, hinvoke, User.iceProxy_iceDispatch, if_pos rfl]
      rfl
  | false =>
      have hinvoke : w.invokeUser wires i = fun _ out => (.connectionLost, out) := by
        funext request out
        rw [invokeUser, halive, if_neg Bool.false_ne_true]
      rw [userPrx, hinvoke, if_neg Bool.false_ne_true]
      rfl

theorem userPrx_sendMessage (w : World I) (i : I) (message fromWho out : String) :
    ((w.userPrx wires i).sendMessage message fromWho out).1 = w.sendMessage i := by
  rw [userPrx_eq, World.sendMessage]
  split <;> rfl

theorem userPrx_sendPrivateMessage (w : World I) (i : I) (message fromWho out : String) :
    ((w.userPrx wires i).sendPrivateMessage message fromWho out).1 = w.sendMessage i := by
  rw [userPrx_eq, World.sendMessage]
  split <;> rfl

/-! ## The factories -/

theorem factoryPrx_eq (ice : Creation) (object : Nat) :
    factoryPrx wires ice object = (ChatRoomFactoryImpl.servant ice object).seen :=
  ChatRoomFactory.iceProxy_iceDispatch ..

theorem repliesWire_eq (ice : Creation) (w : World I) :
    w.repliesWire wires ice = w.replies ice := by
  rw [repliesWire, factoryPrx_eq]
  rfl

theorem chatServer_newChatRoom (ice : Creation) (name : String) (w : World I) :
    seen [.nameAlreadyExists] ((chatServer wires ice).newChatRoom name) w =
      w.newChatRoom ice name := by
  rw [seen, chatServer, newChatRoom]
  simp only [repliesWire_eq, factoryPrx_eq]
  rfl

/-! ## The rooms -/

theorem invoke_inRoom {α : Type} (room : Prx Nat) (throws : List Exception)
    (operation : ChatRoomImpl I → Except Exception α × ChatRoomImpl I) (w : World I) :
    room.invoke (fun n => seen throws (inRoom n operation)) w =
      w.callRoom room throws operation := by
  cases room with
  | none => rfl
  | some n => rfl

theorem roomPrx_eq (n : Nat) : roomPrx wires n = (chatRoom wires n).seen :=
  ChatRoom.iceProxy_iceDispatch ..

theorem serverPrx_eq (ice : Creation) :
    (serverPrx wires ice : ChatServer (World I) Nat) = (chatServer wires ice).seen :=
  ChatServer.iceProxy_iceDispatch ..

/-- A call over proxies is the call that runs the servant's operation alone. -/
theorem callWire_eq (ice : Creation) (c : Remote I) (w : World I) :
    callWire wires ice c w = handle ice c w := by
  cases c with
  | newChatRoom name =>
      rw [callWire, serverPrx_eq, handle]
      exact chatServer_newChatRoom ..
  | getRooms =>
      rw [callWire, serverPrx_eq]
      rfl
  | getRoom name =>
      rw [callWire, serverPrx_eq]
      rfl
  | join room nick who =>
      rw [callWire]
      simp only [roomPrx_eq]
      exact invoke_inRoom ..
  | leave room nick =>
      rw [callWire]
      simp only [roomPrx_eq]
      exact invoke_inRoom ..
  | listUsers room =>
      rw [callWire]
      simp only [roomPrx_eq]
      exact invoke_inRoom ..
  | getUser room nick =>
      rw [callWire]
      simp only [roomPrx_eq]
      exact invoke_inRoom ..
  | postMessage room message fromWho =>
      rw [callWire]
      simp only [roomPrx_eq]
      cases room with
      | none => rfl
      | some n =>
          have hsend : (fun i => ((w.userPrx wires i).sendMessage message fromWho "").1) =
              w.sendMessage := funext fun i => userPrx_sendMessage ..
          show seen [] ((chatRoom wires n).postMessage message fromWho) w = _
          rw [seen, chatRoom]
          simp only [hsend]
          rfl
  | sendPrivateMessage user message fromWho =>
      cases user with
      | none => rfl
      | some i =>
          show (((w.userPrx wires i).sendPrivateMessage message fromWho "").1, w) = _
          rw [userPrx_sendPrivateMessage]
          rfl

end World

end Rso.Chat
