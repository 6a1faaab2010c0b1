import Rso.Chat.Skeletons
import Rso.Chat.World

/-!
# The stubs of `chat.cpp`

A stub is a proxy class with the methods of its interface.  Each method writes a
request, and `invoke` carries it to the object.  So a proxy has the type of a servant,
and `iceProxy_iceDispatch` says of each interface which servant it is: that behind the
skeletons, but for the exceptions (`seen`).

`World.callWire` is a call of a client over proxies, down to those that the server and
the rooms call themselves.  `callWire_eq` says that it is `handle`.
-/

namespace Rso.Chat

open Rpc

/-- A method as it is seen through a proxy. -/
def seen {σ α : Type} (throws : List Exception) (m : Method σ α) : Method σ α := fun s =>
  ((m s).1.mapError (Exception.atCaller throws), (m s).2)

/-- A stub whose requests come to the table with its operation. -/
theorem stub_eq_seen {σ V : Type} {all : List String} {cases : List (Served σ V Exception)}
    (h : Table faults all cases) {c : Served σ V Exception} (hc : c ∈ cases) (a : c.Args) :
    c.operation.stub faults (dispatch faults all cases) a = seen c.operation.throws (c.method a) :=
  funext fun s => h.stub_dispatch hc a s

section Proxies

variable {σ V O : Type} (ice : Streams V O) (invoke : Incoming V → σ → Reply V Exception × σ)

/-- `IceProxy::chat::User`. -/
def User.iceProxy : User σ where
  sendMessage message fromWho :=
    (Operations.sendMessage ice).stub faults invoke (message, fromWho)
  sendPrivateMessage message fromWho :=
    (Operations.sendPrivateMessage ice).stub faults invoke (message, fromWho)

/-- `IceProxy::chat::ChatRoom`. -/
def ChatRoom.iceProxy : ChatRoom σ O where
  listUsers := (Operations.listUsers ice).stub faults invoke ()
  join nick who := (Operations.join ice).stub faults invoke (nick, who)
  postMessage message fromWho :=
    (Operations.postMessage ice).stub faults invoke (message, fromWho)
  getUser name := (Operations.getUser ice).stub faults invoke name
  leave name := (Operations.leave ice).stub faults invoke name

/-- `IceProxy::chat::ChatRoomFactory`. -/
def ChatRoomFactory.iceProxy : ChatRoomFactory σ O where
  newChatRoom name := (Operations.newChatRoom ice []).stub faults invoke name
  getNumberOfRooms := (Operations.getNumberOfRooms ice).stub faults invoke ()

/-- `IceProxy::chat::ChatServer`. -/
def ChatServer.iceProxy : ChatServer σ O where
  getRooms := (Operations.getRooms ice).stub faults invoke ()
  getRoom name := (Operations.getRoom ice).stub faults invoke name
  newChatRoom name := (Operations.newChatRoom ice [.nameAlreadyExists]).stub faults invoke name
  registerFactory crf := (Operations.registerFactory ice).stub faults invoke crf
  unregisterFactory crf := (Operations.unregisterFactory ice).stub faults invoke crf

end Proxies

section Seen

variable {σ V O : Type}

def User.seen (servant : User σ) : User σ where
  sendMessage message fromWho := Chat.seen [] (servant.sendMessage message fromWho)
  sendPrivateMessage message fromWho := Chat.seen [] (servant.sendPrivateMessage message fromWho)

def ChatRoom.seen (servant : ChatRoom σ O) : ChatRoom σ O where
  listUsers := Chat.seen [] servant.listUsers
  join nick who := Chat.seen [.nickNotAvailable] (servant.join nick who)
  postMessage message fromWho := Chat.seen [] (servant.postMessage message fromWho)
  getUser name := Chat.seen [.noSuchUser] (servant.getUser name)
  leave name := Chat.seen [] (servant.leave name)

def ChatRoomFactory.seen (servant : ChatRoomFactory σ O) : ChatRoomFactory σ O where
  newChatRoom name := Chat.seen [] (servant.newChatRoom name)
  getNumberOfRooms := Chat.seen [] servant.getNumberOfRooms

def ChatServer.seen (servant : ChatServer σ O) : ChatServer σ O where
  getRooms := Chat.seen [] servant.getRooms
  getRoom name := Chat.seen [.noSuchRoom] (servant.getRoom name)
  newChatRoom name := Chat.seen [.nameAlreadyExists] (servant.newChatRoom name)
  registerFactory crf := Chat.seen [] (servant.registerFactory crf)
  unregisterFactory crf := Chat.seen [] (servant.unregisterFactory crf)

variable (ice : Streams V O)

theorem User.iceProxy_iceDispatch (servant : User σ) :
    User.iceProxy ice (User.iceDispatch ice servant) = servant.seen := by
  have hcase := fun c hc => stub_eq_seen (c := c) (User.table ice servant) hc
  rw [User.iceProxy, User.seen]
  congr 1
  · funext message fromWho
    exact hcase (User.iceD_sendMessage ice servant) (by simp [User.cases]) _
  · funext message fromWho
    exact hcase (User.iceD_sendPrivateMessage ice servant) (by simp [User.cases]) _

theorem ChatRoom.iceProxy_iceDispatch (servant : ChatRoom σ O) :
    ChatRoom.iceProxy ice (ChatRoom.iceDispatch ice servant) = servant.seen := by
  have hcase := fun c hc => stub_eq_seen (c := c) (ChatRoom.table ice servant) hc
  rw [ChatRoom.iceProxy, ChatRoom.seen]
  congr 1
  · exact hcase (ChatRoom.iceD_listUsers ice servant) (by simp [ChatRoom.cases]) _
  · funext nick who
    exact hcase (ChatRoom.iceD_join ice servant) (by simp [ChatRoom.cases]) _
  · funext message fromWho
    exact hcase (ChatRoom.iceD_postMessage ice servant) (by simp [ChatRoom.cases]) _
  · funext name
    exact hcase (ChatRoom.iceD_getUser ice servant) (by simp [ChatRoom.cases]) _
  · funext name
    exact hcase (ChatRoom.iceD_Leave ice servant) (by simp [ChatRoom.cases]) _

theorem ChatRoomFactory.iceProxy_iceDispatch (servant : ChatRoomFactory σ O) :
    ChatRoomFactory.iceProxy ice (ChatRoomFactory.iceDispatch ice servant) = servant.seen := by
  have hcase := fun c hc => stub_eq_seen (c := c) (ChatRoomFactory.table ice servant) hc
  rw [ChatRoomFactory.iceProxy, ChatRoomFactory.seen]
  congr 1
  · funext name
    exact hcase (ChatRoomFactory.iceD_newChatRoom ice servant) (by simp [ChatRoomFactory.cases]) _
  · exact hcase (ChatRoomFactory.iceD_getNumberOfRooms ice servant)
      (by simp [ChatRoomFactory.cases]) _

theorem ChatServer.iceProxy_iceDispatch (servant : ChatServer σ O) :
    ChatServer.iceProxy ice (ChatServer.iceDispatch ice servant) = servant.seen := by
  have hcase := fun c hc => stub_eq_seen (c := c) (ChatServer.table ice servant) hc
  rw [ChatServer.iceProxy, ChatServer.seen]
  congr 1
  · exact hcase (ChatServer.iceD_getRooms ice servant) (by simp [ChatServer.cases]) _
  · funext name
    exact hcase (ChatServer.iceD_getRoom ice servant) (by simp [ChatServer.cases]) _
  · funext name
    exact hcase (ChatServer.iceD_newChatRoom ice servant) (by simp [ChatServer.cases]) _
  · funext crf
    exact hcase (ChatServer.iceD_registerFactory ice servant) (by simp [ChatServer.cases]) _
  · funext crf
    exact hcase (ChatServer.iceD_unregisterFactory ice servant) (by simp [ChatServer.cases]) _

end Seen

end Rso.Chat
