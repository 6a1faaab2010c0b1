import Rso.Lib.Rpc
import Rso.Chat.Interface

/-!
# The skeletons of `chat.cpp`

For each interface of `chat.ice` there is an abstract class with a method for each
operation.  The skeletons `iceD_…` call these methods, and `iceDispatch` finds the
skeleton for a request in the table `all`.  Every table also has the four operations
of `::Ice::Object`.

The streams belong to Ice.  `Streams` is what the generated code uses of them: what is
written at a type is read at that type.
-/

namespace Rso.Chat

open Rpc

/-- What can be written to a stream; `O` is what a proxy stands for. -/
structure Streams (V O : Type) where
  string : Kind V String
  strings : Kind V (List String)
  proxy : Kind V (Prx O)
  int : Kind V Int
  bool : Kind V Bool
  roomList : Kind V (List RoomInfo)

/-- The exceptions of `chat.ice`, and those that Ice raises at a caller. -/
def faults : Faults Exception where
  isUser := Exception.isUser
  unknownUserException := .ice .unknownUserException
  unknownException := .ice .unknownException
  localException := .ice .localException

/-! ## The operations -/

/-- What an operation of a servant is, given its arguments. -/
abbrev Method (σ α : Type) : Type := σ → Except Exception α × σ

namespace Operations

variable {V O α β : Type} (ice : Streams V O)

/-- An operation of `chat.ice`.  Its skeleton starts with `_iceCheckMode`. -/
def normal (name : String) (params : Format V α) (result : Format V β) (throws : List Exception) :
    Operation V α β Exception :=
  ⟨name, .normal, fun mode => mode = .normal, params, result, throws⟩

/-- An operation of `::Ice::Object`, with a skeleton that takes every mode. -/
def builtin (name : String) (params : Format V α) (result : Format V β) :
    Operation V α β Exception :=
  ⟨name, .nonmutating, fun _ => true, params, result, []⟩

def ice_id : Operation V Unit String Exception := builtin "ice_id" .empty (.one ice.string)

def ice_ids : Operation V Unit (List String) Exception :=
  builtin "ice_ids" .empty (.one ice.strings)

def ice_isA : Operation V String Bool Exception :=
  builtin "ice_isA" (.one ice.string) (.one ice.bool)

def ice_ping : Operation V Unit Unit Exception := builtin "ice_ping" .empty .empty

def sendMessage : Operation V (String × String) Unit Exception :=
  normal "sendMessage" (.two ice.string ice.string) .empty []

def sendPrivateMessage : Operation V (String × String) Unit Exception :=
  normal "sendPrivateMessage" (.two ice.string ice.string) .empty []

def listUsers : Operation V Unit (List String) Exception :=
  normal "listUsers" .empty (.one ice.strings) []

def join : Operation V (String × Prx O) Unit Exception :=
  normal "join" (.two ice.string ice.proxy) .empty [.nickNotAvailable]

def postMessage : Operation V (String × String) Unit Exception :=
  normal "postMessage" (.two ice.string ice.string) .empty []

def getUser : Operation V String (Prx O) Exception :=
  normal "getUser" (.one ice.string) (.one ice.proxy) [.noSuchUser]

def leave : Operation V String Unit Exception := normal "Leave" (.one ice.string) .empty []

def getNumberOfRooms : Operation V Unit Int Exception :=
  normal "getNumberOfRooms" .empty (.one ice.int) []

def getRooms : Operation V Unit (List RoomInfo) Exception :=
  normal "getRooms" .empty (.one ice.roomList) []

def getRoom : Operation V String (Prx O) Exception :=
  normal "getRoom" (.one ice.string) (.one ice.proxy) [.noSuchRoom]

/-- A factory and the server both have a `newChatRoom`; that of the server declares
`NameAlreadyExists`. -/
def newChatRoom (throws : List Exception) : Operation V String (Prx O) Exception :=
  normal "newChatRoom" (.one ice.string) (.one ice.proxy) throws

def registerFactory : Operation V (Prx O) Unit Exception :=
  normal "registerFactory" (.one ice.proxy) .empty []

def unregisterFactory : Operation V (Prx O) Unit Exception :=
  normal "unregisterFactory" (.one ice.proxy) .empty []

end Operations

/-! ## The operations that every object has -/

section Object

variable {σ V O : Type} (ice : Streams V O) (ids : List String) (staticId : String)

def iceD_ice_id : Served σ V Exception := ⟨Operations.ice_id ice, fun _ s => (.ok staticId, s)⟩

def iceD_ice_ids : Served σ V Exception := ⟨Operations.ice_ids ice, fun _ s => (.ok ids, s)⟩

def iceD_ice_isA : Served σ V Exception :=
  ⟨Operations.ice_isA ice, fun id s => (.ok (Search.binarySearch ids id), s)⟩

def iceD_ice_ping : Served σ V Exception := ⟨Operations.ice_ping, fun _ s => (.ok (), s)⟩

end Object

/-! ## The interfaces -/

/-- `chat::User`. -/
structure User (σ : Type) where
  sendMessage : (message fromWho : String) → Method σ Unit
  sendPrivateMessage : (message fromWho : String) → Method σ Unit

/-- `chat::ChatRoom`. -/
structure ChatRoom (σ O : Type) where
  listUsers : Method σ (List String)
  join : (nick : String) → (who : Prx O) → Method σ Unit
  postMessage : (message fromWho : String) → Method σ Unit
  getUser : (name : String) → Method σ (Prx O)
  leave : (name : String) → Method σ Unit

/-- `chat::ChatRoomFactory`. -/
structure ChatRoomFactory (σ O : Type) where
  newChatRoom : (name : String) → Method σ (Prx O)
  getNumberOfRooms : Method σ Int

/-- `chat::ChatServer`. -/
structure ChatServer (σ O : Type) where
  getRooms : Method σ (List RoomInfo)
  getRoom : (name : String) → Method σ (Prx O)
  newChatRoom : (name : String) → Method σ (Prx O)
  registerFactory : (crf : Prx O) → Method σ Unit
  unregisterFactory : (crf : Prx O) → Method σ Unit

namespace User

variable {σ V O : Type} (ice : Streams V O) (servant : User σ)

def ids : List String := ["::Ice::Object", "::chat::User"]

def ice_staticId : String := "::chat::User"

def iceD_sendMessage : Served σ V Exception :=
  ⟨Operations.sendMessage ice, fun (message, fromWho) => servant.sendMessage message fromWho⟩

def iceD_sendPrivateMessage : Served σ V Exception :=
  ⟨Operations.sendPrivateMessage ice,
    fun (message, fromWho) => servant.sendPrivateMessage message fromWho⟩

def all : List String :=
  ["ice_id", "ice_ids", "ice_isA", "ice_ping", "sendMessage", "sendPrivateMessage"]

def cases : List (Served σ V Exception) :=
  [iceD_ice_id ice ice_staticId, iceD_ice_ids ice ids, iceD_ice_isA ice ids, iceD_ice_ping,
    iceD_sendMessage ice servant, iceD_sendPrivateMessage ice servant]

def iceDispatch : Incoming V → σ → Reply V Exception × σ := dispatch faults all (cases ice servant)

theorem table : Table faults all (cases ice servant) := ⟨rfl, by decide, rfl, rfl⟩

end User

namespace ChatRoom

variable {σ V O : Type} (ice : Streams V O) (servant : ChatRoom σ O)

def ids : List String := ["::Ice::Object", "::chat::ChatRoom"]

def ice_staticId : String := "::chat::ChatRoom"

def iceD_listUsers : Served σ V Exception :=
  ⟨Operations.listUsers ice, fun () => servant.listUsers⟩

def iceD_join : Served σ V Exception :=
  ⟨Operations.join ice, fun (nick, who) => servant.join nick who⟩

def iceD_postMessage : Served σ V Exception :=
  ⟨Operations.postMessage ice, fun (message, fromWho) => servant.postMessage message fromWho⟩

def iceD_getUser : Served σ V Exception := ⟨Operations.getUser ice, servant.getUser⟩

def iceD_Leave : Served σ V Exception := ⟨Operations.leave ice, servant.leave⟩

def all : List String :=
  ["Leave", "getUser", "ice_id", "ice_ids", "ice_isA", "ice_ping", "join", "listUsers",
    "postMessage"]

def cases : List (Served σ V Exception) :=
  [iceD_Leave ice servant, iceD_getUser ice servant, iceD_ice_id ice ice_staticId,
    iceD_ice_ids ice ids, iceD_ice_isA ice ids, iceD_ice_ping, iceD_join ice servant,
    iceD_listUsers ice servant, iceD_postMessage ice servant]

def iceDispatch : Incoming V → σ → Reply V Exception × σ := dispatch faults all (cases ice servant)

theorem table : Table faults all (cases ice servant) := ⟨rfl, by decide, rfl, rfl⟩

end ChatRoom

namespace ChatRoomFactory

variable {σ V O : Type} (ice : Streams V O) (servant : ChatRoomFactory σ O)

def ids : List String := ["::Ice::Object", "::chat::ChatRoomFactory"]

def ice_staticId : String := "::chat::ChatRoomFactory"

def iceD_newChatRoom : Served σ V Exception := ⟨Operations.newChatRoom ice [], servant.newChatRoom⟩

def iceD_getNumberOfRooms : Served σ V Exception :=
  ⟨Operations.getNumberOfRooms ice, fun () => servant.getNumberOfRooms⟩

def all : List String :=
  ["getNumberOfRooms", "ice_id", "ice_ids", "ice_isA", "ice_ping", "newChatRoom"]

def cases : List (Served σ V Exception) :=
  [iceD_getNumberOfRooms ice servant, iceD_ice_id ice ice_staticId, iceD_ice_ids ice ids,
    iceD_ice_isA ice ids, iceD_ice_ping, iceD_newChatRoom ice servant]

def iceDispatch : Incoming V → σ → Reply V Exception × σ := dispatch faults all (cases ice servant)

theorem table : Table faults all (cases ice servant) := ⟨rfl, by decide, rfl, rfl⟩

end ChatRoomFactory

namespace ChatServer

variable {σ V O : Type} (ice : Streams V O) (servant : ChatServer σ O)

def ids : List String := ["::Ice::Object", "::chat::ChatServer"]

def ice_staticId : String := "::chat::ChatServer"

def iceD_getRooms : Served σ V Exception := ⟨Operations.getRooms ice, fun () => servant.getRooms⟩

def iceD_getRoom : Served σ V Exception := ⟨Operations.getRoom ice, servant.getRoom⟩

def iceD_newChatRoom : Served σ V Exception :=
  ⟨Operations.newChatRoom ice [.nameAlreadyExists], servant.newChatRoom⟩

def iceD_registerFactory : Served σ V Exception :=
  ⟨Operations.registerFactory ice, servant.registerFactory⟩

def iceD_unregisterFactory : Served σ V Exception :=
  ⟨Operations.unregisterFactory ice, servant.unregisterFactory⟩

def all : List String :=
  ["getRoom", "getRooms", "ice_id", "ice_ids", "ice_isA", "ice_ping", "newChatRoom",
    "registerFactory", "unregisterFactory"]

def cases : List (Served σ V Exception) :=
  [iceD_getRoom ice servant, iceD_getRooms ice servant, iceD_ice_id ice ice_staticId,
    iceD_ice_ids ice ids, iceD_ice_isA ice ids, iceD_ice_ping, iceD_newChatRoom ice servant,
    iceD_registerFactory ice servant, iceD_unregisterFactory ice servant]

def iceDispatch : Incoming V → σ → Reply V Exception × σ := dispatch faults all (cases ice servant)

theorem table : Table faults all (cases ice servant) := ⟨rfl, by decide, rfl, rfl⟩

end ChatServer

end Rso.Chat
