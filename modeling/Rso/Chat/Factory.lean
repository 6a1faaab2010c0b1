import Rso.Chat.Slice

/-!
# The factory servant

`ChatRoomFactoryImpl` makes room objects and activates each of them in an object
adapter of its own.  `newChatRoom` is a row of calls into Ice, any of which may
raise (`Creation`).  An adapter stays in the communicator once it is created,
whatever the later calls do, and a second one of the same name is refused.

`getNumberOfRooms` is the size of `roomList`, which `newChatRoom` does not touch.
-/

namespace Rso.Chat

/-- An object adapter of a factory's communicator. -/
structure ObjectAdapter where
  name : String
  /-- The identities under which servants were added. -/
  identities : List String := []
  active : Bool := false
deriving DecidableEq, Repr

/-- The state of a `ChatRoomFactoryImpl`. -/
structure ChatRoomFactoryImpl where
  roomList : List RoomInfo
  /-- The object adapters of the communicator `ic`. -/
  adapters : List ObjectAdapter
deriving DecidableEq, Repr

/-- What the calls into Ice give during one `newChatRoom`.  A `checkedCast` that
returns has asked the new object itself, so it returns a proxy of it.  That is so
for names without white space: what follows a space in the string of a proxy can
be an option or an endpoint. -/
structure Creation where
  createObjectAdapterWithEndpoints : Except Exception Unit
  stringToIdentity : Except Exception Unit
  add : Except Exception Unit
  activate : Except Exception Unit
  stringToProxy : Except Exception Unit
  checkedCast : Except Exception Unit

/-- No call into Ice raises. -/
def Creation.works : Creation := ⟨.ok (), .ok (), .ok (), .ok (), .ok (), .ok ()⟩

namespace ChatRoomFactoryImpl

/-- The state of a fresh `ChatRoomFactoryImpl`. -/
def init : ChatRoomFactoryImpl := ⟨[], []⟩

/-- `createObjectAdapterWithEndpoints`: a name that is taken is refused, with
`AlreadyRegisteredException`, which is a local exception. -/
def createObjectAdapter (ice : Creation) (f : ChatRoomFactoryImpl) (name : String) :
    Except Exception Unit × ChatRoomFactoryImpl :=
  if f.adapters.any (·.name == name) then
    (.error (.ice .localException), f)
  else
    match ice.createObjectAdapterWithEndpoints with
    | .error e => (.error e, f)
    | .ok () => (.ok (), { f with adapters := f.adapters ++ [{ name := name }] })

/-- A change of the adapter of a name. -/
def updateAdapter (f : ChatRoomFactoryImpl) (name : String)
    (change : ObjectAdapter → ObjectAdapter) : ChatRoomFactoryImpl :=
  { f with adapters := f.adapters.map fun a => if a.name == name then change a else a }

/-- `newChatRoom`, with `object` the room object it makes. -/
def newChatRoom {R : Type} (ice : Creation) (object : R) (f : ChatRoomFactoryImpl)
    (name : String) : Except Exception (Prx R) × ChatRoomFactoryImpl :=
  let identity := "SimpleRoom" ++ name
  match f.createObjectAdapter ice identity with
  | (.error e, f) => (.error e, f)
  | (.ok (), f) =>
      match ice.stringToIdentity with
      | .error e => (.error e, f)
      | .ok () =>
          match ice.add with
          | .error e => (.error e, f)
          | .ok () =>
              let f := f.updateAdapter identity fun a =>
                { a with identities := a.identities ++ [identity] }
              match ice.activate with
              | .error e => (.error e, f)
              | .ok () =>
                  let f := f.updateAdapter identity fun a => { a with active := true }
                  match ice.stringToProxy with
                  | .error e => (.error e, f)
                  | .ok () =>
                      match ice.checkedCast with
                      | .error e => (.error e, f)
                      | .ok () => (.ok (some object), f)

def getNumberOfRooms (f : ChatRoomFactoryImpl) : Int := f.roomList.length

/-! ## What the operations do -/

theorem createObjectAdapter_roomList (ice : Creation) (f : ChatRoomFactoryImpl) (name : String) :
    (f.createObjectAdapter ice name).2.roomList = f.roomList := by
  rw [createObjectAdapter]
  split
  next => rfl
  next => split <;> rfl

/-- A creation leaves `roomList` as it was. -/
theorem newChatRoom_roomList {R : Type} (ice : Creation) (object : R) (f : ChatRoomFactoryImpl)
    (name : String) : (f.newChatRoom ice object name).2.roomList = f.roomList := by
  have hadapter := createObjectAdapter_roomList ice f ("SimpleRoom" ++ name)
  rw [newChatRoom]
  split
  next heq => rwa [heq] at hadapter
  next f' heq =>
    rw [heq] at hadapter
    repeat' split
    all_goals exact hadapter

/-- A room that was made is the one of the call. -/
theorem newChatRoom_ok {R : Type} {ice : Creation} {object : R} {f : ChatRoomFactoryImpl}
    {name : String} {room : Prx R} (h : (f.newChatRoom ice object name).1 = .ok room) :
    room = some object := by
  rw [newChatRoom] at h
  split at h
  next => cases h
  next =>
    repeat' split at h
    all_goals cases h
    rfl

/-- A fresh factory makes a room when Ice lets it. -/
theorem newChatRoom_works {R : Type} (object : R) {f : ChatRoomFactoryImpl} (name : String)
    (h : f.adapters = []) : (f.newChatRoom .works object name).1 = .ok (some object) := by
  simp [newChatRoom, createObjectAdapter, Creation.works, h]

end ChatRoomFactoryImpl

end Rso.Chat
