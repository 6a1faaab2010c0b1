import Rso.Lib.Runs
import Rso.Chat.Slice

/-!
# The server servant

`ChatServerImpl` keeps the rooms twice, `roomList` with the names and
`nameChatDictionary` with the proxies, and lists the registered factories.  Each
operation below is the C++ method of its name, dispatched alone.

`newChatRoom` calls the factories.  What they answer during one call is
`Replies`: to each `getNumberOfRooms` of the selection loop, by its position in
the loop, and to the final `newChatRoom`.  Any of them may raise.

The loop compares each count with `min`, which stays 0, so it picks the last
factory that has a room, and the first factory when none has.
-/

namespace Rso.Chat

open Runs

/-- What the factories answer during one `newChatRoom`. -/
structure Replies (F R : Type) where
  getNumberOfRooms : Nat → F → Except Exception Int
  newChatRoom : F → String → Except Exception (Prx R)

/-- The state of a `ChatServerImpl`. -/
structure ChatServerImpl (F R : Type) where
  roomList : List RoomInfo
  roomFactoryList : List (Prx F)
  nameChatDictionary : Dictionary R

namespace ChatServerImpl

variable {F R : Type}

/-- The state of a fresh `ChatServerImpl`. -/
def init : ChatServerImpl F R := ⟨[], [], ∅⟩

/-- The names in `roomList`. -/
def names (s : ChatServerImpl F R) : List String := s.roomList.map RoomInfo.name

/-! ## The operations -/

/-- The selection loop of `newChatRoom` over the rest of the list.  It returns
`min_index`. -/
def selectFactory (getNumberOfRooms : Nat → F → Except Exception Int) (min : Int) :
    List (Prx F) → (index minIndex : Nat) → Except Exception Nat
  | [], _, minIndex => .ok minIndex
  | f :: fs, index, minIndex =>
      match f.call (getNumberOfRooms index) with
      | .error e => .error e
      | .ok n =>
          selectFactory getNumberOfRooms min fs (index + 1) (if min < n then index else minIndex)

/-- The end of `newChatRoom`: the new room goes into both containers. -/
def publish (s : ChatServerImpl F R) (name : String) (room : Prx R) : ChatServerImpl F R :=
  { s with
    roomList := s.roomList ++ [⟨name, 0⟩]
    nameChatDictionary := s.nameChatDictionary.insert name room }

def newChatRoom (replies : Replies F R) (s : ChatServerImpl F R) (name : String) :
    Except Exception (Prx R) × ChatServerImpl F R :=
  if s.roomList.any (·.name == name) then
    (.error .nameAlreadyExists, s)
  else if s.roomFactoryList.isEmpty then
    (.error (.text "There is no room factories."), s)
  else
    match selectFactory replies.getNumberOfRooms 0 s.roomFactoryList 0 0 with
    | .error e => (.error e, s)
    | .ok minIndex =>
        match s.roomFactoryList[minIndex]? with
        | none => (.error .undefinedBehaviour, s)
        | some roomFactory =>
            match roomFactory.call fun f => replies.newChatRoom f name with
            | .error e => (.error e, s)
            | .ok room => (.ok room, s.publish name room)

def getRooms (s : ChatServerImpl F R) : List RoomInfo := s.roomList

def getRoom (s : ChatServerImpl F R) (name : String) :
    Except Exception (Prx R) × ChatServerImpl F R :=
  match s.roomList.find? (·.name == name) with
  | some room =>
      let (proxy, dictionary) := s.nameChatDictionary.index room.name
      (.ok proxy, { s with nameChatDictionary := dictionary })
  | none => (.error .noSuchRoom, s)

def registerFactory (s : ChatServerImpl F R) (roomFactory : Prx F) : ChatServerImpl F R :=
  { s with roomFactoryList := s.roomFactoryList ++ [roomFactory] }

/-- The loop of `unregisterFactory`.  The iterator stands between the entries it
has passed and the rest. -/
def eraseFactory [BEq F] (roomFactory : Prx F) :
    (passed rest : List (Prx F)) → List (Prx F)
  | passed, [] => passed
  | passed, f :: rest =>
      if f == roomFactory then eraseFactory roomFactory passed rest
      else eraseFactory roomFactory (passed ++ [f]) rest

def unregisterFactory [BEq F] (s : ChatServerImpl F R) (roomFactory : Prx F) :
    ChatServerImpl F R :=
  { s with roomFactoryList := eraseFactory roomFactory [] s.roomFactoryList }

/-! ## Dispatch -/

/-- A call of a server operation.  A `newChatRoom` comes with what the factories
answer meanwhile. -/
inductive Call (F R : Type) where
  | newChatRoom (name : String) (replies : Replies F R)
  | getRooms
  | getRoom (name : String)
  | registerFactory (roomFactory : Prx F)
  | unregisterFactory (roomFactory : Prx F)

/-- A value that a server operation returns. -/
inductive Value (R : Type) where
  | unit
  | room (proxy : Prx R)
  | rooms (list : List RoomInfo)
deriving DecidableEq

/-- Dispatch of one call. -/
def step [BEq F] (s : ChatServerImpl F R) :
    Call F R → ChatServerImpl F R × Except Exception (Value R)
  | .newChatRoom name replies =>
      let (result, s) := s.newChatRoom replies name
      (s, result.map .room)
  | .getRooms => (s, .ok (.rooms s.getRooms))
  | .getRoom name =>
      let (result, s) := s.getRoom name
      (s, result.map .room)
  | .registerFactory roomFactory => (s.registerFactory roomFactory, .ok .unit)
  | .unregisterFactory roomFactory => (s.unregisterFactory roomFactory, .ok .unit)

/-! ## What each operation does -/

theorem any_name_iff (s : ChatServerImpl F R) (name : String) :
    s.roomList.any (·.name == name) = true ↔ name ∈ s.names := by
  simp [names]

@[simp] theorem publish_names (s : ChatServerImpl F R) (name : String) (room : Prx R) :
    (s.publish name room).names = s.names ++ [name] := by
  simp [publish, names]

/-- `newChatRoom` publishes a room whose name was free, or raises and changes
nothing. -/
theorem newChatRoom_cases (replies : Replies F R) (s : ChatServerImpl F R) (name : String) :
    (∃ e, s.newChatRoom replies name = (.error e, s)) ∨
      ∃ room, s.newChatRoom replies name = (.ok room, s.publish name room) ∧ name ∉ s.names := by
  unfold newChatRoom
  split
  next => exact Or.inl ⟨_, rfl⟩
  next hany =>
    split
    next => exact Or.inl ⟨_, rfl⟩
    next =>
      split
      next e _ => exact Or.inl ⟨e, rfl⟩
      next =>
        split
        next => exact Or.inl ⟨_, rfl⟩
        next =>
          split
          next e _ => exact Or.inl ⟨e, rfl⟩
          next room _ => exact Or.inr ⟨room, rfl, mt (s.any_name_iff name).mpr hany⟩

theorem getRoom_unlisted {s : ChatServerImpl F R} {name : String} (h : name ∉ s.names) :
    s.getRoom name = (.error .noSuchRoom, s) := by
  have hfind : s.roomList.find? (·.name == name) = none := by
    rw [List.find?_eq_none]
    exact fun room hr he => h (List.mem_map.mpr ⟨room, hr, by simpa using he⟩)
  rw [getRoom, hfind]

theorem getRoom_listed {s : ChatServerImpl F R} {name : String} (h : name ∈ s.names) :
    ∃ room s', s.getRoom name = (.ok room, s') := by
  obtain ⟨info, hi, hname⟩ := List.mem_map.mp h
  obtain ⟨found, hfind⟩ : ∃ found, s.roomList.find? (·.name == name) = some found :=
    Option.isSome_iff_exists.mp (List.find?_isSome.mpr ⟨info, hi, by simpa using hname⟩)
  rw [getRoom, hfind]
  exact ⟨_, _, rfl⟩

theorem getRoom_factories (s : ChatServerImpl F R) (name : String) :
    (s.getRoom name).2.roomFactoryList = s.roomFactoryList := by
  rw [getRoom]
  split <;> rfl

/-- A listed name that the dictionary binds is looked up without an insertion. -/
theorem getRoom_bound {s : ChatServerImpl F R} {name : String} {room : Prx R}
    (h : name ∈ s.names) (hd : s.nameChatDictionary[name]? = some room) :
    s.getRoom name = (.ok room, s) := by
  obtain ⟨info, hi, hname⟩ := List.mem_map.mp h
  obtain ⟨found, hfind⟩ : ∃ found, s.roomList.find? (·.name == name) = some found :=
    Option.isSome_iff_exists.mp (List.find?_isSome.mpr ⟨info, hi, by simpa using hname⟩)
  have hfound : found.name = name := by simpa using List.find?_some hfind
  rw [getRoom, hfind]
  simp only [hfound, Dictionary.index_of_getElem? hd]

/-- `unregisterFactory` takes out every entry that equals the proxy. -/
theorem eraseFactory_eq [BEq F] (roomFactory : Prx F) :
    ∀ passed rest : List (Prx F), eraseFactory roomFactory passed rest =
      passed ++ rest.filter fun f => !(f == roomFactory) := by
  intro passed rest
  induction rest generalizing passed with
  | nil => rw [eraseFactory, List.filter_nil, List.append_nil]
  | cons f rest ih =>
      rw [eraseFactory, List.filter_cons]
      by_cases hf : (f == roomFactory) = true
      · rw [if_pos hf, ih, hf]
        rfl
      · rw [if_neg hf, ih, eq_false_of_ne_true hf, List.append_assoc]
        rfl

/-! ## The factory that is asked -/

section Asked

variable (replies : Replies F R) (s : ChatServerImpl F R) (name : String)

/-- The factory whose `newChatRoom` is called, if it comes to that. -/
def asked : Option F :=
  if s.roomList.any (·.name == name) then none
  else if s.roomFactoryList.isEmpty then none
  else
    match selectFactory replies.getNumberOfRooms 0 s.roomFactoryList 0 0 with
    | .error _ => none
    | .ok minIndex => s.roomFactoryList[minIndex]?.join

/-- A request that asks no factory for a room raises. -/
theorem newChatRoom_of_asked_none {replies : Replies F R} {s : ChatServerImpl F R}
    {name : String} (h : s.asked replies name = none) :
    ∃ e, s.newChatRoom replies name = (.error e, s) := by
  rw [asked] at h
  rw [newChatRoom]
  split at h
  next hname => exact ⟨_, if_pos hname⟩
  next hname =>
    rw [if_neg hname]
    split at h
    next hempty => exact ⟨_, if_pos hempty⟩
    next hempty =>
      rw [if_neg hempty]
      cases hselect : selectFactory replies.getNumberOfRooms 0 s.roomFactoryList 0 0 with
      | error e => exact ⟨_, rfl⟩
      | ok minIndex =>
          simp only [hselect] at h
          cases hget : s.roomFactoryList[minIndex]? with
          | none => exact ⟨.undefinedBehaviour, by simp only [hget]⟩
          | some roomFactory =>
              rw [hget] at h
              cases roomFactory with
              | none => exact ⟨.nullHandleException, by simp only [hget, Prx.call]⟩
              | some f => cases h

/-- A request that asks a factory is as good as its answer. -/
theorem newChatRoom_of_asked_some {replies : Replies F R} {s : ChatServerImpl F R}
    {name : String} {f : F} (h : s.asked replies name = some f) :
    name ∉ s.names ∧ some f ∈ s.roomFactoryList ∧
      ((∃ e, replies.newChatRoom f name = .error e ∧
          s.newChatRoom replies name = (.error e, s)) ∨
        ∃ room, replies.newChatRoom f name = .ok room ∧
          s.newChatRoom replies name = (.ok room, s.publish name room)) := by
  rw [asked] at h
  rw [newChatRoom]
  split at h
  next => cases h
  next hname =>
    rw [if_neg hname]
    split at h
    next => cases h
    next hempty =>
      rw [if_neg hempty]
      cases hselect : selectFactory replies.getNumberOfRooms 0 s.roomFactoryList 0 0 with
      | error e =>
          simp only [hselect] at h
          cases h
      | ok minIndex =>
          simp only [hselect] at h
          have hget : s.roomFactoryList[minIndex]? = some (some f) := Option.join_eq_some_iff.mp h
          refine ⟨mt (s.any_name_iff name).mpr hname, List.mem_of_getElem? hget, ?_⟩
          simp only [hget, Prx.call]
          cases hroom : replies.newChatRoom f name with
          | error e => exact Or.inl ⟨e, rfl, rfl⟩
          | ok room => exact Or.inr ⟨room, rfl, rfl⟩

/-- A room that is returned is what the factory that was asked has returned. -/
theorem newChatRoom_ok_iff {room : Prx R} :
    (s.newChatRoom replies name).1 = .ok room ↔
      ∃ f, s.asked replies name = some f ∧ some f ∈ s.roomFactoryList ∧
        replies.newChatRoom f name = .ok room := by
  cases hasked : s.asked replies name with
  | none =>
      obtain ⟨e, he⟩ := newChatRoom_of_asked_none hasked
      rw [he]
      simp
  | some f =>
      obtain ⟨-, hmem, ⟨e, hreply, he⟩ | ⟨room', hreply, he⟩⟩ := newChatRoom_of_asked_some hasked
      · rw [he]
        simp [hreply]
      · rw [he]
        simp [hreply, hmem]

end Asked

end ChatServerImpl

end Rso.Chat
