import Mathlib.Logic.Function.Basic
import Rso.Chat.Directory
import Rso.Chat.Factory
import Rso.Chat.Interface

/-!
# The processes together

The server, the factories, the rooms they made, and the clients' own objects.  A
proxy is the number of the object it stands for: factories are numbered as they
are started, rooms as they are made, and a client has the one object that
`createUser` makes.

`Remote` is a call that a client makes, and `handle` serves it: the servant's
operation runs alone, together with the calls it makes itself, and its exception
is turned into what the caller gets.  The server, the factories and the rooms
answer.  A client's object answers while its process runs.  A registered proxy is that
of a factory, and a room's name has no white space, as the console reads words; so what
a factory casts is a proxy of the room it has made.
-/

namespace Rso.Chat

/-! ## The calls of a client -/

/-- A call that a client makes. -/
inductive Remote (I : Type) where
  | newChatRoom (name : String)
  | getRooms
  | getRoom (name : String)
  | join (room : Prx Nat) (nick : String) (who : Prx I)
  | leave (room : Prx Nat) (nick : String)
  | listUsers (room : Prx Nat)
  | getUser (room : Prx Nat) (nick : String)
  | postMessage (room : Prx Nat) (message fromWho : String)
  | sendPrivateMessage (user : Prx I) (message fromWho : String)
deriving DecidableEq

/-- What a call returns. -/
abbrev Remote.Result {I : Type} : Remote I → Type
  | .newChatRoom _ => Prx Nat
  | .getRooms => List RoomInfo
  | .getRoom _ => Prx Nat
  | .join _ _ _ => Unit
  | .leave _ _ => Unit
  | .listUsers _ => List String
  | .getUser _ _ => Prx I
  | .postMessage _ _ _ => Unit
  | .sendPrivateMessage _ _ _ => Unit

/-- The state of all processes but what the clients keep for themselves. -/
structure World (I : Type) where
  server : ChatServerImpl Nat Nat
  /-- The factories, in the order in which they were started. -/
  factories : Nat → ChatRoomFactoryImpl
  started : Nat
  /-- The room objects, in the order in which they were made. -/
  rooms : Nat → ChatRoomImpl I
  made : Nat
  /-- The clients whose process runs. -/
  alive : I → Bool

namespace World

variable {I : Type}

/-- A server that runs, and nothing else yet. -/
def init : World I := ⟨.init, fun _ => .init, 0, fun _ => .init, 0, fun _ => true⟩

/-- What a message to a client's object gives. -/
def sendMessage (w : World I) (i : I) : Except Exception Unit :=
  if w.alive i then .ok () else .error (.ice .localException)

/-- What the factories answer to the server.  No exception is declared for them. -/
def replies (ice : Creation) (w : World I) : Replies Nat Nat where
  getNumberOfRooms _ f := .ok (w.factories f).getNumberOfRooms
  newChatRoom f name :=
    ((w.factories f).newChatRoom ice w.made name).1.mapError (Exception.atCaller [])

/-- `newChatRoom` of the server, with what it does to the factory it asks. -/
def newChatRoom (ice : Creation) (w : World I) (name : String) :
    Except Exception (Prx Nat) × World I :=
  let (result, server) := w.server.newChatRoom (w.replies ice) name
  let throws := (ChatServerImpl.Call.newChatRoom name (w.replies ice)).throws
  (result.mapError (Exception.atCaller throws),
    match w.server.asked (w.replies ice) name with
    | none => { w with server := server }
    | some f =>
        { w with
          server := server
          factories :=
            Function.update w.factories f ((w.factories f).newChatRoom ice w.made name).2
          made := w.made + 1 })

/-- A call through the proxy of a room. -/
def callRoom {α : Type} (w : World I) (room : Prx Nat) (throws : List Exception)
    (operation : ChatRoomImpl I → Except Exception α × ChatRoomImpl I) :
    Except Exception α × World I :=
  match room with
  | none => (.error .nullHandleException, w)
  | some n =>
      let (result, r) := operation (w.rooms n)
      (result.mapError (Exception.atCaller throws), { w with rooms := Function.update w.rooms n r })

/-- The call of a client, from the moment it is made to its answer. -/
def handle (ice : Creation) : (c : Remote I) → World I → Except Exception c.Result × World I
  | .newChatRoom name, w => w.newChatRoom ice name
  | .getRooms, w => (.ok w.server.getRooms, w)
  | .getRoom name, w =>
      let (result, server) := w.server.getRoom name
      let throws := (ChatServerImpl.Call.getRoom (F := Nat) (R := Nat) name).throws
      (result.mapError (Exception.atCaller throws), { w with server := server })
  | .join room nick who, w =>
      w.callRoom room (ChatRoomImpl.Call.join nick who).throws fun r => r.join nick who
  | .leave room nick, w =>
      w.callRoom room (ChatRoomImpl.Call.leave (U := I) nick).throws fun r => r.leave nick
  | .listUsers room, w =>
      w.callRoom room (ChatRoomImpl.Call.listUsers (U := I)).throws fun r => (.ok r.listUsers, r)
  | .getUser room nick, w =>
      w.callRoom room (ChatRoomImpl.Call.getUser (U := I) nick).throws fun r => r.getUser nick
  | .postMessage room message fromWho, w =>
      w.callRoom room (ChatRoomImpl.Call.postMessage (U := I) message fromWho).throws fun r =>
        ((r.postMessage w.sendMessage message fromWho).2, r)
  | .sendPrivateMessage user _ _, w => (user.call w.sendMessage, w)

/-- A new factory process, which registers its factory. -/
def registerRoomFactory (w : World I) : World I :=
  { w with
    server := w.server.registerFactory (some w.started)
    factories := Function.update w.factories w.started .init
    started := w.started + 1 }

/-- The end of a factory object, which unregisters the factory. -/
def unregisterFactory (w : World I) (f : Nat) : World I :=
  { w with server := w.server.unregisterFactory (some f) }

/-! ## What the calls do -/

/-- A call through the proxy of a room changes nothing but rooms. -/
theorem callRoom_frame {α : Type} (w : World I) (room : Prx Nat) (throws : List Exception)
    (operation : ChatRoomImpl I → Except Exception α × ChatRoomImpl I) :
    ∃ rooms, (w.callRoom room throws operation).2 = { w with rooms := rooms } := by
  cases room with
  | none => exact ⟨w.rooms, rfl⟩
  | some n => exact ⟨_, rfl⟩

/-- A call changes more than rooms only if it goes to the server. -/
theorem handle_frame (ice : Creation) (c : Remote I) (w : World I) :
    (∃ name, c = .newChatRoom name) ∨ (∃ name, c = .getRoom name) ∨
      (∀ name, c ≠ .newChatRoom name) ∧
        ∃ rooms, (handle ice c w).2 = { w with rooms := rooms } := by
  cases c with
  | newChatRoom name => exact Or.inl ⟨name, rfl⟩
  | getRoom name => exact Or.inr (Or.inl ⟨name, rfl⟩)
  | getRooms => exact Or.inr (Or.inr ⟨nofun, w.rooms, rfl⟩)
  | join room nick who => exact Or.inr (Or.inr ⟨nofun, callRoom_frame ..⟩)
  | leave room nick => exact Or.inr (Or.inr ⟨nofun, callRoom_frame ..⟩)
  | listUsers room => exact Or.inr (Or.inr ⟨nofun, callRoom_frame ..⟩)
  | getUser room nick => exact Or.inr (Or.inr ⟨nofun, callRoom_frame ..⟩)
  | postMessage room message fromWho => exact Or.inr (Or.inr ⟨nofun, callRoom_frame ..⟩)
  | sendPrivateMessage user message fromWho => exact Or.inr (Or.inr ⟨nofun, w.rooms, rfl⟩)

/-- A call that gets through to a room. -/
theorem callRoom_some {α : Type} (w : World I) (n : Nat) (throws : List Exception)
    (operation : ChatRoomImpl I → Except Exception α × ChatRoomImpl I) :
    w.callRoom (some n) throws operation =
      ((operation (w.rooms n)).1.mapError (Exception.atCaller throws),
        { w with rooms := Function.update w.rooms n (operation (w.rooms n)).2 }) := rfl

/-- A call through the proxy of a room that leaves the room as it is. -/
theorem callRoom_state {α : Type} {w : World I} {room : Prx Nat} {throws : List Exception}
    {operation : ChatRoomImpl I → Except Exception α × ChatRoomImpl I}
    (h : ∀ n, (operation (w.rooms n)).2 = w.rooms n) :
    (w.callRoom room throws operation).2 = w := by
  cases room with
  | none => rfl
  | some n => rw [callRoom_some, h, Function.update_eq_self]

theorem registerRoomFactory_factories (w : World I) (f : Nat) :
    w.registerRoomFactory.factories f = if f = w.started then .init else w.factories f :=
  Function.update_apply ..

theorem newChatRoom_server (ice : Creation) (w : World I) (name : String) :
    (w.newChatRoom ice name).2.server = (w.server.newChatRoom (w.replies ice) name).2 := by
  cases hasked : w.server.asked (w.replies ice) name with
  | none => simp only [newChatRoom, hasked]
  | some f => simp only [newChatRoom, hasked]

theorem newChatRoom_factories_none {ice : Creation} {w : World I} {name : String}
    (h : w.server.asked (w.replies ice) name = none) :
    (w.newChatRoom ice name).2.factories = w.factories := by
  simp only [newChatRoom, h]

theorem newChatRoom_factories_some {ice : Creation} {w : World I} {name : String} {f : Nat}
    (h : w.server.asked (w.replies ice) name = some f) :
    (w.newChatRoom ice name).2.factories =
      Function.update w.factories f ((w.factories f).newChatRoom ice w.made name).2 := by
  simp only [newChatRoom, h]

/-- `newChatRoom` makes the next room and publishes it, or it raises and leaves
the server and the rooms as they were. -/
theorem newChatRoom_cases (ice : Creation) (w : World I) (name : String) :
    (∃ (e : Exception) (factories : Nat → ChatRoomFactoryImpl) (made : Nat),
        w.newChatRoom ice name = (.error (e.atCaller [.nameAlreadyExists]),
          { w with factories := factories, made := made }) ∧ w.made ≤ made) ∨
      name ∉ w.server.names ∧ ∃ factories : Nat → ChatRoomFactoryImpl,
        w.newChatRoom ice name = (.ok (some w.made),
          { w with
            server := w.server.publish name (some w.made)
            factories := factories
            made := w.made + 1 }) := by
  cases hasked : w.server.asked (w.replies ice) name with
  | none =>
      obtain ⟨e, he⟩ := ChatServerImpl.newChatRoom_of_asked_none hasked
      refine Or.inl ⟨e, w.factories, w.made, ?_, Nat.le_refl _⟩
      simp only [newChatRoom, he, hasked]
      rfl
  | some f =>
      obtain ⟨hname, -, hanswer⟩ := ChatServerImpl.newChatRoom_of_asked_some hasked
      let factories := Function.update w.factories f ((w.factories f).newChatRoom ice w.made name).2
      rcases hanswer with ⟨e, -, he⟩ | ⟨room, hroom, he⟩
      · refine Or.inl ⟨e, factories, w.made + 1, ?_, Nat.le_succ _⟩
        simp only [newChatRoom, he, hasked]
        rfl
      · have hmade : room = some w.made := by
          cases hnew : ((w.factories f).newChatRoom ice w.made name).1 with
          | error e =>
              simp only [replies, hnew] at hroom
              cases hroom
          | ok room' =>
              simp only [replies, hnew] at hroom
              cases hroom
              exact ChatRoomFactoryImpl.newChatRoom_ok hnew
        refine Or.inr ⟨hname, factories, ?_⟩
        simp only [newChatRoom, he, hasked, hmade]
        rfl

/-- A nick that is listed is refused with an exception that `join` does not
declare. -/
theorem handle_join_listed (ice : Creation) {w : World I} {n : Nat} {nick : String} (who : Prx I)
    (h : nick ∈ (w.rooms n).users) :
    handle ice (.join (some n) nick who) w = (.error (.ice .unknownUserException), w) := by
  rw [handle, callRoom_some, ChatRoomImpl.join_listed who h, Function.update_eq_self]
  rfl

theorem handle_join_fresh (ice : Creation) {w : World I} {n : Nat} {nick : String} (who : Prx I)
    (h : nick ∉ (w.rooms n).users) :
    handle ice (.join (some n) nick who) w =
      (.ok (), { w with rooms := Function.update w.rooms n ((w.rooms n).join nick who).2 }) := by
  rw [handle, callRoom_some, ChatRoomImpl.join_fresh who h]
  rfl

theorem handle_leave_listed (ice : Creation) {w : World I} {n : Nat} {nick : String}
    (h : nick ∈ (w.rooms n).users) :
    handle ice (.leave (some n) nick) w =
      (.ok (), { w with rooms := Function.update w.rooms n ((w.rooms n).leave nick).2 }) := by
  rw [handle, callRoom_some, ChatRoomImpl.leave_listed h]
  rfl

/-! ## The server's directory -/

/-- The server binds each name of the directory to a room object of its own. -/
structure Wired (w : World I) (d : Directory Nat) : Prop where
  lists : ChatServerImpl.Lists w.server d
  bound : ∀ name room, d.lookup name = some room → ∃ n < w.made, room = some n
  apart : ∀ name name' n, d.lookup name = some (some n) → d.lookup name' = some (some n) →
    name = name'

theorem init_wired : Wired (init : World I) .empty := by
  refine ⟨ChatServerImpl.init_lists, ?_, ?_⟩
  · intro name room h
    cases h
  · intro name name' n h
    cases h

variable {w : World I} {d : Directory Nat}

/-- A change that leaves the server alone and forgets no room. -/
theorem Wired.frame (h : Wired w d) {w' : World I} (hserver : w'.server = w.server)
    (hmade : w.made ≤ w'.made) : Wired w' d := by
  refine ⟨by rw [hserver]; exact h.lists, fun name room hroom => ?_, h.apart⟩
  obtain ⟨n, hn, rfl⟩ := h.bound name room hroom
  exact ⟨n, Nat.lt_of_lt_of_le hn hmade, rfl⟩

theorem Wired.publish (h : Wired w d) {name : String} (hname : name ∉ d.keys)
    (factories : Nat → ChatRoomFactoryImpl) :
    Wired { w with
      server := w.server.publish name (some w.made)
      factories := factories
      made := w.made + 1 } (d.append name (some w.made) hname) := by
  have hnew : ∀ n, d.lookup n ≠ some (some w.made) := by
    intro n hn
    obtain ⟨m, hm, he⟩ := h.bound n _ hn
    cases he
    exact Nat.lt_irrefl _ hm
  refine ⟨h.lists.publish _ hname, fun n room hroom => ?_, fun n n' m hn hn' => ?_⟩
  · rw [OrderedTable.lookup_append] at hroom
    split at hroom
    next =>
      cases hroom
      exact ⟨w.made, Nat.lt_succ_self _, rfl⟩
    next =>
      obtain ⟨m, hm, rfl⟩ := h.bound n room hroom
      exact ⟨m, Nat.lt_succ_of_lt hm, rfl⟩
  · rw [OrderedTable.lookup_append] at hn hn'
    split at hn
    next hnn =>
      cases hn
      split at hn'
      next hnn' => rw [hnn, hnn']
      next => exact absurd hn' (hnew n')
    next =>
      split at hn'
      next =>
        cases hn'
        exact absurd hn (hnew n)
      next => exact h.apart n n' m hn hn'

/-- A bound name is looked up without changing anything. -/
theorem Wired.getRoom_bound (h : Wired w d) (ice : Creation) {name : String} {n : Nat}
    (hn : d.lookup name = some (some n)) :
    handle ice (.getRoom name) w = (.ok (some n), w) := by
  simp only [handle, h.lists.getRoom, hn]
  rfl

theorem Wired.getRoom_unbound (h : Wired w d) (ice : Creation) {name : String}
    (hn : d.lookup name = none) : handle ice (.getRoom name) w = (.error .noSuchRoom, w) := by
  simp only [handle, h.lists.getRoom, hn]
  rfl

theorem Wired.getRoom_state (h : Wired w d) (ice : Creation) (name : String) :
    (handle ice (.getRoom name) w).2 = w := by
  cases hd : d.lookup name with
  | none => rw [h.getRoom_unbound ice hd]
  | some room =>
      obtain ⟨n, -, rfl⟩ := h.bound name room hd
      rw [h.getRoom_bound ice hd]

/-- A name that `getRoom` returns a proxy for is bound to it. -/
theorem Wired.lookup_of_getRoom (h : Wired w d) {name : String} {n : Nat}
    (hget : (w.server.getRoom name).1 = .ok (some n)) : d.lookup name = some (some n) := by
  rw [h.lists.getRoom] at hget
  cases hn : d.lookup name with
  | none =>
      rw [hn] at hget
      cases hget
  | some room =>
      rw [hn] at hget
      cases hget
      rfl

/-- A call keeps every binding of the directory. -/
theorem Wired.handle (h : Wired w d) (ice : Creation) (c : Remote I) :
    ∃ d', Wired (World.handle ice c w).2 d' ∧
      ∀ name room, d.lookup name = some room → d'.lookup name = some room := by
  rcases handle_frame ice c w with ⟨name, rfl⟩ | ⟨name, rfl⟩ | ⟨-, rooms, hw⟩
  · rw [World.handle]
    rcases newChatRoom_cases ice w name with
      ⟨e, factories, made, hw, hmade⟩ | ⟨hname, factories, hw⟩
    · rw [hw]
      exact ⟨d, h.frame rfl hmade, fun _ _ hroom => hroom⟩
    · rw [h.lists.names] at hname
      rw [hw]
      refine ⟨_, h.publish hname factories, fun n room hroom => ?_⟩
      have hne : n ≠ name := by
        rintro rfl
        exact hname (OrderedTable.mem_keys_of_lookup hroom)
      rw [OrderedTable.lookup_append, if_neg hne, hroom]
  · rw [h.getRoom_state]
    exact ⟨d, h, fun _ _ hroom => hroom⟩
  · rw [hw]
    exact ⟨d, h.frame rfl (Nat.le_refl _), fun _ _ hroom => hroom⟩

theorem Wired.registerRoomFactory (h : Wired w d) : Wired w.registerRoomFactory d :=
  ⟨⟨h.lists.names, h.lists.dictionary⟩, h.bound, h.apart⟩

theorem Wired.unregisterFactory (h : Wired w d) (f : Nat) : Wired (w.unregisterFactory f) d :=
  ⟨⟨h.lists.names, h.lists.dictionary⟩, h.bound, h.apart⟩

end World

end Rso.Chat
