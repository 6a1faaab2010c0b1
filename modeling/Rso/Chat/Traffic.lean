import Mathlib.Data.List.Forall2
import Mathlib.Data.List.Nodup
import Rso.Chat.Failures
import Rso.Chat.Invocation

/-!
# Requests of any kind

Nothing but a stub writes well-formed requests, yet a skeleton has to face all of them:
operations that do not exist, wrong modes, parameters that are missing or cannot be read,
and calls in any order.  Here the objects of the processes get such requests, one after
the other.

A servant makes calls itself, over proxies that came with requests.  Such a proxy need not
be that of an object of this program, and a name with white space in it can make another
object of the proxy that a factory casts.  So each request comes with what is answered to
the calls that it causes, and nothing is taken for granted about the answers.

What a request can do is what a method of the servant does.  So every object is always in a
state that calls of its operations lead to, and the names of the server stay bound to the
proxies they were bound to (`traffic_right`).
-/

namespace Rso.Chat

open Rpc Runs

/-! ## The servants -/

/-- The servant `ChatServerImpl`, with what the factories answer it. -/
def ChatServerImpl.servant (replies : Replies Nat Nat) :
    ChatServer (ChatServerImpl Nat Nat) Nat where
  getRooms s := (.ok s.getRooms, s)
  getRoom name s := s.getRoom name
  newChatRoom name s := s.newChatRoom replies name
  registerFactory crf s := (.ok (), s.registerFactory crf)
  unregisterFactory crf s := (.ok (), s.unregisterFactory crf)

/-- The servant `ChatRoomFactoryImpl`; `room` is what `checkedCast` gives if it returns. -/
def ChatRoomFactoryImpl.casting (ice : Creation) (room : Prx Nat) :
    ChatRoomFactory ChatRoomFactoryImpl Nat where
  newChatRoom name f :=
    let (result, f) := f.newChatRoom ice () name
    (result.map fun _ => room, f)
  getNumberOfRooms f := (.ok f.getNumberOfRooms, f)

/-- The servant `ChatRoomImpl`, with what the users answer to a message. -/
def ChatRoomImpl.servant {I : Type}
    (sendMessage : (message fromWho : String) → I → Except Exception Unit) :
    ChatRoom (ChatRoomImpl I) I where
  listUsers r := (.ok r.listUsers, r)
  join nick who r := r.join nick who
  postMessage message fromWho r :=
    ((r.postMessage (sendMessage message fromWho) message fromWho).2, r)
  getUser name r := r.getUser name
  leave name r := r.leave name

/-! ## One request -/

section Request

variable {V I : Type} (streams : Streams V Nat) (userStreams : Streams V I)

/-- An operation of a room, for its effect on the members. -/
def roomStep : ChatRoomImpl I → ChatRoomImpl.Call I → ChatRoomImpl I × ChatRoomImpl.Answer I :=
  ChatRoomImpl.step fun _ => .ok ()

/-- A line more on a screen: the time, the message and its sender. -/
def screenStep (screen : String) (line : String × String × String) : String × Unit :=
  (screen ++ UserImpl.line line.1 line.2.1 line.2.2, ())

section Dispatched

variable {σ : Type} {all : List String} {cases : List (Served σ V Exception)}

/-- A request has the effect of the method it is for, or none. -/
theorem dispatch_effect (h : Table faults all cases) (request : Incoming V) (s : σ) :
    (dispatch faults all cases request s).2 = s ∨
      ∃ c ∈ cases, ∃ a, c.operation.Asks request a ∧
        (dispatch faults all cases request s).2 = (c.method a s).2 := by
  rcases h.dispatch_cases request s with ⟨c, hc, a, hasks, heq⟩ | ⟨-, heq | heq⟩
  · rw [heq]
    exact Or.inr ⟨c, hc, a, hasks, rfl⟩
  · rw [heq]
    exact Or.inl rfl
  · rw [heq]
    exact Or.inl rfl

end Dispatched

/-- The request is for a room of this name, at the server. -/
def AsksForRoom (request : Incoming V) (name : String) : Prop :=
  (Operations.newChatRoom streams [.nameAlreadyExists]).Asks request name

/-- A request is a call of an operation of the server, or none. -/
theorem server_effect (replies : Replies Nat Nat) (request : Incoming V)
    (s : ChatServerImpl Nat Nat) :
    (ChatServer.iceDispatch streams (ChatServerImpl.servant replies) request s).2 = s ∨
      ∃ c : ChatServerImpl.Call Nat Nat,
        (∀ name r, c = .newChatRoom name r → r = replies ∧ AsksForRoom streams request name) ∧
        (ChatServer.iceDispatch streams (ChatServerImpl.servant replies) request s).2 =
          (s.step c).1 := by
  rcases dispatch_effect (ChatServer.table streams (ChatServerImpl.servant replies)) request s with
    heq | ⟨c, hc, a, hasks, heq⟩
  · exact Or.inl heq
  · rw [ChatServer.iceDispatch, heq]
    simp only [ChatServer.cases, List.mem_cons, List.not_mem_nil, or_false] at hc
    rcases hc with rfl | rfl | rfl | rfl | rfl | rfl | rfl | rfl | rfl
    · exact Or.inr ⟨.getRoom a, fun _ _ hc => (by cases hc), rfl⟩
    · exact Or.inl rfl
    · exact Or.inl rfl
    · exact Or.inl rfl
    · exact Or.inl rfl
    · exact Or.inl rfl
    · refine Or.inr ⟨.newChatRoom a replies, fun name r hr => ?_, rfl⟩
      cases hr
      exact ⟨rfl, hasks⟩
    · exact Or.inr ⟨.registerFactory a, fun _ _ hc => (by cases hc), rfl⟩
    · exact Or.inr ⟨.unregisterFactory a, fun _ _ hc => (by cases hc), rfl⟩

theorem factory_effect (ice : Creation) (room : Prx Nat) (request : Incoming V)
    (f : ChatRoomFactoryImpl) :
    (ChatRoomFactory.iceDispatch streams (ChatRoomFactoryImpl.casting ice room) request f).2 = f ∨
      ∃ c : ChatRoomFactoryImpl.Call Unit,
        (ChatRoomFactory.iceDispatch streams (ChatRoomFactoryImpl.casting ice room) request f).2 =
          (f.step c).1 := by
  rcases dispatch_effect (ChatRoomFactory.table streams (ChatRoomFactoryImpl.casting ice room))
    request f with heq | ⟨c, hc, a, -, heq⟩
  · exact Or.inl heq
  · rw [ChatRoomFactory.iceDispatch, heq]
    simp only [ChatRoomFactory.cases, List.mem_cons, List.not_mem_nil, or_false] at hc
    rcases hc with rfl | rfl | rfl | rfl | rfl | rfl
    · exact Or.inl rfl
    · exact Or.inl rfl
    · exact Or.inl rfl
    · exact Or.inl rfl
    · exact Or.inl rfl
    · exact Or.inr ⟨⟨ice, (), a⟩, rfl⟩

theorem room_effect (sendMessage : (message fromWho : String) → I → Except Exception Unit)
    (request : Incoming V) (r : ChatRoomImpl I) :
    (ChatRoom.iceDispatch userStreams (ChatRoomImpl.servant sendMessage) request r).2 = r ∨
      ∃ c, (ChatRoom.iceDispatch userStreams (ChatRoomImpl.servant sendMessage) request r).2 =
        (roomStep r c).1 := by
  rcases dispatch_effect (ChatRoom.table userStreams (ChatRoomImpl.servant sendMessage))
    request r with heq | ⟨c, hc, a, -, heq⟩
  · exact Or.inl heq
  · rw [ChatRoom.iceDispatch, heq]
    simp only [ChatRoom.cases, List.mem_cons, List.not_mem_nil, or_false] at hc
    rcases hc with rfl | rfl | rfl | rfl | rfl | rfl | rfl | rfl | rfl
    · exact Or.inr ⟨.leave a, rfl⟩
    · exact Or.inr ⟨.getUser a, rfl⟩
    · exact Or.inl rfl
    · exact Or.inl rfl
    · exact Or.inl rfl
    · exact Or.inl rfl
    · exact Or.inr ⟨.join a.1 a.2, rfl⟩
    · exact Or.inl rfl
    · exact Or.inl rfl

theorem user_effect (ctime : String) (request : Incoming V) (screen : String) :
    (User.iceDispatch userStreams (UserImpl.servant ctime) request screen).2 = screen ∨
      ∃ line, (User.iceDispatch userStreams (UserImpl.servant ctime) request screen).2 =
        (screenStep screen line).1 := by
  rcases dispatch_effect (User.table userStreams (UserImpl.servant ctime)) request screen with
    heq | ⟨c, hc, a, -, heq⟩
  · exact Or.inl heq
  · rw [User.iceDispatch, heq]
    simp only [User.cases, List.mem_cons, List.not_mem_nil, or_false] at hc
    rcases hc with rfl | rfl | rfl | rfl | rfl | rfl
    · exact Or.inl rfl
    · exact Or.inl rfl
    · exact Or.inl rfl
    · exact Or.inl rfl
    · exact Or.inr ⟨(ctime, a), rfl⟩
    · exact Or.inr ⟨(ctime, a), rfl⟩

end Request

/-! ## Lists with a match for each entry -/

section Matched

variable {α β : Type} {R : α → β → Prop} {xs : List α} {ys : List β}

/-- Each entry of a list that is matched in another one has its match there. -/
theorem exists_of_sublistForall₂ (h : List.SublistForall₂ R xs ys) :
    ∀ x ∈ xs, ∃ y ∈ ys, R x y := by
  induction h with
  | nil =>
      intro x hx
      cases hx
  | @cons x y xs ys hxy _ ih =>
      intro z hz
      rcases List.mem_cons.mp hz with rfl | hz
      · exact ⟨y, List.mem_cons_self, hxy⟩
      · obtain ⟨w, hw, hzw⟩ := ih z hz
        exact ⟨w, List.mem_cons_of_mem y hw, hzw⟩
  | @cons_right y xs ys _ ih =>
      intro z hz
      obtain ⟨w, hw, hzw⟩ := ih z hz
      exact ⟨w, List.mem_cons_of_mem y hw, hzw⟩

/-- Entries that are matched in order differ as their matches do. -/
theorem pairwise_of_sublistForall₂ {P : α → α → Prop} {Q : β → β → Prop}
    (hPQ : ∀ x x' y y', R x y → R x' y' → Q y y' → P x x')
    (h : List.SublistForall₂ R xs ys) (hys : ys.Pairwise Q) : xs.Pairwise P := by
  induction h with
  | nil => exact .nil
  | @cons x y xs ys hxy hsub ih =>
      obtain ⟨hy, hys⟩ := List.pairwise_cons.mp hys
      refine List.pairwise_cons.mpr ⟨fun x' hx' => ?_, ih hys⟩
      obtain ⟨y', hy', hxy'⟩ := exists_of_sublistForall₂ hsub x' hx'
      exact hPQ x x' y y' hxy hxy' (hy y' hy')
  | cons_right _ ih => exact ih (List.pairwise_cons.mp hys).2

end Matched

/-! ## The traffic -/

/-- An object of the processes. -/
inductive Target (I : Type) where
  | server
  | factory (f : Nat)
  | room (n : Nat)
  | user (i : I)

/-- The states of the objects; that of a user's object is what it has printed. -/
structure Objects (I : Type) where
  server : ChatServerImpl Nat Nat
  factories : Nat → ChatRoomFactoryImpl
  rooms : Nat → ChatRoomImpl I
  screens : I → String

/-- A request, with what is answered to the calls that its object makes meanwhile. -/
structure Arrival (V I : Type) where
  target : Target I
  request : Incoming V
  /-- What a factory calls to make a room. -/
  ice : Creation := .works
  checkedCast : Prx Nat := none
  /-- What the server calls. -/
  replies : Replies Nat Nat := ⟨fun _ _ => .ok 0, fun _ _ => .ok none⟩
  /-- What a room calls. -/
  sendMessage : (message fromWho : String) → I → Except Exception Unit := fun _ _ _ => .ok ()
  ctime : String := ""

namespace Objects

def init {I : Type} : Objects I := ⟨.init, fun _ => .init, fun _ => .init, fun _ => ""⟩

variable {V I : Type} [DecidableEq I] (streams : Streams V Nat) (userStreams : Streams V I)

def receive (o : Objects I) (a : Arrival V I) : Objects I × Reply V Exception :=
  match a.target with
  | .server =>
      let (reply, server) :=
        ChatServer.iceDispatch streams (ChatServerImpl.servant a.replies) a.request o.server
      ({ o with server := server }, reply)
  | .factory f =>
      let (reply, factory) := ChatRoomFactory.iceDispatch streams
        (ChatRoomFactoryImpl.casting a.ice a.checkedCast) a.request (o.factories f)
      ({ o with factories := Function.update o.factories f factory }, reply)
  | .room n =>
      let (reply, room) := ChatRoom.iceDispatch userStreams
        (ChatRoomImpl.servant a.sendMessage) a.request (o.rooms n)
      ({ o with rooms := Function.update o.rooms n room }, reply)
  | .user i =>
      let (reply, screen) :=
        User.iceDispatch userStreams (UserImpl.servant a.ctime) a.request (o.screens i)
      ({ o with screens := Function.update o.screens i screen }, reply)

/-- The objects after this traffic. -/
def traffic (arrivals : List (Arrival V I)) : Objects I :=
  run (receive streams userStreams) .init arrivals

/-! ## Calls of operations -/

/-- Every object is as calls of its operations leave it. -/
structure Called (o : Objects I) : Prop where
  server : ∃ calls, o.server = run ChatServerImpl.step .init calls
  factories : ∀ f, ∃ calls : List (ChatRoomFactoryImpl.Call Unit),
    o.factories f = run ChatRoomFactoryImpl.step .init calls
  rooms : ∀ n, ∃ calls, o.rooms n = run roomStep .init calls
  screens : ∀ i, ∃ lines, o.screens i = run screenStep "" lines

section Step

variable {σ ι ο : Type} {step : σ → ι → σ × ο} {start s s' : σ}

/-- One more call, or none. -/
theorem called_step (h : ∃ calls, s = run step start calls)
    (hstep : s' = s ∨ ∃ c, s' = (step s c).1) : ∃ calls, s' = run step start calls := by
  obtain ⟨calls, hcalls⟩ := h
  rcases hstep with rfl | ⟨c, rfl⟩
  · exact ⟨calls, hcalls⟩
  · refine ⟨calls ++ [c], ?_⟩
    rw [run_append, ← hcalls, run_cons, run_nil]

/-- One more call of one of many objects, or none. -/
theorem called_update {κ : Type} [DecidableEq κ] {states : κ → σ} {k : κ}
    (h : ∀ k, ∃ calls, states k = run step start calls)
    (hstep : s' = states k ∨ ∃ c, s' = (step (states k) c).1) (j : κ) :
    ∃ calls, Function.update states k s' j = run step start calls := by
  rw [Function.update_apply]
  split
  next heq => exact called_step (h k) hstep
  next => exact h j

end Step

omit [DecidableEq I] in
theorem init_called : Called (init : Objects I) :=
  ⟨⟨[], rfl⟩, fun _ => ⟨[], rfl⟩, fun _ => ⟨[], rfl⟩, fun _ => ⟨[], rfl⟩⟩

theorem Called.receive {o : Objects I} (h : Called o) (a : Arrival V I) :
    Called (Objects.receive streams userStreams o a).1 := by
  rw [Objects.receive]
  split
  next =>
    have heffect := server_effect streams a.replies a.request o.server
    obtain ⟨calls, hcalls⟩ := called_step h.server (heffect.imp_right fun ⟨c, _, hc⟩ => ⟨c, hc⟩)
    exact ⟨⟨calls, hcalls⟩, h.factories, h.rooms, h.screens⟩
  next f _ =>
    have heffect := factory_effect streams a.ice a.checkedCast a.request (o.factories f)
    exact ⟨h.server, called_update h.factories heffect, h.rooms, h.screens⟩
  next n _ =>
    have heffect := room_effect userStreams a.sendMessage a.request (o.rooms n)
    exact ⟨h.server, h.factories, called_update h.rooms heffect, h.screens⟩
  next i _ =>
    have heffect := user_effect userStreams a.ctime a.request (o.screens i)
    exact ⟨h.server, h.factories, h.rooms, called_update h.screens heffect⟩

/-! ## The names -/

/-- The server binds the name to this proxy. -/
def Binds (o : Objects I) (name : String) (room : Prx Nat) : Prop :=
  (o.server.getRoom name).1 = .ok room

end Objects

namespace Arrival

variable {V I : Type} (streams : Streams V Nat)

/-- The request is for a room of the name, and a factory answers with this proxy. -/
def Offers (entry : String × Prx Nat) (a : Arrival V I) : Prop :=
  a.target = .server ∧ AsksForRoom streams a.request entry.1 ∧
    ∃ f, a.replies.newChatRoom f entry.1 = .ok entry.2

/-- No proxy is answered to both. -/
def Apart (a b : Arrival V I) : Prop :=
  ∀ entry entry', a.Offers streams entry → b.Offers streams entry' → entry.2 ≠ entry'.2

end Arrival

namespace Objects

open ChatServerImpl (Lists)

variable {V I : Type} [DecidableEq I] (streams : Streams V Nat) (userStreams : Streams V I)

omit [DecidableEq I] in
theorem binds_iff {o : Objects I} {d : Directory Nat} (h : Lists o.server d) (name : String)
    (room : Prx Nat) : o.Binds name room ↔ d.lookup name = some room := by
  rw [Binds, h.getRoom]
  cases d.lookup name <;> simp

/-- What a request does to the server. -/
theorem receive_server (o : Objects I) (a : Arrival V I) :
    (receive streams userStreams o a).1.server = o.server ∨
      ∃ c : ChatServerImpl.Call Nat Nat,
        (∀ name r, c = .newChatRoom name r →
          a.target = .server ∧ r = a.replies ∧ AsksForRoom streams a.request name) ∧
        (receive streams userStreams o a).1.server = (o.server.step c).1 := by
  rw [receive]
  split
  next htarget =>
    rcases server_effect streams a.replies a.request o.server with heq | ⟨c, hasks, heq⟩
    · exact Or.inl heq
    · exact Or.inr ⟨c, fun name r hc => ⟨htarget, hasks name r hc⟩, heq⟩
  next => exact Or.inl rfl
  next => exact Or.inl rfl
  next => exact Or.inl rfl

/-- A request adds to the directory at most one room, which a factory has answered. -/
theorem receive_lists {o : Objects I} {d : Directory Nat} (h : Lists o.server d)
    (a : Arrival V I) :
    ∃ (d' : Directory Nat) (more : List (String × Prx Nat)),
      Lists (receive streams userStreams o a).1.server d' ∧ d'.entries = d.entries ++ more ∧
      (more = [] ∨ ∃ entry, more = [entry] ∧ a.Offers streams entry) := by
  rcases receive_server streams userStreams o a with heq | ⟨c, hasks, heq⟩
  · exact ⟨d, [], heq ▸ h, (List.append_nil _).symm, Or.inl rfl⟩
  · obtain ⟨d', hnext, hentries⟩ := h.step c
    refine ⟨d', _, heq ▸ hnext, hentries, ?_⟩
    cases hcreated : ChatServerImpl.createdBy (c, (o.server.step c).2) with
    | none => exact Or.inl rfl
    | some entry =>
        obtain ⟨replies, rfl, hroom⟩ := ChatServerImpl.createdBy_eq_some.mp hcreated
        obtain ⟨f, -, -, hanswer⟩ := (ChatServerImpl.newChatRoom_ok_iff _ _ _).mp hroom
        obtain ⟨htarget, rfl, hasked⟩ := hasks _ _ rfl
        exact Or.inr ⟨entry, rfl, htarget, hasked, f, hanswer⟩

/-- The rooms that traffic adds to the directory are answers to different requests. -/
theorem run_lists :
    ∀ (arrivals : List (Arrival V I)) {o : Objects I} {d : Directory Nat}, Lists o.server d →
      ∃ (d' : Directory Nat) (more : List (String × Prx Nat)),
        Lists (run (receive streams userStreams) o arrivals).server d' ∧
        d'.entries = d.entries ++ more ∧
        List.SublistForall₂ (fun entry a => a.Offers streams entry) more arrivals := by
  intro arrivals
  induction arrivals with
  | nil =>
      intro o d h
      exact ⟨d, [], h, (List.append_nil _).symm, .nil⟩
  | cons a arrivals ih =>
      intro o d h
      obtain ⟨d', now, hnext, hnow, hoffers⟩ := receive_lists streams userStreams h a
      obtain ⟨d'', later, hend, hlater, hsub⟩ := ih hnext
      refine ⟨d'', now ++ later, hend, by rw [hlater, hnow, List.append_assoc], ?_⟩
      rcases hoffers with rfl | ⟨entry, rfl, hoffers⟩
      · exact hsub.cons_right
      · exact .cons hoffers hsub

/-- Whatever requests the objects get and whatever is answered to their own calls: the
server, each factory, each room and each user are in a state that calls of their operations
lead to; a name that was ever bound to a proxy is bound to it still; each proxy that a name
is bound to is what a factory has answered to a request for a room of the name; and no two
names are bound to one proxy, if no proxy was answered to two of these requests. -/
theorem traffic_right (before after : List (Arrival V I)) :
    Called (traffic streams userStreams (before ++ after)) ∧
    (∀ name room, Binds (traffic streams userStreams before) name room →
      Binds (traffic streams userStreams (before ++ after)) name room) ∧
    (∀ name room, Binds (traffic streams userStreams (before ++ after)) name room →
      ∃ a ∈ before ++ after, a.Offers streams (name, room)) ∧
    ((before ++ after).Pairwise (Arrival.Apart streams) → ∀ name name' room,
      Binds (traffic streams userStreams (before ++ after)) name room →
      Binds (traffic streams userStreams (before ++ after)) name' room → name = name') := by
  obtain ⟨d, made, hbefore, hmade, hsub⟩ :=
    run_lists streams userStreams before (o := .init) ChatServerImpl.init_lists
  obtain ⟨d', more, hafter, hmore, hsub'⟩ := run_lists streams userStreams after hbefore
  rw [← run_append] at hafter
  have hall : List.SublistForall₂ (fun entry (a : Arrival V I) => a.Offers streams entry)
      d'.entries (before ++ after) := by
    obtain ⟨asked, hasked, hle⟩ := List.sublistForall₂_iff.mp hsub
    obtain ⟨asked', hasked', hle'⟩ := List.sublistForall₂_iff.mp hsub'
    rw [hmore, hmade]
    exact List.sublistForall₂_iff.mpr
      ⟨asked ++ asked', List.rel_append hasked hasked', hle.append hle'⟩
  refine ⟨?_, fun name room hroom => ?_, fun name room hroom => ?_, fun hapart => ?_⟩
  · exact run_invariant _ (fun o a _ h => h.receive streams userStreams a) init_called
  · rw [traffic, binds_iff hbefore, ← d.mem_entries_iff] at hroom
    rw [traffic, binds_iff hafter, ← d'.mem_entries_iff, hmore]
    exact List.mem_append_left _ hroom
  · rw [traffic, binds_iff hafter, ← d'.mem_entries_iff] at hroom
    exact exists_of_sublistForall₂ hall _ hroom
  · intro name name' room hroom hroom'
    rw [traffic, binds_iff hafter, ← d'.mem_entries_iff] at hroom hroom'
    have hdifferent : (d'.entries.map Prod.snd).Nodup := List.pairwise_map.mpr <|
      pairwise_of_sublistForall₂
        (fun entry entry' a a' hoffers hoffers' h => h entry entry' hoffers hoffers') hall hapart
    exact congrArg Prod.fst (List.inj_on_of_nodup_map hdifferent hroom hroom' rfl)

/-! ## Two rooms -/

/-- The types of the values that are written. -/
inductive Tag where
  | string
  | strings
  | proxy
  | int
  | bool
  | roomList
deriving DecidableEq

abbrev Tag.Value : Tag → Type
  | .string => String
  | .strings => List String
  | .proxy => Prx Nat
  | .int => Int
  | .bool => Bool
  | .roomList => List RoomInfo

/-- Streams that write each value with its type. -/
def tagged : Streams (Σ t : Tag, t.Value) Nat where
  string := .tagged Tag.Value .string
  strings := .tagged Tag.Value .strings
  proxy := .tagged Tag.Value .proxy
  int := .tagged Tag.Value .int
  bool := .tagged Tag.Value .bool
  roomList := .tagged Tag.Value .roomList

/-- A request for a room, to which a factory answers with this one. -/
def creation (name : String) (room : Nat) : Arrival (Σ t : Tag, t.Value) Nat where
  target := .server
  request := (Operations.newChatRoom tagged [.nameAlreadyExists]).request name
  replies := ⟨fun _ _ => .ok 0, fun _ _ => .ok (some room)⟩

/-- A factory is registered, and two rooms are asked for. -/
def creations : List (Arrival (Σ t : Tag, t.Value) Nat) :=
  [{ target := .server, request := (Operations.registerFactory tagged).request (some 0) },
    creation "tea" 1, creation "cat" 2]

/-- The two names are bound to the two rooms. -/
theorem traffic_right_creations :
    Binds (traffic tagged tagged creations) "tea" (some 1) ∧
      Binds (traffic tagged tagged creations) "cat" (some 2) ∧
      ∀ name name' room, Binds (traffic tagged tagged creations) name room →
        Binds (traffic tagged tagged creations) name' room → name = name' := by
  have hapart : creations.Pairwise (Arrival.Apart tagged) := by
    simp only [creations, creation, List.pairwise_cons, List.mem_cons, List.not_mem_nil, or_false,
      forall_eq_or_imp, forall_eq, IsEmpty.forall_iff, implies_true, List.Pairwise.nil, and_true]
    refine ⟨⟨?_, ?_⟩, ?_⟩
    all_goals
      rintro ⟨_, _⟩ ⟨_, _⟩ ⟨-, -, _, hroom⟩ ⟨-, -, _, hroom'⟩
      cases hroom
      cases hroom'
      simp
  exact ⟨rfl, rfl, (traffic_right tagged tagged [] creations).2.2.2 hapart⟩

end Objects

end Rso.Chat
