import Rso.Lib.Runs
import Rso.Chat.Invocation

/-!
# What the users see

A message that reaches a user is printed by the `UserImpl` of its client.  Here the
processes of the clients keep what their users have been shown, and a room sends a message
to them one after the other, over their proxies.

`screens_right` says that nothing is lost or shown twice: after any calls a screen has the
messages of the deliveries to its user, in order, and no other.  The deliveries are those
of `ChatRoomImpl.postMessage`, and one for each private message.
-/

namespace Rso.Chat

open Rpc Runs

/-- The processes, with what each client's object has printed. -/
structure Screened (I : Type) where
  world : World I
  screens : I → String

/-- The clients' clocks during a call: the time at each of its deliveries. -/
abbrev Clock := Nat → String

/-- The clock from the second delivery on. -/
def Clock.later (ctime : Clock) : Clock := fun k => ctime (k + 1)

/-- The lines of the deliveries to a user. -/
def printed {I : Type} [DecidableEq I] (ctime : Clock) (i : I) : List (Delivery I) → String
  | [] => ""
  | d :: sent =>
      (if d.recipient = i then UserImpl.line (ctime 0) d.message d.fromWho else "") ++
        printed ctime.later i sent

namespace Screened

variable {V I α : Type} [DecidableEq I]

/-- What is no call to a user. -/
def onWorld (m : Method (World I) α) : Method (Screened I) α := fun s =>
  let (result, w) := m s.world
  (result, { s with world := w })

/-- A call to a user. -/
def onScreen (i : I) (m : Method String α) : Method (Screened I) α := fun s =>
  let (result, screen) := m (s.screens i)
  (result, { s with screens := Function.update s.screens i screen })

/-- What is printed of these deliveries. -/
def print (ctime : Clock) (sent : List (Delivery I)) (s : Screened I) : Screened I :=
  { s with screens := fun i => s.screens i ++ printed ctime i sent }

variable (wires : Wires V I)

/-- The proxy of a client's object, with the time there. -/
def userPrx (ctime : String) (s : Screened I) (i : I) : User String :=
  s.world.userPrx { wires with ctime := ctime } i

/-- The loop of `postMessage`, over the users' proxies. -/
def sendAll (message fromWho : String) :
    Clock → List (String × Prx I) → Method (Screened I) Unit
  | _, [], s => (.ok (), s)
  | _, (_, none) :: _, s => (.error .nullHandleException, s)
  | ctime, (_, some u) :: rest, s =>
      match onScreen u ((s.userPrx wires (ctime 0) u).sendMessage message fromWho) s with
      | (.error e, s) => (.error e, s)
      | (.ok (), s) => sendAll message fromWho ctime.later rest s

variable (ctime : Clock)

/-- The servant `ChatRoomImpl`. -/
def chatRoom (n : Nat) : ChatRoom (Screened I) I where
  listUsers := onWorld (World.chatRoom wires n).listUsers
  join nick who := onWorld ((World.chatRoom wires n).join nick who)
  postMessage message fromWho s :=
    let r := s.world.rooms n
    let fromWhoPresent := r.users.any (· == fromWho)
    if !fromWhoPresent then (.error .noSuchUser, s)
    else sendAll wires message fromWho ctime r.nickUserDictionary.toList s
  getUser name := onWorld ((World.chatRoom wires n).getUser name)
  leave name := onWorld ((World.chatRoom wires n).leave name)

def roomPrx (n : Nat) : ChatRoom (Screened I) I :=
  ChatRoom.iceProxy wires.userStreams
    (ChatRoom.iceDispatch wires.userStreams (chatRoom wires ctime n))

/-- A call of a client, made over proxies. -/
def call (ice : Creation) : (c : Remote I) → Method (Screened I) c.Result
  | .newChatRoom name => onWorld ((World.serverPrx wires ice).newChatRoom name)
  | .getRooms => onWorld (World.serverPrx wires ice).getRooms
  | .getRoom name => onWorld ((World.serverPrx wires ice).getRoom name)
  | .join room nick who => room.invoke fun n => (roomPrx wires ctime n).join nick who
  | .leave room nick => room.invoke fun n => (roomPrx wires ctime n).leave nick
  | .listUsers room => room.invoke fun n => (roomPrx wires ctime n).listUsers
  | .getUser room nick => room.invoke fun n => (roomPrx wires ctime n).getUser nick
  | .postMessage room message fromWho =>
      room.invoke fun n => (roomPrx wires ctime n).postMessage message fromWho
  | .sendPrivateMessage user message fromWho =>
      user.invoke fun i s =>
        onScreen i ((s.userPrx wires (ctime 0) i).sendPrivateMessage message fromWho) s

end Screened

/-! ## Deliveries -/

/-- The messages that a call delivers. -/
def World.sent {I : Type} (w : World I) : Remote I → List (Delivery I)
  | .postMessage (some n) message fromWho =>
      ((w.rooms n).postMessage w.sendMessage message fromWho).1
  | .sendPrivateMessage (some i) message fromWho =>
      if w.alive i then [⟨i, message, fromWho⟩] else []
  | _ => []

namespace Screened

variable {V I α : Type} [DecidableEq I]

theorem print_nil (ctime : Clock) (s : Screened I) : s.print ctime [] = s := by
  simp [print, printed]

theorem print_cons (ctime : Clock) (d : Delivery I) (sent : List (Delivery I))
    (s : Screened I) :
    s.print ctime (d :: sent) = (s.print ctime [d]).print ctime.later sent := by
  simp [print, printed, String.append_assoc]

variable (wires : Wires V I) (ctime : Clock)

theorem print_one (s : Screened I) (i : I) (message fromWho : String) :
    ⟨s.world, Function.update s.screens i
        (s.screens i ++ UserImpl.line (ctime 0) message fromWho)⟩ =
      s.print ctime [⟨i, message, fromWho⟩] := by
  rw [print]
  congr 1
  funext j
  by_cases hj : j = i
  · subst hj
    simp [printed]
  · simp [printed, hj, Ne.symm hj]

/-- A message to a user is delivered if its process runs, by either method. -/
theorem onScreen_user (s : Screened I) (i : I) (message fromWho : String)
    (m : User String → Method String Unit)
    (hprints : ∀ out, m (UserImpl.servant (ctime 0)) out =
      (.ok (), out ++ UserImpl.line (ctime 0) message fromWho))
    (hfails : ∀ out, m ⟨fun _ _ out => (.error (.ice .localException), out),
      fun _ _ out => (.error (.ice .localException), out)⟩ out =
        (.error (.ice .localException), out)) :
    onScreen i (m (s.userPrx wires (ctime 0) i)) s =
      (s.world.sendMessage i,
        s.print ctime (if s.world.alive i then [⟨i, message, fromWho⟩] else [])) := by
  rw [userPrx, World.userPrx_eq, World.sendMessage, onScreen]
  cases s.world.alive i with
  | true =>
      simp only [if_true, hprints]
      rw [print_one]
  | false =>
      simp only [Bool.false_eq_true, if_false, hfails]
      rw [Function.update_eq_self, print_nil]

/-- The loop delivers what `ChatRoomImpl.sendAll` does, and ends as it does. -/
theorem sendAll_eq (message fromWho : String) :
    ∀ (entries : List (String × Prx I)) (ctime : Clock) (s : Screened I),
      sendAll wires message fromWho ctime entries s =
        ((ChatRoomImpl.sendAll s.world.sendMessage message fromWho entries).2,
          s.print ctime (ChatRoomImpl.sendAll s.world.sendMessage message fromWho entries).1) := by
  intro entries
  induction entries with
  | nil =>
      intro ctime s
      rw [sendAll, ChatRoomImpl.sendAll, print_nil]
  | cons entry rest ih =>
      obtain ⟨nick, who⟩ := entry
      intro ctime s
      cases who with
      | none => rw [sendAll, ChatRoomImpl.sendAll, print_nil]
      | some u =>
          have hsend := onScreen_user wires ctime s u message fromWho
            (·.sendMessage message fromWho) (fun _ => rfl) (fun _ => rfl)
          rw [sendAll, hsend, ChatRoomImpl.sendAll, World.sendMessage]
          cases halive : s.world.alive u with
          | true =>
              simp only [if_true]
              rw [ih]
              exact congrArg _ (print_cons ..).symm
          | false =>
              simp only [Bool.false_eq_true, if_false]

theorem roomPrx_eq (n : Nat) : roomPrx wires ctime n = (chatRoom wires ctime n).seen :=
  ChatRoom.iceProxy_iceDispatch ..

/-- A call that is no message shows nothing. -/
theorem onWorld_quiet {m : Method (World I) α} {result : Except Exception α} {w : World I}
    {s : Screened I} {c : Remote I} (h : m s.world = (result, w)) (hsent : s.world.sent c = []) :
    onWorld m s = (result, (⟨w, s.screens⟩ : Screened I).print ctime (s.world.sent c)) := by
  rw [onWorld, h, hsent, print_nil]

omit [DecidableEq I] in
theorem invoke_inRoom (room : Prx Nat) (throws : List Exception)
    (operation : ChatRoomImpl I → Except Exception α × ChatRoomImpl I) (s : Screened I) :
    room.invoke (fun n => seen throws (onWorld (World.inRoom n operation))) s =
      ((s.world.callRoom room throws operation).1,
        ⟨(s.world.callRoom room throws operation).2, s.screens⟩) := by
  cases room with
  | none => rfl
  | some n => rfl

theorem chatRoom_postMessage (n : Nat) (message fromWho : String) (s : Screened I) :
    (chatRoom wires ctime n).postMessage message fromWho s =
      (((s.world.rooms n).postMessage s.world.sendMessage message fromWho).2,
        s.print ctime
          ((s.world.rooms n).postMessage s.world.sendMessage message fromWho).1) := by
  rw [chatRoom, ChatRoomImpl.postMessage]
  dsimp only
  split
  next => rw [print_nil]
  next => exact sendAll_eq ..

/-- A call over proxies is the call that runs the servant's operation alone, and its
deliveries are printed. -/
theorem call_eq (ice : Creation) (c : Remote I) (s : Screened I) :
    call wires ctime ice c s =
      ((World.handle ice c s.world).1,
        (⟨(World.handle ice c s.world).2, s.screens⟩ : Screened I).print ctime
          (s.world.sent c)) := by
  cases c with
  | newChatRoom name =>
      refine onWorld_quiet ctime ?_ rfl
      rw [World.serverPrx_eq]
      exact World.chatServer_newChatRoom ..
  | getRooms =>
      refine onWorld_quiet ctime ?_ rfl
      rw [World.serverPrx_eq]
      rfl
  | getRoom name =>
      refine onWorld_quiet ctime ?_ rfl
      rw [World.serverPrx_eq]
      rfl
  | join room nick who =>
      have hsent : s.world.sent (.join room nick who) = [] := rfl
      rw [call, hsent, print_nil]
      simp only [roomPrx_eq]
      exact invoke_inRoom room [.nickNotAvailable] (fun r => r.join nick who) s
  | leave room nick =>
      have hsent : s.world.sent (.leave room nick) = [] := rfl
      rw [call, hsent, print_nil]
      simp only [roomPrx_eq]
      exact invoke_inRoom room [] (fun r => r.leave nick) s
  | listUsers room =>
      have hsent : s.world.sent (.listUsers room) = [] := rfl
      rw [call, hsent, print_nil]
      simp only [roomPrx_eq]
      exact invoke_inRoom room [] (fun r => (.ok r.listUsers, r)) s
  | getUser room nick =>
      have hsent : s.world.sent (.getUser room nick) = [] := rfl
      rw [call, hsent, print_nil]
      simp only [roomPrx_eq]
      exact invoke_inRoom room [.noSuchUser] (fun r => r.getUser nick) s
  | postMessage room message fromWho =>
      rw [call]
      simp only [roomPrx_eq]
      cases room with
      | none => exact congrArg _ (print_nil _ _).symm
      | some n =>
          have hworld : (World.handle ice (.postMessage (some n) message fromWho) s.world).2 =
              s.world := World.callRoom_state fun _ => rfl
          rw [hworld]
          show seen [] ((chatRoom wires ctime n).postMessage message fromWho) s = _
          rw [seen, chatRoom_postMessage]
          rfl
  | sendPrivateMessage user message fromWho =>
      cases user with
      | none => exact congrArg _ (print_nil _ _).symm
      | some i =>
          exact onScreen_user wires ctime s i message fromWho
            (·.sendPrivateMessage message fromWho) (fun _ => rfl) (fun _ => rfl)

end Screened

/-! ## Whole runs -/

/-- What happens to the processes. -/
inductive Happening (I : Type) where
  | call (c : Remote I) (ice : Creation) (ctime : Clock)
  | clients (alive : I → Bool)
  | registerRoomFactory
  | unregisterFactory (f : Nat)

variable {V I : Type}

/-- The deliveries of what happens, with their times. -/
def World.happen (w : World I) : Happening I → World I × Clock × List (Delivery I)
  | .call c ice ctime => ((World.handle ice c w).2, ctime, w.sent c)
  | .clients alive => ({ w with alive := alive }, fun _ => "", [])
  | .registerRoomFactory => (w.registerRoomFactory, fun _ => "", [])
  | .unregisterFactory f => (w.unregisterFactory f, fun _ => "", [])

/-- A loop that comes to its end has sent one message to each entry. -/
theorem sendAll_of_ok {sendMessage : I → Except Exception Unit} {message fromWho : String} :
    ∀ {entries : List (String × Prx I)},
      (ChatRoomImpl.sendAll sendMessage message fromWho entries).2 = .ok () →
      ∃ members : List (String × I), entries = members.map (fun e => (e.1, some e.2)) ∧
        (ChatRoomImpl.sendAll sendMessage message fromWho entries).1 =
          members.map fun e => ⟨e.2, message, fromWho⟩ := by
  intro entries
  induction entries with
  | nil => exact fun _ => ⟨[], rfl, rfl⟩
  | cons entry rest ih =>
      obtain ⟨nick, who⟩ := entry
      intro h
      cases who with
      | none => cases h
      | some u =>
          rw [ChatRoomImpl.sendAll] at h ⊢
          cases hu : sendMessage u with
          | error e =>
              rw [hu] at h
              cases h
          | ok _ =>
              rw [hu] at h
              obtain ⟨members, hrest, hsent⟩ := ih h
              refine ⟨(nick, u) :: members, by rw [hrest]; rfl, ?_⟩
              exact congrArg _ hsent

/-- A post that succeeds is delivered to every entry of the room's dictionary, once and in
order. -/
theorem World.sent_of_ok {ice : Creation} {w : World I} {n : Nat} {message fromWho : String}
    (h : (World.handle ice (.postMessage (some n) message fromWho) w).1 = .ok ()) :
    ∃ members : List (String × I),
      (w.rooms n).nickUserDictionary.toList = members.map (fun e => (e.1, some e.2)) ∧
      w.sent (.postMessage (some n) message fromWho) =
        members.map fun e => ⟨e.2, message, fromWho⟩ := by
  have hpost : ((w.rooms n).postMessage w.sendMessage message fromWho).2 = .ok () := by
    rw [World.handle, World.callRoom_some] at h
    cases hresult : ((w.rooms n).postMessage w.sendMessage message fromWho).2 with
    | ok u => rfl
    | error e =>
        simp only [hresult] at h
        cases h
  rw [World.sent]
  by_cases hlisted : fromWho ∈ (w.rooms n).users
  · rw [ChatRoomImpl.postMessage_listed _ _ hlisted] at hpost ⊢
    exact sendAll_of_ok hpost
  · rw [ChatRoomImpl.postMessage_unlisted _ _ hlisted] at hpost
    cases hpost

namespace Screened

variable [DecidableEq I] (wires : Wires V I)

def start : Screened I := ⟨.init, fun _ => ""⟩

def happen (s : Screened I) : Happening I → Screened I × Unit
  | .call c ice ctime => ((call wires ctime ice c s).2, ())
  | .clients alive => ({ s with world := { s.world with alive := alive } }, ())
  | .registerRoomFactory => ({ s with world := s.world.registerRoomFactory }, ())
  | .unregisterFactory f => ({ s with world := s.world.unregisterFactory f }, ())

theorem happen_eq (s : Screened I) (h : Happening I) :
    (happen wires s h).1 =
      (⟨(s.world.happen h).1, s.screens⟩ : Screened I).print (s.world.happen h).2.1
        (s.world.happen h).2.2 := by
  cases h with
  | call c ice ctime => exact congrArg Prod.snd (call_eq wires ctime ice c s)
  | clients alive => exact (print_nil _ _).symm
  | registerRoomFactory => exact (print_nil _ _).symm
  | unregisterFactory f => exact (print_nil _ _).symm

theorem run_screens :
    ∀ (happenings : List (Happening I)) (s : Screened I),
      (run (happen wires) s happenings).world = run World.happen s.world happenings ∧
        ∀ i, (run (happen wires) s happenings).screens i = s.screens i ++
          String.join ((answers World.happen s.world happenings).map fun a =>
            printed a.1 i a.2) := by
  intro happenings
  induction happenings with
  | nil =>
      intro s
      exact ⟨rfl, fun i => by simp⟩
  | cons h happenings ih =>
      intro s
      obtain ⟨hworld, hscreens⟩ := ih (happen wires s h).1
      rw [happen_eq] at hworld hscreens
      refine ⟨?_, fun i => ?_⟩
      · rw [run_cons, run_cons, happen_eq]
        exact hworld
      · rw [run_cons, answers_cons, List.map_cons, String.join_cons, happen_eq, hscreens i]
        exact String.append_assoc

/-- Nothing is lost and nothing is shown twice: after anything that happened the processes
are as the calls alone leave them, each screen has the lines of the deliveries to its user
in order, and a post that succeeds is delivered once to each entry of the room. -/
theorem screens_right (happenings : List (Happening I)) :
    (run (happen wires) start happenings).world = run World.happen .init happenings ∧
      (∀ i, (run (happen wires) start happenings).screens i =
        String.join ((answers World.happen .init happenings).map fun a =>
          printed a.1 i a.2)) ∧
      ∀ (ice : Creation) (w : World I) (n : Nat) (message fromWho : String),
        (World.handle ice (.postMessage (some n) message fromWho) w).1 = .ok () →
        ∃ members : List (String × I),
          (w.rooms n).nickUserDictionary.toList = members.map (fun e => (e.1, some e.2)) ∧
          w.sent (.postMessage (some n) message fromWho) =
            members.map fun e => ⟨e.2, message, fromWho⟩ := by
  obtain ⟨hworld, hscreens⟩ := run_screens wires happenings start
  refine ⟨hworld, fun i => ?_, fun _ _ _ _ _ => World.sent_of_ok⟩
  rw [hscreens i, start]
  exact String.empty_append

end Screened

end Rso.Chat
