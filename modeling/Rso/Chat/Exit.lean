import Rso.Chat.Deployment

/-!
# The exit of a client

Menu option 0 runs `disconnect` and then ends `main`, which destroys the client.
Both leave the rooms of `userRooms`: `disconnect` is a `const` method, so it
cannot take them off the list, and the destructor finds them there again.

A clean exit would leave each joined room once, and disturb nobody.  With any
room on the list, the first one is left twice.
-/

namespace Rso.Chat

open Runs

/-- The exit of a client leaves each room it joined once and every other member
in place, and no exception escapes. -/
structure CleanExit {I : Type} [DecidableEq I] (ice : Creation) (w : World I) (c : Client I) :
    Prop where
  quiet : (c.exit.run (World.handle ice) w).result = .ok ()
  once : ∀ info ∈ c.userRooms, ∀ room, (w.server.getRoom info.name).1 = .ok room →
    (c.exit.run (World.handle ice) w).calls.count (.leave room c.username) = 1
  others : ∀ n nick, nick ≠ c.username → nick ∈ (w.rooms n).users →
    nick ∈ ((c.exit.run (World.handle ice) w).state.rooms n).users

namespace Client

variable {I : Type} {c : Client I} {w : World I} {d : Directory Nat} (ice : Creation)

/-- A lookup of a bound name and a `Leave` are the first calls of a script that
begins with them. -/
theorem getRoom_leave_calls {α : Type} {name username : String} {n : Nat}
    (hw : World.Wired w d) (hn : d.lookup name = some (some n)) (f : Unit → Program I α) :
    ∃ more, (Script.run (World.handle ice) (do
        let room ← remote (.getRoom name)
        remote (.leave room username) >>= f) w).calls =
      [.getRoom name, .leave (some n) username] ++ more := by
  have hleave : ∃ more, (Script.run (World.handle ice)
      ((remote (.leave (some n) username) : Program I Unit) >>= f) w).calls =
        (Script.run (World.handle ice)
          (remote (.leave (some n) username) : Program I Unit) w).calls ++ more :=
    Script.run_bind_calls _ _ _
  obtain ⟨more, hmore⟩ := hleave
  refine ⟨more, ?_⟩
  rw [run_getRoom_bound hw hn, Script.Outcome.after_calls, hmore, run_remote]
  rfl

/-- `disconnect` leaves the first room of the list: the calls of the `try` block are the
first of its turn, and those of the turn the first of the loop. -/
theorem disconnect_leaves {info : RoomInfo} {rest : List RoomInfo} {n : Nat}
    (hrooms : c.userRooms = info :: rest) (hw : World.Wired w d)
    (hn : d.lookup info.name = some (some n)) :
    .leave (some n) c.username ∈ (c.disconnect.run (World.handle ice) w).calls := by
  rw [disconnect, hrooms, disconnectFrom, hrooms]
  obtain ⟨more, hbody⟩ := getRoom_leave_calls ice hw hn fun _ =>
    (pure (0 + 1) : Program I Nat)
  obtain ⟨_, hturn⟩ := Script.run_bind_calls _ (c.disconnectFrom rest) w
  rw [hturn]
  obtain ⟨_, hblock⟩ := Script.run_tryCatch_calls _ _ w
  rw [handling, hblock]
  simp only [List.getElem?_cons_zero]
  rw [hbody]
  simp

/-- The destructor leaves the first room of the list. -/
theorem destructor_leaves {info : RoomInfo} {rest : List RoomInfo} {n : Nat}
    (hrooms : c.userRooms = info :: rest) (hw : World.Wired w d)
    (hn : d.lookup info.name = some (some n)) :
    .leave (some n) c.username ∈ (c.destructor.run (World.handle ice) w).calls := by
  obtain ⟨more, hmore⟩ := getRoom_leave_calls ice hw hn fun _ => c.destructorFrom rest
  rw [destructor, hrooms, destructorFrom, hmore]
  simp

/-- A program leaves the rooms on the server's list where they are. -/
theorem wired_run {α : Type} (p : Program I α) (hw : World.Wired w d) :
    ∃ d', World.Wired (p.run (World.handle ice) w).state d' ∧
      ∀ name room, d.lookup name = some room → d'.lookup name = some room := by
  refine Script.run_preserves (I := fun w' => ∃ d', World.Wired w' d' ∧
    ∀ name room, d.lookup name = some room → d'.lookup name = some room) ?_ p
    ⟨d, hw, fun _ _ h => h⟩
  rintro call w' ⟨d', hw', hkept⟩
  obtain ⟨d'', hw'', hkept'⟩ := hw'.handle ice call
  exact ⟨d'', hw'', fun name room h => hkept' name room (hkept name room h)⟩

/-- The exit of a client with a room on its list is not clean. -/
theorem not_cleanExit [DecidableEq I] {info : RoomInfo} {rest : List RoomInfo} {n : Nat}
    (hrooms : c.userRooms = info :: rest) (hw : World.Wired w d)
    (hn : d.lookup info.name = some (some n)) : ¬ CleanExit ice w c := by
  intro h
  have hresult := h.quiet
  cases hdisconnect : (c.disconnect.run (World.handle ice) w).result with
  | error e =>
      rw [exit, Script.run_bind_error hdisconnect] at hresult
      cases hresult
  | ok _ =>
      obtain ⟨d', hw', hkept⟩ := wired_run ice c.disconnect hw
      have hfirst := disconnect_leaves ice hrooms hw hn
      have hsecond := destructor_leaves ice hrooms hw' (hkept _ _ hn)
      have hget : (w.server.getRoom info.name).1 = .ok (some n) := by
        rw [hw.lists.getRoom, hn]
      have honce := h.once info (by rw [hrooms]; exact List.mem_cons_self ..) _ hget
      rw [exit, Script.run_bind_ok hdisconnect, Script.Outcome.after_calls, List.count_append]
        at honce
      have hone := List.count_pos_iff.mpr hfirst
      have htwo := List.count_pos_iff.mpr hsecond
      omega

end Client

namespace Deployment

variable {I : Type} [DecidableEq I]

/-- In every state of every run, the exit of a client at its menu is clean exactly
when it is in no room. -/
theorem cleanExit_iff (username : I → String) (moves : List (Move I)) (ice : Creation) (i : I)
    (hmenu : (run step (start username) moves).activity i = .menu) :
    CleanExit ice (run step (start username) moves).world
        ((run step (start username) moves).clients i) ↔
      ((run step (start username) moves).clients i).userRooms = [] := by
  obtain ⟨d, hinv⟩ := inv_run username moves
  have hjoined := hinv.standing i
  rw [hmenu] at hjoined
  constructor
  · intro h
    cases hrooms : ((run step (start username) moves).clients i).userRooms with
    | nil => rfl
    | cons info rest =>
        have hin : info.name ∈ d.keys := by
          refine hjoined ?_
          rw [Client.joined, hrooms]
          exact List.mem_cons_self ..
        obtain ⟨room, hroom⟩ := OrderedTable.exists_lookup hin
        obtain ⟨n, -, rfl⟩ := hinv.wired.bound _ _ hroom
        exact absurd h (Client.not_cleanExit ice hrooms hinv.wired hroom)
  · intro hrooms
    have hexit : (((run step (start username) moves).clients i).exit).run (World.handle ice)
        (run step (start username) moves).world =
          ⟨.ok (), [], (run step (start username) moves).world⟩ := by
      rw [Client.exit, Client.disconnect, Client.destructor, hrooms]
      rfl
    refine ⟨by rw [hexit], fun info hinfo => ?_, fun n nick _ hin => ?_⟩
    · rw [hrooms] at hinfo
      cases hinfo
    · rw [hexit]
      exact hin

/-- A client makes a room, joins it and leaves it again. -/
def joinedAndLeft : List (Move Unit) :=
  [.registerRoomFactory, .choose () (.createRoom "r"), .proceed () .works,
    .choose () (.joinToRoom "r"), .proceed () .works, .proceed () .works,
    .choose () (.leaveRoom "r"), .proceed () .works, .proceed () .works]

theorem cleanExit_joinedAndLeft :
    CleanExit .works (run step (start fun _ => "a") joinedAndLeft).world
      ((run step (start fun _ => "a") joinedAndLeft).clients ()) :=
  (cleanExit_iff (fun _ => "a") joinedAndLeft .works () rfl).mpr rfl

/-- The only member of a room exits: the second `Leave` is refused, and the
exception leaves the destructor. -/
theorem not_cleanExit_only_member :
    ¬ CleanExit .works (run step (start fun _ => "a") (joinedAndLeft.take 6)).world
      ((run step (start fun _ => "a") (joinedAndLeft.take 6)).clients ()) := by
  intro h
  have hresult : ((((run step (start fun _ => "a") (joinedAndLeft.take 6)).clients ()).exit).run
      (World.handle .works)
      (run step (start fun _ => "a") (joinedAndLeft.take 6)).world).result =
        .error (.ice .unknownUserException) := rfl
  rw [h.quiet] at hresult
  cases hresult

end Deployment

end Rso.Chat
