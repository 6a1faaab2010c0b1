import Rso.Chat.Client

/-!
# The loop of `disconnect`

`disconnect` is driven by an iterator over `userRooms`, but it takes the room from
`userRooms.at(counter)`, and `counter` is advanced only behind a `Leave` that
returned.  Once a `Leave` fails the remaining turns try the same room again, and
the rooms behind it are never left.

The rooms are seen as the client sees them (`respond`): the server finds the
proxy of each, and a `Leave` of a room returns or raises.
-/

namespace Rso.Chat

/-- The exceptions for which `disconnect` has handlers. -/
def Exception.CaughtByDisconnect (e : Exception) : Prop := e = .noSuchUser ∨ e.IsUnknown

instance (e : Exception) : Decidable e.CaughtByDisconnect := inferInstanceAs (Decidable (_ ∨ _))

/-- The answers to the calls that `disconnect` makes. -/
def respond {I : Type} (roomOf : String → Prx Nat) (leaves : Prx Nat → Except Exception Unit) :
    (c : Remote I) → Unit → Except Exception c.Result × Unit
  | .getRoom name, s => (.ok (roomOf name), s)
  | .leave room _, s => (leaves room, s)
  | _, s => (.error (.ice .localException), s)

/-- The `Leave` calls among some calls: on which room, for which nick. -/
def leaveCalls {I : Type} (calls : List (Remote I)) : List (Prx Nat × String) :=
  calls.filterMap fun
    | .leave room nick => some (room, nick)
    | _ => none

namespace Client

variable {I : Type} (c : Client I) (roomOf : String → Prx Nat)
  (leaves : Prx Nat → Except Exception Unit)

/-- `disconnect` calls `Leave` once on each room of the list, in order. -/
def LeavesEachOnce : Prop :=
  leaveCalls (c.disconnect.run (respond roomOf leaves) ()).calls =
    c.userRooms.map fun info => (roomOf info.name, c.username)

/-- The loop from this turn on, as far as its `Leave` calls go. -/
def leavesFrom (rest : List RoomInfo) (counter : Nat) : List (Prx Nat × String) :=
  leaveCalls ((c.disconnectFrom rest counter).run (respond roomOf leaves) ()).calls

/-- A lookup and a `Leave`. -/
theorem run_getRoom_leave (username name : String) (counter : Nat) :
    Script.run (respond (I := I) roomOf leaves) (do
        let chatRoom ← remote (.getRoom name)
        remote (.leave chatRoom username)
        return counter + 1) () =
      ⟨(leaves (roomOf name)).map fun _ => counter + 1,
        [.getRoom name, .leave (roomOf name) username], ()⟩ := by
  have hget : (remote (.getRoom name) : Program I (Prx Nat)).run (respond roomOf leaves) () =
      ⟨.ok (roomOf name), [.getRoom name], ()⟩ := Script.run_invoke _ _
  have hleave : (remote (.leave (roomOf name) username) : Program I Unit).run
      (respond roomOf leaves) () =
        ⟨leaves (roomOf name), [.leave (roomOf name) username], ()⟩ :=
    Script.run_invoke _ _
  rw [Script.run_bind_ok (congrArg Script.Outcome.result hget), hget]
  cases h : leaves (roomOf name) with
  | ok _ =>
      rw [h] at hleave
      rw [Script.run_bind_ok (congrArg Script.Outcome.result hleave), hleave]
      rfl
  | error e =>
      rw [h] at hleave
      rw [Script.run_bind_error (congrArg Script.Outcome.result hleave), hleave]
      rfl

variable {c roomOf leaves} {info : RoomInfo} {counter : Nat}

/-- The `try` block of a turn: the counter moves if the `Leave` returned. -/
theorem run_tryLeave {name : String}
    (hcaught : ∀ e, leaves (roomOf name) = .error e → e.CaughtByDisconnect) (username : String)
    (counter : Nat) :
    Script.run (respond (I := I) roomOf leaves)
      (handling (fun e => e = .noSuchUser ∨ e.IsUnknown) (return counter) do
        let chatRoom ← remote (.getRoom name)
        remote (.leave chatRoom username)
        return counter + 1) () =
      ⟨.ok (if leaves (roomOf name) = .ok () then counter + 1 else counter),
        [.getRoom name, .leave (roomOf name) username], ()⟩ := by
  have hbody := run_getRoom_leave (I := I) roomOf leaves username name counter
  rw [handling]
  cases hleaves : leaves (roomOf name) with
  | ok _ =>
      rw [hleaves] at hbody
      rw [Script.run_tryCatch_ok (congrArg Script.Outcome.result hbody), hbody]
      rfl
  | error e =>
      rw [hleaves] at hbody
      have hhandled : e = .noSuchUser ∨ e.IsUnknown := hcaught e hleaves
      rw [Script.run_tryCatch_error (congrArg Script.Outcome.result hbody), hbody,
        if_pos hhandled]
      rfl

/-- A turn leaves the room the counter stands at. -/
theorem leavesFrom_cons (hat : c.userRooms[counter]? = some info)
    (hcaught : ∀ e, leaves (roomOf info.name) = .error e → e.CaughtByDisconnect)
    (skipped : RoomInfo) (rest : List RoomInfo) :
    c.leavesFrom roomOf leaves (skipped :: rest) counter =
      (roomOf info.name, c.username) :: c.leavesFrom roomOf leaves rest
        (if leaves (roomOf info.name) = .ok () then counter + 1 else counter) := by
  have hturn := run_tryLeave (I := I) hcaught c.username counter
  rw [leavesFrom, disconnectFrom]
  simp only [hat]
  rw [Script.run_bind_ok (congrArg Script.Outcome.result hturn), hturn]
  rfl

/-- The counter's room cannot be left: every turn tries it again. -/
theorem leavesFrom_stuck (hat : c.userRooms[counter]? = some info)
    (hcaught : ∀ e, leaves (roomOf info.name) = .error e → e.CaughtByDisconnect)
    (hfails : leaves (roomOf info.name) ≠ .ok ()) :
    ∀ rest : List RoomInfo, c.leavesFrom roomOf leaves rest counter =
      List.replicate rest.length (roomOf info.name, c.username) := by
  intro rest
  induction rest with
  | nil => rfl
  | cons skipped rest ih =>
      rw [leavesFrom_cons hat hcaught, if_neg hfails, ih, List.length_cons, List.replicate_succ]

/-- The rooms before the first that fails are left in order. -/
theorem leavesFrom_append (rest : List RoomInfo) :
    ∀ (before after : List RoomInfo) (counter : Nat),
      c.userRooms.drop counter = before ++ after →
      (∀ info ∈ before, leaves (roomOf info.name) = .ok ()) →
      c.leavesFrom roomOf leaves (before ++ rest) counter =
        (before.map fun info => (roomOf info.name, c.username)) ++
          c.leavesFrom roomOf leaves rest (counter + before.length) := by
  intro before
  induction before with
  | nil =>
      intro after counter _ _
      rfl
  | cons info before ih =>
      intro after counter hdrop hok
      have hat : c.userRooms[counter]? = some info := by
        rw [← List.head?_drop, hdrop]
        rfl
      have hinfo := hok info (List.mem_cons_self ..)
      have hdrop' : c.userRooms.drop (counter + 1) = before ++ after := by
        rw [← List.tail_drop, hdrop]
        rfl
      rw [List.cons_append, leavesFrom_cons hat (fun e he => by rw [hinfo] at he; cases he),
        if_pos hinfo, ih after (counter + 1) hdrop'
          (fun other ho => hok other (List.mem_cons_of_mem _ ho))]
      rw [List.map_cons, List.cons_append, List.length_cons, Nat.add_right_comm, Nat.add_assoc]

/-- With a first room that fails, all turns from there on try that one. -/
theorem leaveCalls_disconnect {before after : List RoomInfo}
    (hrooms : c.userRooms = before ++ info :: after)
    (hcaught : ∀ e, leaves (roomOf info.name) = .error e → e.CaughtByDisconnect)
    (hok : ∀ other ∈ before, leaves (roomOf other.name) = .ok ())
    (hfails : leaves (roomOf info.name) ≠ .ok ()) :
    leaveCalls (c.disconnect.run (respond roomOf leaves) ()).calls =
      (before.map fun other => (roomOf other.name, c.username)) ++
        List.replicate (after.length + 1) (roomOf info.name, c.username) := by
  have hat : c.userRooms[0 + before.length]? = some info := by
    rw [hrooms, Nat.zero_add]
    simp
  show c.leavesFrom roomOf leaves c.userRooms 0 = _
  rw [hrooms, leavesFrom_append (info :: after) before (info :: after) 0 hrooms hok,
    leavesFrom_stuck hat hcaught hfails, List.length_cons]

/-- Without a room that fails, the rooms are left in order. -/
theorem leavesEachOnce_of_all (hok : ∀ info ∈ c.userRooms, leaves (roomOf info.name) = .ok ()) :
    c.LeavesEachOnce roomOf leaves := by
  have hall := leavesFrom_append [] c.userRooms [] 0 (List.append_nil _).symm hok
  rw [List.append_nil] at hall
  exact hall.trans (List.append_nil _)

/-- A room that fails before the end of the list is tried in the place of the next. -/
theorem not_leavesEachOnce {before after : List RoomInfo} {next : RoomInfo}
    (hrooms : c.userRooms = before ++ info :: next :: after)
    (hcaught : ∀ e, leaves (roomOf info.name) = .error e → e.CaughtByDisconnect)
    (hok : ∀ other ∈ before, leaves (roomOf other.name) = .ok ())
    (hfails : leaves (roomOf info.name) ≠ .ok ())
    (hdistinct : (c.userRooms.map fun info => roomOf info.name).Nodup) :
    ¬ c.LeavesEachOnce roomOf leaves := by
  intro h
  rw [LeavesEachOnce, leaveCalls_disconnect hrooms hcaught hok hfails, hrooms, List.map_append]
    at h
  have htails := List.append_cancel_left h
  rw [List.length_cons, List.replicate_succ, List.replicate_succ, List.map_cons, List.map_cons]
    at htails
  have hsame : roomOf info.name = roomOf next.name := by
    have hnext := (List.cons.inj (List.cons.inj htails).2).1
    exact congrArg Prod.fst hnext
  rw [hrooms, List.map_append, List.map_cons, List.map_cons] at hdistinct
  have hnd := (List.nodup_cons.mp (List.Nodup.of_append_right hdistinct)).1
  rw [hsame] at hnd
  exact hnd (List.mem_cons_self ..)

/-- Each room is left once, in order, exactly when no room but perhaps the last
one fails. -/
theorem leavesEachOnce_iff (hcaught : ∀ room e, leaves room = .error e → e.CaughtByDisconnect)
    (hdistinct : (c.userRooms.map fun info => roomOf info.name).Nodup) :
    c.LeavesEachOnce roomOf leaves ↔
      ∀ info ∈ c.userRooms.dropLast, leaves (roomOf info.name) = .ok () := by
  rcases List.eq_nil_or_concat' c.userRooms with hnil | ⟨rooms, last, hrooms⟩
  · have hnone : ∀ info ∈ c.userRooms, leaves (roomOf info.name) = .ok () := by
      rw [hnil]
      exact fun info hinfo => absurd hinfo List.not_mem_nil
    refine iff_of_true (leavesEachOnce_of_all hnone) ?_
    rw [hnil] at hnone ⊢
    exact hnone
  · rw [hrooms, List.dropLast_concat]
    constructor
    · intro h
      by_contra hfailure
      obtain ⟨info, hfind⟩ : ∃ info,
          rooms.find? (fun info => decide (leaves (roomOf info.name) ≠ .ok ())) = some info := by
        rw [← Option.isSome_iff_exists, List.find?_isSome]
        simpa using hfailure
      obtain ⟨hfails, before, after, hsplit, hok⟩ := List.find?_eq_some_iff_append.mp hfind
      obtain ⟨next, after', hafter⟩ : ∃ next after', after ++ [last] = next :: after' :=
        List.exists_cons_of_ne_nil (by simp)
      have hrooms' : c.userRooms = before ++ info :: next :: after' := by
        rw [hrooms, hsplit, List.append_assoc, List.cons_append, hafter]
      have hok' : ∀ other ∈ before, leaves (roomOf other.name) = .ok () :=
        fun other ho => by simpa using hok other ho
      exact not_leavesEachOnce hrooms' (hcaught _) hok' (by simpa using hfails) hdistinct h
    · intro hok
      by_cases hlast : leaves (roomOf last.name) = .ok ()
      · refine leavesEachOnce_of_all fun info hinfo => ?_
        rw [hrooms, List.mem_append, List.mem_singleton] at hinfo
        rcases hinfo with hin | rfl
        · exact hok info hin
        · exact hlast
      · rw [LeavesEachOnce, leaveCalls_disconnect hrooms (hcaught _) hok hlast, hrooms,
          List.map_append]
        rfl

/-- A client in three rooms. -/
def inThreeRooms : Client Nat := ⟨"a", some 0, [⟨"x", 0⟩, ⟨"yy", 0⟩, ⟨"zzz", 0⟩]⟩

/-- Only the last of the three rooms fails. -/
theorem leavesEachOnce_lastFails :
    inThreeRooms.LeavesEachOnce (fun name => some name.length)
      fun room => if room = some 3 then .error .noSuchUser else .ok () := by
  refine (leavesEachOnce_iff ?_ (by decide)).mpr (by decide)
  intro room e h
  split at h
  · cases h
    decide
  · cases h

/-- The first one fails: it is tried three times, and the others never. -/
theorem not_leavesEachOnce_firstFails :
    ¬ inThreeRooms.LeavesEachOnce (fun name => some name.length)
      fun room => if room = some 1 then .error .noSuchUser else .ok () := by
  unfold LeavesEachOnce
  decide

end Client

end Rso.Chat
