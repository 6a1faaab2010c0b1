import Rso.Lib.Descriptors
import Rso.Lib.Transitions
import Rso.Socket.ServerWrappers

/-!
# The main loop of the server

`main` opens a socket, accepts connections in a loop and forks a child for each of
them.  The child inherits all descriptors of the parent; the parent closes that of
the connection.  Neither `accept` nor `fork` stops the loop when it fails: after a
failed `accept` a child is forked all the same, with -1 for a descriptor, and after
a failed `fork` the connection is closed.

`ServerMain.step` is one call of the parent, or the exit of a child at any time in
between.  `descriptors_right` says who holds which connection in all runs.
`wrappers_failing` is the first read of a child with the descriptor -1.
-/

namespace Rso.Socket.Server

open Proc

/-- What a descriptor can refer to. -/
inductive File where
  | stream (n : ℕ)
  | listening
  | connection (n : ℕ)
deriving DecidableEq, Repr

/-- The call that the parent makes next; `client_sockfd` lives from `accept` to
`close`. -/
inductive Point where
  | accept
  | fork (clientSockfd : ℤ)
  | close (clientSockfd : ℤ)
deriving DecidableEq, Repr

/-- A child, with the descriptors it got. -/
structure Forked where
  clientSockfd : ℤ
  descriptors : Descriptors File
  exited : Bool
deriving DecidableEq, Repr

structure ServerMain where
  point : Point
  descriptors : Descriptors File
  /-- How many connections have been accepted. -/
  accepted : ℕ
  children : List Forked
deriving DecidableEq, Repr

namespace ServerMain

/-- The descriptors of a process at its start. -/
def streams : Descriptors File := ⟨[some (.stream 0), some (.stream 1), some (.stream 2)]⟩

/-- `main` up to its loop, for the results of the three calls. -/
def launch (strerror : Errno → String) (socket bind listen : Except Errno Unit) :
    Except String ServerMain :=
  match socket with
  | .error e => .error (strerror e)
  | .ok () =>
    match bind with
    | .error e => .error (strerror e)
    | .ok () =>
      match listen with
      | .error e => .error (strerror e)
      | .ok () => .ok ⟨.accept, streams.insert .listening, 0, []⟩

/-- One event of a run. -/
inductive Event where
  | accept (result : Except Errno Unit)
  | fork (result : Except Errno Unit)
  | close
  /-- The child with this number exits. -/
  | exit (i : ℕ)

def accept (s : ServerMain) (result : Except Errno Unit) : Option ServerMain :=
  if s.point = .accept then
    match result with
    | .ok () => some { s with
        point := .fork s.descriptors.lowest
        descriptors := s.descriptors.insert (.connection s.accepted)
        accepted := s.accepted + 1 }
    | .error _ => some { s with point := .fork (-1) }
  else none

/-- After a failed `fork` the parent goes on as if there were a child, as -1 is not 0. -/
def fork (s : ServerMain) (result : Except Errno Unit) : Option ServerMain :=
  match s.point with
  | .fork clientSockfd =>
      match result with
      | .ok () => some { s with
          point := .close clientSockfd
          children := s.children ++ [⟨clientSockfd, s.descriptors, false⟩] }
      | .error _ => some { s with point := .close clientSockfd }
  | _ => none

def close (s : ServerMain) : Option ServerMain :=
  match s.point with
  | .close clientSockfd => some { s with
      point := .accept
      descriptors :=
        if 0 ≤ clientSockfd then s.descriptors.close clientSockfd.toNat else s.descriptors }
  | _ => none

/-- An exited child has closed its descriptors; the record of them stays. -/
def exit (s : ServerMain) (i : ℕ) : Option ServerMain :=
  match s.children[i]? with
  | some child =>
      if child.exited then none
      else some { s with children := s.children.set i { child with exited := true } }
  | none => none

def step (s : ServerMain) : Event → Option ServerMain
  | .accept result => s.accept result
  | .fork result => s.fork result
  | .close => s.close
  | .exit i => s.exit i

/-- The parent before its first `accept`. -/
def init : ServerMain := ⟨.accept, streams.insert .listening, 0, []⟩

theorem launch_eq_ok_iff (strerror : Errno → String) (socket bind listen : Except Errno Unit)
    (s : ServerMain) : launch strerror socket bind listen = .ok s ↔
      socket = .ok () ∧ bind = .ok () ∧ listen = .ok () ∧ s = init := by
  cases socket <;> cases bind <;> cases listen <;> simp [launch, init, eq_comm]

/-! ## Who holds a connection -/

/-- The descriptors of the parent before `accept`, and the connection with this number
behind them. -/
def Holding (own : Option ℕ) (t : Descriptors File) : Prop :=
  ∀ fd, t.file fd = if fd = 4 then own.map File.connection else init.descriptors.file fd

/-- The descriptor for the connection. -/
def Refers (own : Option ℕ) (clientSockfd : ℤ) : Prop :=
  match own with
  | none => clientSockfd = -1
  | some _ => clientSockfd = 4

theorem init_holding : Holding none init.descriptors := by
  intro fd
  split
  next heq => rw [heq]; rfl
  next => rfl

section Holding

variable {own : Option ℕ} {t : Descriptors File} {clientSockfd : ℤ}

theorem Holding.lowest (h : Holding none t) : t.lowest = 4 := by
  have hlowest : init.descriptors.lowest = 4 := rfl
  rw [← hlowest]
  exact Descriptors.lowest_congr fun fd => (h fd).trans (init_holding fd).symm

theorem Holding.insert (h : Holding none t) (n : ℕ) :
    Holding (some n) (t.insert (.connection n)) := by
  intro fd
  rw [Descriptors.file_insert, h.lowest, h fd]
  split <;> rfl

theorem Holding.close (h : Holding own t) (hfd : Refers own clientSockfd) :
    Holding none (if 0 ≤ clientSockfd then t.close clientSockfd.toNat else t) := by
  cases own with
  | none =>
      rw [if_neg (by rw [show clientSockfd = -1 from hfd]; decide)]
      exact h
  | some n =>
      rw [show clientSockfd = 4 from hfd, if_pos (by decide), show (4 : ℤ).toNat = 4 from rfl]
      intro fd
      rw [Descriptors.file_close, h fd]
      split <;> rfl

/-- A connection that is held is the one behind the descriptors. -/
theorem Holding.connection (h : Holding own t) {fd n : ℕ} (hfd : t.file fd = some (.connection n)) :
    fd = 4 ∧ own = some n := by
  rw [h fd] at hfd
  split at hfd
  next heq =>
    obtain ⟨m, hm, hconnection⟩ := Option.map_eq_some_iff.mp hfd
    cases hconnection
    exact ⟨heq, hm⟩
  next hne =>
    match fd, hfd with
    | 0, hfd => cases hfd
    | 1, hfd => cases hfd
    | 2, hfd => cases hfd
    | 3, hfd => cases hfd
    | fd + 4, hfd => cases hfd

end Holding

/-- The connection that the parent is at work on, if any, is the last one; each child
has one of the earlier ones, or none. -/
structure Sharing (owns : List (Option ℕ)) (s : ServerMain) : Prop where
  parent : ∃ own, Holding own s.descriptors ∧
    match s.point with
    | .accept => own = none
    | .fork clientSockfd => Refers own clientSockfd ∧
        (∀ n, own = some n → n < s.accepted ∧ ∀ m, some m ∈ owns → m < n)
    | .close clientSockfd => Refers own clientSockfd
  children : List.Forall₂
    (fun child own => Holding own child.descriptors ∧ Refers own child.clientSockfd)
    s.children owns
  earlier : ∀ m, some m ∈ owns → m < s.accepted
  different : owns.Pairwise fun own own' => own = none ∨ own ≠ own'

theorem Sharing.init : Sharing [] ServerMain.init where
  parent := ⟨none, init_holding, rfl⟩
  children := .nil
  earlier := fun m hm => by cases hm
  different := .nil

theorem Sharing.accept {owns : List (Option ℕ)} {s : ServerMain} (h : Sharing owns s)
    (hpoint : s.point = .accept) :
    Sharing owns { s with
      point := .fork s.descriptors.lowest
      descriptors := s.descriptors.insert (.connection s.accepted)
      accepted := s.accepted + 1 } := by
  obtain ⟨own, hholding, hown⟩ := h.parent
  rw [hpoint] at hown
  rw [show own = none from hown] at hholding
  refine ⟨⟨some s.accepted, hholding.insert s.accepted, ?_, fun n hn => ?_⟩, h.children,
    fun m hm => ?_, h.different⟩
  · show ((s.descriptors.lowest : ℕ) : ℤ) = 4
    rw [hholding.lowest]
    rfl
  · cases hn
    exact ⟨Nat.lt_succ_self _, h.earlier⟩
  · exact Nat.lt_succ_of_lt (h.earlier m hm)

theorem Sharing.fork {owns : List (Option ℕ)} {s : ServerMain} (h : Sharing owns s)
    {clientSockfd : ℤ} (hpoint : s.point = .fork clientSockfd) :
    ∃ own, Sharing (owns ++ [own]) { s with
      point := .close clientSockfd
      children := s.children ++ [⟨clientSockfd, s.descriptors, false⟩] } := by
  obtain ⟨own, hholding, hown⟩ := h.parent
  rw [hpoint] at hown
  obtain ⟨hrefers, hlast⟩ := hown
  refine ⟨own, ⟨own, hholding, hrefers⟩, ?_, fun m hm => ?_, ?_⟩
  · exact List.rel_append h.children (.cons ⟨hholding, hrefers⟩ .nil)
  · rcases List.mem_append.mp hm with hm | hm
    · exact h.earlier m hm
    · exact (hlast m (List.mem_singleton.mp hm).symm).1
  · refine List.pairwise_append.mpr ⟨h.different, List.pairwise_singleton .., ?_⟩
    intro own' hmem own'' hmem'
    rw [List.mem_singleton.mp hmem']
    cases own' with
    | none => exact .inl rfl
    | some m =>
        refine .inr fun heq => ?_
        exact absurd ((hlast m heq.symm).2 m hmem) (Nat.lt_irrefl m)

theorem Sharing.exit {owns : List (Option ℕ)} {s s' : ServerMain} (h : Sharing owns s) {i : ℕ}
    (hstep : s.exit i = some s') : Sharing owns s' := by
  rw [ServerMain.exit] at hstep
  split at hstep
  next child hchild =>
    split at hstep
    next => cases hstep
    next =>
      cases hstep
      refine ⟨h.parent, ?_, h.earlier, h.different⟩
      obtain ⟨hlen, hall⟩ := List.forall₂_iff_get.mp h.children
      obtain ⟨hi, hget⟩ := List.getElem?_eq_some_iff.mp hchild
      refine List.forall₂_iff_get.mpr ⟨by rw [List.length_set, hlen], fun j hj hj' => ?_⟩
      rw [List.length_set] at hj
      have hsame := hall j hj hj'
      simp only [List.get_eq_getElem, List.getElem_set] at hsame ⊢
      split
      next heq =>
        subst heq
        rw [hget] at hsame
        exact hsame
      next => exact hsame
  next => cases hstep

theorem Sharing.step {owns : List (Option ℕ)} {s s' : ServerMain} (h : Sharing owns s) {e : Event}
    (hstep : s.step e = some s') : ∃ owns', Sharing owns' s' := by
  obtain ⟨own, hholding, hown⟩ := h.parent
  cases e with
  | accept result =>
      replace hstep : s.accept result = some s' := hstep
      unfold ServerMain.accept at hstep
      split at hstep
      next hpoint =>
        rw [hpoint] at hown
        rw [show own = none from hown] at hholding
        cases result with
        | ok =>
            cases hstep
            exact ⟨owns, h.accept hpoint⟩
        | error e =>
            cases hstep
            exact ⟨owns, ⟨none, hholding, rfl, fun n hn => by cases hn⟩, h.children, h.earlier,
              h.different⟩
      next => cases hstep
  | fork result =>
      replace hstep : s.fork result = some s' := hstep
      rw [ServerMain.fork] at hstep
      split at hstep
      next hpoint =>
        rw [hpoint] at hown
        cases result with
        | ok =>
            cases hstep
            obtain ⟨own, hnext⟩ := h.fork hpoint
            exact ⟨_, hnext⟩
        | error e =>
            cases hstep
            exact ⟨owns, ⟨own, hholding, hown.1⟩, h.children, h.earlier, h.different⟩
      next => cases hstep
  | close =>
      replace hstep : s.close = some s' := hstep
      rw [ServerMain.close] at hstep
      split at hstep
      next hpoint =>
        rw [hpoint] at hown
        cases hstep
        exact ⟨owns, ⟨none, hholding.close hown, rfl⟩, h.children, h.earlier, h.different⟩
      next => cases hstep
  | exit i => exact ⟨owns, h.exit hstep⟩

theorem sharing_run {events : List Event} {s : ServerMain}
    (hrun : Transitions.run step init events = some s) : ∃ owns, Sharing owns s :=
  Transitions.run_invariant (I := fun s => ∃ owns, Sharing owns s)
    (fun _ _ _ ⟨_, h⟩ hstep => h.step hstep) ⟨_, .init⟩ hrun

/-- The process has a descriptor for the connection. -/
def Holds (t : Descriptors File) (n : ℕ) : Prop := ∃ fd, t.file fd = some (.connection n)

/-- Whatever `accept` and `fork` return and whenever children exit: before each
`accept` the parent has the descriptors of its start; a child has these and its
own connection, or no connection and the descriptor -1; no two children were given
one connection.  So nobody holds a connection any more when its child has exited. -/
theorem descriptors_right {events : List Event} {s : ServerMain}
    (hrun : Transitions.run step init events = some s) :
    (s.point = .accept → ∀ fd, s.descriptors.file fd = init.descriptors.file fd) ∧
    (∀ child ∈ s.children,
      (child.clientSockfd = -1 ∧ ∀ fd, child.descriptors.file fd = init.descriptors.file fd) ∨
      (child.clientSockfd = 4 ∧ ∃ n < s.accepted, ∀ fd, child.descriptors.file fd =
        if fd = 4 then some (.connection n) else init.descriptors.file fd)) ∧
    ∀ (i j : ℕ) (child child' : Forked) (n : ℕ), s.children[i]? = some child →
      s.children[j]? = some child' → Holds child.descriptors n → Holds child'.descriptors n →
        i = j := by
  obtain ⟨owns, h⟩ := sharing_run hrun
  obtain ⟨hlen, hall⟩ := List.forall₂_iff_get.mp h.children
  refine ⟨fun hpoint fd => ?_, fun child hchild => ?_, fun i j child child' n hi hj hn hn' => ?_⟩
  · obtain ⟨own, hholding, hown⟩ := h.parent
    rw [hpoint] at hown
    rw [show own = none from hown] at hholding
    exact (hholding fd).trans (init_holding fd).symm
  · obtain ⟨i, hi, rfl⟩ := List.getElem_of_mem hchild
    obtain ⟨hholding, hrefers⟩ := hall i hi (hlen ▸ hi)
    have hi' : i < owns.length := hlen ▸ hi
    have hmem := List.getElem_mem hi'
    simp only [List.get_eq_getElem] at hholding hrefers
    cases hown : owns[i] with
    | none =>
        rw [hown] at hholding hrefers
        exact .inl ⟨hrefers, fun fd => (hholding fd).trans (init_holding fd).symm⟩
    | some n =>
        rw [hown] at hholding hrefers hmem
        exact .inr ⟨hrefers, n, h.earlier n hmem, hholding⟩
  · obtain ⟨hilt, rfl⟩ := List.getElem?_eq_some_iff.mp hi
    obtain ⟨hjlt, rfl⟩ := List.getElem?_eq_some_iff.mp hj
    obtain ⟨fd, hfd⟩ := hn
    obtain ⟨fd', hfd'⟩ := hn'
    have hown := ((hall i hilt (hlen ▸ hilt)).1.connection hfd).2
    have hown' := ((hall j hjlt (hlen ▸ hjlt)).1.connection hfd').2
    rcases Nat.lt_trichotomy i j with hlt | heq | hgt
    · rcases List.pairwise_iff_getElem.mp h.different i j (hlen ▸ hilt) (hlen ▸ hjlt) hlt with
        hnone | hne
      · exact absurd (hown.symm.trans hnone) (Option.some_ne_none n)
      · exact absurd (hown.trans hown'.symm) hne
    · exact heq
    · rcases List.pairwise_iff_getElem.mp h.different j i (hlen ▸ hjlt) (hlen ▸ hilt) hgt with
        hnone | hne
      · exact absurd (hown'.symm.trans hnone) (Option.some_ne_none n)
      · exact absurd (hown'.trans hown.symm) hne

/-- A connection is accepted and given to a child, and then `accept` fails: the second
child has the descriptor -1, and no connection. -/
theorem descriptors_right_two_children :
    ∃ s, Transitions.run step init [.accept (.ok ()), .fork (.ok ()), .close,
        .accept (.error eintr), .fork (.ok ()), .exit 0, .close] = some s ∧
      s.children.map (·.clientSockfd) = [4, -1] ∧
      ∀ fd, s.descriptors.file fd = init.descriptors.file fd := by
  obtain ⟨s, hrun, hchildren, hpoint⟩ : ∃ s, Transitions.run step init
      [.accept (.ok ()), .fork (.ok ()), .close, .accept (.error eintr), .fork (.ok ()), .exit 0,
        .close] = some s ∧
      s.children.map (·.clientSockfd) = [4, -1] ∧ s.point = .accept := ⟨_, rfl, rfl, rfl⟩
  exact ⟨s, hrun, hchildren, (descriptors_right hrun).1 hpoint⟩

end ServerMain

/-! ## A descriptor of which every call fails -/

section Failing

variable {σ β : Type}

/-- The variables of a transfer loop after `n` calls that failed. -/
def failed (size : UInt64) (mem : Mem) (n : ℕ) : Transfer :=
  ⟨-UInt64.ofNat n, size + UInt64.ofNat n, -UInt64.ofNat n, mem⟩

theorem advance_failed (size : UInt64) (mem : Mem) (n : ℕ) :
    (failed size mem n).advance (-1) = failed size mem (n + 1) := by
  rw [Transfer.advance, failed, failed, UInt64.ofNat_add]
  simp only [Transfer.mk.injEq, and_true]
  refine ⟨?_, ?_, ?_⟩ <;> grind

theorem failed_left_pos {size : UInt64} (mem : Mem) {n : ℕ} (hsize : 0 < size.toNat)
    (hn : n < 2 ^ 64 - size.toNat) : 0 < (failed size mem n).left := by
  have hword : (UInt64.ofNat n).toNat = n := UInt64.toNat_ofNat_of_lt' (by rw [UInt64.size]; omega)
  rw [UInt64.lt_iff_toNat_lt, UInt64.toNat_zero, failed, UInt64.toNat_add, hword,
    Nat.mod_eq_of_lt (by omega)]
  omega

/-- After so many calls the number of missing bytes has come around to zero, and that
of the bytes done to the size. -/
theorem failed_last (size : UInt64) (mem : Mem) :
    failed size mem (2 ^ 64 - size.toNat) = ⟨size, 0, size, mem⟩ := by
  have hle := size.toNat_lt
  have hword : UInt64.ofNat (2 ^ 64 - size.toNat) = -size := by
    rw [← UInt64.toNat_inj, UInt64.toNat_ofNat', UInt64.toNat_neg]
    rfl
  rw [failed, hword, UInt64.neg_neg, UInt64.add_right_neg]

/-- A wrapper that goes on when a call fails; `calls` counts the calls. -/
theorem loop_failing {body : Transfer → Proc σ (Transfer ⊕ β)} {result : Transfer → β}
    {calls : σ → ℕ} (hfinish : ∀ t s, t.left = 0 → body t s = .ok (.inr (result t)) s)
    (hfail : ∀ t s, 0 < t.left → ∃ s', body t s = .ok (.inl (t.advance (-1))) s' ∧
      calls s' = calls s + 1)
    {size : UInt64} (mem : Mem) (hsize : 0 < size.toNat) :
    ∀ (fuel n : ℕ) (s : σ), n ≤ 2 ^ 64 - size.toNat →
      (n + fuel ≤ 2 ^ 64 - size.toNat →
        ∃ s', loop body fuel (failed size mem n) s = .error .running s' ∧
          calls s' = calls s + fuel) ∧
      (2 ^ 64 - size.toNat < n + fuel →
        ∃ s', loop body fuel (failed size mem n) s = .ok (result ⟨size, 0, size, mem⟩) s' ∧
          calls s' + n = calls s + (2 ^ 64 - size.toNat)) := by
  intro fuel
  induction fuel with
  | zero =>
      intro n s hn
      refine ⟨fun _ => ⟨s, rfl, rfl⟩, fun hmore => ?_⟩
      omega
  | succ fuel ih =>
      intro n s hn
      rcases Nat.eq_or_lt_of_le hn with rfl | hlt
      · refine ⟨fun hless => ?_, fun _ => ⟨s, ?_, rfl⟩⟩
        · omega
        · rw [failed_last]
          exact loop_result (hfinish _ s rfl)
      · obtain ⟨s', hpass, hcalls⟩ := hfail _ s (failed_left_pos mem hsize hlt)
        rw [advance_failed] at hpass
        rw [loop_next hpass]
        obtain ⟨hrunning, hreturns⟩ := ih (n + 1) s' hlt
        refine ⟨fun hless => ?_, fun hmore => ?_⟩
        · obtain ⟨s'', hloop, hcalls'⟩ := hrunning (by omega)
          exact ⟨s'', hloop, by omega⟩
        · obtain ⟨s'', hloop, hcalls'⟩ := hreturns (by omega)
          exact ⟨s'', hloop, by omega⟩

/-- Every call with the descriptor fails; `calls` counts the calls. -/
structure Fails (host : Host σ) (calls : σ → ℕ) : Prop where
  read : ∀ pointer length s, ∃ e s', host.read pointer length s = (.error e, s') ∧
    calls s' = calls s + 1
  write : ∀ pointer length mem s, ∃ e s', host.write pointer length mem s = (.error e, s') ∧
    calls s' = calls s + 1

/-- The wrappers do not notice that every call fails.  A wrapper that is asked for
`size` bytes makes `2 ^ 64 - size` calls, and then returns the size as if all bytes
had been moved. -/
theorem wrappers_failing {host : Host σ} {calls : σ → ℕ} (hfails : Fails host calls)
    (buffer : Mem) {size : UInt64} (hsize : 0 < size.toNat) (hint : size.toNat < 2 ^ 31) (s : σ) :
    (host.fuel ≤ 2 ^ 64 - size.toNat →
      (∃ s', readWrapper host buffer size s = .error .running s' ∧
        calls s' = calls s + host.fuel) ∧
      ∃ s', writeWrapper host buffer size s = .error .running s' ∧
        calls s' = calls s + host.fuel) ∧
    (2 ^ 64 - size.toNat < host.fuel → ∃ result : Int32, result.toInt = size.toNat ∧
      (∃ s', readWrapper host buffer size s = .ok (buffer, result) s' ∧
        calls s' = calls s + (2 ^ 64 - size.toNat)) ∧
      ∃ s', writeWrapper host buffer size s = .ok result s' ∧
        calls s' = calls s + (2 ^ 64 - size.toNat)) := by
  have hzero : failed size buffer 0 = .start size buffer := by
    rw [failed, Transfer.start]
    simp
  have hread := loop_failing (readPass_receives host).finish
    (fun t s hleft => by
      obtain ⟨e, s', hcall, hcalls⟩ := hfails.read t.pointer t.left s
      exact ⟨s', readPass_failed hleft hcall, hcalls⟩)
    buffer hsize host.fuel 0 s (Nat.zero_le _)
  have hwrite := loop_failing (writePass_sends host).finish
    (fun t s hleft => by
      obtain ⟨e, s', hcall, hcalls⟩ := hfails.write t.pointer t.left t.mem s
      exact ⟨s', writePass_failed hleft hcall, hcalls⟩)
    buffer hsize host.fuel 0 s (Nat.zero_le _)
  rw [hzero, Nat.zero_add] at hread hwrite
  exact ⟨fun hfuel => ⟨hread.1 hfuel, hwrite.1 hfuel⟩, fun hfuel =>
    ⟨size.toUInt32.toInt32, (toInt_toInt32_iff size).mpr hint, hread.2 hfuel, hwrite.2 hfuel⟩⟩

/-- The host of a process whose descriptor is -1; its state is the number of calls. -/
def badHost (fuel : ℕ) : Host ℕ where
  order := .little
  fuel := fuel
  read _ _ calls := (.error ebadf, calls + 1)
  write _ _ _ calls := (.error ebadf, calls + 1)
  close calls := ((), calls)
  object calls := (.zeros, calls)
  malloc _ calls := (some .zeros, calls)
  strerror _ := ""

/-- A child that was forked after a failed `accept` is in its first call of
`read_wrapper` after a million calls of `read`. -/
theorem wrappers_failing_million :
    ∃ calls, readWrapper (badHost 1000000) .zeros 8 0 = .error .running calls ∧
      calls = 0 + 1000000 := by
  have hfails : Fails (badHost 1000000) id :=
    ⟨fun _ _ calls => ⟨ebadf, calls + 1, rfl, rfl⟩, fun _ _ _ calls => ⟨ebadf, calls + 1, rfl, rfl⟩⟩
  exact ((wrappers_failing hfails .zeros (by decide) (by decide) 0).1 (by decide)).1

end Failing

end Rso.Socket.Server
