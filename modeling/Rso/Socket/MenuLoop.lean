import Rso.Lib.Scan
import Rso.Socket.ClientSpec

/-!
# The menu of the socket client

`main` asks for a number, does what it stands for, and goes on until the number is
3.  It looks at `request_no` and never at the result of `scanf`: a word that is no
number, and the end of the input, leave `request_no` as it is, so the request of
the turn before is sent again.  An operand that does not come leaves 0 in
`my_digit`, and the root of 0 is asked for.  A number that an `int` does not hold
may leave an option in `request_no` that nobody typed.  The inner loop was meant to
ask again for a number that is no option, but no number is both below 1 and above 3.

The requests of an input are those it names up to the first 3, malformed word or
end (`named`).  They are what is sent, each in the turn that reads its number,
exactly when a 3 comes first and no other number is taken for an option
(`sendsNamed_iff`).
-/

namespace Rso.Socket.Client

open Proc Scan

/-! ## `scanf` -/

/-- What `scanf` takes from a text. -/
structure Scanf where
  /-- What `%d` stores for a number that an `int` does not hold; C leaves it open. -/
  overflow : ℤ → Int32
  /-- `%lf` at the start of a text: the bits of the double, and what follows it. -/
  double : List Char → Option (UInt64 × List Char)
  /-- A number has at least one character. -/
  double_shorter : ∀ {text rest : List Char} {bits : UInt64},
    double text = some (bits, rest) → rest.length < text.length

/-- What `%d` stores for a number. -/
def Scanf.stored (scanf : Scanf) (n : ℤ) : Int32 :=
  if FitsInt n then Int32.ofInt n else scanf.overflow n

/-- `%d` at the start of a text. -/
def Scanf.int (scanf : Scanf) (text : List Char) : Option (Int32 × List Char) :=
  (integer text).map fun r => (scanf.stored r.1, r.2)

/-- A call with one item: what the variable holds then, and the rest of the input.
If the item does not match, both stay as they are. -/
def scan {α : Type} (item : List Char → Option (α × List Char)) (value : α)
    (stdin : List Char) : α × List Char :=
  match item (skipSpace stdin) with
  | some r => r
  | none => (value, skipSpace stdin)

/-! ## The loop of `main` -/

/-- What `main` keeps, with the globals and what is still to be typed. -/
structure Main where
  requestNo : Int32
  shouldRun : Int32
  counters : Counters
  stdin : List Char

namespace Main

/-- Before the first turn. -/
def start (stdin : List Char) : Main := ⟨0, 1, ⟨0, 0⟩, stdin⟩

variable {σ : Type} (scanf : Scanf) (host : Host σ)

/-- The `switch`.  The operand is read where `perform_square_root_request` reads it. -/
def choose (m : Main) : Proc σ Main := do
  if m.requestNo = 1 then
    let (myDigit, stdin) := scan scanf.double 0 m.stdin
    let counters ← performSquareRootRequest host myDigit m.counters
    return { m with counters, stdin }
  else if m.requestNo = 2 then
    let counters ← performDateRequest host m.counters
    return { m with counters }
  else if m.requestNo = 3 then return { m with shouldRun := 0 }
  else return m

/-- `request_no` after a `scanf`. -/
def ask (m : Main) : Main :=
  let (requestNo, stdin) := scan scanf.int m.requestNo m.stdin
  { m with requestNo, stdin }

/-- One pass of the inner loop. -/
def innerPass (m : Main) : Proc σ (Main ⊕ Main) := do
  let m ← choose scanf host (m.ask scanf)
  if m.requestNo < 1 ∧ 3 < m.requestNo then return .inl m else return .inr m

/-- One pass of the outer loop. -/
def outerPass (m : Main) : Proc σ (Main ⊕ Main) := do
  if m.shouldRun = 0 then return .inr m
  else
    let m ← loop (innerPass scanf host) host.fuel m
    return .inl m

/-- The first passes of the menu loop. -/
def menuLoop (passes : ℕ) (m : Main) : Proc σ Main := loop (outerPass scanf host) passes m

end Main

/-! ## What is typed -/

/-- The menu has an option with this number. -/
def IsOption (n : ℤ) : Prop := n = 1 ∨ n = 2 ∨ n = 3

instance (n : ℤ) : Decidable (IsOption n) := inferInstanceAs (Decidable (_ ∨ _))

theorem isOption_toInt_iff {requestNo : Int32} :
    IsOption requestNo.toInt ↔ requestNo = 1 ∨ requestNo = 2 ∨ requestNo = 3 := by
  rw [← Int32.toInt_inj, ← Int32.toInt_inj, ← Int32.toInt_inj]
  rfl

/-- The requests that the next number names, with its operand, and the text behind them.
The reading ends at a 3, at a malformed word or operand, and with the input. -/
def entry (scanf : Scanf) (stdin : List Char) : List Operation × Option (List Char) :=
  match integer (skipSpace stdin) with
  | none => ([], none)
  | some (n, rest) =>
      if n = 1 then
        match scanf.double (skipSpace rest) with
        | none => ([], none)
        | some (myDigit, after) => ([.root myDigit], some after)
      else if n = 2 then ([.date], some rest)
      else if n = 3 then ([], none)
      else ([], some rest)

section Entry

variable (scanf : Scanf) {stdin rest after : List Char} {n : ℤ} {myDigit : UInt64}

theorem entry_none (h : integer (skipSpace stdin) = none) : entry scanf stdin = ([], none) := by
  rw [entry, h]

theorem entry_root (h : integer (skipSpace stdin) = some (1, rest))
    (hdouble : scanf.double (skipSpace rest) = some (myDigit, after)) :
    entry scanf stdin = ([.root myDigit], some after) := by
  simp only [entry, h, if_pos, hdouble]

/-- An operand that is missing or malformed ends the reading. -/
theorem entry_noOperand (h : integer (skipSpace stdin) = some (1, rest))
    (hdouble : scanf.double (skipSpace rest) = none) : entry scanf stdin = ([], none) := by
  simp only [entry, h, if_pos, hdouble]

theorem entry_date (h : integer (skipSpace stdin) = some (2, rest)) :
    entry scanf stdin = ([.date], some rest) := by
  rw [entry, h]
  rfl

theorem entry_exit (h : integer (skipSpace stdin) = some (3, rest)) :
    entry scanf stdin = ([], none) := by
  rw [entry, h]
  rfl

theorem entry_other (h : integer (skipSpace stdin) = some (n, rest)) (hn : ¬ IsOption n) :
    entry scanf stdin = ([], some rest) := by
  rw [IsOption, not_or, not_or] at hn
  simp only [entry, h, if_neg hn.1, if_neg hn.2.1, if_neg hn.2.2]

theorem entry_shorter (h : (entry scanf stdin).2 = some after) : after.length < stdin.length := by
  cases hint : integer (skipSpace stdin) with
  | none =>
      rw [entry_none scanf hint] at h
      cases h
  | some r =>
      obtain ⟨n, rest⟩ := r
      have hrest := integer_skipSpace_shorter hint
      by_cases hn : IsOption n
      · rcases hn with rfl | rfl | rfl
        · cases hdouble : scanf.double (skipSpace rest) with
          | none =>
              rw [entry_noOperand scanf hint hdouble] at h
              cases h
          | some r' =>
              obtain ⟨myDigit, after⟩ := r'
              rw [entry_root scanf hint hdouble] at h
              cases h
              exact Nat.lt_trans (Nat.lt_of_lt_of_le (scanf.double_shorter hdouble)
                (skipSpace_le rest)) hrest
        · rw [entry_date scanf hint] at h
          cases h
          exact hrest
        · rw [entry_exit scanf hint] at h
          cases h
      · rw [entry_other scanf hint hn] at h
        cases h
        exact hrest

end Entry

/-- The requests that an input names. -/
def named (scanf : Scanf) (stdin : List Char) : List Operation :=
  (entry scanf stdin).1 ++
    match _hrest : (entry scanf stdin).2 with
    | none => []
    | some rest => named scanf rest
termination_by stdin.length
decreasing_by exact entry_shorter scanf _hrest

/-- A 3 comes before the first malformed word and the end, and no number before it is
stored as an option that it is not.  Or one is stored as a 3, and what comes behind it
names nothing. -/
inductive ReachesExit (scanf : Scanf) : (stdin : List Char) → Prop where
  | exit : integer (skipSpace stdin) = some (3, rest) → ReachesExit scanf stdin
  | root : integer (skipSpace stdin) = some (1, rest) →
      scanf.double (skipSpace rest) = some (myDigit, after) →
      ReachesExit scanf after → ReachesExit scanf stdin
  | date : integer (skipSpace stdin) = some (2, rest) →
      ReachesExit scanf rest → ReachesExit scanf stdin
  | other : integer (skipSpace stdin) = some (n, rest) → ¬ IsOption n →
      ¬ IsOption (scanf.stored n).toInt → ReachesExit scanf rest → ReachesExit scanf stdin
  | early : integer (skipSpace stdin) = some (n, rest) → ¬ IsOption n →
      scanf.stored n = 3 → named scanf rest = [] → ReachesExit scanf stdin

/-- The turns of the menu loop that follow a state: the states before and after each. -/
inductive Main.Turn {σ : Type} (scanf : Scanf) (host : Host σ) :
    Main → σ → Main × σ → Main × σ → Prop where
  | first : outerPass scanf host m s = .ok (.inl m') s' → Turn scanf host m s (m, s) (m', s')
  | later : outerPass scanf host m s = .ok (.inl m₁) s₁ → Turn scanf host m₁ s₁ before after →
      Turn scanf host m s before after

/-- Each turn sends what the number names that it reads, and no more. -/
def TurnsNamed (scanf : Scanf) (env : Environment) (m : Main) (s : Conn) : Prop :=
  ∀ before after, Main.Turn scanf env.host m s before after →
    after.2.sent = before.2.sent ++
      Request.grammar.stream (before.1.counters.requests (entry scanf before.1.stdin).1)

/-- The menu loop ends, and has sent these requests. -/
def Sends (scanf : Scanf) (env : Environment) (m : Main) (s : Conn)
    (operations : List Operation) : Prop :=
  ∃ enough, ∀ passes, enough ≤ passes → ∃ m' s',
    Main.menuLoop scanf env.host passes m s = .ok m' s' ∧
      s'.sent = s.sent ++ Request.grammar.stream (m.counters.requests operations)

/-- The menu loop ends, and has sent the requests that the input names, each in the turn
that reads its number. -/
def SendsNamed (scanf : Scanf) (env : Environment) (stdin : List Char) (s : Conn) : Prop :=
  Sends scanf env (.start stdin) s (named scanf stdin) ∧ TurnsNamed scanf env (.start stdin) s

section Named

variable {scanf : Scanf} {stdin rest : List Char} {operations : List Operation}

theorem named_last (h : entry scanf stdin = (operations, none)) :
    named scanf stdin = operations := by
  rw [named, h, List.append_nil]

theorem named_more (h : entry scanf stdin = (operations, some rest)) :
    named scanf stdin = operations ++ named scanf rest := by
  rw [named, h]

end Named

theorem not_reachesExit {scanf : Scanf} {stdin : List Char}
    (h : integer (skipSpace stdin) = none) : ¬ ReachesExit scanf stdin := by
  intro hreaches
  cases hreaches with
  | exit hint => cases h.symm.trans hint
  | root hint _ _ => cases h.symm.trans hint
  | date hint _ => cases h.symm.trans hint
  | other hint _ _ _ => cases h.symm.trans hint
  | early hint _ _ _ => cases h.symm.trans hint

/-! ## The turns -/

theorem scan_some {α : Type} {item : List Char → Option (α × List Char)} {stdin : List Char}
    (value : α) {r : α × List Char} (h : item (skipSpace stdin) = some r) :
    scan item value stdin = r := by
  rw [scan, h]

theorem scan_none {α : Type} {item : List Char → Option (α × List Char)} {stdin : List Char}
    (value : α) (h : item (skipSpace stdin) = none) :
    scan item value stdin = (value, skipSpace stdin) := by
  rw [scan, h]

namespace Main

/-- What the `switch` performs. -/
def performed (scanf : Scanf) (m : Main) : List Operation :=
  if m.requestNo = 1 then [.root (scan scanf.double 0 m.stdin).1]
  else if m.requestNo = 2 then [.date]
  else []

/-- What `main` keeps after the `switch`. -/
def switched (scanf : Scanf) (m : Main) : Main where
  requestNo := m.requestNo
  shouldRun := if m.requestNo = 3 then 0 else m.shouldRun
  counters := m.counters.after (m.performed scanf)
  stdin := if m.requestNo = 1 then (scan scanf.double 0 m.stdin).2 else m.stdin

/-- What `main` keeps after a turn. -/
def turned (scanf : Scanf) (m : Main) : Main := (m.ask scanf).switched scanf

section Asked

variable (scanf : Scanf) {m : Main} {rest : List Char} {n : ℤ}

theorem ask_some (h : integer (skipSpace m.stdin) = some (n, rest)) :
    m.ask scanf = { m with requestNo := scanf.stored n, stdin := rest } := by
  have hint : scanf.int (skipSpace m.stdin) = some (scanf.stored n, rest) := by
    rw [Scanf.int, h]
    rfl
  rw [ask, scan_some _ hint]

/-- A number that does not come leaves the number of the turn before. -/
theorem ask_none (h : integer (skipSpace m.stdin) = none) :
    m.ask scanf = { m with stdin := skipSpace m.stdin } := by
  have hint : scanf.int (skipSpace m.stdin) = none := by
    rw [Scanf.int, h]
    rfl
  rw [ask, scan_none _ hint]

theorem performed_root (h : m.requestNo = 1) :
    m.performed scanf = [.root (scan scanf.double 0 m.stdin).1] := if_pos h

theorem performed_date (h : m.requestNo = 2) : m.performed scanf = [.date] := by
  rw [performed, if_neg (by rw [h]; decide), if_pos h]

theorem performed_eq_nil_iff :
    m.performed scanf = [] ↔ m.requestNo ≠ 1 ∧ m.requestNo ≠ 2 := by
  rw [performed]
  split
  next hroot => simp [hroot]
  next hroot =>
    split
    next hdate => simp [hdate]
    next hdate => simp [hroot, hdate]

/-- Where nothing is performed and the number is not 3, nothing changes. -/
theorem switched_other (h : m.performed scanf = []) (hexit : m.requestNo ≠ 3) :
    m.switched scanf = m := by
  rw [switched, h, if_neg hexit, if_neg ((performed_eq_nil_iff scanf).mp h).1]
  rfl

/-- The turns that read a number, by what is stored for it. -/
theorem turned_root (h : integer (skipSpace m.stdin) = some (1, rest)) :
    (m.ask scanf).performed scanf = [.root (scan scanf.double 0 rest).1] ∧
      m.turned scanf = ⟨1, m.shouldRun, m.counters.next (.root (scan scanf.double 0 rest).1),
        (scan scanf.double 0 rest).2⟩ := by
  have hask : m.ask scanf = { m with requestNo := 1, stdin := rest } := ask_some scanf h
  rw [turned, hask, switched, performed_root scanf rfl]
  exact ⟨rfl, rfl⟩

theorem turned_date (h : integer (skipSpace m.stdin) = some (2, rest)) :
    (m.ask scanf).performed scanf = [.date] ∧
      m.turned scanf = ⟨2, m.shouldRun, m.counters.next .date, rest⟩ := by
  have hask : m.ask scanf = { m with requestNo := 2, stdin := rest } := ask_some scanf h
  rw [turned, hask, switched, performed_date scanf rfl]
  exact ⟨rfl, rfl⟩

theorem turned_exit (h : integer (skipSpace m.stdin) = some (n, rest))
    (hstored : scanf.stored n = 3) :
    (m.ask scanf).performed scanf = [] ∧ m.turned scanf = ⟨3, 0, m.counters, rest⟩ := by
  have hask : m.ask scanf = { m with requestNo := 3, stdin := rest } := by
    rw [ask_some scanf h, hstored]
  rw [turned, hask, switched]
  exact ⟨rfl, rfl⟩

theorem turned_other (h : integer (skipSpace m.stdin) = some (n, rest))
    (hstored : ¬ IsOption (scanf.stored n).toInt) :
    (m.ask scanf).performed scanf = [] ∧
      m.turned scanf = { m with requestNo := scanf.stored n, stdin := rest } := by
  rw [isOption_toInt_iff, not_or, not_or] at hstored
  have hnothing : (m.ask scanf).performed scanf = [] := by
    rw [performed_eq_nil_iff, ask_some scanf h]
    exact ⟨hstored.1, hstored.2.1⟩
  refine ⟨hnothing, ?_⟩
  rw [turned, switched_other scanf hnothing (by rw [ask_some scanf h]; exact hstored.2.2),
    ask_some scanf h]

end Asked

end Main

section Turns

variable {scanf : Scanf} {env : Environment} {m m' : Main} {s s' : Conn} {passes : ℕ}
  {rest : List Char} {n : ℤ}

theorem stream_request (counters : Counters) (operation : Operation) :
    Request.grammar.stream (counters.requests [operation]) =
      Request.grammar.encode (counters.request operation) := by
  rw [Counters.requests, Counters.requests, Grammar.stream_cons, Grammar.stream_nil,
    List.append_nil]

/-- No request is sent for nothing. -/
theorem eq_nil_of_stream {counters : Counters} {operations : List Operation}
    (h : Request.grammar.stream (counters.requests operations) = []) : operations = [] := by
  cases operations with
  | nil => rfl
  | cons operation more =>
      rw [Counters.requests, Grammar.stream_cons] at h
      have hpos := Request.grammar.encode_length_pos (counters.request operation)
      rw [(List.append_eq_nil_iff.mp h).1] at hpos
      cases hpos

theorem choose_eq (scanf : Scanf) (hfuel : 16 < env.fuel) (hopen : s.closed = false) :
    ∃ s', Main.choose scanf env.host m s = .ok (m.switched scanf) s' ∧ s'.closed = false ∧
      s'.sent = s.sent ++ Request.grammar.stream (m.counters.requests (m.performed scanf)) := by
  by_cases hroot : m.requestNo = 1
  · obtain ⟨writes, hperform⟩ := performSquareRootRequest_full env hfuel hopen
      (scan scanf.double 0 m.stdin).1 m.counters
    refine ⟨{ s with
      sent := s.sent ++
        Request.grammar.encode (m.counters.request (.root (scan scanf.double 0 m.stdin).1))
      writes := writes
      draws := s.draws + 1 }, ?_, hopen, ?_⟩
    · rw [Main.choose, if_pos hroot]
      dsimp only
      rw [bind_ok hperform, Main.switched, Main.performed_root scanf hroot, if_pos hroot,
        if_neg (by rw [hroot]; decide)]
      rfl
    · rw [Main.performed_root scanf hroot, stream_request]
  · by_cases hdate : m.requestNo = 2
    · obtain ⟨writes, hperform⟩ := performDateRequest_full env (by omega) hopen m.counters
      refine ⟨{ s with
        sent := s.sent ++ Request.grammar.encode (m.counters.request .date)
        writes := writes
        draws := s.draws + 1 }, ?_, hopen, ?_⟩
      · rw [Main.choose, if_neg hroot, if_pos hdate, bind_ok hperform, Main.switched,
          Main.performed_date scanf hdate, if_neg hroot, if_neg (by rw [hdate]; decide)]
        rfl
      · rw [Main.performed_date scanf hdate, stream_request]
    · have hnothing : m.performed scanf = [] := (Main.performed_eq_nil_iff scanf).mpr ⟨hroot, hdate⟩
      refine ⟨s, ?_, hopen, by rw [hnothing]; exact (List.append_nil _).symm⟩
      rw [Main.choose, if_neg hroot, if_neg hdate]
      by_cases hexit : m.requestNo = 3
      · rw [if_pos hexit, Main.switched, hnothing, if_neg hroot, if_pos hexit]
        rfl
      · rw [if_neg hexit, Main.switched_other scanf hnothing hexit]
        rfl

/-- A turn: the inner loop has one pass. -/
theorem outerPass_eq (scanf : Scanf) (hfuel : 16 < env.fuel) (hrun : m.shouldRun ≠ 0)
    (hopen : s.closed = false) :
    ∃ s', Main.outerPass scanf env.host m s = .ok (.inl (m.turned scanf)) s' ∧
      s'.closed = false ∧ s'.sent = s.sent ++
        Request.grammar.stream (m.counters.requests ((m.ask scanf).performed scanf)) := by
  obtain ⟨s', hchoose, hopen', hsent⟩ := choose_eq scanf (m := m.ask scanf) hfuel hopen
  have hinner : Main.innerPass scanf env.host m s = .ok (.inr (m.turned scanf)) s' := by
    rw [Main.innerPass, bind_ok hchoose]
    rw [if_neg fun hboth => by
      rw [Int32.lt_iff_toInt_lt, Int32.lt_iff_toInt_lt] at hboth
      have hone : (1 : Int32).toInt = 1 := rfl
      have hthree : (3 : Int32).toInt = 3 := rfl
      omega]
    rfl
  obtain ⟨fuel, hsome⟩ : ∃ fuel, env.fuel = fuel + 1 := ⟨env.fuel - 1, by omega⟩
  refine ⟨s', ?_, hopen', hsent⟩
  rw [Main.outerPass, if_neg hrun, Environment.host_fuel, hsome, bind_ok (loop_result hinner)]
  rfl

theorem outerPass_end (h : m.shouldRun = 0) :
    Main.outerPass scanf env.host m s = .ok (.inr m) s := by
  rw [Main.outerPass, if_pos h]
  rfl

theorem menuLoop_end (h : m.shouldRun = 0)
    (hloop : Main.menuLoop scanf env.host passes m s = .ok m' s') : s' = s := by
  cases passes with
  | zero => cases hloop
  | succ passes =>
      cases (loop_result (outerPass_end h)).symm.trans hloop
      rfl

/-! ## The whole loop -/

/-- The turns after a turn that has sent what it should. -/
theorem TurnsNamed.cons (hpass : Main.outerPass scanf env.host m s = .ok (.inl m') s')
    (hsent : s'.sent =
      s.sent ++ Request.grammar.stream (m.counters.requests (entry scanf m.stdin).1))
    (h : TurnsNamed scanf env m' s') : TurnsNamed scanf env m s := by
  intro before after hturn
  cases hturn with
  | first hfirst =>
      cases hpass.symm.trans hfirst
      exact hsent
  | later hfirst hlater =>
      cases hpass.symm.trans hfirst
      exact h before after hlater

theorem TurnsNamed.stop (h : m.shouldRun = 0) : TurnsNamed scanf env m s := by
  intro before after hturn
  cases hturn with
  | first hfirst => cases (outerPass_end h).symm.trans hfirst
  | later hfirst _ => cases (outerPass_end h).symm.trans hfirst

theorem TurnsNamed.tail (h : TurnsNamed scanf env m s)
    (hpass : Main.outerPass scanf env.host m s = .ok (.inl m') s') : TurnsNamed scanf env m' s' :=
  fun before after hturn => h before after (.later hpass hturn)

theorem Sends.stop (h : m.shouldRun = 0) : Sends scanf env m s [] := by
  refine ⟨1, fun passes hpasses => ⟨m, s, ?_, (List.append_nil _).symm⟩⟩
  obtain ⟨passes, rfl⟩ : ∃ p, passes = p + 1 := ⟨passes - 1, by omega⟩
  exact loop_result (outerPass_end h)

theorem Sends.cons {operations more : List Operation}
    (hpass : Main.outerPass scanf env.host m s = .ok (.inl m') s')
    (hsent : s'.sent = s.sent ++ Request.grammar.stream (m.counters.requests operations))
    (hcounters : m'.counters = m.counters.after operations)
    (h : Sends scanf env m' s' more) : Sends scanf env m s (operations ++ more) := by
  obtain ⟨enough, henough⟩ := h
  refine ⟨enough + 1, fun passes hpasses => ?_⟩
  obtain ⟨passes, rfl⟩ : ∃ p, passes = p + 1 := ⟨passes - 1, by omega⟩
  obtain ⟨m'', s'', hloop, hsent'⟩ := henough passes (by omega)
  refine ⟨m'', s'', (loop_next hpass).trans hloop, ?_⟩
  rw [hsent', hsent, hcounters, Counters.requests_append, Grammar.stream_append,
    List.append_assoc]

/-- A turn that performs what its number names, where the loop and the reading both go on
or both end. -/
theorem turn_right (hfuel : 16 < env.fuel) (hrun : m.shouldRun ≠ 0) (hopen : s.closed = false)
    {more : List Operation} (hentry : (entry scanf m.stdin).1 = (m.ask scanf).performed scanf)
    (hnamed : named scanf m.stdin = (m.ask scanf).performed scanf ++ more)
    (h : ∀ s', s'.closed = false →
      Sends scanf env (m.turned scanf) s' more ∧ TurnsNamed scanf env (m.turned scanf) s') :
    Sends scanf env m s (named scanf m.stdin) ∧ TurnsNamed scanf env m s := by
  obtain ⟨s', hpass, hopen', hsent⟩ := outerPass_eq scanf hfuel hrun hopen
  obtain ⟨hsends, hturns⟩ := h s' hopen'
  refine ⟨?_, .cons hpass (by rw [hentry]; exact hsent) hturns⟩
  rw [hnamed]
  exact .cons hpass hsent rfl hsends

/-- If a 3 is reached, the loop ends with the requests up to it. -/
theorem reachesExit_right (hfuel : 16 < env.fuel) {stdin : List Char}
    (h : ReachesExit scanf stdin) :
    ∀ (m : Main) (s : Conn), m.stdin = stdin → m.shouldRun ≠ 0 → s.closed = false →
      Sends scanf env m s (named scanf stdin) ∧ TurnsNamed scanf env m s := by
  induction h with
  | exit hint =>
      intro m s hstdin hrun hopen
      subst hstdin
      obtain ⟨hnothing, hturned⟩ := Main.turned_exit scanf hint rfl
      have hentry := entry_exit scanf hint
      refine turn_right hfuel hrun hopen ?_ ?_ fun s' _ => ⟨.stop ?_, .stop ?_⟩
      · rw [hentry, hnothing]
      · rw [named_last hentry, hnothing, List.append_nil]
      · rw [hturned]
      · rw [hturned]
  | root hint hdouble _ ih =>
      intro m s hstdin hrun hopen
      subst hstdin
      obtain ⟨hroot, hturned⟩ := Main.turned_root scanf hint
      rw [scan_some 0 hdouble] at hroot hturned
      have hentry := entry_root scanf hint hdouble
      refine turn_right hfuel hrun hopen ?_ ?_ fun s' hopen' => ih _ s' ?_ ?_ hopen'
      · rw [hentry, hroot]
      · rw [named_more hentry, hroot]
      · rw [hturned]
      · rw [hturned]
        exact hrun
  | date hint _ ih =>
      intro m s hstdin hrun hopen
      subst hstdin
      obtain ⟨hdate, hturned⟩ := Main.turned_date scanf hint
      have hentry := entry_date scanf hint
      refine turn_right hfuel hrun hopen ?_ ?_ fun s' hopen' => ih _ s' ?_ ?_ hopen'
      · rw [hentry, hdate]
      · rw [named_more hentry, hdate]
      · rw [hturned]
      · rw [hturned]
        exact hrun
  | other hint hn hstored _ ih =>
      intro m s hstdin hrun hopen
      subst hstdin
      obtain ⟨hnothing, hturned⟩ := Main.turned_other scanf hint hstored
      have hentry := entry_other scanf hint hn
      refine turn_right hfuel hrun hopen ?_ ?_ fun s' hopen' => ih _ s' ?_ ?_ hopen'
      · rw [hentry, hnothing]
      · rw [named_more hentry, hnothing]
      · rw [hturned]
      · rw [hturned]
        exact hrun
  | early hint hn hstored hrest =>
      intro m s hstdin hrun hopen
      subst hstdin
      obtain ⟨hnothing, hturned⟩ := Main.turned_exit scanf hint hstored
      have hentry := entry_other scanf hint hn
      refine turn_right hfuel hrun hopen ?_ ?_ fun s' _ => ⟨.stop ?_, .stop ?_⟩
      · rw [hentry, hnothing]
      · rw [named_more hentry, hnothing, hrest, List.append_nil]
      · rw [hturned]
      · rw [hturned]

/-- A turn that reads nothing that is named performs nothing. -/
theorem TurnsNamed.performed_eq_nil (hfuel : 16 < env.fuel) (hrun : m.shouldRun ≠ 0)
    (hopen : s.closed = false) (h : TurnsNamed scanf env m s)
    (hentry : (entry scanf m.stdin).1 = []) : (m.ask scanf).performed scanf = [] := by
  obtain ⟨s', hpass, -, hsent⟩ := outerPass_eq scanf hfuel hrun hopen
  have hnamed : s'.sent = _ := h _ _ (.first hpass)
  rw [hentry, hsent] at hnamed
  exact eq_nil_of_stream (List.append_cancel_left hnamed)

/-- If the loop ends with the requests that the input names, each sent where its number is
read, a 3 was reached. -/
theorem right_reachesExit (hfuel : 16 < env.fuel) :
    ∀ (passes : ℕ) {m : Main} {s : Conn}, s.closed = false →
      Main.menuLoop scanf env.host passes m s = .ok m' s' →
      m.shouldRun ≠ 0 → m.requestNo ≠ 3 → TurnsNamed scanf env m s → s'.sent = s.sent ++
        Request.grammar.stream (m.counters.requests (named scanf m.stdin)) →
          ReachesExit scanf m.stdin := by
  intro passes
  induction passes with
  | zero =>
      intro m s _ h _ _ _ _
      cases h
  | succ passes ih =>
      intro m s hopen h hrun hprevious hturns hall
      obtain ⟨s₁, hpass, hopen₁, hsent⟩ := outerPass_eq scanf hfuel hrun hopen
      have hrest : Main.menuLoop scanf env.host passes (m.turned scanf) s₁ = .ok m' s' :=
        (loop_next hpass).symm.trans h
      have hlater := hturns.tail hpass
      have hmore {more : List Operation}
          (hnamed : named scanf m.stdin = (m.ask scanf).performed scanf ++ more) :
          s'.sent = s₁.sent ++
            Request.grammar.stream ((m.turned scanf).counters.requests more) := by
        rw [hall, hnamed, Counters.requests_append, Grammar.stream_append, hsent,
          List.append_assoc]
        rfl
      cases hint : integer (skipSpace m.stdin) with
      | none =>
          have hentry := entry_none scanf hint
          have hnothing := hturns.performed_eq_nil hfuel hrun hopen (by rw [hentry])
          have hask := Main.ask_none scanf hint
          have hturned : m.turned scanf = { m with stdin := skipSpace m.stdin } := by
            rw [Main.turned, Main.switched_other scanf hnothing (by rw [hask]; exact hprevious),
              hask]
          have hnone : integer (skipSpace (skipSpace m.stdin)) = none := by
            rw [skipSpace_skipSpace, hint]
          have hnamed : named scanf m.stdin = (m.ask scanf).performed scanf ++ [] := by
            rw [hnothing, named_last hentry, List.append_nil]
          have hend := hmore hnamed
          rw [hturned] at hrest hlater hend
          refine absurd (ih hopen₁ hrest hrun hprevious hlater ?_) (not_reachesExit hnone)
          rw [hend, named_last (entry_none scanf hnone)]
      | some r =>
          obtain ⟨n, rest⟩ := r
          by_cases hn : IsOption n
          · rcases hn with rfl | rfl | rfl
            · obtain ⟨hroot, hturned⟩ := Main.turned_root scanf hint
              cases hdouble : scanf.double (skipSpace rest) with
              | none =>
                  have hentry := entry_noOperand scanf hint hdouble
                  have hnothing := hturns.performed_eq_nil hfuel hrun hopen (by rw [hentry])
                  cases hroot.symm.trans hnothing
              | some r' =>
                  rw [scan_some 0 hdouble] at hroot hturned
                  have hend := hmore ((named_more (entry_root scanf hint hdouble)).trans
                    (congrArg (· ++ _) hroot.symm))
                  rw [hturned] at hrest hlater hend
                  exact .root hint hdouble (ih hopen₁ hrest hrun (show (1 : Int32) ≠ 3 by decide)
                    hlater hend)
            · obtain ⟨hdate, hturned⟩ := Main.turned_date scanf hint
              have hend := hmore ((named_more (entry_date scanf hint)).trans
                (congrArg (· ++ _) hdate.symm))
              rw [hturned] at hrest hlater hend
              exact .date hint (ih hopen₁ hrest hrun (show (2 : Int32) ≠ 3 by decide) hlater hend)
            · exact .exit hint
          · have hentry := entry_other scanf hint hn
            have hnothing := hturns.performed_eq_nil hfuel hrun hopen (by rw [hentry])
            have hend := hmore ((named_more hentry).trans (congrArg (· ++ _) hnothing.symm))
            by_cases hexit : scanf.stored n = 3
            · obtain ⟨-, hturned⟩ := Main.turned_exit scanf hint hexit
              rw [hturned] at hrest hend
              rw [menuLoop_end rfl hrest] at hend
              have hnone := List.append_right_eq_self.mp hend.symm
              exact .early hint hn hexit (eq_nil_of_stream hnone)
            · have hstored : ¬ IsOption (scanf.stored n).toInt := by
                rw [Main.performed_eq_nil_iff, Main.ask_some scanf hint] at hnothing
                rw [isOption_toInt_iff, not_or, not_or]
                exact ⟨hnothing.1, hnothing.2, hexit⟩
              obtain ⟨-, hturned⟩ := Main.turned_other scanf hint hstored
              rw [hturned] at hrest hlater hend
              exact .other hint hn hstored (ih hopen₁ hrest hrun hexit hlater hend)

theorem SendsNamed.reachesExit (hfuel : 16 < env.fuel) (hopen : s.closed = false)
    {stdin : List Char} (h : SendsNamed scanf env stdin s) : ReachesExit scanf stdin := by
  obtain ⟨⟨enough, henough⟩, hturns⟩ := h
  obtain ⟨m, s', hloop, hsent⟩ := henough enough (Nat.le_refl _)
  exact right_reachesExit (m := .start stdin) hfuel enough hopen hloop
    (show (1 : Int32) ≠ 0 by decide) (show (0 : Int32) ≠ 3 by decide) hturns hsent

/-- The menu loop ends with the requests that the input names, each sent where its number
is read, exactly when a 3 is read before a malformed word and the end of the input, and
before a number that is stored as an option which it is not.  Only a number that is stored
as a 3 does no harm where nothing is named behind it. -/
theorem sendsNamed_iff (hfuel : 16 < env.fuel) (hopen : s.closed = false) (stdin : List Char) :
    SendsNamed scanf env stdin s ↔ ReachesExit scanf stdin := by
  constructor
  · exact SendsNamed.reachesExit hfuel hopen
  · intro h
    exact reachesExit_right hfuel h (.start stdin) s rfl (show (1 : Int32) ≠ 0 by decide) hopen

end Turns

/-- The bits of a double that is a natural number below `2 ^ 53`. -/
def naturalBits (n : ℕ) : UInt64 :=
  if n = 0 then 0
  else UInt64.ofNat (((1022 + Nat.log2 n) <<< 52) + (n <<< (52 - Nat.log2 n)))

/-- A `scanf` for operands that are natural numbers.  Of a number that is too large it
stores the lower bits. -/
def Scanf.naturals : Scanf where
  overflow n := Int32.ofInt n
  double text := (natural text).map fun r => (naturalBits r.1, r.2)
  double_shorter h := by
    obtain ⟨r, hr, heq⟩ := Option.map_eq_some_iff.mp h
    rw [← (Prod.mk.inj heq).2]
    exact natural_shorter (n := r.1) hr

/-- The root of 4, two options that there are not, the date, and the end. -/
theorem sendsNamed_root_date :
    SendsNamed .naturals (Environment.bytewise.withFuel 17) "1 4\n7\n4294967296\n2\n3\n".toList
      (.start [] none) := by
  have hroot : integer (skipSpace "1 4\n7\n4294967296\n2\n3\n".toList) =
      some (1, " 4\n7\n4294967296\n2\n3\n".toList) := by decide
  have hfour : Scanf.naturals.double (skipSpace " 4\n7\n4294967296\n2\n3\n".toList) =
      some (0x4010000000000000, "\n7\n4294967296\n2\n3\n".toList) := by decide
  have hother : integer (skipSpace "\n7\n4294967296\n2\n3\n".toList) =
      some (7, "\n4294967296\n2\n3\n".toList) := by decide
  have hlarge : integer (skipSpace "\n4294967296\n2\n3\n".toList) =
      some (4294967296, "\n2\n3\n".toList) := by decide
  have hdate : integer (skipSpace "\n2\n3\n".toList) = some (2, "\n3\n".toList) := by decide
  have hexit : integer (skipSpace "\n3\n".toList) = some (3, "\n".toList) := by decide
  exact (sendsNamed_iff (by decide) rfl _).mpr
    (.root hroot hfour (.other hother (by decide) (by decide)
      (.other hlarge (by decide) (by decide) (.date hdate (.exit hexit)))))

/-- A word behind the date request: the date is asked for again and again. -/
theorem not_sendsNamed_word :
    ¬ SendsNamed .naturals (Environment.bytewise.withFuel 17) "2 x".toList (.start [] none) := by
  intro h
  have hreaches := h.reachesExit (by decide) rfl
  have hdate : integer (skipSpace "2 x".toList) = some (2, " x".toList) := by decide
  have hword : integer (skipSpace " x".toList) = none := by decide
  cases hreaches with
  | exit hint => cases hdate.symm.trans hint
  | root hint _ _ => cases hdate.symm.trans hint
  | date hint hrest =>
      cases hdate.symm.trans hint
      exact not_reachesExit hword hrest
  | other hint hn _ _ =>
      cases hdate.symm.trans hint
      exact hn (by decide)
  | early hint hn _ _ =>
      cases hdate.symm.trans hint
      exact hn (by decide)

end Rso.Socket.Client
