import Rso.Socket.NetworkSession
import Rso.Socket.Threads

/-!
# When the check of the ids ends a session

The child does not send back the id of a request but four bytes that it finds
behind the header in memory.  The receiving thread compares them with a counter,
which `main` increments after it has written a request.  So the comparison may
come before the increment for the request itself, but not before those for the
earlier requests: with `main` held there it fails for every id above their
number, and otherwise it never fails (`never_exits_iff`).
-/

namespace Rso.Socket

open Client Server

/-! ## The counters -/

theorem Client.Counters.after_value (k : Kind) :
    ∀ (operations : List Operation) (counters : Counters),
      (counters.after operations).value k =
        counters.value k + UInt32.ofNat (operations.countP fun o => o.kind = k) := by
  intro operations
  induction operations with
  | nil =>
      intro counters
      exact (UInt32.add_zero _).symm
  | cons operation operations ih =>
      intro counters
      show ((counters.next operation).after operations).value k = _
      rw [ih, Counters.next_value, List.countP_cons]
      rcases eq_or_ne operation.kind k with hk | hk
      · rw [if_pos hk, if_pos (decide_eq_true hk), UInt32.ofNat_add, UInt32.add_assoc,
          UInt32.add_comm 1]
        rfl
      · rw [if_neg hk, if_neg (by simpa using hk), Nat.add_zero]

/-- A counter that does not overflow only grows. -/
theorem Client.Counters.after_value_mono (k : Kind) (operations more : List Operation)
    (hlen : (operations ++ more).countP (fun o => o.kind = k) < 2 ^ 31) :
    (Counters.after ⟨0, 0⟩ operations).value k ≤
      (Counters.after ⟨0, 0⟩ (operations ++ more)).value k := by
  have hzero : (Counters.mk 0 0).value k = 0 := by cases k <;> rfl
  rw [List.countP_append] at hlen
  rw [after_value, after_value, hzero, UInt32.zero_add, UInt32.zero_add, UInt32.le_iff_toNat_le,
    UInt32.toNat_ofNat_of_lt', UInt32.toNat_ofNat_of_lt', List.countP_append]
  · exact Nat.le_add_right ..
  · rw [List.countP_append, UInt32.size]
    omega
  · rw [UInt32.size]
    omega

theorem Server.ServerEnvironment.answers_getElem? (env : ServerEnvironment) :
    ∀ (rs : List Request) (draws j : ℕ),
      (env.answers draws rs)[j]? = rs[j]?.map fun r => env.answer (draws + 4 * j) r.operation := by
  intro rs
  induction rs with
  | nil =>
      intro draws j
      rfl
  | cons r rs ih =>
      intro draws j
      cases j with
      | zero => rfl
      | succ j =>
          rw [answers, List.getElem?_cons_succ, List.getElem?_cons_succ, ih,
            show draws + 4 + 4 * j = draws + 4 * (j + 1) by omega]

namespace Network

variable {up down : ℕ} {env : ServerEnvironment} {operations : List Operation} {closes : Bool}
  {s s' : Network up down}

/-- What the child finds behind each header is no more than the number of earlier
requests of the same kind. -/
def IdsEarly (env : ServerEnvironment) (operations : List Operation) : Prop :=
  ∀ before operation after, operations = before ++ operation :: after →
    env.idBehind (4 * before.length) ≤ (Counters.after ⟨0, 0⟩ before).value operation.kind

/-- The answers have the kinds of the operations, and the ids from behind the
headers. -/
theorem replies_getElem? (env : ServerEnvironment) (operations : List Operation) (j : ℕ) :
    (replies env operations)[j]? = operations[j]?.map (env.answer (4 * j)) := by
  have hoperations := Counters.requests_operation ⟨0, 0⟩ operations
  rw [replies, ServerEnvironment.answers_getElem?, Nat.zero_add]
  conv_rhs => rw [← hoperations, List.getElem?_map, Option.map_map]
  rfl

theorem answer_accepts (env : ServerEnvironment) (counters : Counters) (draws : ℕ)
    (operation : Operation) : Accepts counters (env.answer draws operation).header ↔
      env.idBehind draws ≤ counters.value operation.kind := by
  rw [accepts_iff]
  cases operation <;> rfl

/-! ## Early ids pass -/

/-- The operation whose answer the receiving thread has before it, with those before
it all counted. -/
theorem At.heading {x : History} (h : At env operations closes x s)
    (hlen : 8 ≤ s.receiver.got.length) :
    ∃ before operation after more, operations = before ++ operation :: after ∧
      before.length = x.printed.length ∧ x.counted = before ++ more ∧
      Header.ofBytes (s.receiver.got.take 8) =
        (env.answer (4 * before.length) operation).header := by
  obtain ⟨later, hreceived⟩ := h.received
  obtain ⟨a, rest, hlater, hheader⟩ := hreceived.header hlen
  have hgot : s.receiver.got ≠ [] := List.ne_nil_of_length_pos (by omega)
  have hserved := h.served_le.length_le
  have hprinted := h.printed_lt hgot
  have hbusy : s.sender.busy.toList.length ≤ 1 := by cases s.sender.busy <;> simp
  rw [asked, Counters.requests_length, List.length_append] at hserved
  have hcounted : x.printed.length ≤ x.counted.length := by omega
  have hanswer : (replies env operations)[x.printed.length]? = some a := by
    rw [hreceived.taken.all, hlater, List.getElem?_append_right (Nat.le_refl _), Nat.sub_self]
    rfl
  rw [replies_getElem?] at hanswer
  obtain ⟨operation, hoperation, rfl⟩ := Option.map_eq_some_iff.mp hanswer
  obtain ⟨hlt, hget⟩ := List.getElem?_eq_some_iff.mp hoperation
  have hall := h.sent.all
  refine ⟨operations.take x.printed.length, operation, operations.drop (x.printed.length + 1),
    x.counted.drop x.printed.length, ?_, List.length_take_of_le (Nat.le_of_lt hlt), ?_, ?_⟩
  · rw [← hget, List.getElem_cons_drop, List.take_append_drop]
  · rw [hall, List.append_assoc, List.take_append_of_le_length hcounted, List.take_append_drop]
  · rw [hheader, List.length_take_of_le (Nat.le_of_lt hlt)]

/-- With early ids no step is the exit. -/
theorem step_not_wrong (hlen : ∀ k, operations.countP (fun o => o.kind = k) < 2 ^ 31)
    (hearly : IdsEarly env operations) (h : Consistent env operations closes s)
    (hexited : s.exited ≠ some "Wrong request id!") {a : Action}
    (hstep : s.step env a = some s') : s'.exited ≠ some "Wrong request id!" := by
  obtain ⟨x, hx⟩ := h
  cases Next.of_step hstep with
  | leave _ _ =>
      show some bye ≠ _
      decide
  | exit _ _ hheader hid =>
      obtain ⟨before, operation, after, more, hall, -, hcounted, hheader⟩ := hx.heading hheader
      have hcut := hx.sent.all
      rw [hcounted, List.append_assoc] at hcut
      refine absurd ?_ hid
      rw [hheader, answer_accepts, hx.sent.counters, hcounted]
      refine UInt32.le_trans (hearly before operation after hall)
        (Counters.after_value_mono _ _ _ ?_)
      have hkind := hlen operation.kind
      rw [hcut, List.countP_append] at hkind
      exact Nat.lt_of_le_of_lt (Nat.le_add_right _ _) hkind
  | _ => exact hexited

/-! ## A late id does not, if `main` is held -/

/-- The system in which `main` does not count the request behind which `held` choices
remain. -/
def stepHeld (env : ServerEnvironment) (held : ℕ) (s : Network up down) (a : Action) :
    Option (Network up down) :=
  if a = .count ∧ s.sender.todo.length = held then none else s.step env a

theorem stepHeld_eq_some {held : ℕ} {a : Action} (h : s.stepHeld env held a = some s') :
    s.step env a = some s' ∧ ¬ (a = .count ∧ s.sender.todo.length = held) := by
  rw [stepHeld] at h
  split at h
  next => cases h
  next hnot => exact ⟨h, hnot⟩

/-- A step changes what `main` has to do only as `main` does. -/
theorem sender_step {a : Action} (h : s.step env a = some s') :
    (s'.sender.todo = s.sender.todo ∧ s'.sender.busy = s.sender.busy) ∨
      s.sender.choose = some s'.sender ∨ (a = .count ∧ s.sender.count = some s'.sender) := by
  cases Next.of_step h with
  | choose _ hchoose => exact .inr (.inl hchoose)
  | count _ hcount => exact .inr (.inr ⟨rfl, hcount⟩)
  | _ => exact .inl ⟨rfl, rfl⟩

/-- In it `main` comes no further, and the counters of each comparison are those of
earlier requests. -/
structure Held (env : ServerEnvironment) (before : List Operation) (operation : Operation)
    (after : List Operation) (closes : Bool) (s : Network up down) : Prop where
  todo : after.length ≤ s.sender.todo.length
  busy : s.sender.todo.length = after.length → s.sender.busy ≠ none
  compared : ∃ x, At env (before ++ operation :: after) closes x s ∧
    ∀ i c, i ≤ before.length → x.log[i]? = some c → ∃ m, i ≤ m ∧ m ≤ before.length ∧
      c = Counters.after ⟨0, 0⟩ (before.take m)

section Held

variable {before after : List Operation} {operation : Operation}

theorem Held.consistent (h : s.Held env before operation after closes) :
    Consistent env (before ++ operation :: after) closes s := by
  obtain ⟨x, hx, -⟩ := h.compared
  exact ⟨x, hx⟩

theorem Held.start (env : ServerEnvironment) (before : List Operation) (operation : Operation)
    (after : List Operation) (closes : Bool) :
    (Network.start (before ++ operation :: after) closes : Network up down).Held
      env before operation after closes := by
  have hlen : (before ++ operation :: after).length = before.length + (after.length + 1) :=
    List.length_append
  refine ⟨?_, fun htodo => ?_, ⟨_, .start env _ closes, fun i c _ hc => ?_⟩⟩
  · show after.length ≤ (before ++ operation :: after).length
    omega
  · have htodo' : (before ++ operation :: after).length = after.length := htodo
    omega
  · cases hc

/-- What is counted comes before the request that is not counted. -/
theorem Held.counted (h : s.Held env before operation after closes) {x : History}
    (hx : At env (before ++ operation :: after) closes x s) :
    x.counted.length ≤ before.length ∧ x.counted = before.take x.counted.length := by
  have htodo := hx.todo_length
  have hle := h.todo
  have hbusy := h.busy
  rw [List.length_append, List.length_cons] at htodo
  have hcounted : x.counted.length ≤ before.length := by
    rcases Nat.eq_or_lt_of_le hle with heq | hlt
    · obtain ⟨o, ho⟩ := Option.ne_none_iff_exists'.mp (hbusy heq.symm)
      rw [ho, Option.toList_some, List.length_singleton] at htodo
      omega
    · omega
  refine ⟨hcounted, ?_⟩
  have hall := congrArg (List.take x.counted.length) hx.sent.all
  rw [List.take_append_of_le_length hcounted, List.append_assoc, List.take_left] at hall
  exact hall.symm

theorem Held.step (h : s.Held env before operation after closes) {a : Action}
    (hstep : s.stepHeld env after.length a = some s') :
    s'.Held env before operation after closes := by
  obtain ⟨hstep, hnot⟩ := stepHeld_eq_some hstep
  obtain ⟨x, hx, hlog⟩ := h.compared
  obtain ⟨x', hx', hnotes⟩ := hx.step hstep
  have hcompared : ∀ i c, i ≤ before.length → x'.log[i]? = some c → ∃ m, i ≤ m ∧
      m ≤ before.length ∧ c = Counters.after ⟨0, 0⟩ (before.take m) := by
    intro i c hi hc
    rw [hnotes.log] at hc
    rcases Nat.lt_or_ge i x.log.length with hlt | hge
    · rw [List.getElem?_append_left hlt] at hc
      exact hlog i c hi hc
    · rw [List.getElem?_append_right hge] at hc
      split at hc
      next ha =>
        obtain ⟨hlast, rfl⟩ : i - x.log.length = 0 ∧ s.sender.counters = c := by
          rw [List.getElem?_singleton] at hc
          split at hc
          next hzero => exact ⟨hzero, Option.some.inj hc⟩
          next => cases hc
        obtain ⟨hnow, hserved⟩ := hnotes.compared ha
        obtain ⟨hle, hcounted⟩ := h.counted hx
        have hserved' := hx.served_le.length_le
        have hbusy : s.sender.busy.toList.length ≤ 1 := by cases s.sender.busy <;> simp
        rw [asked, Counters.requests_length, List.length_append] at hserved'
        refine ⟨x.counted.length, by omega, hle, ?_⟩
        rw [hx.sent.counters, ← hcounted]
      next => cases hc
  rcases sender_step hstep with ⟨htodo, hbusy⟩ | hchoose | ⟨rfl, hcount⟩
  · exact ⟨htodo ▸ h.todo, by rw [htodo, hbusy]; exact h.busy, x', hx', hcompared⟩
  · obtain ⟨o, todo, hidle, htodo, heq⟩ := Sender.choose_eq_some hchoose
    have hlt : s.sender.todo.length ≠ after.length := fun he => h.busy he hidle
    have hle := h.todo
    rw [htodo, List.length_cons] at hlt hle
    refine ⟨?_, fun _ => ?_, x', hx', hcompared⟩
    · rw [heq]
      show after.length ≤ todo.length
      omega
    · rw [heq]
      exact Option.some_ne_none o
  · obtain ⟨o, hbusy, -, heq⟩ := Sender.count_eq_some hcount
    have htodo : s'.sender.todo = s.sender.todo := by rw [heq]
    refine ⟨htodo ▸ h.todo, fun he => ?_, x', hx', hcompared⟩
    exact absurd ⟨rfl, by rw [← htodo, he]⟩ hnot

/-- Where the held system can do nothing the client has exited, if the id is late. -/
theorem Held.stuck (hup : 0 < up) (hdown : 0 < down)
    (h : s.Held env before operation after closes)
    (hlate : ¬ env.idBehind (4 * before.length) ≤
      (Counters.after ⟨0, 0⟩ before).value operation.kind)
    (hstuck : Transitions.Stuck (stepHeld env after.length) s) :
    s.exited = some "Wrong request id!" := by
  obtain ⟨x, hx, hlog⟩ := h.compared
  rcases hx.exits with hexited | hwrong | ⟨-, -, hbusy, htodo⟩
  rotate_left
  · exact hwrong
  · have hle := h.todo
    rw [htodo, List.length_nil] at hle
    exact absurd hbusy (h.busy (by rw [htodo, List.length_nil]; omega))
  have hidle : s.Idle env := by
    intro a _ hcount _
    have hnone := hstuck a
    rwa [stepHeld, if_neg (fun hnot => hcount hnot.1)] at hnone
  obtain ⟨hleft, hprinted⟩ := hx.idle hup hdown hexited hidle
  have hlength : s.sender.todo.length = after.length := by
    by_contra hne
    have hpos : after.length < s.sender.todo.length := Nat.lt_of_le_of_ne h.todo (Ne.symm hne)
    cases hbusy : s.sender.busy with
    | none =>
        obtain ⟨o, todo, htodo⟩ := List.exists_cons_of_length_pos (Nat.zero_lt_of_lt hpos)
        have hchoose := hstuck .choose
        simp [stepHeld, Network.step, stepClient, hexited, Sender.choose, hbusy, htodo] at hchoose
    | some o =>
        have hcount := hstuck .count
        simp [stepHeld, Network.step, stepClient, hexited, Sender.count, hbusy, hleft, hne]
          at hcount
  obtain ⟨o, hbusy⟩ := Option.ne_none_iff_exists'.mp (h.busy hlength)
  have hall := hx.sent.all
  rw [hbusy, Option.toList_some, List.append_assoc, List.singleton_append] at hall
  have hcounted : x.counted.length = before.length := by
    have hlen := congrArg List.length hall
    simp only [List.length_append, List.length_cons] at hlen
    omega
  obtain ⟨heq, hrest⟩ := List.append_inj hall hcounted.symm
  obtain ⟨rfl, -⟩ := List.cons.inj hrest
  have hlast : x.printed[before.length]? = some (env.answer (4 * before.length) operation) := by
    rw [hprinted, hbusy, ← heq, replies_getElem?, Option.toList_some,
      List.getElem?_append_right (Nat.le_refl _), Nat.sub_self]
    rfl
  obtain ⟨later, hreceived⟩ := hx.received
  have hid := hreceived.ids before.length _ hlast
  have hpasses := hx.standing.log_length (by rw [hexited]; simp)
  have hlt := (List.getElem?_eq_some_iff.mp hlast).1
  obtain ⟨c, hc⟩ : ∃ c, x.log[before.length]? = some c :=
    ⟨_, List.getElem?_eq_getElem (by omega)⟩
  obtain ⟨m, hge, hle, rfl⟩ := hlog before.length c (Nat.le_refl _) hc
  rw [Nat.zero_add, passCounters, hc, Option.getD_some, List.take_of_length_le hge,
    answer_accepts] at hid
  exact absurd hid hlate

end Held

/-- The check of the ids ends no session, whatever the order of the calls, if and only
if the child finds no id that is above the number of the client's earlier requests
of its kind. -/
theorem never_exits_iff (hup : 0 < up) (hdown : 0 < down)
    (hlen : ∀ k, operations.countP (fun o => o.kind = k) < 2 ^ 31) :
    (∀ schedule s,
      Transitions.run (step env) (start operations closes : Network up down) schedule = some s →
        s.exited ≠ some "Wrong request id!") ↔ IdsEarly env operations := by
  constructor
  · rintro hnever before operation after rfl
    by_contra hlate
    have hkeep (s : Network up down) (a : Action) (s' : Network up down)
        (h : s.Held env before operation after closes)
        (hstep : s.stepHeld env after.length a = some s') :
        s'.Held env before operation after closes := h.step hstep
    have hrank (s : Network up down) (a : Action) (s' : Network up down)
        (h : s.Held env before operation after closes)
        (hstep : s.stepHeld env after.length a = some s') :
        rank (before ++ operation :: after) s < rank (before ++ operation :: after) s' :=
      rank_lt h.consistent (stepHeld_eq_some hstep).1
    obtain ⟨schedule, s, hrun, hstuck⟩ := Transitions.exists_stuck hkeep hrank
      (fun _ h => rank_le h.consistent) (.start env before operation after closes)
    have hheld := Transitions.run_invariant hkeep (.start env before operation after closes) hrun
    have hrun' := Transitions.run_mono (fun _ _ _ h => (stepHeld_eq_some h).1) hrun
    exact hnever schedule s hrun' (hheld.stuck hup hdown hlate hstuck)
  · intro hearly schedule s hrun
    have hinv := Transitions.run_invariant
      (I := fun s => Consistent env operations closes s ∧ s.exited ≠ some "Wrong request id!")
      (fun s a s' h hstep => ⟨h.1.step hstep, step_not_wrong hlen hearly h.1 h.2 hstep⟩)
      ⟨.start env operations closes, by simp [start]⟩ hrun
    exact hinv.2

/-- Where the memory behind the headers is zero, no session ends so. -/
theorem never_exits_bytewise :
    IdsEarly .bytewise [.date, .root 0, .date] ∧ ∀ schedule (s : Network 1 1),
      Transitions.run (step .bytewise) (start [.date, .root 0, .date] true) schedule = some s →
        s.exited ≠ some "Wrong request id!" := by
  have hearly : IdsEarly .bytewise [.date, .root 0, .date] :=
    fun before operation after _ => UInt32.zero_le
  have hlen : ∀ k, [Operation.date, .root 0, .date].countP (fun o => o.kind = k) < 2 ^ 31 := by
    intro k
    cases k <;> decide
  exact ⟨hearly, (never_exits_iff Nat.one_pos Nat.one_pos hlen).mpr hearly⟩

end Network

end Rso.Socket
