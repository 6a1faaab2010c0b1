import Mathlib.Data.String.Basic
import Rso.Lib.Search

/-!
# Calls through generated code

A compiler of interfaces makes two functions of each operation.  The stub writes the
arguments to a request and reads the result from the reply.  The skeleton reads the
arguments, calls the method of the servant, and writes the result.  The skeletons of
an interface stand in a table under their names, and a request is dispatched by a
binary search for its operation.

`stub_dispatch` says that a call through both is a call of the method, but for the
exceptions: one that the operation does not declare comes to the caller under another
name (`Faults.atCaller`).  `dispatch_cases` says that nothing else in a request gets
to a method.
-/

namespace Rso.Rpc

/-! ## What is written -/

/-- A type of values on a stream. -/
structure Kind (V α : Type) where
  put : α → V
  get : V → Option α
  get_eq_some_iff : ∀ v a, get v = some a ↔ v = put a

/-- Values that carry a tag for their type. -/
def Kind.tagged {ι : Type} [DecidableEq ι] (T : ι → Type) (i : ι) : Kind (Σ i, T i) (T i) where
  put a := ⟨i, a⟩
  get v := if h : v.1 = i then some (h ▸ v.2) else none
  get_eq_some_iff v a := by
    obtain ⟨j, b⟩ := v
    constructor
    · intro h
      split at h
      next heq =>
        subst heq
        cases h
        rfl
      next => cases h
    · rintro ⟨rfl, rfl⟩
      exact dif_pos rfl

/-- How all values of a request or a reply are written and read. -/
structure Format (V α : Type) where
  write : α → List V
  read : List V → Option α
  read_eq_some_iff : ∀ vs a, read vs = some a ↔ vs = write a

namespace Format

variable {V α β : Type}

theorem read_write (f : Format V α) (a : α) : f.read (f.write a) = some a :=
  (f.read_eq_some_iff _ a).mpr rfl

def empty : Format V Unit where
  write _ := []
  read
    | [] => some ()
    | _ => none
  read_eq_some_iff vs a := by
    cases vs with
    | nil => simp
    | cons v vs => simp

def one (k : Kind V α) : Format V α where
  write a := [k.put a]
  read
    | [v] => k.get v
    | _ => none
  read_eq_some_iff vs a := by
    match vs with
    | [] => simp
    | [v] => simpa using k.get_eq_some_iff v a
    | _ :: _ :: _ => simp

def two (k : Kind V α) (l : Kind V β) : Format V (α × β) where
  write ab := [k.put ab.1, l.put ab.2]
  read
    | [v, w] => (k.get v).bind fun a => (l.get w).map fun b => (a, b)
    | _ => none
  read_eq_some_iff vs ab := by
    match vs with
    | [] => simp
    | [_] => simp
    | _ :: _ :: _ :: _ => simp
    | [v, w] =>
        simp only [Option.bind_eq_some_iff, Option.map_eq_some_iff, k.get_eq_some_iff,
          l.get_eq_some_iff, List.cons.injEq, and_true]
        constructor
        · rintro ⟨a, ha, b, hb, rfl⟩
          exact ⟨ha, hb⟩
        · rintro ⟨ha, hb⟩
          exact ⟨ab.1, ha, ab.2, hb, rfl⟩

end Format

/-- `Ice::OperationMode`. -/
inductive Mode where
  | normal
  | nonmutating
  | idempotent
deriving DecidableEq, Repr

structure Incoming (V : Type) where
  operation : String
  mode : Mode
  params : List V
deriving DecidableEq, Repr

inductive Reply (V ε : Type) where
  | ok (values : List V)
  | userException (e : ε)
  | unknownException
  /-- The parameters could not be read, or the mode is wrong. -/
  | marshalException
  | operationNotExistException
  /-- No reply: the process of the servant is not there. -/
  | connectionLost
deriving DecidableEq, Repr

/-- The exceptions of a program: those that interfaces can declare, and those that
stand for all others at a caller. -/
structure Faults (ε : Type) where
  isUser : ε → Bool
  unknownUserException : ε
  unknownException : ε
  localException : ε

/-- An exception of a servant as its caller gets it. -/
def Faults.atCaller {ε : Type} [DecidableEq ε] (faults : Faults ε) (throws : List ε) (e : ε) : ε :=
  if e ∈ throws then e
  else if faults.isUser e then faults.unknownUserException
  else faults.unknownException

/-! ## One operation -/

/-- An operation of an interface, with the exceptions it declares. -/
structure Operation (V α β ε : Type) where
  name : String
  /-- The mode that a stub sends. -/
  mode : Mode
  /-- The modes that a skeleton takes. -/
  accepts : Mode → Bool
  params : Format V α
  result : Format V β
  throws : List ε

/-- The request for an operation. -/
def Operation.request {V α β ε : Type} (o : Operation V α β ε) (a : α) : Incoming V :=
  ⟨o.name, o.mode, o.params.write a⟩

/-- A request is for this operation with these arguments. -/
def Operation.Asks {V α β ε : Type} (o : Operation V α β ε) (request : Incoming V) (a : α) : Prop :=
  request.operation = o.name ∧ o.accepts request.mode = true ∧ request.params = o.params.write a

section Generated

variable {σ V α β ε : Type}

/-- What the stub makes of the reply.  The rules are those of Ice: a user exception that
the operation does not declare is an `UnknownUserException`, and any other exception of
the servant an unknown one, as is the failure to read the parameters there.  An operation
that does not exist and a lost connection are local exceptions. -/
def Operation.finish [DecidableEq ε] (o : Operation V α β ε) (faults : Faults ε) :
    Reply V ε → Except ε β
  | .ok values =>
      match o.result.read values with
      | some b => .ok b
      | none => .error faults.localException
  | .userException e => .error (if e ∈ o.throws then e else faults.unknownUserException)
  | .unknownException => .error faults.unknownException
  | .marshalException => .error faults.unknownException
  | .operationNotExistException => .error faults.localException
  | .connectionLost => .error faults.localException

/-- The stub: a call through `invoke`, which carries requests to an object. -/
def Operation.stub [DecidableEq ε] (o : Operation V α β ε) (faults : Faults ε)
    (invoke : Incoming V → σ → Reply V ε × σ) (a : α) (s : σ) : Except ε β × σ :=
  let (reply, s) := invoke (o.request a) s
  (o.finish faults reply, s)

/-- The reply to what a method returned.  By the rules of Ice a user exception goes into
the reply as it is, declared or not, and all others without their names. -/
def Operation.answer (o : Operation V α β ε) (faults : Faults ε) : Except ε β → Reply V ε
  | .ok b => .ok (o.result.write b)
  | .error e => if faults.isUser e then .userException e else .unknownException

/-- The skeleton: a request is served by `method`. -/
def Operation.skeleton (o : Operation V α β ε) (faults : Faults ε)
    (method : α → σ → Except ε β × σ) (request : Incoming V) (s : σ) : Reply V ε × σ :=
  if !o.accepts request.mode then (.marshalException, s)
  else
    match o.params.read request.params with
    | none => (.marshalException, s)
    | some a =>
        let (result, s) := method a s
        (o.answer faults result, s)

variable (o : Operation V α β ε) (faults : Faults ε)

/-- The exceptions on the way back. -/
theorem Operation.finish_answer [DecidableEq ε] (hthrows : ∀ e ∈ o.throws, faults.isUser e = true)
    (result : Except ε β) :
    o.finish faults (o.answer faults result) = result.mapError (faults.atCaller o.throws) := by
  cases result with
  | ok b =>
      rw [answer, finish, o.result.read_write]
      rfl
  | error e =>
      rw [answer, Except.mapError, Faults.atCaller]
      by_cases hmem : e ∈ o.throws
      · rw [if_pos (hthrows e hmem), finish, if_pos hmem, if_pos hmem]
      · rw [if_neg hmem]
        cases faults.isUser e with
        | true => rw [if_pos rfl, if_pos rfl, finish, if_neg hmem]
        | false => rw [if_neg Bool.false_ne_true, if_neg Bool.false_ne_true, finish]

variable {o} in
theorem Operation.skeleton_asked {request : Incoming V} {a : α} (h : o.Asks request a)
    (method : α → σ → Except ε β × σ) (s : σ) :
    o.skeleton faults method request s = (o.answer faults (method a s).1, (method a s).2) := by
  obtain ⟨-, hmode, hparams⟩ := h
  rw [skeleton, hmode, hparams, o.params.read_write]
  rfl

variable {o} in
/-- A request that is not for the operation leaves the servant as it is. -/
theorem Operation.skeleton_other {request : Incoming V} (hname : request.operation = o.name)
    (h : ∀ a, ¬ o.Asks request a) (method : α → σ → Except ε β × σ) (s : σ) :
    o.skeleton faults method request s = (.marshalException, s) := by
  rw [skeleton]
  cases hmode : o.accepts request.mode with
  | false => rfl
  | true =>
      cases hread : o.params.read request.params with
      | none => rfl
      | some a => exact absurd ⟨hname, hmode, (o.params.read_eq_some_iff _ a).mp hread⟩ (h a)

end Generated

/-! ## The operations of an interface -/

/-- An operation together with the method of the servant for it. -/
structure Served (σ V ε : Type) where
  {Args : Type}
  {Result : Type}
  operation : Operation V Args Result ε
  method : Args → σ → Except ε Result × σ

section Dispatch

variable {σ V ε : Type} (faults : Faults ε)

/-- The skeleton of one case. -/
def Served.serve (c : Served σ V ε) : Incoming V → σ → Reply V ε × σ :=
  c.operation.skeleton faults c.method

/-- Dispatch of a request, by the place of its operation among the sorted names. -/
def dispatch (all : List String) (cases : List (Served σ V ε)) (request : Incoming V) (s : σ) :
    Reply V ε × σ :=
  match Search.switch all cases request.operation with
  | some c => c.serve faults request s
  | none => (.operationNotExistException, s)

/-- The names of a table are those of its cases, and in order; the skeletons take what
the stubs send, and only user exceptions are declared. -/
structure Table (all : List String) (cases : List (Served σ V ε)) : Prop where
  names : all = cases.map (·.operation.name)
  sorted : all.Pairwise (· < ·)
  accepts : cases.all (fun c => c.operation.accepts c.operation.mode) = true
  declared : cases.all (fun c => c.operation.throws.all faults.isUser) = true

variable {faults} {all : List String} {cases : List (Served σ V ε)}

theorem Table.dispatch_mem (h : Table faults all cases) {c : Served σ V ε} (hc : c ∈ cases)
    {request : Incoming V} (hname : request.operation = c.operation.name) (s : σ) :
    dispatch faults all cases request s = c.serve faults request s := by
  obtain ⟨k, hk⟩ := List.getElem?_of_mem hc
  have hat : all[k]? = some request.operation := by
    rw [h.names, List.getElem?_map, hk, hname]
    rfl
  rw [dispatch, Search.switch_getElem? h.sorted hat, hk]

theorem Table.dispatch_missing (h : Table faults all cases) {request : Incoming V}
    (hname : ∀ c ∈ cases, request.operation ≠ c.operation.name) (s : σ) :
    dispatch faults all cases request s = (.operationNotExistException, s) := by
  have hmissing : request.operation ∉ all := by
    rw [h.names]
    intro hmem
    obtain ⟨c, hc, hcname⟩ := List.mem_map.mp hmem
    exact hname c hc hcname.symm
  rw [dispatch, Search.switch_of_not_mem hmissing]

/-- A request is served by the one method it is for, or it is refused. -/
theorem Table.dispatch_cases (h : Table faults all cases) (request : Incoming V) (s : σ) :
    (∃ c ∈ cases, ∃ a, c.operation.Asks request a ∧
      dispatch faults all cases request s =
        (c.operation.answer faults (c.method a s).1, (c.method a s).2)) ∨
    (∀ c ∈ cases, ∀ a, ¬ c.operation.Asks request a) ∧
      (dispatch faults all cases request s = (.marshalException, s) ∨
        dispatch faults all cases request s = (.operationNotExistException, s)) := by
  by_cases hasked : ∃ c ∈ cases, ∃ a, c.operation.Asks request a
  · obtain ⟨c, hc, a, ha⟩ := hasked
    have hserve := h.dispatch_mem hc ha.1 s
    exact Or.inl ⟨c, hc, a, ha, hserve.trans (Operation.skeleton_asked faults ha c.method s)⟩
  · have hnone : ∀ c ∈ cases, ∀ a, ¬ c.operation.Asks request a :=
      fun c hc a ha => hasked ⟨c, hc, a, ha⟩
    refine Or.inr ⟨hnone, ?_⟩
    by_cases hname : ∃ c ∈ cases, request.operation = c.operation.name
    · obtain ⟨c, hc, hname⟩ := hname
      have hserve := h.dispatch_mem hc hname s
      exact Or.inl (hserve.trans (Operation.skeleton_other faults hname (hnone c hc) c.method s))
    · exact Or.inr (h.dispatch_missing (fun c hc heq => hname ⟨c, hc, heq⟩) s)

/-- A call through a stub and the table is a call of the method. -/
theorem Table.stub_dispatch [DecidableEq ε] (h : Table faults all cases) {c : Served σ V ε}
    (hc : c ∈ cases) (a : c.Args) (s : σ) :
    c.operation.stub faults (dispatch faults all cases) a s =
      ((c.method a s).1.mapError (faults.atCaller c.operation.throws), (c.method a s).2) := by
  have haccepts := List.all_eq_true.mp h.accepts c hc
  have hthrows := List.all_eq_true.mp (List.all_eq_true.mp h.declared c hc)
  have hasks : c.operation.Asks (c.operation.request a) a := ⟨rfl, haccepts, rfl⟩
  rw [Operation.stub, h.dispatch_mem hc rfl s, Served.serve,
    Operation.skeleton_asked faults hasks]
  simp only [Operation.finish_answer c.operation faults hthrows]

end Dispatch

end Rso.Rpc
