import Mathlib.Logic.Function.Basic
import Rso.Lib.Runs
import Rso.Chat.Registry
import Rso.Chat.Connection

/-!
# Factory processes

The `main` of a factory makes three `Factory` objects, registers one, and waits for its
communicator to shut down.  At the end the three are destroyed in reverse order, and each
destructor calls `unregisterFactory`, two of them with a null proxy.

Here any number of such processes run beside the clients of the server, each at its own
point.  A call to the server may be served or not, and its caller need not get the answer.
An exception that nobody handles ends the process at once, without the destructors.
`factories_right` says what the server lists all the while.
-/

namespace Rso.Chat

open Runs
open Script (invoke)

/-- What the process calls. -/
inductive FactoryCall (P : Type) where
  /-- `Ice::initialize`. -/
  | iceInitialize
  /-- `ChatServerPrx::checkedCast`: whether the object is a chat server. -/
  | checkedCast
  | createObjectAdapterWithEndpoints
  | addWithUUID
  | add
  | activate
  | waitForShutdown
  | registerFactory (crf : Prx P)
  | unregisterFactory (crf : Prx P)

abbrev FactoryCall.Result {P : Type} : FactoryCall P → Type
  | .checkedCast => Bool
  | _ => Unit

/-- The members of a `Factory` that can be null. -/
structure Factory (P : Type) extends Connection where
  roomFactory : Prx P

namespace Factory

variable {P : Type}

abbrev Program (P α : Type) : Type := Script (FactoryCall.Result (P := P)) Exception α

def construct : Program P (Factory P) := do
  let x ← Connection.connect (invoke (FactoryCall.iceInitialize (P := P)))
    (invoke (FactoryCall.checkedCast (P := P)))
  return ⟨x, none⟩

/-- `own` is the object that the process makes; its constructor initializes a
communicator of its own. -/
def registerRoomFactory (own : P) (f : Factory P) : Program P (Factory P) := do
  invoke (FactoryCall.iceInitialize (P := P))
  f.iceCommunicator.through (invoke (FactoryCall.createObjectAdapterWithEndpoints (P := P)))
  invoke (FactoryCall.addWithUUID (P := P))
  let f := { f with roomFactory := some own }
  invoke (FactoryCall.add (P := P))
  invoke (FactoryCall.activate (P := P))
  f.server.through (invoke (FactoryCall.registerFactory f.roomFactory))
  invoke (FactoryCall.waitForShutdown (P := P))
  return f

def destructor (f : Factory P) : Program P Unit :=
  f.server.through (invoke (FactoryCall.unregisterFactory f.roomFactory))

def main (own : P) : Program P Unit := do
  let factory_one ← construct
  let factory_two ← construct
  let factory_three ← construct
  let factory_one ← registerRoomFactory own factory_one
  destructor factory_three
  destructor factory_two
  destructor factory_one

end Factory

/-! ## The processes and the server -/

/-- What becomes of a call. -/
inductive Fate where
  | answered
  /-- It was served, but its caller gets an exception. -/
  | unanswered (e : Exception)
  | refused (e : Exception)

def Fate.result : Fate → Except Exception Unit
  | .answered => .ok ()
  | .unanswered e => .error e
  | .refused e => .error e

def Fate.served : Fate → Bool
  | .refused _ => false
  | _ => true

/-- What comes back from a call; `found` is for `checkedCast`. -/
def FactoryCall.respond {P : Type} (fate : Fate) (found : Bool) :
    (c : FactoryCall P) → Except Exception c.Result
  | .checkedCast => fate.result.map fun _ => found
  | .iceInitialize => fate.result
  | .createObjectAdapterWithEndpoints => fate.result
  | .addWithUUID => fate.result
  | .add => fate.result
  | .activate => fate.result
  | .waitForShutdown => fate.result
  | .registerFactory _ => fate.result
  | .unregisterFactory _ => fate.result

/-- The server, and the rest of the program of each process. -/
structure Registration (P R : Type) where
  server : ChatServerImpl P R
  process : P → Factory.Program P Unit

/-- What happens next. -/
inductive Registration.Event (P R : Type) where
  /-- A process makes its next call. -/
  | proceed (p : P) (fate : Fate) (found : Bool)
  | kill (p : P)
  | newChatRoom (name : String) (replies : Replies P R)
  | getRoom (name : String)

/-- What of it is remembered. -/
inductive Registration.Note (P : Type) where
  | shutDown (p : P)
  | registered (p : P)
  | removed (p : P)
deriving DecidableEq

namespace Registration

variable {P R : Type} [DecidableEq P]

def start : Registration P R := ⟨.init, Factory.main⟩

/-- A call at the server. -/
def serve (server : ChatServerImpl P R) : FactoryCall P → ChatServerImpl P R
  | .registerFactory crf => server.registerFactory crf
  | .unregisterFactory crf => server.unregisterFactory crf
  | _ => server

def note (p : P) : Fate → FactoryCall P → Option (Note P)
  | .answered, .waitForShutdown => some (.shutDown p)
  | fate, .registerFactory (some f) => if fate.served then some (.registered f) else none
  | fate, .unregisterFactory (some f) => if fate.served then some (.removed f) else none
  | _, _ => none

def step (s : Registration P R) : Event P R → Registration P R × Option (Note P)
  | .proceed p fate found =>
      match s.process p with
      | .call c k =>
          (⟨if fate.served then serve s.server c else s.server,
            Function.update s.process p (k (c.respond fate found))⟩, note p fate c)
      | _ => (s, none)
  | .kill p => ({ s with process := Function.update s.process p (.pure ()) }, none)
  | .newChatRoom name replies =>
      ({ s with server := (s.server.newChatRoom replies name).2 }, none)
  | .getRoom name => ({ s with server := (s.server.getRoom name).2 }, none)

/-- What is remembered of these events. -/
def log (events : List (Event P R)) : List (Note P) := (answers step start events).filterMap id

/-- The factories that were registered, in order. -/
def registered (log : List (Note P)) : List P :=
  log.filterMap fun
    | .registered p => some p
    | _ => none

/-- The process makes no more calls. -/
def ended (s : Registration P R) (p : P) : Bool :=
  match s.process p with
  | .call _ _ => false
  | _ => true

end Registration

/-! ## What a process may do -/

/-- How far the registration of a factory has come. -/
inductive Stage where
  | fresh
  | listed
  | stopping
  | gone

namespace Factory

variable {P : Type}

/-- The calls that the process of `own` may make. -/
def Allowed (own : P) (g : Stage) : FactoryCall P → Prop
  | .registerFactory crf => g = .fresh ∧ crf = some own
  | .waitForShutdown => g = .listed
  | .unregisterFactory crf => crf = none ∨ crf = some own ∧ g = .stopping
  | _ => True

/-- What a call leads to.  One that is not answered may have been served. -/
def Leads (g : Stage) : (c : FactoryCall P) → Except Exception c.Result → Stage → Prop
  | .registerFactory _, r, g' => g' = .listed ∨ g' = .fresh ∧ ∃ e, r = .error e
  | .waitForShutdown, .ok _, g' => g' = .stopping
  | .waitForShutdown, .error _, g' => g' = g
  | .unregisterFactory (some _), r, g' => g' = .gone ∨ g' = g ∧ ∃ e, r = .error e
  | _, _, g' => g' = g

/-- The script keeps to what is allowed. -/
abbrev Keeps {α : Type} (own : P) (post : Stage → α → Prop) (p : Program P α) (g : Stage) : Prop :=
  p.Wp (Allowed own) Leads (fun g r => ∀ a, r = .ok a → post g a) g

/-- It does so and makes no call that has to do with the registration. -/
abbrev Stays {α : Type} (own : P) (post : α → Prop) (p : Program P α) (g : Stage) : Prop :=
  p.Wp (Allowed own) Leads (fun g' r => g' = g ∧ ∀ a, r = .ok a → post a) g

section Keeps

variable {α β : Type} {own : P} {g : Stage}

theorem Keeps.bind {post : Stage → α → Prop} {post' : Stage → β → Prop} {p : Program P α}
    {f : α → Program P β} (h : Keeps own post p g)
    (hrest : ∀ g a, post g a → Keeps own post' (f a) g) : Keeps own post' (p >>= f) g := by
  refine Script.wp_bind h (fun g' a ha => hrest g' a (ha a rfl)) fun g' e _ b hb => ?_
  cases hb

theorem Stays.keeps_bind {post : α → Prop} {post' : Stage → β → Prop} {p : Program P α}
    {f : α → Program P β} (h : Stays own post p g)
    (hrest : ∀ a, post a → Keeps own post' (f a) g) : Keeps own post' (p >>= f) g := by
  refine Script.wp_bind h (fun g' a ha => ?_) fun g' e _ b hb => ?_
  · obtain rfl := ha.1
    exact hrest a (ha.2 a rfl)
  · cases hb

theorem Stays.bind {post : α → Prop} {post' : β → Prop} {p : Program P α}
    {f : α → Program P β} (h : Stays own post p g)
    (hrest : ∀ a, post a → Stays own post' (f a) g) : Stays own post' (p >>= f) g := by
  refine Script.wp_bind h (fun g' a ha => ?_) fun g' e he => ⟨he.1, fun b hb => ?_⟩
  · obtain rfl := ha.1
    exact hrest a (ha.2 a rfl)
  · cases hb

theorem stays_pure {post : α → Prop} {a : α} (h : post a) :
    Stays own post (pure a : Program P α) g := by
  refine ⟨rfl, fun b hb => ?_⟩
  cases hb
  exact h

theorem stays_throw {post : α → Prop} (e : Exception) :
    Stays own post (throw e : Program P α) g := by
  refine ⟨rfl, fun b hb => ?_⟩
  cases hb

theorem stays_invoke {c : FactoryCall P} (hallowed : Allowed own g c)
    (hleads : ∀ r g', Leads g c r g' → g' = g) :
    Stays own (fun _ => True) (invoke c : Program P c.Result) g :=
  Script.wp_invoke hallowed fun r g' h => ⟨hleads r g' h, fun _ _ => trivial⟩

theorem stays_handling {post : α → Prop} {otherwise : α} {body : Program P α}
    (hbody : Stays own post body g) (hotherwise : post otherwise) :
    Stays own post (handlingIce otherwise body) g := by
  refine Script.wp_tryCatch hbody (fun _ _ h => h) fun g' e h => ?_
  obtain rfl := h.1
  split
  · exact stays_pure hotherwise
  · exact stays_throw e

theorem stays_through {post : α → Prop} {p : Prx Unit} {c : Program P α}
    (h : Stays own post c g) : Stays own post (p.through c) g := by
  cases p with
  | none => exact stays_throw _
  | some u => exact h

theorem keeps_through {post : Stage → α → Prop} {p : Prx Unit} {c : Program P α}
    (h : Keeps own post c g) : Keeps own post (p.through c) g := by
  cases p with
  | none =>
      intro a ha
      cases ha
  | some u => exact h

/-! ### The parts of `main` -/

theorem construct_stays : Stays own (fun f => f.roomFactory = none) construct g := by
  refine Stays.bind (?_ : Stays own (fun _ => True) _ g) fun x _ => stays_pure rfl
  refine stays_handling ?_ trivial
  refine Stays.bind (stays_invoke trivial fun _ _ h => h) fun _ _ => ?_
  refine stays_handling ?_ trivial
  refine Stays.bind (stays_invoke trivial fun _ _ h => h) fun found _ => ?_
  cases found with
  | true => exact stays_pure trivial
  | false => exact stays_throw _

/-- A `Factory` that has returned from `registerRoomFactory` holds its object's proxy. -/
theorem registerRoomFactory_keeps (f : Factory P) :
    Keeps own (fun g f' => g = .stopping ∧ f'.roomFactory = some own)
      (registerRoomFactory own f) .fresh := by
  refine Stays.keeps_bind (stays_invoke trivial fun _ _ h => h) fun _ _ => ?_
  refine Stays.keeps_bind (stays_through (stays_invoke trivial fun _ _ h => h)) fun _ _ => ?_
  refine Stays.keeps_bind (stays_invoke trivial fun _ _ h => h) fun _ _ => ?_
  refine Stays.keeps_bind (stays_invoke trivial fun _ _ h => h) fun _ _ => ?_
  refine Stays.keeps_bind (stays_invoke trivial fun _ _ h => h) fun _ _ => ?_
  have hregister : Keeps own (fun g _ => g = .listed)
      (invoke (FactoryCall.registerFactory (some own))) .fresh := by
    refine Script.wp_invoke ⟨rfl, rfl⟩ fun r g h a ha => ?_
    rcases h with hlisted | ⟨-, e, he⟩
    · exact hlisted
    · rw [he] at ha
      cases ha
  refine (keeps_through hregister).bind fun g _ hg => ?_
  subst hg
  have hwait : Keeps own (fun g _ => g = .stopping)
      (invoke (FactoryCall.waitForShutdown (P := P))) .listed := by
    refine Script.wp_invoke rfl fun r g h a ha => ?_
    rw [ha] at h
    exact h
  refine hwait.bind fun g _ hg a ha => ?_
  cases ha
  exact ⟨hg, rfl⟩

/-- A `Factory` that never registered unregisters a null proxy. -/
theorem destructor_stays {f : Factory P} (h : f.roomFactory = none) :
    Stays own (fun _ => True) (destructor f) g := by
  rw [destructor, h]
  exact stays_through (stays_invoke (Or.inl rfl) fun _ _ h => h)

theorem destructor_keeps {f : Factory P} (h : f.roomFactory = some own) :
    Keeps own (fun _ _ => True) (destructor f) .stopping := by
  rw [destructor, h]
  exact keeps_through (Script.wp_invoke (Or.inr ⟨rfl, rfl⟩) fun _ _ _ _ _ => trivial)

theorem main_keeps : Keeps own (fun _ _ => True) (main own) .fresh := by
  refine construct_stays.keeps_bind fun factory_one _ => ?_
  refine construct_stays.keeps_bind fun factory_two hnone_two => ?_
  refine construct_stays.keeps_bind fun factory_three hnone_three => ?_
  refine (registerRoomFactory_keeps factory_one).bind fun g registered h => ?_
  obtain ⟨rfl, hown⟩ := h
  refine (destructor_stays hnone_three).keeps_bind fun _ _ => ?_
  refine (destructor_stays hnone_two).keeps_bind fun _ _ => ?_
  exact destructor_keeps hown

end Keeps

end Factory

/-! ## The list and the log -/

namespace Registration

variable {P R : Type}

theorem registered_append (l l' : List (Note P)) :
    registered (l ++ l') = registered l ++ registered l' :=
  List.filterMap_append

theorem mem_registered {l : List (Note P)} {p : P} : p ∈ registered l ↔ .registered p ∈ l := by
  rw [registered, List.mem_filterMap]
  constructor
  · rintro ⟨n, hn, hp⟩
    cases n with
    | registered q =>
        cases hp
        exact hn
    | shutDown q => cases hp
    | removed q => cases hp
  · intro h
    exact ⟨_, h, rfl⟩

/-- What the log says of a factory whose registration has come this far. -/
def Recorded (l : List (Note P)) (p : P) : Stage → Prop
  | .fresh => .registered p ∉ l ∧ .removed p ∉ l
  | .listed => .registered p ∈ l ∧ .removed p ∉ l
  | .stopping => .registered p ∈ l ∧ .shutDown p ∈ l ∧ .removed p ∉ l
  | .gone => True

/-- A note of one process says nothing of another. -/
theorem Recorded.concat {l : List (Note P)} {p : P} {g : Stage} (h : Recorded l p g) {n : Note P}
    (hregistered : n ≠ .registered p) (hremoved : n ≠ .removed p) : Recorded (l ++ [n]) p g := by
  cases g with
  | fresh => simpa [Recorded, hregistered.symm, hremoved.symm] using h
  | listed => simpa [Recorded, hregistered.symm, hremoved.symm] using h
  | stopping =>
      refine ⟨List.mem_append_left _ h.1, List.mem_append_left _ h.2.1, ?_⟩
      simpa [hremoved.symm] using h.2.2
  | gone => trivial

variable [DecidableEq P]

/-- The list of the server has what the log says. -/
structure Accounts (roomFactoryList : List (Prx P)) (l : List (Note P)) : Prop where
  listed : roomFactoryList = ((registered l).filter fun p => .removed p ∉ l).map some
  once : (registered l).Nodup
  ordered : ∀ p before after, l = before ++ .removed p :: after →
    .registered p ∈ before ∧ .shutDown p ∈ before ∧ .removed p ∉ before

namespace Accounts

variable {roomFactoryList : List (Prx P)} {l : List (Note P)} {p : P}

theorem null_not_mem (h : Accounts roomFactoryList l) : none ∉ roomFactoryList := by
  rw [h.listed]
  simp

theorem mem (h : Accounts roomFactoryList l) :
    some p ∈ roomFactoryList ↔ .registered p ∈ l ∧ .removed p ∉ l := by
  simp [h.listed, mem_registered]

/-- A removal in a log with one more note is an old one, or it is that note. -/
theorem ordered_concat (h : Accounts roomFactoryList l) {n : Note P}
    (hn : ∀ p, n = .removed p → .registered p ∈ l ∧ .shutDown p ∈ l ∧ .removed p ∉ l) :
    ∀ p before after, l ++ [n] = before ++ .removed p :: after →
      .registered p ∈ before ∧ .shutDown p ∈ before ∧ .removed p ∉ before := by
  intro p before after he
  rcases List.eq_nil_or_concat after with rfl | ⟨after, m, rfl⟩
  · obtain ⟨rfl, hp⟩ := List.append_inj' he rfl
    exact hn p (List.singleton_inj.mp hp)
  · have hold : l ++ [n] = (before ++ .removed p :: after) ++ [m] := by
      rw [he, List.append_assoc, List.cons_append, List.concat_eq_append]
    exact h.ordered p before after (List.append_inj' hold rfl).1

theorem shutDown (h : Accounts roomFactoryList l) :
    Accounts roomFactoryList (l ++ [.shutDown p]) := by
  have hsame : registered (l ++ [.shutDown p]) = registered l := by
    rw [registered_append]
    exact List.append_nil _
  refine ⟨?_, ?_, h.ordered_concat fun q hq => by cases hq⟩
  · rw [hsame, h.listed]
    simp
  · rw [hsame]
    exact h.once

theorem register (h : Accounts roomFactoryList l) (hnew : .registered p ∉ l)
    (hkept : .removed p ∉ l) :
    Accounts (roomFactoryList ++ [some p]) (l ++ [.registered p]) := by
  have hmore : registered (l ++ [.registered p]) = registered l ++ [p] := registered_append _ _
  refine ⟨?_, ?_, h.ordered_concat fun q hq => by cases hq⟩
  · rw [hmore, h.listed]
    simp [hkept]
  · rw [hmore]
    refine List.nodup_append.mpr ⟨h.once, List.pairwise_singleton .., fun q hq r hr he => ?_⟩
    obtain rfl := List.mem_singleton.mp hr
    exact hnew (mem_registered.mp (he ▸ hq))

theorem remove (h : Accounts roomFactoryList l) (hregistered : .registered p ∈ l)
    (hshut : .shutDown p ∈ l) (hkept : .removed p ∉ l) :
    Accounts (roomFactoryList.filter fun f => !(f == some p)) (l ++ [.removed p]) := by
  have hsame : registered (l ++ [.removed p]) = registered l := by
    rw [registered_append]
    exact List.append_nil _
  refine ⟨?_, ?_, h.ordered_concat fun q hq => ?_⟩
  · rw [hsame, h.listed, List.filter_map, List.filter_filter]
    congr 1
    refine List.filter_congr fun q _ => ?_
    by_cases hq : q = p
    · simp [hq]
    · simp [hq]
  · rw [hsame]
    exact h.once
  · cases hq
    exact ⟨hregistered, hshut, hkept⟩

end Accounts

/-! ## What the processes keep -/

/-- The server's list agrees with the log, and each process with what is recorded of its
factory. -/
structure Inv (s : Registration P R) (l : List (Note P)) : Prop where
  accounts : Accounts s.server.roomFactoryList l
  process : ∀ p, ∃ g, Factory.Keeps p (fun _ _ => True) (s.process p) g ∧ Recorded l p g

theorem start_inv : Inv (start : Registration P R) [] := by
  refine ⟨⟨rfl, List.nodup_nil, fun p before after he => ?_⟩, fun p => ?_⟩
  · cases before <;> cases he
  · exact ⟨.fresh, Factory.main_keeps, by simp [Recorded]⟩

theorem unregisterFactory_null {server : ChatServerImpl P R}
    (h : none ∉ server.roomFactoryList) :
    (server.unregisterFactory none).roomFactoryList = server.roomFactoryList := by
  refine (ChatServerImpl.eraseFactory_eq none [] _).trans ?_
  refine List.filter_eq_self.mpr fun f hf => ?_
  cases f with
  | none => exact absurd hf h
  | some f => rfl

/-- What a call that is allowed may do: nothing to the registration, or the next thing in
it. -/
theorem call_cases {p : P} {g : Stage} {c : FactoryCall P} {server : ChatServerImpl P R}
    (hallowed : Factory.Allowed p g c) (hnull : none ∉ server.roomFactoryList) (fate : Fate)
    (found : Bool) {server' : ChatServerImpl P R}
    (hserver : server' = if fate.served then serve server c else server) :
    (note p fate c = none ∧ server'.roomFactoryList = server.roomFactoryList ∧
        Factory.Leads g c (c.respond fate found) g) ∨
      (note p fate c = some (.registered p) ∧
        server'.roomFactoryList = server.roomFactoryList ++ [some p] ∧ g = .fresh ∧
        Factory.Leads g c (c.respond fate found) .listed) ∨
      (note p fate c = some (.shutDown p) ∧ server'.roomFactoryList = server.roomFactoryList ∧
        g = .listed ∧ Factory.Leads g c (c.respond fate found) .stopping) ∨
      (note p fate c = some (.removed p) ∧
        server'.roomFactoryList = (server.roomFactoryList.filter fun f => !(f == some p)) ∧
        g = .stopping ∧ Factory.Leads g c (c.respond fate found) .gone) := by
  subst hserver
  have hquiet : ∀ same : serve server c = server,
      (if fate.served then serve server c else server).roomFactoryList =
        server.roomFactoryList := by
    intro same
    rw [same, ite_self]
  cases c with
  | iceInitialize | checkedCast | createObjectAdapterWithEndpoints | addWithUUID | add | activate =>
      exact Or.inl ⟨by cases fate <;> rfl, hquiet rfl, rfl⟩
  | waitForShutdown =>
      cases fate with
      | answered => exact Or.inr (Or.inr (Or.inl ⟨rfl, rfl, hallowed, rfl⟩))
      | unanswered e => exact Or.inl ⟨rfl, rfl, rfl⟩
      | refused e => exact Or.inl ⟨rfl, rfl, rfl⟩
  | registerFactory crf =>
      obtain ⟨rfl, rfl⟩ := hallowed
      cases fate with
      | answered => exact Or.inr (Or.inl ⟨rfl, rfl, rfl, Or.inl rfl⟩)
      | unanswered e => exact Or.inr (Or.inl ⟨rfl, rfl, rfl, Or.inl rfl⟩)
      | refused e => exact Or.inl ⟨rfl, rfl, Or.inr ⟨rfl, e, rfl⟩⟩
  | unregisterFactory crf =>
      rcases hallowed with rfl | ⟨rfl, rfl⟩
      · refine Or.inl ⟨by cases fate <;> rfl, ?_, rfl⟩
        split
        · exact unregisterFactory_null hnull
        · rfl
      · have herase := ChatServerImpl.eraseFactory_eq (some p) [] server.roomFactoryList
        cases fate with
        | answered => exact Or.inr (Or.inr (Or.inr ⟨rfl, herase, rfl, Or.inl rfl⟩))
        | unanswered e => exact Or.inr (Or.inr (Or.inr ⟨rfl, herase, rfl, Or.inl rfl⟩))
        | refused e => exact Or.inl ⟨rfl, rfl, Or.inr ⟨rfl, e, rfl⟩⟩

/-- One process goes on, and what the log says of the others stays. -/
theorem Inv.update {s : Registration P R} {l l' : List (Note P)} (h : Inv s l) {p : P}
    {rest : Factory.Program P Unit} {g : Stage} (hrest : Factory.Keeps p (fun _ _ => True) rest g)
    (hrecorded : Recorded l' p g) (hothers : ∀ q ≠ p, ∀ g, Recorded l q g → Recorded l' q g)
    {server : ChatServerImpl P R} (haccounts : Accounts server.roomFactoryList l') :
    Inv ⟨server, Function.update s.process p rest⟩ l' := by
  refine ⟨haccounts, fun q => ?_⟩
  by_cases hq : q = p
  · subst hq
    refine ⟨g, ?_, hrecorded⟩
    show Factory.Keeps q _ (Function.update s.process q rest q) g
    rwa [Function.update_self]
  · obtain ⟨g', hkeeps, hother⟩ := h.process q
    refine ⟨g', ?_, hothers q hq g' hother⟩
    show Factory.Keeps q _ (Function.update s.process p rest q) g'
    rwa [Function.update_of_ne hq]

/-- A call of a process. -/
theorem Inv.proceed {s : Registration P R} {l : List (Note P)} (h : Inv s l) {p : P}
    {c : FactoryCall P} {k : Except Exception c.Result → Factory.Program P Unit}
    (hcall : s.process p = .call c k) (fate : Fate) (found : Bool) :
    Inv ⟨if fate.served then serve s.server c else s.server,
      Function.update s.process p (k (c.respond fate found))⟩ (l ++ (note p fate c).toList) := by
  obtain ⟨g, hkeeps, hrecorded⟩ := h.process p
  rw [hcall] at hkeeps
  obtain ⟨hallowed, hrest⟩ := hkeeps
  rcases call_cases hallowed h.accounts.null_not_mem fate found rfl with
    ⟨hnote, hlist, hleads⟩ | ⟨hnote, hlist, rfl, hleads⟩ | ⟨hnote, hlist, rfl, hleads⟩ |
      ⟨hnote, hlist, rfl, hleads⟩
  · rw [hnote, Option.toList_none, List.append_nil]
    exact h.update (hrest _ _ hleads) hrecorded (fun _ _ _ hq => hq) (hlist ▸ h.accounts)
  · rw [hnote, Option.toList_some]
    refine h.update (hrest _ _ hleads) ?_ (fun q hq g' hother => ?_) ?_
    · exact ⟨by simp, by simpa using hrecorded.2⟩
    · exact hother.concat (by simpa using Ne.symm hq) (by simp)
    · exact hlist ▸ h.accounts.register hrecorded.1 hrecorded.2
  · rw [hnote, Option.toList_some]
    refine h.update (hrest _ _ hleads) ?_ (fun q hq g' hother => ?_) ?_
    · exact ⟨by simpa using hrecorded.1, by simp, by simpa using hrecorded.2⟩
    · exact hother.concat (by simp) (by simp)
    · exact hlist ▸ h.accounts.shutDown
  · rw [hnote, Option.toList_some]
    refine h.update (hrest _ _ hleads) trivial (fun q hq g' hother => ?_) ?_
    · exact hother.concat (by simp) (by simpa using Ne.symm hq)
    · exact hlist ▸ h.accounts.remove hrecorded.1 hrecorded.2.1 hrecorded.2.2

/-- A process makes its next call, or it has none to make. -/
theorem proceed_cases (s : Registration P R) (p : P) (fate : Fate) (found : Bool) :
    (∃ c k, s.process p = .call c k ∧ step s (.proceed p fate found) =
      (⟨if fate.served then serve s.server c else s.server,
        Function.update s.process p (k (c.respond fate found))⟩, note p fate c)) ∨
      step s (.proceed p fate found) = (s, none) := by
  cases hp : s.process p with
  | call c k =>
      refine Or.inl ⟨c, k, rfl, ?_⟩
      rw [step, hp]
  | pure a =>
      refine Or.inr ?_
      rw [step, hp]
  | throw e =>
      refine Or.inr ?_
      rw [step, hp]

theorem step_inv {s : Registration P R} {l : List (Note P)} (h : Inv s l) (e : Event P R) :
    Inv (step s e).1 (l ++ (step s e).2.toList) := by
  cases e with
  | proceed p fate found =>
      rcases proceed_cases s p fate found with ⟨c, k, hp, hstep⟩ | hstep
      · rw [hstep]
        exact h.proceed hp fate found
      · rw [hstep, Option.toList_none, List.append_nil]
        exact h
  | kill p =>
      obtain ⟨g, -, hrecorded⟩ := h.process p
      simp only [step, Option.toList_none, List.append_nil]
      have hdone : Factory.Keeps p (fun _ _ => True) (.pure ()) g := fun _ _ => trivial
      exact h.update hdone hrecorded (fun _ _ _ hq => hq) h.accounts
  | newChatRoom name replies =>
      simp only [step, Option.toList_none, List.append_nil]
      refine ⟨?_, h.process⟩
      rcases ChatServerImpl.newChatRoom_cases replies s.server name with ⟨e, he⟩ | ⟨room, hroom, -⟩
      · rw [he]
        exact h.accounts
      · rw [hroom]
        exact h.accounts
  | getRoom name =>
      simp only [step, Option.toList_none, List.append_nil]
      refine ⟨?_, h.process⟩
      rw [ChatServerImpl.getRoom_factories]
      exact h.accounts

/-- What is remembered of these events, from any state on. -/
def notes (s : Registration P R) (events : List (Event P R)) : List (Note P) :=
  (answers step s events).filterMap id

theorem notes_cons (s : Registration P R) (e : Event P R) (events : List (Event P R)) :
    notes s (e :: events) = (step s e).2.toList ++ notes (step s e).1 events := by
  rw [notes, answers_cons, List.filterMap_cons]
  cases (step s e).2 <;> rfl

theorem run_inv :
    ∀ (events : List (Event P R)) {s : Registration P R} {l : List (Note P)}, Inv s l →
      Inv (run step s events) (l ++ notes s events) := by
  intro events
  induction events with
  | nil =>
      intro s l h
      rw [run_nil, notes, answers_nil, List.filterMap_nil, List.append_nil]
      exact h
  | cons e events ih =>
      intro s l h
      rw [run_cons, notes_cons, ← List.append_assoc]
      exact ih (step_inv h e)

/-! ## A process that has ended -/

theorem ended_update (s : Registration P R) (server : ChatServerImpl P R) {p q : P}
    (rest : Factory.Program P Unit) (h : p ≠ q) :
    ended ⟨server, Function.update s.process q rest⟩ p = s.ended p := by
  unfold ended
  dsimp only
  rw [Function.update_of_ne h]

omit [DecidableEq P] in
theorem ne_of_ended {s : Registration P R} {p q : P} {c : FactoryCall P}
    {k : Except Exception c.Result → Factory.Program P Unit} (hended : s.ended p = true)
    (hcall : s.process q = .call c k) : p ≠ q := by
  rintro rfl
  rw [ended, hcall] at hended
  cases hended

theorem step_ended {s : Registration P R} {p : P} (hended : s.ended p = true) (e : Event P R) :
    (step s e).1.ended p = true := by
  cases e with
  | proceed q fate found =>
      rcases proceed_cases s q fate found with ⟨c, k, hq, hstep⟩ | hstep
      · rw [hstep]
        exact (ended_update s _ _ (ne_of_ended hended hq)).trans hended
      · rw [hstep]
        exact hended
  | kill q =>
      by_cases hpq : p = q
      · subst hpq
        simp [step, ended]
      · exact (ended_update s _ _ hpq).trans hended
  | newChatRoom name replies => exact hended
  | getRoom name => exact hended

/-- Nobody else removes the factory of a process that has ended. -/
theorem step_not_removed {s : Registration P R} {l : List (Note P)} (h : Inv s l) {p : P}
    (hended : s.ended p = true) (e : Event P R) : .removed p ∉ (step s e).2.toList := by
  cases e with
  | proceed q fate found =>
      rcases proceed_cases s q fate found with ⟨c, k, hq, hstep⟩ | hstep
      · obtain ⟨g, hkeeps, -⟩ := h.process q
        rw [hq] at hkeeps
        rw [hstep]
        rcases call_cases hkeeps.1 h.accounts.null_not_mem fate found rfl with
          ⟨hnote, -⟩ | ⟨hnote, -⟩ | ⟨hnote, -⟩ | ⟨hnote, -⟩
        · simp [hnote]
        · simp [hnote]
        · simp [hnote]
        · simpa [hnote] using ne_of_ended hended hq
      · simp [hstep]
  | kill q => simp [step]
  | newChatRoom name replies => simp [step]
  | getRoom name => simp [step]

theorem notes_not_removed {p : P} :
    ∀ (events : List (Event P R)) {s : Registration P R} {l : List (Note P)}, Inv s l →
      s.ended p = true → .removed p ∉ notes s events := by
  intro events
  induction events with
  | nil =>
      intro s l _ _ h
      cases h
  | cons e events ih =>
      intro s l h hended hmem
      rw [notes_cons] at hmem
      rcases List.mem_append.mp hmem with hnow | hlater
      · exact step_not_removed h hended e hnow
      · exact ih (step_inv h e) (step_ended hended e) hlater

theorem log_inv (events : List (Event P R)) :
    Inv (run step start events : Registration P R) (log events) :=
  run_inv events start_inv

/-- A factory that is listed when its process has ended stays in the list. -/
theorem stays_listed (events : List (Event P R)) {p : P}
    (hended : (run step start events).ended p = true)
    (hlisted : some p ∈ (run step start events).server.roomFactoryList)
    (more : List (Event P R)) :
    some p ∈ (run step start (events ++ more)).server.roomFactoryList := by
  have hinv := log_inv events
  obtain ⟨hregistered, hkept⟩ := hinv.accounts.mem.mp hlisted
  rw [run_append]
  refine (run_inv more hinv).accounts.mem.mpr ⟨List.mem_append_left _ hregistered, ?_⟩
  rw [List.mem_append, not_or]
  exact ⟨hkept, notes_not_removed more hinv hended⟩

/-- Whatever happens, the server lists the factories that were registered and not removed:
in order, each once, and no null proxy.  A factory is removed at most once, and only after
the communicator of its process has shut down.  When a process has ended without having
removed its factory, that factory stays in the list for good. -/
theorem factories_right (events : List (Event P R)) :
    (run step start events).server.roomFactoryList =
        ((registered (log events)).filter fun p => .removed p ∉ log events).map some ∧
      (registered (log events)).Nodup ∧
      (∀ p before after, log events = before ++ .removed p :: after →
        .registered p ∈ before ∧ .shutDown p ∈ before ∧ .removed p ∉ before) ∧
      ∀ p more, (run step start events).ended p = true →
        some p ∈ (run step start events).server.roomFactoryList →
        some p ∈ (run step start (events ++ more)).server.roomFactoryList := by
  have hinv := log_inv events
  refine ⟨hinv.accounts.listed, hinv.accounts.once, hinv.accounts.ordered, ?_⟩
  intro p more hended hlisted
  exact stays_listed events hended hlisted more

/-! ## The server with a dead factory -/

omit [DecidableEq P] in
/-- The selection loop does not get past a factory that does not answer. -/
theorem selectFactory_unanswered {getNumberOfRooms : ℕ → P → Except Exception Int} {p : P}
    (hdead : ∀ index, ∃ e, getNumberOfRooms index p = .error e) :
    ∀ (roomFactoryList : List (Prx P)) (index minIndex : ℕ), some p ∈ roomFactoryList →
      ∃ e, ChatServerImpl.selectFactory getNumberOfRooms 0 roomFactoryList index minIndex =
        .error e := by
  intro roomFactoryList
  induction roomFactoryList with
  | nil =>
      intro index minIndex h
      cases h
  | cons f rest ih =>
      intro index minIndex h
      rw [ChatServerImpl.selectFactory]
      rcases List.mem_cons.mp h with rfl | hrest
      · obtain ⟨e, he⟩ := hdead index
        rw [Prx.call, he]
        exact ⟨e, rfl⟩
      · cases f.call (getNumberOfRooms index) with
        | error e => exact ⟨e, rfl⟩
        | ok n => exact ih _ _ hrest

/-- When a process has ended and its factory is listed, no room is made any more: from then
on every `newChatRoom` raises and leaves the server as it is. -/
theorem newChatRoom_blocked (events : List (Event P R)) {p : P}
    (hended : (run step start events).ended p = true)
    (hlisted : some p ∈ (run step start events).server.roomFactoryList)
    (more : List (Event P R)) (name : String) {replies : Replies P R}
    (hdead : ∀ index, ∃ e, replies.getNumberOfRooms index p = .error e) :
    ∃ e, (run step start (events ++ more)).server.newChatRoom replies name =
      (.error e, (run step start (events ++ more)).server) := by
  have hlist := stays_listed events hended hlisted more
  generalize (run step start (events ++ more)).server = server at hlist
  obtain ⟨e, hselect⟩ := selectFactory_unanswered hdead server.roomFactoryList 0 0 hlist
  rw [ChatServerImpl.newChatRoom, hselect]
  split
  next => exact ⟨_, rfl⟩
  next =>
    split
    next => exact ⟨_, rfl⟩
    next => exact ⟨e, rfl⟩

/-- The first process registers its factory and is killed; the second one goes on. -/
def firstKilled : List (Event ℕ ℕ) :=
  List.replicate 12 (.proceed 0 .answered true) ++ [.kill 0]

theorem newChatRoom_blocked_firstKilled :
    let s := run step start (firstKilled ++ List.replicate 12 (.proceed 1 .answered true))
    ∃ e, s.server.newChatRoom (ChatServerImpl.onlyAlive 1) "tea" = (.error e, s.server) :=
  have hdead : ∀ index, ∃ e, (ChatServerImpl.onlyAlive 1).getNumberOfRooms index 0 = .error e :=
    fun _ => ⟨_, rfl⟩
  newChatRoom_blocked firstKilled (by decide) (by decide) _ "tea" hdead

end Registration

end Rso.Chat
