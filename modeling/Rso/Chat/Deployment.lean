import Rso.Chat.Handlers

/-!
# Clients at work

A deployment is the world and any number of clients in it, each at its menu, in
the middle of an action, or gone.  A `Move` starts an action of a client, lets it
make its next call, or ends its process from outside, and factories come and go.
So the calls of different clients are interleaved in every order.

An exception that no handler takes leaves `main` and ends the process
(`Activity.down`).  That should never happen (`Returning`).  It happens exactly
when a message is sent that some party is not ready for (`Ready`): the room does
not list the sender, or one of those it goes to has died or is a null proxy.
-/

namespace Rso.Chat

open Runs

/-- Where the process of a client stands. -/
inductive Activity (I : Type) where
  | menu
  | busy (rest : Program I (Client I))
  /-- An exception left the action and ended the process. -/
  | down (e : Exception)
  /-- The process was ended from outside. -/
  | dead

/-- The world and the clients in it. -/
structure Deployment (I : Type) where
  world : World I
  clients : I → Client I
  activity : I → Activity I

/-- What happens next. -/
inductive Move (I : Type) where
  | choose (i : I) (a : Client.Action)
  /-- The next call of a client, with what Ice gives if it makes a room. -/
  | proceed (i : I) (ice : Creation)
  | die (i : I)
  | registerRoomFactory
  | unregisterFactory (f : Nat)

namespace Deployment

variable {I : Type} [DecidableEq I]

/-- Every client at its menu, and no room yet. -/
def start (username : I → String) : Deployment I :=
  ⟨.init, fun i => ⟨username i, some i, []⟩, fun _ => .menu⟩

/-- The end of a client's process. -/
def stop (d : Deployment I) (i : I) (how : Activity I) : Deployment I :=
  { d with
    world := { d.world with alive := Function.update d.world.alive i false }
    activity := Function.update d.activity i how }

/-- A client goes on with a program: to its next call, or to the end. -/
def settle (d : Deployment I) (i : I) : Program I (Client I) → Deployment I
  | .pure c =>
      { d with
        clients := Function.update d.clients i c
        activity := Function.update d.activity i .menu }
  | .throw e => d.stop i (.down e)
  | .call c k => { d with activity := Function.update d.activity i (.busy (.call c k)) }

/-- A client makes its next call. -/
def proceed (d : Deployment I) (i : I) (ice : Creation) : Deployment I :=
  match d.activity i with
  | .busy (.call c k) =>
      let (r, world) := World.handle ice c d.world
      { d with world := world }.settle i (k r)
  | _ => d

def step (d : Deployment I) : Move I → Deployment I × Unit
  | .choose i a =>
      match d.activity i with
      | .menu => (d.settle i ((d.clients i).act a), ())
      | _ => (d, ())
  | .proceed i ice => (d.proceed i ice, ())
  | .die i =>
      match d.activity i with
      | .menu | .busy _ => (d.stop i .dead, ())
      | _ => (d, ())
  | .registerRoomFactory => ({ d with world := d.world.registerRoomFactory }, ())
  | .unregisterFactory f => ({ d with world := d.world.unregisterFactory f }, ())

/-- The first `n` calls of a client, with what Ice gives in each. -/
def proceeds (i : I) (ices : Nat → Creation) (n : Nat) : List (Move I) :=
  (List.range n).map fun k => .proceed i (ices k)

omit [DecidableEq I] in
@[simp] theorem proceeds_zero (i : I) (ices : Nat → Creation) : proceeds i ices 0 = [] := rfl

omit [DecidableEq I] in
theorem proceeds_succ (i : I) (ices : Nat → Creation) (n : Nat) :
    proceeds i ices (n + 1) = .proceed i (ices 0) :: proceeds i (fun k => ices (k + 1)) n := by
  rw [proceeds, List.range_succ_eq_map, List.map_cons, List.map_map]
  rfl

/-- Every action returns to the menu: no exception has left one, and an action
that is under way comes to its end when it is let go on. -/
structure Returning (d : Deployment I) : Prop where
  caught : ∀ i e, d.activity i ≠ .down e
  ends : ∀ i (ices : Nat → Creation), ∃ n, ∀ p,
    (run step d (proceeds i ices n)).activity i ≠ .busy p

/-- If a message is sent next, every party to it is ready. -/
def Ready (d : Deployment I) : Move I → Prop
  | .proceed i _ => ∀ c k, d.activity i = .busy (.call c k) → c.GoesThrough d.world
  | _ => True

/-! ## Where the clients stand -/

/-- A client at its menu has recorded rooms that are listed.  A client in an
action has its next call before it, and ends the action safely. -/
def Standing (keys : List String) (c : Client I) : Activity I → Prop
  | .menu => c.joined ⊆ keys
  | .busy p =>
      ∃ (call : Remote I) (k : Except Exception call.Result → Program I (Client I)),
        p = .call call k ∧
          Safe Never FromIce (fun v c' => c'.joined ⊆ v.known) p ⟨keys, False⟩
  | _ => True

/-- The server is wired, and every client stands on what it lists. -/
structure Inv (d : Deployment I) (dir : Directory Nat) : Prop where
  wired : World.Wired d.world dir
  standing : ∀ i, Standing dir.keys (d.clients i) (d.activity i)

omit [DecidableEq I] in
theorem start_inv (username : I → String) : Inv (start username) .empty :=
  ⟨World.init_wired, fun _ => List.nil_subset _⟩

omit [DecidableEq I] in
/-- New rooms on the server's list do no client any harm. -/
theorem Standing.mono {keys keys' : List String} (hkeys : keys ⊆ keys') {c : Client I}
    {a : Activity I} (h : Standing keys c a) : Standing keys' c a := by
  cases a with
  | menu => exact List.Subset.trans h hkeys
  | busy p =>
      obtain ⟨call, k, rfl, hsafe⟩ := h
      refine ⟨call, k, rfl, Script.Wp.rely hsafe (fun hallowed => hallowed) ?_⟩
      intro r v ha
      refine ⟨List.Subset.trans hkeys ha.known, ha.failed, ha.raised, ?_⟩
      have hlocated := ha.located
      cases call with
      | getRoom name =>
          refine ⟨hlocated.1, fun e he hname => ?_⟩
          exact hlocated.2 e he (hkeys hname)
      | _ => trivial
  | down e => trivial
  | dead => trivial

/-- One client moves on, and the others stand where they stood. -/
theorem standing_update {keys : List String} {clients : I → Client I} {activity : I → Activity I}
    {i : I} {a : Activity I} (hi : Standing keys (clients i) a)
    (hothers : ∀ j, j ≠ i → Standing keys (clients j) (activity j)) :
    ∀ j, Standing keys (clients j) (Function.update activity i a j) :=
  (Function.forall_update_iff activity fun j a => Standing keys (clients j) a).mpr ⟨hi, hothers⟩

/-- A client that goes on safely stands well again.  It is down exactly when a
message of its failed. -/
theorem inv_settle {d : Deployment I} {dir : Directory Nat} {i : I} {p : Program I (Client I)}
    {failed : Prop} (hwired : World.Wired d.world dir)
    (hothers : ∀ j, j ≠ i → Standing dir.keys (d.clients j) (d.activity j))
    (hp : Safe Never FromIce (fun v c' => c'.joined ⊆ v.known) p ⟨dir.keys, failed⟩) :
    Inv (d.settle i p) dir ∧ ((∃ e, (d.settle i p).activity i = .down e) ↔ failed) := by
  cases p with
  | pure c =>
      obtain ⟨hquiet, hjoined⟩ := hp
      refine ⟨⟨hwired, fun j => ?_⟩, ?_⟩
      · rcases eq_or_ne j i with rfl | hj
        · simp only [settle, Function.update_self]
          exact hjoined
        · simp only [settle, Function.update_of_ne hj]
          exact hothers j hj
      · simpa [settle] using hquiet
  | throw e =>
      have hfailed : failed := (hp.resolve_left fun h => h.2).1
      refine ⟨⟨hwired.frame rfl (Nat.le_refl _), ?_⟩, ?_⟩
      · exact standing_update trivial hothers
      · simp [settle, stop, hfailed]
  | call c k =>
      have hquiet : failed = False := eq_false hp.1.1
      subst hquiet
      refine ⟨⟨hwired, ?_⟩, ?_⟩
      · exact standing_update ⟨c, k, rfl, hp⟩ hothers
      · simp [settle]

theorem settle_activity_of_ne (d : Deployment I) {i j : I} (h : j ≠ i)
    (p : Program I (Client I)) : (d.settle i p).activity j = d.activity j := by
  cases p with
  | pure c => exact Function.update_of_ne h ..
  | throw e => exact Function.update_of_ne h ..
  | call c k => exact Function.update_of_ne h ..

/-- The clients that are down after a step were down before it. -/
def KeepsUp (before after : Deployment I) : Prop :=
  ∀ i e, after.activity i = .down e → ∃ e', before.activity i = .down e'

theorem keepsUp_settle_iff (before : Deployment I) {d : Deployment I} {i : I}
    {p : Program I (Client I)} (hsame : d.activity = before.activity)
    (hi : ∀ e, before.activity i ≠ .down e) :
    KeepsUp before (d.settle i p) ↔ ¬ ∃ e, (d.settle i p).activity i = .down e := by
  constructor
  · rintro h ⟨e, he⟩
    obtain ⟨e', he'⟩ := h i e he
    exact hi e' he'
  · intro h j e he
    rcases eq_or_ne j i with rfl | hj
    · exact absurd ⟨e, he⟩ h
    · rw [settle_activity_of_ne _ hj, hsame] at he
      exact ⟨e, he⟩

omit [DecidableEq I] in
/-- A step that leaves the clients as they are. -/
theorem keepsUp_refl (d : Deployment I) : KeepsUp d d := fun _ e he => ⟨e, he⟩

theorem Inv.stop {d : Deployment I} {dir : Directory Nat} (h : Inv d dir) (i : I) :
    Inv (d.stop i .dead) dir ∧ KeepsUp d (d.stop i .dead) := by
  refine ⟨⟨h.wired.frame rfl (Nat.le_refl _), ?_⟩, fun j e he => ?_⟩
  · exact standing_update trivial fun j _ => h.standing j
  · rcases eq_or_ne j i with rfl | hj
    · simp [Deployment.stop] at he
    · simp only [Deployment.stop, Function.update_of_ne hj] at he
      exact ⟨e, he⟩

omit [DecidableEq I] in
theorem ready_proceed_iff {d : Deployment I} {i : I} {c : Remote I}
    {k : Except Exception c.Result → Program I (Client I)} (hi : d.activity i = .busy (.call c k))
    (ice : Creation) : Ready d (.proceed i ice) ↔ c.GoesThrough d.world := by
  constructor
  · intro hready
    exact hready c k hi
  · intro hc c' k' hi'
    rw [hi] at hi'
    cases hi'
    exact hc

/-- A client's next call, with the exceptions that may reach it. -/
theorem Inv.proceed {d : Deployment I} {dir : Directory Nat} (h : Inv d dir) (i : I)
    (ice : Creation) :
    (∃ dir', Inv (d.proceed i ice) dir') ∧
      (Ready d (.proceed i ice) ↔ KeepsUp d (d.proceed i ice)) := by
  cases hi : d.activity i with
  | busy p =>
      have hstanding := h.standing i
      rw [hi] at hstanding
      obtain ⟨c, k, rfl, hsafe⟩ := hstanding
      obtain ⟨dir', hwired, hkeys, hanswered⟩ := World.handle_answered h.wired ice hsafe.1.2
      have hrest := hsafe.2 _ _ (hanswered ⟨dir.keys, False⟩ rfl)
      obtain ⟨hinv, hdown⟩ := inv_settle (d := { d with world := (World.handle ice c d.world).2 })
        hwired (fun j _ => (h.standing j).mono hkeys) hrest
      have hproceed : d.proceed i ice =
          { d with world := (World.handle ice c d.world).2 }.settle i
            (k (World.handle ice c d.world).1) := by
        simp only [Deployment.proceed, hi]
      rw [hproceed]
      refine ⟨⟨dir', hinv⟩, ?_⟩
      have hup : ∀ e, d.activity i ≠ .down e := by
        rw [hi]
        exact nofun
      have hkeeps := (keepsUp_settle_iff d (d := { d with world := (World.handle ice c d.world).2 })
        rfl hup).trans (not_congr hdown)
      rw [ready_proceed_iff hi, hkeeps]
      by_cases hmessage : c.IsMessage
      · rw [World.handle_fails_iff ice hmessage hsafe.1.2]
        simp [hmessage]
      · simp [hmessage, Remote.goesThrough_of_not_isMessage hmessage]
  | _ =>
      have hproceed : d.proceed i ice = d := by simp only [Deployment.proceed, hi]
      rw [hproceed]
      refine ⟨⟨dir, h⟩, fun _ => keepsUp_refl d, fun _ c k hbusy => ?_⟩
      rw [hi] at hbusy
      cases hbusy

/-- A move that finds nothing to do. -/
theorem Inv.stutter {d : Deployment I} {dir : Directory Nat} (h : Inv d dir) {m : Move I}
    (hsame : (d.step m).1 = d) (hready : Ready d m) :
    (∃ dir', Inv (d.step m).1 dir') ∧ (Ready d m ↔ KeepsUp d (d.step m).1) := by
  rw [hsame]
  exact ⟨⟨dir, h⟩, fun _ => keepsUp_refl d, fun _ => hready⟩

/-- What one move does to the clients. -/
theorem Inv.step {d : Deployment I} {dir : Directory Nat} (h : Inv d dir) (m : Move I) :
    (∃ dir', Inv (d.step m).1 dir') ∧ (Ready d m ↔ KeepsUp d (d.step m).1) := by
  cases m with
  | choose i a =>
      cases hi : d.activity i with
      | menu =>
          have hstanding := h.standing i
          rw [hi] at hstanding
          have hsafe : Safe Never FromIce (fun v c' => c'.joined ⊆ v.known)
              ((d.clients i).act a) ⟨dir.keys, False⟩ := Client.act_safe a id hstanding
          obtain ⟨hinv, hdown⟩ := inv_settle h.wired (fun j _ => h.standing j) hsafe
          have hstep : (d.step (.choose i a)).1 = d.settle i ((d.clients i).act a) := by
            simp only [Deployment.step, hi]
          rw [hstep]
          have hup : ∀ e, d.activity i ≠ .down e := by
            rw [hi]
            exact nofun
          have hkeeps := (keepsUp_settle_iff d rfl hup).trans (not_congr hdown)
          exact ⟨⟨dir, hinv⟩, fun _ => hkeeps.mpr id, fun _ => trivial⟩
      | _ => exact h.stutter (by simp only [Deployment.step, hi]) trivial
  | proceed i ice => exact h.proceed i ice
  | die i =>
      obtain ⟨hinv, hkeeps⟩ := h.stop i
      cases hi : d.activity i with
      | down e => exact h.stutter (by simp only [Deployment.step, hi]) trivial
      | dead => exact h.stutter (by simp only [Deployment.step, hi]) trivial
      | _ =>
          have hstep : (d.step (.die i)).1 = d.stop i .dead := by simp only [Deployment.step, hi]
          rw [hstep]
          exact ⟨⟨dir, hinv⟩, fun _ => hkeeps, fun _ => trivial⟩
  | registerRoomFactory =>
      refine ⟨⟨dir, h.wired.registerRoomFactory, h.standing⟩, ?_⟩
      exact ⟨fun _ => keepsUp_refl d, fun _ => trivial⟩
  | unregisterFactory f =>
      refine ⟨⟨dir, h.wired.unregisterFactory f, h.standing⟩, ?_⟩
      exact ⟨fun _ => keepsUp_refl d, fun _ => trivial⟩

/-! ## An action comes to its end -/

/-- Where a client stands at the start makes no difference to where it settles. -/
theorem settle_update (d : Deployment I) (i : I) (a : Activity I) (p : Program I (Client I)) :
    { d with activity := Function.update d.activity i a }.settle i p = d.settle i p := by
  cases p with
  | pure c => simp [settle]
  | throw e => simp [settle, Deployment.stop]
  | call c k => simp [settle]

/-- A client with a call before it makes the call and goes on with the answer. -/
theorem proceed_settle_call (d : Deployment I) (i : I) (ice : Creation) (c : Remote I)
    (k : Except Exception c.Result → Program I (Client I)) :
    (d.settle i (.call c k)).proceed i ice =
      { d with world := (World.handle ice c d.world).2 }.settle i
        (k (World.handle ice c d.world).1) := by
  simp only [Deployment.proceed, settle, Function.update_self]
  exact settle_update { d with world := (World.handle ice c d.world).2 } i _ _

/-- A client that goes on with a program has finished it after some calls. -/
theorem settle_ends (i : I) (p : Program I (Client I)) :
    ∀ (d : Deployment I) (ices : Nat → Creation), ∃ n, ∀ q,
      (run step (d.settle i p) (proceeds i ices n)).activity i ≠ .busy q := by
  induction p with
  | pure c =>
      intro d ices
      refine ⟨0, fun q => ?_⟩
      simp [settle]
  | throw e =>
      intro d ices
      refine ⟨0, fun q => ?_⟩
      simp [settle, Deployment.stop]
  | call c k ih =>
      intro d ices
      let r := World.handle (ices 0) c d.world
      obtain ⟨n, hn⟩ := ih r.1 { d with world := r.2 } fun k => ices (k + 1)
      refine ⟨n + 1, fun q => ?_⟩
      rw [proceeds_succ, run_cons, step, proceed_settle_call]
      exact hn q

/-- In the middle of an action a client has the rest of it before it. -/
theorem Inv.ends {d : Deployment I} {dir : Directory Nat} (h : Inv d dir) (i : I)
    (ices : Nat → Creation) :
    ∃ n, ∀ p, (run Deployment.step d (proceeds i ices n)).activity i ≠ .busy p := by
  cases hi : d.activity i with
  | busy p =>
      have hstanding := h.standing i
      rw [hi] at hstanding
      obtain ⟨c, k, rfl, -⟩ := hstanding
      have hsame : d.settle i (.call c k) = d := by
        rw [settle, ← hi, Function.update_eq_self]
      have hends := settle_ends i (.call c k) d ices
      rwa [hsame] at hends
  | _ =>
      refine ⟨0, fun p => ?_⟩
      simp [hi]

/-! ## Whole runs -/

theorem inv_run (username : I → String) (moves : List (Move I)) :
    ∃ dir, Inv (run step (start username) moves) dir :=
  run_invariant (I := fun d => ∃ dir, Inv d dir) moves (fun _ m _ ⟨_, h⟩ => (h.step m).1)
    ⟨.empty, start_inv username⟩

/-- Every action of every client returns to the menu throughout a run exactly when
each message of the run finds its parties ready. -/
theorem returning_throughout_iff (username : I → String) (moves : List (Move I)) :
    (∀ before after, moves = before ++ after → Returning (run step (start username) before)) ↔
      Along step Ready (start username) moves := by
  constructor
  · intro h
    by_contra hnot
    obtain ⟨before, m, after, he, -, hmiss⟩ := exists_first_failure step Ready _ _ hnot
    obtain ⟨dir, hinv⟩ := inv_run username before
    have hafter := h (before ++ [m]) after (by rw [he]; simp)
    rw [run_append, run_cons, run_nil] at hafter
    refine hmiss ((hinv.step m).2.mpr ?_)
    intro i e hdown
    exact absurd hdown (hafter.caught i e)
  · intro h before after he
    rw [he, along_append] at h
    have hstep : ∀ (d : Deployment I) (m : Move I),
        ((∃ dir, Inv d dir) ∧ ∀ i e, d.activity i ≠ .down e) → Ready d m →
          ((∃ dir, Inv (d.step m).1 dir) ∧ ∀ i e, (d.step m).1.activity i ≠ .down e) ∧ True := by
      rintro d m ⟨⟨dir, hinv⟩, hup⟩ hready
      obtain ⟨hnext, hkeeps⟩ := hinv.step m
      refine ⟨⟨hnext, fun i e hdown => ?_⟩, trivial⟩
      obtain ⟨e', he'⟩ := hkeeps.mp hready i e hdown
      exact hup i e' he'
    obtain ⟨⟨⟨dir, hinv⟩, hup⟩, -⟩ := along_invariant (A := fun _ => True) hstep before
      ⟨⟨.empty, start_inv username⟩, fun _ _ => nofun⟩ h.1
    exact ⟨hup, hinv.ends⟩

/-- A member of the room dies, and the next message to the room takes its sender
down. -/
theorem not_returning_after_death :
    ¬ Returning (run step (start fun i : Bool => if i then "a" else "b")
      [.registerRoomFactory, .choose true (.createRoom "r"), .proceed true .works,
        .choose false (.joinToRoom "r"), .proceed false .works, .proceed false .works,
        .choose true (.joinToRoom "r"), .proceed true .works, .proceed true .works, .die false,
        .choose true (.sendMessageToRoom "r" "hi"), .proceed true .works,
        .proceed true .works]) := by
  intro h
  exact h.caught true (.ice .unknownException) rfl

end Deployment

end Rso.Chat
