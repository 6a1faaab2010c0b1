import Rso.Chat.CompleteActions
import Rso.Chat.Membership

/-!
# The clients' view of the rooms

Who is in a room is recorded twice, by the room and by the client, which keeps a
list of the rooms it is in.  The two should agree after every complete action
(`Agreement`), whatever the order in which the clients act.

They agree as long as a client leaves a room only when it is the member listed
first (`LeavesFirst`): the room strikes off its first member and not the one that
leaves.  A client that leaves out of turn stays on the room's list, and strikes
the room off its own.
-/

namespace Rso.Chat

open Runs

namespace Deployment

variable {I : Type} [DecidableEq I]

/-! ## Turns -/

/-- A system whose server lists rooms, with nobody in them yet. -/
structure Opened (I : Type) where
  world : World I
  directory : Directory Nat
  wired : World.Wired world directory
  vacant : ∀ n, world.rooms n = .init

/-- The system before its first room. -/
def Opened.fresh : Opened I := ⟨.init, .empty, World.init_wired, fun _ => rfl⟩

/-- Every client at its menu, in a system with its rooms. -/
def startIn (o : Opened I) (username : I → String) : Deployment I :=
  { start username with world := o.world }

/-- What happens next when actions are complete. -/
inductive Turn (I : Type) where
  | act (i : I) (a : Client.Action) (ice : Creation)
  | registerRoomFactory
  | unregisterFactory (f : Nat)

def takeTurn (d : Deployment I) : Turn I → Deployment I × Unit
  | .act i a ice => (d.perform i a ice, ())
  | .registerRoomFactory => ({ d with world := d.world.registerRoomFactory }, ())
  | .unregisterFactory f => ({ d with world := d.world.unregisterFactory f }, ())

/-- A run of turns is a run of moves. -/
theorem run_takeTurn_is_run (turns : List (Turn I)) :
    ∀ d : Deployment I, ∃ moves, run step d moves = run takeTurn d turns := by
  induction turns with
  | nil => exact fun d => ⟨[], rfl⟩
  | cons turn turns ih =>
      intro d
      obtain ⟨moves, hmoves⟩ := ih (d.takeTurn turn).1
      have hfirst : ∃ first, run step d first = (d.takeTurn turn).1 := by
        cases turn with
        | act i a ice =>
            obtain ⟨n, hn⟩ := perform_is_run d i a ice
            exact ⟨_, hn⟩
        | registerRoomFactory => exact ⟨[.registerRoomFactory], rfl⟩
        | unregisterFactory f => exact ⟨[.unregisterFactory f], rfl⟩
      obtain ⟨first, hfirst⟩ := hfirst
      exact ⟨first ++ moves, by rw [run_append, hfirst, hmoves, run_cons]⟩

/-! ## Agreement -/

/-- The client and the room of the given name agree on whether it is a member. -/
structure Agrees (d : Deployment I) (i : I) (name : String) (n : Nat) : Prop where
  once : (d.clients i).joined.count name ≤ 1
  listed : name ∈ (d.clients i).joined ↔
    (d.clients i).username ∈ (d.world.rooms n).listUsers
  own : name ∈ (d.clients i).joined →
    ((d.world.rooms n).getUser (d.clients i).username).1 = .ok (d.clients i).user

/-- Every client agrees with every room. -/
def Agreement (d : Deployment I) : Prop :=
  ∀ i name n, (d.world.server.getRoom name).1 = .ok (some n) → Agrees d i name n

/-- A client that leaves a room it is in is the member listed first. -/
def LeavesFirst (d : Deployment I) : Turn I → Prop
  | .act i (.leaveRoom name) _ =>
      d.activity i = .menu → name ∈ (d.clients i).joined →
        ∀ n, (d.world.server.getRoom name).1 = .ok (some n) →
          (d.world.rooms n).users.head? = some (d.clients i).username
  | _ => True

end Deployment

/-! ## A room of clients -/

/-- The two containers of the room hold the same members, and each nick is bound
to the client of that name. -/
def RoomOf {I : Type} (username : I → String) (r : ChatRoomImpl I) : Prop :=
  ∃ t : Members I, Members.Represents r t ∧
    ∀ nick who, t.lookup nick = some who → ∃ i, who = some i ∧ username i = nick

namespace RoomOf

variable {I : Type} {username : I → String} {r : ChatRoomImpl I}

theorem init : RoomOf username (.init : ChatRoomImpl I) := by
  refine ⟨.empty, Members.init_represents, ?_⟩
  intro nick who h
  cases h

/-- A listed nick is looked up without changing the room. -/
theorem getUser (h : RoomOf username r) {nick : String} (hnick : nick ∈ r.users) :
    ∃ i, username i = nick ∧ r.getUser nick = (.ok (some i), r) := by
  obtain ⟨t, ht, hbound⟩ := h
  obtain ⟨who, hwho⟩ := OrderedTable.exists_lookup ((ht.mem_users nick).mp hnick)
  obtain ⟨i, rfl, hi⟩ := hbound nick who hwho
  exact ⟨i, hi, ht.getUser hwho⟩

theorem getUser_state (h : RoomOf username r) (nick : String) : (r.getUser nick).2 = r := by
  by_cases hnick : nick ∈ r.users
  · obtain ⟨i, -, hget⟩ := h.getUser hnick
    rw [hget]
  · rw [ChatRoomImpl.getUser_unlisted hnick]

theorem join (h : RoomOf username r) {i : I} (hi : username i ∉ r.users) :
    RoomOf username (r.join (username i) (some i)).2 := by
  obtain ⟨t, ht, hbound⟩ := h
  have hk : username i ∉ t.keys := mt (ht.mem_users _).mpr hi
  refine ⟨t.append (username i) (some i) hk, ht.join (some i) hk, fun nick who hwho => ?_⟩
  rw [OrderedTable.lookup_append] at hwho
  split at hwho
  next hnick =>
    cases hwho
    exact ⟨i, rfl, hnick.symm⟩
  next => exact hbound nick who hwho

theorem leave (h : RoomOf username r) {nick : String} (hnick : r.users.head? = some nick) :
    RoomOf username (r.leave nick).2 := by
  obtain ⟨t, ht, hbound⟩ := h
  rw [ht.users] at hnick
  have hk : nick ∈ t.keys := List.mem_of_mem_head? hnick
  refine ⟨t.erase nick, ht.leave hk hnick, fun nick' who hwho => ?_⟩
  rw [OrderedTable.lookup_erase] at hwho
  split at hwho
  next => cases hwho
  next => exact hbound nick' who hwho

theorem nodup (h : RoomOf username r) : r.users.Nodup := by
  obtain ⟨t, ht, -⟩ := h
  rw [ht.users]
  exact t.keys_nodup

end RoomOf

/-! ## Clients and rooms together -/

/-- The clients, as their own records say, and the rooms of the server's
directory. -/
structure Together {I : Type} (username : I → String) (clients : I → Client I) (w : World I)
    (d : Directory Nat) : Prop where
  wired : World.Wired w d
  self : ∀ i, (clients i).username = username i ∧ (clients i).user = some i
  rooms : ∀ n, RoomOf username (w.rooms n)
  /-- Nobody is in a room that was not made yet. -/
  empty : ∀ n, w.made ≤ n → (w.rooms n).users = []
  nodup : ∀ i, (clients i).joined.Nodup
  known : ∀ i, (clients i).joined ⊆ d.keys
  shared : ∀ i name n, d.lookup name = some (some n) →
    (name ∈ (clients i).joined ↔ username i ∈ (w.rooms n).users)

namespace Together

variable {I : Type} {username : I → String} {clients : I → Client I} {w : World I}
  {d : Directory Nat}

theorem start (o : Deployment.Opened I) (username : I → String) :
    Together username (Deployment.startIn o username).clients o.world o.directory := by
  refine ⟨o.wired, fun _ => ⟨rfl, rfl⟩, fun n => ?_, fun n _ => ?_, fun _ => List.nodup_nil,
    fun _ => List.nil_subset _, fun i name n _ => ?_⟩
  · rw [o.vacant]
    exact RoomOf.init
  · rw [o.vacant]
    rfl
  · rw [o.vacant]
    exact ⟨fun h => (by cases h), fun h => by cases h⟩

/-- A change that leaves the server and the rooms alone. -/
theorem frame (h : Together username clients w d) {w' : World I} (hserver : w'.server = w.server)
    (hrooms : w'.rooms = w.rooms) (hmade : w.made ≤ w'.made) :
    Together username clients w' d := by
  refine ⟨h.wired.frame hserver hmade, h.self, ?_, ?_, h.nodup, h.known, ?_⟩
  · rw [hrooms]
    exact h.rooms
  · rw [hrooms]
    exact fun n hn => h.empty n (Nat.le_trans hmade hn)
  · rw [hrooms]
    exact h.shared

/-- A new room is nobody's. -/
theorem publish (h : Together username clients w d) {name : String} (hname : name ∉ d.keys)
    (factories : Nat → ChatRoomFactoryImpl) :
    Together username clients { w with
      server := w.server.publish name (some w.made)
      factories := factories
      made := w.made + 1 } (d.append name (some w.made) hname) := by
  refine ⟨h.wired.publish hname factories, h.self, h.rooms, ?_, h.nodup, fun i => ?_, ?_⟩
  · exact fun n hn => h.empty n (Nat.le_of_succ_le hn)
  · rw [OrderedTable.append_keys]
    exact List.subset_append_of_subset_left _ (h.known i)
  · intro i n m hroom
    rw [OrderedTable.lookup_append] at hroom
    split at hroom
    next hn =>
      cases hroom
      subst hn
      rw [h.empty w.made (Nat.le_refl _)]
      exact ⟨fun hin => absurd (h.known i hin) hname, fun hin => by cases hin⟩
    next => exact h.shared i n m hroom

end Together

theorem Together.handle {I : Type} {username : I → String} {clients : I → Client I} {w : World I}
    {d : Directory Nat} (h : Together username clients w d) (ice : Creation) {c : Remote I}
    (hc : ¬ c.ChangesMembers) :
    ∃ d', Together username clients (World.handle ice c w).2 d' := by
  cases c with
  | newChatRoom name =>
      rw [World.handle]
      rcases World.newChatRoom_cases ice w name with
        ⟨e, factories, made, hw, hmade⟩ | ⟨hname, factories, hw⟩
      · rw [hw]
        exact ⟨d, h.frame rfl rfl hmade⟩
      · rw [h.wired.lists.names] at hname
        rw [hw]
        exact ⟨_, h.publish hname factories⟩
  | getRooms => exact ⟨d, h⟩
  | getRoom name =>
      rw [h.wired.getRoom_state]
      exact ⟨d, h⟩
  | join room nick who => exact absurd trivial hc
  | leave room nick => exact absurd trivial hc
  | listUsers room =>
      rw [World.handle, World.callRoom_state fun _ => rfl]
      exact ⟨d, h⟩
  | getUser room nick =>
      rw [World.handle, World.callRoom_state fun n => (h.rooms n).getUser_state nick]
      exact ⟨d, h⟩
  | postMessage room message fromWho =>
      rw [World.handle, World.callRoom_state fun _ => rfl]
      exact ⟨d, h⟩
  | sendPrivateMessage user message fromWho => exact ⟨d, h⟩

/-! ## What an action does to the agreement -/

namespace Together

variable {I : Type} [DecidableEq I] {username : I → String} {clients : I → Client I} {w : World I}
  {d : Directory Nat}

/-- A client and a room change their records of one another. -/
theorem change (h : Together username clients w d) {i : I} {name : String} {n : Nat}
    (hn : d.lookup name = some (some n)) {c : Client I} {r : ChatRoomImpl I}
    (hself : c.username = username i ∧ c.user = some i) (hroom : RoomOf username r)
    (hnodup : c.joined.Nodup) (hknown : c.joined ⊆ d.keys)
    (hother : ∀ name', name' ≠ name → (name' ∈ c.joined ↔ name' ∈ (clients i).joined))
    (hshared : name ∈ c.joined ↔ username i ∈ r.users)
    (hmembers : ∀ j, j ≠ i → (username j ∈ r.users ↔ username j ∈ (w.rooms n).users)) :
    Together username (Function.update clients i c)
      { w with rooms := Function.update w.rooms n r } d := by
  obtain ⟨m, hmade, hm⟩ := h.wired.bound name _ hn
  cases hm
  refine ⟨h.wired.frame rfl (Nat.le_refl _), ?_, ?_, ?_, ?_, ?_, fun j name' m hm => ?_⟩
  · exact (Function.forall_update_iff clients fun j c =>
      c.username = username j ∧ c.user = some j).mpr ⟨hself, fun j _ => h.self j⟩
  · exact (Function.forall_update_iff w.rooms fun _ r => RoomOf username r).mpr
      ⟨hroom, fun m _ => h.rooms m⟩
  · refine (Function.forall_update_iff w.rooms fun m r => w.made ≤ m → r.users = []).mpr
      ⟨fun hle => ?_, fun m _ => h.empty m⟩
    exact absurd hmade (Nat.not_lt_of_le hle)
  · exact (Function.forall_update_iff clients fun _ c => c.joined.Nodup).mpr
      ⟨hnodup, fun j _ => h.nodup j⟩
  · exact (Function.forall_update_iff clients fun _ c => c.joined ⊆ d.keys).mpr
      ⟨hknown, fun j _ => h.known j⟩
  · rcases eq_or_ne m n with rfl | hmn
    · have hname : name' = name := h.wired.apart name' name m hm hn
      subst hname
      simp only [Function.update_self]
      rcases eq_or_ne j i with rfl | hj
      · rw [Function.update_self]
        exact hshared
      · rw [Function.update_of_ne hj, hmembers j hj]
        exact h.shared j name' m hn
    · have hname : name' ≠ name := by
        rintro rfl
        rw [hn] at hm
        cases hm
        exact hmn rfl
      simp only [Function.update_of_ne hmn]
      rcases eq_or_ne j i with rfl | hj
      · rw [Function.update_self, hother name' hname]
        exact h.shared j name' m hm
      · rw [Function.update_of_ne hj]
        exact h.shared j name' m hm

/-- A client joins a room that does not list it. -/
theorem join (hinj : Function.Injective username) (h : Together username clients w d) {i : I}
    {name : String} {n : Nat} (hn : d.lookup name = some (some n))
    (hfresh : username i ∉ (w.rooms n).users) :
    Together username
      (Function.update clients i
        { clients i with userRooms := (clients i).userRooms ++ [⟨name, 0⟩] })
      { w with rooms := Function.update w.rooms n ((w.rooms n).join (username i) (some i)).2 }
      d := by
  have hjoined : ({ clients i with
      userRooms := (clients i).userRooms ++ [⟨name, 0⟩] } : Client I).joined =
        (clients i).joined ++ [name] := by
    rw [Client.joined, List.map_append]
    rfl
  have hnot : name ∉ (clients i).joined := mt (h.shared i name n hn).mp hfresh
  have hname : name ∈ d.keys := OrderedTable.mem_keys_of_lookup hn
  refine h.change hn (h.self i) ((h.rooms n).join hfresh) ?_ ?_ ?_ ?_ ?_
  · rw [hjoined]
    exact (h.nodup i).append (List.nodup_singleton name) (by simpa using hnot)
  · rw [hjoined]
    exact List.append_subset.mpr ⟨h.known i, List.cons_subset.mpr ⟨hname, List.nil_subset _⟩⟩
  · intro name' hne
    rw [hjoined, List.mem_append, List.mem_singleton]
    exact or_iff_left hne
  · rw [hjoined, ChatRoomImpl.join_fresh _ hfresh]
    simp
  · intro j hj
    rw [ChatRoomImpl.join_fresh _ hfresh, List.mem_append, List.mem_singleton]
    exact or_iff_left fun he => hj (hinj he)

/-- The member listed first leaves a room. -/
theorem leave (hinj : Function.Injective username) (h : Together username clients w d) {i : I}
    {name : String} {n : Nat} (hn : d.lookup name = some (some n))
    (hfirst : (w.rooms n).users.head? = some (username i)) {c : Client I}
    (hself : c.username = (clients i).username ∧ c.user = (clients i).user)
    (hjoined : c.joined = (clients i).joined.erase name) :
    Together username (Function.update clients i c)
      { w with rooms := Function.update w.rooms n ((w.rooms n).leave (username i)).2 } d := by
  have hlisted : username i ∈ (w.rooms n).users := List.mem_of_mem_head? hfirst
  obtain ⟨rest, husers⟩ : ∃ rest, (w.rooms n).users = username i :: rest := by
    cases hu : (w.rooms n).users with
    | nil =>
        rw [hu] at hfirst
        cases hfirst
    | cons first rest =>
        rw [hu] at hfirst
        cases hfirst
        exact ⟨rest, rfl⟩
  have hleft : ((w.rooms n).leave (username i)).2.users = rest := by
    rw [ChatRoomImpl.leave_listed hlisted, husers]
    rfl
  have hnodup := (h.rooms n).nodup
  rw [husers, List.nodup_cons] at hnodup
  refine h.change hn ⟨hself.1.trans (h.self i).1, hself.2.trans (h.self i).2⟩
    ((h.rooms n).leave hfirst) ?_ ?_ ?_ ?_ ?_
  · rw [hjoined]
    exact (h.nodup i).erase name
  · rw [hjoined]
    exact List.Subset.trans List.erase_subset (h.known i)
  · intro name' hne
    rw [hjoined]
    exact List.mem_erase_of_ne hne
  · rw [hjoined, hleft]
    exact ⟨fun hin => absurd rfl ((h.nodup i).mem_erase_iff.mp hin).1,
      fun hin => absurd hin hnodup.1⟩
  · intro j hj
    rw [hleft, husers, List.mem_cons]
    exact (or_iff_right fun he => hj (hinj he)).symm

end Together

namespace Deployment

variable {I : Type} [DecidableEq I] {username : I → String}

/-- The clients and the rooms of a deployment. -/
def Joint (username : I → String) (d : Deployment I) : Prop :=
  ∃ dir, Together username d.clients d.world dir

/-- A client that settles as it was. -/
theorem Joint.settle {d : Deployment I} (h : Joint username d) {i : I}
    {r : Except Exception (Client I)} (hr : ∀ c, r = .ok c → c = d.clients i) :
    Joint username (d.settle i (Script.ofExcept r)) := by
  obtain ⟨dir, h⟩ := h
  cases r with
  | ok c =>
      have hc := hr c rfl
      subst hc
      refine ⟨dir, ?_⟩
      simp only [Script.ofExcept, Deployment.settle, Function.update_eq_self]
      exact h
  | error e => exact ⟨dir, h.frame rfl rfl (Nat.le_refl _)⟩

theorem perform_menu {d : Deployment I} {i : I} (hi : d.activity i = .menu) (a : Client.Action)
    (ice : Creation) :
    d.perform i a ice =
      { d with world := (((d.clients i).act a).run (World.handle ice) d.world).state }.settle i
        (Script.ofExcept (((d.clients i).act a).run (World.handle ice) d.world).result) := by
  simp only [perform, hi]

/-- An action that neither joins nor leaves a room. -/
theorem Joint.perform_quiet {d : Deployment I} (h : Joint username d) {i : I}
    (hi : d.activity i = .menu) {a : Client.Action} (ha : a.IsQuiet) (ice : Creation) :
    Joint username (d.perform i a ice) := by
  obtain ⟨hresult, hworld⟩ := ((d.clients i).act_quiet ha).run ice
    (J := fun w => ∃ dir, Together username d.clients w dir)
    (fun c w hc hw => hw.elim fun dir hdir => hdir.handle ice hc) h
  rw [perform_menu hi]
  have hjoint : Joint username
      { d with world := (((d.clients i).act a).run (World.handle ice) d.world).state } := hworld
  exact hjoint.settle hresult

theorem Joint.perform_joinToRoom (hinj : Function.Injective username) {d : Deployment I}
    (h : Joint username d) {i : I} (hi : d.activity i = .menu) (name : String) (ice : Creation) :
    Joint username (d.perform i (.joinToRoom name) ice) := by
  obtain ⟨dir, hdir⟩ := h
  rw [perform_menu hi]
  have hsame : ∀ {w : World I} {r : Except Exception (Client I)}, r = .ok (d.clients i) →
      w = d.world → Joint username ({ d with world := w }.settle i (Script.ofExcept r)) := by
    rintro w r rfl rfl
    refine Joint.settle ⟨dir, hdir⟩ fun c hc => ?_
    cases hc
    rfl
  cases hn : dir.lookup name with
  | none =>
      obtain ⟨hresult, hstate⟩ :=
        Client.run_joinToRoom_unbound (c := d.clients i) ice hdir.wired hn
      exact hsame hresult hstate
  | some room =>
      obtain ⟨n, -, rfl⟩ := hdir.wired.bound name room hn
      by_cases hlisted : (d.clients i).username ∈ (d.world.rooms n).users
      · obtain ⟨hresult, hstate⟩ :=
          Client.run_joinToRoom_listed ice hdir.wired hn hlisted
        exact hsame hresult hstate
      · obtain ⟨hresult, hstate⟩ :=
          Client.run_joinToRoom_fresh ice hdir.wired hn hlisted
        rw [(hdir.self i).1, (hdir.self i).2] at hstate
        rw [(hdir.self i).1] at hlisted
        rw [Client.act, hresult, hstate]
        exact ⟨dir, hdir.join hinj hn hlisted⟩

theorem Joint.perform_leaveRoom (hinj : Function.Injective username) {d : Deployment I}
    (h : Joint username d) {i : I} {name : String} {ice : Creation}
    (hfirst : LeavesFirst d (.act i (.leaveRoom name) ice)) (hi : d.activity i = .menu) :
    Joint username (d.perform i (.leaveRoom name) ice) := by
  obtain ⟨dir, hdir⟩ := h
  rw [perform_menu hi]
  by_cases hin : name ∈ (d.clients i).joined
  · obtain ⟨room, hn⟩ := OrderedTable.exists_lookup (hdir.known i hin)
    obtain ⟨n, -, rfl⟩ := hdir.wired.bound name room hn
    have hget : (d.world.server.getRoom name).1 = .ok (some n) := by
      rw [hdir.wired.lists.getRoom, hn]
    have hhead := hfirst hi hin n hget
    have hlisted := List.mem_of_mem_head? hhead
    obtain ⟨c, husername, huser, hjoined, hresult, hstate⟩ :=
      Client.run_leaveRoom_joined ice hdir.wired hn hlisted hin
    rw [(hdir.self i).1] at hhead hstate
    rw [Client.act, hresult, hstate]
    exact ⟨dir, hdir.leave hinj hn hhead ⟨husername, huser⟩ hjoined⟩
  · obtain ⟨hresult, hstate⟩ := Client.run_leaveRoom_other ice d.world hin
    rw [Client.act, hresult, hstate]
    refine Joint.settle ⟨dir, hdir⟩ fun c hc => ?_
    cases hc
    rfl

/-- Every turn keeps clients and rooms together, if a client that leaves a room is
the member listed first. -/
theorem Joint.takeTurn (hinj : Function.Injective username) {d : Deployment I}
    (h : Joint username d) {turn : Turn I} (hfirst : LeavesFirst d turn) :
    Joint username (d.takeTurn turn).1 := by
  cases turn with
  | act i a ice =>
      cases hi : d.activity i with
      | menu =>
          cases a with
          | joinToRoom name => exact h.perform_joinToRoom hinj hi name ice
          | leaveRoom name => exact h.perform_leaveRoom hinj hfirst hi
          | _ =>
              refine h.perform_quiet hi ?_ ice
              exact trivial
      | _ =>
          have hsame : d.perform i a ice = d := by simp only [perform, hi]
          rw [Deployment.takeTurn, hsame]
          exact h
  | registerRoomFactory =>
      obtain ⟨dir, hdir⟩ := h
      exact ⟨dir, hdir.wired.registerRoomFactory, hdir.self, hdir.rooms, hdir.empty, hdir.nodup,
        hdir.known, hdir.shared⟩
  | unregisterFactory f =>
      obtain ⟨dir, hdir⟩ := h
      exact ⟨dir, hdir.wired.unregisterFactory f, hdir.self, hdir.rooms, hdir.empty, hdir.nodup,
        hdir.known, hdir.shared⟩

omit [DecidableEq I] in
/-- Clients and rooms that are together agree. -/
theorem Joint.agreement (hinj : Function.Injective username) {d : Deployment I}
    (h : Joint username d) : Agreement d := by
  obtain ⟨dir, hdir⟩ := h
  intro i name n hget
  have hn := hdir.wired.lookup_of_getRoom hget
  have hshared := hdir.shared i name n hn
  refine ⟨List.nodup_iff_count_le_one.mp (hdir.nodup i) name, ?_, fun hin => ?_⟩
  · rw [(hdir.self i).1]
    exact hshared
  · obtain ⟨j, hj, hown⟩ := (hdir.rooms n).getUser (hshared.mp hin)
    rw [(hdir.self i).1, (hdir.self i).2, hown, hinj hj]

/-- A client that leaves out of turn stays on the list of the room. -/
theorem Joint.not_agreement {d : Deployment I} (h : Joint username d) {turn : Turn I}
    (hturn : ¬ LeavesFirst d turn) : ¬ Agreement (d.takeTurn turn).1 := by
  obtain ⟨dir, hdir⟩ := h
  cases turn with
  | act i a ice =>
      cases a with
      | leaveRoom name =>
          simp only [LeavesFirst, Classical.not_imp, not_forall] at hturn
          obtain ⟨hi, hin, n, hget, hhead⟩ := hturn
          have hn := hdir.wired.lookup_of_getRoom hget
          have hlisted : (d.clients i).username ∈ (d.world.rooms n).users := by
            rw [(hdir.self i).1]
            exact (hdir.shared i name n hn).mp hin
          obtain ⟨c, husername, -, hjoined, hresult, hstate⟩ :=
            Client.run_leaveRoom_joined ice hdir.wired hn hlisted hin
          intro hagree
          rw [Deployment.takeTurn, perform_menu hi, Client.act, hresult, hstate] at hagree
          have hafter := (hagree i name n hget).listed
          simp only [Script.ofExcept, Deployment.settle, Function.update_self, hjoined, husername,
            ChatRoomImpl.listUsers, ChatRoomImpl.leave_listed hlisted] at hafter
          have hoff : name ∉ (d.clients i).joined.erase name := fun hm =>
            absurd rfl ((hdir.nodup i).mem_erase_iff.mp hm).1
          refine hoff (hafter.mpr ?_)
          cases hu : (d.world.rooms n).users with
          | nil =>
              rw [hu] at hlisted
              cases hlisted
          | cons first rest =>
              rw [hu] at hlisted hhead
              cases hlisted with
              | head => exact absurd rfl hhead
              | tail _ hrest => exact hrest
      | _ => exact absurd trivial hturn
  | registerRoomFactory => exact absurd trivial hturn
  | unregisterFactory f => exact absurd trivial hturn

/-! ## Whole runs -/

/-- Whatever rooms there are at the start, the clients agree with the rooms after
every complete action of a run exactly when each client that leaves a room is the
member listed first. -/
theorem agreement_throughout_iff (o : Opened I) (username : I → String)
    (hinj : Function.Injective username) (turns : List (Turn I)) :
    (∀ before after, turns = before ++ after →
      Agreement (run takeTurn (startIn o username) before)) ↔
    Along takeTurn LeavesFirst (startIn o username) turns := by
  have hstep : ∀ (d : Deployment I) (turn : Turn I), Joint username d → LeavesFirst d turn →
      Joint username (d.takeTurn turn).1 ∧ True := by
    intro d turn h hfirst
    exact ⟨h.takeTurn hinj hfirst, trivial⟩
  have hjoint : ∀ before, Along takeTurn LeavesFirst (startIn o username) before →
      Joint username (run takeTurn (startIn o username) before) := by
    intro before hbefore
    exact (along_invariant (A := fun _ => True) hstep before
      ⟨o.directory, Together.start o username⟩ hbefore).1
  constructor
  · intro h
    by_contra hnot
    obtain ⟨before, turn, after, he, hbefore, hmiss⟩ :=
      exists_first_failure takeTurn LeavesFirst _ _ hnot
    have hafter := h (before ++ [turn]) after (by rw [he]; simp)
    rw [run_append, run_cons, run_nil] at hafter
    exact (hjoint before hbefore).not_agreement hmiss hafter
  · intro h before after he
    rw [he, along_append] at h
    exact (hjoint before h.1).agreement hinj

/-- The usernames of two clients. -/
def twoNames (i : Bool) : String := if i then "a" else "b"

theorem twoNames_injective : Function.Injective twoNames := by
  intro i j h
  cases i with
  | false =>
      cases j with
      | false => rfl
      | true => exact absurd h (by decide)
  | true =>
      cases j with
      | false => exact absurd h (by decide)
      | true => rfl

/-- Two clients join a room, the first one of them first. -/
def bothJoin : List (Turn Bool) :=
  [.registerRoomFactory, .act true (.createRoom "r") .works, .act true (.joinToRoom "r") .works,
    .act false (.joinToRoom "r") .works]

/-- They leave in the same order. -/
theorem agreement_first_leaves :
    Agreement
      (run takeTurn (startIn .fresh twoNames)
        (bothJoin ++ [.act true (.leaveRoom "r") .works])) := by
  refine (agreement_throughout_iff .fresh twoNames twoNames_injective _).mpr ?_ _ [] rfl
  refine ⟨trivial, trivial, trivial, trivial, fun _ _ n hget => ?_, trivial⟩
  have hzero : n = 0 := by
    cases hget
    rfl
  subst hzero
  rfl

/-- The second one leaves first: it is still listed, and the first one no longer. -/
theorem not_agreement_second_leaves :
    ¬ Agreement
      (run takeTurn (startIn .fresh twoNames)
        (bothJoin ++ [.act false (.leaveRoom "r") .works])) := by
  intro h
  have hlisted := (h false "r" 0 rfl).listed
  have hin : "r" ∈ ([] : List String) := hlisted.mpr (List.mem_singleton_self "b")
  cases hin

end Deployment

end Rso.Chat
