import Rso.Chat.Room
import Rso.Chat.World

/-!
# What an exception leaves behind

The servants have no handlers and undo nothing, so what an exception leaves
behind is what was written before it was raised.

The room and the server write last.  Whatever raises in an operation of theirs,
be it a check of its own or a call it makes, the state is the one before the
call (`failed_call`).

A factory acquires first.  `newChatRoom` has an object adapter registered and
then makes five more calls, and it destroys no adapter.  When one of the five
raises the adapter stays, under a name that the communicator then refuses for
good (`failed_creation`).
-/

namespace Rso.Chat

open Runs

/-! ## The room and the server -/

namespace ChatRoomImpl

variable {U : Type} {sendMessage : U → Except Exception Unit} {r : ChatRoomImpl U}

/-- A listed nick is looked up, with or without an insertion. -/
theorem getUser_listed {nick : String} (h : nick ∈ r.users) :
    ∃ who, (r.getUser nick).1 = .ok who := by
  rw [getUser, if_pos (by simpa using h)]
  exact ⟨_, rfl⟩

theorem step_error {c : Call U} {e : Exception} (h : (r.step sendMessage c).2.result = .error e) :
    (r.step sendMessage c).1 = r := by
  cases c with
  | join nick who =>
      by_cases hnick : nick ∈ r.users
      · rw [step, join_listed who hnick]
      · rw [step, join_fresh who hnick] at h
        cases h
  | leave nick =>
      by_cases hnick : nick ∈ r.users
      · rw [step, leave_listed hnick] at h
        cases h
      · rw [step, leave_unlisted hnick]
  | getUser nick =>
      by_cases hnick : nick ∈ r.users
      · obtain ⟨who, hwho⟩ := getUser_listed hnick
        simp only [step, hwho] at h
        cases h
      · rw [step, getUser_unlisted hnick]
  | listUsers => rfl
  | postMessage message fromWho => rfl

end ChatRoomImpl

namespace ChatServerImpl

variable {F R : Type} [BEq F] {s : ChatServerImpl F R}

theorem step_error {c : Call F R} {e : Exception} (h : (s.step c).2 = .error e) :
    (s.step c).1 = s := by
  cases c with
  | newChatRoom name replies =>
      rcases newChatRoom_cases replies s name with ⟨e', he'⟩ | ⟨room, hroom, -⟩
      · rw [step, he']
      · rw [step, hroom] at h
        cases h
  | getRooms => rfl
  | getRoom name =>
      by_cases hname : name ∈ s.names
      · obtain ⟨room, s', hroom⟩ := getRoom_listed hname
        rw [step, hroom] at h
        cases h
      · rw [step, getRoom_unlisted hname]
  | registerFactory roomFactory => cases h
  | unregisterFactory roomFactory => cases h

end ChatServerImpl

/-- A call of the room or the server that raises leaves the servant as it was,
whatever raised and whatever the state. -/
theorem failed_call {U F R : Type} [BEq F] :
    (∀ (sendMessage : U → Except Exception Unit) (r : ChatRoomImpl U) (c : ChatRoomImpl.Call U)
        (e : Exception), (r.step sendMessage c).2.result = .error e →
      (r.step sendMessage c).1 = r) ∧
    ∀ (s : ChatServerImpl F R) (c : ChatServerImpl.Call F R) (e : Exception),
      (s.step c).2 = .error e → (s.step c).1 = s :=
  ⟨fun _ _ _ _ h => ChatRoomImpl.step_error h, fun _ _ _ h => ChatServerImpl.step_error h⟩

/-- The second recipient of a message raises, in a room whose containers
disagree, and so does the second factory of the selection loop. -/
theorem failed_call_second :
    (ChatRoomImpl.step (fun u => if u = 2 then .error (.ice .localException) else .ok ())
      (⟨["c"], ((∅ : Dictionary ℕ).insert "a" (some 1)).insert "b" (some 2)⟩ : ChatRoomImpl ℕ)
      (.postMessage "hi" "c")).1.users = ["c"] ∧
    (ChatServerImpl.step (⟨[], [some 1, some 2], ∅⟩ : ChatServerImpl ℕ ℕ)
      (.newChatRoom "x" ⟨fun index _ => if index = 1 then .error (.ice .localException) else .ok 3,
        fun _ _ => .ok none⟩)).1.roomFactoryList = [some 1, some 2] := by
  constructor
  · rw [(failed_call (F := ℕ) (R := ℕ)).1 _ _ _ (.ice .localException) (by decide)]
  · rw [(failed_call (U := ℕ)).2 _ _ (.ice .localException) (by decide)]

/-! ## The factory -/

namespace ChatRoomFactoryImpl

/-- The call into Ice raises. -/
def Refuses (ice : Creation) (f : ChatRoomFactoryImpl) (name : String) : Prop :=
  ∃ e, (f.createObjectAdapter ice name).1 = .error e

/-- A call of `newChatRoom`, with what Ice does meanwhile. -/
structure Call (R : Type) where
  ice : Creation
  object : R
  name : String

/-- Dispatch of one call. -/
def step {R : Type} (f : ChatRoomFactoryImpl) (c : Call R) :
    ChatRoomFactoryImpl × Except Exception (Prx R) :=
  let (result, f) := f.newChatRoom c.ice c.object c.name
  (f, result)

variable {R : Type} {ice : Creation} {f : ChatRoomFactoryImpl}

/-- `createObjectAdapterWithEndpoints` raises and registers nothing, or the name
was free and an adapter of that name is registered last. -/
theorem createObjectAdapter_cases (ice : Creation) (f : ChatRoomFactoryImpl) (name : String) :
    (∃ e, f.createObjectAdapter ice name = (.error e, f)) ∨
      (∀ a ∈ f.adapters, a.name ≠ name) ∧ f.createObjectAdapter ice name =
        (.ok (), { f with adapters := f.adapters ++ [{ name := name }] }) := by
  rw [createObjectAdapter]
  split
  next => exact Or.inl ⟨_, rfl⟩
  next hany =>
    split
    next e _ => exact Or.inl ⟨e, rfl⟩
    next => exact Or.inr ⟨by simpa using hany, rfl⟩

/-- A name that is taken is refused. -/
theorem createObjectAdapter_taken {name : String} {a : ObjectAdapter} (ha : a ∈ f.adapters)
    (hname : a.name = name) :
    f.createObjectAdapter ice name = (.error (.ice .localException), f) := by
  rw [createObjectAdapter, if_pos (List.any_eq_true.mpr ⟨a, ha, by simpa using hname⟩)]

/-- A change of the adapter that was registered last, when no other has its name. -/
theorem updateAdapter_last (f : ChatRoomFactoryImpl) (a : ObjectAdapter)
    (change : ObjectAdapter → ObjectAdapter) {adapters : List ObjectAdapter}
    (h : ∀ b ∈ adapters, b.name ≠ a.name) :
    updateAdapter { f with adapters := adapters ++ [a] } a.name change =
      { f with adapters := adapters ++ [change a] } := by
  have hothers : adapters.map (fun b => if b.name = a.name then change b else b) = adapters :=
    (List.map_congr_left fun b hb => if_neg (h b hb)).trans (List.map_id' adapters)
  simp [updateAdapter, hothers]

/-- What a `newChatRoom` adds to the communicator: nothing, if the adapter is
refused, and otherwise the adapter, which is active if the calls up to
`activate` return. -/
theorem newChatRoom_adapters (ice : Creation) (object : R) (f : ChatRoomFactoryImpl)
    (name : String) :
    (f.Refuses ice ("SimpleRoom" ++ name) ∧ ∃ e, f.newChatRoom ice object name = (.error e, f)) ∨
      ¬ f.Refuses ice ("SimpleRoom" ++ name) ∧
        ∃ a : ObjectAdapter, a.name = "SimpleRoom" ++ name ∧
          (f.newChatRoom ice object name).2 = { f with adapters := f.adapters ++ [a] } ∧
          (a.active = true ↔
            ice.stringToIdentity = .ok () ∧ ice.add = .ok () ∧ ice.activate = .ok ()) := by
  rcases createObjectAdapter_cases ice f ("SimpleRoom" ++ name) with ⟨e, he⟩ | ⟨hfree, hok⟩
  · refine Or.inl ⟨⟨e, congrArg Prod.fst he⟩, e, ?_⟩
    rw [newChatRoom, he]
  · have hgranted : ¬ f.Refuses ice ("SimpleRoom" ++ name) := by
      rintro ⟨e, he⟩
      rw [hok] at he
      cases he
    refine Or.inr ⟨hgranted, ?_⟩
    rw [newChatRoom, hok]
    have hadd := updateAdapter_last f { name := "SimpleRoom" ++ name }
      (fun a => { a with identities := a.identities ++ ["SimpleRoom" ++ name] }) hfree
    have hactivate := updateAdapter_last f
      { name := "SimpleRoom" ++ name, identities := ["SimpleRoom" ++ name] }
      (fun a => { a with active := true }) hfree
    cases hidentity : ice.stringToIdentity with
    | error e => exact ⟨_, rfl, rfl, by simp⟩
    | ok _ =>
        cases hadded : ice.add with
        | error e => exact ⟨_, rfl, rfl, by simp⟩
        | ok _ =>
            cases hactivated : ice.activate with
            | error e => exact ⟨_, rfl, hadd, by simp⟩
            | ok _ =>
                refine ⟨⟨_, ["SimpleRoom" ++ name], true⟩, rfl, ?_, by simp⟩
                dsimp only
                rw [hadd]
                repeat' split
                all_goals exact hactivate

/-- No call takes an adapter away. -/
theorem mem_step_adapters {a : ObjectAdapter} (h : a ∈ f.adapters) (c : Call R) :
    a ∈ (f.step c).1.adapters := by
  rcases newChatRoom_adapters c.ice c.object f c.name with ⟨-, e, he⟩ | ⟨-, b, -, hb, -⟩
  · rw [step, he]
    exact h
  · show a ∈ (f.newChatRoom c.ice c.object c.name).2.adapters
    rw [hb]
    exact List.mem_append_left _ h

/-- A room of whose name there is an adapter is refused, whatever was called in
between. -/
theorem newChatRoom_refused {name : String} {a : ObjectAdapter} (ha : a ∈ f.adapters)
    (hname : a.name = "SimpleRoom" ++ name) (calls : List (Call R)) (ice : Creation) (object : R) :
    (run step f calls).newChatRoom ice object name =
      (.error (.ice .localException), run step f calls) := by
  have hstay : a ∈ (run step f calls).adapters :=
    run_invariant (I := fun f : ChatRoomFactoryImpl => a ∈ f.adapters) calls
      (fun _ c _ h => mem_step_adapters h c) ha
  rw [newChatRoom, createObjectAdapter_taken hstay hname]

/-- A creation that raises leaves the communicator as it was. -/
def CleansUp (ice : Creation) (object : R) (f : ChatRoomFactoryImpl) (name : String) : Prop :=
  ∀ e, (f.newChatRoom ice object name).1 = .error e →
    (f.newChatRoom ice object name).2.adapters = f.adapters

/-- `add` raises, in a fresh factory: the adapter stays. -/
theorem not_cleansUp_add :
    ¬ CleansUp { Creation.works with add := .error (.ice .localException) } 0 .init "a" := by
  intro h
  exact absurd (h (.ice .localException) (by decide)) (by decide)

end ChatRoomFactoryImpl

/-- A factory that raises leaves its communicator as it was if
`createObjectAdapterWithEndpoints` raised.  If a later call raised the adapter stays,
active if the calls up to `activate` returned, and the name is refused from then on,
whatever else the factory is asked to make.  In either case a server that asked lists
no room for it. -/
theorem failed_creation {I : Type} (ice : Creation) (w : World I) (g : ℕ) {name : String}
    {e : Exception} (h : ((w.factories g).newChatRoom ice w.made name).1 = .error e) :
    let f := w.factories g
    let f' := (f.newChatRoom ice w.made name).2
    (f.Refuses ice ("SimpleRoom" ++ name) → f' = f) ∧
      (¬ f.Refuses ice ("SimpleRoom" ++ name) →
        ∃ a : ObjectAdapter, a.name = "SimpleRoom" ++ name ∧
          f' = { f with adapters := f.adapters ++ [a] } ∧
          (a.active = true ↔
            ice.stringToIdentity = .ok () ∧ ice.add = .ok () ∧ ice.activate = .ok ()) ∧
          ∀ (calls : List (ChatRoomFactoryImpl.Call ℕ)) (ice' : Creation) (object : ℕ),
            (run ChatRoomFactoryImpl.step f' calls).newChatRoom ice' object name =
              (.error (.ice .localException), run ChatRoomFactoryImpl.step f' calls)) ∧
      (w.server.asked (w.replies ice) name = some g →
        (w.newChatRoom ice name).2.server = w.server ∧
          (w.newChatRoom ice name).2.factories g = f') := by
  intro f f'
  have hcases := ChatRoomFactoryImpl.newChatRoom_adapters ice w.made f name
  refine ⟨fun hrefuses => ?_, fun hrefuses => ?_, fun hasked => ?_⟩
  · obtain ⟨-, e', he'⟩ := hcases.resolve_right fun h => h.1 hrefuses
    exact congrArg Prod.snd he'
  · obtain ⟨-, a, hname, hf', hactive⟩ := hcases.resolve_left fun h => hrefuses h.1
    refine ⟨a, hname, hf', hactive, fun calls ice' object => ?_⟩
    have ha : a ∈ (f.newChatRoom ice w.made name).2.adapters := by
      rw [hf']
      exact List.mem_append_right _ (List.mem_singleton_self a)
    exact ChatRoomFactoryImpl.newChatRoom_refused ha hname calls ice' object
  · constructor
    · obtain ⟨-, -, ⟨e', -, he'⟩ | ⟨room, hroom, -⟩⟩ :=
        ChatServerImpl.newChatRoom_of_asked_some hasked
      · rw [World.newChatRoom_server, he']
      · simp only [World.replies, h] at hroom
        cases hroom
    · rw [World.newChatRoom_factories_some hasked, Function.update_self]

/-- `checkedCast` raises: the first factory is left with an active adapter, and
the server that asked it lists no room. -/
theorem failed_creation_checkedCast :
    let ice : Creation := { Creation.works with checkedCast := .error (.ice .localException) }
    let w : World ℕ := World.init.registerRoomFactory
    ((w.factories 0).newChatRoom ice w.made "a").2.adapters =
        [⟨"SimpleRoom" ++ "a", ["SimpleRoom" ++ "a"], true⟩] ∧
      (w.newChatRoom ice "a").2.server = w.server := by
  intro ice w
  have hraises : ((w.factories 0).newChatRoom ice w.made "a").1 =
      .error (.ice .localException) := by decide
  have h := failed_creation ice w 0 hraises
  exact ⟨by decide, (h.2.2 (by decide)).1⟩

end Rso.Chat
