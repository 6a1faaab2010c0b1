import Mathlib.Algebra.Ring.Int.Defs
import Rso.Chat.World

/-!
# Room counts

The server balances the load by what the factories answer to `getNumberOfRooms`.
So that number should be the number of rooms the factory made, and over all
factories it should add up to the list of the server (`CountsAgree`).

A factory answers with the size of its `roomList`, and no operation of the
factory adds to that list.  So the counts agree as long as no room is made.
-/

namespace Rso.Chat

open Runs

namespace World

variable {I : Type}

/-- What happens to the system from outside. -/
inductive Event (I : Type) where
  | remote (c : Remote I)
  | registerRoomFactory
  | unregisterFactory (f : Nat)

/-- The factory that completes a `newChatRoom` of its own in the course of a call. -/
def completes (ice : Creation) (w : World I) : Remote I → Option Nat
  | .newChatRoom name =>
      (w.server.asked (w.replies ice) name).filter fun f =>
        ((w.factories f).newChatRoom ice w.made name).1.isOk
  | _ => none

theorem completes_of_ne {ice : Creation} {w : World I} {c : Remote I}
    (h : ∀ name, c ≠ .newChatRoom name) : w.completes ice c = none := by
  cases c with
  | newChatRoom name => exact absurd rfl (h name)
  | _ => rfl

/-- One event, with no factory failing.  The answer is the factory that completed
a `newChatRoom`. -/
def step (w : World I) : Event I → World I × Option Nat
  | .remote c => ((handle .works c w).2, w.completes .works c)
  | .registerRoomFactory => (w.registerRoomFactory, none)
  | .unregisterFactory f => (w.unregisterFactory f, none)

/-- Each factory counts the `newChatRoom` calls it completed, and all the rooms
counted are those of the server's list. -/
structure CountsAgree (w : World I) (completed : List (Option Nat)) : Prop where
  each : ∀ f < w.started, (w.factories f).getNumberOfRooms = completed.count (some f)
  total : ((List.range w.started).map fun f => (w.factories f).getNumberOfRooms).sum =
    w.server.getRooms.length

/-- No factory is registered when a room is asked for. -/
def NoFactoryFor (w : World I) : Event I → Prop
  | .remote (.newChatRoom _) => w.server.roomFactoryList = []
  | _ => True

/-! ## What the factories count -/

/-- Every factory counts no room. -/
def CountsNothing (w : World I) : Prop := ∀ f, (w.factories f).roomList = []

theorem newChatRoom_countsNothing {w : World I} (h : w.CountsNothing) (ice : Creation)
    (name : String) : (w.newChatRoom ice name).2.CountsNothing := by
  intro f
  cases hasked : w.server.asked (w.replies ice) name with
  | none =>
      rw [newChatRoom_factories_none hasked]
      exact h f
  | some g =>
      rw [newChatRoom_factories_some hasked]
      rcases eq_or_ne f g with rfl | hfg
      · rw [Function.update_self, ChatRoomFactoryImpl.newChatRoom_roomList, h]
      · rw [Function.update_of_ne hfg, h]

theorem CountsNothing.step {w : World I} (h : w.CountsNothing) (e : Event I) :
    (w.step e).1.CountsNothing := by
  cases e with
  | remote c =>
      rcases handle_frame .works c w with ⟨name, rfl⟩ | ⟨name, rfl⟩ | ⟨-, rooms, hw⟩
      · exact newChatRoom_countsNothing h _ name
      · exact h
      · rw [World.step, hw]
        exact h
  | registerRoomFactory =>
      intro f
      rw [World.step, registerRoomFactory_factories]
      split
      next => rfl
      next => exact h f
  | unregisterFactory f => exact h

theorem CountsNothing.total {w : World I} (h : w.CountsNothing) :
    ((List.range w.started).map fun f => (w.factories f).getNumberOfRooms).sum = 0 := by
  have hzero : ∀ f, (w.factories f).getNumberOfRooms = 0 := fun f => by
    rw [ChatRoomFactoryImpl.getNumberOfRooms, h]
    rfl
  simp [hzero]

/-! ## Before the first room -/

/-- No room was asked of a factory yet. -/
structure Roomless (w : World I) : Prop where
  rooms : w.server.roomList = []
  factories : ∀ f, w.factories f = .init
  registered : none ∉ w.server.roomFactoryList

theorem init_roomless : Roomless (init : World I) :=
  ⟨rfl, fun _ => rfl, List.not_mem_nil⟩

theorem Roomless.countsNothing {w : World I} (h : Roomless w) : w.CountsNothing := by
  intro f
  rw [h.factories]
  rfl

theorem Roomless.names {w : World I} (h : Roomless w) (name : String) :
    name ∉ w.server.names := by
  rw [ChatServerImpl.names, h.rooms]
  exact List.not_mem_nil

/-- An event that makes no room. -/
theorem Roomless.step {w : World I} (h : Roomless w) {e : Event I} (he : w.NoFactoryFor e) :
    Roomless (w.step e).1 ∧ (w.step e).2 = none := by
  cases e with
  | remote c =>
      rcases handle_frame .works c w with ⟨name, rfl⟩ | ⟨name, rfl⟩ | ⟨hc, rooms, hw⟩
      · have hempty : w.server.roomFactoryList = [] := he
        have hfree : ¬ w.server.roomList.any (·.name == name) = true := by simp [h.rooms]
        have hasked : w.server.asked (w.replies .works) name = none := by
          rw [ChatServerImpl.asked, if_neg hfree, hempty]
          rfl
        obtain ⟨e, hnew⟩ := ChatServerImpl.newChatRoom_of_asked_none hasked
        simp only [World.step, handle, newChatRoom, completes, hasked, hnew]
        exact ⟨h, rfl⟩
      · simp only [World.step, handle, ChatServerImpl.getRoom_unlisted (h.names name)]
        exact ⟨h, rfl⟩
      · refine ⟨?_, ?_⟩
        · rw [World.step, hw]
          exact ⟨h.rooms, h.factories, h.registered⟩
        · exact completes_of_ne hc
  | registerRoomFactory =>
      refine ⟨⟨h.rooms, fun f => ?_, ?_⟩, rfl⟩
      · rw [World.step, registerRoomFactory_factories, h.factories]
        split <;> rfl
      · intro hm
        rcases List.mem_append.mp hm with hm | hm
        · exact h.registered hm
        · cases List.mem_singleton.mp hm
  | unregisterFactory f =>
      refine ⟨⟨h.rooms, h.factories, fun hm => ?_⟩, rfl⟩
      rw [World.step, unregisterFactory, ChatServerImpl.unregisterFactory,
        ChatServerImpl.eraseFactory_eq, List.nil_append] at hm
      exact h.registered (List.mem_of_mem_filter hm)

/-- An event that asks for a room while a factory is registered makes the first
room. -/
theorem Roomless.rooms_of_not {w : World I} (h : Roomless w) {e : Event I}
    (he : ¬ w.NoFactoryFor e) : (w.step e).1.server.getRooms.length = 1 := by
  cases e with
  | remote c =>
      cases c with
      | newChatRoom name =>
          obtain ⟨factories, hfactories⟩ := Prx.exists_map_some h.registered
          have hsome : factories ≠ [] := by
            rintro rfl
            exact he hfactories
          have hanswering : ChatServerImpl.Answering (fun _ => True) (w.replies .works) := by
            refine ⟨fun i f _ => ⟨_, rfl⟩, fun _ _ hf => absurd trivial hf, fun f n _ => ?_,
              fun _ _ hf => absurd trivial hf⟩
            have hmade := ChatRoomFactoryImpl.newChatRoom_works w.made n
              (congrArg ChatRoomFactoryImpl.adapters (h.factories f))
            exact ⟨some w.made, by simp only [replies, hmade]; rfl⟩
          obtain ⟨f, room, -, -, -, hnew⟩ := ChatServerImpl.newChatRoom_alive hanswering
            (h.names name) hsome hfactories fun _ _ => trivial
          rw [World.step, handle, newChatRoom_server, hnew, ChatServerImpl.getRooms,
            ChatServerImpl.publish, h.rooms]
          rfl
      | _ => exact absurd trivial he
  | registerRoomFactory => exact absurd trivial he
  | unregisterFactory f => exact absurd trivial he

/-! ## Whole runs -/

theorem roomless_run {events : List (Event I)} (h : Along step NoFactoryFor init events) :
    Roomless (run step (init : World I) events) ∧
      ∀ a ∈ answers step (init : World I) events, a = none :=
  along_invariant (fun _ _ hw he => hw.step he) events init_roomless h

/-- The counts agree throughout a run exactly when no room is asked for while a
factory is registered. -/
theorem counts_throughout_iff (events : List (Event I)) :
    (∀ before after, events = before ++ after →
      CountsAgree (run step init before) (answers step init before)) ↔
    Along step NoFactoryFor init events := by
  constructor
  · intro h
    by_contra hnot
    obtain ⟨before, e, after, he, hbefore, hmiss⟩ := exists_first_failure step NoFactoryFor _ _ hnot
    have hroomless := (roomless_run hbefore).1
    have hagree := h (before ++ [e]) after (by rw [he]; simp)
    have htotal := hagree.total
    rw [run_append, run_cons, run_nil, (hroomless.countsNothing.step e).total,
      hroomless.rooms_of_not hmiss] at htotal
    cases htotal
  · intro h before after he
    rw [he, along_append] at h
    obtain ⟨hroomless, hnone⟩ := roomless_run h.1
    refine ⟨fun f _ => ?_, ?_⟩
    · have hcount : (answers step (init : World I) before).count (some f) = 0 := by
        rw [List.count_eq_zero]
        intro hm
        cases hnone _ hm
      rw [hcount, ChatRoomFactoryImpl.getNumberOfRooms, hroomless.countsNothing]
      rfl
    · rw [hroomless.countsNothing.total, ChatServerImpl.getRooms, hroomless.rooms]
      rfl

/-- A factory is registered and makes a room. -/
theorem not_countsAgree_one_room :
    ¬ CountsAgree
        (run step (init : World Nat) [.registerRoomFactory, .remote (.newChatRoom "a")])
        (answers step (init : World Nat) [.registerRoomFactory, .remote (.newChatRoom "a")]) := by
  intro h
  exact absurd (h.each 0 (by decide)) (by decide)

end World

end Rso.Chat
