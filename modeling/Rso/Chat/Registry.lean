import Rso.Chat.Server

/-!
# The registered factories

`unregisterFactory` erases from the vector it iterates over.  `unregisterLoop`
is its loop as the source has it, with the iterator as a position in the vector:
an erasure leaves the iterator where it is, since the next entry has moved there.
It ends, and with what `eraseFactory` computes along the list
(`unregisterLoop_eq`).

Which factories are registered can then be read off the calls: those that were
registered and not unregistered since (`surviving`), whatever else was called.
Two proxies are the same where `==` says so.
-/

namespace Rso.Chat.ChatServerImpl

open Runs

variable {F R : Type} [BEq F]

/-! ## The loop of `unregisterFactory` -/

/-- The first passes of the loop; `none` if it has not come to its end by then. -/
def unregisterLoop (roomFactory : Prx F) :
    ℕ → (roomFactoryList : List (Prx F)) → (registredFactoryIt : ℕ) → Option (List (Prx F))
  | 0, _, _ => none
  | passes + 1, roomFactoryList, registredFactoryIt =>
      match roomFactoryList[registredFactoryIt]? with
      | none => some roomFactoryList
      | some f =>
          if f == roomFactory then
            unregisterLoop roomFactory passes (roomFactoryList.eraseIdx registredFactoryIt)
              registredFactoryIt
          else unregisterLoop roomFactory passes roomFactoryList (registredFactoryIt + 1)

/-- With `passed` behind the iterator, the loop looks at each entry of `rest` once. -/
theorem unregisterLoop_eq (roomFactory : Prx F) :
    ∀ passed rest : List (Prx F),
      unregisterLoop roomFactory (rest.length + 1) (passed ++ rest) passed.length =
        some (eraseFactory roomFactory passed rest) := by
  intro passed rest
  induction rest generalizing passed with
  | nil => simp [unregisterLoop, eraseFactory]
  | cons f rest ih =>
      have hat : (passed ++ f :: rest)[passed.length]? = some f := by simp
      rw [List.length_cons, unregisterLoop, hat, eraseFactory]
      dsimp only
      by_cases hf : (f == roomFactory) = true
      · have herase : (passed ++ f :: rest).eraseIdx passed.length = passed ++ rest := by
          rw [List.eraseIdx_append_of_length_le (Nat.le_refl _), Nat.sub_self,
            List.eraseIdx_cons_zero]
        rw [if_pos hf, if_pos hf, herase, ih]
      · have happend : passed ++ f :: rest = (passed ++ [f]) ++ rest := by simp
        have hnext : passed.length + 1 = (passed ++ [f]).length := by simp
        rw [if_neg hf, if_neg hf, happend, hnext, ih]

/-! ## The history of the registry -/

/-- The call unregisters a factory equal to `roomFactory`. -/
def unregisters (roomFactory : Prx F) : Call F R → Bool
  | .unregisterFactory other => roomFactory == other
  | _ => false

/-- The registered proxies, in order, that no later call unregisters. -/
def surviving : List (Call F R) → List (Prx F)
  | [] => []
  | .registerFactory roomFactory :: calls =>
      if calls.any (unregisters roomFactory) then surviving calls
      else roomFactory :: surviving calls
  | _ :: calls => surviving calls

/-- A call appends the factory it registers or drops those it unregisters. -/
theorem step_factories (s : ChatServerImpl F R) (c : Call F R) :
    (s.step c).1.roomFactoryList =
      s.roomFactoryList.filter (fun f => !unregisters f c) ++ surviving [c] := by
  cases c with
  | newChatRoom name replies =>
      rcases newChatRoom_cases replies s name with ⟨e, he⟩ | ⟨room, hroom, -⟩
      · simp [step, he, surviving, unregisters]
      · simp [step, hroom, surviving, unregisters, publish]
  | getRooms => simp [step, surviving, unregisters]
  | getRoom name => simp [step, getRoom_factories, surviving, unregisters]
  | registerFactory roomFactory => simp [step, registerFactory, surviving, unregisters]
  | unregisterFactory roomFactory =>
      simp [step, unregisterFactory, eraseFactory_eq, surviving, unregisters]

/-- A call before the others: what it registers survives unless it is unregistered. -/
theorem surviving_cons (c : Call F R) (calls : List (Call F R)) :
    surviving (c :: calls) =
      (surviving [c]).filter (fun f => !calls.any (unregisters f)) ++ surviving calls := by
  cases c with
  | registerFactory roomFactory =>
      cases h : calls.any (unregisters roomFactory) <;> simp [surviving, h]
  | newChatRoom name replies => rfl
  | getRooms => rfl
  | getRoom name => rfl
  | unregisterFactory roomFactory => rfl

/-- After a run the list has what of the old entries survives, and then what the
run registered. -/
theorem run_factories :
    ∀ (calls : List (Call F R)) (s : ChatServerImpl F R),
      (run step s calls).roomFactoryList =
        s.roomFactoryList.filter (fun f => !calls.any (unregisters f)) ++ surviving calls := by
  intro calls
  induction calls with
  | nil =>
      intro s
      simp [surviving]
  | cons c calls ih =>
      intro s
      rw [run_cons, ih, step_factories, List.filter_append, List.filter_filter,
        surviving_cons c calls, List.append_assoc]
      simp only [List.any_cons, Bool.not_or, Bool.and_comm]

/-- The registered factories are those of the history, and the loop that takes
factories out ends with all equal entries gone and no other. -/
theorem registry_right :
    (∀ calls : List (Call F R), (run step .init calls).roomFactoryList = surviving calls) ∧
      ∀ (s : ChatServerImpl F R) (roomFactory : Prx F),
        unregisterLoop roomFactory (s.roomFactoryList.length + 1) s.roomFactoryList 0 =
          some (s.unregisterFactory roomFactory).roomFactoryList ∧
        (s.unregisterFactory roomFactory).roomFactoryList =
          s.roomFactoryList.filter fun f => !(f == roomFactory) := by
  refine ⟨fun calls => ?_, fun s roomFactory => ⟨?_, ?_⟩⟩
  · exact run_factories calls .init
  · exact unregisterLoop_eq roomFactory [] s.roomFactoryList
  · exact eraseFactory_eq roomFactory [] s.roomFactoryList

/-- Adjacent and last entries go, and a factory that comes back stays. -/
example : surviving (R := ℕ) [Call.registerFactory (some 1), .registerFactory (some 1),
    .registerFactory none, .registerFactory (some 2), .registerFactory (some 1),
    .unregisterFactory (some 1), .registerFactory (some 1)] = [none, some 2, some 1] := rfl

end Rso.Chat.ChatServerImpl
