import Rso.Lib.Process
import Rso.Lib.Scan

/-!
# The menu of the chat client

`Menu::getInput` reads `choice` with `cin >> choice` until it is an option of the
menu.  It looks at the number only, never at the stream: what an extraction that
failed left in `choice` is taken for what was typed.  A word that is no integer
leaves 0, the option that ends the client.  A failed stream stays failed and
leaves `choice` alone, so a number too large for an `int` is read for ever, and at
the end of the input the option of the call before is returned again.

The menu does what it is for as long as only integers are typed that an `int`
holds, and an option comes before the end.
-/

namespace Rso.Chat

open Proc Scan

/-- An input stream: what is still to be read, and the fail state. -/
structure Istream where
  rest : List Char
  failed : Bool
deriving DecidableEq, Repr

/-- `cin >> value`: what `value` holds then, and the stream. -/
def Istream.extract (value : Int32) (s : Istream) : Int32 × Istream :=
  if s.failed then (value, s)
  else if skipSpace s.rest = [] then (value, ⟨[], true⟩)
  else
    match integer (skipSpace s.rest) with
    | none => (0, ⟨skipSpace s.rest, true⟩)
    | some (n, rest) =>
        if n < -2147483648 then (Int32.minValue, ⟨rest, true⟩)
        else if 2147483647 < n then (Int32.maxValue, ⟨rest, true⟩)
        else (Int32.ofInt n, ⟨rest, false⟩)

/-- The member of a `Menu`. -/
structure Menu where
  choice : Int32

namespace Menu

/-- One pass of the loop in `getInput`. -/
def inputPass (m : Menu) : Proc Istream (Menu ⊕ Menu) := do
  if m.choice < 0 ∨ 7 < m.choice then
    let choice ← call (Istream.extract m.choice)
    return .inl { m with choice }
  else return .inr m

def getInput (fuel : ℕ) (m : Menu) : Proc Istream Menu := do
  let choice ← call (Istream.extract m.choice)
  loop inputPass fuel { m with choice }

/-- Returns the choice and the menu. -/
def getChoice (fuel : ℕ) (m : Menu) : Proc Istream (Int32 × Menu) := do
  let m ← getInput fuel m
  return (m.choice, m)

/-! ## What is typed -/

/-- The number is an option of the menu. -/
def IsOption (n : ℤ) : Prop := 0 ≤ n ∧ n ≤ 7

/-- The first integer of the input that is an option, and what follows it.  Other
integers and words that are no integers stand before it. -/
inductive FirstOption : (input : List Char) → ℤ → (rest : List Char) → Prop where
  | option : integer (skipSpace input) = some (n, rest) → IsOption n → FirstOption input n rest
  | other : integer (skipSpace input) = some (n', rest') → ¬ IsOption n' →
      FirstOption rest' n rest → FirstOption input n rest
  | word : skipSpace input ≠ [] → integer (skipSpace input) = none →
      FirstOption (skipWord (skipSpace input)) n rest → FirstOption input n rest

/-- The same with nothing before it but integers that an `int` holds. -/
inductive Typed : (input : List Char) → ℤ → (rest : List Char) → Prop where
  | option : integer (skipSpace input) = some (n, rest) → IsOption n → Typed input n rest
  | other : integer (skipSpace input) = some (n', rest') → ¬ IsOption n' → FitsInt n' →
      Typed rest' n rest → Typed input n rest

/-- Calls of `getChoice` each return, with the first option of the input that was
not consumed, and have consumed the input up to that option.  Before each call
something else may be done with the stream. -/
def Prompts (fuel : ℕ) : List (Istream → Istream) → Menu → Istream → Prop
  | [], _, _ => True
  | act :: acts, m, s => ∃ n m' s', getChoice fuel m (act s) = .ok (n, m') s' ∧
      FirstOption (act s).rest n.toInt s'.rest ∧ Prompts fuel acts m' s'

/-- At each call the stream is good and an option is typed. -/
def AllTyped : List (Istream → Istream) → Istream → Prop
  | [], _ => True
  | act :: acts, s => (act s).failed = false ∧
      ∃ n rest, Typed (act s).rest n rest ∧ AllTyped acts ⟨rest, false⟩

/-- An option is behind some of the input. -/
theorem FirstOption.shorter {input rest : List Char} {n : ℤ} (h : FirstOption input n rest) :
    rest.length < (skipSpace input).length := by
  induction h with
  | option hint _ => exact integer_shorter hint
  | other hint _ _ ih =>
      have hshorter := integer_shorter hint
      exact Nat.lt_trans (Nat.lt_of_lt_of_le ih (skipSpace_le _)) hshorter
  | word _ _ _ ih =>
      exact Nat.lt_of_lt_of_le ih (Nat.le_trans (skipSpace_le _) (skipWord_le _))

/-- The first option stands behind an integer that is none. -/
theorem FirstOption.behind {input rest rest' : List Char} {n n' : ℤ} (h : FirstOption input n rest)
    (hint : integer (skipSpace input) = some (n', rest')) (hnot : ¬ IsOption n') :
    FirstOption rest' n rest := by
  cases h with
  | option hint' hoption =>
      cases hint.symm.trans hint'
      exact absurd hoption hnot
  | other hint' _ hrest =>
      cases hint.symm.trans hint'
      exact hrest
  | word _ hnone _ => cases hint.symm.trans hnone

/-! ## The extraction -/

section Extraction

variable {value : Int32} {input rest : List Char} {n : ℤ}

theorem extract_failed {s : Istream} (h : s.failed = true) : s.extract value = (value, s) := by
  rw [Istream.extract, if_pos h]

theorem extract_word (hword : skipSpace input ≠ []) (h : integer (skipSpace input) = none) :
    Istream.extract value ⟨input, false⟩ = (0, ⟨skipSpace input, true⟩) := by
  rw [Istream.extract, if_neg Bool.false_ne_true, if_neg hword]
  simp only [h]

/-- There is no integer at the end of a text. -/
theorem skipSpace_ne_nil (h : integer (skipSpace input) = some (n, rest)) :
    skipSpace input ≠ [] := by
  intro hnil
  have hshorter := integer_shorter h
  rw [hnil] at hshorter
  exact absurd hshorter (Nat.not_lt_zero _)

theorem extract_integer (h : integer (skipSpace input) = some (n, rest)) (hfits : FitsInt n) :
    Istream.extract value ⟨input, false⟩ = (Int32.ofInt n, ⟨rest, false⟩) := by
  rw [Istream.extract, if_neg Bool.false_ne_true, if_neg (skipSpace_ne_nil h)]
  simp only [h]
  rw [if_neg (Int.not_lt.mpr hfits.1), if_neg (Int.not_lt.mpr hfits.2)]

/-- The nearest limit, which is no option. -/
theorem extract_large (value : Int32) (h : integer (skipSpace input) = some (n, rest))
    (hfits : ¬ FitsInt n) :
    ∃ limit : Int32, (limit < 0 ∨ 7 < limit) ∧
      Istream.extract value ⟨input, false⟩ = (limit, ⟨rest, true⟩) := by
  rw [Istream.extract, if_neg Bool.false_ne_true, if_neg (skipSpace_ne_nil h)]
  simp only [h]
  by_cases hlow : n < -2147483648
  · refine ⟨Int32.minValue, Or.inl (by decide), ?_⟩
    rw [if_pos hlow]
  · have hhigh : 2147483647 < n := by
      by_contra hnot
      exact hfits ⟨Int.not_lt.mp hlow, Int.not_lt.mp hnot⟩
    refine ⟨Int32.maxValue, Or.inr (by decide), ?_⟩
    rw [if_neg hlow, if_pos hhigh]

theorem IsOption.fitsInt (h : IsOption n) : FitsInt n := by
  have hlow := h.1
  have hhigh := h.2
  constructor
  · omega
  · omega

/-- The test of the loop, for a number that was read. -/
theorem outside_iff (c : Int32) : (c < 0 ∨ 7 < c) ↔ ¬ IsOption c.toInt := by
  rw [Int32.lt_iff_toInt_lt, Int32.lt_iff_toInt_lt, IsOption]
  have hzero : (0 : Int32).toInt = 0 := rfl
  have hseven : (7 : Int32).toInt = 7 := rfl
  rw [hzero, hseven]
  omega

end Extraction

/-! ## The loop -/

section Loop

variable {m m' : Menu} {s s' : Istream} {fuel : ℕ} {input rest : List Char} {n : ℤ}

theorem getInput_eq (fuel : ℕ) (m : Menu) (s : Istream) :
    getInput fuel m s = loop inputPass fuel ⟨(s.extract m.choice).1⟩ (s.extract m.choice).2 := rfl

/-- A choice that is no option is read anew. -/
theorem loop_outside (h : m.choice < 0 ∨ 7 < m.choice) (fuel : ℕ) (s : Istream) :
    loop inputPass (fuel + 1) m s = getInput fuel m s := by
  have hpass : inputPass m s = .ok (.inl ⟨(s.extract m.choice).1⟩) (s.extract m.choice).2 := by
    rw [inputPass, if_pos h]
    rfl
  rw [loop_next hpass, getInput_eq]

theorem loop_option (h : ¬ (m.choice < 0 ∨ 7 < m.choice)) (fuel : ℕ) (s : Istream) :
    loop inputPass (fuel + 1) m s = .ok m s := by
  have hpass : inputPass m s = .ok (.inr m) s := by
    rw [inputPass, if_neg h]
    rfl
  exact loop_result hpass

/-- On a failed stream a choice that is no option is read for ever. -/
theorem loop_stuck (h : m.choice < 0 ∨ 7 < m.choice) (hs : s.failed = true) (fuel : ℕ) :
    loop inputPass fuel m s ≠ .ok m' s' := by
  induction fuel with
  | zero => exact nofun
  | succ fuel ih =>
      rw [loop_outside h, getInput_eq, extract_failed hs]
      exact ih

/-- A loop on a failed stream that ends has read nothing. -/
theorem loop_failed (hs : s.failed = true) (h : loop inputPass fuel m s = .ok m' s') :
    s' = s := by
  by_cases houtside : m.choice < 0 ∨ 7 < m.choice
  · exact absurd h (loop_stuck houtside hs fuel)
  · cases fuel with
    | zero => cases h
    | succ fuel =>
        rw [loop_option houtside] at h
        cases h
        rfl

/-- An option is returned, another number is passed over, and one that is too large
is not passed. -/
theorem getInput_option (hint : integer (skipSpace input) = some (n, rest)) (hoption : IsOption n)
    (fuel : ℕ) (m : Menu) :
    getInput (fuel + 1) m ⟨input, false⟩ = .ok ⟨Int32.ofInt n⟩ ⟨rest, false⟩ := by
  rw [getInput_eq, extract_integer hint hoption.fitsInt]
  refine loop_option ?_ fuel _
  rw [outside_iff, toInt_ofInt hoption.fitsInt]
  exact not_not_intro hoption

theorem getInput_other (hint : integer (skipSpace input) = some (n, rest)) (hnot : ¬ IsOption n)
    (hfits : FitsInt n) (fuel : ℕ) (m : Menu) :
    getInput (fuel + 1) m ⟨input, false⟩ = getInput fuel ⟨Int32.ofInt n⟩ ⟨rest, false⟩ := by
  rw [getInput_eq, extract_integer hint hfits]
  refine loop_outside ?_ fuel _
  rw [outside_iff, toInt_ofInt hfits]
  exact hnot

theorem getInput_large (hint : integer (skipSpace input) = some (n, rest)) (hfits : ¬ FitsInt n) :
    getInput fuel m ⟨input, false⟩ ≠ .ok m' s' := by
  obtain ⟨limit, houtside, hlarge⟩ := extract_large m.choice hint hfits
  rw [getInput_eq, hlarge]
  exact loop_stuck houtside rfl fuel

/-- What is typed is returned. -/
theorem getInput_typed (h : Typed input n rest) :
    ∃ passes, ∀ fuel, passes < fuel → ∀ m,
      getInput fuel m ⟨input, false⟩ = .ok ⟨Int32.ofInt n⟩ ⟨rest, false⟩ := by
  induction h with
  | option hint hoption =>
      refine ⟨0, fun fuel hfuel m => ?_⟩
      obtain ⟨fuel, rfl⟩ : ∃ f, fuel = f + 1 := ⟨fuel - 1, by omega⟩
      exact getInput_option hint hoption fuel m
  | other hint hnot hfits _ ih =>
      obtain ⟨passes, hpasses⟩ := ih
      refine ⟨passes + 1, fun fuel hfuel m => ?_⟩
      obtain ⟨fuel, rfl⟩ : ∃ f, fuel = f + 1 := ⟨fuel - 1, by omega⟩
      rw [getInput_other hint hnot hfits]
      exact hpasses fuel (by omega) _

/-- Unless an integer comes next on a good stream, nothing is read up to an option. -/
theorem exists_integer (h : getInput fuel m s = .ok m' s') (hfirst : FirstOption s.rest n s'.rest) :
    s.failed = false ∧ ∃ n' rest', integer (skipSpace s.rest) = some (n', rest') := by
  have hshorter := hfirst.shorter
  obtain ⟨input, failed⟩ := s
  rw [getInput_eq] at h
  cases failed with
  | true =>
      rw [extract_failed rfl] at h
      rw [loop_failed rfl h] at hshorter
      exact absurd hshorter (Nat.not_lt_of_ge (skipSpace_le _))
  | false =>
      refine ⟨rfl, ?_⟩
      by_cases hend : skipSpace input = []
      · rw [hend] at hshorter
        exact absurd hshorter (Nat.not_lt_zero _)
      · cases hint : integer (skipSpace input) with
        | some r => exact ⟨r.1, r.2, rfl⟩
        | none =>
            rw [extract_word hend hint] at h
            rw [loop_failed rfl h] at hshorter
            exact absurd hshorter (Nat.lt_irrefl _)

/-- The first option is returned only if it is typed. -/
theorem typed_of_getInput :
    ∀ (fuel : ℕ) {m : Menu} {s : Istream}, getInput fuel m s = .ok m' s' →
      FirstOption s.rest m'.choice.toInt s'.rest →
      s.failed = false ∧ s'.failed = false ∧ Typed s.rest m'.choice.toInt s'.rest := by
  intro fuel
  induction fuel with
  | zero =>
      intro m s h _
      cases h
  | succ fuel ih =>
      rintro m ⟨input, failed⟩ h hfirst
      obtain ⟨hgood, n, rest, hint⟩ := exists_integer h hfirst
      subst hgood
      by_cases hfits : FitsInt n
      · by_cases hoption : IsOption n
        · rw [getInput_option hint hoption] at h
          cases h
          refine ⟨rfl, rfl, ?_⟩
          show Typed input (Int32.ofInt n).toInt rest
          rw [toInt_ofInt hfits]
          exact .option hint hoption
        · rw [getInput_other hint hoption hfits] at h
          obtain ⟨-, hgood', htyped⟩ := ih h (hfirst.behind hint hoption)
          exact ⟨rfl, hgood', .other hint hoption hfits htyped⟩
      · exact absurd h (getInput_large hint hfits)

end Loop

/-! ## The calls -/

theorem Typed.isOption {input rest : List Char} {n : ℤ} (h : Typed input n rest) : IsOption n := by
  induction h with
  | option _ hoption => exact hoption
  | other _ _ _ _ ih => exact ih

theorem Typed.firstOption {input rest : List Char} {n : ℤ} (h : Typed input n rest) :
    FirstOption input n rest := by
  induction h with
  | option hint hoption => exact .option hint hoption
  | other hint hnot _ _ ih => exact .other hint hnot ih

theorem getChoice_eq_ok_iff {fuel : ℕ} {m m' : Menu} {s s' : Istream} {n : Int32} :
    getChoice fuel m s = .ok (n, m') s' ↔ getInput fuel m s = .ok m' s' ∧ n = m'.choice := by
  rw [getChoice]
  cases h : getInput fuel m s with
  | ok out s'' =>
      rw [bind_ok h]
      constructor
      · intro heq
        cases heq
        exact ⟨rfl, rfl⟩
      · rintro ⟨heq, rfl⟩
        cases heq
        rfl
  | error e s'' =>
      rw [bind_error h]
      exact iff_of_false nofun nofun

/-- Every call returns the first option that is typed, exactly when at each call an
option is typed behind nothing but integers that an `int` holds. -/
theorem prompts_iff (acts : List (Istream → Istream)) (m : Menu) (s : Istream) :
    (∃ enough, ∀ fuel, enough ≤ fuel → Prompts fuel acts m s) ↔ AllTyped acts s := by
  constructor
  · rintro ⟨enough, h⟩
    have hprompts := h enough (Nat.le_refl _)
    clear h
    induction acts generalizing m s with
    | nil => trivial
    | cons act acts ih =>
        obtain ⟨n, m', s', hcall, hfirst, hrest⟩ := hprompts
        obtain ⟨hinput, rfl⟩ := getChoice_eq_ok_iff.mp hcall
        obtain ⟨hgood, hgood', htyped⟩ := typed_of_getInput enough hinput hfirst
        obtain ⟨rest, failed⟩ := s'
        cases hgood'
        exact ⟨hgood, _, rest, htyped, ih m' ⟨rest, false⟩ hrest⟩
  · induction acts generalizing m s with
    | nil => exact fun _ => ⟨0, fun _ _ => trivial⟩
    | cons act acts ih =>
        rintro ⟨hgood, n, rest, htyped, hrest⟩
        obtain ⟨passes, hpasses⟩ := getInput_typed htyped
        obtain ⟨enough, henough⟩ := ih ⟨Int32.ofInt n⟩ ⟨rest, false⟩ hrest
        refine ⟨enough + passes + 1, fun fuel hfuel => ?_⟩
        have hstream : act s = ⟨(act s).rest, false⟩ := by rw [← hgood]
        have hinput := hpasses fuel (by omega) m
        rw [← hstream] at hinput
        refine ⟨Int32.ofInt n, ⟨Int32.ofInt n⟩, ⟨rest, false⟩,
          getChoice_eq_ok_iff.mpr ⟨hinput, rfl⟩, ?_, henough fuel (by omega)⟩
        rw [toInt_ofInt htyped.isOption.fitsInt]
        exact htyped.firstOption

/-- `"quit"` is typed: the client is told to exit. -/
theorem not_prompts_word :
    ¬ ∃ enough, ∀ fuel, enough ≤ fuel → Prompts fuel [id] ⟨1⟩ ⟨"quit".toList, false⟩ := by
  rintro ⟨enough, h⟩
  obtain ⟨n, m', s', hcall, hfirst, -⟩ := h enough (Nat.le_refl _)
  obtain ⟨hinput, rfl⟩ := getChoice_eq_ok_iff.mp hcall
  obtain ⟨-, -, htyped⟩ := typed_of_getInput enough hinput hfirst
  have hword : integer (skipSpace "quit".toList) = none := by decide
  cases htyped with
  | option hint _ => cases hword.symm.trans hint
  | other hint _ _ _ => cases hword.symm.trans hint

end Menu

end Rso.Chat
