import Mathlib.Data.List.DropRight
import Mathlib.Data.List.TakeWhile

/-!
# Scanning text

Formatted input of C and C++ skips white space and then takes the longest text
that can begin the wanted item.  `integer` is the item of an `int` in base ten: an
optional sign and digits.  It does not look at what follows the digits, and it
has no bound; what a number that is too large does is up to the caller.

Every item that is taken makes the text shorter (`integer_shorter`), which is
what loops over a text recurse on.
-/

namespace Rso.Scan

/-- `isspace` in the C locale. -/
def isSpace (c : Char) : Bool := c = ' ' || (9 ≤ c.toNat && c.toNat ≤ 13)

/-- The text behind the white space at its start. -/
def skipSpace (text : List Char) : List Char := text.dropWhile isSpace

/-- The text from the next white space on. -/
def skipWord (text : List Char) : List Char := text.dropWhile fun c => !isSpace c

/-- The number that digits stand for. -/
def digitsValue (digits : List Char) : ℕ :=
  digits.foldl (fun value d => 10 * value + (d.toNat - '0'.toNat)) 0

/-- The digits at the start of a text, and what follows them. -/
def natural (text : List Char) : Option (ℕ × List Char) :=
  if text.takeWhile Char.isDigit = [] then none
  else some (digitsValue (text.takeWhile Char.isDigit), text.dropWhile Char.isDigit)

/-- The integer at the start of a text, and what follows it. -/
def integer : List Char → Option (ℤ × List Char)
  | '-' :: text => (natural text).map fun r => (-(r.1 : ℤ), r.2)
  | '+' :: text => (natural text).map fun r => ((r.1 : ℤ), r.2)
  | text => (natural text).map fun r => ((r.1 : ℤ), r.2)

/-- An `int` holds the number. -/
def FitsInt (n : ℤ) : Prop := -2147483648 ≤ n ∧ n ≤ 2147483647

instance (n : ℤ) : Decidable (FitsInt n) := inferInstanceAs (Decidable (_ ∧ _))

theorem toInt_ofInt {n : ℤ} (h : FitsInt n) : (Int32.ofInt n).toInt = n :=
  Int32.toInt_ofInt_of_le h.1 (Int.lt_of_le_of_lt h.2 (by decide))

theorem length_dropWhile_le {α : Type} (p : α → Bool) (l : List α) :
    (l.dropWhile p).length ≤ l.length :=
  (List.dropWhile_sublist p).length_le

theorem skipSpace_le (text : List Char) : (skipSpace text).length ≤ text.length :=
  length_dropWhile_le isSpace text

@[simp] theorem skipSpace_skipSpace (text : List Char) :
    skipSpace (skipSpace text) = skipSpace text :=
  List.dropWhile_idempotent isSpace text

theorem skipWord_le (text : List Char) : (skipWord text).length ≤ text.length :=
  length_dropWhile_le _ text

theorem natural_shorter {text rest : List Char} {n : ℕ} (h : natural text = some (n, rest)) :
    rest.length < text.length := by
  rw [natural] at h
  split at h
  next => cases h
  next hdigits =>
    cases h
    have hsplit := congrArg List.length (List.takeWhile_append_dropWhile (p := Char.isDigit)
      (l := text))
    rw [List.length_append] at hsplit
    have hpos := List.length_pos_iff.mpr hdigits
    omega

/-- An integer takes at least one digit. -/
theorem integer_shorter {text rest : List Char} {n : ℤ} (h : integer text = some (n, rest)) :
    rest.length < text.length := by
  unfold integer at h
  split at h
  next digits =>
    obtain ⟨r, hr, heq⟩ := Option.map_eq_some_iff.mp h
    have hshorter : r.2.length < digits.length := natural_shorter (n := r.1) hr
    rw [← (Prod.mk.inj heq).2, List.length_cons]
    omega
  next digits =>
    obtain ⟨r, hr, heq⟩ := Option.map_eq_some_iff.mp h
    have hshorter : r.2.length < digits.length := natural_shorter (n := r.1) hr
    rw [← (Prod.mk.inj heq).2, List.length_cons]
    omega
  next =>
    obtain ⟨r, hr, heq⟩ := Option.map_eq_some_iff.mp h
    rw [← (Prod.mk.inj heq).2]
    exact natural_shorter (n := r.1) hr

/-- White space in front of the integer makes no difference. -/
theorem integer_skipSpace_shorter {text rest : List Char} {n : ℤ}
    (h : integer (skipSpace text) = some (n, rest)) : rest.length < text.length :=
  Nat.lt_of_lt_of_le (integer_shorter h) (skipSpace_le text)

example : integer (skipSpace " \t-12abc".toList) = some (-12, "abc".toList) := by decide

example : integer "- 5".toList = none := by decide

end Rso.Scan
