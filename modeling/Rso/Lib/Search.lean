import Mathlib.Data.List.Basic
import Mathlib.Data.Nat.Find
import Mathlib.Order.Lattice

/-!
# Binary search

`std::lower_bound`, `std::upper_bound`, `std::equal_range` and `std::binary_search`
over a sorted array, each by halving.  Below the first two is one search: a
condition holds up to some place of the array and not from there on, and `bound`
finds the place.

`switch` is a jump through a table of names that is kept in order: the place of the
name is the number of the case.
-/

namespace Rso.Search

/-! ## The place where a condition stops to hold -/

/-- The search among the `len` places from `first` on.  Each pass halves `len`, so
`fuel` is not the limit if it starts at `len`. -/
def bound (below : ℕ → Bool) : (fuel first len : ℕ) → ℕ
  | 0, first, _ => first
  | fuel + 1, first, len =>
      if len = 0 then first
      else
        let half := len / 2
        if below (first + half) then bound below fuel (first + half + 1) (len - half - 1)
        else bound below fuel first half

section Bound

variable {below : ℕ → Bool} {r : ℕ}

theorem bound_eq (hbelow : ∀ i < r, below i = true) (habove : ∀ i, r ≤ i → below i = false) :
    ∀ fuel first len : ℕ, len ≤ fuel → first ≤ r → r ≤ first + len →
      bound below fuel first len = r := by
  intro fuel
  induction fuel with
  | zero =>
      intro first len hlen hfirst hr
      rw [bound]
      omega
  | succ fuel ih =>
      intro first len hlen hfirst hr
      rw [bound]
      split
      next => omega
      next hne =>
        have hhalf : len / 2 < len := Nat.div_lt_self (Nat.pos_of_ne_zero hne) (by decide)
        simp only
        split
        next hmiddle =>
          have hlt : first + len / 2 < r := by
            by_contra hge
            rw [habove _ (Nat.le_of_not_lt hge)] at hmiddle
            cases hmiddle
          exact ih _ _ (by omega) hlt (by omega)
        next hmiddle =>
          have hle : r ≤ first + len / 2 := by
            by_contra hgt
            exact hmiddle (hbelow _ (Nat.lt_of_not_le hgt))
          exact ih _ _ (by omega) hfirst hle

/-- A condition that holds before every place where it holds, and not from `n` on,
holds exactly before the place that is found. -/
theorem lt_bound_iff {n : ℕ} (hmono : ∀ i j, i ≤ j → below j = true → below i = true)
    (hn : ∀ i, n ≤ i → below i = false) (i : ℕ) : i < bound below n 0 n ↔ below i = true := by
  have hstops : ∃ i, below i = false := ⟨n, hn n (Nat.le_refl n)⟩
  let place := Nat.find hstops
  have hbelow : ∀ i < place, below i = true := fun i hi =>
    eq_true_of_ne_false (Nat.find_min hstops hi)
  have habove : ∀ i, place ≤ i → below i = false := by
    intro i hi
    refine eq_false_of_ne_true fun hholds => ?_
    have hplace := hmono place i hi hholds
    exact Bool.false_ne_true ((Nat.find_spec hstops).symm.trans hplace)
  have hle : place ≤ 0 + n := by
    rw [Nat.zero_add]
    exact Nat.find_min' hstops (hn n (Nat.le_refl n))
  rw [bound_eq hbelow habove n 0 n (Nat.le_refl n) (Nat.zero_le _) hle]
  constructor
  · exact hbelow i
  · intro hholds
    by_contra hge
    rw [habove i (Nat.le_of_not_lt hge)] at hholds
    cases hholds

end Bound

/-! ## The searches of the standard library -/

section Sorted

variable {α : Type} {β : Type*} [LinearOrder α]

/-- The first place with an element that is not less than `x`. -/
def lowerBound (as : List α) (x : α) : ℕ :=
  bound (fun i => as[i]?.any (· < x)) as.length 0 as.length

/-- The first place with an element that is greater than `x`. -/
def upperBound (as : List α) (x : α) : ℕ :=
  bound (fun i => as[i]?.any fun a => !(decide (x < a))) as.length 0 as.length

def equalRange (as : List α) (x : α) : ℕ × ℕ := (lowerBound as x, upperBound as x)

def binarySearch (as : List α) (x : α) : Bool :=
  as[lowerBound as x]?.any fun a => !(decide (x < a))

/-- A jump to the case with the number of the place of `x`. -/
def switch (all : List α) (cases : List β) (x : α) : Option β :=
  let r := equalRange all x
  if r.1 = r.2 then none else cases[r.1]?

variable {as : List α} {x : α}

/-- The search in a sorted list for the place where a condition stops to hold that
passes from an element to all less. -/
theorem lt_bound_any_iff (h : as.Pairwise (· < ·)) {p : α → Bool}
    (hp : ∀ a b, a < b → p b = true → p a = true) (i : ℕ) :
    i < bound (fun i => as[i]?.any p) as.length 0 as.length ↔ as[i]?.any p = true := by
  refine lt_bound_iff (fun i j hij hj => ?_) (fun i hi => ?_) i
  · obtain ⟨a, ha, hholds⟩ := (Option.any_eq_true _ _).mp hj
    obtain ⟨hjlt, rfl⟩ := List.getElem?_eq_some_iff.mp ha
    rw [List.getElem?_eq_getElem (Nat.lt_of_le_of_lt hij hjlt), Option.any_some]
    rcases Nat.eq_or_lt_of_le hij with rfl | hlt
    · exact hholds
    · exact hp _ _ (List.pairwise_iff_getElem.mp h i j _ _ hlt) hholds
  · rw [List.getElem?_eq_none hi, Option.any_none]

theorem lt_lowerBound_iff (h : as.Pairwise (· < ·)) (x : α) (i : ℕ) :
    i < lowerBound as x ↔ ∃ a, as[i]? = some a ∧ a < x := by
  rw [lowerBound, lt_bound_any_iff h, Option.any_eq_true]
  · simp only [decide_eq_true_eq]
  · intro a b hab hb
    exact decide_eq_true (lt_trans hab (of_decide_eq_true hb))

theorem lt_upperBound_iff (h : as.Pairwise (· < ·)) (x : α) (i : ℕ) :
    i < upperBound as x ↔ ∃ a, as[i]? = some a ∧ a ≤ x := by
  rw [upperBound, lt_bound_any_iff h, Option.any_eq_true]
  · simp only [← decide_not, decide_eq_true_eq, not_lt]
  · intro a b hab hb
    rw [← decide_not, decide_eq_true_eq, not_lt] at hb ⊢
    exact le_trans (le_of_lt hab) hb

/-- Where `x` stands nothing before is as great. -/
theorem lowerBound_eq (h : as.Pairwise (· < ·)) {k : ℕ} (hk : as[k]? = some x) :
    lowerBound as x = k := by
  rcases Nat.lt_trichotomy (lowerBound as x) k with hlt | heq | hgt
  · obtain ⟨hklt, rfl⟩ := List.getElem?_eq_some_iff.mp hk
    have hless := List.pairwise_iff_getElem.mp h _ k (Nat.lt_trans hlt hklt) hklt hlt
    have hself := (lt_lowerBound_iff h as[k] _).mpr
      ⟨_, List.getElem?_eq_getElem (Nat.lt_trans hlt hklt), hless⟩
    exact absurd hself (Nat.lt_irrefl _)
  · exact heq
  · obtain ⟨a, ha, hless⟩ := (lt_lowerBound_iff h x k).mp hgt
    rw [hk] at ha
    cases ha
    exact absurd hless (lt_irrefl x)

/-- An element that is missing has its two bounds in one place. -/
theorem upperBound_eq_lowerBound (h : x ∉ as) : upperBound as x = lowerBound as x := by
  rw [upperBound, lowerBound]
  congr 1
  funext i
  cases ha : as[i]? with
  | none => rfl
  | some a =>
      have hne : a ≠ x := fun heq => h (heq ▸ List.mem_of_getElem? ha)
      rw [Option.any_some, Option.any_some, ← decide_not, decide_eq_decide, not_lt]
      exact ⟨fun hle => lt_of_le_of_ne hle hne, le_of_lt⟩

theorem binarySearch_iff (h : as.Pairwise (· < ·)) : binarySearch as x = true ↔ x ∈ as := by
  rw [binarySearch, Option.any_eq_true]
  constructor
  · rintro ⟨a, ha, hle⟩
    rw [← decide_not, decide_eq_true_eq, not_lt] at hle
    have hge : ¬ a < x := fun hlt =>
      Nat.lt_irrefl _ ((lt_lowerBound_iff h x _).mpr ⟨a, ha, hlt⟩)
    rw [le_antisymm (not_lt.mp hge) hle]
    exact List.mem_of_getElem? ha
  · intro hmem
    obtain ⟨k, hk⟩ := List.getElem?_of_mem hmem
    refine ⟨x, by rw [lowerBound_eq h hk, hk], ?_⟩
    rw [← decide_not]
    exact decide_eq_true (lt_irrefl x)

variable {cases : List β}

theorem switch_getElem? (h : as.Pairwise (· < ·)) {k : ℕ} (hk : as[k]? = some x) :
    switch as cases x = cases[k]? := by
  have hlower := lowerBound_eq h hk
  have hupper := (lt_upperBound_iff h x k).mpr ⟨x, hk, le_refl x⟩
  rw [switch, equalRange]
  simp only [hlower]
  exact if_neg (Nat.ne_of_lt hupper)

theorem switch_of_not_mem (h : x ∉ as) : switch as cases x = none :=
  if_pos (upperBound_eq_lowerBound h).symm

end Sorted

end Rso.Search
