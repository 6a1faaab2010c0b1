import Mathlib.Algebra.Group.Nat.Defs
import Mathlib.Data.List.Range

/-!
# Memory around an object

A memory gives a byte for each address.  Addresses count from the start of one
object and wrap at 64 bits, so the bytes before and after the object have
addresses too, and an access that leaves the object reads or writes those.

Programs fill an object from its start on, one piece after the other.
`write_write` joins two adjacent pieces, and `read_write` reads a part of what
was written.
-/

namespace Rso

/-- The bytes at each address, counted from the start of an object. -/
def Mem : Type := UInt64 → UInt8

namespace Mem

/-- The `n` bytes from address `a` on. -/
def read (m : Mem) (a : UInt64) (n : Nat) : List UInt8 :=
  (List.range n).map fun i => m (a + UInt64.ofNat i)

/-- The memory after writing bytes from address `a` on. -/
def write (m : Mem) (a : UInt64) (bs : List UInt8) : Mem := fun x =>
  (bs[(x - a).toNat]?).getD (m x)

@[simp] theorem read_length (m : Mem) (a : UInt64) (n : Nat) : (m.read a n).length = n := by
  simp [read]

@[simp] theorem read_zero (m : Mem) (a : UInt64) : m.read a 0 = [] := rfl

@[simp] theorem write_nil (m : Mem) (a : UInt64) : m.write a [] = m := by
  funext x
  simp [write]

/-- Two adjacent reads are one. -/
theorem read_append (m : Mem) (n k j : Nat) :
    m.read (UInt64.ofNat n) k ++ m.read (UInt64.ofNat (n + k)) j =
      m.read (UInt64.ofNat n) (k + j) := by
  rw [read, read, read, List.range_add, List.map_append, List.map_map]
  congr 1
  apply List.map_congr_left
  intro i hi
  rw [Function.comp_apply, UInt64.ofNat_add, UInt64.ofNat_add, UInt64.add_assoc]

/-- Two adjacent pieces are one. -/
theorem write_write (m : Mem) {d bs : List UInt8} {a : UInt64} (ha : a.toNat = d.length)
    (h : d.length + bs.length ≤ 2 ^ 64) : (m.write 0 d).write a bs = m.write 0 (d ++ bs) := by
  funext x
  have hx := x.toNat_lt
  have ha' := a.toNat_lt
  simp only [write, UInt64.sub_zero]
  by_cases hlt : x.toNat < d.length
  · have hout : bs.length ≤ (x - a).toNat := by
      rw [UInt64.toNat_sub]
      omega
    rw [List.getElem?_append_left hlt, List.getElem?_eq_none hout, Option.getD_none]
  · have hin : (x - a).toNat = x.toNat - d.length := by
      rw [UInt64.toNat_sub]
      omega
    have hnone : d[x.toNat]? = none := List.getElem?_eq_none (by omega)
    rw [List.getElem?_append_right (by omega), hin, hnone, Option.getD_none]

/-- Reading a part of what was written. -/
theorem read_write (m : Mem) {d : List UInt8} {a : UInt64} {n : Nat}
    (h : a.toNat + n ≤ d.length) (hd : d.length ≤ 2 ^ 64) :
    (m.write 0 d).read a n = (d.drop a.toNat).take n := by
  apply List.ext_getElem
  · rw [read_length, List.length_take, List.length_drop]
    omega
  · intro i hi _
    rw [read_length] at hi
    have hadd : (a + UInt64.ofNat i).toNat = a.toNat + i := by
      rw [UInt64.toNat_add, UInt64.toNat_ofNat']
      omega
    simp only [read, write, List.getElem_map, List.getElem_range, UInt64.sub_zero, hadd,
      List.getElem_take, List.getElem_drop]
    rw [List.getElem?_eq_getElem (by omega), Option.getD_some]

/-- Reading back all that was written. -/
theorem read_write_self (m : Mem) {d : List UInt8} {n : Nat} (h : d.length = n)
    (hn : n ≤ 2 ^ 64) : (m.write 0 d).read 0 n = d := by
  subst h
  rw [read_write m (a := 0) (by rw [UInt64.toNat_zero]; omega) hn, UInt64.toNat_zero,
    List.drop_zero, List.take_length]

/-- Reading the object from its start, past the end of what was written. -/
theorem read_write_past (m : Mem) {d : List UInt8} {n : Nat} (h : d.length ≤ n)
    (hn : n ≤ 2 ^ 64) :
    (m.write 0 d).read 0 n = d ++ m.read (UInt64.ofNat d.length) (n - d.length) := by
  apply List.ext_getElem
  · rw [read_length, List.length_append, read_length]
    omega
  · intro i hi _
    rw [read_length] at hi
    have hadd : (0 + UInt64.ofNat i).toNat = i := by
      rw [UInt64.zero_add, UInt64.toNat_ofNat']
      omega
    simp only [read, write, List.getElem_map, List.getElem_range, UInt64.sub_zero, hadd]
    by_cases hlt : i < d.length
    · rw [List.getElem?_eq_getElem hlt, Option.getD_some, List.getElem_append_left hlt]
    · have hsplit : (0 : UInt64) + UInt64.ofNat i =
          UInt64.ofNat d.length + UInt64.ofNat (i - d.length) := by
        rw [UInt64.zero_add, ← UInt64.ofNat_add]
        congr 1
        omega
      rw [List.getElem?_eq_none (by omega), Option.getD_none,
        List.getElem_append_right (by omega), List.getElem_map, List.getElem_range, hsplit]

/-- Reading beyond what was written. -/
theorem read_write_beyond (m : Mem) {d : List UInt8} {a : UInt64} {n : Nat}
    (h : d.length ≤ a.toNat) (hn : a.toNat + n ≤ 2 ^ 64) :
    (m.write 0 d).read a n = m.read a n := by
  apply List.map_congr_left
  intro i hi
  rw [List.mem_range] at hi
  have hadd : (a + UInt64.ofNat i).toNat = a.toNat + i := by
    rw [UInt64.toNat_add, UInt64.toNat_ofNat']
    omega
  rw [write, UInt64.sub_zero, hadd, List.getElem?_eq_none (by omega), Option.getD_none]

end Mem

end Rso
