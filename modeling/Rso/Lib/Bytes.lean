import Mathlib.Data.Nat.Digits.Lemmas

/-!
# Words in memory and on the wire

A word of `k` bytes lies in memory least significant byte first or most
significant byte first, as the host's byte order has it.  On the wire it is most
significant byte first.  `htonl` and its kin turn a word into the one whose
bytes in memory are the bytes on the wire.

Two laws are all that the programs need.  A word turned to network order and
stored is its bytes on the wire (`storeU32_htonl`), and bytes loaded and turned
to host order are the word they are on the wire (`ntohl_loadU32`).  Neither
mentions the host's byte order on its right side, so hosts of different orders
agree.
-/

namespace Rso

/-! ## Numbers as bytes -/

/-- The `k` lowest bytes of a number, least significant first. -/
def bytesLE : Nat → Nat → List UInt8
  | 0, _ => []
  | k + 1, x => UInt8.ofNat x :: bytesLE k (x / 256)

/-- The number with the given bytes, least significant first. -/
def valueLE (bs : List UInt8) : Nat := Nat.ofDigits 256 (bs.map UInt8.toNat)

@[simp] theorem bytesLE_length : ∀ k x : Nat, (bytesLE k x).length = k
  | 0, _ => rfl
  | k + 1, x => congrArg (· + 1) (bytesLE_length k (x / 256))

theorem valueLE_cons (b : UInt8) (bs : List UInt8) :
    valueLE (b :: bs) = b.toNat + 256 * valueLE bs := by
  simp [valueLE, Nat.ofDigits_cons]

theorem valueLE_bytesLE : ∀ k x : Nat, valueLE (bytesLE k x) = x % 256 ^ k := by
  intro k
  induction k with
  | zero =>
      intro x
      simp [bytesLE, valueLE, Nat.mod_one]
  | succ k ih =>
      intro x
      rw [bytesLE, valueLE_cons, ih (x / 256), Nat.pow_succ', Nat.mod_mul]
      rfl

theorem bytesLE_valueLE : ∀ bs : List UInt8, bytesLE bs.length (valueLE bs) = bs
  | [] => rfl
  | b :: bs => by
      have hb : b.toNat < 256 := b.toNat_lt
      have hdiv : (b.toNat + 256 * valueLE bs) / 256 = valueLE bs := by omega
      have hlow : UInt8.ofNat (b.toNat + 256 * valueLE bs) = b := by
        apply UInt8.toNat_inj.mp
        rw [UInt8.toNat_ofNat']
        omega
      rw [List.length_cons, bytesLE, valueLE_cons, hdiv, hlow, bytesLE_valueLE bs]

theorem valueLE_lt (bs : List UInt8) : valueLE bs < 256 ^ bs.length := by
  rw [← bytesLE_valueLE bs, valueLE_bytesLE, bytesLE_length]
  exact Nat.mod_lt _ (by positivity)

/-! ## Byte orders -/

/-- In which order a host keeps the bytes of a word. -/
inductive ByteOrder where
  | little
  | big
deriving DecidableEq, Repr

/-- The bytes of a number in memory. -/
def ByteOrder.bytes (o : ByteOrder) (k x : Nat) : List UInt8 :=
  match o with
  | .little => bytesLE k x
  | .big => (bytesLE k x).reverse

/-- The number that bytes in memory are. -/
def ByteOrder.value (o : ByteOrder) (bs : List UInt8) : Nat :=
  match o with
  | .little => valueLE bs
  | .big => valueLE bs.reverse

@[simp] theorem ByteOrder.bytes_length (o : ByteOrder) (k x : Nat) : (o.bytes k x).length = k := by
  cases o <;> simp [ByteOrder.bytes]

theorem ByteOrder.value_bytes (o : ByteOrder) {k x : Nat} (h : x < 256 ^ k) :
    o.value (o.bytes k x) = x := by
  cases o <;> simp [ByteOrder.bytes, ByteOrder.value, valueLE_bytesLE, Nat.mod_eq_of_lt h]

theorem ByteOrder.bytes_value (o : ByteOrder) {k : Nat} {bs : List UInt8} (h : bs.length = k) :
    o.bytes k (o.value bs) = bs := by
  subst h
  cases o with
  | little => exact bytesLE_valueLE bs
  | big =>
      have hrev := bytesLE_valueLE bs.reverse
      rw [List.length_reverse] at hrev
      rw [ByteOrder.bytes, ByteOrder.value, hrev, List.reverse_reverse]

theorem ByteOrder.value_lt (o : ByteOrder) (bs : List UInt8) : o.value bs < 256 ^ bs.length := by
  cases o with
  | little => exact valueLE_lt bs
  | big =>
      have h := valueLE_lt bs.reverse
      rwa [List.length_reverse] at h

/-! ## Words -/

/-- The bytes of a `uint32_t` object. -/
def storeU32 (o : ByteOrder) (w : UInt32) : List UInt8 := o.bytes 4 w.toNat

/-- The `uint32_t` with the given object bytes. -/
def loadU32 (o : ByteOrder) (bs : List UInt8) : UInt32 := UInt32.ofNat (o.value bs)

/-- The bytes of a `uint64_t` object. -/
def storeU64 (o : ByteOrder) (w : UInt64) : List UInt8 := o.bytes 8 w.toNat

/-- The `uint64_t` with the given object bytes. -/
def loadU64 (o : ByteOrder) (bs : List UInt8) : UInt64 := UInt64.ofNat (o.value bs)

@[simp] theorem storeU32_length (o : ByteOrder) (w : UInt32) : (storeU32 o w).length = 4 :=
  o.bytes_length 4 _

@[simp] theorem storeU64_length (o : ByteOrder) (w : UInt64) : (storeU64 o w).length = 8 :=
  o.bytes_length 8 _

@[simp] theorem loadU32_storeU32 (o : ByteOrder) (w : UInt32) : loadU32 o (storeU32 o w) = w := by
  rw [loadU32, storeU32, o.value_bytes w.toNat_lt, UInt32.ofNat_toNat]

@[simp] theorem loadU64_storeU64 (o : ByteOrder) (w : UInt64) : loadU64 o (storeU64 o w) = w := by
  rw [loadU64, storeU64, o.value_bytes w.toNat_lt, UInt64.ofNat_toNat]

theorem storeU32_loadU32 (o : ByteOrder) {bs : List UInt8} (h : bs.length = 4) :
    storeU32 o (loadU32 o bs) = bs := by
  have hlt := o.value_lt bs
  rw [h] at hlt
  rw [storeU32, loadU32, UInt32.toNat_ofNat_of_lt' hlt, o.bytes_value h]

theorem storeU64_loadU64 (o : ByteOrder) {bs : List UInt8} (h : bs.length = 8) :
    storeU64 o (loadU64 o bs) = bs := by
  have hlt := o.value_lt bs
  rw [h] at hlt
  rw [storeU64, loadU64, UInt64.toNat_ofNat_of_lt' hlt, o.bytes_value h]

/-! ## Network order -/

/-- The word with the four bytes in the other order. -/
def bswap32 (w : UInt32) : UInt32 := loadU32 .big (storeU32 .little w)

/-- The word with the eight bytes in the other order. -/
def bswap64 (w : UInt64) : UInt64 := loadU64 .big (storeU64 .little w)

def htonl (o : ByteOrder) (w : UInt32) : UInt32 :=
  match o with
  | .little => bswap32 w
  | .big => w

/-- Swapping is its own inverse, so both directions are one function. -/
def ntohl (o : ByteOrder) (w : UInt32) : UInt32 := htonl o w

def htobe64 (o : ByteOrder) (w : UInt64) : UInt64 :=
  match o with
  | .little => bswap64 w
  | .big => w

def be64toh (o : ByteOrder) (w : UInt64) : UInt64 := htobe64 o w

theorem reverse_storeU32_big (w : UInt32) : (storeU32 .big w).reverse = storeU32 .little w := by
  simp [storeU32, ByteOrder.bytes]

theorem reverse_storeU64_big (w : UInt64) : (storeU64 .big w).reverse = storeU64 .little w := by
  simp [storeU64, ByteOrder.bytes]

/-- What `htonl` stores is the word on the wire. -/
theorem storeU32_htonl (o : ByteOrder) (w : UInt32) : storeU32 o (htonl o w) = storeU32 .big w := by
  cases o with
  | big => rfl
  | little =>
      rw [← reverse_storeU32_big, htonl, bswap32, storeU32_loadU32 .big (storeU32_length ..),
        ← reverse_storeU32_big, List.reverse_reverse]

/-- What `htobe64` stores is the word on the wire. -/
theorem storeU64_htobe64 (o : ByteOrder) (w : UInt64) :
    storeU64 o (htobe64 o w) = storeU64 .big w := by
  cases o with
  | big => rfl
  | little =>
      rw [← reverse_storeU64_big, htobe64, bswap64, storeU64_loadU64 .big (storeU64_length ..),
        ← reverse_storeU64_big, List.reverse_reverse]

/-- What `ntohl` gives for loaded bytes is the word they are on the wire. -/
theorem ntohl_loadU32 (o : ByteOrder) {bs : List UInt8} (h : bs.length = 4) :
    ntohl o (loadU32 o bs) = loadU32 .big bs := by
  cases o with
  | big => rfl
  | little => rw [ntohl, htonl, bswap32, storeU32_loadU32 .little h]

/-- A stored word is on the wire the word in the other order. -/
theorem storeU32_ntohl (o : ByteOrder) (w : UInt32) : storeU32 .big (ntohl o w) = storeU32 o w := by
  have hword := ntohl_loadU32 o (storeU32_length o w)
  rw [loadU32_storeU32] at hword
  rw [hword, storeU32_loadU32 .big (storeU32_length o w)]

/-- What `be64toh` gives for loaded bytes is the word they are on the wire. -/
theorem be64toh_loadU64 (o : ByteOrder) {bs : List UInt8} (h : bs.length = 8) :
    be64toh o (loadU64 o bs) = loadU64 .big bs := by
  cases o with
  | big => rfl
  | little => rw [be64toh, htobe64, bswap64, storeU64_loadU64 .little h]

end Rso
