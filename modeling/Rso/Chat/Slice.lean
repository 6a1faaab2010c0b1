import Mathlib.Data.List.Basic

/-!
# The types of `chat.ice`

The exceptions and the record that `chat.ice` declares, the proxies of the C++
mapping, and the dictionaries of `ProjectTypes.h`.

A servant operation can throw more than `chat.ice` declares: `throw` of a string
literal, the exception of a call through a null proxy, and whatever a remote
call of its own raised.  `Exception` has all of them.

A dictionary is a `std::map` from strings, so it is kept in key order.  Its
`operator[]` is an access that inserts: a missing key is bound to a null proxy
first.
-/

namespace Rso.Chat

/-- The exceptions Ice itself raises at a caller. -/
inductive IceException where
  /-- The servant threw a user exception the operation does not declare. -/
  | unknownUserException
  /-- The servant threw something that is no user exception. -/
  | unknownException
  /-- The call did not reach the servant, for instance because its process died. -/
  | localException
deriving DecidableEq, Repr

/-- What an operation can throw. -/
inductive Exception where
  | noSuchRoom
  | nameAlreadyExists
  | noSuchUser
  | nickNotAvailable
  /-- A call through a null proxy. -/
  | nullHandleException
  /-- `throw` of a string literal. -/
  | text (message : String)
  /-- `std::out_of_range`, of `vector::at`. -/
  | outOfRange
  /-- An exception that Ice raised. -/
  | ice (e : IceException)
  /-- No exception: an access outside a vector, which C++ leaves undefined. -/
  | undefinedBehaviour
deriving DecidableEq, Repr

/-- A proxy of the C++ mapping, which may be null. -/
abbrev Prx (α : Type) : Type := Option α

/-- A call through a proxy: a null proxy raises at the caller. -/
def Prx.call {α β : Type} (p : Prx α) (f : α → Except Exception β) : Except Exception β :=
  match p with
  | none => .error .nullHandleException
  | some a => f a

/-- A list without a null proxy. -/
theorem Prx.exists_map_some {α : Type} {ps : List (Prx α)} (h : none ∉ ps) :
    ∃ as : List α, ps = as.map some := by
  induction ps with
  | nil => exact ⟨[], rfl⟩
  | cons p ps ih =>
      obtain ⟨as, rfl⟩ := ih fun hm => h (List.mem_cons_of_mem _ hm)
      cases p with
      | none => exact absurd (List.mem_cons_self ..) h
      | some a => exact ⟨a :: as, rfl⟩

/-- `RoomInfo` of `chat.ice`. -/
structure RoomInfo where
  name : String
  activeUsers : Int16
deriving DecidableEq, Repr

/-- A `std::map` from strings to proxies. -/
abbrev Dictionary (α : Type) : Type := Std.TreeMap String (Prx α)

namespace Dictionary

variable {α : Type}

/-- `operator[]`: the value of a key, after binding a missing key to null. -/
def index (d : Dictionary α) (k : String) : Prx α × Dictionary α :=
  match d[k]? with
  | some v => (v, d)
  | none => (none, d.insert k none)

theorem index_of_getElem? {d : Dictionary α} {k : String} {v : Prx α} (h : d[k]? = some v) :
    d.index k = (v, d) := by
  rw [index, h]

theorem getElem?_insert (d : Dictionary α) (k k' : String) (v : Prx α) :
    (Std.TreeMap.insert d k v)[k']? = if k' = k then some v else d[k']? := by
  rw [Std.TreeMap.getElem?_insert]
  rcases eq_or_ne k' k with h | h
  · simp [h]
  · rw [if_neg h, if_neg (fun hc => h (Std.LawfulEqOrd.eq_of_compare hc).symm)]

theorem getElem?_erase (d : Dictionary α) (k k' : String) :
    (Std.TreeMap.erase d k)[k']? = if k' = k then none else d[k']? := by
  rw [Std.TreeMap.getElem?_erase]
  rcases eq_or_ne k' k with h | h
  · simp [h]
  · rw [if_neg h, if_neg (fun hc => h (Std.LawfulEqOrd.eq_of_compare hc).symm)]

end Dictionary

end Rso.Chat
