import Rso.Chat.Stubs

/-!
# Objects and their interfaces

Every object also has the four operations of `::Ice::Object`.  They tell its interface, and
`ice_isA` searches for an id in the sorted array `ids`.  A checked cast asks with
the id of the interface that it casts to.

`operations_right` says what the four answer, for objects of all four interfaces, and that
a checked cast gives a proxy for the objects of its interface and null for all others.
-/

namespace Rso.Chat

open Rpc

/-- The interfaces of `chat.ice`. -/
inductive Interface where
  | user
  | chatRoom
  | chatRoomFactory
  | chatServer
deriving DecidableEq, Repr

namespace Interface

def ids : Interface → List String
  | .user => User.ids
  | .chatRoom => ChatRoom.ids
  | .chatRoomFactory => ChatRoomFactory.ids
  | .chatServer => ChatServer.ids

def ice_staticId : Interface → String
  | .user => User.ice_staticId
  | .chatRoom => ChatRoom.ice_staticId
  | .chatRoomFactory => ChatRoomFactory.ice_staticId
  | .chatServer => ChatServer.ice_staticId

theorem ids_sorted (i : Interface) : i.ids.Pairwise (· < ·) := by
  cases i <;> decide

/-- No interface extends another one. -/
theorem staticId_mem_ids_iff (i target : Interface) : target.ice_staticId ∈ i.ids ↔ i = target := by
  cases i <;> cases target <;> decide

end Interface

/-- An object that is served, by its servant. -/
inductive IceObject (σ O : Type) where
  | user (servant : User σ)
  | chatRoom (servant : ChatRoom σ O)
  | chatRoomFactory (servant : ChatRoomFactory σ O)
  | chatServer (servant : ChatServer σ O)

/-- What a proxy does with the operations of `::Ice::Object`. -/
structure ObjectPrx (σ O : Type) where
  ice_id : Method σ String
  ice_ids : Method σ (List String)
  ice_isA : (id : String) → Method σ Bool
  ice_ping : Method σ Unit

section Proxy

variable {σ V O : Type} (ice : Streams V O) (invoke : Incoming V → σ → Reply V Exception × σ)

/-- `IceProxy::Ice::Object`. -/
def ObjectPrx.iceProxy : ObjectPrx σ O where
  ice_id := (Operations.ice_id ice).stub faults invoke ()
  ice_ids := (Operations.ice_ids ice).stub faults invoke ()
  ice_isA id := (Operations.ice_isA ice).stub faults invoke id
  ice_ping := Operations.ice_ping.stub faults invoke ()

/-- `checkedCast`, with the proxy that it casts.  As Ice documents it, it asks the object
with `ice_isA` for the id of the interface, and an object without it gives null. -/
def ObjectPrx.checkedCast (prx : ObjectPrx σ O) (target : Interface) (base : O) :
    Method σ (Prx O) := fun s =>
  let (found, s) := prx.ice_isA target.ice_staticId s
  (found.map fun found => if found then some base else none, s)

end Proxy

namespace IceObject

variable {σ V O : Type}

def interface : IceObject σ O → Interface
  | .user _ => .user
  | .chatRoom _ => .chatRoom
  | .chatRoomFactory _ => .chatRoomFactory
  | .chatServer _ => .chatServer

variable (ice : Streams V O)

def iceDispatch : IceObject σ O → Incoming V → σ → Reply V Exception × σ
  | .user servant => User.iceDispatch ice servant
  | .chatRoom servant => ChatRoom.iceDispatch ice servant
  | .chatRoomFactory servant => ChatRoomFactory.iceDispatch ice servant
  | .chatServer servant => ChatServer.iceDispatch ice servant

/-- Every object is served by a table with the operations of `::Ice::Object` for its
interface. -/
theorem exists_table (object : IceObject σ O) :
    ∃ all cases, Table faults all cases ∧ object.iceDispatch ice = dispatch faults all cases ∧
      iceD_ice_id ice object.interface.ice_staticId ∈ cases ∧
      iceD_ice_ids ice object.interface.ids ∈ cases ∧
      iceD_ice_isA ice object.interface.ids ∈ cases ∧ iceD_ice_ping ∈ cases := by
  cases object with
  | user servant =>
      exact ⟨_, _, User.table ice servant, rfl, by
        simp [User.cases, interface, Interface.ids, Interface.ice_staticId]⟩
  | chatRoom servant =>
      exact ⟨_, _, ChatRoom.table ice servant, rfl, by
        simp [ChatRoom.cases, interface, Interface.ids, Interface.ice_staticId]⟩
  | chatRoomFactory servant =>
      exact ⟨_, _, ChatRoomFactory.table ice servant, rfl, by
        simp [ChatRoomFactory.cases, interface, Interface.ids, Interface.ice_staticId]⟩
  | chatServer servant =>
      exact ⟨_, _, ChatServer.table ice servant, rfl, by
        simp [ChatServer.cases, interface, Interface.ids, Interface.ice_staticId]⟩

/-- A proxy of the object. -/
def prx (object : IceObject σ O) : ObjectPrx σ O := ObjectPrx.iceProxy ice (object.iceDispatch ice)

theorem prx_ice_isA (object : IceObject σ O) (id : String) (s : σ) :
    (object.prx ice).ice_isA id s = (.ok (decide (id ∈ object.interface.ids)), s) := by
  obtain ⟨all, cases, htable, hdispatch, -, -, hisA, -⟩ := object.exists_table ice
  have hfound : Search.binarySearch object.interface.ids id =
      decide (id ∈ object.interface.ids) :=
    Bool.eq_iff_iff.mpr
      ((Search.binarySearch_iff object.interface.ids_sorted).trans (decide_eq_true_iff).symm)
  rw [prx, ObjectPrx.iceProxy, hdispatch, ← hfound]
  exact htable.stub_dispatch hisA id s

/-- Through its proxy every object tells its interface, and leaves its state as it is.  A
checked cast of the proxy gives it back for the interface of the object, and null for the
other three. -/
theorem operations_right (object : IceObject σ O) (s : σ) :
    (object.prx ice).ice_id s = (.ok object.interface.ice_staticId, s) ∧
      (object.prx ice).ice_ids s = (.ok object.interface.ids, s) ∧
      (∀ id, (object.prx ice).ice_isA id s = (.ok (decide (id ∈ object.interface.ids)), s)) ∧
      (object.prx ice).ice_ping s = (.ok (), s) ∧
      ∀ (base : O) (target : Interface), (object.prx ice).checkedCast target base s =
        (.ok (if object.interface = target then some base else none), s) := by
  obtain ⟨all, cases, htable, hdispatch, hid, hids, -, hping⟩ := object.exists_table ice
  refine ⟨?_, ?_, fun id => object.prx_ice_isA ice id s, ?_, fun base target => ?_⟩
  · rw [prx, ObjectPrx.iceProxy, hdispatch]
    exact htable.stub_dispatch hid () s
  · rw [prx, ObjectPrx.iceProxy, hdispatch]
    exact htable.stub_dispatch hids () s
  · rw [prx, ObjectPrx.iceProxy, hdispatch]
    exact htable.stub_dispatch hping () s
  · rw [ObjectPrx.checkedCast, prx_ice_isA]
    simp only [Except.map, decide_eq_true_eq, Interface.staticId_mem_ids_iff]

end IceObject

end Rso.Chat
