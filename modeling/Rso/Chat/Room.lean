import Rso.Lib.Runs
import Rso.Chat.Slice

/-!
# The room servant

`ChatRoomImpl` keeps its members twice: `users` lists the nicks and
`nickUserDictionary` maps them to proxies.  Each operation below is the C++
method of its name.  It returns the result or the exception, and the members the
method leaves behind, which an exception does not roll back.

`Leave` finds out whether the nick is listed with one iterator and erases with
another, `counter`, which still stands at `users.begin()`.

`step` dispatches one call, so a run of the servant is a run of `step`.
-/

namespace Rso.Chat

open Runs

/-- The two containers of a `ChatRoomImpl`. -/
structure ChatRoomImpl (U : Type) where
  users : List String
  nickUserDictionary : Dictionary U

/-- One `sendMessage` that reached a `User`. -/
structure Delivery (U : Type) where
  recipient : U
  message : String
  fromWho : String
deriving DecidableEq, Repr

namespace ChatRoomImpl

variable {U : Type}

/-- The members of a fresh `ChatRoomImpl`. -/
def init : ChatRoomImpl U := ⟨[], ∅⟩

/-! ## The operations -/

def listUsers (r : ChatRoomImpl U) : List String := r.users

def join (r : ChatRoomImpl U) (nick : String) (who : Prx U) :
    Except Exception Unit × ChatRoomImpl U :=
  if r.users.any (· == nick) then
    (.error .nameAlreadyExists, r)
  else
    (.ok (), { r with
      users := r.users ++ [nick]
      nickUserDictionary := r.nickUserDictionary.insert nick who })

/-- `users.erase(counter)` erases the first nick, as `counter` is `users.begin()` whatever
the argument. -/
def leave (r : ChatRoomImpl U) (nick : String) : Except Exception Unit × ChatRoomImpl U :=
  let userExists := r.users.any (· == nick)
  if !userExists then
    (.error .noSuchUser, r)
  else
    (.ok (), { r with
      users := r.users.tail
      nickUserDictionary := r.nickUserDictionary.erase nick })

def getUser (r : ChatRoomImpl U) (nick : String) : Except Exception (Prx U) × ChatRoomImpl U :=
  if r.users.any (· == nick) then
    let (who, dictionary) := r.nickUserDictionary.index nick
    (.ok who, { r with nickUserDictionary := dictionary })
  else
    (.error .noSuchUser, r)

/-- The loop of `postMessage` over the rest of the dictionary.  `sendMessage` is
what a call of the user's proxy gives.  The first exception ends the loop. -/
def sendAll (sendMessage : U → Except Exception Unit) (message fromWho : String) :
    List (String × Prx U) → List (Delivery U) × Except Exception Unit
  | [] => ([], .ok ())
  | (_, none) :: _ => ([], .error .nullHandleException)
  | (_, some u) :: rest =>
      match sendMessage u with
      | .error e => ([], .error e)
      | .ok () =>
          let (sent, result) := sendAll sendMessage message fromWho rest
          (⟨u, message, fromWho⟩ :: sent, result)

def postMessage (sendMessage : U → Except Exception Unit) (r : ChatRoomImpl U)
    (message fromWho : String) : List (Delivery U) × Except Exception Unit :=
  let fromWhoPresent := r.users.any (· == fromWho)
  if !fromWhoPresent then
    ([], .error .noSuchUser)
  else
    sendAll sendMessage message fromWho r.nickUserDictionary.toList

/-! ## Dispatch -/

/-- A call of a room operation. -/
inductive Call (U : Type) where
  | join (nick : String) (who : Prx U)
  | leave (nick : String)
  | getUser (nick : String)
  | listUsers
  | postMessage (message fromWho : String)

/-- A value that a room operation returns. -/
inductive Value (U : Type) where
  | unit
  | proxy (who : Prx U)
  | users (nicks : List String)
deriving DecidableEq

/-- What a call gives: its result, and the messages that reached a user meanwhile. -/
structure Answer (U : Type) where
  result : Except Exception (Value U)
  sent : List (Delivery U) := []

/-- Dispatch of one call. -/
def step (sendMessage : U → Except Exception Unit) (r : ChatRoomImpl U) :
    Call U → ChatRoomImpl U × Answer U
  | .join nick who =>
      let (result, r) := r.join nick who
      (r, { result := result.map fun _ => .unit })
  | .leave nick =>
      let (result, r) := r.leave nick
      (r, { result := result.map fun _ => .unit })
  | .getUser nick =>
      let (result, r) := r.getUser nick
      (r, { result := result.map .proxy })
  | .listUsers => (r, { result := .ok (.users r.listUsers) })
  | .postMessage message fromWho =>
      let (sent, result) := r.postMessage sendMessage message fromWho
      (r, { result := result.map fun _ => .unit, sent := sent })

/-! ## What each operation does -/

theorem join_listed {r : ChatRoomImpl U} {nick : String} (who : Prx U) (h : nick ∈ r.users) :
    r.join nick who = (.error .nameAlreadyExists, r) := by
  rw [join, if_pos (by simpa using h)]

theorem join_fresh {r : ChatRoomImpl U} {nick : String} (who : Prx U) (h : nick ∉ r.users) :
    r.join nick who = (.ok (), ⟨r.users ++ [nick], r.nickUserDictionary.insert nick who⟩) := by
  rw [join, if_neg (by simpa using h)]

theorem leave_unlisted {r : ChatRoomImpl U} {nick : String} (h : nick ∉ r.users) :
    r.leave nick = (.error .noSuchUser, r) := by
  simp [leave, h]

theorem leave_listed {r : ChatRoomImpl U} {nick : String} (h : nick ∈ r.users) :
    r.leave nick = (.ok (), ⟨r.users.tail, r.nickUserDictionary.erase nick⟩) := by
  simp [leave, h]

theorem getUser_unlisted {r : ChatRoomImpl U} {nick : String} (h : nick ∉ r.users) :
    r.getUser nick = (.error .noSuchUser, r) := by
  rw [getUser, if_neg (by simpa using h)]

/-- A listed nick that the dictionary binds is looked up without an insertion. -/
theorem getUser_bound {r : ChatRoomImpl U} {nick : String} {who : Prx U} (h : nick ∈ r.users)
    (hd : r.nickUserDictionary[nick]? = some who) : r.getUser nick = (.ok who, r) := by
  rw [getUser, if_pos (by simpa using h), Dictionary.index_of_getElem? hd]

theorem postMessage_unlisted (sendMessage : U → Except Exception Unit) {r : ChatRoomImpl U}
    (message : String) {fromWho : String} (h : fromWho ∉ r.users) :
    r.postMessage sendMessage message fromWho = ([], .error .noSuchUser) := by
  simp [postMessage, h]

theorem postMessage_listed (sendMessage : U → Except Exception Unit) {r : ChatRoomImpl U}
    (message : String) {fromWho : String} (h : fromWho ∈ r.users) :
    r.postMessage sendMessage message fromWho =
      sendAll sendMessage message fromWho r.nickUserDictionary.toList := by
  have hany : r.users.any (· == fromWho) = true := by simpa using h
  simp only [postMessage, hany, Bool.not_true, Bool.false_eq_true, if_false]

/-- With every user reachable, the loop sends one message for each entry, in order. -/
theorem sendAll_reachable (message fromWho : String) (members : List (String × U)) :
    sendAll (fun _ => .ok ()) message fromWho (members.map fun e => (e.1, some e.2)) =
      (members.map fun e => ⟨e.2, message, fromWho⟩, .ok ()) := by
  induction members with
  | nil => rfl
  | cons e es ih => rw [List.map_cons, sendAll, ih]; rfl

/-- The loop comes to its end when every entry is a user that takes the message. -/
theorem sendAll_ok_iff (sendMessage : U → Except Exception Unit) (message fromWho : String)
    (entries : List (String × Prx U)) :
    (sendAll sendMessage message fromWho entries).2 = .ok () ↔
      ∀ e ∈ entries, ∃ u, e.2 = some u ∧ sendMessage u = .ok () := by
  induction entries with
  | nil => simp [sendAll]
  | cons e es ih =>
      obtain ⟨nick, who⟩ := e
      rw [List.forall_mem_cons, ← ih]
      cases who with
      | none => simp [sendAll]
      | some u =>
          cases hu : sendMessage u with
          | error e => simp [sendAll, hu]
          | ok _ => simp [sendAll, hu]

/-- A listed sender gets through when every entry of the dictionary does. -/
theorem postMessage_ok_iff (sendMessage : U → Except Exception Unit) {r : ChatRoomImpl U}
    (message : String) {fromWho : String} (h : fromWho ∈ r.users) :
    (r.postMessage sendMessage message fromWho).2 = .ok () ↔
      ∀ (nick : String) (who : Prx U), r.nickUserDictionary[nick]? = some who →
        ∃ u, who = some u ∧ sendMessage u = .ok () := by
  rw [postMessage_listed _ _ h, sendAll_ok_iff]
  constructor
  · intro hall nick who hwho
    exact hall (nick, who) (Std.TreeMap.mem_toList_iff_getElem?_eq_some.mpr hwho)
  · intro hall e he
    exact hall e.1 e.2 (Std.TreeMap.mem_toList_iff_getElem?_eq_some.mp he)

end ChatRoomImpl

end Rso.Chat
