import Rso.Lib.OrderedTable
import Rso.Chat.Server

/-!
# The room directory

A directory is an insertion-ordered table from room names to proxies, and what
it should hold after a run can be read off the calls and their answers: one
entry for each `newChatRoom` that succeeded, in order (`created`).

The servant's two containers hold that directory at every point of every run
(`Lists`).  A successful `newChatRoom` is the only call that changes them, and
it binds a name that was free.  So a lookup never inserts, and a room once
created stays bound to its proxy.
-/

namespace Rso.Chat

open Runs

/-- Room names bound to proxies, in the order of creation. -/
abbrev Directory (R : Type) : Type := OrderedTable String (Prx R)

namespace ChatServerImpl

variable {F R : Type}

/-! ## The directory by the answers of a run -/

/-- The room that an answered call created. -/
def createdBy : Call F R × Except Exception (Value R) → Option (String × Prx R)
  | (.newChatRoom name _, .ok (.room proxy)) => some (name, proxy)
  | _ => none

/-- The rooms created by a run, in order, with the proxies that were returned. -/
def created (log : List (Call F R × Except Exception (Value R))) : List (String × Prx R) :=
  log.filterMap createdBy

theorem created_cons (entry : Call F R × Except Exception (Value R))
    (log : List (Call F R × Except Exception (Value R))) :
    created (entry :: log) = (createdBy entry).toList ++ created log := by
  rw [created, created, List.filterMap_cons]
  cases createdBy entry <;> rfl

/-- A call created a room if it was a `newChatRoom` that returned it. -/
theorem createdBy_eq_some [BEq F] {s : ChatServerImpl F R} {c : Call F R} {name : String}
    {room : Prx R} : createdBy (c, (s.step c).2) = some (name, room) ↔
      ∃ replies, c = .newChatRoom name replies ∧ (s.newChatRoom replies name).1 = .ok room := by
  cases c with
  | newChatRoom n replies =>
      cases hnew : (s.newChatRoom replies n).1 with
      | error e =>
          refine iff_of_false (by simp [step, createdBy, Except.map, hnew]) ?_
          rintro ⟨replies', heq, hroom⟩
          cases heq
          cases hnew.symm.trans hroom
      | ok proxy =>
          constructor
          · intro h
            simp only [step, createdBy, Except.map, hnew, Option.some.injEq, Prod.mk.injEq] at h
            obtain ⟨rfl, rfl⟩ := h
            exact ⟨replies, rfl, hnew⟩
          · rintro ⟨replies', heq, hroom⟩
            cases heq
            cases hnew.symm.trans hroom
            simp [step, createdBy, Except.map, hnew]
  | getRooms => simp [createdBy]
  | getRoom n => simp [createdBy]
  | registerFactory f => simp [createdBy]
  | unregisterFactory f => simp [createdBy]

/-- The two containers of the servant hold the directory `d`. -/
structure Lists (s : ChatServerImpl F R) (d : Directory R) : Prop where
  names : s.names = d.keys
  dictionary : ∀ name, s.nameChatDictionary[name]? = d.lookup name

theorem init_lists : Lists (init : ChatServerImpl F R) .empty :=
  ⟨rfl, fun _ => Std.TreeMap.getElem?_emptyc⟩

variable {s : ChatServerImpl F R} {d : Directory R}

/-- A lookup returns what the directory binds, and changes nothing. -/
theorem Lists.getRoom (h : Lists s d) (name : String) :
    s.getRoom name =
      (match d.lookup name with
        | some room => .ok room
        | none => .error .noSuchRoom, s) := by
  cases hd : d.lookup name with
  | none =>
      rw [getRoom_unlisted]
      rw [h.names]
      exact (d.lookup_eq_none_iff name).mp hd
  | some room =>
      have hbound : s.nameChatDictionary[name]? = some room := by rw [h.dictionary, hd]
      rw [getRoom_bound _ hbound]
      rw [h.names]
      exact OrderedTable.mem_keys_of_lookup hd

theorem Lists.publish (h : Lists s d) {name : String} (room : Prx R) (hn : name ∉ d.keys) :
    Lists (s.publish name room) (d.append name room hn) := by
  refine ⟨by rw [publish_names, h.names, OrderedTable.append_keys], fun n => ?_⟩
  rw [OrderedTable.lookup_append, ← h.dictionary]
  exact Dictionary.getElem?_insert _ _ _ _

variable [BEq F]

/-- One call extends the directory by the room it created, if it created one. -/
theorem Lists.step (h : Lists s d) (c : Call F R) :
    ∃ d' : Directory R, Lists (s.step c).1 d' ∧
      d'.entries = d.entries ++ (createdBy (c, (s.step c).2)).toList := by
  cases c with
  | newChatRoom name replies =>
      rcases newChatRoom_cases replies s name with ⟨e, he⟩ | ⟨room, hr, hn⟩
      · refine ⟨d, ?_, ?_⟩
        · simpa only [ChatServerImpl.step, he] using h
        · simp [ChatServerImpl.step, he, createdBy, Except.map]
      · rw [h.names] at hn
        refine ⟨d.append name room hn, ?_, ?_⟩
        · simpa only [ChatServerImpl.step, hr] using h.publish room hn
        · simp [ChatServerImpl.step, hr, createdBy, Except.map]
  | getRooms => exact ⟨d, h, by simp [createdBy]⟩
  | getRoom name =>
      refine ⟨d, ?_, by simp [createdBy]⟩
      simpa only [ChatServerImpl.step, h.getRoom name] using h
  | registerFactory f => exact ⟨d, ⟨h.names, h.dictionary⟩, by simp [createdBy]⟩
  | unregisterFactory f => exact ⟨d, ⟨h.names, h.dictionary⟩, by simp [createdBy]⟩

/-- The rooms of a run are those that its calls created. -/
theorem mem_created_iff {name : String} {room : Prx R} :
    ∀ (calls : List (Call F R)) (s : ChatServerImpl F R),
      (name, room) ∈ created (calls.zip (answers ChatServerImpl.step s calls)) ↔
        ∃ before replies later, calls = before ++ .newChatRoom name replies :: later ∧
          ((Runs.run ChatServerImpl.step s before).newChatRoom replies name).1 = .ok room := by
  intro calls
  induction calls with
  | nil =>
      intro s
      simp [created]
  | cons c calls ih =>
      intro s
      rw [answers_cons, List.zip_cons_cons, created_cons, List.mem_append, Option.mem_toList,
        createdBy_eq_some, ih]
      constructor
      · rintro (⟨replies, rfl, hroom⟩ | ⟨before, replies, later, rfl, hroom⟩)
        · exact ⟨[], replies, calls, rfl, hroom⟩
        · exact ⟨c :: before, replies, later, rfl, hroom⟩
      · rintro ⟨before, replies, later, heq, hroom⟩
        cases before with
        | nil =>
            cases heq
            exact .inl ⟨replies, rfl, hroom⟩
        | cons c' before =>
            cases heq
            exact .inr ⟨before, replies, later, rfl, hroom⟩

/-- A run extends the directory by the rooms it created. -/
theorem Lists.run :
    ∀ (calls : List (Call F R)) {s : ChatServerImpl F R} {d : Directory R}, Lists s d →
      ∃ d' : Directory R, Lists (Runs.run ChatServerImpl.step s calls) d' ∧
        d'.entries = d.entries ++ created (calls.zip (answers ChatServerImpl.step s calls)) := by
  intro calls
  induction calls with
  | nil =>
      intro _ d h
      exact ⟨d, h, by simp [created]⟩
  | cons c calls ih =>
      intro s d h
      obtain ⟨d₁, h₁, he₁⟩ := h.step c
      obtain ⟨d₂, h₂, he₂⟩ := ih h₁
      refine ⟨d₂, h₂, ?_⟩
      rw [he₂, he₁, answers_cons, List.zip_cons_cons, created_cons, List.append_assoc]

/-! ## The directory over whole runs -/

/-- The calls of a run from the initial server, with their answers. -/
def log (calls : List (Call F R)) : List (Call F R × Except Exception (Value R)) :=
  calls.zip (answers step init calls)

theorem lists_run (calls : List (Call F R)) :
    ∃ d : Directory R, Lists (run step init calls) d ∧ d.entries = created (log calls) := by
  obtain ⟨d, h, he⟩ := Lists.run calls (init_lists (F := F) (R := R))
  exact ⟨d, h, he⟩

/-- What holds of the directory after the given calls. -/
structure DirectoryRight (calls : List (Call F R)) : Prop where
  /-- No name is listed twice. -/
  nodup : (run step init calls).names.Nodup
  /-- The listed names are the keys of the dictionary. -/
  keys : ∀ name, name ∈ (run step init calls).names ↔
    name ∈ (run step init calls).nameChatDictionary
  /-- `getRooms` lists the created rooms in the order of creation. -/
  rooms : (run step init calls).getRooms.map RoomInfo.name = (created (log calls)).map Prod.fst
  /-- No name was created twice. -/
  once : ((created (log calls)).map Prod.fst).Nodup
  /-- What was created is what a registered factory returned to the call that asked it for
  the room. -/
  returned : ∀ name room, (name, room) ∈ created (log calls) ↔
    ∃ before replies later f, calls = before ++ .newChatRoom name replies :: later ∧
      (run step init before).asked replies name = some f ∧
      some f ∈ (run step init before).roomFactoryList ∧ replies.newChatRoom f name = .ok room
  /-- `getRoom` returns the proxy of the one creation, and raises `NoSuchRoom`
  when there was none. -/
  getRoom : ∀ name, ((run step init calls).getRoom name).1 =
    match (created (log calls)).lookup name with
    | some room => .ok room
    | none => .error .noSuchRoom
  /-- `getRoom` inserts nothing. -/
  getRoom_pure : ∀ name, ((run step init calls).getRoom name).2 = run step init calls
  /-- No later call removes or rebinds a room. -/
  stays : ∀ later name room, ((run step init calls).getRoom name).1 = .ok room →
    ((run step init (calls ++ later)).getRoom name).1 = .ok room

theorem created_append (calls later : List (Call F R)) :
    ∃ more, created (log (calls ++ later)) = created (log calls) ++ more := by
  refine ⟨created (later.zip (answers step (run step init calls) later)), ?_⟩
  rw [log, answers_append, List.zip_append (by simp), created, List.filterMap_append]
  rfl

/-- The directory is right after every run of calls, whatever the factories
answer. -/
theorem directory_right (calls : List (Call F R)) : DirectoryRight calls := by
  obtain ⟨d, h, he⟩ := lists_run calls
  have hget : ∀ name, ((run step init calls).getRoom name).1 =
      match (created (log calls)).lookup name with
      | some room => .ok room
      | none => .error .noSuchRoom := fun name => by rw [h.getRoom, ← he]; rfl
  refine ⟨by rw [h.names]; exact d.keys_nodup, fun name => ?_, ?_, ?_, fun name room => ?_, hget,
    fun name => by rw [h.getRoom], fun later name room hr => ?_⟩
  · rw [h.names, Std.TreeMap.mem_iff_isSome_getElem?, h.dictionary, ← not_iff_not,
      ← d.lookup_eq_none_iff, Option.not_isSome_iff_eq_none]
  · rw [← he]
    exact h.names
  · rw [← he]
    exact d.nodup
  · rw [log, mem_created_iff]
    simp only [newChatRoom_ok_iff, exists_and_left]
  · obtain ⟨d', h', he'⟩ := lists_run (calls ++ later)
    obtain ⟨more, hmore⟩ := created_append calls later
    have hin : d.lookup name = some room := by
      rw [h.getRoom] at hr
      cases hd : d.lookup name with
      | none => simp [hd] at hr
      | some room' =>
          simp only [hd, Except.ok.injEq] at hr
          rw [hr]
    have hin' : d'.lookup name = some room := by
      rw [← d'.mem_entries_iff, he', hmore, ← he]
      exact List.mem_append_left _ ((d.mem_entries_iff name room).mpr hin)
    rw [h'.getRoom, hin']

end ChatServerImpl

end Rso.Chat
