import Rso.Chat.Console

/-!
# Sitting at the client

Somebody knows what to do: an `Intent` is a user name and a row of actions.  At each
prompt the answer is typed, and a newline after it.  The program then does those actions,
whatever its calls give (`mainLoop_follows`): a name is a word, so `cin >>` takes all of
it, and after each action nothing is left in the input but white space.
-/

namespace Rso.Chat

open Proc Scan
open Script (Both Plays inward outward)

/-! ## What can be typed -/

/-- `cin >>` takes the text as a whole. -/
def Word (s : String) : Prop := s.toList ≠ [] ∧ ∀ c ∈ s.toList, isSpace c = false

/-- `getline` takes the text as a whole. -/
def Line (s : String) : Prop := '\n' ∉ s.toList

instance (s : String) : Decidable (Word s) :=
  have : Decidable (∀ c ∈ s.toList, isSpace c = false) := List.decidableBAll ..
  inferInstanceAs (Decidable (_ ∧ _))

instance (s : String) : Decidable (Line s) := inferInstanceAs (Decidable (¬ _))

/-- The names of the action are words, and its message is one line. -/
def Client.Action.Typable : Client.Action → Prop
  | .createRoom roomName => Word roomName
  | .printListAllRooms => True
  | .joinToRoom name => Word name
  | .leaveRoom roomName => Word roomName
  | .sendMessageToRoom targetRoom content => Word targetRoom ∧ Line content
  | .printUsersInRoom typed => Word typed
  | .sendPrivateMessageToUser targetChannel _ targetUsername message =>
      Word targetChannel ∧ Word targetUsername ∧ Line message

instance : DecidablePred Client.Action.Typable := fun a => by
  cases a <;> unfold Client.Action.Typable <;> infer_instance

/-- The option of the menu. -/
def Client.Action.number : Client.Action → Int32
  | .createRoom _ => 1
  | .printListAllRooms => 2
  | .joinToRoom _ => 3
  | .leaveRoom _ => 4
  | .sendMessageToRoom _ _ => 5
  | .printUsersInRoom _ => 6
  | .sendPrivateMessageToUser _ _ _ _ => 7

def Client.Action.digit : Client.Action → Char
  | .createRoom _ => '1'
  | .printListAllRooms => '2'
  | .joinToRoom _ => '3'
  | .leaveRoom _ => '4'
  | .sendMessageToRoom _ _ => '5'
  | .printUsersInRoom _ => '6'
  | .sendPrivateMessageToUser _ _ _ _ => '7'

/-- What the action has for a prompt. -/
def Client.Action.reply : Client.Action → Prompt → String
  | .createRoom roomName, .newRoom => roomName
  | .joinToRoom name, .room => name
  | .leaveRoom roomName, .room => roomName
  | .sendMessageToRoom targetRoom _, .room => targetRoom
  | .sendMessageToRoom _ content, .content => content
  | .printUsersInRoom typed, .room => typed
  | .sendPrivateMessageToUser targetChannel _ _ _, .room => targetChannel
  | .sendPrivateMessageToUser _ _ targetUsername _, .target => targetUsername
  | .sendPrivateMessageToUser _ _ _ message, .message => message
  | _, _ => ""

/-- What is meant to be done: the action under way, and those to come. -/
structure Intent where
  username : String
  current : Option Client.Action
  todo : List Client.Action

/-- What is typed at a prompt.  At the end of the actions the menu is left. -/
def Intent.types : Prompt → Intent → String × Intent
  | .username, u => (u.username ++ "\n", u)
  | .menu, u =>
      match u.todo with
      | [] => ("0\n", { u with current := none })
      | a :: rest => (String.ofList [a.digit, '\n'], { u with current := some a, todo := rest })
  | p, u => ((u.current.elim "" (·.reply p)) ++ "\n", u)

/-- The action under way has the answer. -/
theorem types_reply {u : Intent} {a : Client.Action} (hcurrent : u.current = some a) {p : Prompt}
    (husername : p ≠ .username) (hmenu : p ≠ .menu) : u.types p = (a.reply p ++ "\n", u) := by
  cases p with
  | username => exact absurd rfl husername
  | menu => exact absurd rfl hmenu
  | _ =>
      show (u.current.elim "" (·.reply _) ++ "\n", u) = _
      rw [hcurrent, Option.elim_some]

/-! ## Reading what was typed -/

section Reading

variable {spaces rest : List Char} {s : String}

theorem skipSpace_append (hspaces : ∀ c ∈ spaces, isSpace c = true) (text : List Char) :
    skipSpace (spaces ++ text) = skipSpace text := by
  rw [skipSpace, skipSpace, List.dropWhile_append_of_pos hspaces]

theorem skipSpace_word (hs : Word s) : skipSpace (s.toList ++ rest) = s.toList ++ rest := by
  obtain ⟨hne, hletters⟩ := hs
  cases hlist : s.toList with
  | nil => exact absurd hlist hne
  | cons c cs =>
      rw [hlist] at hletters
      rw [skipSpace, List.cons_append, List.dropWhile_cons_of_neg]
      rw [hletters c (List.mem_cons_self ..)]
      exact Bool.false_ne_true

theorem word_typed (hspaces : ∀ c ∈ spaces, isSpace c = true) (hs : Word s) :
    Istream.word ⟨spaces ++ (s.toList ++ '\n' :: rest), false⟩ = (s, ⟨'\n' :: rest, false⟩) := by
  have hskip : skipSpace (spaces ++ (s.toList ++ '\n' :: rest)) = s.toList ++ '\n' :: rest := by
    rw [skipSpace_append hspaces, skipSpace_word hs]
  have hletters : ∀ c ∈ s.toList, (!isSpace c) = true := fun c hc => by rw [hs.2 c hc]; rfl
  rw [Istream.word, if_neg Bool.false_ne_true, hskip, if_neg (by simp), skipWord,
    List.takeWhile_append_of_pos hletters, List.dropWhile_append_of_pos hletters,
    List.takeWhile_cons_of_neg (by decide), List.dropWhile_cons_of_neg (by decide),
    List.append_nil, String.ofList_toList]

theorem ignore_newline : Istream.ignore 1000 '\n' ⟨'\n' :: rest, false⟩ = ⟨rest, false⟩ := rfl

theorem getline_typed (hs : Line s) :
    Istream.getline ⟨s.toList ++ '\n' :: rest, false⟩ = (s, ⟨rest, false⟩) := by
  have hletters : ∀ c ∈ s.toList, decide (c ≠ '\n') = true := by
    intro c hc
    rw [decide_eq_true_eq]
    rintro rfl
    exact hs hc
  rw [Istream.getline, if_neg Bool.false_ne_true, if_neg (by simp),
    List.takeWhile_append_of_pos hletters, List.dropWhile_append_of_pos hletters,
    List.takeWhile_cons_of_neg (by decide), List.dropWhile_cons_of_neg (by decide),
    List.append_nil, String.ofList_toList, List.tail_cons]

/-- A digit that is an option of the menu. -/
theorem getChoice_typed (hspaces : ∀ c ∈ spaces, isSpace c = true) {d : Char} {n : ℤ}
    (hskip : skipSpace [d, '\n'] = [d, '\n']) (hdigit : integer [d, '\n'] = some (n, ['\n']))
    (hn : Menu.IsOption n) (fuel : ℕ) (m : Menu) :
    Menu.getChoice (fuel + 1) m ⟨spaces ++ [d, '\n'], false⟩ =
      .ok (Int32.ofInt n, ⟨Int32.ofInt n⟩) ⟨['\n'], false⟩ := by
  refine Menu.getChoice_eq_ok_iff.mpr ⟨Menu.getInput_option ?_ hn fuel m, rfl⟩
  rw [skipSpace_append hspaces, hskip, hdigit]

end Reading

namespace Console

/-! ## Calls of the terminal -/

section Terminal

variable {I α β : Type} {returns : α → β → Terminal Intent → Prop}
  {raises : Exception → Terminal Intent → Prop} {u : Intent} {t : Terminal Intent}
  {q : Program I β}

/-- Nothing but white space is left of what was typed. -/
structure Synced (u : Intent) (t : Terminal Intent) : Prop where
  good : t.stream.failed = false
  space : ∀ c ∈ t.stream.rest, isSpace c = true
  user : t.user = u

theorem Synced.of_stream (hstream : t.stream = ⟨[], false⟩) (huser : t.user = u) : Synced u t :=
  ⟨by rw [hstream], by rw [hstream]; exact fun _ hc => absurd hc List.not_mem_nil, huser⟩

theorem Synced.of_newline (hstream : t.stream = ⟨['\n'], false⟩) (huser : t.user = u) :
    Synced u t := by
  refine ⟨by rw [hstream], ?_, huser⟩
  rw [hstream]
  intro c hc
  rw [List.mem_singleton.mp hc]
  rfl

theorem plays_print {f : Unit → Sitting I α} (text : String) (h : Synced u t)
    (hf : ∀ t', Synced u t' → Plays (Terminal.answer Intent.types) returns raises (f ()) t' q) :
    Plays (Terminal.answer Intent.types) returns raises (print text >>= f) t q :=
  .inward (hf _ ⟨h.good, h.space, h.user⟩)

theorem plays_ask {f : Unit → Sitting I α} {p : Prompt} {s : String} {left : List Char}
    (htypes : u.types p = (s ++ "\n", u))
    (hstream : t.stream = ⟨left, false⟩) (huser : t.user = u)
    (hf : ∀ t', t'.stream = ⟨left ++ (s.toList ++ ['\n']), false⟩ → t'.user = u →
      Plays (Terminal.answer Intent.types) returns raises (f ()) t' q) :
    Plays (Terminal.answer Intent.types) returns raises (ask p >>= f) t q := by
  refine .inward ?_
  simp only [Terminal.answer, huser, htypes, hstream, String.toList_append]
  exact hf _ rfl rfl

/-- A name that is asked for and read. -/
theorem plays_ask_word {f : String → Sitting I α} {p : Prompt} {s : String}
    (htypes : u.types p = (s ++ "\n", u)) (h : Synced u t)
    (hword : Word s)
    (hf : ∀ t', t'.stream = ⟨['\n'], false⟩ → t'.user = u →
      Plays (Terminal.answer Intent.types) returns raises (f s) t' q) :
    Plays (Terminal.answer Intent.types) returns raises
      (ask p >>= fun _ => inward Io.word >>= f) t q := by
  have hgood : t.stream = ⟨t.stream.rest, false⟩ := by rw [← h.good]
  refine plays_ask htypes hgood h.user fun t' hstream huser => .inward ?_
  simp only [Terminal.answer, hstream, word_typed h.space hword]
  exact hf _ rfl huser

/-- The newline behind a name. -/
theorem plays_ignore {f : Unit → Sitting I α} {rest : List Char}
    (hstream : t.stream = ⟨'\n' :: rest, false⟩) (huser : t.user = u)
    (hf : ∀ t', t'.stream = ⟨rest, false⟩ → t'.user = u →
      Plays (Terminal.answer Intent.types) returns raises (f ()) t' q) :
    Plays (Terminal.answer Intent.types) returns raises
      (inward (Io.ignore 1000 '\n') >>= f) t q := by
  refine .inward (hf _ ?_ huser)
  simp only [Terminal.answer, hstream, ignore_newline]

theorem plays_getline {f : String → Sitting I α} {rest : List Char} {s : String} (hs : Line s)
    (hstream : t.stream = ⟨s.toList ++ '\n' :: rest, false⟩) (huser : t.user = u)
    (hf : ∀ t', t'.stream = ⟨rest, false⟩ → t'.user = u →
      Plays (Terminal.answer Intent.types) returns raises (f s) t' q) :
    Plays (Terminal.answer Intent.types) returns raises (inward Io.getline >>= f) t q := by
  refine .inward ?_
  simp only [Terminal.answer, hstream, getline_typed hs]
  exact hf _ rfl huser

theorem plays_getNameOfTheRoom {f : String → Sitting I α} {s : String}
    (htypes : u.types .room = (s ++ "\n", u)) (h : Synced u t) (hword : Word s)
    (hf : ∀ t', t'.stream = ⟨[], false⟩ → t'.user = u →
      Plays (Terminal.answer Intent.types) returns raises (f s) t' q) :
    Plays (Terminal.answer Intent.types) returns raises (getNameOfTheRoom >>= f) t q := by
  rw [getNameOfTheRoom, scrollConsole]
  simp only [bind_assoc, pure_bind]
  refine plays_print _ h fun t₁ h₁ => ?_
  refine plays_ask_word htypes h₁ hword fun t₂ hstream huser => ?_
  exact plays_ignore hstream huser hf

theorem plays_handling {handled : Exception → Prop} [DecidablePred handled]
    {otherwise : Exception → Sitting I α} {otherwise' : Program I β} {body : Sitting I α}
    {body' : Program I β}
    (hbody : Plays (Terminal.answer Intent.types) returns (fun _ t => Synced u t) body t body')
    (hotherwise : ∀ e t', Synced u t' → Plays (Terminal.answer Intent.types) returns
      (fun _ t => Synced u t) (otherwise e) t' otherwise') :
    Plays (Terminal.answer Intent.types) returns (fun _ t => Synced u t)
      (handling handled otherwise body) t (Chat.handling handled otherwise' body') := by
  refine hbody.tryCatch fun e t' h => ?_
  split
  · exact hotherwise e t' h
  · exact .throw h

end Terminal

/-! ## The actions -/

section Actions

variable {I α : Type} {u : Intent} {t : Terminal Intent}

/-- The script does what the program does, and what was typed has been read. -/
abbrev Follows (u : Intent) (p : Sitting I α) (t : Terminal Intent) (q : Program I α) : Prop :=
  Plays (Terminal.answer Intent.types) (fun a b t => a = b ∧ Synced u t) (fun _ t => Synced u t)
    p t q

theorem follows_pure (h : Synced u t) (a : α) : Follows (I := I) u (pure a) t (pure a) :=
  .pure ⟨rfl, h⟩

theorem follows_print (h : Synced u t) (text : String) :
    Follows (I := I) u (print text) t (pure ()) :=
  .inward (.pure ⟨rfl, h.good, h.space, h.user⟩)

theorem follows_outward (h : Synced u t) (c : Remote I) : Follows u (outward c) t (remote c) :=
  .of_outward (fun _ => ⟨rfl, h⟩) fun _ => h

/-- A call, and the script goes on. -/
theorem plays_outward {β γ : Type} {returns : β → γ → Terminal Intent → Prop} {c : Remote I}
    {f : c.Result → Sitting I β} {g : c.Result → Program I γ} (h : Synced u t)
    (hf : ∀ a, Plays (Terminal.answer Intent.types) returns (fun _ t => Synced u t) (f a) t (g a)) :
    Plays (Terminal.answer Intent.types) returns (fun _ t => Synced u t) (outward c >>= f) t
      (remote c >>= g) := by
  refine .outward fun r => ?_
  cases r with
  | ok a => exact hf a
  | error e => exact .throw h

theorem follows_handling {handled : Exception → Prop} [DecidablePred handled]
    {otherwise : Exception → Sitting I α} {otherwise' : Program I α} {body : Sitting I α}
    {body' : Program I α} (hbody : Follows u body t body')
    (hotherwise : ∀ e t', Synced u t' → Follows u (otherwise e) t' otherwise') :
    Follows u (handling handled otherwise body) t (Chat.handling handled otherwise' body') :=
  plays_handling hbody hotherwise

theorem createRoom_follows {roomName : String} (htypes : u.types .newRoom = (roomName ++ "\n", u))
    (hword : Word roomName) (h : Synced u t) :
    Follows (I := I) u createRoom t (Client.createRoom roomName) := by
  rw [← bind_pure (Client.createRoom roomName), createRoom, scrollConsole]
  refine plays_print _ h fun t₁ h₁ => ?_
  refine plays_ask_word htypes h₁ hword fun t₂ hstream huser => ?_
  refine plays_ignore hstream huser fun t₃ hstream huser => ?_
  have h₃ := Synced.of_stream hstream huser
  refine Plays.bind (follows_handling ?_ fun e t' h' => follows_print h' _) ?_
  · exact plays_outward h₃ fun _ => follows_pure h₃ ()
  · rintro a b t' ⟨-, h'⟩
    exact follows_print h' _

theorem printListAllRooms_follows (h : Synced u t) :
    Follows (I := I) u printListAllRooms t (Client.printListAllRooms >>= fun _ => pure ()) := by
  rw [printListAllRooms, scrollConsole, Client.printListAllRooms]
  simp only [bind_assoc, pure_bind]
  refine plays_print _ h fun t₁ h₁ => ?_
  refine plays_outward h₁ fun rooms => ?_
  refine plays_print _ h₁ fun t₂ h₂ => ?_
  exact plays_print _ h₂ fun t₃ h₃ => follows_print h₃ _

theorem joinToRoom_follows (c : Client I) {name : String}
    (htypes : u.types .room = (name ++ "\n", u))
    (hword : Word name) (h : Synced u t) :
    Follows u (joinToRoom c) t (c.joinToRoom name) := by
  rw [← bind_pure (c.joinToRoom name), joinToRoom]
  refine plays_getNameOfTheRoom htypes h hword fun t₁ hstream huser => ?_
  have h₁ := Synced.of_stream hstream huser
  refine Plays.bind (follows_handling ?_ ?_) ?_
  · refine plays_outward h₁ fun room => ?_
    exact plays_outward h₁ fun _ => follows_pure h₁ _
  · intro e t' h'
    exact plays_print _ h' fun t'' h'' => follows_pure h'' c
  · rintro a b t' ⟨rfl, h'⟩
    exact plays_print _ h' fun t'' h'' => follows_pure h'' a

variable (what : Exception → String)

/-- The loop of `leaveRoom`.  Where it ends without a `return`, `userRooms` is as it was. -/
theorem leaveFrom_follows (username roomName : String) :
    ∀ (rest passed : List RoomInfo) {t : Terminal Intent}, Synced u t →
      Plays (Terminal.answer Intent.types)
        (fun a b t => (a = some b ∨ a = none ∧ b = passed ++ rest) ∧ Synced u t)
        (fun _ t => Synced u t) (leaveFrom (I := I) what username roomName passed rest) t
        (Client.leaveFrom username roomName passed rest) := by
  intro rest
  induction rest with
  | nil =>
      intro passed t h
      exact .pure ⟨Or.inr ⟨rfl, (List.append_nil passed).symm⟩, h⟩
  | cons room rest ih =>
      intro passed t h
      have hnext : ∀ {t : Terminal Intent}, Synced u t → Plays (Terminal.answer Intent.types)
          (fun a b t => (a = some b ∨ a = none ∧ b = passed ++ room :: rest) ∧ Synced u t)
          (fun _ t => Synced u t)
          (leaveFrom (I := I) what username roomName (passed ++ [room]) rest) t
          (Client.leaveFrom username roomName (passed ++ [room]) rest) := by
        intro t h
        have hrest := ih (passed ++ [room]) h
        rwa [List.append_assoc] at hrest
      rw [leaveFrom, Client.leaveFrom]
      split
      next =>
        refine Plays.bind (follows_handling ?_ ?_) ?_
        · refine plays_outward h fun chatRoom => plays_outward h fun _ => ?_
          exact plays_print _ h fun t' h' => follows_pure h' true
        · intro e t' h'
          exact plays_print _ h' fun t'' h'' => follows_pure h'' false
        · rintro left b t' ⟨rfl, h'⟩
          cases left with
          | true => exact .pure ⟨Or.inl rfl, h'⟩
          | false => exact hnext h'
      next => exact hnext h

theorem leaveRoom_follows (c : Client I) {roomName : String}
    (htypes : u.types .room = (roomName ++ "\n", u))
    (hword : Word roomName) (h : Synced u t) :
    Follows u (leaveRoom c what) t (c.leaveRoom roomName) := by
  rw [leaveRoom, scrollConsole, Client.leaveRoom]
  refine plays_print _ h fun t₁ h₁ => ?_
  refine plays_getNameOfTheRoom htypes h₁ hword fun t₂ hstream huser => ?_
  have h₂ := Synced.of_stream hstream huser
  refine Plays.bind (leaveFrom_follows what c.username roomName c.userRooms [] h₂) ?_
  rintro a b t' ⟨rfl | ⟨rfl, rfl⟩, h'⟩
  · exact follows_pure h' _
  · exact plays_print _ h' fun t'' h'' => follows_pure h'' c

theorem getUsersInRoom_asked {typed : String} (htypes : u.types .room = (typed ++ "\n", u))
    (hword : Word typed) (h : Synced u t) :
    Follows (I := I) u (getUsersInRoom what "") t (Client.getUsersInRoom "" typed) := by
  rw [getUsersInRoom]
  refine plays_getNameOfTheRoom htypes h hword fun t₁ hstream huser => ?_
  have h₁ := Synced.of_stream hstream huser
  refine follows_handling ?_ fun e t' h' => plays_print _ h' fun t'' h'' => follows_pure h'' []
  exact plays_outward h₁ fun room => follows_outward h₁ (.listUsers room)

theorem getUsersInRoom_given {room_name : String} (typed : String)
    (hne : room_name.isEmpty = false) (h : Synced u t) :
    Follows (I := I) u (getUsersInRoom what room_name) t
      (Client.getUsersInRoom room_name typed) := by
  rw [getUsersInRoom, Client.getUsersInRoom, hne]
  refine follows_handling ?_ fun e t' h' => plays_print _ h' fun t'' h'' => follows_pure h'' []
  exact plays_outward h fun room => follows_outward h (.listUsers room)

/-- The names are printed, where the program returns them. -/
theorem printUsersInRoom_follows {typed : String} (htypes : u.types .room = (typed ++ "\n", u))
    (hword : Word typed) (h : Synced u t) :
    Plays (Terminal.answer Intent.types) (fun _ _ t => Synced u t) (fun _ t => Synced u t)
      (printUsersInRoom what : Sitting I Unit) t (Client.printUsersInRoom typed) := by
  rw [printUsersInRoom, Client.printUsersInRoom, ← bind_pure (Client.getUsersInRoom "" typed)]
  refine plays_handling ?_ fun e t' h' => ?_
  · refine Plays.bind (getUsersInRoom_asked what htypes hword h) ?_
    rintro users b t' ⟨-, h'⟩
    refine plays_print _ h' fun t₁ h₁ => plays_print _ h₁ fun t₂ h₂ => .inward (.pure ?_)
    exact ⟨h₂.good, h₂.space, h₂.user⟩
  · exact .inward (.pure ⟨h'.good, h'.space, h'.user⟩)

theorem sendMessageToRoom_follows (c : Client I) {targetRoom content : String}
    (hroom : u.types .room = (targetRoom ++ "\n", u))
    (hcontent : u.types .content = (content ++ "\n", u))
    (hword : Word targetRoom) (hline : Line content) (h : Synced u t) :
    Follows u (sendMessageToRoom c) t (c.sendMessageToRoom targetRoom content) := by
  rw [sendMessageToRoom, scrollConsole, Client.sendMessageToRoom]
  refine plays_print _ h fun t₁ h₁ => ?_
  refine plays_getNameOfTheRoom hroom h₁ hword fun t₂ hstream huser => ?_
  split
  next =>
    refine follows_handling ?_ fun e t' h' => follows_print h' _
    refine plays_ask hcontent hstream huser fun t₃ hstream huser => ?_
    refine plays_getline hline hstream huser fun t₄ hstream huser => ?_
    have h₄ := Synced.of_stream hstream huser
    refine follows_handling ?_ fun e t' h' => follows_print h' _
    exact plays_outward h₄ fun chatRoom =>
      follows_outward h₄ (.postMessage chatRoom content c.username)
  next => exact follows_print (Synced.of_stream hstream huser) _

theorem sendPrivateMessageToUser_follows (c : Client I)
    {targetChannel targetUsername message : String} (typed : String)
    (hroom : u.types .room = (targetChannel ++ "\n", u))
    (htarget : u.types .target = (targetUsername ++ "\n", u))
    (hmessage : u.types .message = (message ++ "\n", u)) (hchannel : Word targetChannel)
    (hword : Word targetUsername) (hline : Line message) (h : Synced u t) :
    Follows u (sendPrivateMessageToUser c what) t
      (c.sendPrivateMessageToUser targetChannel typed targetUsername message) := by
  have hne : targetChannel.isEmpty = false := by
    rw [String.isEmpty_eq_false_iff]
    rintro rfl
    exact hchannel.1 rfl
  rw [sendPrivateMessageToUser, Client.sendPrivateMessageToUser]
  refine Plays.bind (plays_handling (?_ : Plays _
    (fun a b t => a = b.map (fun users => (targetChannel, users)) ∧ Synced u t) _ _ _ _)
    fun e t' h' => ?_) ?_
  · refine plays_getNameOfTheRoom hroom h hchannel fun t₁ hstream huser => ?_
    refine Plays.bind (getUsersInRoom_given what typed hne (Synced.of_stream hstream huser)) ?_
    rintro users b t' ⟨rfl, h'⟩
    exact .pure ⟨rfl, h'⟩
  · exact plays_print _ h' fun t'' h'' => .pure ⟨rfl, h''⟩
  · rintro a b t' ⟨rfl, h'⟩
    cases b with
    | none => exact follows_pure h' ()
    | some usersAvailable =>
        refine plays_ask_word htarget h' hword fun t₁ hstream huser => ?_
        dsimp only
        split
        next =>
          refine plays_ask hmessage hstream huser fun t₂ hstream huser => ?_
          refine plays_ignore hstream huser fun t₃ hstream huser => ?_
          refine plays_getline hline hstream huser fun t₄ hstream huser => ?_
          have h₄ := Synced.of_stream hstream huser
          refine follows_handling ?_ fun e t'' h'' => follows_print h'' _
          refine plays_outward h₄ fun chatRoom => plays_outward h₄ fun userPrx => ?_
          exact follows_outward h₄ (.sendPrivateMessage userPrx message c.username)
        next => exact follows_print (Synced.of_newline hstream huser) _

theorem disconnectFrom_follows (c : Client I) :
    ∀ (rest : List RoomInfo) (counter : ℕ) {t : Terminal Intent}, Synced u t →
      Follows u (disconnectFrom c what rest counter) t (c.disconnectFrom rest counter) := by
  intro rest
  induction rest with
  | nil =>
      intro counter t h
      exact follows_pure h ()
  | cons room rest ih =>
      intro counter t h
      rw [disconnectFrom, Client.disconnectFrom]
      refine Plays.bind (follows_handling ?_ ?_) ?_
      · cases c.userRooms[counter]? with
        | none => exact .throw h
        | some roomInfo =>
            refine plays_outward h fun chatRoom => plays_outward h fun _ => ?_
            exact plays_print _ h fun t' h' => follows_pure h' _
      · intro e t' h'
        exact plays_print _ h' fun t'' h'' => follows_pure h'' counter
      · rintro a b t' ⟨rfl, h'⟩
        exact ih a h'

theorem destructorFrom_follows (c : Client I) :
    ∀ (rest : List RoomInfo) {t : Terminal Intent}, Synced u t →
      Follows u (destructorFrom c rest) t (c.destructorFrom rest) := by
  intro rest
  induction rest with
  | nil =>
      intro t h
      exact follows_pure h ()
  | cons room rest ih =>
      intro t h
      rw [destructorFrom, Client.destructorFrom]
      exact plays_outward h fun chatRoom => plays_outward h fun _ => ih h

/-- One case of the `switch` does the action that is under way. -/
theorem turn_follows (c : Client I) {a : Client.Action} (hcurrent : u.current = some a)
    (ha : a.Typable) (h : Synced u t) : Follows u (turn c what a.number) t (c.act a) := by
  have htypes : ∀ p, p ≠ .username → p ≠ .menu → u.types p = (a.reply p ++ "\n", u) :=
    fun p => types_reply hcurrent
  cases a with
  | createRoom roomName =>
      exact (createRoom_follows (htypes .newRoom (by simp) (by simp)) ha h).bind
        fun _ _ _ h' => follows_pure h'.2 c
  | printListAllRooms =>
      have hlist := (printListAllRooms_follows (I := I) h).bind (f := fun _ => pure c)
        (g := fun _ => pure c) fun _ _ _ h' => follows_pure h'.2 c
      rwa [bind_assoc] at hlist
  | joinToRoom name => exact joinToRoom_follows c (htypes .room (by simp) (by simp)) ha h
  | leaveRoom roomName => exact leaveRoom_follows what c (htypes .room (by simp) (by simp)) ha h
  | sendMessageToRoom targetRoom content =>
      have hroom := htypes .room (by simp) (by simp)
      have hcontent := htypes .content (by simp) (by simp)
      exact (sendMessageToRoom_follows c hroom hcontent ha.1 ha.2 h).bind
        fun _ _ _ h' => follows_pure h'.2 c
  | printUsersInRoom typed =>
      exact (printUsersInRoom_follows what (htypes .room (by simp) (by simp)) ha h).bind
        fun _ _ _ h' => follows_pure h' c
  | sendPrivateMessageToUser targetChannel typed targetUsername message =>
      have hroom := htypes .room (by simp) (by simp)
      have htarget := htypes .target (by simp) (by simp)
      have hmessage := htypes .message (by simp) (by simp)
      exact (sendPrivateMessageToUser_follows what c typed hroom htarget hmessage ha.1 ha.2.1
        ha.2.2 h).bind fun _ _ _ h' => follows_pure h'.2 c

end Actions

/-! ## The whole session -/

section Session

variable {I : Type} {u : Intent} {t : Terminal Intent}

/-- The actions one after the other, and the exit. -/
def session (c : Client I) : List Client.Action → Program I Unit
  | [] => c.exit
  | a :: rest => do
      let c ← c.act a
      session c rest

theorem digit_typed (a : Client.Action) :
    skipSpace [a.digit, '\n'] = [a.digit, '\n'] ∧
      integer [a.digit, '\n'] = some (a.number.toInt, ['\n']) ∧ Menu.IsOption a.number.toInt ∧
      a.number ≠ 0 := by
  cases a <;> simp only [Client.Action.digit, Client.Action.number, Menu.IsOption] <;> decide

/-- The menu and the next action. -/
theorem plays_choice {α β : Type} {returns : α → β → Terminal Intent → Prop}
    {raises : Exception → Terminal Intent → Prop} {q : Program I β}
    {f : Option (Int32 × Menu) → Sitting I α} {m : Menu} {choices : ℕ} {d : Char} {n : ℤ}
    {u' : Intent} (h : Synced u t) (htypes : u.types .menu = (String.ofList [d, '\n'], u'))
    (hskip : skipSpace [d, '\n'] = [d, '\n']) (hdigit : integer [d, '\n'] = some (n, ['\n']))
    (hn : Menu.IsOption n)
    (hf : ∀ t', Synced u' t' → Plays (Terminal.answer Intent.types) returns raises
      (f (some (Int32.ofInt n, ⟨Int32.ofInt n⟩))) t' q) :
    Plays (Terminal.answer Intent.types) returns raises
      (ask .menu >>= fun _ => inward (Io.getChoice (choices + 1) m) >>= f) t q := by
  refine .inward (.inward ?_)
  simp only [Terminal.answer, h.user, htypes, h.good, String.toList_ofList,
    getChoice_typed h.space hskip hdigit hn]
  exact hf _ (.of_newline rfl rfl)

variable (what : Exception → String) (choices : ℕ)

/-- The program does the actions that are left to do, and leaves with status 0. -/
theorem mainLoop_follows :
    ∀ (todo : List Client.Action) {u : Intent} {t : Terminal Intent} (turns : ℕ) (m : Menu)
      (c : Client I), u.todo = todo → (∀ a ∈ todo, a.Typable) → todo.length < turns →
      Synced u t →
      Plays (Terminal.answer Intent.types) (fun status _ _ => status = some 0) (fun _ _ => True)
        (mainLoop what (choices + 1) turns m c) t (session c todo) := by
  intro todo
  induction todo with
  | nil =>
      intro u t turns m c htodo _ hturns h
      obtain ⟨turns, rfl⟩ : ∃ n, turns = n + 1 := ⟨turns - 1, by omega⟩
      rw [mainLoop, session, Client.exit]
      have htypes : u.types .menu = (String.ofList ['0', '\n'], { u with current := none }) := by
        rw [Intent.types, htodo]
      refine plays_choice h htypes (by decide) (by decide : integer ['0', '\n'] = some (0, ['\n']))
        ⟨by decide, by decide⟩ fun t₁ h₁ => ?_
      have hdisconnect := (disconnectFrom_follows what c c.userRooms 0 h₁).mono
        (fun _ _ _ h' => h'.2) (fun _ _ _ => trivial)
      refine hdisconnect.bind fun _ _ t₂ h₂ => ?_
      rw [← bind_pure c.destructor]
      have hdestructor := (destructorFrom_follows c c.userRooms h₂).mono
        (fun _ _ _ _ => trivial) (fun _ _ _ => trivial)
      exact hdestructor.bind fun _ _ _ _ => .pure rfl
  | cons a todo ih =>
      intro u t turns m c htodo hall hturns h
      obtain ⟨turns, rfl⟩ : ∃ n, turns = n + 1 := ⟨turns - 1, by omega⟩
      rw [mainLoop, session]
      have htypes : u.types .menu =
          (String.ofList [a.digit, '\n'], { u with current := some a, todo := todo }) := by
        rw [Intent.types, htodo]
      obtain ⟨hskip, hdigit, hoption, hne⟩ := digit_typed a
      refine plays_choice h htypes hskip hdigit hoption fun t₁ h₁ => ?_
      rw [Int32.ofInt_toInt]
      dsimp only
      rw [if_neg hne]
      have hturn := (turn_follows what c (u := { u with current := some a, todo := todo }) rfl
        (hall a (List.mem_cons_self ..)) h₁).mono (fun _ _ _ h' => h') (fun _ _ _ => trivial)
      refine hturn.bind ?_
      rintro c₁ c₂ t₂ ⟨rfl, h₂⟩
      exact ih turns _ c₁ rfl (fun b hb => hall b (List.mem_cons_of_mem _ hb))
        (Nat.lt_of_succ_lt_succ hturns) h₂

/-- A user at a fresh terminal. -/
def sitDown (username : String) (todo : List Client.Action) : Terminal Intent :=
  ⟨⟨[], false⟩, "", ⟨username, none, todo⟩⟩

theorem main_follows {username : String} {todo : List Client.Action} {turns : ℕ}
    (husername : Word username) (hall : ∀ a ∈ todo, a.Typable) (hturns : todo.length < turns)
    (user : Prx I) (m : Menu) :
    Plays (Terminal.answer Intent.types) (fun status _ _ => status = some 0) (fun _ _ => True)
      (main what user m (choices + 1) turns) (sitDown username todo)
      (session ⟨username, user, []⟩ todo) := by
  have h : Synced ⟨username, none, todo⟩ (sitDown username todo) := .of_stream rfl rfl
  refine plays_ask_word rfl h husername fun t₁ hstream huser => ?_
  exact mainLoop_follows what choices todo turns m _ rfl hall hturns
    (.of_newline hstream huser)

/-- Whoever answers the calls: the program makes the calls of the actions, in order and
with the names and messages that were meant, and it ends with status 0 or with the same
exception. -/
theorem main_run {σ : Type} (handle : (c : Remote I) → σ → Except Exception c.Result × σ) (s : σ)
    {username : String} {todo : List Client.Action} {turns : ℕ} (husername : Word username)
    (hall : ∀ a ∈ todo, a.Typable) (hturns : todo.length < turns) (user : Prx I) (m : Menu) :
    let typed := Script.run (Script.both handle (Terminal.answer Intent.types))
      (main what user m (choices + 1) turns) (s, sitDown username todo)
    let meant := Script.run handle (session ⟨username, user, []⟩ todo) s
    Script.outerCalls typed.calls = meant.calls ∧ typed.state.1 = meant.state ∧
      (typed.result = .ok (some 0) ∧ meant.result = .ok () ∨
        ∃ e, typed.result = .error e ∧ meant.result = .error e) := by
  intro typed meant
  obtain ⟨hcalls, hstate, hend⟩ :=
    (main_follows what choices husername hall hturns user m).run handle s
  refine ⟨hcalls, hstate, ?_⟩
  rcases hend with ⟨status, b, hstatus, hb, rfl⟩ | ⟨e, htyped, hmeant, -⟩
  · exact Or.inl ⟨hstatus, hb⟩
  · exact Or.inr ⟨e, htyped, hmeant⟩

/-- Ann makes a room, joins it, and says good morning. -/
theorem main_run_good_morning :
    Script.outerCalls (Script.run
      (Script.both (World.handle (I := ℕ) .works) (Terminal.answer Intent.types))
      (main (fun _ => "") (some 0) ⟨0⟩ 1 4)
      (World.init.registerRoomFactory, sitDown "ann" [.createRoom "tea", .joinToRoom "tea",
        .sendMessageToRoom "tea" "good morning"])).calls =
    (Script.run (World.handle .works) (session ⟨"ann", some 0, []⟩ [.createRoom "tea",
      .joinToRoom "tea", .sendMessageToRoom "tea" "good morning"])
      World.init.registerRoomFactory).calls :=
  (main_run (fun _ => "") 0 (World.handle .works) _ (by decide) (by decide) (by decide) (some 0)
    ⟨0⟩).1

end Session

end Console

end Rso.Chat
