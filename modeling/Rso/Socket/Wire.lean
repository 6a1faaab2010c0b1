import Rso.Lib.Framing
import Rso.Lib.Memory

/-!
# The protocol of the root and date service

A request or an answer begins with a code and an id, each a word in network
order.  A root request and a root answer then carry the bits of a double; a
date answer carries the length of a text and the text.

Client and server have the codes each in `#define`s of their own, with the same
values.
-/

namespace Rso.Socket

open Grammar

def rootAnswerCode : UInt32 := 0x1000001

def dateAnserCode : UInt32 := 0x10002

theorem date_ne_root : dateAnserCode ≠ rootAnswerCode := by decide

def rootRequestCode : UInt32 := 0x1

def dateRequestCode : UInt32 := 0x2

/-! ## Headers -/

/-- The eight bytes that begin a request or an answer. -/
structure Header where
  code : UInt32
  id : UInt32
deriving DecidableEq, Repr

def Header.encode (h : Header) : List UInt8 := storeU32 .big h.code ++ storeU32 .big h.id

@[simp] theorem Header.encode_length (h : Header) : h.encode.length = 8 := by
  rw [Header.encode, List.length_append, storeU32_length, storeU32_length]

/-- The header with the given bytes. -/
def Header.ofBytes (bs : List UInt8) : Header :=
  ⟨loadU32 .big (bs.take 4), loadU32 .big (bs.drop 4)⟩

theorem Header.ofBytes_encode (h : Header) : Header.ofBytes h.encode = h := by
  rw [Header.ofBytes, Header.encode, List.take_left' (storeU32_length ..),
    List.drop_left' (storeU32_length ..), loadU32_storeU32, loadU32_storeU32]

theorem Header.encode_ofBytes {bs : List UInt8} (h : bs.length = 8) :
    (Header.ofBytes bs).encode = bs := by
  rw [Header.ofBytes, Header.encode, storeU32_loadU32 .big (by rw [List.length_take]; omega),
    storeU32_loadU32 .big (by rw [List.length_drop]; omega), List.take_append_drop]

def header : Grammar Header where
  encode := Header.encode
  decode bs := (split 8 bs).map fun p => (Header.ofBytes p.1, p.2)
  encode_ne_nil h := List.ne_nil_of_length_pos (by rw [Header.encode_length]; decide)
  decode_eq_some_iff bs h rest := by
    rw [Option.map_eq_some_iff]
    constructor
    · rintro ⟨⟨e, rest'⟩, hsplit, heq⟩
      obtain ⟨hbs, hlen⟩ := split_eq_some_iff.mp hsplit
      cases heq
      rw [Header.encode_ofBytes hlen, hbs]
    · rintro rfl
      exact ⟨_, split_append h.encode_length, by rw [Header.ofBytes_encode]⟩

theorem exists_header {bs : List UInt8} (h : 8 ≤ bs.length) :
    ∃ (hd : Header) (rest : List UInt8), bs = hd.encode ++ rest :=
  ⟨Header.ofBytes (bs.take 8), bs.drop 8, by
    rw [Header.encode_ofBytes (List.length_take_of_le h), List.take_append_drop]⟩

section InMemory

variable (o : ByteOrder) (buffer : Mem)

/-- The first half of an object of eight bytes, turned to host order. -/
theorem Header.code_ofBytes_read :
    (Header.ofBytes (buffer.read 0 8)).code = ntohl o (loadU32 o (buffer.read 0 4)) := by
  have hread := buffer.read_append 0 4 4
  rw [ntohl_loadU32 o (Mem.read_length ..), Header.ofBytes,
    show buffer.read 0 8 = buffer.read 0 4 ++ buffer.read 4 4 from hread.symm,
    List.take_left' (Mem.read_length ..)]

/-- The second half. -/
theorem Header.id_ofBytes_read :
    (Header.ofBytes (buffer.read 0 8)).id = ntohl o (loadU32 o (buffer.read 4 4)) := by
  have hread := buffer.read_append 0 4 4
  rw [ntohl_loadU32 o (Mem.read_length ..), Header.ofBytes,
    show buffer.read 0 8 = buffer.read 0 4 ++ buffer.read 4 4 from hread.symm,
    List.drop_left' (Mem.read_length ..)]

/-- A header that was stored. -/
theorem Header.ofBytes_read_write (h : Header) :
    Header.ofBytes ((buffer.write 0 h.encode).read 0 8) = h := by
  rw [Mem.read_write_self buffer h.encode_length (by decide), Header.ofBytes_encode]

end InMemory

section WithHeader

variable {α : Type} (headerOf : α → Header) (body : α → List UInt8)
  (decodeBody : Header → List UInt8 → Option (α × List UInt8))
  (law : ∀ h bs a rest, decodeBody h bs = some (a, rest) ↔ h = headerOf a ∧ bs = body a ++ rest)

/-- Messages with a header that says how to go on. -/
def withHeader : Grammar α where
  encode a := (headerOf a).encode ++ body a
  decode bs := (header.decode bs).bind fun p => decodeBody p.1 p.2
  encode_ne_nil a := List.append_ne_nil_of_left_ne_nil (header.encode_ne_nil _) _
  decode_eq_some_iff bs a rest := by
    rw [Option.bind_eq_some_iff]
    constructor
    · rintro ⟨⟨h, bs'⟩, hheader, hbody⟩
      obtain ⟨rfl, rfl⟩ := (law h bs' a rest).mp hbody
      rw [(header.decode_eq_some_iff _ _ _).mp hheader, List.append_assoc]
      rfl
    · rintro rfl
      refine ⟨(headerOf a, body a ++ rest), ?_, (law _ _ _ _).mpr ⟨rfl, rfl⟩⟩
      rw [List.append_assoc]
      exact header.decode_encode _ _

theorem withHeader_decode_append (h : Header) (bs : List UInt8) :
    (withHeader headerOf body decodeBody law).decode (h.encode ++ bs) = decodeBody h bs := by
  show (header.decode (header.encode h ++ bs)).bind (fun p => decodeBody p.1 p.2) = _
  rw [header.decode_encode, Option.bind_some]

end WithHeader

/-! ## Requests -/

/-- What a request asks for. -/
inductive Operation where
  | root (operand : UInt64)
  | date
deriving DecidableEq, Repr

structure Request where
  id : UInt32
  operation : Operation
deriving DecidableEq, Repr

namespace Request

def header : Request → Header
  | ⟨id, .root _⟩ => ⟨rootRequestCode, id⟩
  | ⟨id, .date⟩ => ⟨dateRequestCode, id⟩

def body : Request → List UInt8
  | ⟨_, .root operand⟩ => storeU64 .big operand
  | ⟨_, .date⟩ => []

/-- The request that begins with a given header. -/
def decodeBody (h : Header) (bs : List UInt8) : Option (Request × List UInt8) :=
  if h.code = rootRequestCode then
    (u64.decode bs).map fun p => (⟨h.id, .root p.1⟩, p.2)
  else if h.code = dateRequestCode then some (⟨h.id, .date⟩, bs)
  else none

theorem decodeBody_eq_some_iff (h : Header) (bs : List UInt8) (r : Request) (rest : List UInt8) :
    decodeBody h bs = some (r, rest) ↔ h = r.header ∧ bs = r.body ++ rest := by
  constructor
  · intro hbody
    rw [decodeBody] at hbody
    split at hbody
    next hroot =>
      obtain ⟨⟨operand, rest'⟩, hoperand, heq⟩ := Option.map_eq_some_iff.mp hbody
      cases heq
      exact ⟨by rw [header, ← hroot], (u64.decode_eq_some_iff _ _ _).mp hoperand⟩
    next =>
      split at hbody
      next hdate =>
        cases hbody
        exact ⟨by rw [header, ← hdate], rfl⟩
      next => cases hbody
  · rintro ⟨rfl, rfl⟩
    obtain ⟨id, operation⟩ := r
    cases operation with
    | root operand =>
        rw [decodeBody, header, body, if_pos rfl, ← u64_encode, u64.decode_encode]
        rfl
    | date => rfl

/-- The grammar of requests. -/
def grammar : Grammar Request := withHeader header body decodeBody decodeBody_eq_some_iff

theorem encode_root (id : UInt32) (operand : UInt64) :
    grammar.encode ⟨id, .root operand⟩ =
      Header.encode ⟨rootRequestCode, id⟩ ++ storeU64 .big operand := rfl

theorem encode_date (id : UInt32) :
    grammar.encode ⟨id, .date⟩ = Header.encode ⟨dateRequestCode, id⟩ ++ [] := rfl

theorem encode_root_length (id : UInt32) (operand : UInt64) :
    (grammar.encode ⟨id, .root operand⟩).length = 16 := by
  rw [encode_root]
  simp

theorem encode_date_length (id : UInt32) : (grammar.encode ⟨id, .date⟩).length = 8 := by
  rw [encode_date]
  simp

end Request

/-! ## Answers -/

/-- A text that a date answer can carry. -/
structure Text where
  bytes : List UInt8
  length_lt : bytes.length < 2 ^ 32
deriving DecidableEq, Repr

/-- A text behind its length. -/
def text : Grammar Text where
  encode t := storeU32 .big (UInt32.ofNat t.bytes.length) ++ t.bytes
  decode bs := (u32.decode bs).bind fun p =>
    if h : p.1.toNat ≤ p.2.length then
      some (⟨p.2.take p.1.toNat, by rw [List.length_take_of_le h]; exact p.1.toNat_lt⟩,
        p.2.drop p.1.toNat)
    else none
  encode_ne_nil t := List.append_ne_nil_of_left_ne_nil (u32.encode_ne_nil _) _
  decode_eq_some_iff bs t rest := by
    rw [Option.bind_eq_some_iff]
    constructor
    · rintro ⟨⟨length, bs'⟩, hlength, htext⟩
      rw [u32.decode_eq_some_iff, u32_encode] at hlength
      split at htext
      next h =>
        cases htext
        dsimp only at h ⊢
        rw [hlength, List.length_take_of_le h, UInt32.ofNat_toNat, List.append_assoc,
          List.take_append_drop]
      next => cases htext
    · rintro rfl
      have hlen : (UInt32.ofNat t.bytes.length).toNat = t.bytes.length :=
        UInt32.toNat_ofNat_of_lt' t.length_lt
      refine ⟨_, by rw [List.append_assoc]; exact u32.decode_encode _ _, ?_⟩
      simp only [hlen]
      rw [dif_pos (by rw [List.length_append]; omega)]
      simp

/-- What an answer says. -/
inductive Content where
  | root (result : UInt64)
  | date (text : Text)
deriving DecidableEq, Repr

structure Answer where
  id : UInt32
  content : Content
deriving DecidableEq, Repr

namespace Answer

def header : Answer → Header
  | ⟨id, .root _⟩ => ⟨rootAnswerCode, id⟩
  | ⟨id, .date _⟩ => ⟨dateAnserCode, id⟩

def body : Answer → List UInt8
  | ⟨_, .root result⟩ => storeU64 .big result
  | ⟨_, .date t⟩ => text.encode t

/-- The answer that begins with a given header. -/
def decodeBody (h : Header) (bs : List UInt8) : Option (Answer × List UInt8) :=
  if h.code = rootAnswerCode then
    (u64.decode bs).map fun p => (⟨h.id, .root p.1⟩, p.2)
  else if h.code = dateAnserCode then
    (text.decode bs).map fun p => (⟨h.id, .date p.1⟩, p.2)
  else none

theorem decodeBody_eq_some_iff (h : Header) (bs : List UInt8) (a : Answer) (rest : List UInt8) :
    decodeBody h bs = some (a, rest) ↔ h = a.header ∧ bs = a.body ++ rest := by
  constructor
  · intro hbody
    rw [decodeBody] at hbody
    split at hbody
    next hroot =>
      obtain ⟨⟨result, rest'⟩, hresult, heq⟩ := Option.map_eq_some_iff.mp hbody
      cases heq
      exact ⟨by rw [header, ← hroot], (u64.decode_eq_some_iff _ _ _).mp hresult⟩
    next =>
      split at hbody
      next hdate =>
        obtain ⟨⟨t, rest'⟩, htext, heq⟩ := Option.map_eq_some_iff.mp hbody
        cases heq
        exact ⟨by rw [header, ← hdate], (text.decode_eq_some_iff _ _ _).mp htext⟩
      next => cases hbody
  · rintro ⟨rfl, rfl⟩
    obtain ⟨id, content⟩ := a
    cases content with
    | root result =>
        rw [decodeBody, header, body, if_pos rfl, ← u64_encode, u64.decode_encode]
        rfl
    | date t =>
        rw [decodeBody, header, body, if_neg date_ne_root, if_pos rfl, text.decode_encode]
        rfl

/-- The grammar of answers. -/
def grammar : Grammar Answer := withHeader header body decodeBody decodeBody_eq_some_iff

theorem encode_root (id : UInt32) (result : UInt64) :
    grammar.encode ⟨id, .root result⟩ =
      storeU32 .big rootAnswerCode ++ storeU32 .big id ++ storeU64 .big result := rfl

theorem encode_date (id : UInt32) (t : Text) :
    grammar.encode ⟨id, .date t⟩ =
      storeU32 .big dateAnserCode ++ storeU32 .big id ++
        (storeU32 .big (UInt32.ofNat t.bytes.length) ++ t.bytes) := rfl

theorem encode_root_length (id : UInt32) (result : UInt64) :
    (grammar.encode ⟨id, .root result⟩).length = 16 := by
  rw [encode_root]
  simp

theorem encode_date_length (id : UInt32) (t : Text) :
    (grammar.encode ⟨id, .date t⟩).length = 12 + t.bytes.length := by
  rw [encode_date]
  simp
  omega

end Answer

end Rso.Socket
