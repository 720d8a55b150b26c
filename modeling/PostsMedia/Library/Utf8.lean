import Mathlib.Data.List.Basic

namespace Utf8

variable {text : List Char} {bytes front rest : List UInt8} {chunks : List (List UInt8)}

/-- The bytes of a text. -/
def encode (text : List Char) : List UInt8 := text.flatMap String.utf8EncodeChar

def byteLength (text : List Char) : ℕ := (encode text).length

/-- The character that stands for bytes without a meaning. -/
def replacement : Char := '\uFFFD'

def isContinuation (byte : UInt8) : Bool := 0x80 ≤ byte && byte ≤ 0xBF

/-- The two bytes begin a character of three or four. -/
def beginsLong (first second : UInt8) : Bool :=
  if first = 0xE0 then 0xA0 ≤ second && second ≤ 0xBF
  else if first = 0xED then 0x80 ≤ second && second ≤ 0x9F
  else if first = 0xF0 then 0x90 ≤ second && second ≤ 0xBF
  else if first = 0xF4 then 0x80 ≤ second && second ≤ 0x8F
  else 0xE1 ≤ first && first ≤ 0xF3 && isContinuation second

/-- The number of bytes that one replacement stands for: the longest beginning of a character, or
one byte that begins none. -/
def subpart : List UInt8 → ℕ
  | first :: second :: third :: _ =>
      if beginsLong first second then
        if 0xF0 ≤ first && isContinuation third then 3 else 2
      else 1
  | [first, second] => if beginsLong first second then 2 else 1
  | _ => 1

/-- The characters behind a number of bytes that are decoded already. -/
def decodeFrom : ℕ → List UInt8 → List Char
  | _, [] => []
  | skip + 1, _ :: rest => decodeFrom skip rest
  | 0, byte :: rest =>
      match (byte :: rest).toByteArray.utf8DecodeChar? 0 with
      | some character => character :: decodeFrom (character.utf8Size - 1) rest
      | none => replacement :: decodeFrom (subpart (byte :: rest) - 1) rest

def decode (bytes : List UInt8) : List Char := decodeFrom 0 bytes

@[simp] theorem encode_nil : encode [] = [] := rfl

@[simp] theorem encode_cons (character : Char) (text : List Char) :
    encode (character :: text) = String.utf8EncodeChar character ++ encode text := rfl

@[simp] theorem encode_append (text text' : List Char) :
    encode (text ++ text') = encode text ++ encode text' := by
  simp [encode]

@[simp] theorem byteLength_append (text text' : List Char) :
    byteLength (text ++ text') = byteLength text + byteLength text' := by
  simp [byteLength]

theorem byteLength_cons (character : Char) (text : List Char) :
    byteLength (character :: text) = character.utf8Size + byteLength text := by
  simp [byteLength]

theorem decodeFrom_eq (skip : ℕ) (bytes : List UInt8) :
    decodeFrom skip bytes = decode (bytes.drop skip) := by
  induction skip generalizing bytes with
  | zero => rfl
  | succ skip ih =>
      cases bytes with
      | nil => rfl
      | cons byte rest => exact ih rest

/-- Decoding gives an encoded text back, and goes on behind it. -/
theorem decode_encode_append (text : List Char) (rest : List UInt8) :
    decode (encode text ++ rest) = text ++ decode rest := by
  induction text with
  | nil => rfl
  | cons character text ih =>
      rw [encode_cons, List.append_assoc]
      have length := String.length_utf8EncodeChar character
      have found : ByteArray.utf8DecodeChar?
          (String.utf8EncodeChar character ++ (encode text ++ rest)).toByteArray 0 =
            some character := by
        rw [List.toByteArray_append]
        exact ByteArray.utf8DecodeChar?_utf8EncodeChar_append
      cases bytes : String.utf8EncodeChar character with
      | nil => exact absurd bytes String.utf8EncodeChar_ne_nil
      | cons byte others =>
          rw [bytes] at length found
          rw [List.length_cons] at length
          rw [List.cons_append] at found ⊢
          have skipped : (others ++ (encode text ++ rest)).drop (character.utf8Size - 1) =
              encode text ++ rest := List.drop_left' (by omega)
          rw [decode, decodeFrom, found]
          dsimp only
          rw [decodeFrom_eq, skipped, ih, List.cons_append]

theorem subpart_le (bytes : List UInt8) : subpart bytes ≤ 3 := by
  unfold subpart
  split
  · split_ifs <;> omega
  · split_ifs <;> omega
  · omega

/-- A text takes at least as many bytes as it was decoded from. -/
theorem length_le_byteLength_decodeFrom (skip : ℕ) (bytes : List UInt8) :
    bytes.length ≤ skip + byteLength (decodeFrom skip bytes) := by
  induction bytes generalizing skip with
  | nil => exact Nat.zero_le _
  | cons byte rest ih =>
      cases skip with
      | succ skip =>
          have later := ih skip
          rw [List.length_cons, decodeFrom]
          omega
      | zero =>
          rw [List.length_cons, decodeFrom]
          split
          · rename_i character _
            have later := ih (character.utf8Size - 1)
            have positive := character.utf8Size_pos
            rw [byteLength_cons]
            omega
          · have later := ih (subpart (byte :: rest) - 1)
            have short := subpart_le (byte :: rest)
            have wide : replacement.utf8Size = 3 := by decide
            rw [byteLength_cons, wide]
            omega

theorem length_le_byteLength_decode (bytes : List UInt8) :
    bytes.length ≤ byteLength (decode bytes) := by
  have bound := length_le_byteLength_decodeFrom 0 bytes
  rwa [Nat.zero_add] at bound

theorem isFirst_of_beginsLong {first second : UInt8} (begins : beginsLong first second) :
    first.IsUTF8FirstByte := by
  have leads : ∀ n : Fin 256, 0xE0 ≤ n.val → n.val ≤ 0xF4 →
      (UInt8.ofNat n.val).IsUTF8FirstByte := by decide +kernel
  have range : 0xE0 ≤ first.toNat ∧ first.toNat ≤ 0xF4 := by
    unfold beginsLong at begins
    split_ifs at begins with a b c d
    · simp [a]
    · simp [b]
    · simp [c]
    · simp [d]
    · simp only [Bool.and_eq_true, decide_eq_true_eq, UInt8.le_iff_toNat_le] at begins
      simp at begins
      omega
  have lead := leads ⟨first.toNat, first.toNat_lt⟩ range.1 range.2
  rwa [UInt8.ofNat_toNat] at lead

/-- A chunk that starts inside a character decodes to more bytes than it has. -/
theorem length_lt_byteLength_decode {byte : UInt8} (inside : ¬ byte.IsUTF8FirstByte)
    (rest : List UInt8) : (byte :: rest).length < byteLength (decode (byte :: rest)) := by
  have lost : (byte :: rest).toByteArray.utf8DecodeChar? 0 = none := by
    by_contra found
    have first := ByteArray.isUTF8FirstByte_of_isSome_utf8DecodeChar?
      (Option.isSome_iff_ne_none.mpr found)
    rw [List.getElem_toByteArray] at first
    exact inside first
  have short (second : UInt8) : ¬ beginsLong byte second := by
    intro begins
    exact inside (isFirst_of_beginsLong begins)
  have single : subpart (byte :: rest) = 1 := by
    cases rest with
    | nil => rfl
    | cons second rest => cases rest <;> simp [subpart, short]
  have later := length_le_byteLength_decodeFrom 0 rest
  have wide : replacement.utf8Size = 3 := by decide
  rw [decode, decodeFrom, lost]
  dsimp only
  rw [single, Nat.sub_self, byteLength_cons, wide, List.length_cons]
  omega

/-- No chunk starts inside a character. -/
def Uncut (chunks : List (List UInt8)) : Prop :=
  ∀ chunk ∈ chunks, ∀ byte ∈ chunk.head?, byte.IsUTF8FirstByte

instance (chunks : List (List UInt8)) : Decidable (Uncut chunks) :=
  inferInstanceAs (Decidable (∀ chunk ∈ chunks, ∀ byte ∈ chunk.head?, byte.IsUTF8FirstByte))

/-- Where a character starts, a text is divided. -/
theorem split_encode (whole : encode text = front ++ rest)
    (start : ∀ byte ∈ rest.head?, byte.IsUTF8FirstByte) :
    ∃ before after, text = before ++ after ∧ front = encode before ∧ rest = encode after := by
  induction text generalizing front with
  | nil =>
      obtain ⟨rfl, rfl⟩ := List.append_eq_nil_iff.mp whole.symm
      exact ⟨[], [], rfl, rfl, rfl⟩
  | cons character text ih =>
      rw [encode_cons] at whole
      rcases List.append_eq_append_iff.mp whole with ⟨more, longer, tail⟩ | ⟨cut, shorter, tail⟩
      · obtain ⟨before, after, split, front', rest'⟩ := ih tail
        refine ⟨character :: before, after, by rw [split, List.cons_append], ?_, rest'⟩
        rw [longer, front', encode_cons]
      · cases front with
        | nil => exact ⟨[], character :: text, rfl, rfl, by rw [tail, encode_cons, shorter]; rfl⟩
        | cons byte front =>
            cases cut with
            | nil =>
                refine ⟨[character], text, rfl, ?_, tail⟩
                rw [encode_cons, shorter, encode_nil, List.append_nil, List.append_nil]
            | cons inner cut =>
                exfalso
                have first := start inner (by rw [tail]; rfl)
                have position : (byte :: front).length <
                    (String.utf8EncodeChar character).length := by
                  rw [shorter]
                  simp
                have here : (String.utf8EncodeChar character)[(byte :: front).length] = inner := by
                  simp [shorter]
                rw [← here, UInt8.isUTF8FirstByte_getElem_utf8EncodeChar] at first
                cases first

theorem decode_encode (text : List Char) : decode (encode text) = text := by
  have decoded := decode_encode_append text []
  rwa [List.append_nil, show decode [] = [] from rfl, List.append_nil] at decoded

theorem head_flatten (uncut : Uncut chunks) :
    ∀ byte ∈ chunks.flatten.head?, byte.IsUTF8FirstByte := by
  induction chunks with
  | nil =>
      intro byte head
      cases head
  | cons chunk chunks ih =>
      cases chunk with
      | nil => exact ih (fun other member => uncut other (List.mem_cons_of_mem _ member))
      | cons first chunk =>
          intro byte head
          exact uncut (first :: chunk) List.mem_cons_self byte head

/-- Uncut chunks are decoded to the whole text, each to as many bytes as it has. -/
theorem decode_uncut (whole : chunks.flatten = encode text) (uncut : Uncut chunks) :
    chunks.flatMap decode = text ∧ ∀ chunk ∈ chunks, byteLength (decode chunk) = chunk.length := by
  induction chunks generalizing text with
  | nil =>
      cases text with
      | nil => exact ⟨rfl, by simp⟩
      | cons character text =>
          rw [encode_cons] at whole
          exact absurd (List.append_eq_nil_iff.mp whole.symm).1 String.utf8EncodeChar_ne_nil
  | cons chunk chunks ih =>
      have others : Uncut chunks := fun other member => uncut other (List.mem_cons_of_mem _ member)
      rw [List.flatten_cons] at whole
      obtain ⟨before, after, rfl, rfl, rest⟩ := split_encode whole.symm (head_flatten others)
      obtain ⟨later, lengths⟩ := ih rest others
      constructor
      · rw [List.flatMap_cons, decode_encode, later]
      · intro other member
        rcases List.mem_cons.mp member with rfl | member
        · rw [decode_encode, byteLength]
        · exact lengths other member

/-- Chunks decode to at least as many bytes as they have, and to more when one is cut. -/
theorem length_le_byteLength_chunks (chunks : List (List UInt8)) :
    chunks.flatten.length ≤ byteLength (chunks.flatMap decode) := by
  induction chunks with
  | nil => exact Nat.zero_le _
  | cons chunk chunks ih =>
      have bound := length_le_byteLength_decode chunk
      rw [List.flatten_cons, List.flatMap_cons, List.length_append, byteLength_append]
      omega

theorem length_lt_byteLength_chunks (cut : ¬ Uncut chunks) :
    chunks.flatten.length < byteLength (chunks.flatMap decode) := by
  induction chunks with
  | nil => exact absurd (by simp [Uncut]) cut
  | cons chunk chunks ih =>
      have bound := length_le_byteLength_decode chunk
      have later := length_le_byteLength_chunks chunks
      rw [List.flatten_cons, List.flatMap_cons, List.length_append, byteLength_append]
      by_cases others : Uncut chunks
      · have here : ¬ ∀ byte ∈ chunk.head?, byte.IsUTF8FirstByte := by
          intro first
          apply cut
          intro other member
          rcases List.mem_cons.mp member with rfl | member
          · exact first
          · exact others other member
        cases chunk with
        | nil => exact absurd (by simp) here
        | cons byte rest =>
            have inside : ¬ byte.IsUTF8FirstByte := by simpa using here
            have more := length_lt_byteLength_decode inside rest
            omega
      · have more := ih others
        omega

end Utf8
