import PostsMedia.Library.Vints
import PostsMedia.Validation.Signature

namespace PostsMedia.Validation

open Vints

/-- An element with an identifier of one to four bytes, which keeps its marker, and a size of one
to eight. The size with all bits set is reserved. -/
structure Element where
  idWidth : ℕ
  idBits : ℕ
  sizeWidth : ℕ
  payload : Bytes
  idWidth_range : 1 ≤ idWidth ∧ idWidth ≤ 4
  idBits_lt : idBits < 2 ^ (7 * idWidth)
  sizeWidth_range : 1 ≤ sizeWidth ∧ sizeWidth ≤ 8
  payload_lt : payload.length < 2 ^ (7 * sizeWidth) - 1

def Element.id (element : Element) : ℕ := marked element.idWidth element.idBits

def Element.encode (element : Element) : Bytes :=
  vint element.idWidth element.idBits ++
    (vint element.sizeWidth element.payload.length ++ element.payload)

def encodeAll (elements : List Element) : Bytes := elements.flatMap Element.encode

/-- The identifier of the document type. -/
def docTypeId : ℕ := 0x4282

/-- A header behind the four bytes of its own identifier. -/
structure EbmlHeader where
  front : Bytes
  width : ℕ
  body : Bytes
  front_length : front.length = 4
  width_range : 1 ≤ width ∧ width ≤ 8
  body_lt : body.length < 2 ^ (7 * width) - 1

def EbmlHeader.encode (header : EbmlHeader) : Bytes :=
  header.front ++ (vint header.width header.body.length ++ header.body)

/-- The longest byte string that a buffer may hold. -/
def maxLength : ℕ := 2 ^ 53 - 1

def lowerByte (byte : UInt8) : UInt8 :=
  if 0x41 ≤ byte && byte ≤ 0x5A then byte + 0x20 else byte

/-- The bytes are the letters of a name, in capitals or not. -/
def Spells (bytes : Bytes) (name : String) : Prop :=
  bytes.map lowerByte = name.toList.map fun letter => .ofNat letter.toNat

instance (bytes : Bytes) (name : String) : Decidable (Spells bytes name) :=
  inferInstanceAs (Decidable (_ = _))

/-- The loop of the parser within a number of rounds. -/
def scanElements (rounds : ℕ) (header : Bytes) (cursor stop : ℕ) :
    Option (Option ContainerVariant) :=
  if cursor < stop then
    match rounds with
    | 0 => none
    | rounds + 1 =>
        match parseVariableInteger header cursor true with
        | none => some none
        | some id =>
            match parseVariableInteger header (cursor + id.length) false with
            | none => some none
            | some size =>
                let start := cursor + id.length + size.length
                if start + size.value > stop then some none
                else if id.value = 0x4282 then
                  some (docTypeOf ((ascii ((header.drop start).take size.value)).map
                    Text.lowerUnit))
                else scanElements rounds header (start + size.value) stop
  else some none

def scanDocType (rounds : ℕ) (header : Bytes) : Option (Option ContainerVariant) :=
  match parseVariableInteger header 4 false with
  | none => some none
  | some headerSize =>
      let cursor := 4 + headerSize.length
      let stop := cursor + headerSize.value
      if stop > header.length then some none else scanElements rounds header cursor stop

/-- What a parser of the document type returns, for every way to encode a header. -/
structure ReadsDocType (parse : Bytes → Option ContainerVariant) : Prop where
  documented : ∀ (header : EbmlHeader) (before : List Element) (document : Element)
    (further rest : Bytes), header.body = encodeAll before ++ (document.encode ++ further) →
    (∀ element ∈ before, element.id ≠ docTypeId) → document.id = docTypeId →
    (∀ byte ∈ document.payload, byte < 0x80) →
    (header.encode ++ rest).length ≤ maxLength →
    (parse (header.encode ++ rest) = some .webm ↔ Spells document.payload "webm") ∧
    (parse (header.encode ++ rest) = some .mkv ↔ Spells document.payload "matroska") ∧
    (parse (header.encode ++ rest) = none ↔
      ¬ Spells document.payload "webm" ∧ ¬ Spells document.payload "matroska")
  undocumented : ∀ (header : EbmlHeader) (elements : List Element) (rest : Bytes),
    header.body = encodeAll elements → (∀ element ∈ elements, element.id ≠ docTypeId) →
    (header.encode ++ rest).length ≤ maxLength → parse (header.encode ++ rest) = none
  headerCut : ∀ (header : EbmlHeader) (count : ℕ), count < header.encode.length →
    parse (header.encode.take count) = none
  elementCut : ∀ (header : EbmlHeader) (before : List Element) (element : Element) (count : ℕ)
    (rest : Bytes), header.body = encodeAll before ++ element.encode.take count →
    0 < count → count < element.encode.length → (∀ element ∈ before, element.id ≠ docTypeId) →
    (header.encode ++ rest).length ≤ maxLength → parse (header.encode ++ rest) = none
  terminates : ∀ header : Bytes, scanDocType header.length header = some (parse header)

section Integers

variable {buffer rest : Bytes} {offset width value count : ℕ} {retainMarker : Bool}

theorem getElem?_of_drop {byte : UInt8} {bytes : Bytes}
    (shown : buffer.drop offset = byte :: bytes) : buffer[offset]? = some byte := by
  rw [← List.head?_drop, shown]
  rfl

theorem drop_of_drop (bytes : Bytes) (shown : buffer.drop offset = bytes ++ rest) :
    buffer.drop (offset + bytes.length) = rest := by
  rw [← List.drop_drop, shown, List.drop_left]

theorem length_of_drop {bytes : Bytes} (shown : buffer.drop offset = bytes)
    (more : 0 < bytes.length) : buffer.length = offset + bytes.length := by
  have lengths := congrArg List.length shown
  rw [List.length_drop] at lengths
  omega

/-- The first byte tells the length of an integer. -/
theorem parse_of_first {first : UInt8} (leads : buffer[offset]? = some first) (nonzero : first ≠ 0)
    (short : width < 8) (mark : first.toNat.log2 = 7 - width) :
    parseVariableInteger buffer offset retainMarker =
      let start := if retainMarker then first.toNat else first.toNat % 2 ^ (7 - width)
      let value := continued start ((buffer.drop (offset + 1)).take width)
      if offset + (width + 1) > buffer.length then none
      else if value < 2 ^ 53 then some ⟨width + 1, value, Nat.succ_pos _⟩ else none := by
  obtain rfl : width = 7 - first.toNat.log2 := by omega
  unfold parseVariableInteger
  rw [leads, ← mark]
  dsimp only
  rw [if_neg nonzero]
  rfl

theorem lead_ne_zero (short : width < 8) (small : value < 2 ^ (7 * (width + 1))) :
    lead width value ≠ 0 := by
  intro zero
  have number := toNat_lead short small
  rw [zero] at number
  exact (Nat.add_pos_left (Nat.pow_pos (by norm_num)) _).ne number

/-- A complete encoding is read back, unless no double holds the number. -/
theorem parse_vint (range : 1 ≤ width ∧ width ≤ 8) (small : value < 2 ^ (7 * width))
    (shown : buffer.drop offset = vint width value ++ rest) :
    parseVariableInteger buffer offset retainMarker =
      if (if retainMarker then marked width value else value) < 2 ^ 53 then
        some ⟨width, if retainMarker then marked width value else value, range.1⟩
      else none := by
  obtain ⟨width, rfl⟩ := Nat.exists_eq_add_of_le' range.1
  have short : width < 8 := by omega
  have reaches := length_of_drop shown (by simp)
  rw [vint_succ short, List.cons_append] at shown
  have trailing : (buffer.drop (offset + 1)).take width =
      bigEndian width (value % 256 ^ width) := by
    have tail : buffer.drop (offset + 1) = bigEndian width (value % 256 ^ width) ++ rest :=
      drop_of_drop [lead width value] shown
    rw [tail, List.take_left' (length_bigEndian _ _)]
  obtain ⟨retained, cleared⟩ := continued_lead short small
  rw [parse_of_first (getElem?_of_drop shown) (lead_ne_zero short small) short
    (log2_lead short small), trailing]
  dsimp only
  rw [if_neg (by simp at reaches; omega)]
  cases retainMarker
  · simp only [Bool.false_eq_true, if_false, cleared]
  · simp only [if_true, retained]

/-- A size is read without its marker. -/
theorem parse_size_vint (range : 1 ≤ width ∧ width ≤ 8) (small : value < 2 ^ (7 * width))
    (shown : buffer.drop offset = vint width value ++ rest) :
    parseVariableInteger buffer offset false =
      if value < 2 ^ 53 then some ⟨width, value, range.1⟩ else none :=
  parse_vint range small shown

/-- The beginning of an encoding tells how far it has to reach. -/
theorem length_of_parse (range : 1 ≤ width ∧ width ≤ 8) (small : value < 2 ^ (7 * width))
    (shown : buffer.drop offset = (vint width value).take count ++ rest) (begun : 0 < count)
    {read : VariableInteger}
    (parsed : parseVariableInteger buffer offset retainMarker = some read) :
    read.length = width ∧ offset + width ≤ buffer.length := by
  obtain ⟨width, rfl⟩ := Nat.exists_eq_add_of_le' range.1
  obtain ⟨count, rfl⟩ := Nat.exists_eq_add_of_le' begun
  have short : width < 8 := by omega
  rw [vint_succ short, List.take_succ_cons, List.cons_append] at shown
  rw [parse_of_first (getElem?_of_drop shown) (lead_ne_zero short small) short
    (log2_lead short small)] at parsed
  dsimp only at parsed
  split_ifs at parsed with long
  all_goals
    obtain rfl := Option.some.inj parsed
    exact ⟨rfl, not_lt.mp long⟩

end Integers

section Elements

variable {buffer rest : Bytes} {cursor stop count : ℕ} {element : Element}

theorem length_encode (element : Element) : element.encode.length =
    element.idWidth + (element.sizeWidth + element.payload.length) := by
  simp [Element.encode]

theorem id_lt (element : Element) : element.id < 2 ^ 53 := by
  have bits := element.idBits_lt
  have power : 2 ^ (7 * element.idWidth) ≤ 2 ^ 28 := by
    apply Nat.pow_le_pow_right (by norm_num)
    have range := element.idWidth_range
    omega
  unfold Element.id marked
  omega

theorem parse_id (shown : buffer.drop cursor = element.encode ++ rest) :
    parseVariableInteger buffer cursor true =
      some ⟨element.idWidth, element.id, element.idWidth_range.1⟩ := by
  have range := element.idWidth_range
  rw [Element.encode, List.append_assoc] at shown
  rw [parse_vint ⟨range.1, by omega⟩ element.idBits_lt shown]
  exact if_pos (id_lt element)

theorem drop_id (shown : buffer.drop cursor = element.encode ++ rest) :
    buffer.drop (cursor + element.idWidth) =
      vint element.sizeWidth element.payload.length ++ (element.payload ++ rest) := by
  rw [Element.encode, List.append_assoc] at shown
  have tail := drop_of_drop _ shown
  rwa [length_vint, List.append_assoc] at tail

theorem parse_size (shown : buffer.drop cursor = element.encode ++ rest)
    (held : buffer.length ≤ maxLength) :
    parseVariableInteger buffer (cursor + element.idWidth) false =
      some ⟨element.sizeWidth, element.payload.length, element.sizeWidth_range.1⟩ := by
  have range := element.idWidth_range
  have lengths := length_of_drop shown (by
    rw [List.length_append, length_encode]
    omega)
  rw [List.length_append, length_encode] at lengths
  have fits := element.payload_lt
  have safe : element.payload.length < 2 ^ 53 := by
    unfold maxLength at held
    omega
  rw [parse_size_vint element.sizeWidth_range (by omega) (drop_id shown), if_pos safe]

/-- One round of the loop over a complete element. -/
theorem parseElements_element (shown : buffer.drop cursor = element.encode ++ rest)
    (held : buffer.length ≤ maxLength) (inside : cursor + element.encode.length ≤ stop) :
    parseElements buffer cursor stop =
      if element.id = docTypeId then docTypeOf ((ascii element.payload).map Text.lowerUnit)
      else parseElements buffer (cursor + element.encode.length) stop := by
  have range := element.idWidth_range
  have payload : (buffer.drop (cursor + element.idWidth + element.sizeWidth)).take
      element.payload.length = element.payload := by
    have tail := drop_of_drop _ (drop_id shown)
    rw [length_vint] at tail
    rw [tail, List.take_left]
  rw [length_encode] at inside ⊢
  conv_lhs => rw [parseElements]
  rw [if_pos (by omega), parse_id shown]
  dsimp only
  rw [parse_size shown held]
  dsimp only
  rw [if_neg (by omega), payload, Nat.add_assoc, Nat.add_assoc]
  rfl

/-- The loop passes over the elements before the document type. -/
theorem parseElements_all {elements : List Element}
    (others : ∀ element ∈ elements, element.id ≠ docTypeId)
    (shown : buffer.drop cursor = encodeAll elements ++ rest) (held : buffer.length ≤ maxLength)
    (inside : cursor + (encodeAll elements).length ≤ stop) :
    parseElements buffer cursor stop =
      parseElements buffer (cursor + (encodeAll elements).length) stop := by
  induction elements generalizing cursor with
  | nil => rfl
  | cons element elements ih =>
      rw [encodeAll, List.flatMap_cons] at shown inside ⊢
      rw [List.append_assoc] at shown
      rw [List.length_append, ← Nat.add_assoc] at inside ⊢
      rw [parseElements_element shown held (by omega), if_neg (others element List.mem_cons_self)]
      exact ih (fun other member => others other (List.mem_cons_of_mem _ member))
        (drop_of_drop _ shown) inside

/-- The loop ends with the header. -/
theorem parseElements_stop (buffer : Bytes) (stop : ℕ) : parseElements buffer stop stop = none := by
  rw [parseElements, if_neg (Nat.lt_irrefl stop)]

/-- A size that the header's end cuts, or whose data it cuts, leads past the end. -/
theorem cut_size {read : VariableInteger} (begun : element.idWidth < count)
    (cut : count < element.encode.length)
    (shown : buffer.drop cursor = element.encode.take count ++ rest)
    (parsed : parseVariableInteger buffer (cursor + element.idWidth) false = some read) :
    cursor + count < cursor + element.idWidth + read.length + read.value := by
  have fits := element.payload_lt
  have begin : buffer.drop (cursor + element.idWidth) =
      (vint element.sizeWidth element.payload.length).take (count - element.idWidth) ++
        (element.payload.take (count - element.idWidth - element.sizeWidth) ++ rest) := by
    rw [Element.encode, List.take_append, List.take_of_length_le (by simp; omega),
      List.append_assoc] at shown
    have tail := drop_of_drop _ shown
    rwa [length_vint, List.take_append, length_vint, List.append_assoc] at tail
  rw [length_encode] at cut
  by_cases partly : count < element.idWidth + element.sizeWidth
  · obtain ⟨length, _⟩ := length_of_parse element.sizeWidth_range (by omega) begin (by omega) parsed
    omega
  · rw [List.take_of_length_le (by simp; omega)] at begin
    rw [parse_size_vint element.sizeWidth_range (by omega) begin] at parsed
    split_ifs at parsed
    obtain rfl := Option.some.inj parsed
    dsimp only
    omega

/-- The loop gives up an element that the header's end cuts. The bytes behind the end do not
complete it. -/
theorem parseElements_cut (shown : buffer.drop cursor = element.encode.take count ++ rest)
    (begun : 0 < count) (cut : count < element.encode.length) :
    parseElements buffer cursor (cursor + count) = none := by
  have range := element.idWidth_range
  have begin : buffer.drop cursor = (vint element.idWidth element.idBits).take count ++
      ((vint element.sizeWidth element.payload.length ++ element.payload).take
        (count - element.idWidth) ++ rest) := by
    rwa [Element.encode, List.take_append, length_vint, List.append_assoc] at shown
  rw [parseElements, if_pos (by omega)]
  cases identifier : parseVariableInteger buffer cursor true with
  | none => rfl
  | some id =>
      obtain ⟨length, _⟩ :=
        length_of_parse ⟨range.1, by omega⟩ element.idBits_lt begin begun identifier
      dsimp only
      rw [length]
      cases size : parseVariableInteger buffer (cursor + element.idWidth) false with
      | none => rfl
      | some size' =>
          have past : cursor + count < cursor + element.idWidth + size'.length + size'.value := by
            by_cases inside : element.idWidth < count
            · exact cut_size inside cut shown size
            · have positive := size'.positive
              omega
          exact if_pos past

end Elements

section Header

variable {rest : Bytes} {header : EbmlHeader}

theorem length_header (header : EbmlHeader) :
    header.encode.length = 4 + (header.width + header.body.length) := by
  simp [EbmlHeader.encode, header.front_length]

/-- The parser reads the elements of a complete header. -/
theorem parseEbmlDocType_header (held : (header.encode ++ rest).length ≤ maxLength) :
    parseEbmlDocType (header.encode ++ rest) = parseElements (header.encode ++ rest)
      (4 + header.width) (4 + header.width + header.body.length) := by
  have fits := header.body_lt
  have shown : (header.encode ++ rest).drop 4 =
      vint header.width header.body.length ++ (header.body ++ rest) := by
    rw [EbmlHeader.encode, List.append_assoc, List.append_assoc,
      List.drop_left' header.front_length]
  have lengths : (header.encode ++ rest).length =
      4 + (header.width + header.body.length) + rest.length := by
    rw [List.length_append, length_header]
  have safe : header.body.length < 2 ^ 53 := by
    unfold maxLength at held
    omega
  rw [parseEbmlDocType, parse_size_vint header.width_range (by omega) shown, if_pos safe,
    Option.bind_some]
  dsimp only
  rw [if_neg (by omega)]

theorem drop_body (header : EbmlHeader) (rest : Bytes) :
    (header.encode ++ rest).drop (4 + header.width) = header.body ++ rest := by
  have shown : (header.encode ++ rest).drop 0 =
      (header.front ++ vint header.width header.body.length) ++ (header.body ++ rest) := by
    simp [EbmlHeader.encode]
  have tail := drop_of_drop _ shown
  rwa [List.length_append, header.front_length, length_vint, Nat.zero_add] at tail

/-- A header that the available bytes cut is given up. -/
theorem parseEbmlDocType_cut {count : ℕ} (cut : count < header.encode.length) :
    parseEbmlDocType (header.encode.take count) = none := by
  have fits := header.body_lt
  have range := header.width_range
  have available : (header.encode.take count).length = count := List.length_take_of_le cut.le
  have shown : (header.encode.take count).drop 4 =
      (vint header.width header.body.length).take (count - 4) ++
        header.body.take (count - 4 - header.width) := by
    rw [EbmlHeader.encode, List.drop_take, List.drop_left' header.front_length, List.take_append,
      length_vint]
  rw [parseEbmlDocType]
  cases parsed : parseVariableInteger (header.encode.take count) 4 false with
  | none => rfl
  | some size =>
      by_cases begun : 4 < count
      · have past : count < 4 + size.length + size.value := by
          obtain ⟨length, inside⟩ :=
            length_of_parse range (by omega) shown (by omega) parsed
          rw [available] at inside
          have whole : (vint header.width header.body.length).take (count - 4) =
              vint header.width header.body.length :=
            List.take_of_length_le (by rw [length_vint]; omega)
          rw [whole] at shown
          rw [parse_size_vint range (by omega) shown] at parsed
          split_ifs at parsed
          obtain rfl := Option.some.inj parsed
          rw [length_header] at cut
          dsimp only
          omega
        rw [Option.bind_some, available]
        exact if_pos past
      · exfalso
        have missing : (header.encode.take count)[4]? = none := by
          rw [List.getElem?_eq_none_iff]
          omega
        rw [parseVariableInteger, missing] at parsed
        cases parsed

end Header

/-- Enough rounds give the result of the loop. -/
theorem scanElements_eq (buffer : Bytes) {rounds cursor stop : ℕ}
    (enough : stop - cursor ≤ rounds) :
    scanElements rounds buffer cursor stop = some (parseElements buffer cursor stop) := by
  induction rounds generalizing cursor with
  | zero =>
      have done : ¬ cursor < stop := by omega
      rw [scanElements, parseElements, if_neg done, if_neg done]
  | succ rounds ih =>
      rw [scanElements, parseElements]
      by_cases more : cursor < stop
      · rw [if_pos more, if_pos more]
        cases parseVariableInteger buffer cursor true with
        | none => rfl
        | some id =>
            have advances := id.positive
            dsimp only
            cases parseVariableInteger buffer (cursor + id.length) false with
            | none => rfl
            | some size =>
                dsimp only
                split_ifs
                · rfl
                · rfl
                · exact ih (by omega)
      · rw [if_neg more, if_neg more]

/-- No header takes more rounds than it has bytes. -/
theorem scanDocType_eq (header : Bytes) :
    scanDocType header.length header = some (parseEbmlDocType header) := by
  unfold scanDocType parseEbmlDocType
  cases parseVariableInteger header 4 false with
  | none => rfl
  | some size =>
      dsimp only [Option.bind_some]
      split_ifs with past
      · rfl
      · exact scanElements_eq header (by omega)

/-- Decoding and lower case keep the bytes below `0x80` apart. -/
theorem lower_ascii {bytes : Bytes} (plain : ∀ byte ∈ bytes, byte < 0x80) :
    (ascii bytes).map Text.lowerUnit = bytes.map fun byte => (lowerByte byte).toUInt16 := by
  have units : ∀ n : Fin 128, Text.lowerUnit (UInt8.ofNat n.val &&& 0x7F).toUInt16 =
      (lowerByte (UInt8.ofNat n.val)).toUInt16 := by decide +kernel
  rw [ascii, List.map_map]
  apply List.map_congr_left
  intro byte member
  have small : byte.toNat < 128 := UInt8.lt_iff_toNat_lt.mp (plain byte member)
  have unit := units ⟨byte.toNat, small⟩
  rwa [UInt8.ofNat_toNat] at unit

theorem toUInt16_injective : Function.Injective UInt8.toUInt16 := by
  intro byte byte' same
  exact UInt8.toUInt16_inj.mp same

/-- The letters of a name are compared without regard to case. -/
theorem lower_eq_iff {bytes : Bytes} {name : String} (plain : ∀ byte ∈ bytes, byte < 0x80)
    (letters : Text.ofString name =
      (name.toList.map fun letter => UInt8.ofNat letter.toNat).map UInt8.toUInt16) :
    (ascii bytes).map Text.lowerUnit = Text.ofString name ↔ Spells bytes name := by
  have split : (bytes.map fun byte => (lowerByte byte).toUInt16) =
      (bytes.map lowerByte).map UInt8.toUInt16 := by
    rw [List.map_map]
    rfl
  rw [lower_ascii plain, letters, split]
  exact (List.map_injective_iff.mpr toUInt16_injective).eq_iff

theorem docTypeOf_iff (text : Text) :
    (docTypeOf text = some .webm ↔ text = Text.ofString "webm") ∧
    (docTypeOf text = some .mkv ↔ text = Text.ofString "matroska") ∧
    (docTypeOf text = none ↔ text ≠ Text.ofString "webm" ∧ text ≠ Text.ofString "matroska") := by
  have apart : Text.ofString "matroska" ≠ Text.ofString "webm" := by decide
  unfold docTypeOf
  by_cases webm : text = Text.ofString "webm"
  · simp [webm, apart.symm]
  · by_cases matroska : text = Text.ofString "matroska"
    · simp [matroska, apart]
    · simp [webm, matroska]

/-- The parser of the document type reads every header as it is encoded. -/
theorem parseEbmlDocType_reads : ReadsDocType parseEbmlDocType where
  documented := by
    intro header before document further rest body others identifier plain held
    have shown := drop_body header rest
    rw [body, List.append_assoc] at shown
    have lengths := congrArg List.length body
    rw [List.length_append, List.length_append] at lengths
    have tail := drop_of_drop _ shown
    rw [List.append_assoc] at tail
    rw [parseEbmlDocType_header held, parseElements_all others shown held (by omega),
      parseElements_element tail held (by omega), if_pos identifier,
      ← lower_eq_iff plain (by decide), ← lower_eq_iff plain (by decide)]
    exact docTypeOf_iff _
  undocumented := by
    intro header elements rest body others held
    have shown := drop_body header rest
    rw [body] at shown
    rw [parseEbmlDocType_header held, body, parseElements_all others shown held le_rfl]
    exact parseElements_stop _ _
  headerCut := by
    intro header count cut
    exact parseEbmlDocType_cut cut
  elementCut := by
    intro header before element count rest body begun cut others held
    have shown := drop_body header rest
    rw [body, List.append_assoc] at shown
    have lengths := congrArg List.length body
    rw [List.length_append, List.length_take_of_le cut.le] at lengths
    rw [parseEbmlDocType_header held, parseElements_all others shown held (by omega), lengths,
      ← Nat.add_assoc]
    exact parseElements_cut (drop_of_drop _ shown) begun cut
  terminates := by
    intro header
    exact scanDocType_eq header

end PostsMedia.Validation
