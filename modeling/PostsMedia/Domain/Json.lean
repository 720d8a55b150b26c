import PostsMedia.Domain.Value

namespace PostsMedia.JSON

def isBlank (unit : CodeUnit) : Bool := [0x09, 0x0A, 0x0D, 0x20].contains unit

def skipBlank (text : Text) : Text := text.dropWhile isBlank

/-- The unit that an escaped letter stands for. -/
def escaped (letter : CodeUnit) : Option CodeUnit :=
  if letter = 0x22 ∨ letter = 0x5C ∨ letter = 0x2F then some letter
  else if letter = 0x62 then some 0x08
  else if letter = 0x66 then some 0x0C
  else if letter = 0x6E then some 0x0A
  else if letter = 0x72 then some 0x0D
  else if letter = 0x74 then some 0x09
  else none

/-- A string behind its first quotation mark, and the rest behind its last. -/
def parseString : Text → Option (Text × Text)
  | [] => none
  | unit :: rest =>
      if unit = 0x22 then some ([], rest)
      else if unit = 0x5C then
        match rest with
        | [] => none
        | letter :: rest =>
            if letter = 0x75 then
              match rest with
              | a :: b :: c :: d :: rest =>
                  (Text.digitsValue 16 [a, b, c, d]).bind fun value =>
                    (parseString rest).map fun (text, rest) => (.ofNat value :: text, rest)
              | _ => none
            else
              (escaped letter).bind fun plain =>
                (parseString rest).map fun (text, rest) => (plain :: text, rest)
      else if unit < 0x20 then none
      else (parseString rest).map fun (text, rest) => (unit :: text, rest)

/-- The digits behind a point, or none. -/
def parseFraction : Text → Option (Text × Text)
  | 0x2E :: rest =>
      let (digits, rest) := rest.span Text.isDigit
      if digits = [] then none else some (digits, rest)
  | rest => some ([], rest)

def parseExponent : Text → Option (Int × Text)
  | [] => some (0, [])
  | letter :: rest =>
      if letter = 0x65 ∨ letter = 0x45 then
        let (negative, rest) := Text.signed rest
        let (digits, rest) := rest.span Text.isDigit
        if digits = [] then none
        else (Text.digitsValue 10 digits).map fun value =>
          (if negative then -value else value, rest)
      else some (0, letter :: rest)

/-- A number has no leading zeros. -/
def parseNumber (text : Text) : Option (Number × Text) :=
  let (negative, text) := match text with
    | 0x2D :: rest => (true, rest)
    | rest => (false, rest)
  let (whole, rest) := text.span Text.isDigit
  if whole = [] ∨ (1 < whole.length ∧ whole.head? = some 0x30) then none
  else
    (parseFraction rest).bind fun (fraction, rest) =>
      (parseExponent rest).bind fun (power, rest) =>
        (Text.digitsValue 10 (whole ++ fraction)).map fun digits =>
          let value : ℚ := digits * (10 : ℚ) ^ (power - fraction.length)
          (.ofRat (if negative then -value else value), rest)

/-- A literal, or else a number. -/
def parsePlain (text : Text) : Option (Value × Text) :=
  match (Text.ofString "null").isPrefixOf? text, (Text.ofString "true").isPrefixOf? text,
    (Text.ofString "false").isPrefixOf? text with
  | some rest, _, _ => some (.null, rest)
  | _, some rest, _ => some (.bool true, rest)
  | _, _, some rest => some (.bool false, rest)
  | _, _, _ => (parseNumber text).map fun (number, rest) => (.num number, rest)

/-- A later field of the same name replaces the value of the first. -/
def setField (fields : List (Text × Value)) (name : Text) (value : Value) :
    List (Text × Value) :=
  if fields.any (·.1 = name) then
    fields.map fun field => if field.1 = name then (name, value) else field
  else fields ++ [(name, value)]

mutual

/-- A value at the beginning of a text, and the rest. Every call inside takes at least one unit, so
the length of the text bounds the depth. -/
def parseValue : ℕ → Text → Option (Value × Text)
  | 0, _ => none
  | depth + 1, text =>
      match skipBlank text with
      | [] => none
      | unit :: rest =>
          if unit = 0x7B then
            match skipBlank rest with
            | 0x7D :: rest => some (.obj [], rest)
            | rest => parseMembers depth [] rest
          else if unit = 0x5B then
            match skipBlank rest with
            | 0x5D :: rest => some (.arr [], rest)
            | rest => parseItems depth [] rest
          else if unit = 0x22 then
            (parseString rest).map fun (text, rest) => (.str text, rest)
          else parsePlain (unit :: rest)

/-- The items of an array from the next one on. -/
def parseItems : ℕ → List Value → Text → Option (Value × Text)
  | 0, _, _ => none
  | depth + 1, items, text =>
      (parseValue depth text).bind fun (item, rest) =>
        match skipBlank rest with
        | 0x2C :: rest => parseItems depth (items ++ [item]) rest
        | 0x5D :: rest => some (.arr (items ++ [item]), rest)
        | _ => none

/-- The fields of an object from the next one on. -/
def parseMembers : ℕ → List (Text × Value) → Text → Option (Value × Text)
  | 0, _, _ => none
  | depth + 1, fields, text =>
      match skipBlank text with
      | 0x22 :: rest =>
          (parseString rest).bind fun (name, rest) =>
            match skipBlank rest with
            | 0x3A :: rest =>
                (parseValue depth rest).bind fun (value, rest) =>
                  match skipBlank rest with
                  | 0x2C :: rest => parseMembers depth (setField fields name value) rest
                  | 0x7D :: rest => some (.obj (setField fields name value), rest)
                  | _ => none
            | _ => none
      | _ => none

end

/-- `JSON.parse`, which accepts nothing behind the value but white space. -/
def parse (text : Text) : Option Value :=
  (parseValue (text.length + 1) text).bind fun (value, rest) =>
    if skipBlank rest = [] then some value else none

end PostsMedia.JSON
