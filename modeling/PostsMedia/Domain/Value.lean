import PostsMedia.Domain.Number
import PostsMedia.Domain.Text
import PostsMedia.Library.Doubles

namespace PostsMedia

/-- A value that `JSON.parse` can return or a read of a property of it. -/
inductive Value
  | undefined
  | null
  | bool (value : Bool)
  | num (value : Number)
  | str (text : Text)
  | arr (items : List Value)
  | obj (fields : List (Text × Value))

/-- A read of a table that is an object literal. It finds an entry, or what every object inherits
under that name. -/
inductive Property (α : Type)
  | own (value : α)
  | inherited (name : Text)
  deriving DecidableEq

/-- The property names of `Object.prototype`. -/
def objectPrototype : List String :=
  ["constructor", "__proto__", "hasOwnProperty", "isPrototypeOf", "propertyIsEnumerable",
    "toLocaleString", "toString", "valueOf", "__defineGetter__", "__defineSetter__",
    "__lookupGetter__", "__lookupSetter__"]

/-- An absent property reads as undefined. -/
def property {α : Type} (table : List (String × α)) (name : Text) : Option (Property α) :=
  match table.find? fun entry => Text.ofString entry.1 = name with
  | some entry => some (.own entry.2)
  | none =>
      if objectPrototype.any fun inherited => Text.ofString inherited = name then
        some (.inherited name)
      else none

theorem property_own {α : Type} {table : List (String × α)} {name : Text} {value : α}
    (found : property table name = some (.own value)) :
    ∃ key, (key, value) ∈ table ∧ Text.ofString key = name := by
  unfold property at found
  split at found
  · rename_i entry here
    cases found
    have same : Text.ofString entry.1 = name := by simpa using List.find?_some here
    exact ⟨entry.1, List.mem_of_find?_eq_some here, same⟩
  · split at found <;> cases found

/-- What the script engine takes from Unicode and from its number printer. -/
structure Engine where
  toLowerCase : Text → Text
  numberToString : Number → Text
  toLowerCase_ascii : ∀ text : Text, (∀ unit ∈ text, unit < 0x80) →
    toLowerCase text = text.map Text.lowerUnit

namespace Text

/-- The digit that a unit stands for, in bases up to sixteen. -/
def digit (base : Nat) (unit : CodeUnit) : Option Nat :=
  let value :=
    if 0x30 ≤ unit && unit ≤ 0x39 then unit.toNat - 0x30
    else if 0x61 ≤ unit && unit ≤ 0x66 then unit.toNat - 0x57
    else if 0x41 ≤ unit && unit ≤ 0x46 then unit.toNat - 0x37
    else base
  if value < base then some value else none

def isDigit (unit : CodeUnit) : Bool := (digit 10 unit).isSome

/-- The number that a sequence of digits denotes. -/
def digitsValue (base : Nat) (digits : Text) : Option Nat :=
  digits.foldlM (fun value unit => (digit base unit).map (value * base + ·)) 0

/-- A literal with one of the prefixes `0b`, `0o` and `0x`. -/
def radixLiteral : Text → Option Nat
  | 0x30 :: letter :: digits =>
      let base := if letter = 0x62 ∨ letter = 0x42 then 2 else
        if letter = 0x6F ∨ letter = 0x4F then 8 else
          if letter = 0x78 ∨ letter = 0x58 then 16 else 0
      if digits = [] then none else digitsValue base digits
  | _ => none

/-- A sign and what follows it. -/
def signed : Text → Bool × Text
  | 0x2D :: rest => (true, rest)
  | 0x2B :: rest => (false, rest)
  | rest => (false, rest)

/-- The exponent part of a decimal literal, or nothing. -/
def exponent : Text → Option Int
  | [] => some 0
  | letter :: rest =>
      let (negative, digits) := signed rest
      if (letter = 0x65 ∨ letter = 0x45) ∧ digits ≠ [] then
        (digitsValue 10 digits).map fun value => if negative then -value else value
      else none

/-- The exact value of an unsigned decimal literal. -/
def decimalLiteral (text : Text) : Option ℚ :=
  let (whole, rest) := text.span isDigit
  let (fraction, rest) := match rest with
    | 0x2E :: rest => rest.span isDigit
    | rest => ([], rest)
  if whole = [] ∧ fraction = [] then none
  else (digitsValue 10 (whole ++ fraction)).bind fun digits =>
    (exponent rest).map fun (power : Int) => digits * (10 : ℚ) ^ (power - fraction.length)

end Text

/-- The double next to a number. Beyond the greatest double it is infinite, and near zero its
distance to the next one no longer shrinks. -/
def Number.ofRat (x : ℚ) : Number :=
  let unit := max (Doubles.quantum x) (2 ^ (-1074 : Int))
  let rounded := Doubles.nearestEven (x / unit) * unit
  if 2 ^ 1024 ≤ |rounded| then .infinity (x < 0) else .finite rounded

/-- The conversion of a text to a number. -/
def stringToNumber (text : Text) : Number :=
  let text := text.trim
  if text = [] then .finite 0
  else match Text.radixLiteral text with
    | some value => .ofRat value
    | none =>
        let (negative, text) := Text.signed text
        if text = Text.ofString "Infinity" then .infinity negative
        else match Text.decimalLiteral text with
          | some value => .ofRat (if negative then -value else value)
          | none => .nan

namespace Value

/-- The value is this text. -/
def isText (expected : String) : Value → Bool
  | .str text => text = Text.ofString expected
  | _ => false

/-- A read of a property that no prototype has. Only `undefined` and `null` have no properties. -/
def get (name : String) : Value → Option Value
  | .undefined | .null => none
  | .obj fields => some ((fields.lookup (Text.ofString name)).getD .undefined)
  | _ => some .undefined

/-- The optional chain `value?.name`. -/
def chain (name : String) : Value → Value
  | .obj fields => (fields.lookup (Text.ofString name)).getD .undefined
  | _ => .undefined

/-- The operator `??`. -/
def orElse (value fallback : Value) : Value :=
  match value with
  | .undefined | .null => fallback
  | value => value

section Conversion

variable (engine : Engine)

mutual

/-- The text of a value. An object that has a property `toString` has no text, because nothing
that `JSON.parse` returns can be called. -/
def toText : Value → Option Text
  | .undefined => some (Text.ofString "undefined")
  | .null => some (Text.ofString "null")
  | .bool value => some (Text.ofString (toString value))
  | .num value => some (engine.numberToString value)
  | .str text => some text
  | .arr items => join items
  | .obj fields =>
      if (fields.lookup (Text.ofString "toString")).isSome then none
      else some (Text.ofString "[object Object]")

/-- The text of an array joins its items with commas. -/
def join : List Value → Option Text
  | [] => some []
  | [item] => itemText item
  | item :: rest => (itemText item).bind fun text => (join rest).map (text ++ 0x2C :: ·)

/-- An item that is missing has the empty text. -/
def itemText : Value → Option Text
  | .undefined | .null => some []
  | item => toText item

end

def toPrimitive : Value → Option Value
  | .arr items => (toText engine (.arr items)).map .str
  | .obj fields => (toText engine (.obj fields)).map .str
  | value => some value

/-- The number of a primitive value. -/
def primitiveNumber : Value → Number
  | .null => .finite 0
  | .bool value => .finite (if value then 1 else 0)
  | .num value => value
  | .str text => stringToNumber text
  | _ => .nan

def toNumber (value : Value) : Option Number := (toPrimitive engine value).map primitiveNumber

/-- The comparison `value > other`. Two texts are compared unit by unit. -/
def gt (value other : Value) : Option Bool :=
  (toPrimitive engine value).bind fun left => (toPrimitive engine other).map fun right =>
    match left, right with
    | .str text, .str text' => text' < text
    | _, _ => (primitiveNumber right).lt (primitiveNumber left)

end Conversion

end Value

end PostsMedia
