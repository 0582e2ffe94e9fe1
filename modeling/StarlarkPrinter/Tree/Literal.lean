import StarlarkPrinter.Tree.Token
import StarlarkPrinter.Tree.Value

namespace StarlarkPrinter

/-- A line and a column, both counted from one, and the file if it is known. -/
structure Position where
  line : Int
  column : Int
  file : Option String := none
deriving DecidableEq, Repr

/-- The position as `file:line:column`. An empty file name counts as unknown. -/
def Position.display (position : Position) : Display :=
  match Text.numeral? position.line, Text.numeral? position.column with
  | some line, some column =>
    let file := position.file.getD ""
    .shown ((if file = "" then "" else file ++ ":") ++ line ++ ":" ++ column)
  | _, _ => .fails .digitLimit

/-- An identifier. Its name is written as it is. -/
structure Ident where
  name : String
  position : Option Position := none
deriving DecidableEq, Repr

/-- A literal. Without a payload its raw text is written as it is. -/
structure Literal where
  value : Value := .absent
  raw : String := ""
  token : Option Token := some .stringLiteral
  position : Option Position := none
deriving DecidableEq, Repr

/-- The payloads that have a text. -/
inductive PayloadKind where
  | string | int | uint | int64 | uint64 | bigInt
deriving DecidableEq, Repr

def PayloadKind.name : PayloadKind → String
  | .string => "string"
  | .int => "int"
  | .uint => "uint"
  | .int64 => "int64"
  | .uint64 => "uint64"
  | .bigInt => "big int"

/-- The kind of a fixed-width integer: the 64-bit types are kinds of their own. -/
def PayloadKind.ofType : IntType → PayloadKind
  | .int8 | .int16 | .int32 => .int
  | .uint8 | .uint16 | .uint32 => .uint
  | .int64 => .int64
  | .uint64 => .uint64

/-- A payload without a text: its type has none, or its numeral is too long. -/
inductive PayloadError where
  | unsupported (typeName : String)
  | tooManyDigits
deriving DecidableEq, Repr

def PayloadError.message : PayloadError → String
  | .unsupported typeName =>
    "unsupported literal value type " ++ typeName ++ ", expected str, int or a numpy integer"
  | .tooManyDigits => Text.digitLimitMessage

namespace Value

/-- The kind of payload that a value is. A plain integer is a big one outside
the 64-bit signed range. -/
def payloadKind? : Value → Option PayloadKind
  | .text _ => some .string
  | .int value =>
    some (if IntType.int64.least ≤ value ∧ value ≤ IntType.int64.greatest then .int else .bigInt)
  | .fixedInt number => some (PayloadKind.ofType number.type)
  | _ => none

/-- The kind and the text of a payload: a text between quotes, or a numeral. -/
def payload (value : Value) : Except PayloadError (PayloadKind × String) :=
  match value.payloadKind?, value with
  | some kind, .text content => .ok (kind, Text.quoted content)
  | some kind, .int number => (integerText number).map (kind, ·)
  | some kind, .fixedInt number => (integerText number.value).map (kind, ·)
  | _, _ => .error (.unsupported value.typeName)
where
  integerText (number : Int) : Except PayloadError String :=
    match Text.numeral? number with
    | none => .error .tooManyDigits
    | some numeral => .ok numeral

-- The digit limit is a power that must not be computed to compare two payloads.
attribute [local irreducible] Text.numeral?

theorem payload_text (content : String) :
    (text content).payload = .ok (.string, Text.quoted content) := rfl

/-- An integer of a kind is written as its numeral, if it has one. -/
theorem payload_integer {value : Value} {number : Int} {kind : PayloadKind}
    (written : value.payload = (payload.integerText number).map (kind, ·)) :
    value.payload =
      match Text.numeral? number with
      | none => .error .tooManyDigits
      | some numeral => .ok (kind, numeral) := by
  rw [written]
  unfold payload.integerText
  cases Text.numeral? number <;> rfl

theorem payload_int (number : Int) :
    (int number).payload =
      match Text.numeral? number with
      | none => .error .tooManyDigits
      | some numeral =>
        .ok (if IntType.int64.least ≤ number ∧ number ≤ IntType.int64.greatest then .int
          else .bigInt, numeral) :=
  payload_integer rfl

theorem payload_fixedInt (number : FixedInt) :
    (fixedInt number).payload =
      match Text.numeral? number.value with
      | none => .error .tooManyDigits
      | some numeral => .ok (PayloadKind.ofType number.type, numeral) :=
  payload_integer rfl

end Value

end StarlarkPrinter
