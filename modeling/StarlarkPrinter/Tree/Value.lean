import StarlarkPrinter.Number.Binary64
import StarlarkPrinter.Text.Decimal
import StarlarkPrinter.Text.Quoted

namespace StarlarkPrinter

/-- An error that the printer does not raise itself, by the name of its class and its
text. It is not caught, and so leaves every call as it is. -/
structure ForeignError where
  kind : String
  text : String
deriving DecidableEq, Repr

/-- The error in place of a numeral that would be too long. -/
def ForeignError.digitLimit : ForeignError where
  kind := "ValueError"
  text := Text.digitLimitMessage

/-- How a value is shown in a message: by a text, or by the error that showing it ends in. -/
inductive Display where
  | shown (text : String)
  | fails (error : ForeignError)
deriving DecidableEq, Repr

/-- The types of integers of a fixed width. -/
inductive IntType where
  | int8 | int16 | int32 | int64
  | uint8 | uint16 | uint32 | uint64
deriving DecidableEq, Repr

namespace IntType

def name : IntType → String
  | .int8 => "int8"
  | .int16 => "int16"
  | .int32 => "int32"
  | .int64 => "int64"
  | .uint8 => "uint8"
  | .uint16 => "uint16"
  | .uint32 => "uint32"
  | .uint64 => "uint64"

def all : List IntType :=
  [.int8, .int16, .int32, .int64, .uint8, .uint16, .uint32, .uint64]

def ofName? (name : String) : Option IntType :=
  all.find? (·.name = name)

def bits : IntType → Nat
  | .int8 | .uint8 => 8
  | .int16 | .uint16 => 16
  | .int32 | .uint32 => 32
  | .int64 | .uint64 => 64

def isSigned : IntType → Bool
  | .int8 | .int16 | .int32 | .int64 => true
  | .uint8 | .uint16 | .uint32 | .uint64 => false

def least (type : IntType) : Int :=
  if type.isSigned then -Nat.pow 2 (type.bits - 1) else 0

def greatest (type : IntType) : Int :=
  if type.isSigned then Nat.pow 2 (type.bits - 1) - 1 else Nat.pow 2 type.bits - 1

end IntType

structure FixedInt where
  type : IntType
  value : Int
  inRange : type.least ≤ value ∧ value ≤ type.greatest
deriving DecidableEq, Repr

/-- The fixed-width integer of a value within the range of the type. -/
def FixedInt.ofInt? (type : IntType) (value : Int) : Option FixedInt :=
  if inRange : type.least ≤ value ∧ value ≤ type.greatest then some ⟨type, value, inRange⟩
  else none

/-- A dynamic value. Numbers keep apart the plain integers of any size, the
fixed-width integers, and the decimal fractions, which keep their spelling. Values of
other types, such as containers, are known by the name of the type, by how they are
shown, and by the whole number that they equal. -/
inductive Value where
  | absent
  | bool (value : Bool)
  | int (value : Int)
  | text (value : String)
  | float (spelling : String)
  | fixedInt (number : FixedInt)
  | fixedFloat (spelling : String)
  | fixedBool (value : Bool)
  | other (type : String) (display : Display) (number : Option Int)
deriving DecidableEq, Repr

namespace Value

def typeName : Value → String
  | .absent => "NoneType"
  | .bool _ => "bool"
  | .int _ => "int"
  | .text _ => "str"
  | .float _ => "float"
  | .fixedInt number => number.type.name
  | .fixedFloat _ => "float64"
  | .fixedBool _ => "bool"
  | .other type _ _ => type

/-- How a value is shown in a message. A plain integer past the digit limit cannot be. -/
def display : Value → Display
  | .absent => .shown "None"
  | .bool value => .shown (if value then "True" else "False")
  | .int value => (Text.numeral? value).elim (.fails .digitLimit) .shown
  | .text value => .shown (Text.displayed value)
  | .float spelling => .shown spelling
  | .fixedInt number =>
    .shown ("np." ++ number.type.name ++ "(" ++ Text.signedDecimal number.value ++ ")")
  | .fixedFloat spelling => .shown ("np.float64(" ++ spelling ++ ")")
  | .fixedBool value => .shown (if value then "np.True_" else "np.False_")
  | .other _ display _ => display

/-- The whole number that a value equals as a number. Plain truth values are
left out; fixed-width ones count as zero and one. -/
def number? : Value → Option Int
  | .int value => some value
  | .fixedInt number => some number.value
  | .float spelling | .fixedFloat spelling => (Binary64.ofSpelling? spelling).bind Binary64.whole?
  | .fixedBool value => some (if value then 1 else 0)
  | .other _ _ number => number
  | .absent | .bool _ | .text _ => none

end Value

end StarlarkPrinter
