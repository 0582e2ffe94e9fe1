namespace StarlarkPrinter.Text

/-- A code point is a character or one of the 2048 surrogates, which can stand alone in a
text that came from outside. -/
inductive CodePoint where
  | scalar (char : Char)
  | surrogate (offset : Fin 0x800)
deriving DecidableEq, Repr

namespace CodePoint

/-- The number of a code point. Surrogates start at `D800`. -/
def toNat : CodePoint → Nat
  | .scalar char => char.toNat
  | .surrogate offset => 0xD800 + offset

/-- The code point of a number below `110000`. -/
def ofNat? (code : Nat) : Option CodePoint :=
  if code.isValidChar then some (.scalar (Char.ofNat code))
  else if offset : code - 0xD800 < 0x800 then some (.surrogate ⟨code - 0xD800, offset⟩)
  else none

/-- The character written for a code point: a surrogate has none of its own
and becomes the replacement character. -/
def toChar : CodePoint → Char
  | .scalar char => char
  | .surrogate _ => '\uFFFD'

/-- The character that a code point is; a surrogate is none. -/
def char? : CodePoint → Option Char
  | .scalar char => some char
  | .surrogate _ => none

@[simp]
theorem toChar_scalar (char : Char) : (scalar char).toChar = char := rfl

theorem ofNat?_toNat (char : Char) : ofNat? char.toNat = some (.scalar char) := by
  have valid : char.toNat.isValidChar := char.valid
  simp [ofNat?, valid]

example : ofNat? 0xD800 = some (.surrogate 0) := by decide
example : ofNat? 0xDFFF = some (.surrogate 0x7FF) := by decide
example : ofNat? 0xE000 = some (.scalar '\uE000') := by decide
example : ofNat? 0x110000 = none := by decide

end CodePoint

end StarlarkPrinter.Text
