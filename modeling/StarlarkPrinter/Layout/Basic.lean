import StarlarkPrinter.Text.Decimal

/-! Layout policies of comma-separated sequences. A policy has two independent
axes: when the elements go on lines of their own, and when a comma follows the
last of them. The nine policies are numbered by `3 * line break + comma`. -/

namespace StarlarkPrinter

/-- When a sequence is split into one element per line. -/
inductive LineBreak where
  | never | multiple | always
deriving DecidableEq, Repr

/-- When a comma follows the last element. -/
inductive TrailingComma where
  | never | always | twoAndMore
deriving DecidableEq, Repr

namespace LineBreak

def code : LineBreak → Nat
  | .never => 0
  | .multiple => 1
  | .always => 2

def name : LineBreak → String
  | .never => "NEVER"
  | .multiple => "MULTIPLE"
  | .always => "ALWAYS"

/-- Whether a sequence of a given length is split. No sequence without elements
is. -/
def applies (axis : LineBreak) (count : Int) : Bool :=
  match axis with
  | .never => false
  | .multiple => 1 < count
  | .always => 0 < count

end LineBreak

namespace TrailingComma

def code : TrailingComma → Nat
  | .never => 0
  | .always => 1
  | .twoAndMore => 2

def name : TrailingComma → String
  | .never => "NEVER"
  | .always => "ALWAYS"
  | .twoAndMore => "TWO_AND_MORE"

/-- Whether a sequence of a given length ends in a comma. No sequence without
elements does. -/
def applies (axis : TrailingComma) (count : Int) : Bool :=
  match axis with
  | .never => false
  | .always => 0 < count
  | .twoAndMore => 1 < count

end TrailingComma

structure Layout where
  lineBreak : LineBreak := .never
  trailingComma : TrailingComma := .never
deriving DecidableEq, Repr

/-- What a policy decides for one sequence. -/
structure LayoutDecision where
  breakLines : Bool
  trailingComma : Bool
deriving DecidableEq, Repr

namespace Layout

def code (layout : Layout) : Nat :=
  3 * layout.lineBreak.code + layout.trailingComma.code

/-- The name of a policy: the line breaks, then the comma. -/
def name (layout : Layout) : String :=
  lines ++ comma
where
  lines : String :=
    match layout.lineBreak with
    | .never => "SINGLE_LINE"
    | .multiple => "MULTILINE_MULTIPLE"
    | .always => "MULTILINE"
  comma : String :=
    match layout.trailingComma with
    | .never => ""
    | .always => "_COMMA"
    | .twoAndMore => "_COMMA_TWO_AND_MORE"

/-- The nine policies, by number. -/
def all : List Layout :=
  [⟨.never, .never⟩, ⟨.never, .always⟩, ⟨.never, .twoAndMore⟩,
   ⟨.multiple, .never⟩, ⟨.multiple, .always⟩, ⟨.multiple, .twoAndMore⟩,
   ⟨.always, .never⟩, ⟨.always, .always⟩, ⟨.always, .twoAndMore⟩]

def ofCode? (number : Int) : Option Layout :=
  all.find? fun layout => (layout.code : Int) = number

def ofName? (name : String) : Option Layout :=
  all.find? (·.name = name)

/-- The number that two axis numbers combine to, whatever they are. -/
def composeCode (lineBreak trailingComma : Int) : Int :=
  lineBreak * 3 + trailingComma

def unknownCode (number : Int) : String :=
  match Text.numeral? number with
  | none => Text.digitLimitMessage
  | some shown => shown ++ " is not a valid Layout"

/-- What a policy decides for a sequence of `count` elements. -/
def decision (layout : Layout) (count : Int) : LayoutDecision where
  breakLines := layout.lineBreak.applies count
  trailingComma := layout.trailingComma.applies count

theorem mem_all (layout : Layout) : layout ∈ all := by
  rcases layout with ⟨lineBreak, trailingComma⟩
  cases lineBreak <;> cases trailingComma <;> decide

@[simp]
theorem ofCode?_code (layout : Layout) : ofCode? layout.code = some layout := by
  rcases layout with ⟨lineBreak, trailingComma⟩
  cases lineBreak <;> cases trailingComma <;> rfl

@[simp]
theorem ofName?_name (layout : Layout) : ofName? layout.name = some layout := by
  rcases layout with ⟨lineBreak, trailingComma⟩
  cases lineBreak <;> cases trailingComma <;> decide +kernel

theorem decision_zero (layout : Layout) : layout.decision 0 = ⟨false, false⟩ := by
  rcases layout with ⟨lineBreak, trailingComma⟩
  cases lineBreak <;> cases trailingComma <;> rfl

end Layout

end StarlarkPrinter
