import StarlarkPrinter.Options.Basic

namespace StarlarkPrinter

/-- The sequences that have a layout of their own. -/
inductive Sequence where
  | call | dict | list | tuple
deriving DecidableEq, Repr

inductive OptionName where
  | depth
  | indent
  | spaceEqBinary
  | layout (sequence : Sequence)
deriving DecidableEq, Repr

namespace OptionName

def text : OptionName → String
  | .depth => "depth"
  | .indent => "indent"
  | .spaceEqBinary => "space_eq_binary"
  | .layout .call => "call_option"
  | .layout .dict => "dict_option"
  | .layout .list => "list_option"
  | .layout .tuple => "tuple_option"

def all : List OptionName :=
  [.depth, .indent, .spaceEqBinary, .layout .call, .layout .dict, .layout .list, .layout .tuple]

def ofText? (text : String) : Option OptionName :=
  all.find? (·.text = text)

end OptionName

/-- What a value must be to fit. -/
inductive Requirement where
  | integer | nonnegative | text | boolean | layout
deriving DecidableEq, Repr

/-- How a requirement ends a message. A layout is not explained. -/
def Requirement.clause : Requirement → String
  | .integer => ", value must be an integer"
  | .nonnegative => ", value must be >= 0"
  | .text => ", value must be a string"
  | .boolean => ", value must be a boolean"
  | .layout => ""

/-- Why options cannot be built: a value does not fit, or it would have to be reported so
but cannot be shown. -/
inductive OptionsError where
  | invalid (name : OptionName) (shown : String) (requirement : Requirement)
  | unshown (error : ForeignError)
deriving DecidableEq, Repr

namespace OptionsError

def message : OptionsError → String
  | .invalid name shown requirement =>
    "invalid " ++ name.text ++ " value " ++ shown ++ requirement.clause
  | .unshown error => error.text

def ofValue (name : OptionName) (value : Value) (requirement : Requirement) : OptionsError :=
  match value.display with
  | .shown text => .invalid name text requirement
  | .fails error => .unshown error

end OptionsError

namespace Value

/-- A depth is a plain integer that is not negative. -/
def toDepth : Value → Except OptionsError Nat
  | .int number =>
    if number < 0 then .error (.ofValue .depth (.int number) .nonnegative)
    else .ok number.toNat
  | value => .error (.ofValue .depth value .integer)

/-- An indentation unit is a text. -/
def toIndent : Value → Except OptionsError String
  | .text unit => .ok unit
  | value => .error (.ofValue .indent value .text)

/-- A switch is a plain truth value. -/
def toSwitch : Value → Except OptionsError Bool
  | .bool value => .ok value
  | value => .error (.ofValue .spaceEqBinary value .boolean)

/-- The layout that a value names: a text by the name of the policy in any case,
any other value by the number that it equals. -/
def layout? : Value → Option Layout
  | .text name => Layout.ofName? (Text.upperCase name)
  | value => value.number?.bind Layout.ofCode?

/-- A layout is a policy by name or by number. -/
def toLayout (sequence : Sequence) (value : Value) : Except OptionsError Layout :=
  match value.layout? with
  | some layout => .ok layout
  | none => .error (.ofValue (.layout sequence) value .layout)

end Value

structure Setting where
  name : OptionName
  value : Value
deriving DecidableEq, Repr

/-- A dynamic value for every option. -/
structure OptionFields where
  depth : Value := .int 0
  indent : Value := .text "    "
  spaceEqBinary : Value := .bool false
  call : Value := .int 0
  dict : Value := .int 0
  list : Value := .int 0
  tuple : Value := .int 0
deriving DecidableEq, Repr

namespace OptionFields

def put (fields : OptionFields) : OptionName → Value → OptionFields
  | .depth, value => { fields with depth := value }
  | .indent, value => { fields with indent := value }
  | .spaceEqBinary, value => { fields with spaceEqBinary := value }
  | .layout .call, value => { fields with call := value }
  | .layout .dict, value => { fields with dict := value }
  | .layout .list, value => { fields with list := value }
  | .layout .tuple, value => { fields with tuple := value }

end OptionFields

namespace Options

/-- Build options from a value for each, checked in the order of the fields. -/
def ofFields (fields : OptionFields) : Except OptionsError Options := do
  let depth ← fields.depth.toDepth
  let indent ← fields.indent.toIndent
  let spaceEqBinary ← fields.spaceEqBinary.toSwitch
  let call ← fields.call.toLayout .call
  let dict ← fields.dict.toLayout .dict
  let list ← fields.list.toLayout .list
  let tuple ← fields.tuple.toLayout .tuple
  return { depth, indent, spaceEqBinary, call, dict, list, tuple }

def layoutOf (options : Options) : Sequence → Layout
  | .call => options.call
  | .dict => options.dict
  | .list => options.list
  | .tuple => options.tuple

def withLayout (options : Options) (sequence : Sequence) (layout : Layout) : Options :=
  match sequence with
  | .call => { options with call := layout }
  | .dict => { options with dict := layout }
  | .list => { options with list := layout }
  | .tuple => { options with tuple := layout }

def set (options : Options) (setting : Setting) : Except OptionsError Options :=
  match setting.name with
  | .depth => setting.value.toDepth.map fun depth => { options with depth }
  | .indent => setting.value.toIndent.map fun indent => { options with indent }
  | .spaceEqBinary =>
    setting.value.toSwitch.map fun spaceEqBinary => { options with spaceEqBinary }
  | .layout sequence => (setting.value.toLayout sequence).map (options.withLayout sequence)

/-- Apply settings in order to the default options. -/
def ofSettings (settings : List Setting) : Except OptionsError Options :=
  settings.foldlM set {}

/-- Move the depth by any number of levels; it must not become negative. -/
def addDepth (options : Options) (levels : Int) : Except OptionsError Options :=
  options.set ⟨.depth, .int (options.depth + levels)⟩

theorem addDepth_ofNat (options : Options) (levels : Nat) :
    options.addDepth levels = .ok (options.deeper levels) := by
  have notNegative : ¬ (options.depth + levels : Int) < 0 := by omega
  simp only [addDepth, set, Value.toDepth, notNegative, if_false, Except.map, deeper]
  congr

end Options

end StarlarkPrinter
