import StarlarkPrinter.Step.Basic

namespace StarlarkPrinter

structure StepRecord where
  code : Int := 0
  token : Option Token := none
  tree : Node := .missing
  trees : List Node := []
  levels : Int := 0
  content : String := ""
  label : String := ""
deriving Repr

namespace StepRecord

/-- The step that a record stands for. Only positive levels count. -/
def toStep (record : StepRecord) : Step Node :=
  if record.code = 1 then .part record.tree record.label record.levels.toNat
  else if record.code = 2 then .block record.trees record.label record.levels.toNat
  else if record.code = 3 then .indent
  else if record.code = 4 then .token record.token record.label
  else if record.code = 5 then .text record.content record.label
  else if record.code = 6 then .innerIndent
  else .unknown record.code

def ofStep : Step Node → StepRecord
  | .part tree label levels => { code := 1, tree, label, levels }
  | .block trees label levels => { code := 2, trees, label, levels }
  | .indent => { code := 3 }
  | .token token label => { code := 4, token, label }
  | .text content label => { code := 5, content, label }
  | .innerIndent => { code := 6 }
  | .unknown code => { code }

/-- The steps that have a name of their own. -/
def named? : String → Option StepRecord
  | "QUOTE" => some (ofStep .quote)
  | "SPACE" => some (ofStep .space)
  | "COLON" => some (ofStep .colon)
  | "COMMA" => some (ofStep .comma)
  | "NEWLINE" => some (ofStep .newline)
  | "INDENT" => some (ofStep .indent)
  | "EXTRA_INDENT" => some (ofStep .innerIndent)
  | _ => none

end StepRecord

end StarlarkPrinter
