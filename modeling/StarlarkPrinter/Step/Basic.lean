import StarlarkPrinter.Emission.Basic
import StarlarkPrinter.Options.Basic

/-! Steps: how a construct describes its output. A step writes a text, a token or
an indentation, or hands over to a part of the tree. The parts are of any type
`α`, so that one description serves the tree itself and its rendered parts. -/

namespace StarlarkPrinter

/-- One step. `levels` is how much deeper a part is rendered. -/
inductive Step (α : Type) where
  | part (tree : α) (label : String) (levels : Nat)
  | block (trees : List α) (label : String) (levels : Nat)
  | indent
  | innerIndent
  | token (symbol : Option Token) (label : String)
  | text (content label : String)
  | unknown (code : Int)
deriving DecidableEq, Repr

namespace Step

variable {α β : Type}

def here (tree : α) (label : String) : Step α := .part tree label 0

def inside (tree : α) (label : String) : Step α := .part tree label 1

/-- A token labelled by its own name. -/
def mark (symbol : Token) : Step α := .token (some symbol) symbol.name

def quote : Step α := .text "\"" "quote"

def space : Step α := .text " " "space"

def colon : Step α := mark .colon

def comma : Step α := mark .comma

def newline : Step α := mark .newline

/-- A step with a space on either side, or without. -/
def padded (spaced : Bool) (step : Step α) : List (Step α) :=
  if spaced then [space, step, space] else [step]

/-- Change the parts: single parts by one function, the members of blocks by
another. -/
def map (single member : α → β) : Step α → Step β
  | .part tree label levels => .part (single tree) label levels
  | .block trees label levels => .block (trees.map member) label levels
  | .indent => .indent
  | .innerIndent => .innerIndent
  | .token symbol label => .token symbol label
  | .text content label => .text content label
  | .unknown code => .unknown code

/-- The emission of a token: its spelling, if it has one. -/
def tokenEmission (symbol : Option Token) : Emission :=
  match symbol.bind Token.spelling? with
  | some spelling => .write spelling
  | none => .fail (.notWritable symbol)

/-- The indentation of the current depth and `extra` levels more, built when it is written. -/
def indentEmission (options : Options) (extra : Int) : Emission :=
  .indentation (options.depth + extra) options.indent

/-- The failure for a step of an unknown number, which has to be shown. -/
def unknownEmission (scope : String) (code : Int) : Emission :=
  match Text.numeral? code with
  | none => .escape .digitLimit
  | some shown => .fail (.unknownStep scope shown)

/-- The emission of the members of a block, numbered from `index`. -/
def blockEmission (scope label : String) (options : Options) :
    Nat → List (Options → Emission) → Emission
  | _, [] => .done
  | index, member :: rest =>
    .andThen (.within (.statement scope label index) (member options))
      (blockEmission scope label options (index + 1) rest)

/-- The emission of a step whose parts are emissions under given options. -/
def emission (scope : String) (options : Options) : Step (Options → Emission) → Emission
  | .part tree label levels => .within (.part scope label) (tree (options.deeper levels))
  | .block trees label levels => blockEmission scope label (options.deeper levels) 0 trees
  | .indent => .within (.indent scope) (indentEmission options 0)
  | .innerIndent => .within (.indent scope) (indentEmission options 1)
  | .token symbol label => .within (.token scope label) (tokenEmission symbol)
  | .text content label => .within (.part scope label) (.write content)
  | .unknown code => unknownEmission scope code

end Step

def perform (scope : String) (options : Options) (steps : List (Step (Options → Emission))) :
    Emission :=
  .all (steps.map (Step.emission scope options))

end StarlarkPrinter
