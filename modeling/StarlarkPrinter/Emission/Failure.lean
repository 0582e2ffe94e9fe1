import StarlarkPrinter.Tree.Node

/-! Failures. A failure starts as a reason, or as the refusal of a sink, and every
construct around it puts a crumb in front, so that its message reads as one path
from the root of the tree: `outer: inner: reason`. -/

namespace StarlarkPrinter

/-- One step of the path to a failure. `scope` says what was being rendered. -/
inductive Crumb where
  | part (scope label : String)
  | token (scope label : String)
  | indent (scope : String)
  | statement (scope label : String) (index : Nat)
deriving DecidableEq, Repr

def Crumb.text : Crumb → String
  | .part scope label => scope ++ " " ++ label
  | .token scope label => scope ++ " " ++ label ++ " token"
  | .indent scope => scope ++ " indent"
  | .statement scope label index =>
    scope ++ ", rendering " ++ label ++ " statement index " ++ Text.decimal index

/-- Why a tree or a step cannot be rendered. -/
inductive Reason where
  | nilInput (kind : Kind)
  | notExpression (kind : Kind)
  | notStatement (kind : Kind)
  | notClause (kind : Kind)
  | notDictEntry (kind : Kind)
  | notWritable (token : Option Token)
  | missingOperand (op : Option Token)
  | payload (error : PayloadError)
  | notAssignment (op : Option Token)
  | notBranch (token : Option Token)
  | unevenLoad (sources locals : Nat)
  | unknownStep (scope code : String)
deriving DecidableEq, Repr

def Token.assignments : List Token :=
  [.eq, .plusEq, .minusEq, .starEq, .percentEq]

def Token.branches : List Token :=
  [.kwBreak, .kwContinue, .kwPass]

def Reason.text : Reason → String
  | .nilInput kind => kind.scope ++ ": nil input"
  | .notExpression kind => "type " ++ kind.typeName ++ " is not supported"
  | .notStatement kind => "unsupported type " ++ kind.typeName
  | .notClause kind =>
    "unexpected clause type " ++ kind.typeName ++ " rendering comprehension"
  | .notDictEntry kind =>
    "expected DictEntry, got " ++ kind.typeName ++ " in dict expression"
  | .notWritable token => Token.shown token ++ " not supported"
  | .missingOperand op =>
    "rendering unary expression, nil X value for \"" ++ Token.shown op ++ "\" token"
  | .payload error => error.message
  | .notAssignment op =>
    "rendering assign statement: unsupported Op token " ++ Token.shown op ++
      ", expected one of: " ++ ", ".intercalate (Token.assignments.map Token.text)
  | .notBranch token =>
    "rendering branch statement: unsupported token " ++ Token.shown token ++
      ", expected break, continue or pass"
  | .unevenLoad sources locals =>
    "rendering load statement, lengths mismatch, From: " ++ Text.decimal sources ++
      ", To: " ++ Text.decimal locals
  | .unknownStep scope code =>
    scope ++ ": item type " ++ code ++ " is not supported in render"

/-- A complaint of a sink that is caught: the name of its class and its text. -/
structure Refusal where
  kind : String
  text : String
deriving DecidableEq, Repr

/-- What a sink raises when it refuses a text. An ordinary complaint is caught and asked
for its text, which may end in another error. A complaint of no ordinary class, such as
an interrupt, is not caught. -/
inductive Complaint where
  | ordinary (refusal : Refusal)
  | textless (error : ForeignError)
  | uncaught (error : ForeignError)
deriving DecidableEq, Repr

inductive Origin where
  | tree | sink
deriving DecidableEq, Repr

/-- A render error. Its message grows outwards; origin and cause stay. -/
structure RenderError where
  origin : Origin
  message : String
  cause : Option Refusal := none
deriving DecidableEq, Repr

namespace RenderError

def ofReason (reason : Reason) : RenderError :=
  { origin := .tree, message := reason.text }

/-- The error for a refusal, whatever its class. -/
def ofRefusal (refusal : Refusal) : RenderError :=
  { origin := .sink, message := refusal.text, cause := some refusal }

def wrap (context : String) (error : RenderError) : RenderError :=
  { error with message := context ++ ": " ++ error.message }

/-- The error itself and the error after each further context. -/
def wraps (error : RenderError) : List String → List RenderError
  | [] => [error]
  | context :: rest => error :: (error.wrap context).wraps rest

/-- Put a path in front of the message, its first crumb outermost. -/
def along (path : List Crumb) (error : RenderError) : RenderError :=
  path.foldr (fun crumb inner => inner.wrap crumb.text) error

@[simp]
theorem along_nil (error : RenderError) : error.along [] = error := rfl

@[simp]
theorem along_cons (crumb : Crumb) (path : List Crumb) (error : RenderError) :
    error.along (crumb :: path) = (error.along path).wrap crumb.text := rfl

end RenderError

end StarlarkPrinter
