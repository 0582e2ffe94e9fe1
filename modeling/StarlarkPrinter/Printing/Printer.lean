import StarlarkPrinter.Emission.Run
import StarlarkPrinter.Options.Setting
import StarlarkPrinter.Printing.Statement
import StarlarkPrinter.Step.Record

/-! The printer. A tree is printed as an expression or as a statement, to a sink or
as a text. Printing builds the options first, then logs a line, then writes; a
failure is logged once more. -/

namespace StarlarkPrinter

inductive Role where
  | expression | statement
deriving DecidableEq, Repr

namespace Role

def emission : Role → Node → Options → Emission
  | .expression, node => node.asExpression
  | .statement, node => node.asStatement

/-- The line logged before the first write. The depth has to be shown in it. -/
def startLine (role : Role) (node : Node) (depth : String) : String :=
  (match role with
    | .expression => "Rendering expression "
    | .statement => "Rendering statement ") ++ node.typeName ++ " at depth " ++ depth

def failureLine (role : Role) (error : RenderError) : String :=
  (match role with
    | .expression => "Expression rendering failed: "
    | .statement => "Statement rendering failed: ") ++ error.message

end Role

/-- A node that must be of a given kind; it may be left out, but then it is refused. -/
def Kind.emission (kind : Kind) (node : Node) : Options → Emission :=
  if node.isMissing then fun _ => .fail (.nilInput kind)
  else if kind.isStatement then node.asStatement
  else node.asExpression

/-- The emission of steps that are given as records. A gap in the list is malformed. -/
def performRecords (scope : String) (options : Options) (records : List (Option StepRecord)) :
    Emission :=
  .all (records.map fun
    | none => .malformed scope
    | some record =>
      (record.toStep.map Node.asExpression Node.asStatement).emission scope options)

/-- Why a tree has no text. -/
inductive PrintError where
  | options (error : OptionsError)
  | render (error : RenderError)
  | malformed (scope : String)
  | foreign (error : ForeignError)
deriving DecidableEq, Repr

def Ending.error? : Ending → Option PrintError
  | .done => none
  | .failed error => some (.render error)
  | .malformed scope => some (.malformed scope)
  | .escaped error => some (.foreign error)

/-- The error of options that cannot be built. Only a value that can be shown is reported
as an option. -/
def PrintError.ofOptions : OptionsError → PrintError
  | .unshown error => .foreign error
  | error => .options error

/-- What a call of the printer did and how it came out. -/
structure Report (σ : Type) where
  events : List Event
  state : σ
  error? : Option PrintError
deriving DecidableEq, Repr

namespace Report

variable {σ : Type}

/-- The report of a call that fails before it does anything. -/
def untouched (state : σ) (error : PrintError) : Report σ :=
  ⟨[], state, some error⟩

def accepted (report : Report σ) : List String :=
  report.events.filterMap Event.accepted?

def log (report : Report σ) : List String :=
  report.events.filterMap Event.logged?

end Report

def Run.report {σ : Type} (run : Run σ) : Report σ :=
  ⟨run.events, run.state, run.ending.error?⟩

/-- Print a node under finished options to a sink, with its log lines. A depth that
cannot be shown stops everything before the first line. -/
def Role.writeWith {σ : Type} (role : Role) (options : Options) (node : Node) (sink : Sink σ)
    (state : σ) : Report σ :=
  match Text.numeral? options.depth with
  | none => .untouched state (.foreign .digitLimit)
  | some depth =>
    let report := ((role.emission node options).bounded.run sink state).report
    let started := Event.logged (role.startLine node depth) :: report.events
    { report with
      events :=
        match report.error? with
        | some (.render error) => started ++ [.logged (role.failureLine error)]
        | _ => started }

def Role.write {σ : Type} (role : Role) (settings : List Setting) (node : Node)
    (sink : Sink σ) (state : σ) : Report σ :=
  match Options.ofSettings settings with
  | .error error => .untouched state (.ofOptions error)
  | .ok options => role.writeWith options node sink state

def Role.print (role : Role) (settings : List Setting) (node : Node) :
    Except PrintError String :=
  let report := role.write settings node Sink.buffer ""
  match report.error? with
  | some error => .error error
  | none => .ok report.state

end StarlarkPrinter
