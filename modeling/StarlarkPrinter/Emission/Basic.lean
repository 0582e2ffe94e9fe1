import StarlarkPrinter.Emission.Failure
import StarlarkPrinter.Options.Basic

/-! Emissions: what a printer does, as data. An emission writes texts in order,
names the place it is working on, and may fail. It knows nothing of the sink; the
modules `Trace` and `Run` say what it writes and how it meets a sink. -/

namespace StarlarkPrinter

/-- A program of writes. An indentation is written as its unit repeated; a margin is
spaces that are built to be compared with a line, and not written. -/
inductive Emission where
  | done
  | write (text : String)
  | indentation (count : Int) (unit : String)
  | margin (width : Nat)
  | andThen (first second : Emission)
  | within (crumb : Crumb) (body : Emission)
  | fail (reason : Reason)
  | malformed (scope : String)
  | escape (error : ForeignError)
deriving DecidableEq, Repr

namespace Emission

def all : List Emission → Emission
  | [] => .done
  | emission :: rest => .andThen emission (all rest)

/-- The emission on a machine, where a text that cannot be built is an error. -/
def bounded : Emission → Emission
  | .indentation count unit =>
    (Options.repeatError? count unit).elim (.indentation count unit) .escape
  | .margin width => (Options.repeatError? width " ").elim (.margin width) .escape
  | .andThen first second => .andThen first.bounded second.bounded
  | .within crumb body => .within crumb body.bounded
  | emission => emission

end Emission

/-- How an emission ends. Only a failure takes a context in front: a malformed list of
steps is no fault of the tree, and a foreign error is not caught. -/
inductive Ending where
  | done
  | failed (error : RenderError)
  | malformed (scope : String)
  | escaped (error : ForeignError)
deriving DecidableEq, Repr

namespace Ending

def within (crumb : Crumb) : Ending → Ending
  | .failed error => .failed (error.wrap crumb.text)
  | ending => ending

def along (path : List Crumb) (ending : Ending) : Ending :=
  path.foldr within ending

/-- What is reported for a malformed list of steps. -/
def malformedMessage (scope : String) : String :=
  "nil item in render, errPrefix: " ++ scope

theorem along_cons (crumb : Crumb) (path : List Crumb) (ending : Ending) :
    ending.along (crumb :: path) = (ending.along path).within crumb := rfl

theorem along_failed (path : List Crumb) (error : RenderError) :
    (failed error).along path = .failed (error.along path) := by
  induction path with
  | nil => rfl
  | cons crumb rest ih =>
    rw [along_cons, ih]
    rfl

theorem along_escaped (path : List Crumb) (error : ForeignError) :
    (escaped error).along path = .escaped error := by
  induction path with
  | nil => rfl
  | cons crumb rest ih =>
    rw [along_cons, ih]
    rfl

end Ending

/-- How a complaint ends a run, before any context. -/
def Complaint.ending : Complaint → Ending
  | .ordinary refusal => .failed (.ofRefusal refusal)
  | .textless error | .uncaught error => .escaped error

/-- A complaint is no good ending, wherever it is made. -/
theorem Complaint.along_ne_done (complaint : Complaint) (path : List Crumb) :
    complaint.ending.along path ≠ .done := by
  cases complaint with
  | ordinary refusal => simp [ending, Ending.along_failed]
  | textless error | uncaught error => simp [ending, Ending.along_escaped]

end StarlarkPrinter
