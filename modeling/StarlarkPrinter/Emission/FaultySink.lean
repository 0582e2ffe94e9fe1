import StarlarkPrinter.Emission.Run

namespace StarlarkPrinter

/-- What a faulty sink refuses: the call with a given text or any call whose turn it
is, counted from one, or every text that would exceed a total length. -/
inductive Fault where
  | never
  | text (wanted : String) (turn : Int)
  | call (turn : Int)
  | budget (limit : Int)
deriving DecidableEq, Repr

/-- What a faulty sink has seen: calls with its text, all calls, and the length
of what it accepted. -/
structure FaultCount where
  matching : Nat := 0
  calls : Nat := 0
  length : Nat := 0
deriving DecidableEq, Repr

namespace Fault

def count (fault : Fault) (seen : FaultCount) (text : String) : FaultCount :=
  match fault with
  | .text wanted _ =>
    if text = wanted then { seen with matching := seen.matching + 1, calls := seen.calls + 1 }
    else { seen with calls := seen.calls + 1 }
  | _ => { seen with calls := seen.calls + 1 }

/-- Whether a call is refused, given the counts that include it. -/
def refuses (fault : Fault) (seen : FaultCount) (text : String) : Bool :=
  match fault with
  | .never => false
  | .text wanted turn => text = wanted && (seen.matching : Int) = turn
  | .call turn => (seen.calls : Int) = turn
  | .budget limit => limit < ((seen.length + text.length : Nat) : Int)

/-- The faulty sink that makes one complaint. -/
def sink (fault : Fault) (complaint : Refusal) : Sink FaultCount where
  offer seen text :=
    let seen := fault.count seen text
    if fault.refuses seen text then (seen, some (.ordinary complaint))
    else ({ seen with length := seen.length + text.length }, none)

end Fault

/-- The messages of the runs that fail at the first write, at the second, and so on
to the last. -/
def Emission.refusalMessages (emission : Emission) (complaint : Refusal) (writes : Nat) :
    List String :=
  (List.range writes).filterMap fun (index : Nat) =>
    match (emission.run ((Fault.call (index + 1)).sink complaint) {}).ending with
    | .failed error => some error.message
    | _ => none

end StarlarkPrinter
