import StarlarkPrinter.Emission.Basic

namespace StarlarkPrinter

/-- One text and the path to the place that writes it. -/
structure Write where
  text : String
  path : List Crumb := []
deriving DecidableEq, Repr

def Write.within (crumb : Crumb) (write : Write) : Write :=
  { write with path := crumb :: write.path }

structure Trace where
  writes : List Write
  ending : Ending
deriving DecidableEq, Repr

namespace Trace

/-- One trace and then another, if the first one ends well. -/
def append (first second : Trace) : Trace :=
  match first.ending with
  | .done => ⟨first.writes ++ second.writes, second.ending⟩
  | _ => first

def within (crumb : Crumb) (trace : Trace) : Trace :=
  ⟨trace.writes.map (·.within crumb), trace.ending.within crumb⟩

def text (trace : Trace) : String :=
  String.join (trace.writes.map (·.text))

end Trace

def Emission.trace : Emission → Trace
  | .done => ⟨[], .done⟩
  | .write text => ⟨[{ text }], .done⟩
  | .indentation count unit => ⟨[{ text := Options.repeated count.toNat unit }], .done⟩
  | .margin _ => ⟨[], .done⟩
  | .andThen first second => first.trace.append second.trace
  | .within crumb body => body.trace.within crumb
  | .fail reason => ⟨[], .failed (.ofReason reason)⟩
  | .malformed scope => ⟨[], .malformed scope⟩
  | .escape error => ⟨[], .escaped error⟩

end StarlarkPrinter
