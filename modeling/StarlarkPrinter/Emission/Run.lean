import StarlarkPrinter.Emission.Basic

namespace StarlarkPrinter

/-- A sink: its next state, and its complaint if it refuses the text. -/
structure Sink (σ : Type) where
  offer : σ → String → σ × Option Complaint

/-- The sink that takes everything and keeps the text. -/
def Sink.buffer : Sink String where
  offer content text := (content ++ text, none)

/-- What happens in a run, in order. -/
inductive Event where
  | accepted (text : String)
  | refused (text : String)
  | logged (line : String)
deriving DecidableEq, Repr

def Event.accepted? : Event → Option String
  | .accepted text => some text
  | _ => none

def Event.logged? : Event → Option String
  | .logged line => some line
  | _ => none

/-- What a run did and how it ended. -/
structure Run (σ : Type) where
  events : List Event
  state : σ
  ending : Ending
deriving DecidableEq, Repr

namespace Run

variable {σ : Type}

/-- Go on from the state of a run that ended well. -/
def andThen (run : Run σ) (next : σ → Run σ) : Run σ :=
  match run.ending with
  | .done =>
    let rest := next run.state
    { rest with events := run.events ++ rest.events }
  | _ => run

def within (crumb : Crumb) (run : Run σ) : Run σ :=
  { run with ending := run.ending.within crumb }

def precede (event : Event) (run : Run σ) : Run σ :=
  { run with events := event :: run.events }

def accepted (run : Run σ) : List String :=
  run.events.filterMap Event.accepted?

theorem andThen_of_stopped {run : Run σ} (stopped : run.ending ≠ .done) (next : σ → Run σ) :
    run.andThen next = run := by
  obtain ⟨events, state, ending⟩ := run
  cases ending with
  | done => exact absurd rfl stopped
  | failed | malformed | escaped => rfl

theorem andThen_precede (event : Event) (run : Run σ) (next : σ → Run σ) :
    (run.precede event).andThen next = (run.andThen next).precede event := by
  obtain ⟨events, state, ending⟩ := run
  cases ending <;> rfl

theorem within_precede (crumb : Crumb) (event : Event) (run : Run σ) :
    (run.precede event).within crumb = (run.within crumb).precede event := rfl

end Run

def Sink.give {σ : Type} (sink : Sink σ) (text : String) (state : σ) : Run σ :=
  match sink.offer state text with
  | (next, none) => ⟨[.accepted text], next, .done⟩
  | (next, some complaint) => ⟨[.refused text], next, complaint.ending⟩

/-- Run an emission against a sink. Texts may be of any length here; a machine runs the
`bounded` emission. -/
def Emission.run {σ : Type} (sink : Sink σ) : Emission → σ → Run σ
  | .done, state => ⟨[], state, .done⟩
  | .write text, state => sink.give text state
  | .indentation count unit, state => sink.give (Options.repeated count.toNat unit) state
  | .margin _, state => ⟨[], state, .done⟩
  | .andThen first second, state => (first.run sink state).andThen (second.run sink)
  | .within crumb body, state => (body.run sink state).within crumb
  | .fail reason, state => ⟨[], state, .failed (.ofReason reason)⟩
  | .malformed scope, state => ⟨[], state, .malformed scope⟩
  | .escape error, state => ⟨[], state, .escaped error⟩

end StarlarkPrinter
