import StarlarkPrinter.Proofs.Bounded
import StarlarkPrinter.Proofs.Plan

namespace StarlarkPrinter

def Role.failureLines (role : Role) : Ending → List Event
  | .failed error => [.logged (role.failureLine error)]
  | _ => []

theorem Ending.eq_done_of_error? {ending : Ending} (nothing : ending.error? = none) :
    ending = .done := by
  cases ending with
  | done => rfl
  | failed | malformed | escaped => cases nothing

namespace Role

variable {σ : Type} {settings : List Setting} {options : Options}

section Write

-- The digit limit is a power that must not be computed on the way through the printer.
attribute [local irreducible] Text.numeral?

theorem write_of_error {error : OptionsError}
    (refused : Options.ofSettings settings = .error error) (role : Role) (node : Node)
    (sink : Sink σ) (start : σ) :
    role.write settings node sink start = .untouched start (.ofOptions error) := by
  rw [write, refused]

theorem write_of_ok (built : Options.ofSettings settings = .ok options) (role : Role)
    (node : Node) (sink : Sink σ) (start : σ) :
    role.write settings node sink start = role.writeWith options node sink start := by
  rw [write, built]

theorem writeWith_of_long (long : Text.numeralBound ≤ options.depth) (role : Role) (node : Node)
    (sink : Sink σ) (start : σ) :
    role.writeWith options node sink start = .untouched start (.foreign .digitLimit) := by
  have unshown : Text.numeral? options.depth = none := (Text.numeral?_eq_none_iff _).mpr long
  delta writeWith
  rw [unshown]

/-- Under a depth that can be shown, a line is logged, the texts are offered, and a failure
is logged once more. -/
theorem writeWith_of_short (short : options.depth < Text.numeralBound) (role : Role)
    (node : Node) (sink : Sink σ) (start : σ) :
    role.writeWith options node sink start =
      let run := (role.emission node options).bounded.run sink start
      ⟨.logged (role.startLine node (Text.decimal options.depth)) :: run.events ++
        role.failureLines run.ending, run.state, run.ending.error?⟩ := by
  have shown : Text.numeral? options.depth = some (Text.decimal options.depth) :=
    (Text.numeral?_eq_some_iff _ _).mpr ⟨short, rfl⟩
  delta writeWith
  rw [shown]
  cases ending : ((role.emission node options).bounded.run sink start).ending <;>
    simp [Run.report, ending, Ending.error?, failureLines]

end Write

/-- Under options that are built and whose depth can be shown, a node prints as its emission
does on a machine. -/
theorem print_of_short (built : Options.ofSettings settings = .ok options)
    (short : options.depth < Text.numeralBound) (role : Role) (node : Node) :
    role.print settings node =
      let trace := (role.emission node options).bounded.trace
      match trace.ending.error? with
      | some error => .error error
      | none => .ok trace.text := by
  rw [print, write_of_ok built, writeWith_of_short short]
  cases ended : (role.emission node options).bounded.trace.ending <;>
    simp [Emission.run_buffer, ended, Ending.error?]

/-- A node that has a text was printed to its end, and the text is all of what it writes. -/
theorem trace_of_print (built : Options.ofSettings settings = .ok options) {role : Role}
    {node : Node} {text : String} (printed : role.print settings node = .ok text) :
    (role.trace node options).ending = .done ∧ text = (role.trace node options).text := by
  by_cases short : options.depth < Text.numeralBound
  · rw [print_of_short built short] at printed
    simp only at printed
    split at printed
    · cases printed
    · rename_i nothing
      have well := Ending.eq_done_of_error? nothing
      have whole := Emission.bounded_trace_of_done well
      cases printed
      rw [whole] at well ⊢
      exact ⟨well, rfl⟩
  · rw [print, write_of_ok built, writeWith_of_long (Nat.le_of_not_lt short)] at printed
    cases printed

/-- Where every text can be built, a node prints as its trace says. -/
theorem print_eq_trace (built : Options.ofSettings settings = .ok options)
    (short : options.depth < Text.numeralBound) {role : Role} {node : Node}
    (fits : ∀ error, ¬ (role.emission node options).Overflows error) :
    role.print settings node =
      match (role.trace node options).ending.error? with
      | some error => .error error
      | none => .ok (role.trace node options).text := by
  rw [print_of_short built short, Emission.bounded_trace_of_fits fits]
  rfl

end Role

end StarlarkPrinter
