import StarlarkPrinter.Proofs.Settings

/-! Options that are built, and runs over them. All options can be built again from their own
fields, a step changes no field but its own, and the depth adds up. A run starts with options
that are built from fields, and each of its steps applies a setting or moves the depth; a step
that fails leaves the options in place. -/

namespace StarlarkPrinter

inductive OptionsStep where
  | set (setting : Setting)
  | addDepth (levels : Int)
deriving DecidableEq, Repr

def OptionsStep.name : OptionsStep → OptionName
  | .set setting => setting.name
  | .addDepth _ => .depth

/-- Every value is of the type of its option: a depth from zero on, a text, a truth value,
and the numbers of policies. -/
structure OptionFields.Finished (fields : OptionFields) : Prop where
  depth : ∃ number : Int, 0 ≤ number ∧ fields.depth = .int number
  indent : ∃ unit, fields.indent = .text unit
  spaceEqBinary : ∃ on, fields.spaceEqBinary = .bool on
  layout : ∀ sequence, ∃ layout ∈ Layout.all, fields.get (.layout sequence) = .int layout.code

namespace Options

def step (options : Options) : OptionsStep → Except OptionsError Options
  | .set setting => options.set setting
  | .addDepth levels => options.addDepth levels

/-- The options after a run. A step that fails leaves them as they are. -/
def after (options : Options) (steps : List OptionsStep) : Options :=
  steps.foldl (fun current step => (current.step step).toOption.getD current) options

theorem finished_fields (options : Options) : options.fields.Finished where
  depth := ⟨options.depth, Int.natCast_nonneg _, rfl⟩
  indent := ⟨options.indent, rfl⟩
  spaceEqBinary := ⟨options.spaceEqBinary, rfl⟩
  layout sequence := ⟨options.layoutOf sequence, Layout.mem_all _, by cases sequence <;> rfl⟩

theorem fields_get_of_step {options next : Options} {step : OptionsStep}
    (taken : options.step step = .ok next) {name : OptionName} (differs : name ≠ step.name) :
    next.fields.get name = options.fields.get name := by
  cases step with
  | set setting => exact (holds_of_set taken).2 name differs
  | addDepth levels =>
    have moved : options.set ⟨.depth, .int (options.depth + levels)⟩ = .ok next := taken
    exact (holds_of_set moved).2 name differs

theorem fields_get_after (options : Options) {steps : List OptionsStep} {name : OptionName}
    (untouched : ∀ step ∈ steps, name ≠ step.name) :
    (options.after steps).fields.get name = options.fields.get name := by
  induction steps generalizing options with
  | nil => rfl
  | cons step rest ih =>
    have further := ih ((options.step step).toOption.getD options)
      fun other member => untouched other (by simp [member])
    rw [after, List.foldl_cons, ← after, further]
    cases taken : options.step step with
    | error error => rfl
    | ok next => exact fields_get_of_step taken (untouched step (by simp))

/-- The depth can be moved as long as it does not become negative. -/
theorem addDepth_eq_ok_iff (options next : Options) (levels : Int) :
    options.addDepth levels = .ok next ↔
      0 ≤ options.depth + levels ∧
        next = { options with depth := (options.depth + levels).toNat } := by
  by_cases negative : (options.depth : Int) + levels < 0
  · have refused : ¬ 0 ≤ (options.depth : Int) + levels := by omega
    simp only [addDepth, set, Value.toDepth, negative, if_true, refused, false_and, iff_false]
    intro taken
    cases taken
  · have natural : 0 ≤ (options.depth : Int) + levels := by omega
    simp only [addDepth, set, Value.toDepth, negative, if_false, natural, true_and]
    constructor
    · intro taken
      cases taken
      rfl
    · rintro rfl
      rfl

/-- Moving the depth twice is moving it once by the sum. -/
theorem addDepth_addDepth {options middle last : Options} {first second : Int}
    (firstMove : options.addDepth first = .ok middle)
    (secondMove : middle.addDepth second = .ok last) :
    options.addDepth (first + second) = .ok last := by
  obtain ⟨natural, rfl⟩ := (addDepth_eq_ok_iff _ _ _).mp firstMove
  obtain ⟨further, rfl⟩ := (addDepth_eq_ok_iff _ _ _).mp secondMove
  have depth : ((options.depth + first).toNat : Int) = options.depth + first :=
    Int.toNat_of_nonneg natural
  have sum : (options.depth : Int) + (first + second) =
      (options.depth + first).toNat + second := by omega
  rw [addDepth_eq_ok_iff, sum]
  exact ⟨further, rfl⟩

theorem indentation_eq_join (options : Options) (extra : Int) :
    options.indentation extra =
      String.join (List.replicate (max 0 (options.depth + extra)).toNat options.indent) := by
  have count : (options.depth + extra).toNat = (max 0 (options.depth + extra)).toNat := by omega
  rw [indentation, repeated_eq_join, count]

/-- A machine repeats a text if the count and the length of the result fit into a word. -/
def Repeatable (count : Int) (text : String) : Prop :=
  -wordBound ≤ count ∧ count < wordBound ∧ count * text.length < wordBound

theorem repeatError?_of_repeatable {count : Int} {text : String} (fits : Repeatable count text) :
    repeatError? count text = none := by
  obtain ⟨above, below, short⟩ := fits
  rw [repeatError?, if_neg (by omega), if_neg (by omega)]

theorem repeatError?_of_not_repeatable {count : Int} {text : String}
    (wide : ¬ Repeatable count text) :
    ∃ error, repeatError? count text = some error ∧ error.kind = "OverflowError" := by
  unfold repeatError?
  split
  · exact ⟨_, rfl, rfl⟩
  · split
    · exact ⟨_, rfl, rfl⟩
    · refine absurd ⟨?_, ?_, ?_⟩ wide <;> omega

/-- What holds of all options. -/
structure Sound (options : Options) : Prop where
  finished : options.fields.Finished
  rebuilt : ofFields options.fields = .ok options
  sets : ∀ setting, options.set setting =
    ofFields (options.fields.put setting.name setting.value)
  keeps : ∀ step next, options.step step = .ok next →
    ∀ name, name ≠ step.name → next.fields.get name = options.fields.get name
  moves : ∀ levels, (∃ next, options.addDepth levels = .ok next) ↔ 0 ≤ options.depth + levels
  moved : ∀ levels next, options.addDepth levels = .ok next →
    (next.depth : Int) = options.depth + levels
  adds : ∀ first second middle last, options.addDepth first = .ok middle →
    middle.addDepth second = .ok last → options.addDepth (first + second) = .ok last
  indents : ∀ extra, Repeatable (options.depth + extra) options.indent →
    options.boundedIndentation extra =
      .ok (String.join (List.replicate (max 0 (options.depth + extra)).toNat options.indent))
  overflows : ∀ extra, ¬ Repeatable (options.depth + extra) options.indent →
    ∃ error, options.boundedIndentation extra = .error error ∧ error.kind = "OverflowError"

theorem sound (options : Options) : options.Sound where
  finished := options.finished_fields
  rebuilt := options.ofFields_fields
  sets := options.set_eq_ofFields
  keeps _ _ taken _ differs := fields_get_of_step taken differs
  moves levels := by
    constructor
    · rintro ⟨next, taken⟩
      exact ((addDepth_eq_ok_iff _ _ _).mp taken).1
    · intro natural
      exact ⟨_, (addDepth_eq_ok_iff _ _ _).mpr ⟨natural, rfl⟩⟩
  moved levels next taken := by
    obtain ⟨natural, rfl⟩ := (addDepth_eq_ok_iff _ _ _).mp taken
    exact Int.toNat_of_nonneg natural
  adds _ _ _ _ firstMove secondMove := addDepth_addDepth firstMove secondMove
  indents extra fits := by
    rw [boundedIndentation, repeatError?_of_repeatable fits, indentation_eq_join]
  overflows extra wide := by
    obtain ⟨error, raised, kind⟩ := repeatError?_of_not_repeatable wide
    exact ⟨error, by rw [boundedIndentation, raised], kind⟩

end Options

end StarlarkPrinter
