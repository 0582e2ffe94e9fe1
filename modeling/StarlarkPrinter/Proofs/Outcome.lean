import StarlarkPrinter.Proofs.Factorisation
import StarlarkPrinter.Proofs.Printing
import StarlarkPrinter.Proofs.Settings

/-! How printing comes out. A setting that does not fit is reported before anything is logged
or written; otherwise one line is logged, texts are offered, and a failure is logged once
more. What gets out beside this are errors of others: from showing a value or the depth, from
building a text that is too long, and from a sink whose complaint is not caught. -/

namespace StarlarkPrinter

/-- A complaint lets an error out. -/
def Complaint.LetsOut (complaint : Complaint) (error : ForeignError) : Prop :=
  complaint = .textless error ∨ complaint = .uncaught error

/-- Some complaint of a sink lets an error out. -/
def Sink.LetsOut {σ : Type} (sink : Sink σ) (error : ForeignError) : Prop :=
  ∃ state text next complaint, sink.offer state text = (next, some complaint) ∧
    complaint.LetsOut error

/-- A complaint is reported as a failure, or it lets an error out. -/
private theorem Complaint.reportedAt_cases (complaint : Complaint) (breadcrumb : String) :
    (∃ error, complaint.reportedAt breadcrumb = .failed error) ∨
      ∃ error, complaint.reportedAt breadcrumb = .escaped error ∧ complaint.LetsOut error := by
  cases complaint with
  | ordinary refusal => exact .inl ⟨_, rfl⟩
  | textless error => exact .inr ⟨error, rfl, .inl rfl⟩
  | uncaught error => exact .inr ⟨error, rfl, .inr rfl⟩

namespace Role

variable {σ : Type}

/-- Printing a tree logs nothing by itself. It is done, fails, or ends with an error of
others; it is never malformed. -/
theorem run_cases (role : Role) (node : Node) (options : Options) (sink : Sink σ) (start : σ) :
    let run := (role.emission node options).bounded.run sink start
    (∀ event ∈ run.events, event.logged? = none) ∧
      (run.ending = .done ∨ (∃ error, run.ending = .failed error) ∨
        ∃ error, run.ending = .escaped error ∧
          ((role.emission node options).Overflows error ∨ sink.LetsOut error)) := by
  intro run
  obtain ⟨trace, follows, ends⟩ := role.follows_one_trace node options
  rcases follows sink start with
    ⟨final, _, ran⟩ | ⟨before, write, _, last, next, complaint, _, _, refused, ran⟩
  · rw [show run = _ from ran]
    refine ⟨by simp [Event.logged?], ?_⟩
    rcases ends with own | ⟨error, escaped, overflows⟩
    · cases ending : trace.ending with
      | done => exact .inl rfl
      | failed error => exact .inr (.inl ⟨error, rfl⟩)
      | malformed | escaped =>
        rw [ending] at own
        exact own.elim
    · exact .inr (.inr ⟨error, escaped, .inl overflows⟩)
  · rw [show run = _ from ran]
    refine ⟨by simp [Event.logged?, or_imp, forall_and], ?_⟩
    rcases complaint.reportedAt_cases write.breadcrumb with failed | ⟨error, escaped, letsOut⟩
    · exact .inr (.inl failed)
    · have source : sink.LetsOut error := ⟨last, write.text, next, complaint, refused, letsOut⟩
      exact .inr (.inr ⟨error, escaped, .inr source⟩)

/-- The first line tells the kind of the node and the depth. -/
theorem startLine_eq (role : Role) :
    ∃ opening, ∀ (node : Node) (depth : String),
      role.startLine node depth = opening ++ node.typeName ++ " at depth " ++ depth := by
  cases role <;> exact ⟨_, fun _ _ => rfl⟩

/-- The last line of a failure ends in its message. -/
theorem failureLine_eq (role : Role) :
    ∃ front, ∀ error : RenderError, role.failureLine error = front ++ error.message := by
  cases role <;> exact ⟨_, fun _ => rfl⟩

/-- Settings that do not fit are reported by the first of them, if its value can be shown. -/
theorem write_of_unacceptable {settings : List Setting} {bad : Setting}
    (first : settings.find? (!·.isAcceptable) = some bad) (role : Role) (node : Node)
    (sink : Sink σ) (start : σ) :
    ∃ requirement, role.write settings node sink start =
      .untouched start (.ofOptions (.ofValue bad.name bad.value requirement)) := by
  obtain ⟨requirement, _, refused⟩ := Options.ofSettings_of_unacceptable first
  exact ⟨requirement, write_of_error refused role node sink start⟩

end Role

/-- What a printing under options whose depth can be shown reports: one line is logged that
tells the kind of the node and the depth, and texts are offered. Either all is done, or it
fails with a render error whose message ends one further line, or an error of others gets
out: from a text that cannot be built, or from the sink. -/
def Report.IsOf {σ : Type} (report : Report σ) (role : Role) (node : Node) (options : Options)
    (sink : Sink σ) : Prop :=
  ∃ opening offered, (∀ event ∈ offered, event.logged? = none) ∧
    let started := .logged (opening ++ node.typeName ++ " at depth " ++
      Text.decimal options.depth) :: offered
    (report.error? = none ∧ report.events = started) ∨
      (∃ error front, report.error? = some (.render error) ∧
        report.events = started ++ [.logged (front ++ error.message)]) ∨
      ∃ error, report.error? = some (.foreign error) ∧ report.events = started ∧
        ((role.emission node options).Overflows error ∨ sink.LetsOut error)

theorem Role.report_of_short {σ : Type} {options : Options}
    (short : options.depth < Text.numeralBound) (role : Role) (node : Node) (sink : Sink σ)
    (start : σ) : (role.writeWith options node sink start).IsOf role node options sink := by
  obtain ⟨opening, starts⟩ := role.startLine_eq
  obtain ⟨front, ends⟩ := role.failureLine_eq
  obtain ⟨unlogged, cases⟩ := role.run_cases node options sink start
  rw [writeWith_of_short short, starts]
  refine ⟨opening, _, unlogged, ?_⟩
  rcases cases with done | ⟨error, failed⟩ | ⟨error, escaped, source⟩
  · simp [done, Ending.error?, failureLines]
  · simp [failed, Ending.error?, failureLines, ends]
  · simp [escaped, Ending.error?, failureLines, source]

/-- Log lines are no accepted texts. -/
private theorem Role.accepted_writeWith {σ : Type} {options : Options}
    (short : options.depth < Text.numeralBound) (role : Role) (node : Node) (sink : Sink σ)
    (start : σ) :
    (role.writeWith options node sink start).accepted =
      ((role.emission node options).bounded.run sink start).accepted := by
  have lines (ending : Ending) : (role.failureLines ending).filterMap Event.accepted? = [] := by
    cases ending <;> rfl
  rw [writeWith_of_short short]
  simp [Report.accepted, Run.accepted, lines, List.filterMap_cons, Event.accepted?]

/-- The text of a node is what a sink that takes everything accepts, and the errors are the
same. -/
theorem Role.print_eq_write {σ : Type} (role : Role) (settings : List Setting) (node : Node)
    {sink : Sink σ} (obliging : sink.Obliging) (start : σ) :
    role.print settings node =
      match (role.write settings node sink start).error? with
      | some error => .error error
      | none => .ok (String.join (role.write settings node sink start).accepted) := by
  cases built : Options.ofSettings settings with
  | error error =>
    rw [print, write_of_error built, write_of_error built]
    rfl
  | ok options =>
    by_cases short : options.depth < Text.numeralBound
    · obtain ⟨ends, accepts⟩ := Emission.run_of_obliging sink obliging
        (role.emission node options).bounded start
      rw [print_of_short built short, write_of_ok built, accepted_writeWith short, accepts,
        writeWith_of_short short]
      simp only [ends]
      rfl
    · have long := Nat.le_of_not_lt short
      rw [print, write_of_ok built, write_of_ok built, writeWith_of_long long,
        writeWith_of_long long]
      rfl

/-- Printing to a sink comes out in one of these ways. The first setting that does not fit is
reported before anything happens, unless its value cannot be shown: then the error of showing
it gets out, also before anything happens, and so it does for a depth that fits but cannot be
shown. Otherwise one line is logged, texts are offered, and the call is done, fails with a
render error that is logged once more, or lets an error of others out. The text of a node is
what a sink that takes everything accepts, and the errors are the same. -/
theorem printing_outcomes (role : Role) (settings : List Setting) (node : Node) {σ : Type}
    (sink : Sink σ) (start : σ) :
    let report := role.write settings node sink start
    (∀ bad, settings.find? (!·.isAcceptable) = some bad →
      (∀ shown, bad.value.display = .shown shown → ∃ requirement,
        report = .untouched start (.options (.invalid bad.name shown requirement))) ∧
      ∀ error, bad.value.display = .fails error → report = .untouched start (.foreign error)) ∧
    (settings.find? (!·.isAcceptable) = none →
      ∃ options, Options.ofSettings settings = .ok options ∧
        lastValue settings .depth = .int options.depth ∧
        (Text.numeralBound ≤ options.depth →
          report = .untouched start (.foreign .digitLimit)) ∧
        (options.depth < Text.numeralBound → report.IsOf role node options sink)) ∧
    (sink.Obliging → role.print settings node =
      match report.error? with
      | some error => .error error
      | none => .ok (String.join report.accepted)) := by
  refine ⟨fun bad first => ?_, fun allFit => ?_, fun obliging => ?_⟩
  · obtain ⟨requirement, refused⟩ := Role.write_of_unacceptable first role node sink start
    rw [refused, OptionsError.ofValue]
    constructor
    · intro shown shows
      rw [shows]
      exact ⟨requirement, rfl⟩
    · intro error fails
      rw [fails]
      rfl
  · have fit : ∀ setting ∈ settings, setting.isAcceptable = true := by
      simpa using List.find?_eq_none.mp allFit
    obtain ⟨options, built⟩ := Options.ofSettings_of_acceptable fit
    refine ⟨options, built, Options.holds_of_ofSettings built .depth, fun long => ?_,
      fun short => ?_⟩
    · rw [Role.write_of_ok built, Role.writeWith_of_long long]
    · rw [Role.write_of_ok built]
      exact role.report_of_short short node sink start
  · exact role.print_eq_write settings node obliging start

/-- A negative depth, a depth that fits, and a list are not reported where they hold more
digits than can be shown. A depth past a machine word gets as far as the first line, and an
interrupt as far as the first text. -/
theorem errors_of_others_get_out :
    let long : Int := Text.numeralBound
    let pass : Node := .branch (some .kwPass)
    let written (settings : List Setting) := Role.statement.write settings pass Sink.buffer ""
    let interrupted : Sink Unit := ⟨fun _ _ => ((), some (.uncaught ⟨"KeyboardInterrupt", ""⟩))⟩
    written [⟨.depth, .int (-long)⟩] = .untouched "" (.foreign .digitLimit) ∧
      written [⟨.depth, .int long⟩] = .untouched "" (.foreign .digitLimit) ∧
      written [⟨.indent, .other "list" (.fails .digitLimit) none⟩] =
        .untouched "" (.foreign .digitLimit) ∧
      written [⟨.indent, .text ""⟩, ⟨.depth, .int Options.wordBound⟩] =
        ⟨[.logged "Rendering statement BranchStmt at depth 9223372036854775808"], "",
          some (.foreign ⟨"OverflowError", "cannot fit 'int' into an index-sized integer"⟩)⟩ ∧
      Role.statement.write [] pass interrupted () =
        ⟨[.logged "Rendering statement BranchStmt at depth 0", .refused ""], (),
          some (.foreign ⟨"KeyboardInterrupt", ""⟩)⟩ := by
  intro long pass written interrupted
  have large : (0 : Int) < long :=
    Int.ofNat_lt.mpr (Text.lt_numeralBound (by decide : 0 < Nat.pow 10 1) (by decide))
  have negative : (Setting.mk .depth (.int (-long))).isAcceptable = false := by
    simp only [Setting.isAcceptable, decide_eq_false_iff_not]
    omega
  have depth : (Setting.mk .depth (.int long)).isAcceptable = true := by
    simp only [Setting.isAcceptable, decide_eq_true_eq]
    omega
  have unshown : (Value.int (-long)).display = .fails .digitLimit := by
    have tooLong : Text.numeral? (-long) = none := by
      rw [Text.numeral?_eq_none_iff, Int.natAbs_neg]
      exact Nat.le_of_eq (Int.natAbs_natCast _).symm
    rw [Value.display, tooLong]
    rfl
  have last : lastValue [⟨.depth, .int long⟩] .depth = .int long :=
    lastValue_concat_self [] ⟨.depth, .int long⟩
  have refused (setting : Setting) (unfit : setting.isAcceptable = false)
      (fails : setting.value.display = .fails .digitLimit) :
      written [setting] = .untouched "" (.foreign .digitLimit) :=
    ((printing_outcomes .statement [setting] pass Sink.buffer "").1 setting
      (by simp [unfit])).2 _ fails
  refine ⟨refused _ negative unshown, ?_, refused _ rfl rfl, ?_, ?_⟩
  · obtain ⟨options, _, holds, tooDeep, _⟩ :=
      (printing_outcomes .statement [⟨.depth, .int long⟩] pass Sink.buffer "").2.1 (by simp [depth])
    rw [last] at holds
    apply tooDeep
    exact Nat.le_of_eq (Int.ofNat_inj.mp (Value.int.inj holds))
  · decide +kernel
  · decide +kernel

end StarlarkPrinter
