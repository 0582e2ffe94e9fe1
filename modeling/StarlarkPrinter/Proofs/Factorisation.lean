import StarlarkPrinter.Proofs.Bounded
import StarlarkPrinter.Proofs.Parts

/-! Printing factors through the trace. The trace of a tree, or of a list of steps,
is fixed before any sink is seen: its texts, the breadcrumb of each, and how it ends
by itself. A run against a sink offers the texts in order. If all are taken it ends as
the trace does; the first refusal is the last thing that happens. If its complaint is
caught, the error names the breadcrumb of the refused text and keeps the complaint as its
cause. -/

namespace StarlarkPrinter

/-- The path to a write as one text, outermost place first. -/
def Write.breadcrumb (write : Write) : String :=
  ": ".intercalate (write.path.map Crumb.text)

/-- A sink takes texts in order, from one state to another. -/
inductive Sink.Takes {σ : Type} (sink : Sink σ) : σ → List String → σ → Prop where
  | nothing {state : σ} : Takes sink state [] state
  | more {state next final : σ} {text : String} {rest : List String}
      (taken : sink.offer state text = (next, none)) (further : Takes sink next rest final) :
      Takes sink state (text :: rest) final

/-- How a run ends at a complaint about a write with a given breadcrumb. -/
def Complaint.reportedAt (breadcrumb : String) : Complaint → Ending
  | .ordinary refusal => .failed ⟨.sink, breadcrumb ++ ": " ++ refusal.text, some refusal⟩
  | .textless error | .uncaught error => .escaped error

/-- Every run of an emission offers the texts of a trace in order. Either the sink
takes them all and the run ends as the trace does, or the first refused text is the
last one offered and its breadcrumb leads the error, if the complaint is caught. -/
def Emission.Follows (emission : Emission) (trace : Trace) : Prop :=
  ∀ {σ : Type} (sink : Sink σ) (start : σ),
    (∃ final, sink.Takes start trace.texts final ∧
      emission.run sink start = ⟨trace.texts.map .accepted, final, trace.ending⟩) ∨
    ∃ before write after last next complaint,
      trace.writes = before ++ write :: after ∧
      sink.Takes start (before.map (·.text)) last ∧
      sink.offer last write.text = (next, some complaint) ∧
      emission.run sink start =
        ⟨before.map (.accepted ·.text) ++ [.refused write.text], next,
          complaint.reportedAt write.breadcrumb⟩

/-- An ending that a tree comes to by itself: success, or an error without a cause. -/
def Ending.OwnDoing : Ending → Prop
  | .done => True
  | .failed error => error.origin = .tree ∧ error.cause = none
  | .malformed _ | .escaped _ => False

namespace RenderError

private theorem along_origin (path : List Crumb) (error : RenderError) :
    (error.along path).origin = error.origin := by
  induction path with
  | nil => rfl
  | cons crumb rest ih => simpa [wrap] using ih

private theorem along_cause (path : List Crumb) (error : RenderError) :
    (error.along path).cause = error.cause := by
  induction path with
  | nil => rfl
  | cons crumb rest ih => simpa [wrap] using ih

private theorem along_message (crumb : Crumb) (path : List Crumb) (error : RenderError) :
    (error.along (crumb :: path)).message =
      ": ".intercalate ((crumb :: path).map Crumb.text) ++ ": " ++ error.message := by
  induction path generalizing crumb with
  | nil => simp [wrap]
  | cons inner rest ih =>
    have deeper := ih inner
    simp only [along_cons, List.map_cons] at deeper ⊢
    rw [wrap, deeper, String.intercalate_cons_cons]
    simp [String.append_assoc]

private theorem along_ofRefusal (write : Write) (placed : write.path ≠ []) (refusal : Refusal) :
    (ofRefusal refusal).along write.path =
      ⟨.sink, write.breadcrumb ++ ": " ++ refusal.text, some refusal⟩ := by
  obtain ⟨text, path⟩ := write
  cases path with
  | nil => exact absurd rfl placed
  | cons crumb rest =>
    have message := along_message crumb rest (ofRefusal refusal)
    have origin := along_origin (crumb :: rest) (ofRefusal refusal)
    have cause := along_cause (crumb :: rest) (ofRefusal refusal)
    cases reached : (ofRefusal refusal).along (crumb :: rest) with
    | mk reachedOrigin reachedMessage reachedCause =>
      simp only [reached] at message origin cause
      simp only [Write.breadcrumb, origin, message, cause, ofRefusal]

end RenderError

private theorem Complaint.along_path (complaint : Complaint) (write : Write)
    (placed : write.path ≠ []) :
    complaint.ending.along write.path = complaint.reportedAt write.breadcrumb := by
  cases complaint with
  | ordinary refusal =>
    rw [Complaint.ending, Ending.along_failed, RenderError.along_ofRefusal write placed]
    rfl
  | textless error | uncaught error => exact Ending.along_escaped write.path error

/-- A replay either exhausts its writes or ends at the first refusal. -/
private theorem Sink.replay_cases {σ : Type} (sink : Sink σ) (ending : Ending)
    (writes : List Write) (placed : ∀ write ∈ writes, write.path ≠ []) (start : σ) :
    (∃ final, sink.Takes start (writes.map (·.text)) final ∧
      sink.replay ending writes start = ⟨writes.map (.accepted ·.text), final, ending⟩) ∨
    ∃ before write after last next complaint,
      writes = before ++ write :: after ∧
      sink.Takes start (before.map (·.text)) last ∧
      sink.offer last write.text = (next, some complaint) ∧
      sink.replay ending writes start =
        ⟨before.map (.accepted ·.text) ++ [.refused write.text], next,
          complaint.reportedAt write.breadcrumb⟩ := by
  induction writes generalizing start with
  | nil => exact .inl ⟨start, .nothing, rfl⟩
  | cons write rest ih =>
    cases offered : sink.offer start write.text with
    | mk next complaint =>
      cases complaint with
      | some complaint =>
        have reported := complaint.along_path write (placed write (by simp))
        refine .inr ⟨[], write, rest, start, next, complaint, rfl, .nothing, offered, ?_⟩
        simp only [replay, offered, reported]
        rfl
      | none =>
        have step : sink.replay ending (write :: rest) start =
            (sink.replay ending rest next).precede (.accepted write.text) := by
          simp only [replay, offered]
        rcases ih (fun other member => placed other (by simp [member])) next with
          ⟨final, taken, replayed⟩ |
          ⟨before, refused, after, last, reached, complaint, split, taken, refusing, replayed⟩
        · refine .inl ⟨final, .more offered taken, ?_⟩
          rw [step, replayed]
          rfl
        · refine .inr ⟨write :: before, refused, after, last, reached, complaint, ?_,
            .more offered taken, refusing, ?_⟩
          · rw [split]
            rfl
          · rw [step, replayed]
            rfl

private theorem Emission.follows_trace (emission : Emission)
    (placed : ∀ write ∈ emission.trace.writes, write.path ≠ []) :
    emission.Follows emission.trace := by
  intro σ sink start
  rw [emission.run_eq_replay sink start]
  rcases sink.replay_cases emission.trace.ending emission.trace.writes placed start with
    ⟨final, taken, replayed⟩ | refused
  · refine .inl ⟨final, taken, ?_⟩
    simp only [replayed, Trace.texts, List.map_map]
    rfl
  · exact .inr refused

namespace Trace

/-- Every write of a trace has a path, and the trace ends by its own doing. -/
structure Accountable (trace : Trace) : Prop where
  placed : ∀ write ∈ trace.writes, write.path ≠ []
  own : trace.ending.OwnDoing

private theorem accountable_concat (traces : List Trace)
    (all : ∀ trace ∈ traces, trace.Accountable) : (concat traces).Accountable := by
  induction traces with
  | nil => exact ⟨by simp [nothing], trivial⟩
  | cons trace rest ih =>
    have first := all trace (by simp)
    have further := ih fun other member => all other (by simp [member])
    by_cases well : trace.ending = .done
    · rw [concat_cons, append_of_done well]
      refine ⟨fun write member => ?_, further.own⟩
      rcases List.mem_append.mp member with early | late
      · exact first.placed write early
      · exact further.placed write late
    · rw [concat_cons, append_of_not_done well]
      exact first

private theorem accountable_within (crumb : Crumb) (trace : Trace)
    (own : trace.ending.OwnDoing) : (trace.within crumb).Accountable := by
  obtain ⟨writes, ending⟩ := trace
  refine ⟨fun write member => ?_, ?_⟩
  · obtain ⟨inner, _, rfl⟩ := List.mem_map.mp member
    simp [Write.within]
  · cases ending with
    | done => trivial
    | failed error => exact own
    | malformed scope => exact own
    | escaped error => exact own

end Trace

private theorem Step.accountable (scope : String) (options : Options) (step : Step Node)
    (parts : step.Every fun role node => ∀ options, (role.trace node options).Accountable) :
    (step.trace scope options).Accountable := by
  cases step with
  | part tree label levels =>
    exact Trace.accountable_within _ _ (parts (options.deeper levels)).own
  | block trees label levels =>
    rw [Step.trace_block]
    refine Trace.accountable_concat _ fun trace member => ?_
    obtain ⟨⟨tree, index⟩, numbered, rfl⟩ := List.mem_map.mp member
    have present : tree ∈ trees := by
      obtain ⟨_, _, same⟩ := List.mem_zipIdx numbered
      exact same ▸ List.getElem_mem _
    exact Trace.accountable_within _ _ (parts tree present (options.deeper levels)).own
  | token symbol label =>
    refine Trace.accountable_within _ _ ?_
    unfold Step.tokenEmission
    split
    · trivial
    · exact ⟨rfl, rfl⟩
  | unknown code => exact parts.elim
  | indent | innerIndent | text => exact Trace.accountable_within _ _ trivial

theorem Role.accountable (role : Role) (node : Node) :
    ∀ options, (role.trace node options).Accountable := by
  induction role, node using Role.induction_on_parts with
  | inherit role node parts =>
    intro options
    rw [role.trace_eq_plan node options]
    have inner := parts options
    cases planned : role.plan node options with
    | refuse reason => exact ⟨by simp [Plan.trace], rfl, rfl⟩
    | act actions =>
      rw [planned] at inner
      refine Trace.accountable_concat _ fun trace member => ?_
      obtain ⟨action, present, rfl⟩ := List.mem_map.mp member
      exact Step.accountable _ _ _ (inner action present)

private theorem trace_performRecords (scope : String) (options : Options)
    (records : List (Option StepRecord)) :
    (performRecords scope options records).trace =
      .concat (records.map fun
        | none => ⟨[], .malformed scope⟩
        | some record => record.toStep.trace scope options) := by
  simp only [performRecords, Emission.trace_all, List.map_map]
  congr 2
  funext record
  cases record <;> rfl

/-- How a list of records ends by itself: by its own doing, at a gap, or at a number that is
too long to be shown. -/
def RecordsEnd (scope : String) (records : List (Option StepRecord)) (ending : Ending) : Prop :=
  ending.OwnDoing ∨ ending = .malformed scope ∨
    (ending = .escaped .digitLimit ∧
      ∃ record, some record ∈ records ∧ Text.numeralBound ≤ record.code.natAbs)

private theorem RecordsEnd.cons {scope : String} {records : List (Option StepRecord)}
    {ending : Ending} (ends : RecordsEnd scope records ending) (first : Option StepRecord) :
    RecordsEnd scope (first :: records) ending := by
  rcases ends with own | gap | ⟨escaped, record, member, long⟩
  · exact .inl own
  · exact .inr (.inl gap)
  · exact .inr (.inr ⟨escaped, record, List.mem_cons_of_mem _ member, long⟩)

private theorem Step.accountable_of_known (scope : String) (options : Options) {step : Step Node}
    (known : ∀ code, step ≠ .unknown code) : (step.trace scope options).Accountable := by
  apply Step.accountable
  cases step with
  | part tree label levels => exact Role.expression.accountable tree
  | block trees label levels => exact fun tree _ => Role.statement.accountable tree
  | unknown code => exact absurd rfl (known code)
  | _ => trivial

private theorem StepRecord.trace_ends (scope : String) (options : Options) (record : StepRecord) :
    (∀ write ∈ (record.toStep.trace scope options).writes, write.path ≠ []) ∧
      ((record.toStep.trace scope options).ending.OwnDoing ∨
        (record.toStep.trace scope options).ending = .escaped .digitLimit ∧
          Text.numeralBound ≤ record.code.natAbs) := by
  by_cases unknown : ∃ code, record.toStep = .unknown code
  · obtain ⟨code, reached⟩ := unknown
    have same : record.code = code := by
      unfold toStep at reached
      grind
    rw [reached, Step.trace_unknown, same]
    refine ⟨by simp, ?_⟩
    cases shown : Text.numeral? code with
    | none => exact .inr ⟨rfl, (Text.numeral?_eq_none_iff code).mp shown⟩
    | some text => exact .inl ⟨rfl, rfl⟩
  · have accountable := Step.accountable_of_known scope options
      fun code same => unknown ⟨code, same⟩
    exact ⟨accountable.placed, .inl accountable.own⟩

private theorem performRecords_trace (scope : String) (options : Options)
    (records : List (Option StepRecord)) :
    (∀ write ∈ (performRecords scope options records).trace.writes, write.path ≠ []) ∧
      RecordsEnd scope records (performRecords scope options records).trace.ending := by
  simp only [trace_performRecords]
  induction records with
  | nil => exact ⟨by simp [Trace.nothing], .inl trivial⟩
  | cons record rest ih =>
    cases record with
    | none => exact ⟨by simp [Trace.append], .inr (.inl rfl)⟩
    | some record =>
      obtain ⟨placed, ends⟩ := record.trace_ends scope options
      simp only [List.map_cons, Trace.concat_cons]
      by_cases well : (record.toStep.trace scope options).ending = .done
      · rw [Trace.append_of_done well]
        refine ⟨fun write member => ?_, ih.2.cons _⟩
        rcases List.mem_append.mp member with early | late
        · exact placed write early
        · exact ih.1 write late
      · rw [Trace.append_of_not_done well]
        refine ⟨placed, ?_⟩
        rcases ends with own | ⟨escaped, long⟩
        · exact .inl own
        · exact .inr (.inr ⟨escaped, record, by simp, long⟩)

/-- On a machine an emission follows one trace, which ends as the emission does by itself or
with the error of a text that cannot be built. -/
private theorem Emission.follows_bounded_trace (emission : Emission)
    (placed : ∀ write ∈ emission.trace.writes, write.path ≠ []) :
    ∃ trace : Trace, emission.bounded.Follows trace ∧
      (trace.ending = emission.trace.ending ∨
        ∃ error, trace.ending = .escaped error ∧ emission.Overflows error) := by
  rcases emission.bounded_trace_cuts with same | ⟨early, late, error, split, overflows, cut⟩
  · refine ⟨_, Emission.follows_trace _ ?_, .inl (by rw [same])⟩
    rw [same]
    exact placed
  · refine ⟨_, Emission.follows_trace _ ?_, .inr ⟨error, by rw [cut], overflows⟩⟩
    rw [cut]
    intro write member
    exact placed write (by simp [split, member])

/-- A tree ends by its own doing, unless a text of it cannot be built. -/
theorem Role.follows_one_trace (role : Role) (node : Node) (options : Options) :
    ∃ trace : Trace, (role.emission node options).bounded.Follows trace ∧
      (trace.ending.OwnDoing ∨
        ∃ error, trace.ending = .escaped error ∧
          (role.emission node options).Overflows error) := by
  have accountable := role.accountable node options
  obtain ⟨trace, follows, ends⟩ := Emission.follows_bounded_trace _ accountable.placed
  refine ⟨trace, follows, ends.imp (fun same => ?_) id⟩
  rw [same]
  exact accountable.own

/-- Printing a node in either role, and performing any list of records, follows one
trace whatever the sink does. Trees end by their own doing; a list of records may also
end at a gap. Beyond that, a number of a record that is too long to be shown and a text
that cannot be built end a trace with an error that is not caught. -/
theorem printing_follows_one_trace (role : Role) (node : Node) (scope : String)
    (records : List (Option StepRecord)) (options : Options) :
    (∃ trace : Trace, (role.emission node options).bounded.Follows trace ∧
      (trace.ending.OwnDoing ∨
        ∃ error, trace.ending = .escaped error ∧
          (role.emission node options).Overflows error)) ∧
    ∃ trace : Trace, (performRecords scope options records).bounded.Follows trace ∧
      (RecordsEnd scope records trace.ending ∨
        ∃ error, trace.ending = .escaped error ∧
          (performRecords scope options records).Overflows error) := by
  constructor
  · exact role.follows_one_trace node options
  · obtain ⟨placed, recordsEnd⟩ := performRecords_trace scope options records
    obtain ⟨trace, follows, ends⟩ := Emission.follows_bounded_trace _ placed
    refine ⟨trace, follows, ends.imp (fun same => ?_) id⟩
    rw [same]
    exact recordsEnd

namespace Emission.Follows

variable {emission : Emission} {trace : Trace}

/-- A buffer refuses nothing, so its run shows the trace. -/
private theorem run_buffer (follows : emission.Follows trace) :
    ∃ final,
      emission.run Sink.buffer "" = ⟨trace.texts.map .accepted, final, trace.ending⟩ := by
  rcases follows Sink.buffer "" with ⟨final, _, ran⟩ | ⟨_, _, _, _, _, _, _, _, refused, _⟩
  · exact ⟨final, ran⟩
  · cases refused

private theorem eq_of_run_nothing (follows : emission.Follows trace) {error : ForeignError}
    (ran : emission.run Sink.buffer "" = ⟨[], "", .escaped error⟩) :
    trace = ⟨[], .escaped error⟩ := by
  obtain ⟨final, same⟩ := follows.run_buffer
  rw [ran] at same
  obtain ⟨nothing, _, ends⟩ := Run.mk.inj same
  obtain ⟨writes, ending⟩ := trace
  have unwritten : writes = [] := List.map_eq_nil_iff.mp (List.map_eq_nil_iff.mp nothing.symm)
  rw [unwritten, show ending = .escaped error from ends.symm]

end Emission.Follows

/-- An indentation past a machine word and a step whose number is too long to be shown end
their traces in no error of the printer's own, and so does an interrupt end a run. -/
theorem runs_that_end_unreported :
    let pass : Node := .branch (some .kwPass)
    let deep : Options := { depth := Options.wordBound, indent := "" }
    let interrupted : Sink Unit := ⟨fun _ _ => ((), some (.uncaught ⟨"KeyboardInterrupt", ""⟩))⟩
    (∃ trace, (Role.statement.emission pass deep).bounded.Follows trace ∧
      trace = ⟨[], .escaped
        ⟨"OverflowError", "cannot fit 'int' into an index-sized integer"⟩⟩) ∧
    (∃ trace, (performRecords "p" {} [some { code := Text.numeralBound }]).bounded.Follows trace ∧
      trace = ⟨[], .escaped .digitLimit⟩) ∧
    ∃ trace, (Role.statement.emission pass {}).bounded.Follows trace ∧ trace.ending = .done ∧
      (Role.statement.emission pass {}).bounded.run interrupted () =
        ⟨[.refused ""], (), .escaped ⟨"KeyboardInterrupt", ""⟩⟩ := by
  intro pass deep interrupted
  obtain ⟨⟨indented, followsIndented, _⟩, _⟩ :=
    printing_follows_one_trace .statement pass "p" [] deep
  obtain ⟨⟨passed, followsPassed, _⟩, unknown, followsUnknown, _⟩ :=
    printing_follows_one_trace .statement pass "p" [some { code := Text.numeralBound }] {}
  refine ⟨⟨indented, followsIndented, followsIndented.eq_of_run_nothing ?_⟩,
    ⟨unknown, followsUnknown, followsUnknown.eq_of_run_nothing ?_⟩, passed, followsPassed, ?_, ?_⟩
  · decide +kernel
  · decide +kernel
  · obtain ⟨final, same⟩ := followsPassed.run_buffer
    have done : ((Role.statement.emission pass {}).bounded.run Sink.buffer "").ending = .done := by
      decide +kernel
    rw [same] at done
    exact done
  · decide +kernel

end StarlarkPrinter
