import StarlarkPrinter.Emission.Replay

namespace StarlarkPrinter

namespace Trace

/-- The trace that writes nothing and ends well. -/
def nothing : Trace := ⟨[], .done⟩

@[simp]
theorem nothing_append (trace : Trace) : nothing.append trace = trace := rfl

@[simp]
theorem append_nothing (trace : Trace) : trace.append nothing = trace := by
  obtain ⟨writes, ending⟩ := trace
  cases ending <;> simp [append, nothing]

theorem append_of_done {first : Trace} (well : first.ending = .done) (second : Trace) :
    first.append second = ⟨first.writes ++ second.writes, second.ending⟩ := by
  simp [append, well]

theorem append_of_not_done {first : Trace} (stopped : first.ending ≠ .done) (second : Trace) :
    first.append second = first := by
  obtain ⟨writes, ending⟩ := first
  cases ending with
  | done => exact absurd rfl stopped
  | failed | malformed | escaped => rfl

theorem append_assoc (first second third : Trace) :
    (first.append second).append third = first.append (second.append third) := by
  by_cases well : first.ending = .done
  · by_cases further : second.ending = .done
    · simp [append, well, further]
    · have stopped : (Trace.mk (first.writes ++ second.writes) second.ending).ending ≠ .done :=
        further
      rw [append_of_not_done further, append_of_done well, append_of_not_done stopped]
  · simp only [append_of_not_done well]

theorem append_ending_iff (first second : Trace) :
    (first.append second).ending = .done ↔ first.ending = .done ∧ second.ending = .done := by
  by_cases well : first.ending = .done
  · simp [append_of_done well, well]
  · simp [append_of_not_done well, well]

/-- Traces one after the other, up to the first that does not end well. -/
def concat (traces : List Trace) : Trace :=
  traces.foldr append nothing

@[simp]
theorem concat_nil : concat [] = nothing := rfl

@[simp]
theorem concat_cons (trace : Trace) (rest : List Trace) :
    concat (trace :: rest) = trace.append (concat rest) := rfl

theorem concat_append (first second : List Trace) :
    concat (first ++ second) = (concat first).append (concat second) := by
  induction first with
  | nil => rfl
  | cons trace rest ih => simp only [List.cons_append, concat_cons, ih, append_assoc]

/-- A concatenation ends well exactly if each of its traces does. -/
theorem concat_ending_iff (traces : List Trace) :
    (concat traces).ending = .done ↔ ∀ trace ∈ traces, trace.ending = .done := by
  induction traces with
  | nil => simp [nothing]
  | cons trace rest ih => simp [append_ending_iff, ih]

theorem concat_writes (traces : List Trace) (well : ∀ trace ∈ traces, trace.ending = .done) :
    (concat traces).writes = traces.flatMap (·.writes) := by
  induction traces with
  | nil => rfl
  | cons trace rest ih =>
    have first := well trace (by simp)
    have further := ih fun other member => well other (by simp [member])
    simp [append_of_done first, further]

@[simp]
theorem within_ending_iff (crumb : Crumb) (trace : Trace) :
    (trace.within crumb).ending = .done ↔ trace.ending = .done := by
  obtain ⟨writes, ending⟩ := trace
  cases ending <;> simp [within, Ending.within]

def texts (trace : Trace) : List String :=
  trace.writes.map (·.text)

@[simp]
theorem texts_within (crumb : Crumb) (trace : Trace) :
    (trace.within crumb).texts = trace.texts := by
  simp [texts, within, Write.within]

theorem texts_concat {traces : List Trace} (well : ∀ trace ∈ traces, trace.ending = .done) :
    (concat traces).texts = traces.flatMap texts := by
  rw [texts, concat_writes traces well, List.map_flatMap]
  rfl

end Trace

/-- A sink that takes every text, whatever it has seen. -/
def Sink.Obliging {σ : Type} (sink : Sink σ) : Prop :=
  ∀ state text, (sink.offer state text).2 = none

theorem Sink.buffer_obliging : Sink.buffer.Obliging := fun _ _ => rfl

private theorem Sink.replay_of_obliging {σ : Type} (sink : Sink σ) (obliging : sink.Obliging)
    (ending : Ending) (writes : List Write) (start : σ) :
    (sink.replay ending writes start).ending = ending ∧
      (sink.replay ending writes start).accepted = writes.map (·.text) := by
  induction writes generalizing start with
  | nil => exact ⟨rfl, rfl⟩
  | cons write rest ih =>
    have taken : sink.offer start write.text = ((sink.offer start write.text).1, none) :=
      Prod.ext rfl (obliging start write.text)
    obtain ⟨endsSame, acceptsSame⟩ := ih (sink.offer start write.text).1
    rw [replay, taken]
    refine ⟨endsSame, ?_⟩
    rw [List.map_cons, ← acceptsSame]
    rfl

/-- Against a sink that takes everything, a run ends as the trace does and has the
texts of the trace accepted. -/
theorem Emission.run_of_obliging {σ : Type} (sink : Sink σ) (obliging : sink.Obliging)
    (emission : Emission) (start : σ) :
    (emission.run sink start).ending = emission.trace.ending ∧
      (emission.run sink start).accepted = emission.trace.texts := by
  rw [emission.run_eq_replay sink start]
  exact sink.replay_of_obliging obliging _ _ start

theorem Emission.trace_all (emissions : List Emission) :
    (Emission.all emissions).trace = .concat (emissions.map Emission.trace) := by
  induction emissions with
  | nil => rfl
  | cons emission rest ih => simp [all, trace, ih]

end StarlarkPrinter
