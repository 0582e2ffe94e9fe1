import StarlarkPrinter.Emission.Run
import StarlarkPrinter.Emission.Trace

namespace StarlarkPrinter

variable {σ : Type}

/-- Offer writes to a sink in order, and end with a given ending. -/
def Sink.replay (sink : Sink σ) (ending : Ending) : List Write → σ → Run σ
  | [], state => ⟨[], state, ending⟩
  | write :: rest, state =>
    match sink.offer state write.text with
    | (next, none) => (sink.replay ending rest next).precede (.accepted write.text)
    | (next, some complaint) =>
      ⟨[.refused write.text], next, complaint.ending.along write.path⟩

namespace Sink

private theorem give_eq_replay (sink : Sink σ) (text : String) (state : σ) :
    sink.give text state = sink.replay .done [{ text }] state := by
  rw [give, replay]
  cases sink.offer state text with
  | mk next complaint => cases complaint <;> rfl

private theorem replay_append (sink : Sink σ) (ending : Ending) (first second : List Write)
    (state : σ) :
    sink.replay ending (first ++ second) state =
      (sink.replay .done first state).andThen (sink.replay ending second) := by
  induction first generalizing state with
  | nil => simp [replay, Run.andThen]
  | cons write rest ih =>
    simp only [List.cons_append, replay]
    obtain ⟨next, complaint⟩ := sink.offer state write.text
    cases complaint with
    | some complaint => exact (Run.andThen_of_stopped (complaint.along_ne_done _) _).symm
    | none =>
      simp only [ih]
      exact (Run.andThen_precede _ _ _).symm

/-- A replay that cannot end well stays as it is, whatever would come after. -/
private theorem replay_andThen (sink : Sink σ) (ending : Ending) (stops : ending ≠ .done)
    (writes : List Write) (state : σ) (next : σ → Run σ) :
    (sink.replay ending writes state).andThen next = sink.replay ending writes state := by
  induction writes generalizing state with
  | nil => exact Run.andThen_of_stopped stops next
  | cons write rest ih =>
    simp only [replay]
    obtain ⟨following, complaint⟩ := sink.offer state write.text
    cases complaint with
    | some complaint => exact Run.andThen_of_stopped (complaint.along_ne_done _) next
    | none => simp only [Run.andThen_precede, ih]

private theorem replay_within (sink : Sink σ) (ending : Ending) (crumb : Crumb)
    (writes : List Write) (state : σ) :
    sink.replay (ending.within crumb) (writes.map (·.within crumb)) state =
      (sink.replay ending writes state).within crumb := by
  induction writes generalizing state with
  | nil => rfl
  | cons write rest ih =>
    have sameText : (write.within crumb).text = write.text := rfl
    simp only [List.map_cons, replay, sameText]
    obtain ⟨next, complaint⟩ := sink.offer state write.text
    cases complaint with
    | some complaint => rfl
    | none => simp only [ih, Run.within_precede]

end Sink

/-- Running an emission replays its trace. -/
theorem Emission.run_eq_replay (sink : Sink σ) (emission : Emission) (state : σ) :
    emission.run sink state = sink.replay emission.trace.ending emission.trace.writes state := by
  induction emission generalizing state with
  | done | margin | fail | malformed | escape => rfl
  | write text => exact Sink.give_eq_replay sink text state
  | indentation count unit => exact Sink.give_eq_replay sink _ state
  | within crumb body ih =>
    simp only [run, trace, Trace.within, ih, Sink.replay_within]
  | andThen first second firstRun secondRun =>
    have after : second.run sink =
        sink.replay second.trace.ending second.trace.writes := funext secondRun
    simp only [run, trace, Trace.append, firstRun, after]
    cases reached : first.trace.ending with
    | done => exact (Sink.replay_append sink _ _ _ state).symm
    | failed | malformed | escaped =>
      simp only [reached]
      exact Sink.replay_andThen sink _ (by simp) _ state _

private theorem Sink.replay_buffer (ending : Ending) (writes : List Write) (content : String) :
    Sink.buffer.replay ending writes content =
      ⟨writes.map (.accepted ·.text), content ++ String.join (writes.map (·.text)), ending⟩ := by
  induction writes generalizing content with
  | nil => simp [replay]
  | cons write rest ih =>
    have takes : buffer.offer content write.text = (content ++ write.text, none) := rfl
    simp [replay, takes, ih, Run.precede, String.append_assoc]

/-- The buffer takes every text of the trace, and keeps all of them together. -/
theorem Emission.run_buffer (emission : Emission) (content : String) :
    emission.run Sink.buffer content =
      ⟨emission.trace.writes.map (.accepted ·.text), content ++ emission.trace.text,
        emission.trace.ending⟩ := by
  rw [run_eq_replay, Sink.replay_buffer, Trace.text]

end StarlarkPrinter
