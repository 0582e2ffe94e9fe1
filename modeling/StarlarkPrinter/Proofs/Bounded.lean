import StarlarkPrinter.Proofs.Trace

/-! Emissions on a machine, where a text that is too long cannot be built. Up to the first
such text an emission does as it does by itself; there it leaves with an error that nothing
catches. -/

namespace StarlarkPrinter

/-- A trace is another one, or it leaves before some of the writes of the other with one of
some errors. -/
def Trace.Cuts (errors : ForeignError → Prop) (cut whole : Trace) : Prop :=
  cut = whole ∨ ∃ early late error, whole.writes = early ++ late ∧ errors error ∧
    cut = ⟨early, .escaped error⟩

namespace Trace.Cuts

variable {errors others : ForeignError → Prop} {cut whole : Trace}

theorem imp (cuts : Cuts errors cut whole) (wider : ∀ error, errors error → others error) :
    Cuts others cut whole := by
  rcases cuts with same | ⟨early, late, error, split, raised, left⟩
  · exact .inl same
  · exact .inr ⟨early, late, error, split, wider error raised, left⟩

theorem within (cuts : Cuts errors cut whole) (crumb : Crumb) :
    Cuts errors (cut.within crumb) (whole.within crumb) := by
  rcases cuts with rfl | ⟨early, late, error, split, raised, rfl⟩
  · exact .inl rfl
  · refine .inr ⟨early.map (·.within crumb), late.map (·.within crumb), error, ?_, raised, rfl⟩
    rw [Trace.within, split, List.map_append]

theorem append {furtherCut furtherWhole : Trace} (first : Cuts errors cut whole)
    (second : Cuts errors furtherCut furtherWhole) :
    Cuts errors (cut.append furtherCut) (whole.append furtherWhole) := by
  rcases first with rfl | ⟨early, late, error, split, raised, rfl⟩
  · by_cases well : cut.ending = .done
    · rw [append_of_done well, append_of_done well]
      rcases second with rfl | ⟨early, late, error, split, raised, rfl⟩
      · exact .inl rfl
      · refine .inr ⟨cut.writes ++ early, late, error, ?_, raised, rfl⟩
        rw [split, List.append_assoc]
    · rw [append_of_not_done well, append_of_not_done well]
      exact .inl rfl
  -- Where the first trace is cut, nothing of the second one is reached.
  · by_cases well : whole.ending = .done
    · rw [append_of_done well]
      refine .inr ⟨early, late ++ furtherWhole.writes, error, ?_, raised, rfl⟩
      rw [split, List.append_assoc]
    · rw [append_of_not_done well]
      exact .inr ⟨early, late, error, split, raised, rfl⟩

end Trace.Cuts

namespace Emission

/-- The texts that an emission builds by repeating one, by count and unit. -/
def builds : Emission → List (Int × String)
  | .indentation count unit => [(count, unit)]
  | .margin width => [(width, " ")]
  | .andThen first second => first.builds ++ second.builds
  | .within _ body => body.builds
  | _ => []

/-- An error comes up in place of a text that an emission builds. -/
def Overflows (emission : Emission) (error : ForeignError) : Prop :=
  ∃ built ∈ emission.builds, Options.repeatError? built.1 built.2 = some error

/-- An error in place of an emission cuts all of its trace. -/
private theorem cuts_of_error? (error? : Option ForeignError) (emission : Emission) :
    Trace.Cuts (error? = some ·) (error?.elim emission .escape).trace emission.trace := by
  cases error? with
  | none => exact .inl rfl
  | some error => exact .inr ⟨[], emission.trace.writes, error, rfl, rfl, rfl⟩

/-- On a machine an emission does as it does by itself, or it leaves before some of the
writes with the error of a text that cannot be built. -/
theorem bounded_trace_cuts (emission : Emission) :
    Trace.Cuts emission.Overflows emission.bounded.trace emission.trace := by
  induction emission with
  | indentation count unit =>
    exact (cuts_of_error? _ _).imp fun error raised => ⟨(count, unit), by simp [builds], raised⟩
  | margin width =>
    exact (cuts_of_error? _ _).imp fun error raised => ⟨(width, " "), by simp [builds], raised⟩
  | within crumb body ih => exact ih.within crumb
  | andThen first second firstIh secondIh =>
    have inFirst (error : ForeignError) (overflows : first.Overflows error) :
        (first.andThen second).Overflows error := by
      obtain ⟨built, member, raised⟩ := overflows
      exact ⟨built, List.mem_append_left _ member, raised⟩
    have inSecond (error : ForeignError) (overflows : second.Overflows error) :
        (first.andThen second).Overflows error := by
      obtain ⟨built, member, raised⟩ := overflows
      exact ⟨built, List.mem_append_right _ member, raised⟩
    exact (firstIh.imp inFirst).append (secondIh.imp inSecond)
  | done | write | fail | malformed | escape => exact .inl rfl

/-- An emission whose texts can all be built is the same on a machine. -/
theorem bounded_trace_of_fits {emission : Emission} (fits : ∀ error, ¬ emission.Overflows error) :
    emission.bounded.trace = emission.trace := by
  rcases emission.bounded_trace_cuts with same | ⟨_, _, error, _, overflows, _⟩
  · exact same
  · exact absurd overflows (fits error)

/-- An emission that ends well on a machine has done all that it does by itself. -/
theorem bounded_trace_of_done {emission : Emission} (well : emission.bounded.trace.ending = .done) :
    emission.bounded.trace = emission.trace := by
  rcases emission.bounded_trace_cuts with same | ⟨_, _, _, _, _, cut⟩
  · exact same
  · rw [cut] at well
    cases well

end Emission

end StarlarkPrinter
