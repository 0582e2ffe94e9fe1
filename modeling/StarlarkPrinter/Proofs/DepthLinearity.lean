import Mathlib.Data.List.Forall2
import StarlarkPrinter.Proofs.Breadcrumbs
import StarlarkPrinter.Proofs.LineShift

/-! Depth moves indentations and nothing else. Some levels deeper a tree makes the same
writes at the same places and ends in the same way, whether or not it renders. Only the
indentations are longer, all by the same number of levels. The two printings are compared
write by write, so a write that is refused is reported alike at either depth. -/

namespace StarlarkPrinter

def Crumb.isIndent : Crumb → Bool
  | .indent _ => true
  | _ => false

/-- Whether a write is an indentation: the innermost place on its path is one. -/
def Write.isIndentation (write : Write) : Bool :=
  write.path.getLast?.any Crumb.isIndent

def Trace.indentations (trace : Trace) : List Bool :=
  trace.writes.map Write.isIndentation

namespace Trace

variable {trace : Trace} {index : Nat} {write : Write}

theorem length_indentations (trace : Trace) : trace.indentations.length = trace.texts.length := by
  simp [indentations, texts]

theorem indentation_at (found : trace.writes[index]? = some write) :
    trace.indentations[index]? = some write.isIndentation := by
  simp [indentations, found]

theorem text_at (found : trace.writes[index]? = some write) :
    trace.texts[index]? = some write.text := by
  simp [texts, found]

end Trace

/-- A place that is no indentation does not make one of what is written in it. -/
theorem Write.isIndentation_within {crumb : Crumb} (inside : crumb.isIndent = false)
    (write : Write) : (write.within crumb).isIndentation = write.isIndentation := by
  obtain ⟨text, path⟩ := write
  cases path with
  | nil => simp [isIndentation, within, inside]
  | cons inner rest =>
    rw [isIndentation, within, List.getLast?_cons_of_ne_nil (List.cons_ne_nil inner rest),
      isIndentation]

/-- A write under some options and the same write some levels deeper. -/
structure Write.Moves (options : Options) (levels : Nat) (plain moved : Write) : Prop where
  path : moved.path = plain.path
  text : plain.isIndentation = false → moved.text = plain.text
  indentation : plain.isIndentation = true → ∃ count, options.depth ≤ count ∧
    plain.text = String.join (List.replicate count options.indent) ∧
    moved.text = String.join (List.replicate (count + levels) options.indent)

namespace Write.Moves

variable {options : Options} {levels : Nat} {plain moved : Write}

theorem refl {write : Write} (other : write.isIndentation = false) :
    Moves options levels write write where
  path := rfl
  text _ := rfl
  indentation indented := by simp [other] at indented

theorem isIndentation_eq (moves : Moves options levels plain moved) :
    moved.isIndentation = plain.isIndentation := by
  rw [isIndentation, moves.path, isIndentation]

theorem within {crumb : Crumb} (inside : crumb.isIndent = false)
    (moves : Moves options levels plain moved) :
    Moves options levels (plain.within crumb) (moved.within crumb) where
  path := congrArg (crumb :: ·) moves.path
  text other := moves.text (by rwa [isIndentation_within inside] at other)
  indentation indented := moves.indentation (by rwa [isIndentation_within inside] at indented)

/-- What is moved further inside is moved. -/
theorem outward {inner : Nat} (moves : Moves (options.deeper inner) levels plain moved) :
    Moves options levels plain moved where
  path := moves.path
  text := moves.text
  indentation indented := by
    obtain ⟨count, deep, same, further⟩ := moves.indentation indented
    exact ⟨count, Nat.le_trans (Nat.le_add_right options.depth inner) deep, same, further⟩

end Write.Moves

/-- A trace under some options and the same trace some levels deeper: it ends alike, and the
writes are moved one by one. -/
structure Trace.Moves (options : Options) (levels : Nat) (plain moved : Trace) : Prop where
  ending : moved.ending = plain.ending
  writes : List.Forall₂ (Write.Moves options levels) plain.writes moved.writes

namespace Trace.Moves

variable {options : Options} {levels : Nat} {plain moved : Trace}

theorem refl {trace : Trace} (other : ∀ write ∈ trace.writes, write.isIndentation = false) :
    Moves options levels trace trace :=
  ⟨rfl, List.forall₂_same.mpr fun write member => .refl (other write member)⟩

theorem append {furtherPlain furtherMoved : Trace} (first : Moves options levels plain moved)
    (second : Moves options levels furtherPlain furtherMoved) :
    Moves options levels (plain.append furtherPlain) (moved.append furtherMoved) := by
  by_cases well : plain.ending = .done
  · have movedWell : moved.ending = .done := first.ending.trans well
    rw [append_of_done well, append_of_done movedWell]
    exact ⟨second.ending, List.rel_append first.writes second.writes⟩
  · have movedStops : moved.ending ≠ .done := fun done => well (first.ending.symm.trans done)
    rw [append_of_not_done well, append_of_not_done movedStops]
    exact first

/-- Traces that are moved one by one are moved together. -/
theorem concat_map {α : Type} {items : List α} {plain moved : α → Trace}
    (each : ∀ item ∈ items, Moves options levels (plain item) (moved item)) :
    Moves options levels (concat (items.map plain)) (concat (items.map moved)) := by
  induction items with
  | nil => exact refl (by simp [nothing])
  | cons item rest ih =>
    obtain ⟨first, further⟩ := List.forall_mem_cons.mp each
    exact first.append (ih further)

theorem within {crumb : Crumb} (inside : crumb.isIndent = false)
    (moves : Moves options levels plain moved) :
    Moves options levels (plain.within crumb) (moved.within crumb) := by
  refine ⟨congrArg (Ending.within crumb) moves.ending, ?_⟩
  apply List.forall₂_map_left_iff.mpr
  apply List.forall₂_map_right_iff.mpr
  exact moves.writes.imp fun _ _ write => write.within inside

theorem outward {inner : Nat} (moves : Moves (options.deeper inner) levels plain moved) :
    Moves options levels plain moved :=
  ⟨moves.ending, moves.writes.imp fun _ _ write => write.outward⟩

theorem indentation (options : Options) (levels extra : Nat) (scope : String) :
    Moves options levels ⟨[⟨options.indentation extra, [.indent scope]⟩], .done⟩
      ⟨[⟨(options.deeper levels).indentation extra, [.indent scope]⟩], .done⟩ := by
  refine ⟨rfl, .cons ⟨rfl, ?_, ?_⟩ .nil⟩
  · intro other
    cases other
  · intro _
    have count : ((options.deeper levels).depth + (extra : Int)).toNat =
        options.depth + extra + levels := by
      simp only [Options.deeper]
      omega
    refine ⟨options.depth + extra, Nat.le_add_right _ _, ?_, ?_⟩
    · exact Options.repeated_eq_join _ _
    · rw [Options.indentation, count]
      exact Options.repeated_eq_join _ _

theorem indentations_eq (moves : Moves options levels plain moved) :
    moved.indentations = plain.indentations := by
  have same : List.Forall₂ (· = ·) moved.indentations plain.indentations := by
    apply List.forall₂_map_left_iff.mpr
    apply List.forall₂_map_right_iff.mpr
    exact moves.writes.flip.imp fun _ _ write => write.isIndentation_eq
  rwa [List.forall₂_eq_eq_eq] at same

theorem length_texts (moves : Moves options levels plain moved) :
    moved.texts.length = plain.texts.length := by
  rw [texts, texts, List.length_map, List.length_map]
  exact moves.writes.length_eq.symm

/-- What is written at a turn is written there some levels deeper. -/
theorem at_turn (moves : Moves options levels plain moved) {index : Nat} {write : Write}
    (found : plain.writes[index]? = some write) :
    ∃ other, moved.writes[index]? = some other ∧ Write.Moves options levels write other := by
  obtain ⟨within, rfl⟩ := List.getElem?_eq_some_iff.mp found
  have movedWithin : index < moved.writes.length := moves.writes.length_eq ▸ within
  exact ⟨_, List.getElem?_eq_getElem movedWithin, moves.writes.get within movedWithin⟩

end Trace.Moves

/-- Some levels deeper a node is printed alike but for its indentations. -/
def Role.Moves (role : Role) (node : Node) : Prop :=
  ∀ (options : Options) (levels : Nat),
    Trace.Moves options levels (role.trace node options)
      (role.trace node (options.deeper levels))

/-- A part that a step takes some levels down is moved with the step. -/
theorem Role.Moves.inner {role : Role} {node : Node} (moves : role.Moves node)
    (options : Options) (inner levels : Nat) :
    Trace.Moves options levels (role.trace node (options.deeper inner))
      (role.trace node ((options.deeper levels).deeper inner)) := by
  rw [options.deeper_comm levels inner]
  exact (moves (options.deeper inner) levels).outward

theorem Step.moves_trace {step : Step Node} (parts : step.Every Role.Moves) (scope : String)
    (options : Options) (levels : Nat) :
    Trace.Moves options levels (step.trace scope options)
      (step.trace scope (options.deeper levels)) := by
  cases step with
  | part tree label inner => exact (Role.Moves.inner parts options inner levels).within rfl
  | block trees label inner =>
    rw [trace_block, trace_block]
    apply Trace.Moves.concat_map
    rintro ⟨tree, index⟩ numbered
    have member := List.fst_mem_of_mem_zipIdx numbered
    exact ((parts tree member).inner options inner levels).within rfl
  | indent => exact .indentation options levels 0 scope
  | innerIndent => exact .indentation options levels 1 scope
  | token symbol label =>
    apply Trace.Moves.within rfl
    apply Trace.Moves.refl
    unfold tokenEmission
    split <;> simp [Emission.trace, Write.isIndentation]
  | text content label => exact .refl (by simp [trace_text, Write.isIndentation, Crumb.isIndent])
  | unknown code => exact parts.elim

/-- Printing deeper moves indentations, for every node in either role. -/
theorem Role.moves (role : Role) (node : Node) : role.Moves node := by
  induction role, node using Role.induction_on_parts with
  | inherit role node parts =>
    intro options levels
    rw [role.trace_eq_plan, role.trace_eq_plan, role.plan_deeper]
    have inner := parts options
    -- The depth is not read by the plan, so both printings take the same actions.
    cases planned : role.plan node options with
    | refuse reason => exact .refl (by simp [Plan.trace])
    | act actions =>
      rw [planned] at inner
      exact .concat_map fun action member =>
        Step.moves_trace (inner action member) action.scope options levels

/-- An indentation is the indent, repeated at least as often as the depth says. -/
theorem Role.text_of_indentation (role : Role) {node : Node} {options : Options} {write : Write}
    (member : write ∈ (role.trace node options).writes) (indented : write.isIndentation = true) :
    ∃ count, options.depth ≤ count ∧
      write.text = String.join (List.replicate count options.indent) := by
  obtain ⟨index, found⟩ := List.mem_iff_getElem?.mp member
  obtain ⟨_, _, moves⟩ := (role.moves node options 0).at_turn found
  obtain ⟨count, deep, same, _⟩ := moves.indentation indented
  exact ⟨count, deep, same⟩

/-- A sink that refuses one call ends the run with the path of the write offered then. -/
theorem Emission.ending_of_refused_call (emission : Emission) {index : Nat} {write : Write}
    (found : emission.trace.writes[index]? = some write) (complaint : Refusal) :
    (emission.run ((Fault.call (index + 1 : Nat)).sink complaint) {}).ending =
      .failed ((RenderError.ofRefusal complaint).along write.path) := by
  obtain ⟨within, rfl⟩ := List.getElem?_eq_some_iff.mp found
  have split : emission.trace.writes = emission.trace.writes.take index ++
      emission.trace.writes[index] :: emission.trace.writes.drop (index + 1) := by
    rw [List.getElem_cons_drop, List.take_append_drop]
  have turn : (emission.trace.writes.take index).length = index :=
    List.length_take_of_le (Nat.le_of_lt within)
  have replayed := Fault.replay_call complaint emission.trace.ending
    (emission.trace.writes.take index) (emission.trace.writes.drop (index + 1))
    emission.trace.writes[index] {}
  rw [← split, turn, show FaultCount.calls {} = 0 from rfl, Nat.zero_add] at replayed
  rw [emission.run_eq_replay]
  exact replayed

end StarlarkPrinter
