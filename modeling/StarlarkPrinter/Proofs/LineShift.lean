import StarlarkPrinter.Proofs.Chars
import StarlarkPrinter.Proofs.Path
import StarlarkPrinter.Proofs.Payload

/-! Printing deeper shifts lines. A statement printed some levels deeper is the same text
with a margin in front of every line that is not empty. The two printings are compared
step by step: as long as both are at the same place of a line, a step leads both to the
same place again, and only at the start of a line does an indentation add the margin. -/

namespace StarlarkPrinter

namespace Text

/-- The lines of a text: what stands before, between and after its line feeds. -/
def lines (text : List Char) : List (List Char) :=
  (splitLines text).1 :: (splitLines text).2

/-- A line behind a margin. An empty line stays empty. -/
def shiftLine (margin line : List Char) : List Char :=
  if line.isEmpty then [] else margin ++ line

/-- A text with a margin in front of every line that is not empty. -/
def shiftLines (margin text : List Char) : List Char :=
  ['\n'].intercalate ((lines text).map (shiftLine margin))

/-- Lines that each end in a line feed. -/
def endLines (lines : List (List Char)) : List Char :=
  lines.flatMap (· ++ ['\n'])

theorem lines_newline (rest : List Char) : lines ('\n' :: rest) = [] :: lines rest := rfl

theorem lines_cons {char : Char} (inside : char ≠ '\n') (rest : List Char) :
    lines (char :: rest) = (char :: (splitLines rest).1) :: (splitLines rest).2 := by
  simp only [lines, splitLines]

theorem lines_endLine {line : List Char} (whole : '\n' ∉ line) (rest : List Char) :
    lines (line ++ '\n' :: rest) = line :: lines rest := by
  induction line with
  | nil => rfl
  | cons char line ih =>
    obtain ⟨inside, further⟩ := not_or.mp (mt List.mem_cons.mpr whole)
    have split := ih further
    simp only [lines, List.cons.injEq] at split
    rw [List.cons_append, lines_cons (Ne.symm inside), split.1, split.2]
    rfl

theorem not_mem_lines (text : List Char) : ∀ line ∈ lines text, '\n' ∉ line := by
  induction text with
  | nil => simp [lines, splitLines]
  | cons char rest ih =>
    by_cases breaks : char = '\n'
    · subst breaks
      rw [lines_newline, List.forall_mem_cons]
      exact ⟨by simp, ih⟩
    · rw [lines_cons breaks, List.forall_mem_cons]
      obtain ⟨first, further⟩ := List.forall_mem_cons.mp ih
      exact ⟨by simp [Ne.symm breaks, first], further⟩

theorem dropSpaces?_suffix {width : Nat} {line rest : List Char}
    (found : dropSpaces? width line = some rest) : rest <:+ line := by
  fun_induction dropSpaces? width line with
  | case1 line =>
    cases found
    exact List.suffix_refl _
  | case2 width line ih => exact (ih found).trans (List.suffix_cons _ _)
  | case3 => cases found

theorem stripSpaces_suffix (width : Nat) (line : List Char) : stripSpaces width line <:+ line := by
  unfold stripSpaces
  cases found : dropSpaces? width line with
  | none => exact List.suffix_refl _
  | some rest => exact dropSpaces?_suffix found

/-- Shifting a text of whole lines shifts each of them. -/
theorem shiftLines_endLines (margin : List Char) (rows : List (List Char))
    (whole : ∀ line ∈ rows, '\n' ∉ line) :
    shiftLines margin (endLines rows) = endLines (rows.map (shiftLine margin)) := by
  induction rows with
  | nil => rfl
  | cons line rest ih =>
    have further := ih fun other member => whole other (by simp [member])
    have first : lines (endLines (line :: rest)) = line :: lines (endLines rest) := by
      simpa [endLines] using lines_endLine (whole line (by simp)) (endLines rest)
    rw [shiftLines, lines, List.map_cons] at further
    rw [shiftLines, first, lines, List.map_cons, List.map_cons, List.intercalate_cons_cons, further]
    simp [endLines]

end Text

/-- Where a printing stands in its line: at the start, behind the indentation, or behind
something that is written in the line. -/
inductive Cursor where
  | lineStart | indented | inLine
deriving DecidableEq, Repr

/-- Two printings stand at the same place of the same lines, and one has a margin in front
of its lines. A line gets its margin with its indentation, so an empty line has none. -/
inductive Aligned (margin : List Char) : Cursor → List Char → List Char → Prop where
  | start : Aligned margin .lineStart [] []
  | emptyLine {plain moved : List Char} (before : Aligned margin .lineStart plain moved) :
      Aligned margin .lineStart (plain ++ ['\n']) (moved ++ ['\n'])
  | indent {plain moved indentation : List Char} (before : Aligned margin .lineStart plain moved)
      (inside : '\n' ∉ indentation) :
      Aligned margin .indented (plain ++ indentation) (moved ++ (margin ++ indentation))
  | write {place : Cursor} {plain moved : List Char} {char : Char}
      (before : Aligned margin place plain moved) (opened : place ≠ .lineStart)
      (inside : char ≠ '\n') : Aligned margin .inLine (plain ++ [char]) (moved ++ [char])
  | endLine {plain moved : List Char} (before : Aligned margin .inLine plain moved) :
      Aligned margin .lineStart (plain ++ ['\n']) (moved ++ ['\n'])

namespace Aligned

variable {margin : List Char} {place : Cursor} {plain moved : List Char}

/-- The line that a printing is in, and what the shifted printing has of it. -/
private def OfLine (margin : List Char) : Cursor → List Char → List Char → Prop
  | .lineStart, line, shown => line = [] ∧ shown = []
  | .indented, line, shown => shown = margin ++ line
  | .inLine, line, shown => line ≠ [] ∧ shown = margin ++ line

/-- Behind the lines that are finished both printings are in the same line. -/
private theorem exists_lines (aligned : Aligned margin place plain moved) :
    ∃ rows line shown, (∀ row ∈ rows, '\n' ∉ row) ∧ '\n' ∉ line ∧ OfLine margin place line shown ∧
      plain = Text.endLines rows ++ line ∧
      moved = Text.endLines (rows.map (Text.shiftLine margin)) ++ shown := by
  induction aligned with
  | start => exact ⟨[], [], [], by simp, by simp, ⟨rfl, rfl⟩, rfl, rfl⟩
  | emptyLine before ih =>
    obtain ⟨rows, line, shown, whole, _, ⟨rfl, rfl⟩, rfl, rfl⟩ := ih
    refine ⟨rows ++ [[]], [], [], ?_, by simp, ⟨rfl, rfl⟩, ?_, ?_⟩
    · simpa [or_imp, forall_and] using whole
    · simp [Text.endLines]
    · simp [Text.endLines, Text.shiftLine]
  | @indent _ _ indentation before inside ih =>
    obtain ⟨rows, line, shown, whole, _, ⟨rfl, rfl⟩, rfl, rfl⟩ := ih
    exact ⟨rows, indentation, margin ++ indentation, whole, inside, rfl, by simp, by simp⟩
  | @write place _ _ char before opened inside ih =>
    obtain ⟨rows, line, shown, whole, within, current, rfl, rfl⟩ := ih
    have shows : shown = margin ++ line := by
      cases place with
      | lineStart => exact absurd rfl opened
      | indented => exact current
      | inLine => exact current.2
    refine ⟨rows, line ++ [char], shown ++ [char], whole, ?_, ⟨by simp, by simp [shows]⟩, ?_, ?_⟩
    · simpa [Ne.symm inside] using within
    · simp
    · simp
  | endLine before ih =>
    obtain ⟨rows, line, shown, whole, within, ⟨present, rfl⟩, rfl, rfl⟩ := ih
    refine ⟨rows ++ [line], [], [], ?_, by simp, ⟨rfl, rfl⟩, ?_, ?_⟩
    · simp only [List.forall_mem_append, List.forall_mem_singleton]
      exact ⟨whole, within⟩
    · simp [Text.endLines]
    · simp [Text.endLines, Text.shiftLine, present]

/-- Two printings that have finished their lines differ by a shift. -/
theorem eq_shiftLines (aligned : Aligned margin .lineStart plain moved) :
    moved = Text.shiftLines margin plain := by
  obtain ⟨rows, line, shown, whole, _, ⟨rfl, rfl⟩, rfl, rfl⟩ := aligned.exists_lines
  rw [List.append_nil, List.append_nil, Text.shiftLines_endLines margin rows whole]

/-- A printing at the start of a line has ended the one before. -/
theorem ends (aligned : Aligned margin .lineStart plain moved) :
    plain = [] ∨ plain.getLast? = some '\n' := by
  cases aligned with
  | start => exact .inl rfl
  | emptyLine before => exact .inr (by simp)
  | endLine before => exact .inr (by simp)

theorem writeAll (aligned : Aligned margin place plain moved) (opened : place ≠ .lineStart)
    {chars : List Char} (present : chars ≠ []) (inside : '\n' ∉ chars) :
    Aligned margin .inLine (plain ++ chars) (moved ++ chars) := by
  induction chars generalizing place plain moved with
  | nil => exact absurd rfl present
  | cons char rest ih =>
    obtain ⟨notBreak, further⟩ := not_or.mp (mt List.mem_cons.mpr inside)
    have first : Aligned margin .inLine (plain ++ [char]) (moved ++ [char]) :=
      aligned.write opened (Ne.symm notBreak)
    cases rest with
    | nil => exact first
    | cons next others =>
      have all := ih first (by decide) (by simp) further
      simpa using all

end Aligned

namespace Options

def margin (options : Options) (levels : Nat) : List Char :=
  (repeated levels options.indent).toList

/-- The options break a line only where a line feed is written: the indentation has none,
and tuples, which have no brackets of their own, stay on one line. -/
structure KeepLines (options : Options) : Prop where
  indent : '\n' ∉ options.indent.toList
  tuple : options.tuple.lineBreak = .never

theorem KeepLines.deeper {options : Options} (keep : options.KeepLines) (levels : Nat) :
    (options.deeper levels).KeepLines := ⟨keep.indent, keep.tuple⟩

theorem deeper_comm (options : Options) (first second : Nat) :
    (options.deeper first).deeper second = (options.deeper second).deeper first := by
  rw [deeper_deeper, deeper_deeper, Nat.add_comm]

theorem toList_repeated (count : Nat) (text : String) :
    (repeated count text).toList = (List.replicate count text.toList).flatten := by
  rw [repeated_eq_join, String.toList_join, List.flatMap_replicate]

/-- An indentation some levels deeper has the margin in front. -/
theorem toList_indentation_deeper (options : Options) (levels extra : Nat) :
    ((options.deeper levels).indentation extra).toList =
      options.margin levels ++ (options.indentation extra).toList := by
  have counts : ((options.deeper levels).depth + (extra : Int)).toNat =
      levels + (options.depth + (extra : Int)).toNat := by
    simp only [deeper]
    omega
  rw [indentation, counts, toList_repeated, ← List.replicate_append_replicate,
    List.flatten_append, indentation, margin, toList_repeated, toList_repeated]
  rfl

theorem KeepLines.not_mem_indentation {options : Options} (keep : options.KeepLines)
    (extra : Int) : '\n' ∉ (options.indentation extra).toList := by
  intro member
  rw [indentation, repeated_eq_join, String.toList_join, List.mem_flatMap] at member
  obtain ⟨unit, copied, inside⟩ := member
  rw [List.eq_of_mem_replicate copied] at inside
  exact keep.indent inside

/-- Printing a text under options and some levels deeper leads aligned printings from one
place to another. -/
def Carries (options : Options) (levels : Nat) (source target : Cursor)
    (text : Options → List Char) : Prop :=
  ∀ plain moved, Aligned (options.margin levels) source plain moved →
    Aligned (options.margin levels) target (plain ++ text options)
      (moved ++ text (options.deeper levels))

variable {options : Options} {levels : Nat}

theorem Carries.nothing (place : Cursor) : options.Carries levels place place fun _ => [] := by
  intro plain moved aligned
  simpa using aligned

theorem Carries.append {source middle target : Cursor} {first second : Options → List Char}
    (before : options.Carries levels source middle first)
    (after : options.Carries levels middle target second) :
    options.Carries levels source target fun options => first options ++ second options := by
  intro plain moved aligned
  have both := after _ _ (before _ _ aligned)
  simpa using both

/-- A part that is printed deeper in both printings is carried as it is by itself. -/
theorem Carries.inner {inner : Nat} {source target : Cursor} {text : Options → List Char}
    (carried : (options.deeper inner).Carries levels source target text) :
    options.Carries levels source target fun options => text (options.deeper inner) := by
  intro plain moved aligned
  have both := carried plain moved aligned
  rw [options.deeper_comm inner levels] at both
  exact both

theorem Carries.written {place : Cursor} (opened : place ≠ .lineStart) {chars : List Char}
    (present : chars ≠ []) (inside : '\n' ∉ chars) :
    options.Carries levels place .inLine fun _ => chars :=
  fun _ _ aligned => aligned.writeAll opened present inside

end Options

/-- An expression leads from behind the indentation, or from within a line, into the line;
a statement leads from the start of a line to the start of another. -/
def Role.Shifts : Role → Node → Prop
  | .expression, node => ∀ (options : Options) (levels : Nat) (place : Cursor),
    options.KeepLines → place ≠ .lineStart → options.Carries levels place .inLine node.chars
  | .statement, node => ∀ (options : Options) (levels : Nat),
    options.KeepLines →
      options.Carries levels .lineStart .lineStart (Role.statement.chars node)

namespace Step

/-- The place that a step leads to, if it may be taken at a place: a line starts with an
indentation, nothing but an indentation stands behind a line feed, and no line feed stands
behind an indentation. -/
def next : Step Node → Cursor → Option Cursor
  | .indent, place | .innerIndent, place =>
    if place = .lineStart then some .indented else none
  | .block _ _ _, place => if place = .lineStart then some .lineStart else none
  | .part _ _ _, place => if place = .lineStart then none else some .inLine
  | .token symbol _, place =>
    if symbol = some .newline then if place = .indented then none else some .lineStart
    else if place = .lineStart then none else some .inLine
  | .text content _, place =>
    if content = "" then some place
    else if place = .lineStart ∨ '\n' ∈ content.toList then none else some .inLine
  | .unknown _, _ => none

private theorem carries_block {options : Options} (keep : options.KeepLines) (levels inner : Nat)
    (trees : List Node) (shift : ∀ tree ∈ trees, Role.statement.Shifts tree) :
    options.Carries levels .lineStart .lineStart fun options =>
      trees.flatMap fun tree => Role.statement.chars tree (options.deeper inner) := by
  induction trees with
  | nil => exact .nothing .lineStart
  | cons tree rest ih =>
    have first := shift tree (by simp) (options.deeper inner) levels (keep.deeper inner)
    have further := ih fun other member => shift other (by simp [member])
    exact first.inner.append further

private theorem carries_token {options : Options} (levels : Nat) {symbol : Option Token}
    (spelled : Token.isWritable symbol = true) (inside : symbol ≠ some .newline) {place : Cursor}
    (opened : place ≠ .lineStart) :
    options.Carries levels place .inLine fun _ => Token.chars symbol := by
  have table : ∀ symbol ∈ Token.all, symbol.isDescriptive = false → symbol ≠ .newline →
      Token.chars (some symbol) ≠ [] ∧ '\n' ∉ Token.chars (some symbol) := by decide +kernel
  obtain ⟨symbol, rfl, own⟩ := (Option.any_eq_true _ _).mp spelled
  obtain ⟨present, whole⟩ :=
    table symbol symbol.mem_all (by simpa using own) (by simpa using inside)
  exact .written opened present whole

/-- A step that may be taken leads two aligned printings to its next place. -/
theorem carries {options : Options} (keep : options.KeepLines) (levels : Nat) {step : Step Node}
    (spelled : step.Spelled) (parts : step.Every Role.Shifts) {source target : Cursor}
    (leads : step.next source = some target) :
    options.Carries levels source target fun options => step.chars options := by
  cases step with
  | part tree label inner =>
    simp only [next, Option.ite_none_left_eq_some, Option.some.injEq] at leads
    obtain ⟨opened, rfl⟩ := leads
    exact (parts (options.deeper inner) levels source (keep.deeper inner) opened).inner
  | block trees label inner =>
    simp only [next, Option.ite_none_right_eq_some, Option.some.injEq] at leads
    obtain ⟨rfl, rfl⟩ := leads
    exact carries_block keep levels inner trees parts
  | indent =>
    simp only [next, Option.ite_none_right_eq_some, Option.some.injEq] at leads
    obtain ⟨rfl, rfl⟩ := leads
    intro plain moved aligned
    have margin := options.toList_indentation_deeper levels 0
    simp only [chars_indent]
    rw [show (0 : Int) = ((0 : Nat) : Int) from rfl, margin]
    exact aligned.indent (keep.not_mem_indentation 0)
  | innerIndent =>
    simp only [next, Option.ite_none_right_eq_some, Option.some.injEq] at leads
    obtain ⟨rfl, rfl⟩ := leads
    intro plain moved aligned
    have margin := options.toList_indentation_deeper levels 1
    simp only [chars_innerIndent]
    rw [show (1 : Int) = ((1 : Nat) : Int) from rfl, margin]
    exact aligned.indent (keep.not_mem_indentation 1)
  | token symbol label =>
    simp only [next] at leads
    split at leads
    · rename_i newline
      subst newline
      simp only [Option.ite_none_left_eq_some, Option.some.injEq] at leads
      obtain ⟨notIndented, rfl⟩ := leads
      intro plain moved aligned
      cases source with
      | lineStart => exact aligned.emptyLine
      | indented => exact absurd rfl notIndented
      | inLine => exact aligned.endLine
    · rename_i inside
      simp only [Option.ite_none_left_eq_some, Option.some.injEq] at leads
      obtain ⟨opened, rfl⟩ := leads
      exact carries_token levels spelled inside opened
  | text content label =>
    simp only [next] at leads
    split at leads
    · rename_i empty
      subst empty
      cases leads
      exact .nothing source
    · rename_i present
      simp only [Option.ite_none_left_eq_some, Option.some.injEq, not_or] at leads
      obtain ⟨⟨opened, inside⟩, rfl⟩ := leads
      exact .written opened (mt String.toList_eq_nil_iff.mp present) inside
  | unknown code => cases leads

/-- The place that steps lead to. -/
def follow : List (Step Node) → Cursor → Option Cursor
  | [], place => some place
  | step :: rest, place => (step.next place).bind (follow rest)

theorem follow_append (first second : List (Step Node)) (place : Cursor) :
    follow (first ++ second) place = (follow first place).bind (follow second) := by
  induction first generalizing place with
  | nil => rfl
  | cons step rest ih =>
    simp only [List.cons_append, follow, Option.bind_assoc]
    congr 1
    funext next
    exact ih next

/-- Steps that may be taken one after the other lead two aligned printings to their last
place. -/
theorem carries_all {options : Options} (keep : options.KeepLines) (levels : Nat)
    {steps : List (Step Node)} (spelled : ∀ step ∈ steps, step.Spelled)
    (parts : ∀ step ∈ steps, step.Every Role.Shifts) {source target : Cursor}
    (leads : follow steps source = some target) :
    options.Carries levels source target fun options => steps.flatMap (chars options) := by
  induction steps generalizing source with
  | nil =>
    cases leads
    exact .nothing _
  | cons step rest ih =>
    obtain ⟨middle, first, further⟩ := Option.bind_eq_some_iff.mp leads
    have before := carries keep levels (spelled step (by simp)) (parts step (by simp)) first
    have after := ih (fun other member => spelled other (by simp [member]))
      (fun other member => parts other (by simp [member])) further
    exact before.append after

end Step

namespace Shape

open Step (follow follow_append)

theorem follow_padded {op : Option Token} (inside : op ≠ some .newline) (spaced : Bool)
    (label : String) : follow (Step.padded spaced (.token op label)) .inLine = some .inLine := by
  cases spaced <;> simp [Step.padded, follow, Step.next, Step.space, inside]

section Numbered

variable {separator : List (Step Node)} {middle : Cursor}
  (between : follow separator .inLine = some middle) (opened : middle ≠ .lineStart)
  {step : Node → String → Step Node}
  (part : ∀ tree label place, place ≠ .lineStart → (step tree label).next place = some .inLine)

include between opened part

private theorem follow_numbered_succ (label : String) (index : Nat) (trees : List Node) :
    follow (numbered separator step label (index + 1) trees) .inLine = some .inLine := by
  induction trees generalizing index with
  | nil => rfl
  | cons tree rest ih =>
    simp only [numbered, Nat.succ_ne_zero, if_false, follow_append, between, Option.bind_some,
      follow, part tree _ middle opened]
    exact ih (index + 1)

/-- Parts with separators between them lead into the line, if there are any. -/
theorem follow_numbered (label : String) {trees : List Node} (present : trees ≠ []) {place : Cursor}
    (started : place ≠ .lineStart) :
    follow (numbered separator step label 0 trees) place = some .inLine := by
  cases trees with
  | nil => exact absurd rfl present
  | cons tree rest =>
    simp only [numbered, if_true, List.nil_append, follow, part tree _ place started,
      Option.bind_some]
    exact follow_numbered_succ between opened part label 0 rest

end Numbered

private theorem next_part (tree : Node) (label : String) (levels : Nat) {place : Cursor}
    (started : place ≠ .lineStart) : (Step.part tree label levels).next place = some .inLine := by
  simp [Step.next, started]

theorem follow_onOneLine (label : String) {trees : List Node} (present : trees ≠ [])
    {place : Cursor} (started : place ≠ .lineStart) :
    follow (onOneLine label trees) place = some .inLine :=
  follow_numbered rfl (by decide) (fun tree label _ => next_part tree label 0) label present started

theorem follow_onOneLine_inLine (label : String) (trees : List Node) :
    follow (onOneLine label trees) .inLine = some .inLine := by
  cases trees with
  | nil => rfl
  | cons tree rest => exact follow_onOneLine label (by simp) (by decide)

private theorem follow_ending (present : Bool) :
    follow (if present then [.comma] else []) .inLine = some .inLine := by
  cases present <;> rfl

theorem follow_enclosed (layout : Layout) (trees : List Node) {symbol : Token}
    (closing : symbol ≠ .newline) :
    follow (sequence layout trees ++ [.mark symbol]) .inLine = some .inLine := by
  have close {place : Cursor} (started : place ≠ .lineStart) :
      follow [.mark symbol] place = some .inLine := by
    simp [follow, Step.next, Step.mark, closing, started]
  simp only [sequence]
  split
  · rename_i breaks
    have present : trees ≠ [] := by
      rintro rfl
      rw [List.length_nil, Int.natCast_zero, Layout.decision_zero] at breaks
      cases breaks
    have elements : follow (numbered [.comma, .newline, .innerIndent] .inside "element" 0 trees)
        .indented = some .inLine :=
      follow_numbered rfl (by decide) (fun tree label _ => next_part tree label 1) "element"
        present (by decide)
    have lead : follow [.newline, .innerIndent] .inLine = some .indented := rfl
    have tail : follow [.newline, .indent] .inLine = some .indented := rfl
    simp only [onLines, follow_append, lead, Option.bind_some, elements, follow_ending, tail,
      close (show Cursor.indented ≠ .lineStart by decide)]
  · simp only [follow_append, follow_onOneLine_inLine, Option.bind_some, follow_ending,
      close (show Cursor.inLine ≠ .lineStart by decide)]

theorem follow_tuple {layout : Layout} (single : layout.lineBreak = .never) (trees : List Node)
    {place : Cursor} (started : place ≠ .lineStart) :
    follow (tuple layout trees) place = some .inLine := by
  have together : (layout.decision trees.length).breakLines = false := by
    simp [Layout.decision, single, LineBreak.applies]
  unfold tuple
  split
  · simp [follow, Step.next, Step.mark, started]
  · rename_i present
    have elements : follow (onOneLine "element" trees) place = some .inLine :=
      follow_onOneLine "element" (by simpa using present) started
    simp only [sequence, together, Bool.false_eq_true, if_false, follow_append, elements,
      Option.bind_some, follow_ending]

theorem follow_bindings (spaceEqBinary : Bool) (leaf : Option Ident → Node) (index : Nat)
    (pairs : List (Option Ident × Option Ident)) :
    follow (bindings spaceEqBinary leaf index pairs) .inLine = some .inLine := by
  induction pairs generalizing index with
  | nil => rfl
  | cons pair rest ih =>
    obtain ⟨source, bound⟩ := pair
    have own : follow (binding spaceEqBinary leaf index source bound) .inLine = some .inLine := by
      unfold binding
      cases writtenName? source bound with
      | none => rfl
      | some name => cases spaceEqBinary <;> rfl
    simp only [bindings, follow_append, own, Option.bind_some, ih]

/-- An indentation and the text of a line, which may be empty. -/
private theorem follow_line {line : List Char} (whole : '\n' ∉ line) (label : String) :
    follow [.indent, .text (String.ofList line) label] .lineStart =
      some (if line = [] then .indented else .inLine) := by
  by_cases empty : line = []
  · subst empty
    rfl
  · simp [follow, Step.next, empty, whole, String.ofList_eq_empty_iff]

/-- The further lines of a docstring. An empty line that is not the last has no
indentation, so a line feed may follow another. -/
private theorem follow_furtherLines (width index : Nat) {lines : List (List Char)}
    (whole : ∀ line ∈ lines, '\n' ∉ line) (present : lines ≠ []) {place : Cursor}
    (ended : place ≠ .indented) :
    ∃ last, last ≠ .lineStart ∧ follow (furtherLines width index lines) place = some last := by
  induction lines generalizing index place with
  | nil => exact absurd rfl present
  | cons line rest ih =>
    have newline : follow [.newline] place = some .lineStart := by
      simp [follow, Step.next, Step.newline, Step.mark, ended]
    have content : '\n' ∉ Text.stripSpaces width line :=
      fun member => whole line (by simp) ((Text.stripSpaces_suffix width line).mem member)
    have own := follow_line content ("docstring line " ++ Text.decimal index)
    have wholeRest : ∀ other ∈ rest, '\n' ∉ other :=
      fun other member => whole other (by simp [member])
    simp only [furtherLines]
    rw [← List.singleton_append, List.append_assoc, follow_append, newline, Option.bind_some,
      follow_append]
    by_cases last : rest = []
    · subst last
      refine ⟨if Text.stripSpaces width line = [] then .indented else .inLine, ?_, ?_⟩
      · split <;> decide
      · simp [own, furtherLines, follow]
    · by_cases empty : Text.stripSpaces width line = []
      · obtain ⟨final, opened, leads⟩ :=
          ih (index + 1) wholeRest last (show Cursor.lineStart ≠ .indented by decide)
        exact ⟨final, opened, by simpa [empty, last, follow] using leads⟩
      · obtain ⟨final, opened, leads⟩ :=
          ih (index + 1) wholeRest last (show Cursor.inLine ≠ .indented by decide)
        exact ⟨final, opened, by simpa [empty, own] using leads⟩

theorem follow_docstring (literal : Literal) (content : String) :
    follow (docstring literal content) .lineStart = some .lineStart := by
  have whole := Text.not_mem_lines (Text.escapeTriples content.toList)
  simp only [Text.lines, List.forall_mem_cons] at whole
  simp only [docstring]
  generalize Text.splitLines (Text.escapeTriples content.toList) = lines at whole ⊢
  obtain ⟨first, further⟩ := lines
  have opening : follow [.indent, .text "\"\"\"" "TRIPLE QUOTE",
      .text (String.ofList first) "docstring line 1"] .lineStart = some .inLine := by
    by_cases empty : first = []
    · subst empty
      rfl
    · simp [follow, Step.next, empty, whole.1]
  have closing {place : Cursor} (started : place ≠ .lineStart) :
      follow [.text "\"\"\"" "TRIPLE QUOTE", .newline] place = some .lineStart := by
    cases place with
    | lineStart => exact absurd rfl started
    | indented => rfl
    | inLine => rfl
  obtain ⟨last, started, leads⟩ : ∃ last, last ≠ .lineStart ∧
      follow (furtherLines literal.sourceIndent 2 further) .inLine = some last := by
    cases further with
    | nil => exact ⟨.inLine, by decide, rfl⟩
    | cons line rest => exact follow_furtherLines _ _ whole.2 (by simp) (by decide)
  simp only [follow_append, opening, Option.bind_some, leads, closing started]

end Shape

theorem Plan.chars_eq_steps (plan : Plan) (options : Options) :
    plan.chars options = plan.steps.flatMap (Step.chars options) := by
  cases plan with
  | refuse reason => rfl
  | act actions => simp [chars, steps, List.flatMap_map]

/-- Going deeper does not change the plan of a node. -/
theorem Role.plan_deeper (role : Role) (node : Node) (options : Options) (levels : Nat) :
    role.plan node (options.deeper levels) = role.plan node options := by
  cases role <;> cases node <;> rfl

/-- What a node brings along is not empty and stays in its line. -/
abbrev Node.StaysInline : Node → Prop :=
  Node.Brings (fun text => text ≠ "" ∧ '\n' ∉ text.toList) (· ≠ .newline)

namespace Node

open Step (follow follow_append)

private theorem follow_payload {text : String} (payload : Text.IsPayload text) (label : String)
    {place : Cursor} (started : place ≠ .lineStart) :
    follow [.text text label] place = some .inLine := by
  obtain ⟨first, rest, shown, _, printable⟩ := payload
  have present : text ≠ "" := by
    rintro rfl
    cases shown
  have inside : '\n' ∉ text.toList := by
    intro member
    have printed := printable '\n' member
    revert printed
    decide +kernel
  simp [follow, Step.next, present, started, inside]

private theorem follow_clauses (clauses : List Node) :
    follow (clauses.flatMap clauseSteps) .inLine = some .inLine := by
  induction clauses with
  | nil => rfl
  | cons clause rest ih =>
    have own : follow clause.clauseSteps .inLine = some .inLine := by
      cases clause <;> rfl
    simp only [List.flatMap_cons, follow_append, own, Option.bind_some, ih]

private theorem follow_literalPlan {leaf : Literal}
    (renders : (literal leaf).rendersAsExpression = true) (own : (literal leaf).StaysInline)
    {place : Cursor} (started : place ≠ .lineStart) :
    follow leaf.plan.steps place = some .inLine := by
  unfold Literal.plan
  split
  · rename_i absent
    obtain ⟨present, inside⟩ := own.raw absent
    simp [follow, Step.next, present, started, inside]
  · rename_i given
    obtain ⟨⟨kind, text⟩, found⟩ := (Value.payload_ok_iff leaf.value given).mp renders
    simp only [found, Plan.steps_inScope]
    exact follow_payload (Value.isPayload_of_payload found) _ started

private theorem follow_expressionPlan {node : Node} (renders : node.rendersAsExpression = true)
    (own : node.StaysInline) {options : Options} (keep : options.KeepLines) {place : Cursor}
    (started : place ≠ .lineStart) :
    follow (node.expressionPlan options).steps place = some .inLine := by
  have here (tree : Node) (label : String) : follow [.here tree label] place = some .inLine := by
    simp [follow, Step.next, Step.here, started]
  have mark {symbol : Token} (inside : symbol ≠ .newline) :
      follow [.mark symbol] place = some .inLine := by
    simp [follow, Step.next, Step.mark, inside, started]
  cases node with
  | ident leaf =>
    obtain ⟨present, inside⟩ := own.name
    simp [expressionPlan, Shape.ident, follow, Step.next, present, started, inside]
  | literal leaf => exact follow_literalPlan renders own started
  | unary op x =>
    have inside : op ≠ some .newline := by
      rintro rfl
      exact own.unary rfl
    have operator : follow (Shape.operator op) place = some .inLine := by
      simp [Shape.operator, follow, Step.next, inside, started]
    simp only [expressionPlan, Plan.unary]
    by_cases missing : x.isMissing = true
    · by_cases star : op = some .star
      · simpa [missing, star] using operator
      · simp_all [rendersAsExpression]
    · have operand : follow (Shape.operand op x) .inLine = some .inLine := by
        unfold Shape.operand
        split <;> rfl
      have both : follow (Shape.operator op ++ Shape.operand op x) place = some .inLine := by
        rw [follow_append, operator, Option.bind_some, operand]
      simpa [missing, Plan.steps, Function.comp_def] using both
  | comprehension body clauses curly =>
    rw [rendersAsExpression, Bool.and_eq_true, renderAsClauses_iff] at renders
    have steps : clausesSteps clauses = .ok (clauses.flatMap clauseSteps) :=
      (clausesSteps_eq_ok_iff _ _).mpr
        ⟨fun clause member => ((rendersAsClause_iff clause).mp (renders.2 clause member)).1, rfl⟩
    have closing : follow [.token (some (if curly then .rightBrace else .rightBracket)) "right"]
        .inLine = some .inLine := by
      cases curly <;> rfl
    have opening : follow [.token (some (if curly then .leftBrace else .leftBracket)) "left",
        .here body "Body"] place = some .inLine := by
      cases curly <;> simp [follow, Step.next, Step.here, started]
    simp only [expressionPlan, steps, Plan.steps_inScope, Shape.comprehension, follow_append,
      opening, Option.bind_some, follow_clauses, closing]
  | dict elements =>
    have entries : strayElement? elements = none := by
      simp_all [rendersAsExpression, strayElement?]
    simp only [expressionPlan, entries, Plan.steps_inScope, Shape.dict, List.append_assoc]
    rw [follow_append, mark (by decide), Option.bind_some, Shape.follow_enclosed _ _ (by decide)]
  | slice x lo hi step =>
    have opening : follow [.here x "X", .mark .leftBracket] place = some .inLine := by
      simp [follow, Step.next, Step.here, Step.mark, started]
    simp only [expressionPlan, Plan.steps_inScope, Shape.slice, List.append_assoc]
    rw [follow_append, opening, Option.bind_some]
    cases lo.unlessMissing lo <;> cases hi.unlessMissing hi <;>
      cases step.unlessMissing step <;> rfl
  | paren x =>
    simp only [expressionPlan, Plan.steps_inScope, Shape.paren, List.append_assoc]
    rw [follow_append, mark (by decide), Option.bind_some]
    split <;> rfl
  | tuple elements =>
    rw [expressionPlan, Plan.steps_inScope, Shape.follow_tuple keep.tuple elements started]
  | binary x op y =>
    have inside : op ≠ some .newline := by
      rintro rfl
      exact own.binary rfl
    simp only [expressionPlan, Plan.steps_inScope, Shape.binary, follow_append, here,
      Option.bind_some, Shape.follow_padded inside]
    rfl
  | call fn args =>
    have opening : follow [.here fn "Fn", .mark .leftParen] place = some .inLine := by
      simp [follow, Step.next, Step.here, Step.mark, started]
    simp only [expressionPlan, Plan.steps_inScope, Shape.call, List.append_assoc]
    rw [follow_append, opening, Option.bind_some, Shape.follow_enclosed _ _ (by decide)]
  | list elements =>
    simp only [expressionPlan, Plan.steps_inScope, Shape.list, List.append_assoc]
    rw [follow_append, mark (by decide), Option.bind_some, Shape.follow_enclosed _ _ (by decide)]
  | cond | dictEntry | dot | index =>
    cases place with
    | lineStart => exact absurd rfl started
    | _ => rfl
  | _ => cases renders

/-- The plan of a statement leads from the start of a line to the start of another. -/
private theorem follow_statementPlan {node : Node} (renders : node.rendersAsStatement = true)
    (options : Options) :
    follow (node.statementPlan options).steps .lineStart = some .lineStart := by
  cases node with
  | assign lhs op rhs =>
    simp only [rendersAsStatement, Bool.and_eq_true] at renders
    have inside : op ≠ some .newline := by
      rintro rfl
      exact absurd renders.1.1 (by decide)
    simp [statementPlan, renders.1.1, Shape.assign, follow, Step.next, inside, Step.here,
      Step.space, Step.newline, Step.mark]
  | branch token =>
    simp only [rendersAsStatement] at renders
    have inside : token ≠ some .newline := by
      rintro rfl
      exact absurd renders (by decide)
    simp [statementPlan, renders, Shape.branch, follow, Step.next, inside, Step.newline,
      Step.mark]
  | define name params body =>
    have opening : follow [.indent, .mark .kwDef, .space, .here name "Name", .mark .leftParen]
        .lineStart = some .inLine := rfl
    simp only [statementPlan, Plan.steps_inScope, Shape.define, follow_append, opening,
      Option.bind_some, Shape.follow_onOneLine_inLine]
    rfl
  | exprStmt x =>
    simp only [statementPlan]
    cases x.docstring? with
    | some found => exact Plan.steps_inScope _ _ ▸ Shape.follow_docstring found.1 found.2
    | none => rfl
  | ifThen test onTrue onFalse => cases onFalse <;> rfl
  | load path sources locals =>
    simp only [rendersAsStatement, Bool.and_eq_true, decide_eq_true_eq] at renders
    have opening : follow [.indent, .mark .kwLoad, .mark .leftParen, .here path "Module"]
        .lineStart = some .inLine := rfl
    simp only [statementPlan, renders.1.1, if_true, Plan.steps_inScope, Shape.load,
      follow_append, opening, Option.bind_some, Shape.follow_bindings]
    rfl
  | returns result =>
    simp only [statementPlan, Plan.steps_inScope, Shape.returns]
    cases result.unlessMissing result <;> rfl
  | forLoop | whileLoop => rfl
  | _ => cases renders

end Node

/-- A plan whose steps lead from one place to another carries aligned printings there. -/
private theorem Plan.carries {plan : Plan} (renders : plan.Renders)
    (parts : plan.Every Role.Shifts) {options : Options} (keep : options.KeepLines) (levels : Nat)
    {source target : Cursor} (leads : Step.follow plan.steps source = some target) :
    options.Carries levels source target fun options => plan.chars options := by
  cases plan with
  | refuse reason => exact absurd renders (not_renders_refuse reason)
  | act actions =>
    simp only [chars_eq_steps]
    apply Step.carries_all keep levels _ _ leads
    · exact List.forall_mem_map.mpr renders.1
    · exact List.forall_mem_map.mpr parts

/-- What brings along nothing that breaks a line is shifted when it is printed deeper. -/
theorem Role.shifts {role : Role} {node : Node} (renders : role.renders node = true)
    (inline : node.Throughout Node.StaysInline) : role.Shifts node := by
  refine Role.induction_on_rendered ?_ role node renders inline
  intro role node renders own parts
  have same (options : Options) (levels : Nat) {source target : Cursor}
      (carried : options.Carries levels source target fun deeper =>
        (role.plan node options).chars deeper) :
      options.Carries levels source target (role.chars node) := by
    intro plain moved aligned
    have both := carried plain moved aligned
    rw [Role.chars_eq_plan renders options, Role.chars_eq_plan renders (options.deeper levels),
      role.plan_deeper]
    exact both
  have goes (options : Options) := (role.renders_iff_plan node options).mp renders
  cases role with
  | expression =>
    intro options levels place keep started
    exact same options levels (Plan.carries (goes options) (parts options) keep levels
      (Node.follow_expressionPlan renders own keep started))
  | statement =>
    intro options levels keep
    exact same options levels (Plan.carries (goes options) (parts options) keep levels
      (Node.follow_statementPlan renders options))

private theorem Role.newline_mem_chars {node : Node} (renders : Role.statement.renders node = true)
    (options : Options) : '\n' ∈ Role.statement.chars node options := by
  have written : Step.newline ∈ (Role.statement.plan node options).steps := by
    have goes := (Role.statement.renders_iff_plan node options).mp renders
    cases node with
    | exprStmt x =>
      simp only [plan, Node.statementPlan]
      split <;> simp [Shape.docstring, Shape.exprStmt]
    | assign | branch | load =>
      simp only [plan, Node.statementPlan] at goes ⊢
      split at goes
      · rename_i legal
        simp [legal, Shape.assign, Shape.branch, Shape.load]
      · exact absurd goes (Plan.not_renders_refuse _)
    | define | forLoop | whileLoop | ifThen | returns =>
      simp [plan, Node.statementPlan, Shape.define, Shape.forLoop, Shape.whileLoop, Shape.ifThen,
        Shape.returns, Shape.body]
    | _ => cases renders
  rw [Role.chars_eq_plan renders, Plan.chars_eq_steps, List.mem_flatMap]
  exact ⟨.newline, written, List.mem_singleton.mpr rfl⟩

end StarlarkPrinter
