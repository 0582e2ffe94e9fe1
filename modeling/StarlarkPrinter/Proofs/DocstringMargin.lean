import StarlarkPrinter.Proofs.LineShift
import StarlarkPrinter.Proofs.TripleQuoted

namespace StarlarkPrinter

namespace Text

theorem escapeTriples_newline (line rest : List Char) :
    escapeTriples (line ++ '\n' :: rest) = escapeTriples line ++ '\n' :: escapeTriples rest := by
  fun_induction escapeTriples line with
  | case1 => exact escapeTriples_cons (afterTriple?_of_ne (by decide) rest)
  | case2 further ih => simp [escapeTriples, ih]
  | case3 char further notTriple ih =>
    rw [List.cons_append, escapeTriples_cons, ih, List.cons_append]
    apply afterTriple?_eq_none
    intro after quote same
    -- Three quotes at the start of the text would stand in front of its first line feed.
    obtain _ | ⟨one, _ | ⟨two, others⟩⟩ := further
    · cases same
    · cases same
    · cases same
      exact notTriple others quote rfl

theorem escapeTriples_join {first : List Char} {rows : List (List Char)}
    (plain : escapeTriples first = first) (each : ∀ row ∈ rows, escapeTriples row = row) :
    escapeTriples (first ++ rows.flatMap ('\n' :: ·)) = first ++ rows.flatMap ('\n' :: ·) := by
  induction rows generalizing first with
  | nil => simpa using plain
  | cons row rest ih =>
    obtain ⟨own, further⟩ := List.forall_mem_cons.mp each
    rw [List.flatMap_cons, List.cons_append, escapeTriples_newline, plain, ih own further]

theorem escapeTriples_spaces (count : Nat) (line : List Char) :
    escapeTriples (List.replicate count ' ' ++ line) =
      List.replicate count ' ' ++ escapeTriples line := by
  induction count with
  | zero => rfl
  | succ count ih =>
    rw [List.replicate_succ, List.cons_append,
      escapeTriples_cons (afterTriple?_of_ne (by decide) _), ih, List.cons_append]

theorem lines_of_not_mem {line : List Char} (whole : '\n' ∉ line) : lines line = [line] := by
  induction line with
  | nil => rfl
  | cons char rest ih =>
    obtain ⟨inside, further⟩ := not_or.mp (mt List.mem_cons.mpr whole)
    have split := ih further
    simp only [lines, List.cons.injEq] at split
    rw [lines_cons (Ne.symm inside), split.1, split.2]

/-- Lines that are put together are told apart again. -/
theorem lines_join {first : List Char} {rows : List (List Char)} (whole : '\n' ∉ first)
    (each : ∀ row ∈ rows, '\n' ∉ row) :
    lines (first ++ rows.flatMap ('\n' :: ·)) = first :: rows := by
  induction rows generalizing first with
  | nil => simpa using lines_of_not_mem whole
  | cons row rest ih =>
    obtain ⟨own, further⟩ := List.forall_mem_cons.mp each
    rw [List.flatMap_cons, List.cons_append, lines_endLine whole, ih own further]

theorem dropSpaces?_replicate (count : Nat) (line : List Char) :
    dropSpaces? count (List.replicate count ' ' ++ line) = some line := by
  induction count with
  | zero => rfl
  | succ count ih => exact ih

theorem stripSpaces_nil (width : Nat) : stripSpaces width [] = [] := by
  cases width <;> rfl

/-- What a margin of spaces puts in front of lines is taken off again. -/
theorem stripSpaces_behindMargin (count : Nat) (rows : List (List Char)) :
    (behindMargin (List.replicate count ' ') rows).map (stripSpaces count) = rows := by
  induction rows with
  | nil => rfl
  | cons line rest ih =>
    rw [behindMargin, List.map_cons, ih]
    split
    · rw [stripSpaces, dropSpaces?_replicate]
      rfl
    · rename_i inner
      have empty : line = [] := by simp_all
      rw [stripSpaces_nil, empty]

/-- A line behind a margin is the margin and the line, or it is empty. -/
theorem mem_behindMargin {margin row : List Char} {rows : List (List Char)}
    (member : row ∈ behindMargin margin rows) : row = [] ∨ ∃ line ∈ rows, row = margin ++ line := by
  induction rows with
  | nil => cases member
  | cons line rest ih =>
    rcases List.mem_cons.mp member with rfl | later
    · split
      · exact .inr ⟨line, List.mem_cons_self, rfl⟩
      · exact .inl rfl
    · rcases ih later with empty | ⟨other, inside, same⟩
      · exact .inl empty
      · exact .inr ⟨other, List.mem_cons_of_mem _ inside, same⟩

theorem infix_of_mem_lines {text line : List Char} (member : line ∈ lines text) :
    line <:+: text := by
  rw [← splitLines_join text]
  rcases List.mem_cons.mp member with rfl | later
  · exact (List.prefix_append _ _).isInfix
  · obtain ⟨before, after, same⟩ := List.append_of_mem later
    refine ⟨(splitLines text).1 ++ before.flatMap ('\n' :: ·) ++ ['\n'],
      after.flatMap ('\n' :: ·), ?_⟩
    simp [same]

/-- The rows of a docstring stay in their lines and have nothing to escape. -/
theorem behindMargin_plain {text : List Char} (untripled : ¬ ['"', '"', '"'] <:+: text)
    (width count : Nat) :
    ∀ row ∈ behindMargin (List.replicate count ' ') ((splitLines text).2.map (stripSpaces width)),
      '\n' ∉ row ∧ escapeTriples row = row := by
  intro row member
  rcases mem_behindMargin member with rfl | ⟨stripped, inside, rfl⟩
  · exact ⟨by simp, rfl⟩
  · obtain ⟨line, present, rfl⟩ := List.mem_map.mp inside
    have part := stripSpaces_suffix width line
    have own : line ∈ lines text := List.mem_cons_of_mem _ present
    constructor
    · have unbroken : '\n' ∉ stripSpaces width line :=
        mt (part.subset ·) (not_mem_lines text line own)
      simpa using unbroken
    · have bare : ¬ ['"', '"', '"'] <:+: stripSpaces width line := fun triple =>
        untripled (triple.trans (part.isInfix.trans (infix_of_mem_lines own)))
      rw [escapeTriples_spaces, escapeTriples_of_untripled bare]

/-- The body of a docstring whose lines stand behind spaces, printed again with as many spaces
taken off, is the body that the text itself has there. -/
theorem docstringBody_docstringBody {text : List Char}
    (untripled : ¬ ['"', '"', '"'] <:+: text) (width count : Nat) (margin : List Char) :
    docstringBody count margin (docstringBody width (List.replicate count ' ') text) =
      docstringBody width margin text := by
  have first : (splitLines text).1 ∈ lines text := List.mem_cons_self
  have bare : escapeTriples (splitLines text).1 = (splitLines text).1 :=
    escapeTriples_of_untripled fun triple => untripled (triple.trans (infix_of_mem_lines first))
  have plain := behindMargin_plain untripled width count
  have unchanged := escapeTriples_join bare fun row member => (plain row member).2
  have split := lines_join (not_mem_lines text _ first) fun row member => (plain row member).1
  rw [lines] at split
  obtain ⟨sameFirst, sameRows⟩ := List.cons.inj split
  have inner := escapeTriples_of_untripled untripled
  simp only [docstringBody, inner, unchanged, sameFirst, sameRows, stripSpaces_behindMargin]

end Text

/-- An indentation by units of spaces is made of spaces. -/
theorem Options.toList_indentation_spaces {options : Options} {unit : Nat}
    (spaces : options.indent = String.ofList (List.replicate unit ' ')) :
    (options.indentation 0).toList = List.replicate (unit * options.depth) ' ' := by
  have depth : (options.depth + (0 : Int)).toNat = options.depth := by omega
  rw [indentation, depth, toList_repeated, spaces, String.toList_ofList,
    List.flatten_replicate_replicate, Nat.mul_comm]

theorem Literal.sourceIndent_of_column {leaf : Literal} {width : Nat}
    (token : leaf.token = some .stringLiteral)
    (column : leaf.position.map (·.column) = some (width + 1 : Int)) :
    leaf.sourceIndent = width := by
  obtain ⟨position, placed, shown⟩ := Option.map_eq_some_iff.mp column
  simp [sourceIndent, token, placed, shown]

/-- A docstring whose text has no three quotes in a row, printed with an indentation of spaces
and read as it stands, in the column where it was printed: at every depth the literal that is
read prints as the first one does. -/
theorem docstring_stable_under_reading (options : Options) (unit : Nat)
    (spaces : options.indent = String.ofList (List.replicate unit ' ')) (leaf : Literal)
    (content : String) (text : leaf.value = .text content)
    (untripled : ¬ "\"\"\"".toList <:+: content.toList) (depth other : Nat) :
    let printed (leaf : Literal) (depth : Nat) :=
      (Role.statement.emission (.exprStmt (.literal leaf)) { options with depth }).run
        Sink.buffer ""
    (printed leaf depth).ending = .done ∧ (printed leaf other).ending = .done ∧ ∃ body : String,
      (printed leaf depth).state.toList = List.replicate (unit * depth) ' ' ++
        "\"\"\"".toList ++ body.toList ++ "\"\"\"\n".toList ∧
      ∀ again : Literal, again.value = .text body → again.token = some .stringLiteral →
        again.position.map (·.column) = some ((unit * depth : Nat) + 1 : Int) →
        (printed again other).ending = .done ∧
          (printed again other).state = (printed leaf other).state := by
  intro printed
  have renders {leaf : Literal} {content : String} (text : leaf.value = .text content)
      (depth : Nat) : (printed leaf depth).ending = .done :=
    (Role.statement.buffer_ending_iff _ _).mpr (Literal.renders_docstring text)
  have chars {leaf : Literal} {content : String} (text : leaf.value = .text content)
      (depth : Nat) :
      (printed leaf depth).state.toList = List.replicate (unit * depth) ' ' ++ ['"', '"', '"'] ++
        Text.docstringBody leaf.sourceIndent (List.replicate (unit * depth) ' ') content.toList ++
          ['"', '"', '"', '\n'] := by
    have margin := Options.toList_indentation_spaces
      (show Options.indent { options with depth } = _ from spaces)
    rw [Role.toList_buffer, Literal.chars_docstring text, Shape.chars_docstring_body, margin]
  let body := Text.docstringBody leaf.sourceIndent (List.replicate (unit * depth) ' ')
    content.toList
  refine ⟨renders text depth, renders text other, String.ofList body, ?_, ?_⟩
  · simp [chars text, body]
  · intro again read token column
    have same := Text.docstringBody_docstringBody untripled leaf.sourceIndent (unit * depth)
      (List.replicate (unit * other) ' ')
    refine ⟨renders read other, String.toList_inj.mp ?_⟩
    rw [chars read, chars text, String.toList_ofList, Literal.sourceIndent_of_column token column,
      same]

/-- A docstring from the fifth column of a source, with an empty line, a line that is not
indented and a last line for its closing quotes, printed one level deep and read again, prints
three levels deep as it would have at once. -/
theorem docstring_read_and_moved_deeper :
    let leaf : Literal :=
      { value := .text "\"\"one\n\n      two\nthree\n    ", position := some ⟨7, 5, none⟩ }
    let printed (leaf : Literal) (depth : Nat) :=
      (Role.statement.emission (.exprStmt (.literal leaf)) { indent := "  ", depth }).run
        Sink.buffer ""
    ∃ body : String,
      (printed leaf 1).state.toList =
        "  \"\"\"".toList ++ body.toList ++ "\"\"\"\n".toList ∧
      (printed { value := .text body, position := some ⟨1, 3, none⟩ } 3).state =
        (printed leaf 3).state := by
  intro leaf printed
  obtain ⟨_, _, body, shown, stable⟩ :=
    docstring_stable_under_reading { indent := "  " } 2 (by decide) leaf _ rfl
      (by decide +kernel) 1 3
  exact ⟨body, shown, (stable _ rfl rfl rfl).2⟩

end StarlarkPrinter
