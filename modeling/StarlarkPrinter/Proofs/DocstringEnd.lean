import StarlarkPrinter.Proofs.TripleQuoted

namespace StarlarkPrinter

namespace Text

/-- Find the end of a docstring from after its opening quotes: what stands in front of the
first three quotes in a row that are not escaped, and what follows them. -/
def closeTriple : List Char → Option (List Char × List Char)
  | [] => none
  | '"' :: '"' :: '"' :: rest => some ([], rest)
  | '\\' :: escaped :: rest =>
    (closeTriple rest).map fun (raw, after) => ('\\' :: escaped :: raw, after)
  | char :: rest => (closeTriple rest).map fun (raw, after) => (char :: raw, after)

def closeDocstring (text : List Char) : Option (List Char × List Char) :=
  (afterTriple? text).bind closeTriple

/-- A text in which an escaped quote is read as a quote. -/
def readQuotes : List Char → List Char
  | [] => []
  | '\\' :: '"' :: rest => '"' :: readQuotes rest
  | char :: rest => char :: readQuotes rest

theorem closeTriple_plain {char : Char} {rest : List Char}
    (inside : afterTriple? (char :: rest) = none) (notBackslash : char ≠ '\\') :
    closeTriple (char :: rest) =
      (closeTriple rest).map fun (raw, after) => (char :: raw, after) := by
  rw [closeTriple]
  · rintro further rfl rfl
    cases inside
  · intro escaped further backslash
    exact absurd backslash notBackslash

theorem readQuotes_plain {char : Char} (notBackslash : char ≠ '\\') (rest : List Char) :
    readQuotes (char :: rest) = char :: readQuotes rest := by
  rw [readQuotes]
  intro further backslash
  exact absurd backslash notBackslash

theorem eq_of_closeTriple {text raw after : List Char}
    (found : closeTriple text = some (raw, after)) :
    text = raw ++ '"' :: '"' :: '"' :: after := by
  fun_induction closeTriple text generalizing raw with
  | case1 => cases found
  | case2 rest =>
    cases found
    rfl
  | case3 escaped rest ih =>
    obtain ⟨⟨inner, further⟩, read, shown⟩ := Option.map_eq_some_iff.mp found
    cases shown
    rw [ih read]
    rfl
  | case4 char rest _ _ ih =>
    obtain ⟨⟨inner, further⟩, read, shown⟩ := Option.map_eq_some_iff.mp found
    cases shown
    rw [ih read]
    rfl

/-- The quotes at the end of a text that are left over when they are taken in threes. -/
def leftover (text : List Char) : List Char :=
  List.replicate (quotesAtEnd text % 3) '"'

theorem leftover_eq_nil_iff (text : List Char) : leftover text = [] ↔ 3 ∣ quotesAtEnd text := by
  rw [leftover, List.replicate_eq_nil_iff, Nat.dvd_iff_mod_eq_zero]

/-- Quotes can be told apart by their number only. -/
theorem leftover_comm (text : List Char) (count : Nat) :
    List.replicate count '"' ++ leftover text = leftover text ++ List.replicate count '"' := by
  rw [leftover, List.replicate_append_replicate, List.replicate_append_replicate, Nat.add_comm]

/-- A written docstring ends in front of the quotes that are left over, and what is read up to
there are all of its characters but these. -/
theorem closeTriple_written {text : List Char} (plain : '\\' ∉ text) :
    ∃ raw, closeTriple (written text) = some (raw, leftover text ++ ['\n']) ∧
      readQuotes raw ++ leftover text = text := by
  fun_induction escapeTriples text with
  | case1 => exact ⟨[], rfl, rfl⟩
  | case2 rest ih =>
    obtain ⟨raw, closed, read⟩ := ih (by simp_all)
    refine ⟨'\\' :: '"' :: '\\' :: '"' :: '\\' :: '"' :: raw, ?_, ?_⟩
    · rw [leftover, quotesAtEnd_triple_mod]
      simp only [written_triple, closeTriple, closed, Option.map_some]
      rfl
    · rw [leftover, quotesAtEnd_triple_mod]
      simp only [readQuotes, List.cons_append]
      rw [← leftover, read]
  | case3 char rest notTriple ih =>
    have single : afterTriple? (char :: rest) = none := afterTriple?_eq_none notTriple
    by_cases inside : char ≠ '"' ∨ ∃ other ∈ rest, other ≠ '"'
    · obtain ⟨notBackslash, further⟩ := not_or.mp (mt List.mem_cons.mpr plain)
      obtain ⟨raw, closed, read⟩ := ih further
      refine ⟨char :: raw, ?_, ?_⟩
      · rw [written_cons single,
          closeTriple_plain (afterTriple?_cons_written single inside) (Ne.symm notBackslash),
          closed, leftover, leftover, quotesAtEnd_cons inside]
        rfl
      · rw [readQuotes_plain (Ne.symm notBackslash), leftover, quotesAtEnd_cons inside,
          List.cons_append, ← leftover, read]
    · simp only [ne_eq, not_or, Decidable.not_not, not_exists, not_and] at inside
      obtain ⟨rfl, quotes⟩ := inside
      -- One or two quotes and the closing ones make three before the text is over.
      rcases eq_of_all_quotes single quotes with one | two
      · rw [one]
        exact ⟨[], rfl, rfl⟩
      · rw [two]
        exact ⟨[], rfl, rfl⟩

end Text

/-- The docstring of a text without backslashes, at the outermost level and without a place in
a source, is the written text between triple quotes. The end that is found is the one that was
written, and the text is read back, exactly if the quotes at its end come in threes. The one
or two quotes that are left over otherwise are what separates the end that is found from the
one that was written, and what the text that is read lacks. -/
theorem docstring_closes_iff (options : Options) (leaf : Literal) (content : String)
    (text : leaf.value = .text content) (unplaced : leaf.position = none)
    (outermost : options.depth = 0) (plain : '\\' ∉ content.toList) :
    let docstring :=
      (Role.statement.emission (.exprStmt (.literal leaf)) options).run Sink.buffer ""
    let found := Text.closeDocstring docstring.state.toList
    let leftover := Text.leftover content.toList
    docstring.ending = .done ∧ ∃ body,
      docstring.state.toList = "\"\"\"".toList ++ body ++ "\"\"\"\n".toList ∧
      ((found = some (body, ['\n']) ∧ Text.readQuotes body = content.toList) ↔
        3 ∣ Text.quotesAtEnd content.toList) ∧
      ∃ raw, found = some (raw, leftover ++ ['\n']) ∧ body = raw ++ leftover ∧
        content.toList = Text.readQuotes raw ++ leftover := by
  intro docstring found leftover
  have chars : docstring.state.toList = '"' :: '"' :: '"' :: Text.written content.toList := by
    rw [Role.toList_buffer, Literal.chars_docstring text,
      Shape.chars_docstring outermost unplaced content]
  obtain ⟨raw, closed, read⟩ := Text.closeTriple_written plain
  have here : found = some (raw, leftover ++ ['\n']) := by
    simp only [found, chars]
    exact closed
  have early : Text.escapeTriples content.toList = raw ++ leftover := by
    have whole : Text.escapeTriples content.toList ++ ['"', '"', '"', '\n'] =
        raw ++ '"' :: '"' :: '"' :: (leftover ++ ['\n']) := Text.eq_of_closeTriple closed
    have closing : '"' :: '"' :: '"' :: (leftover ++ ['\n']) =
        leftover ++ ['"', '"', '"', '\n'] := by
      have moved : List.replicate 3 '"' ++ leftover = leftover ++ List.replicate 3 '"' :=
        Text.leftover_comm content.toList 3
      simpa using congrArg (· ++ ['\n']) moved
    rw [closing, ← List.append_assoc] at whole
    exact List.append_cancel_right whole
  refine ⟨(Role.statement.buffer_ending_iff _ _).mpr (Literal.renders_docstring text),
    Text.escapeTriples content.toList, ?_, ?_, raw, here, early, read.symm⟩
  · rw [chars]
    simp [Text.written]
  · rw [here, early, ← Text.leftover_eq_nil_iff]
    constructor
    · rintro ⟨same, _⟩
      have nothing : leftover = [] := by simpa using congrArg (·.map (·.2)) same
      exact nothing
    · intro nothing
      rw [nothing] at read
      simpa [leftover, nothing] using read

/-- Of the quotes inside of a docstring none is lost, and of five at its end the last two. -/
theorem five_quotes_at_end_of_docstring :
    let content := "\"a\" \"\"\"\"\n\"\"\"\"\""
    let docstring := (Role.statement.emission
      (.exprStmt (.literal { value := .text content })) { indent := "\t" }).run Sink.buffer ""
    Text.quotesAtEnd content.toList = 5 ∧ ∃ raw,
      Text.closeDocstring docstring.state.toList = some (raw, "\"\"\n".toList) ∧
      Text.readQuotes raw = "\"a\" \"\"\"\"\n\"\"\"".toList := by
  intro content docstring
  obtain ⟨_, _, _, _, raw, found, _, read⟩ :=
    docstring_closes_iff { indent := "\t" } { value := .text content } content rfl rfl rfl
      (by decide)
  have five : Text.quotesAtEnd content.toList = 5 := by decide
  have split : content.toList =
      "\"a\" \"\"\"\"\n\"\"\"".toList ++ ['"', '"'] := by decide
  rw [Text.leftover, five] at found read
  exact ⟨five, raw, found, List.append_cancel_right (read.symm.trans split)⟩

end StarlarkPrinter
