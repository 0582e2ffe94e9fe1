import StarlarkPrinter.Proofs.Chars
import StarlarkPrinter.Proofs.Unquote

/-! Docstrings read back. A docstring is a literal between triple quotes: escapes are read
as in other literals, and the first three quotes in a row that are not escaped end it. What
is written for a text escapes every run of three quotes and nothing else. So the text is
read back exactly if none of its backslashes is read as an escape and the quotes at its
end, which stand in front of the closing ones, come in threes. -/

namespace StarlarkPrinter

namespace Text

def afterTriple? : List Char → Option (List Char)
  | '"' :: '"' :: '"' :: rest => some rest
  | _ => none

theorem afterTriple?_eq_some_iff (text rest : List Char) :
    afterTriple? text = some rest ↔ text = '"' :: '"' :: '"' :: rest := by
  constructor
  · intro found
    unfold afterTriple? at found
    split at found
    · cases found
      rfl
    · cases found
  · rintro rfl
    rfl

theorem afterTriple?_length {text rest : List Char} (found : afterTriple? text = some rest) :
    rest.length < text.length := by
  rw [(afterTriple?_eq_some_iff _ _).mp found]
  simp only [List.length_cons]
  omega

/-- Read a docstring from after its opening quotes: its characters, and what follows its
closing quotes. -/
def readTriple : List Char → Option (List Char × List Char)
  | [] => none
  | char :: rest =>
    match afterTriple? (char :: rest) with
    | some after => some ([], after)
    | none =>
      if char = '\\' then
        match found : readEscape rest with
        | some (escaped, further) =>
          have := readEscape_length found
          (readTriple further).map fun (chars, after) => (escaped :: chars, after)
        | none => (readTriple rest).map fun (chars, after) => ('\\' :: chars, after)
      else (readTriple rest).map fun (chars, after) => (char :: chars, after)
termination_by input => input.length

def readQuoted : List Char → Option (List Char × List Char)
  | '"' :: rest => unquote rest
  | _ => none

def readDocstring (text : List Char) : Option (List Char × List Char) :=
  (afterTriple? text).bind readTriple

theorem readTriple_close (rest : List Char) :
    readTriple ('"' :: '"' :: '"' :: rest) = some ([], rest) := by
  rw [readTriple]
  rfl

theorem readTriple_plain {char : Char} {rest : List Char}
    (inside : afterTriple? (char :: rest) = none) (notBackslash : char ≠ '\\') :
    readTriple (char :: rest) =
      (readTriple rest).map fun (chars, after) => (char :: chars, after) := by
  rw [readTriple]
  simp only [inside, if_neg notBackslash]

theorem readTriple_escape {char : Char} {input rest : List Char}
    (found : readEscape input = some (char, rest)) :
    readTriple ('\\' :: input) =
      (readTriple rest).map fun (chars, after) => (char :: chars, after) := by
  have inside : afterTriple? ('\\' :: input) = none := rfl
  rw [readTriple]
  simp only [inside, if_true]
  split
  · rename_i escaped further same
    rw [found] at same
    cases same
    rfl
  · rename_i nothing
    rw [found] at nothing
    cases nothing

theorem readTriple_backslash {rest : List Char} (nothing : readEscape rest = none) :
    readTriple ('\\' :: rest) =
      (readTriple rest).map fun (chars, after) => ('\\' :: chars, after) := by
  have inside : afterTriple? ('\\' :: rest) = none := rfl
  rw [readTriple]
  simp only [inside, if_true]
  split
  · rename_i escaped further found
    rw [found] at nothing
    cases nothing
  · rfl

/-- What a docstring writes after its opening quotes. -/
def written (text : List Char) : List Char :=
  escapeTriples text ++ ['"', '"', '"', '\n']

theorem written_triple (rest : List Char) :
    written ('"' :: '"' :: '"' :: rest) =
      '\\' :: '"' :: '\\' :: '"' :: '\\' :: '"' :: written rest := rfl

theorem escapeTriples_cons {char : Char} {rest : List Char}
    (plain : afterTriple? (char :: rest) = none) :
    escapeTriples (char :: rest) = char :: escapeTriples rest := by
  rw [escapeTriples]
  rintro further rfl rfl
  cases plain

/-- A text without three quotes in a row is written as it is. -/
theorem escapeTriples_of_untripled {text : List Char} (untripled : ¬ ['"', '"', '"'] <:+: text) :
    escapeTriples text = text := by
  fun_induction escapeTriples text with
  | case1 => rfl
  | case2 rest ih => exact absurd (List.prefix_append ['"', '"', '"'] rest).isInfix untripled
  | case3 char rest notTriple ih =>
    rw [ih (mt List.infix_cons untripled)]

theorem written_cons {char : Char} {rest : List Char}
    (plain : afterTriple? (char :: rest) = none) :
    written (char :: rest) = char :: written rest := by
  rw [written, escapeTriples_cons plain]
  rfl

theorem afterTriple?_eq_none {char : Char} {rest : List Char}
    (notTriple : ∀ further, char = '"' → rest = '"' :: '"' :: further → False) :
    afterTriple? (char :: rest) = none := by
  cases found : afterTriple? (char :: rest) with
  | none => rfl
  | some after =>
    cases (afterTriple?_eq_some_iff _ _).mp found
    exact (notTriple after rfl rfl).elim

theorem afterTriple?_of_ne {char : Char} (notQuote : char ≠ '"') (rest : List Char) :
    afterTriple? (char :: rest) = none :=
  afterTriple?_eq_none fun _ quote _ => notQuote quote

/-- Escaping quotes does not change which digits are read. -/
theorem readHex_written (width total : Nat) (text : List Char) :
    readHex width total (written text) =
      (readHex width total text).map fun (code, rest) => (code, written rest) := by
  induction width generalizing total text with
  | zero => rfl
  | succ width ih =>
    cases text with
    | nil => rfl
    | cons char rest =>
      cases closes : afterTriple? (char :: rest) with
      | some after =>
        rw [(afterTriple?_eq_some_iff _ _).mp closes]
        rfl
      | none =>
        rw [written_cons closes, readHex, readHex, Symbol.char?_self, Option.bind_some]
        cases hexDigit? char with
        | none => rfl
        | some digit => exact ih _ rest

/-- Escaping quotes does not change which escape is read, unless it starts with three
quotes or the text is over. -/
theorem readEscape_written {text : List Char} (present : text ≠ [])
    (plain : afterTriple? text = none) :
    readEscape (written text) =
      (readEscape text).map fun (char, rest) => (char, written rest) := by
  cases text with
  | nil => exact absurd rfl present
  | cons letter rest =>
    rw [written_cons plain, readEscape, readEscape, Symbol.char?_self]
    simp only [Option.bind_eq_bind, Option.bind_some]
    cases escapedLetter? letter with
    | some char => rfl
    | none =>
      cases hexWidth? letter with
      | none => rfl
      | some width =>
        simp only [Option.bind_some, readHex_written]
        cases readHex width 0 rest with
        | none => rfl
        | some found =>
          obtain ⟨code, further⟩ := found
          simp only [Option.map_some, Option.bind_some]
          cases CodePoint.ofNat? code <;> rfl

/-- Whether no backslash of a text is read as an escape between triple quotes. In front of
three quotes, which are escaped, it is read as itself. -/
def isInert : List Char → Bool
  | [] => true
  | char :: rest =>
    (char ≠ '\\' || (afterTriple? rest).isSome || (!rest.isEmpty && (readEscape rest).isNone)) &&
      isInert rest

/-- How many quotes a text ends in. -/
def quotesAtEnd (text : List Char) : Nat :=
  (text.reverse.takeWhile (· = '"')).length

theorem isInert_cons {char : Char} (notBackslash : char ≠ '\\') (rest : List Char) :
    isInert (char :: rest) = isInert rest := by
  simp [isInert, notBackslash]

/-- The quotes at the end stay the same behind another character, unless they are all that
there is and the character is a quote. -/
theorem quotesAtEnd_cons {char : Char} {rest : List Char}
    (stops : char ≠ '"' ∨ ∃ other ∈ rest, other ≠ '"') :
    quotesAtEnd (char :: rest) = quotesAtEnd rest := by
  unfold quotesAtEnd
  rw [List.reverse_cons, List.takeWhile_append]
  split
  · rename_i whole
    rcases stops with notQuote | ⟨other, member, notQuote⟩
    · simp [notQuote, whole]
    · have same : rest.reverse.takeWhile (· = '"') = rest.reverse :=
        (List.takeWhile_prefix _).eq_of_length whole
      have quotes : rest.reverse.all (· = '"') = true := same ▸ List.all_takeWhile
      have quote := List.all_eq_true.mp quotes other (List.mem_reverse.mpr member)
      exact absurd (of_decide_eq_true quote) notQuote
  · rfl

theorem quotesAtEnd_of_all {text : List Char} (all : ∀ char ∈ text, char = '"') :
    quotesAtEnd text = text.length := by
  have whole : (text.reverse ++ []).takeWhile (· = '"') =
      text.reverse ++ [].takeWhile (· = '"') :=
    List.takeWhile_append_of_pos (by simpa using all)
  rw [List.append_nil] at whole
  simp [quotesAtEnd, whole]

/-- Three more quotes in front do not change how many quotes at the end are left over when
they are taken in threes. -/
theorem quotesAtEnd_triple_mod (rest : List Char) :
    quotesAtEnd ('"' :: '"' :: '"' :: rest) % 3 = quotesAtEnd rest % 3 := by
  by_cases all : ∀ char ∈ rest, char = '"'
  · rw [quotesAtEnd_of_all (by simpa using all), quotesAtEnd_of_all all]
    simp only [List.length_cons]
    omega
  · have stops : ∃ other ∈ rest, other ≠ '"' := by simpa using all
    obtain ⟨other, member, notQuote⟩ := stops
    rw [quotesAtEnd_cons (.inr ⟨other, by simp [member], notQuote⟩),
      quotesAtEnd_cons (.inr ⟨other, by simp [member], notQuote⟩),
      quotesAtEnd_cons (.inr ⟨other, member, notQuote⟩)]

theorem three_dvd_quotesAtEnd_triple (rest : List Char) :
    3 ∣ quotesAtEnd ('"' :: '"' :: '"' :: rest) ↔ 3 ∣ quotesAtEnd rest := by
  rw [Nat.dvd_iff_mod_eq_zero, Nat.dvd_iff_mod_eq_zero, quotesAtEnd_triple_mod]

/-- Quotes that are no three in a row and that nothing else follows are one or two. -/
theorem eq_of_all_quotes {rest : List Char} (plain : afterTriple? ('"' :: rest) = none)
    (quotes : ∀ char ∈ rest, char = '"') : '"' :: rest = ['"'] ∨ '"' :: rest = ['"', '"'] := by
  cases rest with
  | nil => exact .inl rfl
  | cons first more =>
    obtain ⟨rfl, further⟩ := List.forall_mem_cons.mp quotes
    cases more with
    | nil => exact .inr rfl
    | cons second others =>
      rw [(List.forall_mem_cons.mp further).1] at plain
      cases plain

/-- Quotes in front of another character do not close the docstring. -/
private theorem afterTriple?_quote_written {rest : List Char}
    (plain : afterTriple? ('"' :: rest) = none) (inside : ∃ other ∈ rest, other ≠ '"') :
    afterTriple? ('"' :: written rest) = none := by
  cases found : afterTriple? ('"' :: written rest) with
  | none => rfl
  | some after =>
    injection (afterTriple?_eq_some_iff _ _).mp found with _ two
    obtain ⟨other, member, notQuote⟩ := inside
    cases rest with
    | nil => cases member
    | cons first more =>
      cases three : afterTriple? (first :: more) with
      | some further =>
        rw [(afterTriple?_eq_some_iff _ _).mp three] at plain
        cases plain
      | none =>
        rw [written_cons three] at two
        injection two with quote one
        subst quote
        cases more with
        | nil => exact absurd (List.mem_singleton.mp member) notQuote
        | cons second others =>
          cases further : afterTriple? (second :: others) with
          | some rest =>
            rw [(afterTriple?_eq_some_iff _ _).mp further] at one
            cases one
          | none =>
            rw [written_cons further] at one
            injection one with quote
            subst quote
            cases plain

/-- A character in front of another one that is no quote does not close the docstring. -/
theorem afterTriple?_cons_written {char : Char} {rest : List Char}
    (plain : afterTriple? (char :: rest) = none)
    (inside : char ≠ '"' ∨ ∃ other ∈ rest, other ≠ '"') :
    afterTriple? (char :: written rest) = none := by
  by_cases quote : char = '"'
  · subst quote
    exact afterTriple?_quote_written plain (inside.resolve_left (by simp))
  · exact afterTriple?_of_ne quote _

/-- A text that is well is read back up to the line feed; of any other text something is
lost, whatever is read. -/
def ReadsBack (well : Prop) (text : List Char) (result : Option (List Char × List Char)) : Prop :=
  (well ∧ result = some (text, ['\n'])) ∨
    (¬ well ∧ ∀ chars after, result = some (chars, after) → chars.length < text.length)

namespace ReadsBack

variable {well : Prop} {text : List Char} {result : Option (List Char × List Char)}

/-- Characters that are read as they are do not matter. -/
theorem append {other : Prop} (reads : ReadsBack well text result) (same : well ↔ other)
    (front : List Char) :
    ReadsBack other (front ++ text) (result.map fun (chars, after) => (front ++ chars, after)) := by
  rcases reads with ⟨holds, read⟩ | ⟨fails, loses⟩
  · exact .inl ⟨same.mp holds, by rw [read]; rfl⟩
  · refine .inr ⟨mt same.mpr fails, fun chars after found => ?_⟩
    obtain ⟨⟨inner, further⟩, read, shown⟩ := Option.map_eq_some_iff.mp found
    cases shown
    have shorter := loses inner after read
    simp only [List.length_append]
    omega

theorem length_le (reads : ReadsBack well text result) {chars after : List Char}
    (found : result = some (chars, after)) : chars.length ≤ text.length := by
  rcases reads with ⟨_, read⟩ | ⟨_, loses⟩
  · rw [read] at found
    cases found
    exact Nat.le_refl _
  · exact Nat.le_of_lt (loses chars after found)

theorem iff (reads : ReadsBack well text result) : result = some (text, ['\n']) ↔ well := by
  rcases reads with ⟨holds, read⟩ | ⟨fails, loses⟩
  · exact iff_of_true read holds
  · exact iff_of_false (fun read => Nat.lt_irrefl _ (loses _ _ read)) fails

end ReadsBack

/-- A text is read back from between triple quotes: none of its backslashes is read as an
escape, and the quotes at its end come in threes. -/
def Survives (text : List Char) : Prop :=
  isInert text = true ∧ 3 ∣ quotesAtEnd text

instance : DecidablePred Survives :=
  fun text => inferInstanceAs (Decidable (isInert text = true ∧ 3 ∣ quotesAtEnd text))

/-- What is written for a text is read back exactly if the text survives. -/
def WrittenReadsBack (text : List Char) : Prop :=
  ReadsBack (Survives text) text (readTriple (written text))

namespace WrittenReadsBack

variable {rest : List Char}

private theorem triple (reads : WrittenReadsBack rest) :
    WrittenReadsBack ('"' :: '"' :: '"' :: rest) := by
  have same : Survives rest ↔ Survives ('"' :: '"' :: '"' :: rest) := by
    simp only [Survives, isInert_cons (show '"' ≠ '\\' by decide), three_dvd_quotesAtEnd_triple]
  have step : readTriple (written ('"' :: '"' :: '"' :: rest)) =
      (readTriple (written rest)).map fun (chars, after) => (['"', '"', '"'] ++ chars, after) := by
    rw [written_triple, readTriple_escape rfl, readTriple_escape rfl, readTriple_escape rfl,
      Option.map_map, Option.map_map]
    rfl
  rw [WrittenReadsBack, step]
  exact reads.append same ['"', '"', '"']

/-- The backslash escapes that of the first quote, which then stands by itself. -/
private theorem backslashTriple (reads : WrittenReadsBack rest) :
    WrittenReadsBack ('\\' :: '"' :: '"' :: '"' :: rest) := by
  have same : Survives rest ↔ Survives ('\\' :: '"' :: '"' :: '"' :: rest) := by
    rw [Survives, Survives, quotesAtEnd_cons (.inl (by decide)), three_dvd_quotesAtEnd_triple]
    simp [isInert, afterTriple?]
  have step : readTriple (written ('\\' :: '"' :: '"' :: '"' :: rest)) =
      (readTriple (written rest)).map
        fun (chars, after) => (['\\', '"', '"', '"'] ++ chars, after) := by
    rw [written_cons rfl, written_triple, readTriple_escape rfl, readTriple_plain rfl (by decide),
      readTriple_escape rfl, readTriple_escape rfl, Option.map_map, Option.map_map, Option.map_map]
    rfl
  rw [WrittenReadsBack, step]
  exact reads.append same ['\\', '"', '"', '"']

/-- A backslash at the end escapes the first of the closing quotes. -/
private theorem backslashEnd : WrittenReadsBack ['\\'] := by
  have step : readTriple (written ['\\']) = none := by
    rw [written_cons rfl]
    rw [readTriple_escape rfl, readTriple_plain rfl (by decide), readTriple_plain rfl (by decide),
      readTriple_plain rfl (by decide), readTriple]
    rfl
  rw [WrittenReadsBack, step]
  exact .inr ⟨by decide, by simp⟩

/-- A backslash that starts an escape is lost. -/
private theorem escape {char : Char} {further : List Char} (plain : afterTriple? rest = none)
    (found : readEscape rest = some (char, further)) (reads : WrittenReadsBack further) :
    WrittenReadsBack ('\\' :: rest) := by
  have present : rest ≠ [] := by
    rintro rfl
    cases found
  have shorter := readEscape_length found
  have step : readTriple (written ('\\' :: rest)) =
      (readTriple (written further)).map fun (chars, after) => (char :: chars, after) := by
    rw [written_cons rfl]
    apply readTriple_escape
    rw [readEscape_written present plain, found]
    rfl
  rw [WrittenReadsBack, step]
  refine .inr ⟨?_, fun chars after read => ?_⟩
  · simp [Survives, isInert, plain, found]
  · obtain ⟨⟨inner, remaining⟩, own, shown⟩ := Option.map_eq_some_iff.mp read
    cases shown
    have bound := reads.length_le own
    simp only [List.length_cons]
    omega

private theorem backslash (present : rest ≠ []) (plain : afterTriple? rest = none)
    (nothing : readEscape rest = none) (reads : WrittenReadsBack rest) :
    WrittenReadsBack ('\\' :: rest) := by
  have same : Survives rest ↔ Survives ('\\' :: rest) := by
    rw [Survives, Survives, quotesAtEnd_cons (.inl (by decide))]
    simp [isInert, nothing, present]
  have step : readTriple (written ('\\' :: rest)) =
      (readTriple (written rest)).map fun (chars, after) => (['\\'] ++ chars, after) := by
    rw [written_cons rfl, readTriple_backslash]
    · rfl
    · rw [readEscape_written present plain, nothing]
      rfl
  rw [WrittenReadsBack, step]
  exact reads.append same ['\\']

/-- One or two quotes at the end close the docstring too early. -/
private theorem closes {text : List Char} (early : text = ['"'] ∨ text = ['"', '"']) :
    WrittenReadsBack text := by
  have step : ∃ after, readTriple (written text) = some ([], after) := by
    rcases early with rfl | rfl
    · exact ⟨_, readTriple_close _⟩
    · exact ⟨_, readTriple_close _⟩
  obtain ⟨after, read⟩ := step
  rw [WrittenReadsBack, read]
  refine .inr ⟨?_, fun chars after found => ?_⟩
  · rcases early with rfl | rfl <;> decide
  · cases found
    rcases early with rfl | rfl <;> decide

private theorem plain {char : Char} (plain : afterTriple? (char :: rest) = none)
    (inside : char ≠ '"' ∨ ∃ other ∈ rest, other ≠ '"') (notBackslash : char ≠ '\\')
    (reads : WrittenReadsBack rest) : WrittenReadsBack (char :: rest) := by
  have same : Survives rest ↔ Survives (char :: rest) := by
    rw [Survives, Survives, isInert_cons notBackslash, quotesAtEnd_cons inside]
  have step : readTriple (written (char :: rest)) =
      (readTriple (written rest)).map fun (chars, after) => ([char] ++ chars, after) := by
    rw [written_cons plain, readTriple_plain (afterTriple?_cons_written plain inside) notBackslash]
    rfl
  rw [WrittenReadsBack, step]
  exact reads.append same [char]

end WrittenReadsBack

theorem writtenReadsBack (text : List Char) : WrittenReadsBack text := by
  match text with
  | [] => exact .inl ⟨by decide, readTriple_close _⟩
  | char :: rest =>
    cases three : afterTriple? (char :: rest) with
    | some further =>
      have shorter := afterTriple?_length three
      rw [(afterTriple?_eq_some_iff _ _).mp three]
      exact (writtenReadsBack further).triple
    | none =>
      by_cases backslash : char = '\\'
      · subst backslash
        cases inner : afterTriple? rest with
        | some further =>
          have shorter := afterTriple?_length inner
          rw [(afterTriple?_eq_some_iff _ _).mp inner]
          exact (writtenReadsBack further).backslashTriple
        | none =>
          by_cases atEnd : rest = []
          · subst atEnd
            exact .backslashEnd
          · cases found : readEscape rest with
            | none => exact .backslash atEnd inner found (writtenReadsBack rest)
            | some escaped =>
              have shorter := readEscape_length found
              exact .escape inner found (writtenReadsBack escaped.2)
      · by_cases inside : char ≠ '"' ∨ ∃ other ∈ rest, other ≠ '"'
        · exact .plain three inside backslash (writtenReadsBack rest)
        · simp only [ne_eq, not_or, Decidable.not_not, not_exists, not_and] at inside
          obtain ⟨rfl, quotes⟩ := inside
          exact .closes (eq_of_all_quotes three quotes)
termination_by text.length
decreasing_by all_goals simp only [List.length_cons] at *; omega

/-- A text is its lines with line feeds between them. -/
theorem splitLines_join (text : List Char) :
    (splitLines text).1 ++ (splitLines text).2.flatMap ('\n' :: ·) = text := by
  fun_induction splitLines text with
  | case1 => rfl
  | case2 rest first further split ih => simpa [split] using ih
  | case3 char rest notBreak first further split ih => simpa [split] using ih

/-- The further lines of a docstring behind a margin. An empty line gets the margin only if it
is the last one. -/
def behindMargin (margin : List Char) : List (List Char) → List (List Char)
  | [] => []
  | line :: rest =>
    (if !line.isEmpty || rest.isEmpty then margin ++ line else []) :: behindMargin margin rest

theorem behindMargin_nil (lines : List (List Char)) : behindMargin [] lines = lines := by
  induction lines with
  | nil => rfl
  | cons line rest ih =>
    rw [behindMargin, ih]
    cases line <;> simp

/-- What a docstring puts between its quotes: its further lines have `width` spaces taken off
and stand behind a margin. -/
def docstringBody (width : Nat) (margin text : List Char) : List Char :=
  (splitLines (escapeTriples text)).1 ++
    (behindMargin margin ((splitLines (escapeTriples text)).2.map (stripSpaces width))).flatMap
      ('\n' :: ·)

/-- Without a margin and with nothing to take off, only quotes are changed. -/
theorem docstringBody_bare (text : List Char) : docstringBody 0 [] text = escapeTriples text := by
  have same : stripSpaces 0 = id := rfl
  rw [docstringBody, behindMargin_nil, same, List.map_id, splitLines_join]

end Text

theorem Shape.chars_furtherLines (options : Options) (width index : Nat)
    (lines : List (List Char)) :
    (furtherLines width index lines).flatMap (Step.chars options) =
      (Text.behindMargin (options.indentation 0).toList
        (lines.map (Text.stripSpaces width))).flatMap ('\n' :: ·) := by
  induction lines generalizing index with
  | nil => rfl
  | cons line rest ih =>
    simp only [furtherLines, List.map_cons, Text.behindMargin, List.isEmpty_map,
      List.cons_append, List.flatMap_cons, List.flatMap_append, ih, Step.chars_newline]
    split <;> simp

section Docstring

variable {leaf : Literal} {content : String} (text : leaf.value = .text content)

include text

theorem Literal.renders_docstring : Role.statement.renders (.exprStmt (.literal leaf)) = true := by
  simp [Role.renders, Node.rendersAsStatement, Node.rendersAsExpression, text, Value.isWritable]

/-- A literal with a text is, as a statement, a docstring. -/
theorem Literal.chars_docstring (options : Options) :
    Role.statement.chars (.exprStmt (.literal leaf)) options =
      (Shape.docstring leaf content).flatMap (Step.chars options) := by
  have found : (Node.literal leaf).docstring? = some (leaf, content) := by
    simp [Node.docstring?, text]
  rw [Role.chars_eq_plan (renders_docstring text)]
  simp only [Role.plan, Node.statementPlan, found, Plan.chars_inScope]

end Docstring

/-- A docstring is its body between triple quotes, behind the indentation. -/
theorem Shape.chars_docstring_body (options : Options) (leaf : Literal) (content : String) :
    (docstring leaf content).flatMap (Step.chars options) =
      (options.indentation 0).toList ++ ['"', '"', '"'] ++
        Text.docstringBody leaf.sourceIndent (options.indentation 0).toList content.toList ++
          ['"', '"', '"', '\n'] := by
  simp [docstring, chars_furtherLines, Text.docstringBody]

section Outermost

variable {options : Options} (outermost : options.depth = 0)

include outermost

theorem Options.indentation_outermost : options.indentation 0 = "" := by
  simp [indentation, outermost, repeated]

/-- A docstring at the outermost level that has no place in a source. -/
theorem Shape.chars_docstring {leaf : Literal} (unplaced : leaf.position = none)
    (content : String) :
    (docstring leaf content).flatMap (Step.chars options) =
      '"' :: '"' :: '"' :: Text.written content.toList := by
  have width : leaf.sourceIndent = 0 := by
    simp [Literal.sourceIndent, unplaced]
  have margin : (options.indentation 0).toList = [] := by
    rw [Options.indentation_outermost outermost]
    rfl
  rw [chars_docstring_body, width, margin, Text.docstringBody_bare]
  rfl

end Outermost

/-- A literal that holds a text renders in both places, and its rendering between quotes is
read back. Its rendering as a docstring, at the outermost level and without a place in a
source, is read back exactly if the text survives. -/
theorem docstring_reads_back_iff (options : Options) (leaf : Literal) (content : String)
    (text : leaf.value = .text content) (unplaced : leaf.position = none)
    (outermost : options.depth = 0) :
    let docstring :=
      (Role.statement.emission (.exprStmt (.literal leaf)) options).run Sink.buffer ""
    let quoted := (Role.expression.emission (.literal leaf) options).run Sink.buffer ""
    docstring.ending = .done ∧ quoted.ending = .done ∧
      Text.readQuoted quoted.state.toList = some (content.toList, []) ∧
      (Text.readDocstring docstring.state.toList = some (content.toList, ['\n']) ↔
        Text.isInert content.toList = true ∧ 3 ∣ Text.quotesAtEnd content.toList) := by
  intro docstring quoted
  have renders : Role.expression.renders (.literal leaf) = true := by
    simp [Role.renders, Node.rendersAsExpression, text, Value.isWritable]
  have statementRenders : Role.statement.renders (.exprStmt (.literal leaf)) = true := renders
  have found : (Node.literal leaf).docstring? = some (leaf, content) := by
    simp [Node.docstring?, text]
  refine ⟨(Role.statement.buffer_ending_iff _ _).mpr statementRenders,
    (Role.expression.buffer_ending_iff _ _).mpr renders, ?_, ?_⟩
  · have chars := Node.chars_text options text
    rw [Role.toList_buffer, show Role.expression.chars _ options = _ from chars, Text.quoteChars]
    exact Text.unquote_quoteChars content.toList []
  · have chars : Role.statement.chars (.exprStmt (.literal leaf)) options =
        '"' :: '"' :: '"' :: Text.written content.toList := by
      rw [Role.chars_eq_plan statementRenders]
      simp only [Role.plan, Node.statementPlan, found, Plan.chars_inScope]
      exact Shape.chars_docstring outermost unplaced content
    rw [Role.toList_buffer, chars]
    exact (Text.writtenReadsBack content.toList).iff

/-- Three quotes inside of a docstring and a backslash in front of them are read back, a
quote at its end is not. -/
theorem quote_at_end_of_docstring_not_read_back :
    let printed (content : String) :=
      ((Role.statement.emission (.exprStmt (.literal { value := .text content })) {}).run
        Sink.buffer "").state.toList
    Text.readDocstring (printed "\\\"\"\" \"a\" \\d") = some ("\\\"\"\" \"a\" \\d".toList, ['\n']) ∧
      Text.readDocstring (printed "a\"") ≠ some ("a\"".toList, ['\n']) := by
  intro printed
  have kept := docstring_reads_back_iff {} { value := .text "\\\"\"\" \"a\" \\d" } _ rfl rfl rfl
  have lost := docstring_reads_back_iff {} { value := .text "a\"" } _ rfl rfl rfl
  exact ⟨kept.2.2.2.mpr (by decide), mt lost.2.2.2.mp (by decide)⟩

end StarlarkPrinter
