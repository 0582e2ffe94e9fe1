import StarlarkPrinter.Proofs.Reader

namespace StarlarkPrinter.Reading

/-- What may follow a run of letters, digits and underscores. -/
def EndsRun (rest : List Char) : Prop :=
  ∀ char ∈ rest.head?, Text.isNameChar char = false

theorem Ends.endsRun {rest : List Char} (ends : Ends rest) : EndsRun rest :=
  fun char head => (ends char head).1

theorem ends_spaced (token : Token) (rest : List Char) : Ends (spaced token ++ rest) := by
  intro char head
  simp only [spaced, List.cons_append, List.head?_cons, Option.mem_def, Option.some.injEq] at head
  subst head
  decide

/-- A connective that is no operator ends an expression. -/
theorem stops_spaced {token : Token} (member : token ∈ connectives)
    (loose : token ≠ .kwIf ∧ token ∉ Token.infixes) (rest : List Char) :
    Stops (spaced token ++ rest) := by
  refine ⟨ends_spaced token rest, fun op further found => ?_⟩
  rw [connective?_spaced member] at found
  cases found
  exact loose

section Leaf

/-- The longest run of certain characters ends where another character follows. -/
theorem takeWhile_run {within : Char → Bool} {run rest : List Char}
    (inside : ∀ char ∈ run, within char = true)
    (ends : ∀ char ∈ rest.head?, within char = false) :
    (run ++ rest).takeWhile within = run ∧ (run ++ rest).dropWhile within = rest := by
  have stopped : rest.takeWhile within = [] ∧ rest.dropWhile within = rest := by
    cases rest with
    | nil => exact ⟨rfl, rfl⟩
    | cons char further => simp [ends char rfl]
  simp [List.takeWhile_append_of_pos inside, List.dropWhile_append_of_pos inside, stopped]

private theorem leaf_of_run {run rest : List Char}
    (named : ∀ char ∈ run, Text.isNameChar char = true) (ends : EndsRun rest) :
    leaf (run ++ rest) = (leaf? run).map (·, rest) := by
  simp [leaf, takeWhile_run named ends]

theorem leaf_reads_name {name : List Char} (isName : Text.isName name = true) :
    Reads leaf name EndsRun (.ident { name := String.ofList name }) := by
  intro rest ends
  cases name with
  | nil => cases isName
  | cons first further =>
    simp only [Text.isName, Bool.and_eq_true, Bool.not_eq_true', List.all_eq_true] at isName
    obtain ⟨⟨⟨noDigit, starts⟩, named⟩, noWord⟩ := isName
    rw [leaf_of_run (List.forall_mem_cons.mpr ⟨starts, named⟩) ends]
    simp [leaf?, noDigit, noWord]

theorem leaf_reads_number (number : Nat) :
    Reads leaf (Nat.toDigits 10 number) EndsRun (.literal { value := .int number }) := by
  intro rest ends
  have digits : ∀ char ∈ Nat.toDigits 10 number, char.isDigit = true :=
    fun char => Nat.isDigit_of_mem_toDigits (by decide) (by decide)
  have named : ∀ char ∈ Nat.toDigits 10 number, Text.isNameChar char = true :=
    fun char member => by simp [Text.isNameChar, Char.isAlphanum, digits char member]
  have value : Nat.ofDigitChars 10 (Nat.toDigits 10 number) 0 = number :=
    Nat.ofDigitChars_ten_toDigits
  rw [leaf_of_run named ends]
  cases run : Nat.toDigits 10 number with
  | nil => exact absurd run Nat.toDigits_ne_nil
  | cons first further =>
    rw [run] at digits value
    simp [leaf?, digits first (by simp), value]

end Leaf

section Selective

/-- The characters that no element starts with start no leaf. -/
private theorem leaf_eq_none {char : Char} {rest : List Char}
    (unnamed : Text.isNameChar char = false) : leaf (char :: rest) = none := by
  simp [leaf, unnamed, leaf?]

theorem primary_selective (level : Nat) : Selective (primary level) := by
  cases level with
  | zero => exact ⟨rfl, fun _ _ _ => rfl⟩
  | succ level =>
    refine ⟨rfl, fun char rest stops => ?_⟩
    have plain : Text.isNameChar char = false ∧
        char ≠ '"' ∧ char ≠ '(' ∧ char ≠ '[' ∧ char ≠ '\x7b' := by
      simp only [blanks, closers, List.mem_append, List.mem_cons, List.not_mem_nil,
        or_false] at stops
      rcases stops with (rfl | rfl | rfl) | rfl | rfl | rfl | rfl <;> decide
    obtain ⟨unnamed, noQuote, noParen, noBracket, noBrace⟩ := plain
    simp [primary, atom, noQuote, noParen, noBracket, noBrace, leaf_eq_none unnamed]

variable {read : Reader Node}

theorem Selective.expression (selective : Selective read) :
    Selective (Reading.expression read) := by
  refine ⟨by simp [Reading.expression, selective.1, sign?], fun char rest stops => ?_⟩
  have signless : sign? (char :: rest) = none := by
    simp only [blanks, closers, List.mem_append, List.mem_cons, List.not_mem_nil, or_false] at stops
    rcases stops with (rfl | rfl | rfl) | rfl | rfl | rfl | rfl <;> rfl
  simp [Reading.expression, selective.2 char rest stops, signless]

private theorem star?_eq_none {char : Char} (starless : char ≠ '*') (rest : List Char) :
    star? (char :: rest) = none := by
  unfold star?
  split <;> simp_all

private theorem star?_star {char : Char} (starless : char ≠ '*') (rest : List Char) :
    star? ('*' :: char :: rest) = some (.star, char :: rest) := by
  unfold star?
  split <;> simp_all

theorem Selective.argument (selective : Selective read) : Selective (Reading.argument read) := by
  refine ⟨by simp [Reading.argument, star?, selective.expression.1], fun char rest stops => ?_⟩
  have starless : char ≠ '*' := by
    rintro rfl
    exact absurd stops (by decide)
  simp [Reading.argument, star?_eq_none starless, selective.expression.2 char rest stops]

theorem Selective.entry (selective : Selective read) : Selective (Reading.entry read) :=
  ⟨by simp [Reading.entry, selective.expression.1], fun char rest stops => by
    simp [Reading.entry, selective.expression.2 char rest stops]⟩

theorem Selective.element (selective : Selective read) (curly : Bool) :
    Selective (Reading.element read curly) := by
  cases curly
  · exact selective.expression
  · exact selective.entry

end Selective

section Operators

variable {read : Reader Node} {x y z : List Char} {first second third : Node}

/-- A primary alone is an expression, where no operator follows. -/
theorem expression_reads_primary (reads : Reads read x Ends first) :
    Reads (expression read) x Stops first := by
  intro rest stops
  simp only [expression, reads rest stops.1]
  cases found : connective? rest with
  | none => rfl
  | some connective =>
    obtain ⟨op, further⟩ := connective
    obtain ⟨noIf, noInfix⟩ := stops.2 op further found
    simp [noIf, noInfix]

theorem expression_reads_binary {op : Token} (sign : op ∈ Token.infixes)
    (left : Reads read x Ends first) (right : Reads read y Ends second) :
    Reads (expression read) (x ++ spaced op ++ y) Stops (.binary first (some op) second) := by
  intro rest stops
  have noIf : op ≠ .kwIf := by
    rintro rfl
    exact absurd sign (by decide)
  have connects : connective? (spaced op ++ (y ++ rest)) = some (op, y ++ rest) :=
    connective?_spaced (List.mem_append_left _ sign) _
  rw [List.append_assoc, List.append_assoc]
  simp [expression, left _ (ends_spaced op _), connects, noIf, sign, right rest stops.1]

theorem expression_reads_cond (left : Reads read x Ends first) (middle : Reads read y Ends second)
    (right : Reads read z Ends third) :
    Reads (expression read) (x ++ spaced .kwIf ++ y ++ spaced .kwElse ++ z) Stops
      (.cond second first third) := by
  intro rest stops
  have ifs : connective? (spaced .kwIf ++ (y ++ (spaced .kwElse ++ (z ++ rest)))) =
      some (.kwIf, y ++ (spaced .kwElse ++ (z ++ rest))) := connective?_spaced (by decide) _
  have elses : connective? (spaced .kwElse ++ (z ++ rest)) = some (.kwElse, z ++ rest) :=
    connective?_spaced (by decide) _
  simp only [List.append_assoc]
  simp [expression, left _ (ends_spaced _ _), ifs, middle _ (ends_spaced _ _), elses,
    right rest stops.1]

/-- The characters of an operator in front of an operand. -/
def signChars (op : Token) : List Char :=
  Token.chars (some op) ++ if op.isKeyword then [' '] else []

private theorem primary_sign {op : Token} (sign : op ∈ Token.signs) (level : Nat)
    (rest : List Char) : primary level (signChars op ++ rest) = none := by
  cases level with
  | zero => rfl
  | succ level =>
    simp only [Token.signs, List.mem_cons, List.not_mem_nil, or_false] at sign
    rcases sign with rfl | rfl | rfl | rfl
    · rfl
    · rfl
    · rfl
    · rfl

theorem expression_reads_unary {op : Token} (sign : op ∈ Token.signs) {level : Nat}
    (operand : Reads (primary level) x Ends first) :
    Reads (expression (primary level)) (signChars op ++ x) Stops (.unary (some op) first) := by
  intro rest stops
  have signed : sign? (signChars op ++ (x ++ rest)) = some (op, x ++ rest) := by
    simp only [Token.signs, List.mem_cons, List.not_mem_nil, or_false] at sign
    rcases sign with rfl | rfl | rfl | rfl <;> rfl
  rw [List.append_assoc]
  simp [expression, primary_sign sign, signed, operand rest stops.1]

end Operators

section Arguments

variable {level : Nat} {x y : List Char} {first second : Node}

private theorem star?_of_reads {rest : List Char}
    (taken : expression (primary level) (x ++ rest) = some (first, y)) :
    star? (x ++ rest) = none := by
  have starless (further : List Char) : expression (primary level) ('*' :: further) = none := by
    cases level <;> rfl
  cases split : x ++ rest with
  | nil => rfl
  | cons char further =>
    apply star?_eq_none
    rintro rfl
    rw [split, starless] at taken
    cases taken

theorem argument_reads_expression (reads : Reads (expression (primary level)) x Stops first) :
    Reads (argument (primary level)) x Breaks first := by
  intro rest breaks
  have taken := reads rest breaks.stops
  simp only [argument, star?_of_reads taken, taken, Option.bind_eq_bind, Option.bind_some]
  split
  · exact absurd (breaks '=' rfl) (by decide)
  · simp [connective?_eq_none breaks.unspaced]

theorem argument_reads_keyword (spaces : Bool) (name : Reads (primary level) x Ends first)
    (value : Reads (expression (primary level)) y Stops second) :
    Reads (argument (primary level))
      (x ++ (if spaces then [' ', '=', ' '] else ['=']) ++ y) Breaks
      (.binary first (some .eq) second) := by
  intro rest breaks
  have right := value rest breaks.stops
  cases spaces with
  | false =>
    have stops : Stops ('=' :: (y ++ rest)) :=
      ⟨by intro char head; cases head; decide, fun op further found => by
        rw [connective?_eq_none (by intro char head; cases head; decide)] at found
        cases found⟩
    have left := expression_reads_primary name _ stops
    have shape : x ++ ['='] ++ y ++ rest = x ++ '=' :: (y ++ rest) := by simp
    simp only [Bool.false_eq_true, if_false, shape, argument, star?_of_reads left, left]
    simp [keyword, right]
  | true =>
    have connects : connective? (' ' :: '=' :: ' ' :: (y ++ rest)) = some (.eq, y ++ rest) :=
      connective?_spaced (by decide : Token.eq ∈ connectives) _
    have stops : Stops (' ' :: '=' :: ' ' :: (y ++ rest)) :=
      stops_spaced (by decide : Token.eq ∈ connectives) (by decide) _
    have left := expression_reads_primary name _ stops
    have shape : x ++ [' ', '=', ' '] ++ y ++ rest = x ++ ' ' :: '=' :: ' ' :: (y ++ rest) := by
      simp
    simp only [if_true, shape, argument, star?_of_reads left, left]
    simp [connects, keyword, right]

theorem argument_reads_star {op : Token} (sign : op = .star ∨ op = .starStar)
    (operand : Reads (primary level) x Ends first) :
    Reads (argument (primary level)) (Token.chars (some op) ++ x) Breaks
      (.unary (some op) first) := by
  intro rest breaks
  have starless (further : List Char) : primary level ('*' :: further) = none := by
    cases level <;> rfl
  have taken := operand rest breaks.ends
  have starred : star? (Token.chars (some op) ++ (x ++ rest)) = some (op, x ++ rest) := by
    rcases sign with rfl | rfl
    · cases split : x ++ rest with
      | nil => rfl
      | cons char further =>
        have noStar : char ≠ '*' := by
          rintro rfl
          rw [split, starless] at taken
          cases taken
        exact star?_star noStar further
    · rfl
  rw [List.append_assoc]
  simp [argument, starred, taken]

end Arguments

section Entries

variable {read : Reader Node} {x y z : List Char} {first second : Node}

theorem entry_reads (key : Reads (expression read) x Stops first)
    (value : Reads (expression read) y Stops second) :
    Reads (entry read) (x ++ ':' :: ' ' :: y) Stops (.dictEntry first second) := by
  intro rest stops
  have colon : Breaks (':' :: ' ' :: (y ++ rest)) := Breaks.cons (by decide) _
  have left := key _ colon.stops
  simp [entry, left, value rest stops]

theorem clause_reads_for (vars : Reads read x Ends first) (range : Reads read y Ends second) :
    Reads (clause read) (spaced .kwFor ++ x ++ spaced .kwIn ++ y) Ends
      (.forClause first second) := by
  intro rest ends
  have fors : connective? (spaced .kwFor ++ (x ++ (spaced .kwIn ++ (y ++ rest)))) =
      some (.kwFor, x ++ (spaced .kwIn ++ (y ++ rest))) := connective?_spaced (by decide) _
  have ins : connective? (spaced .kwIn ++ (y ++ rest)) = some (.kwIn, y ++ rest) :=
    connective?_spaced (by decide) _
  simp only [List.append_assoc]
  simp [clause, fors, vars _ (ends_spaced _ _), ins, range rest ends]

theorem clause_reads_if (test : Reads read x Ends first) :
    Reads (clause read) (spaced .kwIf ++ x) Ends (.ifClause first) := by
  intro rest ends
  have ifs : connective? (spaced .kwIf ++ (x ++ rest)) = some (.kwIf, x ++ rest) :=
    connective?_spaced (by decide) _
  simp only [List.append_assoc]
  simp [clause, ifs, test rest ends]

end Entries

section Subscripts

variable {level : Nat} {x y z : List Char} {first second third : Node}

/-- A reader takes a bound: an expression, or nothing. -/
def ReadsBound (read : Reader Node) (text : List Char) (bound : Node) : Prop :=
  (text = [] ∧ bound = .missing) ∨ Reads (expression read) text Stops bound

theorem bound_reads (reads : ReadsBound (primary level) x first) {char : Char}
    (ends : char = ':' ∨ char = ']') (rest : List Char) :
    bound (primary level) (x ++ char :: rest) = some (first, char :: rest) := by
  have noColon (further : List Char) : expression (primary level) (':' :: further) = none := by
    cases level <;> rfl
  have noClose (further : List Char) : expression (primary level) (']' :: further) = none :=
    (primary_selective level).expression.2 ']' further (by decide)
  rcases reads with ⟨rfl, rfl⟩ | reads
  · rcases ends with rfl | rfl <;> rfl
  · have breaks : Breaks (char :: rest) := by
      apply Breaks.cons
      rcases ends with rfl | rfl <;> decide
    have taken := reads _ breaks.stops
    unfold bound
    split
    · rename_i further split
      rw [split, noColon] at taken
      cases taken
    · rename_i further split
      rw [split, noClose] at taken
      cases taken
    · exact taken

theorem subscript_reads_index (reads : Reads (expression (primary level)) x Stops first)
    (rest : List Char) (node : Node) :
    subscript (primary level) node (x ++ ']' :: rest) = some (.index node first, rest) := by
  have taken := bound_reads (.inr reads) (.inr rfl) rest
  simp [subscript, taken]

theorem subscript_reads_slice (low : ReadsBound (primary level) x first)
    (high : ReadsBound (primary level) y second) (rest : List Char) (node : Node) :
    subscript (primary level) node (x ++ ':' :: (y ++ ']' :: rest)) =
      some (.slice node first second .missing, rest) := by
  have left := bound_reads low (.inl rfl) (y ++ ']' :: rest)
  have right := bound_reads high (.inr rfl) rest
  simp [subscript, left, right]

theorem subscript_reads_stride (low : ReadsBound (primary level) x first)
    (high : ReadsBound (primary level) y second)
    (stride : Reads (expression (primary level)) z Stops third) (rest : List Char)
    (node : Node) :
    subscript (primary level) node (x ++ ':' :: (y ++ ':' :: (z ++ ']' :: rest))) =
      some (.slice node first second third, rest) := by
  have left := bound_reads low (.inl rfl) (y ++ ':' :: (z ++ ']' :: rest))
  have middle := bound_reads high (.inl rfl) (z ++ ']' :: rest)
  have close : Breaks (']' :: rest) := Breaks.cons (by decide) rest
  have right := stride _ close.stops
  simp [subscript, left, middle, right]

end Subscripts

section Collections

variable {read : Reader Node} {loops : Nat}

/-- The reader takes all clauses up to what starts no clause. -/
theorem clauses_reads {options : Options} {members : List Node} {rest : List Char}
    (each : ∀ member ∈ members,
      Reads (clause read) (Node.clauseChars options member) Ends member.bare)
    (starts : ∀ member ∈ members, ∀ further, Ends (Node.clauseChars options member ++ further))
    (ends : Ends rest) (last : clause read rest = none) (enough : members.length < loops) :
    clauses read loops (members.flatMap (Node.clauseChars options) ++ rest) =
      some (members.map Node.bare, rest) := by
  induction members generalizing loops with
  | nil =>
    obtain ⟨loops, rfl⟩ := Nat.exists_eq_add_one_of_ne_zero (by omega : loops ≠ 0)
    simp [clauses, last]
  | cons member others ih =>
    obtain ⟨loops, rfl⟩ := Nat.exists_eq_add_one_of_ne_zero (by omega : loops ≠ 0)
    have remaining := ih (fun other inside => each other (by simp [inside]))
      (fun other inside => starts other (by simp [inside]))
      (by simp at enough; omega : others.length < loops)
    have follows : Ends (others.flatMap (Node.clauseChars options) ++ rest) := by
      cases others with
      | nil => exact ends
      | cons next further =>
        rw [List.flatMap_cons, List.append_assoc]
        exact starts next (by simp) _
    have taken := each member (by simp) _ follows
    rw [List.flatMap_cons, List.append_assoc]
    simp [clauses, taken, remaining]

theorem clause_eq_none {rest : List Char} (breaks : Breaks rest) : clause read rest = none := by
  simp [clause, connective?_eq_none breaks.unspaced]

variable {spacing : Spacing} {elements : List Node}

private theorem closing_mem (curly : Bool) : closing curly ∈ closers := by
  cases curly <;> decide

private theorem breaks_closing (curly : Bool) (rest : List Char) :
    Breaks (closing curly :: rest) :=
  Breaks.cons (by simp [closing_mem]) rest

theorem collection_reads_elements {curly : Bool} (selective : Selective read)
    (blank : spacing.IsBlank) (bare : elements = [] → spacing.ending = [])
    (each : ∀ member ∈ elements,
      Reads (element read curly) (member.chars spacing.inner) Breaks member.bare)
    (enough : elements.length < loops) (rest : List Char) :
    collection read loops curly (spacing.chars elements ++ closing curly :: rest) =
      some (ofElements curly (elements.map Node.bare), rest) := by
  cases elements with
  | nil =>
    have gaps : ∀ char ∈ spacing.lead ++ spacing.tail, char ∈ blanks :=
      List.forall_mem_append.mpr ⟨blank.lead, blank.tail⟩
    have skipped := skipBlank_close (closing_mem curly) gaps rest
    rw [List.append_assoc] at skipped
    simp [Spacing.chars, Text.separated, bare rfl, collection, skipped]
  | cons first others =>
    obtain ⟨loops, rfl⟩ := Nat.exists_eq_add_one_of_ne_zero (by omega : loops ≠ 0)
    have follows := afterElement_breaks (closing_mem curly) blank others rest
    have own := each first (by simp)
    have taken := own _ follows
    obtain ⟨char, further, starts, solid, skipped⟩ :=
      own.skipBlank (selective.element curly) blank.lead follows
    have opens : char ≠ closing curly := by
      rintro rfl
      exact solid (List.mem_cons_of_mem _ (closing_mem curly))
    have remaining := more_reads (selective.element curly) (closing_mem curly) blank
      (fun other member => each other (by simp [member]))
      (by simp at enough; omega : others.length < loops + 1) rest
    rw [starts] at taken
    rw [Spacing.chars_cons]
    simp [collection, skipped, opens, taken, clauses, clause_eq_none follows, remaining]

theorem collection_reads_comprehension {options : Options} {curly : Bool} {text : List Char}
    {body first : Node} {members : List Node} (selective : Selective read)
    (inner : Reads (element read curly) text Stops body)
    (each : ∀ member ∈ first :: members,
      Reads (clause read) (Node.clauseChars options member) Ends member.bare)
    (starts : ∀ member ∈ first :: members, ∀ further,
      Ends (Node.clauseChars options member ++ further))
    (stops : ∀ further, Stops (Node.clauseChars options first ++ further))
    (enough : members.length + 1 < loops) (rest : List Char) :
    collection read loops curly
        (text ++ ((first :: members).flatMap (Node.clauseChars options) ++
          closing curly :: rest)) =
      some (.comprehension body ((first :: members).map Node.bare) curly, rest) := by
  have breaks := breaks_closing curly rest
  have follows : Stops ((first :: members).flatMap (Node.clauseChars options) ++
      closing curly :: rest) := by
    rw [List.flatMap_cons, List.append_assoc]
    exact stops _
  have taken := inner _ follows
  obtain ⟨char, further, split, solid, skipped⟩ :=
    inner.skipBlank (selective.element curly) (List.forall_mem_nil _) follows
  have opens : char ≠ closing curly := by
    rintro rfl
    exact solid (List.mem_cons_of_mem _ (closing_mem curly))
  have remaining := clauses_reads each starts breaks.ends (clause_eq_none breaks) enough
  rw [split] at taken
  rw [List.nil_append] at skipped
  simp only [collection, skipped, opens, if_false, taken, Option.bind_eq_bind, Option.bind_some,
    remaining]
  simp

theorem group_reads_paren {text : List Char} {node : Node} (selective : Selective read)
    (inner : Reads (expression read) text Stops node) (rest : List Char) :
    group read loops (text ++ ')' :: rest) = some (.paren node, rest) := by
  have close : Breaks (')' :: rest) := Breaks.cons (by decide) rest
  have taken := inner _ close.stops
  obtain ⟨char, further, split, _, skipped⟩ :=
    inner.skipBlank selective.expression (List.forall_mem_nil _) close.stops
  rw [List.nil_append] at skipped
  rw [split] at taken
  simp [group, skipped, taken]

/-- The reader takes a tuple of several elements between brackets. -/
theorem group_reads_tuple {first second : Node} {others : List Node} (selective : Selective read)
    (blank : spacing.IsBlank)
    (each : ∀ member ∈ first :: second :: others,
      Reads (expression read) (member.chars spacing.inner) Breaks member.bare)
    (enough : others.length + 1 < loops) (rest : List Char) :
    group read loops (spacing.chars (first :: second :: others) ++ ')' :: rest) =
      some (.paren (.tuple ((first :: second :: others).map Node.bare)), rest) := by
  have follows := afterElement_breaks (by decide : ')' ∈ closers) blank
    (second :: others) rest
  have own := each first (by simp)
  have taken := own _ follows
  obtain ⟨char, further, starts, _, skipped⟩ :=
    own.skipBlank selective.expression blank.lead follows
  have remaining : more (items (expression read) ')' loops) ')'
        (afterElement spacing ')' (second :: others) rest) =
      some ((second :: others).map Node.bare, rest) :=
    more_reads selective.expression (by decide) blank
      (fun other member => each other (List.mem_cons_of_mem _ member)) (by simpa using enough) rest
  obtain ⟨after, comma⟩ : ∃ after,
      afterElement spacing ')' (second :: others) rest = ',' :: after := ⟨_, rfl⟩
  rw [starts] at taken
  rw [Spacing.chars_cons]
  simp only [group, skipped, taken, Option.bind_eq_bind, Option.bind_some]
  rw [comma] at remaining ⊢
  simp [remaining]

end Collections

section Atoms

variable {read : Reader Node} {loops : Nat}

theorem atom_eq_leaf {char : Char} (named : Text.isNameChar char = true) (rest : List Char) :
    atom read loops (char :: rest) = leaf (char :: rest) := by
  have plain : char ≠ '"' ∧ char ≠ '(' ∧ char ≠ '[' ∧ char ≠ '\x7b' := by
    refine ⟨?_, ?_, ?_, ?_⟩ <;> (rintro rfl; exact absurd named (by decide))
  simp [atom, plain]

theorem atom_of_leaf {input rest : List Char} {node : Node}
    (taken : leaf input = some (node, rest)) : atom read loops input = some (node, rest) := by
  cases input with
  | nil => cases taken
  | cons char further =>
    have named : Text.isNameChar char = true := by
      cases unnamed : Text.isNameChar char with
      | true => rfl
      | false =>
        rw [leaf_eq_none unnamed] at taken
        cases taken
    rw [atom_eq_leaf named, taken]

theorem atom_text (content rest : List Char) :
    atom read loops (Text.quoteChars content ++ rest) =
      some (.literal { value := .text (String.ofList content) }, rest) := by
  have taken := Text.unquote_quoteChars content rest
  simp [atom, Text.quoteChars, taken]

end Atoms

section Trailers

variable {read : Reader Node} {loops : Nat}

theorem trailers_of_ends {rest : List Char} (ends : Ends rest) (fuel : Nat) (node : Node) :
    trailers read loops (fuel + 1) node rest = some (node, rest) := by
  unfold trailers
  split
  · exact absurd (ends '(' rfl).2 (by decide)
  · exact absurd (ends '[' rfl).2 (by decide)
  · exact absurd (ends '.' rfl).2 (by decide)
  · rfl

end Trailers

end StarlarkPrinter.Reading
