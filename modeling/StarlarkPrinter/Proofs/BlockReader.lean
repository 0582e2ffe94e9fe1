import Mathlib.Data.List.Basic
import StarlarkPrinter.Proofs.Blocks
import StarlarkPrinter.Proofs.LineShift
import StarlarkPrinter.Proofs.Readability

/-! A reader of statements. A block goes on as long as lines start with its margin, and
nothing else says where it ends. So what may follow a statement is said in terms of
margins: no line of a deeper block, and no second branch at its own margin. -/

namespace StarlarkPrinter.Reading

/-- The input after a text that it starts with. -/
def after? (text : String) (input : List Char) : Option (List Char) :=
  text.toList.isPrefixOf? input

/-- The input after its margin, if it has a line there. -/
def line? (options : Options) (input : List Char) : Option (List Char) :=
  (after? (options.indentation 0) input).filter (· ≠ [])

/-- Read the token that the longest run of certain characters is the text of. -/
def symbol? (within : Char → Bool) : Reader Token := fun input =>
  (Token.ofText? (String.ofList (input.takeWhile within))).map (·, input.dropWhile within)

def word? : Reader Token := symbol? Text.isNameChar

/-- Read statements as long as there are lines at the margin. -/
def block (statement : Reader Node) (options : Options) : Nat → Reader (List Node)
  | 0 => fun _ => none
  | loops + 1 => fun input =>
    match line? options input with
    | none => some ([], input)
    | some line => do
      let (first, rest) ← statement line
      let (others, rest) ← block statement options loops rest
      some (first :: others, rest)

section Lines

variable (primary : Reader Node)

/-- Read a parameter: an argument, or a star alone. -/
def param : Reader Node := fun input =>
  match argument primary input with
  | some found => some found
  | none => (after? "*" input).map (.unary (some .star) .missing, ·)

/-- Read an expression that is a statement, or an assignment. -/
def simple : Reader Node := fun input => do
  let (x, input) ← expression primary input
  match after? "\n" input with
  | some rest => some (.exprStmt x, rest)
  | none => do
    let input ← after? " " input
    let (op, input) ← symbol? (· ≠ ' ') input
    let input ← after? " " input
    let (y, input) ← expression primary input
    let rest ← after? "\n" input
    some (.assign x (some op) y, rest)

def returns : Reader Node := fun input =>
  match after? "\n" input with
  | some rest => some (.returns .missing, rest)
  | none => do
    let input ← after? " " input
    let (result, input) ← expression primary input
    let rest ← after? "\n" input
    some (.returns result, rest)

/-- Read the end of a line after a word. -/
def branch (token : Token) : Reader Node := fun input => do
  let rest ← after? "\n" input
  some (.branch (some token), rest)

variable (members : Reader (List Node))

/-- Read the end of a head and the block under it. -/
def body : Reader (List Node) := fun input => do
  let input ← after? ":\n" input
  members input

def definition (loops : Nat) : Reader Node := fun input => do
  let input ← after? " " input
  let (name, input) ← leaf input
  let input ← after? "(" input
  let (params, input) ← items (param primary) ')' loops input
  let (found, rest) ← body members input
  some (.define name params found, rest)

def forLoop : Reader Node := fun input => do
  let input ← after? " " input
  let (vars, input) ← primary input
  let input ← after? " in " input
  let (x, input) ← expression primary input
  let (found, rest) ← body members input
  some (.forLoop vars x found, rest)

def whileLoop : Reader Node := fun input => do
  let input ← after? " " input
  let (test, input) ← expression primary input
  let (found, rest) ← body members input
  some (.whileLoop test found, rest)

/-- Read a second branch, if there is one at the margin. -/
def otherwise (options : Options) : Reader (List Node) := fun input =>
  match after? (options.indentation 0 ++ "else:\n") input with
  | some rest => members rest
  | none => some ([], input)

def ifThen (options : Options) : Reader Node := fun input => do
  let input ← after? " " input
  let (test, input) ← expression primary input
  let (onTrue, input) ← body members input
  let (onFalse, rest) ← otherwise members options input
  some (.ifThen test onTrue onFalse, rest)

end Lines

/-- Read a statement after its margin. Its first word says what it is. -/
def statement : Nat → Options → Reader Node
  | 0, _ => fun _ => none
  | level + 1, options => fun input =>
    let members := block (statement level (options.deeper 1)) (options.deeper 1) level
    match word? input with
    | some (.kwBreak, rest) => branch .kwBreak rest
    | some (.kwContinue, rest) => branch .kwContinue rest
    | some (.kwPass, rest) => branch .kwPass rest
    | some (.kwReturn, rest) => returns (primary (level + 1)) rest
    | some (.kwDef, rest) => definition (primary (level + 1)) members (level + 1) rest
    | some (.kwFor, rest) => forLoop (primary (level + 1)) members rest
    | some (.kwWhile, rest) => whileLoop (primary (level + 1)) members rest
    | some (.kwIf, rest) => ifThen (primary (level + 1)) members options rest
    | _ => simple (primary (level + 1)) input

/-- The words that the reader of statements looks for. -/
def heads : List Token :=
  Token.branches ++ [.kwReturn, .kwDef, .kwFor, .kwWhile, .kwIf]

section Margins

variable {options : Options} {text : String} {input rest line : List Char}

theorem after?_eq_some_iff : after? text input = some rest ↔ text.toList ++ rest = input := by
  simp [after?]

theorem after?_marks (rest : List Char) :
    after? " " (' ' :: rest) = some rest ∧ after? "\n" ('\n' :: rest) = some rest ∧
    after? "(" ('(' :: rest) = some rest ∧ after? ":\n" (':' :: '\n' :: rest) = some rest ∧
    after? "\n" (' ' :: rest) = none :=
  ⟨rfl, rfl, rfl, rfl, rfl⟩

theorem line?_eq_some_iff :
    line? options input = some line ↔
      (options.indentation 0).toList ++ line = input ∧ line ≠ [] := by
  simp [line?, Option.filter_eq_some_iff, after?_eq_some_iff]

theorem line?_eq_none_iff :
    line? options input = none ↔
      ∀ line, (options.indentation 0).toList ++ line = input → line = [] := by
  simp [line?, Option.filter_eq_none_iff, after?_eq_some_iff]

/-- What may follow a statement: no line of a deeper block, and no second branch. -/
def Dedents (options : Options) (rest : List Char) : Prop :=
  line? (options.deeper 1) rest = none ∧
    after? (options.indentation 0 ++ "else:\n") rest = none

end Margins

end StarlarkPrinter.Reading

namespace StarlarkPrinter.Options

/-- The options indent by some spaces and tabs. -/
structure Indents (options : Options) : Prop where
  blank : options.IndentsBlank
  present : options.indent ≠ ""

theorem Indents.deeper {options : Options} (indents : options.Indents) (levels : Nat) :
    (options.deeper levels).Indents :=
  ⟨indents.blank.deeper levels, indents.present⟩

/-- A level adds the indent behind the margin. -/
theorem toList_indentation_succ (options : Options) :
    ((options.deeper 1).indentation 0).toList =
      (options.indentation 0).toList ++ options.indent.toList := by
  have counts : ((options.deeper 1).depth + (0 : Int)).toNat =
      (options.depth + (0 : Int)).toNat + 1 := by
    simp only [deeper]
    omega
  rw [indentation, counts, toList_repeated, List.replicate_succ', List.flatten_append,
    indentation, toList_repeated]
  simp [deeper]

/-- The indent starts with a blank. -/
theorem Indents.exists_cons {options : Options} (indents : options.Indents) :
    ∃ char further, options.indent.toList = char :: further ∧ char ∈ Reading.blanks := by
  cases spelled : options.indent.toList with
  | nil => exact absurd (String.toList_eq_nil_iff.mp spelled) indents.present
  | cons char further =>
    refine ⟨char, further, rfl, ?_⟩
    rcases indents.blank char (by simp [spelled]) with rfl | rfl <;> decide

end StarlarkPrinter.Options

namespace StarlarkPrinter.Reading

section Dedents

variable {options : Options} {rest : List Char}

/-- What ends a block ends the statements in it. -/
theorem dedents_of_line? (ended : line? options rest = none) : Dedents options rest := by
  rw [line?_eq_none_iff] at ended
  constructor
  · rw [line?_eq_none_iff, options.toList_indentation_succ]
    intro line split
    have empty := ended (options.indent.toList ++ line) (by rw [← List.append_assoc, split])
    exact (List.append_eq_nil_iff.mp empty).2
  · apply Option.eq_none_iff_forall_ne_some.mpr
    intro line found
    rw [after?_eq_some_iff, String.toList_append, List.append_assoc] at found
    exact absurd (ended _ found) (by simp)

/-- A line that has no blank at the margin is not in a deeper block. -/
theorem line?_deeper (indents : options.Indents) {char : Char} (solid : char ∉ blanks)
    (further : List Char) :
    line? (options.deeper 1) ((options.indentation 0).toList ++ char :: further) = none := by
  obtain ⟨first, others, spelled, blank⟩ := indents.exists_cons
  rw [line?_eq_none_iff, options.toList_indentation_succ]
  intro line split
  rw [List.append_assoc, List.append_cancel_left_eq, spelled, List.cons_append,
    List.cons.injEq] at split
  exact absurd (split.1 ▸ blank) solid

/-- Nor does it go on with the statement before it, if it starts no second branch. -/
theorem dedents_line (indents : options.Indents) {char : Char} {further : List Char}
    (solid : char ∉ blanks) (noElse : after? "else:\n" (char :: further) = none) :
    Dedents options ((options.indentation 0).toList ++ char :: further) := by
  refine ⟨line?_deeper indents solid further, Option.eq_none_iff_forall_ne_some.mpr ?_⟩
  intro line found
  rw [after?_eq_some_iff, String.toList_append, List.append_assoc,
    List.append_cancel_left_eq, ← after?_eq_some_iff, noElse] at found
  cases found

end Dedents

section Words

variable {within : Char → Bool} {token : Token} {input rest : List Char}

theorem symbol?_reads (inside : token.text.toList.all within = true) :
    Reads (symbol? within) token.text.toList (fun rest => ∀ char ∈ rest.head?, within char = false)
      token := by
  intro rest ends
  obtain ⟨taken, left⟩ := takeWhile_run (List.all_eq_true.mp inside) ends
  simp [symbol?, taken, left]

theorem takeWhile_of_symbol? (found : symbol? within input = some (token, rest)) :
    input.takeWhile within = token.text.toList := by
  simp only [symbol?, Option.map_eq_some_iff, Prod.mk.injEq] at found
  obtain ⟨other, known, rfl, -⟩ := found
  have same := List.find?_some known
  simp only [decide_eq_true_eq] at same
  rw [same, String.toList_ofList]

/-- A word that starts a line, or a second branch, starts no expression. -/
theorem expression_of_word {level : Nat} (member : token ∈ .kwElse :: heads)
    (found : word? input = some (token, rest)) : expression (primary level) input = none := by
  have table : ∀ token ∈ .kwElse :: heads, leaf? token.text.toList = none ∧
      token.text.toList ≠ [] ∧ token.text.toList ≠ ['n', 'o', 't'] := by decide +kernel
  obtain ⟨noLeaf, present, notNot⟩ := table token member
  have run := takeWhile_of_symbol? found
  have noPrimary : primary level input = none := by
    cases level with
    | zero => rfl
    | succ level =>
      cases input with
      | nil => rfl
      | cons char further =>
        have named : Text.isNameChar char = true := by
          by_contra unnamed
          rw [List.takeWhile_cons_of_neg unnamed] at run
          exact present run.symm
        have missing : leaf (char :: further) = none := by
          rw [leaf, run, noLeaf]
          rfl
        simp [primary, atom_eq_leaf named, missing]
  have noSign : sign? input = none := by
    unfold sign?
    split
    · exact absurd run.symm present
    · exact absurd run.symm present
    · exact absurd run.symm present
    · exact absurd run.symm notNot
    · rfl
  simp [expression, noPrimary, noSign]

theorem endsRun_cons {char : Char} (unnamed : Text.isNameChar char = false) (rest : List Char) :
    EndsRun (char :: rest) := by
  intro other head
  cases head
  exact unnamed

/-- A word that starts a line is read up to what is no letter. -/
theorem word?_head (member : token ∈ heads) (ends : EndsRun rest) :
    word? (Token.chars (some token) ++ rest) = some (token, rest) := by
  have table : ∀ token ∈ heads, Token.chars (some token) = token.text.toList ∧
      token.text.toList.all Text.isNameChar = true := by decide +kernel
  obtain ⟨spelled, named⟩ := table token member
  rw [spelled]
  exact symbol?_reads named rest ends

end Words

section Starts

variable {level : Nat} {options : Options} {line : List Char} {found : Node × List Char}

/-- A line that starts with no word of a statement is an expression or an assignment. -/
theorem statement_eq_simple
    (other : ∀ token rest, word? line = some (token, rest) → token ∉ heads) :
    statement (level + 1) options line = simple (primary (level + 1)) line := by
  unfold statement
  split <;> first | rfl | exact (other _ _ ‹_› (by decide)).elim

/-- An expression does not start with a word of a statement. -/
theorem not_mem_heads_of_expression (taken : expression (primary level) line = some found)
    (token : Token) (rest : List Char) (word : word? line = some (token, rest)) :
    token ∉ heads := by
  intro member
  rw [expression_of_word (List.mem_cons_of_mem _ member) word] at taken
  cases taken

/-- No statement starts where neither a word of one nor an expression does. -/
theorem statement_eq_none (noExpression : ∀ level, expression (primary level) line = none)
    (other : ∀ token rest, word? line = some (token, rest) → token ∉ heads) :
    statement level options line = none := by
  cases level with
  | zero => rfl
  | succ level =>
    rw [statement_eq_simple other, simple, noExpression]
    rfl

/-- No word starts with what is no letter. -/
theorem statement_of_wordless (empty : line.takeWhile Text.isNameChar = [])
    (noExpression : ∀ level, expression (primary level) line = none) :
    statement level options line = none := by
  have table : ∀ token ∈ heads, token.text.toList ≠ [] := by decide +kernel
  refine statement_eq_none noExpression fun token rest word member => ?_
  exact table token member ((takeWhile_of_symbol? word).symm.trans empty)

/-- A second branch is no statement. -/
theorem statement_of_else (rest : List Char) :
    statement level options ("else:\n".toList ++ rest) = none := by
  have reads : Reads word? Token.kwElse.text.toList EndsRun .kwElse :=
    symbol?_reads (by decide +kernel)
  have word : word? ("else:\n".toList ++ rest) = some (.kwElse, ':' :: '\n' :: rest) :=
    reads (':' :: '\n' :: rest) (endsRun_cons (by decide) _)
  refine statement_eq_none (fun level => expression_of_word (by decide) word) ?_
  intro token rest other
  rw [word] at other
  cases other
  decide

/-- A line is not blank at its start, and it is no second branch. -/
theorem statement_starts (taken : statement level options line = some found) :
    ∃ char further, line = char :: further ∧ char ∉ blanks ∧ after? "else:\n" line = none := by
  have selective (level : Nat) := (primary_selective level).expression
  cases line with
  | nil =>
    rw [statement_of_wordless rfl fun level => (selective level).1] at taken
    cases taken
  | cons char further =>
    refine ⟨char, further, rfl, fun blank => ?_, ?_⟩
    · have unnamed : Text.isNameChar char = false := by
        simp only [blanks, List.mem_cons, List.not_mem_nil, or_false] at blank
        rcases blank with rfl | rfl | rfl <;> decide
      have empty : (char :: further).takeWhile Text.isNameChar = [] := by
        simp [unnamed]
      rw [statement_of_wordless empty fun level =>
        (selective level).2 char further (List.mem_append_left _ blank)] at taken
      cases taken
    · apply Option.eq_none_iff_forall_ne_some.mpr
      intro rest second
      rw [← after?_eq_some_iff.mp second, statement_of_else] at taken
      cases taken

/-- A line that is read ends the statement before it. -/
theorem dedents_of_statement (indents : options.Indents)
    (taken : statement level options line = some found) :
    Dedents options ((options.indentation 0).toList ++ line) := by
  obtain ⟨char, further, rfl, solid, noElse⟩ := statement_starts taken
  exact dedents_line indents solid noElse

end Starts

section Statements

variable {level : Nat} {options : Options} {x y z : List Char} {first second : Node}
  {members others : List Node}

private theorem breaks_newline (rest : List Char) : Breaks ('\n' :: rest) :=
  Breaks.cons (by decide) rest

private theorem breaks_colon (rest : List Char) : Breaks (':' :: rest) :=
  Breaks.cons (by decide) rest

theorem statement_reads_exprStmt (value : Reads (expression (primary (level + 1))) x Stops first) :
    Reads (statement (level + 1) options) (x ++ ['\n']) (Dedents options) (.exprStmt first) := by
  intro rest _
  have taken := value _ (breaks_newline rest).stops
  have shape : x ++ ['\n'] ++ rest = x ++ '\n' :: rest := by simp
  rw [shape, statement_eq_simple (not_mem_heads_of_expression taken)]
  simp [simple, taken, after?_marks]

/-- The operator of an assignment ends the expression before it: the equals sign connects
only the parts of arguments, and the others are no connectives. -/
theorem stops_assignment {op : Token} (sign : op ∈ Token.assignments) (rest : List Char) :
    Stops (spaced op ++ rest) := by
  by_cases equals : op = .eq
  · subst equals
    exact stops_spaced (by decide) (by decide) rest
  · refine ⟨ends_spaced op rest, fun connective further found => ?_⟩
    have none : connective? (spaced op ++ rest) = none := by
      simp only [Token.assignments, List.mem_cons, List.not_mem_nil, or_false, equals,
        false_or] at sign
      rcases sign with rfl | rfl | rfl | rfl <;> rfl
    rw [none] at found
    cases found

theorem statement_reads_assign {op : Token} (sign : op ∈ Token.assignments)
    (left : Reads (expression (primary (level + 1))) x Stops first)
    (right : Reads (expression (primary (level + 1))) y Stops second) :
    Reads (statement (level + 1) options)
      (x ++ [' '] ++ Token.chars (some op) ++ [' '] ++ y ++ ['\n']) (Dedents options)
      (.assign first (some op) second) := by
  intro rest _
  have table : ∀ op ∈ Token.assignments, Token.chars (some op) = op.text.toList ∧
      op.text.toList.all (fun char => char ≠ ' ') = true := by decide +kernel
  obtain ⟨spelled, solid⟩ := table op sign
  have stops : Stops (' ' :: (op.text.toList ++ ' ' :: (y ++ '\n' :: rest))) := by
    simpa [spaced] using stops_assignment sign (y ++ '\n' :: rest)
  have taken := left _ stops
  have operator := symbol?_reads solid (' ' :: (y ++ '\n' :: rest)) (by simp)
  have other := right _ (breaks_newline rest).stops
  have shape : x ++ [' '] ++ Token.chars (some op) ++ [' '] ++ y ++ ['\n'] ++ rest =
      x ++ ' ' :: (op.text.toList ++ ' ' :: (y ++ '\n' :: rest)) := by
    simp [spelled]
  rw [shape, statement_eq_simple (not_mem_heads_of_expression taken)]
  simp only [simple, taken, Option.bind_eq_bind, Option.bind_some, after?_marks, operator, other]

theorem statement_reads_branch {token : Token} (word : token ∈ Token.branches) :
    Reads (statement (level + 1) options) (Token.chars (some token) ++ ['\n']) (Dedents options)
      (.branch (some token)) := by
  intro rest _
  have head : word? (Token.chars (some token) ++ '\n' :: rest) = some (token, '\n' :: rest) :=
    word?_head (List.mem_append_left _ word) (endsRun_cons (by decide) rest)
  have ends : branch token ('\n' :: rest) = some (.branch (some token), rest) := by
    simp [branch, after?_marks]
  rw [List.append_assoc, List.cons_append, List.nil_append]
  simp only [Token.branches, List.mem_cons, List.not_mem_nil, or_false] at word
  rcases word with rfl | rfl | rfl <;> simp only [statement, head, ends]

theorem statement_reads_return :
    Reads (statement (level + 1) options) (Token.chars (some .kwReturn) ++ ['\n'])
      (Dedents options) (.returns .missing) := by
  intro rest _
  have head : word? (Token.chars (some .kwReturn) ++ '\n' :: rest) =
      some (.kwReturn, '\n' :: rest) := word?_head (by decide) (endsRun_cons (by decide) rest)
  rw [List.append_assoc, List.cons_append, List.nil_append]
  simp [statement, head, returns, after?_marks]

theorem statement_reads_result (value : Reads (expression (primary (level + 1))) x Stops first) :
    Reads (statement (level + 1) options) (Token.chars (some .kwReturn) ++ ' ' :: x ++ ['\n'])
      (Dedents options) (.returns first) := by
  intro rest _
  have head : word? (Token.chars (some .kwReturn) ++ ' ' :: (x ++ '\n' :: rest)) =
      some (.kwReturn, ' ' :: (x ++ '\n' :: rest)) :=
    word?_head (by decide) (endsRun_cons (by decide) _)
  have taken := value _ (breaks_newline rest).stops
  simp [statement, head, returns, after?_marks, taken]

/-- The reader of blocks takes members, up to a line that is not at their margin. -/
def ReadsBlock (level : Nat) (options : Options) (text : List Char) (members : List Node) : Prop :=
  Reads (block (statement level options) options level) text
    (fun rest => line? options rest = none) members

theorem ReadsBlock.body (inner : ReadsBlock level options x members) {rest : List Char}
    (ended : line? options rest = none) :
    Reading.body (block (statement level options) options level) (':' :: '\n' :: (x ++ rest)) =
      some (members, rest) := by
  simp [Reading.body, after?_marks, inner rest ended]

private theorem word?_head_space {token : Token} (member : token ∈ heads) (rest : List Char) :
    word? (Token.chars (some token) ++ ' ' :: rest) = some (token, ' ' :: rest) :=
  word?_head member (endsRun_cons (by decide) rest)

theorem statement_reads_while (test : Reads (expression (primary (level + 1))) x Stops first)
    (inner : ReadsBlock level (options.deeper 1) y members) :
    Reads (statement (level + 1) options)
      (Token.chars (some .kwWhile) ++ [' '] ++ x ++ (":\n".toList ++ y)) (Dedents options)
      (.whileLoop first members) := by
  intro rest dedents
  have head := word?_head_space (by decide : .kwWhile ∈ heads) (x ++ ':' :: '\n' :: (y ++ rest))
  have tested := test _ (breaks_colon ('\n' :: (y ++ rest))).stops
  simp [statement, head, whileLoop, after?_marks, tested, inner.body dedents.1]

theorem statement_reads_for (vars : Reads (primary (level + 1)) x Ends first)
    (range : Reads (expression (primary (level + 1))) y Stops second)
    (inner : ReadsBlock level (options.deeper 1) z members) :
    Reads (statement (level + 1) options)
      (Token.chars (some .kwFor) ++ [' '] ++ x ++ " in ".toList ++ y ++ (":\n".toList ++ z))
      (Dedents options) (.forLoop first second members) := by
  intro rest dedents
  let after := ':' :: '\n' :: (z ++ rest)
  let further := ' ' :: 'i' :: 'n' :: ' ' :: (y ++ after)
  have head := word?_head_space (by decide : .kwFor ∈ heads) (x ++ further)
  have bound : primary (level + 1) (x ++ further) = some (first, further) :=
    vars _ (ends_spaced .kwIn (y ++ after))
  have ranged : expression (primary (level + 1)) (y ++ after) = some (second, after) :=
    range _ (breaks_colon ('\n' :: (z ++ rest))).stops
  have found : after? " in " further = some (y ++ after) := rfl
  have shape : Token.chars (some .kwFor) ++ [' '] ++ x ++ " in ".toList ++ y ++
        (":\n".toList ++ z) ++ rest =
      Token.chars (some .kwFor) ++ ' ' :: (x ++ further) := by
    simp [further, after]
  rw [shape]
  simp [statement, head, forLoop, after?_marks, bound, found, ranged, after,
    inner.body dedents.1]

/-- Without a second branch, none follows. -/
theorem statement_reads_if (test : Reads (expression (primary (level + 1))) x Stops first)
    (inner : ReadsBlock level (options.deeper 1) y members) :
    Reads (statement (level + 1) options)
      (Token.chars (some .kwIf) ++ [' '] ++ x ++ (":\n".toList ++ y)) (Dedents options)
      (.ifThen first members []) := by
  intro rest dedents
  have head := word?_head_space (by decide : .kwIf ∈ heads) (x ++ ':' :: '\n' :: (y ++ rest))
  have tested := test _ (breaks_colon ('\n' :: (y ++ rest))).stops
  simp [statement, head, ifThen, after?_marks, tested, inner.body dedents.1, otherwise, dedents.2]

/-- The second branch of a conditional stands at its margin. -/
theorem statement_reads_if_else (indents : options.Indents)
    (test : Reads (expression (primary (level + 1))) x Stops first)
    (inner : ReadsBlock level (options.deeper 1) y members)
    (other : ReadsBlock level (options.deeper 1) z others) :
    Reads (statement (level + 1) options)
      (Token.chars (some .kwIf) ++ [' '] ++ x ++ (":\n".toList ++ y) ++
        ((options.indentation 0).toList ++ "else".toList ++ (":\n".toList ++ z)))
      (Dedents options) (.ifThen first members others) := by
  intro rest dedents
  let after := (options.indentation 0).toList ++
    'e' :: 'l' :: 's' :: 'e' :: ':' :: '\n' :: (z ++ rest)
  have head := word?_head_space (by decide : .kwIf ∈ heads) (x ++ ':' :: '\n' :: (y ++ after))
  have tested := test _ (breaks_colon ('\n' :: (y ++ after))).stops
  have ended : line? (options.deeper 1) after = none := line?_deeper indents (by decide) _
  have found : after? (options.indentation 0 ++ "else:\n") after = some (z ++ rest) := by
    simp [after, after?_eq_some_iff]
  have under := inner.body ended
  have second := other rest dedents.1
  have shape : Token.chars (some .kwIf) ++ [' '] ++ x ++ (":\n".toList ++ y) ++
        ((options.indentation 0).toList ++ "else".toList ++ (":\n".toList ++ z)) ++ rest =
      Token.chars (some .kwIf) ++ ' ' :: (x ++ ':' :: '\n' :: (y ++ after)) := by
    simp [after]
  rw [shape]
  simp [statement, head, ifThen, after?_marks, tested, under, otherwise, found, second]

theorem Reads.param {read : Reader Node} (taken : Reads (argument read) x Breaks first) :
    Reads (Reading.param read) x Breaks first := by
  intro rest breaks
  simp [Reading.param, taken rest breaks]

/-- A star alone is no argument, but a parameter. -/
theorem param_reads_star :
    Reads (param (primary level)) ['*'] Breaks (.unary (some .star) .missing) := by
  intro rest breaks
  have noArgument : argument (primary level) ('*' :: rest) = none := by
    cases rest with
    | nil => cases level <;> rfl
    | cons char further =>
      have breaking := breaks char rfl
      simp only [closers, List.mem_cons, List.not_mem_nil, or_false] at breaking
      rcases breaking with rfl | rfl | rfl | rfl | rfl | rfl <;> cases level <;> rfl
  have found : after? "*" ('*' :: rest) = some rest := rfl
  simp [param, noArgument, found]

theorem Selective.param {read : Reader Node} (selective : Selective read) :
    Selective (Reading.param read) := by
  have nothing : after? "*" [] = none := rfl
  refine ⟨by simp [Reading.param, selective.argument.1, nothing], fun char rest stops => ?_⟩
  have starless : '*' ≠ char := by
    rintro rfl
    exact absurd stops (by decide)
  have missing : after? "*" (char :: rest) = none := by
    apply Option.eq_none_iff_forall_ne_some.mpr
    intro further found
    rw [after?_eq_some_iff] at found
    cases found
    exact starless rfl
  simp [Reading.param, selective.argument.2 char rest stops, missing]

private def paramSpacing (options : Options) : Spacing :=
  ⟨options, [], [' '], [], []⟩

theorem statement_reads_define {leaf : Ident} {params : List Node}
    (blank : options.IndentsBlank) (name : Text.isName leaf.name.toList = true)
    (each : ∀ param ∈ params,
      Reads (Reading.param (primary (level + 1))) (param.chars options) Breaks param.bare)
    (enough : params.length < level + 1) (inner : ReadsBlock level (options.deeper 1) y members) :
    Reads (statement (level + 1) options)
      (Token.chars (some .kwDef) ++ [' '] ++ leaf.name.toList ++ ['('] ++
        Text.separated [' '] (params.map (·.chars options)) ++ [')'] ++ (":\n".toList ++ y))
      (Dedents options) (.define (.ident leaf.bare) (params.map Node.bare) members) := by
  intro rest dedents
  have spacing : (paramSpacing options).IsBlank :=
    ⟨blank, by simp [paramSpacing], by simp [paramSpacing, blanks], .inl rfl,
      by simp [paramSpacing], by simp [paramSpacing]⟩
  let after := ':' :: '\n' :: (y ++ rest)
  let listed := Text.separated [' '] (params.map (·.chars options)) ++ ')' :: after
  have head := word?_head_space (by decide : .kwDef ∈ heads) (leaf.name.toList ++ '(' :: listed)
  have named := leaf_reads_name name ('(' :: listed) (endsRun_cons (by decide) _)
  rw [String.ofList_toList] at named
  have taken : items (Reading.param (primary (level + 1))) ')' (level + 1) listed =
      some (params.map Node.bare, after) := by
    have all := items_reads (primary_selective (level + 1)).param
      (by decide : ')' ∈ closers) spacing
      (fun _ => rfl) each enough after
    simpa [Spacing.chars, paramSpacing, listed] using all
  have under : Reading.body _ after = _ := inner.body dedents.1
  have shape : Token.chars (some .kwDef) ++ [' '] ++ leaf.name.toList ++ ['('] ++
        Text.separated [' '] (params.map (·.chars options)) ++ [')'] ++ (":\n".toList ++ y) ++
        rest =
      Token.chars (some .kwDef) ++ ' ' :: (leaf.name.toList ++ '(' :: listed) := by
    simp [listed, after]
  rw [shape]
  simp [statement, head, definition, after?_marks, named, taken, under, Ident.bare]

end Statements

end StarlarkPrinter.Reading
