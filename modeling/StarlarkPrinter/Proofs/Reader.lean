import StarlarkPrinter.Proofs.Chars
import StarlarkPrinter.Proofs.Grammar
import StarlarkPrinter.Proofs.Unquote

/-! A reader of expressions. Each reader takes a text from the front of its input. What
nests is read by the reader one level below, so a text is read at every level that is
high enough; the loops of a level run at most as often as the level says. -/

namespace StarlarkPrinter.Reading

/-- A reader gives what it has read and the rest of its input. -/
def Reader (α : Type) := List Char → Option (α × List Char)

def blanks : List Char := [' ', '\t', '\n']

def closers : List Char := [')', ']', '\x7d']

def skipBlank (input : List Char) : List Char :=
  input.dropWhile blanks.contains

/-- The tokens that stand between two operands with spaces around them. -/
def connectives : List Token :=
  Token.infixes ++ [.kwIf, .kwElse, .kwFor, .eq]

/-- A token with a space on either side. -/
def spaced (token : Token) : List Char :=
  ' ' :: token.text.toList ++ [' ']

/-- Read a connective and the spaces around it. -/
def connective? : Reader Token := fun input =>
  (connectives.find? fun token => (spaced token).isPrefixOf input).map fun token =>
    (token, input.drop (spaced token).length)

/-- The leaf that a run of letters, digits and underscores stands for: a number if it
starts with a digit, else a name, unless it is a word of the language. -/
def leaf? : List Char → Option Node
  | [] => none
  | first :: rest =>
    if first.isDigit then
      some (.literal { value := .int (Nat.ofDigitChars 10 (first :: rest) 0 : Nat) })
    else if Text.isWord (first :: rest) then none
    else some (.ident { name := String.ofList (first :: rest) })

def leaf : Reader Node := fun input =>
  (leaf? (input.takeWhile Text.isNameChar)).map (·, input.dropWhile Text.isNameChar)

/-- Read the operator in front of an operand. -/
def sign? : Reader Token
  | '+' :: rest => some (.plus, rest)
  | '-' :: rest => some (.minus, rest)
  | '~' :: rest => some (.tilde, rest)
  | 'n' :: 'o' :: 't' :: ' ' :: rest => some (.kwNot, rest)
  | _ => none

/-- Read the stars in front of an argument. -/
def star? : Reader Token
  | '*' :: '*' :: rest => some (.starStar, rest)
  | '*' :: rest => some (.star, rest)
  | _ => none

/-- Read what follows an element, given a reader for further elements: a comma and the
elements, or the closing bracket. -/
def more (others : Reader (List Node)) (close : Char) : Reader (List Node) := fun input =>
  match skipBlank input with
  | [] => none
  | char :: rest =>
    if char = ',' then others rest else if char = close then some ([], rest) else none

/-- Read elements up to the closing bracket. -/
def items (read : Reader Node) (close : Char) : Nat → Reader (List Node)
  | 0 => fun _ => none
  | fuel + 1 => fun input =>
    match skipBlank input with
    | [] => none
    | char :: rest =>
      if char = close then some ([], rest)
      else do
        let (item, rest) ← read (char :: rest)
        let (others, rest) ← more (items read close fuel) close rest
        some (item :: others, rest)

/-- The bracket that closes a list, or a dict. -/
def closing (curly : Bool) : Char :=
  if curly then '\x7d' else ']'

def ofElements (curly : Bool) (elements : List Node) : Node :=
  if curly then .dict elements else .list elements

section Nested

variable (primary : Reader Node)

/-- Read an expression: a primary, two primaries and an operator, a choice, or a primary
after an operator. -/
def expression : Reader Node := fun input =>
  match primary input with
  | some (x, rest) =>
    match connective? rest with
    | none => some (x, rest)
    | some (op, further) =>
      if op = .kwIf then do
        let (test, rest) ← primary further
        match connective? rest with
        | some (.kwElse, rest) => do
          let (other, rest) ← primary rest
          some (.cond test x other, rest)
        | _ => none
      else if op ∈ Token.infixes then do
        let (y, rest) ← primary further
        some (.binary x (some op) y, rest)
      else some (x, rest)
  | none => do
    let (op, rest) ← sign? input
    let (x, rest) ← primary rest
    some (.unary (some op) x, rest)

def keyword (name : Node) : Reader Node := fun input => do
  let (value, rest) ← expression primary input
  some (.binary name (some .eq) value, rest)

def argument : Reader Node := fun input =>
  match star? input with
  | some (op, rest) => do
    let (x, rest) ← primary rest
    some (.unary (some op) x, rest)
  | none => do
    let (x, rest) ← expression primary input
    match rest with
    | '=' :: rest => keyword primary x rest
    | _ =>
      match connective? rest with
      | some (.eq, rest) => keyword primary x rest
      | _ => some (x, rest)

def entry : Reader Node := fun input => do
  let (key, rest) ← expression primary input
  match rest with
  | ':' :: ' ' :: rest => do
    let (value, rest) ← expression primary rest
    some (.dictEntry key value, rest)
  | _ => none

/-- Read an element between brackets: curly ones hold entries. -/
def element (curly : Bool) : Reader Node :=
  if curly then entry primary else expression primary

def clause : Reader Node := fun input =>
  match connective? input with
  | some (.kwFor, rest) => do
    let (vars, rest) ← primary rest
    match connective? rest with
    | some (.kwIn, rest) => do
      let (x, rest) ← primary rest
      some (.forClause vars x, rest)
    | _ => none
  | some (.kwIf, rest) => do
    let (test, rest) ← primary rest
    some (.ifClause test, rest)
  | _ => none

def clauses : Nat → Reader (List Node)
  | 0 => fun _ => none
  | fuel + 1 => fun input =>
    match clause primary input with
    | none => some ([], input)
    | some (first, rest) => do
      let (others, rest) ← clauses fuel rest
      some (first :: others, rest)

/-- Read an expression, unless a colon or the closing bracket stands in its place. -/
def bound : Reader Node := fun input =>
  match input with
  | ':' :: _ => some (.missing, input)
  | ']' :: _ => some (.missing, input)
  | _ => expression primary input

/-- Read an index or the bounds of a slice, after the opening bracket. -/
def subscript (x : Node) : Reader Node := fun input => do
  let (lo, rest) ← bound primary input
  match rest with
  | ']' :: rest => some (.index x lo, rest)
  | ':' :: rest => do
    let (hi, rest) ← bound primary rest
    match rest with
    | ']' :: rest => some (.slice x lo hi .missing, rest)
    | ':' :: rest => do
      let (step, rest) ← expression primary rest
      match rest with
      | ']' :: rest => some (.slice x lo hi step, rest)
      | _ => none
    | _ => none
  | _ => none

variable (loops : Nat)

/-- Read a list, a dict or a comprehension after the opening bracket. -/
def collection (curly : Bool) : Reader Node := fun input =>
  match skipBlank input with
  | [] => none
  | char :: rest =>
    if char = closing curly then some (ofElements curly [], rest)
    else do
      let (first, rest) ← element primary curly (char :: rest)
      let (clauses, rest) ← clauses primary loops rest
      if clauses.isEmpty then do
        let (others, rest) ←
          more (items (element primary curly) (closing curly) loops) (closing curly) rest
        some (ofElements curly (first :: others), rest)
      else
        match rest with
        | [] => none
        | char :: rest =>
          if char = closing curly then some (.comprehension first clauses curly, rest) else none

/-- Read an expression or a tuple after the opening bracket. -/
def group : Reader Node := fun input => do
  let (first, rest) ← expression primary (skipBlank input)
  match rest with
  | ')' :: rest => some (.paren first, rest)
  | _ => do
    let (others, rest) ← more (items (expression primary) ')' loops) ')' rest
    some (.paren (.tuple (first :: others)), rest)

/-- Read the start of a primary, up to what it is applied to. -/
def atom : Reader Node := fun input =>
  match input with
  | [] => none
  | char :: rest =>
    if char = '"' then do
      let (content, rest) ← Text.unquote rest
      some (.literal { value := .text (String.ofList content) }, rest)
    else if char = '(' then group primary loops rest
    else if char = '[' then collection primary loops false rest
    else if char = '\x7b' then collection primary loops true rest
    else leaf input

/-- Read the calls, names and indices that a primary goes on with. -/
def trailers : Nat → Node → Reader Node
  | 0, _ => fun _ => none
  | fuel + 1, x => fun input =>
    match input with
    | '(' :: rest => do
      let (args, rest) ← items (argument primary) ')' loops rest
      trailers fuel (.call x args) rest
    | '[' :: rest => do
      let (node, rest) ← subscript primary x rest
      trailers fuel node rest
    | '.' :: rest => do
      let (name, rest) ← leaf rest
      trailers fuel (.dot x name) rest
    | _ => some (x, input)

end Nested

/-- Read a primary whose parts nest less deep than a level. -/
def primary : Nat → Reader Node
  | 0 => fun _ => none
  | level + 1 => fun input => do
    let (x, rest) ← atom (primary level) level input
    trailers (primary level) level level x rest

/-- A reader takes a text, whatever follows it within limits. -/
def Reads {α : Type} (read : Reader α) (text : List Char) (follow : List Char → Prop)
    (value : α) : Prop :=
  ∀ rest, follow rest → read (text ++ rest) = some (value, rest)

/-- What may follow a primary: nothing that it could go on with. -/
def Ends (rest : List Char) : Prop :=
  ∀ char ∈ rest.head?, Text.isNameChar char = false ∧ char ∉ ['(', '[', '.']

/-- What may follow an expression: no operator either. -/
def Stops (rest : List Char) : Prop :=
  Ends rest ∧ ∀ op further, connective? rest = some (op, further) →
    op ≠ .kwIf ∧ op ∉ Token.infixes

/-- What follows an element of a sequence. -/
def Breaks (rest : List Char) : Prop :=
  ∀ char ∈ rest.head?, char ∈ ',' :: ':' :: '\n' :: closers

theorem mem_closers {close : Char} :
    close ∈ closers ↔ close = ')' ∨ close = ']' ∨ close = '\x7d' := by
  simp [closers]

section Blank

variable {blank rest : List Char} {char : Char}

theorem skipBlank_append (allBlank : ∀ char ∈ blank, char ∈ blanks) :
    skipBlank (blank ++ rest) = skipBlank rest :=
  List.dropWhile_append_of_pos fun char member => by simpa using allBlank char member

theorem skipBlank_cons (solid : char ∉ blanks) :
    skipBlank (char :: rest) = char :: rest :=
  List.dropWhile_cons_of_neg (by simpa using solid)

end Blank

private theorem eq_of_spaced_start {token other : Token} (member : token ∈ connectives)
    (otherMember : other ∈ connectives) (starts : spaced token <+: spaced other) :
    token = other := by
  have table : ∀ token ∈ connectives, ∀ other ∈ connectives,
      (spaced token).isPrefixOf (spaced other) = true → token = other := by decide +kernel
  exact table token member other otherMember (List.isPrefixOf_iff_prefix.mpr starts)

theorem connective?_spaced {token : Token} (member : token ∈ connectives) (rest : List Char) :
    connective? (spaced token ++ rest) = some (token, rest) := by
  obtain ⟨before, after, split, absent⟩ := List.eq_append_cons_of_mem member
  have found : connectives.find? (fun other => (spaced other).isPrefixOf (spaced token ++ rest)) =
      some token := by
    refine List.find?_eq_some_iff_append.mpr ⟨by simp, before, after, split, fun other early => ?_⟩
    have otherMember : other ∈ connectives := by simp [split, early]
    -- Two texts that start one input start each other, so an earlier match is the same token.
    have differs : ¬ spaced other <+: spaced token ++ rest := fun starts => by
      have own : spaced token <+: spaced token ++ rest := List.prefix_append _ _
      have same : other = token := by
        rcases List.prefix_or_prefix_of_prefix starts own with shorter | longer
        · exact eq_of_spaced_start otherMember member shorter
        · exact (eq_of_spaced_start member otherMember longer).symm
      exact absent (same ▸ early)
    rw [Bool.not_eq_true', ← Bool.not_eq_true, List.isPrefixOf_iff_prefix]
    exact differs
  simp [connective?, found]

theorem connective?_eq_none {rest : List Char} (unspaced : ∀ char ∈ rest.head?, char ≠ ' ') :
    connective? rest = none := by
  have missing : connectives.find? (fun token => (spaced token).isPrefixOf rest) = none := by
    apply List.find?_eq_none.mpr
    intro token member
    cases rest with
    | nil => simp [spaced]
    | cons char rest =>
      have solid : ' ' ≠ char := fun same => unspaced char rfl same.symm
      simp [spaced, solid]
  simp [connective?, missing]

theorem Breaks.cons {char : Char} (breaking : char ∈ ',' :: ':' :: '\n' :: closers)
    (rest : List Char) : Breaks (char :: rest) := by
  intro other head
  cases head
  exact breaking

theorem Breaks.unspaced {rest : List Char} (breaks : Breaks rest) :
    ∀ char ∈ rest.head?, char ≠ ' ' := by
  rintro char head rfl
  exact absurd (breaks ' ' head) (by decide)

theorem Breaks.ends {rest : List Char} (breaks : Breaks rest) : Ends rest := by
  intro char head
  have breaking := breaks char head
  simp only [closers, List.mem_cons, List.not_mem_nil, or_false] at breaking
  rcases breaking with rfl | rfl | rfl | rfl | rfl | rfl <;> decide

theorem Breaks.stops {rest : List Char} (breaks : Breaks rest) : Stops rest := by
  refine ⟨breaks.ends, fun op further found => ?_⟩
  rw [connective?_eq_none breaks.unspaced] at found
  cases found

/-- A reader that does not start at a blank, a comma or a closing bracket. -/
def Selective (read : Reader Node) : Prop :=
  read [] = none ∧
    ∀ char rest, char ∈ blanks ++ ',' :: closers → read (char :: rest) = none

/-- A text that a selective reader takes has a first character that starts something. -/
theorem Reads.head {read : Reader Node} {text rest : List Char} {follow : List Char → Prop}
    {value : Node} (reads : Reads read text follow value) (selective : Selective read)
    (follows : follow rest) :
    ∃ char further, text ++ rest = char :: further ∧
      char ∉ blanks ++ ',' :: closers := by
  have taken := reads rest follows
  cases split : text ++ rest with
  | nil =>
    rw [split, selective.1] at taken
    cases taken
  | cons char further =>
    refine ⟨char, further, rfl, fun stopping => ?_⟩
    rw [split, selective.2 char further stopping] at taken
    cases taken

end StarlarkPrinter.Reading

namespace StarlarkPrinter

/-- The gaps of a sequence are blank, and a line ends before its last one. -/
structure Spacing.IsBlank (spacing : Spacing) : Prop where
  inner : spacing.inner.IndentsBlank
  lead : ∀ char ∈ spacing.lead, char ∈ Reading.blanks
  gap : ∀ char ∈ spacing.gap, char ∈ Reading.blanks
  ending : spacing.ending = [] ∨ spacing.ending = [',']
  tail : ∀ char ∈ spacing.tail, char ∈ Reading.blanks
  line : ∀ char ∈ spacing.tail.head?, char = '\n'

theorem Spacing.ofLayout_isBlank {options : Options} (blank : options.IndentsBlank)
    (layout : Layout) (count : Nat) : (ofLayout options layout count).IsBlank := by
  have line (extra : Int) : ∀ char ∈ '\n' :: (options.indentation extra).toList,
      char ∈ Reading.blanks := by
    intro char member
    rcases List.mem_cons.mp member with rfl | inside
    · decide
    · rcases blank.mem_indentation inside with rfl | rfl <;> decide
  have ending (present : Bool) :
      (if present then [','] else []) = [] ∨ (if present then [','] else []) = [','] := by
    cases present <;> simp
  simp only [ofLayout]
  split
  · exact ⟨blank.deeper 1, line 1, line 1, ending _, line 0, by simp⟩
  · exact ⟨blank, by simp, by simp [Reading.blanks], ending _, by simp, by simp⟩

theorem Spacing.ending_of_empty (options : Options) (layout : Layout) :
    (ofLayout options layout 0).ending = [] := by
  simp [ofLayout, layout.decision_zero]

end StarlarkPrinter

namespace StarlarkPrinter.Reading

section Sequence

variable {read : Reader Node} {close : Char} {spacing : Spacing}

/-- The characters after an element of a sequence. -/
def afterElement (spacing : Spacing) (close : Char) (elements : List Node)
    (rest : List Char) : List Char :=
  (elements.map (·.chars spacing.inner)).flatMap (fun text => ',' :: spacing.gap ++ text) ++
    spacing.ending ++ spacing.tail ++ close :: rest

theorem Spacing.chars_cons (element : Node) (others : List Node) (rest : List Char) :
    spacing.chars (element :: others) ++ close :: rest =
      spacing.lead ++ (element.chars spacing.inner ++
        afterElement spacing close others rest) := by
  simp [Spacing.chars, Text.separated, afterElement]

theorem afterElement_breaks (isClose : close ∈ closers) (blank : spacing.IsBlank)
    (elements : List Node) (rest : List Char) :
    Breaks (afterElement spacing close elements rest) := by
  intro char head
  cases elements with
  | cons element others =>
    simp [afterElement] at head
    simp [← head]
  | nil =>
    rcases blank.ending with none | comma
    · cases tail : spacing.tail with
      | nil =>
        simp [afterElement, none, tail] at head
        simp [← head, isClose]
      | cons first further =>
        have line : first = '\n' := blank.line first (by simp [tail])
        simp [afterElement, none, tail] at head
        simp [← head, line]
    · simp [afterElement, comma] at head
      simp [← head]

theorem more_comma (others : Reader (List Node)) (rest : List Char) :
    more others close (',' :: rest) = others rest := by
  have comma : skipBlank (',' :: rest) = ',' :: rest := skipBlank_cons (by decide)
  simp [more, comma]

theorem skipBlank_close (isClose : close ∈ closers) {gap : List Char}
    (blank : ∀ char ∈ gap, char ∈ blanks) (rest : List Char) :
    skipBlank (gap ++ close :: rest) = close :: rest := by
  have solid : close ∉ blanks := by
    rcases mem_closers.mp isClose with rfl | rfl | rfl <;> decide
  rw [skipBlank_append blank, skipBlank_cons solid]

theorem more_close (isClose : close ∈ closers) {gap : List Char}
    (blank : ∀ char ∈ gap, char ∈ blanks) (others : Reader (List Node))
    (rest : List Char) :
    more others close (gap ++ close :: rest) = some ([], rest) := by
  have notComma : close ≠ ',' := by
    rcases mem_closers.mp isClose with rfl | rfl | rfl <;> decide
  simp [more, skipBlank_close isClose blank, notComma]

theorem items_close (isClose : close ∈ closers) {gap : List Char}
    (blank : ∀ char ∈ gap, char ∈ blanks) (fuel : Nat) (rest : List Char) :
    items read close (fuel + 1) (gap ++ close :: rest) = some ([], rest) := by
  simp [items, skipBlank_close isClose blank]

/-- The input after a gap starts with what a selective reader takes there. -/
theorem Reads.skipBlank {text after : List Char} {follow : List Char → Prop} {value : Node}
    (reads : Reads read text follow value) (selective : Selective read) {gap : List Char}
    (blank : ∀ char ∈ gap, char ∈ blanks) (follows : follow after) :
    ∃ char further, text ++ after = char :: further ∧ char ∉ ',' :: closers ∧
      skipBlank (gap ++ (text ++ after)) = char :: further := by
  obtain ⟨char, further, starts, solid⟩ := reads.head selective follows
  have notBlank : char ∉ blanks := fun member => solid (by simp_all)
  refine ⟨char, further, starts, fun member => solid (by simp_all), ?_⟩
  rw [starts, skipBlank_append blank, skipBlank_cons notBlank]

/-- The reader takes one element, and goes on after it. -/
theorem items_item (selective : Selective read) (isClose : close ∈ closers)
    {text gap after : List Char} {value : Node} (reads : Reads read text Breaks value)
    (blank : ∀ char ∈ gap, char ∈ blanks) (follows : Breaks after) (fuel : Nat) :
    items read close (fuel + 1) (gap ++ (text ++ after)) =
      (more (items read close fuel) close after).map fun (others, rest) =>
        (value :: others, rest) := by
  obtain ⟨char, further, starts, solid, skipped⟩ := reads.skipBlank selective blank follows
  have notClose : char ≠ close := by
    rintro rfl
    exact solid (by simp_all)
  have taken := reads after follows
  rw [starts] at taken
  simp only [items, skipped, notClose, if_false, taken, Option.bind_eq_bind, Option.bind_some]
  cases more (items read close fuel) close after <;> rfl

/-- The reader takes the further elements of a sequence and its closing bracket. -/
theorem more_reads (selective : Selective read) (isClose : close ∈ closers)
    (blank : spacing.IsBlank) {elements : List Node}
    (each : ∀ element ∈ elements, Reads read (element.chars spacing.inner) Breaks element.bare)
    {fuel : Nat} (enough : elements.length < fuel) (rest : List Char) :
    more (items read close fuel) close (afterElement spacing close elements rest) =
      some (elements.map Node.bare, rest) := by
  induction elements generalizing fuel with
  | nil =>
    obtain ⟨fuel, rfl⟩ := Nat.exists_eq_add_one_of_ne_zero (by omega : fuel ≠ 0)
    rcases blank.ending with none | comma
    · simpa [afterElement, none] using more_close isClose blank.tail _ rest
    · have closed : items read close (fuel + 1) (spacing.tail ++ close :: rest) = some ([], rest) :=
        items_close isClose blank.tail fuel rest
      simpa [afterElement, comma, more_comma] using closed
  | cons element others ih =>
    obtain ⟨fuel, rfl⟩ := Nat.exists_eq_add_one_of_ne_zero (by omega : fuel ≠ 0)
    have shape : afterElement spacing close (element :: others) rest =
        ',' :: (spacing.gap ++ (element.chars spacing.inner ++
          afterElement spacing close others rest)) := by
      simp [afterElement]
    have remaining := ih (fun other member => each other (by simp [member]))
      (by simp at enough; omega : others.length < fuel)
    rw [shape, more_comma, items_item selective isClose (each element (by simp)) blank.gap
      (afterElement_breaks isClose blank others rest), remaining]
    rfl

/-- The reader takes a sequence and its closing bracket. -/
theorem items_reads (selective : Selective read) (isClose : close ∈ closers)
    (blank : spacing.IsBlank) {elements : List Node} (bare : elements = [] → spacing.ending = [])
    (each : ∀ element ∈ elements, Reads read (element.chars spacing.inner) Breaks element.bare)
    {fuel : Nat} (enough : elements.length < fuel) (rest : List Char) :
    items read close fuel (spacing.chars elements ++ close :: rest) =
      some (elements.map Node.bare, rest) := by
  obtain ⟨fuel, rfl⟩ := Nat.exists_eq_add_one_of_ne_zero (by omega : fuel ≠ 0)
  cases elements with
  | nil =>
    have gaps : ∀ char ∈ spacing.lead ++ spacing.tail, char ∈ blanks :=
      List.forall_mem_append.mpr ⟨blank.lead, blank.tail⟩
    simpa [Spacing.chars, Text.separated, bare rfl] using items_close isClose gaps fuel rest
  | cons element others =>
    have remaining := more_reads selective isClose blank
      (fun other member => each other (by simp [member]))
      (by simp at enough; omega : others.length < fuel) rest
    rw [Spacing.chars_cons, items_item selective isClose (each element (by simp)) blank.lead
      (afterElement_breaks isClose blank others rest), remaining]
    rfl

end Sequence

end StarlarkPrinter.Reading
