import StarlarkPrinter.Proofs.Renderable

/-! A grammar of expressions. The operands of operators, and whatever a call, a dot or
an index is applied to, are primaries, so no operator can be torn from its operands when
the text is read. Two trees are the same up to what is never printed if their bare trees
are equal. -/

namespace StarlarkPrinter

def Ident.bare (leaf : Ident) : Ident := { name := leaf.name }

def Literal.bare (leaf : Literal) : Literal := { value := leaf.value }

mutual

/-- A tree without positions, raw texts and the tokens of literals. -/
def Node.bare : Node → Node
  | .missing => .missing
  | .ident leaf => .ident leaf.bare
  | .literal leaf => .literal leaf.bare
  | .binary x op y => .binary x.bare op y.bare
  | .unary op x => .unary op x.bare
  | .call fn args => .call fn.bare (Node.bareAll args)
  | .forClause vars x => .forClause vars.bare x.bare
  | .ifClause test => .ifClause test.bare
  | .comprehension body clauses curly => .comprehension body.bare (Node.bareAll clauses) curly
  | .cond test onTrue onFalse => .cond test.bare onTrue.bare onFalse.bare
  | .dictEntry key value => .dictEntry key.bare value.bare
  | .dict elements => .dict (Node.bareAll elements)
  | .dot x name => .dot x.bare name.bare
  | .index x y => .index x.bare y.bare
  | .slice x lo hi step => .slice x.bare lo.bare hi.bare step.bare
  | .list elements => .list (Node.bareAll elements)
  | .tuple elements => .tuple (Node.bareAll elements)
  | .paren x => .paren x.bare
  | .lambda params body => .lambda (Node.bareAll params) body.bare
  | .assign lhs op rhs => .assign lhs.bare op rhs.bare
  | .branch token => .branch token
  | .define name params body => .define name.bare (Node.bareAll params) (Node.bareAll body)
  | .exprStmt x => .exprStmt x.bare
  | .forLoop vars x body => .forLoop vars.bare x.bare (Node.bareAll body)
  | .whileLoop test body => .whileLoop test.bare (Node.bareAll body)
  | .ifThen test onTrue onFalse =>
    .ifThen test.bare (Node.bareAll onTrue) (Node.bareAll onFalse)
  | .load path sources locals =>
    .load path.bare (sources.map (·.map Ident.bare)) (locals.map (·.map Ident.bare))
  | .returns result => .returns result.bare

def Node.bareAll : List Node → List Node
  | [] => []
  | node :: rest => node.bare :: Node.bareAll rest

end

theorem Node.bareAll_eq_map (nodes : List Node) : Node.bareAll nodes = nodes.map Node.bare := by
  induction nodes with
  | nil => rfl
  | cons node rest ih => exact congrArg (node.bare :: ·) ih

namespace Node

@[simp]
theorem bare_missing : missing.bare = .missing := rfl

@[simp]
theorem bare_literal (leaf : Literal) : (literal leaf).bare = .literal leaf.bare := rfl

@[simp]
theorem bare_paren (x : Node) : (paren x).bare = .paren x.bare := rfl

@[simp]
theorem bare_tuple (elements : List Node) : (tuple elements).bare = .tuple (elements.map bare) :=
  congrArg tuple (bareAll_eq_map elements)

@[simp]
theorem bare_list (elements : List Node) : (list elements).bare = .list (elements.map bare) :=
  congrArg list (bareAll_eq_map elements)

@[simp]
theorem bare_dict (elements : List Node) : (dict elements).bare = .dict (elements.map bare) :=
  congrArg dict (bareAll_eq_map elements)

@[simp]
theorem bare_comprehension (body : Node) (clauses : List Node) (curly : Bool) :
    (comprehension body clauses curly).bare =
      .comprehension body.bare (clauses.map bare) curly :=
  congrArg (comprehension body.bare · curly) (bareAll_eq_map clauses)

@[simp]
theorem bare_call (fn : Node) (args : List Node) :
    (call fn args).bare = .call fn.bare (args.map bare) :=
  congrArg (call fn.bare) (bareAll_eq_map args)

@[simp]
theorem bare_dot (x : Node) (leaf : Ident) :
    (dot x (ident leaf)).bare = .dot x.bare (.ident leaf.bare) := rfl

@[simp]
theorem bare_index (x y : Node) : (index x y).bare = .index x.bare y.bare := rfl

@[simp]
theorem bare_slice (x lo hi step : Node) :
    (slice x lo hi step).bare = .slice x.bare lo.bare hi.bare step.bare := rfl

@[simp]
theorem bare_unary (op : Option Token) (x : Node) : (unary op x).bare = .unary op x.bare := rfl

end Node

namespace Text

/-- Whether a character may stand in a name. -/
def isNameChar (char : Char) : Bool :=
  char.isAlphanum || char = '_'

/-- Whether a text is a word of the language. -/
def isWord (text : List Char) : Bool :=
  Token.all.any fun token => token.isKeyword && token.text.toList = text

/-- A name: letters, digits and underscores, no digit in front, and no word of the
language. -/
def isName : List Char → Bool
  | [] => false
  | first :: rest =>
    !first.isDigit && isNameChar first && rest.all isNameChar && !isWord (first :: rest)

end Text

def Token.infixes : List Token :=
  [.plus, .minus, .star, .slash, .slashSlash, .percent, .starStar, .amp, .pipe, .circumflex,
   .ltLt, .gtGt, .lt, .gt, .ge, .le, .eqEq, .notEq, .kwAnd, .kwOr, .kwIn, .kwNotIn]

def Token.signs : List Token :=
  [.plus, .minus, .tilde, .kwNot]

/-- The places of the grammar. -/
inductive Place where
  | primary | expression | argument | entry | clause
deriving DecidableEq, Repr

/-- The trees that may stand in a place. -/
inductive Formed : Place → Node → Prop where
  | ident {leaf : Ident} (name : Text.isName leaf.name.toList = true) :
      Formed .primary (.ident leaf)
  | text {leaf : Literal} {content : String} (value : leaf.value = .text content) :
      Formed .primary (.literal leaf)
  | number {leaf : Literal} {number : Nat} (value : leaf.value = .int number)
      (short : number < Text.numeralBound) :
      Formed .primary (.literal leaf)
  | paren {x : Node} (inner : Formed .expression x) :
      Formed .primary (.paren x)
  | tuple {elements : List Node} (several : 2 ≤ elements.length)
      (each : ∀ element ∈ elements, Formed .expression element) :
      Formed .primary (.paren (.tuple elements))
  | list {elements : List Node} (each : ∀ element ∈ elements, Formed .expression element) :
      Formed .primary (.list elements)
  | dict {elements : List Node} (each : ∀ element ∈ elements, Formed .entry element) :
      Formed .primary (.dict elements)
  | entry {key value : Node} (left : Formed .expression key) (right : Formed .expression value) :
      Formed .entry (.dictEntry key value)
  | comprehension {body vars x : Node} {clauses : List Node} {curly : Bool}
      (inner : Formed (if curly then .entry else .expression) body)
      (first : Formed .clause (.forClause vars x))
      (each : ∀ clause ∈ clauses, Formed .clause clause) :
      Formed .primary (.comprehension body (.forClause vars x :: clauses) curly)
  | forClause {vars x : Node} (left : Formed .primary vars) (right : Formed .primary x) :
      Formed .clause (.forClause vars x)
  | ifClause {test : Node} (inner : Formed .primary test) :
      Formed .clause (.ifClause test)
  | call {fn : Node} {args : List Node} (head : Formed .primary fn)
      (each : ∀ arg ∈ args, Formed .argument arg) :
      Formed .primary (.call fn args)
  | dot {x : Node} {leaf : Ident} (head : Formed .primary x)
      (name : Text.isName leaf.name.toList = true) :
      Formed .primary (.dot x (.ident leaf))
  | index {x y : Node} (head : Formed .primary x) (inner : Formed .expression y) :
      Formed .primary (.index x y)
  | slice {x lo hi step : Node} (head : Formed .primary x)
      (low : lo ≠ .missing → Formed .expression lo)
      (high : hi ≠ .missing → Formed .expression hi)
      (stride : step ≠ .missing → Formed .expression step) :
      Formed .primary (.slice x lo hi step)
  | primary {node : Node} (alone : Formed .primary node) :
      Formed .expression node
  | unary {op : Token} {x : Node} (sign : op ∈ Token.signs) (operand : Formed .primary x) :
      Formed .expression (.unary (some op) x)
  | binary {x y : Node} {op : Token} (left : Formed .primary x) (sign : op ∈ Token.infixes)
      (right : Formed .primary y) :
      Formed .expression (.binary x (some op) y)
  | cond {test onTrue onFalse : Node} (middle : Formed .primary test)
      (left : Formed .primary onTrue) (right : Formed .primary onFalse) :
      Formed .expression (.cond test onTrue onFalse)
  | expression {node : Node} (alone : Formed .expression node) :
      Formed .argument node
  | keyword {leaf : Ident} {value : Node} (name : Text.isName leaf.name.toList = true)
      (right : Formed .expression value) :
      Formed .argument (.binary (.ident leaf) (some .eq) value)
  | star {op : Token} {x : Node} (sign : op = .star ∨ op = .starStar)
      (operand : Formed .primary x) :
      Formed .argument (.unary (some op) x)

def Place.renders : Place → Node → Bool
  | .clause, node => node.rendersAsClause
  | _, node => node.rendersAsExpression

namespace Formed

variable {place : Place} {node : Node}

private theorem isWritable_of_mem {tokens : List Token} {op : Token}
    (spelled : ∀ symbol ∈ tokens, symbol.isDescriptive = false) (member : op ∈ tokens) :
    Token.isWritable (some op) = true := by
  simp [Token.isWritable, spelled op member]

theorem kind_of_entry (formed : Formed .entry node) : node.kind = .dictEntry := by
  cases formed
  rfl

theorem not_tuple {elements : List Node} : ¬ Formed .expression (.tuple elements) := by
  intro formed
  cases formed with
  | primary alone => cases alone

theorem isEmptyTuple (formed : Formed .expression node) : node.isEmptyTuple = false := by
  cases empty : node.isEmptyTuple with
  | false => rfl
  | true =>
    rw [Node.isEmptyTuple_iff.mp empty] at formed
    exact absurd formed not_tuple

/-- Whatever the grammar allows can be printed. -/
theorem renders (formed : Formed place node) : place.renders node = true := by
  induction formed with
  | ident name => rfl
  | text value => simp [Place.renders, Node.rendersAsExpression, value, Value.isWritable]
  | number value short =>
    simpa [Place.renders, Node.rendersAsExpression, value] using Value.isWritable_of_lt short
  | paren inner ih => simpa [Place.renders, Node.rendersAsExpression] using ih
  | tuple several each ih =>
    simpa [Place.renders, Node.rendersAsExpression, Node.renderAsExpressions_iff] using ih
  | list each ih =>
    simpa [Place.renders, Node.rendersAsExpression, Node.renderAsExpressions_iff] using ih
  | dict each ih =>
    have entries := fun element member => (each element member).kind_of_entry
    simp_all [Place.renders, Node.rendersAsExpression, Node.renderAsExpressions_iff]
  | entry left right leftIh rightIh =>
    simp_all [Place.renders, Node.rendersAsExpression]
  | @comprehension body vars x clauses curly inner first each innerIh firstIh ih =>
    have bodyRenders : body.rendersAsExpression = true := by
      cases curly <;> exact innerIh
    simp only [Place.renders, Node.rendersAsExpression, Bool.and_eq_true, Node.renderAsClauses_iff,
      List.forall_mem_cons]
    exact ⟨bodyRenders, firstIh, ih⟩
  | forClause left right leftIh rightIh => simp_all [Place.renders, Node.rendersAsClause]
  | ifClause inner ih => simpa [Place.renders, Node.rendersAsClause] using ih
  | call head each headIh ih =>
    simp_all [Place.renders, Node.rendersAsExpression, Node.renderAsExpressions_iff]
  | dot head name headIh => simp_all [Place.renders, Node.rendersAsExpression]
  | index head inner headIh ih => simp_all [Place.renders, Node.rendersAsExpression]
  | slice head low high stride headIh lowIh highIh strideIh =>
    have optional {bound : Node} (renders : bound ≠ .missing → bound.rendersAsExpression = true) :
        bound = .missing ∨ bound.rendersAsExpression = true := by
      by_cases missing : bound = .missing
      · exact .inl missing
      · exact .inr (renders missing)
    simp only [Place.renders, Node.rendersAsExpression, Bool.and_eq_true, Bool.or_eq_true,
      Node.isMissing_iff]
    exact ⟨⟨⟨headIh, optional lowIh⟩, optional highIh⟩, optional strideIh⟩
  | primary alone ih => exact ih
  | unary sign operand ih =>
    have writable := isWritable_of_mem (by decide) sign
    simp_all [Place.renders, Node.rendersAsExpression]
  | binary left sign right leftIh rightIh =>
    have writable := isWritable_of_mem (by decide) sign
    simp_all [Place.renders, Node.rendersAsExpression]
  | cond middle left right middleIh leftIh rightIh =>
    simp_all [Place.renders, Node.rendersAsExpression]
  | expression alone ih => exact ih
  | keyword name right ih =>
    have writable : Token.isWritable (some .eq) = true := rfl
    simp_all [Place.renders, Node.rendersAsExpression]
  | @star op x sign operand ih =>
    have writable : Token.isWritable (some op) = true := by
      rcases sign with rfl | rfl <;> rfl
    simp_all [Place.renders, Node.rendersAsExpression]

theorem present (formed : Formed place node) : node ≠ .missing := by
  rintro rfl
  have renders := formed.renders
  cases place <;> cases renders

end Formed

end StarlarkPrinter
