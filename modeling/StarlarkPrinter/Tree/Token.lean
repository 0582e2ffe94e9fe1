import StarlarkPrinter.Text.Quoted

/-! The tokens of the language. A token has a name and a text. For most tokens
the text is their spelling in source code; the tokens that stand for a class of
spellings, or for layout, have a description instead. -/

namespace StarlarkPrinter

inductive Token where
  | illegal | endOfFile | newline | indent | outdent
  | identifier | intLiteral | floatLiteral | stringLiteral | bytesLiteral
  | plus | minus | star | slash | slashSlash | percent | amp | pipe | circumflex | ltLt
  | gtGt | tilde | dot | comma | eq | semi | colon | leftParen | rightParen | leftBracket
  | rightBracket | leftBrace | rightBrace | lt | gt | ge | le | eqEq | notEq | plusEq
  | minusEq | starEq | slashEq | slashSlashEq | percentEq | ampEq | pipeEq | circumflexEq
  | ltLtEq | gtGtEq | starStar
  | kwAnd | kwBreak | kwContinue | kwDef | kwElif | kwElse | kwFor | kwIf | kwIn
  | kwLambda | kwLoad | kwNot | kwNotIn | kwOr | kwPass | kwReturn | kwWhile
deriving DecidableEq, Repr

namespace Token

/-- Every token, in the order of the declaration. -/
def all : List Token :=
  [.illegal, .endOfFile, .newline, .indent, .outdent, .identifier, .intLiteral,
   .floatLiteral, .stringLiteral, .bytesLiteral, .plus, .minus, .star, .slash,
   .slashSlash, .percent, .amp, .pipe, .circumflex, .ltLt, .gtGt, .tilde, .dot, .comma,
   .eq, .semi, .colon, .leftParen, .rightParen, .leftBracket, .rightBracket, .leftBrace,
   .rightBrace, .lt, .gt, .ge, .le, .eqEq, .notEq, .plusEq, .minusEq, .starEq, .slashEq,
   .slashSlashEq, .percentEq, .ampEq, .pipeEq, .circumflexEq, .ltLtEq, .gtGtEq,
   .starStar, .kwAnd, .kwBreak, .kwContinue, .kwDef, .kwElif, .kwElse, .kwFor, .kwIf,
   .kwIn, .kwLambda, .kwLoad, .kwNot, .kwNotIn, .kwOr, .kwPass, .kwReturn, .kwWhile]

def name : Token → String
  | .illegal => "ILLEGAL"
  | .endOfFile => "EOF"
  | .newline => "NEWLINE"
  | .indent => "INDENT"
  | .outdent => "OUTDENT"
  | .identifier => "IDENT"
  | .intLiteral => "INT"
  | .floatLiteral => "FLOAT"
  | .stringLiteral => "STRING"
  | .bytesLiteral => "BYTES"
  | .plus => "PLUS"
  | .minus => "MINUS"
  | .star => "STAR"
  | .slash => "SLASH"
  | .slashSlash => "SLASHSLASH"
  | .percent => "PERCENT"
  | .amp => "AMP"
  | .pipe => "PIPE"
  | .circumflex => "CIRCUMFLEX"
  | .ltLt => "LTLT"
  | .gtGt => "GTGT"
  | .tilde => "TILDE"
  | .dot => "DOT"
  | .comma => "COMMA"
  | .eq => "EQ"
  | .semi => "SEMI"
  | .colon => "COLON"
  | .leftParen => "LPAREN"
  | .rightParen => "RPAREN"
  | .leftBracket => "LBRACK"
  | .rightBracket => "RBRACK"
  | .leftBrace => "LBRACE"
  | .rightBrace => "RBRACE"
  | .lt => "LT"
  | .gt => "GT"
  | .ge => "GE"
  | .le => "LE"
  | .eqEq => "EQL"
  | .notEq => "NEQ"
  | .plusEq => "PLUS_EQ"
  | .minusEq => "MINUS_EQ"
  | .starEq => "STAR_EQ"
  | .slashEq => "SLASH_EQ"
  | .slashSlashEq => "SLASHSLASH_EQ"
  | .percentEq => "PERCENT_EQ"
  | .ampEq => "AMP_EQ"
  | .pipeEq => "PIPE_EQ"
  | .circumflexEq => "CIRCUMFLEX_EQ"
  | .ltLtEq => "LTLT_EQ"
  | .gtGtEq => "GTGT_EQ"
  | .starStar => "STARSTAR"
  | .kwAnd => "AND"
  | .kwBreak => "BREAK"
  | .kwContinue => "CONTINUE"
  | .kwDef => "DEF"
  | .kwElif => "ELIF"
  | .kwElse => "ELSE"
  | .kwFor => "FOR"
  | .kwIf => "IF"
  | .kwIn => "IN"
  | .kwLambda => "LAMBDA"
  | .kwLoad => "LOAD"
  | .kwNot => "NOT"
  | .kwNotIn => "NOT_IN"
  | .kwOr => "OR"
  | .kwPass => "PASS"
  | .kwReturn => "RETURN"
  | .kwWhile => "WHILE"

def text : Token → String
  | .illegal => "illegal token"
  | .endOfFile => "end of file"
  | .newline => "newline"
  | .indent => "indent"
  | .outdent => "outdent"
  | .identifier => "identifier"
  | .intLiteral => "int literal"
  | .floatLiteral => "float literal"
  | .stringLiteral => "string literal"
  | .bytesLiteral => "bytes literal"
  | .plus => "+"
  | .minus => "-"
  | .star => "*"
  | .slash => "/"
  | .slashSlash => "//"
  | .percent => "%"
  | .amp => "&"
  | .pipe => "|"
  | .circumflex => "^"
  | .ltLt => "<<"
  | .gtGt => ">>"
  | .tilde => "~"
  | .dot => "."
  | .comma => ","
  | .eq => "="
  | .semi => ";"
  | .colon => ":"
  | .leftParen => "("
  | .rightParen => ")"
  | .leftBracket => "["
  | .rightBracket => "]"
  | .leftBrace => "\x7b"
  | .rightBrace => "\x7d"
  | .lt => "<"
  | .gt => ">"
  | .ge => ">="
  | .le => "<="
  | .eqEq => "=="
  | .notEq => "!="
  | .plusEq => "+="
  | .minusEq => "-="
  | .starEq => "*="
  | .slashEq => "/="
  | .slashSlashEq => "//="
  | .percentEq => "%="
  | .ampEq => "&="
  | .pipeEq => "|="
  | .circumflexEq => "^="
  | .ltLtEq => "<<="
  | .gtGtEq => ">>="
  | .starStar => "**"
  | .kwAnd => "and"
  | .kwBreak => "break"
  | .kwContinue => "continue"
  | .kwDef => "def"
  | .kwElif => "elif"
  | .kwElse => "else"
  | .kwFor => "for"
  | .kwIf => "if"
  | .kwIn => "in"
  | .kwLambda => "lambda"
  | .kwLoad => "load"
  | .kwNot => "not"
  | .kwNotIn => "not in"
  | .kwOr => "or"
  | .kwPass => "pass"
  | .kwReturn => "return"
  | .kwWhile => "while"

/-- Whether a token is spelled as a word of the language. -/
def isKeyword : Token → Bool
  | .kwAnd | .kwBreak | .kwContinue | .kwDef | .kwElif | .kwElse | .kwFor | .kwIf
  | .kwIn | .kwLambda | .kwLoad | .kwNot | .kwNotIn | .kwOr | .kwPass | .kwReturn
  | .kwWhile => true
  | _ => false

/-- Whether a token has no spelling of its own and so is never written. -/
def isDescriptive : Token → Bool
  | .illegal | .endOfFile | .indent | .outdent | .identifier | .intLiteral
  | .floatLiteral | .stringLiteral | .bytesLiteral => true
  | _ => false

/-- The characters written for a token: a line feed for the end of a line, else
its text. Descriptive tokens have none. -/
def spelling? (token : Token) : Option String :=
  if token.isDescriptive then none
  else if token = .newline then some "\n"
  else some token.text

def ofName? (name : String) : Option Token :=
  all.find? (·.name = name)

def ofText? (text : String) : Option Token :=
  all.find? (·.text = text)

/-- What is reported for a text that no token has. -/
def unknownText (text : String) : String :=
  Text.displayed text ++ " is not a valid Token"

/-- The text of a token that may be missing. -/
def shown : Option Token → String
  | none => "None"
  | some token => token.text

theorem mem_all (token : Token) : token ∈ all := by
  cases token <;> decide

@[simp]
theorem ofText?_text (token : Token) : ofText? token.text = some token := by
  have table : ∀ token ∈ all, ofText? token.text = some token := by decide +kernel
  exact table token (mem_all token)

end Token

end StarlarkPrinter
