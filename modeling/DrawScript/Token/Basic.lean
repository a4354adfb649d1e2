import DrawScript.Span

/-!
Tokens of a script. A token has a kind, the text it was written with and its position.
Words are classified by their letters without regard to case: type names first, then built-in
names, draw commands, operators and keywords; every other word is plain text, which may be a
name or a number.
-/

namespace DrawScript

inductive Keyword where
  | uniform
  | ret
  | loop
  | cases
  deriving DecidableEq, Repr

namespace Keyword

def all : List Keyword := [.uniform, .ret, .loop, .cases]

def text : Keyword → String
  | .uniform => "uniform"
  | .ret => "return"
  | .loop => "for"
  | .cases => "switch"

def ofText? (s : String) : Option Keyword := all.find? fun k => k.text == s

end Keyword

inductive Operator where
  | plus
  | minus
  | star
  | slash
  | percent
  | equals
  | less
  | greater
  | bang
  | pipe
  | caret
  deriving DecidableEq, Repr

namespace Operator

def all : List Operator :=
  [.plus, .minus, .star, .slash, .percent, .equals, .less, .greater, .bang, .pipe, .caret]

def symbol : Operator → Char
  | .plus => '+'
  | .minus => '-'
  | .star => '*'
  | .slash => '/'
  | .percent => '%'
  | .equals => '='
  | .less => '<'
  | .greater => '>'
  | .bang => '!'
  | .pipe => '|'
  | .caret => '^'

def text (o : Operator) : String := String.singleton o.symbol

def ofChar? (c : Char) : Option Operator := all.find? fun o => o.symbol == c

end Operator

inductive TokenKind where
  | text
  | type
  | builtin
  | draw
  | keyword (k : Keyword)
  | operator (o : Operator)
  | ellipsis
  | leftParen
  | rightParen
  | leftBrace
  | rightBrace
  | leftBracket
  | rightBracket
  | comma
  | colon
  | semicolon
  | dollar
  | dot
  deriving DecidableEq, Repr

namespace TokenKind

def typeNames : List String := ["float", "int", "vec2", "vec3", "any"]

def builtinNames : List String :=
  ["sin", "cos", "tan", "asin", "acos", "atan", "count", "exp", "log", "sqrt", "abs", "min",
   "max", "floor", "ceil", "e", "pi", "tau"]

def drawNames : List String := ["triangle", "polygon"]

def ofChar? : Char → Option TokenKind
  | '(' => some .leftParen
  | ')' => some .rightParen
  | '\x7b' => some .leftBrace
  | '\x7d' => some .rightBrace
  | '[' => some .leftBracket
  | ']' => some .rightBracket
  | ',' => some .comma
  | ':' => some .colon
  | ';' => some .semicolon
  | '$' => some .dollar
  | '.' => some .dot
  | c => (Operator.ofChar? c).map .operator

def operatorWord? (word : String) : Option Operator :=
  match word.toList with
  | [c] => Operator.ofChar? c
  | _ => none

def classify (word : String) : TokenKind :=
  let lower := word.toLower
  if typeNames.contains lower then .type
  else if builtinNames.contains lower then .builtin
  else if drawNames.contains lower then .draw
  else match operatorWord? lower with
    | some o => .operator o
    | none =>
      match Keyword.ofText? lower with
      | some k => .keyword k
      | none => .text

def label : TokenKind → String
  | .text => "identifier"
  | .type => "type name"
  | .builtin => "builtin"
  | .draw => "draw command"
  | .keyword k => "'" ++ k.text ++ "'"
  | .operator o => "'" ++ o.text ++ "'"
  | .ellipsis => "'...'"
  | .leftParen => "'('"
  | .rightParen => "')'"
  | .leftBrace => "'\x7b'"
  | .rightBrace => "'\x7d'"
  | .leftBracket => "'['"
  | .rightBracket => "']'"
  | .comma => "','"
  | .colon => "':'"
  | .semicolon => "';'"
  | .dollar => "'$'"
  | .dot => "'.'"

/-- Whether the text of such a token says more than its kind. -/
def isWord : TokenKind → Bool
  | .text | .type | .builtin | .draw => true
  | _ => false

end TokenKind

structure Token where
  kind : TokenKind
  text : String
  span : Span
  deriving DecidableEq, Repr

namespace Token

def describe (t : Token) : String :=
  if t.kind.isWord then t.kind.label ++ " '" ++ t.text ++ "'" else t.kind.label

def stop (t : Token) : Span := ⟨t.span.line, t.span.column + t.text.length⟩

end Token

end DrawScript
