import DrawScript.Proofs.Script.Grammar
import DrawScript.Proofs.Token.Spacing

/-!
Printing a script. Parentheses stand only around an operand whose rank is lower than its place asks
for, every branch of a piecewise expression ends with a comma and every draw call with a semicolon.
The text is the row of token texts with one space between neighbours. Beside the printer stand the
scripts that can be printed at all and the number of levels that a printed expression nests.
-/

namespace DrawScript

def TokenKind.spelling : TokenKind → String
  | .keyword k => k.text
  | .operator o => o.text
  | .ellipsis => "..."
  | .leftParen => "("
  | .rightParen => ")"
  | .leftBrace => "\x7b"
  | .rightBrace => "\x7d"
  | .leftBracket => "["
  | .rightBracket => "]"
  | .comma => ","
  | .colon => ":"
  | .semicolon => ";"
  | .dollar => "$"
  | .dot => "."
  | .text | .type | .builtin | .draw => ""

namespace Token

def symbol (kind : TokenKind) : Token := ⟨kind, kind.spelling, Span.start⟩

@[simp] theorem kind_symbol (kind : TokenKind) : (symbol kind).kind = kind := rfl

@[simp] theorem span_symbol (kind : TokenKind) : (symbol kind).span = Span.start := rfl

def word (text : String) : Token := ⟨TokenKind.classify text, text, Span.start⟩

@[simp] theorem kind_word (text : String) : (word text).kind = TokenKind.classify text := rfl

@[simp] theorem text_word (text : String) : (word text).text = text := rfl

@[simp] theorem span_word (text : String) : (word text).span = Span.start := rfl

end Token

open Token (symbol word)

def Expr.rank : Expr → Nat
  | .assign .. => 1
  | .binary op .. => op.rank
  | .unary .. => 6
  | _ => 7

/-- The tokens of an operand where an operand of rank `place` has to stand. -/
def enclose (place rank : Nat) (ts : List Token) : List Token :=
  if rank < place then symbol .leftParen :: ts ++ [symbol .rightParen] else ts

def deepen (place rank nesting : Nat) : Nat := if rank < place then nesting + 1 else nesting

def TypeSpec.tokens (t : TypeSpec) : List Token :=
  ⟨.type, t.base.text, Span.start⟩ ::
    if t.isList then [symbol .leftBracket, symbol .rightBracket] else []

def Param.tokens (p : Param) : List Token := p.type.tokens ++ [word p.name]

def moreParamTokens : List Param → List Token
  | [] => []
  | p :: ps => symbol .comma :: p.tokens ++ moreParamTokens ps

def paramTokens : List Param → List Token
  | [] => []
  | p :: ps => p.tokens ++ moreParamTokens ps

/-- The tokens of a call, given those of its arguments. A name that starts with a dollar sign is
called without arguments. -/
def callTokens (name : String) (arguments : List Token) : List Token :=
  match name.toList with
  | '$' :: cs => [symbol .dollar, word (String.ofList cs)]
  | _ => word name :: symbol .leftParen :: arguments ++ [symbol .rightParen]

mutual

def Expr.tokens : Expr → List Token
  | .assign target value _ =>
    enclose 2 target.rank target.tokens ++ symbol (.operator .equals) :: value.tokens
  | .binary op left right _ =>
    enclose op.rank left.rank left.tokens ++ symbol (.operator op.operator) ::
      enclose (op.rank + 1) right.rank right.tokens
  | .unary op operand _ =>
    symbol (.operator op.operator) :: enclose 6 operand.rank operand.tokens
  | .call name arguments _ => callTokens name (exprTokens arguments)
  | .name text _ _ => [word text]
  | .member object property _ =>
    enclose 7 object.rank object.tokens ++ [symbol .dot, word property]
  | .index object subscript _ =>
    enclose 7 object.rank object.tokens ++ symbol .leftBracket :: subscript.tokens ++
      [symbol .rightBracket]
  | .vector elements _ => symbol .leftParen :: exprTokens elements ++ [symbol .rightParen]
  | .list elements _ => symbol .leftBracket :: exprTokens elements ++ [symbol .rightBracket]
  | .range first last _ =>
    symbol .leftBracket :: first.tokens ++ symbol .ellipsis :: last.tokens ++
      [symbol .rightBracket]
  | .loop iterators body _ =>
    symbol (.keyword .loop) :: symbol .leftParen :: iteratorTokens iterators ++
      symbol .rightParen :: body.tokens
  | .cases branches _ =>
    symbol (.keyword .cases) :: symbol .leftBrace :: branchTokens branches ++ [symbol .rightBrace]

def exprTokens : List Expr → List Token
  | [] => []
  | e :: es => e.tokens ++ moreExprTokens es

def moreExprTokens : List Expr → List Token
  | [] => []
  | e :: es => symbol .comma :: e.tokens ++ moreExprTokens es

def iteratorTokens : List Iterator → List Token
  | [] => []
  | .mk name range :: its => word name :: symbol .colon :: range.tokens ++ moreIteratorTokens its

def moreIteratorTokens : List Iterator → List Token
  | [] => []
  | .mk name range :: its =>
    symbol .comma :: word name :: symbol .colon :: range.tokens ++ moreIteratorTokens its

def branchTokens : List Branch → List Token
  | [] => []
  | .tested test result :: bs =>
    test.tokens ++ symbol .colon :: result.tokens ++ symbol .comma :: branchTokens bs
  | .otherwise result :: bs => result.tokens ++ symbol .comma :: branchTokens bs

def Block.tokens : Block → List Token
  | .mk statements _ => symbol .leftBrace :: statementTokens statements ++ [symbol .rightBrace]

def Statement.tokens : Statement → List Token
  | .function returns name params body _ =>
    returns.tokens ++ word name :: symbol .leftParen :: paramTokens params ++
      symbol .rightParen :: body.tokens
  | .binding type name value _ => type.tokens ++ word name :: valueTokens value
  | .uniform type name value _ =>
    symbol (.keyword .uniform) :: type.tokens ++ word name :: valueTokens value
  | .directive name value _ =>
    [symbol .dollar, word name, symbol .colon, word value, symbol .semicolon]
  | .draw command arguments _ =>
    ⟨.draw, command.text, Span.start⟩ :: symbol .leftParen :: exprTokens arguments ++
      [symbol .rightParen, symbol .semicolon]
  | .ret value _ => symbol (.keyword .ret) :: value.tokens ++ [symbol .semicolon]
  | .expression value _ => value.tokens ++ [symbol .semicolon]

def statementTokens : List Statement → List Token
  | [] => []
  | s :: ss => s.tokens ++ statementTokens ss

def valueTokens : Option Expr → List Token
  | none => [symbol .semicolon]
  | some e => symbol (.operator .equals) :: e.tokens ++ [symbol .semicolon]

end

def Script.print (p : Script) : String := spaced (statementTokens p.body)

mutual

/-- The levels that an expression nests below the place where it stands. Every place of an expression
is a level: a value, an argument, an element, a subscript, an end of a range, what an iterator runs
over, a test, a result, a statement, and what stands in parentheses. So are the right-hand side of
an assignment and the operand of an operator before it. -/
def Expr.nesting : Expr → Nat
  | .assign target value _ => max (deepen 2 target.rank target.nesting) (value.nesting + 1)
  | .binary op left right _ =>
    max (deepen op.rank left.rank left.nesting) (deepen (op.rank + 1) right.rank right.nesting)
  | .unary _ operand _ => deepen 6 operand.rank operand.nesting + 1
  | .call _ arguments _ => exprNesting arguments
  | .name _ _ _ => 0
  | .member object _ _ => deepen 7 object.rank object.nesting
  | .index object subscript _ =>
    max (deepen 7 object.rank object.nesting) (subscript.nesting + 1)
  | .vector elements _ => exprNesting elements
  | .list elements _ => exprNesting elements
  | .range first last _ => max (first.nesting + 1) (last.nesting + 1)
  | .loop iterators body _ => max (iteratorNesting iterators) body.nesting
  | .cases branches _ => branchNesting branches

def exprNesting : List Expr → Nat
  | [] => 0
  | e :: es => max (e.nesting + 1) (exprNesting es)

def iteratorNesting : List Iterator → Nat
  | [] => 0
  | .mk _ range :: its => max (range.nesting + 1) (iteratorNesting its)

def branchNesting : List Branch → Nat
  | [] => 0
  | .tested test result :: bs =>
    max (test.nesting + 1) (max (result.nesting + 1) (branchNesting bs))
  | .otherwise result :: bs => max (result.nesting + 1) (branchNesting bs)

def Block.nesting : Block → Nat
  | .mk statements _ => statementNesting statements

def Statement.nesting : Statement → Nat
  | .function _ _ _ body _ => body.nesting
  | .binding _ _ value _ => valueNesting value
  | .uniform _ _ value _ => valueNesting value
  | .directive _ _ _ => 0
  | .draw _ arguments _ => exprNesting arguments
  | .ret value _ => value.nesting + 1
  | .expression value _ => value.nesting + 1

def statementNesting : List Statement → Nat
  | [] => 0
  | s :: ss => max s.nesting (statementNesting ss)

def valueNesting : Option Expr → Nat
  | none => 0
  | some e => e.nesting + 1

end

def Script.nesting (p : Script) : Nat := statementNesting p.body

def IsWord (w : String) : Prop := Token.IsLexeme ⟨.text, w, Span.start⟩

theorem IsWord.word_eq {w : String} (h : IsWord w) : word w = ⟨.text, w, Span.start⟩ := by
  rw [word, Piece.classify_of_isLexeme h rfl]

theorem IsWord.toList_ne_dollar {w : String} (h : IsWord w) (cs : List Char) :
    w.toList ≠ '$' :: cs := by
  intro hcs
  obtain ⟨p, hsplit, htok⟩ := Piece.exists_split_of_isLexeme h
  rw [hcs, Piece.split] at hsplit
  obtain ⟨rfl, -⟩ := List.cons.inj hsplit
  cases htok

def IsName (w : String) : Prop := IsWord w ∧ Parser.isNumeric w = false

theorem IsName.word_eq {w : String} (h : IsName w) : word w = ⟨.text, w, Span.start⟩ := h.1.word_eq

theorem IsName.head?_ne_dollar {w : String} (h : IsName w) : w.toList.head? ≠ some '$' := by
  intro hhead
  obtain ⟨cs, hcs⟩ := List.head?_eq_some_iff.mp hhead
  exact h.1.toList_ne_dollar cs hcs

def IsBuiltin (w : String) : Prop := w ∈ TokenKind.builtinNames

theorem IsBuiltin.classify_eq {w : String} (h : IsBuiltin w) :
    TokenKind.classify w = .builtin ∧ w.toLower = w := by
  have hall : ∀ w ∈ TokenKind.builtinNames,
      TokenKind.classify w = .builtin ∧ w.toLower = w := by decide +kernel
  exact hall w h

theorem IsBuiltin.word_eq {w : String} (h : IsBuiltin w) : word w = ⟨.builtin, w, Span.start⟩ := by
  rw [word, h.classify_eq.1]

theorem IsBuiltin.head?_ne_dollar {w : String} (h : IsBuiltin w) : w.toList.head? ≠ some '$' := by
  have hall : ∀ w ∈ TokenKind.builtinNames, w.toList.head? ≠ some '$' := by decide
  exact hall w h

theorem callTokens_dollar (name : String) (arguments : List Token) :
    callTokens ("$" ++ name) arguments = [symbol .dollar, word name] := by
  simp [callTokens]

theorem callTokens_of_operand {name : String} (h : IsName name ∨ IsBuiltin name)
    (arguments : List Token) :
    callTokens name arguments =
      word name :: symbol .leftParen :: arguments ++ [symbol .rightParen] := by
  have hdollar : name.toList.head? ≠ some '$' := h.elim IsName.head?_ne_dollar IsBuiltin.head?_ne_dollar
  unfold callTokens
  split
  next cs hcs => exact absurd (List.head?_eq_some_iff.mpr ⟨cs, hcs⟩) hdollar
  next => rfl

mutual

def Expr.WellFormed : Expr → Prop
  | .assign target value _ => target.WellFormed ∧ value.WellFormed
  | .binary _ left right _ => left.WellFormed ∧ right.WellFormed
  | .unary _ operand _ => operand.WellFormed
  | .call name arguments _ =>
    (IsName name ∨ IsBuiltin name) ∧ wellFormedExprs arguments ∨
      (∃ w, IsName w ∧ name = "$" ++ w) ∧ arguments = []
  | .name text isNumber _ =>
    IsWord text ∧ isNumber = Parser.isNumeric text ∨ IsBuiltin text ∧ isNumber = false
  | .member object property _ => object.WellFormed ∧ IsName property
  | .index object subscript _ => object.WellFormed ∧ subscript.WellFormed
  | .vector elements _ => elements.length ≠ 1 ∧ wellFormedExprs elements
  | .list elements _ => wellFormedExprs elements
  | .range first last _ => first.WellFormed ∧ last.WellFormed
  | .loop iterators body _ => iterators ≠ [] ∧ wellFormedIterators iterators ∧ body.WellFormed
  | .cases branches _ => wellFormedBranches branches

def wellFormedExprs : List Expr → Prop
  | [] => True
  | e :: es => e.WellFormed ∧ wellFormedExprs es

def wellFormedIterators : List Iterator → Prop
  | [] => True
  | .mk name range :: its => IsName name ∧ range.WellFormed ∧ wellFormedIterators its

def wellFormedBranches : List Branch → Prop
  | [] => True
  | .tested test result :: bs => test.WellFormed ∧ result.WellFormed ∧ wellFormedBranches bs
  | .otherwise result :: bs => result.WellFormed ∧ bs = []

def Block.WellFormed : Block → Prop
  | .mk statements _ => wellFormedStatements statements

def Statement.WellFormed : Statement → Prop
  | .function _ name params body _ =>
    IsName name ∧ (∀ p ∈ params, IsName p.name) ∧ body.WellFormed
  | .binding _ name value _ => IsName name ∧ wellFormedValue value
  | .ret value _ => value.WellFormed
  | .expression value _ => value.WellFormed
  | _ => False

def wellFormedStatements : List Statement → Prop
  | [] => True
  | s :: ss => s.WellFormed ∧ wellFormedStatements ss

def wellFormedValue : Option Expr → Prop
  | none => True
  | some e => e.WellFormed

end

def Statement.WellFormedTop : Statement → Prop
  | .function returns name params body span =>
    (Statement.function returns name params body span).WellFormed
  | .binding type name value span =>
    type.base.isTemplate = false ∧ (Statement.binding type name value span).WellFormed
  | .uniform type name value _ =>
    type.base.isTemplate = false ∧ IsName name ∧ wellFormedValue value
  | .directive name value _ => IsName name ∧ IsWord value
  | .draw _ arguments _ => wellFormedExprs arguments
  | _ => False

def Script.WellFormed (p : Script) : Prop := ∀ s ∈ p.body, s.WellFormedTop

end DrawScript
