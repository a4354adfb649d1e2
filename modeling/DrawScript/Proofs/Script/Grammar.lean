import DrawScript.Script.Parser

/-!
The grammar of scripts, as relations between trees and rows of tokens. Every form is written with
its own symbols and, in order, with its parts, and its position is that of the token it is named
after. Expressions have a rank in the table of precedence: assignment is 1, the binary operators are
2 to 5, the operators before an operand 6, and names, literals, accesses and calls 7. An operand has
to reach the rank that its place asks for; parentheses lift any expression to rank 7. Only a name can
be called, never an expression in parentheses.
-/

namespace DrawScript

def BinaryOp.rank : BinaryOp → Nat
  | .or | .xor => 2
  | .lt | .gt | .ne => 3
  | .add | .sub => 4
  | .mul | .div | .mod => 5

def BinaryOp.operator : BinaryOp → Operator
  | .or => .pipe
  | .xor => .caret
  | .lt => .less
  | .gt => .greater
  | .ne => .bang
  | .add => .plus
  | .sub => .minus
  | .mul => .star
  | .div => .slash
  | .mod => .percent

def UnaryOp.operator : UnaryOp → Operator
  | .neg => .minus
  | .not => .bang

namespace Parser

def Level.rank : Level → Nat
  | .logical => 2
  | .comparison => 3
  | .additive => 4
  | .multiplicative => 5

def rankOf : List Level → Nat
  | [] => 6
  | l :: _ => l.rank

/-- The levels follow one another in the table of precedence, up to the last. -/
def Consecutive : List Level → Prop
  | [] => True
  | l :: ls => rankOf ls = l.rank + 1 ∧ Consecutive ls

theorem consecutive_levels : Consecutive levels := by
  simp [levels, Consecutive, rankOf, Level.rank]

theorem Level.operator?_eq_some {l : Level} {kind : TokenKind} {op : BinaryOp}
    (h : l.operator? kind = some op) : kind = .operator op.operator ∧ op.rank = l.rank := by
  unfold Level.operator? at h
  split at h <;> cases h <;> exact ⟨rfl, rfl⟩

theorem unaryOperator?_eq_some {kind : TokenKind} {op : UnaryOp}
    (h : unaryOperator? kind = some op) : kind = .operator op.operator := by
  unfold unaryOperator? at h
  split at h <;> cases h <;> rfl

end Parser

namespace Grammar

def Optional (kind : TokenKind) (ts : List Token) : Prop :=
  ts = [] ∨ ∃ t : Token, t.kind = kind ∧ ts = [t]

def Name (name : String) (t : Token) : Prop :=
  t.kind = .text ∧ t.text = name ∧ Parser.isNumeric name = false

def Callee (name : String) (t : Token) : Prop :=
  Name name t ∨ t.kind = .builtin ∧ t.text.toLower = name

inductive TypeForm : TypeSpec → List Token → Prop
  | element {t : Token} {base : BaseType} (ht : t.kind = .type)
      (hbase : BaseType.ofText? t.text = some base) : TypeForm ⟨base, false⟩ [t]
  | list {t l r : Token} {base : BaseType} (ht : t.kind = .type)
      (hbase : BaseType.ofText? t.text = some base) (hl : l.kind = .leftBracket)
      (hr : r.kind = .rightBracket) : TypeForm ⟨base, true⟩ [t, l, r]

inductive ParamForm : Param → List Token → Prop
  | mk {type : TypeSpec} {name : String} {n : Token} {ts : List Token} (htype : TypeForm type ts)
      (hname : Name name n) : ParamForm ⟨type, name, n.span⟩ (ts ++ [n])

inductive ParamRow : List Param → List Token → Prop
  | nil : ParamRow [] []
  | one {p : Param} {ts : List Token} (hp : ParamForm p ts) : ParamRow [p] ts
  | cons {p q : Param} {ps : List Param} {t : Token} {ts us : List Token} (hp : ParamForm p ts)
      (ht : t.kind = .comma) (hps : ParamRow (q :: ps) us) :
      ParamRow (p :: q :: ps) (ts ++ t :: us)

mutual

/-- A row of tokens that writes an expression of at least the given rank. -/
inductive ExprForm : Nat → Expr → List Token → Prop
  | assign {target value : Expr} {t : Token} {ts us : List Token} (htarget : ExprForm 2 target ts)
      (ht : t.kind = .operator .equals) (hvalue : ExprForm 1 value us) :
      ExprForm 1 (.assign target value t.span) (ts ++ t :: us)
  | binary {op : BinaryOp} {left right : Expr} {t : Token} {ts us : List Token}
      (hleft : ExprForm op.rank left ts) (ht : t.kind = .operator op.operator)
      (hright : ExprForm (op.rank + 1) right us) :
      ExprForm op.rank (.binary op left right t.span) (ts ++ t :: us)
  | unary {op : UnaryOp} {e : Expr} {t : Token} {ts : List Token}
      (ht : t.kind = .operator op.operator) (he : ExprForm 6 e ts) :
      ExprForm 6 (.unary op e t.span) (t :: ts)
  | member {e : Expr} {property : String} {t n : Token} {ts : List Token} (he : ExprForm 7 e ts)
      (ht : t.kind = .dot) (hn : Name property n) :
      ExprForm 7 (.member e property t.span) (ts ++ [t, n])
  | index {e subscript : Expr} {l r : Token} {ts us : List Token} (he : ExprForm 7 e ts)
      (hl : l.kind = .leftBracket) (hsubscript : ExprForm 1 subscript us)
      (hr : r.kind = .rightBracket) :
      ExprForm 7 (.index e subscript l.span) (ts ++ (l :: us ++ [r]))
  | call {name : String} {es : List Expr} {c l r : Token} {ts : List Token} (hc : Callee name c)
      (hl : l.kind = .leftParen) (hes : ExprRow es ts) (hr : r.kind = .rightParen) :
      ExprForm 7 (.call name es l.span) (c :: l :: ts ++ [r])
  | word {t : Token} (ht : t.kind = .text) :
      ExprForm 7 (.name t.text (Parser.isNumeric t.text) t.span) [t]
  | builtin {t : Token} (ht : t.kind = .builtin) :
      ExprForm 7 (.name t.text.toLower false t.span) [t]
  | dollar {name : String} {t n : Token} (ht : t.kind = .dollar) (hn : Name name n) :
      ExprForm 7 (.call ("$" ++ name) [] t.span) [t, n]
  | group {e : Expr} {l r : Token} {ts : List Token} (hl : l.kind = .leftParen)
      (he : ExprForm 1 e ts) (hr : r.kind = .rightParen) : ExprForm 7 e (l :: ts ++ [r])
  | emptyVector {l r : Token} (hl : l.kind = .leftParen) (hr : r.kind = .rightParen) :
      ExprForm 7 (.vector [] l.span) [l, r]
  | vector {e₁ e₂ : Expr} {es : List Expr} {l r : Token} {ts : List Token}
      (hl : l.kind = .leftParen) (hes : ExprRow (e₁ :: e₂ :: es) ts) (hr : r.kind = .rightParen) :
      ExprForm 7 (.vector (e₁ :: e₂ :: es) l.span) (l :: ts ++ [r])
  | emptyList {l r : Token} (hl : l.kind = .leftBracket) (hr : r.kind = .rightBracket) :
      ExprForm 7 (.list [] l.span) [l, r]
  | list {e : Expr} {es : List Expr} {l r : Token} {ts us : List Token}
      (hl : l.kind = .leftBracket) (hes : ExprRow (e :: es) ts) (hus : Optional .comma us)
      (hr : r.kind = .rightBracket) :
      ExprForm 7 (.list (e :: es) l.span) (l :: ts ++ us ++ [r])
  | range {first last : Expr} {l t r : Token} {ts us : List Token} (hl : l.kind = .leftBracket)
      (hfirst : ExprForm 1 first ts) (ht : t.kind = .ellipsis) (hlast : ExprForm 1 last us)
      (hr : r.kind = .rightBracket) :
      ExprForm 7 (.range first last l.span) (l :: ts ++ t :: us ++ [r])
  | loop {its : List Iterator} {body : Block} {t l r : Token} {ts us : List Token}
      (ht : t.kind = .keyword .loop) (hl : l.kind = .leftParen) (hits : IteratorRow its ts)
      (hr : r.kind = .rightParen) (hbody : BlockForm body us) :
      ExprForm 7 (.loop its body t.span) (t :: l :: ts ++ r :: us)
  | cases {bs : List Branch} {t l r : Token} {ts : List Token} (ht : t.kind = .keyword .cases)
      (hl : l.kind = .leftBrace) (hbs : BranchRow bs ts) (hr : r.kind = .rightBrace) :
      ExprForm 7 (.cases bs t.span) (t :: l :: ts ++ [r])
  | loosen {q r : Nat} {e : Expr} {ts : List Token} (hqr : q ≤ r) (he : ExprForm r e ts) :
      ExprForm q e ts

inductive ExprRow : List Expr → List Token → Prop
  | nil : ExprRow [] []
  | one {e : Expr} {ts : List Token} (he : ExprForm 1 e ts) : ExprRow [e] ts
  | cons {e e' : Expr} {es : List Expr} {t : Token} {ts us : List Token} (he : ExprForm 1 e ts)
      (ht : t.kind = .comma) (hes : ExprRow (e' :: es) us) :
      ExprRow (e :: e' :: es) (ts ++ t :: us)

inductive IteratorRow : List Iterator → List Token → Prop
  | one {name : String} {range : Expr} {n c : Token} {ts : List Token} (hn : Name name n)
      (hc : c.kind = .colon) (hrange : ExprForm 1 range ts) :
      IteratorRow [.mk name range] (n :: c :: ts)
  | cons {name : String} {range : Expr} {its : List Iterator} {n c t : Token}
      {ts us : List Token} (hn : Name name n) (hc : c.kind = .colon) (hrange : ExprForm 1 range ts)
      (ht : t.kind = .comma) (hits : IteratorRow its us) :
      IteratorRow (.mk name range :: its) (n :: c :: ts ++ t :: us)

/-- Branches, each with or without a comma after it; only the last one may have no test. -/
inductive BranchRow : List Branch → List Token → Prop
  | nil : BranchRow [] []
  | tested {test result : Expr} {bs : List Branch} {c : Token} {ts us vs ws : List Token}
      (htest : ExprForm 1 test ts) (hc : c.kind = .colon) (hresult : ExprForm 1 result us)
      (hvs : Optional .comma vs) (hbs : BranchRow bs ws) :
      BranchRow (.tested test result :: bs) (ts ++ c :: us ++ vs ++ ws)
  | otherwise {result : Expr} {ts us : List Token} (hresult : ExprForm 1 result ts)
      (hus : Optional .comma us) : BranchRow [.otherwise result] (ts ++ us)

inductive BlockForm : Block → List Token → Prop
  | mk {ss : List Statement} {l r : Token} {ts : List Token} (hl : l.kind = .leftBrace)
      (hss : StatementRow ss ts) (hr : r.kind = .rightBrace) :
      BlockForm (.mk ss l.span) (l :: ts ++ [r])

inductive StatementRow : List Statement → List Token → Prop
  | nil : StatementRow [] []
  | cons {s : Statement} {ss : List Statement} {ts us : List Token} (hs : StatementForm s ts)
      (hss : StatementRow ss us) : StatementRow (s :: ss) (ts ++ us)

inductive StatementForm : Statement → List Token → Prop
  | ret {e : Expr} {t u : Token} {ts : List Token} (ht : t.kind = .keyword .ret)
      (he : ExprForm 1 e ts) (hu : u.kind = .semicolon) :
      StatementForm (.ret e t.span) (t :: ts ++ [u])
  | declaration {s : Statement} {ts : List Token} (hs : DeclarationForm s ts) : StatementForm s ts
  | expression {e : Expr} {u : Token} {ts : List Token} (he : ExprForm 1 e ts)
      (hu : u.kind = .semicolon) : StatementForm (.expression e e.span) (ts ++ [u])

inductive DeclarationForm : Statement → List Token → Prop
  | function {type : TypeSpec} {name : String} {ps : List Param} {body : Block} {n l r : Token}
      {ts us vs : List Token} (htype : TypeForm type ts) (hn : Name name n)
      (hl : l.kind = .leftParen) (hps : ParamRow ps us) (hr : r.kind = .rightParen)
      (hbody : BlockForm body vs) :
      DeclarationForm (.function type name ps body n.span) (ts ++ n :: l :: us ++ r :: vs)
  | binding {type : TypeSpec} {name : String} {value : Option Expr} {n : Token}
      {ts us : List Token} (htype : TypeForm type ts) (hn : Name name n)
      (hvalue : ValueForm value us) :
      DeclarationForm (.binding type name value n.span) (ts ++ n :: us)

inductive ValueForm : Option Expr → List Token → Prop
  | absent {u : Token} (hu : u.kind = .semicolon) : ValueForm none [u]
  | present {e : Expr} {t u : Token} {ts : List Token} (ht : t.kind = .operator .equals)
      (he : ExprForm 1 e ts) (hu : u.kind = .semicolon) : ValueForm (some e) (t :: ts ++ [u])

end

inductive TopLevelForm : Statement → List Token → Prop
  | function {type : TypeSpec} {name : String} {ps : List Param} {body : Block} {span : Span}
      {ts : List Token} (hs : DeclarationForm (.function type name ps body span) ts) :
      TopLevelForm (.function type name ps body span) ts
  | binding {type : TypeSpec} {name : String} {value : Option Expr} {span : Span} {ts : List Token}
      (hs : DeclarationForm (.binding type name value span) ts)
      (htype : type.base.isTemplate = false) :
      TopLevelForm (.binding type name value span) ts
  | uniform {type : TypeSpec} {name : String} {value : Option Expr} {t n : Token}
      {ts us : List Token} (ht : t.kind = .keyword .uniform) (htype : TypeForm type ts)
      (hconcrete : type.base.isTemplate = false) (hn : Name name n) (hvalue : ValueForm value us) :
      TopLevelForm (.uniform type name value t.span) (t :: ts ++ n :: us)
  | directive {name : String} {t n c v u : Token} (ht : t.kind = .dollar) (hn : Name name n)
      (hc : c.kind = .colon) (hv : v.kind = .text) (hu : u.kind = .semicolon) :
      TopLevelForm (.directive name v.text t.span) [t, n, c, v, u]
  | draw {command : DrawCommand} {es : List Expr} {t l r : Token} {ts us : List Token}
      (ht : t.kind = .draw) (hcommand : DrawCommand.ofText? t.text = some command)
      (hl : l.kind = .leftParen) (hes : ExprRow es ts) (hr : r.kind = .rightParen)
      (hus : Optional .semicolon us) :
      TopLevelForm (.draw command es t.span) (t :: l :: ts ++ r :: us)

inductive ScriptForm : List Statement → List Token → Prop
  | nil : ScriptForm [] []
  | stray {ss : List Statement} {t : Token} {ts : List Token} (ht : t.kind = .semicolon)
      (hss : ScriptForm ss ts) : ScriptForm ss (t :: ts)
  | cons {s : Statement} {ss : List Statement} {ts us : List Token} (hs : TopLevelForm s ts)
      (hss : ScriptForm ss us) : ScriptForm (s :: ss) (ts ++ us)

end Grammar

end DrawScript
