import DrawScript.Error
import DrawScript.Script.Tree
import DrawScript.Token.Lexer

/-!
Reading a script's tree from its tokens. Every step takes the tokens that are left and returns a
value with fewer tokens left, or the error it met with the tokens that were left there. The first
error ends the reading. Steps recurse on the tokens that are left, then on the level of precedence,
so no step needs a limit of its own; the nesting of expressions is bounded by a number of levels
because the language says so.
-/

namespace DrawScript

namespace Parser

structure Stuck where
  error : CompileError
  rest : List Token

/-- A value that was read, with fewer than `bound` tokens left. -/
structure Taken (α : Type) (bound : Nat) where
  value : α
  rest : List Token
  lt_bound : rest.length < bound

abbrev Step (α : Type) (bound : Nat) : Type := Except Stuck (Taken α bound)

def Taken.widen {α : Type} {m n : Nat} (h : m ≤ n) (t : Taken α m) : Taken α n :=
  ⟨t.value, t.rest, Nat.lt_of_lt_of_le t.lt_bound h⟩

def Step.widen {α : Type} {m n : Nat} (h : m ≤ n) (s : Step α m) : Step α n :=
  match s with
  | .ok t => .ok (t.widen h)
  | .error e => .error e

def maxDepth : Nat := 64

def found : List Token → String
  | [] => "end of input"
  | t :: _ => t.describe

/-- The position of what stands next; `stop` is the position after the last token. -/
def here (stop : Span) : List Token → Span
  | [] => stop
  | t :: _ => t.span

def wanted (stop : Span) (expected : String) (ts : List Token) : Stuck :=
  ⟨.expected expected (found ts) (here stop ts), ts⟩

def refused (stop : Span) (message : String) (ts : List Token) : Stuck :=
  ⟨.unexpected (found ts) message (here stop ts), ts⟩

def take (stop : Span) (kind : TokenKind) (expected : String) :
    (ts : List Token) → Step Token ts.length
  | [] => .error (wanted stop expected [])
  | t :: ts =>
    if t.kind = kind then .ok ⟨t, ts, Nat.lt_succ_self _⟩
    else .error (wanted stop expected (t :: ts))

def isNumeric (text : String) : Bool := Piece.startsWithDigit text.toList

def takeName (stop : Span) : (ts : List Token) → Step Token ts.length
  | [] => .error (wanted stop "an identifier" [])
  | t :: ts =>
    if t.kind = .text ∧ isNumeric t.text = false then .ok ⟨t, ts, Nat.lt_succ_self _⟩
    else .error (wanted stop "an identifier" (t :: ts))

def next? {α : Type} (f : TokenKind → Option α) :
    (ts : List Token) → Option (Taken (α × Span) ts.length)
  | [] => none
  | t :: ts => (f t.kind).map fun a => ⟨(a, t.span), ts, Nat.lt_succ_self _⟩

def eat? (kind : TokenKind) : (ts : List Token) → Option (Taken Span ts.length)
  | [] => none
  | t :: ts => if t.kind = kind then some ⟨t.span, ts, Nat.lt_succ_self _⟩ else none

def nextIs (kind : TokenKind) (ts : List Token) : Bool := (eat? kind ts).isSome

def skip (kind : TokenKind) (ts : List Token) : List Token :=
  match eat? kind ts with
  | some t => t.rest
  | none => ts

theorem length_skip_le (kind : TokenKind) (ts : List Token) : (skip kind ts).length ≤ ts.length := by
  unfold skip
  split
  next t _ => exact Nat.le_of_lt t.lt_bound
  next => exact Nat.le_refl _

def skipListMark : List Token → Bool × List Token
  | a :: b :: ts =>
    if a.kind = .leftBracket ∧ b.kind = .rightBracket then (true, ts) else (false, a :: b :: ts)
  | ts => (false, ts)

theorem length_skipListMark_le (ts : List Token) :
    (skipListMark ts).2.length ≤ ts.length := by
  unfold skipListMark
  split
  · split
    · simp only [List.length_cons]; omega
    · simp
  · simp

def typeSpec (stop : Span) (ts : List Token) : Step TypeSpec ts.length := do
  let ⟨t, ts₁, h₁⟩ ← take stop .type "a type" ts
  match BaseType.ofText? t.text with
  | none => .error ⟨.expected "a type" t.describe t.span, ts₁⟩
  | some base =>
    return ⟨⟨base, (skipListMark ts₁).1⟩, (skipListMark ts₁).2,
      Nat.lt_of_le_of_lt (length_skipListMark_le ts₁) h₁⟩

def param (stop : Span) (ts : List Token) : Step Param ts.length := do
  let ⟨type, ts₁, h₁⟩ ← typeSpec stop ts
  let ⟨name, ts₂, h₂⟩ ← takeName stop ts₁
  return ⟨⟨type, name.text, name.span⟩, ts₂, Nat.lt_trans h₂ h₁⟩

def moreParams (stop : Span) (ts : List Token) : Step (List Param) ts.length :=
  match eat? .comma ts with
  | some ⟨_, ts₁, h₁⟩ => do
    let ⟨p, ts₂, h₂⟩ ← param stop ts₁
    let ⟨ps, ts₃, h₃⟩ ← moreParams stop ts₂
    return ⟨p :: ps, ts₃, by omega⟩
  | none => do
    let ⟨_, ts₁, h₁⟩ ← take stop .rightParen "')'" ts
    return ⟨[], ts₁, h₁⟩
termination_by ts.length

def params (stop : Span) (ts : List Token) : Step (List Param) ts.length :=
  match eat? .rightParen ts with
  | some ⟨_, ts₁, h₁⟩ => .ok ⟨[], ts₁, h₁⟩
  | none => do
    let ⟨p, ts₁, h₁⟩ ← param stop ts
    let ⟨ps, ts₂, h₂⟩ ← moreParams stop ts₁
    return ⟨p :: ps, ts₂, by omega⟩

inductive Level where
  | logical
  | comparison
  | additive
  | multiplicative
  deriving DecidableEq, Repr

def levels : List Level := [.logical, .comparison, .additive, .multiplicative]

def Level.operator? : Level → TokenKind → Option BinaryOp
  | .logical, .operator .pipe => some .or
  | .logical, .operator .caret => some .xor
  | .comparison, .operator .less => some .lt
  | .comparison, .operator .greater => some .gt
  | .comparison, .operator .bang => some .ne
  | .additive, .operator .plus => some .add
  | .additive, .operator .minus => some .sub
  | .multiplicative, .operator .star => some .mul
  | .multiplicative, .operator .slash => some .div
  | .multiplicative, .operator .percent => some .mod
  | _, _ => none

def unaryOperator? : TokenKind → Option UnaryOp
  | .operator .minus => some .neg
  | .operator .bang => some .not
  | _ => none

def isCallable : List Token → Bool
  | [] => false
  | t :: _ => t.kind = .text || t.kind = .builtin

def callee? (callable : Bool) (e : Expr) : Option String := if callable then e.identifier? else none

mutual

/-- An expression with at most `depth` levels of nesting. An assignment is the loosest form and
associates to the right. -/
def expression (stop : Span) (depth : Nat) (ts : List Token) : Step Expr ts.length :=
  match depth with
  | 0 => .error (refused stop "expression nested too deeply" ts)
  | depth + 1 => do
    let ⟨target, ts₁, h₁⟩ ← binary stop depth levels ts
    match eat? (.operator .equals) ts₁ with
    | none => return ⟨target, ts₁, h₁⟩
    | some ⟨mark, ts₂, h₂⟩ =>
      let ⟨value, ts₃, h₃⟩ ← expression stop depth ts₂
      return ⟨.assign target value mark, ts₃, by omega⟩
termination_by (ts.length, levels.length + 4)

def binary (stop : Span) (depth : Nat) (ls : List Level) (ts : List Token) : Step Expr ts.length :=
  match ls with
  | [] => unary stop depth ts
  | l :: ls => do
    let ⟨left, ts₁, h₁⟩ ← binary stop depth ls ts
    (binaryRest stop depth l ls left ts₁).widen h₁
termination_by (ts.length, ls.length + 3)

def binaryRest (stop : Span) (depth : Nat) (l : Level) (ls : List Level) (left : Expr)
    (ts : List Token) : Step Expr (ts.length + 1) :=
  match next? l.operator? ts with
  | none => .ok ⟨left, ts, Nat.lt_succ_self _⟩
  | some ⟨(op, mark), ts₁, h₁⟩ => do
    let ⟨right, ts₂, h₂⟩ ← binary stop depth ls ts₁
    (binaryRest stop depth l ls (.binary op left right mark) ts₂).widen (by omega)
termination_by (ts.length, 0)

def unary (stop : Span) (depth : Nat) (ts : List Token) : Step Expr ts.length :=
  match next? unaryOperator? ts with
  | none => operand stop depth ts
  | some ⟨(op, mark), ts₁, h₁⟩ =>
    match depth with
    | 0 => .error (refused stop "expression nested too deeply" ts₁)
    | depth + 1 => do
      let ⟨e, ts₂, h₂⟩ ← unary stop depth ts₁
      return ⟨.unary op e mark, ts₂, by omega⟩
termination_by (ts.length, 2)

/-- An atom with the accesses and calls after it. Only a bare name can be called, so neither a name
in parentheses nor the result of a call can. -/
def operand (stop : Span) (depth : Nat) (ts : List Token) : Step Expr ts.length := do
  let ⟨e, ts₁, h₁⟩ ← atom stop depth ts
  (suffixes stop depth (isCallable ts) e ts₁).widen h₁
termination_by (ts.length, 1)

def suffixes (stop : Span) (depth : Nat) (callable : Bool) (e : Expr) (ts : List Token) :
    Step Expr (ts.length + 1) :=
  match ts with
  | [] => .ok ⟨e, [], Nat.lt_succ_self _⟩
  | t :: ts₁ =>
    match t.kind with
    | .dot => do
      let ⟨name, ts₂, h₂⟩ ← takeName stop ts₁
      (suffixes stop depth callable (.member e name.text t.span) ts₂).widen
        (by simp only [List.length_cons]; omega)
    | .leftBracket => do
      let ⟨subscript, ts₂, h₂⟩ ← expression stop depth ts₁
      let ⟨_, ts₃, h₃⟩ ← take stop .rightBracket "']'" ts₂
      (suffixes stop depth callable (.index e subscript t.span) ts₃).widen
        (by simp only [List.length_cons]; omega)
    | .leftParen =>
      match callee? callable e with
      | none => .error (refused stop "only a named function can be called" (t :: ts₁))
      | some name => do
        let ⟨es, ts₂, h₂⟩ ← arguments stop depth ts₁
        (suffixes stop depth callable (.call name es t.span) ts₂).widen
          (by simp only [List.length_cons]; omega)
    | _ => .ok ⟨e, t :: ts₁, Nat.lt_succ_self _⟩
termination_by (ts.length, 0)

def arguments (stop : Span) (depth : Nat) (ts : List Token) : Step (List Expr) ts.length :=
  match eat? .rightParen ts with
  | some ⟨_, ts₁, h₁⟩ => .ok ⟨[], ts₁, h₁⟩
  | none => do
    let ⟨e, ts₁, h₁⟩ ← expression stop depth ts
    let ⟨es, ts₂, h₂⟩ ← moreArguments stop depth ts₁
    return ⟨e :: es, ts₂, by omega⟩
termination_by (ts.length, levels.length + 5)

def moreArguments (stop : Span) (depth : Nat) (ts : List Token) : Step (List Expr) ts.length :=
  match eat? .comma ts with
  | some ⟨_, ts₁, h₁⟩ => do
    let ⟨e, ts₂, h₂⟩ ← expression stop depth ts₁
    let ⟨es, ts₃, h₃⟩ ← moreArguments stop depth ts₂
    return ⟨e :: es, ts₃, by omega⟩
  | none => do
    let ⟨_, ts₁, h₁⟩ ← take stop .rightParen "')'" ts
    return ⟨[], ts₁, h₁⟩
termination_by (ts.length, 0)

/-- The elements of a list after the first, up to the closing bracket; a comma may stand before
it. -/
def moreElements (stop : Span) (depth : Nat) (ts : List Token) : Step (List Expr) ts.length :=
  match eat? .comma ts with
  | some ⟨_, ts₁, h₁⟩ =>
    match eat? .rightBracket ts₁ with
    | some ⟨_, ts₂, h₂⟩ => .ok ⟨[], ts₂, by omega⟩
    | none => do
      let ⟨e, ts₂, h₂⟩ ← expression stop depth ts₁
      let ⟨es, ts₃, h₃⟩ ← moreElements stop depth ts₂
      return ⟨e :: es, ts₃, by omega⟩
  | none => do
    let ⟨_, ts₁, h₁⟩ ← take stop .rightBracket "']'" ts
    return ⟨[], ts₁, h₁⟩
termination_by (ts.length, 0)

def atom (stop : Span) (depth : Nat) (ts : List Token) : Step Expr ts.length :=
  match ts with
  | [] => .error (wanted stop "an expression" [])
  | t :: ts₁ =>
    match t.kind with
    | .text => .ok ⟨.name t.text (isNumeric t.text) t.span, ts₁, Nat.lt_succ_self _⟩
    | .builtin => .ok ⟨.name t.text.toLower false t.span, ts₁, Nat.lt_succ_self _⟩
    | .dollar => do
      let ⟨name, ts₂, h₂⟩ ← takeName stop ts₁
      return ⟨.call ("$" ++ name.text) [] t.span, ts₂, Nat.lt_succ_of_lt h₂⟩
    | .keyword .loop => do
      let ⟨_, ts₂, h₂⟩ ← take stop .leftParen "'('" ts₁
      let ⟨its, ts₃, h₃⟩ ← iterators stop depth ts₂
      let ⟨body, ts₄, h₄⟩ ← block stop depth ts₃
      return ⟨.loop its body t.span, ts₄, by simp only [List.length_cons]; omega⟩
    | .keyword .cases => do
      let ⟨_, ts₂, h₂⟩ ← take stop .leftBrace "'\x7b'" ts₁
      let ⟨bs, ts₃, h₃⟩ ← branches stop depth ts₂
      return ⟨.cases bs t.span, ts₃, by simp only [List.length_cons]; omega⟩
    | .leftParen => (group stop depth t.span ts₁).widen (Nat.le_succ _)
    | .leftBracket => (listOrRange stop depth t.span ts₁).widen (Nat.le_succ _)
    | _ => .error (refused stop "expected an expression" (t :: ts₁))
termination_by (ts.length, 0)

/-- What follows an opening parenthesis: one expression is itself, any other number of them is a
vector. -/
def group (stop : Span) (depth : Nat) (mark : Span) (ts : List Token) : Step Expr ts.length :=
  match eat? .rightParen ts with
  | some ⟨_, ts₁, h₁⟩ => .ok ⟨.vector [] mark, ts₁, h₁⟩
  | none => do
    let ⟨e, ts₁, h₁⟩ ← expression stop depth ts
    if nextIs .comma ts₁ then
      let ⟨es, ts₂, h₂⟩ ← moreArguments stop depth ts₁
      return ⟨.vector (e :: es) mark, ts₂, by omega⟩
    else
      let ⟨_, ts₂, h₂⟩ ← take stop .rightParen "')' or ','" ts₁
      return ⟨e, ts₂, by omega⟩
termination_by (ts.length, levels.length + 5)

/-- What follows an opening bracket: two expressions with three dots between them are a range, and
everything else is a list. -/
def listOrRange (stop : Span) (depth : Nat) (mark : Span) (ts : List Token) :
    Step Expr ts.length :=
  match eat? .rightBracket ts with
  | some ⟨_, ts₁, h₁⟩ => .ok ⟨.list [] mark, ts₁, h₁⟩
  | none => do
    let ⟨e, ts₁, h₁⟩ ← expression stop depth ts
    match eat? .ellipsis ts₁ with
    | some ⟨_, ts₂, h₂⟩ =>
      let ⟨last, ts₃, h₃⟩ ← expression stop depth ts₂
      let ⟨_, ts₄, h₄⟩ ← take stop .rightBracket "']'" ts₃
      return ⟨.range e last mark, ts₄, by omega⟩
    | none =>
      let ⟨es, ts₂, h₂⟩ ← moreElements stop depth ts₁
      return ⟨.list (e :: es) mark, ts₂, by omega⟩
termination_by (ts.length, levels.length + 5)

def iterators (stop : Span) (depth : Nat) (ts : List Token) : Step (List Iterator) ts.length := do
  let ⟨name, ts₁, h₁⟩ ← takeName stop ts
  let ⟨_, ts₂, h₂⟩ ← take stop .colon "':'" ts₁
  let ⟨range, ts₃, h₃⟩ ← expression stop depth ts₂
  match eat? .comma ts₃ with
  | some ⟨_, ts₄, h₄⟩ =>
    let ⟨its, ts₅, h₅⟩ ← iterators stop depth ts₄
    return ⟨.mk name.text range :: its, ts₅, by omega⟩
  | none =>
    let ⟨_, ts₄, h₄⟩ ← take stop .rightParen "')'" ts₃
    return ⟨[.mk name.text range], ts₄, by omega⟩
termination_by (ts.length, 0)

/-- The branches of a piecewise expression, up to the closing brace. A comma may follow each branch,
and a branch without a test is the last one. -/
def branches (stop : Span) (depth : Nat) (ts : List Token) : Step (List Branch) ts.length :=
  match eat? .rightBrace ts with
  | some ⟨_, ts₁, h₁⟩ => .ok ⟨[], ts₁, h₁⟩
  | none => do
    let ⟨e, ts₁, h₁⟩ ← expression stop depth ts
    match eat? .colon ts₁ with
    | some ⟨_, ts₂, h₂⟩ =>
      let ⟨result, ts₃, h₃⟩ ← expression stop depth ts₂
      have h₄ := length_skip_le .comma ts₃
      let ⟨bs, ts₅, h₅⟩ ← branches stop depth (skip .comma ts₃)
      return ⟨.tested e result :: bs, ts₅, by omega⟩
    | none =>
      have h₂ := length_skip_le .comma ts₁
      let ⟨_, ts₃, h₃⟩ ← take stop .rightBrace "'\x7d' after the default case" (skip .comma ts₁)
      return ⟨[.otherwise e], ts₃, by omega⟩
termination_by (ts.length, levels.length + 5)

def block (stop : Span) (depth : Nat) (ts : List Token) : Step Block ts.length := do
  let ⟨t, ts₁, h₁⟩ ← take stop .leftBrace "'\x7b'" ts
  let ⟨body, ts₂, h₂⟩ ← statements stop depth ts₁
  return ⟨.mk body t.span, ts₂, by omega⟩
termination_by (ts.length, 0)

def statements (stop : Span) (depth : Nat) (ts : List Token) : Step (List Statement) ts.length :=
  match eat? .rightBrace ts with
  | some ⟨_, ts₁, h₁⟩ => .ok ⟨[], ts₁, h₁⟩
  | none =>
    if ts.isEmpty then .error (wanted stop "'\x7d'" ts)
    else do
      let ⟨s, ts₁, h₁⟩ ← statement stop depth ts
      let ⟨ss, ts₂, h₂⟩ ← statements stop depth ts₁
      return ⟨s :: ss, ts₂, by omega⟩
termination_by (ts.length, levels.length + 7)

def statement (stop : Span) (depth : Nat) (ts : List Token) : Step Statement ts.length :=
  match eat? (.keyword .ret) ts with
  | some ⟨mark, ts₁, h₁⟩ => do
    let ⟨e, ts₂, h₂⟩ ← expression stop depth ts₁
    let ⟨_, ts₃, h₃⟩ ← take stop .semicolon "';'" ts₂
    return ⟨.ret e mark, ts₃, by omega⟩
  | none =>
    if nextIs .type ts then declaration stop depth ts
    else do
      let ⟨e, ts₁, h₁⟩ ← expression stop depth ts
      let ⟨_, ts₂, h₂⟩ ← take stop .semicolon "';'" ts₁
      return ⟨.expression e e.span, ts₂, by omega⟩
termination_by (ts.length, levels.length + 6)

def declaration (stop : Span) (depth : Nat) (ts : List Token) : Step Statement ts.length := do
  let ⟨type, ts₁, h₁⟩ ← typeSpec stop ts
  let ⟨name, ts₂, h₂⟩ ← takeName stop ts₁
  match eat? .leftParen ts₂ with
  | some ⟨_, ts₃, h₃⟩ =>
    let ⟨ps, ts₄, h₄⟩ ← params stop ts₃
    let ⟨body, ts₅, h₅⟩ ← block stop depth ts₄
    return ⟨.function type name.text ps body name.span, ts₅, by omega⟩
  | none =>
    let ⟨value, ts₃, h₃⟩ ← initializer stop depth ts₂
    return ⟨.binding type name.text value name.span, ts₃, by omega⟩
termination_by (ts.length, 0)

def initializer (stop : Span) (depth : Nat) (ts : List Token) : Step (Option Expr) ts.length :=
  match eat? (.operator .equals) ts with
  | some ⟨_, ts₁, h₁⟩ => do
    let ⟨e, ts₂, h₂⟩ ← expression stop depth ts₁
    let ⟨_, ts₃, h₃⟩ ← take stop .semicolon "';'" ts₂
    return ⟨some e, ts₃, by omega⟩
  | none => do
    let ⟨_, ts₁, h₁⟩ ← take stop .semicolon "';'" ts
    return ⟨none, ts₁, h₁⟩
termination_by (ts.length, 0)

end

def uniform (stop : Span) (mark : Span) (ts : List Token) : Step Statement ts.length := do
  let ⟨type, ts₁, h₁⟩ ← typeSpec stop ts
  let ⟨name, ts₂, h₂⟩ ← takeName stop ts₁
  if type.base.isTemplate then .error ⟨.templateMisuse type.text name.text mark, ts₂⟩
  else
    let ⟨value, ts₃, h₃⟩ ← initializer stop maxDepth ts₂
    return ⟨.uniform type name.text value mark, ts₃, by omega⟩

def directive (stop : Span) (mark : Span) (ts : List Token) : Step Statement ts.length := do
  let ⟨name, ts₁, h₁⟩ ← takeName stop ts
  let ⟨_, ts₂, h₂⟩ ← take stop .colon "':'" ts₁
  let ⟨value, ts₃, h₃⟩ ← take stop .text "a directive value" ts₂
  let ⟨_, ts₄, h₄⟩ ← take stop .semicolon "';'" ts₃
  return ⟨.directive name.text value.text mark, ts₄, by omega⟩

def drawCall (stop : Span) (command : DrawCommand) (mark : Span) (ts : List Token) :
    Step Statement ts.length := do
  let ⟨_, ts₁, h₁⟩ ← take stop .leftParen "'('" ts
  let ⟨es, ts₂, h₂⟩ ← arguments stop maxDepth ts₁
  have h₃ := length_skip_le .semicolon ts₂
  return ⟨.draw command es mark, skip .semicolon ts₂, by omega⟩

def misuse? : Statement → Option CompileError
  | .binding type name _ span =>
    if type.base.isTemplate then some (.templateMisuse type.text name span) else none
  | _ => none

def topLevel (stop : Span) (ts : List Token) : Step Statement ts.length :=
  match ts with
  | [] => .error (refused stop "expected a declaration, directive or draw call" [])
  | t :: ts₁ =>
    match t.kind with
    | .keyword .uniform => (uniform stop t.span ts₁).widen (Nat.le_succ _)
    | .type => do
      let ⟨s, ts₂, h₂⟩ ← declaration stop maxDepth (t :: ts₁)
      match misuse? s with
      | some e => .error ⟨e, ts₂⟩
      | none => return ⟨s, ts₂, h₂⟩
    | .dollar => (directive stop t.span ts₁).widen (Nat.le_succ _)
    | .draw =>
      match DrawCommand.ofText? t.text with
      | none => .error ⟨.expected "a draw command" t.describe t.span, ts₁⟩
      | some command => (drawCall stop command t.span ts₁).widen (Nat.le_succ _)
    | _ => .error (refused stop "expected a declaration, directive or draw call" (t :: ts₁))

def script (stop : Span) (ts : List Token) : Except Stuck (List Statement) :=
  match ts with
  | [] => .ok []
  | t :: ts₁ =>
    if t.kind = .semicolon then script stop ts₁
    else do
      let ⟨s, ts₂, _⟩ ← topLevel stop (t :: ts₁)
      let ss ← script stop ts₂
      return s :: ss
termination_by ts.length
decreasing_by
  · exact Nat.lt_succ_self _
  · assumption

end Parser

structure Reader where
  stop : Span
  rest : List Token

namespace Reader

/-- The start of a row of tokens. The end of the row is reported just after its last token. -/
def ofTokens (ts : List Token) : Reader :=
  match ts.getLast? with
  | some t => ⟨t.stop, ts⟩
  | none => ⟨Span.start, ts⟩

def expression (r : Reader) : Except CompileError Expr × Reader :=
  match Parser.expression r.stop Parser.maxDepth r.rest with
  | .ok t => (.ok t.value, { r with rest := t.rest })
  | .error s => (.error s.error, { r with rest := s.rest })

def script (r : Reader) : Except CompileError Script × Reader :=
  match Parser.script r.stop r.rest with
  | .ok body => (.ok ⟨body⟩, { r with rest := [] })
  | .error s => (.error s.error, { r with rest := s.rest })

end Reader

namespace Script

def ofTokens (ts : List Token) : Except CompileError Script := (Reader.ofTokens ts).script.1

def parse (source : String) : Except CompileError Script := ofTokens (Token.tokenize source)

end Script

end DrawScript
