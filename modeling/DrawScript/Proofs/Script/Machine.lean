import DrawScript.Script.Parser

/-!
The parser as a machine with a state. The machine holds its tokens, a cursor that counts the tokens
it has passed, and the depth of the expression it is in. Its routines move the cursor and change the depth
as they go. What a routine answers, a value or an error, comes with the machine it leaves, so that reading
can go on after an error; whatever happened in an expression, the depth is set back when it is left.

A routine passes tokens, calls routines, and goes on with what they answer. Its plan shows this call by
call: a plan is an answer, or a call with the plan for whatever comes of the call. A loop is a routine
that calls itself for the rest of its work.

Nothing in the machine keeps the cursor within the tokens, and nothing makes its routines end: a token
that is passed behind the last one is made up, and a routine that goes on forever has no answer.
-/

namespace DrawScript

structure Machine where
  tokens : Array Token
  cursor : Nat
  depth : Nat
  stop : Span
  /-- What is passed where no token is left. -/
  filler : Token

namespace Machine

open DrawScript.Parser (isNumeric)

def ofTokens (ts : List Token) : Machine :=
  let stop := (Reader.ofTokens ts).stop
  ⟨ts.toArray, 0, 0, stop, ⟨.semicolon, "", stop⟩⟩

def next? (m : Machine) : Option Token := m.tokens[m.cursor]?

def atEnd (m : Machine) : Bool := m.tokens.size ≤ m.cursor

def nextIs (kind : TokenKind) (m : Machine) : Bool :=
  match m.next? with
  | none => false
  | some t => t.kind = kind

def nextKind? {α : Type} (f : TokenKind → Option α) (m : Machine) : Option α :=
  m.next?.bind fun t => f t.kind

def nextIsName (m : Machine) : Bool :=
  match m.next? with
  | none => false
  | some t => t.kind = .text ∧ isNumeric t.text = false

def isCallable (m : Machine) : Bool := m.nextIs .text || m.nextIs .builtin

def found (m : Machine) : String :=
  match m.next? with
  | none => "end of input"
  | some t => t.describe

def here (m : Machine) : Span :=
  match m.next? with
  | none => m.stop
  | some t => t.span

def token (m : Machine) : Token := m.next?.getD m.filler

def pass (m : Machine) : Machine := { m with cursor := m.cursor + 1 }

def skip (kind : TokenKind) (m : Machine) : Machine := if m.nextIs kind then m.pass else m

def skipListMark (m : Machine) : Bool × Machine :=
  if m.nextIs .leftBracket ∧ m.pass.nextIs .rightBracket then (true, m.pass.pass) else (false, m)

def deeper (m : Machine) : Machine := { m with depth := m.depth + 1 }

def shallower (m : Machine) : Machine := { m with depth := m.depth - 1 }

/-- A value or an error with the machine that is left; nothing, if there is no end. -/
abbrev Answer (α : Type) : Type := Option (Except CompileError α × Machine)

end Machine

open DrawScript.Parser (Level levels maxDepth isNumeric callee? misuse? unaryOperator?)

inductive Routine : Type → Type where
  | typeSpec : Routine TypeSpec
  | param : Routine Param
  | params : Routine (List Param)
  | moreParams : Routine (List Param)
  | expression : Routine Expr
  | assignment : Routine Expr
  | binary (ls : List Level) : Routine Expr
  | binaryRest (l : Level) (ls : List Level) (left : Expr) : Routine Expr
  | unary : Routine Expr
  | operand : Routine Expr
  | suffixes (callable : Bool) (e : Expr) : Routine Expr
  | arguments : Routine (List Expr)
  | moreArguments : Routine (List Expr)
  | moreElements : Routine (List Expr)
  | atom : Routine Expr
  | group (mark : Span) : Routine Expr
  | listOrRange (mark : Span) : Routine Expr
  | iterators : Routine (List Iterator)
  | branches : Routine (List Branch)
  | block : Routine Block
  | statements : Routine (List Statement)
  | statement : Routine Statement
  | declaration : Routine Statement
  | initializer : Routine (Option Expr)
  | uniform (mark : Span) : Routine Statement
  | directive (mark : Span) : Routine Statement
  | drawCall (command : DrawCommand) (mark : Span) : Routine Statement
  | topLevel : Routine Statement
  | script : Routine (List Statement)

inductive Plan (α : Type) where
  | stop (x : Except CompileError α) (m : Machine)
  | call {β : Type} (q : Routine β) (m : Machine) (next : Except CompileError β → Machine → Plan α)

def Machine.ask {α : Type} (m : Machine) (q : Routine α) : Plan α := .call q m .stop

namespace Plan

variable {α β : Type}

def done (value : α) (m : Machine) : Plan α := .stop (.ok value) m

def fail (e : CompileError) (m : Machine) : Plan α := .stop (.error e) m

def wanted (expected : String) (m : Machine) : Plan α := fail (.expected expected m.found m.here) m

def refused (message : String) (m : Machine) : Plan α := fail (.unexpected m.found message m.here) m

def take (kind : TokenKind) (expected : String) (m : Machine) : Plan Token :=
  if m.nextIs kind then done m.token m.pass else wanted expected m

def takeName (m : Machine) : Plan Token :=
  if m.nextIsName then done m.token m.pass else wanted "an identifier" m

def andThen (p : Plan α) (k : α → Machine → Plan β) : Plan β :=
  match p with
  | .stop (.ok value) m => k value m
  | .stop (.error e) m => fail e m
  | .call q m next => .call q m fun x m => (next x m).andThen k

def leave : Plan α → Plan α
  | .stop x m => .stop x m.shallower
  | .call q m next => .call q m fun x m => (next x m).leave

def nested (m : Machine) (q : Routine α) : Plan α :=
  if maxDepth ≤ m.depth then refused "expression nested too deeply" m else (m.deeper.ask q).leave

end Plan

open Plan in
def Routine.plan {α : Type} : Routine α → Machine → Plan α
  | .typeSpec, m =>
    (take .type "a type" m).andThen fun t m =>
      match BaseType.ofText? t.text with
      | none => fail (.expected "a type" t.describe t.span) m
      | some base => done ⟨base, m.skipListMark.1⟩ m.skipListMark.2
  | .param, m =>
    (m.ask .typeSpec).andThen fun type m =>
      (takeName m).andThen fun name m => done ⟨type, name.text, name.span⟩ m
  | .params, m =>
    if m.nextIs .rightParen then done [] m.pass
    else (m.ask .param).andThen fun p m => (m.ask .moreParams).andThen fun ps m => done (p :: ps) m
  | .moreParams, m =>
    if m.nextIs .comma then
      (m.pass.ask .param).andThen fun p m => (m.ask .moreParams).andThen fun ps m => done (p :: ps) m
    else (take .rightParen "')'" m).andThen fun _ m => done [] m
  | .expression, m => nested m .assignment
  | .assignment, m =>
    (m.ask (.binary levels)).andThen fun target m =>
      if m.nextIs (.operator .equals) then
        (m.pass.ask .expression).andThen fun value m₁ => done (.assign target value m.token.span) m₁
      else done target m
  | .binary [], m => m.ask .unary
  | .binary (l :: ls), m => (m.ask (.binary ls)).andThen fun left m => m.ask (.binaryRest l ls left)
  | .binaryRest l ls left, m =>
    match m.nextKind? l.operator? with
    | none => done left m
    | some op =>
      (m.pass.ask (.binary ls)).andThen fun right m₁ =>
        m₁.ask (.binaryRest l ls (.binary op left right m.token.span))
  | .unary, m =>
    match m.nextKind? unaryOperator? with
    | none => m.ask .operand
    | some op => (nested m.pass .unary).andThen fun e m₁ => done (.unary op e m.token.span) m₁
  | .operand, m => (m.ask .atom).andThen fun e m₁ => m₁.ask (.suffixes m.isCallable e)
  | .suffixes callable e, m =>
    match m.nextKind? some with
    | some .dot =>
      (takeName m.pass).andThen fun name m₁ =>
        m₁.ask (.suffixes callable (.member e name.text m.token.span))
    | some .leftBracket =>
      (m.pass.ask .expression).andThen fun subscript m₁ =>
        (take .rightBracket "']'" m₁).andThen fun _ m₂ =>
          m₂.ask (.suffixes callable (.index e subscript m.token.span))
    | some .leftParen =>
      match callee? callable e with
      | none => refused "only a named function can be called" m
      | some name =>
        (m.pass.ask .arguments).andThen fun es m₁ =>
          m₁.ask (.suffixes callable (.call name es m.token.span))
    | _ => done e m
  | .arguments, m =>
    if m.nextIs .rightParen then done [] m.pass
    else (m.ask .expression).andThen fun e m =>
      (m.ask .moreArguments).andThen fun es m => done (e :: es) m
  | .moreArguments, m =>
    if m.nextIs .comma then
      (m.pass.ask .expression).andThen fun e m =>
        (m.ask .moreArguments).andThen fun es m => done (e :: es) m
    else (take .rightParen "')'" m).andThen fun _ m => done [] m
  | .moreElements, m =>
    if m.nextIs .comma then
      if m.pass.nextIs .rightBracket then done [] m.pass.pass
      else (m.pass.ask .expression).andThen fun e m =>
        (m.ask .moreElements).andThen fun es m => done (e :: es) m
    else (take .rightBracket "']'" m).andThen fun _ m => done [] m
  | .atom, m =>
    match m.nextKind? some with
    | none => wanted "an expression" m
    | some .text => done (.name m.token.text (isNumeric m.token.text) m.here) m.pass
    | some .builtin => done (.name m.token.text.toLower false m.here) m.pass
    | some .dollar =>
      (takeName m.pass).andThen fun name m₁ => done (.call ("$" ++ name.text) [] m.here) m₁
    | some (.keyword .loop) =>
      (take .leftParen "'('" m.pass).andThen fun _ m₁ =>
        (m₁.ask .iterators).andThen fun its m₂ =>
          (m₂.ask .block).andThen fun body m₃ => done (.loop its body m.token.span) m₃
    | some (.keyword .cases) =>
      (take .leftBrace "'\x7b'" m.pass).andThen fun _ m₁ =>
        (m₁.ask .branches).andThen fun bs m₂ => done (.cases bs m.token.span) m₂
    | some .leftParen => m.pass.ask (.group m.token.span)
    | some .leftBracket => m.pass.ask (.listOrRange m.token.span)
    | some _ => refused "expected an expression" m
  | .group mark, m =>
    if m.nextIs .rightParen then done (.vector [] mark) m.pass
    else (m.ask .expression).andThen fun e m =>
      if m.nextIs .comma then
        (m.ask .moreArguments).andThen fun es m => done (.vector (e :: es) mark) m
      else (take .rightParen "')' or ','" m).andThen fun _ m => done e m
  | .listOrRange mark, m =>
    if m.nextIs .rightBracket then done (.list [] mark) m.pass
    else (m.ask .expression).andThen fun e m =>
      if m.nextIs .ellipsis then
        (m.pass.ask .expression).andThen fun last m =>
          (take .rightBracket "']'" m).andThen fun _ m => done (.range e last mark) m
      else (m.ask .moreElements).andThen fun es m => done (.list (e :: es) mark) m
  | .iterators, m =>
    (takeName m).andThen fun name m =>
      (take .colon "':'" m).andThen fun _ m =>
        (m.ask .expression).andThen fun range m =>
          if m.nextIs .comma then
            (m.pass.ask .iterators).andThen fun its m => done (.mk name.text range :: its) m
          else (take .rightParen "')'" m).andThen fun _ m => done [.mk name.text range] m
  | .branches, m =>
    if m.nextIs .rightBrace then done [] m.pass
    else (m.ask .expression).andThen fun e m =>
      if m.nextIs .colon then
        (m.pass.ask .expression).andThen fun result m =>
          ((m.skip .comma).ask .branches).andThen fun bs m => done (.tested e result :: bs) m
      else (take .rightBrace "'\x7d' after the default case" (m.skip .comma)).andThen fun _ m =>
        done [.otherwise e] m
  | .block, m =>
    (take .leftBrace "'\x7b'" m).andThen fun t m =>
      (m.ask .statements).andThen fun body m => done (.mk body t.span) m
  | .statements, m =>
    if m.nextIs .rightBrace then done [] m.pass
    else if m.atEnd then wanted "'\x7d'" m
    else (m.ask .statement).andThen fun s m => (m.ask .statements).andThen fun ss m => done (s :: ss) m
  | .statement, m =>
    if m.nextIs (.keyword .ret) then
      (m.pass.ask .expression).andThen fun e m₁ =>
        (take .semicolon "';'" m₁).andThen fun _ m₂ => done (.ret e m.token.span) m₂
    else if m.nextIs .type then m.ask .declaration
    else (m.ask .expression).andThen fun e m =>
      (take .semicolon "';'" m).andThen fun _ m => done (.expression e e.span) m
  | .declaration, m =>
    (m.ask .typeSpec).andThen fun type m =>
      (takeName m).andThen fun name m =>
        if m.nextIs .leftParen then
          (m.pass.ask .params).andThen fun ps m =>
            (m.ask .block).andThen fun body m => done (.function type name.text ps body name.span) m
        else (m.ask .initializer).andThen fun value m => done (.binding type name.text value name.span) m
  | .initializer, m =>
    if m.nextIs (.operator .equals) then
      (m.pass.ask .expression).andThen fun e m =>
        (take .semicolon "';'" m).andThen fun _ m => done (some e) m
    else (take .semicolon "';'" m).andThen fun _ m => done none m
  | .uniform mark, m =>
    (m.ask .typeSpec).andThen fun type m =>
      (takeName m).andThen fun name m =>
        if type.base.isTemplate then fail (.templateMisuse type.text name.text mark) m
        else (m.ask .initializer).andThen fun value m => done (.uniform type name.text value mark) m
  | .directive mark, m =>
    (takeName m).andThen fun name m =>
      (take .colon "':'" m).andThen fun _ m =>
        (take .text "a directive value" m).andThen fun value m =>
          (take .semicolon "';'" m).andThen fun _ m => done (.directive name.text value.text mark) m
  | .drawCall command mark, m =>
    (take .leftParen "'('" m).andThen fun _ m =>
      (m.ask .arguments).andThen fun es m => done (.draw command es mark) (m.skip .semicolon)
  | .topLevel, m =>
    match m.nextKind? some with
    | some (.keyword .uniform) => m.pass.ask (.uniform m.token.span)
    | some .type =>
      (m.ask .declaration).andThen fun s m =>
        match misuse? s with
        | some e => fail e m
        | none => done s m
    | some .dollar => m.pass.ask (.directive m.token.span)
    | some .draw =>
      match DrawCommand.ofText? m.token.text with
      | none => fail (.expected "a draw command" m.token.describe m.token.span) m.pass
      | some command => m.pass.ask (.drawCall command m.token.span)
    | _ => refused "expected a declaration, directive or draw call" m
  | .script, m =>
    if m.atEnd then done [] m
    else if m.nextIs .semicolon then m.pass.ask .script
    else (m.ask .topLevel).andThen fun s m => (m.ask .script).andThen fun ss m => done (s :: ss) m

def Plan.evalBy {α : Type} (answer : {β : Type} → Routine β → Machine → Machine.Answer β) :
    Plan α → Machine.Answer α
  | .stop x m => some (x, m)
  | .call q m next => (answer q m).bind fun p => (next p.1 p.2).evalBy answer

theorem Plan.evalBy_mono {α : Type}
    {f g : {β : Type} → Routine β → Machine → Machine.Answer β}
    (h : ∀ {β : Type} (q : Routine β) m r, f q m = some r → g q m = some r) (p : Plan α)
    {r : Except CompileError α × Machine} (hr : p.evalBy f = some r) : p.evalBy g = some r := by
  induction p with
  | stop x m => exact hr
  | call q m next ih =>
    rw [evalBy] at hr ⊢
    obtain ⟨p, hp, hr⟩ := Option.bind_eq_some_iff.mp hr
    rw [h _ _ _ hp]
    exact ih _ _ hr

/-- A routine answers what its plan gives, the calls of the plan being answered in the same way. -/
def Routine.run {α : Type} (q : Routine α) (m : Machine) : Machine.Answer α :=
  (q.plan m).evalBy fun q m => q |>.run m
partial_fixpoint monotonicity by
  intro f g hfg α q m
  have hle : ∀ {β : Type} (q : Routine β) m r, f q m = some r → g q m = some r := by
    intro β q m r hr
    have hrel := hfg β q m
    generalize f q m = x at hr hrel
    generalize g q m = y at hrel ⊢
    cases hrel with
    | bot => cases hr
    | refl => exact hr
  dsimp only
  cases hr : (q.plan m).evalBy f with
  | none => constructor
  | some r =>
    rw [Plan.evalBy_mono hle _ hr]
    constructor

def Machine.expression (m : Machine) : Machine.Answer Expr := Routine.expression.run m

def Machine.script (m : Machine) : Machine.Answer (List Statement) := Routine.script.run m

namespace Plan

variable {α β γ : Type}

def eval (p : Plan α) : Machine.Answer α := p.evalBy fun q m => q.run m

/-- The plan comes to a call of `q` at `m`, the calls before it being answered by the machine. -/
inductive Calls : {α β : Type} → Plan α → Routine β → Machine → Prop
  | here {α β : Type} {q : Routine β} {m : Machine} {next : Except CompileError β → Machine → Plan α} :
      Calls (.call q m next) q m
  | later {α β γ : Type} {q₁ : Routine β} {m₁ m₂ : Machine} {q : Routine γ} {m : Machine}
      {next : Except CompileError β → Machine → Plan α} {x : Except CompileError β}
      (h₁ : q₁.run m₁ = some (x, m₂)) (h : Calls (next x m₂) q m) : Calls (.call q₁ m₁ next) q m

theorem eval_call {q : Routine β} {m m₁ : Machine} {next : Except CompileError β → Machine → Plan α}
    {x : Except CompileError β} (h : q.run m = some (x, m₁)) :
    (call q m next).eval = (next x m₁).eval := by
  rw [eval, evalBy, h]
  rfl

theorem eval_ask (m : Machine) (q : Routine α) : (m.ask q).eval = q.run m :=
  Option.bind_fun_some (q.run m)

theorem exists_of_eval_call {q : Routine β} {m : Machine}
    {next : Except CompileError β → Machine → Plan α} {r : Except CompileError α × Machine}
    (h : (call q m next).eval = some r) :
    ∃ x m₁, q.run m = some (x, m₁) ∧ (next x m₁).eval = some r := by
  obtain ⟨⟨x, m₁⟩, hx, hr⟩ := Option.bind_eq_some_iff.mp h
  exact ⟨x, m₁, hx, hr⟩

section

variable {p : Plan α} {k : α → Machine → Plan β} {q : Routine γ} {m m₁ : Machine}

theorem eval_andThen_of_ok {v : α} (h : p.eval = some (.ok v, m)) :
    (p.andThen k).eval = (k v m).eval := by
  induction p with
  | stop x m₁ =>
    cases h
    rfl
  | call q₁ m₁ next ih =>
    obtain ⟨x, m₂, hx, h⟩ := exists_of_eval_call h
    rw [andThen, eval_call hx, ih _ _ h]

theorem eval_andThen_of_error {e : CompileError} (h : p.eval = some (.error e, m)) :
    (p.andThen k).eval = some (.error e, m) := by
  induction p with
  | stop x m₁ =>
    cases h
    rfl
  | call q₁ m₁ next ih =>
    obtain ⟨x, m₂, hx, h⟩ := exists_of_eval_call h
    rw [andThen, eval_call hx, ih _ _ h]

theorem eval_leave {x : Except CompileError α} (h : p.eval = some (x, m)) :
    p.leave.eval = some (x, m.shallower) := by
  induction p with
  | stop y m₁ =>
    cases h
    rfl
  | call q₁ m₁ next ih =>
    obtain ⟨y, m₂, hy, h⟩ := exists_of_eval_call h
    rw [leave, eval_call hy, ih _ _ h]

theorem calls_andThen (h : (p.andThen k).Calls q m) :
    p.Calls q m ∨ ∃ v m₁, p.eval = some (.ok v, m₁) ∧ (k v m₁).Calls q m := by
  induction p with
  | stop x m₁ =>
    cases x with
    | ok v => exact .inr ⟨v, m₁, rfl, h⟩
    | error e => cases h
  | call q₁ m₁ next ih =>
    cases h with
    | here => exact .inl .here
    | later h₁ h =>
      obtain hcall | ⟨v, m₂, heval, hcall⟩ := ih _ _ h
      · exact .inl (.later h₁ hcall)
      · exact .inr ⟨v, m₂, (eval_call h₁).trans heval, hcall⟩

theorem Calls.andThen_left (h : p.Calls q m) : (p.andThen k).Calls q m := by
  induction p with
  | stop x m₁ => cases h
  | call q₁ m₁ next ih =>
    cases h with
    | here => exact .here
    | later h₁ h => exact .later h₁ (ih _ _ h)

theorem Calls.andThen_right {v : α} (h : p.eval = some (.ok v, m₁)) (hk : (k v m₁).Calls q m) :
    (p.andThen k).Calls q m := by
  induction p with
  | stop x m₂ =>
    cases h
    exact hk
  | call q₁ m₂ next ih =>
    obtain ⟨x, m₃, hx, h⟩ := exists_of_eval_call h
    exact .later hx (ih _ _ h)

theorem calls_leave : p.leave.Calls q m ↔ p.Calls q m := by
  induction p with
  | stop x m₁ =>
    constructor
    · intro h
      cases h
    · intro h
      cases h
  | call q₁ m₁ next ih =>
    constructor
    · intro h
      cases h with
      | here => exact .here
      | later h₁ h => exact .later h₁ ((ih _ _).mp h)
    · intro h
      cases h with
      | here => exact .here
      | later h₁ h => exact .later h₁ ((ih _ _).mpr h)

end

end Plan

theorem Routine.run_eq_eval {α : Type} (q : Routine α) (m : Machine) : q.run m = (q.plan m).eval := by
  rw [run]
  rfl

inductive Loop where
  | script
  | block
  | operators
  | suffixes
  | params
  | arguments
  | elements
  | iterators
  | branches

namespace Routine

variable {α : Type}

def loop? : Routine α → Option Loop
  | .script => some .script
  | .statements => some .block
  | .binaryRest _ _ _ => some .operators
  | .suffixes _ _ => some .suffixes
  | .params | .moreParams => some .params
  | .arguments | .moreArguments => some .arguments
  | .moreElements => some .elements
  | .iterators => some .iterators
  | .branches => some .branches
  | _ => none

/-- The loop `l`, begun as `q` at `m`, has gone round `k` times and stands at `m'`, going on as `q'`. -/
inductive Rounds (l : Loop) (q : Routine α) (m : Machine) : Nat → Routine α → Machine → Prop
  | start (hq : q.loop? = some l) : Rounds l q m 0 q m
  | again {k : Nat} {q₁ q₂ : Routine α} {m₁ m₂ : Machine} (h : Rounds l q m k q₁ m₁)
      (hcall : (q₁.plan m₁).Calls q₂ m₂) (hq₂ : q₂.loop? = some l) : Rounds l q m (k + 1) q₂ m₂

theorem Rounds.loop?_eq {l : Loop} {q q' : Routine α} {m m' : Machine} {k : Nat}
    (h : q.Rounds l m k q' m') : q'.loop? = some l := by
  cases h with
  | start hq => exact hq
  | again _ _ hq => exact hq

end Routine

end DrawScript
