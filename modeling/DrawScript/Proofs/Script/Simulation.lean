import DrawScript.Proofs.Script.Descent
import DrawScript.Proofs.Script.Soundness

/-!
The machine does what the parser does. Where the machine has the tokens `ts` before it, a routine of the
machine gives what the parser's step gives on `ts`, moves its cursor to the tokens that the parser has
left, and keeps its depth. So no token is made up. A plan does what the parser does if its calls do, and
these descend. The same lemmas say how a routine can fail: an error names what stands at the cursor, or a
token of a kind that its text does not bear out, or a value of any type.
-/

namespace DrawScript

open Grammar

/-- How reading the tokens `all` can fail. -/
inductive Parser.Cause (stop : Span) (all : List Token) : Stuck → Prop
  | wanted {r : List Token} (expected : String) (hr : r <:+ all) :
      Cause stop all (Parser.wanted stop expected r)
  | refused {r : List Token} (message : String) (hr : r <:+ all) :
      Cause stop all (Parser.refused stop message r)
  | noType {t : Token} {r : List Token} (hr : t :: r <:+ all) (ht : t.kind = .type)
      (htext : BaseType.ofText? t.text = none) :
      Cause stop all ⟨.expected "a type" t.describe t.span, r⟩
  | noCommand {t : Token} {r : List Token} (hr : t :: r <:+ all) (ht : t.kind = .draw)
      (htext : DrawCommand.ofText? t.text = none) :
      Cause stop all ⟨.expected "a draw command" t.describe t.span, r⟩
  | uniform {type : TypeSpec} {u n : Token} {us r : List Token} (hr : u :: us ++ n :: r <:+ all)
      (hu : u.kind = .keyword .uniform) (htype : TypeForm type us) (hn : Name n.text n)
      (hany : type.base.isTemplate = true) :
      Cause stop all ⟨.templateMisuse type.text n.text u.span, r⟩
  | binding {type : TypeSpec} {value : Option Expr} {n : Token} {us vs r : List Token}
      (hr : us ++ n :: vs ++ r <:+ all) (htype : TypeForm type us) (hn : Name n.text n)
      (hvalue : ValueForm value vs) (hany : type.base.isTemplate = true) :
      Cause stop all ⟨.templateMisuse type.text n.text n.span, r⟩

section

variable {α : Type}

def Parser.Outcome.answer : Outcome α → Except CompileError α
  | .ok (v, _) => .ok v
  | .error s => .error s.error

def Parser.Outcome.rest : Outcome α → List Token
  | .ok (_, r) => r
  | .error s => s.rest

end

/-- What reading statements to the end gives, as an outcome that has no tokens left. -/
def Parser.scriptOutcome (stop : Span) (ts : List Token) : Outcome (List Statement) :=
  match script stop ts with
  | .ok ss => .ok (ss, [])
  | .error s => .error s

theorem Parser.scriptOutcome_nil (stop : Span) : scriptOutcome stop [] = .ok ([], []) := by
  rw [scriptOutcome, script_nil]

theorem Parser.scriptOutcome_cons (stop : Span) (t : Token) (ts : List Token) :
    scriptOutcome stop (t :: ts) =
      if nextIs .semicolon (t :: ts) then scriptOutcome stop ts
      else (topLevel stop (t :: ts)).outcome.andThen fun s ts₁ =>
        (scriptOutcome stop ts₁).andThen fun ss ts₂ => .ok (s :: ss, ts₂) := by
  rw [scriptOutcome, script_cons, nextIs_cons]
  by_cases h : t.kind = .semicolon
  · rw [if_pos h, if_pos (decide_eq_true h)]
    rfl
  · rw [if_neg h, if_neg (by simpa using h)]
    match (topLevel stop (t :: ts)).outcome with
    | .error s => rfl
    | .ok (s, ts₁) =>
      rw [Outcome.andThen_ok, scriptOutcome]
      dsimp only
      cases script stop ts₁ <;> rfl

namespace Machine

open DrawScript.Parser (Outcome Stuck Cause Step Level levels maxDepth misuse?)

variable {m : Machine} {t : Token} {ts us r : List Token}

structure At (m : Machine) (ts : List Token) : Prop where
  inside : m.cursor ≤ m.tokens.size
  drop_eq : m.tokens.toList.drop m.cursor = ts

theorem at_ofTokens (ts : List Token) : (ofTokens ts).At ts := ⟨Nat.zero_le _, rfl⟩

def movedTo (m : Machine) (r : List Token) : Machine := { m with cursor := m.tokens.size - r.length }

theorem left_eq_zero (h : maxDepth ≤ m.depth) : m.left = 0 := Nat.sub_eq_zero_of_le h

theorem left_eq_maxDepth (h : m.depth = 0) : m.left = maxDepth := by
  rw [left, h, Nat.sub_zero]

namespace At

theorem deeper (h : m.At ts) : m.deeper.At ts := ⟨h.inside, h.drop_eq⟩

theorem suffix (h : m.At ts) : ts <:+ m.tokens.toList := h.drop_eq ▸ List.drop_suffix _ _

theorem length_eq (h : m.At ts) : ts.length = m.tokens.size - m.cursor := by
  rw [← h.drop_eq, List.length_drop, Array.length_toList]

theorem movedTo (h : m.At ts) (hr : r <:+ ts) : (m.movedTo r).At r where
  inside := Nat.sub_le _ _
  drop_eq := by
    have hall := List.suffix_iff_eq_drop.mp (hr.trans h.suffix)
    rw [Array.length_toList] at hall
    exact hall.symm

theorem eq_movedTo (h : m.At ts) : m.movedTo ts = m := by
  have hcursor : m.tokens.size - ts.length = m.cursor := by
    have hlength := h.length_eq
    have hinside := h.inside
    omega
  unfold Machine.movedTo
  rw [hcursor]

theorem next? (h : m.At ts) : m.next? = ts.head? := by
  rw [← h.drop_eq, List.head?_drop, Machine.next?, Array.getElem?_toList]

theorem token (h : m.At (t :: us)) : m.token = t := by
  rw [Machine.token, h.next?]
  rfl

theorem pass_eq (h : m.At (t :: us)) : m.pass = m.movedTo us := by
  have hcursor : m.cursor + 1 = m.tokens.size - us.length := by
    have hlength := h.length_eq
    rw [List.length_cons] at hlength
    omega
  unfold Machine.movedTo pass
  rw [hcursor]

theorem pass (h : m.At (t :: us)) : m.pass.At us := h.pass_eq ▸ h.movedTo (List.suffix_cons t us)

theorem nextIs (h : m.At ts) (kind : TokenKind) : m.nextIs kind = Parser.nextIs kind ts := by
  rw [Machine.nextIs, h.next?]
  cases ts with
  | nil => rfl
  | cons t us => rw [Parser.nextIs_cons]; rfl

theorem nextKind? {α : Type} (h : m.At ts) (f : TokenKind → Option α) :
    m.nextKind? f = Parser.nextKind? f ts := by
  rw [Machine.nextKind?, h.next?]
  rfl

theorem atEnd (h : m.At ts) : m.atEnd = ts.isEmpty := by
  have hlength := h.length_eq
  have hinside := h.inside
  rw [Bool.eq_iff_iff, List.isEmpty_iff_length_eq_zero, Machine.atEnd, decide_eq_true_iff]
  omega

theorem found (h : m.At ts) : m.found = Parser.found ts := by
  rw [Machine.found, h.next?]
  cases ts <;> rfl

theorem here (h : m.At ts) : m.here = Parser.here m.stop ts := by
  rw [Machine.here, h.next?]
  cases ts <;> rfl

theorem isCallable (h : m.At ts) : m.isCallable = Parser.isCallable ts := by
  rw [Machine.isCallable, h.nextIs, h.nextIs]
  cases ts with
  | nil => rfl
  | cons t us => rw [Parser.nextIs_cons, Parser.nextIs_cons]; rfl

theorem skip_eq (h : m.At ts) (kind : TokenKind) :
    m.skip kind = m.movedTo (Parser.skip kind ts) := by
  rw [Machine.skip, Parser.skip_eq, h.nextIs]
  split
  next hnext =>
    obtain ⟨t, us, rfl, -⟩ := Parser.exists_of_nextIs hnext
    exact h.pass_eq
  next => exact h.eq_movedTo.symm

end At

theorem skip_suffix (kind : TokenKind) (ts : List Token) : Parser.skip kind ts <:+ ts := by
  rw [Parser.skip_eq]
  split
  · exact List.tail_suffix ts
  · exact List.suffix_rfl

theorem skipListMark_suffix (ts : List Token) : (Parser.skipListMark ts).2 <:+ ts := by
  unfold Parser.skipListMark
  split
  next a b us =>
    split
    · exact (List.suffix_cons b us).trans (List.suffix_cons a (b :: us))
    · exact List.suffix_rfl
  next => exact List.suffix_rfl

theorem skipListMark_eq (h : m.At ts) :
    m.skipListMark = ((Parser.skipListMark ts).1, m.movedTo (Parser.skipListMark ts).2) := by
  rw [skipListMark, h.nextIs]
  match ts, h with
  | [], h =>
    rw [if_neg (by simp)]
    exact congrArg (Prod.mk false) h.eq_movedTo.symm
  | [t], h =>
    rw [h.pass.nextIs, if_neg (by simp)]
    exact congrArg (Prod.mk false) h.eq_movedTo.symm
  | a :: b :: us, h =>
    rw [h.pass.nextIs, Parser.nextIs_cons, Parser.nextIs_cons, h.pass.pass_eq, h.pass_eq]
    by_cases hmark : a.kind = .leftBracket ∧ b.kind = .rightBracket
    · rw [if_pos (by simpa using hmark), Parser.skipListMark, if_pos hmark]
      rfl
    · rw [if_neg (by simpa using hmark), Parser.skipListMark, if_neg hmark, h.eq_movedTo]

end Machine

open DrawScript.Parser (Outcome Cause levels maxDepth callee? misuse? unaryOperator?)

namespace Routine

variable {α : Type}

def outcome (stop : Span) (depth : Nat) (ts : List Token) : Routine α → Outcome α
  | .typeSpec => (Parser.typeSpec stop ts).outcome
  | .param => (Parser.param stop ts).outcome
  | .params => (Parser.params stop ts).outcome
  | .moreParams => (Parser.moreParams stop ts).outcome
  | .expression => (Parser.expression stop depth ts).outcome
  | .assignment => (Parser.expression stop (depth + 1) ts).outcome
  | .binary ls => (Parser.binary stop depth ls ts).outcome
  | .binaryRest l ls left => (Parser.binaryRest stop depth l ls left ts).outcome
  | .unary => (Parser.unary stop depth ts).outcome
  | .operand => (Parser.operand stop depth ts).outcome
  | .suffixes callable e => (Parser.suffixes stop depth callable e ts).outcome
  | .arguments => (Parser.arguments stop depth ts).outcome
  | .moreArguments => (Parser.moreArguments stop depth ts).outcome
  | .moreElements => (Parser.moreElements stop depth ts).outcome
  | .atom => (Parser.atom stop depth ts).outcome
  | .group mark => (Parser.group stop depth mark ts).outcome
  | .listOrRange mark => (Parser.listOrRange stop depth mark ts).outcome
  | .iterators => (Parser.iterators stop depth ts).outcome
  | .branches => (Parser.branches stop depth ts).outcome
  | .block => (Parser.block stop depth ts).outcome
  | .statements => (Parser.statements stop depth ts).outcome
  | .statement => (Parser.statement stop depth ts).outcome
  | .declaration => (Parser.declaration stop depth ts).outcome
  | .initializer => (Parser.initializer stop depth ts).outcome
  | .uniform mark => (Parser.uniform stop mark ts).outcome
  | .directive mark => (Parser.directive stop mark ts).outcome
  | .drawCall command mark => (Parser.drawCall stop command mark ts).outcome
  | .topLevel => (Parser.topLevel stop ts).outcome
  | .script => Parser.scriptOutcome stop ts

/-- Whether the parser has the routine only where no expression is open. -/
def isOuter : Routine α → Bool
  | .uniform _ | .drawCall _ _ | .topLevel | .script => true
  | _ => false

/-- A uniform is told the position of the keyword before it. -/
def Marked (m : Machine) : Routine α → Prop
  | .uniform mark => ∃ t us, t.kind = .keyword .uniform ∧ t.span = mark ∧ m.At us ∧
      t :: us <:+ m.tokens.toList
  | _ => True

theorem marked_of_inner {q : Routine α} (h : q.isOuter = false) (m : Machine) : q.Marked m := by
  cases q <;> trivial

end Routine

namespace Plan

variable {α β : Type}

/-- With the tokens `ts` before it, the machine gives by the plan what the parser's outcome `o` says. -/
structure Follows (marked : Prop) (m : Machine) (ts : List Token) (p : Plan α) (o : Outcome α) : Prop where
  eval_eq : p.eval = some (o.answer, m.movedTo o.rest)
  suffix : o.rest <:+ ts
  cause : marked → ∀ {s}, o = .error s → Cause m.stop m.tokens.toList s

end Plan

def Routine.Agrees {α : Type} (q : Routine α) (m : Machine) : Prop :=
  ∀ ts, m.At ts → (q.isOuter = true → m.depth = 0) →
    (m.ask q).Follows (q.Marked m) m ts (q.outcome m.stop m.left ts)

namespace Plan

variable {α β : Type}

/-- The plan follows the parser if its calls do. -/
def Tracks (marked : Prop) (m : Machine) (ts : List Token) (p : Plan α) (o : Outcome α) : Prop :=
  (∀ {β : Type} {q : Routine β} {m' : Machine}, p.Calls q m' → q.Agrees m') → p.Follows marked m ts o

namespace Tracks

variable {marked : Prop} {m : Machine} {t : Token} {ts us r : List Token} {p A B : Plan α}
  {o C D : Outcome α} {k : α → Machine → Plan β} {g : α → List Token → Outcome β}

theorem of_movedTo (h : p.Tracks marked (m.movedTo r) r o) (hr : r <:+ ts) : p.Tracks marked m ts o := by
  intro hcalls
  obtain ⟨heval, hsuffix, hcause⟩ := h hcalls
  exact ⟨heval, hsuffix.trans hr, hcause⟩

theorem pass (h : m.At (t :: us)) (hp : p.Tracks marked m.pass us o) : p.Tracks marked m (t :: us) o := by
  rw [h.pass_eq] at hp
  exact hp.of_movedTo (List.suffix_cons t us)

protected theorem done (h : m.At ts) (v : α) : (done v m).Tracks marked m ts (.ok (v, ts)) := by
  intro _
  refine ⟨congrArg (fun m => some (Except.ok v, m)) h.eq_movedTo.symm, List.suffix_rfl, fun _ s ho => ?_⟩
  cases ho

protected theorem fail {e : CompileError} (h : m.At ts)
    (hcause : marked → Cause m.stop m.tokens.toList ⟨e, ts⟩) :
    (fail e m : Plan α).Tracks marked m ts (.error ⟨e, ts⟩) := by
  intro _
  refine ⟨congrArg (fun m => some (Except.error e, m)) h.eq_movedTo.symm, List.suffix_rfl,
    fun hmarked s ho => ?_⟩
  cases ho
  exact hcause hmarked

protected theorem wanted (h : m.At ts) (expected : String) :
    (wanted expected m : Plan α).Tracks marked m ts (.error (Parser.wanted m.stop expected ts)) := by
  rw [Plan.wanted, h.found, h.here]
  exact .fail h fun _ => .wanted expected h.suffix

protected theorem refused (h : m.At ts) (message : String) :
    (refused message m : Plan α).Tracks marked m ts (.error (Parser.refused m.stop message ts)) := by
  rw [Plan.refused, h.found, h.here]
  exact .fail h fun _ => .refused message h.suffix

theorem andThen (hp : p.Tracks marked m ts o) (h : m.At ts)
    (hk : ∀ {v r}, o = .ok (v, r) → (m.movedTo r).At r →
      (k v (m.movedTo r)).Tracks marked (m.movedTo r) r (g v r)) :
    (p.andThen k).Tracks marked m ts (o.andThen g) := by
  intro hcalls
  have hp := hp fun hcall => hcalls hcall.andThen_left
  match o, hp with
  | .error s, hp =>
    refine ⟨eval_andThen_of_error hp.eval_eq, hp.suffix, fun hmarked _ ho => ?_⟩
    cases ho
    exact hp.cause hmarked rfl
  | .ok (v, r), hp =>
    have hr := hk rfl (h.movedTo hp.suffix) fun hcall => hcalls (.andThen_right hp.eval_eq hcall)
    exact ⟨(eval_andThen_of_ok hp.eval_eq).trans hr.eval_eq, hr.suffix.trans hp.suffix, hr.cause⟩

theorem map (hp : p.Tracks marked m ts o) (h : m.At ts) (f : α → β) :
    (p.andThen fun v m => Plan.done (f v) m).Tracks marked m ts (o.andThen fun v r => .ok (f v, r)) :=
  hp.andThen h fun _ hr => .done hr _

theorem ite {kind : TokenKind} (h : m.At ts)
    (hA : ∀ {t us}, ts = t :: us → A.Tracks marked m ts C) (hB : B.Tracks marked m ts D) :
    (if m.nextIs kind then A else B).Tracks marked m ts (if Parser.nextIs kind ts then C else D) := by
  rw [h.nextIs]
  split
  next hnext =>
    obtain ⟨t, us, rfl, -⟩ := Parser.exists_of_nextIs hnext
    exact hA rfl
  next => exact hB

theorem ite_pass {kind : TokenKind} (h : m.At ts)
    (hA : m.pass.At ts.tail → A.Tracks marked m.pass ts.tail C) (hB : B.Tracks marked m ts D) :
    (if m.nextIs kind then A else B).Tracks marked m ts (if Parser.nextIs kind ts then C else D) := by
  refine .ite h (fun hts => ?_) hB
  subst hts
  exact .pass h (hA h.pass)

theorem ask {q : Routine α} (h : m.At ts) (hdepth : q.isOuter = true → m.depth = 0)
    (hq : marked → q.Marked m) : (m.ask q).Tracks marked m ts (q.outcome m.stop m.left ts) := by
  intro hcalls
  obtain ⟨heval, hsuffix, hcause⟩ := hcalls .here ts h hdepth
  exact ⟨heval, hsuffix, fun hmarked => hcause (hq hmarked)⟩

theorem inner {q : Routine α} (h : m.At ts) (hq : q.isOuter = false) :
    (m.ask q).Tracks marked m ts (q.outcome m.stop m.left ts) :=
  .ask h (fun houter => absurd (hq.symm.trans houter) Bool.false_ne_true)
    fun _ => Routine.marked_of_inner hq m

theorem nested {q : Routine α} (h : m.At ts) (hq : q.isOuter = false) (hdepth : m.depth < maxDepth) :
    (nested m q).Tracks marked m ts (q.outcome m.stop m.deeper.left ts) := by
  rw [Plan.nested, if_neg (Nat.not_le.mpr hdepth)]
  intro hcalls
  have hinner : (m.deeper.ask q).Tracks marked m.deeper ts _ := inner h.deeper hq
  obtain ⟨heval, hsuffix, hcause⟩ := hinner fun hcall => hcalls (calls_leave.mpr hcall)
  exact ⟨eval_leave heval, hsuffix, hcause⟩

theorem tooDeep {q : Routine α} (h : m.At ts) (hdepth : maxDepth ≤ m.depth) :
    (Plan.nested m q).Tracks marked m ts
      (.error (Parser.refused m.stop "expression nested too deeply" ts)) := by
  rw [Plan.nested, if_pos hdepth]
  exact .refused h _

theorem next {b : Bool} {c : Token → Prop} [DecidablePred c] {expected : String}
    {F : List Token → Outcome Token} (h : m.At ts) (hb : b = ts.head?.any fun t => c t)
    (hnil : F [] = .error (Parser.wanted m.stop expected []))
    (hcons : ∀ t us, F (t :: us) =
      if c t then .ok (t, us) else .error (Parser.wanted m.stop expected (t :: us))) :
    (if b then Plan.done m.token m.pass else Plan.wanted expected m).Tracks marked m ts (F ts) := by
  subst hb
  cases ts with
  | nil =>
    rw [hnil]
    exact .wanted h expected
  | cons t us =>
    rw [hcons, h.token, List.head?_cons, Option.any_some]
    by_cases ht : c t
    · rw [if_pos ht, if_pos (decide_eq_true ht)]
      exact .pass h (.done h.pass t)
    · rw [if_neg ht, if_neg (Bool.not_eq_true _ ▸ decide_eq_false ht)]
      exact .wanted h expected

protected theorem take (h : m.At ts) (kind : TokenKind) (expected : String) :
    (take kind expected m).Tracks marked m ts (Parser.take m.stop kind expected ts).outcome := by
  refine next (c := fun t => t.kind = kind)
    (F := fun us => (Parser.take m.stop kind expected us).outcome) h ?_
    (Parser.outcome_take m.stop [] kind expected) fun t us =>
      Parser.outcome_take m.stop (t :: us) kind expected
  rw [h.nextIs]
  cases ts with
  | nil => rfl
  | cons t us => exact Parser.nextIs_cons kind t us

protected theorem takeName (h : m.At ts) :
    (takeName m).Tracks marked m ts (Parser.takeName m.stop ts).outcome := by
  refine next (c := fun t => t.kind = .text ∧ Parser.isNumeric t.text = false)
    (F := fun us => (Parser.takeName m.stop us).outcome) h ?_
    (Parser.outcome_takeName m.stop []) fun t us => Parser.outcome_takeName m.stop (t :: us)
  rw [Machine.nextIsName, h.next?]
  cases ts <;> rfl

end Tracks

end Plan

namespace Routine

open Plan (Tracks)

variable {α : Type} {marked : Prop} {m : Machine} {ts : List Token}

theorem typeSpec_tracks (h : m.At ts) :
    (typeSpec.plan m).Tracks marked m ts (Parser.typeSpec m.stop ts).outcome := by
  rw [plan, Parser.outcome_typeSpec]
  refine (Tracks.take h _ _).andThen h fun {t r} ht hr => ?_
  -- The token is passed before its text is looked at, so an error here stands behind it.
  obtain ⟨rfl, hkind⟩ := Parser.take_sound ht
  cases hbase : BaseType.ofText? t.text with
  | none => exact .fail hr fun _ => .noType h.suffix hkind hbase
  | some base =>
    dsimp only
    rw [Machine.skipListMark_eq hr]
    have hrest := Machine.skipListMark_suffix r
    exact (Tracks.done (hr.movedTo hrest) _).of_movedTo hrest

theorem expression_tracks (h : m.At ts) :
    (expression.plan m).Tracks marked m ts (Parser.expression m.stop m.left ts).outcome := by
  rw [plan]
  by_cases hdepth : m.depth < maxDepth
  · rw [Machine.left_eq_succ hdepth]
    exact .nested h (q := assignment) rfl hdepth
  · rw [Machine.left_eq_zero (Nat.not_lt.mp hdepth), Parser.outcome_expression_zero]
    exact .tooDeep h (Nat.not_lt.mp hdepth)

theorem binaryRest_tracks {l : Parser.Level} {ls : List Parser.Level} {left : Expr} (h : m.At ts) :
    ((binaryRest l ls left).plan m).Tracks marked m ts
      (Parser.binaryRest m.stop m.left l ls left ts).outcome := by
  rw [plan, Parser.outcome_binaryRest, h.nextKind?]
  cases hop : Parser.nextKind? l.operator? ts with
  | none => exact .done h left
  | some op =>
    obtain ⟨t, us, rfl, -⟩ := Parser.exists_of_nextKind? hop
    dsimp only
    rw [h.token]
    exact .pass h ((Tracks.inner (q := binary ls) h.pass rfl).andThen h.pass fun _ hr =>
      .inner (q := binaryRest l ls _) hr rfl)

theorem unary_tracks (h : m.At ts) :
    (unary.plan m).Tracks marked m ts (Parser.unary m.stop m.left ts).outcome := by
  rw [plan, Parser.outcome_unary, h.nextKind?]
  cases hop : Parser.nextKind? unaryOperator? ts with
  | none => exact .inner (q := operand) h rfl
  | some op =>
    obtain ⟨t, us, rfl, -⟩ := Parser.exists_of_nextKind? hop
    dsimp only
    rw [h.token]
    -- Every sign opens a level of its own.
    by_cases hdepth : m.depth < maxDepth
    · have hleft : m.left = m.pass.deeper.left + 1 := Machine.left_eq_succ (m := m.pass) hdepth
      rw [hleft]
      exact .pass h ((Tracks.nested (q := unary) h.pass rfl hdepth).map h.pass _)
    · rw [Machine.left_eq_zero (Nat.not_lt.mp hdepth)]
      exact .pass h ((Tracks.tooDeep h.pass (Nat.not_lt.mp hdepth)).map h.pass _)

theorem suffixes_tracks {callable : Bool} {e : Expr} (h : m.At ts) :
    ((suffixes callable e).plan m).Tracks marked m ts
      (Parser.suffixes m.stop m.left callable e ts).outcome := by
  rw [plan, Parser.outcome_suffixes, h.nextKind?]
  cases ts with
  | nil => exact .done h e
  | cons t us =>
    rw [h.token, show Parser.nextKind? some (t :: us) = some t.kind from rfl]
    dsimp only
    generalize t.kind = kind
    cases kind
    case dot =>
      exact .pass h ((Tracks.takeName h.pass).andThen h.pass fun _ hr =>
        .inner (q := suffixes callable _) hr rfl)
    case leftBracket =>
      exact .pass h ((Tracks.inner (q := expression) h.pass rfl).andThen h.pass fun _ hr₁ =>
        (Tracks.take hr₁ _ _).andThen hr₁ fun _ hr₂ => .inner (q := suffixes callable _) hr₂ rfl)
    case leftParen =>
      dsimp only
      cases callee? callable e with
      | none => exact .refused h _
      | some name =>
        exact .pass h ((Tracks.inner (q := arguments) h.pass rfl).andThen h.pass fun _ hr =>
          .inner (q := suffixes callable _) hr rfl)
    all_goals exact .done h e

theorem atom_tracks (h : m.At ts) :
    (atom.plan m).Tracks marked m ts (Parser.atom m.stop m.left ts).outcome := by
  rw [plan, Parser.outcome_atom, h.nextKind?]
  cases ts with
  | nil => exact .wanted h _
  | cons t us =>
    have hrefused : Tracks (α := Expr) marked m (t :: us) _ _ := .refused h "expected an expression"
    rw [h.token, h.here, show Parser.nextKind? some (t :: us) = some t.kind from rfl]
    dsimp only
    generalize t.kind = kind
    cases kind
    case text => exact .pass h (.done h.pass _)
    case builtin => exact .pass h (.done h.pass _)
    case dollar => exact .pass h ((Tracks.takeName h.pass).map h.pass _)
    case keyword k =>
      cases k
      case loop =>
        exact .pass h ((Tracks.take h.pass _ _).andThen h.pass fun _ hr₁ =>
          (Tracks.inner (q := iterators) hr₁ rfl).andThen hr₁ fun _ hr₂ =>
            (Tracks.inner (q := block) hr₂ rfl).map hr₂ _)
      case cases =>
        exact .pass h ((Tracks.take h.pass _ _).andThen h.pass fun _ hr₁ =>
          (Tracks.inner (q := branches) hr₁ rfl).map hr₁ _)
      all_goals exact hrefused
    case leftParen => exact .pass h (.inner (q := group t.span) h.pass rfl)
    case leftBracket => exact .pass h (.inner (q := listOrRange t.span) h.pass rfl)
    all_goals exact hrefused

theorem branches_tracks (h : m.At ts) :
    (branches.plan m).Tracks marked m ts (Parser.branches m.stop m.left ts).outcome := by
  rw [plan, Parser.outcome_branches]
  refine .ite_pass h (.done · _) ((Tracks.inner (q := expression) h rfl).andThen h fun {_ r} _ hr =>
    .ite_pass hr (fun hpass => (Tracks.inner (q := expression) hpass rfl).andThen hpass
      fun {_ r₁} _ hr₁ => ?_) ?_)
  · have hskip := Machine.skip_suffix .comma r₁
    have hr₂ := hr₁.movedTo hskip
    rw [hr₁.skip_eq]
    exact ((Tracks.inner (q := branches) hr₂ rfl).map hr₂ _).of_movedTo hskip
  · have hskip := Machine.skip_suffix .comma r
    have hr₁ := hr.movedTo hskip
    rw [hr.skip_eq]
    exact ((Tracks.take hr₁ _ _).map hr₁ _).of_movedTo hskip

theorem uniform_tracks {mark : Span} (h : m.At ts) (hdepth : m.depth = 0) :
    ((uniform mark).plan m).Tracks ((uniform mark).Marked m) m ts
      (Parser.uniform m.stop mark ts).outcome := by
  rw [plan, Parser.outcome_uniform]
  refine (Tracks.inner (q := typeSpec) h rfl).andThen h fun {type r₁} h₁ hr₁ =>
    (Tracks.takeName hr₁).andThen hr₁ fun {name r₂} h₂ hr₂ => ?_
  by_cases hany : type.base.isTemplate = true
  · rw [if_pos hany, if_pos hany]
    refine .fail hr₂ ?_
    rintro ⟨t, us, ht, rfl, hus, hall⟩
    obtain rfl := hus.drop_eq.symm.trans h.drop_eq
    obtain ⟨us, rfl, htype⟩ := Parser.typeSpec_sound h₁
    obtain ⟨rfl, hname⟩ := Parser.takeName_sound h₂
    exact .uniform hall ht htype hname hany
  · rw [if_neg hany, if_neg hany, ← Machine.left_eq_maxDepth hdepth]
    exact (Tracks.inner (q := initializer) hr₂ rfl).map hr₂ _

theorem drawCall_tracks {command : DrawCommand} {mark : Span} (h : m.At ts) (hdepth : m.depth = 0) :
    ((drawCall command mark).plan m).Tracks marked m ts
      (Parser.drawCall m.stop command mark ts).outcome := by
  rw [plan, Parser.outcome_drawCall, ← Machine.left_eq_maxDepth hdepth]
  refine (Tracks.take h _ _).andThen h fun _ hr₁ =>
    (Tracks.inner (q := arguments) hr₁ rfl).andThen hr₁ fun {_ r₂} _ hr₂ => ?_
  have hskip := Machine.skip_suffix .semicolon r₂
  rw [hr₂.skip_eq]
  exact (Tracks.done (hr₂.movedTo hskip) _).of_movedTo hskip

theorem cause_of_misuse? {all us r : List Token} {stop : Span} {s : Statement} {e : CompileError}
    (hs : DeclarationForm s us) (he : misuse? s = some e) (hall : us ++ r <:+ all) :
    Cause stop all ⟨e, r⟩ := by
  cases hs with
  | function => cases he
  | @binding type name value n vs ws htype hn hvalue =>
    obtain ⟨hkind, rfl, hnumeric⟩ := hn
    rw [misuse?, Option.ite_none_right_eq_some] at he
    obtain ⟨hany, ⟨⟩⟩ := he
    exact .binding hall htype ⟨hkind, rfl, hnumeric⟩ hvalue hany

theorem topLevel_tracks (h : m.At ts) (hdepth : m.depth = 0) :
    (topLevel.plan m).Tracks marked m ts (Parser.topLevel m.stop ts).outcome := by
  rw [plan, Parser.outcome_topLevel, h.nextKind?]
  cases ts with
  | nil => exact .refused h _
  | cons t us =>
    have hrefused : Tracks (α := Statement) marked m (t :: us) _ _ :=
      .refused h "expected a declaration, directive or draw call"
    rw [h.token, show Parser.nextKind? some (t :: us) = some t.kind from rfl]
    dsimp only
    generalize hkind : t.kind = kind
    cases kind
    case keyword k =>
      cases k
      case uniform =>
        exact .pass h (.ask (q := uniform t.span) h.pass (fun _ => hdepth)
          fun _ => ⟨t, us, hkind, rfl, h.pass, h.suffix⟩)
      all_goals exact hrefused
    case type =>
      dsimp only
      rw [← Machine.left_eq_maxDepth hdepth]
      refine (Tracks.inner (q := declaration) h rfl).andThen h fun {s r} hs hr => ?_
      cases he : misuse? s with
      | none => exact .done hr s
      | some e =>
        -- The declaration is complete, so the grammar tells which of its tokens the error names.
        obtain ⟨us, hts, hform⟩ := Parser.declaration_sound (Parser.soundBelow _ _) (Nat.le_refl _) hs
        exact .fail hr fun _ => cause_of_misuse? hform he (hts ▸ h.suffix)
    case dollar => exact .pass h (.inner (q := directive t.span) h.pass rfl)
    case draw =>
      dsimp only
      cases hcommand : DrawCommand.ofText? t.text with
      | none => exact .pass h (.fail h.pass fun _ => .noCommand h.suffix hkind hcommand)
      | some command =>
        exact .pass h (.ask (q := drawCall command t.span) h.pass (fun _ => hdepth) fun _ => trivial)
    all_goals exact hrefused

theorem script_tracks (h : m.At ts) (hdepth : m.depth = 0) :
    (script.plan m).Tracks marked m ts (Parser.scriptOutcome m.stop ts) := by
  rw [plan, h.atEnd]
  cases ts with
  | nil =>
    rw [Parser.scriptOutcome_nil]
    exact .done h []
  | cons t us =>
    rw [Parser.scriptOutcome_cons]
    refine .ite h (fun hts => ?_)
      ((Tracks.ask (q := topLevel) h (fun _ => hdepth) fun _ => trivial).andThen h fun _ hr => ?_)
    · cases hts
      exact .pass h (.ask (q := script) h.pass (fun _ => hdepth) fun _ => trivial)
    · exact (Tracks.ask (q := script) hr (fun _ => hdepth) fun _ => trivial).map hr _

theorem plan_tracks (q : Routine α) (h : m.At ts) (hdepth : q.isOuter = true → m.depth = 0) :
    (q.plan m).Tracks (q.Marked m) m ts (q.outcome m.stop m.left ts) := by
  cases q with
  | typeSpec => exact typeSpec_tracks h
  | param =>
    rw [plan, outcome, Parser.outcome_param]
    exact (Tracks.inner (q := typeSpec) h rfl).andThen h fun _ hr => (Tracks.takeName hr).map hr _
  | params =>
    rw [plan, outcome, Parser.outcome_params]
    exact .ite_pass h (.done · _) ((Tracks.inner (q := param) h rfl).andThen h fun _ hr =>
      (Tracks.inner (q := moreParams) hr rfl).map hr _)
  | moreParams =>
    rw [plan, outcome, Parser.outcome_moreParams]
    refine .ite_pass h (fun hpass => ?_) ((Tracks.take h _ _).map h _)
    exact (Tracks.inner (q := param) hpass rfl).andThen hpass fun _ hr =>
      (Tracks.inner (q := moreParams) hr rfl).map hr _
  | expression => exact expression_tracks h
  | assignment =>
    rw [plan, outcome, Parser.outcome_expression_succ]
    refine (Tracks.inner (q := binary levels) h rfl).andThen h fun _ hr =>
      .ite hr (fun hts => ?_) (.done hr _)
    subst hts
    rw [hr.token]
    exact .pass hr ((Tracks.inner (q := expression) hr.pass rfl).map hr.pass _)
  | binary ls =>
    cases ls with
    | nil =>
      rw [plan, outcome, Parser.outcome_binary_nil]
      exact .inner (q := unary) h rfl
    | cons l ls =>
      rw [plan, outcome, Parser.outcome_binary_cons]
      exact (Tracks.inner (q := binary ls) h rfl).andThen h fun _ hr =>
        .inner (q := binaryRest l ls _) hr rfl
  | binaryRest l ls left => exact binaryRest_tracks h
  | unary => exact unary_tracks h
  | operand =>
    rw [plan, outcome, Parser.outcome_operand, h.isCallable]
    exact (Tracks.inner (q := atom) h rfl).andThen h fun _ hr => .inner (q := suffixes _ _) hr rfl
  | suffixes callable e => exact suffixes_tracks h
  | arguments =>
    rw [plan, outcome, Parser.outcome_arguments]
    exact .ite_pass h (.done · _) ((Tracks.inner (q := expression) h rfl).andThen h fun _ hr =>
      (Tracks.inner (q := moreArguments) hr rfl).map hr _)
  | moreArguments =>
    rw [plan, outcome, Parser.outcome_moreArguments]
    refine .ite_pass h (fun hpass => ?_) ((Tracks.take h _ _).map h _)
    exact (Tracks.inner (q := expression) hpass rfl).andThen hpass fun _ hr =>
      (Tracks.inner (q := moreArguments) hr rfl).map hr _
  | moreElements =>
    rw [plan, outcome, Parser.outcome_moreElements]
    refine .ite_pass h (fun hpass => .ite_pass hpass (.done · _) ?_) ((Tracks.take h _ _).map h _)
    exact (Tracks.inner (q := expression) hpass rfl).andThen hpass fun _ hr =>
      (Tracks.inner (q := moreElements) hr rfl).map hr _
  | atom => exact atom_tracks h
  | group mark =>
    rw [plan, outcome, Parser.outcome_group]
    exact .ite_pass h (.done · _) ((Tracks.inner (q := expression) h rfl).andThen h fun _ hr =>
      .ite hr (fun _ => (Tracks.inner (q := moreArguments) hr rfl).map hr _)
        ((Tracks.take hr _ _).map hr _))
  | listOrRange mark =>
    rw [plan, outcome, Parser.outcome_listOrRange]
    refine .ite_pass h (.done · _) ((Tracks.inner (q := expression) h rfl).andThen h fun _ hr =>
      .ite_pass hr (fun hpass => ?_) ((Tracks.inner (q := moreElements) hr rfl).map hr _))
    exact (Tracks.inner (q := expression) hpass rfl).andThen hpass fun _ hr₁ =>
      (Tracks.take hr₁ _ _).map hr₁ _
  | iterators =>
    rw [plan, outcome, Parser.outcome_iterators]
    exact (Tracks.takeName h).andThen h fun _ hr₁ => (Tracks.take hr₁ _ _).andThen hr₁ fun _ hr₂ =>
      (Tracks.inner (q := expression) hr₂ rfl).andThen hr₂ fun _ hr₃ =>
        .ite_pass hr₃ (fun hpass => (Tracks.inner (q := iterators) hpass rfl).map hpass _)
          ((Tracks.take hr₃ _ _).map hr₃ _)
  | branches => exact branches_tracks h
  | block =>
    rw [plan, outcome, Parser.outcome_block]
    exact (Tracks.take h _ _).andThen h fun _ hr => (Tracks.inner (q := statements) hr rfl).map hr _
  | statements =>
    rw [plan, outcome, Parser.outcome_statements, h.atEnd]
    refine .ite_pass h (.done · _) ?_
    split
    · exact .wanted h _
    · exact (Tracks.inner (q := statement) h rfl).andThen h fun _ hr =>
        (Tracks.inner (q := statements) hr rfl).map hr _
  | statement =>
    rw [plan, outcome, Parser.outcome_statement]
    refine .ite h (fun hts => ?_) (.ite h (fun _ => .inner (q := declaration) h rfl)
      ((Tracks.inner (q := expression) h rfl).andThen h fun _ hr => (Tracks.take hr _ _).map hr _))
    subst hts
    rw [h.token]
    exact .pass h ((Tracks.inner (q := expression) h.pass rfl).andThen h.pass fun _ hr =>
      (Tracks.take hr _ _).map hr _)
  | declaration =>
    rw [plan, outcome, Parser.outcome_declaration]
    refine (Tracks.inner (q := typeSpec) h rfl).andThen h fun _ hr₁ =>
      (Tracks.takeName hr₁).andThen hr₁ fun _ hr₂ =>
        .ite_pass hr₂ (fun hpass => ?_) ((Tracks.inner (q := initializer) hr₂ rfl).map hr₂ _)
    exact (Tracks.inner (q := params) hpass rfl).andThen hpass fun _ hr₃ =>
      (Tracks.inner (q := block) hr₃ rfl).map hr₃ _
  | initializer =>
    rw [plan, outcome, Parser.outcome_initializer]
    refine .ite_pass h (fun hpass => ?_) ((Tracks.take h _ _).map h _)
    exact (Tracks.inner (q := expression) hpass rfl).andThen hpass fun _ hr =>
      (Tracks.take hr _ _).map hr _
  | uniform mark => exact uniform_tracks h (hdepth rfl)
  | directive mark =>
    rw [plan, outcome, Parser.outcome_directive]
    exact (Tracks.takeName h).andThen h fun _ hr₁ => (Tracks.take hr₁ _ _).andThen hr₁ fun _ hr₂ =>
      (Tracks.take hr₂ _ _).andThen hr₂ fun _ hr₃ => (Tracks.take hr₃ _ _).map hr₃ _
  | drawCall command mark => exact drawCall_tracks h (hdepth rfl)
  | topLevel => exact topLevel_tracks h (hdepth rfl)
  | script => exact script_tracks h (hdepth rfl)

theorem agrees {α : Type} (q : Routine α) (m : Machine) : q.Agrees m := by
  intro ts h hdepth
  have hplan := plan_tracks q h hdepth fun {β q' m'} hcall =>
    have hlt := (descends_of_calls h.inside hcall).measure_lt
    agrees q' m'
  exact ⟨by rw [Plan.eval_ask, run_eq_eval, hplan.eval_eq], hplan.suffix, hplan.cause⟩
termination_by q.measure m
decreasing_by exact hlt

theorem run_eq_outcome (q : Routine α) {m : Machine} {ts : List Token} (h : m.At ts)
    (hdepth : q.isOuter = true → m.depth = 0) :
    q.run m = some ((q.outcome m.stop m.left ts).answer, m.movedTo (q.outcome m.stop m.left ts).rest) :=
  (Plan.eval_ask m q).symm.trans (q.agrees m ts h hdepth).eval_eq

end Routine

end DrawScript
