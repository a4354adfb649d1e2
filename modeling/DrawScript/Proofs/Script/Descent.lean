import DrawScript.Proofs.Script.Machine

/-!
What the routines of the machine call is less than they are. A routine never moves the cursor back nor
past the last token, and where it succeeds it has passed a token, but for three routines that go on with
what may be there or not. So a call starts at a later token than its caller, or one level of nesting
further down, or it binds tighter, and these three make a measure that falls with every call. The routines
therefore answer, without a limit to their calls.
-/

namespace DrawScript

open DrawScript.Parser (levels maxDepth callee? misuse? unaryOperator?)

namespace Machine

def remaining (m : Machine) : Nat := m.tokens.size - m.cursor

def left (m : Machine) : Nat := maxDepth - m.depth

theorem left_eq_succ {m : Machine} (h : m.depth < maxDepth) : m.left = m.deeper.left + 1 := by
  change maxDepth - m.depth = maxDepth - (m.depth + 1) + 1
  omega

/-- The machine moves on by `n` tokens at least and not past the last one, and nothing else changes. -/
inductive Reaches (m : Machine) (n : Nat) : Machine → Prop
  | mk {c : Nat} (forward : m.cursor + n ≤ c) (inside : c ≤ m.tokens.size) :
      Reaches m n { m with cursor := c }

namespace Reaches

variable {m m₁ m₂ : Machine} {n a b : Nat}

theorem refl (h : m.cursor ≤ m.tokens.size) : m.Reaches 0 m := .mk (Nat.le_refl _) h

theorem mono (h : m.Reaches a m₁) (hn : n ≤ a) : m.Reaches n m₁ := by
  cases h with
  | mk forward inside => exact .mk (by omega) inside

theorem trans (h₁ : m.Reaches a m₁) (h₂ : m₁.Reaches b m₂) : m.Reaches (a + b) m₂ := by
  cases h₁ with
  | mk forward₁ inside₁ =>
    cases h₂ with
    | mk forward₂ inside₂ => exact .mk (by dsimp only at forward₂; omega) inside₂

theorem shallower (h : m.deeper.Reaches n m₁) : m.Reaches n m₁.shallower := by
  cases h with
  | mk forward inside => exact .mk forward inside

theorem pass (h : m.Reaches a m₁) (hnext : m₁.next? ≠ none) : m.Reaches 1 m₁.pass := by
  cases h with
  | mk forward inside =>
    rw [next?, ne_eq, Array.getElem?_eq_none_iff, Nat.not_le] at hnext
    dsimp only at hnext
    exact .mk (by dsimp only; omega) hnext

theorem pass_of_nextIs {kind : TokenKind} (h : m.Reaches a m₁) (hnext : m₁.nextIs kind = true) :
    m.Reaches 1 m₁.pass := by
  refine h.pass fun hnone => ?_
  rw [nextIs, hnone] at hnext
  cases hnext

theorem pass_of_nextKind? {α : Type} {f : TokenKind → Option α} {k : α} (h : m.Reaches a m₁)
    (hnext : m₁.nextKind? f = some k) : m.Reaches 1 m₁.pass := by
  refine h.pass fun hnone => ?_
  rw [nextKind?, hnone] at hnext
  cases hnext

theorem skip (h : m.Reaches 1 m₁) (kind : TokenKind) : m.Reaches 1 (m₁.skip kind) := by
  unfold Machine.skip
  split
  next hnext => exact h.pass_of_nextIs hnext
  next => exact h

theorem skipListMark (h : m.Reaches 1 m₁) : m.Reaches 1 m₁.skipListMark.2 := by
  unfold Machine.skipListMark
  split
  next hmark => exact (h.pass_of_nextIs hmark.1).pass_of_nextIs hmark.2
  next => exact h

end Reaches

end Machine

namespace Routine

section

variable {α : Type}

def least : Routine α → Nat
  | .binaryRest _ _ _ | .suffixes _ _ | .script => 0
  | _ => 1

def Answers (q : Routine α) (m : Machine) : Prop :=
  ∃ x m', q.run m = some (x, m') ∧ m.Reaches 0 m' ∧ ∀ v, x = .ok v → m.Reaches q.least m'

/-- How loosely a routine binds. Of two routines that start at the same token, the one that calls the
other binds looser; the loops bind loosest. -/
def rank : Routine α → Nat
  | .typeSpec | .atom | .block | .initializer | .directive _ | .drawCall _ _ => 0
  | .param | .operand | .declaration | .uniform _ => 1
  | .unary | .topLevel => 2
  | .binary ls => ls.length + 3
  | .assignment => levels.length + 4
  | .expression => levels.length + 5
  | .group _ | .listOrRange _ | .statement => levels.length + 6
  | _ => levels.length + 7

theorem rank_of_loop? {q : Routine α} {l : Loop} (h : q.loop? = some l) : q.rank = levels.length + 7 := by
  cases q <;> cases h <;> rfl

def measure (q : Routine α) (m : Machine) : Nat × Nat × Nat := (m.remaining, m.left, q.rank)

end

inductive Descends : {α β : Type} → Routine α → Machine → Routine β → Machine → Prop
  | later {α β : Type} {q : Routine α} {q' : Routine β} {m m' : Machine} (htokens : m'.tokens = m.tokens)
      (hcursor : m.cursor < m'.cursor) (hinside : m'.cursor ≤ m.tokens.size) : Descends q m q' m'
  | deeper {m : Machine} (hdepth : m.depth < maxDepth) : Descends expression m assignment m.deeper
  | tighter {α β : Type} {q : Routine α} {q' : Routine β} {m : Machine} (hrank : q'.rank < q.rank) :
      Descends q m q' m

namespace Descends

variable {α β : Type} {q : Routine α} {q' : Routine β} {m m' : Machine}

theorem forward (h : q.Descends m q' m') (hm : m.cursor ≤ m.tokens.size) :
    m'.tokens = m.tokens ∧ m.cursor ≤ m'.cursor ∧ m'.cursor ≤ m'.tokens.size := by
  cases h with
  | later htokens hcursor hinside => exact ⟨htokens, Nat.le_of_lt hcursor, htokens ▸ hinside⟩
  | deeper => exact ⟨rfl, Nat.le_refl _, hm⟩
  | tighter => exact ⟨rfl, Nat.le_refl _, hm⟩

theorem measure_lt (h : q.Descends m q' m') :
    Prod.Lex (· < ·) (Prod.Lex (· < ·) (· < ·)) (q'.measure m') (q.measure m) := by
  cases h with
  | later htokens hcursor hinside =>
    refine .left _ _ ?_
    rw [Machine.remaining, Machine.remaining, htokens]
    omega
  | deeper hdepth =>
    refine .right _ (.left _ _ ?_)
    rw [Machine.left_eq_succ hdepth]
    exact Nat.lt_succ_self _
  | tighter hrank => exact .right _ (.right _ hrank)

/-- A loop goes round only at a later token, since all its routines bind alike. -/
theorem cursor_lt {l : Loop} (h : q.Descends m q' m') (hq : q.loop? = some l) (hq' : q'.loop? = some l) :
    m.cursor < m'.cursor := by
  cases h with
  | later _ hcursor _ => exact hcursor
  | deeper => cases hq
  | tighter hrank =>
    rw [rank_of_loop? hq, rank_of_loop? hq'] at hrank
    exact absurd hrank (Nat.lt_irrefl _)

end Descends

end Routine

namespace Plan

variable {α β γ : Type}

/-- Carried out by `q` at `m`, the plan answers, passes `n` tokens where it succeeds, and its calls
descend. -/
structure Advances (q : Routine γ) (m : Machine) (n : Nat) (p : Plan α) : Prop where
  answers : ∃ x m', p.eval = some (x, m') ∧ m.Reaches 0 m' ∧ ∀ v, x = .ok v → m.Reaches n m'
  descends : ∀ {β : Type} {q' : Routine β} {m' : Machine}, p.Calls q' m' → q.Descends m q' m'

namespace Advances

variable {q : Routine γ} {q' : Routine α} {m m₁ : Machine} {n a : Nat} {p A B : Plan α}

theorem done (h : m.Reaches n m₁) (v : α) : (done v m₁).Advances q m n :=
  ⟨⟨_, _, rfl, h.mono (Nat.zero_le n), fun _ _ => h⟩, fun hcall => by cases hcall⟩

theorem fail (h : m.Reaches a m₁) (e : CompileError) : (fail e m₁ : Plan α).Advances q m n :=
  ⟨⟨_, _, rfl, h.mono (Nat.zero_le a), fun _ hx => by cases hx⟩, fun hcall => by cases hcall⟩

theorem weaken (h : p.Advances q m 1) : p.Advances q m 0 := by
  obtain ⟨x, m', hx, hm', -⟩ := h.answers
  exact ⟨⟨x, m', hx, hm', fun _ _ => hm'⟩, h.descends⟩

theorem ite {kind : TokenKind} (h : m.Reaches a m₁) (hA : m.Reaches 1 m₁.pass → A.Advances q m n)
    (hB : B.Advances q m n) : (if m₁.nextIs kind then A else B).Advances q m n := by
  split
  next hnext => exact hA (h.pass_of_nextIs hnext)
  next => exact hB

theorem take (h : m.Reaches a m₁) (kind : TokenKind) (expected : String) :
    (take kind expected m₁).Advances q m 1 :=
  .ite h (fun hpass => .done hpass _) (.fail h _)

theorem takeName (h : m.Reaches a m₁) : (takeName m₁).Advances q m 1 := by
  unfold Plan.takeName
  split
  next hname =>
    refine .done (h.pass fun hnone => ?_) _
    rw [Machine.nextIsName, hnone] at hname
    cases hname
  next => exact .fail h _

theorem andThen {k : α → Machine → Plan β} (hp : p.Advances q m a)
    (hk : ∀ v {m₁}, m.Reaches a m₁ → (k v m₁).Advances q m n) : (p.andThen k).Advances q m n := by
  obtain ⟨x, m₁, hx, hm₁, hok⟩ := hp.answers
  constructor
  · cases x with
    | ok v =>
      rw [eval_andThen_of_ok hx]
      exact (hk v (hok v rfl)).answers
    | error e =>
      rw [eval_andThen_of_error hx]
      exact ⟨_, _, rfl, hm₁, fun _ hv => by cases hv⟩
  · intro _ _ _ hcall
    obtain hcall | ⟨v, m₂, hv, hcall⟩ := calls_andThen hcall
    · exact hp.descends hcall
    · rw [hx] at hv
      cases hv
      exact (hk v (hok v rfl)).descends hcall

theorem map (hp : p.Advances q m n) (f : α → β) :
    (p.andThen fun v m => Plan.done (f v) m).Advances q m n :=
  hp.andThen fun _ _ h => .done h _

theorem ask (h : m.Reaches a m₁) (hd : q.Descends m q' m₁) (hq' : q'.Answers m₁)
    (hn : n ≤ a + q'.least) : (m₁.ask q').Advances q m n := by
  obtain ⟨x, m', hx, hm', hok⟩ := hq'
  refine ⟨⟨x, m', by rw [eval_ask, hx], (h.trans hm').mono (Nat.zero_le _),
    fun v hv => (h.trans (hok v hv)).mono hn⟩, fun hcall => ?_⟩
  cases hcall with
  | here => exact hd
  | later _ hcall => cases hcall

theorem nested (h : m.Reaches a m₁)
    (hd : m₁.depth < maxDepth → q.Descends m q' m₁.deeper ∧ q'.Answers m₁.deeper)
    (hn : n ≤ a + q'.least) : (nested m₁ q').Advances q m n := by
  unfold Plan.nested
  split
  next => exact .fail h _
  next hdepth =>
    obtain ⟨hdesc, x, m', hx, hm', hok⟩ := hd (Nat.not_le.mp hdepth)
    refine ⟨⟨x, m'.shallower, eval_leave ((eval_ask _ _).trans hx),
      (h.trans hm'.shallower).mono (Nat.zero_le _),
      fun v hv => (h.trans (hok v hv).shallower).mono hn⟩, fun hcall => ?_⟩
    cases calls_leave.mp hcall with
    | here => exact hdesc
    | later _ hcall => cases hcall

end Advances

end Plan

namespace Routine

open Plan (Advances)

structure Starts {γ : Type} (q : Routine γ) (m : Machine) : Prop where
  inside : m.Reaches 0 m
  answers : ∀ {β : Type} {q' : Routine β} {m' : Machine}, q.Descends m q' m' → q'.Answers m'

namespace Starts

variable {α γ : Type} {q : Routine γ} {m m₁ : Machine}

theorem later (s : q.Starts m) {q' : Routine α} (h : m.Reaches 1 m₁) : (m₁.ask q').Advances q m 1 := by
  have hdesc : q.Descends m q' m₁ := by
    cases h with
    | mk forward inside => exact .later rfl forward inside
  exact .ask h hdesc (s.answers hdesc) (Nat.le_add_right 1 _)

theorem tighter (s : q.Starts m) (q' : Routine α) (hrank : q'.rank < q.rank) :
    (m.ask q').Advances q m q'.least :=
  .ask s.inside (.tighter hrank) (s.answers (.tighter hrank)) (Nat.le_add_left _ 0)

end Starts

section

variable {m : Machine}

theorem typeSpec_advances (s : typeSpec.Starts m) : (typeSpec.plan m).Advances typeSpec m 1 := by
  refine (Advances.take s.inside _ _).andThen fun t _ h₁ => ?_
  cases BaseType.ofText? t.text with
  | none => exact .fail h₁ _
  | some base => exact .done h₁.skipListMark _

theorem binaryRest_advances {l : Parser.Level} {ls : List Parser.Level} {left : Expr}
    (s : (binaryRest l ls left).Starts m) :
    ((binaryRest l ls left).plan m).Advances (binaryRest l ls left) m 0 := by
  rw [plan]
  cases hop : m.nextKind? l.operator? with
  | none => exact .done s.inside _
  | some op =>
    have hpass := s.inside.pass_of_nextKind? hop
    exact .weaken ((s.later hpass).andThen fun _ _ h₁ => s.later h₁)

theorem unary_advances (s : unary.Starts m) : (unary.plan m).Advances unary m 1 := by
  rw [plan]
  cases hop : m.nextKind? unaryOperator? with
  | none => exact s.tighter operand (Nat.lt_succ_self _)
  | some op =>
    have hpass := s.inside.pass_of_nextKind? hop
    have hdesc : unary.Descends m unary m.pass.deeper := by
      cases hpass with
      | mk forward inside => exact .later rfl forward inside
    exact (Advances.nested hpass (fun _ => ⟨hdesc, s.answers hdesc⟩) (Nat.le_add_right 1 _)).map _

theorem suffixes_advances {callable : Bool} {e : Expr} (s : (suffixes callable e).Starts m) :
    ((suffixes callable e).plan m).Advances (suffixes callable e) m 0 := by
  rw [plan]
  cases hkind : m.nextKind? some with
  | none => exact .done s.inside _
  | some kind =>
    have hpass := s.inside.pass_of_nextKind? hkind
    cases kind
    case dot => exact .weaken ((Advances.takeName hpass).andThen fun _ _ h₁ => s.later h₁)
    case leftBracket =>
      exact .weaken ((s.later hpass).andThen fun _ _ h₁ =>
        (Advances.take h₁ _ _).andThen fun _ _ h₂ => s.later h₂)
    case leftParen =>
      dsimp only
      cases callee? callable e with
      | none => exact .fail s.inside _
      | some name => exact .weaken ((s.later hpass).andThen fun _ _ h₁ => s.later h₁)
    all_goals exact .done s.inside _

theorem atom_advances (s : atom.Starts m) : (atom.plan m).Advances atom m 1 := by
  rw [plan]
  cases hkind : m.nextKind? some with
  | none => exact .fail s.inside _
  | some kind =>
    have hpass := s.inside.pass_of_nextKind? hkind
    cases kind
    case text => exact .done hpass _
    case builtin => exact .done hpass _
    case dollar => exact (Advances.takeName hpass).map _
    case keyword k =>
      cases k
      case loop =>
        exact (Advances.take hpass _ _).andThen fun _ _ h₁ => (s.later h₁).andThen fun _ _ h₂ =>
          (s.later h₂).map _
      case cases => exact (Advances.take hpass _ _).andThen fun _ _ h₁ => (s.later h₁).map _
      all_goals exact .fail s.inside _
    case leftParen => exact s.later hpass
    case leftBracket => exact s.later hpass
    all_goals exact .fail s.inside _

theorem topLevel_advances (s : topLevel.Starts m) : (topLevel.plan m).Advances topLevel m 1 := by
  rw [plan]
  cases hkind : m.nextKind? some with
  | none => exact .fail s.inside _
  | some kind =>
    have hpass := s.inside.pass_of_nextKind? hkind
    cases kind
    case keyword k =>
      cases k
      case uniform => exact s.later hpass
      all_goals exact .fail s.inside _
    case type =>
      refine (s.tighter declaration (Nat.lt_succ_self _)).andThen fun v _ h₁ => ?_
      cases misuse? v with
      | none => exact .done h₁ _
      | some e => exact .fail h₁ _
    case dollar => exact s.later hpass
    case draw =>
      dsimp only
      cases DrawCommand.ofText? m.token.text with
      | none => exact .fail hpass _
      | some command => exact s.later hpass
    all_goals exact .fail s.inside _

theorem plan_advances {α : Type} {q : Routine α} (s : q.Starts m) : (q.plan m).Advances q m q.least := by
  have h := s.inside
  cases q with
  | typeSpec => exact typeSpec_advances s
  | param =>
    exact (s.tighter typeSpec (Nat.lt_succ_self _)).andThen fun _ _ h₁ => (Advances.takeName h₁).map _
  | params =>
    refine .ite h (fun hpass => .done hpass _) ?_
    exact (s.tighter param (by decide)).andThen fun _ _ h₁ => (s.later h₁).map _
  | moreParams =>
    refine .ite h (fun hpass => ?_) ((Advances.take h _ _).map _)
    exact (s.later hpass).andThen fun _ _ h₁ => (s.later h₁).map _
  | expression =>
    -- No token is passed before this call, and the level of nesting is what makes it less.
    refine .nested h (fun hdepth => ?_) (Nat.le_refl 1)
    exact ⟨.deeper hdepth, s.answers (.deeper hdepth)⟩
  | assignment =>
    refine (s.tighter (binary levels) (Nat.lt_succ_self _)).andThen fun _ _ h₁ => ?_
    exact .ite h₁ (fun hpass => (s.later hpass).map _) (.done h₁ _)
  | binary ls =>
    cases ls with
    | nil => exact s.tighter unary (Nat.lt_succ_self _)
    | cons l ls => exact (s.tighter (binary ls) (Nat.lt_succ_self _)).andThen fun _ _ h₁ => s.later h₁
  | binaryRest l ls left => exact binaryRest_advances s
  | unary => exact unary_advances s
  | operand => exact (s.tighter atom (Nat.lt_succ_self _)).andThen fun _ _ h₁ => s.later h₁
  | suffixes callable e => exact suffixes_advances s
  | arguments =>
    refine .ite h (fun hpass => .done hpass _) ?_
    exact (s.tighter expression (by decide)).andThen fun _ _ h₁ => (s.later h₁).map _
  | moreArguments =>
    refine .ite h (fun hpass => ?_) ((Advances.take h _ _).map _)
    exact (s.later hpass).andThen fun _ _ h₁ => (s.later h₁).map _
  | moreElements =>
    refine .ite h (fun hpass => ?_) ((Advances.take h _ _).map _)
    refine .ite hpass (fun hpass₁ => .done hpass₁ _) ?_
    exact (s.later hpass).andThen fun _ _ h₁ => (s.later h₁).map _
  | atom => exact atom_advances s
  | group mark =>
    refine .ite h (fun hpass => .done hpass _) ?_
    refine (s.tighter expression (Nat.lt_succ_self _)).andThen fun _ _ h₁ => ?_
    -- The comma is only looked at here; the routine that reads on passes it.
    exact .ite h₁ (fun _ => (s.later h₁).map _) ((Advances.take h₁ _ _).map _)
  | listOrRange mark =>
    refine .ite h (fun hpass => .done hpass _) ?_
    refine (s.tighter expression (Nat.lt_succ_self _)).andThen fun _ _ h₁ => ?_
    refine .ite h₁ (fun hpass => ?_) ((s.later h₁).map _)
    exact (s.later hpass).andThen fun _ _ h₂ => (Advances.take h₂ _ _).map _
  | iterators =>
    refine (Advances.takeName h).andThen fun _ _ h₁ => (Advances.take h₁ _ _).andThen fun _ _ h₂ =>
      (s.later h₂).andThen fun _ _ h₃ => ?_
    exact .ite h₃ (fun hpass => (s.later hpass).map _) ((Advances.take h₃ _ _).map _)
  | branches =>
    refine .ite h (fun hpass => .done hpass _) ?_
    refine (s.tighter expression (by decide)).andThen fun _ _ h₁ => ?_
    refine .ite h₁ (fun hpass => ?_) ((Advances.take (h₁.skip .comma) _ _).map _)
    exact (s.later hpass).andThen fun _ _ h₂ => (s.later (h₂.skip .comma)).map _
  | block => exact (Advances.take h _ _).andThen fun _ _ h₁ => (s.later h₁).map _
  | statements =>
    refine .ite h (fun hpass => .done hpass _) ?_
    split
    · exact .fail h _
    -- Nothing separates statements, so a round has passed a token only because a statement has.
    · exact (s.tighter statement (Nat.lt_succ_self _)).andThen fun _ _ h₁ => (s.later h₁).map _
  | statement =>
    refine .ite h (fun hpass => ?_) (.ite h (fun _ => ?_) ?_)
    · exact (s.later hpass).andThen fun _ _ h₁ => (Advances.take h₁ _ _).map _
    · exact s.tighter declaration (by decide)
    · exact (s.tighter expression (Nat.lt_succ_self _)).andThen fun _ _ h₁ =>
        (Advances.take h₁ _ _).map _
  | declaration =>
    refine (s.tighter typeSpec (Nat.lt_succ_self _)).andThen fun _ _ h₁ =>
      (Advances.takeName h₁).andThen fun _ _ h₂ => .ite h₂ (fun hpass => ?_) ((s.later h₂).map _)
    exact (s.later hpass).andThen fun _ _ h₃ => (s.later h₃).map _
  | initializer =>
    refine .ite h (fun hpass => ?_) ((Advances.take h _ _).map _)
    exact (s.later hpass).andThen fun _ _ h₁ => (Advances.take h₁ _ _).map _
  | uniform mark =>
    refine (s.tighter typeSpec (Nat.lt_succ_self _)).andThen fun _ _ h₁ =>
      (Advances.takeName h₁).andThen fun _ _ h₂ => ?_
    split
    · exact .fail h₂ _
    · exact (s.later h₂).map _
  | directive mark =>
    exact (Advances.takeName h).andThen fun _ _ h₁ => (Advances.take h₁ _ _).andThen fun _ _ h₂ =>
      (Advances.take h₂ _ _).andThen fun _ _ h₃ => (Advances.take h₃ _ _).map _
  | drawCall command mark =>
    exact (Advances.take h _ _).andThen fun _ _ h₁ =>
      (s.later h₁).andThen fun _ _ h₂ => .done (h₂.skip .semicolon) _
  | topLevel => exact topLevel_advances s
  | script =>
    rw [plan]
    split
    · exact .done h _
    · refine .ite h (fun hpass => .weaken (s.later hpass)) (.weaken ?_)
      exact (s.tighter topLevel (by decide)).andThen fun _ _ h₁ => (s.later h₁).map _

end

section

variable {α β : Type}

/-- By induction on the measure: what a routine calls descends from it. -/
theorem answers_of_inside {α : Type} (q : Routine α) (m : Machine) (hm : m.cursor ≤ m.tokens.size) :
    q.Answers m := by
  have s : q.Starts m :=
    ⟨.refl hm, fun {_ q' m'} hd => answers_of_inside q' m' (hd.forward hm).2.2⟩
  rw [Answers, run_eq_eval]
  exact (plan_advances s).answers
termination_by q.measure m
decreasing_by exact hd.measure_lt

theorem starts_of_inside (q : Routine α) {m : Machine} (hm : m.cursor ≤ m.tokens.size) : q.Starts m :=
  ⟨.refl hm, fun hd => answers_of_inside _ _ (hd.forward hm).2.2⟩

theorem descends_of_calls {q : Routine α} {q' : Routine β} {m m' : Machine}
    (hm : m.cursor ≤ m.tokens.size) (h : (q.plan m).Calls q' m') : q.Descends m q' m' :=
  (plan_advances (q.starts_of_inside hm)).descends h

theorem Rounds.forward {l : Loop} {q q' : Routine α} {m m' : Machine} {k : Nat}
    (h : q.Rounds l m k q' m') (hm : m.cursor ≤ m.tokens.size) :
    m'.tokens = m.tokens ∧ m.cursor + k ≤ m'.cursor ∧ m'.cursor ≤ m'.tokens.size := by
  induction h with
  | start => exact ⟨rfl, Nat.le_refl _, hm⟩
  | again h hcall hq ih =>
    obtain ⟨htokens, hforward, hinside⟩ := ih
    have hdesc := descends_of_calls hinside hcall
    have hlt := hdesc.cursor_lt h.loop?_eq hq
    obtain ⟨htokens', -, hinside'⟩ := hdesc.forward hinside
    exact ⟨htokens'.trans htokens, by omega, hinside'⟩

end

end Routine

end DrawScript
