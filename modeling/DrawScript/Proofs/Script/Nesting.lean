import DrawScript.Proofs.Script.Nodes
import DrawScript.Proofs.Script.RoundTrip
import Mathlib.Data.List.Basic

/-!
The nesting of scripts that are read. Every step of the parser spends a level where it enters an
expression, so what it returns nests at most as many levels as it was given, and a script nests at
most 64 levels. The body of a loop stands in an expression and counts as nesting; the body of a
function stands in a statement and does not. So the loops on a path are bounded, and the blocks are
bounded by the functions on it and by nothing else.
-/

namespace DrawScript

theorem le_deepen (place rank n : Nat) : n ≤ deepen place rank n := by
  unfold deepen
  split <;> omega

theorem deepen_of_le {place rank : Nat} (h : place ≤ rank) (n : Nat) : deepen place rank n = n :=
  if_neg (Nat.not_lt.mpr h)

theorem deepen_le_of_lt {n depth : Nat} (place rank : Nat) (h : n < depth) :
    deepen place rank n ≤ depth := by
  unfold deepen
  split <;> omega

theorem deepen_mono {place place' : Nat} (h : place ≤ place') (rank n : Nat) :
    deepen place rank n ≤ deepen place' rank n := by
  unfold deepen
  split <;> split <;> omega

theorem exprNesting_cons_le {e : Expr} {es : List Expr} {depth : Nat} (he : e.nesting < depth)
    (hes : exprNesting es ≤ depth) : exprNesting (e :: es) ≤ depth :=
  Nat.max_le.mpr ⟨he, hes⟩

namespace Parser

variable {stop : Span} {depth : Nat} {ts rest : List Token}

/-- An expression fits where an operand of the given rank has to stand and so many levels are left. -/
def Fits (place depth : Nat) (e : Expr) : Prop := deepen place e.rank e.nesting ≤ depth

theorem Fits.mono {place place' : Nat} {e : Expr} (h : Fits place' depth e) (hle : place ≤ place') :
    Fits place depth e :=
  Nat.le_trans (deepen_mono hle e.rank e.nesting) h

theorem Fits.of_lt {e : Expr} (place : Nat) (h : e.nesting < depth) : Fits place depth e :=
  deepen_le_of_lt place e.rank h

theorem Fits.of_rank {place : Nat} {e : Expr} (hrank : place ≤ e.rank) (h : e.nesting ≤ depth) :
    Fits place depth e := by
  unfold Fits
  rwa [deepen_of_le hrank]

theorem Fits.nesting_le {place : Nat} {e : Expr} (h : Fits place depth e) : e.nesting ≤ depth :=
  Nat.le_trans (le_deepen place e.rank e.nesting) h

structure NestsBelow (stop : Span) (n : Nat) : Prop where
  expression : ∀ {depth : Nat} {ts rest : List Token} {e : Expr}, ts.length < n →
    (expression stop depth ts).outcome = .ok (e, rest) → e.nesting < depth
  block : ∀ {depth : Nat} {ts rest : List Token} {b : Block}, ts.length < n →
    (block stop depth ts).outcome = .ok (b, rest) → b.nesting ≤ depth

section

variable {n : Nat} (ih : NestsBelow stop n)
include ih

theorem moreArguments_nesting {ts : List Token} {es : List Expr} (hn : ts.length ≤ n)
    (h : (moreArguments stop depth ts).outcome = .ok (es, rest)) : exprNesting es ≤ depth := by
  rw [outcome_moreArguments] at h
  split at h
  next hcomma =>
    simp only [Outcome.andThen_eq_ok] at h
    obtain ⟨e, ts₁, h₁, es', ts₂, h₂, h⟩ := h
    cases h
    have htail := length_tail_of_nextIs hcomma
    have hlt := Step.lt_of_outcome h₁
    exact exprNesting_cons_le (ih.expression (by omega) h₁) (moreArguments_nesting (by omega) h₂)
  next =>
    rw [Outcome.andThen_eq_ok] at h
    obtain ⟨r, ts₁, h₁, h⟩ := h
    cases h
    exact Nat.zero_le depth
termination_by ts.length
decreasing_by omega

theorem arguments_nesting {es : List Expr} (hn : ts.length < n)
    (h : (arguments stop depth ts).outcome = .ok (es, rest)) : exprNesting es ≤ depth := by
  rw [outcome_arguments] at h
  split at h
  next =>
    cases h
    exact Nat.zero_le depth
  next =>
    simp only [Outcome.andThen_eq_ok] at h
    obtain ⟨e, ts₁, h₁, es', ts₂, h₂, h⟩ := h
    cases h
    have hlt := Step.lt_of_outcome h₁
    exact exprNesting_cons_le (ih.expression hn h₁) (moreArguments_nesting ih (by omega) h₂)

theorem moreElements_nesting {ts : List Token} {es : List Expr} (hn : ts.length ≤ n)
    (h : (moreElements stop depth ts).outcome = .ok (es, rest)) : exprNesting es ≤ depth := by
  rw [outcome_moreElements] at h
  split at h
  next hcomma =>
    split at h
    next =>
      cases h
      exact Nat.zero_le depth
    next =>
      simp only [Outcome.andThen_eq_ok] at h
      obtain ⟨e, ts₁, h₁, es', ts₂, h₂, h⟩ := h
      cases h
      have htail := length_tail_of_nextIs hcomma
      have hlt := Step.lt_of_outcome h₁
      exact exprNesting_cons_le (ih.expression (by omega) h₁) (moreElements_nesting (by omega) h₂)
  next =>
    rw [Outcome.andThen_eq_ok] at h
    obtain ⟨r, ts₁, h₁, h⟩ := h
    cases h
    exact Nat.zero_le depth
termination_by ts.length
decreasing_by omega

theorem group_fits {mark : Span} {e : Expr} (hn : ts.length < n)
    (h : (group stop depth mark ts).outcome = .ok (e, rest)) : Fits 7 depth e := by
  rw [outcome_group] at h
  split at h
  next =>
    cases h
    exact .of_rank (Nat.le_refl 7) (Nat.zero_le depth)
  next =>
    rw [Outcome.andThen_eq_ok] at h
    obtain ⟨first, ts₁, h₁, h⟩ := h
    have hlt := Step.lt_of_outcome h₁
    have hfirst := ih.expression hn h₁
    split at h
    next =>
      rw [Outcome.andThen_eq_ok] at h
      obtain ⟨es, ts₂, h₂, h⟩ := h
      cases h
      have hes := moreArguments_nesting ih (by omega) h₂
      exact .of_rank (Nat.le_refl 7) (exprNesting_cons_le hfirst hes)
    next =>
      rw [Outcome.andThen_eq_ok] at h
      obtain ⟨r, ts₂, h₂, h⟩ := h
      cases h
      exact .of_lt 7 hfirst

theorem listOrRange_fits {mark : Span} {e : Expr} (hn : ts.length < n)
    (h : (listOrRange stop depth mark ts).outcome = .ok (e, rest)) : Fits 7 depth e := by
  rw [outcome_listOrRange] at h
  split at h
  next =>
    cases h
    exact .of_rank (Nat.le_refl 7) (Nat.zero_le depth)
  next =>
    rw [Outcome.andThen_eq_ok] at h
    obtain ⟨first, ts₁, h₁, h⟩ := h
    have hlt := Step.lt_of_outcome h₁
    have hfirst := ih.expression hn h₁
    split at h
    next hdots =>
      have htail := length_tail_of_nextIs hdots
      simp only [Outcome.andThen_eq_ok] at h
      obtain ⟨last, ts₂, h₂, r, ts₃, h₃, h⟩ := h
      cases h
      exact .of_rank (Nat.le_refl 7) (Nat.max_le.mpr ⟨hfirst, ih.expression (by omega) h₂⟩)
    next =>
      rw [Outcome.andThen_eq_ok] at h
      obtain ⟨es, ts₂, h₂, h⟩ := h
      cases h
      have hes := moreElements_nesting ih (by omega) h₂
      exact .of_rank (Nat.le_refl 7) (exprNesting_cons_le hfirst hes)

theorem iterators_nesting {ts : List Token} {its : List Iterator} (hn : ts.length < n)
    (h : (iterators stop depth ts).outcome = .ok (its, rest)) : iteratorNesting its ≤ depth := by
  rw [outcome_iterators] at h
  simp only [Outcome.andThen_eq_ok] at h
  obtain ⟨m, ts₁, h₁, c, ts₂, h₂, range, ts₃, h₃, h⟩ := h
  have hlt₁ := Step.lt_of_outcome h₁
  have hlt₂ := Step.lt_of_outcome h₂
  have hlt₃ := Step.lt_of_outcome h₃
  have hrange := ih.expression (by omega) h₃
  split at h
  next hcomma =>
    have htail := length_tail_of_nextIs hcomma
    rw [Outcome.andThen_eq_ok] at h
    obtain ⟨its', ts₄, h₄, h⟩ := h
    cases h
    exact Nat.max_le.mpr ⟨hrange, iterators_nesting (by omega) h₄⟩
  next =>
    rw [Outcome.andThen_eq_ok] at h
    obtain ⟨r, ts₄, h₄, h⟩ := h
    cases h
    exact Nat.max_le.mpr ⟨hrange, Nat.zero_le depth⟩
termination_by ts.length
decreasing_by omega

theorem branches_nesting {ts : List Token} {bs : List Branch} (hn : ts.length < n)
    (h : (branches stop depth ts).outcome = .ok (bs, rest)) : branchNesting bs ≤ depth := by
  rw [outcome_branches] at h
  split at h
  next =>
    cases h
    exact Nat.zero_le depth
  next =>
    rw [Outcome.andThen_eq_ok] at h
    obtain ⟨first, ts₁, h₁, h⟩ := h
    have hlt₁ := Step.lt_of_outcome h₁
    have hfirst := ih.expression hn h₁
    split at h
    next hcolon =>
      have htail := length_tail_of_nextIs hcolon
      simp only [Outcome.andThen_eq_ok] at h
      obtain ⟨result, ts₂, h₂, bs', ts₃, h₃, h⟩ := h
      cases h
      have hlt₂ := Step.lt_of_outcome h₂
      have hskip := length_skip_le .comma ts₂
      have hresult := ih.expression (by omega) h₂
      exact Nat.max_le.mpr ⟨hfirst, Nat.max_le.mpr ⟨hresult, branches_nesting (by omega) h₃⟩⟩
    next =>
      rw [Outcome.andThen_eq_ok] at h
      obtain ⟨r, ts₂, h₂, h⟩ := h
      cases h
      exact Nat.max_le.mpr ⟨hfirst, Nat.zero_le depth⟩
termination_by ts.length
decreasing_by omega

theorem atom_fits {e : Expr} (hn : ts.length ≤ n)
    (h : (atom stop depth ts).outcome = .ok (e, rest)) : Fits 7 depth e := by
  rw [outcome_atom] at h
  split at h
  next => cases h
  next t ts₁ =>
    have hlt : ts₁.length < n := hn
    split at h
    next =>
      cases h
      exact .of_rank (Nat.le_refl 7) (Nat.zero_le depth)
    next =>
      cases h
      exact .of_rank (Nat.le_refl 7) (Nat.zero_le depth)
    next =>
      rw [Outcome.andThen_eq_ok] at h
      obtain ⟨m, ts₂, h₁, h⟩ := h
      cases h
      exact .of_rank (Nat.le_refl 7) (Nat.zero_le depth)
    next =>
      simp only [Outcome.andThen_eq_ok] at h
      obtain ⟨l, ts₂, h₁, its, ts₃, h₂, body, ts₄, h₃, h⟩ := h
      cases h
      have hlt₁ := Step.lt_of_outcome h₁
      have hlt₂ := Step.lt_of_outcome h₂
      have hits := iterators_nesting ih (by omega) h₂
      exact .of_rank (Nat.le_refl 7) (Nat.max_le.mpr ⟨hits, ih.block (by omega) h₃⟩)
    next =>
      simp only [Outcome.andThen_eq_ok] at h
      obtain ⟨l, ts₂, h₁, bs, ts₃, h₂, h⟩ := h
      cases h
      have hlt₁ := Step.lt_of_outcome h₁
      exact .of_rank (Nat.le_refl 7) (branches_nesting ih (by omega) h₂)
    next => exact group_fits ih hlt h
    next => exact listOrRange_fits ih hlt h
    next => cases h

theorem suffixes_fits {callable : Bool} {e₀ e : Expr} {ts : List Token} (hn : ts.length ≤ n)
    (he₀ : Fits 7 depth e₀) (h : (suffixes stop depth callable e₀ ts).outcome = .ok (e, rest)) :
    Fits 7 depth e := by
  rw [outcome_suffixes] at h
  split at h
  next =>
    cases h
    exact he₀
  next t ts₁ =>
    have hlt : ts₁.length < n := hn
    split at h
    next =>
      rw [Outcome.andThen_eq_ok] at h
      obtain ⟨m, ts₂, h₁, h⟩ := h
      have hlt₁ := Step.lt_of_outcome h₁
      have hmember : Fits 7 depth (.member e₀ m.text t.span) := .of_rank (Nat.le_refl 7) he₀
      exact suffixes_fits (by omega) hmember h
    next =>
      simp only [Outcome.andThen_eq_ok] at h
      obtain ⟨subscript, ts₂, h₁, r, ts₃, h₂, h⟩ := h
      have hlt₁ := Step.lt_of_outcome h₁
      have hlt₂ := Step.lt_of_outcome h₂
      have hindex : Fits 7 depth (.index e₀ subscript t.span) :=
        .of_rank (Nat.le_refl 7) (Nat.max_le.mpr ⟨he₀, ih.expression hlt h₁⟩)
      exact suffixes_fits (by omega) hindex h
    next =>
      split at h
      next => cases h
      next name _ =>
        rw [Outcome.andThen_eq_ok] at h
        obtain ⟨es, ts₂, h₁, h⟩ := h
        have hlt₁ := Step.lt_of_outcome h₁
        have hcall : Fits 7 depth (.call name es t.span) :=
          .of_rank (Nat.le_refl 7) (arguments_nesting ih hlt h₁)
        exact suffixes_fits (by omega) hcall h
    next =>
      cases h
      exact he₀
termination_by ts.length
decreasing_by all_goals grind

theorem operand_fits {e : Expr} (hn : ts.length ≤ n)
    (h : (operand stop depth ts).outcome = .ok (e, rest)) : Fits 7 depth e := by
  rw [outcome_operand, Outcome.andThen_eq_ok] at h
  obtain ⟨first, ts₁, h₁, h⟩ := h
  have hlt := Step.lt_of_outcome h₁
  exact suffixes_fits ih (by omega) (atom_fits ih hn h₁) h

theorem unary_fits {depth : Nat} {ts : List Token} {e : Expr} (hn : ts.length ≤ n)
    (h : (unary stop depth ts).outcome = .ok (e, rest)) : Fits 6 depth e := by
  rw [outcome_unary] at h
  split at h
  next => exact (operand_fits ih hn h).mono (by decide)
  next op hop =>
    obtain ⟨t, ts₁, rfl, -⟩ := exists_of_nextKind? hop
    cases depth with
    | zero => cases h
    | succ depth =>
      simp only [List.tail_cons, Outcome.andThen_eq_ok] at h
      obtain ⟨operand, ts₂, h₁, h⟩ := h
      cases h
      have hlt : ts₁.length < n := hn
      have hoperand := unary_fits (by omega) h₁
      exact .of_rank (Nat.le_refl 6) (Nat.succ_le_succ hoperand)
termination_by ts.length
decreasing_by grind

omit ih in
theorem binaryRest_fits {l : Level} {ls : List Level} {left e : Expr} {ts : List Token}
    (hn : ts.length ≤ n) (hls : rankOf ls = l.rank + 1)
    (hoperand : ∀ {ts rest : List Token} {e : Expr}, ts.length ≤ n →
      (binary stop depth ls ts).outcome = .ok (e, rest) → Fits (rankOf ls) depth e)
    (hleft : Fits l.rank depth left)
    (h : (binaryRest stop depth l ls left ts).outcome = .ok (e, rest)) : Fits l.rank depth e := by
  rw [outcome_binaryRest] at h
  split at h
  next =>
    cases h
    exact hleft
  next op hop =>
    obtain ⟨t, ts₁, rfl, ht⟩ := exists_of_nextKind? hop
    simp only [List.tail_cons, Outcome.andThen_eq_ok] at h
    obtain ⟨right, ts₂, h₁, h⟩ := h
    have hlt : ts₁.length < n := hn
    have hlt₁ := Step.lt_of_outcome h₁
    obtain ⟨-, hrank⟩ := Level.operator?_eq_some ht
    have hright := hoperand (by omega) h₁
    rw [hls] at hright
    have hbinary : Fits l.rank depth (.binary op left right t.span) := by
      rw [← hrank] at hleft hright ⊢
      exact .of_rank (Nat.le_refl _) (Nat.max_le.mpr ⟨hleft, hright⟩)
    exact binaryRest_fits (by omega) hls hoperand hbinary h
termination_by ts.length
decreasing_by grind

theorem binary_fits {ls : List Level} {ts rest : List Token} {e : Expr} (hls : Consecutive ls)
    (hn : ts.length ≤ n) (h : (binary stop depth ls ts).outcome = .ok (e, rest)) :
    Fits (rankOf ls) depth e := by
  induction ls generalizing ts rest e with
  | nil =>
    rw [outcome_binary_nil] at h
    exact unary_fits ih hn h
  | cons l ls ihls =>
    rw [outcome_binary_cons, Outcome.andThen_eq_ok] at h
    obtain ⟨left, ts₁, h₁, h⟩ := h
    have hlt := Step.lt_of_outcome h₁
    have hleft := ihls hls.2 hn h₁
    have hle : l.rank ≤ rankOf ls := by
      rw [hls.1]
      exact Nat.le_succ _
    exact binaryRest_fits (by omega) hls.1 (ihls hls.2) (hleft.mono hle) h

theorem expression_nesting {depth : Nat} {e : Expr} (hn : ts.length ≤ n)
    (h : (expression stop depth ts).outcome = .ok (e, rest)) : e.nesting < depth := by
  cases depth with
  | zero =>
    rw [outcome_expression_zero] at h
    cases h
  | succ depth =>
    rw [outcome_expression_succ, Outcome.andThen_eq_ok] at h
    obtain ⟨target, ts₁, h₁, h⟩ := h
    have hlt := Step.lt_of_outcome h₁
    have htarget : Fits 2 depth target := binary_fits ih consecutive_levels hn h₁
    split at h
    next hnext =>
      have htail := length_tail_of_nextIs hnext
      rw [Outcome.andThen_eq_ok] at h
      obtain ⟨value, ts₂, h₂, h⟩ := h
      cases h
      have hvalue := ih.expression (by omega) h₂
      exact Nat.lt_succ_of_le (Nat.max_le.mpr ⟨htarget, hvalue⟩)
    next =>
      cases h
      exact Nat.lt_succ_of_le htarget.nesting_le

theorem initializer_nesting {value : Option Expr} (hn : ts.length ≤ n)
    (h : (initializer stop depth ts).outcome = .ok (value, rest)) : valueNesting value ≤ depth := by
  rw [outcome_initializer] at h
  split at h
  next hequals =>
    have htail := length_tail_of_nextIs hequals
    simp only [Outcome.andThen_eq_ok] at h
    obtain ⟨e, ts₁, h₁, u, ts₂, h₂, h⟩ := h
    cases h
    exact ih.expression (by omega) h₁
  next =>
    rw [Outcome.andThen_eq_ok] at h
    obtain ⟨u, ts₁, h₁, h⟩ := h
    cases h
    exact Nat.zero_le depth

theorem declaration_nesting {s : Statement} (hn : ts.length ≤ n)
    (h : (declaration stop depth ts).outcome = .ok (s, rest)) : s.nesting ≤ depth := by
  simp only [outcome_declaration, Outcome.andThen_eq_ok] at h
  obtain ⟨type, ts₁, h₁, m, ts₂, h₂, h⟩ := h
  have hlt₁ := Step.lt_of_outcome h₁
  have hlt₂ := Step.lt_of_outcome h₂
  split at h
  next hparen =>
    have htail := length_tail_of_nextIs hparen
    simp only [Outcome.andThen_eq_ok] at h
    obtain ⟨ps, ts₃, h₃, body, ts₄, h₄, h⟩ := h
    cases h
    have hlt₃ := Step.lt_of_outcome h₃
    exact ih.block (by omega) h₄
  next =>
    rw [Outcome.andThen_eq_ok] at h
    obtain ⟨value, ts₃, h₃, h⟩ := h
    cases h
    exact initializer_nesting ih (by omega) h₃

theorem statement_nesting {s : Statement} (hn : ts.length < n)
    (h : (statement stop depth ts).outcome = .ok (s, rest)) : s.nesting ≤ depth := by
  rw [outcome_statement] at h
  split at h
  next hret =>
    have htail := length_tail_of_nextIs hret
    simp only [Outcome.andThen_eq_ok] at h
    obtain ⟨e, ts₁, h₁, u, ts₂, h₂, h⟩ := h
    cases h
    exact ih.expression (by omega) h₁
  next =>
    split at h
    next => exact declaration_nesting ih (by omega) h
    next =>
      simp only [Outcome.andThen_eq_ok] at h
      obtain ⟨e, ts₁, h₁, u, ts₂, h₂, h⟩ := h
      cases h
      exact ih.expression hn h₁

theorem statements_nesting {ts : List Token} {ss : List Statement} (hn : ts.length < n)
    (h : (statements stop depth ts).outcome = .ok (ss, rest)) : statementNesting ss ≤ depth := by
  rw [outcome_statements] at h
  split at h
  next =>
    cases h
    exact Nat.zero_le depth
  next =>
    split at h
    next => cases h
    next =>
      simp only [Outcome.andThen_eq_ok] at h
      obtain ⟨s, ts₁, h₁, ss', ts₂, h₂, h⟩ := h
      cases h
      have hlt := Step.lt_of_outcome h₁
      exact Nat.max_le.mpr ⟨statement_nesting ih hn h₁, statements_nesting (by omega) h₂⟩
termination_by ts.length
decreasing_by omega

theorem block_nesting {b : Block} (hn : ts.length ≤ n)
    (h : (block stop depth ts).outcome = .ok (b, rest)) : b.nesting ≤ depth := by
  simp only [outcome_block, Outcome.andThen_eq_ok] at h
  obtain ⟨l, ts₁, h₁, body, ts₂, h₂, h⟩ := h
  cases h
  have hlt := Step.lt_of_outcome h₁
  exact statements_nesting ih (by omega) h₂

end

theorem nestsBelow (stop : Span) (n : Nat) : NestsBelow stop n := by
  induction n with
  | zero => exact ⟨fun hn _ => absurd hn (Nat.not_lt_zero _), fun hn _ => absurd hn (Nat.not_lt_zero _)⟩
  | succ n ih =>
    exact ⟨fun hn h => expression_nesting ih (Nat.le_of_lt_succ hn) h,
      fun hn h => block_nesting ih (Nat.le_of_lt_succ hn) h⟩

theorem topLevel_nesting {s : Statement} (h : (topLevel stop ts).outcome = .ok (s, rest)) :
    s.nesting ≤ maxDepth := by
  have ih := nestsBelow stop (ts.length + 1)
  rw [outcome_topLevel] at h
  split at h
  next => cases h
  next t ts₁ =>
    rw [List.length_cons] at ih
    split at h
    next =>
      simp only [outcome_uniform, Outcome.andThen_eq_ok] at h
      obtain ⟨type, ts₂, h₁, m, ts₃, h₂, h⟩ := h
      have hlt₁ := Step.lt_of_outcome h₁
      have hlt₂ := Step.lt_of_outcome h₂
      split at h
      next => cases h
      next =>
        rw [Outcome.andThen_eq_ok] at h
        obtain ⟨value, ts₄, h₃, h⟩ := h
        cases h
        exact initializer_nesting ih (by omega) h₃
    next =>
      rw [Outcome.andThen_eq_ok] at h
      obtain ⟨s', ts₂, h₁, h⟩ := h
      have hs' := declaration_nesting ih (Nat.le_succ _) h₁
      split at h
      next => cases h
      next =>
        cases h
        exact hs'
    next =>
      simp only [outcome_directive, Outcome.andThen_eq_ok] at h
      obtain ⟨m, ts₂, h₁, c, ts₃, h₂, v, ts₄, h₃, u, ts₅, h₄, h⟩ := h
      cases h
      exact Nat.zero_le maxDepth
    next =>
      split at h
      next => cases h
      next command hcommand =>
        simp only [outcome_drawCall, Outcome.andThen_eq_ok] at h
        obtain ⟨l, ts₂, h₁, es, ts₃, h₂, h⟩ := h
        cases h
        have hlt := Step.lt_of_outcome h₁
        exact arguments_nesting ih (by omega) h₂
    next => cases h

theorem script_nesting {ts : List Token} {ss : List Statement} (h : script stop ts = .ok ss) :
    statementNesting ss ≤ maxDepth := by
  cases ts with
  | nil =>
    rw [script_nil] at h
    cases h
    exact Nat.zero_le maxDepth
  | cons t ts =>
    rw [script_cons] at h
    split at h
    next => exact script_nesting h
    next =>
      split at h
      next => cases h
      next s ts₁ h₁ =>
        split at h
        next => cases h
        next ss' h₂ =>
          cases h
          have hlt := Step.lt_of_outcome h₁
          exact Nat.max_le.mpr ⟨topLevel_nesting h₁, script_nesting h₂⟩
termination_by ts.length
decreasing_by all_goals grind

end Parser

theorem Script.nesting_le_of_parse {source : String} {p : Script} (h : Script.parse source = .ok p) :
    p.nesting ≤ Parser.maxDepth := by
  unfold Script.parse at h
  rw [Script.ofTokens_eq] at h
  split at h
  next hbody =>
    cases h
    exact Parser.script_nesting hbody
  next => cases h

theorem nesting_lt_exprNesting {e : Expr} {es : List Expr} (h : e ∈ es) :
    e.nesting < exprNesting es := by
  induction es with
  | nil => cases h
  | cons e' es ih =>
    rw [exprNesting]
    rcases List.mem_cons.mp h with rfl | h
    · omega
    · have hlt := ih h
      omega

theorem nesting_le_statementNesting {s : Statement} {ss : List Statement} (h : s ∈ ss) :
    s.nesting ≤ statementNesting ss := by
  induction ss with
  | nil => cases h
  | cons s' ss ih =>
    rw [statementNesting]
    rcases List.mem_cons.mp h with rfl | h
    · omega
    · have hle := ih h
      omega

namespace Node

def levels : Node → Nat
  | .script p => p.nesting
  | .statement s => s.nesting
  | .block b => b.nesting
  | .expr e => e.nesting + 1
  | .iterator (.mk _ range) => range.nesting + 1
  | .branch (.tested test result) => max (test.nesting + 1) (result.nesting + 1)
  | .branch (.otherwise result) => result.nesting + 1

def isBlock : Node → Bool
  | .block _ => true
  | _ => false

def isFunction : Node → Bool
  | .statement (.function ..) => true
  | _ => false

theorem levels_le_iteratorNesting {i : Iterator} {its : List Iterator} (h : i ∈ its) :
    (Node.iterator i).levels ≤ iteratorNesting its := by
  induction its with
  | nil => cases h
  | cons i' its ih =>
    obtain ⟨name, range⟩ := i'
    rw [iteratorNesting]
    rcases List.mem_cons.mp h with rfl | h
    · exact Nat.le_max_left _ _
    · exact Nat.le_trans (ih h) (Nat.le_max_right _ _)

theorem levels_le_branchNesting {b : Branch} {bs : List Branch} (h : b ∈ bs) :
    (Node.branch b).levels ≤ branchNesting bs := by
  induction bs with
  | nil => cases h
  | cons b' bs ih =>
    rcases List.mem_cons.mp h with rfl | h
    · cases b <;> simp only [levels, branchNesting] <;> omega
    · have hle := ih h
      cases b' <;> rw [branchNesting] <;> omega

theorem levels_statement_child {s : Statement} {m : Node} (h : m ∈ (Node.statement s).children) :
    m.levels + (if m.isBlock then 1 else 0) ≤
      s.nesting + (if (Node.statement s).isFunction then 1 else 0) := by
  cases s with
  | function returns name params body span =>
    rw [List.mem_singleton.mp h]
    exact Nat.le_refl _
  | binding type name value span | uniform type name value span =>
    obtain ⟨e, he, rfl⟩ := List.mem_map.mp h
    rw [Option.mem_toList] at he
    cases he
    exact Nat.le_refl _
  | directive name value span => cases h
  | draw command arguments span =>
    obtain ⟨e, he, rfl⟩ := List.mem_map.mp h
    exact nesting_lt_exprNesting he
  | ret value span | expression value span =>
    rw [List.mem_singleton.mp h]
    exact Nat.le_refl _

theorem levels_expr_child {e : Expr} {m : Node} (h : m ∈ (Node.expr e).children) :
    m.levels + (if m.isBlock then 1 else 0) ≤ e.nesting + 1 := by
  cases e with
  | assign target value span =>
    have hdeepen := le_deepen 2 target.rank target.nesting
    rcases List.mem_pair.mp h with rfl | rfl
    · exact Nat.succ_le_succ (Nat.le_trans hdeepen (Nat.le_max_left _ _))
    · exact Nat.succ_le_succ (Nat.le_trans (Nat.le_succ _) (Nat.le_max_right _ _))
  | binary op left right span =>
    have hleft := le_deepen op.rank left.rank left.nesting
    have hright := le_deepen (op.rank + 1) right.rank right.nesting
    rcases List.mem_pair.mp h with rfl | rfl <;> simp [levels, isBlock, Expr.nesting] <;> omega
  | unary op operand span =>
    have hdeepen := le_deepen 6 operand.rank operand.nesting
    rw [List.mem_singleton.mp h]
    simp [levels, isBlock, Expr.nesting]
    omega
  | name text isNumber span => cases h
  | member object property span =>
    rw [List.mem_singleton.mp h]
    exact Nat.succ_le_succ (le_deepen 7 object.rank object.nesting)
  | index object subscript span =>
    have hdeepen := le_deepen 7 object.rank object.nesting
    rcases List.mem_pair.mp h with rfl | rfl
    · exact Nat.succ_le_succ (Nat.le_trans hdeepen (Nat.le_max_left _ _))
    · exact Nat.succ_le_succ (Nat.le_trans (Nat.le_succ _) (Nat.le_max_right _ _))
  | call name arguments span | vector arguments span | list arguments span =>
    obtain ⟨e, he, rfl⟩ := List.mem_map.mp h
    exact Nat.le_succ_of_le (nesting_lt_exprNesting he)
  | range first last span =>
    rcases List.mem_pair.mp h with rfl | rfl <;> simp [levels, isBlock, Expr.nesting] <;> omega
  | loop iterators body span =>
    rcases List.mem_append.mp h with h | h
    · obtain ⟨i, hi, rfl⟩ := List.mem_map.mp h
      have hle := levels_le_iteratorNesting hi
      simp [isBlock, Expr.nesting]
      omega
    · rw [List.mem_singleton.mp h]
      exact Nat.succ_le_succ (Nat.le_max_right _ _)
  | cases branches span =>
    obtain ⟨b, hb, rfl⟩ := List.mem_map.mp h
    exact Nat.le_succ_of_le (levels_le_branchNesting hb)

/-- A node needs no more levels than its parent. If it is a block it needs one less, unless the parent
is a function. -/
theorem levels_child {n m : Node} (h : m ∈ n.children) :
    m.levels + (if m.isBlock then 1 else 0) ≤ n.levels + (if n.isFunction then 1 else 0) := by
  match n with
  | .script p =>
    obtain ⟨s, hs, rfl⟩ := List.mem_map.mp h
    exact nesting_le_statementNesting hs
  | .block (.mk ss span) =>
    obtain ⟨s, hs, rfl⟩ := List.mem_map.mp h
    exact nesting_le_statementNesting hs
  | .iterator (.mk name range) =>
    rw [List.mem_singleton.mp h]
    exact Nat.le_refl _
  | .branch (.tested test result) =>
    rcases List.mem_pair.mp h with rfl | rfl
    · exact Nat.le_max_left _ _
    · exact Nat.le_max_right _ _
  | .branch (.otherwise result) =>
    rw [List.mem_singleton.mp h]
    exact Nat.le_refl _
  | .statement s => exact levels_statement_child h
  | .expr e => exact levels_expr_child h

theorem Path.blocks_le {n : Node} {path : List Node} (h : n.Path path) :
    path.countP isBlock ≤
      n.levels + (if n.isBlock then 1 else 0) + path.countP isFunction := by
  induction h with
  | @leaf n hn =>
    rw [List.countP_singleton]
    omega
  | @down n m path hm hpath ih =>
    have hchild := levels_child hm
    rw [List.countP_cons, List.countP_cons]
    omega

end Node

def Block.tower : Nat → Block
  | 0 => .mk [] Span.start
  | n + 1 => .mk [.function ⟨.float, false⟩ "f" [] (Block.tower n) Span.start] Span.start

def Script.tower (n : Nat) : Script :=
  ⟨[.function ⟨.float, false⟩ "f" [] (Block.tower n) Span.start]⟩

theorem Script.wellFormed_tower (n : Nat) : (Script.tower n).WellFormed := by
  have hf : IsName "f" := ⟨by unfold IsWord Token.IsLexeme; decide +kernel, by decide⟩
  have hbody : (Block.tower n).WellFormed := by
    induction n with
    | zero => trivial
    | succ n ih => exact ⟨⟨hf, List.forall_mem_nil _, ih⟩, trivial⟩
  intro s hs
  rw [List.mem_singleton.mp hs]
  exact ⟨hf, List.forall_mem_nil _, hbody⟩

theorem Script.nesting_tower (n : Nat) : (Script.tower n).nesting = 0 := by
  have hbody : (Block.tower n).nesting = 0 := by
    induction n with
    | zero => rfl
    | succ n ih =>
      change max (Block.tower n).nesting 0 = 0
      rw [ih, Nat.max_self]
  change max (Block.tower n).nesting 0 = 0
  rw [hbody, Nat.max_self]

theorem Block.exists_path_of_tower {f : Span → Span} {n : Nat} {b : Block}
    (h : b.relabel f = (Block.tower n).relabel f) :
    ∃ path, (Node.block b).Path path ∧ path.countP Node.isBlock = n + 1 := by
  induction n generalizing b with
  | zero =>
    obtain ⟨ss, span⟩ := b
    cases ss with
    | nil => exact ⟨[.block (.mk [] span)], .leaf rfl, rfl⟩
    | cons s ss => cases h
  | succ n ih =>
    obtain ⟨ss, span⟩ := b
    have hss := (Block.mk.inj h).1
    obtain ⟨body, span', rfl, hbody⟩ := Statement.exists_of_relabel_function hss
    obtain ⟨path, hpath, hcount⟩ := ih hbody
    refine ⟨_, .down (List.mem_singleton_self _) (.down (List.mem_singleton_self _) hpath), ?_⟩
    rw [List.countP_cons, List.countP_cons, hcount]
    rfl

theorem Script.exists_path_of_tower (n : Nat) :
    ∃ p path, Script.parse (Script.tower n).print = .ok p ∧ (Node.script p).Path path ∧
      path.countP Node.isBlock = n + 1 := by
  have hle : (Script.tower n).nesting ≤ Parser.maxDepth := by
    rw [Script.nesting_tower]
    exact Nat.zero_le _
  obtain ⟨⟨ss⟩, hparse, hq⟩ := Script.exists_parse_print (Script.wellFormed_tower n) hle
  obtain ⟨body, span, rfl, hbody⟩ := Statement.exists_of_relabel_function (Script.mk.inj hq)
  obtain ⟨path, hpath, hcount⟩ := Block.exists_path_of_tower hbody
  refine ⟨_, _, hparse,
    .down (List.mem_singleton_self _) (.down (List.mem_singleton_self _) hpath), ?_⟩
  rw [List.countP_cons, List.countP_cons, hcount]
  rfl

/-- No bound holds for the blocks on a path: functions can be declared in one another to any depth. -/
theorem Script.blocks_unbounded :
    ¬ ∃ bound, ∀ (source : String) (p : Script) (path : List Node), Script.parse source = .ok p →
      (Node.script p).Path path → path.countP Node.isBlock ≤ bound := by
  rintro ⟨bound, hbound⟩
  obtain ⟨p, path, hparse, hpath, hcount⟩ := Script.exists_path_of_tower bound
  have hle := hbound _ p path hparse hpath
  omega

/-- Of the blocks on a path only the bodies of functions are not bounded by the nesting of
expressions. -/
theorem Script.blocks_le_of_parse {source : String} {p : Script} {path : List Node}
    (h : Script.parse source = .ok p) (hpath : (Node.script p).Path path) :
    path.countP Node.isBlock ≤ Parser.maxDepth + path.countP Node.isFunction := by
  have hle := Script.nesting_le_of_parse h
  have hblocks : path.countP Node.isBlock ≤ p.nesting + path.countP Node.isFunction :=
    hpath.blocks_le
  omega

theorem Script.blocks_le_of_parse_tower :
    ∃ p path, Script.parse (Script.tower 80).print = .ok p ∧ (Node.script p).Path path ∧
      path.countP Node.isBlock = 81 ∧ 81 ≤ 64 + path.countP Node.isFunction := by
  obtain ⟨p, path, hparse, hpath, hcount⟩ := Script.exists_path_of_tower 80
  have hle := Script.blocks_le_of_parse hparse hpath
  rw [hcount] at hle
  exact ⟨p, path, hparse, hpath, hcount, hle⟩

end DrawScript
