import DrawScript.Proofs.Script.Grammar
import DrawScript.Proofs.Script.Outcome
import Mathlib

/-!
The parser accepts only what the grammar writes. Every step that succeeds has taken a row of tokens
off the front of what was left, and that row writes the value it returns. The steps call one another,
so the proofs follow their recursion: on the tokens that are left, then on the level of precedence.
-/

namespace DrawScript

namespace Grammar

def Before (P : List Token → Prop) (ts rest : List Token) : Prop := ∃ us, ts = us ++ rest ∧ P us

def Upto (kind : TokenKind) (P : List Token → Prop) (ts rest : List Token) : Prop :=
  ∃ us r, ts = us ++ r :: rest ∧ r.kind = kind ∧ P us

end Grammar

namespace Parser

open Grammar

variable {stop : Span} {depth : Nat} {ts rest : List Token}

theorem take_sound {kind : TokenKind} {expected : String} {t : Token}
    (h : (take stop kind expected ts).outcome = .ok (t, rest)) : ts = t :: rest ∧ t.kind = kind := by
  rw [outcome_take] at h
  split at h
  · cases h
  · split at h
    next hk =>
      cases h
      exact ⟨rfl, hk⟩
    next => cases h

theorem takeName_sound {t : Token} (h : (takeName stop ts).outcome = .ok (t, rest)) :
    ts = t :: rest ∧ Name t.text t := by
  rw [outcome_takeName] at h
  split at h
  · cases h
  · split at h
    next hk =>
      cases h
      exact ⟨rfl, hk.1, rfl, hk.2⟩
    next => cases h

theorem typeSpec_sound {type : TypeSpec} (h : (typeSpec stop ts).outcome = .ok (type, rest)) :
    Before (TypeForm type) ts rest := by
  rw [outcome_typeSpec, Outcome.andThen_eq_ok] at h
  obtain ⟨t, ts₁, ht, h⟩ := h
  obtain ⟨rfl, hkind⟩ := take_sound ht
  cases hbase : BaseType.ofText? t.text with
  | none => simp [hbase] at h
  | some base =>
    simp only [hbase, Except.ok.injEq, Prod.mk.injEq] at h
    obtain ⟨rfl, rfl⟩ := h
    unfold skipListMark
    split
    next l r us =>
      split
      next hlr => exact ⟨[t, l, r], rfl, .list hkind hbase hlr.1 hlr.2⟩
      next => exact ⟨[t], rfl, .element hkind hbase⟩
    next => exact ⟨[t], rfl, .element hkind hbase⟩

theorem param_sound {p : Param} (h : (param stop ts).outcome = .ok (p, rest)) :
    Before (ParamForm p) ts rest := by
  simp only [outcome_param, Outcome.andThen_eq_ok] at h
  obtain ⟨type, ts₁, h₁, n, ts₂, h₂, h⟩ := h
  cases h
  obtain ⟨us, rfl, htype⟩ := typeSpec_sound h₁
  obtain ⟨rfl, hn⟩ := takeName_sound h₂
  exact ⟨us ++ [n], by simp, .mk htype hn⟩

theorem moreParams_sound {ts : List Token} {ps : List Param}
    (h : (moreParams stop ts).outcome = .ok (ps, rest)) :
    Upto .rightParen (fun us => ∀ p vs, ParamForm p vs → ParamRow (p :: ps) (vs ++ us)) ts rest := by
  rw [outcome_moreParams] at h
  split at h
  next hcomma =>
    obtain ⟨t, ts₀, rfl, ht⟩ := exists_of_nextIs hcomma
    simp only [Outcome.andThen_eq_ok] at h
    obtain ⟨q, ts₁, h₁, qs, ts₂, h₂, h⟩ := h
    cases h
    have hlt := Step.lt_of_outcome h₁
    obtain ⟨us, hus, hq⟩ := param_sound h₁
    obtain ⟨ws, r, hws, hr, hqs⟩ := moreParams_sound h₂
    rw [List.tail_cons] at hus
    refine ⟨t :: us ++ ws, r, by simp [hus, hws], hr, ?_⟩
    intro p vs hp
    simpa using ParamRow.cons hp ht (hqs q us hq)
  next =>
    rw [Outcome.andThen_eq_ok] at h
    obtain ⟨r, ts₁, h₁, h⟩ := h
    cases h
    obtain ⟨rfl, hr⟩ := take_sound h₁
    refine ⟨[], r, rfl, hr, ?_⟩
    intro p vs hp
    simpa using ParamRow.one hp
termination_by ts.length
decreasing_by grind

theorem params_sound {ps : List Param} (h : (params stop ts).outcome = .ok (ps, rest)) :
    Upto .rightParen (ParamRow ps) ts rest := by
  rw [outcome_params] at h
  split at h
  next hnext =>
    obtain ⟨r, us, rfl, hr⟩ := exists_of_nextIs hnext
    cases h
    exact ⟨[], r, rfl, hr, .nil⟩
  next =>
    simp only [Outcome.andThen_eq_ok] at h
    obtain ⟨p, ts₁, h₁, qs, ts₂, h₂, h⟩ := h
    cases h
    obtain ⟨us, rfl, hp⟩ := param_sound h₁
    obtain ⟨vs, r, rfl, hr, hqs⟩ := moreParams_sound h₂
    exact ⟨us ++ vs, r, by simp, hr, hqs p us hp⟩

theorem skip_sound (kind : TokenKind) (ts : List Token) :
    ∃ us, ts = us ++ skip kind ts ∧ Optional kind us := by
  rw [skip_eq]
  split
  next hnext =>
    obtain ⟨t, us, rfl, ht⟩ := exists_of_nextIs hnext
    exact ⟨[t], rfl, .inr ⟨t, ht, rfl⟩⟩
  next => exact ⟨[], rfl, .inl rfl⟩

theorem moreArguments_ne_nil {es : List Expr} (hcomma : nextIs .comma ts)
    (h : (moreArguments stop depth ts).outcome = .ok (es, rest)) : es ≠ [] := by
  rw [outcome_moreArguments, if_pos hcomma] at h
  simp only [Outcome.andThen_eq_ok] at h
  obtain ⟨e, ts₁, h₁, es', ts₂, h₂, h⟩ := h
  cases h
  exact List.cons_ne_nil _ _

theorem atom_callee {e : Expr} {name : String} (h : (atom stop depth ts).outcome = .ok (e, rest))
    (hname : callee? (isCallable ts) e = some name) :
    ∃ c, ts = [c] ++ rest ∧ Callee name c := by
  rw [outcome_atom] at h
  unfold callee? at hname
  split at hname
  next hcallable =>
    cases ts with
    | nil => cases h
    | cons t ts₁ =>
      simp only [isCallable, Bool.or_eq_true, decide_eq_true_eq] at hcallable
      rcases hcallable with hk | hk
      · simp only [hk] at h
        cases h
        cases hn : isNumeric t.text with
        | false =>
          rw [hn] at hname
          cases hname
          exact ⟨t, rfl, .inl ⟨hk, rfl, hn⟩⟩
        | true =>
          rw [hn] at hname
          cases hname
      · simp only [hk] at h
        cases h
        cases hname
        exact ⟨t, rfl, .inr ⟨hk, rfl⟩⟩
  next => cases hname

/-- Expressions and blocks are sound on rows of fewer than `n` tokens. All other steps recurse
through these two or through themselves. -/
structure SoundBelow (stop : Span) (n : Nat) : Prop where
  expression : ∀ {depth : Nat} {ts rest : List Token} {e : Expr}, ts.length < n →
    (expression stop depth ts).outcome = .ok (e, rest) → Before (ExprForm 1 e) ts rest
  block : ∀ {depth : Nat} {ts rest : List Token} {b : Block}, ts.length < n →
    (block stop depth ts).outcome = .ok (b, rest) → Before (BlockForm b) ts rest

section

variable {n : Nat} (ih : SoundBelow stop n)
include ih

theorem moreArguments_sound {ts : List Token} {es : List Expr} (hn : ts.length ≤ n)
    (h : (moreArguments stop depth ts).outcome = .ok (es, rest)) :
    Upto .rightParen (fun us => ∀ e vs, ExprForm 1 e vs → ExprRow (e :: es) (vs ++ us)) ts rest := by
  rw [outcome_moreArguments] at h
  split at h
  next hcomma =>
    obtain ⟨t, ts₀, rfl, ht⟩ := exists_of_nextIs hcomma
    simp only [List.tail_cons, Outcome.andThen_eq_ok] at h
    obtain ⟨e', ts₁, h₁, es', ts₂, h₂, h⟩ := h
    cases h
    have hlt := Step.lt_of_outcome h₁
    obtain ⟨us, hus, he'⟩ := ih.expression hn h₁
    obtain ⟨ws, r, hws, hr, hes⟩ := moreArguments_sound (by grind) h₂
    refine ⟨t :: us ++ ws, r, by simp [hus, hws], hr, ?_⟩
    intro e vs he
    simpa using ExprRow.cons he ht (hes e' us he')
  next =>
    rw [Outcome.andThen_eq_ok] at h
    obtain ⟨r, ts₁, h₁, h⟩ := h
    cases h
    obtain ⟨rfl, hr⟩ := take_sound h₁
    refine ⟨[], r, rfl, hr, ?_⟩
    intro e vs he
    simpa using ExprRow.one he
termination_by ts.length
decreasing_by grind

theorem arguments_sound {es : List Expr} (hn : ts.length < n)
    (h : (arguments stop depth ts).outcome = .ok (es, rest)) :
    Upto .rightParen (ExprRow es) ts rest := by
  rw [outcome_arguments] at h
  split at h
  next hnext =>
    obtain ⟨r, us, rfl, hr⟩ := exists_of_nextIs hnext
    cases h
    exact ⟨[], r, rfl, hr, .nil⟩
  next =>
    simp only [Outcome.andThen_eq_ok] at h
    obtain ⟨e, ts₁, h₁, es', ts₂, h₂, h⟩ := h
    cases h
    have hlt := Step.lt_of_outcome h₁
    obtain ⟨us, hus, he⟩ := ih.expression hn h₁
    obtain ⟨vs, r, hvs, hr, hes⟩ := moreArguments_sound ih (by omega) h₂
    exact ⟨us ++ vs, r, by simp [hus, hvs], hr, hes e us he⟩

theorem moreElements_sound {ts : List Token} {es : List Expr} (hn : ts.length ≤ n)
    (h : (moreElements stop depth ts).outcome = .ok (es, rest)) :
    Upto .rightBracket (fun us => ∀ e vs, ExprForm 1 e vs →
      ∃ ws cs, vs ++ us = ws ++ cs ∧ ExprRow (e :: es) ws ∧ Optional .comma cs) ts rest := by
  rw [outcome_moreElements] at h
  split at h
  next hcomma =>
    obtain ⟨t, ts₀, rfl, ht⟩ := exists_of_nextIs hcomma
    rw [List.tail_cons] at h
    split at h
    next hclose =>
      obtain ⟨r, us, rfl, hr⟩ := exists_of_nextIs hclose
      cases h
      refine ⟨[t], r, rfl, hr, ?_⟩
      intro e vs he
      exact ⟨vs, [t], rfl, .one he, .inr ⟨t, ht, rfl⟩⟩
    next =>
      simp only [Outcome.andThen_eq_ok] at h
      obtain ⟨e', ts₁, h₁, es', ts₂, h₂, h⟩ := h
      cases h
      have hlt := Step.lt_of_outcome h₁
      obtain ⟨us, hus, he'⟩ := ih.expression hn h₁
      obtain ⟨xs, r, hxs, hr, hes⟩ := moreElements_sound (by grind) h₂
      refine ⟨t :: us ++ xs, r, by simp [hus, hxs], hr, ?_⟩
      intro e vs he
      obtain ⟨ws, cs, hws, hrow, hcs⟩ := hes e' us he'
      exact ⟨vs ++ t :: ws, cs, by simp [hws], .cons he ht hrow, hcs⟩
  next =>
    rw [Outcome.andThen_eq_ok] at h
    obtain ⟨r, ts₁, h₁, h⟩ := h
    cases h
    obtain ⟨rfl, hr⟩ := take_sound h₁
    refine ⟨[], r, rfl, hr, ?_⟩
    intro e vs he
    exact ⟨vs, [], rfl, .one he, .inl rfl⟩
termination_by ts.length
decreasing_by grind

theorem group_sound {l : Token} {e : Expr} (hn : ts.length < n) (hl : l.kind = .leftParen)
    (h : (group stop depth l.span ts).outcome = .ok (e, rest)) :
    Before (ExprForm 7 e) (l :: ts) rest := by
  rw [outcome_group] at h
  split at h
  next hclose =>
    obtain ⟨r, us, rfl, hr⟩ := exists_of_nextIs hclose
    cases h
    exact ⟨[l, r], rfl, .emptyVector hl hr⟩
  next =>
    rw [Outcome.andThen_eq_ok] at h
    obtain ⟨first, ts₁, h₁, h⟩ := h
    have hlt := Step.lt_of_outcome h₁
    obtain ⟨us, hus, hfirst⟩ := ih.expression hn h₁
    split at h
    next hcomma =>
      rw [Outcome.andThen_eq_ok] at h
      obtain ⟨es, ts₃, h₂, h⟩ := h
      cases h
      have hne := moreArguments_ne_nil hcomma h₂
      obtain ⟨vs, r, hvs, hr, hes⟩ := moreArguments_sound ih (by omega) h₂
      have hrow := hes first us hfirst
      cases es with
      | nil => exact absurd rfl hne
      | cons e₂ es => exact ⟨l :: (us ++ vs) ++ [r], by simp [hus, hvs], .vector hl hrow hr⟩
    next =>
      rw [Outcome.andThen_eq_ok] at h
      obtain ⟨r, ts₂, h₂, h⟩ := h
      cases h
      obtain ⟨hr, hrk⟩ := take_sound h₂
      exact ⟨l :: us ++ [r], by simp [hus, hr], .group hl hfirst hrk⟩

theorem listOrRange_sound {l : Token} {e : Expr} (hn : ts.length < n) (hl : l.kind = .leftBracket)
    (h : (listOrRange stop depth l.span ts).outcome = .ok (e, rest)) :
    Before (ExprForm 7 e) (l :: ts) rest := by
  rw [outcome_listOrRange] at h
  split at h
  next hclose =>
    obtain ⟨r, us, rfl, hr⟩ := exists_of_nextIs hclose
    cases h
    exact ⟨[l, r], rfl, .emptyList hl hr⟩
  next =>
    rw [Outcome.andThen_eq_ok] at h
    obtain ⟨first, ts₁, h₁, h⟩ := h
    have hlt := Step.lt_of_outcome h₁
    obtain ⟨us, hus, hfirst⟩ := ih.expression hn h₁
    split at h
    next hdots =>
      obtain ⟨t, ts₂, rfl, ht⟩ := exists_of_nextIs hdots
      simp only [List.tail_cons, Outcome.andThen_eq_ok] at h
      obtain ⟨last, ts₃, h₂, r, ts₄, h₃, h⟩ := h
      cases h
      obtain ⟨vs, hvs, hlast⟩ := ih.expression (by grind) h₂
      obtain ⟨hr, hrk⟩ := take_sound h₃
      exact ⟨l :: us ++ t :: vs ++ [r], by simp [hus, hvs, hr], .range hl hfirst ht hlast hrk⟩
    next =>
      rw [Outcome.andThen_eq_ok] at h
      obtain ⟨es, ts₂, h₂, h⟩ := h
      cases h
      obtain ⟨vs, r, hvs, hr, hes⟩ := moreElements_sound ih (by omega) h₂
      obtain ⟨ws, cs, hws, hrow, hcs⟩ := hes first us hfirst
      refine ⟨l :: ws ++ cs ++ [r], ?_, .list hl hrow hcs hr⟩
      rw [hus, hvs, List.cons_append, ← hws]
      simp

theorem iterators_sound {ts : List Token} {its : List Iterator} (hn : ts.length < n)
    (h : (iterators stop depth ts).outcome = .ok (its, rest)) :
    Upto .rightParen (IteratorRow its) ts rest := by
  rw [outcome_iterators] at h
  simp only [Outcome.andThen_eq_ok] at h
  obtain ⟨m, ts₁, h₁, c, ts₂, h₂, range, ts₃, h₃, h⟩ := h
  have hlt₁ := Step.lt_of_outcome h₁
  have hlt₂ := Step.lt_of_outcome h₂
  have hlt₃ := Step.lt_of_outcome h₃
  obtain ⟨hts, hm⟩ := takeName_sound h₁
  obtain ⟨hc, hck⟩ := take_sound h₂
  obtain ⟨us, hus, hrange⟩ := ih.expression (by omega) h₃
  split at h
  next hcomma =>
    obtain ⟨t, ts₄, rfl, ht⟩ := exists_of_nextIs hcomma
    simp only [List.tail_cons, Outcome.andThen_eq_ok] at h
    obtain ⟨its', ts₅, h₄, h⟩ := h
    cases h
    obtain ⟨vs, r, hvs, hr, hits⟩ := iterators_sound (by grind) h₄
    exact ⟨m :: c :: us ++ t :: vs, r, by simp [hts, hc, hus, hvs], hr, .cons hm hck hrange ht hits⟩
  next =>
    rw [Outcome.andThen_eq_ok] at h
    obtain ⟨r, ts₄, h₄, h⟩ := h
    cases h
    obtain ⟨hr, hrk⟩ := take_sound h₄
    exact ⟨m :: c :: us, r, by simp [hts, hc, hus, hr], hrk, .one hm hck hrange⟩
termination_by ts.length
decreasing_by grind

theorem branches_sound {ts : List Token} {bs : List Branch} (hn : ts.length < n)
    (h : (branches stop depth ts).outcome = .ok (bs, rest)) :
    Upto .rightBrace (BranchRow bs) ts rest := by
  rw [outcome_branches] at h
  split at h
  next hclose =>
    obtain ⟨r, us, rfl, hr⟩ := exists_of_nextIs hclose
    cases h
    exact ⟨[], r, rfl, hr, .nil⟩
  next =>
    rw [Outcome.andThen_eq_ok] at h
    obtain ⟨first, ts₁, h₁, h⟩ := h
    have hlt₁ := Step.lt_of_outcome h₁
    obtain ⟨us, hus, hfirst⟩ := ih.expression hn h₁
    split at h
    next hcolon =>
      obtain ⟨c, ts₂, rfl, hc⟩ := exists_of_nextIs hcolon
      simp only [List.tail_cons, Outcome.andThen_eq_ok] at h
      obtain ⟨result, ts₃, h₂, bs', ts₄, h₃, h⟩ := h
      cases h
      have hlt₂ := Step.lt_of_outcome h₂
      have hlt₃ : (skip .comma ts₃).length < ts.length := by grind [length_skip_le]
      obtain ⟨vs, hvs, hresult⟩ := ih.expression (by grind) h₂
      obtain ⟨cs, hcs, hopt⟩ := skip_sound .comma ts₃
      obtain ⟨ws, r, hws, hr, hbs⟩ := branches_sound (by omega) h₃
      refine ⟨us ++ c :: vs ++ cs ++ ws, r, ?_, hr, .tested hfirst hc hresult hopt hbs⟩
      rw [hus, hvs, hcs, hws]
      simp
    next =>
      rw [Outcome.andThen_eq_ok] at h
      obtain ⟨r, ts₂, h₂, h⟩ := h
      cases h
      obtain ⟨cs, hcs, hopt⟩ := skip_sound .comma ts₁
      obtain ⟨hr, hrk⟩ := take_sound h₂
      refine ⟨us ++ cs, r, ?_, hrk, .otherwise hfirst hopt⟩
      rw [hus, hcs, hr]
      simp
termination_by ts.length
decreasing_by grind

theorem atom_sound {e : Expr} (hn : ts.length ≤ n)
    (h : (atom stop depth ts).outcome = .ok (e, rest)) : Before (ExprForm 7 e) ts rest := by
  rw [outcome_atom] at h
  split at h
  next => cases h
  next t ts₁ =>
    split at h
    next hk =>
      cases h
      exact ⟨[t], rfl, .word hk⟩
    next hk =>
      cases h
      exact ⟨[t], rfl, .builtin hk⟩
    next hk =>
      rw [Outcome.andThen_eq_ok] at h
      obtain ⟨m, ts₂, h₁, h⟩ := h
      cases h
      obtain ⟨rfl, hm⟩ := takeName_sound h₁
      exact ⟨[t, m], rfl, .dollar hk hm⟩
    next hk =>
      simp only [Outcome.andThen_eq_ok] at h
      obtain ⟨l, ts₂, h₁, its, ts₃, h₂, body, ts₄, h₃, h⟩ := h
      cases h
      have hlt₁ := Step.lt_of_outcome h₁
      have hlt₂ := Step.lt_of_outcome h₂
      obtain ⟨hl, hlk⟩ := take_sound h₁
      obtain ⟨us, r, hus, hr, hits⟩ := iterators_sound ih (by grind) h₂
      obtain ⟨vs, hvs, hbody⟩ := ih.block (by grind) h₃
      exact ⟨t :: l :: us ++ r :: vs, by simp [hl, hus, hvs], .loop hk hlk hits hr hbody⟩
    next hk =>
      simp only [Outcome.andThen_eq_ok] at h
      obtain ⟨l, ts₂, h₁, bs, ts₃, h₂, h⟩ := h
      cases h
      have hlt₁ := Step.lt_of_outcome h₁
      obtain ⟨hl, hlk⟩ := take_sound h₁
      obtain ⟨us, r, hus, hr, hbs⟩ := branches_sound ih (by grind) h₂
      exact ⟨t :: l :: us ++ [r], by simp [hl, hus], .cases hk hlk hbs hr⟩
    next hk => exact group_sound ih hn hk h
    next hk => exact listOrRange_sound ih hn hk h
    next => cases h

theorem suffixes_sound {callable : Bool} {e₀ e : Expr} {us ts : List Token} (hn : ts.length ≤ n)
    (he₀ : ExprForm 7 e₀ us)
    (hcallee : ∀ name, callee? callable e₀ = some name → ∃ c, us = [c] ∧ Callee name c)
    (h : (suffixes stop depth callable e₀ ts).outcome = .ok (e, rest)) :
    Before (fun vs => ExprForm 7 e (us ++ vs)) ts rest := by
  -- The expression so far has the tokens `us`, and grows by one suffix at a time.
  rw [outcome_suffixes] at h
  split at h
  next =>
    cases h
    exact ⟨[], rfl, by simpa using he₀⟩
  next t ts₁ =>
    split at h
    next hk =>
      rw [Outcome.andThen_eq_ok] at h
      obtain ⟨m, ts₂, h₁, h⟩ := h
      have hlt := Step.lt_of_outcome h₁
      obtain ⟨hts, hm⟩ := takeName_sound h₁
      obtain ⟨vs, hvs, he⟩ := suffixes_sound (by grind) (.member he₀ hk hm)
        (by simp [callee?, Expr.identifier?]) h
      exact ⟨t :: m :: vs, by simp [hts, hvs], by simpa using he⟩
    next hk =>
      simp only [Outcome.andThen_eq_ok] at h
      obtain ⟨subscript, ts₂, h₁, r, ts₃, h₂, h⟩ := h
      have hlt₁ := Step.lt_of_outcome h₁
      have hlt₂ := Step.lt_of_outcome h₂
      obtain ⟨ws, hws, hsubscript⟩ := ih.expression (by grind) h₁
      obtain ⟨hr, hrk⟩ := take_sound h₂
      obtain ⟨vs, hvs, he⟩ := suffixes_sound (by grind) (.index he₀ hk hsubscript hrk)
        (by simp [callee?, Expr.identifier?]) h
      exact ⟨t :: ws ++ r :: vs, by simp [hws, hr, hvs], by simpa using he⟩
    next hk =>
      split at h
      next => cases h
      next name hname =>
        rw [Outcome.andThen_eq_ok] at h
        obtain ⟨es, ts₂, h₁, h⟩ := h
        have hlt := Step.lt_of_outcome h₁
        obtain ⟨c, rfl, hc⟩ := hcallee name hname
        obtain ⟨ws, r, hws, hr, hes⟩ := arguments_sound ih (by grind) h₁
        obtain ⟨vs, hvs, he⟩ := suffixes_sound (by grind) (.call hc hk hes hr)
          (by simp [callee?, Expr.identifier?]) h
        exact ⟨t :: ws ++ r :: vs, by simp [hws, hvs], by simpa using he⟩
    next =>
      cases h
      exact ⟨[], rfl, by simpa using he₀⟩
termination_by ts.length
decreasing_by all_goals grind

theorem operand_sound {e : Expr} (hn : ts.length ≤ n)
    (h : (operand stop depth ts).outcome = .ok (e, rest)) : Before (ExprForm 7 e) ts rest := by
  rw [outcome_operand, Outcome.andThen_eq_ok] at h
  obtain ⟨first, ts₁, h₁, h⟩ := h
  have hlt := Step.lt_of_outcome h₁
  obtain ⟨us, hus, hfirst⟩ := atom_sound ih hn h₁
  -- In parentheses a name is no longer one token, and cannot be called.
  have hcallee : ∀ name, callee? (isCallable ts) first = some name →
      ∃ c, us = [c] ∧ Callee name c := by
    intro name hname
    obtain ⟨c, hc, hcallee⟩ := atom_callee h₁ hname
    exact ⟨c, List.append_cancel_right (hus.symm.trans hc), hcallee⟩
  obtain ⟨vs, hvs, he⟩ := suffixes_sound ih (by omega) hfirst hcallee h
  exact ⟨us ++ vs, by simp [hus, hvs], he⟩

theorem unary_sound {depth : Nat} {ts : List Token} {e : Expr} (hn : ts.length ≤ n)
    (h : (unary stop depth ts).outcome = .ok (e, rest)) : Before (ExprForm 6 e) ts rest := by
  rw [outcome_unary] at h
  split at h
  next =>
    obtain ⟨us, hus, he⟩ := operand_sound ih hn h
    exact ⟨us, hus, .loosen (by decide) he⟩
  next op hop =>
    obtain ⟨t, ts₁, rfl, ht⟩ := exists_of_nextKind? hop
    cases depth with
    | zero => cases h
    | succ depth =>
      simp only [List.tail_cons, Outcome.andThen_eq_ok] at h
      obtain ⟨operand, ts₂, h₁, h⟩ := h
      cases h
      obtain ⟨us, hus, he⟩ := unary_sound (by grind) h₁
      exact ⟨t :: us, by simp [hus], .unary (unaryOperator?_eq_some ht) he⟩
termination_by ts.length
decreasing_by grind

omit ih in
theorem binaryRest_sound {l : Level} {ls : List Level} {left e : Expr} {us ts : List Token}
    (hn : ts.length ≤ n) (hls : rankOf ls = l.rank + 1)
    (hoperand : ∀ {ts rest : List Token} {e : Expr}, ts.length ≤ n →
      (binary stop depth ls ts).outcome = .ok (e, rest) → Before (ExprForm (rankOf ls) e) ts rest)
    (hleft : ExprForm l.rank left us)
    (h : (binaryRest stop depth l ls left ts).outcome = .ok (e, rest)) :
    Before (fun vs => ExprForm l.rank e (us ++ vs)) ts rest := by
  rw [outcome_binaryRest] at h
  split at h
  next =>
    cases h
    exact ⟨[], rfl, by simpa using hleft⟩
  next op hop =>
    obtain ⟨t, ts₁, rfl, ht⟩ := exists_of_nextKind? hop
    simp only [List.tail_cons, Outcome.andThen_eq_ok] at h
    obtain ⟨right, ts₂, h₁, h⟩ := h
    have hlt := Step.lt_of_outcome h₁
    obtain ⟨hkind, hrank⟩ := Level.operator?_eq_some ht
    obtain ⟨vs, hvs, hright⟩ := hoperand (by grind) h₁
    rw [hls] at hright
    have hbinary : ExprForm l.rank (.binary op left right t.span) (us ++ t :: vs) := by
      rw [← hrank] at hleft hright ⊢
      exact .binary hleft hkind hright
    obtain ⟨ws, hws, he⟩ := binaryRest_sound (by grind) hls hoperand hbinary h
    exact ⟨t :: vs ++ ws, by simp [hvs, hws], by simpa using he⟩
termination_by ts.length
decreasing_by grind

theorem binary_sound {ls : List Level} {ts rest : List Token} {e : Expr} (hls : Consecutive ls)
    (hn : ts.length ≤ n) (h : (binary stop depth ls ts).outcome = .ok (e, rest)) :
    Before (ExprForm (rankOf ls) e) ts rest := by
  induction ls generalizing ts rest e with
  | nil =>
    rw [outcome_binary_nil] at h
    exact unary_sound ih hn h
  | cons l ls ihls =>
    rw [outcome_binary_cons, Outcome.andThen_eq_ok] at h
    obtain ⟨left, ts₁, h₁, h⟩ := h
    have hlt := Step.lt_of_outcome h₁
    obtain ⟨us, hus, hleft⟩ := ihls hls.2 hn h₁
    have hle : l.rank ≤ rankOf ls := by
      rw [hls.1]
      exact Nat.le_succ _
    obtain ⟨vs, hvs, he⟩ :=
      binaryRest_sound (by omega) hls.1 (ihls hls.2) (.loosen hle hleft) h
    exact ⟨us ++ vs, by simp [hus, hvs], he⟩

theorem expression_sound {depth : Nat} {e : Expr} (hn : ts.length ≤ n)
    (h : (expression stop depth ts).outcome = .ok (e, rest)) : Before (ExprForm 1 e) ts rest := by
  cases depth with
  | zero =>
    rw [outcome_expression_zero] at h
    cases h
  | succ depth =>
    rw [outcome_expression_succ, Outcome.andThen_eq_ok] at h
    obtain ⟨target, ts₁, h₁, h⟩ := h
    have hlt := Step.lt_of_outcome h₁
    obtain ⟨us, hus, htarget⟩ := binary_sound ih consecutive_levels hn h₁
    split at h
    next hnext =>
      obtain ⟨t, ts₂, rfl, ht⟩ := exists_of_nextIs hnext
      simp only [List.tail_cons, Outcome.andThen_eq_ok] at h
      obtain ⟨value, ts₃, h₂, h⟩ := h
      cases h
      obtain ⟨vs, hvs, hvalue⟩ := ih.expression (by grind) h₂
      exact ⟨us ++ t :: vs, by simp [hus, hvs], .assign htarget ht hvalue⟩
    next =>
      cases h
      exact ⟨us, hus, .loosen (by decide) htarget⟩

theorem initializer_sound {value : Option Expr} (hn : ts.length ≤ n)
    (h : (initializer stop depth ts).outcome = .ok (value, rest)) :
    Before (ValueForm value) ts rest := by
  rw [outcome_initializer] at h
  split at h
  next hequals =>
    obtain ⟨t, ts₁, rfl, ht⟩ := exists_of_nextIs hequals
    simp only [List.tail_cons, Outcome.andThen_eq_ok] at h
    obtain ⟨e, ts₂, h₁, u, ts₃, h₂, h⟩ := h
    cases h
    obtain ⟨us, hus, he⟩ := ih.expression hn h₁
    obtain ⟨hu, huk⟩ := take_sound h₂
    exact ⟨t :: us ++ [u], by simp [hus, hu], .present ht he huk⟩
  next =>
    rw [Outcome.andThen_eq_ok] at h
    obtain ⟨u, ts₁, h₁, h⟩ := h
    cases h
    obtain ⟨rfl, hu⟩ := take_sound h₁
    exact ⟨[u], rfl, .absent hu⟩

theorem declaration_sound {s : Statement} (hn : ts.length ≤ n)
    (h : (declaration stop depth ts).outcome = .ok (s, rest)) :
    Before (DeclarationForm s) ts rest := by
  simp only [outcome_declaration, Outcome.andThen_eq_ok] at h
  obtain ⟨type, ts₁, h₁, m, ts₂, h₂, h⟩ := h
  have hlt₁ := Step.lt_of_outcome h₁
  have hlt₂ := Step.lt_of_outcome h₂
  obtain ⟨us, hus, htype⟩ := typeSpec_sound h₁
  obtain ⟨hm, hname⟩ := takeName_sound h₂
  split at h
  next hparen =>
    obtain ⟨l, ts₃, rfl, hl⟩ := exists_of_nextIs hparen
    simp only [List.tail_cons, Outcome.andThen_eq_ok] at h
    obtain ⟨ps, ts₄, h₃, body, ts₅, h₄, h⟩ := h
    cases h
    have hlt₃ := Step.lt_of_outcome h₃
    obtain ⟨vs, r, hvs, hr, hps⟩ := params_sound h₃
    obtain ⟨ws, hws, hbody⟩ := ih.block (by grind) h₄
    exact ⟨us ++ m :: l :: vs ++ r :: ws, by simp [hus, hm, hvs, hws],
      .function htype hname hl hps hr hbody⟩
  next =>
    rw [Outcome.andThen_eq_ok] at h
    obtain ⟨value, ts₃, h₃, h⟩ := h
    cases h
    obtain ⟨vs, hvs, hvalue⟩ := initializer_sound ih (by omega) h₃
    exact ⟨us ++ m :: vs, by simp [hus, hm, hvs], .binding htype hname hvalue⟩

theorem statement_sound {s : Statement} (hn : ts.length < n)
    (h : (statement stop depth ts).outcome = .ok (s, rest)) : Before (StatementForm s) ts rest := by
  rw [outcome_statement] at h
  split at h
  next hret =>
    obtain ⟨t, ts₁, rfl, ht⟩ := exists_of_nextIs hret
    simp only [List.tail_cons, Outcome.andThen_eq_ok] at h
    obtain ⟨e, ts₂, h₁, u, ts₃, h₂, h⟩ := h
    cases h
    obtain ⟨us, hus, he⟩ := ih.expression (by grind) h₁
    obtain ⟨hu, huk⟩ := take_sound h₂
    exact ⟨t :: us ++ [u], by simp [hus, hu], .ret ht he huk⟩
  next =>
    split at h
    next =>
      obtain ⟨us, hus, hs⟩ := declaration_sound ih (by omega) h
      exact ⟨us, hus, .declaration hs⟩
    next =>
      simp only [Outcome.andThen_eq_ok] at h
      obtain ⟨e, ts₁, h₁, u, ts₂, h₂, h⟩ := h
      cases h
      obtain ⟨us, hus, he⟩ := ih.expression hn h₁
      obtain ⟨hu, huk⟩ := take_sound h₂
      exact ⟨us ++ [u], by simp [hus, hu], .expression he huk⟩

theorem statements_sound {ts : List Token} {ss : List Statement} (hn : ts.length < n)
    (h : (statements stop depth ts).outcome = .ok (ss, rest)) :
    Upto .rightBrace (StatementRow ss) ts rest := by
  rw [outcome_statements] at h
  split at h
  next hclose =>
    obtain ⟨r, us, rfl, hr⟩ := exists_of_nextIs hclose
    cases h
    exact ⟨[], r, rfl, hr, .nil⟩
  next =>
    split at h
    next => cases h
    next =>
      simp only [Outcome.andThen_eq_ok] at h
      obtain ⟨s, ts₁, h₁, ss', ts₂, h₂, h⟩ := h
      cases h
      have hlt := Step.lt_of_outcome h₁
      obtain ⟨us, hus, hs⟩ := statement_sound ih hn h₁
      obtain ⟨vs, r, hvs, hr, hss⟩ := statements_sound (by omega) h₂
      exact ⟨us ++ vs, r, by simp [hus, hvs], hr, .cons hs hss⟩
termination_by ts.length
decreasing_by grind

theorem block_sound {b : Block} (hn : ts.length ≤ n)
    (h : (block stop depth ts).outcome = .ok (b, rest)) : Before (BlockForm b) ts rest := by
  simp only [outcome_block, Outcome.andThen_eq_ok] at h
  obtain ⟨l, ts₁, h₁, body, ts₂, h₂, h⟩ := h
  cases h
  have hlt := Step.lt_of_outcome h₁
  obtain ⟨hl, hlk⟩ := take_sound h₁
  obtain ⟨us, r, hus, hr, hbody⟩ := statements_sound ih (by omega) h₂
  exact ⟨l :: us ++ [r], by simp [hl, hus], .mk hlk hbody hr⟩

end

theorem soundBelow (stop : Span) (n : Nat) : SoundBelow stop n := by
  induction n with
  | zero => exact ⟨fun hn _ => absurd hn (Nat.not_lt_zero _), fun hn _ => absurd hn (Nat.not_lt_zero _)⟩
  | succ n ih =>
    exact ⟨fun hn h => expression_sound ih (Nat.le_of_lt_succ hn) h,
      fun hn h => block_sound ih (Nat.le_of_lt_succ hn) h⟩

theorem topLevel_sound {s : Statement} (h : (topLevel stop ts).outcome = .ok (s, rest)) :
    Before (TopLevelForm s) ts rest := by
  have ih := soundBelow stop (ts.length + 1)
  rw [outcome_topLevel] at h
  split at h
  next => cases h
  next t ts₁ =>
    split at h
    next hk =>
      simp only [outcome_uniform, Outcome.andThen_eq_ok] at h
      obtain ⟨type, ts₂, h₁, m, ts₃, h₂, h⟩ := h
      have hlt₁ := Step.lt_of_outcome h₁
      have hlt₂ := Step.lt_of_outcome h₂
      split at h
      next => cases h
      next hconcrete =>
        rw [Outcome.andThen_eq_ok] at h
        obtain ⟨value, ts₄, h₃, h⟩ := h
        cases h
        obtain ⟨us, hus, htype⟩ := typeSpec_sound h₁
        obtain ⟨hm, hname⟩ := takeName_sound h₂
        obtain ⟨vs, hvs, hvalue⟩ := initializer_sound ih (by grind) h₃
        exact ⟨t :: us ++ m :: vs, by simp [hus, hm, hvs],
          .uniform hk htype (by simpa using hconcrete) hname hvalue⟩
    next hk =>
      rw [Outcome.andThen_eq_ok] at h
      obtain ⟨s', ts₂, h₁, h⟩ := h
      obtain ⟨us, hus, hs⟩ := declaration_sound ih (Nat.le_succ _) h₁
      cases hs with
      | function htype hm hl hps hr hbody =>
        cases h
        exact ⟨_, hus, .function (.function htype hm hl hps hr hbody)⟩
      | @binding type name value m _ _ htype hm hvalue =>
        cases hconcrete : type.base.isTemplate with
        | true => simp [misuse?, hconcrete] at h
        | false =>
          simp only [misuse?, hconcrete] at h
          cases h
          exact ⟨_, hus, .binding (.binding htype hm hvalue) hconcrete⟩
    next hk =>
      simp only [outcome_directive, Outcome.andThen_eq_ok] at h
      obtain ⟨m, ts₂, h₁, c, ts₃, h₂, v, ts₄, h₃, u, ts₅, h₄, h⟩ := h
      cases h
      obtain ⟨rfl, hname⟩ := takeName_sound h₁
      obtain ⟨rfl, hc⟩ := take_sound h₂
      obtain ⟨rfl, hv⟩ := take_sound h₃
      obtain ⟨rfl, hu⟩ := take_sound h₄
      exact ⟨[t, m, c, v, u], rfl, .directive hk hname hc hv hu⟩
    next hk =>
      split at h
      next => cases h
      next command hcommand =>
        simp only [outcome_drawCall, Outcome.andThen_eq_ok] at h
        obtain ⟨l, ts₂, h₁, es, ts₃, h₂, h⟩ := h
        cases h
        have hlt := Step.lt_of_outcome h₁
        obtain ⟨hl, hlk⟩ := take_sound h₁
        obtain ⟨us, r, hus, hr, hes⟩ := arguments_sound ih (by grind) h₂
        obtain ⟨vs, hvs, hopt⟩ := skip_sound .semicolon ts₃
        refine ⟨t :: l :: us ++ r :: vs, ?_, .draw hk hcommand hlk hes hr hopt⟩
        simp only [hl, hus, List.cons_append, List.append_assoc, ← hvs]
    next => cases h

theorem script_sound {ts : List Token} {ss : List Statement} (h : script stop ts = .ok ss) :
    ScriptForm ss ts := by
  cases ts with
  | nil =>
    rw [script_nil] at h
    cases h
    exact .nil
  | cons t ts =>
    rw [script_cons] at h
    split at h
    next hk => exact .stray hk (script_sound h)
    next =>
      split at h
      next => cases h
      next s ts₁ h₁ =>
        split at h
        next => cases h
        next ss' h₂ =>
          cases h
          have hlt := Step.lt_of_outcome h₁
          obtain ⟨us, hus, hs⟩ := topLevel_sound h₁
          rw [hus]
          exact .cons hs (script_sound h₂)
termination_by ts.length
decreasing_by all_goals grind

end Parser

theorem Script.scriptForm_of_ofTokens {ts : List Token} {p : Script}
    (h : Script.ofTokens ts = .ok p) : Grammar.ScriptForm p.body ts := by
  rw [Script.ofTokens_eq] at h
  split at h
  next hbody =>
    cases h
    exact Parser.script_sound hbody
  next => cases h

theorem Script.scriptForm_redundant_marks :
    ∃ p, Script.ofTokens (Token.tokenize ";float k=(a)*-b;\npolygon([1,])") = .ok p ∧
      Grammar.ScriptForm p.body (Token.tokenize ";float k=(a)*-b;\npolygon([1,])") := by
  have h : Script.ofTokens (Token.tokenize ";float k=(a)*-b;\npolygon([1,])") = .ok ⟨[
      .binding ⟨.float, false⟩ "k"
        (some (.binary .mul (.name "a" false ⟨1, 11⟩)
          (.unary .neg (.name "b" false ⟨1, 15⟩) ⟨1, 14⟩) ⟨1, 13⟩)) ⟨1, 8⟩,
      .draw .polygon [.list [.name "1" true ⟨2, 10⟩] ⟨2, 9⟩] ⟨2, 1⟩]⟩ := by cbv
  exact ⟨_, h, Script.scriptForm_of_ofTokens h⟩

end DrawScript
