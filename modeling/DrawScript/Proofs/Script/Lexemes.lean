import DrawScript.Proofs.Script.Printer

/-!
Every token of a printed script is a lexeme. Symbols and the words of the language are lexemes by
evaluation, names because well-formed scripts have no others, and rows of tokens because their parts
are.
-/

namespace DrawScript

open Token (symbol word)

theorem Token.isLexeme_symbol {kind : TokenKind} (h : kind.isWord = false) :
    (symbol kind).IsLexeme := by
  unfold Token.IsLexeme
  cases kind with
  | text | type | builtin | draw => cases h
  | keyword k => cases k <;> decide +kernel
  | operator o => cases o <;> decide +kernel
  | _ => decide +kernel

theorem IsWord.isLexeme {w : String} (h : IsWord w) : (word w).IsLexeme := by
  rw [h.word_eq]
  exact h

theorem IsBuiltin.isLexeme {w : String} (h : IsBuiltin w) : (word w).IsLexeme := by
  unfold IsBuiltin TokenKind.builtinNames at h
  simp only [List.mem_cons, List.not_mem_nil, or_false] at h
  unfold Token.IsLexeme
  rcases h with h | h | h | h | h | h | h | h | h | h | h | h | h | h | h | h | h | h
  all_goals
    subst h
    decide +kernel

theorem BaseType.isLexeme_text (base : BaseType) :
    Token.IsLexeme ⟨.type, base.text, Span.start⟩ := by
  unfold Token.IsLexeme
  cases base <;> decide +kernel

theorem DrawCommand.isLexeme_text (command : DrawCommand) :
    Token.IsLexeme ⟨.draw, command.text, Span.start⟩ := by
  unfold Token.IsLexeme
  cases command <;> decide +kernel

def Lexemes (ts : List Token) : Prop := ∀ t ∈ ts, t.IsLexeme

namespace Lexemes

variable {ts us : List Token}

theorem nil : Lexemes [] := nofun

theorem cons {t : Token} (ht : t.IsLexeme) (hts : Lexemes ts) : Lexemes (t :: ts) :=
  List.forall_mem_cons.mpr ⟨ht, hts⟩

theorem append (hts : Lexemes ts) (hus : Lexemes us) : Lexemes (ts ++ us) :=
  List.forall_mem_append.mpr ⟨hts, hus⟩

theorem symbol {kind : TokenKind} (hts : Lexemes ts) (h : kind.isWord = false := by rfl) :
    Lexemes (Token.symbol kind :: ts) :=
  cons (Token.isLexeme_symbol h) hts

theorem closed {kind : TokenKind} (hts : Lexemes ts) (h : kind.isWord = false := by rfl) :
    Lexemes (ts ++ [Token.symbol kind]) :=
  hts.append (nil.symbol h)

theorem enclose (hts : Lexemes ts) (place rank : Nat) : Lexemes (DrawScript.enclose place rank ts) := by
  unfold DrawScript.enclose
  split
  · exact hts.symbol.closed
  · exact hts

theorem typeSpec (type : TypeSpec) : Lexemes type.tokens := by
  refine cons type.base.isLexeme_text ?_
  split
  · exact nil.symbol.symbol
  · exact nil

theorem moreParams {ps : List Param} (h : ∀ p ∈ ps, IsName p.name) :
    Lexemes (moreParamTokens ps) := by
  induction ps with
  | nil => exact nil
  | cons p ps ih =>
    have hp := h p List.mem_cons_self
    have hps := ih fun p hp => h p (List.mem_cons_of_mem _ hp)
    exact (((typeSpec p.type).append (cons hp.1.isLexeme nil)).symbol).append hps

theorem params {ps : List Param} (h : ∀ p ∈ ps, IsName p.name) : Lexemes (paramTokens ps) := by
  cases ps with
  | nil => exact nil
  | cons p ps =>
    have hp := h p List.mem_cons_self
    have hps := moreParams fun p hp => h p (List.mem_cons_of_mem _ hp)
    exact ((typeSpec p.type).append (cons hp.1.isLexeme nil)).append hps

theorem moreExprs {es : List Expr} (h : ∀ e ∈ es, Lexemes e.tokens) :
    Lexemes (moreExprTokens es) := by
  induction es with
  | nil => exact nil
  | cons e es ih =>
    exact (h e List.mem_cons_self).symbol.append (ih fun e he => h e (List.mem_cons_of_mem _ he))

theorem exprs {es : List Expr} (h : ∀ e ∈ es, Lexemes e.tokens) : Lexemes (exprTokens es) := by
  cases es with
  | nil => exact nil
  | cons e es =>
    exact (h e List.mem_cons_self).append (moreExprs fun e he => h e (List.mem_cons_of_mem _ he))

end Lexemes

mutual

theorem Expr.lexemes : (e : Expr) → e.WellFormed → Lexemes e.tokens
  | .assign target value _, ⟨htarget, hvalue⟩ =>
    ((target.lexemes htarget).enclose _ _).append (value.lexemes hvalue).symbol
  | .binary _ left right _, ⟨hleft, hright⟩ =>
    ((left.lexemes hleft).enclose _ _).append ((right.lexemes hright).enclose _ _).symbol
  | .unary _ operand _, h => ((operand.lexemes h).enclose _ _).symbol
  | .call name arguments _, .inl ⟨hname, harguments⟩ => by
    have hrow := Lexemes.exprs (exprs_lexemes arguments harguments)
    rw [Expr.tokens, callTokens_of_operand hname]
    exact (Lexemes.cons (hname.elim (·.1.isLexeme) (·.isLexeme)) hrow.symbol).closed
  | .call _ _ _, .inr ⟨⟨w, hw, hname⟩, _⟩ => by
    rw [Expr.tokens, hname, callTokens_dollar]
    exact (Lexemes.cons hw.1.isLexeme .nil).symbol
  | .name _ _ _, h => .cons (h.elim (·.1.isLexeme) (·.1.isLexeme)) .nil
  | .member object _ _, ⟨hobject, hname⟩ =>
    ((object.lexemes hobject).enclose _ _).append (Lexemes.cons hname.1.isLexeme .nil).symbol
  | .index object subscript _, ⟨hobject, hsubscript⟩ =>
    (((object.lexemes hobject).enclose _ _).append (subscript.lexemes hsubscript).symbol).closed
  | .vector elements _, ⟨_, helements⟩ =>
    (Lexemes.exprs (exprs_lexemes elements helements)).symbol.closed
  | .list elements _, h => (Lexemes.exprs (exprs_lexemes elements h)).symbol.closed
  | .range first last _, ⟨hfirst, hlast⟩ =>
    ((first.lexemes hfirst).symbol.append (last.lexemes hlast).symbol).closed
  | .loop iterators body _, ⟨_, hiterators, hbody⟩ =>
    (iterators_lexemes iterators hiterators).symbol.symbol.append (body.lexemes hbody).symbol
  | .cases branches _, h => (branches_lexemes branches h).symbol.symbol.closed

theorem exprs_lexemes : (es : List Expr) → wellFormedExprs es → ∀ e ∈ es, Lexemes e.tokens
  | [], _ => nofun
  | e :: es, ⟨he, hes⟩ => List.forall_mem_cons.mpr ⟨e.lexemes he, exprs_lexemes es hes⟩

theorem iterators_lexemes :
    (its : List Iterator) → wellFormedIterators its → Lexemes (iteratorTokens its)
  | [], _ => .nil
  | .mk _ range :: its, ⟨hname, hrange, hits⟩ =>
    .append (.cons hname.1.isLexeme (range.lexemes hrange).symbol) (moreIterators_lexemes its hits)

theorem moreIterators_lexemes :
    (its : List Iterator) → wellFormedIterators its → Lexemes (moreIteratorTokens its)
  | [], _ => .nil
  | .mk _ range :: its, ⟨hname, hrange, hits⟩ =>
    (Lexemes.cons hname.1.isLexeme (range.lexemes hrange).symbol).symbol.append
      (moreIterators_lexemes its hits)

theorem branches_lexemes :
    (bs : List Branch) → wellFormedBranches bs → Lexemes (branchTokens bs)
  | [], _ => .nil
  | .tested test result :: bs, ⟨htest, hresult, hbs⟩ =>
    ((test.lexemes htest).append (result.lexemes hresult).symbol).append
      (branches_lexemes bs hbs).symbol
  | .otherwise result :: _, ⟨hresult, hbs⟩ => hbs ▸ (result.lexemes hresult).closed

theorem Block.lexemes : (b : Block) → b.WellFormed → Lexemes b.tokens
  | .mk statements _, h => (statements_lexemes statements h).symbol.closed

theorem Statement.lexemes : (s : Statement) → s.WellFormed → Lexemes s.tokens
  | .function returns _ _ body _, ⟨hname, hparams, hbody⟩ =>
    ((Lexemes.typeSpec returns).append
      (.cons hname.1.isLexeme (Lexemes.params hparams).symbol)).append (body.lexemes hbody).symbol
  | .binding type _ value _, ⟨hname, hvalue⟩ =>
    (Lexemes.typeSpec type).append (.cons hname.1.isLexeme (value_lexemes value hvalue))
  | .ret value _, h => (value.lexemes h).symbol.closed
  | .expression value _, h => (value.lexemes h).closed

theorem statements_lexemes :
    (ss : List Statement) → wellFormedStatements ss → Lexemes (statementTokens ss)
  | [], _ => .nil
  | s :: ss, ⟨hs, hss⟩ => (s.lexemes hs).append (statements_lexemes ss hss)

theorem value_lexemes :
    (value : Option Expr) → wellFormedValue value → Lexemes (valueTokens value)
  | none, _ => Lexemes.nil.symbol
  | some e, h => (e.lexemes h).symbol.closed

end

theorem Statement.lexemes_of_top {s : Statement} (h : s.WellFormedTop) : Lexemes s.tokens := by
  cases s with
  | function returns name params body span => exact Statement.lexemes _ h
  | binding type name value span => exact Statement.lexemes _ h.2
  | uniform type name value span =>
    obtain ⟨-, hname, hvalue⟩ := h
    exact (Lexemes.typeSpec type).symbol.append (.cons hname.1.isLexeme (value_lexemes value hvalue))
  | directive name value span =>
    obtain ⟨hname, hvalue⟩ := h
    exact (Lexemes.cons hname.1.isLexeme (Lexemes.cons hvalue.isLexeme Lexemes.nil.symbol).symbol).symbol
  | draw command arguments span =>
    have hrow := Lexemes.exprs (exprs_lexemes arguments h)
    exact (Lexemes.cons command.isLexeme_text hrow.symbol).append Lexemes.nil.symbol.symbol
  | ret value span => exact h.elim
  | expression value span => exact h.elim

theorem Script.lexemes {p : Script} (h : p.WellFormed) : Lexemes (statementTokens p.body) := by
  obtain ⟨body⟩ := p
  induction body with
  | nil => exact .nil
  | cons s ss ih =>
    obtain ⟨hs, hss⟩ := List.forall_mem_cons.mp h
    exact (Statement.lexemes_of_top hs).append (ih hss)

end DrawScript
