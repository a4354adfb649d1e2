import DrawScript.Proofs.Script.Nodes
import DrawScript.Proofs.Script.RoundTrip
import DrawScript.Proofs.Script.Soundness

/-!
What holds of every tree that is read from a text. The tokens of a text are lexemes, so a token of a
kind that can name something starts with neither a digit nor a dollar sign. A tree that such tokens
write in the grammar is well formed, and so are all its parts.
-/

namespace DrawScript

theorem TokenKind.listed_of_classify (w : String) :
    (classify w = .type → w.toLower ∈ typeNames) ∧
      (classify w = .builtin → w.toLower ∈ builtinNames) ∧
        (classify w = .draw → w.toLower ∈ drawNames) := by
  unfold classify
  simp only [List.contains_iff_mem]
  split_ifs with htype hbuiltin hdraw
  · simp [htype]
  · simp [hbuiltin]
  · simp [hdraw]
  · split
    · simp
    · split <;> simp

theorem IsBuiltin.of_classify {w : String} (h : TokenKind.classify w = .builtin) :
    IsBuiltin w.toLower := (TokenKind.listed_of_classify w).2.1 h

namespace Grammar

def Lexed (ts : List Token) : Prop := ∀ t ∈ ts, (t.relabel Span.forget).IsLexeme

variable {t : Token} {ts us : List Token}

theorem Lexed.head (h : Lexed (t :: ts)) : (t.relabel Span.forget).IsLexeme :=
  h t List.mem_cons_self

theorem Lexed.tail (h : Lexed (t :: ts)) : Lexed ts := fun u hu => h u (List.mem_cons_of_mem t hu)

theorem Lexed.left (h : Lexed (ts ++ us)) : Lexed ts :=
  fun u hu => h u (List.mem_append_left us hu)

theorem Lexed.right (h : Lexed (ts ++ us)) : Lexed us :=
  fun u hu => h u (List.mem_append_right ts hu)

theorem isWord_of_text (h : (t.relabel Span.forget).IsLexeme) (ht : t.kind = .text) :
    IsWord t.text := by
  unfold IsWord
  rw [← ht]
  exact h

theorem isBuiltin_of_builtin (h : (t.relabel Span.forget).IsLexeme) (ht : t.kind = .builtin) :
    IsBuiltin t.text.toLower := by
  have hword : (t.relabel Span.forget).kind.isWord = true := by
    change t.kind.isWord = true
    rw [ht]
    rfl
  exact IsBuiltin.of_classify ((Piece.classify_of_isLexeme h hword).trans ht)

theorem Name.isName {name : String} (h : Name name t) (ht : (t.relabel Span.forget).IsLexeme) :
    IsName name := by
  obtain ⟨hkind, rfl, hnumeric⟩ := h
  exact ⟨isWord_of_text ht hkind, hnumeric⟩

theorem Callee.isName_or {name : String} (h : Callee name t)
    (ht : (t.relabel Span.forget).IsLexeme) : IsName name ∨ IsBuiltin name := by
  rcases h with h | ⟨hkind, rfl⟩
  · exact .inl (h.isName ht)
  · exact .inr (isBuiltin_of_builtin ht hkind)

theorem ParamForm.isName {p : Param} (h : ParamForm p ts) (hts : Lexed ts) : IsName p.name := by
  cases h with
  | mk htype hname => exact hname.isName hts.right.head

theorem ParamRow.isName {ps : List Param} (h : ParamRow ps ts) (hts : Lexed ts) :
    ∀ p ∈ ps, IsName p.name := by
  induction h with
  | nil => exact List.forall_mem_nil _
  | one hp => exact List.forall_mem_singleton.mpr (hp.isName hts)
  | cons hp ht hps ih =>
    exact List.forall_mem_cons.mpr ⟨hp.isName hts.left, ih hts.right.tail⟩

theorem IteratorRow.ne_nil {its : List Iterator} (h : IteratorRow its ts) : its ≠ [] := by
  cases h <;> exact List.cons_ne_nil _ _

mutual

theorem ExprForm.wellFormed : {r : Nat} → {e : Expr} → {ts : List Token} → ExprForm r e ts →
    Lexed ts → e.WellFormed
  | _, _, _, .assign htarget _ hvalue, hts =>
    ⟨htarget.wellFormed hts.left, hvalue.wellFormed hts.right.tail⟩
  | _, _, _, .binary hleft _ hright, hts =>
    ⟨hleft.wellFormed hts.left, hright.wellFormed hts.right.tail⟩
  | _, _, _, .unary _ he, hts => he.wellFormed hts.tail
  | _, _, _, .member he _ hn, hts => ⟨he.wellFormed hts.left, hn.isName hts.right.tail.head⟩
  | _, _, _, .index he _ hsubscript _, hts =>
    ⟨he.wellFormed hts.left, hsubscript.wellFormed hts.right.left.tail⟩
  | _, _, _, .call hc _ hes _, hts =>
    .inl ⟨hc.isName_or hts.left.head, hes.wellFormed hts.left.tail.tail⟩
  | _, _, _, .word ht, hts => .inl ⟨isWord_of_text hts.head ht, rfl⟩
  | _, _, _, .builtin ht, hts => .inr ⟨isBuiltin_of_builtin hts.head ht, rfl⟩
  | _, _, _, .dollar _ hn, hts => .inr ⟨⟨_, hn.isName hts.tail.head, rfl⟩, rfl⟩
  | _, _, _, .group _ he _, hts => he.wellFormed hts.left.tail
  | _, _, _, .emptyVector _ _, _ => ⟨by decide, trivial⟩
  | _, _, _, .vector _ hes _, hts => ⟨by simp, hes.wellFormed hts.left.tail⟩
  | _, _, _, .emptyList _ _, _ => trivial
  | _, _, _, .list _ hes _ _, hts => hes.wellFormed hts.left.left.tail
  | _, _, _, .range _ hfirst _ hlast _, hts =>
    ⟨hfirst.wellFormed hts.left.left.tail, hlast.wellFormed hts.left.right.tail⟩
  | _, _, _, .loop _ _ hits _ hbody, hts =>
    ⟨hits.ne_nil, hits.wellFormed hts.left.tail.tail, hbody.wellFormed hts.right.tail⟩
  | _, _, _, .cases _ _ hbs _, hts => hbs.wellFormed hts.left.tail.tail
  | _, _, _, .loosen _ he, hts => he.wellFormed hts

theorem ExprRow.wellFormed : {es : List Expr} → {ts : List Token} → ExprRow es ts → Lexed ts →
    wellFormedExprs es
  | _, _, .nil, _ => trivial
  | _, _, .one he, hts => ⟨he.wellFormed hts, trivial⟩
  | _, _, .cons he _ hes, hts => ⟨he.wellFormed hts.left, hes.wellFormed hts.right.tail⟩

theorem IteratorRow.wellFormed : {its : List Iterator} → {ts : List Token} → IteratorRow its ts →
    Lexed ts → wellFormedIterators its
  | _, _, .one hn _ hrange, hts => ⟨hn.isName hts.head, hrange.wellFormed hts.tail.tail, trivial⟩
  | _, _, .cons hn _ hrange _ hits, hts =>
    ⟨hn.isName hts.left.head, hrange.wellFormed hts.left.tail.tail,
      hits.wellFormed hts.right.tail⟩

theorem BranchRow.wellFormed : {bs : List Branch} → {ts : List Token} → BranchRow bs ts →
    Lexed ts → wellFormedBranches bs
  | _, _, .nil, _ => trivial
  | _, _, .tested htest _ hresult _ hbs, hts =>
    ⟨htest.wellFormed hts.left.left.left, hresult.wellFormed hts.left.left.right.tail,
      hbs.wellFormed hts.right⟩
  | _, _, .otherwise hresult _, hts => ⟨hresult.wellFormed hts.left, rfl⟩

theorem BlockForm.wellFormed : {b : Block} → {ts : List Token} → BlockForm b ts → Lexed ts →
    b.WellFormed
  | _, _, .mk _ hss _, hts => hss.wellFormed hts.left.tail

theorem StatementRow.wellFormed : {ss : List Statement} → {ts : List Token} → StatementRow ss ts →
    Lexed ts → wellFormedStatements ss
  | _, _, .nil, _ => trivial
  | _, _, .cons hs hss, hts => ⟨hs.wellFormed hts.left, hss.wellFormed hts.right⟩

theorem StatementForm.wellFormed : {s : Statement} → {ts : List Token} → StatementForm s ts →
    Lexed ts → s.WellFormed
  | _, _, .ret _ he _, hts => he.wellFormed hts.left.tail
  | _, _, .declaration hs, hts => hs.wellFormed hts
  | _, _, .expression he _, hts => he.wellFormed hts.left

theorem DeclarationForm.wellFormed : {s : Statement} → {ts : List Token} → DeclarationForm s ts →
    Lexed ts → s.WellFormed
  | _, _, .function _ hn _ hps _ hbody, hts =>
    ⟨hn.isName hts.left.right.head, hps.isName hts.left.right.tail.tail,
      hbody.wellFormed hts.right.tail⟩
  | _, _, .binding _ hn hvalue, hts => ⟨hn.isName hts.right.head, hvalue.wellFormed hts.right.tail⟩

theorem ValueForm.wellFormed : {value : Option Expr} → {ts : List Token} → ValueForm value ts →
    Lexed ts → wellFormedValue value
  | _, _, .absent _, _ => trivial
  | _, _, .present _ he _, hts => he.wellFormed hts.left.tail

end

theorem TopLevelForm.wellFormed {s : Statement} (h : TopLevelForm s ts) (hts : Lexed ts) :
    s.WellFormedTop := by
  cases h with
  | function hs => exact hs.wellFormed hts
  | binding hs htype => exact ⟨htype, hs.wellFormed hts⟩
  | uniform ht htype hconcrete hn hvalue =>
    exact ⟨hconcrete, hn.isName hts.right.head, hvalue.wellFormed hts.right.tail⟩
  | directive ht hn hc hv hu =>
    exact ⟨hn.isName hts.tail.head, isWord_of_text hts.tail.tail.tail.head hv⟩
  | draw ht hcommand hl hes hr hus => exact hes.wellFormed hts.left.tail.tail

theorem ScriptForm.wellFormed {ss : List Statement} (h : ScriptForm ss ts) (hts : Lexed ts) :
    ∀ s ∈ ss, s.WellFormedTop := by
  induction h with
  | nil => exact List.forall_mem_nil _
  | stray ht hss ih => exact ih hts.tail
  | cons hs hss ih => exact List.forall_mem_cons.mpr ⟨hs.wellFormed hts.left, ih hts.right⟩

theorem lexed_of_suffix {source : String} (h : ts <:+ Token.tokenize source) : Lexed ts :=
  fun _ ht => Token.isLexeme_of_mem_tokenize (h.subset ht)

end Grammar

def StartsWithDigit (w : String) : Prop := ∃ c cs, w.toList = c :: cs ∧ '0' ≤ c ∧ c ≤ '9'

theorem isNumeric_iff {w : String} : Parser.isNumeric w = true ↔ StartsWithDigit w := by
  unfold Parser.isNumeric StartsWithDigit
  cases w.toList with
  | nil => simp [Piece.startsWithDigit]
  | cons c cs =>
    have hdigit : c.isDigit = true ↔ '0' ≤ c ∧ c ≤ '9' := by
      rw [Char.isDigit_iff_toNat]
      rfl
    simp [Piece.startsWithDigit, hdigit]

theorem not_startsWithDigit {w : String} (h : Parser.isNumeric w = false) : ¬ StartsWithDigit w :=
  mt isNumeric_iff.mpr (Bool.eq_false_iff.mp h)

def Expr.Regular : Expr → Prop
  | .call callee arguments _ =>
    ¬ StartsWithDigit callee ∧ (callee.toList.head? = some '$' → arguments = [])
  | .name text isNumber _ => isNumber = true ↔ StartsWithDigit text
  | .member _ property _ => ¬ StartsWithDigit property
  | .vector elements _ => elements.length ≠ 1
  | .loop iterators _ _ => iterators ≠ []
  | .cases branches _ => ∀ b ∈ branches.dropLast, b.isDefault = false
  | _ => True

def Statement.Regular : Statement → Prop
  | .function _ name params _ _ =>
    ¬ StartsWithDigit name ∧ ∀ p ∈ params, ¬ StartsWithDigit p.name
  | .binding _ name _ _ | .uniform _ name _ _ | .directive name _ _ => ¬ StartsWithDigit name
  | _ => True

def Statement.IsInner : Statement → Prop
  | .function .. | .binding .. | .ret .. | .expression .. => True
  | _ => False

def Statement.IsOuter : Statement → Prop
  | .function .. | .directive .. | .draw .. => True
  | .binding type _ _ _ | .uniform type _ _ _ => type.base ≠ .any
  | _ => False

namespace Node

def Regular : Node → Prop
  | .script p => ∀ s ∈ p.body, s.IsOuter
  | .statement s => s.Regular
  | .block (.mk statements _) => ∀ s ∈ statements, s.IsInner
  | .expr e => e.Regular
  | .iterator (.mk name _) => ¬ StartsWithDigit name
  | .branch _ => True

def WellFormed : Node → Prop
  | .script p => p.WellFormed
  | .statement s => s.WellFormed ∨ s.WellFormedTop
  | .block b => b.WellFormed
  | .expr e => e.WellFormed
  | .iterator i => wellFormedIterators [i]
  | .branch (.tested test result) => test.WellFormed ∧ result.WellFormed
  | .branch (.otherwise result) => result.WellFormed

end Node

theorem wellFormedExprs_iff {es : List Expr} : wellFormedExprs es ↔ ∀ e ∈ es, e.WellFormed := by
  induction es with
  | nil => simp [wellFormedExprs]
  | cons e es ih => simp [wellFormedExprs, ih]

theorem wellFormedStatements_iff {ss : List Statement} :
    wellFormedStatements ss ↔ ∀ s ∈ ss, s.WellFormed := by
  induction ss with
  | nil => simp [wellFormedStatements]
  | cons s ss ih => simp [wellFormedStatements, ih]

theorem wellFormedIterators_iff {its : List Iterator} :
    wellFormedIterators its ↔ ∀ i ∈ its, wellFormedIterators [i] := by
  induction its with
  | nil => simp [wellFormedIterators]
  | cons i its ih =>
    obtain ⟨name, range⟩ := i
    rw [wellFormedIterators, ih]
    simp [wellFormedIterators, and_assoc]

theorem forall_mem_of_wellFormedBranches {bs : List Branch} (h : wellFormedBranches bs) :
    (∀ b ∈ bs, (Node.branch b).WellFormed) ∧ ∀ b ∈ bs.dropLast, b.isDefault = false := by
  induction bs with
  | nil => simp
  | cons b bs ih =>
    cases b with
    | tested test result =>
      obtain ⟨htest, hresult, hbs⟩ := h
      obtain ⟨hall, hlast⟩ := ih hbs
      refine ⟨List.forall_mem_cons.mpr ⟨⟨htest, hresult⟩, hall⟩, ?_⟩
      cases bs with
      | nil => simp
      | cons b bs => exact List.forall_mem_cons.mpr ⟨rfl, hlast⟩
    | otherwise result =>
      obtain ⟨hresult, rfl⟩ := h
      exact ⟨List.forall_mem_singleton.mpr hresult, by simp⟩

namespace Node

theorem wellFormed_of_value {value : Option Expr} (h : wellFormedValue value) {m : Node}
    (hm : m ∈ value.toList.map Node.expr) : m.WellFormed := by
  obtain ⟨e, he, rfl⟩ := List.mem_map.mp hm
  rw [Option.mem_toList] at he
  cases he
  exact h

theorem wellFormed_of_exprs {es : List Expr} (h : wellFormedExprs es) {m : Node}
    (hm : m ∈ es.map Node.expr) : m.WellFormed := by
  obtain ⟨e, he, rfl⟩ := List.mem_map.mp hm
  exact wellFormedExprs_iff.mp h e he

theorem wellFormed_of_pair {e e' : Expr} (h : e.WellFormed ∧ e'.WellFormed) {m : Node}
    (hm : m ∈ [Node.expr e, Node.expr e']) : m.WellFormed := by
  rcases List.mem_pair.mp hm with rfl | rfl
  · exact h.1
  · exact h.2

theorem wellFormed_expr_child {e : Expr} (h : e.WellFormed) {m : Node}
    (hm : m ∈ (Node.expr e).children) : m.WellFormed := by
  cases e with
  | assign target value span => exact wellFormed_of_pair h hm
  | binary op left right span => exact wellFormed_of_pair h hm
  | unary op operand span =>
    rw [List.mem_singleton.mp hm]
    exact h
  | call name arguments span =>
    rcases h with ⟨-, h⟩ | ⟨-, rfl⟩
    · exact wellFormed_of_exprs h hm
    · cases hm
  | name text isNumber span => cases hm
  | member object property span =>
    rw [List.mem_singleton.mp hm]
    exact h.1
  | index object subscript span => exact wellFormed_of_pair h hm
  | vector elements span => exact wellFormed_of_exprs h.2 hm
  | list elements span => exact wellFormed_of_exprs h hm
  | range first last span => exact wellFormed_of_pair h hm
  | loop iterators body span =>
    obtain ⟨-, hits, hbody⟩ := h
    rcases List.mem_append.mp hm with hm | hm
    · obtain ⟨i, hi, rfl⟩ := List.mem_map.mp hm
      exact wellFormedIterators_iff.mp hits i hi
    · rw [List.mem_singleton.mp hm]
      exact hbody
  | cases branches span =>
    obtain ⟨b, hb, rfl⟩ := List.mem_map.mp hm
    exact (forall_mem_of_wellFormedBranches h).1 b hb

theorem wellFormed_statement_child {s : Statement} (h : s.WellFormed ∨ s.WellFormedTop) {m : Node}
    (hm : m ∈ (Node.statement s).children) : m.WellFormed := by
  cases s with
  | function returns name params body span =>
    rw [List.mem_singleton.mp hm]
    exact (or_self_iff.mp h).2.2
  | binding type name value span =>
    rcases h with ⟨-, hvalue⟩ | ⟨-, -, hvalue⟩
    · exact wellFormed_of_value hvalue hm
    · exact wellFormed_of_value hvalue hm
  | uniform type name value span =>
    rcases h with h | ⟨-, -, hvalue⟩
    · exact h.elim
    · exact wellFormed_of_value hvalue hm
  | directive name value span => cases hm
  | draw command arguments span =>
    rcases h with h | h
    · exact h.elim
    · exact wellFormed_of_exprs h hm
  | ret value span | expression value span =>
    rw [List.mem_singleton.mp hm]
    exact h.resolve_right id

theorem wellFormed_child (n : Node) (h : n.WellFormed) : ∀ m ∈ n.children, m.WellFormed := by
  intro m hm
  match n with
  | .script p =>
    obtain ⟨s, hs, rfl⟩ := List.mem_map.mp hm
    exact .inr (h s hs)
  | .statement s => exact wellFormed_statement_child h hm
  | .block (.mk statements span) =>
    obtain ⟨s, hs, rfl⟩ := List.mem_map.mp hm
    exact .inl (wellFormedStatements_iff.mp h s hs)
  | .expr e => exact wellFormed_expr_child h hm
  | .iterator (.mk name range) =>
    rw [List.mem_singleton.mp hm]
    exact h.2.1
  | .branch (.tested test result) => exact wellFormed_of_pair h hm
  | .branch (.otherwise result) =>
    rw [List.mem_singleton.mp hm]
    exact h

end Node

theorem IsName.not_startsWithDigit {w : String} (h : IsName w) : ¬ StartsWithDigit w :=
  DrawScript.not_startsWithDigit h.2

theorem IsBuiltin.not_startsWithDigit {w : String} (h : IsBuiltin w) : ¬ StartsWithDigit w := by
  have hall : ∀ w ∈ TokenKind.builtinNames, Parser.isNumeric w = false := by decide
  exact DrawScript.not_startsWithDigit (hall w h)

theorem Expr.WellFormed.regular {e : Expr} (h : e.WellFormed) : e.Regular := by
  cases e with
  | call name arguments span =>
    rcases h with ⟨hname | hname, -⟩ | ⟨⟨w, -, rfl⟩, harguments⟩
    · exact ⟨hname.not_startsWithDigit, fun hdollar => absurd hdollar hname.head?_ne_dollar⟩
    · exact ⟨hname.not_startsWithDigit, fun hdollar => absurd hdollar hname.head?_ne_dollar⟩
    · refine ⟨DrawScript.not_startsWithDigit ?_, fun _ => harguments⟩
      simp [Parser.isNumeric, Piece.startsWithDigit]
  | name text isNumber span =>
    rcases h with ⟨-, rfl⟩ | ⟨hbuiltin, rfl⟩
    · exact isNumeric_iff
    · simpa [Expr.Regular] using hbuiltin.not_startsWithDigit
  | member object property span => exact h.2.not_startsWithDigit
  | vector elements span => exact h.1
  | loop iterators body span => exact h.1
  | cases branches span => exact (forall_mem_of_wellFormedBranches h).2
  | assign | binary | unary | index | list | range => trivial

theorem Statement.regular_of_wellFormed {s : Statement} (h : s.WellFormed ∨ s.WellFormedTop) :
    s.Regular := by
  cases s with
  | function returns name params body span =>
    obtain ⟨hname, hparams, -⟩ := or_self_iff.mp h
    exact ⟨hname.not_startsWithDigit, fun p hp => (hparams p hp).not_startsWithDigit⟩
  | binding type name value span =>
    rcases h with ⟨hname, -⟩ | ⟨-, hname, -⟩
    · exact hname.not_startsWithDigit
    · exact hname.not_startsWithDigit
  | uniform type name value span =>
    rcases h with h | ⟨-, hname, -⟩
    · exact h.elim
    · exact hname.not_startsWithDigit
  | directive name value span =>
    rcases h with h | ⟨hname, -⟩
    · exact h.elim
    · exact hname.not_startsWithDigit
  | draw | ret | expression => trivial

theorem Statement.WellFormed.isInner {s : Statement} (h : s.WellFormed) : s.IsInner := by
  cases s with
  | function | binding | ret | expression => trivial
  | uniform | directive | draw => exact h

theorem Statement.WellFormedTop.isOuter {s : Statement} (h : s.WellFormedTop) : s.IsOuter := by
  cases s with
  | function | directive | draw => trivial
  | binding type name value span | uniform type name value span =>
    intro hany
    have hconcrete := h.1
    rw [hany] at hconcrete
    cases hconcrete
  | ret | expression => exact h

theorem Node.WellFormed.regular {n : Node} (h : n.WellFormed) : n.Regular := by
  match n with
  | .script p => exact fun s hs => (h s hs).isOuter
  | .statement s => exact Statement.regular_of_wellFormed h
  | .block (.mk statements span) =>
    exact fun s hs => (wellFormedStatements_iff.mp h s hs).isInner
  | .expr e => exact Expr.WellFormed.regular h
  | .iterator (.mk name range) => exact h.1.not_startsWithDigit
  | .branch b => trivial

theorem Node.WellFormed.regular_of_holds {n m : Node} (h : n.WellFormed) (hm : n.Holds m) :
    m.Regular :=
  (hm.preserves wellFormed_child h).regular

def Script.innerAny : Script :=
  ⟨[.function ⟨.float, false⟩ "f" []
    (.mk [.binding ⟨.any, false⟩ "y" none Span.start] Span.start) Span.start]⟩

theorem Script.wellFormed_innerAny : Script.innerAny.WellFormed := by
  have hf : IsName "f" := ⟨by unfold IsWord Token.IsLexeme; decide +kernel, by decide⟩
  have hy : IsName "y" := ⟨by unfold IsWord Token.IsLexeme; decide +kernel, by decide⟩
  intro s hs
  rw [List.mem_singleton.mp hs]
  exact ⟨hf, List.forall_mem_nil _, ⟨hy, trivial⟩, trivial⟩

theorem Script.exists_inner_any :
    ∃ p type name value span, Script.parse Script.innerAny.print = .ok p ∧ type.base = .any ∧
      (Node.script p).Holds (.statement (.binding type name value span)) := by
  obtain ⟨⟨ss⟩, hparse, hq⟩ := Script.exists_parse_print Script.wellFormed_innerAny (by decide)
  obtain ⟨⟨ss', span'⟩, span, rfl, hbody⟩ := Statement.exists_of_relabel_function (Script.mk.inj hq)
  obtain ⟨s, rfl, hs⟩ := exists_of_relabelStatements_eq (Block.mk.inj hbody).1
  cases s with
  | binding type name value span =>
    obtain ⟨rfl, -⟩ := Statement.binding.inj hs
    refine ⟨_, ⟨.any, false⟩, name, value, span, hparse, rfl, ?_⟩
    exact .down (List.mem_singleton_self _) (.down (List.mem_singleton_self _)
      (.down (List.mem_singleton_self _) (.refl _)))
  | _ => cases hs

namespace Reader

variable {r : Reader}

theorem wellFormed_of_script {p : Script} (hr : Grammar.Lexed r.rest)
    (h : r.script.1 = .ok p) : p.WellFormed := by
  unfold Reader.script at h
  split at h
  next hbody =>
    cases h
    exact (Parser.script_sound hbody).wellFormed hr
  next => cases h

theorem wellFormed_of_expression {e : Expr} (hr : Grammar.Lexed r.rest)
    (h : r.expression.1 = .ok e) : e.WellFormed := by
  unfold Reader.expression at h
  split at h
  next t ht =>
    cases h
    have houtcome : (Parser.expression r.stop Parser.maxDepth r.rest).outcome =
        .ok (t.value, t.rest) := by
      rw [ht]
      rfl
    obtain ⟨us, hus, he⟩ := (Parser.soundBelow r.stop (r.rest.length + 1)).expression
      (Nat.lt_succ_self _) houtcome
    rw [hus] at hr
    exact he.wellFormed hr.left
  next => cases h

/-- Every script and every expression that is read from a text, at whatever token the reading starts,
is regular at every node. A variable of any type can stand below the top only. -/
theorem regular_of_tokenize :
    (∀ (source : String) (r : Reader), r.rest <:+ Token.tokenize source →
      (∀ p, r.script.1 = .ok p → ∀ n, (Node.script p).Holds n → n.Regular) ∧
      (∀ e, r.expression.1 = .ok e → ∀ n, (Node.expr e).Holds n → n.Regular)) ∧
    ∃ source p type name value span, Script.parse source = .ok p ∧ type.base = .any ∧
      (Node.script p).Holds (.statement (.binding type name value span)) := by
  constructor
  · intro source r hr
    have hlexed := Grammar.lexed_of_suffix hr
    constructor
    · intro p hp n hn
      have hroot : (Node.script p).WellFormed := wellFormed_of_script hlexed hp
      exact hroot.regular_of_holds hn
    · intro e he n hn
      have hroot : (Node.expr e).WellFormed := wellFormed_of_expression hlexed he
      exact hroot.regular_of_holds hn
  · obtain ⟨p, type, name, value, span, hparse, hany, hholds⟩ := Script.exists_inner_any
    exact ⟨_, p, type, name, value, span, hparse, hany, hholds⟩

theorem regular_of_tokenize_rest :
    ∃ p, (Reader.mk ⟨1, 42⟩ ((Token.tokenize
        "x[0] float f()\x7bany y=switch\x7ba:(1,2),$t\x7d;\x7d").drop 4)).script.1 = .ok p ∧
      ∀ n, (Node.script p).Holds n → n.Regular := by
  have h : (Reader.mk ⟨1, 42⟩ ((Token.tokenize
      "x[0] float f()\x7bany y=switch\x7ba:(1,2),$t\x7d;\x7d").drop 4)).script.1 = .ok ⟨[
        .function ⟨.float, false⟩ "f" [] (.mk [.binding ⟨.any, false⟩ "y"
          (some (.cases [
            .tested (.name "a" false ⟨1, 29⟩)
              (.vector [.name "1" true ⟨1, 32⟩, .name "2" true ⟨1, 34⟩] ⟨1, 31⟩),
            .otherwise (.call "$t" [] ⟨1, 37⟩)] ⟨1, 22⟩)) ⟨1, 20⟩] ⟨1, 15⟩) ⟨1, 12⟩]⟩ := by cbv
  exact ⟨_, h, (regular_of_tokenize.1 _ _ (List.drop_suffix 4 _)).1 _ h⟩

end Reader

end DrawScript
