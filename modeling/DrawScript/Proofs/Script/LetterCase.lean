import DrawScript.Proofs.Script.Exchange
import DrawScript.Proofs.Token.LetterCase
import Mathlib

/-!
The case of letters in a script. Type names, built-in names, draw commands and keywords may be written
in letters of either case. The tree is the same, with all its positions, and so is an error, but for the
case of the word that it quotes.
-/

namespace DrawScript

inductive CompileError.Requoted : CompileError → CompileError → Prop
  | same (e : CompileError) : Requoted e e
  | expected (wanted : String) (kind : TokenKind) {word word' : String}
      (h : word'.toLower = word.toLower) (span : Span) :
      Requoted (.expected wanted (kind.label ++ " '" ++ word ++ "'") span)
        (.expected wanted (kind.label ++ " '" ++ word' ++ "'") span)
  | unexpected (kind : TokenKind) {word word' : String} (h : word'.toLower = word.toLower)
      (message : String) (span : Span) :
      Requoted (.unexpected (kind.label ++ " '" ++ word ++ "'") message span)
        (.unexpected (kind.label ++ " '" ++ word' ++ "'") message span)

namespace Token.Recased

variable {t t' : Token} (h : t.Recased t')
include h

theorem toLower_text : t'.text.toLower = t.text.toLower := by
  rw [← String.ofList_toList (s := t.text), ← String.ofList_toList (s := t'.text)]
  exact h.letters.toLower_ofList

theorem stop_eq : t'.stop = t.stop := by
  rw [stop, stop, h.span, ← String.length_toList, ← String.length_toList, h.letters.length_eq]

theorem describe_cases : t'.describe = t.describe ∨
    t.describe = t.kind.label ++ " '" ++ t.text ++ "'" ∧
      t'.describe = t.kind.label ++ " '" ++ t'.text ++ "'" := by
  rw [describe, describe, h.kind]
  split
  · exact .inr ⟨rfl, rfl⟩
  · exact .inl rfl

end Token.Recased

namespace Exchange

def recase : Exchange id where
  rel := Token.Recased
  kind h := h.kind
  span h := h.span
  text h hkind := h.text (by rw [hkind]; rfl)
  lower h := h.toLower_text

theorem requoted_of_errors {e e' : CompileError} (h : recase.Errors e e') : e.Requoted e' := by
  cases h with
  | same =>
    rw [CompileError.relabel_id]
    exact .same e
  | @expected wanted t t' h =>
    rcases h.describe_cases with hsame | ⟨hword, hword'⟩
    · rw [hsame]
      exact .same _
    · rw [hword, hword']
      exact .expected wanted t.kind h.toLower_text t.span
  | @unexpected t t' h message =>
    rcases h.describe_cases with hsame | ⟨hword, hword'⟩
    · rw [hsame]
      exact .same _
    · rw [hword, hword']
      exact .unexpected t.kind h.toLower_text message t.span

end Exchange

theorem Reader.stop_ofTokens (ts : List Token) :
    (Reader.ofTokens ts).stop = ((ts.map Token.stop).getLast?).getD Span.start := by
  rw [Reader.ofTokens, List.getLast?_map]
  cases ts.getLast? <;> rfl

namespace Script

variable {source source' : String} {ts ts' : List Token}

theorem stop_recased (h : List.Forall₂ Token.Recased ts ts') :
    (Reader.ofTokens ts').stop = (Reader.ofTokens ts).stop := by
  have hstops : ts'.map Token.stop = ts.map Token.stop := by
    induction h with
    | nil => rfl
    | cons ht _ ih => rw [List.map_cons, List.map_cons, ht.stop_eq, ih]
  rw [Reader.stop_ofTokens, Reader.stop_ofTokens, hstops]

/-- A script in which the case of letters is changed inside words that may be written in either case is
read as the same script. If it is refused, then with the same error at the same position, but for the
case of the word that the error quotes. -/
theorem parse_recased (h : Recased source source') :
    (∀ p, parse source = .ok p → parse source' = .ok p) ∧
      ∀ e, parse source = .error e → ∃ e', parse source' = .error e' ∧ e.Requoted e' := by
  have hscript := Parser.script_exchange (R := Exchange.recase) h.tokenize
    (Reader.ofTokens (Token.tokenize source)).stop
  rw [parse, parse, ofTokens_eq, ofTokens_eq, stop_recased h.tokenize]
  rw [id] at hscript
  generalize Parser.script _ (Token.tokenize source) = x at hscript ⊢
  generalize Parser.script _ (Token.tokenize source') = x' at hscript ⊢
  cases hscript with
  | ok hss =>
    rw [relabelStatements_id] at hss
    subst hss
    exact ⟨fun p hp => hp, fun e he => by cases he⟩
  | @error s s' he _ =>
    refine ⟨fun p hp => (by cases hp), ?_⟩
    rintro _ ⟨⟩
    exact ⟨s'.error, rfl, Exchange.requoted_of_errors he⟩

theorem parse_recased_misplaced : Recased "Int PI" "iNT pi" ∧
    parse "Int PI" = .error (.expected "an identifier" "builtin 'PI'" ⟨1, 5⟩) ∧
    ∃ e', parse "iNT pi" = .error e' ∧
      CompileError.Requoted (.expected "an identifier" "builtin 'PI'" ⟨1, 5⟩) e' := by
  have hrecased : Recased "Int PI" "iNT pi" := by
    refine ⟨by cbv, fun k hk => ?_⟩
    have htokens : Token.tokenize "Int PI" =
        [⟨.type, "Int", ⟨1, 1⟩⟩, ⟨.builtin, "PI", ⟨1, 5⟩⟩] := by cbv
    have hlt : k < 6 := by
      by_contra hge
      exact hk ((List.getElem?_eq_none (Nat.le_of_not_lt hge)).trans
        (List.getElem?_eq_none (Nat.le_of_not_lt hge)).symm)
    rw [htokens]
    rcases Nat.lt_trichotomy k 3 with hk' | rfl | hk'
    · exact ⟨_, List.mem_cons_self, rfl, 0, rfl, Nat.zero_le k, hk'⟩
    · exact absurd rfl hk
    · exact ⟨_, List.mem_cons_of_mem _ List.mem_cons_self, rfl, 4, rfl, hk', hlt⟩
  have herror : parse "Int PI" = .error (.expected "an identifier" "builtin 'PI'" ⟨1, 5⟩) := by cbv
  exact ⟨hrecased, herror, (parse_recased hrecased).2 _ herror⟩

end Script

end DrawScript
