import DrawScript.Proofs.Script.Invariants
import DrawScript.Proofs.Script.Simulation

/-!
Where the errors of a script stand. An error is met at the cursor: it names the token there, or the end
of the text, which lies just after the last token. The only other error is that of a value of any type,
which stands at the word `uniform` or at the declared name. The words that are read as types and as
draw commands are the names of types and draw commands, so no such word is refused for its text.
-/

namespace DrawScript

open Grammar

theorem isSome_find?_of_mem {α : Type} {all : List α} {text : α → String} {names : List String}
    {w : String} (hnames : ∀ name ∈ names, ∃ a ∈ all, text a = name) (hw : w ∈ names) :
    (all.find? fun a => text a == w).isSome = true := by
  obtain ⟨a, ha, htext⟩ := hnames w hw
  exact List.find?_isSome.mpr ⟨a, ha, beq_iff_eq.mpr htext⟩

def Token.IsKnown (t : Token) : Prop :=
  (t.kind = .type → (BaseType.ofText? t.text).isSome = true) ∧
    (t.kind = .draw → (DrawCommand.ofText? t.text).isSome = true)

theorem Token.isKnown_of_mem_tokenize {source : String} {t : Token} (h : t ∈ tokenize source) :
    t.IsKnown := by
  have hclassify : t.kind.isWord = true → TokenKind.classify t.text = t.kind :=
    Piece.classify_of_isLexeme (t := t.relabel Span.forget) (isLexeme_of_mem_tokenize h)
  obtain ⟨htypes, -, hdraws⟩ := TokenKind.listed_of_classify t.text
  have htypeNames : ∀ name ∈ TokenKind.typeNames, ∃ b ∈ BaseType.all, b.text = name := by decide
  have hdrawNames : ∀ name ∈ TokenKind.drawNames, ∃ c ∈ DrawCommand.all, c.text = name := by decide
  constructor
  · intro ht
    rw [ht] at hclassify
    exact isSome_find?_of_mem htypeNames (htypes (hclassify rfl))
  · intro ht
    rw [ht] at hclassify
    exact isSome_find?_of_mem hdrawNames (hdraws (hclassify rfl))

/-- How an error after `c` of the tokens `ts` calls what it has found, and where it is put. -/
inductive FoundAt (ts : List Token) (c : Nat) : String → Span → Prop
  | token {t : Token} (ht : ts[c]? = some t) : FoundAt ts c t.describe t.span
  | finish {t : Token} (hc : c = ts.length) (ht : ts.getLast? = some t) :
      FoundAt ts c "end of input" ⟨t.span.line, t.span.column + t.text.length⟩

inductive MetAt (ts : List Token) (c : Nat) : CompileError → Prop
  | expected {found : String} {span : Span} (wanted : String) (h : FoundAt ts c found span) :
      MetAt ts c (.expected wanted found span)
  | unexpected {found : String} {span : Span} (message : String) (h : FoundAt ts c found span) :
      MetAt ts c (.unexpected found message span)
  | uniform {type : TypeSpec} {u n : Token} {before us : List Token}
      (hts : ts = before ++ (u :: us ++ n :: ts.drop c)) (hu : u.kind = .keyword .uniform)
      (htype : TypeForm type us) (hn : Name n.text n) (hany : type.text = "any" ∨ type.text = "any[]") :
      MetAt ts c (.templateMisuse type.text n.text u.span)
  | binding {type : TypeSpec} {value : Option Expr} {n : Token} {before us vs : List Token}
      (hts : ts = before ++ (us ++ n :: vs ++ ts.drop c)) (htype : TypeForm type us)
      (hn : Name n.text n) (hvalue : ValueForm value vs)
      (hany : type.text = "any" ∨ type.text = "any[]") :
      MetAt ts c (.templateMisuse type.text n.text n.span)

theorem TypeSpec.text_of_isTemplate {type : TypeSpec} (h : type.base.isTemplate = true) :
    type.text = "any" ∨ type.text = "any[]" := by
  obtain ⟨base, isList⟩ := type
  cases base with
  | any =>
    cases isList
    · exact .inl rfl
    · exact .inr rfl
  | float => cases h
  | int => cases h
  | vec2 => cases h
  | vec3 => cases h

section

variable {ts r : List Token}

theorem foundAt_of_suffix (hts : ts ≠ []) (hr : r <:+ ts) :
    FoundAt ts (ts.length - r.length) (Parser.found r) (Parser.here (Reader.ofTokens ts).stop r) := by
  cases r with
  | nil =>
    have hlast := List.getLast?_eq_some_getLast hts
    have hstop : (Reader.ofTokens ts).stop = (ts.getLast hts).stop := by
      rw [Reader.ofTokens, hlast]
    rw [Parser.here, hstop]
    exact .finish rfl hlast
  | cons t us =>
    refine .token ?_
    rw [← List.head?_drop, ← List.suffix_iff_eq_drop.mp hr]
    rfl

theorem metAt_of_cause {s : Parser.Stuck} (hts : ts ≠ []) (hknown : ∀ t ∈ ts, t.IsKnown)
    (h : Parser.Cause (Reader.ofTokens ts).stop ts s) : MetAt ts (ts.length - s.rest.length) s.error := by
  cases h with
  | wanted expected hr => exact .expected expected (foundAt_of_suffix hts hr)
  | refused message hr => exact .unexpected message (foundAt_of_suffix hts hr)
  | @noType t r hr ht htext =>
    have hsome := (hknown t (hr.subset List.mem_cons_self)).1 ht
    rw [htext] at hsome
    cases hsome
  | @noCommand t r hr ht htext =>
    have hsome := (hknown t (hr.subset List.mem_cons_self)).2 ht
    rw [htext] at hsome
    cases hsome
  | @uniform type u n us r hr hu htype hn hany =>
    have hrest : r <:+ ts := ((List.suffix_cons n r).trans (List.suffix_append _ _)).trans hr
    obtain ⟨before, hbefore⟩ := hr
    rw [List.suffix_iff_eq_drop.mp hrest] at hbefore
    exact .uniform hbefore.symm hu htype hn (TypeSpec.text_of_isTemplate hany)
  | @binding type value n us vs r hr htype hn hvalue hany =>
    have hrest : r <:+ ts := (List.suffix_append _ _).trans hr
    obtain ⟨before, hbefore⟩ := hr
    rw [List.suffix_iff_eq_drop.mp hrest] at hbefore
    exact .binding hbefore.symm htype hn hvalue (TypeSpec.text_of_isTemplate hany)

end

namespace Script

/-- The error of a text is met where the machine stops, and says what stands there. -/
theorem metAt_of_parse (source : String) :
    (∀ t ∈ Token.tokenize source, t.IsKnown) ∧
    ∀ e, parse source = .error e → ∃ c, c ≤ (Token.tokenize source).length ∧
      (Machine.ofTokens (Token.tokenize source)).script =
        some (.error e, { Machine.ofTokens (Token.tokenize source) with cursor := c }) ∧
      (Reader.ofTokens (Token.tokenize source)).script.2.rest = (Token.tokenize source).drop c ∧
      MetAt (Token.tokenize source) c e := by
  have hknown : ∀ t ∈ Token.tokenize source, t.IsKnown := fun t => Token.isKnown_of_mem_tokenize
  refine ⟨hknown, fun e he => ?_⟩
  rw [parse, ofTokens_eq] at he
  generalize Token.tokenize source = ts at hknown he ⊢
  cases hscript : Parser.script (Reader.ofTokens ts).stop ts with
  | ok body =>
    rw [hscript] at he
    cases he
  | error s =>
    rw [hscript] at he
    cases he
    -- Without tokens there is no last one to put the error behind, but then nothing fails.
    have hts : ts ≠ [] := by
      rintro rfl
      rw [Parser.script_nil] at hscript
      cases hscript
    have hfollows := Routine.script.agrees _ ts (Machine.at_ofTokens ts) fun _ => rfl
    have houtcome : Parser.scriptOutcome (Reader.ofTokens ts).stop ts = .error s := by
      rw [Parser.scriptOutcome, hscript]
    rw [Routine.outcome, show (Machine.ofTokens ts).stop = (Reader.ofTokens ts).stop from rfl,
      houtcome] at hfollows
    refine ⟨_, Nat.sub_le _ _, (Plan.eval_ask _ _).symm.trans hfollows.eval_eq, ?_,
      metAt_of_cause hts hknown (hfollows.cause trivial rfl)⟩
    rw [Reader.script, Reader.rest_ofTokens, hscript]
    exact List.suffix_iff_eq_drop.mp hfollows.suffix

theorem metAt_of_parse_nested :
    parse "float f()\x7breturn g(1,(2;\x7d" = .error (.expected "')' or ','" "';'" ⟨1, 24⟩) ∧
      ∃ c, (Token.tokenize "float f()\x7breturn g(1,(2;\x7d").drop c =
          [⟨.semicolon, ";", ⟨1, 24⟩⟩, ⟨.rightBrace, "\x7d", ⟨1, 25⟩⟩] ∧
        MetAt (Token.tokenize "float f()\x7breturn g(1,(2;\x7d") c
          (.expected "')' or ','" "';'" ⟨1, 24⟩) := by
  have he : parse "float f()\x7breturn g(1,(2;\x7d" =
      .error (.expected "')' or ','" "';'" ⟨1, 24⟩) := by cbv
  have hrest : (Reader.ofTokens (Token.tokenize "float f()\x7breturn g(1,(2;\x7d")).script.2.rest =
      [⟨.semicolon, ";", ⟨1, 24⟩⟩, ⟨.rightBrace, "\x7d", ⟨1, 25⟩⟩] := by cbv
  obtain ⟨c, -, -, hdrop, hmet⟩ := (metAt_of_parse _).2 _ he
  exact ⟨he, c, hdrop.symm.trans hrest, hmet⟩

end Script

end DrawScript
