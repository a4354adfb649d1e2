import DrawScript.Proofs.Script.Exchange
import DrawScript.Proofs.Script.Window
import DrawScript.Proofs.Token.Spacing

/-!
Scripts one after the other. A script and a text after a line break read as the statements of the
script and then as the text does by itself, with its positions moved down by the lines before it; an
error of the text is reported in the same way.
-/

namespace DrawScript

def Span.down (n : Nat) (s : Span) : Span := ⟨s.line + n, s.column⟩

theorem Span.advanceAll_down (n : Nat) (s : Span) (cs : List Char) :
    (s.down n).advanceAll cs = (s.advanceAll cs).down n := by
  induction cs generalizing s with
  | nil => rfl
  | cons c cs ih =>
    have hadvance : (s.down n).advance c = (s.advance c).down n := by
      unfold advance down
      split
      · rw [Nat.add_right_comm]
      · rfl
    rw [advanceAll_cons, advanceAll_cons, hadvance, ih]

namespace Piece

theorem place_append (ps qs : List Piece) (s : Span) :
    place s (ps ++ qs) = place s ps ++ place (s.advanceAll (ps.flatMap chars)) qs := by
  induction ps generalizing s with
  | nil => rfl
  | cons p ps ih =>
    rw [List.cons_append, place, place, ih, List.flatMap_cons, Span.advanceAll_append]
    cases p.token? s <;> rfl

theorem place_down (n : Nat) (ps : List Piece) (s : Span) :
    place (s.down n) ps = (place s ps).map (Token.relabel (Span.down n)) := by
  induction ps generalizing s with
  | nil => rfl
  | cons p ps ih =>
    rw [place, place, Span.advanceAll_down, ih]
    cases p <;> rfl

end Piece

theorem Token.tokenize_append_line (source rest : String) :
    tokenize (source ++ "\n" ++ rest) =
      tokenize source ++
        (tokenize rest).map (Token.relabel (Span.down (1 + source.toList.count '\n'))) := by
  have hsplit : Piece.split (source ++ "\n" ++ rest).toList =
      Piece.split source.toList ++ (.blank '\n' :: Piece.split rest.toList) := by
    rw [String.toList_append, String.toList_append, List.append_assoc]
    change Piece.split (source.toList ++ '\n' :: rest.toList) = _
    rw [Piece.split_append_blank rfl _ (.inl rfl), Piece.split_of_isBlank rfl]
  have hstart : (Span.start.advanceAll source.toList).advance '\n' =
      Span.start.down (1 + source.toList.count '\n') := by
    rw [Span.advanceAll_start]
    simp [Span.advance, Span.down, Span.start, Nat.add_comm]
  rw [tokenize, hsplit, Piece.place_append, Piece.flatMap_chars_split, Piece.place]
  change _ ++ Piece.place ((Span.start.advanceAll source.toList).advance '\n') _ = _
  rw [hstart, Piece.place_down]
  rfl

namespace Parser

variable {stop : Span} {ts r : List Token} {s : Statement}

theorem script_skip (stop : Span) (ts : List Token) :
    script stop (skip .semicolon ts) = script stop ts := by
  rw [skip_eq]
  split
  next h =>
    obtain ⟨t, us, rfl, ht⟩ := exists_of_nextIs h
    rw [script_cons, if_pos ht]
    rfl
  next => rfl

theorem script_skip_append (stop : Span) (ts us : List Token) :
    script stop (skip .semicolon (ts ++ us)) = script stop (skip .semicolon ts ++ us) := by
  cases ts with
  | nil => exact script_skip stop us
  | cons t ts =>
    rw [skip_eq, skip_eq, List.cons_append, nextIs_cons, nextIs_cons]
    split <;> rfl

/-- A statement is read in the same way with more tokens behind it. A draw call may take a semicolon
from them, which would be skipped without it. -/
theorem topLevel_append (h : (topLevel stop ts).outcome = .ok (s, r)) (stop' : Span)
    (us : List Token) :
    ∃ r', (topLevel stop' (ts ++ us)).outcome = .ok (s, r') ∧
      script stop' r' = script stop' (r ++ us) := by
  cases ts with
  | nil => cases h
  | cons t ts =>
    by_cases hdraw : t.kind = .draw
    · rw [outcome_topLevel] at h
      rw [List.cons_append, outcome_topLevel]
      simp only [hdraw] at h ⊢
      cases hcommand : DrawCommand.ofText? t.text with
      | none =>
        rw [hcommand] at h
        cases h
      | some command =>
        rw [hcommand] at h
        dsimp only at h ⊢
        rw [outcome_drawCall_eq] at h ⊢
        obtain ⟨es, r₁, h₁, h₂⟩ := Outcome.andThen_eq_ok.mp h
        cases h₂
        obtain ⟨taken, rfl, -, hsame⟩ := (drawArguments_window ts).ok h₁
        have harguments := hsame r₁ [] (List.append_nil _).symm (Nat.zero_le _) stop' us
        refine ⟨skip .semicolon (r₁ ++ us), ?_, script_skip_append stop' r₁ us⟩
        rw [List.append_assoc, harguments]
        rfl
    · obtain ⟨taken, htaken, -, hsame⟩ := (topLevel_window ts hdraw).ok h
      refine ⟨r ++ us, ?_, rfl⟩
      rw [htaken, List.append_assoc]
      exact hsame r [] (List.append_nil _).symm (Nat.zero_le _) stop' us

theorem script_append {ss : List Statement} (h : script stop ts = .ok ss) (stop' : Span)
    (us : List Token) :
    script stop' (ts ++ us) =
      match script stop' us with
      | .ok ss' => .ok (ss ++ ss')
      | .error e => .error e := by
  -- A statement takes any number of tokens, so the induction is on how many are left.
  induction hlength : ts.length using Nat.strongRecOn generalizing ts ss with | ind n ih => ?_
  subst hlength
  cases ts with
  | nil =>
    rw [script_nil] at h
    cases h
    rw [List.nil_append]
    cases script stop' us <;> rfl
  | cons t ts =>
    rw [script_cons] at h
    rw [List.cons_append, script_cons]
    split_ifs at h ⊢ with hmark
    · exact ih ts.length (Nat.lt_succ_self _) h rfl
    · match htop : (topLevel stop (t :: ts)).outcome with
      | .error e =>
        rw [htop] at h
        cases h
      | .ok (s, r) =>
        rw [htop] at h
        dsimp only at h
        have hlt := Step.lt_of_outcome htop
        obtain ⟨r', hr', hscript⟩ := topLevel_append htop stop' us
        rw [List.cons_append] at hr'
        cases hrest : script stop r with
        | error e =>
          rw [hrest] at h
          cases h
        | ok ss₁ =>
          rw [hrest] at h
          cases h
          rw [hr']
          dsimp only
          rw [hscript, ih r.length hlt hrest rfl]
          cases script stop' us <;> rfl

end Parser

namespace Script

theorem stop_ofTokens_append (n : Nat) (ts : List Token) {us : List Token} (hus : us ≠ []) :
    (Reader.ofTokens (ts ++ us.map (Token.relabel (Span.down n)))).stop =
      (Reader.ofTokens us).stop.down n := by
  obtain ⟨us, u, rfl⟩ := List.eq_nil_or_concat us |>.resolve_left hus
  simp only [Reader.ofTokens, List.concat_eq_append, List.map_append, List.map_cons, List.map_nil,
    ← List.append_assoc, List.getLast?_concat]
  rfl

theorem script_of_ofTokens {ts : List Token} {p : Script} (h : ofTokens ts = .ok p) :
    Parser.script (Reader.ofTokens ts).stop ts = .ok p.body := by
  rw [ofTokens_eq] at h
  split at h
  next body hbody =>
    cases h
    exact hbody
  next => cases h

/-- What follows a script after a line break is read as if it stood alone, a number of lines further
down. -/
theorem parse_append_line {source : String} {p : Script} (h : parse source = .ok p) (rest : String) :
    parse (source ++ "\n" ++ rest) =
      match parse rest with
      | .ok q => .ok ⟨p.body ++ (q.relabel (Span.down (1 + source.toList.count '\n'))).body⟩
      | .error e => .error (e.relabel (Span.down (1 + source.toList.count '\n'))) := by
  generalize hn : 1 + source.toList.count '\n' = n
  rw [parse, parse, Token.tokenize_append_line, hn, ofTokens_eq,
    Parser.script_append (script_of_ofTokens h)]
  by_cases hnil : Token.tokenize rest = []
  · rw [hnil, List.map_nil, ofTokens_eq, Parser.script_nil, Parser.script_nil]
    rfl
  · rw [stop_ofTokens_append n _ hnil]
    trans match relabelResult (Span.down n) (ofTokens (Token.tokenize rest)) with
      | .ok q => .ok ⟨p.body ++ q.body⟩
      | .error e => .error e
    · rw [relabelResult_ofTokens]
      cases Parser.script ((Reader.ofTokens (Token.tokenize rest)).stop.down n)
        ((Token.tokenize rest).map (Token.relabel (Span.down n))) <;> rfl
    · cases ofTokens (Token.tokenize rest) <;> rfl

theorem parse_append_line_seam :
    (∃ p, parse "polygon([1,])//;" = .ok p) ∧
      parse ("polygon([1,])//;" ++ "\n" ++ ";float k") =
        .error (.expected "';'" "end of input" ⟨2, 9⟩) := by
  have hfirst : parse "polygon([1,])//;" =
      .ok ⟨[.draw .polygon [.list [.name "1" true ⟨1, 10⟩] ⟨1, 9⟩] ⟨1, 1⟩]⟩ := by cbv
  have hsecond : parse ";float k" = .error (.expected "';'" "end of input" ⟨1, 9⟩) := by cbv
  have hlines : 1 + "polygon([1,])//;".toList.count '\n' = 1 := by decide +kernel
  have happend := parse_append_line hfirst ";float k"
  rw [hsecond, hlines] at happend
  exact ⟨⟨_, hfirst⟩, happend⟩

end Script

end DrawScript
