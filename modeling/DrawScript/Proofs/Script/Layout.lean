import DrawScript.Proofs.Script.Exchange
import DrawScript.Proofs.Token.Spacing

/-!
The layout of a script does not matter. A script whose tokens are written anew, with any blanks and
comments between them, has the same tokens, and reads as the same script or fails with the same error;
only positions differ.
-/

namespace DrawScript.Script

theorem relabelResult_forget_congr {ts us : List Token}
    (h : ts.map (Token.relabel Span.forget) = us.map (Token.relabel Span.forget)) :
    relabelResult Span.forget (ofTokens ts) = relabelResult Span.forget (ofTokens us) := by
  rw [relabelResult_ofTokens, relabelResult_ofTokens, h]
  rfl

/-- Tokens written anew, with separators between neighbours and a gap before the first, keep their
kinds and texts, and read as the same script or the same error but for positions. -/
theorem parse_spread {source layout : String} {lead cs : List Char} (hlead : Gap lead)
    (hcs : Spread (Token.tokenize source) cs) (hlayout : layout.toList = lead ++ cs) :
    (Token.tokenize layout).map (fun t => (t.kind, t.text)) =
        (Token.tokenize source).map (fun t => (t.kind, t.text)) ∧
      relabelResult Span.forget (parse layout) = relabelResult Span.forget (parse source) := by
  have hlexemes : ∀ t ∈ Token.tokenize source, (t.relabel Span.forget).IsLexeme :=
    fun t ht => Token.isLexeme_of_mem_tokenize ht
  have htokens := Token.tokenize_spread hlexemes hlead hcs hlayout
  refine ⟨?_, relabelResult_forget_congr htokens⟩
  have hmap := congrArg (List.map fun t : Token => (t.kind, t.text)) htokens
  rw [List.map_map, List.map_map] at hmap
  exact hmap

theorem parse_spread_comments :
    (Token.tokenize " //\nfloat\tx = 1.5 // a;\n/ // a;\nb\r\n ;").map (fun t => (t.kind, t.text)) =
        (Token.tokenize "float x=1.5/b;").map (fun t => (t.kind, t.text)) ∧
      relabelResult Span.forget (parse " //\nfloat\tx = 1.5 // a;\n/ // a;\nb\r\n ;") =
        relabelResult Span.forget (parse "float x=1.5/b;") := by
  have hlead : Gap [' ', '/', '/', '\n'] := .blank rfl (.comment List.not_mem_nil .nil)
  have htab : Separator ['\t'] := ⟨.blank rfl .nil, '\t', _, rfl, rfl⟩
  have hcomment : Gap ('/' :: '/' :: ([' ', 'a', ';'] ++ '\n' :: [])) := .comment (by decide) .nil
  have hnote : Separator [' ', '/', '/', ' ', 'a', ';', '\n'] :=
    ⟨.blank rfl hcomment, ' ', _, rfl, rfl⟩
  have hbreak : Separator ['\r', '\n', ' '] :=
    ⟨.blank rfl (.blank rfl (.blank rfl .nil)), '\r', _, rfl, rfl⟩
  have hspread := Spread.cons ⟨.type, "float", ⟨1, 1⟩⟩ htab <| .cons ⟨.text, "x", ⟨1, 7⟩⟩ .space <|
    .cons ⟨.operator .equals, "=", ⟨1, 8⟩⟩ .space <| .cons ⟨.text, "1.5", ⟨1, 9⟩⟩ hnote <|
    .cons ⟨.operator .slash, "/", ⟨1, 12⟩⟩ hnote <| .cons ⟨.text, "b", ⟨1, 13⟩⟩ hbreak <|
    .last ⟨.semicolon, ";", ⟨1, 14⟩⟩
  have htokens : Token.tokenize "float x=1.5/b;" =
      [⟨.type, "float", ⟨1, 1⟩⟩, ⟨.text, "x", ⟨1, 7⟩⟩, ⟨.operator .equals, "=", ⟨1, 8⟩⟩,
        ⟨.text, "1.5", ⟨1, 9⟩⟩, ⟨.operator .slash, "/", ⟨1, 12⟩⟩, ⟨.text, "b", ⟨1, 13⟩⟩,
        ⟨.semicolon, ";", ⟨1, 14⟩⟩] := by
    decide +kernel
  rw [← htokens] at hspread
  exact parse_spread hlead hspread (by decide +kernel)

end DrawScript.Script
