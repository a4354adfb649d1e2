import DrawScript.Proofs.Token.Spacing
import Mathlib.Data.List.Forall2

/-!
The case of letters in words. Letters neither end a word nor start a symbol, whatever their case, so a
text in which the case of letters is changed is cut into pieces at the same places. The kind of a word
does not depend on the case either. Where only words of kinds other than plain text are changed, the
tokens are the same but for the letters of those words.
-/

namespace DrawScript

namespace Text

abbrev SameLetters : List Char → List Char → Prop := List.Forall₂ fun c c' => c'.toLower = c.toLower

theorem isAlpha_iff {c : Char} :
    c.isAlpha = true ↔ 65 ≤ c.toNat ∧ c.toNat ≤ 90 ∨ 97 ≤ c.toNat ∧ c.toNat ≤ 122 := by
  change (decide (65 ≤ c.val ∧ c.val ≤ 90) || (decide (97 ≤ c.val) && decide (c.val ≤ 122))) = true ↔ _
  simp only [Bool.or_eq_true, Bool.and_eq_true, decide_eq_true_eq, UInt32.le_iff_toNat_le]
  rfl

theorem toNat_toLower (c : Char) :
    c.toLower.toNat = if 65 ≤ c.toNat ∧ c.toNat ≤ 90 then c.toNat + 32 else c.toNat := by
  have hcapital : (c.val ≥ 65 ∧ c.val ≤ 90) ↔ 65 ≤ c.toNat ∧ c.toNat ≤ 90 := by
    simp only [ge_iff_le, UInt32.le_iff_toNat_le]
    rfl
  by_cases h : c.val ≥ 65 ∧ c.val ≤ 90
  · have hlower : c.toLower.val = c.val + 32 := congrArg Char.val (dif_pos h)
    have hnat : c.toLower.toNat = (c.toNat + 32) % 4294967296 :=
      (congrArg UInt32.toNat hlower).trans (UInt32.toNat_add ..)
    have hrange := hcapital.mp h
    rw [if_pos hrange, hnat]
    omega
  · rw [if_neg (mt hcapital.mpr h)]
    exact congrArg Char.toNat (dif_neg h)

section

variable {c c' : Char} (h : c'.toLower = c.toLower)
include h

theorem isAlpha_of_toLower_eq : c'.isAlpha = c.isAlpha := by
  have hnat := congrArg Char.toNat h
  rw [toNat_toLower, toNat_toLower] at hnat
  rw [Bool.eq_iff_iff, isAlpha_iff, isAlpha_iff]
  split_ifs at hnat <;> omega

theorem eq_of_toLower_eq (hc : c.isAlpha = false) : c' = c := by
  have hself : ∀ d : Char, d.isAlpha = false → d.toLower = d := by
    intro d hd
    have hother := mt isAlpha_iff.mpr (Bool.eq_false_iff.mp hd)
    rw [← Char.toNat_inj, toNat_toLower, if_neg (by omega)]
  rw [← hself c hc, ← h, hself c' ((isAlpha_of_toLower_eq h).trans hc)]

theorem eq_iff_of_toLower_eq {d : Char} (hd : d.isAlpha = false) : c' = d ↔ c = d := by
  constructor
  · rintro rfl
    exact (eq_of_toLower_eq h (by rw [← isAlpha_of_toLower_eq h, hd])).symm
  · rintro rfl
    exact eq_of_toLower_eq h hd

theorem apply_eq_of_toLower_eq {α : Type} {p : Char → α} {a : α}
    (hp : ∀ d : Char, d.isAlpha = true → p d = a) : p c' = p c := by
  cases hc : c.isAlpha with
  | true => rw [hp c hc, hp c' ((isAlpha_of_toLower_eq h).trans hc)]
  | false => rw [eq_of_toLower_eq h hc]

end

theorem isAlphanum_of_isAlpha {c : Char} (h : c.isAlpha = true) : c.isAlphanum = true := by
  change (c.isAlpha || c.isDigit) = true
  rw [h, Bool.true_or]

theorem isDigit_of_isAlpha {c : Char} (h : c.isAlpha = true) : c.isDigit = false := by
  rw [Bool.eq_false_iff]
  intro hdigit
  have hletter := isAlpha_iff.mp h
  have hrange : 48 ≤ c.toNat ∧ c.toNat ≤ 57 := Char.isDigit_iff_toNat.mp hdigit
  omega

theorem sameLetters_iff {cs cs' : List Char} :
    SameLetters cs cs' ↔ cs'.map Char.toLower = cs.map Char.toLower := by
  rw [eq_comm, ← List.forall₂_eq_eq_eq, List.forall₂_map_left_iff, List.forall₂_map_right_iff]
  exact ⟨fun h => h.imp fun _ _ => Eq.symm, fun h => h.imp fun _ _ => Eq.symm⟩

namespace SameLetters

variable {cs cs' : List Char}

theorem eq_iff (h : SameLetters cs cs') {ds : List Char} (hds : ds.all fun d => !d.isAlpha) :
    cs' = ds ↔ cs = ds := by
  induction h generalizing ds with
  | nil => rfl
  | cons hc _ ih =>
    cases ds with
    | nil => simp
    | cons d ds =>
      simp only [List.all_cons, Bool.and_eq_true, Bool.not_eq_true'] at hds
      rw [List.cons.injEq, List.cons.injEq, eq_iff_of_toLower_eq hc hds.1, ih hds.2]

theorem head?_eq_iff (h : SameLetters cs cs') {d : Char} (hd : d.isAlpha = false) :
    cs'.head? = some d ↔ cs.head? = some d := by
  cases h with
  | nil => rfl
  | cons hc _ =>
    rw [List.head?_cons, List.head?_cons, Option.some_inj, Option.some_inj, eq_iff_of_toLower_eq hc hd]

theorem line (h : SameLetters cs cs') :
    SameLetters (cs.takeWhile (· != '\n')) (cs'.takeWhile (· != '\n')) ∧
      SameLetters (cs.dropWhile (· != '\n')) (cs'.dropWhile (· != '\n')) := by
  induction h with
  | nil => exact ⟨.nil, .nil⟩
  | @cons c c' cs cs' hc hcs ih =>
    have hbreak := eq_iff_of_toLower_eq hc (d := '\n') (by decide)
    by_cases h : c = '\n'
    · simp [h, hbreak.mpr h, hcs]
    · simp [h, mt hbreak.mp h, hc, ih]

theorem advanceAll (h : SameLetters cs cs') (s : Span) : s.advanceAll cs' = s.advanceAll cs := by
  induction h generalizing s with
  | nil => rfl
  | @cons c c' cs cs' hc _ ih =>
    have hadvance : s.advance c' = s.advance c := by
      simp only [Span.advance, eq_iff_of_toLower_eq hc (d := '\n') (by decide)]
    rw [Span.advanceAll_cons, Span.advanceAll_cons, hadvance, ih]

theorem toLower_ofList (h : SameLetters cs cs') :
    (String.ofList cs').toLower = (String.ofList cs).toLower := by
  change (String.ofList cs').map Char.toLower = (String.ofList cs).map Char.toLower
  rw [← String.toList_inj, String.toList_map, String.toList_map, String.toList_ofList,
    String.toList_ofList, sameLetters_iff.mp h]

end SameLetters

end Text

open Text

namespace Piece

inductive Recased : Piece → Piece → Prop
  | blank (c : Char) : Recased (.blank c) (.blank c)
  | comment {text text' : List Char} (h : SameLetters text text') :
      Recased (.comment text) (.comment text')
  | symbol (kind : TokenKind) (text : List Char) : Recased (.symbol kind text) (.symbol kind text)
  | word {text text' : List Char} (h : SameLetters text text') : Recased (.word text) (.word text')

theorem Recased.chars {p p' : Piece} (h : Recased p p') : SameLetters p.chars p'.chars := by
  cases h with
  | blank c => exact .cons rfl .nil
  | symbol kind text => exact List.forall₂_refl _
  | comment h => exact h
  | word h => exact h

section

variable {c c' : Char} (hc : c'.toLower = c.toLower) {cs cs' : List Char} (hcs : SameLetters cs cs')

include hc in
theorem isDigit_of_toLower_eq : c'.isDigit = c.isDigit :=
  apply_eq_of_toLower_eq hc fun _ => isDigit_of_isAlpha

include hcs in
theorem startsWithDigit_of_sameLetters : startsWithDigit cs' = startsWithDigit cs := by
  cases hcs with
  | nil => rfl
  | cons hc _ => exact isDigit_of_toLower_eq hc

include hcs in
theorem takeWord_of_sameLetters (digits : Bool) :
    SameLetters (takeWord digits cs).1 (takeWord digits cs').1 ∧
      SameLetters (takeWord digits cs).2 (takeWord digits cs').2 := by
  induction hcs generalizing digits with
  | nil => exact ⟨.nil, .nil⟩
  | @cons c c' cs cs' hc hcs ih =>
    have hends : endsWord c' = endsWord c :=
      apply_eq_of_toLower_eq hc fun _ hd => endsWord_of_isAlphanum (isAlphanum_of_isAlpha hd)
    rw [takeWord, takeWord]
    simp only [eq_iff_of_toLower_eq hc (d := '.') (by decide), startsWithDigit_of_sameLetters hcs,
      hends, isDigit_of_toLower_eq hc]
    split
    · exact ⟨.cons hc (ih false).1, (ih false).2⟩
    · split
      · exact ⟨.nil, .cons hc hcs⟩
      · exact ⟨.cons hc (ih _).1, (ih _).2⟩

include hc hcs in
theorem first_of_sameLetters :
    Recased (first c cs).1 (first c' cs').1 ∧ SameLetters (first c cs).2 (first c' cs').2 := by
  have hnotBlank : ∀ d : Char, d.isAlpha = true → isBlank d = false := fun d hd =>
    isBlank_of_isAlphanum (by rw [isAlphanum_of_isAlpha hd, Bool.true_or])
  have hnoSymbol : ∀ d : Char, d.isAlpha = true → TokenKind.ofChar? d = none := fun d hd =>
    ofChar?_of_isAlphanum (isAlphanum_of_isAlpha hd)
  have hdots : cs'.take 2 = ['.', '.'] ↔ cs.take 2 = ['.', '.'] :=
    SameLetters.eq_iff (List.forall₂_take 2 hcs) (by decide)
  rw [first, first]
  simp only [eq_iff_of_toLower_eq hc (d := '/') (by decide), hcs.head?_eq_iff (d := '/') (by decide),
    eq_iff_of_toLower_eq hc (d := '.') (by decide), hdots, apply_eq_of_toLower_eq hc hnotBlank,
    apply_eq_of_toLower_eq hc hnoSymbol, isDigit_of_toLower_eq hc]
  split
  next => exact ⟨.comment (.cons hc hcs.line.1), hcs.line.2⟩
  next =>
    split
    next hblank =>
      obtain rfl : c' = c := by
        refine eq_of_toLower_eq hc (Bool.eq_false_iff.mpr fun hletter => ?_)
        rw [hnotBlank c hletter] at hblank
        cases hblank
      exact ⟨.blank c', hcs⟩
    next =>
      split
      next => exact ⟨.symbol .ellipsis _, List.forall₂_drop 2 hcs⟩
      next =>
        split
        next kind hkind =>
          obtain rfl : c' = c := by
            refine eq_of_toLower_eq hc (Bool.eq_false_iff.mpr fun hletter => ?_)
            rw [hnoSymbol c hletter] at hkind
            cases hkind
          exact ⟨.symbol kind [c'], hcs⟩
        next =>
          have hword := takeWord_of_sameLetters hcs c.isDigit
          exact ⟨.word (.cons hc hword.1), hword.2⟩

end

end Piece

def TokenKind.isCaseless : TokenKind → Bool
  | .type | .builtin | .draw | .keyword _ => true
  | _ => false

/-- Tokens that differ at most in the case of letters, and not at all if the case matters. -/
structure Token.Recased (t t' : Token) : Prop where
  kind : t'.kind = t.kind
  span : t'.span = t.span
  letters : SameLetters t.text.toList t'.text.toList
  text : t.kind.isCaseless = false → t'.text = t.text

def caseless (placed : List (Nat × Token)) : List (Nat × Token) :=
  placed.filter fun q => q.2.kind.isCaseless

theorem caseless_moved (n : Nat) (placed : List (Nat × Token)) :
    caseless (moved n placed) = moved n (caseless placed) := by
  rw [caseless, caseless, moved, moved, List.filter_map]
  rfl

theorem Covered.of_caseless {placed : List (Nat × Token)} {k : Nat} (h : Covered (caseless placed) k) :
    Covered placed k := by
  obtain ⟨q, hq, hk⟩ := h
  exact ⟨q, List.mem_of_mem_filter hq, hk⟩

/-- Two texts differ only inside words in which the case of letters does not matter. -/
def DifferInside (placed : List (Nat × Token)) (cs cs' : List Char) : Prop :=
  ∀ k, cs'[k]? ≠ cs[k]? → Covered (caseless placed) k

namespace Piece

section

variable {c c' : Char} {cs cs' : List Char} {s : Span} {placed : List (Nat × Token)}
  (hfirst : Recased (first c cs).1 (first c' cs').1)
  (hinside : DifferInside ((first c cs).1.own s ++ moved (first c cs).1.chars.length placed)
    (c :: cs) (c' :: cs'))
include hfirst hinside

theorem differInside_rest : DifferInside placed (first c cs).2 (first c' cs').2 := by
  intro k hk
  have hlength := hfirst.chars.length_eq
  rw [← getElem?_first_add c' cs', ← getElem?_first_add c cs, ← hlength] at hk
  have hcovered := hinside _ hk
  rw [caseless, List.filter_append, covered_append] at hcovered
  rcases hcovered with hown | hmoved
  · have hlt := (covered_own.mp hown.of_caseless).1
    omega
  · rw [← caseless, caseless_moved, covered_moved_add] at hmoved
    exact hmoved

theorem chars_first_eq (t : Token) (ht : (first c cs).1.token? s = some t)
    (hkind : t.kind.isCaseless = false) : (first c' cs').1.chars = (first c cs).1.chars := by
  have hlength := hfirst.chars.length_eq
  refine List.ext_getElem? fun i => ?_
  by_cases hi : i < (first c cs).1.chars.length
  · rw [← getElem?_first_of_lt hi, ← getElem?_first_of_lt (hlength ▸ hi)]
    by_contra hne
    have hcovered := hinside i hne
    rw [caseless, List.filter_append, covered_append] at hcovered
    rcases hcovered with ⟨q, hq, -⟩ | hmoved
    · obtain ⟨hown, hcaseless⟩ := List.mem_filter.mp hq
      rw [(mem_own.mp hown).2] at ht
      obtain rfl := Option.some.inj ht
      rw [hkind] at hcaseless
      cases hcaseless
    · exact not_covered_moved hi hmoved.of_caseless
  · rw [List.getElem?_eq_none (by omega), List.getElem?_eq_none (by omega)]

theorem token?_first_recased :
    List.Forall₂ Token.Recased ((first c cs).1.token? s).toList ((first c' cs').1.token? s).toList := by
  have hchars := chars_first_eq hfirst hinside
  generalize (first c cs).1 = p at hfirst hchars ⊢
  generalize (first c' cs').1 = p' at hfirst hchars ⊢
  cases hfirst with
  | blank c => exact .nil
  | comment h => exact .nil
  | symbol kind text => exact .cons ⟨rfl, rfl, List.forall₂_refl _, fun _ => rfl⟩ .nil
  | @word text text' h =>
    have hkind :
        TokenKind.classify (String.ofList text') = TokenKind.classify (String.ofList text) := by
      rw [TokenKind.classify, TokenKind.classify, h.toLower_ofList]
    refine .cons ⟨hkind, rfl, ?_, fun hcase => congrArg String.ofList (hchars _ rfl hcase)⟩ .nil
    rw [String.toList_ofList, String.toList_ofList]
    exact h

end

theorem place_split_recased {cs cs' : List Char} (h : SameLetters cs cs') (s : Span)
    (hinside : DifferInside (locate s (split cs)) cs cs') :
    List.Forall₂ Token.Recased (place s (split cs)) (place s (split cs')) := by
  induction cs using split.induct generalizing s cs' with
  | case1 =>
    cases h
    rw [split, place]
    exact .nil
  | case2 c cs ih =>
    cases h with
    | @cons _ c' _ cs' hc hcs =>
      obtain ⟨hfirst, hrest⟩ := first_of_sameLetters hc hcs
      rw [split, locate] at hinside
      rw [split, split, place_cons, place_cons, hfirst.chars.advanceAll]
      exact List.rel_append (token?_first_recased hfirst hinside)
        (ih hrest _ (differInside_rest hfirst hinside))

end Piece

namespace Span

theorem advanceAll_after (s : Span) (cs : List Char) :
    s.line < (s.advanceAll cs).line ∨
      s.line = (s.advanceAll cs).line ∧ s.column + cs.length = (s.advanceAll cs).column := by
  induction cs generalizing s with
  | nil => exact .inr ⟨rfl, rfl⟩
  | cons c cs ih =>
    rw [advanceAll_cons, List.length_cons]
    have hnext := ih (s.advance c)
    rw [advance] at hnext ⊢
    split_ifs at hnext ⊢ <;> grind

theorem advanceAll_take_injective {cs : List Char} {i j : Nat} (hi : i ≤ cs.length) (hj : j ≤ cs.length)
    (h : start.advanceAll (cs.take i) = start.advanceAll (cs.take j)) : i = j := by
  wlog hij : i ≤ j generalizing i j
  · exact (this hj hi h.symm (Nat.le_of_not_le hij)).symm
  have hsplit : cs.take j = cs.take i ++ (cs.drop i).take (j - i) := by
    rw [← List.take_add, Nat.add_sub_cancel' hij]
  have hlength : ((cs.drop i).take (j - i)).length = j - i := by
    rw [List.length_take, List.length_drop]
    omega
  rw [hsplit, advanceAll_append] at h
  have hafter := advanceAll_after (start.advanceAll (cs.take i)) ((cs.drop i).take (j - i))
  rw [← h, hlength] at hafter
  omega

end Span

/-- The text `source'` is `source` with the case of letters changed, and this only inside words in which
it does not matter. -/
structure Recased (source source' : String) : Prop where
  letters : source'.toLower = source.toLower
  inside : ∀ k, source'.toList[k]? ≠ source.toList[k]? →
    ∃ t ∈ Token.tokenize source, t.kind.isCaseless = true ∧
      ∃ i, t.span = Span.start.advanceAll (source.toList.take i) ∧ i ≤ k ∧ k < i + t.text.length

namespace Recased

variable {source source' : String} (h : Recased source source')
include h

theorem sameLetters : SameLetters source.toList source'.toList := by
  rw [sameLetters_iff, ← String.toList_map, ← String.toList_map]
  exact congrArg String.toList h.letters

theorem differInside :
    DifferInside (Piece.locate Span.start (Piece.split source.toList)) source.toList source'.toList := by
  intro k hk
  obtain ⟨t, ht, hkind, i, hspan, hik, hki⟩ := h.inside k hk
  have hlt : k < source.toList.length := by
    by_contra hge
    have hge : source.toList.length ≤ k := Nat.le_of_not_lt hge
    rw [List.getElem?_eq_none hge, List.getElem?_eq_none (h.sameLetters.length_eq ▸ hge)] at hk
    exact hk rfl
  rw [Token.tokenize, ← Piece.map_snd_locate] at ht
  obtain ⟨q, hq, rfl⟩ := List.mem_map.mp ht
  have hlocated := Piece.located_split Span.start source.toList
  have hle : q.1 ≤ source.toList.length := by
    obtain ⟨hne, rest, hrest⟩ := hlocated.text q hq
    by_contra hgt
    rw [List.drop_of_length_le (Nat.le_of_not_le hgt)] at hrest
    exact hne (String.toList_eq_nil_iff.mp (List.append_eq_nil_iff.mp hrest.symm).1)
  obtain rfl : q.1 = i :=
    Span.advanceAll_take_injective hle (by omega) ((hlocated.span q hq).symm.trans hspan)
  exact ⟨q, List.mem_filter.mpr ⟨hq, hkind⟩, hik, hki⟩

theorem tokenize : List.Forall₂ Token.Recased (Token.tokenize source) (Token.tokenize source') :=
  Piece.place_split_recased h.sameLetters Span.start h.differInside

end Recased

end DrawScript
