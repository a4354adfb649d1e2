import DrawScript.Text.Blank

/-!
Splitting undoes joining. Runs that were joined by a character come back as they were when the text
is split at that character, provided that no run holds it; likewise words with a blank between each
two, and lines that are not empty.
-/

namespace DrawScript.Text

theorem isBlank_of_visible {c : Char} (h : 0x20 < c.toNat ∧ c.toNat < 0x7F) : isBlank c = false := by
  simp only [isBlank, blankRanges, List.any_cons, List.any_nil, Bool.or_false, Bool.or_eq_false_iff,
    Bool.and_eq_false_iff, decide_eq_false_iff_not]
  omega

theorem isBlank_of_isDigit {c : Char} (h : c.isDigit = true) : isBlank c = false := by
  have hrange : 48 ≤ c.toNat ∧ c.toNat ≤ 57 := Char.isDigit_iff_toNat.mp h
  exact isBlank_of_visible (by omega)

theorem isBlank_of_between {a b c : Char} (ha : 0x20 < a.toNat) (hb : b.toNat < 0x7F)
    (hac : a.val ≤ c.val) (hcb : c.val ≤ b.val) : isBlank c = false :=
  isBlank_of_visible
    ⟨Nat.lt_of_lt_of_le ha (UInt32.le_iff_toNat_le.mp hac),
      Nat.lt_of_le_of_lt (UInt32.le_iff_toNat_le.mp hcb) hb⟩

theorem isBlank_of_isAlphanum {c : Char} (h : (c.isAlphanum || c == '_') = true) :
    isBlank c = false := by
  change (c.isUpper || c.isLower || c.isDigit || c == '_') = true at h
  simp only [Bool.or_eq_true, beq_iff_eq] at h
  rcases h with ((h | h) | h) | rfl
  · obtain ⟨hle, hge⟩ := of_decide_eq_true h
    exact isBlank_of_between (by decide) (by decide) hle hge
  · obtain ⟨hle, hge⟩ := Bool.and_eq_true_iff.mp h
    exact isBlank_of_between (by decide) (by decide) (of_decide_eq_true hle) (of_decide_eq_true hge)
  · exact isBlank_of_isDigit h
  · rfl

theorem splitOn_eq_splitOnP (p : Char → Bool) (cs : List Char) : splitOn p cs = cs.splitOnP p := by
  induction cs with
  | nil => rfl
  | cons c cs ih =>
    rw [splitOn, List.splitOnP_cons_eq_if_modifyHead, ih]
    cases hruns : cs.splitOnP p with
    | nil => exact absurd hruns (ih ▸ splitOn_ne_nil p cs)
    | cons run runs => rfl

theorem splitOn_intercalate {sep : Char} {runs : List (List Char)} (hne : runs ≠ [])
    (hruns : ∀ run ∈ runs, sep ∉ run) : splitOn (· == sep) ([sep].intercalate runs) = runs := by
  rw [splitOn_eq_splitOnP]
  exact List.splitOn_intercalate sep hruns hne

theorem forall_mem_intercalate {p : Char → Prop} {sep : Char} {runs : List (List Char)} (hsep : p sep)
    (hruns : ∀ run ∈ runs, ∀ c ∈ run, p c) : ∀ c ∈ [sep].intercalate runs, p c := by
  induction runs with
  | nil => simp
  | cons run runs ih =>
    obtain ⟨hrun, hrest⟩ := List.forall_mem_cons.mp hruns
    rcases runs with _ | ⟨next, runs⟩
    · simpa using hrun
    · rw [List.intercalate_cons_cons, List.append_assoc]
      exact List.forall_mem_append.mpr
        ⟨hrun, List.forall_mem_append.mpr ⟨List.forall_mem_singleton.mpr hsep, ih hrest⟩⟩

structure Unbroken (run : List Char) : Prop where
  ne_nil : run ≠ []
  isBlank : ∀ c ∈ run, isBlank c = false

theorem Unbroken.of_all {run : List Char}
    (h : (!run.isEmpty && run.all fun c => !Text.isBlank c) = true) : Unbroken run := by
  obtain ⟨hne, hall⟩ := Bool.and_eq_true_iff.mp h
  exact ⟨by simpa using hne, by simpa using hall⟩

theorem words_intercalate {blank : Char} (hblank : isBlank blank = true) {runs : List (List Char)}
    (hruns : ∀ run ∈ runs, Unbroken run) : words ([blank].intercalate runs) = runs := by
  induction runs with
  | nil => rfl
  | cons run runs ih =>
    obtain ⟨⟨hne, hrun⟩, hrest⟩ := List.forall_mem_cons.mp hruns
    rcases runs with _ | ⟨next, runs⟩
    · rw [List.intercalate_singleton, words, splitOn_eq_splitOnP, List.splitOnP_eq_singleton hrun]
      simp [hne]
    · rw [List.intercalate_cons_cons, List.append_assoc, List.singleton_append, words,
        splitOn_eq_splitOnP, List.splitOnP_append_cons_of_forall_mem hrun blank hblank,
        List.filter_cons_of_pos (by simp [hne]), ← splitOn_eq_splitOnP]
      exact congrArg (run :: ·) (ih hrest)

theorem lines_intercalate {runs : List (List Char)} (hruns : ∀ run ∈ runs, '\n' ∉ run)
    (hne : ∀ run ∈ runs, run ≠ []) (hsome : runs ≠ []) :
    lines (['\n'].intercalate runs) = runs := by
  rw [lines, splitOn_intercalate hsome hruns, if_neg]
  intro hlast
  exact hne [] (List.mem_of_getLast? hlast) rfl

theorem trim_eq_self {cs : List Char} (hhead : ∀ c ∈ cs.head?, isBlank c = false)
    (hlast : ∀ c ∈ cs.getLast?, isBlank c = false) : trim cs = cs := by
  have hskip : ∀ ds : List Char, (∀ c ∈ ds.head?, isBlank c = false) → skipBlanks ds = ds := by
    intro ds hds
    cases ds with
    | nil => rfl
    | cons d ds => exact List.dropWhile_cons_of_neg (by simp [hds d rfl])
  rw [trim, trimEnd, hskip cs hhead, hskip _ (by simpa using hlast), List.reverse_reverse]

end DrawScript.Text
