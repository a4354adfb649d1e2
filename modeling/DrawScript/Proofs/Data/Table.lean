import DrawScript.Data.Table
import Mathlib.Data.List.Nodup

/-!
Tables of declared variables. The single values and the lists of a table are its variables in two rows,
and a lookup in either row finds what a lookup by name finds. Whatever calls are made on an empty table,
the first declaration of each name is the one that counts: later ones are answered with an error and
change nothing.
-/

namespace DrawScript

theorem find?_key_eq_some_iff {α κ : Type} [BEq κ] [LawfulBEq κ] {key : α → κ} {as : List α}
    (h : (as.map key).Nodup) {k : κ} {a : α} :
    as.find? (fun b => key b == k) = some a ↔ a ∈ as ∧ key a = k := by
  constructor
  · intro hfind
    exact ⟨List.mem_of_find?_eq_some hfind, by simpa using List.find?_some hfind⟩
  · rintro ⟨hmem, rfl⟩
    cases hfind : as.find? fun b => key b == key a with
    | none => exact absurd (List.find?_eq_none.mp hfind a hmem) (by simp)
    | some b =>
      have hkey : key b = key a := by simpa using List.find?_some hfind
      rw [List.inj_on_of_nodup_map h (List.mem_of_find?_eq_some hfind) hmem hkey]

theorem lookup_eq_some_iff_mem {κ β : Type} [BEq κ] [LawfulBEq κ] {entries : List (κ × β)}
    (h : (entries.map Prod.fst).Nodup) {k : κ} {b : β} :
    entries.lookup k = some b ↔ (k, b) ∈ entries := by
  rw [List.lookup_eq_some_iff]
  constructor
  · rintro ⟨front, back, rfl, -⟩
    exact List.mem_append_right front List.mem_cons_self
  · intro hmem
    obtain ⟨front, back, rfl⟩ := List.append_of_mem hmem
    rw [List.map_append, List.nodup_append] at h
    refine ⟨front, back, rfl, fun entry hentry => ?_⟩
    have hne : entry.1 ≠ k := h.2.2 entry.1 (List.mem_map_of_mem hentry) k List.mem_cons_self
    simpa using hne.symm

namespace Table

def inDumpOrder (t : Table) : List Variable :=
  t.singlets.map (fun s => .singlet s.1 s.2) ++ t.lists.map (fun l => .list l.1 l.2.1 l.2.2)

variable {t u : Table}

theorem eq_of_entries (h : t.entries = u.entries) : t = u := by
  cases t
  cases u
  cases h
  rfl

theorem exists_declare {v : Variable} (h : v.name ∉ t.names) (span : Span) :
    ∃ u, t.declare v span = .ok u := by
  cases hdeclare : t.declare v span with
  | ok u => exact ⟨u, rfl⟩
  | error e => exact absurd (declare_eq_error_iff.mp hdeclare).1 h

theorem not_mem_names_of_nodup {v : Variable} {vs : List Variable}
    (h : ((t.entries ++ v :: vs).map Variable.name).Nodup) : v.name ∉ t.names := by
  intro hmem
  rw [List.map_append, List.nodup_append] at h
  exact h.2.2 v.name hmem v.name List.mem_cons_self rfl

theorem dump_eq (t : Table) : t.dump = t.inDumpOrder.map Variable.text := by
  simp [dump, inDumpOrder, Function.comp_def]

theorem map_singlets (t : Table) :
    t.singlets.map (fun s => Variable.singlet s.1 s.2) =
      t.entries.filter fun v => !v.operandType.isList := by
  rw [singlets, List.map_filterMap, ← List.filterMap_eq_filter]
  congr 1
  funext v
  cases v <;> rfl

theorem map_lists (t : Table) :
    t.lists.map (fun l => Variable.list l.1 l.2.1 l.2.2) =
      t.entries.filter fun v => v.operandType.isList := by
  rw [lists, List.map_filterMap, ← List.filterMap_eq_filter]
  congr 1
  funext v
  cases v <;> rfl

theorem perm_inDumpOrder (t : Table) : t.inDumpOrder.Perm t.entries := by
  rw [inDumpOrder, map_singlets, map_lists]
  exact List.perm_append_comm.trans (List.filter_append_perm _ _)

theorem nodup_names_inDumpOrder (t : Table) : (t.inDumpOrder.map Variable.name).Nodup :=
  (t.perm_inDumpOrder.map Variable.name).nodup_iff.mpr t.distinct

theorem singlets_of_inDumpOrder (h : u.entries = t.inDumpOrder) : u.singlets = t.singlets := by
  rw [singlets, h, inDumpOrder, List.filterMap_append, List.filterMap_map, List.filterMap_map]
  simp

theorem lists_of_inDumpOrder (h : u.entries = t.inDumpOrder) : u.lists = t.lists := by
  rw [lists, h, inDumpOrder, List.filterMap_append, List.filterMap_map, List.filterMap_map]
  simp

theorem contains_of_inDumpOrder (h : u.entries = t.inDumpOrder) (name : String) :
    u.contains name = t.contains name := by
  rw [Bool.eq_iff_iff, contains_iff, contains_iff, names, h]
  exact (t.perm_inDumpOrder.map Variable.name).mem_iff

variable {name : String}

theorem nodup_fst (t : Table) : (t.singlets.map Prod.fst ++ t.lists.map Prod.fst).Nodup := by
  have h := t.nodup_names_inDumpOrder
  rw [inDumpOrder, List.map_append, List.map_map, List.map_map] at h
  exact h

theorem mem_singlets_iff {w : Value} : (name, w) ∈ t.singlets ↔ Variable.singlet name w ∈ t.entries := by
  rw [singlets, List.mem_filterMap]
  constructor
  · rintro ⟨v, hv, heq⟩
    cases v with
    | singlet =>
      cases heq
      exact hv
    | list => cases heq
  · intro h
    exact ⟨_, h, rfl⟩

theorem mem_lists_iff {e : ElementType} {ws : List Value} :
    (name, e, ws) ∈ t.lists ↔ Variable.list name e ws ∈ t.entries := by
  rw [lists, List.mem_filterMap]
  constructor
  · rintro ⟨v, hv, heq⟩
    cases v with
    | singlet => cases heq
    | list =>
      cases heq
      exact hv
  · intro h
    exact ⟨_, h, rfl⟩

theorem get?_eq_some_iff {v : Variable} : t.get? name = some v ↔ v ∈ t.entries ∧ v.name = name :=
  find?_key_eq_some_iff t.distinct

theorem singlet?_eq_some_iff {w : Value} :
    t.singlet? name = some w ↔ t.get? name = some (.singlet name w) := by
  rw [singlet?, lookup_eq_some_iff_mem (List.nodup_append.mp t.nodup_fst).1, mem_singlets_iff, get?_eq_some_iff]
  simp [Variable.name]

theorem list?_eq_some_iff {e : ElementType} {ws : List Value} :
    t.list? name = some (e, ws) ↔ t.get? name = some (.list name e ws) := by
  rw [list?, lookup_eq_some_iff_mem (List.nodup_append.mp t.nodup_fst).2.1, mem_lists_iff, get?_eq_some_iff]
  simp [Variable.name]

theorem contains_eq_isSome_get? (t : Table) (name : String) :
    t.contains name = (t.get? name).isSome := by
  rw [Bool.eq_iff_iff, contains_iff, Option.isSome_iff_exists]
  simp only [get?_eq_some_iff, names, List.mem_map]

theorem singlet?_eq_none_iff :
    t.singlet? name = none ↔ ∀ w, t.get? name ≠ some (.singlet name w) := by
  simp only [Option.eq_none_iff_forall_ne_some, ne_eq, singlet?_eq_some_iff]

theorem list?_eq_none_iff :
    t.list? name = none ↔ ∀ e ws, t.get? name ≠ some (.list name e ws) := by
  simp only [Option.eq_none_iff_forall_ne_some, Prod.forall, ne_eq, list?_eq_some_iff]

theorem singlet?_eq_none_or_list?_eq_none (t : Table) (name : String) :
    t.singlet? name = none ∨ t.list? name = none := by
  cases hsinglet : t.singlet? name with
  | none => exact .inl rfl
  | some w =>
    right
    rw [list?_eq_none_iff, singlet?_eq_some_iff.mp hsinglet]
    simp

theorem get?_eq_or (t : Table) (name : String) :
    t.get? name = ((t.singlet? name).map (.singlet name)).or
      ((t.list? name).map fun l => .list name l.1 l.2) := by
  cases hget : t.get? name with
  | none =>
    have hsinglet : t.singlet? name = none := singlet?_eq_none_iff.mpr (by simp [hget])
    have hlist : t.list? name = none := list?_eq_none_iff.mpr (by simp [hget])
    rw [hsinglet, hlist]
    rfl
  | some v =>
    have hname : v.name = name := name_of_get? hget
    cases v with
    | singlet n w =>
      obtain rfl : n = name := hname
      rw [singlet?_eq_some_iff.mpr hget]
      rfl
    | list n e ws =>
      obtain rfl : n = name := hname
      have hsinglet : t.singlet? n = none := singlet?_eq_none_iff.mpr (by simp [hget])
      rw [hsinglet, list?_eq_some_iff.mpr hget]
      rfl

def attempt (t : Table) (call : Variable × Span) : Table × Except CompileError Unit :=
  match t.declare call.1 call.2 with
  | .ok u => (u, .ok ())
  | .error e => (t, .error e)

def attemptAll (t : Table) : List (Variable × Span) → Table × List (Except CompileError Unit)
  | [] => (t, [])
  | call :: calls =>
    let later := (t.attempt call).1.attemptAll calls
    (later.1, (t.attempt call).2 :: later.2)

def callNames (calls : List (Variable × Span)) : List String := calls.map fun call => call.1.name

@[simp] theorem callNames_nil : callNames [] = [] := rfl

@[simp] theorem callNames_cons (call : Variable × Span) (calls : List (Variable × Span)) :
    callNames (call :: calls) = call.1.name :: callNames calls := rfl

def succeeded (calls : List (Variable × Span)) (answers : List (Except CompileError Unit)) :
    List Variable :=
  ((calls.zip answers).filter fun r => r.2.isOk).map fun r => r.1.1

variable {calls : List (Variable × Span)}

theorem attempt_cases (t : Table) (call : Variable × Span) :
    call.1.name ∈ t.names ∧ t.attempt call = (t, .error (.redeclaration call.1.name call.2)) ∨
      call.1.name ∉ t.names ∧
        ∃ u, t.attempt call = (u, .ok ()) ∧ u.entries = t.entries ++ [call.1] := by
  unfold attempt
  by_cases hname : call.1.name ∈ t.names
  · have herror : t.declare call.1 call.2 = .error (.redeclaration call.1.name call.2) :=
      declare_eq_error_iff.mpr ⟨hname, rfl⟩
    exact .inl ⟨hname, by rw [herror]⟩
  · obtain ⟨u, hu⟩ := exists_declare hname call.2
    exact .inr ⟨hname, u, by rw [hu], (declare_eq_ok_iff.mp hu).2⟩

theorem mem_names_attempt {call : Variable × Span} :
    name ∈ (t.attempt call).1.names ↔ name ∈ t.names ∨ name = call.1.name := by
  rcases attempt_cases t call with ⟨hname, heq⟩ | ⟨-, u, heq, hentries⟩
  · rw [heq, iff_self_or]
    rintro rfl
    exact hname
  · rw [heq, names, hentries]
    simp [names]

theorem mem_names_attemptAll :
    name ∈ (t.attemptAll calls).1.names ↔ name ∈ t.names ∨ name ∈ callNames calls := by
  induction calls generalizing t with
  | nil => simp [attemptAll]
  | cons call calls ih =>
    rw [attemptAll, ih, mem_names_attempt, or_assoc, callNames_cons, List.mem_cons]

theorem getElem?_attemptAll {i : Nat} {v : Variable} {span : Span} (h : calls[i]? = some (v, span)) :
    (t.attemptAll calls).2[i]? =
      some (if v.name ∈ t.names ∨ v.name ∈ callNames (calls.take i) then
        .error (.redeclaration v.name span) else .ok ()) := by
  induction calls generalizing t i with
  | nil => cases h
  | cons call calls ih =>
    cases i with
    | zero =>
      cases h
      rcases attempt_cases t (v, span) with ⟨hname, heq⟩ | ⟨hname, u, heq, -⟩
      · simp [attemptAll, heq, hname]
      · simp [attemptAll, heq, hname]
    | succ i =>
      have hlater := ih (t := (t.attempt call).1) (i := i) (by simpa using h)
      simp only [mem_names_attempt] at hlater
      simpa [attemptAll, or_assoc] using hlater

theorem entries_attemptAll :
    (t.attemptAll calls).1.entries = t.entries ++ succeeded calls (t.attemptAll calls).2 := by
  induction calls generalizing t with
  | nil => simp [attemptAll, succeeded]
  | cons call calls ih =>
    rw [attemptAll]
    dsimp only
    rw [ih]
    rcases attempt_cases t call with ⟨-, heq⟩ | ⟨-, u, heq, hentries⟩
    · simp [heq, succeeded, Except.isOk, Except.toBool]
    · simp [heq, hentries, succeeded, Except.isOk, Except.toBool]

theorem size_attemptAll :
    (t.attemptAll calls).1.size = t.size + (t.attemptAll calls).2.countP Except.isOk := by
  induction calls generalizing t with
  | nil => simp [attemptAll]
  | cons call calls ih =>
    rw [attemptAll]
    dsimp only
    rw [ih]
    rcases attempt_cases t call with ⟨-, heq⟩ | ⟨-, u, heq, hentries⟩
    · rw [heq, List.countP_cons_of_neg Bool.false_ne_true]
    · have hsize : u.size = t.size + 1 := by simp [size, hentries]
      rw [heq, List.countP_cons_of_pos rfl, hsize]
      omega

theorem get?_attempt (t : Table) (call : Variable × Span) (name : String) :
    (t.attempt call).1.get? name = (t.get? name).or ([call.1].find? fun v => v.name == name) := by
  rcases attempt_cases t call with ⟨hname, heq⟩ | ⟨-, u, heq, hentries⟩
  · rw [heq]
    by_cases hcall : call.1.name = name
    · -- The name is known, so that the variable of the call does not count.
      obtain ⟨v, hv⟩ : ∃ v, t.get? name = some v := by
        rw [← Option.isSome_iff_exists, ← contains_eq_isSome_get?, contains_iff, ← hcall]
        exact hname
      rw [hv]
      rfl
    · simp [hcall]
  · rw [heq, get?, hentries, List.find?_append]
    rfl

theorem get?_attemptAll :
    (t.attemptAll calls).1.get? name =
      (t.get? name).or ((calls.map Prod.fst).find? fun v => v.name == name) := by
  induction calls generalizing t with
  | nil => simp [attemptAll]
  | cons call calls ih =>
    rw [attemptAll, ih, get?_attempt, Option.or_assoc, ← List.find?_append]
    rfl

theorem attemptAll_concat (t : Table) (calls : List (Variable × Span)) (call : Variable × Span) :
    (t.attemptAll (calls ++ [call])).1 = ((t.attemptAll calls).1.attempt call).1 := by
  induction calls generalizing t with
  | nil => rfl
  | cons first calls ih => exact ih (t.attempt first).1

/-- The first declaration of each name wins: what calls on an empty table do. -/
structure FirstWins (calls : List (Variable × Span)) (t : Table)
    (answers : List (Except CompileError Unit)) : Prop where
  length_answers : answers.length = calls.length
  answer : ∀ i v span, calls[i]? = some (v, span) →
    answers[i]? = some (if v.name ∈ callNames (calls.take i) then
      .error (.redeclaration v.name span) else .ok ())
  singlets : t.singlets.map (fun s => Variable.singlet s.1 s.2) =
    (succeeded calls answers).filter fun v => !v.operandType.isList
  lists : t.lists.map (fun l => Variable.list l.1 l.2.1 l.2.2) =
    (succeeded calls answers).filter fun v => v.operandType.isList
  distinct : (t.singlets.map Prod.fst ++ t.lists.map Prod.fst).Nodup
  size : t.size = answers.countP Except.isOk
  contains : ∀ name, t.contains name = (t.get? name).isSome
  get_succeeded : ∀ name, t.get? name = (succeeded calls answers).find? fun v => v.name == name
  get_first : ∀ name, t.get? name = (calls.map Prod.fst).find? fun v => v.name == name
  shape : ∀ name, t.singlet? name = none ∨ t.list? name = none
  get_shape : ∀ name, t.get? name = ((t.singlet? name).map (.singlet name)).or
    ((t.list? name).map fun l => .list name l.1 l.2)

theorem length_attemptAll : (t.attemptAll calls).2.length = calls.length := by
  induction calls generalizing t with
  | nil => rfl
  | cons call calls ih => exact congrArg (· + 1) ih

theorem attemptAll_concat_of_mem {call : Variable × Span}
    (h : call.1.name ∈ (t.attemptAll calls).1.names) :
    (t.attemptAll (calls ++ [call])).1 = (t.attemptAll calls).1 := by
  rw [attemptAll_concat]
  rcases attempt_cases (t.attemptAll calls).1 call with ⟨-, heq⟩ | ⟨hname, -⟩
  · rw [heq]
  · exact absurd h hname

/-- Whatever calls are made on an empty table, the first declaration of each name wins, and a call with
a name that an earlier one has leaves the table as it was. -/
theorem firstWins_attemptAll (calls : List (Variable × Span)) :
    FirstWins calls (empty.attemptAll calls).1 (empty.attemptAll calls).2 ∧
      ∀ call, call.1.name ∈ callNames calls →
        (empty.attemptAll (calls ++ [call])).1 = (empty.attemptAll calls).1 := by
  have hentries : (empty.attemptAll calls).1.entries = succeeded calls (empty.attemptAll calls).2 :=
    entries_attemptAll
  constructor
  · exact
      { length_answers := length_attemptAll
        answer := fun i v span h => by simpa using getElem?_attemptAll (t := empty) h
        singlets := by rw [map_singlets, hentries]
        lists := by rw [map_lists, hentries]
        distinct := nodup_fst _
        size := by rw [size_attemptAll]; exact Nat.zero_add _
        contains := contains_eq_isSome_get? _
        get_succeeded := fun name => by rw [get?, hentries]
        get_first := fun name => get?_attemptAll
        shape := singlet?_eq_none_or_list?_eq_none _
        get_shape := get?_eq_or _ }
  · intro call hcall
    exact attemptAll_concat_of_mem (mem_names_attemptAll.mpr (.inr hcall))

end Table

end DrawScript
