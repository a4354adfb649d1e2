import DrawScript.Proofs.Data.Table

/-!
Tables kept by columns: the single values in one row, the lists in another, and the declared names in
a set. A declaration puts its name into the set before it knows whether the name is new. Whatever calls
are made on empty columns, they are answered, and the columns can be asked, as if all declarations were
kept in one row.
-/

namespace DrawScript

structure Columns where
  singlets : List (String × Value)
  lists : List (String × ElementType × List Value)
  names : Std.HashSet String

namespace Columns

def empty : Columns := ⟨[], [], ∅⟩

def push (c : Columns) : Variable → Columns
  | .singlet name value => { c with singlets := c.singlets ++ [(name, value)] }
  | .list name element values => { c with lists := c.lists ++ [(name, element, values)] }

theorem names_push (c : Columns) (v : Variable) : (c.push v).names = c.names := by
  cases v <;> rfl

def declare (c : Columns) (call : Variable × Span) : Columns × Except CompileError Unit :=
  let (known, names) := c.names.containsThenInsert call.1.name
  if known then ({ c with names := names }, .error (.redeclaration call.1.name call.2))
  else ({ c with names := names }.push call.1, .ok ())

def declareAll (c : Columns) : List (Variable × Span) → Columns × List (Except CompileError Unit)
  | [] => (c, [])
  | call :: calls =>
    let later := (c.declare call).1.declareAll calls
    (later.1, (c.declare call).2 :: later.2)

def contains (c : Columns) (name : String) : Bool := c.names.contains name

def singlet? (c : Columns) (name : String) : Option (String × Value) :=
  c.singlets.find? fun s => s.1 == name

def list? (c : Columns) (name : String) : Option (String × ElementType × List Value) :=
  c.lists.find? fun l => l.1 == name

def get? (c : Columns) (name : String) : Option Variable :=
  ((c.singlet? name).map fun s => .singlet s.1 s.2).or
    ((c.list? name).map fun l => .list l.1 l.2.1 l.2.2)

def size (c : Columns) : Nat := c.names.size

def isEmpty (c : Columns) : Bool := c.names.isEmpty

def dump (c : Columns) : List String :=
  (c.singlets.map (fun s => Variable.singlet s.1 s.2) ++
    c.lists.map (fun l => Variable.list l.1 l.2.1 l.2.2)).map Variable.text

structure Keeps (c : Columns) (t : Table) : Prop where
  singlets : c.singlets = t.singlets
  lists : c.lists = t.lists
  mem_names : ∀ name, name ∈ c.names ↔ name ∈ t.names
  size_names : c.names.size = t.size

/-- The columns cannot be told from a table by asking them. -/
structure Answers (c : Columns) (t : Table) : Prop where
  contains : ∀ name, c.contains name = t.contains name
  singlet? : ∀ name, c.singlet? name = (t.singlet? name).map (name, ·)
  list? : ∀ name, c.list? name = (t.list? name).map (name, ·)
  get? : ∀ name, c.get? name = t.get? name
  singlets : c.singlets = t.singlets
  lists : c.lists = t.lists
  size : c.size = t.size
  isEmpty : c.isEmpty = t.isEmpty
  dump : c.dump = t.dump

variable {c : Columns} {t u : Table} {call : Variable × Span}

theorem keeps_empty : empty.Keeps .empty where
  singlets := rfl
  lists := rfl
  mem_names name := by simp [empty, Table.names, Table.empty]
  size_names := by simp [empty, Table.size, Table.empty]

theorem declare_of_mem (h : call.1.name ∈ c.names) :
    c.declare call =
      ({ c with names := c.names.insert call.1.name },
        .error (.redeclaration call.1.name call.2)) := by
  simp [declare, h]

theorem declare_of_not_mem (h : call.1.name ∉ c.names) :
    c.declare call = ({ c with names := c.names.insert call.1.name }.push call.1, .ok ()) := by
  simp [declare, h]

theorem Keeps.insert_of_mem (h : c.Keeps t) {name : String} (hname : name ∈ c.names) :
    Keeps { c with names := c.names.insert name } t where
  singlets := h.singlets
  lists := h.lists
  mem_names other := by
    rw [Std.HashSet.mem_insert, h.mem_names, or_iff_right_iff_imp]
    intro heq
    rwa [← beq_iff_eq.mp heq, ← h.mem_names]
  size_names := by rw [Std.HashSet.size_insert, if_pos hname, h.size_names]

theorem Keeps.push (h : c.Keeps t) {v : Variable} (hname : v.name ∉ c.names)
    (hu : u.entries = t.entries ++ [v]) :
    Keeps ({ c with names := c.names.insert v.name }.push v) u where
  singlets := by
    rw [Table.singlets, hu, List.filterMap_append]
    cases v with
    | singlet => exact congrArg (· ++ _) h.singlets
    | list => exact h.singlets.trans (List.append_nil _).symm
  lists := by
    rw [Table.lists, hu, List.filterMap_append]
    cases v with
    | singlet => exact h.lists.trans (List.append_nil _).symm
    | list => exact congrArg (· ++ _) h.lists
  mem_names name := by
    have hnames : name ∈ u.names ↔ v.name = name ∨ name ∈ t.names := by
      simp [Table.names, hu, or_comm, eq_comm]
    rw [names_push, Std.HashSet.mem_insert, beq_iff_eq, h.mem_names, hnames]
  size_names := by
    rw [names_push, Std.HashSet.size_insert, if_neg hname, h.size_names, Table.size, Table.size, hu,
      List.length_append]
    rfl

theorem Keeps.declare (h : c.Keeps t) (call : Variable × Span) :
    (c.declare call).1.Keeps (t.attempt call).1 ∧ (c.declare call).2 = (t.attempt call).2 := by
  rcases t.attempt_cases call with ⟨hname, heq⟩ | ⟨hname, u, heq, hu⟩
  · rw [← h.mem_names] at hname
    rw [declare_of_mem hname, heq]
    exact ⟨h.insert_of_mem hname, rfl⟩
  · rw [← h.mem_names] at hname
    rw [declare_of_not_mem hname, heq]
    exact ⟨h.push hname hu, rfl⟩

theorem Keeps.declareAll (h : c.Keeps t) (calls : List (Variable × Span)) :
    (c.declareAll calls).1.Keeps (t.attemptAll calls).1 ∧
      (c.declareAll calls).2 = (t.attemptAll calls).2 := by
  induction calls generalizing c t with
  | nil => exact ⟨h, rfl⟩
  | cons call calls ih =>
    obtain ⟨hkeeps, hanswer⟩ := h.declare call
    obtain ⟨hlater, hanswers⟩ := ih hkeeps
    exact ⟨hlater, congrArg₂ List.cons hanswer hanswers⟩

theorem find?_fst_eq_map_lookup {β : Type} (entries : List (String × β)) (name : String) :
    entries.find? (fun e => e.1 == name) = (entries.lookup name).map (name, ·) := by
  induction entries with
  | nil => rfl
  | cons e es ih =>
    rw [List.find?_cons, List.lookup_cons, BEq.comm]
    cases h : name == e.1 with
    | false => exact ih
    | true =>
      rw [beq_iff_eq.mp h]
      rfl

theorem Keeps.answers (h : c.Keeps t) : c.Answers t := by
  have hsinglet : ∀ name, c.singlet? name = (t.singlet? name).map (name, ·) := by
    intro name
    rw [singlet?, h.singlets, find?_fst_eq_map_lookup]
    rfl
  have hlist : ∀ name, c.list? name = (t.list? name).map (name, ·) := by
    intro name
    rw [list?, h.lists, find?_fst_eq_map_lookup]
    rfl
  refine ⟨fun name => ?_, hsinglet, hlist, fun name => ?_, h.singlets, h.lists, h.size_names, ?_, ?_⟩
  · rw [Bool.eq_iff_iff, Table.contains_iff, ← h.mem_names]
    rfl
  · rw [get?, hsinglet, hlist, Table.get?_eq_or, Option.map_map, Option.map_map]
    rfl
  · rw [isEmpty, Std.HashSet.isEmpty_eq_size_eq_zero, h.size_names]
    cases hentries : t.entries <;> simp [Table.isEmpty, Table.size, hentries]
  · rw [dump, h.singlets, h.lists, Table.dump_eq]
    rfl

/-- Whatever calls are made on empty columns, each is answered as on an empty table, and the columns
answer as the table does. -/
theorem answers_declareAll (calls : List (Variable × Span)) :
    (empty.declareAll calls).2 = (Table.empty.attemptAll calls).2 ∧
      (empty.declareAll calls).1.Answers (Table.empty.attemptAll calls).1 :=
  ⟨(keeps_empty.declareAll calls).2, (keeps_empty.declareAll calls).1.answers⟩

end Columns

end DrawScript
