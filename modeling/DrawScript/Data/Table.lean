import DrawScript.Data.Value
import DrawScript.Error

/-!
Tables of declared variables. A name is declared at most once, whether for one value or for a list,
and the variables stay in the order of their declarations.
-/

namespace DrawScript

structure Table where
  entries : List Variable
  distinct : (entries.map Variable.name).Nodup

namespace Table

def empty : Table := ⟨[], List.nodup_nil⟩

def names (t : Table) : List String := t.entries.map Variable.name

def contains (t : Table) (name : String) : Bool := t.names.contains name

@[simp] theorem names_empty : empty.names = [] := rfl

theorem contains_iff {t : Table} {name : String} : t.contains name ↔ name ∈ t.names := by
  simp [contains]

theorem nodup_append_name {t : Table} {v : Variable} (h : ¬ t.contains v.name) :
    ((t.entries ++ [v]).map Variable.name).Nodup := by
  have hmem : v.name ∉ t.entries.map Variable.name := by
    simpa [contains, names] using h
  rw [List.map_append, List.nodup_append]
  refine ⟨t.distinct, by simp, ?_⟩
  intro a ha b hb
  simp only [List.map_cons, List.map_nil, List.mem_singleton] at hb
  subst hb
  exact fun hab => hmem (hab ▸ ha)

def declare (t : Table) (v : Variable) (span : Span) : Except CompileError Table :=
  if h : t.contains v.name then .error (.redeclaration v.name span)
  else .ok ⟨t.entries ++ [v], nodup_append_name h⟩

theorem declare_eq_ok_iff {t t' : Table} {v : Variable} {span : Span} :
    t.declare v span = .ok t' ↔ v.name ∉ t.names ∧ t'.entries = t.entries ++ [v] := by
  rw [← contains_iff]
  unfold declare
  split
  next h => simp [h]
  next h =>
    constructor
    · intro hok
      cases hok
      exact ⟨h, rfl⟩
    · rintro ⟨_, hentries⟩
      cases t'
      cases hentries
      rfl

theorem declare_eq_error_iff {t : Table} {v : Variable} {span : Span} {e : CompileError} :
    t.declare v span = .error e ↔ v.name ∈ t.names ∧ e = .redeclaration v.name span := by
  rw [← contains_iff]
  unfold declare
  split
  next h => simp [h, eq_comm]
  next h => simp [h]

def singlets (t : Table) : List (String × Value) :=
  t.entries.filterMap fun
    | .singlet name value => some (name, value)
    | .list .. => none

def lists (t : Table) : List (String × ElementType × List Value) :=
  t.entries.filterMap fun
    | .singlet .. => none
    | .list name element values => some (name, element, values)

def singlet? (t : Table) (name : String) : Option Value := t.singlets.lookup name

def list? (t : Table) (name : String) : Option (ElementType × List Value) := t.lists.lookup name

def get? (t : Table) (name : String) : Option Variable :=
  t.entries.find? fun v => v.name == name

theorem name_of_get? {t : Table} {name : String} {v : Variable} (h : t.get? name = some v) :
    v.name = name := by
  simpa using List.find?_some h

theorem get?_declare {t t' : Table} {v : Variable} {span : Span} (name : String)
    (h : t.declare v span = .ok t') :
    t'.get? name = (t.get? name).or (if v.name = name then some v else none) := by
  unfold get?
  rw [(declare_eq_ok_iff.mp h).2, List.find?_append]
  by_cases hname : v.name = name <;> simp [hname]

def size (t : Table) : Nat := t.entries.length

def isEmpty (t : Table) : Bool := t.entries.isEmpty

/-- A declaration for every variable, those of one value before the lists. -/
def dump (t : Table) : List String :=
  t.singlets.map (fun s => (Variable.singlet s.1 s.2).text) ++
    t.lists.map (fun l => (Variable.list l.1 l.2.1 l.2.2).text)

def datum (t : Table) : Datum :=
  .table
    [("singlets", .list (t.singlets.map fun s =>
        .table [("name", .text s.1), ("value", s.2.datum)])),
     ("lists", .list (t.lists.map fun l =>
        .table [("name", .text l.1), ("element_type", .text l.2.1.text),
          ("values", .list (l.2.2.map Value.datum))]))]

end Table

end DrawScript
