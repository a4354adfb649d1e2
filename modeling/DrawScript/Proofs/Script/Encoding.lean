import DrawScript.Script.Encoding
import Mathlib.Data.List.Forall2

/-!
The data of a script tell the script. A table is known by what it holds under each key, in whatever order
its entries stand, so the form of a statement or an expression is told by the entry `type`, and each of its
parts by an entry of its own: no part goes by the key `type` or `span`, or by the key of another part.
-/

namespace DrawScript

namespace Datum

/-- The same data, where the order of the entries of a table does not count. -/
inductive Alike : Datum → Datum → Prop
  | refl (d : Datum) : Alike d d
  | list {items items' : List Datum} (h : List.Forall₂ Alike items items') :
      Alike (.list items) (.list items')
  | table {entries entries' : List (String × Datum)}
      (keys : ∀ key, entry? key entries = none ↔ entry? key entries' = none)
      (values : ∀ key d d', entry? key entries = some d → entry? key entries' = some d' → Alike d d') :
      Alike (.table entries) (.table entries')

inductive Distinct : Datum → Prop
  | null : Distinct .null
  | flag (value : Bool) : Distinct (.flag value)
  | whole (value : Int) : Distinct (.whole value)
  | real (value : Binary64) : Distinct (.real value)
  | moment (text : String) : Distinct (.moment text)
  | text (value : String) : Distinct (.text value)
  | list {items : List Datum} (h : ∀ d ∈ items, Distinct d) : Distinct (.list items)
  | table {entries : List (String × Datum)} (keys : (entries.map Prod.fst).Nodup)
      (h : ∀ e ∈ entries, Distinct e.2) : Distinct (.table entries)

namespace Alike

theorem text_eq {s s' : String} (h : Alike (.text s) (.text s')) : s = s' := by
  cases h
  rfl

theorem flag_eq {b b' : Bool} (h : Alike (.flag b) (.flag b')) : b = b' := by
  cases h
  rfl

theorem whole_eq {n n' : Int} (h : Alike (.whole n) (.whole n')) : n = n' := by
  cases h
  rfl

theorem ofNat_eq {n n' : Nat} (h : Alike (.ofNat n) (.ofNat n')) : n = n' := Int.ofNat.inj h.whole_eq

theorem items {items items' : List Datum} (h : Alike (.list items) (.list items')) :
    List.Forall₂ Alike items items' := by
  cases h with
  | refl => exact List.forall₂_same.mpr fun d _ => .refl d
  | list h => exact h

theorem entry {entries entries' : List (String × Datum)} (h : Alike (.table entries) (.table entries'))
    (key : String) {d d' : Datum} (hd : entry? key entries = some d) (hd' : entry? key entries' = some d') :
    Alike d d' := by
  cases h with
  | refl =>
    cases hd.symm.trans hd'
    exact .refl d
  | table _ values => exact values key d d' hd hd'

theorem list_eq {α : Type} {f : α → Datum} {as as' : List α} {items items' : List Datum}
    (h : Alike (.list items) (.list items')) (hitems : items = as.map f) (hitems' : items' = as'.map f)
    (hf : ∀ a ∈ as, ∀ a', Alike (f a) (f a') → a = a') : as = as' := by
  subst hitems
  subst hitems'
  replace h := h.items
  rw [List.forall₂_map_left_iff, List.forall₂_map_right_iff] at h
  induction h with
  | nil => rfl
  | cons ha _ ih =>
    obtain ⟨hhead, htail⟩ := List.forall_mem_cons.mp hf
    rw [hhead _ ha, ih htail]

theorem form_eq {type type' : String} {parts parts' : List (String × Datum)} {span span' : Span}
    (h : Alike (.form type parts span) (.form type' parts' span')) : type = type' :=
  (h.entry "type" rfl rfl).text_eq

end Alike

theorem Distinct.of_keys {entries : List (String × Datum)} (keys : List String)
    (hkeys : entries.map Prod.fst = keys) (hnodup : keys.Nodup)
    (h : entries.Forall fun e => e.2.Distinct) : Distinct (.table entries) :=
  .table (hkeys ▸ hnodup) (List.forall_iff_forall_mem.mp h)

end Datum

open Datum

theorem Span.distinct (s : Span) : s.datum.Distinct :=
  .of_keys ["line", "column"] rfl (by decide) ⟨.whole _, .whole _⟩

theorem TypeSpec.distinct (t : TypeSpec) : t.datum.Distinct :=
  .of_keys ["base", "is_list"] rfl (by decide) ⟨.text _, .flag _⟩

theorem Param.distinct (p : Param) : p.datum.Distinct :=
  .of_keys ["ty", "name", "span"] rfl (by decide) ⟨p.type.distinct, .text _, p.span.distinct⟩

theorem Span.eq_of_alike {s s' : Span} (h : s.datum.Alike s'.datum) : s = s' := by
  obtain ⟨line, column⟩ := s
  obtain ⟨line', column'⟩ := s'
  have hline : line = line' := (h.entry "line" rfl rfl).ofNat_eq
  have hcolumn : column = column' := (h.entry "column" rfl rfl).ofNat_eq
  rw [hline, hcolumn]

theorem Datum.Alike.span_eq {entries entries' : List (String × Datum)} {span span' : Span}
    (h : Alike (.table entries) (.table entries')) (hspan : entry? "span" entries = some span.datum)
    (hspan' : entry? "span" entries' = some span'.datum) : span = span' :=
  Span.eq_of_alike (h.entry "span" hspan hspan')

theorem BaseType.text_injective {t t' : BaseType} (h : t.text = t'.text) : t = t' := by
  revert h
  cases t <;> cases t' <;> decide

theorem DrawCommand.text_injective {c c' : DrawCommand} (h : c.text = c'.text) : c = c' := by
  revert h
  cases c <;> cases c' <;> decide

theorem BinaryOp.symbol_injective {op op' : BinaryOp} (h : op.symbol = op'.symbol) : op = op' := by
  revert h
  cases op <;> cases op' <;> decide

theorem UnaryOp.symbol_injective {op op' : UnaryOp} (h : op.symbol = op'.symbol) : op = op' := by
  revert h
  cases op <;> cases op' <;> decide

theorem TypeSpec.eq_of_alike {t t' : TypeSpec} (h : t.datum.Alike t'.datum) : t = t' := by
  obtain ⟨base, isList⟩ := t
  obtain ⟨base', isList'⟩ := t'
  have hbase : base = base' := BaseType.text_injective (h.entry "base" rfl rfl).text_eq
  have hlist : isList = isList' := (h.entry "is_list" rfl rfl).flag_eq
  rw [hbase, hlist]

theorem Param.eq_of_alike {p p' : Param} (h : p.datum.Alike p'.datum) : p = p' := by
  obtain ⟨type, name, span⟩ := p
  obtain ⟨type', name', span'⟩ := p'
  have htype : type = type' := TypeSpec.eq_of_alike (h.entry "ty" rfl rfl)
  have hname : name = name' := (h.entry "name" rfl rfl).text_eq
  have hspan : span = span' := h.span_eq rfl rfl
  rw [htype, hname, hspan]

theorem exprData_eq_map (es : List Expr) : exprData es = es.map Expr.datum := by
  induction es with
  | nil => rfl
  | cons e es ih => rw [exprData, ih, List.map_cons]

theorem iteratorData_eq_map (is : List Iterator) : iteratorData is = is.map Iterator.datum := by
  induction is with
  | nil => rfl
  | cons i is ih => rw [iteratorData, ih, List.map_cons]

theorem branchData_eq_map (bs : List Branch) : branchData bs = bs.map Branch.datum := by
  induction bs with
  | nil => rfl
  | cons b bs ih => rw [branchData, ih, List.map_cons]

theorem statementData_eq_map (ss : List Statement) : statementData ss = ss.map Statement.datum := by
  induction ss with
  | nil => rfl
  | cons s ss ih => rw [statementData, ih, List.map_cons]

theorem Datum.Distinct.of_map {α : Type} {f : α → Datum} {as : List α} {items : List Datum}
    (hitems : items = as.map f) (h : ∀ a ∈ as, (f a).Distinct) : Distinct (.list items) :=
  .list (hitems ▸ List.forall_mem_map.mpr h)

theorem Datum.Distinct.form {type : String} {parts : List (String × Datum)} {span : Span}
    (keys : List String) (hkeys : parts.map Prod.fst = keys)
    (hnodup : ("type" :: (keys ++ ["span"])).Nodup) (h : parts.Forall fun e => e.2.Distinct) :
    Distinct (.form type parts span) := by
  refine .table ?_ ?_
  · simpa [← hkeys] using hnodup
  · rw [List.forall_mem_cons, List.forall_mem_append, List.forall_mem_singleton]
    exact ⟨.text type, List.forall_iff_forall_mem.mp h, span.distinct⟩

mutual

theorem Expr.distinct : (e : Expr) → e.datum.Distinct
  | .assign target value _ =>
    .form ["target", "value"] rfl (by decide) ⟨target.distinct, value.distinct⟩
  | .binary _ left right _ =>
    .form ["op", "left", "right"] rfl (by decide) ⟨.text _, left.distinct, right.distinct⟩
  | .unary _ operand _ => .form ["op", "operand"] rfl (by decide) ⟨.text _, operand.distinct⟩
  | .call _ arguments _ =>
    .form ["name", "arguments"] rfl (by decide)
      ⟨.text _, .of_map (exprData_eq_map arguments) (exprs_distinct arguments)⟩
  | .name _ _ _ => .form ["name", "is_number"] rfl (by decide) ⟨.text _, .flag _⟩
  | .member object _ _ => .form ["object", "property"] rfl (by decide) ⟨object.distinct, .text _⟩
  | .index object subscript _ =>
    .form ["object", "index"] rfl (by decide) ⟨object.distinct, subscript.distinct⟩
  | .vector elements _ =>
    .form ["elements"] rfl (by decide)
      (.of_map (exprData_eq_map elements) (exprs_distinct elements))
  | .list elements _ =>
    .form ["elements"] rfl (by decide)
      (.of_map (exprData_eq_map elements) (exprs_distinct elements))
  | .range first last _ =>
    .form ["start", "end"] rfl (by decide) ⟨first.distinct, last.distinct⟩
  | .loop iterators body _ =>
    .form ["iterators", "body"] rfl (by decide)
      ⟨.of_map (iteratorData_eq_map iterators) (iterators_distinct iterators), body.distinct⟩
  | .cases branches _ =>
    .form ["cases"] rfl (by decide)
      (.of_map (branchData_eq_map branches) (branches_distinct branches))

theorem exprs_distinct : (es : List Expr) → ∀ e ∈ es, e.datum.Distinct
  | [] => List.forall_mem_nil _
  | e :: es => List.forall_mem_cons.mpr ⟨e.distinct, exprs_distinct es⟩

theorem Iterator.distinct : (i : Iterator) → i.datum.Distinct
  | .mk _ range => .of_keys ["variable", "range"] rfl (by decide) ⟨.text _, range.distinct⟩

theorem iterators_distinct : (is : List Iterator) → ∀ i ∈ is, i.datum.Distinct
  | [] => List.forall_mem_nil _
  | i :: is => List.forall_mem_cons.mpr ⟨i.distinct, iterators_distinct is⟩

theorem Branch.distinct : (b : Branch) → b.datum.Distinct
  | .tested test result =>
    .of_keys ["test", "consequent"] rfl (by decide) ⟨test.distinct, result.distinct⟩
  | .otherwise result => .of_keys ["test", "consequent"] rfl (by decide) ⟨.null, result.distinct⟩

theorem branches_distinct : (bs : List Branch) → ∀ b ∈ bs, b.datum.Distinct
  | [] => List.forall_mem_nil _
  | b :: bs => List.forall_mem_cons.mpr ⟨b.distinct, branches_distinct bs⟩

theorem Block.distinct : (b : Block) → b.datum.Distinct
  | .mk statements span =>
    .of_keys ["statements", "span"] rfl (by decide)
      ⟨.of_map (statementData_eq_map statements) (statements_distinct statements), span.distinct⟩

theorem Statement.distinct : (s : Statement) → s.datum.Distinct
  | .function returns _ params body _ =>
    .form ["return_type", "name", "params", "body"] rfl (by decide)
      ⟨returns.distinct, .text _, .of_map rfl fun p _ => p.distinct, body.distinct⟩
  | .binding type _ value _ =>
    .form ["ty", "name", "value"] rfl (by decide) ⟨type.distinct, .text _, value_distinct value⟩
  | .uniform type _ value _ =>
    .form ["ty", "name", "value"] rfl (by decide) ⟨type.distinct, .text _, value_distinct value⟩
  | .directive _ _ _ => .form ["name", "value"] rfl (by decide) ⟨.text _, .text _⟩
  | .draw _ arguments _ =>
    .form ["command", "arguments"] rfl (by decide)
      ⟨.text _, .of_map (exprData_eq_map arguments) (exprs_distinct arguments)⟩
  | .ret value _ => .form ["value"] rfl (by decide) value.distinct
  | .expression value _ => .form ["expression"] rfl (by decide) value.distinct

theorem statements_distinct : (ss : List Statement) → ∀ s ∈ ss, s.datum.Distinct
  | [] => List.forall_mem_nil _
  | s :: ss => List.forall_mem_cons.mpr ⟨s.distinct, statements_distinct ss⟩

theorem value_distinct : (value : Option Expr) → (optionDatum value).Distinct
  | none => .null
  | some e => e.distinct

end

theorem Script.distinct (p : Script) : p.datum.Distinct :=
  .of_keys ["body"] rfl (by decide)
    (.of_map (statementData_eq_map p.body) (statements_distinct p.body))

theorem Expr.not_alike_null (e : Expr) : ¬ e.datum.Alike .null := by
  cases e <;> (intro h; cases h)

theorem Expr.not_null_alike (e : Expr) : ¬ Alike .null e.datum := by
  cases e <;> (intro h; cases h)

mutual

theorem Expr.eq_of_alike (e e' : Expr) (h : e.datum.Alike e'.datum) : e = e' := by
  -- Expressions of different forms differ under `type`.
  cases e <;> cases e' <;> try exact absurd h.form_eq (by decide)
  case assign.assign target value span target' value' span' =>
    rw [target.eq_of_alike target' (h.entry "target" rfl rfl),
      value.eq_of_alike value' (h.entry "value" rfl rfl), h.span_eq rfl rfl]
  case binary.binary op left right span op' left' right' span' =>
    rw [BinaryOp.symbol_injective (h.entry "op" rfl rfl).text_eq,
      left.eq_of_alike left' (h.entry "left" rfl rfl),
      right.eq_of_alike right' (h.entry "right" rfl rfl), h.span_eq rfl rfl]
  case unary.unary op operand span op' operand' span' =>
    rw [UnaryOp.symbol_injective (h.entry "op" rfl rfl).text_eq,
      operand.eq_of_alike operand' (h.entry "operand" rfl rfl), h.span_eq rfl rfl]
  case call.call name arguments span name' arguments' span' =>
    rw [(h.entry "name" rfl rfl).text_eq,
      (h.entry "arguments" rfl rfl).list_eq (exprData_eq_map _) (exprData_eq_map _)
        (exprs_eq_of_alike arguments), h.span_eq rfl rfl]
  case name.name text isNumber span text' isNumber' span' =>
    rw [(h.entry "name" rfl rfl).text_eq, (h.entry "is_number" rfl rfl).flag_eq,
      h.span_eq rfl rfl]
  case member.member object property span object' property' span' =>
    rw [object.eq_of_alike object' (h.entry "object" rfl rfl), (h.entry "property" rfl rfl).text_eq,
      h.span_eq rfl rfl]
  case index.index object subscript span object' subscript' span' =>
    rw [object.eq_of_alike object' (h.entry "object" rfl rfl),
      subscript.eq_of_alike subscript' (h.entry "index" rfl rfl), h.span_eq rfl rfl]
  case vector.vector elements span elements' span' =>
    rw [(h.entry "elements" rfl rfl).list_eq (exprData_eq_map _) (exprData_eq_map _)
        (exprs_eq_of_alike elements), h.span_eq rfl rfl]
  case list.list elements span elements' span' =>
    rw [(h.entry "elements" rfl rfl).list_eq (exprData_eq_map _) (exprData_eq_map _)
        (exprs_eq_of_alike elements), h.span_eq rfl rfl]
  case range.range first last span first' last' span' =>
    rw [first.eq_of_alike first' (h.entry "start" rfl rfl),
      last.eq_of_alike last' (h.entry "end" rfl rfl), h.span_eq rfl rfl]
  case loop.loop iterators body span iterators' body' span' =>
    rw [(h.entry "iterators" rfl rfl).list_eq (iteratorData_eq_map _) (iteratorData_eq_map _)
        (iterators_eq_of_alike iterators),
      body.eq_of_alike body' (h.entry "body" rfl rfl), h.span_eq rfl rfl]
  case cases.cases branches span branches' span' =>
    rw [(h.entry "cases" rfl rfl).list_eq (branchData_eq_map _) (branchData_eq_map _)
        (branches_eq_of_alike branches), h.span_eq rfl rfl]
termination_by structural e

theorem exprs_eq_of_alike :
    (es : List Expr) → ∀ e ∈ es, ∀ e', e.datum.Alike e'.datum → e = e'
  | [] => List.forall_mem_nil _
  | e :: es => List.forall_mem_cons.mpr ⟨e.eq_of_alike, exprs_eq_of_alike es⟩
termination_by structural es => es

theorem Iterator.eq_of_alike (i i' : Iterator) (h : i.datum.Alike i'.datum) : i = i' := by
  obtain ⟨name, range⟩ := i
  obtain ⟨name', range'⟩ := i'
  rw [(h.entry "variable" rfl rfl).text_eq, range.eq_of_alike range' (h.entry "range" rfl rfl)]
termination_by structural i

theorem iterators_eq_of_alike :
    (is : List Iterator) → ∀ i ∈ is, ∀ i', i.datum.Alike i'.datum → i = i'
  | [] => List.forall_mem_nil _
  | i :: is => List.forall_mem_cons.mpr ⟨i.eq_of_alike, iterators_eq_of_alike is⟩
termination_by structural is => is

theorem Branch.eq_of_alike (b b' : Branch) (h : b.datum.Alike b'.datum) : b = b' := by
  cases b <;> cases b'
  case tested.tested test result test' result' =>
    rw [test.eq_of_alike test' (h.entry "test" rfl rfl),
      result.eq_of_alike result' (h.entry "consequent" rfl rfl)]
  case tested.otherwise test result result' =>
    exact absurd (h.entry "test" rfl rfl) test.not_alike_null
  case otherwise.tested result test' result' =>
    exact absurd (h.entry "test" rfl rfl) test'.not_null_alike
  case otherwise.otherwise result result' =>
    rw [result.eq_of_alike result' (h.entry "consequent" rfl rfl)]
termination_by structural b

theorem branches_eq_of_alike :
    (bs : List Branch) → ∀ b ∈ bs, ∀ b', b.datum.Alike b'.datum → b = b'
  | [] => List.forall_mem_nil _
  | b :: bs => List.forall_mem_cons.mpr ⟨b.eq_of_alike, branches_eq_of_alike bs⟩
termination_by structural bs => bs

theorem Block.eq_of_alike (b b' : Block) (h : b.datum.Alike b'.datum) : b = b' := by
  obtain ⟨statements, span⟩ := b
  obtain ⟨statements', span'⟩ := b'
  rw [(h.entry "statements" rfl rfl).list_eq (statementData_eq_map _) (statementData_eq_map _)
      (statements_eq_of_alike statements), h.span_eq rfl rfl]
termination_by structural b

theorem Statement.eq_of_alike (s s' : Statement) (h : s.datum.Alike s'.datum) : s = s' := by
  cases s <;> cases s' <;> try exact absurd h.form_eq (by decide)
  case function.function returns name params body span returns' name' params' body' span' =>
    rw [TypeSpec.eq_of_alike (h.entry "return_type" rfl rfl), (h.entry "name" rfl rfl).text_eq,
      (h.entry "params" rfl rfl).list_eq rfl rfl fun _ _ _ => Param.eq_of_alike,
      body.eq_of_alike body' (h.entry "body" rfl rfl), h.span_eq rfl rfl]
  case binding.binding type name value span type' name' value' span' =>
    rw [TypeSpec.eq_of_alike (h.entry "ty" rfl rfl), (h.entry "name" rfl rfl).text_eq,
      value_eq_of_alike value value' (h.entry "value" rfl rfl), h.span_eq rfl rfl]
  case uniform.uniform type name value span type' name' value' span' =>
    rw [TypeSpec.eq_of_alike (h.entry "ty" rfl rfl), (h.entry "name" rfl rfl).text_eq,
      value_eq_of_alike value value' (h.entry "value" rfl rfl), h.span_eq rfl rfl]
  case directive.directive name value span name' value' span' =>
    rw [(h.entry "name" rfl rfl).text_eq, (h.entry "value" rfl rfl).text_eq,
      h.span_eq rfl rfl]
  case draw.draw command arguments span command' arguments' span' =>
    rw [DrawCommand.text_injective (h.entry "command" rfl rfl).text_eq,
      (h.entry "arguments" rfl rfl).list_eq (exprData_eq_map _) (exprData_eq_map _)
        (exprs_eq_of_alike arguments), h.span_eq rfl rfl]
  case ret.ret value span value' span' =>
    rw [value.eq_of_alike value' (h.entry "value" rfl rfl), h.span_eq rfl rfl]
  case expression.expression value span value' span' =>
    rw [value.eq_of_alike value' (h.entry "expression" rfl rfl),
      h.span_eq rfl rfl]
termination_by structural s

theorem statements_eq_of_alike :
    (ss : List Statement) → ∀ s ∈ ss, ∀ s', s.datum.Alike s'.datum → s = s'
  | [] => List.forall_mem_nil _
  | s :: ss => List.forall_mem_cons.mpr ⟨s.eq_of_alike, statements_eq_of_alike ss⟩
termination_by structural ss => ss

theorem value_eq_of_alike (value value' : Option Expr)
    (h : (optionDatum value).Alike (optionDatum value')) : value = value' := by
  cases value <;> cases value'
  case none.none => rfl
  case none.some e' => exact absurd h e'.not_null_alike
  case some.none e => exact absurd h e.not_alike_null
  case some.some e e' => rw [e.eq_of_alike e' h]
termination_by structural value

end

/-- No table in the data of a script has a key twice, and scripts with the same data are the same, with
all their positions, names, flags and absent parts. -/
theorem Script.datum_lossless (p q : Script) :
    p.datum.Distinct ∧ (p.datum.Alike q.datum ↔ p = q) := by
  refine ⟨p.distinct, fun h => ?_, fun h => h ▸ .refl _⟩
  obtain ⟨body⟩ := p
  obtain ⟨body'⟩ := q
  have hbody : body = body' :=
    (h.entry "body" rfl rfl).list_eq (statementData_eq_map _) (statementData_eq_map _)
      (statements_eq_of_alike body)
  rw [hbody]

end DrawScript
