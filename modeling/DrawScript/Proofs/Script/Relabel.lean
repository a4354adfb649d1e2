import DrawScript.Script.Parser

/-!
Scripts with other positions. A map of positions acts on tokens, trees and errors, and changes nothing
else in them.
-/

namespace DrawScript

def Token.relabel (f : Span → Span) (t : Token) : Token := ⟨t.kind, t.text, f t.span⟩

def Param.relabel (f : Span → Span) (p : Param) : Param := ⟨p.type, p.name, f p.span⟩

mutual

def Expr.relabel (f : Span → Span) : Expr → Expr
  | .assign target value span => .assign (target.relabel f) (value.relabel f) (f span)
  | .binary op left right span => .binary op (left.relabel f) (right.relabel f) (f span)
  | .unary op operand span => .unary op (operand.relabel f) (f span)
  | .call name arguments span => .call name (relabelExprs f arguments) (f span)
  | .name text isNumber span => .name text isNumber (f span)
  | .member object property span => .member (object.relabel f) property (f span)
  | .index object subscript span => .index (object.relabel f) (subscript.relabel f) (f span)
  | .vector elements span => .vector (relabelExprs f elements) (f span)
  | .list elements span => .list (relabelExprs f elements) (f span)
  | .range first last span => .range (first.relabel f) (last.relabel f) (f span)
  | .loop iterators body span => .loop (relabelIterators f iterators) (body.relabel f) (f span)
  | .cases branches span => .cases (relabelBranches f branches) (f span)

def relabelExprs (f : Span → Span) : List Expr → List Expr
  | [] => []
  | e :: es => e.relabel f :: relabelExprs f es

def relabelIterators (f : Span → Span) : List Iterator → List Iterator
  | [] => []
  | .mk name range :: its => .mk name (range.relabel f) :: relabelIterators f its

def relabelBranches (f : Span → Span) : List Branch → List Branch
  | [] => []
  | .tested test result :: bs => .tested (test.relabel f) (result.relabel f) :: relabelBranches f bs
  | .otherwise result :: bs => .otherwise (result.relabel f) :: relabelBranches f bs

def Block.relabel (f : Span → Span) : Block → Block
  | .mk statements span => .mk (relabelStatements f statements) (f span)

def Statement.relabel (f : Span → Span) : Statement → Statement
  | .function returns name params body span =>
    .function returns name (params.map (Param.relabel f)) (body.relabel f) (f span)
  | .binding type name value span => .binding type name (relabelValue f value) (f span)
  | .uniform type name value span => .uniform type name (relabelValue f value) (f span)
  | .directive name value span => .directive name value (f span)
  | .draw command arguments span => .draw command (relabelExprs f arguments) (f span)
  | .ret value span => .ret (value.relabel f) (f span)
  | .expression value span => .expression (value.relabel f) (f span)

def relabelStatements (f : Span → Span) : List Statement → List Statement
  | [] => []
  | s :: ss => s.relabel f :: relabelStatements f ss

def relabelValue (f : Span → Span) : Option Expr → Option Expr
  | none => none
  | some e => some (e.relabel f)

end

theorem exists_of_relabelStatements_eq {f : Span → Span} {ss : List Statement} {s' : Statement}
    (h : relabelStatements f ss = [s']) : ∃ s, ss = [s] ∧ s.relabel f = s' := by
  match ss with
  | [] => cases h
  | [s] => exact ⟨s, rfl, List.singleton_inj.mp h⟩
  | s :: next :: ss => cases h

theorem Statement.exists_of_relabel_function {f : Span → Span} {ss : List Statement} {type : TypeSpec}
    {name : String} {b : Block} {span : Span}
    (h : relabelStatements f ss = [.function type name [] b span]) :
    ∃ body span', ss = [.function type name [] body span'] ∧ body.relabel f = b := by
  obtain ⟨s, rfl, hs⟩ := exists_of_relabelStatements_eq h
  cases s with
  | function returns name' params body span' =>
    simp only [Statement.relabel, Statement.function.injEq, List.map_eq_nil_iff] at hs
    obtain ⟨rfl, rfl, rfl, rfl, -⟩ := hs
    exact ⟨body, span', rfl, rfl⟩
  | _ => cases hs

def Script.relabel (f : Span → Span) (p : Script) : Script := ⟨relabelStatements f p.body⟩

def CompileError.relabel (f : Span → Span) : CompileError → CompileError
  | .unrepresentable message span => .unrepresentable message (f span)
  | .expected wanted found span => .expected wanted found (f span)
  | .unexpected found message span => .unexpected found message (f span)
  | .sectionOrder message span => .sectionOrder message (f span)
  | .incompleteDeclaration text span => .incompleteDeclaration text (f span)
  | .invalidLiteral literal type span => .invalidLiteral literal type (f span)
  | .redeclaration name span => .redeclaration name (f span)
  | .templateMisuse typeName name span => .templateMisuse typeName name (f span)
  | e => e

theorem Expr.span_relabel (f : Span → Span) (e : Expr) : (e.relabel f).span = f e.span := by
  cases e <;> rfl

theorem Expr.identifier?_relabel (f : Span → Span) (e : Expr) :
    (e.relabel f).identifier? = e.identifier? := by
  cases e with
  | name text isNumber span => cases isNumber <;> rfl
  | _ => rfl

theorem CompileError.relabel_id (e : CompileError) : e.relabel id = e := by
  cases e <;> rfl

mutual

theorem Expr.relabel_id : ∀ e : Expr, e.relabel id = e
  | .assign target value _ => by rw [Expr.relabel, target.relabel_id, value.relabel_id, id]
  | .binary _ left right _ => by rw [Expr.relabel, left.relabel_id, right.relabel_id, id]
  | .unary _ operand _ => by rw [Expr.relabel, operand.relabel_id, id]
  | .call _ arguments _ => by rw [Expr.relabel, relabelExprs_id arguments, id]
  | .name _ _ _ => rfl
  | .member object _ _ => by rw [Expr.relabel, object.relabel_id, id]
  | .index object subscript _ => by rw [Expr.relabel, object.relabel_id, subscript.relabel_id, id]
  | .vector elements _ => by rw [Expr.relabel, relabelExprs_id elements, id]
  | .list elements _ => by rw [Expr.relabel, relabelExprs_id elements, id]
  | .range first last _ => by rw [Expr.relabel, first.relabel_id, last.relabel_id, id]
  | .loop iterators body _ => by rw [Expr.relabel, relabelIterators_id iterators, body.relabel_id, id]
  | .cases branches _ => by rw [Expr.relabel, relabelBranches_id branches, id]

theorem relabelExprs_id : ∀ es : List Expr, relabelExprs id es = es
  | [] => rfl
  | e :: es => by rw [relabelExprs, e.relabel_id, relabelExprs_id es]

theorem relabelIterators_id : ∀ its : List Iterator, relabelIterators id its = its
  | [] => rfl
  | .mk _ range :: its => by rw [relabelIterators, range.relabel_id, relabelIterators_id its]

theorem relabelBranches_id : ∀ bs : List Branch, relabelBranches id bs = bs
  | [] => rfl
  | .tested test result :: bs => by
    rw [relabelBranches, test.relabel_id, result.relabel_id, relabelBranches_id bs]
  | .otherwise result :: bs => by rw [relabelBranches, result.relabel_id, relabelBranches_id bs]

theorem Block.relabel_id : ∀ b : Block, b.relabel id = b
  | .mk statements _ => by rw [Block.relabel, relabelStatements_id statements, id]

theorem Statement.relabel_id : ∀ s : Statement, s.relabel id = s
  | .function _ _ params body _ => by
    have hparams : params.map (Param.relabel id) = params := List.map_id' params
    rw [Statement.relabel, body.relabel_id, hparams, id]
  | .binding _ _ value _ => by rw [Statement.relabel, relabelValue_id value, id]
  | .uniform _ _ value _ => by rw [Statement.relabel, relabelValue_id value, id]
  | .directive _ _ _ => rfl
  | .draw _ arguments _ => by rw [Statement.relabel, relabelExprs_id arguments, id]
  | .ret value _ => by rw [Statement.relabel, value.relabel_id, id]
  | .expression value _ => by rw [Statement.relabel, value.relabel_id, id]

theorem relabelStatements_id : ∀ ss : List Statement, relabelStatements id ss = ss
  | [] => rfl
  | s :: ss => by rw [relabelStatements, s.relabel_id, relabelStatements_id ss]

theorem relabelValue_id : ∀ value : Option Expr, relabelValue id value = value
  | none => rfl
  | some e => by rw [relabelValue, e.relabel_id]

end

namespace Parser

def Stuck.relabel (f : Span → Span) (s : Stuck) : Stuck :=
  ⟨s.error.relabel f, s.rest.map (Token.relabel f)⟩

theorem misuse?_relabel (f : Span → Span) (s : Statement) :
    misuse? (s.relabel f) = (misuse? s).map (CompileError.relabel f) := by
  cases s with
  | binding type name value span =>
    simp only [Statement.relabel, misuse?]
    split <;> rfl
  | _ => rfl

end Parser

def Script.relabelResult (f : Span → Span) : Except CompileError Script → Except CompileError Script
  | .ok p => .ok (p.relabel f)
  | .error e => .error (e.relabel f)

end DrawScript
