import DrawScript.Script.Tree

/-!
The tree of a script as nodes and their children. A path goes from a node down to a leaf; what holds
of a root and passes from every node to its children holds of all nodes below the root.
-/

namespace DrawScript

inductive Node where
  | script (p : Script)
  | statement (s : Statement)
  | block (b : Block)
  | expr (e : Expr)
  | iterator (i : Iterator)
  | branch (b : Branch)

namespace Node

def children : Node → List Node
  | .script p => p.body.map .statement
  | .statement (.function _ _ _ body _) => [.block body]
  | .statement (.binding _ _ value _) => value.toList.map .expr
  | .statement (.uniform _ _ value _) => value.toList.map .expr
  | .statement (.directive _ _ _) => []
  | .statement (.draw _ arguments _) => arguments.map .expr
  | .statement (.ret value _) => [.expr value]
  | .statement (.expression value _) => [.expr value]
  | .block (.mk statements _) => statements.map .statement
  | .expr (.assign target value _) => [.expr target, .expr value]
  | .expr (.binary _ left right _) => [.expr left, .expr right]
  | .expr (.unary _ operand _) => [.expr operand]
  | .expr (.call _ arguments _) => arguments.map .expr
  | .expr (.name _ _ _) => []
  | .expr (.member object _ _) => [.expr object]
  | .expr (.index object subscript _) => [.expr object, .expr subscript]
  | .expr (.vector elements _) => elements.map .expr
  | .expr (.list elements _) => elements.map .expr
  | .expr (.range first last _) => [.expr first, .expr last]
  | .expr (.loop iterators body _) => iterators.map .iterator ++ [.block body]
  | .expr (.cases branches _) => branches.map .branch
  | .iterator (.mk _ range) => [.expr range]
  | .branch (.tested test result) => [.expr test, .expr result]
  | .branch (.otherwise result) => [.expr result]

/-- The nodes on a way from a node down to a leaf. -/
inductive Path : Node → List Node → Prop
  | leaf {n : Node} (hn : n.children = []) : Path n [n]
  | down {n m : Node} {path : List Node} (hm : m ∈ n.children) (hpath : Path m path) :
      Path n (n :: path)

inductive Holds : Node → Node → Prop
  | refl (n : Node) : Holds n n
  | down {n m k : Node} (hm : m ∈ n.children) (hk : Holds m k) : Holds n k

theorem Holds.preserves {P : Node → Prop} (hchild : ∀ n, P n → ∀ m ∈ n.children, P m) {n m : Node}
    (h : n.Holds m) (hn : P n) : P m := by
  induction h with
  | refl n => exact hn
  | @down n m k hm hk ih => exact ih (hchild n hn m hm)

end Node

end DrawScript
