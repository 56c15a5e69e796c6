import CallTree.Syntax.TypeName

/-!
# Expressions, as far as names go

Of all expressions, only names, accesses to members, calls and parentheses lead
from a name to what it stands for. An expression is seen as one of these, and
everything else is opaque.
-/

namespace CallTree.Workspace

open CallTree.Syntax

/-- **An expression, as far as names go.** -/
inductive Expr where
  | name (text : String)
  | access (object : Expr) (member : String)
  | call (callee : Expr)
  | group (inner : Expr)
  | other
deriving DecidableEq, Repr, Inhabited

/-- **The expression that a node is.** Parentheses are around their first child,
which may be a comment. -/
def Expr.ofNode (n : Node) : Expr :=
  match n.label with
  | .name text => .name text
  | .construct .attributeAccess =>
    match h : n.child? .object, (n.child? .attributeName).bind Node.identifier? with
    | some object, some member =>
      have := Node.size_lt_of_child? h
      .access (Expr.ofNode object) member
    | _, _ => .other
  | .construct .call =>
    match h : n.child? .function with
    | some callee =>
      have := Node.size_lt_of_child? h
      .call (Expr.ofNode callee)
    | none => .call .other
  | .construct .parenthesizedExpression =>
    match h : n.namedChildren with
    | inner :: _ =>
      have : inner.size < n.size := Node.size_lt_of_mem_namedChildren (by simp [h])
      .group (Expr.ofNode inner)
    | [] => .other
  | _ => .other
termination_by n.size

end CallTree.Workspace
