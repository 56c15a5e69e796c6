import CallTree.Syntax.Source
import CallTree.Text.Blank
import CallTree.Text.Dotted

/-!
# The principal name of an annotation

An annotation can say a lot; what the analysis takes from it is one name. The
principal name of `Foo`, of `"Foo"` and of `Optional[Foo]` is `Foo`; that of
`List[Foo]` is `List`, because a list of things has the members of a list; that
of `Foo | None` is the one on the left of the bar.

The recursion goes from an annotation to a part of it, and a part has fewer
nodes than the whole (`Node.size_lt_of_mem`).
-/

namespace CallTree.Syntax

open CallTree.Text (isBlank lastSegment)
open CallTree.Text.Utf8 (Defect)

/-- A tree is no smaller than any of several trees it is among. -/
theorem Node.size_le_sizes {n : Node} {ns : List Node} (h : n ∈ ns) :
    n.size ≤ Node.sizes ns := by
  induction ns with
  | nil => cases h
  | cons m ms ih =>
    rw [Node.sizes]
    rcases List.mem_cons.1 h with rfl | h
    · exact Nat.le_add_right _ _
    · exact Nat.le_trans (ih h) (Nat.le_add_left _ _)

/-- **A child is smaller than its parent.** -/
theorem Node.size_lt_of_mem {child n : Node} (h : child ∈ n.children) :
    child.size < n.size := by
  cases n with
  | mk label role span children =>
    rw [Node.size]
    exact Nat.lt_succ_of_le (Node.size_le_sizes h)

/-- A child that is neither keyword nor punctuation is smaller than its parent. -/
theorem Node.size_lt_of_mem_namedChildren {child n : Node} (h : child ∈ n.namedChildren) :
    child.size < n.size :=
  Node.size_lt_of_mem (List.mem_filter.1 h).1

/-- A child in a part is smaller than its parent. -/
theorem Node.size_lt_of_child? {role : Role} {child n : Node}
    (h : n.child? role = some child) : child.size < n.size :=
  Node.size_lt_of_mem (List.mem_of_find?_eq_some h)

/-- The first named child of a node of some kind, and the node itself when it is
of another kind or has none. -/
def Node.opened (kind : Kind) (n : Node) : Node :=
  if n.isKind kind then n.namedChildren.headD n else n

/-- Opening a node makes it no larger. -/
theorem Node.size_opened_le (kind : Kind) (n : Node) : (n.opened kind).size ≤ n.size := by
  unfold Node.opened
  split
  · cases h : n.namedChildren with
    | nil => simp
    | cons c cs =>
      have hc : c ∈ n.namedChildren := by simp [h]
      exact Nat.le_of_lt (Node.size_lt_of_mem_namedChildren hc)
  · exact Nat.le_refl _

/-- What a text names up to its first square bracket, if that is anything. -/
def nameBeforeBracket (text : String) : Option String :=
  let name := Text.trimBy isBlank (Text.before '[' text)
  if name.isEmpty then none else some name

/-- What one look at an annotation gives: its principal name, if it has one, or a
part of it that has the same principal name. -/
inductive Reading (n : Node) where
  | names (name : Option String)
  | sameAs (part : Node) (smaller : part.size < n.size)

/-- A name with brackets after it names what stands before them, unless it is
`Optional`: then it names what its first argument names. -/
def Source.readBracketed (src : Source) (n node : Node) (hn : node.size ≤ n.size) :
    Except Defect (Reading n) :=
  match h : node.namedChildren with
  | [] => .ok (.names none)
  | [head] => (src.text head).map fun text => .names (some text)
  | head :: first :: _ =>
    (src.text head).map fun text =>
      if lastSegment text = "Optional" then
        .sameAs (first.opened .typeParameter)
          (Nat.lt_of_le_of_lt (Node.size_opened_le _ _)
            (Nat.lt_of_lt_of_le (Node.size_lt_of_mem_namedChildren (by simp [h])) hn))
      else .names (some text)

/-- One look at an annotation, which may be given with the `type` around it or
without. -/
def Source.readType (src : Source) (n : Node) : Except Defect (Reading n) :=
  let node := n.opened .type
  have hn : node.size ≤ n.size := Node.size_opened_le .type n
  match node.label with
  | .name text => .ok (.names (some text))
  | .mark _ => (src.text node).map fun text => .names (nameBeforeBracket text)
  | .construct kind =>
    match kind with
    | .attributeAccess | .dottedName => (src.text node).map fun text => .names (some text)
    | .string =>
      (src.text node).map fun text =>
        .names (nameBeforeBracket (Text.trimBy (fun c => c = '\'' || c = '"') text))
    | .binaryOperator =>
      match h : node.child? .left with
      | none => .ok (.names none)
      | some left => .ok (.sameAs left (Nat.lt_of_lt_of_le (Node.size_lt_of_child? h) hn))
    | .genericType | .subscript => src.readBracketed n node hn
    | _ => (src.text node).map fun text => .names (nameBeforeBracket text)

/-- **The principal name of an annotation.** -/
def Source.typeName (src : Source) (n : Node) : Except Defect (Option String) :=
  match src.readType n with
  | .error defect => .error defect
  | .ok (.names name) => .ok name
  | .ok (.sameAs part _) => src.typeName part
termination_by n.size

end CallTree.Syntax
