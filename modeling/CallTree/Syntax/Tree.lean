import CallTree.Syntax.Grammar.Statement
import CallTree.Syntax.Token.Lexer

/-!
# The tree of a source

The rules of the grammar are tied together here: `Grammar.run` answers a request
for a phrase with that phrase's rule, and gives the rule itself, with less fuel,
to make its own requests with. Then the comments and continuations that were
passed over are put in place: each becomes a child of the smallest node that holds
something on either side of it.

`Source.tree` is total. A file with errors has a tree as well, with an error in
the place of each statement that could not be read.
-/

namespace CallTree.Syntax

namespace Grammar

/-- The rule for a goal. -/
def ruleFor (inner : Inner) : Goal → Rule Node
  | .expression => expression inner
  | .unconditional => unconditional inner
  | .iterated => iterated inner
  | .disjunction => disjunction inner
  | .factor => factor inner
  | .operand => operand inner
  | .rightSide => rightSide inner
  | .typeHint => typeHint inner
  | .suite => suite inner
  | .casePattern => casePattern inner
  | .field => field inner

/-- **Answers requests for phrases** that nest at most `fuel` deep. -/
def run : Nat → Inner
  | 0, _ => Rule.stuck
  | fuel + 1, goal => ruleFor (run fuel) goal

end Grammar

mutual

/-- The node with a comment or continuation put in its place among what is below
it. -/
def Node.insertExtra (extra : Node) : Node → Node
  | .mk label role span children => .mk label role span (Node.insertAmong extra children)

/-- Puts a comment or continuation in its place among siblings: into the one
that surrounds it, or before the first that comes after it. -/
def Node.insertAmong (extra : Node) : List Node → List Node
  | [] => [extra]
  | n :: ns =>
    if n.span.start < extra.span.start && extra.span.stop ≤ n.span.stop then
      Node.insertExtra extra n :: ns
    else if extra.span.start < n.span.start then extra :: n :: ns
    else n :: Node.insertAmong extra ns

end

/-- The tree of a row of tokens. -/
def treeOfTokens (size : Nat) (tokens : List Token) : Node :=
  let (statements, extras) :=
    match Grammar.sourceFile (Grammar.run (2 * tokens.length + 8)) (.start tokens) with
    | .ok (parts, c) => (parts, c.extras.reverse.filterMap Trivium.leaf?)
    | .error span => ([.mk (.construct .error) none span []], [])
  let root : Node := .mk (.construct .sourceFile) none ⟨0, size, 0⟩ statements
  extras.foldl (fun root extra => Node.insertExtra extra root) root

/-- **The tree of a source.** -/
def Source.tree (src : Source) : Node :=
  treeOfTokens src.bytes.size src.tokens

end CallTree.Syntax
