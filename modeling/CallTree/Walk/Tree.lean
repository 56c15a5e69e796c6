import CallTree.Walk.Options
import CallTree.Walk.Script

/-!
# The call tree

A walk from a method grows a tree. Its root is the method, and below each method
that is expanded are the steps of its script, with a tree in the place of every
call. What keeps the tree finite is the depth, which is bounded, and what keeps
it small is the guard: a method whose key has been met before is not expanded
again.

Two things travel along as the tree grows: how often the walk has asked whether
to go on, and which keys have been expanded. Everything that is reported of a
walk can be read off the tree afterwards, so nothing else has to be kept.

A walk that is called off stops where it is. The tree that it leaves ends in the
method that was about to be visited, and the methods above it stay unfinished.
-/

namespace CallTree.Walk

open CallTree.Script (Step)

mutual

/-- **A call tree.** -/
inductive Tree where
  /-- The walk was called off when it came to this method. -/
  | calledOff (key : String)
  /-- The method has been met before. -/
  | met (key : String)
  /-- The method lies too deep to be expanded. -/
  | capped (key : String)
  /-- The method was expanded. There is no ending when the walk was called off
  below it. -/
  | expanded (key : String) (method : MethodSymbol) (branches : Branches)
      (ending : Option Ending)

/-- What is below a method, in order. -/
inductive Branches where
  | none
  | remark (r : Remark) (rest : Branches)
  | call (kind : EdgeKind) (callee : Tree) (rest : Branches)

end

/-- **What a walk goes by**: the scripts and keys of methods, whether repeated
paths are expanded, and when it is called off, as a function of how often it has
asked. -/
structure Plan where
  script : MethodSymbol → Script
  key : MethodSymbol → String
  repeats : Bool
  calledOff : Nat → Bool

/-- **What a walk has done so far.** -/
structure Progress where
  /-- How often it has asked whether to go on. -/
  polls : Nat := 0
  /-- The keys that were expanded, in the order of their first expansion. -/
  visited : List String := []
  /-- Whether it has been called off. -/
  halted : Bool := false
deriving DecidableEq, Repr

/-- The progress after one more question. -/
def Progress.polled (p : Progress) : Progress := { p with polls := p.polls + 1 }

/-- The progress after a key was expanded. -/
def Progress.mark (key : String) (p : Progress) : Progress :=
  if p.visited.contains key then p else { p with visited := p.visited ++ [key] }

/-- **Whether a key is guarded** against being expanded: with repeated paths, when
it is being expanded; otherwise, when it has been. -/
def Plan.guards (plan : Plan) (path : List String) (p : Progress) (key : String) : Bool :=
  if plan.repeats then path.contains key else p.visited.contains key

/-- The branches that the steps of a script grow, when `visit` grows the tree of a
callee. Nothing grows after the walk is called off. -/
def growBranches (visit : MethodSymbol → Progress → Tree × Progress) :
    List Step → Progress → Branches × Progress
  | [], p => (.none, p)
  | .remark r :: steps, p =>
    let (rest, p) := growBranches visit steps p
    (.remark r rest, p)
  | .follow kind callee :: steps, p =>
    let (tree, p) := visit callee p
    if p.halted then (.call kind tree .none, p)
    else
      let (rest, p) := growBranches visit steps p
      (.call kind tree rest, p)

/-- **The tree of a method**, with `room` levels left below the cap and the keys
on the path above it. -/
def grow (plan : Plan) : (room : Nat) → (path : List String) → MethodSymbol → Progress →
    Tree × Progress
  | room, path, m, p =>
    let key := plan.key m
    if plan.calledOff p.polls then (.calledOff key, { p.polled with halted := true })
    else
      let p := p.polled
      if plan.guards path p key then (.met key, p)
      else
        match room with
        | 0 => (.capped key, p)
        | room + 1 =>
          let script := plan.script m
          let (branches, p) := growBranches (grow plan room (key :: path)) script.steps (p.mark key)
          (.expanded key m branches (if p.halted then none else some script.ending), p)

end CallTree.Walk
