import CallTree.Log
import CallTree.Walk.Tree

/-!
# The outcome of a walk

What a walk reports, read off its tree: the events and edges in the order in which
they came about, the keys of the methods that were expanded, and the log. The
root is at depth zero, and a callee is one deeper than its caller.
-/

namespace CallTree

namespace Walk

/-! ## Events -/

/-- The event of a remark on a method at some depth, if it has one. -/
def remarkEvent? (depth : Nat) : Remark → Option Event
  | .opened => none
  | .creates typeName => some (.creation typeName depth)
  | .uses member =>
    some (.dependency member.shownType depth member.kind (some member.state.name))
  | .unresolved _ => none

/-- The event that closes a method, if its ending has one. -/
def endingEvents (key : String) (depth : Nat) : Option Ending → List Event
  | none => []
  | some .complete => []
  | some .unavailable => [.terminal key depth .unavailable none]
  | some .noSemanticModel => [.terminal key depth .noSemanticModel none]
  | some (.failed message) => [.terminal key depth .providerError (some message)]

mutual

/-- **The events of a tree** whose root is at some depth. -/
def Tree.events (depth : Nat) : Tree → List Event
  | .calledOff key => [.terminal key depth .cancelled none]
  | .met key => [.cycle key depth]
  | .capped key => [.enter key depth, .terminal key depth .depthLimit none]
  | .expanded key _ branches ending =>
    .enter key depth :: (branches.events depth ++ endingEvents key depth ending)

/-- The events of the branches below a method at some depth. -/
def Branches.events (depth : Nat) : Branches → List Event
  | .none => []
  | .remark r rest => (remarkEvent? depth r).toList ++ rest.events depth
  | .call _ callee rest => callee.events (depth + 1) ++ rest.events depth

end

/-! ## Edges and keys -/

/-- The key of the method at the root. -/
def Tree.key : Tree → String
  | .calledOff key => key
  | .met key => key
  | .capped key => key
  | .expanded key _ _ _ => key

mutual

/-- **The edges of a tree.** -/
def Tree.edges (depth : Nat) : Tree → List Edge
  | .expanded key _ branches _ => branches.edges key depth
  | .calledOff _ => []
  | .met _ => []
  | .capped _ => []

/-- The edges of the branches below a method with this key. -/
def Branches.edges (caller : String) (depth : Nat) : Branches → List Edge
  | .none => []
  | .remark _ rest => rest.edges caller depth
  | .call kind callee rest =>
    ⟨caller, callee.key, kind, (depth + 1 : Nat)⟩
      :: (callee.edges (depth + 1) ++ rest.edges caller depth)

end

mutual

/-- **The methods that were expanded**, each time with the key. -/
def Tree.expansions : Tree → List (String × MethodSymbol)
  | .expanded key m branches _ => (key, m) :: branches.expansions
  | .calledOff _ => []
  | .met _ => []
  | .capped _ => []

/-- The methods that were expanded below a method. -/
def Branches.expansions : Branches → List (String × MethodSymbol)
  | .none => []
  | .remark _ rest => rest.expansions
  | .call _ callee rest => callee.expansions ++ rest.expansions

end

/-! ## Log -/

/-- What is logged for a remark. -/
def remarkLog (key : String) (depth : Nat) : Remark → List Log.Record
  | .opened => [⟨.debug, .walk, s!"Expanding {key} at depth {depth}"⟩]
  | .unresolved member =>
    [⟨.debug, .dependencies, "Unresolved call through " ++ member.state.qualifiedName⟩]
  | .creates _ => []
  | .uses _ => []

/-- What is logged when the expansion of a method ends. -/
def endingLog (m : MethodSymbol) : Option Ending → List Log.Record
  | some (.failed message) =>
    [⟨.warning, .walk, s!"Analysis of {m.qualifiedName} failed: {message}"⟩]
  | _ => []

mutual

/-- What is logged while a tree grows. -/
def Tree.log (depth : Nat) : Tree → List Log.Record
  | .expanded key m branches ending => branches.log key depth ++ endingLog m ending
  | .calledOff _ => []
  | .met _ => []
  | .capped _ => []

/-- What is logged while branches grow below a method with this key. -/
def Branches.log (key : String) (depth : Nat) : Branches → List Log.Record
  | .none => []
  | .remark r rest => remarkLog key depth r ++ rest.log key depth
  | .call _ callee rest => callee.log (depth + 1) ++ rest.log key depth

end

/-! ## The walk -/

/-- **The outcome of a walk.** -/
structure Outcome where
  /-- The key of the method it began with. -/
  entry : String
  events : List Event
  edges : List Edge
  /-- The keys that were expanded, in the order of their first expansion. -/
  visited : List String
  /-- The key of every expansion, in order. -/
  expanded : List String
  /-- Whether it was called off. -/
  cancelled : Bool
  log : List Log.Record

/-- The signatures of the methods that were entered. -/
def Outcome.signatures (o : Outcome) : List String :=
  o.events.filterMap Event.entered?

/-- The outcome that a tree and the progress at its end stand for. -/
def Outcome.ofTree (entry : MethodSymbol) (tree : Tree) (p : Progress) : Outcome :=
  let expanded := tree.expansions.map (·.1)
  { entry := tree.key
    events := tree.events 0
    edges := tree.edges 0
    visited := p.visited
    expanded := expanded
    cancelled := p.halted
    log := tree.log 0 ++
      if p.halted then
        [⟨.info, .walk,
          s!"Walk from {entry.qualifiedName} cancelled after {expanded.length} nodes"⟩]
      else [] }

variable {Body Scope Expr : Type}

/-- The plan of a walk over a code model. -/
def Plan.ofModel (model : CodeModel Body Scope Expr) (noise : Noise) (options : Options)
    (calledOff : Nat → Bool) : Plan where
  script := Script.ofMethod model noise options.unifyPropertyDependencies
  key := MethodSymbol.key options.overloadAwareKeys
  repeats := options.expandRepeatedPaths
  calledOff := calledOff

/-- **The call tree of a method**, with the progress at its end. -/
def treeFrom (model : CodeModel Body Scope Expr) (noise : Noise) (options : Options)
    (calledOff : Nat → Bool) (entry : MethodSymbol) : Tree × Progress :=
  grow (Plan.ofModel model noise options calledOff) options.maxDepth [] entry {}

/-- **The walk from a method.** -/
def walk (model : CodeModel Body Scope Expr) (noise : Noise) (options : Options)
    (calledOff : Nat → Bool) (entry : MethodSymbol) : Outcome :=
  let (tree, p) := treeFrom model noise options calledOff entry
  .ofTree entry tree p

end Walk

end CallTree
