import CallTree.Noise
import CallTree.Walk.Dependency

/-!
# What there is to do in a body

The walk expands a method by going through its *script*: the calls to follow, the
objects created and the members used, in the order in which they are reported,
and how the expansion ends. A fault of the code model cuts the script short, and
what stood before it is still done.

A script depends on the method alone. All that the walk does beyond it is a
question of where the walk has been before.
-/

namespace CallTree

/-- Something that a body does besides calling. -/
inductive Remark where
  /-- The body is about to be gone through. -/
  | opened
  /-- An object is created. -/
  | creates (typeName : String)
  /-- A member is used. -/
  | uses (member : Member)
  /-- A call through a member stays unresolved. -/
  | unresolved (member : Member)
deriving DecidableEq, Repr

/-- **A step of a script.** -/
inductive Script.Step where
  | remark (r : Remark)
  | follow (kind : EdgeKind) (callee : MethodSymbol)
deriving DecidableEq, Repr

/-- How the expansion of a method ends. -/
inductive Ending where
  /-- Everything was done. -/
  | complete
  | unavailable
  | noSemanticModel
  /-- A fault cut it short. -/
  | failed (message : String)
deriving DecidableEq, Repr

/-- **What there is to do in a body**, and how it ends. -/
structure Script where
  steps : List Script.Step
  ending : Ending
deriving DecidableEq, Repr

namespace Script

variable {Body Scope Expr : Type} (model : CodeModel Body Scope Expr) (noise : Noise)

/-- The call to follow for a target, unless it is noise. -/
def followed (kind : EdgeKind) (target : MethodSymbol) : List Step :=
  if noise.skips target then [] else [.follow kind target]

/-- The steps for one invocation. -/
def invocationSteps (scope : Scope) (invocation : Expr) : Except Fault (List Step) := do
  match ← model.resolve scope invocation with
  | some (.method target) => return followed noise .directInvocation target
  | _ => return []

/-- The name of the type that a constructor creates an object of. -/
def createdType (m : MethodSymbol) : String :=
  match m.owner with
  | some owner => if owner.isEmpty then m.name else owner
  | none => m.name

/-- The steps for one creation of an object: it is noted even if its constructor
is noise. -/
def creationSteps (scope : Scope) (creation : Expr) : Except Fault (List Step) := do
  match ← model.resolve scope creation with
  | some (.method target) =>
    return .remark (.creates (createdType target)) :: followed noise .objectCreation target
  | _ => return []

/-- The steps for one dependency. -/
def usageSteps (usage : Dependency.Usage) : List Step :=
  match usage.invoked with
  | none => [.remark (.uses usage.member)]
  | some target => followed noise .dependencyInvocation target

/-- The steps for what a search for dependencies found. The search is over before
the first usage is acted upon, so what stayed unresolved comes first, and a fault
leaves no usage. -/
def dependencySteps (found : Cut Dependency.Finding) : Cut Step :=
  let unresolved := found.items.filterMap fun
    | .unresolved member => some (.remark (.unresolved member))
    | .usage _ => none
  (Cut.done unresolved).append <|
    match Dependency.usages found with
    | .error fault => .stop fault
    | .ok usages => .done (usages.flatMap (usageSteps noise))

/-- The steps of a body: invocations, then creations, then dependencies. -/
def bodySteps (throughProperties : Bool) (body : Body) (scope : Scope) : Cut Step :=
  (Cut.done [.remark .opened]).append <|
    (Cut.after (model.occurrences body .invocation)
      (Cut.each (invocationSteps model noise scope))).append <|
    (Cut.after (model.occurrences body .objectCreation)
      (Cut.each (creationSteps model noise scope))).append <|
    dependencySteps noise (Dependency.findings model throughProperties body scope)

/-- **The script of a method.** -/
def ofMethod (throughProperties : Bool) (m : MethodSymbol) : Script :=
  match model.definition m with
  | .error fault => ⟨[], .failed fault.message⟩
  | .ok none => ⟨[], .unavailable⟩
  | .ok (some body) =>
    match model.scope body with
    | .error fault => ⟨[], .failed fault.message⟩
    | .ok none => ⟨[], .noSemanticModel⟩
    | .ok (some scope) =>
      let steps := bodySteps model noise throughProperties body scope
      ⟨steps.items,
        match steps.fault with
        | some fault => .failed fault.message
        | none => .complete⟩

end Script

end CallTree
