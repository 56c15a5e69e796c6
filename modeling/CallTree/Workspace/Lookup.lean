import CallTree.Text.Case
import CallTree.Workspace.Builtin
import CallTree.Workspace.Index

/-!
# Looking up names

What a name stands for is found by asking three kinds of questions that lead to
each other: what a name means in a module, what a name means as an attribute of
a module or a type, and what the ancestors of a type are. An import leads from
one module to the next, an attribute of a type leads to the type's ancestors, and
the names of the bases lead back to the first question.

Imports may go round in a circle, so only so many are followed one after the
other. Ancestors may go round as well; no type is listed twice. What remains is
one question that can come up while it is being answered: a member of a type is
looked for among its ancestors, and a base of an ancestor may be written as a
member of a type. All look-ups are therefore written for a given way `member` of
finding members, and `memberWithin` ties the knot, one level of nesting after the
other. When the levels are used up the answer is a fault.
-/

namespace CallTree.Workspace

open CallTree.Data (Table)
open CallTree.Text (segments dotted lastSegment isCapitalised startsWith contains)

/-- A module as something that names can be taken from. -/
structure ModuleRef where
  name : String
  isExternal : Bool := false
deriving DecidableEq, Repr, Inhabited

/-- **What a name can stand for.** -/
inductive Referent where
  | symbol (s : Symbol)
  | module' (m : ModuleRef)
deriving DecidableEq, Repr

/-- The symbol that a referent is. -/
def Referent.symbol? : Referent → Option Symbol
  | symbol s => some s
  | module' _ => none

/-- The type that a referent is. -/
def Referent.type? : Referent → Option TypeSymbol
  | symbol (.type t) => some t
  | _ => none

/-! ## External names -/

/-- A method that is known by name only. -/
def externalMethod (homeModule owner name qualifiedName : String) : MethodSymbol where
  name := name
  qualifiedName := qualifiedName
  homeModule := homeModule
  owner := some owner
  accessibility := .ofName name
  kind := .function
  isExternal := true

/-- A name of a module that is not in the workspace: a type when it begins with a
capital letter, a function otherwise. -/
def externalName (moduleName name : String) : Symbol :=
  let qualifiedName := moduleName ++ "." ++ name
  if isCapitalised name then
    .type { name := name, qualifiedName := qualifiedName, homeModule := moduleName,
            isExternal := true }
  else .method (externalMethod moduleName (lastSegment moduleName) name qualifiedName)

/-! ## Relative imports -/

/-- The list without its last items. Taking away more than there are begins again
at the end, as if the items were counted from there. -/
def takeAllBut (n : Nat) (items : List String) : List String :=
  if n ≤ items.length then items.take (items.length - n)
  else items.take (items.length - (n - items.length))

/-- **What an import in a module means**, without the dots that it may begin with.
One dot is the package that the module lies in, and each further one goes one
package up. -/
def ModuleIndex.absoluteTarget (index : ModuleIndex) (target : String) : String :=
  let dots := (target.toList.takeWhile (· = '.')).length
  if dots = 0 then target
  else
    let names := if index.moduleName.isEmpty then [] else segments index.moduleName
    let package := if index.isPackage then names else names.dropLast
    let package := if 1 < dots then takeAllBut (dots - 1) package else package
    let remainder := String.ofList (target.toList.drop dots)
    dotted (package ++ if remainder.isEmpty then [] else [remainder])

/-! ## Names in modules -/

/-- A way of finding a member of a type. -/
abbrev MemberLookup := TypeSymbol → String → Except Fault (Option Symbol)

/-- A way of finding a name in a module. -/
abbrev ModuleLookup := ModuleRef → String → Except Fault (Option Referent)

variable (ws : Workspace) (member : MemberLookup)

/-- A class or a function that a module defines. -/
def ModuleIndex.defined? (index : ModuleIndex) (name : String) : Option Symbol :=
  ((index.classes.get? name).map Symbol.type).or ((index.functions.get? name).map Symbol.method)

/-- A name of a module that is a module itself. -/
def submodule? (ref : ModuleRef) (name : String) : Option Referent :=
  let name := ref.name ++ "." ++ name
  if ws.modules.has name then some (.module' ⟨name, false⟩) else none

/-- One step along a dotted name, when names of modules are found by `within`. -/
def stepWith (within : ModuleLookup) (current : Option Referent) (name : String) :
    Except Fault (Option Referent) :=
  match current with
  | some (.module' m) => within m name
  | some (.symbol (.type t)) => (member t name).map (·.map .symbol)
  | _ => .ok none

/-- **What an imported name stands for**: a module of the workspace; else a module
outside it; else what the rest of the dotted name leads to from the longest
beginning that is a module of the workspace; else an external name. -/
def importedWith (within : ModuleLookup) (index : ModuleIndex) (name target : String) :
    Except Fault (Option Referent) :=
  let target := index.absoluteTarget target
  let parts := segments target
  if ws.modules.has target then .ok (some (.module' ⟨target, false⟩))
  else if parts.length = 1 || index.wholeModules.contains name then
    .ok (some (.module' ⟨target, true⟩))
  else
    let cuts := (List.range (parts.length - 1)).reverse.map (· + 1)
    match cuts.find? fun cut => ws.modules.has (dotted (parts.take cut)) with
    | some cut =>
      (parts.drop cut).foldlM (stepWith member within)
        (some (.module' ⟨dotted (parts.take cut), false⟩))
    | none => .ok (some (.symbol (externalName (dotted parts.dropLast) (lastSegment target))))

/-- **What a name of a module stands for**, when at most `hops` imports are followed
one after the other. A name of a module outside the workspace is external unless
it is a module of the workspace. -/
def inModuleWithin : (hops : Nat) → ModuleLookup
  | hops, ref, name =>
    match if ref.isExternal then none else ws.modules.get? ref.name with
    | none => .ok ((submodule? ws ref name).or (some (.symbol (externalName ref.name name))))
    | some index =>
      match index.defined? name, submodule? ws ref name, index.imports.get? name with
      | some s, _, _ => .ok (some (.symbol s))
      | none, some m, _ => .ok (some m)
      | none, none, none => .ok none
      | none, none, some target =>
        match hops with
        | 0 => .ok none
        | hops + 1 => importedWith ws member (inModuleWithin hops) index name target

/-- The number of imports that are followed one after the other. -/
def mostHops : Nat := 8

/-- What a name of a module stands for, seen from outside the module. -/
def inModuleWith : ModuleLookup := inModuleWithin ws member mostHops

/-- **What a name means at the top of a module**: what the module defines or
imports, or else something built in. -/
def globalWith (moduleName name : String) : Except Fault (Option Referent) :=
  let builtin : Option Referent :=
    if isBuiltin name then
      some (.symbol (.method (externalMethod "builtins" "builtins" name ("builtins." ++ name))))
    else none
  match ws.modules.get? moduleName with
  | none => .ok builtin
  | some index =>
    match index.defined? name, index.imports.get? name with
    | some s, _ => .ok (some (.symbol s))
    | none, some target => importedWith ws member (inModuleWith ws member) index name target
    | none, none => .ok builtin

/-- **What an attribute of a module or type stands for.** -/
def attributeWith (receiver : Option Referent) (name : String) : Except Fault (Option Referent) :=
  stepWith member (inModuleWith ws member) receiver name

/-- **The type that a dotted name means in a module.** -/
def typeNamedWith (moduleName : String) (name : Option String) :
    Except Fault (Option TypeSymbol) :=
  match name with
  | none => .ok none
  | some name =>
    if name.isEmpty || name = "Any" then .ok none
    else
      match segments name with
      | [] => .ok none
      | head :: rest => do
        let first ← globalWith ws member moduleName head
        let found ← rest.foldlM (attributeWith ws member) first
        return found.bind Referent.type?

/-! ## Ancestors and members -/

/-- The ancestors listed so far, followed by a type and its ancestors: the type,
then those of its bases from left to right. Types that are listed already are
passed over, and nothing is known of the bases of an external type. -/
def lineageFrom : (fuel : Nat) → TypeSymbol → List TypeSymbol → Except Fault (List TypeSymbol)
  | fuel, t, listed =>
    if listed.any (·.qualifiedName = t.qualifiedName) then .ok listed
    else if t.isExternal then .ok (listed ++ [t])
    else
      match fuel with
      | 0 => .ok (listed ++ [t])
      | fuel + 1 =>
        t.bases.foldlM (fun listed name => do
          match ← typeNamedWith ws member t.homeModule (some name) with
          | some base => lineageFrom fuel base listed
          | none => return listed) (listed ++ [t])

/-- **A type and its ancestors**, in the order in which members are looked for. On
the way from the type to an ancestor every type but the first and the last is in
the index, which bounds the length of the way. -/
def lineageWith (t : TypeSymbol) : Except Fault (List TypeSymbol) :=
  lineageFrom ws member (ws.types.length + 2) t []

/-- **The member of a type**: that of the first ancestor in the workspace which
declares it; else, with an external ancestor, something external. -/
def memberWith (t : TypeSymbol) (name : String) : Except Fault (Option Symbol) := do
  let lineage ← lineageWith ws member t
  let declared := (lineage.filter (!·.isExternal)).findSome? fun a =>
    (ws.types.get? a.qualifiedName).bind (·.declares? name)
  match declared with
  | some s => return some s
  | none =>
    return (lineage.find? (·.isExternal)).map fun a =>
      .method (externalMethod a.homeModule a.name name (a.qualifiedName ++ "." ++ name))

/-- Finding members with so many levels of nesting. -/
def memberWithin : Nat → MemberLookup
  | 0, _, _ => .error .tooDeep
  | level + 1, t, name => memberWith ws (memberWithin level) t name

/-- The number of levels of nesting that are gone through. A thousand calls can be open
at the same time, and a level takes five of them: one each for the member, the ancestors,
one of these, the name of its base, and an attribute in that name. -/
def mostLevels : Nat := 200

end CallTree.Workspace

namespace CallTree.Workspace

/-- **The member of a type under a name.** -/
def member (ws : Workspace) : MemberLookup := memberWithin ws mostLevels

/-- A type and its ancestors, in the order in which members are looked for. -/
def lineage (ws : Workspace) (t : TypeSymbol) : Except Fault (List TypeSymbol) :=
  lineageWith ws ws.member t

/-- What a name means at the top of a module. -/
def global (ws : Workspace) (moduleName name : String) : Except Fault (Option Referent) :=
  globalWith ws ws.member moduleName name

/-- What a name of a module stands for, seen from outside the module. -/
def inModule (ws : Workspace) : ModuleLookup := inModuleWith ws ws.member

/-- What an attribute of a module or type stands for. -/
def attributeOf (ws : Workspace) (receiver : Option Referent) (name : String) :
    Except Fault (Option Referent) :=
  attributeWith ws ws.member receiver name

/-- The type that a dotted name means in a module. -/
def typeNamed (ws : Workspace) (moduleName : String) (name : Option String) :
    Except Fault (Option TypeSymbol) :=
  typeNamedWith ws ws.member moduleName name

/-! ## Constructors and definitions -/

/-- **The constructor that creates an object of a type**: its own, or one that
stands for the inherited one. -/
def constructorOf (ws : Workspace) (t : TypeSymbol) : MethodSymbol :=
  match (ws.types.get? t.qualifiedName).bind (·.methods.get? "__init__") with
  | some m => m
  | none =>
    { name := "__init__"
      qualifiedName := t.qualifiedName ++ ".__init__"
      homeModule := t.homeModule
      owner := some t.name
      file := t.file
      kind := .constructor
      isExternal := t.isExternal }

/-- The name without its last segment, if it has more than one. -/
def ownerName (qualifiedName : String) : String :=
  if Text.contains "." qualifiedName then Text.withoutLast qualifiedName else qualifiedName

/-- The definition of the constructor that a type inherits: that of the first
ancestor which has one. -/
def inheritedConstructor (ws : Workspace) (t : TypeSymbol) : Except Fault (Option Definition) := do
  let ancestors := (← ws.lineage t).drop 1
  let constructor := ancestors.findSome? fun a =>
    (ws.types.get? a.qualifiedName).bind (·.methods.get? "__init__")
  return constructor.bind fun m => ws.definitions.get? m.qualifiedName

/-- **Where a method is defined.** External methods are not, and a constructor
without a definition of its own has the one it inherits. -/
def definitionOf (ws : Workspace) (m : MethodSymbol) : Except Fault (Option Definition) :=
  if m.isExternal then .ok none
  else
    match ws.definitions.get? m.qualifiedName with
    | some d => .ok (some d)
    | none =>
      if m.kind = .constructor then
        match ws.types.get? (ownerName m.qualifiedName) with
        | some owner => ws.inheritedConstructor owner.symbol
        | none => .ok none
      else .ok none

end CallTree.Workspace
