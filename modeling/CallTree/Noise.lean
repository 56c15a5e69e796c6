import CallTree.Noise.StandardLibrary
import CallTree.Symbol

/-!
# Noise

Not every call is worth a branch of the tree. A method is noise when it is one of
the protocol methods that everything has, when it lives under one of the
framework's modules, or when it is external and lives in the standard library.

A module lies *under* a root when it is the root or when the root is followed by
a dot in its name, so `builtins` covers `builtins.x` and not `builtinsx`.
-/

namespace CallTree

open CallTree.Text (segments dotted)

namespace Noise

/-- The modules that a module lies under, by its name: `a`, `a.b` and `a.b.c` for
`a.b.c`. -/
def roots (homeModule : String) : List String :=
  let parts := segments homeModule
  (List.range parts.length).map fun n => dotted (parts.take (n + 1))

/-- Whether a module lies under one of the given ones. The empty name lies under
nothing. -/
def isUnder (given : List String) (homeModule : String) : Bool :=
  !homeModule.isEmpty && (roots homeModule).any given.contains

end Noise

/-- **What is left out of a call tree.** -/
structure Noise where
  /-- Modules whose methods are left out, with everything under them. -/
  frameworkRoots : List String := ["builtins"]
  /-- Methods that are left out whatever type declares them. -/
  skippedMethods : List String :=
    ["__str__", "__repr__", "__format__", "__eq__", "__ne__", "__hash__"]
  /-- Whether external methods of the standard library are left out. -/
  includeStandard : Bool := true
deriving DecidableEq, Repr, Inhabited

/-- **Whether a method is left out.** -/
def Noise.skips (noise : Noise) (m : MethodSymbol) : Bool :=
  noise.skippedMethods.contains m.name
    || Noise.isUnder noise.frameworkRoots m.homeModule
    || (m.isExternal && noise.includeStandard
        && Noise.isUnder Noise.standardModules m.homeModule)

/-- Whether a method is left out, if there is one; what is not known is left out. -/
def Noise.skips? (noise : Noise) : Option MethodSymbol → Bool
  | some m => noise.skips m
  | none => true

end CallTree
