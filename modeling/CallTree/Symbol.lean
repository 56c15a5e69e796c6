import CallTree.Text.Dotted

/-!
# Symbols

A symbol stands for something that a program declares: a type, a method, a field
or a property. Symbols are plain values. Two of them are the same symbol exactly
when they agree in everything, which is how a use in one body is recognised as a
use of a member declared elsewhere.

Not every symbol is declared in the program at hand. Types and methods of other
libraries are known by name only; they are *external*.
-/

namespace CallTree

open CallTree.Text (startsWith endsWith lastSegment)

/-- Who may use a declaration, going by its name. -/
inductive Accessibility where
  | published
  /-- One leading underscore. -/
  | internal
  /-- Two leading underscores, and not two trailing ones. -/
  | concealed
deriving DecidableEq, Repr, Inhabited

namespace Accessibility

/-- How an accessibility is spelled. -/
def spelling : Accessibility → String
  | published => "public"
  | internal => "internal"
  | concealed => "private"

/-- **The accessibility that a name declares.** A name with two underscores at
both ends belongs to a protocol and is for everyone. -/
def ofName (name : String) : Accessibility :=
  if startsWith "__" name && endsWith "__" name then published
  else if startsWith "__" name then concealed
  else if startsWith "_" name then internal
  else published

end Accessibility

/-- The kinds of things that can be called. -/
inductive MethodKind where
  | method
  | constructor
  /-- A function of a module. -/
  | function
deriving DecidableEq, Repr, Inhabited

/-- How a kind of method is spelled. -/
def MethodKind.spelling : MethodKind → String
  | method => "method"
  | constructor => "constructor"
  | function => "function"

/-- **What all declarations have in common.** -/
structure Declared where
  /-- The name without qualification. -/
  name : String
  /-- The dotted name. -/
  qualifiedName : String
  /-- The dotted name of the module it belongs to; empty when unknown. -/
  homeModule : String := ""
  /-- The name of the type that declares it. -/
  owner : Option String := none
  accessibility : Accessibility := .published
  /-- Whether it does not bind to an instance. -/
  isStatic : Bool := false
  /-- The principal name of the declared result. -/
  returnType : Option String := none
  /-- The names of the decorators. -/
  decorators : List String := []
  /-- The file that declares it. -/
  file : Option String := none
deriving DecidableEq, Repr, Inhabited

/-- A class, or an external type that is known by name only. -/
structure TypeSymbol extends Declared where
  /-- The names of the declared bases, as written. -/
  bases : List String := []
  isExternal : Bool := false
deriving DecidableEq, Repr, Inhabited

/-- A method, a constructor, or a function of a module. -/
structure MethodSymbol extends Declared where
  kind : MethodKind := .method
  /-- The names of the parameters, the receiver left out. -/
  parameters : List String := []
  isExternal : Bool := false
deriving DecidableEq, Repr, Inhabited

/-- A field or a property of a class: something with a value of some type. -/
structure StateSymbol extends Declared where
  /-- The name of the declared or inferred type. -/
  typeName : String := "Any"
deriving DecidableEq, Repr, Inhabited

/-- **A symbol.** -/
inductive Symbol where
  | type (t : TypeSymbol)
  | method (m : MethodSymbol)
  | field (s : StateSymbol)
  | property (s : StateSymbol)
deriving DecidableEq, Repr

namespace Symbol

/-- What the symbol has in common with all others. -/
def declared : Symbol → Declared
  | type t => t.toDeclared
  | method m => m.toDeclared
  | field s => s.toDeclared
  | property s => s.toDeclared

/-- What sort of symbol it is. -/
def sort : Symbol → String
  | type _ => "type"
  | method _ => "method"
  | field _ => "field"
  | property _ => "property"

/-- Whether the symbol is declared outside the program. -/
def isExternal : Symbol → Bool
  | type t => t.isExternal
  | method m => m.isExternal
  | _ => false

/-- The type, if it is one. -/
def type? : Symbol → Option TypeSymbol
  | type t => some t
  | _ => none

/-- The method, if it is one. -/
def method? : Symbol → Option MethodSymbol
  | method m => some m
  | _ => none

end Symbol

/-- Who a method belongs to, for naming it: the type that declares it, or else
its module. -/
def MethodSymbol.ownerLabel (m : MethodSymbol) : String :=
  match m.owner with
  | some owner => if owner.isEmpty then moduleLabel else owner
  | none => moduleLabel
where
  /-- The module, or a placeholder when that is unknown too. -/
  moduleLabel : String := if m.homeModule.isEmpty then "<module>" else m.homeModule

/-- **The key of a method**, by which a walk recognises it. Overloads share the
key `Owner.name` unless the parameters are asked for. -/
def MethodSymbol.key (overloadAware : Bool) (m : MethodSymbol) : String :=
  let plain := m.ownerLabel ++ "." ++ m.name
  if overloadAware then plain ++ "(" ++ ", ".intercalate m.parameters ++ ")" else plain

end CallTree
