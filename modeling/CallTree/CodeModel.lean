import CallTree.Symbol
import CallTree.Text.Utf8

/-!
# Code models

The walk never looks at source code. Everything it knows about a program it asks
of a code model: where a method is defined, what the expressions of its body are
and which symbols they stand for. Any of these questions may fail, so every
answer can be a fault; the walk confines a fault to the method whose body it was
asked about.

The types of bodies, scopes and expressions belong to the model.
-/

namespace CallTree

/-- **Why a question was not answered.** -/
inductive Fault where
  /-- Something else went wrong, and said this. -/
  | raised (message : String)
  /-- There was no list where one was expected. -/
  | noList
  /-- A piece of a source file is not text. -/
  | undecodable (defect : Text.Utf8.Defect)
  /-- Names refer to each other in too long a chain. -/
  | tooDeep

/-- What a fault says. -/
def Fault.message : Fault → String
  | raised text => text
  | noList => "'NoneType' object is not iterable"
  | undecodable defect => defect.message
  | tooDeep => "maximum recursion depth exceeded"

/-- The kinds of expressions that a body is searched for. -/
inductive SyntaxKind where
  | invocation
  | objectCreation
  | memberAccess
  | identifier
deriving DecidableEq, Repr

/-- How a kind of expression is spelled. -/
def SyntaxKind.spelling : SyntaxKind → String
  | invocation => "invocation"
  | objectCreation => "object_creation"
  | memberAccess => "member_access"
  | identifier => "identifier"

/-- **A code model**: the questions that can be asked about a program. -/
structure CodeModel (Body Scope Expr : Type) where
  /-- The body of a method; nothing for external methods. -/
  definition : MethodSymbol → Except Fault (Option Body)
  /-- What resolves names in a body. -/
  scope : Body → Except Fault (Option Scope)
  /-- The expressions of one kind in a body, in the order of the source. -/
  occurrences : Body → SyntaxKind → Except Fault (List Expr)
  /-- The symbol that an expression stands for. -/
  resolve : Scope → Expr → Except Fault (Option Symbol)
  /-- The members that a type declares, in the order of their declaration. -/
  members : TypeSymbol → Except Fault (List Symbol)
  /-- What a member access takes the member of. -/
  receiver : Expr → Except Fault (Option Expr)
  /-- The invocation that calls a member access directly. -/
  invocation : Expr → Except Fault (Option Expr)
  /-- The type that a body belongs to. -/
  enclosing : Body → Option TypeSymbol

/-- **A list that a fault may have cut short.** -/
structure Cut (α : Type) where
  items : List α
  fault : Option Fault

namespace Cut

variable {α β : Type}

/-- A list that nothing has cut. -/
def done (items : List α) : Cut α := ⟨items, none⟩

/-- A list that was cut before its first item. -/
def stop (fault : Fault) : Cut α := ⟨[], some fault⟩

/-- One list after another; nothing comes after a fault. -/
def append (a b : Cut α) : Cut α :=
  match a.fault with
  | some fault => ⟨a.items, some fault⟩
  | none => ⟨a.items ++ b.items, b.fault⟩

/-- What each item of a list gives, one after the other, up to the first fault. -/
def each (f : α → Except Fault (List β)) : List α → Cut β
  | [] => done []
  | a :: rest =>
    match f a with
    | .error fault => stop fault
    | .ok items => (done items).append (each f rest)

/-- The list that an answer is, or the fault. -/
def after (answer : Except Fault α) (f : α → Cut β) : Cut β :=
  match answer with
  | .error fault => stop fault
  | .ok a => f a

end Cut

end CallTree
