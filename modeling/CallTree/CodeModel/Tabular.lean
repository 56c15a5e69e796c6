import CallTree.CodeModel
import CallTree.Data.Table
import CallTree.Symbol.Record

/-!
# Programs given as tables

A program can be written down without any source: its symbols, the members of its
types, and for each method the expressions of its body together with the symbols
they stand for. The tables answer all questions of a code model.
-/

namespace CallTree.Tabular

open CallTree.Data

/-- An expression: what it stands for, what it takes a member of, and the
invocation that calls it. -/
inductive Expr where
  | mk (symbol : Option Symbol) (receiver invocation : Option Expr)

/-- The symbol that an expression stands for. -/
def Expr.symbol : Expr → Option Symbol
  | mk symbol _ _ => symbol

/-- What the expression takes a member of. -/
def Expr.receiver : Expr → Option Expr
  | mk _ receiver _ => receiver

/-- The invocation that calls the expression. -/
def Expr.invocation : Expr → Option Expr
  | mk _ _ invocation => invocation

/-- The expressions of a body. -/
structure Contents where
  enclosing : Option TypeSymbol := none
  hasScope : Bool := true
  occurrences : SyntaxKind → List Expr

/-- **A program given as tables.** -/
structure Program where
  symbols : Table Symbol
  /-- The members of types, by qualified name. -/
  members : Table (List Symbol)
  /-- The bodies of methods, by qualified name. -/
  bodies : Table Contents

/-- A body and the method it was asked for. -/
structure Body where
  method : MethodSymbol
  contents : Contents

/-- The types of the program. -/
def Program.types (program : Program) : List TypeSymbol :=
  program.symbols.values.filterMap Symbol.type?

/-- **The code model of a program given as tables.** -/
def Program.model (program : Program) : CodeModel Body Unit Expr where
  definition m := .ok ((program.bodies.get? m.qualifiedName).map fun contents => ⟨m, contents⟩)
  scope body := .ok (if body.contents.hasScope then some () else none)
  occurrences body kind := .ok (body.contents.occurrences kind)
  resolve _ expr := .ok expr.symbol
  members t := .ok ((program.members.get? t.qualifiedName).getD [])
  receiver expr := .ok expr.receiver
  invocation expr := .ok expr.invocation
  enclosing body := body.contents.enclosing

/-! ## Programs as records -/

/-- The entries of a record. -/
def entriesOf : Value → List (String × Value)
  | .map entries => entries.filterMap fun
    | (.text k, v) => some (k, v)
    | _ => none
  | _ => []

/-- The items of a list. -/
def itemsOf : Value → List Value
  | .list items => items
  | _ => []

/-- The symbol under the key that a record names. -/
def symbolAt (symbols : Table Symbol) (name : String) (r : Value) : Option Symbol :=
  match r.get? name with
  | some (.text key) => symbols.get? key
  | _ => none

/-- An expression without parts from a record. -/
def leafOf (symbols : Table Symbol) (r : Value) : Expr :=
  .mk (symbolAt symbols "sym" r) none none

/-- An expression from a record. -/
def exprOf (symbols : Table Symbol) (r : Value) : Expr :=
  let part (name : String) : Option Expr :=
    match r.get? name with
    | some (.map fields) => some (leafOf symbols (.map fields))
    | _ => none
  .mk (symbolAt symbols "sym" r) (part "receiver") (part "call")

/-- The contents of a body from a record. -/
def contentsOf (symbols : Table Symbol) (r : Value) : Contents where
  enclosing := (symbolAt symbols "enclosing" r).bind Symbol.type?
  hasScope := ((r.get? "no_scope").map Value.isVoid).getD true
  occurrences kind := (itemsOf ((r.get? kind.spelling).getD .null)).map (exprOf symbols)

/-- The sort of symbol that a record is of. -/
def sortOf (r : Value) : String :=
  match r.get? "symbol" with
  | some (.text sort) => sort
  | _ => ""

/-- **A program from a record.** The first symbol that is not in order is what the
record is refused for. -/
def Program.ofRecord (r : Value) : Checked Program := do
  let part (name : String) : List (String × Value) := entriesOf ((r.get? name).getD .null)
  let symbols ← (part "symbols").mapM fun (key, fields) =>
    (Symbol.ofRecord (sortOf fields) fields).map fun s => (key, s)
  let keysOf (v : Value) : List String := (itemsOf v).filterMap fun
    | .text key => some key
    | _ => none
  return {
    symbols := symbols
    members := (part "members").map fun (t, keys) =>
      (t, (keysOf keys).filterMap (Table.get? symbols))
    bodies := (part "bodies").map fun (m, body) => (m, contentsOf symbols body) }

end CallTree.Tabular
