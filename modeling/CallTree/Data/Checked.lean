import CallTree.Data.Value

/-!
# Checking data

Data from outside is checked against what is expected of it, and a refusal says
everything that is wrong and not only the first thing. So a check that fails
carries a list of complaints, and checks that do not depend on each other are
joined by `Checked.ap`, which keeps the complaints of both.
-/

namespace CallTree.Data

/-- A step on the way to the place of a complaint. -/
inductive Step where
  | field (name : String)
  | item (index : Nat)
deriving DecidableEq, Repr

/-- What can be wrong with a value. -/
inductive Flaw where
  | missing
  | notText
  /-- Bytes that are the encoding of no text. -/
  | undecodableText
  | notInt
  | unreadableInt
  | tooManyDigits
  | fractionalInt
  | notFinite
  | tooSmall
  | tooLarge
  | notBool
  | unreadableBool
  | notList
  | notSequence
  | notAmong
  | notRecord
  /-- A rule of its own, with what it says. -/
  | custom (message : String)
deriving DecidableEq, Repr

/-- The code by which a flaw is reported. -/
def Flaw.code : Flaw → String
  | missing => "missing"
  | notText => "string_type"
  | undecodableText => "string_unicode"
  | notInt => "int_type"
  | unreadableInt => "int_parsing"
  | tooManyDigits => "int_parsing_size"
  | fractionalInt => "int_from_float"
  | notFinite => "finite_number"
  | tooSmall => "greater_than_equal"
  | tooLarge => "less_than_equal"
  | notBool => "bool_type"
  | unreadableBool => "bool_parsing"
  | notList => "list_type"
  | notSequence => "tuple_type"
  | notAmong => "enum"
  | notRecord => "model_type"
  | custom _ => "value_error"

/-- **A complaint**: a flaw and where it is. -/
structure Complaint where
  path : List Step
  flaw : Flaw
deriving DecidableEq, Repr

/-- **A checked value**, or everything that is wrong with it. -/
abbrev Checked (α : Type) := Except (List Complaint) α

namespace Checked

variable {α β : Type}

/-- A refusal for one reason, at the place itself. -/
def refuse (flaw : Flaw) : Checked α := .error [⟨[], flaw⟩]

/-- The check with its complaints placed one step further down. -/
def below (step : Step) (c : Checked α) : Checked α :=
  c.mapError fun complaints => complaints.map fun x => { x with path := step :: x.path }

/-- **Two independent checks**, joined: all complaints of both are kept. -/
def ap (f : Checked (α → β)) (c : Checked α) : Checked β :=
  match f, c with
  | .ok f, .ok a => .ok (f a)
  | .ok _, .error es => .error es
  | .error es, .ok _ => .error es
  | .error es, .error es' => .error (es ++ es')

/-- The items of a list, each checked in its place. -/
def items (check : Value → Checked α) (vs : List Value) (start : Nat := 0) : Checked (List α) :=
  match vs with
  | [] => .ok []
  | v :: rest =>
    ap (ap (.ok List.cons) (below (.item start) (check v))) (items check rest (start + 1))

/-- A field of a record that must be there. -/
def required (check : Value → Checked α) (name : String) (record : Value) : Checked α :=
  below (.field name) <|
    match record.get? name with
    | none => refuse .missing
    | some v => check v

/-- A field of a record that has a value of its own when it is not there. -/
def optional (check : Value → Checked α) (default : α) (name : String) (record : Value) :
    Checked α :=
  match record.get? name with
  | none => .ok default
  | some v => below (.field name) (check v)

end Checked

end CallTree.Data
