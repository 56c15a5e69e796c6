import CallTree.CodeModel
import CallTree.Data.Value

/-!
# Disturbed code models

A model in which some questions fail, to see how far a failure spreads. A
disturbance concerns one question about one method or type; it makes the question
fail with a message or, without one, have no answer. Of several disturbances of
one question the latest counts.
-/

namespace CallTree

/-- The questions that can be disturbed. -/
inductive Question where
  | definition
  | scope
  | occurrences
  | members
deriving DecidableEq, Repr

/-- The question with this name. -/
def Question.ofName? : String → Option Question
  | "source_definition" => some .definition
  | "semantic_scope" => some .scope
  | "descendants_of_kind" => some .occurrences
  | "members" => some .members
  | _ => none

/-- **A disturbance of one question.** -/
structure Disturbance where
  question : Question
  /-- The name of the method or type that is asked about. -/
  name : String
  /-- The kind of expressions asked for; every kind if it is not said. -/
  kind : Option String
  message : Option String
deriving DecidableEq, Repr

namespace Disturbance

/-- Whether the disturbance concerns a question. -/
def concerns (d : Disturbance) (question : Question) (name : String) (kind : String) : Bool :=
  d.question = question && d.name = name && (d.kind.isNone || d.kind = some kind)

/-- The latest disturbance of a question. -/
def of? (ds : List Disturbance) (question : Question) (name : String) (kind : String := "") :
    Option Disturbance :=
  ds.reverse.find? (·.concerns question name kind)

/-- The answer to a question that has an empty answer. -/
def orNothing {α : Type} (d? : Option Disturbance) (answer : Except Fault (Option α)) :
    Except Fault (Option α) :=
  match d? with
  | none => answer
  | some d =>
    match d.message with
    | some message => .error (.raised message)
    | none => .ok none

/-- The answer to a question that must be answered by a list. -/
def orFault {α : Type} (d? : Option Disturbance) (answer : Except Fault (List α)) :
    Except Fault (List α) :=
  match d? with
  | none => answer
  | some d =>
    match d.message with
    | some message => .error (.raised message)
    | none => .error .noList

/-- A disturbance from a record. -/
def ofRecord? (r : Data.Value) : Option Disturbance := do
  let .text question ← r.get? "at" | none
  let question ← Question.ofName? question
  let text (key : String) : Option String :=
    match r.get? key with
    | some (.text s) => some s
    | _ => none
  return ⟨question, (text "name").getD "", text "kind", text "message"⟩

end Disturbance

/-- **The model with disturbances.** `nameOf` is the name of the method that a
body belongs to. -/
def CodeModel.disturbed {Body Scope Expr : Type} (model : CodeModel Body Scope Expr)
    (nameOf : Body → String) (ds : List Disturbance) : CodeModel Body Scope Expr :=
  { model with
    definition := fun m =>
      Disturbance.orNothing (Disturbance.of? ds .definition m.name) (model.definition m)
    scope := fun body =>
      Disturbance.orNothing (Disturbance.of? ds .scope (nameOf body)) (model.scope body)
    occurrences := fun body kind =>
      Disturbance.orFault (Disturbance.of? ds .occurrences (nameOf body) kind.spelling)
        (model.occurrences body kind)
    members := fun t =>
      Disturbance.orFault (Disturbance.of? ds .members t.name) (model.members t) }

end CallTree
