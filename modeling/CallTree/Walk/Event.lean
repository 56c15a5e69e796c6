import CallTree.Data.Scalar

/-!
# Events and edges of a walk

A walk reports what it sees as a sequence of events, each with the distance from
the entry at which it happens, and the calls that it follows as edges.
-/

namespace CallTree

open CallTree.Data

/-- Why a method is listed and not expanded. -/
inductive TerminalReason where
  /-- There is no source for it. -/
  | unavailable
  /-- There is source, and nothing that could resolve names in it. -/
  | noSemanticModel
  /-- Analysing it failed. -/
  | providerError
  /-- It lies too deep. -/
  | depthLimit
  /-- The walk was called off. -/
  | cancelled
deriving DecidableEq, Repr, Inhabited

/-- How a reason is spelled. -/
def TerminalReason.spelling : TerminalReason → String
  | unavailable => "unavailable"
  | noSemanticModel => "no_semantic_model"
  | providerError => "provider_error"
  | depthLimit => "depth_limit"
  | cancelled => "cancelled"

/-- The members through which a type depends on others. -/
inductive MemberKind where
  | field
  | property
deriving DecidableEq, Repr, Inhabited

/-- How a kind of member is spelled. -/
def MemberKind.spelling : MemberKind → String
  | field => "field"
  | property => "property"

/-- How a callee was found. -/
inductive EdgeKind where
  | directInvocation
  | objectCreation
  | dependencyInvocation
deriving DecidableEq, Repr, Inhabited

/-- How a kind of edge is spelled. -/
def EdgeKind.spelling : EdgeKind → String
  | directInvocation => "direct_invocation"
  | objectCreation => "object_creation"
  | dependencyInvocation => "dependency_invocation"

/-- **An event of a walk.** -/
inductive Event where
  /-- A method is visited. -/
  | enter (signature : String) (depth : Int)
  /-- A method is reached again and not expanded again. -/
  | cycle (signature : String) (depth : Int)
  /-- A visited method is not expanded, or not to the end. -/
  | terminal (signature : String) (depth : Int) (reason : TerminalReason)
      (detail : Option String)
  /-- The method being visited creates an object. -/
  | creation (typeName : String) (depth : Int)
  /-- The method being visited uses a member of its type. -/
  | dependency (memberType : String) (depth : Int) (kind : MemberKind)
      (memberName : Option String)
deriving DecidableEq, Repr, Inhabited

namespace Event

/-- The distance from the entry. -/
def depth : Event → Int
  | enter _ d => d
  | cycle _ d => d
  | terminal _ d _ _ => d
  | creation _ d => d
  | dependency _ d _ _ => d

/-- The signature of a method that is entered. -/
def entered? : Event → Option String
  | enter s _ => some s
  | _ => none

end Event

/-- **A call that was followed.** -/
structure Edge where
  caller : String
  callee : String
  kind : EdgeKind
  /-- The distance of the callee from the entry. -/
  depth : Int
deriving DecidableEq, Repr, Inhabited

/-! ## Events as records -/

/-- The reasons by their spelling. -/
def TerminalReason.choices : List (String × TerminalReason) :=
  [unavailable, noSemanticModel, providerError, depthLimit, cancelled].map fun r => (r.spelling, r)

/-- The kinds of members by their spelling. -/
def MemberKind.choices : List (String × MemberKind) :=
  [field, property].map fun k => (k.spelling, k)

/-- The kinds of edges by their spelling. -/
def EdgeKind.choices : List (String × EdgeKind) :=
  [directInvocation, objectCreation, dependencyInvocation].map fun k => (k.spelling, k)

/-- The fields of an event, with the kind of event that it is. -/
def Event.fields : Event → List (String × Value)
  | enter s d => [("kind", .text "enter_node"), ("signature", .text s), ("depth", .int d)]
  | cycle s d => [("kind", .text "cycle_hit"), ("signature", .text s), ("depth", .int d)]
  | terminal s d r detail =>
    [("kind", .text "terminal"), ("signature", .text s), ("depth", .int d),
     ("reason", .text r.spelling), ("detail", .ofText? detail)]
  | creation t d => [("kind", .text "creation"), ("type_name", .text t), ("depth", .int d)]
  | dependency t d k name =>
    [("kind", .text "dependency"), ("member_type", .text t), ("depth", .int d),
     ("member_kind", .text k.spelling), ("member_name", .ofText? name)]

/-- The kinds of events by their spelling. -/
def Event.kinds : List (String × Unit) :=
  ["enter_node", "cycle_hit", "terminal", "creation", "dependency"].map fun k => (k, ())

/-- **An event of a given kind from a record.** -/
def Event.ofRecord (kind : String) (r : Value) : Checked Event :=
  let kindField : Checked Unit := .optional (asChoice Event.kinds) () "kind" r
  let withKind {α : Type} (a : α) : Checked α := kindField.map fun _ => a
  match kind with
  | "cycle_hit" =>
    .ap (.ap (withKind Event.cycle) (.required asText "signature" r)) (.required asInt "depth" r)
  | "terminal" =>
    .ap (.ap (.ap (.ap (withKind Event.terminal)
      (.required asText "signature" r)) (.required asInt "depth" r))
      (.required (asChoice TerminalReason.choices) "reason" r))
      (.optional asText? none "detail" r)
  | "creation" =>
    .ap (.ap (withKind Event.creation) (.required asText "type_name" r))
      (.required asInt "depth" r)
  | "dependency" =>
    .ap (.ap (.ap (.ap (withKind Event.dependency)
      (.required asText "member_type" r)) (.required asInt "depth" r))
      (.optional (asChoice MemberKind.choices) .field "member_kind" r))
      (.optional asText? none "member_name" r)
  | _ =>
    .ap (.ap (withKind Event.enter) (.required asText "signature" r)) (.required asInt "depth" r)

/-- An edge from a record. -/
def Edge.ofRecord (r : Value) : Checked Edge :=
  .ap (.ap (.ap (.ap (.ok Edge.mk)
    (.required asText "caller" r)) (.required asText "callee" r))
    (.required (asChoice EdgeKind.choices) "kind" r)) (.required asInt "depth" r)

/-- The fields of an edge. -/
def Edge.fields (e : Edge) : List (String × Value) :=
  [("caller", .text e.caller), ("callee", .text e.callee), ("kind", .text e.kind.spelling),
   ("depth", .int e.depth)]

end CallTree
