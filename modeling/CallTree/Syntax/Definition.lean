import CallTree.Syntax.TypeName

/-!
# Definitions of functions and classes

What the analysis reads off a `def` or a `class`. A definition is given where it
stands, because its decorators are not below it but beside it, in the node that
decorates it.
-/

namespace CallTree.Syntax

open CallTree.Text.Utf8 (Defect)

/-- The texts of several nodes, in order. -/
def Source.textsOf (src : Source) (nodes : List Node) : Except Defect (List String) :=
  nodes.mapM src.text

/-- The name that a definition gives, as it stands in the tree. -/
def Node.definedName (n : Node) : String :=
  ((n.child? .name).bind Node.identifier?).getD ""

/-- What a decorator names: its expression without the arguments of a call. -/
def Node.decoratorHead? (n : Node) : Option Node :=
  if n.isKind .decorator then
    n.namedChildren.head?.map fun value =>
      if value.isKind .call then (value.child? .function).getD value else value
  else none

/-- **The decorators of a definition**, without the arguments of calls: that of
`@app.get('/')` is `app.get`. -/
def Source.decorators (src : Source) (site : Site) : Except Defect (List String) :=
  match site.parent with
  | some wrapper =>
    if wrapper.isKind .decoratedDefinition then
      src.textsOf (wrapper.namedChildren.filterMap Node.decoratorHead?)
    else .ok []
  | none => .ok []

/-- A parameter: its name, with the stars it is written with, and its
annotation. -/
structure Parameter where
  name : String
  typeHint : Option Node

/-- The parameter that a node of a parameter list declares. A separator declares
none, and neither does a starred parameter with an annotation. -/
def Source.parameter? (src : Source) (n : Node) : Except Defect (Option Parameter) :=
  match n.label with
  | .name text => .ok (some ⟨text, none⟩)
  | .construct .typedParameter | .construct .typedDefaultParameter
  | .construct .defaultParameter =>
    let declared := (n.child? .name).orElse fun _ => n.namedChildren.find? Node.isName
    match declared with
    | none => .ok none
    | some d => (src.text d).map fun text => some ⟨text, n.child? .type⟩
  | .construct .listSplatPattern | .construct .dictionarySplatPattern =>
    (src.text n).map fun text => some ⟨text, none⟩
  | _ => .ok none

/-- **The parameters of a function** in the order of their declaration, the
receiver of a method among them. -/
def Source.parametersOf (src : Source) (n : Node) : Except Defect (List Parameter) :=
  match n.child? .parameters with
  | none => .ok []
  | some list => do
    let parameters ← list.namedChildren.mapM src.parameter?
    return parameters.filterMap id

/-- The principal name of a function's result. -/
def Source.returnTypeOf (src : Source) (n : Node) : Except Defect (Option String) :=
  match n.child? .returnType with
  | none => .ok none
  | some hint => src.typeName hint

/-- **The base classes of a class**, as written. Only names and dotted names are
bases; keyword arguments and calls are not. -/
def Source.basesOf (src : Source) (n : Node) : Except Defect (List String) :=
  match n.child? .superclasses with
  | none => .ok []
  | some list =>
    src.textsOf (list.namedChildren.filter fun base =>
      base.isName || base.isKind .attributeAccess)

/-- A statement where it stands, with the decorators around it set aside. -/
def undecorated (parent statement : Node) : Option Site :=
  if statement.isKind .decoratedDefinition then
    (statement.child? .definition).map fun definition => ⟨definition, some statement⟩
  else some ⟨statement, some parent⟩

/-- **The statements directly below a node**, with decorated definitions
unwrapped. -/
def Node.statements (n : Node) : List Site :=
  n.namedChildren.filterMap (undecorated n)

/-- The statements of a definition's body. -/
def Node.bodyStatements (n : Node) : List Site :=
  match n.child? .body with
  | none => []
  | some body => body.statements

/-- The forms of statements that are read as a whole. -/
inductive Form where
  | function
  | classForm
  | importForm
deriving DecidableEq, Repr

/-- Whether a node has the form. -/
def Form.fits : Form → Node → Bool
  | .function, n => n.isKind .functionDefinition
  | .classForm, n => n.isKind .classDefinition
  | .importForm, n => n.isKind .importStatement || n.isKind .importFromStatement

/-- What the form is called in messages. -/
def Form.title : Form → String
  | .function => "FunctionDef"
  | .classForm => "ClassDef"
  | .importForm => "ImportStatement"

/-- The message for a node that does not have the form. -/
def Form.refusal (form : Form) (n : Node) : String :=
  s!"{form.title} cannot wrap a '{n.spelling}' node"

end CallTree.Syntax
