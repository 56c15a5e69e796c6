import CallTree.Data.Scalar
import CallTree.Symbol

/-!
# Symbols as records

A symbol can be given as a record of its fields and written as one. Fields that a
record leaves out have the values they have by default, and fields that no symbol
has are passed over.
-/

namespace CallTree

open CallTree.Data

/-- The accessibilities by their spelling. -/
def Accessibility.choices : List (String × Accessibility) :=
  [Accessibility.published, .internal, .concealed].map fun a => (a.spelling, a)

/-- The kinds of methods by their spelling. -/
def MethodKind.choices : List (String × MethodKind) :=
  [MethodKind.method, .constructor, .function].map fun k => (k.spelling, k)

/-- What all declarations have in common, from a record. -/
def Declared.ofRecord (r : Value) : Checked Declared :=
  .ap (.ap (.ap (.ap (.ap (.ap (.ap (.ap (.ap (.ok Declared.mk)
    (.required asText "name" r))
    (.required asText "qualified_name" r))
    (.optional asText "" "namespace" r))
    (.optional asText? none "containing_type" r))
    (.optional (asChoice Accessibility.choices) .published "accessibility" r))
    (.optional asBool false "is_static" r))
    (.optional asText? none "return_type" r))
    (.optional (asTexts .notSequence) [] "attributes" r))
    (.optional asText? none "file_path" r)

/-- A type from a record. -/
def TypeSymbol.ofRecord (r : Value) : Checked TypeSymbol :=
  .ap (.ap (.ap (.ok TypeSymbol.mk)
    (Declared.ofRecord r))
    (.optional (asTexts .notSequence) [] "base_types" r))
    (.optional asBool false "is_external" r)

/-- A method from a record. -/
def MethodSymbol.ofRecord (r : Value) : Checked MethodSymbol :=
  .ap (.ap (.ap (.ap (.ok MethodSymbol.mk)
    (Declared.ofRecord r))
    (.optional (asChoice MethodKind.choices) .method "kind" r))
    (.optional (asTexts .notSequence) [] "parameters" r))
    (.optional asBool false "is_external" r)

/-- A field or a property from a record. -/
def StateSymbol.ofRecord (r : Value) : Checked StateSymbol :=
  .ap (.ap (.ok StateSymbol.mk)
    (Declared.ofRecord r))
    (.optional asText "Any" "type_name" r)

/-- **A symbol of some sort from a record.** -/
def Symbol.ofRecord (sort : String) (r : Value) : Checked Symbol :=
  match sort with
  | "type" => (TypeSymbol.ofRecord r).map .type
  | "field" => (StateSymbol.ofRecord r).map .field
  | "property" => (StateSymbol.ofRecord r).map .property
  | _ => (MethodSymbol.ofRecord r).map .method

/-- The fields that all declarations have. -/
def Declared.fields (d : Declared) : List (String × Value) :=
  [("name", .text d.name), ("qualified_name", .text d.qualifiedName),
   ("namespace", .text d.homeModule), ("containing_type", .ofText? d.owner),
   ("accessibility", .text d.accessibility.spelling), ("is_static", .bool d.isStatic),
   ("return_type", .ofText? d.returnType), ("attributes", .texts d.decorators),
   ("file_path", .ofText? d.file)]

/-- The fields of a symbol. -/
def Symbol.fields : Symbol → List (String × Value)
  | type t => t.toDeclared.fields ++
    [("base_types", .texts t.bases), ("is_external", .bool t.isExternal)]
  | method m => m.toDeclared.fields ++
    [("kind", .text m.kind.spelling), ("parameters", .texts m.parameters),
     ("is_external", .bool m.isExternal)]
  | field s => s.toDeclared.fields ++ [("type_name", .text s.typeName)]
  | property s => s.toDeclared.fields ++ [("type_name", .text s.typeName)]

/-- **A symbol as a record**, with the sort of symbol that it is. -/
def Symbol.record (s : Symbol) : Value :=
  .record (("symbol", .text s.sort) :: s.fields)

end CallTree
