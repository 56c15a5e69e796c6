/-!
# Values of configuration data

What a configuration file or a record of settings is made of, before anyone has
checked it. Keys of a mapping are values as well: a file may use a number as a
key, and it is for the reader of the mapping to refuse it.
-/

namespace CallTree.Data

/-- **A piece of data.** -/
inductive Value where
  | null
  | bool (b : Bool)
  | int (n : Int)
  | real (x : Float)
  | text (s : String)
  | list (items : List Value)
  | map (entries : List (Value × Value))
  /-- A date or a time, of which only its being one matters. -/
  | instant (written : String)
  | bytes (content : List UInt8)
deriving Inhabited

namespace Value

/-- The value under a textual key of a mapping: the last one, if the key is
repeated. -/
def get? (key : String) : Value → Option Value
  | .map entries =>
    entries.foldl (fun found (k, v) =>
      match k with
      | .text s => if s = key then some v else found
      | _ => found) none
  | _ => none

/-- A mapping with textual keys. -/
def record (fields : List (String × Value)) : Value :=
  .map (fields.map fun (k, v) => (.text k, v))

/-- A list of texts. -/
def texts (items : List String) : Value := .list (items.map .text)

/-- A text, or nothing. -/
def ofText? : Option String → Value
  | some s => .text s
  | none => .null

/-- Whether the value counts as nothing: null, false, zero, or empty. -/
def isVoid : Value → Bool
  | .null => true
  | .bool b => !b
  | .int n => n = 0
  | .real x => x == 0.0
  | .text s => s.isEmpty
  | .list items => items.isEmpty
  | .map entries => entries.isEmpty
  | .instant _ => false
  | .bytes content => content.isEmpty

end Value

end CallTree.Data
