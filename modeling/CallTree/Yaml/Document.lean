import CallTree.Yaml.Node
import CallTree.Yaml.Scalar

/-!
# The value of a document

The value of a document is made layer by layer: first the outermost list or mapping
with the scalars in it, then the lists and mappings in it with their scalars, and so
on. A document with several problems is therefore refused for the one that lies
nearest to the outside. Each node is made once, however many aliases stand for it,
so a node may well be a part of itself.

A tag overrides what a node would stand for; only the tags of the standard are
known, and a tag may ask for something that the node is not. A mapping may stand
for a scalar, which it has under the key `=`.

A mapping may take entries over from others with the key `<<`; its own entries go
before those, and of the others the first goes before the rest. The entries are
taken over for good: whoever looks at the mapping later finds them among its own.
Lists and mappings cannot be keys.
-/

namespace CallTree.Yaml

open CallTree.Data (Value)

/-! ## What a node is for -/

/-- The sorts of values that have parts. -/
inductive CollectionSort where
  | list
  | mapping
  /-- The keys of a mapping. -/
  | set
  /-- A list of mappings with one entry each, which stand for pairs. -/
  | pairs
deriving DecidableEq, Repr

/-- What a node stands for. -/
inductive Role where
  | scalar (sort : ScalarSort)
  | collection (sort : CollectionSort)
deriving DecidableEq, Repr

/-- What the tags of the standard begin with. -/
def standardTag (name : String) : String := "tag:yaml.org,2002:" ++ name

/-- The tags of the standard, by their names. -/
def standardRoles : List (String × Role) :=
  [("null", .scalar .null), ("bool", .scalar .bool), ("int", .scalar .int),
   ("float", .scalar .float), ("timestamp", .scalar .instant), ("str", .scalar .text),
   ("binary", .scalar .bytes), ("merge", .scalar .merge), ("value", .scalar .default),
   ("seq", .collection .list), ("map", .collection .mapping), ("set", .collection .set),
   ("omap", .collection .pairs), ("pairs", .collection .pairs)]

/-- The role that a tag gives to a node, if it is known. -/
def roleOfTag? (tag : String) : Option Role :=
  (standardRoles.find? fun (name, _) => standardTag name = tag).map (·.2)

/-- **What a node stands for**; nothing if its tag is not known. -/
def Node.role? : Node → Option Role
  | .scalar none text plain => some (.scalar (if plain then plainSort text else .text))
  | .sequence none _ => some (.collection .list)
  | .mapping none _ => some (.collection .mapping)
  | .scalar (some tag) _ _ => roleOfTag? tag
  | .sequence (some tag) _ => roleOfTag? tag
  | .mapping (some tag) _ => roleOfTag? tag

/-- The node with another tag. -/
def Node.withTag (tag : String) : Node → Node
  | .scalar _ text plain => .scalar tag text plain
  | .sequence _ items => .sequence tag items
  | .mapping _ entries => .mapping tag entries

/-! ## Making values -/

/-- **What is made of a node**: a value, or a collection of what is made of others. -/
inductive Made where
  | scalar (value : Value)
  | list (items : List Nat)
  | pairs (items : List (Nat × Nat))
  | map (entries : List (Nat × Nat))
  | set (keys : List Nat)
deriving Inhabited

/-- The making of values so far. -/
structure Maker where
  nodes : Array Node
  made : Array (Option Made)
  /-- The collections whose parts are still to be made. -/
  pending : List (Nat × CollectionSort) := []

/-- A maker of values. -/
abbrev Make := StateT Maker Reading

namespace Make

/-- A refusal of the document. -/
def refuse {α : Type} (why : String) : Make α := throw (.malformed why)

/-- The node of a number. -/
def nodeAt (n : Nat) : Make Node := return (← get).nodes.getD n .empty

/-- A node takes the place of the one with its number. -/
def replace (n : Nat) (node : Node) : Make Unit :=
  modify fun m => { m with nodes := m.nodes.setIfInBounds n node }

/-- What a node stands for. -/
def roleAt (n : Nat) : Make (Option Role) := return (← nodeAt n).role?

/-- What has been made of a node is kept. -/
def keep (n : Nat) (made : Made) : Make Unit :=
  modify fun m => { m with made := m.made.setIfInBounds n (some made) }

/-! ### Scalars -/

/-- What is said when something is sought for without an end. -/
def endless : Problem := .unusable "maximum recursion depth exceeded"

/-- The text of a node that stands for a scalar. A mapping has it under the first key
that is for it. -/
def scalarText : (fuel : Nat) → (n : Nat) → Make String
  | 0, _ => throw endless
  | fuel + 1, n => do
    match ← nodeAt n with
    | .scalar _ text _ => return text
    | .sequence _ _ => refuse "a list for a scalar"
    | .mapping _ entries =>
      match ← entries.findM? fun (key, _) => return (← roleAt key) = some (.scalar .default) with
      | some (_, value) => scalarText fuel value
      | none => refuse "a mapping for a scalar"

/-- The value of a node that stands for a scalar. A date must be written as one. -/
def scalarAt (sort : ScalarSort) (n : Nat) : Make Value := do
  let text ← scalarText ((← get).nodes.size + 1) n
  match sort, ← nodeAt n with
  | .instant, .mapping _ _ => throw .composedDate
  | _, _ => scalarValue sort text

/-! ### Entries that are taken over -/

/-- The entries of a node that is a mapping. -/
def entriesAt (n : Nat) : Make (List (Nat × Nat)) := do
  match ← nodeAt n with
  | .mapping _ entries => return entries
  | _ => refuse "something that cannot be merged"

/-- A mapping has other entries. -/
def setEntries (n : Nat) (entries : List (Nat × Nat)) : Make Unit := do
  match ← nodeAt n with
  | .mapping tag _ => replace n (.mapping tag entries)
  | _ => return

/-- The entries before the first one that takes others over, the node that it takes
them from, and the entries behind it. -/
def cutAtMerge : List (Nat × Nat) → Make (Option (List (Nat × Nat) × Nat × List (Nat × Nat)))
  | [] => return none
  | (key, value) :: rest => do
    if (← roleAt key) = some (.scalar .merge) then return some ([], value, rest)
    else return (← cutAtMerge rest).map fun (front, found) => ((key, value) :: front, found)

/-- **A mapping takes entries over**, after those that it has taken over already. The
key that asks for it is gone before the other mapping is looked at, which may be the
same one. The mark for a scalar is an ordinary text as a key. -/
def takeOver : (fuel : Nat) → (n : Nat) → (taken : List (Nat × Nat)) → Make Unit
  | 0, _, _ => throw endless
  | fuel + 1, n, taken => do
    let entries ← entriesAt n
    match ← cutAtMerge entries with
    | none =>
      setEntries n (taken ++ entries)
      for (key, _) in entries do
        if (← roleAt key) = some (.scalar .default) then
          replace key ((← nodeAt key).withTag (standardTag "str"))
    | some (front, source, back) =>
      setEntries n (front ++ back)
      let sources := match ← nodeAt source with
        | .sequence _ items => items
        | _ => [source]
      let others ← sources.mapM fun other => do
        takeOver fuel other []
        entriesAt other
      takeOver fuel n (taken ++ others.reverse.flatten)

/-- The number of the entries of all mappings. Every step of `takeOver` does away with
the key of one. -/
def entryCount : Make Nat :=
  return (← get).nodes.foldl (fun n node => match node with
    | .mapping _ entries => n + entries.length
    | _ => n) 0

/-! ### Collections -/

/-- **A node is made**, unless it has been made already: a scalar at once, and a
collection without its parts, which are made later. -/
def node (n : Nat) : Make Unit := do
  if ((← get).made.getD n none).isSome then return
  match ← roleAt n with
  | none => refuse "a tag that is not known"
  | some (.scalar sort) => keep n (.scalar (← scalarAt sort n))
  | some (.collection sort) =>
    keep n (.list [])
    modify fun m => { m with pending := m.pending ++ [(n, sort)] }

/-- The entries of a mapping are made, each key before its value. -/
def entries (n : Nat) : Make (List (Nat × Nat)) := do
  takeOver ((← entryCount) + 1) n []
  let found ← entriesAt n
  for (key, value) in found do
    node key
    if let some (.collection _) ← roleAt key then refuse "a list or a mapping as a key"
    node value
  return found

/-- The pair that a node stands for is made. -/
def pair (n : Nat) : Make (Nat × Nat) := do
  match ← nodeAt n with
  | .mapping _ [(key, value)] =>
    node key
    node value
    return (key, value)
  | _ => refuse "something that is no pair"

/-- **The parts of a collection are made.** -/
def parts (n : Nat) (sort : CollectionSort) : Make Made := do
  match sort, ← nodeAt n with
  | .list, .sequence _ items => items.forM node; return .list items
  | .pairs, .sequence _ items => return .pairs (← items.mapM pair)
  | .mapping, .mapping _ _ => return .map (← entries n)
  | .set, .mapping _ _ => return .set ((← entries n).map (·.1))
  | _, _ => refuse "a tag that does not fit"

/-- The collections whose parts are still to be made are made, in their order. -/
def finish : (fuel : Nat) → Make Unit
  | 0 => return
  | fuel + 1 => do
    match (← get).pending with
    | [] => return
    | (n, sort) :: rest =>
      modify fun m => { m with pending := rest }
      keep n (← parts n sort)
      finish fuel

/-- Everything is made that a document holds. -/
def document (root : Nat) : Make Unit := do
  node root
  finish ((← get).nodes.size + 1)

end Make

/-! ## Writing values out -/

/-- Whether two values are the same key. -/
def sameKey : Value → Value → Bool
  | .null, .null => true
  | .bool a, .bool b => a = b
  | .int a, .int b => a = b
  | .real a, .real b => a == b
  | .text a, .text b => a = b
  | .instant a, .instant b => a = b
  | .bytes a, .bytes b => a = b
  | _, _ => false

/-- Values without repetitions. -/
def distinct (values : List Value) : List Value :=
  values.foldl (fun seen v => if seen.any (sameKey v) then seen else seen ++ [v]) []

/-- The value of what is made of a node, given the values of the others. -/
def Made.value (others : Nat → Value) : Made → Value
  | .scalar v => v
  | .list items => .list (items.map others)
  | .pairs items => .list (items.map fun (k, v) => .list [others k, others v])
  | .map entries => .map (entries.map fun (k, v) => (others k, others v))
  | .set keys => .list (distinct (keys.map others))

/-- What is made of a node, without its parts. -/
def Made.hollow : Made → Made
  | .scalar v => .scalar v
  | .map _ => .map []
  | _ => .list []

/-- **The values of all nodes**, written out to a depth. -/
def valuesTo (made : Array Made) : (depth : Nat) → Array Value
  | 0 => made.map fun m => m.hollow.value fun _ => .null
  | depth + 1 =>
    let others := valuesTo made depth
    made.map (·.value fun n => others.getD n .null)

/-- How deep values are written out at least: settings lie in sections, and in a
setting there may be a list. -/
def leastDepth : Nat := 3

/-- The value of a document, written out to a depth. -/
def Document.valueTo (depth : Nat) (d : Document) : Reading Value := do
  let (_, m) ← (Make.document d.root).run { nodes := d.nodes, made := d.nodes.map fun _ => none }
  return (valuesTo (m.made.map (·.getD (.scalar .null))) depth).getD d.root .null

/-- **The value of a text**, written out to a depth that may depend on the document; null
if the text holds none. -/
def valueOf (depth : Document → Nat) (text : List Char) : Reading Value := do
  match ← documentOf text none with
  | some d => d.valueTo (depth d)
  | none => return .null

end CallTree.Yaml
