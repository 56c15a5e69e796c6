import CallTree.Data.Table
import CallTree.Yaml.Token.Layout

/-!
# The nodes of a document

A document is one node: a scalar, a sequence or a mapping. A node may carry a tag,
which says what sort of value it is, and an anchor, under which an alias can stand
for it later on, even inside the very node that it stands for. So the nodes are
numbered, and the parts of a node are given by their numbers.

Every step of the reading takes a token or goes down into a node that begins with
one, so the number of tokens bounds the number of steps.
-/

namespace CallTree.Yaml

open CallTree.Data (Table)

/-- **A node of a document**, with the numbers of its parts. -/
inductive Node where
  | scalar (tag : Option String) (text : String) (plain : Bool)
  | sequence (tag : Option String) (items : List Nat)
  | mapping (tag : Option String) (entries : List (Nat × Nat))
deriving Inhabited

/-- The node where nothing stands. -/
def Node.empty : Node := .scalar none "" true

/-- **A document**: its nodes, and the number of the outermost one. -/
structure Document where
  nodes : Array Node
  root : Nat

/-- The reading of nodes so far. -/
structure Builder where
  /-- What is still to be read. -/
  scanned : Scanned
  nodes : Array Node := #[]
  anchors : Table Nat := .empty
  handles : Table String := .empty

/-- A reader of nodes. -/
abbrev Build := StateT Builder Reading

namespace Build

/-- The next token. Behind the last one is the problem, if there is one. -/
def peek? : Build (Option Token) := do
  match (← get).scanned with
  | ⟨token :: _, _⟩ => return some token
  | ⟨[], none⟩ => return none
  | ⟨[], some problem⟩ => throw problem

/-- The next token is passed. -/
def skip : Build Unit :=
  modify fun b => { b with scanned := { b.scanned with tokens := b.scanned.tokens.tail } }

/-- The next token is passed if it is this one; and whether it was. -/
def accept (token : Token) : Build Bool := do
  if (← peek?) = some token then
    skip
    return true
  else return false

/-- Whether the next token is one of these. -/
def isNext (tokens : List Token) : Build Bool := do
  match ← peek? with
  | some t => return tokens.contains t
  | none => return false

/-- A refusal of the document. -/
def refuse {α : Type} (why : String) : Build α := throw (.malformed why)

/-- The next token is passed, and must be this one. -/
def expect (token : Token) : Build Unit := do
  if !(← accept token) then refuse "a token that cannot stand here"

/-- One more node, and its number. -/
def add (node : Node) : Build Nat :=
  modifyGet fun b => (b.nodes.size, { b with nodes := b.nodes.push node })

/-- A node where nothing stands. -/
def addEmpty : Build Nat := add .empty

/-- A node takes the place of the one with its number. -/
def fill (n : Nat) (node : Node) : Build Unit :=
  modify fun b => { b with nodes := b.nodes.setIfInBounds n node }

/-! ## Properties -/

/-- The anchor that comes next, if any. -/
def anchor? : Build (Option String) := do
  match ← peek? with
  | some (.anchor name) => skip; return some name
  | _ => return none

/-- The tag that comes next, if any, with its handle replaced by what that stands
for. -/
def tag? : Build (Option String) := do
  match ← peek? with
  | some (.tag handle suffix) =>
    skip
    match handle with
    | none => return some suffix
    | some h =>
      match (← get).handles.get? h with
      | some expansion => return some (expansion ++ suffix)
      | none => refuse "a handle that nothing explains"
  | _ => return none

/-- The anchor and the tag of a node, in any order. -/
def properties : Build (Option String × Option String) := do
  match ← anchor? with
  | some name => return (some name, ← tag?)
  | none =>
    let tag ← tag?
    return (← anchor?, tag)

/-- The number of a node is kept under an anchor. -/
def keep (anchor : Option String) (n : Nat) : Build Unit :=
  match anchor with
  | none => return
  | some name => modify fun b => { b with anchors := b.anchors.put name n }

/-- An anchor must not have been used before. -/
def checkFresh (anchor : Option String) : Build Unit := do
  match anchor with
  | none => return
  | some name =>
    if (← get).anchors.has name then refuse "an anchor that is used twice"

/-- The node that an alias stands for. -/
def aliased (name : String) : Build Nat := do
  match (← get).anchors.get? name with
  | some n => return n
  | none => refuse "an alias for nothing"

/-! ## Nodes -/

mutual

/-- **A node.** Outside brackets it may be a block; behind a key, also a sequence that
is not indented. -/
def node : (fuel : Nat) → (inBlock indentless : Bool) → Build Nat
  | 0, _, _ => refuse "a document without an end"
  | fuel + 1, inBlock, indentless => do
    match ← peek? with
    | some (.reference name) => skip; aliased name
    | _ =>
      let (anchor, tag) ← properties
      let next ← peek?
      checkFresh anchor
      let shown := if tag = some "!" then none else tag
      let whole (node : Node) : Build Nat := do
        let n ← add node
        keep anchor n
        return n
      -- The node is there before its parts are, so that they can refer to it.
      let sequenceOf (read : Build (List Nat)) : Build Nat := do
        let n ← whole (.sequence shown [])
        fill n (.sequence shown (← read))
        return n
      let mappingOf (read : Build (List (Nat × Nat))) : Build Nat := do
        let n ← whole (.mapping shown [])
        fill n (.mapping shown (← read))
        return n
      match next, inBlock, indentless with
      | some .blockEntry, _, true => sequenceOf (indentlessItems fuel)
      | some (.scalar text plain), _, _ =>
        skip
        whole (.scalar shown text (plain || tag = some "!"))
      | some .flowSequenceStart, _, _ => skip; sequenceOf (flowItems fuel true)
      | some .flowMappingStart, _, _ => skip; mappingOf (flowEntries fuel true)
      | some .blockSequenceStart, true, _ => skip; sequenceOf (blockItems fuel)
      | some .blockMappingStart, true, _ => skip; mappingOf (blockEntries fuel)
      | _, _, _ =>
        if anchor.isSome || tag.isSome then whole (.scalar shown "" true)
        else refuse "a token that begins no node"

/-- The items of a block sequence, up to its end. -/
def blockItems : (fuel : Nat) → Build (List Nat)
  | 0 => refuse "a document without an end"
  | fuel + 1 => do
    if ← accept .blockEntry then
      let item ← if ← isNext [.blockEntry, .blockEnd] then addEmpty
        else node fuel true false
      return item :: (← blockItems fuel)
    else
      expect .blockEnd
      return []

/-- The items of a sequence that is not indented. -/
def indentlessItems : (fuel : Nat) → Build (List Nat)
  | 0 => refuse "a document without an end"
  | fuel + 1 => do
    if ← accept .blockEntry then
      let item ← if ← isNext [.blockEntry, .key, .value, .blockEnd] then addEmpty
        else node fuel true false
      return item :: (← indentlessItems fuel)
    else return []

/-- The entries of a block mapping, up to its end. -/
def blockEntries : (fuel : Nat) → Build (List (Nat × Nat))
  | 0 => refuse "a document without an end"
  | fuel + 1 => do
    if ← accept .blockEnd then return []
    if !(← isNext [.key, .value]) then
      refuse "a token that begins no entry"
    let stops : List Token := [.key, .value, .blockEnd]
    let key ← if ← accept .key then
        if ← isNext stops then addEmpty else node fuel true true
      else refuse "a value without a key"
    let value ← if ← accept .value then
        if ← isNext stops then addEmpty else node fuel true true
      else addEmpty
    return (key, value) :: (← blockEntries fuel)

/-- The items of a sequence in brackets, up to its end. An item with a key is a
mapping of its own. -/
def flowItems : (fuel : Nat) → (isFirst : Bool) → Build (List Nat)
  | 0, _ => refuse "a document without an end"
  | fuel + 1, isFirst => do
    if ← accept .flowSequenceEnd then return []
    if !isFirst then expect .flowEntry
    if ← accept .key then
      let key ← if ← isNext [.value, .flowEntry, .flowSequenceEnd] then addEmpty
        else node fuel false false
      let value ← if ← accept .value then
          if ← isNext [.flowEntry, .flowSequenceEnd] then addEmpty
          else node fuel false false
        else addEmpty
      let item ← add (.mapping none [(key, value)])
      return item :: (← flowItems fuel false)
    else if ← accept .flowSequenceEnd then return []
    else
      let item ← node fuel false false
      return item :: (← flowItems fuel false)

/-- The entries of a mapping in braces, up to its end. -/
def flowEntries : (fuel : Nat) → (isFirst : Bool) → Build (List (Nat × Nat))
  | 0, _ => refuse "a document without an end"
  | fuel + 1, isFirst => do
    if ← accept .flowMappingEnd then return []
    if !isFirst then expect .flowEntry
    if ← accept .key then
      let key ← if ← isNext [.value, .flowEntry, .flowMappingEnd] then addEmpty
        else node fuel false false
      let value ← if ← accept .value then
          if ← isNext [.flowEntry, .flowMappingEnd] then addEmpty
          else node fuel false false
        else addEmpty
      return (key, value) :: (← flowEntries fuel false)
    else if ← accept .flowMappingEnd then return []
    else
      let key ← node fuel false false
      return (key, ← addEmpty) :: (← flowEntries fuel false)

end

/-! ## Documents -/

/-- The handles that are known without being explained. -/
def standardHandles : Table String := [("!", "!"), ("!!", "tag:yaml.org,2002:")]

/-- The directives that come next: the handles that they explain, and whether one
gave the version. -/
def directives : (fuel : Nat) → Table String → Bool → Build (Table String)
  | 0, handles, _ => return handles
  | fuel + 1, handles, versioned => do
    match ← peek? with
    | some (.directive (.version major _)) =>
      skip
      if versioned then refuse "two versions"
      else if major ≠ 1 then refuse "a version that is not known"
      else directives fuel handles true
    | some (.directive (.handle name expansion)) =>
      skip
      if handles.has name then refuse "a handle that is explained twice"
      else directives fuel (handles.put name expansion) versioned
    | some (.directive .other) => skip; directives fuel handles versioned
    | _ => return handles

/-- The marks for the end of a document that come next are passed. -/
def skipEnds : (fuel : Nat) → Build Unit
  | 0 => return
  | fuel + 1 => do if ← accept .documentEnd then skipEnds fuel

/-- Whether the contents of a document are over. -/
def atDocumentEdge : Build Bool := do
  match ← peek? with
  | none => return true
  | some .documentStart | some .documentEnd | some (.directive _) => return true
  | some _ => return false

/-- **The number of the outermost node** of the only document; nothing if there is
none. -/
def root : Build (Option Nat) := do
  let fuel := 4 * (← get).scanned.tokens.length + 8
  let contents : Build Nat := do if ← atDocumentEdge then addEmpty else node fuel true false
  let found ← match ← peek? with
    | none => pure none
    | some .documentStart | some (.directive _) =>
      let handles ← directives fuel .empty false
      modify fun b => { b with handles := standardHandles.putAll handles }
      expect .documentStart
      pure (some (← contents))
    | some _ =>
      modify fun b => { b with handles := standardHandles }
      pure (some (← node fuel true false))
  skipEnds fuel
  match ← peek? with
  | none => return found
  | some _ => refuse "more than one document"

end Build

/-- **The document that a text is**, which may break off; nothing if it holds none. -/
def documentOf (text : List Char) (behind : Option Problem) : Reading (Option Document) := do
  let (found, b) ← Build.root.run { scanned := tokens text behind }
  return found.map (⟨b.nodes, ·⟩)

end CallTree.Yaml
