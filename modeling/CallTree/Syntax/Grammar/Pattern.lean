import CallTree.Syntax.Grammar.Expression

/-!
# Patterns of a `match`

The patterns that a subject is compared with. A lone underscore is the wildcard
and no name.
-/

namespace CallTree.Syntax.Grammar

open Rule

variable (inner : Inner)

/-- Names with dots between them. -/
def dottedName : Rule Node := do
  let first ← anyName
  let rest ← gather (·.isMark ".") do return [← mark ".", ← anyName]
  return phrase .dottedName (first :: rest.flatten)

/-- A name, or the wildcard. -/
def nameOrWildcard : Rule Node := do
  let t ← expect Token.isIdentifier
  if t.isWord "_" then return t.leaf else return t.nameLeaf

/-- Whether a pattern can begin with the token. -/
def beginsPattern (t : Token) : Bool := beginsExpression t

/-- Patterns in brackets. -/
def bracketed (kind : Kind) (opening close : String) : Rule Node :=
  display opening close do
    if ← atMark close then return (kind, [])
    else return (kind, (← commas beginsPattern (inner .casePattern)).1)

/-- A number with its sign, or a sum of two. A sign stands beside its number. -/
def numberPattern : Rule (List Node) := do
  let sign ← gather (·.isMark "-") (mark "-")
  let isNumber (t : Token) : Bool := t.lexeme = .integer || t.lexeme = .float
  let number := (← expect isNumber).leaf
  if (← atMark "+") || (← atMark "-") then
    let op := (← next).leaf
    return [phrase .complexPattern (sign ++ [number, op, (← expect isNumber).leaf])]
  else return sign ++ [number]

/-- Alternatives with bars between them, or a single pattern. -/
def alternatives (simple : Rule (List Node)) : Rule (List Node) := do
  let first ← simple
  let more ← gather (·.isMark "|") do return (← mark "|") :: (← simple)
  if more.isEmpty then return first else return [phrase .unionPattern (first ++ more.flatten)]

/-- An entry of a pattern for a mapping; keys are read by `key`. -/
def mappingEntry (key : Rule (List Node)) : Rule (List Node) := do
  let t ← peek
  if t.isMark "**" || t.isMark "*" then
    return [phrase .splatPattern [(← next).leaf, ← nameOrWildcard]]
  else
    let key ← key
    return key.map (·.withRole .key) ++
      [← mark ":", (← inner .casePattern).withRole .value]

/-- A pattern for a mapping; keys are read by `key`. -/
def mappingPattern (key : Rule (List Node)) : Rule Node :=
  display "\x7b" "\x7d" do
    if ← atMark "\x7d" then return (.dictPattern, [])
    else
      let first ← mappingEntry inner key
      return (.dictPattern, first ++ (← further beginsPattern (mappingEntry inner key)))

/-- A dotted name, or a class with the patterns of its attributes. -/
def classPattern : Rule Node := do
  let n ← dottedName
  if ← atMark "(" then
    let parts ← enclosed "(" (do
      optional
      if ← atMark ")" then return []
      else return (← commas beginsPattern (inner .casePattern)).1) ")"
    return phrase .classPattern (n :: parts)
  else return n

/-- A pattern that is neither a mapping nor has alternatives. -/
def plainPattern : Rule (List Node) := do
  required
  let t ← peek
  match t.lexeme with
  | .word text =>
    if text = "True" then return [← literal .trueLiteral]
    else if text = "False" then return [← literal .falseLiteral]
    else if text = "None" then return [← literal .noneLiteral]
    else if text = "_" && !(← peekSecond).isMark "." then return [(← next).leaf]
    else return [← classPattern inner]
  | .stringStart _ => return [← strings inner]
  | .integer | .float => numberPattern
  | .mark text =>
    if text = "-" then numberPattern
    else if text = "*" || text = "**" then
      return [phrase .splatPattern [(← next).leaf, ← nameOrWildcard]]
    else if text = "(" then return [← bracketed inner .tuplePattern "(" ")"]
    else if text = "[" then return [← bracketed inner .listPattern "[" "]"]
    else stuck
  | _ => stuck

/-- A pattern without alternatives. -/
def simplePattern : Rule (List Node) := do
  required
  if ← atMark "\x7b" then return [← mappingPattern inner (alternatives (plainPattern inner))]
  else plainPattern inner

/-- **A pattern**: a keyword with its pattern, or alternatives, which may be given
a name. -/
def casePattern : Rule Node := do
  required
  let first ←
    if (← peek).isIdentifier && (← peekSecond).isMark "=" then do
      let head : List Node := [← name, ← mark "="]
      pure [phrase .keywordPattern (head ++ (← alternatives (simplePattern inner)))]
    else alternatives (simplePattern inner)
  let names ← gather (·.isWord "as") do return (← word "as", ← name)
  return names.foldl
    (fun p (keyword, n) => phrase .casePattern [phrase .asPattern [p, keyword, n]])
    (phrase .casePattern first)

end CallTree.Syntax.Grammar
