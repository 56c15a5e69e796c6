import CallTree.Syntax.Grammar.TypeHint
import CallTree.Syntax.Grammar.Pattern

/-!
# Statements

A line holds simple statements with semicolons between them; a compound
statement has a body. A body on the line of its header and a body in a block of
its own are blocks alike. A block covers its statements and the comments up to
where it closes, so it may extend beyond its last statement.

A statement that cannot be read becomes an error at the token where reading got
stuck, and reading goes on at the next line that is not indented more deeply.
-/

namespace CallTree.Syntax.Grammar

open Rule

variable (inner : Inner)

/-! ## Simple statements -/

/-- A name of an import, perhaps under another name. -/
def importedName : Rule Node := do
  let n ← dottedName
  if ← atWord "as" then
    return (phrase .aliasedImport
      [n.withRole .name, ← word "as", (← anyName).withRole .boundName]).withRole .name
  else return n.withRole .name

/-- The names of an import. -/
def importedNames : Rule (List Node) := do
  let (parts, _) ← commas Token.isAnyWord importedName
  return parts

/-- The dots before the module of a relative import, each a mark of its own. -/
def importDots : Rule (List Node) := do
  let dots ← gather (fun t => t.isMark "." || t.isMark "...") do
    let t ← next
    let at' (i : Nat) : Node :=
      .mk (.mark ".") none ⟨t.span.start + i, t.span.start + i + 1, t.span.row⟩ []
    if t.isMark "..." then return [at' 0, at' 1, at' 2] else return [t.leaf]
  return dots.flatten

/-- The module that names are imported from. -/
def importSource : Rule Node := do
  let dots ← importDots
  match dots with
  | [] => dottedName
  | _ =>
    let above := phrase .importPrefix dots
    if ← atWord "import" then return phrase .relativeImport [above]
    else return phrase .relativeImport [above, ← dottedName]

/-- What is imported from a module: everything, or names with or without
brackets. -/
def importList : Rule (List Node) := do
  required
  if ← atMark "*" then return [phrase .wildcardImport [← mark "*"]]
  else if ← atMark "(" then enclosed "(" importedNames ")"
  else importedNames

/-- An import of names from a module. -/
def fromImport : Rule Node := do
  let (kind, head) : Kind × List Node ← inHeader do
    let keyword ← word "from"
    if (← atWord "__future__") && (← peekSecond).isWord "import" then
      return (.futureImportStatement, [keyword, ← word "__future__", ← word "import"])
    else
      let source ← importSource
      return (.importFromStatement,
        [keyword, source.withRole .sourceModule, ← word "import"])
  return phrase kind (head ++ (← importList))

/-- The operators that combine an assignment with an operation. -/
def augmented : List String :=
  ["+=", "-=", "*=", "/=", "@=", "//=", "%=", "**=", ">>=", "<<=", "&=", "^=", "|="]

/-- Whether the token makes an assignment of what stands before it. -/
def assigns (t : Token) : Bool :=
  match t.lexeme with
  | .mark text => text = "=" || text = ":" || augmented.contains text
  | _ => false

/-- An assignment to what has been read as an expression. -/
def assignment (left : Node) : Rule Node := do
  match asTarget true true left with
  | none => stuck
  | some target =>
    let target := target.withRole .left
    if ← atMark "=" then
      return phrase .assignment [target, ← mark "=", (← inner .rightSide).withRole .right]
    else if ← atMark ":" then
      let head : List Node := [target, ← mark ":", (← inner .typeHint).withRole .type]
      if ← atMark "=" then
        return phrase .assignment
          (head ++ [← mark "=", (← inner .rightSide).withRole .right])
      else return phrase .assignment head
    else
      return phrase .augmentedAssignment
        [target, (← next).leaf.withRole .operator, (← inner .rightSide).withRole .right]

/-- What stands on the right of an assignment: a `yield`, expressions, or a
further assignment. -/
def rightSide : Rule Node := do
  required
  if ← atWord "yield" then yieldExpression inner
  else
    let left ← expressions inner
    if assigns (← peek) then assignment inner left else return asRightSide left

/-- Later arguments of a call, or parts of a subscript, with their stars on the
longest part. `later` tells that there was one before. A keyword ends the reach
of the rule, and so does a slice. -/
def starLater (later : Bool) : List Node → List Node
  | [] => []
  | n :: ns =>
    if n.isMark then n :: starLater later ns
    else if n.isKind .keywordArgument || n.isKind .dictionarySplat || n.isKind .slice then n :: ns
    else (if later then restarred .longest n else n) :: starLater true ns

mutual

/-- An expression that begins with a word that may begin a statement of its own,
and a bracket behind that word. The arguments can be read in two ways up to the
end of the bracket, and the stars on the later ones then take the longest
part. -/
def ledByWord : Node → Node
  | .mk label role span children =>
    let n : Node := .mk label role span children
    match children with
    | head :: rest =>
      if head.isName then
        if label = .construct .subscript then .mk label role span (head :: starLater false rest)
        else if label = .construct .call then
          .mk label role span (head :: rest.map fun arguments =>
            match arguments with
            | .mk (.construct .argumentList) role span parts =>
              .mk (.construct .argumentList) role span (starLater false parts)
            | other => other)
        else n
      else if opensWithOperand n then .mk label role span (ledByWordFirst children)
      else n
    | [] => n

/-- The same for the first of several nodes. -/
def ledByWordFirst : List Node → List Node
  | [] => []
  | n :: ns => ledByWord n :: ns

end

/-- Whether the next word may begin a statement of its own and is a name here, in
front of a bracket. -/
def atLeadingWord : Rule Bool := do
  let t ← peek
  let after ← peekSecond
  return (t.isWord "print" || t.isWord "match" || t.isWord "type")
    && (after.isMark "(" || after.isMark "[")

/-- An expression or an assignment as a statement. Expressions with commas
between them stand in the statement side by side. -/
def expressionStatement : Rule Node := do
  if ← atWord "yield" then return phrase .expressionStatement [← yieldExpression inner]
  else
    let isLed ← atLeadingWord
    let (parts, isList) ← commas beginsExpression (inner .expression)
    let parts := if isLed then ledByWordFirst parts else parts
    let left :=
      match parts with
      | [single] => if isList then phrase .expressionList parts else single
      | _ => phrase .expressionList parts
    if assigns (← peek) then return phrase .expressionStatement [← assignment inner left]
    else return phrase .expressionStatement parts

/-- A statement that must end here. -/
def ending (statement : Rule Node) : Rule Node := do
  let n ← statement
  if (← peek).lexeme = .newline || (← atMark ";") then return n else stuck

/-- A keyword with expressions after it, if there are any. -/
def keywordStatement (kind : Kind) (keyword : String) : Rule Node := do
  let keyword ← word keyword
  optional
  if beginsExpression (← peek) then return phrase kind [keyword, ← expressions inner]
  else return phrase kind [keyword]

/-- A statement that raises. -/
def raiseStatement : Rule Node := do
  match ← keywordStatement inner .raiseStatement "raise" with
  | .mk label role span children =>
    if ← atWord "from" then
      return phrase .raiseStatement
        (children ++ [← word "from", (← inner .expression).withRole .cause])
    else return .mk label role span children

/-- A statement that declares names. -/
def nameStatement (kind : Kind) (keyword : String) : Rule Node := do
  let keyword ← word keyword
  return phrase kind (keyword :: (← listed anyName))

/-- The old form of printing, perhaps into a stream. -/
def printStatement : Rule Node := do
  let keyword ← word "print"
  required
  let first ←
    if ← atMark ">>" then do pure (phrase .chevron [← mark ">>", ← inner .expression])
    else inner .expression
  let more ← displayRest (inner .expression)
  return phrase .printStatement (keyword :: first :: more)

/-- The old form of running a piece of code. -/
def execStatement : Rule Node := do
  let keyword ← word "exec"
  required
  let code ← if (← peek).isIdentifier then name else stringLiteral inner
  if ← atWord "in" then
    let keywordIn ← word "in"
    return phrase .execStatement
      (keyword :: code.withRole .code :: keywordIn :: (← listed (inner .expression)))
  else return phrase .execStatement [keyword, code.withRole .code]

/-- A name for a type. -/
def typeAliasStatement : Rule Node := do
  let head : List Node ← inHeader do
    pure [← word "type", (← inner .typeHint).withRole .left, ← mark "="]
  return phrase .typeAliasStatement (head ++ [(← inner .typeHint).withRole .right])

/-- **A simple statement.** Some words introduce a statement and are names
elsewhere. The name of a type is tried before an expression, and the old form of
printing after it. -/
def simpleStatement : Rule Node := do
  let t ← peek
  let after ← peekSecond
  match t.lexeme with
  | .word text =>
    if text = "import" then return phrase .importStatement ((← word "import") :: (← importedNames))
    else if text = "from" then fromImport
    else if text = "assert" then
      return phrase .assertStatement ((← word text) :: (← listed (inner .expression)))
    else if text = "return" then keywordStatement inner .returnStatement text
    else if text = "del" then
      return phrase .deleteStatement [← word text, ← expressions inner]
    else if text = "raise" then raiseStatement inner
    else if text = "pass" then return phrase .passStatement [← word text]
    else if text = "break" then return phrase .breakStatement [← word text]
    else if text = "continue" then return phrase .continueStatement [← word text]
    else if text = "global" then nameStatement .globalStatement text
    else if text = "nonlocal" then nameStatement .nonlocalStatement text
    else if after.lexeme = .newline then expressionStatement inner
    else if text = "print" then
      if after.isMark ">>" then printStatement inner
      else (ending (expressionStatement inner)).orElse (printStatement inner)
    else if text = "exec" && (after.isIdentifier || after.isStringStart) then
      execStatement inner
    else if text = "type" then
      (ending (typeAliasStatement inner)).orElse (expressionStatement inner)
    else expressionStatement inner
  | _ => expressionStatement inner

/-- The simple statements of a line, and where the line ends. -/
def simpleLine : Rule (List Node × Nat) := do
  let first ← simpleStatement inner
  let rest ← gather (·.isMark ";") do
    let semicolon ← mark ";"
    optional
    if (← peek).lexeme = .newline then return [semicolon]
    else return [semicolon, ← simpleStatement inner]
  let ending ← endOfLine
  return (first :: rest.flatten, ending.span.stop)

/-! ## Compound statements -/

/-- The body of a compound statement. -/
def body : Rule (List Node) := do
  let colon ← mark ":"
  return [colon, (← inner .suite).withRole .body]

/-- A clause made of a keyword and a body. -/
def keywordClause (kind : Kind) (keyword : String) : Rule Node := do
  return phrase kind ((← word keyword) :: (← body inner))

/-- An `else`, if one comes next. -/
def elseClause : Rule (List Node) := do
  if ← atWord "else" then return [(← keywordClause inner .elseClause "else").withRole .alternative]
  else return []

/-- A keyword with a condition and a body. -/
def conditional (keyword : String) : Rule (List Node) := do
  return (← word keyword) :: (← inner .expression).withRole .condition :: (← body inner)

/-- A statement that branches. -/
def ifStatement : Rule Node := do
  let head ← conditional inner "if"
  let others ← gather (·.isWord "elif") do
    return (phrase .elifClause (← conditional inner "elif")).withRole .alternative
  return phrase .ifStatement (head ++ others ++ (← elseClause inner))

/-- A loop that depends on a condition. -/
def whileStatement : Rule Node := do
  let head ← conditional inner "while"
  return phrase .whileStatement (head ++ (← elseClause inner))

/-- A loop over elements. -/
def forStatement (opening : List Node) : Rule Node := do
  let head : List Node :=
    [← word "for", (← targets inner).withRole .left, ← word "in",
      (← expressions inner).withRole .right]
  let rest ← body inner
  return phrase .forStatement (opening ++ head ++ rest ++ (← elseClause inner))

/-- What a handler handles. A star is on the first expression where it can be, and
else stands alone. -/
def handled : Rule (List Node) := do
  if ← atMark "*" then
    let star ← mark "*"
    required
    if ← atMark ":" then return [star]
    else
      let value ← inner .expression
      match starLongest star value with
      | some n => return [n]
      | none => return [star, value]
  else return [← inner .expression]

/-- A handler. -/
def exceptClause : Rule Node := do
  let keyword ← word "except"
  required
  let values ← if ← atMark ":" then pure [] else do
    let first ← handled inner
    let rest ← gather (·.isMark ",") do return [← mark ",", ← inner .expression]
    pure (first ++ rest.flatten)
  return phrase .exceptClause (keyword :: values ++ (← body inner))

/-- A statement with handlers. -/
def tryStatement : Rule Node := do
  let head := (← word "try") :: (← body inner)
  let handlers ← gather (·.isWord "except") (exceptClause inner)
  let otherwise ← elseClause inner
  let finally' ← gather (·.isWord "finally") (keywordClause inner .finallyClause "finally")
  if handlers.isEmpty && finally'.isEmpty then stuck
  else return phrase .tryStatement (head ++ handlers ++ otherwise ++ finally')

/-- An item of a `with`. -/
def withItem : Rule Node := do
  return phrase .withItem [(← inner .expression).withRole .value]

/-- Two or more items of a `with` in brackets of their own; stuck when the
brackets belong to the first item. -/
def bracketedItems : Rule Node := do
  let items ← enclosed "(" (do
    let first ← withItem inner
    let rest ← further beginsExpression do return [← withItem inner]
    if rest.length ≥ 2 then return first :: rest else stuck) ")"
  if ← atMark ":" then return phrase .withClause items else stuck

/-- The items of a `with`. -/
def plainItems : Rule Node := do
  let (parts, _) ← commas beginsExpression (withItem inner)
  return phrase .withClause parts

/-- A statement that enters contexts. -/
def withStatement (opening : List Node) : Rule Node := do
  let keyword ← word "with"
  let items ← (bracketedItems inner).orElse (plainItems inner)
  return phrase .withStatement (opening ++ keyword :: items :: (← body inner))

/-- A parameter, which may be annotated and may have a default. -/
def parameter : Rule Node := do
  let t ← peek
  if t.isMark "*" || t.isMark "**" then
    let splat ← plainParameter inner
    if ← atMark ":" then
      return phrase .typedParameter
        [splat, ← mark ":", (← inner .typeHint).withRole .type]
    else return splat
  else if t.isAnyWord && (← peekSecond).isMark ":" then
    let n ← anyName
    let colon ← mark ":"
    let type := (← inner .typeHint).withRole .type
    if ← atMark "=" then
      return phrase .typedDefaultParameter
        [n.withRole .name, colon, type, ← mark "=", (← inner .expression).withRole .value]
    else return phrase .typedParameter [n, colon, type]
  else plainParameter inner

/-- The parameters of a function, in brackets. -/
def parameters : Rule Node :=
  display "(" ")" do
    if ← atMark ")" then return (.parameters, [])
    else return (.parameters, (← commas beginsParameter (parameter inner)).1)

/-- The type parameters of a definition, if it has any. -/
def typeParameters : Rule (List Node) := do
  if ← atMark "[" then return [(← typeParameter inner).withRole .typeParameters] else return []

/-- The definition of a function. -/
def functionDefinition (opening : List Node) : Rule Node := do
  let keyword ← word "def"
  let n := (← anyName).withRole .name
  let generics ← typeParameters inner
  let params := (← parameters inner).withRole .parameters
  let result ←
    if ← atMark "->" then do
      pure [← mark "->", (← unboundedType inner).withRole .returnType]
    else pure []
  return phrase .functionDefinition
    (opening ++ keyword :: n :: generics ++ params :: result ++ (← body inner))

/-- The definition of a class. -/
def classDefinition : Rule Node := do
  let keyword ← word "class"
  let n := (← anyName).withRole .name
  let generics ← typeParameters inner
  let bases ←
    if ← atMark "(" then do pure [(← callArguments inner).withRole .superclasses] else pure []
  return phrase .classDefinition (keyword :: n :: generics ++ bases ++ (← body inner))

/-- Whether the token begins a statement that can have `async` before it. -/
def introduces (t : Token) : Bool := t.isWord "def" || t.isWord "for" || t.isWord "with"

/-- The definition of a function that may run beside others, or another
statement that begins with `async`. -/
def asyncStatement : Rule Node := do
  let keyword ← word "async"
  if ← atWord "def" then functionDefinition inner [keyword]
  else if ← atWord "for" then forStatement inner [keyword]
  else withStatement inner [keyword]

/-- A decorator. It extends to the end of its line. -/
def decorator : Rule Node := do
  let at' ← mark "@"
  let value ← inMode .statement (inner .expression)
  let ending ← inMode .statement peek
  if ending.lexeme = .newline then
    let _ ← next
    look {}
    return phraseUpTo .decorator [at', value] ending.span.stop
  else stuck

/-- A definition with decorators. -/
def decoratedDefinition : Rule Node := do
  let decorators ← gather (·.isMark "@") (decorator inner)
  let definition ←
    if ← atWord "class" then classDefinition inner
    else if ← atWord "async" then asyncStatement inner
    else functionDefinition inner []
  return phrase .decoratedDefinition (decorators ++ [definition.withRole .definition])

/-- A case of a `match`. -/
def caseClause : Rule Node := do
  let keyword ← word "case"
  let (patterns, _) ← commas beginsPattern (inner .casePattern)
  let guard ←
    if ← atWord "if" then do
      pure [(phrase .ifClause [← word "if", ← inner .expression]).withRole .guard]
    else pure []
  return phrase .caseClause (keyword :: patterns ++ guard ++ (← body inner))

/-- The head of a `match` up to its colon: its parts, and where its block opens.
Stuck when the word is a name here. -/
def matchHead : Rule (List Node × Span) := do
  let keyword ← word "match"
  let (subjects, _) ← commas beginsExpression (inner .expression)
  let colon ← mark ":"
  look .suite
  let ending ← peek
  if ending.lexeme = .newline || ending.lexeme = .indent then
    return (keyword :: subjects ++ [colon], ending.span)
  else stuck

/-- A statement that compares a subject with patterns. Its block may be empty. -/
def matchStatement (head : List Node) (ending : Span) : Rule Node := do
  let opening ← next
  look .statement
  if opening.lexeme = .indent then
    let cases ← gather (·.isWord "case") (caseClause inner)
    let closing ← expect (·.lexeme = .dedent)
    look .statement
    let block : Node := .mk (.construct .block) (some .body)
      ⟨opening.span.start, closing.span.stop, opening.span.row⟩ cases
    return phrase .matchStatement (head ++ [block])
  else return phrase .matchStatement (head ++ [.mk (.construct .block) (some .body) ending []])

/-- The statement that begins with a word, if it is a compound one. -/
def compound (keyword : String) : Rule (Option Node) := do
  if keyword = "if" then return some (← ifStatement inner)
  else if keyword = "while" then return some (← whileStatement inner)
  else if keyword = "for" then return some (← forStatement inner [])
  else if keyword = "try" then return some (← tryStatement inner)
  else if keyword = "with" then return some (← withStatement inner [])
  else if keyword = "def" then return some (← functionDefinition inner [])
  else if keyword = "class" then return some (← classDefinition inner)
  else return none

/-- **A statement**, or the statements of a line. -/
def statement : Rule (List Node) := do
  let t ← peek
  let after ← peekSecond
  let line : Rule (List Node) := do return (← simpleLine inner).1
  match t.lexeme with
  | .word text =>
    if text = "match" && after.lexeme ≠ .newline then
      fun c =>
        match inMode .header (matchHead inner) c with
        | .ok ((head, ending), rest) =>
          inMode .header (do return [← matchStatement inner head ending]) rest
        | .error _ => line c
    else if text = "async" && introduces after then
      return [← inMode .header (asyncStatement inner)]
    else
      match ← inMode .header (compound inner text) with
      | some n => return [n]
      | none => line
  | .mark text =>
    if text = "@" then return [← inMode .header (decoratedDefinition inner)] else line
  | _ => line

/-! ## Blocks -/

/-- The cursor at the next line that is not indented more deeply than `current`,
from tokens that are passed over. `depth` counts the brackets entered. -/
def skipStatement (current depth : Nat) (c : Cursor) : List Token → Cursor
  | [] => { c with tokens := [] }
  | t :: rest =>
    if t.lexeme = .endOfFile || (depth = 0 && t.isOnNewLine && t.gap.indentation ≤ current) then
      { c with tokens := t :: rest, settled := false }.look .statement
    else
      let passed := t.gap.trivia.foldl (fun c trivium => c.passing trivium) c
      let depth :=
        if t.isMark "(" || t.isMark "[" || t.isMark "\x7b" then depth + 1
        else if t.isMark ")" || t.isMark "]" || t.isMark "\x7d" then depth - 1
        else depth
      skipStatement current depth { passed with last := t.stop } rest

/-- A statement, or the error that stands for it. -/
def recovered : Rule (List Node) := fun c =>
  match statement inner c with
  | .ok result => .ok result
  | .error span =>
    .ok ([.mk (.construct .error) none span []],
      match c.tokens with
      | [] => c
      | t :: rest => skipStatement c.indentation 0 { c with last := t.stop } rest)

/-- Whether statements go on. -/
def continuesBlock (t : Token) : Bool := t.lexeme ≠ .dedent && t.lexeme ≠ .endOfFile

/-- The statements of a block. -/
def statements : Rule (List Node) := do
  look .statement
  return (← gather continuesBlock (recovered inner)).flatten

/-- The body of a compound statement: a block below its header, or the rest of
the header's line. -/
def suite : Rule Node :=
  inMode .statement do
    look .suite
    let t ← peek
    if t.lexeme = .indent then
      let _ ← next
      let parts ← statements inner
      let closing ← expect (·.lexeme = .dedent)
      look .statement
      return phraseUpTo .block parts closing.span.stop
    else if t.lexeme = .newline then
      let ending ← endOfLine
      return .mk (.construct .block) none ending.span []
    else
      let (parts, stop) ← simpleLine inner
      return phraseUpTo .block parts stop

/-- The statements of a file. -/
def sourceFile : Rule (List Node) := statements inner

end CallTree.Syntax.Grammar
