/-!
# The concrete syntax tree

A source file is read into a tree that keeps every token, so that a node always
covers a contiguous piece of the file and its text is that piece as written.
A node has a label, the role it plays for its parent, the span of bytes it
covers and its children.

* A **construct** is a phrase of the grammar; its `Kind` says which.
* A **name** is an identifier, with its spelling.
* A **mark** is a keyword or a piece of punctuation. Marks are children like any
  other, and they are what `namedChildren` leaves out.

Comments and line continuations are constructs too, and stand where they stand
in the file.

`Node.descendants` lists everything below a node. It keeps a stack of the nodes
still to be visited, so its use of the machine does not grow with the depth of
the tree; `Node.preorder` says what the list is: each child followed by what is
below it, from left to right.
-/

namespace CallTree.Syntax

/-- The kinds of phrases. -/
inductive Kind where
  | sourceFile | importStatement | importPrefix | relativeImport | futureImportStatement
  | importFromStatement | aliasedImport | wildcardImport | printStatement | chevron
  | assertStatement | expressionStatement | namedExpression | returnStatement
  | deleteStatement | raiseStatement | passStatement | breakStatement | continueStatement
  | ifStatement | elifClause | elseClause | matchStatement | block | caseClause
  | forStatement | whileStatement | tryStatement | exceptClause | finallyClause
  | withStatement | withClause | withItem | functionDefinition | parameters
  | lambdaParameters | listSplat | dictionarySplat | globalStatement | nonlocalStatement
  | execStatement | typeAliasStatement | classDefinition | typeParameter | argumentList
  | decoratedDefinition | decorator | expressionList | dottedName | casePattern
  | unionPattern | dictPattern | keywordPattern | splatPattern | classPattern
  | complexPattern | asPattern | asPatternTarget | tuplePattern | listPattern
  | defaultParameter | typedDefaultParameter | listSplatPattern | dictionarySplatPattern
  | notOperator | booleanOperator | binaryOperator | unaryOperator | comparisonOperator
  | lambda | assignment | augmentedAssignment | patternList | yieldExpression
  | attributeAccess | subscript | slice | ellipsis | call | typedParameter | type
  | splatType | genericType | unionType | constrainedType | memberType
  | keywordArgument | list | set | tuple | dictionary | pair | listComprehension
  | dictionaryComprehension | setComprehension | generatorExpression
  | parenthesizedExpression | parenthesizedListSplat | forInClause | ifClause
  | conditionalExpression | concatenatedString | string | stringStart | stringContent | stringEnd
  | interpolation | formatSpecifier | formatExpression | typeConversion
  | escapeSequence | escapeInterpolation | integer | float | trueLiteral
  | falseLiteral | noneLiteral | awaitExpression | comment | lineContinuation
  | positionalSeparator | keywordSeparator | error
deriving DecidableEq, Repr, Inhabited

/-- How a kind is spelled where trees are shown. -/
def Kind.spelling : Kind → String
  | .sourceFile => "module"
  | .importStatement => "import_statement"
  | .importPrefix => "import_prefix"
  | .relativeImport => "relative_import"
  | .futureImportStatement => "future_import_statement"
  | .importFromStatement => "import_from_statement"
  | .aliasedImport => "aliased_import"
  | .wildcardImport => "wildcard_import"
  | .printStatement => "print_statement"
  | .chevron => "chevron"
  | .assertStatement => "assert_statement"
  | .expressionStatement => "expression_statement"
  | .namedExpression => "named_expression"
  | .returnStatement => "return_statement"
  | .deleteStatement => "delete_statement"
  | .raiseStatement => "raise_statement"
  | .passStatement => "pass_statement"
  | .breakStatement => "break_statement"
  | .continueStatement => "continue_statement"
  | .ifStatement => "if_statement"
  | .elifClause => "elif_clause"
  | .elseClause => "else_clause"
  | .matchStatement => "match_statement"
  | .block => "block"
  | .caseClause => "case_clause"
  | .forStatement => "for_statement"
  | .whileStatement => "while_statement"
  | .tryStatement => "try_statement"
  | .exceptClause => "except_clause"
  | .finallyClause => "finally_clause"
  | .withStatement => "with_statement"
  | .withClause => "with_clause"
  | .withItem => "with_item"
  | .functionDefinition => "function_definition"
  | .parameters => "parameters"
  | .lambdaParameters => "lambda_parameters"
  | .listSplat => "list_splat"
  | .dictionarySplat => "dictionary_splat"
  | .globalStatement => "global_statement"
  | .nonlocalStatement => "nonlocal_statement"
  | .execStatement => "exec_statement"
  | .typeAliasStatement => "type_alias_statement"
  | .classDefinition => "class_definition"
  | .typeParameter => "type_parameter"
  | .argumentList => "argument_list"
  | .decoratedDefinition => "decorated_definition"
  | .decorator => "decorator"
  | .expressionList => "expression_list"
  | .dottedName => "dotted_name"
  | .casePattern => "case_pattern"
  | .unionPattern => "union_pattern"
  | .dictPattern => "dict_pattern"
  | .keywordPattern => "keyword_pattern"
  | .splatPattern => "splat_pattern"
  | .classPattern => "class_pattern"
  | .complexPattern => "complex_pattern"
  | .asPattern => "as_pattern"
  | .asPatternTarget => "as_pattern_target"
  | .tuplePattern => "tuple_pattern"
  | .listPattern => "list_pattern"
  | .defaultParameter => "default_parameter"
  | .typedDefaultParameter => "typed_default_parameter"
  | .listSplatPattern => "list_splat_pattern"
  | .dictionarySplatPattern => "dictionary_splat_pattern"
  | .notOperator => "not_operator"
  | .booleanOperator => "boolean_operator"
  | .binaryOperator => "binary_operator"
  | .unaryOperator => "unary_operator"
  | .comparisonOperator => "comparison_operator"
  | .lambda => "lambda"
  | .assignment => "assignment"
  | .augmentedAssignment => "augmented_assignment"
  | .patternList => "pattern_list"
  | .yieldExpression => "yield"
  | .attributeAccess => "attribute"
  | .subscript => "subscript"
  | .slice => "slice"
  | .ellipsis => "ellipsis"
  | .call => "call"
  | .typedParameter => "typed_parameter"
  | .type => "type"
  | .splatType => "splat_type"
  | .genericType => "generic_type"
  | .unionType => "union_type"
  | .constrainedType => "constrained_type"
  | .memberType => "member_type"
  | .keywordArgument => "keyword_argument"
  | .list => "list"
  | .set => "set"
  | .tuple => "tuple"
  | .dictionary => "dictionary"
  | .pair => "pair"
  | .listComprehension => "list_comprehension"
  | .dictionaryComprehension => "dictionary_comprehension"
  | .setComprehension => "set_comprehension"
  | .generatorExpression => "generator_expression"
  | .parenthesizedExpression => "parenthesized_expression"
  | .parenthesizedListSplat => "parenthesized_list_splat"
  | .forInClause => "for_in_clause"
  | .ifClause => "if_clause"
  | .conditionalExpression => "conditional_expression"
  | .concatenatedString => "concatenated_string"
  | .string => "string"
  | .stringStart => "string_start"
  | .stringContent => "string_content"
  | .stringEnd => "string_end"
  | .interpolation => "interpolation"
  | .formatSpecifier => "format_specifier"
  | .formatExpression => "format_expression"
  | .typeConversion => "type_conversion"
  | .escapeSequence => "escape_sequence"
  | .escapeInterpolation => "escape_interpolation"
  | .integer => "integer"
  | .float => "float"
  | .trueLiteral => "true"
  | .falseLiteral => "false"
  | .noneLiteral => "none"
  | .awaitExpression => "await"
  | .comment => "comment"
  | .lineContinuation => "line_continuation"
  | .positionalSeparator => "positional_separator"
  | .keywordSeparator => "keyword_separator"
  | .error => "ERROR"

/-- The part a node plays for its parent, where that part has a name. -/
inductive Role where
  | name | superclasses | body | parameters | typeParameters | returnType
  | definition | left | right | type | function | arguments | object
  | attributeName | sourceModule | boundName | value | operator | condition
  | consequence | alternative | subject | guard | key | item | cause | code
deriving DecidableEq, Repr

/-- **The place of a node in its file**: the bytes from `start` up to `stop`,
and the line, counted from zero, that it begins on. -/
structure Span where
  start : Nat
  stop : Nat
  row : Nat
deriving DecidableEq, Repr, Inhabited

/-- What a node is. -/
inductive Label where
  /-- A phrase of the grammar. -/
  | construct (kind : Kind)
  /-- An identifier with its spelling. -/
  | name (text : String)
  /-- A keyword or a piece of punctuation with its spelling. -/
  | mark (text : String)
deriving DecidableEq, Repr, Inhabited

/-- How a label is spelled where trees are shown: a mark is spelled as itself. -/
def Label.spelling : Label → String
  | .construct kind => kind.spelling
  | .name _ => "identifier"
  | .mark text => text

/-- **A node of the tree.** -/
inductive Node where
  | mk (label : Label) (role : Option Role) (span : Span) (children : List Node)
deriving Inhabited

namespace Node

/-- What the node is. -/
def label : Node → Label
  | mk label _ _ _ => label

/-- The part the node plays for its parent. -/
def role : Node → Option Role
  | mk _ role _ _ => role

/-- The place of the node in its file. -/
def span : Node → Span
  | mk _ _ span _ => span

/-- The nodes directly below, marks included, from left to right. -/
def children : Node → List Node
  | mk _ _ _ children => children

/-- How the node's label is spelled. -/
def spelling (n : Node) : String := n.label.spelling

/-- The line that the node begins on, counted from one. -/
def line (n : Node) : Nat := n.span.row + 1

/-- Whether the node is a phrase of this kind. -/
def isKind (kind : Kind) (n : Node) : Bool := n.label = .construct kind

/-- Whether the node is an identifier. -/
def isName (n : Node) : Bool :=
  match n.label with
  | .name _ => true
  | _ => false

/-- Whether the node is a keyword or a piece of punctuation. -/
def isMark (n : Node) : Bool :=
  match n.label with
  | .mark _ => true
  | _ => false

/-- The spelling of an identifier; nothing for other nodes. -/
def identifier? (n : Node) : Option String :=
  match n.label with
  | .name text => some text
  | _ => none

/-- The same node in another part. -/
def withRole (role : Role) : Node → Node
  | mk label _ span children => mk label (some role) span children

theorem role_withRole (n : Node) (role : Role) : (n.withRole role).role = some role := by
  cases n
  rfl

/-- The children that are neither keywords nor punctuation. -/
def namedChildren (n : Node) : List Node :=
  n.children.filter (!·.isMark)

/-- The first child in the given part. -/
def child? (role : Role) (n : Node) : Option Node :=
  n.children.find? (·.role = some role)

/-- **Whether two nodes of one file are the same**: they cover the same bytes
and are labelled alike. -/
def sameAs (a b : Node) : Bool :=
  a.span.start = b.span.start && a.span.stop = b.span.stop && a.spelling = b.spelling

end Node

mutual

/-- The number of nodes of a tree. -/
def Node.size : Node → Nat
  | .mk _ _ _ children => Node.sizes children + 1

/-- The number of nodes of several trees. -/
def Node.sizes : List Node → Nat
  | [] => 0
  | n :: ns => n.size + Node.sizes ns

end

/-- **A node where it stands**: together with the node directly above it. -/
structure Site where
  node : Node
  parent : Option Node
deriving Inhabited

/-- The sites of a node's children. -/
def Node.sites (n : Node) : List Site :=
  n.children.map fun child => ⟨child, some n⟩

mutual

/-- What is below a node, as the tree says it: each child followed by what is
below that child. -/
def Node.preorder (n : Node) : List Site :=
  match n with
  | .mk label role span children => Node.preorderList (.mk label role span children) children

/-- The children of `parent` that are left, each followed by what is below it. -/
def Node.preorderList (parent : Node) : List Node → List Site
  | [] => []
  | child :: rest => ⟨child, some parent⟩ :: (child.preorder ++ Node.preorderList parent rest)

end

/-- Visits the sites on the stack and everything below them: the next site is
taken off, and its children are put in its place. -/
def visitStack : Nat → List Site → List Site
  | 0, _ => []
  | _ + 1, [] => []
  | fuel + 1, site :: stack => site :: visitStack fuel (site.node.sites ++ stack)

/-- **Everything below a node that `wanted` accepts**, in the order of the
source. The node itself is not below itself. -/
def Node.descendants (wanted : Label → Bool) (n : Node) : List Site :=
  (visitStack n.size n.sites).filter fun site => wanted site.node.label

/-- The descendants that are phrases of one kind. -/
def Node.descendantsOf (kind : Kind) (n : Node) : List Site :=
  n.descendants (· = .construct kind)

/-- The identifiers below a node. -/
def Node.identifiers (n : Node) : List Site :=
  n.descendants fun label =>
    match label with
    | .name _ => true
    | _ => false

/-- The lines that hold a piece of the file which could not be read, each once
and in order. What is below such a piece is not looked at again. -/
def Node.errorLines (n : Node) : List Nat :=
  ((n.descendantsOf .error).map (·.node.line)).eraseDups.mergeSort

end CallTree.Syntax
