/-!
# Dotted names

Names of modules, types and members are written with dots: `shop.orders.Order`.
Everything the library asks of such a name is a question about the pieces
between its dots, so a name is cut once, by `pieces`, and the questions are
asked of the list.

The pieces of a text are never an empty list (`pieces_ne_nil`): a text without
a separator is its own single piece, and the empty text has the empty piece.
That is what makes `lastSegment` total without a default that could ever show.
-/

namespace CallTree.Text

/-- **The pieces of a text between the separators.** Two separators side by
side have an empty piece between them. -/
def pieces (sep : Char) : List Char → List (List Char)
  | [] => [[]]
  | c :: cs =>
    if c = sep then [] :: pieces sep cs
    else
      match pieces sep cs with
      | [] => [[c]]
      | p :: ps => (c :: p) :: ps

/-- A text has at least one piece. -/
theorem pieces_ne_nil (sep : Char) (cs : List Char) : pieces sep cs ≠ [] := by
  cases cs with
  | nil => simp [pieces]
  | cons c cs =>
    rw [pieces]
    split
    · simp
    · split <;> simp

/-- The words of a text, with blanks and ends of lines between them. -/
def words (text : String) : List (List Char) :=
  ((pieces '\n' text.toList).flatMap (pieces ' ')).filter (!·.isEmpty)

/-- The segments of a dotted name. -/
def segments (name : String) : List String :=
  (pieces '.' name.toList).map String.ofList

/-- A dotted name has at least one segment. -/
theorem segments_ne_nil (name : String) : segments name ≠ [] := by
  simp [segments, pieces_ne_nil]

/-- The name with these segments. -/
def dotted (parts : List String) : String :=
  ".".intercalate parts

/-- **The last segment of a dotted name**, which is the whole name when it has
no dot. -/
def lastSegment (name : String) : String :=
  (segments name).getLast (segments_ne_nil name)

/-- The first segment of a dotted name. -/
def firstSegment (name : String) : String :=
  (segments name).head (segments_ne_nil name)

/-- The name without its last segment; empty when there is only one. -/
def withoutLast (name : String) : String :=
  dotted (segments name).dropLast

/-- Whether the text begins with `start`. -/
def startsWith (start text : String) : Bool :=
  start.toList.isPrefixOf text.toList

/-- Whether the text ends with `ending`. -/
def endsWith (ending text : String) : Bool :=
  ending.toList.isSuffixOf text.toList

/-- Whether `part` occurs somewhere in the characters. -/
def occursIn (part : List Char) : List Char → Bool
  | [] => part.isEmpty
  | c :: cs => part.isPrefixOf (c :: cs) || occursIn part cs

/-- Whether `part` occurs somewhere in the text. The empty text occurs in every
text. -/
def contains (part text : String) : Bool :=
  occursIn part.toList text.toList

/-- What stands before the first occurrence of a character, or the whole text. -/
def before (stop : Char) (text : String) : String :=
  String.ofList (text.toList.takeWhile (· ≠ stop))

/-- The text without the leading and trailing characters of a class. -/
def trimBy (drop : Char → Bool) (text : String) : String :=
  String.ofList (((text.toList.dropWhile drop).reverse.dropWhile drop).reverse)

end CallTree.Text
