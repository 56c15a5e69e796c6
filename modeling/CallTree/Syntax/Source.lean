import CallTree.Syntax.Node
import CallTree.Text.Utf8

/-!
# Source files

A source is the bytes of a file. A node's text is the piece of the file that it
covers, and asking for it can fail: the bytes of a comment or a string need not
be text at all, which is nobody's concern until somebody reads them.
-/

namespace CallTree.Syntax

/-- The bytes of a source file. -/
structure Source where
  bytes : ByteArray

namespace Source

/-- The source that a text is written as. -/
def ofText (text : String) : Source := ⟨text.toUTF8⟩

/-- The characters of the source with their places. -/
def glyphs (src : Source) : List Text.Utf8.Glyph :=
  Text.Utf8.glyphs src.bytes.toList

/-- The bytes that a span covers. -/
def slice (src : Source) (span : Span) : List UInt8 :=
  (src.bytes.extract span.start span.stop).toList

/-- **The text of a node**, as written. -/
def text (src : Source) (n : Node) : Except Text.Utf8.Defect String :=
  Text.Utf8.decode (src.slice n.span)

end Source

end CallTree.Syntax
