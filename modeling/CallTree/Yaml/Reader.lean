import CallTree.Text.Utf8
import CallTree.Yaml.Document

/-!
# Readers of documents

What is to be known of a reader of documents by those who use it is what it makes
of a text, and what it makes of bytes that are none. Bytes are turned into text
chunk by chunk, while the document is read, so a reader may be through with a
document before it gets to the bytes that are no text.

A value that is a part of itself cannot be written out in full. A reader writes it
out to some depth, and `leastDepth` is enough for settings.
-/

namespace CallTree.Yaml

open CallTree.Data (Value)
open CallTree.Text (Utf8.Defect Utf8.glyphs withPlainBreaks)

/-- **A reader of documents.** -/
structure Reader where
  /-- The value of a text. -/
  value : List Char → Reading Value
  /-- The problem that is met in bytes that are no text, if it is met before that is
  found out. -/
  early? : List UInt8 → Option Problem

/-- Bytes are turned into text by so many. -/
def chunk : Nat := 8192

/-- The text that is made of the chunks before the one with a defect. -/
def textBefore (bytes : List UInt8) (d : Utf8.Defect) : List Char :=
  let edge := match d.reason with
    | .invalidStart => d.start / chunk * chunk
    | .invalidContinuation => d.stop / chunk * chunk
    | .unexpectedEnd => bytes.length
  let whole := (Utf8.glyphs bytes).takeWhile fun g =>
    g.offset < d.start && g.offset + g.char.utf8Size ≤ edge
  withPlainBreaks (whole.map (·.char))

/-- What lies behind a text that bytes follow which are none. -/
def brokenOff : Problem := .unusable "the text breaks off"

/-- The reader that writes values out to a depth. -/
def readerTo (depth : Document → Nat) : Reader where
  value := valueOf depth
  early? bytes :=
    match Text.Utf8.decode bytes with
    | .ok _ => none
    | .error d =>
      let text := textBefore bytes d
      match documentOf (text.take (takenBefore text.length)) (some brokenOff) with
      | .ok _ => none
      | .error problem => if problem = brokenOff then none else some problem

/-- **The reader that documents are read with.** A node that is no part of itself has no
more layers than there are nodes, so its value is written out in full. -/
def standardReader : Reader := readerTo fun d => d.nodes.size + leastDepth

end CallTree.Yaml
