import CallTree.Text.Dotted
import CallTree.Text.Quoted

/-!
# Paths

A path is a list of names under a root, which is empty for a relative path. Empty
pieces and single dots between the slashes say nothing and are dropped; two dots
are a name like any other, since what they lead to depends on the files that are
there.
-/

namespace CallTree.Files

open CallTree.Text (pieces)

/-- **A path.** -/
structure Path where
  root : String := ""
  names : List String := []
deriving DecidableEq, Repr, Inhabited

namespace Path

/-- The root that a path is written with: two slashes are a root of their own, and
three are as good as one. -/
def rootOf : List Char → String
  | '/' :: '/' :: '/' :: _ => "/"
  | '/' :: '/' :: _ => "//"
  | '/' :: _ => "/"
  | _ => ""

/-- **A path as it is written.** -/
def ofText (text : String) : Path where
  root := rootOf text.toList
  names := ((pieces '/' text.toList).filter fun p => p ≠ [] && p ≠ ['.']).map String.ofList

/-- The text of a path; a path without root and names is a dot. -/
def text (p : Path) : String :=
  if p.root.isEmpty && p.names.isEmpty then "." else p.root ++ "/".intercalate p.names

/-- The parts of a path, the root among them. -/
def parts (p : Path) : List String :=
  if p.root.isEmpty then p.names else p.root :: p.names

/-- The last name; empty if there is none. -/
def name (p : Path) : String := p.names.getLast?.getD ""

/-- The path without its last name. -/
def parent (p : Path) : Path := { p with names := p.names.dropLast }

/-- The path followed by a name. -/
def join (p : Path) (name : String) : Path := { p with names := p.names ++ [name] }

/-- A name cut before its last dot. A dot at the beginning or at the end of a name
is no place to cut. -/
def cutName (name : String) : String × String :=
  let cs := name.toList
  let suffix := (cs.reverse.takeWhile (· ≠ '.')).reverse
  let stem := cs.take (cs.length - suffix.length - 1)
  if suffix.isEmpty || stem.isEmpty || suffix.length = cs.length then (name, "")
  else (String.ofList stem, String.ofList ('.' :: suffix))

/-- The last dot of the last name, and what follows it. -/
def suffix (p : Path) : String := (cutName p.name).2

/-- The path without the suffix of its last name; nothing if it has no name. -/
def withoutSuffix? (p : Path) : Option Path :=
  match p.names.getLast? with
  | none => none
  | some last => some { p with names := p.names.dropLast ++ [(cutName last).1] }

/-- What is said of a path without a name. -/
def namelessMessage (p : Path) : String :=
  s!"PosixPath({Text.quoted p.text}) has an empty name"

/-- Whether names come before others: the first difference decides, and a
beginning comes before what it is the beginning of. -/
def namesPrecede : List String → List String → Bool
  | [], _ => true
  | _ :: _, [] => false
  | a :: as, b :: bs => if a = b then namesPrecede as bs else decide (a < b)

/-- Whether the path comes before another, part by part. -/
def precedes (p q : Path) : Bool := namesPrecede p.parts q.parts

end Path

/-- **The module in a file**: the dotted name of the path without its suffix, and
whether the file stands for the package it lies in. -/
def moduleOf? (p : Path) : Option (String × Bool) := do
  let parts := (← p.withoutSuffix?).parts
  let isPackage := parts.getLast? = some "__init__"
  let name := Text.dotted (if isPackage then parts.dropLast else parts)
  return (if name.isEmpty then "__init__" else name, isPackage)

end CallTree.Files
