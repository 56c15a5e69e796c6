import CallTree.Files.Tree
import CallTree.Log
import CallTree.Syntax.Tree

/-!
# Reading files of code

A file is read into a tree once for every time at which it was written. The trees
are kept by the place of the file, not by the path that led to it, and a tree is
kept also when its file goes away: if a file comes back with an old time, so does
its tree.
-/

namespace CallTree.Workspace

open CallTree.Files (Path Tree)
open CallTree.Syntax (Source Node)

/-- A file that was read. -/
structure ReadFile where
  place : List String
  time : Int
  source : Source
  tree : Node

/-- **The files that were read so far**, in the order in which they were read first. -/
structure Reader where
  kept : List ReadFile := []

namespace Reader

/-- The number of the tree that is kept for a place and a time. -/
def number? (r : Reader) (place : List String) (time : Int) : Option Nat :=
  r.kept.findIdx? fun f => f.place = place && f.time = time

/-- What is logged about a file that cannot be read, under the path as it was given. -/
def unreadable (given : String) (path : Path) (why : Files.Unreadable) : Log.Record :=
  ⟨.warning, .reading, s!"Cannot read {given}: {why.message path}"⟩

/-- **The file at a path**, by its number among those that were read; or why it cannot
be read. -/
def read (r : Reader) (files : Tree) (time : List String → Int) (path : Path) :
    Reader × Except Files.Unreadable Nat :=
  match files.read path, files.place path with
  | .error why, _ => (r, .error why)
  | .ok _, .error _ => (r, .error .missing)
  | .ok bytes, .ok place =>
    match r.number? place (time place) with
    | some n => (r, .ok n)
    | none =>
      let source : Source := ⟨bytes⟩
      (⟨r.kept ++ [⟨place, time place, source, source.tree⟩]⟩, .ok r.kept.length)

end Reader

end CallTree.Workspace
