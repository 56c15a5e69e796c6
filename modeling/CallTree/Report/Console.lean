import CallTree.Report
import CallTree.Text.Emoji

/-!
# Lines on a console

A console writes a line as it is and never breaks it. Names of pictures are
written as the pictures, characters that would only move the cursor are left
out, and a tab fills up to the next column that is a multiple of eight. Columns
are counted in cells, of which a character may take none, one or two.
-/

namespace CallTree.Report

open CallTree.Text (cellWidth withPictures)

/-- Whether a character only moves the cursor or rings the bell. -/
def isCursorControl (c : Char) : Bool :=
  [7, 8, 11, 12, 13].contains c.toNat

/-- The distance of the columns that tabs fill up to. -/
def tabWidth : Nat := 8

/-- A stretch of text before a tab, filled up. The tab is a blank to begin with. -/
def filledUp (part : List Char) : List Char :=
  let part := part ++ [' ']
  match cellWidth part % tabWidth with
  | 0 => part
  | excess => part ++ List.replicate (tabWidth - excess) ' '

/-- The characters with tabs filled up. `held` are those since the last tab or the
start of the line, latest first. -/
def expandTabs (held : List Char) : List Char → List Char
  | [] => held.reverse
  | c :: cs =>
    if c = '\t' then filledUp held.reverse ++ expandTabs [] cs
    else if c = '\n' then held.reverse ++ c :: expandTabs [] cs
    else expandTabs (c :: held) cs

/-- A line as a console writes it. -/
def consoleLine (line : String) : String :=
  String.ofList (expandTabs [] ((withPictures line.toList).filter (!isCursorControl ·)))

/-- **What a console writes for several lines.** -/
def printed (lines : List String) : String :=
  String.join (lines.map fun line => consoleLine line ++ "\n")

end CallTree.Report
