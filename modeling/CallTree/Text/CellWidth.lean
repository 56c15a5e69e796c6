import CallTree.Text.Range

/-!
# Widths on a console

A console lays text out in cells. Most characters take one cell; the ideographs,
syllables and pictures of `wideRanges` take two; marks that combine with what
stands before them and characters that only control the layout take none.

Two characters change the width of their neighbours. A joiner makes one picture
of two, so that what follows it adds nothing. A selector after a symbol that is
also a picture asks for the picture, which is wide.
-/

namespace CallTree.Text

/-- The characters that take no cell. -/
def widthlessRanges : Array Range := Range.table [
  "300-6F 114-6 108-2C 2 2-1 2-1 2 39-5 B-A 2 2F-14 11 66-7 2-5 3-1 2-3 22 2 1F-1A 5C-A 3B-8 A",
  "19-3 2-8 2-2 2-4 2C-2 35-1 6-8 2B-39 37-2 2-11 2-6 B-1 1E-2 39 2-6 3-1 3-2 A B-1 1B 3-2 39 2-4",
  "5-1 3-2 4 1F-1 4 C-2 39 2-7 2-2 2-2 15-1 17-5 2-2 39 2-6 3-1 3-2 8-2 B-1 1F 3C-4 4-2 2-3 A",
  "29-4 38 2-6 2-2 2-3 8-1 C-1 1E-2 39 2-6 2-2 2-3 8-1 C-1 10 D-3 38-1 2-6 2-2 2-3 A B-1 1E-2 47",
  "5-5 2 2-7 13-1 3E 3-6 D-7 63 3-8 C-6 4A-1 1C 2 2 5-1 32-13 2-1 6-A 2-23 A 65-13 18-3 5-2 2-2",
  "3-6 4-3 E-B 2 B-3 C3-9F 15E-2 3B3-3 1D-2 1E-1 1F-1 41-1F A 2E-4 76-1 23 77-B 5-B DC-4 3A-9",
  "2-1C 3 31-2D 3-B 15-4 30-10 27-8 D-2 1F-C 39-D 31-13 99-2 2-14 5 7 3-2 C7-3F 20C-4 19-6 32-4",
  "2-9 61-20 BFF-2 8E 61-1F 22B-5 6A-1 75D5-3 2-9 21-1 51-1 111 4 5 18-4 5 54-1 33-11 1B-11 E",
  "27-7 1A-C 2D-3 30-D 25 44-D D 9-1 2E-2 33 2-2 3-1 6-1 2 2A-4 6-1 ED-7 2-1 2BC3-4F 231F 2E2-F",
  "11-F D0 FA-2 202 E3 96-4 687-2 2-1 6-3 29-2 5 A6-1 23E-3 42-4 13E-1 4E-5 47-A 32-3 7B-2 36-E",
  "2A 3-1 B-3 2E-A 3 5 B 33-2 25-D 11-1 2D D-2 31-D 9-3 2-1 5D-B 7 3 9E-B 16-3 38-1 2-6 3-1 3-2 A",
  "B-1 3-6 4-4 44-8 2 3 2-3 2-4 2 F-1 53-11 18 52-13 EC-6 3-8 1C-1 53-10 6B-C 66-E 101-E F6-5 2-1",
  "3-3 2 2-1 8E-6 3-6 4 1D-9 29-6 2-3 9 A-A 2F-F C7-7 C8-7 2-7 53-15 2-D 7B-5 4 2-1 2-6 2 43-4",
  "2-1 2-4 15C-3 A-1 2 31-6 4-4 18 14D6-10 7-E 2CC9-11 9C1-4 3C-6 419 2-36 8-3 52 C-1 4CAC-1 2-3",
  "125D-2D 3-16 21F-4 4-15 3-6 1F-3 95-2 7BC-36 5-31 9 F 17-4 2-E 551-6 2-10 3-6 2-1 2-4 65 A1-6",
  "178 3E-3 1FD-3 FF-1 F4 3 8-1 6 1DB-6 6E-6 AB1-4 C0C02 1F-5F 81-EF"]

/-- The characters that take two cells. -/
def wideRanges : Array Range := Range.table [
  "1100-5F 11BB-1 E-1 BF-3 4 3 20A-1 16-1 1B-7 11-B 2C B-5 4 E 9-1 12-1 6-1 9 6 16 8-1 2 5 3 8",
  "5-1 1D 24 2 5-2 2 3E-2 19 F 35C-1 34 5 32B-19 2-58 D-D5 1B-39 7-E 3-55 5-64 6-2A 2-5D 2-55",
  "A-2F 2-27 9-723C 4-36 49A-1C 284-2BA3 215D-1FF 311-9 17-22 2-12 2-3 96-5F 80-6 6FFA-3 F-4",
  "A-1CD5 2A-1F 62-72 21FE-3 2-6 2-1 2-122 10 1E-2 3 F-3 9-18B 2005-56 A-16 1C8E CB BF 3-9 66-2",
  "E-2B 5-8 8-1 F-5 9B-20 D-8 2-45 2-15 D-2A 5-4 D-10 4 4-2 6-3E 2 2-BA 3-3E E-3 2-17 13 1B-1 E",
  "57-54 31-45 7 4-2 3-3 4-3 C-1 8-8 E4-B 5 11C-2E 2-9 2-B8 71-C 4-A 4-38 2 5-F 3-B 5-9 508-FFFD",
  "3-FFFD"]

/-- The symbols of one cell that a selector turns into pictures. -/
def pictorialRanges : Array Range := Range.table [
  "23 7 6-9 70 5 1F8E D D9 17 5B-5 10-1 17E A7 1E-2 2-1 6-2 C8 E8-1 B A 3B-1 4-4 A 3 7 5 3 2-1 3",
  "4 4-1 9-2 6 2 1D-1 3 2-1 2 13 3 14 2-3 2 2-1 4 7 9-1 17 7 2 2 16 7-1 3 3-2 9 6-1 3-1 2 3 2 2 7",
  "4 12-1 10 3 1C-1 3D 193-1 1D0-2 1C669-1 D-1 1A2 3-8 A 47 19-1 2-2 3-1 2C-3 6-B 14 2 2 48 2 BC",
  "4C-1 25-1 3-6 E 3-3 3 15 3 9-1 A 6-2 D-2 9-2 3 2 5 7 4 7 D1 2-2 11-5 4 7 3"]

/-- The joiner, which makes one picture of two. -/
def joiner : Char := '\u200D'

/-- The selector that asks for a picture. -/
def pictureSelector : Char := '\uFE0F'

/-- The selector that asks for plain text. -/
def textSelector : Char := '\uFE0E'

/-- **The number of cells of a character** by itself. -/
def charWidth (c : Char) : Nat :=
  if c.toNat < 0x20 || (0x7F ≤ c.toNat && c.toNat < 0xA0) then 0
  else if c.toNat < 0x300 then 1
  else if Range.anyHolds widthlessRanges c then 0
  else if Range.anyHolds wideRanges c then 2
  else 1

/-- The number of cells of characters in a row. `before` is the last one that took
any, unless a selector has been applied to it, and `joined` tells that a joiner
was just read. -/
def widthAfter (before : Option Char) (joined : Bool) : List Char → Nat
  | [] => 0
  | c :: cs =>
    if joined then widthAfter before false cs
    else if c = joiner then widthAfter before true cs
    else if c = pictureSelector then
      (if before.any (Range.anyHolds pictorialRanges) then 1 else 0) + widthAfter none false cs
    else
      match charWidth c with
      | 0 => widthAfter before false cs
      | width => width + widthAfter (some c) false cs

/-- **The number of cells of a text.** -/
def cellWidth (cs : List Char) : Nat := widthAfter none false cs

end CallTree.Text
