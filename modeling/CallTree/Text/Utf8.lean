/-!
# Reading bytes as text

Source files are bytes, and only the parts that are looked at have to be text.
`Utf8.decode` reads a list of bytes strictly and says where and why it fails;
`Utf8.glyphs` reads leniently, one replacement character for each byte that is
part of no character, so that a stray byte in a comment does no harm to the
rest of the file.

A malformed sequence is charged to its first byte and extends over the bytes
that could still have begun a character: `Defect.stop` is where reading could
resume. The three reasons are the three ways a sequence can go wrong: its first
byte begins nothing, a later byte does not continue it, or the bytes run out.
-/

namespace CallTree.Text

namespace Utf8

/-- Why a sequence of bytes is no character. -/
inductive Reason where
  | invalidStart
  | invalidContinuation
  | unexpectedEnd
deriving DecidableEq, Repr

/-- **A sequence that is no character**: where it begins and ends, its first
byte, and what is wrong with it. -/
structure Defect where
  start : Nat
  stop : Nat
  byte : UInt8
  reason : Reason
deriving DecidableEq

/-- What a sequence of bytes begins with: a character and its width, or a
number of bytes that belong together and form none. -/
inductive Head where
  | char (c : Char) (width : Nat)
  | broken (width : Nat) (reason : Reason)

/-- A byte that continues a character. -/
def isContinuation (b : UInt8) : Bool := 0x80 ≤ b && b < 0xC0

/-- The six payload bits of a continuation byte. -/
def payload (b : UInt8) : Nat := b.toNat % 64

/-- The second byte that a three-byte character may have. Below it the character
would fit into two bytes, above it it would be half of a pair. -/
def secondOfThree (lead b : UInt8) : Bool :=
  isContinuation b && !(lead = 0xE0 && b < 0xA0) && !(lead = 0xED && 0xA0 ≤ b)

/-- The second byte that a four-byte character may have. -/
def secondOfFour (lead b : UInt8) : Bool :=
  isContinuation b && !(lead = 0xF0 && b < 0x90) && !(lead = 0xF4 && 0x90 ≤ b)

/-- What the bytes after `lead` complete it to. -/
def head (lead : UInt8) (rest : List UInt8) : Head :=
  if lead < 0x80 then .char (Char.ofNat lead.toNat) 1
  else if lead < 0xC2 then .broken 1 .invalidStart
  else if lead < 0xE0 then
    match rest with
    | [] => .broken 1 .unexpectedEnd
    | b :: _ =>
      if isContinuation b then .char (Char.ofNat ((lead.toNat - 0xC0) * 64 + payload b)) 2
      else .broken 1 .invalidContinuation
  else if lead < 0xF0 then
    match rest with
    | [] => .broken 1 .unexpectedEnd
    | b :: rest =>
      if !secondOfThree lead b then .broken 1 .invalidContinuation
      else
        match rest with
        | [] => .broken 2 .unexpectedEnd
        | d :: _ =>
          if isContinuation d then
            .char (Char.ofNat (((lead.toNat - 0xE0) * 64 + payload b) * 64 + payload d)) 3
          else .broken 2 .invalidContinuation
  else if lead < 0xF5 then
    match rest with
    | [] => .broken 1 .unexpectedEnd
    | b :: rest =>
      if !secondOfFour lead b then .broken 1 .invalidContinuation
      else
        match rest with
        | [] => .broken 2 .unexpectedEnd
        | d :: rest =>
          if !isContinuation d then .broken 2 .invalidContinuation
          else
            match rest with
            | [] => .broken 3 .unexpectedEnd
            | e :: _ =>
              if isContinuation e then
                .char (Char.ofNat ((((lead.toNat - 0xF0) * 64 + payload b) * 64
                  + payload d) * 64 + payload e)) 4
              else .broken 3 .invalidContinuation
  else .broken 1 .invalidStart

/-- Reads the bytes from an offset on, skipping the `pending` ones that belong to
the character just read. -/
def decodeFrom (offset pending : Nat) : List UInt8 → Except Defect (List Char)
  | [] => .ok []
  | b :: bs =>
    match pending with
    | k + 1 => decodeFrom (offset + 1) k bs
    | 0 =>
      match head b bs with
      | .char c width => (decodeFrom (offset + 1) (width - 1) bs).map (c :: ·)
      | .broken width reason => .error ⟨offset, offset + width, b, reason⟩

/-- **The text that the bytes encode**, or the first defect. -/
def decode (bytes : List UInt8) : Except Defect String :=
  (decodeFrom 0 0 bytes).map String.ofList

/-- A character of a source file: the byte it begins at and the line, counted
from zero, it stands on. -/
structure Glyph where
  char : Char
  offset : Nat
  row : Nat
deriving Inhabited

/-- Reads leniently from an offset and a row: a byte that is part of no
character stands as one replacement character. -/
def glyphsFrom (offset row pending : Nat) : List UInt8 → List Glyph
  | [] => []
  | b :: bs =>
    match pending with
    | k + 1 => glyphsFrom (offset + 1) row k bs
    | 0 =>
      match head b bs with
      | .char c width =>
        ⟨c, offset, row⟩ ::
          glyphsFrom (offset + 1) (if c = '\n' then row + 1 else row) (width - 1) bs
      | .broken _ _ => ⟨'�', offset, row⟩ :: glyphsFrom (offset + 1) row 0 bs

/-- The characters of a file with their places. -/
def glyphs (bytes : List UInt8) : List Glyph := glyphsFrom 0 0 0 bytes

/-- What a reason is called in a message. -/
def Reason.message : Reason → String
  | .invalidStart => "invalid start byte"
  | .invalidContinuation => "invalid continuation byte"
  | .unexpectedEnd => "unexpected end of data"

/-- Two lower-case hexadecimal digits. -/
def hexByte (b : UInt8) : String :=
  String.ofList [Nat.digitChar (b.toNat / 16), Nat.digitChar (b.toNat % 16)]

/-- The message of a defect: a single byte is shown, several are given by their
places. -/
def Defect.message (d : Defect) : String :=
  if d.stop = d.start + 1 then
    s!"'utf-8' codec can't decode byte 0x{hexByte d.byte} in position {d.start}: "
      ++ d.reason.message
  else
    s!"'utf-8' codec can't decode bytes in position {d.start}-{d.stop - 1}: "
      ++ d.reason.message

end Utf8

/-- A text with every line ended in the same way. -/
def withPlainBreaks : List Char → List Char
  | [] => []
  | '\r' :: '\n' :: cs => '\n' :: withPlainBreaks cs
  | '\r' :: cs => '\n' :: withPlainBreaks cs
  | c :: cs => c :: withPlainBreaks cs

end CallTree.Text
