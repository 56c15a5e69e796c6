/-!
# Bytes written with letters and digits

Four characters out of sixty-four stand for three bytes. Characters that are none
of the sixty-four are passed over. Equals signs fill up the last group, and end
the bytes once the group is full.
-/

namespace CallTree.Yaml.Base64

/-- The number that a character stands for. -/
def digit? (c : Char) : Option Nat :=
  if 'A' ≤ c && c ≤ 'Z' then some (c.toNat - 'A'.toNat)
  else if 'a' ≤ c && c ≤ 'z' then some (c.toNat - 'a'.toNat + 26)
  else if c.isDigit then some (c.toNat - '0'.toNat + 52)
  else if c = '+' then some 62
  else if c = '/' then some 63
  else none

/-- The bytes of a group, of which the last ones are missing if it is not full. -/
def groupBytes (group : List Nat) : List UInt8 :=
  let full := (group ++ List.replicate (4 - group.length) 0).foldl (fun n d => n * 64 + d) 0
  [full / 65536, full / 256 % 256, full % 256].map UInt8.ofNat |>.take (group.length - 1)

/-- The bytes from here on, with the group that has begun and the number of equals
signs that came last. -/
def decodeFrom : List Nat → (fills : Nat) → List Char → Option (List UInt8)
  | group, _, [] => if group.isEmpty then some [] else none
  | group, fills, c :: cs =>
    if c = '=' then
      if 2 ≤ group.length && 4 ≤ group.length + fills + 1 then some (groupBytes group)
      else decodeFrom group (if 2 ≤ group.length then fills + 1 else fills) cs
    else
      match digit? c with
      | none => decodeFrom group fills cs
      | some d =>
        if group.length = 3 then
          (decodeFrom [] 0 cs).map (groupBytes (group ++ [d]) ++ ·)
        else decodeFrom (group ++ [d]) 0 cs

/-- **The bytes that a text stands for**; nothing if the last group is not full. -/
def decode (text : List Char) : Option (List UInt8) := decodeFrom [] 0 text

end CallTree.Yaml.Base64
