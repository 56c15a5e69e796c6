/-!
# Numbers in a source

How far a number goes. A run of decimal digits may hold single underscores, one
of them even at its end; in the other bases an underscore stands before a digit.
A letter may follow that marks a long or an imaginary number. Both notations are
tried, as an integer and with a fraction or an exponent, and the longer one
counts.
-/

namespace CallTree.Syntax.Number

/-- Whether a character is a hexadecimal digit. -/
def isHex (c : Char) : Bool :=
  c.isDigit || ('a' ≤ c && c ≤ 'f') || ('A' ≤ c && c ≤ 'F')

/-- The length of a run of decimal digits. `open'` tells that a digit was just
read, so that an underscore may follow. -/
def decimals (open' : Bool) : List Char → Nat
  | [] => 0
  | c :: cs =>
    if c.isDigit then decimals true cs + 1
    else if c = '_' && open' then decimals false cs + 1
    else 0

/-- The length of a run of digits of another base. -/
def digits (isDigit : Char → Bool) : List Char → Nat
  | [] => 0
  | c :: cs =>
    if isDigit c then digits isDigit cs + 1
    else if c = '_' && (cs.head?.any isDigit) then digits isDigit cs + 1
    else 0

/-- One for a character of a set at the front, else nothing. -/
def letter (letters : String) (cs : List Char) : Nat :=
  if cs.head?.any letters.toList.contains then 1 else 0

/-- The length of an integer with a base before it, or nothing. -/
def based (cs : List Char) : Nat :=
  let run (isDigit : Char → Bool) (rest : List Char) : Nat :=
    match digits isDigit rest with
    | 0 => 0
    | n => 2 + n + letter "lL" (rest.drop n)
  match cs with
  | '0' :: x :: rest =>
    if x = 'x' || x = 'X' then run isHex rest
    else if x = 'o' || x = 'O' then run (fun c => '0' ≤ c && c ≤ '7') rest
    else if x = 'b' || x = 'B' then run (fun c => c = '0' || c = '1') rest
    else 0
  | _ => 0

/-- The length of a decimal integer, or nothing. -/
def decimal (cs : List Char) : Nat :=
  match decimals false cs with
  | 0 => 0
  | n => n + letter "lLjJ" (cs.drop n)

/-- The length of an exponent, or nothing. -/
def exponent (cs : List Char) : Nat :=
  match letter "eE" cs with
  | 0 => 0
  | _ =>
    let sign := letter "+-" (cs.drop 1)
    match decimals false (cs.drop (1 + sign)) with
    | 0 => 0
    | n => 1 + sign + n

/-- The length of a number with a fraction or an exponent, or nothing. -/
def fractional (cs : List Char) : Nat :=
  let whole := decimals false cs
  let rest := cs.drop whole
  let fraction :=
    match rest with
    | '.' :: more => 1 + decimals false more
    | _ => 0
  let power := exponent (rest.drop fraction)
  if whole + fraction ≤ 1 && whole = 0 || fraction + power = 0 then 0
  else whole + fraction + power + letter "jJ" (rest.drop (fraction + power))

/-- **The length of the number that begins here**, and whether it has a fraction
or an exponent. -/
def length (cs : List Char) : Nat × Bool :=
  let integer := max (based cs) (decimal cs)
  let float := fractional cs
  if integer < float then (float, true) else (integer, false)

end CallTree.Syntax.Number
