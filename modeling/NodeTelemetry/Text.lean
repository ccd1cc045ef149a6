/-!
Texts as lists of characters: blanks, which are the characters with the Unicode property of white
space, numbers written as digits of a base up to a limit, pieces by byte offsets in UTF-8, and parts
between the occurrences of a character.
-/

set_option autoImplicit false

namespace NodeTelemetry.Text

/-! ### Blank characters -/

def isBlank (c : Char) : Bool :=
  let n := c.toNat
  (9 ≤ n && n ≤ 13) || n == 0x20 || n == 0x85 || n == 0xa0 || n == 0x1680
    || (0x2000 ≤ n && n ≤ 0x200a) || n == 0x2028 || n == 0x2029 || n == 0x202f || n == 0x205f
    || n == 0x3000

def trimmed (text : List Char) : List Char :=
  ((text.dropWhile isBlank).reverse.dropWhile isBlank).reverse

/-! ### Digits and numerals -/

def hexDigit? (c : Char) : Option Nat :=
  if '0' ≤ c ∧ c ≤ '9' then some (c.toNat - '0'.toNat)
  else if 'a' ≤ c ∧ c ≤ 'f' then some (c.toNat - 'a'.toNat + 10)
  else if 'A' ≤ c ∧ c ≤ 'F' then some (c.toNat - 'A'.toNat + 10)
  else none

def appendDigit? (base n : Nat) (digit : Char) : Option Nat := do
  let value ← hexDigit? digit
  if value < base then return base * n + value else none

/-- The number that digits of a base stand for, if there is a digit and the number is not above the
limit. -/
def numeral? (base limit : Nat) (digits : List Char) : Option Nat :=
  if digits.isEmpty then none
  else do
    let n ← digits.foldlM (appendDigit? base) 0
    if n ≤ limit then return n else none

def withoutPlus : List Char → List Char
  | '+' :: rest => rest
  | rest => rest

/-! ### Pieces -/

/-- The characters of a text with their offsets, the first of which is given. -/
def withOffsets (offset : Nat) : List Char → List (Nat × Char)
  | [] => []
  | c :: rest => (offset, c) :: withOffsets (offset + c.utf8Size) rest

/-- The characters of a text from an offset on, and before another one if there is one. -/
def slice (start : Nat) (stop : Option Nat) (text : List Char) : List Char :=
  ((withOffsets 0 text).filter fun entry => start ≤ entry.1 && stop.all (entry.1 < ·)).map (·.2)

/-- The parts of a text between the occurrences of a character; at least one, which may be empty. -/
def splitAt (separator : Char) : List Char → List (List Char)
  | [] => [[]]
  | c :: rest =>
    match splitAt separator rest with
    | [] => [[c]]
    | part :: later => if c = separator then [] :: part :: later else (c :: part) :: later

end NodeTelemetry.Text
