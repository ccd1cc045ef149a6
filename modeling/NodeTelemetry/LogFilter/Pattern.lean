import NodeTelemetry.Text
import NodeTelemetry.Text.Alphanumeric

/-!
Regular expressions, as far as to tell which texts are one. Flags say how the rest of a group is read;
by one of them blanks and comments in the pattern do not count. Escapes begin with a backslash. Sets of
characters stand in brackets, may stand in sets themselves, and have three operators, which group to
the left.

The classes and the letter cases of Unicode are not at hand. So a class of words, digits or blanks, the
boundary of a word and a character in either case are refused, unless the flag `u` is cleared: then the
pattern is about bytes, and must not ask for bytes beyond ASCII. A set that is about bytes is not
negated, because it would hold such bytes.

What is nested too deep is refused as well. A character is not deep at all; a repetition, a group and a
set are one deeper than what is in them, and so is a row of parts side by side. A part alone is no row.
-/

set_option autoImplicit false

namespace NodeTelemetry.LogFilter.Pattern

/-! ### Flags -/

structure Flags where
  /-- Letters match in either case. -/
  anyCase : Bool := false
  /-- The pattern is about bytes. -/
  bytes : Bool := false
  /-- Blanks and comments in the pattern do not count. -/
  spaced : Bool := false

namespace Flags

def allowsCharacter (flags : Flags) : Bool := flags.bytes || !flags.anyCase

def change (value : Bool) (flags : Flags) (letter : Char) : Flags :=
  match letter with
  | 'i' => { flags with anyCase := value }
  | 'u' => { flags with bytes := !value }
  | 'x' => { flags with spaced := value }
  | _ => flags

/-- The letters of the flags, and the sign before those that are cleared. -/
def letters : List Char := ['i', 'm', 's', 'U', 'u', 'R', 'x', '-']

/-- The flags with those of some letters changed. No letter is given twice, and the sign stands before
another letter. -/
def update? (flags : Flags) (given : List Char) : Option Flags :=
  if given.all letters.contains && given.eraseDups.length == given.length
      && given.getLast? != some '-' then
    let set := given.takeWhile (· != '-')
    let cleared := given.dropWhile (· != '-')
    some (cleared.foldl (change false) (set.foldl (change true) flags))
  else none

end Flags

/-- Passes over blanks and comments if they do not count. A comment ends with its line. -/
def skipSpace (flags : Flags) (text : List Char) : List Char :=
  if flags.spaced then go false text else text
where
  go (comment : Bool) : List Char → List Char
    | [] => []
    | c :: rest =>
      if comment then go (c != '\n') rest
      else if Text.isBlank c then go false rest
      else if c == '#' then go true rest
      else c :: rest

theorem length_skipSpace_go_le (comment : Bool) (text : List Char) :
    (skipSpace.go comment text).length ≤ text.length := by
  induction text generalizing comment with
  | nil => simp [skipSpace.go]
  | cons c rest ih =>
    unfold skipSpace.go
    repeat' split
    all_goals first
      | exact Nat.le_trans (ih _) (Nat.le_succ _)
      | exact Nat.le_refl _

theorem length_skipSpace_le (flags : Flags) (text : List Char) :
    (skipSpace flags text).length ≤ text.length := by
  unfold skipSpace
  split
  · exact length_skipSpace_go_le false text
  · exact Nat.le_refl _

/-- Passes over blanks if they do not count, and over a sign of a comment between them, but not over
the comment. -/
def skipBlanks (flags : Flags) (text : List Char) : List Char :=
  if flags.spaced then
    match text.dropWhile Text.isBlank with
    | '#' :: rest => rest.dropWhile Text.isBlank
    | rest => rest
  else text

/-! ### Escapes -/

inductive Escape where
  | character (c : Char)
  /-- One of several characters. -/
  | anyOf
  /-- A place between characters. -/
  | place

/-- Takes a number of digits, between which blanks may stand if they do not count. -/
def takeDigits? (flags : Flags) : Nat → List Char → Option (List Char × List Char)
  | 0, text => some ([], text)
  | count + 1, text =>
    match skipSpace flags text with
    | [] => none
    | digit :: rest => (takeDigits? flags count rest).map fun taken => (digit :: taken.1, taken.2)

/-- Reads the number of a character in the given number of hexadecimal digits. -/
def readNumbered? (flags : Flags) (digits largest : Nat) (text : List Char) :
    Option (Escape × List Char) := do
  let (taken, rest) ← takeDigits? flags digits text
  let n ← Text.numeral? 16 largest taken
  if decide n.isValidChar then return (.character (Char.ofNat n), rest) else none

def control? : Char → Option Char
  | 'a' => some '\x07'
  | 't' => some '\t'
  | 'n' => some '\n'
  | 'v' => some '\x0b'
  | 'f' => some '\x0c'
  | 'r' => some '\r'
  | _ => none

def readEscape? (flags : Flags) : List Char → Option (Escape × List Char)
  | [] => none
  | c :: rest =>
    match c with
    | 'x' => readNumbered? flags 2 (if flags.bytes then 0x7f else 0xff) rest
    | 'u' => readNumbered? flags 4 0xffff rest
    | 'U' => readNumbered? flags 8 0x10ffff rest
    | 'd' | 's' | 'w' => if flags.bytes then some (.anyOf, rest) else none
    | 'b' | 'B' | '<' | '>' => if flags.bytes then some (.place, rest) else none
    | 'A' | 'z' => some (.place, rest)
    | _ =>
      if c.toNat < 0x80 && !c.isAlphanum then some (.character c, rest)
      else (control? c).map fun c => (.character c, rest)

/-! ### Nesting -/

def largestDepth : Nat := 250

structure Row where
  size : Nat := 0
  inner : Nat := 0

namespace Row

def add (row : Row) (depth : Nat) : Row := ⟨row.size + 1, max row.inner depth⟩

def deepen (row : Row) (depth : Nat) : Row := { row with inner := max row.inner depth }

def depth (row : Row) : Nat := if row.size ≤ 1 then row.inner else row.inner + 1

end Row

/-! ### Character sets -/

structure CharSet where
  /-- How deep the operands before the last operator are, if there is one. -/
  operand : Option Nat := none
  members : Row := {}

namespace CharSet

def add (set : CharSet) (depth : Nat) : CharSet := { set with members := set.members.add depth }

def depth (set : CharSet) : Nat :=
  match set.operand with
  | none => set.members.depth
  | some operand => max operand set.members.depth + 1

def operate (set : CharSet) : CharSet := { operand := some set.depth }

end CharSet

def classNames : List String :=
  ["alnum", "alpha", "ascii", "blank", "cntrl", "digit", "graph", "lower", "print", "punct", "space",
    "upper", "word", "xdigit"]

/-- A class by its name, behind an opening bracket: what follows it, and whether it is negated. -/
def readNamedClass? : List Char → Option (List Char × Bool)
  | ':' :: text =>
    let negated := text.head? == some '^'
    let text := if negated then text.drop 1 else text
    match text.dropWhile (· != ':') with
    | ':' :: ']' :: rest =>
      if classNames.contains (String.ofList (text.takeWhile (· != ':'))) then some (rest, negated)
      else none
    | _ => none
  | _ => none

def allowsMember (flags : Flags) (c : Char) : Bool :=
  flags.allowsCharacter && !(flags.bytes && 0x80 ≤ c.toNat)

def readDashes (flags : Flags) (set : CharSet) (text : List Char) : CharSet × List Char :=
  let rest := skipSpace flags text
  if rest.head? = some '-' then readDashes flags (set.add 0) rest.tail else (set, rest)
termination_by text.length
decreasing_by
  have front : (skipSpace flags text).head? = some '-' := ‹_›
  have filled : 0 < (skipSpace flags text).length :=
    List.length_pos_iff.2 fun h => by rw [h] at front; cases front
  have shorter := length_skipSpace_le flags text
  simp only [List.length_tail]
  omega

/-- Reads what stands in front in a set: a negation, dashes, and a closing bracket that is meant
itself. -/
def readSetStart? (flags : Flags) (text : List Char) : Option (CharSet × List Char) :=
  let text := skipSpace flags text
  let negated := text.head? == some '^'
  let (set, rest) := readDashes flags {} (if negated then text.drop 1 else text)
  let bracket := set.members.size == 0 && rest.head? == some ']'
  let set := if bracket then set.add 0 else set
  if negated && flags.bytes || set.members.size != 0 && !flags.allowsCharacter then none
  else some (set, if bracket then rest.drop 1 else rest)

def readMember? (flags : Flags) : List Char → Option (Escape × List Char)
  | [] => none
  | '\\' :: rest => do
    let (escape, rest) ← readEscape? flags rest
    match escape with
    | .character c => if allowsMember flags c then return (escape, rest) else none
    | .anyOf => return (escape, rest)
    | .place => none
  | c :: rest => if allowsMember flags c then some (.character c, rest) else none

/-- Reads a member of a set or a range of them. A dash before the end of the set, or before another
dash, makes no range. -/
def readRange? (flags : Flags) (text : List Char) : Option (List Char) := do
  let (first, rest) ← readMember? flags text
  match skipSpace flags rest with
  | '-' :: rest =>
    match skipBlanks flags rest with
    | ']' :: _ | '-' :: _ => return '-' :: rest
    | _ => do
      let (last, rest) ← readMember? flags (skipSpace flags rest)
      match first, last with
      | .character low, .character high => if low ≤ high then return rest else none
      | _, _ => none
  | rest => return rest

/-- Reads a set up to the bracket that closes it, where the sets around it are given, the innermost one
first. Gives how deep the outermost one is. -/
def readSet? (fuel : Nat) (flags : Flags) (set : CharSet) (outer : List CharSet) (text : List Char) :
    Option (Nat × List Char) :=
  match fuel, skipSpace flags text with
  | 0, _ | _, [] => none
  | fuel + 1, ']' :: rest =>
    match outer with
    | [] => some (set.depth + 1, rest)
    | around :: outer => readSet? fuel flags (around.add (set.depth + 1)) outer rest
  | fuel + 1, '[' :: rest =>
    match readNamedClass? rest with
    | some (rest, negated) =>
      if negated && flags.bytes || !flags.allowsCharacter then none
      else readSet? fuel flags (set.add 0) outer rest
    | none => do
      let (inside, rest) ← readSetStart? flags rest
      readSet? fuel flags inside (set :: outer) rest
  | fuel + 1, '&' :: '&' :: rest | fuel + 1, '-' :: '-' :: rest | fuel + 1, '~' :: '~' :: rest =>
    readSet? fuel flags set.operate outer rest
  | fuel + 1, text => do readSet? fuel flags (set.add 0) outer (← readRange? flags text)

/-! ### Patterns -/

/-- What was read of a group, or of the pattern outside of groups. -/
structure Level where
  flags : Flags := {}
  alternatives : Row := {}
  parts : Row := {}
  last : Option Nat := none

namespace Level

def add (level : Level) (depth : Nat) : Level :=
  { level with parts := level.parts.add depth, last := some depth }

def repeat? (level : Level) : Option Level :=
  level.last.map fun depth =>
    { level with parts := level.parts.deepen (depth + 1), last := some (depth + 1) }

/-- The level behind a change of its flags, which is a part that cannot be repeated. -/
def change (level : Level) (flags : Flags) : Level :=
  { level with flags, parts := level.parts.add 0, last := none }

def alternate (level : Level) : Level :=
  { level with alternatives := level.alternatives.add level.parts.depth, parts := {}, last := none }

def depth (level : Level) : Nat := (level.alternatives.add level.parts.depth).depth

end Level

structure Reading where
  level : Level := {}
  /-- The levels around the group of the place, the innermost one first. -/
  outer : List Level := []
  names : List (List Char) := []

namespace Reading

def flags (r : Reading) : Flags := r.level.flags

def behind (r : Reading) (depth : Nat) (rest : List Char) : Option (Reading × List Char) :=
  some ({ r with level := r.level.add depth }, rest)

def behindCharacter? (r : Reading) (rest : List Char) : Option (Reading × List Char) :=
  if r.flags.allowsCharacter then r.behind 0 rest else none

def enter (r : Reading) (flags : Flags) (rest : List Char) : Option (Reading × List Char) :=
  some ({ r with level := { flags }, outer := r.level :: r.outer }, rest)

def leave? (r : Reading) (rest : List Char) : Option (Reading × List Char) :=
  match r.outer with
  | [] => none
  | around :: outer => some ({ r with level := around.add (r.level.depth + 1), outer }, rest)

def isGroupName : List Char → Bool
  | [] => false
  | first :: others =>
    (first == '_' || Text.isAlphabetic first) &&
      others.all fun c => ['_', '.', '[', ']'].contains c || Text.isAlphanumeric c

def enterNamed? (r : Reading) (text : List Char) : Option (Reading × List Char) :=
  let name := text.takeWhile (· != '>')
  match text.dropWhile (· != '>') with
  | [] => none
  | _ :: rest =>
    if isGroupName name && !r.names.contains name then
      { r with names := name :: r.names }.enter r.flags rest
    else none

def readFlags? (r : Reading) (text : List Char) : Option (Reading × List Char) := do
  let given := text.takeWhile fun c => c != ':' && c != ')'
  let flags ← r.flags.update? given
  match text.drop given.length with
  | ':' :: rest => r.enter flags rest
  | ')' :: rest =>
    if given.isEmpty then none else return ({ r with level := r.level.change flags }, rest)
  | _ => none

/-- Reads what stands behind the parenthesis in front of a group. Looking ahead and back is not
possible. -/
def openGroup? (r : Reading) (text : List Char) : Option (Reading × List Char) :=
  match skipSpace r.flags text with
  | '?' :: '=' :: _ | '?' :: '!' :: _ | '?' :: '<' :: '=' :: _ | '?' :: '<' :: '!' :: _ => none
  | '?' :: 'P' :: '<' :: rest | '?' :: '<' :: rest => r.enterNamed? rest
  | '?' :: rest => r.readFlags? rest
  | rest => r.enter r.flags rest

def step? (r : Reading) (c : Char) (rest : List Char) : Option (Reading × List Char) :=
  match c with
  | '(' => r.openGroup? rest
  | ')' => r.leave? rest
  | '|' => some ({ r with level := r.level.alternate }, rest)
  | '[' => do
    let (set, rest) ← readSetStart? r.flags rest
    let (depth, rest) ← readSet? (rest.length + 1) r.flags set [] rest
    r.behind depth rest
  | '?' | '*' | '+' => do
    let level ← r.level.repeat?
    return ({ r with level }, if rest.head? == some '?' then rest.drop 1 else rest)
  | '\x7b' => none
  | '.' => if r.flags.bytes then none else r.behind 0 rest
  | '^' | '$' => r.behind 0 rest
  | '\\' => do
    match ← readEscape? r.flags rest with
    | (.character _, rest) => r.behindCharacter? rest
    | (_, rest) => r.behind 0 rest
  | _ => r.behindCharacter? rest

def ends (r : Reading) : Bool := r.outer.isEmpty && r.level.depth ≤ largestDepth

end Reading

def continues (fuel : Nat) (r : Reading) (text : List Char) : Bool :=
  match fuel, skipSpace r.flags text with
  | 0, _ => false
  | _, [] => r.ends
  | fuel + 1, c :: rest =>
    match r.step? c rest with
    | some (r, rest) => continues fuel r rest
    | none => false

def isPattern (text : List Char) : Bool := continues (text.length + 1) {} text

end NodeTelemetry.LogFilter.Pattern
