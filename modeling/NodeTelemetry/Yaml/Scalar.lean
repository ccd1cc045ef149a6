import NodeTelemetry.Text

/-!
The characters of a YAML text with their places, and the scalars that they make: plain ones, and those
in single or double quotes. A scalar may go over several lines; one line break within it stands for a
space, and more of them for one break less.
-/

set_option autoImplicit false

namespace NodeTelemetry.Yaml

/-! ### Characters and their places -/

/-- A character and the place where it stands, counted from zero. -/
structure Cell where
  char : Char
  line : Nat
  /-- How many characters stand before it on its line. -/
  column : Nat
  /-- How many bytes those are in UTF-8. -/
  offset : Nat
  deriving Repr, DecidableEq

def isBlank (c : Char) : Bool := c == ' ' || c == '\t'

def isBreak (c : Char) : Bool := c == '\n' || c == '\u2028' || c == '\u2029'

def isPrintable (c : Char) : Bool :=
  let n := c.toNat
  n == 0x09 || n == 0x0a || n == 0x0d || n == 0x85 || (0x20 ≤ n && n ≤ 0x7e)
    || (0xa0 ≤ n && n ≤ 0xfffd) || 0x10000 ≤ n

def unifyBreaks : List Char → List Char
  | [] => []
  | '\r' :: '\n' :: rest => '\n' :: unifyBreaks rest
  | '\r' :: rest => '\n' :: unifyBreaks rest
  | '\u0085' :: rest => '\n' :: unifyBreaks rest
  | c :: rest => c :: unifyBreaks rest

/-- Gives the characters of a text their places, the first of which is given. -/
def place (line column offset : Nat) : List Char → List Cell
  | [] => []
  | c :: rest =>
    ⟨c, line, column, offset⟩ ::
      if isBreak c then place (line + 1) 0 0 rest
      else place line (column + 1) (offset + c.utf8Size) rest

/-- The cells of a text, or none if it holds a character that may not occur. -/
def cells? (text : String) : Option (List Cell) :=
  if text.toList.all isPrintable then some (place 0 0 0 (unifyBreaks text.toList)) else none

def atGap : List Cell → Bool
  | [] => true
  | cell :: _ => isBlank cell.char || isBreak cell.char

/-- Decides whether a line begins with three times the same character and nothing behind that belongs
to it. -/
def isMarker (mark : Char) : List Cell → Bool
  | a :: b :: c :: rest =>
    a.column == 0 && a.char == mark && b.char == mark && c.char == mark && atGap rest
  | _ => false

def atMarker (cells : List Cell) : Bool := isMarker '-' cells || isMarker '.' cells

/-! ### Scalars -/

open Text (hexDigit?)

/-- The space between two pieces of a scalar, with its characters from the last to the first. -/
inductive Gap where
  | within (blanks : List Char)
  /-- A first line break, none if it was escaped, and the breaks after it. -/
  | broken (first : Option Char) (later : List Char)

namespace Gap

def nothing : Gap := .within []

def isBroken : Gap → Bool
  | .within _ => false
  | .broken _ _ => true

def blank (c : Char) : Gap → Gap
  | .within blanks => .within (c :: blanks)
  | .broken first later => .broken first later

def lineBreak (c : Char) : Gap → Gap
  | .within _ => .broken (some c) []
  | .broken first later => .broken first (c :: later)

/-- What the space stands for, from the last character to the first. -/
def folded : Gap → List Char
  | .within blanks => blanks
  | .broken (some '\n') [] => [' ']
  | .broken (some '\n') later => later
  | .broken first later => later ++ first.toList

end Gap

structure PlainRead where
  text : String
  /-- Whether a line break follows. -/
  broken : Bool
  rest : List Cell

def isBracketing (c : Char) : Bool :=
  c == ',' || c == '[' || c == ']' || c == '{' || c == '}'

def startsPlain (bracketed : Bool) : List Cell → Bool
  | [] => false
  | cell :: rest =>
    match cell.char with
    | '-' => !atGap rest
    | '?' | ':' => !bracketed && !atGap rest
    | c => !(isBlank c || isBreak c || isBracketing c
        || ['#', '&', '*', '!', '|', '>', '\'', '"', '%', '@', '\x60'].contains c)

def endsPlain (bracketed : Bool) (c : Char) (rest : List Cell) : Bool :=
  (c == ':' && atGap rest) || (bracketed && isBracketing c)

/-- Decides whether a colon inside brackets stands before a character that a value cannot begin with. -/
def isStrayColon (c : Char) (rest : List Cell) : Bool :=
  c == ':' && match rest with
    | next :: _ => isBracketing next.char || next.char == '?'
    | [] => false

/-- Reads a plain scalar whose further lines begin at the given column or behind it. Inside brackets
they may begin anywhere, but with no tab before that column. -/
def readPlain? (bracketed : Bool) (least : Nat) (cells : List Cell) : Option PlainRead :=
  go .nothing [] cells
where
  /-- Goes on after a text, given backwards, and the space behind it. -/
  go (gap : Gap) (text : List Char) : List Cell → Option PlainRead
    | [] => some ⟨String.ofList text.reverse, gap.isBroken, []⟩
    | cell :: rest =>
      let c := cell.char
      if isBlank c then
        if gap.isBroken && c == '\t' && cell.column < least then none
        else go (gap.blank c) text rest
      else if isBreak c then go (gap.lineBreak c) text rest
      else if (gap.isBroken && !bracketed && cell.column < least) || (c == '#' && atSpace gap)
          || atMarker (cell :: rest) then
        some ⟨String.ofList text.reverse, gap.isBroken, cell :: rest⟩
      else if bracketed && isStrayColon c rest then none
      else if endsPlain bracketed c rest then
        some ⟨String.ofList text.reverse, gap.isBroken, cell :: rest⟩
      else go .nothing (c :: (gap.folded ++ text)) rest
  atSpace : Gap → Bool
    | .within blanks => !blanks.isEmpty
    | .broken _ _ => true

/-- Reads a scalar behind its opening single quote. A quote in it is written twice. -/
def readSingleQuoted? (cells : List Cell) : Option (String × List Cell) :=
  go false .nothing [] cells
where
  /-- Goes on after a text, given backwards, and either a quote or the space behind the text. -/
  go (quote : Bool) (gap : Gap) (text : List Char) : List Cell → Option (String × List Cell)
    | [] => if quote then some (String.ofList text.reverse, []) else none
    | cell :: rest =>
      let c := cell.char
      if quote then
        if c == '\'' then go false .nothing ('\'' :: text) rest
        else some (String.ofList text.reverse, cell :: rest)
      else if isBlank c then go false (gap.blank c) text rest
      else if isBreak c then go false (gap.lineBreak c) text rest
      else if atMarker (cell :: rest) then none
      else if c == '\'' then go true .nothing (gap.folded ++ text) rest
      else go false .nothing (c :: (gap.folded ++ text)) rest

def letterEscape? (letter : Char) : Option Char :=
  match letter with
  | '0' => some '\x00'
  | 'a' => some '\x07'
  | 'b' => some '\x08'
  | 't' | '\t' => some '\t'
  | 'n' => some '\n'
  | 'v' => some '\x0b'
  | 'f' => some '\x0c'
  | 'r' => some '\r'
  | 'e' => some '\x1b'
  | ' ' => some ' '
  | '"' => some '"'
  | '/' => some '/'
  | '\\' => some '\\'
  | 'N' => some '\u0085'
  | '_' => some '\u00a0'
  | 'L' => some '\u2028'
  | 'P' => some '\u2029'
  | _ => none

/-- How many hexadecimal digits follow the letter of an escape by number. -/
def numberEscape? (letter : Char) : Option Nat :=
  match letter with
  | 'x' => some 2
  | 'u' => some 4
  | 'U' => some 8
  | _ => none

inductive QuotedPlace where
  | open
  | escape
  /-- Within the number of an escape: the digits to come, and the value of those read. -/
  | number (digits value : Nat)

def character? (n : Nat) : Option Char :=
  if n.isValidChar then some (Char.ofNat n) else none

/-- Reads a scalar behind its opening double quote. A backslash at the end of a line joins the next one
to it. -/
def readDoubleQuoted? (cells : List Cell) : Option (String × List Cell) :=
  go .open .nothing [] cells
where
  /-- Goes on after a text, given backwards, and the space behind it. -/
  go (place : QuotedPlace) (gap : Gap) (text : List Char) :
      List Cell → Option (String × List Cell)
    | [] => none
    | cell :: rest =>
      let c := cell.char
      match place with
      | .open =>
        if isBlank c then go .open (gap.blank c) text rest
        else if isBreak c then go .open (gap.lineBreak c) text rest
        else if atMarker (cell :: rest) then none
        else
          let before := gap.folded ++ text
          if c == '"' then some (String.ofList before.reverse, rest)
          else if c == '\\' then go .escape .nothing before rest
          else go .open .nothing (c :: before) rest
      | .escape =>
        if isBreak c then go .open (.broken none []) text rest
        else
          match letterEscape? c, numberEscape? c with
          | some meant, _ => go .open .nothing (meant :: text) rest
          | _, some digits => go (.number digits 0) .nothing text rest
          | _, _ => none
      | .number digits value =>
        match hexDigit? c with
        | none => none
        | some digit =>
          if digits = 1 then
            match character? (16 * value + digit) with
            | some meant => go .open .nothing (meant :: text) rest
            | none => none
          else go (.number (digits - 1) (16 * value + digit)) .nothing text rest

end NodeTelemetry.Yaml
