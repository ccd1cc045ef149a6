import NodeTelemetry.Yaml.Scalar

/-!
The tokens of a YAML text: scalars, indicators, and the begins and ends of block collections, which the
text shows by its indentation alone. Two things cannot be told where they begin. A block collection
ends where a line begins before its column, so the columns of the open ones are kept. A key is one only
by the colon behind it, so the place where it may have begun is kept, and its tokens are put there when
the colon comes.

Directives, tags, anchors, aliases and block scalars are not taken.
-/

set_option autoImplicit false

namespace NodeTelemetry.Yaml

inductive Token where
  | scalar (text : String) (plain : Bool)
  | blockSequence
  | blockMapping
  | blockEnd
  | sequenceOpen
  | sequenceClose
  | mappingOpen
  | mappingClose
  /-- A comma between the entries of a bracketed collection. -/
  | comma
  | item
  /-- A key follows, which a question mark announces or the colon behind it tells. -/
  | key
  | value
  | documentStart
  | documentEnd
  deriving Repr, DecidableEq

/-! ### Splitting a text -/

structure Candidate where
  line : Nat
  column : Nat
  /-- How many bytes stand before it on its line. -/
  offset : Nat
  /-- How many tokens stand before it. -/
  position : Nat
  /-- Whether nothing but a key may begin there. -/
  required : Bool

def longestKey : Nat := 1024

/-- Decides whether a key that began at a candidate may end at a cell: on the same line, not too far
behind. -/
def Candidate.reaches (candidate : Candidate) (cell : Cell) : Bool :=
  cell.line == candidate.line && cell.offset ≤ candidate.offset + longestKey

structure Lexer where
  cells : List Cell
  tokens : List Token := []
  /-- The columns of the block collections around the place, the innermost one first. -/
  columns : List Nat := []
  /-- Whether a key, or an item of a block sequence, may begin here. -/
  fresh : Bool := true
  /-- Where a key may have begun within the brackets around the place. -/
  candidate : Option Candidate := none
  /-- Where keys may have begun outside of each of the brackets, the innermost ones first. -/
  outer : List (Option Candidate) := []

namespace Lexer

def bracketed (s : Lexer) : Bool := !s.outer.isEmpty

def least (s : Lexer) : Nat :=
  match s.columns with
  | [] => 0
  | column :: _ => column + 1

/-- Passes over blanks, line breaks and comments. Outside brackets a new line makes a key possible, and
a tab is no blank where a key is. A byte order mark at the beginning of a line takes up a column. -/
def skipSpace (s : Lexer) : Lexer :=
  go s.fresh false s.cells
where
  go (fresh comment : Bool) : List Cell → Lexer
    | [] => { s with fresh, cells := [] }
    | cell :: rest =>
      if isBreak cell.char then go (fresh || !s.bracketed) false rest
      else if comment || cell.char == ' ' || (cell.char == '\t' && (s.bracketed || !fresh)) then
        go fresh comment rest
      else if cell.char == '#' then go fresh true rest
      else if cell.char == '\ufeff' && cell.column == 0 then go fresh false rest
      else { s with fresh, cells := cell :: rest }

def insert (s : Lexer) (position : Nat) (token : Token) : Lexer :=
  { s with tokens := s.tokens.insertIdx (s.tokens.length - position) token }

/-- Begins a block collection at a column, unless it has begun already; brackets hold none. -/
def openBlock (s : Lexer) (column position : Nat) (token : Token) : Lexer :=
  if s.bracketed || column < s.least then s
  else { s.insert position token with columns := column :: s.columns }

def closeBlocks (s : Lexer) (stays : Nat → Bool) : Lexer :=
  if s.bracketed then s
  else
    let closed := s.columns.takeWhile (!stays ·)
    { s with
      columns := s.columns.drop closed.length
      tokens := closed.map (fun _ => .blockEnd) ++ s.tokens }

def release? : Option Candidate → Option (Option Candidate)
  | none => some none
  | some candidate => if candidate.required then none else some none

def expire? (s : Lexer) (cell : Cell) : Option Lexer := do
  let candidate ← kept? s.candidate
  let outer ← s.outer.mapM kept?
  return { s with candidate, outer }
where
  kept? (candidate : Option Candidate) : Option (Option Candidate) :=
    if candidate.any (·.reaches cell) then some candidate else release? candidate

def settle? (s : Lexer) : Option Lexer := do
  let candidate ← release? s.candidate
  return { s with candidate }

def mark? (s : Lexer) (cell : Cell) : Option Lexer :=
  if s.fresh then do
    let s ← s.settle?
    let required := !s.bracketed && s.columns.head? == some cell.column
    let position := s.tokens.length
    return { s with candidate := some ⟨cell.line, cell.column, cell.offset, position, required⟩ }
  else some s

def emit (s : Lexer) (token : Token) (fresh : Bool) (rest : List Cell) : Lexer :=
  { s with tokens := token :: s.tokens, fresh, cells := rest }

def bracket? (s : Lexer) (token : Token) (cell : Cell) (rest : List Cell) : Option Lexer := do
  let s ← s.mark? cell
  return { s.emit token true rest with candidate := none, outer := s.candidate :: s.outer }

def unbracket? (s : Lexer) (token : Token) (rest : List Cell) : Option Lexer := do
  let s ← s.settle?
  return { s.emit token false rest with candidate := s.outer.headD none, outer := s.outer.tail }

def announce? (s : Lexer) (collection token : Token) (fresh : Bool) (cell : Cell)
    (rest : List Cell) : Option Lexer :=
  if s.bracketed || s.fresh then do
    let s ← (s.openBlock cell.column s.tokens.length collection).settle?
    return s.emit token fresh rest
  else none

/-- Reads a colon. What began at the candidate is a key; without one a key is missing. -/
def colon? (s : Lexer) (cell : Cell) (rest : List Cell) : Option Lexer :=
  match s.candidate with
  | some candidate =>
    let keyed := (s.insert candidate.position .key).openBlock candidate.column candidate.position
      .blockMapping
    some ({ keyed with candidate := none }.emit .value false rest)
  | none => s.announce? .blockMapping .value (!s.bracketed) cell rest

def quoted? (s : Lexer) (cell : Cell) (read : Option (String × List Cell)) : Option Lexer := do
  let s ← s.mark? cell
  let (text, rest) ← read
  return s.emit (.scalar text false) false rest

def plain? (s : Lexer) (cell : Cell) (rest : List Cell) : Option Lexer := do
  let s ← s.mark? cell
  let read ← readPlain? s.bracketed s.least (cell :: rest)
  return s.emit (.scalar read.text true) read.broken read.rest

def marker? (s : Lexer) (token : Token) (rest : List Cell) : Option Lexer := do
  let s ← (s.closeBlocks fun _ => false).settle?
  return s.emit token false (rest.drop 2)

def step? (s : Lexer) (cell : Cell) (rest : List Cell) : Option Lexer := do
  let s := (← s.expire? cell).closeBlocks (· ≤ cell.column)
  if isMarker '-' (cell :: rest) then s.marker? .documentStart rest
  else if isMarker '.' (cell :: rest) then s.marker? .documentEnd rest
  else
    match cell.char with
    | '[' => s.bracket? .sequenceOpen cell rest
    | ']' => s.unbracket? .sequenceClose rest
    | '\x7b' => s.bracket? .mappingOpen cell rest
    | '\x7d' => s.unbracket? .mappingClose rest
    | ',' => return (← s.settle?).emit .comma true rest
    | '"' => s.quoted? cell (readDoubleQuoted? rest)
    | '\'' => s.quoted? cell (readSingleQuoted? rest)
    | c =>
      if c == '-' && atGap rest then s.announce? .blockSequence .item true cell rest
      else if c == '?' && (s.bracketed || atGap rest) then
        s.announce? .blockMapping .key (!s.bracketed) cell rest
      else if c == ':' && (s.bracketed || atGap rest) then s.colon? cell rest
      else if startsPlain s.bracketed (cell :: rest) then s.plain? cell rest
      else none

/-- The tokens of the whole text, where no more than the given number of them follow. -/
def tokens? (fuel : Nat) (s : Lexer) : Option (List Token) :=
  match fuel, s.skipSpace with
  | 0, _ => none
  | fuel + 1, s =>
    match s.cells with
    | [] => do
      let s ← (s.closeBlocks fun _ => false).settle?
      return s.tokens.reverse
    | cell :: rest => (s.step? cell rest).bind (tokens? fuel)

end Lexer

/-- The tokens of a text. Each of them takes at least one cell, so their number is bounded. -/
def Token.ofText? (text : String) : Option (List Token) := do
  let cells ← cells? text
  Lexer.tokens? (cells.length + 1) { cells }

end NodeTelemetry.Yaml
