import NodeTelemetry.Yaml.Token

/-!
The value of a YAML document: the tokens of the text put together to mappings, sequences and scalars.
Reading is by descent with a bound on its depth, which the number of tokens provides.
-/

set_option autoImplicit false

namespace NodeTelemetry.Yaml

inductive Node where
  /-- A text; whether it stood without quotes decides if it can be a number or nothing at all. -/
  | scalar (text : String) (plain : Bool)
  | mapping (entries : List (Node × Node))
  | sequence (items : List Node)
  deriving Repr, Inhabited

namespace Node

def empty : Node := .scalar "" true

def isEmpty : Node → Bool
  | .scalar text plain => plain && text.isEmpty
  | _ => false

def text? : Node → Option String
  | .scalar text _ => some text
  | _ => none

end Node

/-! ### Reading a document -/

inductive Place where
  /-- Inside brackets, where block collections cannot stand. -/
  | inline
  /-- Behind a dash, or in front of a document. -/
  | item
  /-- A key or a value of a block mapping, where a block sequence need not be indented. -/
  | part
  deriving DecidableEq

mutual

def readNode? (fuel : Nat) (place : Place) (tokens : List Token) : Option (Node × List Token) :=
  match fuel, tokens with
  | 0, _ | _, [] => none
  | fuel + 1, token :: rest =>
    match token with
    | .scalar text plain => some (.scalar text plain, rest)
    | .sequenceOpen => (readBracketedItems? fuel rest).map fun read => (.sequence read.1, read.2)
    | .mappingOpen => (readBracketedEntries? fuel rest).map fun read => (.mapping read.1, read.2)
    | .blockSequence =>
      if place = .inline then none
      else (readItems? fuel rest).map fun read => (.sequence read.1, read.2)
    | .blockMapping =>
      if place = .inline then none
      else (readEntries? fuel rest).map fun read => (.mapping read.1, read.2)
    | .item =>
      if place = .part then (readDashes? fuel tokens).map fun read => (.sequence read.1, read.2)
      else none
    | _ => none
termination_by structural fuel

def readUnless? (fuel : Nat) (ends : List Token) (place : Place) (tokens : List Token) :
    Option (Node × List Token) :=
  match fuel with
  | 0 => none
  | fuel + 1 =>
    if tokens.head?.any (ends.contains ·) then some (.empty, tokens) else readNode? fuel place tokens
termination_by structural fuel

/-- Reads the value behind a key, which is missing without a colon, or before certain tokens. -/
def readValue? (fuel : Nat) (ends : List Token) (place : Place) (tokens : List Token) :
    Option (Node × List Token) :=
  match fuel, tokens with
  | 0, _ => none
  | fuel + 1, .value :: rest => readUnless? fuel ends place rest
  | _, other => some (.empty, other)
termination_by structural fuel

def readItems? (fuel : Nat) (tokens : List Token) : Option (List Node × List Token) :=
  match fuel, tokens with
  | fuel + 1, .item :: rest => do
    let (item, rest) ← readUnless? fuel [.item, .blockEnd] .item rest
    let (items, rest) ← readItems? fuel rest
    return (item :: items, rest)
  | _, .blockEnd :: rest => some ([], rest)
  | _, _ => none
termination_by structural fuel

def readDashes? (fuel : Nat) (tokens : List Token) : Option (List Node × List Token) :=
  match fuel, tokens with
  | 0, _ => none
  | fuel + 1, .item :: rest => do
    let (item, rest) ← readUnless? fuel [.item, .key, .value, .blockEnd] .item rest
    let (items, rest) ← readDashes? fuel rest
    return (item :: items, rest)
  | _, other => some ([], other)
termination_by structural fuel

def readEntries? (fuel : Nat) (tokens : List Token) :
    Option (List (Node × Node) × List Token) :=
  match fuel, tokens with
  | fuel + 1, .key :: rest => do
    let ends : List Token := [.key, .value, .blockEnd]
    let (key, rest) ← readUnless? fuel ends .part rest
    let (value, rest) ← readValue? fuel ends .part rest
    let (entries, rest) ← readEntries? fuel rest
    return ((key, value) :: entries, rest)
  | _, .blockEnd :: rest => some ([], rest)
  | _, _ => none
termination_by structural fuel

def readBracketedItems? (fuel : Nat) (tokens : List Token) : Option (List Node × List Token) :=
  match fuel, tokens with
  | _, .sequenceClose :: rest => some ([], rest)
  | 0, _ => none
  | fuel + 1, tokens => do
    match ← readBracketedItem? fuel tokens with
    | (item, .sequenceClose :: rest) => return ([item], rest)
    | (item, .comma :: rest) =>
      let (items, rest) ← readBracketedItems? fuel rest
      return (item :: items, rest)
    | _ => none
termination_by structural fuel

/-- Reads an item of a bracketed sequence. A key makes it a mapping of one entry. Where the key is
missing, the token in its place is passed over. -/
def readBracketedItem? (fuel : Nat) (tokens : List Token) : Option (Node × List Token) :=
  match fuel, tokens with
  | 0, _ => none
  | fuel + 1, .key :: rest => do
    let ends : List Token := [.comma, .sequenceClose]
    let (key, rest) ← match rest with
      | .value :: rest | .comma :: rest | .sequenceClose :: rest => some (.empty, rest)
      | rest => readNode? fuel .inline rest
    let (value, rest) ← readValue? fuel ends .inline rest
    return (.mapping [(key, value)], rest)
  | fuel + 1, tokens => readNode? fuel .inline tokens
termination_by structural fuel

def readBracketedEntries? (fuel : Nat) (tokens : List Token) :
    Option (List (Node × Node) × List Token) :=
  match fuel, tokens with
  | _, .mappingClose :: rest => some ([], rest)
  | 0, _ => none
  | fuel + 1, tokens => do
    match ← readBracketedEntry? fuel tokens with
    | (entry, .mappingClose :: rest) => return ([entry], rest)
    | (entry, .comma :: rest) =>
      let (entries, rest) ← readBracketedEntries? fuel rest
      return (entry :: entries, rest)
    | _ => none
termination_by structural fuel

/-- Reads an entry of a bracketed mapping. A key without a colon has no value. -/
def readBracketedEntry? (fuel : Nat) (tokens : List Token) :
    Option ((Node × Node) × List Token) :=
  match fuel, tokens with
  | 0, _ => none
  | fuel + 1, .key :: rest => do
    let (key, rest) ← readUnless? fuel [.value, .comma, .mappingClose] .inline rest
    let (value, rest) ← readValue? fuel [.comma, .mappingClose] .inline rest
    return ((key, value), rest)
  | fuel + 1, tokens => do
    let (key, rest) ← readNode? fuel .inline tokens
    return ((key, .empty), rest)
termination_by structural fuel

end

def readDocument? (tokens : List Token) : Option (Node × List Token) :=
  let fuel := 4 * tokens.length + 4
  match tokens with
  | [] | [.documentStart] => some (.empty, [])
  | .documentStart :: rest => readUnless? fuel [.documentStart, .documentEnd] .item rest
  | tokens => readNode? fuel .item tokens

/-- The value of a text that holds one document, or none, which is an empty one. The document may begin
with a line of three dashes and end with a line of three dots. -/
def Node.ofText? (text : String) : Option Node := do
  let (node, rest) ← readDocument? (← Token.ofText? text)
  if rest.all (· == .documentEnd) then return node else none

end NodeTelemetry.Yaml
