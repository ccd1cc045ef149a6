import NodeTelemetry.LogFilter.Pattern
import NodeTelemetry.Text

/-!
Filters of the log: directives with commas between them, each of which names a target, a span with
fields, a level, or several of these, as in `info` or `server[request\x7bid\x7d]=debug`.

The blanks around a directive are passed over, but they count when a field or a level is taken out of
it: offsets from its first character on are used from the beginning of the part between the commas. So
of ` a=info` the level would be `=info`, which is none.
-/

set_option autoImplicit false

namespace NodeTelemetry.LogFilter

def levelNames : List String := ["off", "error", "warn", "info", "debug", "trace"]

/-- Decides whether a text is a level: a name in letters of either case, a number up to five, or
nothing. -/
def isLevel (text : List Char) : Bool :=
  text.isEmpty || levelNames.contains (String.ofList (text.map Char.toLower))
    || (Text.numeral? 10 5 (Text.withoutPlus text)).isSome

def withoutSign : List Char → List Char
  | '+' :: rest | '-' :: rest => rest
  | text => text

def isExponent : List Char → Bool
  | [] => true
  | mark :: rest =>
    let digits := withoutSign rest
    mark.toLower == 'e' && !digits.isEmpty && digits.all Char.isDigit

/-- Decides whether a text is a number, an infinity, or the name of what is no number. -/
def isNumber (text : List Char) : Bool :=
  let unsigned := withoutSign text
  let whole := unsigned.takeWhile Char.isDigit
  let rest := unsigned.drop whole.length
  let places := if rest.head? == some '.' then (rest.drop 1).takeWhile Char.isDigit else []
  let rest := if rest.head? == some '.' then rest.drop (places.length + 1) else rest
  ["inf", "infinity", "nan"].contains (String.ofList (unsigned.map Char.toLower))
    || (!(whole ++ places).isEmpty && isExponent rest)

def isValue (text : List Char) : Bool := isNumber text || Pattern.isPattern text

/-- Decides whether a text is a field: a name, and possibly a value behind an equals sign. What stands
behind another equals sign does not count. -/
def isField (text : List Char) : Bool :=
  !text.isEmpty && match Text.splitAt '=' text with
    | _ :: value :: _ => isValue value
    | _ => true

inductive Place where
  | start
  | name
  | span
  | field (offset : Nat)
  | fields
  | target
  /-- In a level behind an equals sign, which begins at an offset. -/
  | level (offset : Nat)

def opensName (c : Char) : Bool := c == '-' || c == ':' || c == '_' || Text.isAlphanumeric c

/-- The place behind a character and its offset in a directive, which was found in the given part. -/
def next? (part : List Char) : Place → Nat × Char → Option Place
  | .start, (_, '[') => some .span
  | .start, (_, c) => if opensName c then some .name else none
  | .name, (offset, '=') => some (.level (offset + 1))
  | .name, (_, '[') => some .span
  | .name, _ => some .name
  | .span, (_, ']') => some .target
  | .span, (offset, '\x7b') => some (.field (offset + 1))
  | .span, _ => some .span
  | .field start, (offset, '\x7d') =>
    if isField (Text.slice start (some offset) part) then some .fields else none
  | .field start, _ => some (.field start)
  | .fields, (_, ']') => some .target
  | .fields, _ => none
  | .target, (offset, '=') => some (.level (offset + 1))
  | .target, _ => none
  | .level start, _ => some (.level start)

def ends (part : List Char) : Place → Bool
  | .name | .target => true
  | .level start => isLevel (Text.slice start none part)
  | .start | .span | .field _ | .fields => false

def isDirective (part : List Char) : Bool :=
  match (Text.withOffsets 0 (Text.trimmed part)).foldlM (next? part) .start with
  | some place => ends part place
  | none => false

/-- Decides whether a text is a filter. Empty parts do not count. -/
def isFilter (text : String) : Bool :=
  (Text.splitAt ',' text.toList).all fun part => part.isEmpty || isDirective part

end NodeTelemetry.LogFilter
