import NodeTelemetry.Json.Number
import NodeTelemetry.Text

/-!
The tokens of a JSON text. A text that goes wrong somewhere still has the tokens before that place;
what stands there is one last invalid token. A string has characters and escapes up to the closing
quote. Characters beyond the basic plane may be escaped as a pair of 16-bit units; half a pair alone is
refused, and so are bare control characters.
-/

set_option autoImplicit false

namespace NodeTelemetry.Json

/-! ### Strings -/

open Text (hexDigit?)

def letterEscape? (letter : Char) : Option Char :=
  match letter with
  | '"' => some '"'
  | '\\' => some '\\'
  | '/' => some '/'
  | 'b' => some '\x08'
  | 'f' => some '\x0c'
  | 'n' => some '\n'
  | 'r' => some '\r'
  | 't' => some '\t'
  | _ => none

def unit? (a b c d : Char) : Option Nat := do
  return ((16 * (← hexDigit? a) + (← hexDigit? b)) * 16 + (← hexDigit? c)) * 16 + (← hexDigit? d)

def opensPair (unit : Nat) : Bool := 0xd800 ≤ unit && unit < 0xdc00

def closesPair (unit : Nat) : Bool := 0xdc00 ≤ unit && unit < 0xe000

def pairChar (first second : Nat) : Char :=
  Char.ofNat (0x10000 + (first - 0xd800) * 0x400 + (second - 0xdc00))

/-- Reads a string behind its opening quote: the characters, and what follows the closing quote. -/
def readString? : List Char → Option (List Char × List Char)
  | [] => none
  | '"' :: rest => some ([], rest)
  | '\\' :: 'u' :: a :: b :: c :: d :: rest =>
    match unit? a b c d with
    | none => none
    | some unit =>
      if opensPair unit then
        match rest with
        | '\\' :: 'u' :: e :: f :: g :: h :: rest =>
          match unit? e f g h with
          | none => none
          | some second =>
            if closesPair second then
              (readString? rest).map fun (text, after) => (pairChar unit second :: text, after)
            else none
        | _ => none
      else if closesPair unit then none
      else (readString? rest).map fun (text, after) => (Char.ofNat unit :: text, after)
  | '\\' :: letter :: rest =>
    match letterEscape? letter with
    | none => none
    | some c => (readString? rest).map fun (text, after) => (c :: text, after)
  | c :: rest =>
    if c.toNat < 0x20 ∨ c = '\\' then none
    else (readString? rest).map fun (text, after) => (c :: text, after)

theorem length_lt_of_readString? {text content rest : List Char}
    (h : readString? text = some (content, rest)) : rest.length < text.length := by
  fun_induction readString? text generalizing content rest
  all_goals simp_all
  all_goals grind

end NodeTelemetry.Json

namespace NodeTelemetry.Json

/-! ### Tokens -/

inductive Token where
  | openBrace
  | closeBrace
  | openBracket
  | closeBracket
  | colon
  | comma
  | null
  | boolean (b : Bool)
  | number (n : Number)
  | string (text : String)
  | invalid
  deriving Repr, DecidableEq

def isSpace (c : Char) : Bool := c == ' ' || c == '\n' || c == '\t' || c == '\r'

def readToken? : List Char → Option (Token × List Char)
  | '{' :: rest => some (.openBrace, rest)
  | '}' :: rest => some (.closeBrace, rest)
  | '[' :: rest => some (.openBracket, rest)
  | ']' :: rest => some (.closeBracket, rest)
  | ':' :: rest => some (.colon, rest)
  | ',' :: rest => some (.comma, rest)
  | '"' :: rest => (readString? rest).map fun (text, after) => (.string (String.ofList text), after)
  | 'n' :: 'u' :: 'l' :: 'l' :: rest => some (.null, rest)
  | 't' :: 'r' :: 'u' :: 'e' :: rest => some (.boolean true, rest)
  | 'f' :: 'a' :: 'l' :: 's' :: 'e' :: rest => some (.boolean false, rest)
  | '-' :: rest => (readUnsigned? true rest).map fun (n, after) => (.number n, after)
  | text => (readUnsigned? false text).map fun (n, after) => (.number n, after)

theorem length_lt_of_readToken? {text rest : List Char} {token : Token}
    (h : readToken? text = some (token, rest)) : rest.length < text.length := by
  unfold readToken? at h
  split at h
  all_goals first
    | (obtain ⟨⟨content, after⟩, hread, hsome⟩ := Option.map_eq_some_iff.1 h
       cases hsome
       first
         | exact Nat.lt_succ_of_lt (length_lt_of_readString? hread)
         | exact Nat.lt_succ_of_lt (length_lt_of_readUnsigned? hread)
         | exact length_lt_of_readUnsigned? hread)
    | (cases h
       simp only [List.length_cons]
       omega)

def tokens (text : List Char) : List Token :=
  match text with
  | [] => []
  | c :: rest =>
    if isSpace c then tokens rest
    else
      match _read : readToken? (c :: rest) with
      | some (token, after) => token :: tokens after
      | none => [.invalid]
termination_by text.length
decreasing_by
  · exact Nat.lt_succ_self rest.length
  · exact length_lt_of_readToken? _read

end NodeTelemetry.Json
