import NodeTelemetry.Decimal
import NodeTelemetry.Json.Token

/-!
The values of JSON texts. A value is read off the front of a list of tokens; arrays and objects nest no
deeper than a given depth. Values are written without spaces, members in the order of the value.
-/

set_option autoImplicit false

namespace NodeTelemetry.Json

/-- A JSON value. The members of an object keep their order, and may repeat names. -/
inductive Value where
  | null
  | boolean (b : Bool)
  | number (n : Number)
  | string (text : String)
  | array (items : List Value)
  | object (members : List (String × Value))
  deriving Repr

abbrev Rest (tokens : List Token) := { rest : List Token // rest.length < tokens.length }

/-- What was read off the front of tokens and what is left, if that could be read. -/
abbrev Reading (β : Type) (tokens : List Token) := Option (β × Rest tokens)

def Rest.widen {shorter longer : List Token} (h : shorter.length ≤ longer.length)
    (rest : Rest shorter) : Rest longer := ⟨rest.1, Nat.lt_of_lt_of_le rest.2 h⟩

mutual

def readValue (depth : Nat) (tokens : List Token) : Reading Value tokens :=
  match tokens with
  | .null :: rest => some (.null, ⟨rest, by simp⟩)
  | .boolean b :: rest => some (.boolean b, ⟨rest, by simp⟩)
  | .number n :: rest => some (.number n, ⟨rest, by simp⟩)
  | .string text :: rest => some (.string text, ⟨rest, by simp⟩)
  | .openBracket :: .closeBracket :: rest =>
    if depth = 0 then none else some (.array [], ⟨rest, by simp only [List.length_cons]; omega⟩)
  | .openBracket :: rest =>
    match depth with
    | 0 => none
    | depth + 1 =>
      match readItems depth rest with
      | some (items, after) => some (.array items, after.widen (by simp))
      | none => none
  | .openBrace :: .closeBrace :: rest =>
    if depth = 0 then none else some (.object [], ⟨rest, by simp only [List.length_cons]; omega⟩)
  | .openBrace :: rest =>
    match depth with
    | 0 => none
    | depth + 1 =>
      match readMembers depth rest with
      | some (members, after) => some (.object members, after.widen (by simp))
      | none => none
  | _ => none
termination_by (tokens.length, 0)

def readItems (depth : Nat) (tokens : List Token) : Reading (List Value) tokens :=
  match readValue depth tokens with
  | some (item, ⟨.comma :: rest, h⟩) =>
    have shorter : rest.length < tokens.length := by simp only [List.length_cons] at h; omega
    match readItems depth rest with
    | some (items, after) => some (item :: items, after.widen (Nat.le_of_lt shorter))
    | none => none
  | some (item, ⟨.closeBracket :: rest, h⟩) =>
    some ([item], ⟨rest, by simp only [List.length_cons] at h; omega⟩)
  | _ => none
termination_by (tokens.length, 1)

def readMembers (depth : Nat) (tokens : List Token) : Reading (List (String × Value)) tokens :=
  match tokens with
  | .string name :: .colon :: value =>
    match readValue depth value with
    | some (first, ⟨.comma :: rest, h⟩) =>
      have shorter : rest.length < value.length + 2 := by simp only [List.length_cons] at h; omega
      match readMembers depth rest with
      | some (members, after) => some ((name, first) :: members, after.widen (Nat.le_of_lt shorter))
      | none => none
    | some (first, ⟨.closeBrace :: rest, h⟩) =>
      some ([(name, first)], ⟨rest, by simp only [List.length_cons] at h ⊢; omega⟩)
    | _ => none
  | _ => none
termination_by (tokens.length, 1)

end

/-! ### Writing values -/

/-- Numbers in written JSON: positional from `1e-5` to below `1e16`. -/
def writtenStyle : Decimal.NumberStyle := ⟨some (-5, 15), ".0", "", .toEven⟩

/-- The text of a number. What is no number has no text of its own and is written as nothing. -/
def Number.text : Number → String
  | .integer n => toString n
  | .float .nan => "null"
  | .float (.infinite _) => "null"
  | .float x => writtenStyle.text x

def unitDigits (n : Nat) : String :=
  String.ofList ['0', '0', Nat.digitChar (n / 16), Nat.digitChar (n % 16)]

def writtenChar (c : Char) : String :=
  match c with
  | '"' => "\\\""
  | '\\' => "\\\\"
  | '\x08' => "\\b"
  | '\x0c' => "\\f"
  | '\n' => "\\n"
  | '\r' => "\\r"
  | '\t' => "\\t"
  | c => if c.toNat < 0x20 then "\\u" ++ unitDigits c.toNat else c.toString

def written (text : String) : String :=
  "\"" ++ String.join (text.toList.map writtenChar) ++ "\""

namespace Value

mutual

def text : Value → String
  | .null => "null"
  | .boolean b => if b then "true" else "false"
  | .number n => n.text
  | .string s => written s
  | .array items => "[" ++ String.intercalate "," (itemTexts items) ++ "]"
  | .object members => "\x7b" ++ String.intercalate "," (memberTexts members) ++ "\x7d"

def itemTexts : List Value → List String
  | [] => []
  | item :: rest => text item :: itemTexts rest

def memberTexts : List (String × Value) → List String
  | [] => []
  | (name, value) :: rest => (written name ++ ":" ++ text value) :: memberTexts rest

end

end Value

end NodeTelemetry.Json
