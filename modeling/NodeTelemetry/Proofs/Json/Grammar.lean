import NodeTelemetry.Json.Token

/-!
The grammar of JSON texts. A value is written as a sequence of lexemes, and these are spelled one after
another with white space between them. A string has many spellings, an integer has one.
-/

set_option autoImplicit false

namespace NodeTelemetry.Json

/-! ### Strings -/

/-- The character is the hexadecimal digit of a value, in either case. -/
def IsHexDigit (value : Nat) (c : Char) : Prop :=
  value < 16 ∧ (c = value.digitChar ∨ c = value.digitChar.toUpper)

inductive UnitText : Nat → List Char → Prop
  | digits {a b c d : Nat} {w x y z : Char} (ha : IsHexDigit a w) (hb : IsHexDigit b x)
      (hc : IsHexDigit c y) (hd : IsHexDigit d z) :
      UnitText (((16 * a + b) * 16 + c) * 16 + d) [w, x, y, z]

/-- The letters of the short escapes, and the characters that they stand for. -/
def shortEscapes : List (Char × Char) :=
  [('"', '"'), ('\\', '\\'), ('/', '/'), ('b', '\x08'), ('f', '\x0c'), ('n', '\n'), ('r', '\r'),
    ('t', '\t')]

inductive CharText : Char → List Char → Prop
  | bare {c : Char} (hcontrol : 0x20 ≤ c.toNat) (hquote : c ≠ '"') (hslash : c ≠ '\\') :
      CharText c [c]
  | escape {letter c : Char} (h : (letter, c) ∈ shortEscapes) : CharText c ['\\', letter]
  | unit {c : Char} {text : List Char} (h : UnitText c.toNat text) :
      CharText c ('\\' :: 'u' :: text)
  | pair {c : Char} {high low : Nat} {first second : List Char}
      (hc : c.toNat = 0x10000 + 0x400 * high + low) (hhigh : high < 0x400) (hlow : low < 0x400)
      (hfirst : UnitText (0xd800 + high) first) (hsecond : UnitText (0xdc00 + low) second) :
      CharText c ('\\' :: 'u' :: first ++ '\\' :: 'u' :: second)

inductive ContentText : List Char → List Char → Prop
  | nil : ContentText [] []
  | cons {c : Char} {text content rest : List Char} (hc : CharText c text)
      (hrest : ContentText content rest) : ContentText (c :: content) (text ++ rest)

def isBare (c : Char) : Bool := 0x20 ≤ c.toNat && c != '"' && c != '\\'

theorem contentText_bare {content : List Char} (h : content.all isBare = true) :
    ContentText content content := by
  induction content with
  | nil => exact .nil
  | cons c content ih =>
    rw [List.all_cons, Bool.and_eq_true] at h
    obtain ⟨hbare, hcontent⟩ := h
    simp only [isBare, Bool.and_eq_true, decide_eq_true_eq, bne_iff_ne] at hbare
    obtain ⟨⟨hcontrol, hquote⟩, hslash⟩ := hbare
    exact .cons (.bare hcontrol hquote hslash) (ih hcontent)

/-! ### Numbers -/

def IsNumeral (digits : List Char) : Prop := digits ≠ [] ∧ ∀ c ∈ digits, c.isDigit = true

inductive FractionText : Option (List Char) → List Char → Prop
  | none : FractionText none []
  | some {digits : List Char} (h : IsNumeral digits) : FractionText (some digits) ('.' :: digits)

inductive ExponentText : Option (Bool × List Char) → List Char → Prop
  | none : ExponentText none []
  | some {mark : Char} {negative : Bool} {sign digits : List Char} (hmark : mark = 'e' ∨ mark = 'E')
      (hsign : (negative, sign) ∈ [(false, []), (false, ['+']), (true, ['-'])])
      (h : IsNumeral digits) : ExponentText (some (negative, digits)) (mark :: sign ++ digits)

/-- The spellings of a number. Its whole part begins with a zero only if it is zero. -/
inductive LiteralText : Literal → List Char → Prop
  | parts {negative : Bool} {whole : List Char} {fraction : Option (List Char)}
      {exponent : Option (Bool × List Char)} {behind power : List Char} (hwhole : IsNumeral whole)
      (hzero : whole.head? = some '0' → whole = ['0']) (hfraction : FractionText fraction behind)
      (hexponent : ExponentText exponent power) :
      LiteralText ⟨negative, whole, fraction, exponent⟩
        ((if negative then ['-'] else []) ++ whole ++ behind ++ power)

/-- The plain decimal digits of an integer, behind a minus sign if it is negative. -/
def Literal.ofInt (n : Int) : Literal :=
  { negative := n < 0, whole := Nat.toDigits 10 n.natAbs, fraction := none, exponent := none }

/-! ### Lexemes -/

inductive Lexeme where
  | openBrace
  | closeBrace
  | openBracket
  | closeBracket
  | colon
  | comma
  | null
  | boolean (b : Bool)
  | number (literal : Literal)
  | string (content : String)

inductive Spelling : Lexeme → List Char → Prop
  | openBrace : Spelling .openBrace ['{']
  | closeBrace : Spelling .closeBrace ['}']
  | openBracket : Spelling .openBracket ['[']
  | closeBracket : Spelling .closeBracket [']']
  | colon : Spelling .colon [':']
  | comma : Spelling .comma [',']
  | null : Spelling .null ['n', 'u', 'l', 'l']
  | yes : Spelling (.boolean true) ['t', 'r', 'u', 'e']
  | no : Spelling (.boolean false) ['f', 'a', 'l', 's', 'e']
  | number {literal : Literal} {text : List Char} (h : LiteralText literal text) :
      Spelling (.number literal) text
  | string {content : String} {text : List Char} (h : ContentText content.toList text) :
      Spelling (.string content) ('"' :: text ++ ['"'])

def IsGap (text : List Char) : Prop := ∀ c ∈ text, c = ' ' ∨ c = '\n' ∨ c = '\t' ∨ c = '\r'

/-- Lexemes that are spelled one after another with white space between them, but none in front of the
first or behind the last. -/
inductive Spaced : List Lexeme → List Char → Prop
  | last {lexeme : Lexeme} {text : List Char} (h : Spelling lexeme text) : Spaced [lexeme] text
  | cons {lexeme : Lexeme} {text gap : List Char} {lexemes : List Lexeme} {rest : List Char}
      (h : Spelling lexeme text) (hgap : IsGap gap) (hrest : Spaced lexemes rest) :
      Spaced (lexeme :: lexemes) (text ++ gap ++ rest)

section Spaced

variable {lexeme : Lexeme} {lexemes : List Lexeme} {text : List Char}

theorem Spaced.exists_spelling (h : Spaced lexemes text) (hmem : lexeme ∈ lexemes) :
    ∃ spelled, Spelling lexeme spelled := by
  induction h with
  | last h =>
    obtain rfl := List.mem_singleton.1 hmem
    exact ⟨_, h⟩
  | cons h _ _ ih =>
    rcases List.mem_cons.1 hmem with rfl | hmem
    · exact ⟨_, h⟩
    · exact ih hmem

theorem Spaced.exists_last (h : Spaced (lexemes ++ [lexeme]) text) :
    ∃ init spelled, text = init ++ spelled ∧ Spelling lexeme spelled := by
  generalize hall : lexemes ++ [lexeme] = all at h
  induction h generalizing lexemes with
  | @last other text h =>
    obtain ⟨-, hother⟩ := List.append_inj' (hall.trans (List.nil_append [other]).symm) rfl
    obtain rfl := List.singleton_inj.1 hother
    exact ⟨[], text, rfl, h⟩
  | cons _ _ hrest ih =>
    cases lexemes with
    | nil =>
      cases hall
      cases hrest
    | cons first lexemes =>
      obtain ⟨init, spelled, rfl, h⟩ := ih (List.cons.inj hall).2
      exact ⟨_, spelled, (List.append_assoc _ _ _).symm, h⟩

theorem Spaced.exists_first (h : Spaced (lexeme :: lexemes) text) :
    ∃ spelled rest, text = spelled ++ rest ∧ Spelling lexeme spelled := by
  cases h with
  | last h => exact ⟨text, [], (List.append_nil _).symm, h⟩
  | cons h => exact ⟨_, _, List.append_assoc _ _ _, h⟩

end Spaced

/-! ### Values -/

/-- A value as it is written: its numbers are taken at their letters, and names may repeat. -/
inductive Written where
  | null
  | boolean (b : Bool)
  | number (literal : Literal)
  | string (content : String)
  | array (items : List Written)
  | object (members : List (String × Written))

namespace Written

def integer (n : Int) : Written := .number (.ofInt n)

mutual

def lexemes : Written → List Lexeme
  | null => [.null]
  | boolean b => [.boolean b]
  | number literal => [.number literal]
  | string content => [.string content]
  | array items => .openBracket :: (itemLexemes items ++ [.closeBracket])
  | object members => .openBrace :: (memberLexemes members ++ [.closeBrace])

def itemLexemes : List Written → List Lexeme
  | [] => []
  | [item] => item.lexemes
  | item :: items => item.lexemes ++ .comma :: itemLexemes items

def memberLexemes : List (String × Written) → List Lexeme
  | [] => []
  | [(name, value)] => .string name :: .colon :: value.lexemes
  | (name, value) :: members =>
    .string name :: .colon :: (value.lexemes ++ .comma :: memberLexemes members)

end

theorem itemLexemes_cons_cons (item next : Written) (items : List Written) (more : List Lexeme) :
    itemLexemes (item :: next :: items) ++ more =
      item.lexemes ++ .comma :: (itemLexemes (next :: items) ++ more) := by
  rw [itemLexemes, List.append_assoc]
  · rfl
  · simp

theorem memberLexemes_cons_cons (name : String) (value : Written) (next : String × Written)
    (members : List (String × Written)) (more : List Lexeme) :
    memberLexemes ((name, value) :: next :: members) ++ more =
      .string name :: .colon :: (value.lexemes ++ .comma :: (memberLexemes (next :: members) ++ more)) := by
  rw [memberLexemes, List.cons_append, List.cons_append, List.append_assoc]
  · rfl
  · simp

theorem mem_memberLexemes {members : List (String × Written)} {member : String × Written}
    (hmember : member ∈ members) {lexeme : Lexeme}
    (hlexeme : lexeme ∈ member.2.lexemes) : lexeme ∈ memberLexemes members := by
  induction members with
  | nil => cases hmember
  | cons first later ih =>
    obtain ⟨name, value⟩ := first
    cases later with
    | nil =>
      obtain rfl := List.mem_singleton.1 hmember
      exact List.mem_cons_of_mem _ (List.mem_cons_of_mem _ hlexeme)
    | cons next later =>
      rw [memberLexemes]
      · refine List.mem_cons_of_mem _ (List.mem_cons_of_mem _ ?_)
        rcases List.mem_cons.1 hmember with rfl | hmember
        · exact List.mem_append_left _ hlexeme
        · exact List.mem_append_right _ (List.mem_cons_of_mem _ (ih hmember))
      · simp

end Written

/-! ### Members -/

section valuesOf

variable {β : Type}

def valuesOf (name : String) (members : List (String × β)) : List β :=
  (members.filter (·.1 = name)).map (·.2)

private theorem valuesOf_append (name : String) (first second : List (String × β)) :
    valuesOf name (first ++ second) = valuesOf name first ++ valuesOf name second := by
  simp [valuesOf]

theorem valuesOf_cons_self (name : String) (value : β) (members : List (String × β)) :
    valuesOf name ((name, value) :: members) = value :: valuesOf name members := by
  simp [valuesOf]

theorem valuesOf_cons_ne {name other : String} (h : other ≠ name) (value : β)
    (members : List (String × β)) :
    valuesOf name ((other, value) :: members) = valuesOf name members := by
  simp [valuesOf, h]

theorem valuesOf_concat_self (name : String) (value : β) (members : List (String × β)) :
    valuesOf name (members ++ [(name, value)]) = valuesOf name members ++ [value] := by
  rw [valuesOf_append, valuesOf_cons_self]
  rfl

theorem valuesOf_concat_ne {name other : String} (h : other ≠ name) (value : β)
    (members : List (String × β)) :
    valuesOf name (members ++ [(other, value)]) = valuesOf name members := by
  rw [valuesOf_append, valuesOf_cons_ne h]
  exact List.append_nil _

theorem mem_valuesOf {name : String} {value : β} {members : List (String × β)} :
    value ∈ valuesOf name members ↔ (name, value) ∈ members := by
  simp [valuesOf]

end valuesOf

end NodeTelemetry.Json
