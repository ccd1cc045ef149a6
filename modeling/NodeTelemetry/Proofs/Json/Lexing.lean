import Mathlib.Data.List.Chain
import NodeTelemetry.Proofs.Json.Number

/-!
Tokens of well-spelled texts. Lexemes that are spelled with white space between them come apart again,
whatever the spelling, as long as a number is followed by a mark. The first number that is too large
ends them.
-/

set_option autoImplicit false

namespace NodeTelemetry.Json

/-! ### Strings -/

private theorem hexDigit?_of_isHexDigit {value : Nat} {c : Char} (h : IsHexDigit value c) :
    Text.hexDigit? c = some value := by
  have hdigits : ∀ value < 16, Text.hexDigit? value.digitChar = some value ∧
      Text.hexDigit? value.digitChar.toUpper = some value := by
    decide
  obtain ⟨hsmall, rfl | rfl⟩ := h
  · exact (hdigits value hsmall).1
  · exact (hdigits value hsmall).2

private theorem UnitText.exists_read {n : Nat} {text : List Char} (h : UnitText n text) :
    ∃ w x y z, text = [w, x, y, z] ∧ unit? w x y z = some n := by
  obtain ⟨ha, hb, hc, hd⟩ := h
  refine ⟨_, _, _, _, rfl, ?_⟩
  rw [unit?, hexDigit?_of_isHexDigit ha, hexDigit?_of_isHexDigit hb, hexDigit?_of_isHexDigit hc,
    hexDigit?_of_isHexDigit hd]
  rfl

private theorem not_half (c : Char) : opensPair c.toNat = false ∧ closesPair c.toNat = false := by
  have hvalid : c.toNat < 0xd800 ∨ 0xdfff < c.toNat ∧ c.toNat < 0x110000 := c.valid
  simp only [opensPair, closesPair, Bool.and_eq_false_iff, decide_eq_false_iff_not]
  omega

private theorem readString?_char {c : Char} {text : List Char} (h : CharText c text)
    (rest : List Char) : readString? (text ++ rest) =
      (readString? rest).map fun (content, after) => (c :: content, after) := by
  cases h with
  | bare hcontrol hquote hslash =>
    have hplain : ¬(c.toNat < 0x20 ∨ c = '\\') := by
      rintro (hlow | heq)
      · omega
      · exact hslash heq
    rw [List.singleton_append, readString?, if_neg hplain]
    all_goals grind
  | @escape letter _ h =>
    simp only [shortEscapes, List.mem_cons, Prod.mk.injEq, List.not_mem_nil, or_false] at h
    rcases h with ⟨rfl, rfl⟩ | ⟨rfl, rfl⟩ | ⟨rfl, rfl⟩ | ⟨rfl, rfl⟩ | ⟨rfl, rfl⟩ | ⟨rfl, rfl⟩ |
      ⟨rfl, rfl⟩ | ⟨rfl, rfl⟩ <;> rfl
  | unit h =>
    obtain ⟨w, x, y, z, rfl, hread⟩ := h.exists_read
    obtain ⟨hopens, hcloses⟩ := not_half c
    simp only [List.cons_append, List.nil_append, readString?, hread, hopens, hcloses,
      Char.ofNat_toNat, Bool.false_eq_true, if_false]
  | @pair _ high low first second hc hhigh hlow hfirst hsecond =>
    obtain ⟨w, x, y, z, rfl, hhighRead⟩ := hfirst.exists_read
    obtain ⟨w', x', y', z', rfl, hlowRead⟩ := hsecond.exists_read
    have hopens : opensPair (0xd800 + high) = true := by
      simp only [opensPair, Bool.and_eq_true, decide_eq_true_eq]
      omega
    have hcloses : closesPair (0xdc00 + low) = true := by
      simp only [closesPair, Bool.and_eq_true, decide_eq_true_eq]
      omega
    have hpair : pairChar (0xd800 + high) (0xdc00 + low) = c := by
      have hcode : 0x10000 + (0xd800 + high - 0xd800) * 0x400 + (0xdc00 + low - 0xdc00) = c.toNat := by
        omega
      rw [pairChar, hcode, Char.ofNat_toNat]
    simp only [List.cons_append, List.nil_append, readString?, hhighRead, hopens, hlowRead, hcloses,
      hpair, if_true]

private theorem readString?_content {content text : List Char} (h : ContentText content text)
    (after : List Char) : readString? (text ++ '"' :: after) = some (content, after) := by
  induction h with
  | nil => rfl
  | cons hc hrest ih => rw [List.append_assoc, readString?_char hc, ih, Option.map_some]

/-! ### Lexemes -/

namespace Lexeme

def token? : Lexeme → Option Token
  | openBrace => some .openBrace
  | closeBrace => some .closeBrace
  | openBracket => some .openBracket
  | closeBracket => some .closeBracket
  | colon => some .colon
  | comma => some .comma
  | null => some .null
  | boolean b => some (.boolean b)
  | number literal => literal.number?.map .number
  | string content => some (.string content)

def isNumber : Lexeme → Bool
  | number _ => true
  | openBrace | closeBrace | openBracket | closeBracket | colon | comma | null | boolean _ | string _ =>
    false

def isMark : Lexeme → Bool
  | openBrace | closeBrace | openBracket | closeBracket | colon | comma => true
  | null | boolean _ | number _ | string _ => false

end Lexeme

def lexed : List Lexeme → List Token
  | [] => []
  | lexeme :: lexemes =>
    match lexeme.token? with
    | some token => token :: lexed lexemes
    | none => [.invalid]

def Parted (lexemes : List Lexeme) : Prop :=
  lexemes.IsChain fun lexeme next => lexeme.isNumber → next.isMark

variable {lexeme : Lexeme} {lexemes : List Lexeme} {text gap rest : List Char}

private theorem exists_head_of_literalText {literal : Literal} (h : LiteralText literal text) :
    ∃ c tail, text = c :: tail ∧ (c = '-' ∨ c.isDigit = true) := by
  obtain @⟨negative, whole, -, -, behind, power, hwhole, -, -, -⟩ := h
  obtain ⟨c, digits, rfl⟩ := List.exists_cons_of_ne_nil hwhole.1
  cases negative with
  | true => exact ⟨_, _, rfl, .inl rfl⟩
  | false => exact ⟨_, _, rfl, .inr (hwhole.2 c List.mem_cons_self)⟩

private theorem Spelling.exists_head (h : Spelling lexeme text) :
    ∃ c tail, text = c :: tail ∧ isSpace c = false ∧ (lexeme.isMark → EndsNumber [c]) := by
  cases h with
  | number h =>
    obtain ⟨c, tail, rfl, hc⟩ := exists_head_of_literalText h
    refine ⟨c, tail, rfl, ?_, fun hmark => (nomatch hmark)⟩
    by_contra hspace
    simp only [isSpace, Bool.not_eq_false, Bool.or_eq_true, beq_iff_eq] at hspace
    rcases hspace with ((rfl | rfl) | rfl) | rfl <;> revert hc <;> decide
  | null | yes | no | string => exact ⟨_, _, rfl, rfl, fun hmark => (nomatch hmark)⟩
  | _ =>
    refine ⟨_, _, rfl, rfl, fun _ c hc => ?_⟩
    cases hc
    decide

private theorem Spaced.exists_head (h : Spaced lexemes text) :
    ∃ lexeme ∈ lexemes.head?, ∃ c tail, text = c :: tail ∧ (lexeme.isMark → EndsNumber [c]) := by
  cases h with
  | last h =>
    obtain ⟨c, tail, rfl, -, hends⟩ := h.exists_head
    exact ⟨_, rfl, c, tail, rfl, hends⟩
  | cons h =>
    obtain ⟨c, tail, rfl, -, hends⟩ := h.exists_head
    exact ⟨_, rfl, c, _, rfl, hends⟩

private theorem readToken?_spelling (h : Spelling lexeme text)
    (hrest : lexeme.isNumber → EndsNumber rest) :
    readToken? (text ++ rest) = lexeme.token?.map (·, rest) := by
  cases h with
  | number h =>
    rw [readToken?_number h (hrest rfl), Lexeme.token?, Option.map_map]
    rfl
  | string h =>
    rw [List.append_assoc, List.cons_append]
    show (readString? (_ ++ '"' :: rest)).map _ = _
    rw [readString?_content h, Option.map_some]
    show some (Token.string (String.ofList _), rest) = _
    rw [String.ofList_toList]
    rfl
  | _ => rfl

private theorem tokens_gap (h : IsGap gap) : tokens (gap ++ rest) = tokens rest := by
  induction gap with
  | nil => rfl
  | cons c gap ih =>
    have hspace : isSpace c = true := by
      rcases h c List.mem_cons_self with rfl | rfl | rfl | rfl <;> rfl
    rw [List.cons_append, tokens, if_pos hspace]
    exact ih fun c hc => h c (List.mem_cons_of_mem _ hc)

private theorem tokens_spelling (h : Spelling lexeme text)
    (hrest : lexeme.isNumber → EndsNumber rest) : tokens (text ++ rest) =
      match lexeme.token? with
      | some token => token :: tokens rest
      | none => [.invalid] := by
  have hread := readToken?_spelling h hrest
  obtain ⟨c, tail, rfl, hspace, -⟩ := h.exists_head
  rw [List.cons_append] at hread ⊢
  rw [tokens, if_neg (Bool.not_eq_true _ ▸ hspace)]
  split
  next token after hsome =>
    rw [hread] at hsome
    obtain ⟨_, htoken, heq⟩ := Option.map_eq_some_iff.1 hsome
    cases heq
    rw [htoken]
  next hnone =>
    rw [hread, Option.map_eq_none_iff] at hnone
    rw [hnone]

private theorem endsNumber_gap (hgap : IsGap gap) (h : Spaced lexemes text)
    (hmark : ∀ next ∈ lexemes.head?, next.isMark) : EndsNumber (gap ++ text) := by
  cases gap with
  | nil =>
    obtain ⟨lexeme, hmem, c, tail, rfl, hends⟩ := h.exists_head
    exact hends (hmark lexeme hmem)
  | cons c gap =>
    intro other hother
    cases hother
    rcases hgap c List.mem_cons_self with rfl | rfl | rfl | rfl <;> decide

/-- The tokens of a text are those of the lexemes it spells. -/
theorem tokens_spaced (h : Spaced lexemes text) (hparted : Parted lexemes) :
    tokens text = lexed lexemes := by
  induction h with
  | last h =>
    have htokens := tokens_spelling h fun _ => show EndsNumber [] from fun _ hc => (nomatch hc)
    rw [List.append_nil] at htokens
    rw [htokens, tokens]
    rfl
  | cons h hgap hrest ih =>
    obtain ⟨hnext, hparted⟩ := List.isChain_cons.1 hparted
    rw [List.append_assoc, tokens_spelling h fun hnumber => endsNumber_gap hgap hrest fun next hmem =>
      hnext next hmem hnumber, tokens_gap hgap, ih hparted]
    rfl

end NodeTelemetry.Json
