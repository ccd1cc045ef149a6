import NodeTelemetry.Json.Value
import NodeTelemetry.Proofs.Json.Lexing

/-!
Values read from their lexemes. What is read is the value that was written, and what is left is what was
written behind it, however deep arrays and objects nest.
-/

set_option autoImplicit false

namespace NodeTelemetry.Json

/-! ### Numbers stand apart -/

def Follows (more : List Lexeme) : Prop := (∀ mark ∈ more.head?, mark.isMark) ∧ Parted more

private theorem parted_cons {lexeme : Lexeme} {more : List Lexeme}
    (hlexeme : lexeme.isNumber = false) (h : Parted more) : Parted (lexeme :: more) :=
  List.isChain_cons.2 ⟨fun _ _ hnumber => absurd hnumber (Bool.not_eq_true _ ▸ hlexeme), h⟩

private theorem follows_cons {mark : Lexeme} {more : List Lexeme} (hmark : mark.isMark = true)
    (h : Parted more) : Follows (mark :: more) := by
  have hnumber : mark.isNumber = false := by
    cases mark with
    | number => cases hmark
    | _ => rfl
  refine ⟨fun next hnext => ?_, parted_cons hnumber h⟩
  cases hnext
  exact hmark

namespace Written

mutual

theorem parted_lexemes (value : Written) {more : List Lexeme} (hmore : Follows more) :
    Parted (value.lexemes ++ more) :=
  match value with
  | null | boolean _ | string _ => parted_cons rfl hmore.2
  | number _ => List.isChain_cons.2 ⟨fun next hnext _ => hmore.1 next hnext, hmore.2⟩
  | array items => by
    rw [lexemes, List.cons_append, List.append_assoc]
    exact parted_cons rfl (parted_itemLexemes items (follows_cons rfl hmore.2))
  | object members => by
    rw [lexemes, List.cons_append, List.append_assoc]
    exact parted_cons rfl (parted_memberLexemes members (follows_cons rfl hmore.2))

theorem parted_itemLexemes (items : List Written) {more : List Lexeme} (hmore : Follows more) :
    Parted (itemLexemes items ++ more) :=
  match items with
  | [] => hmore.2
  | [item] => parted_lexemes item hmore
  | item :: next :: items => by
    rw [itemLexemes_cons_cons]
    exact parted_lexemes item (follows_cons rfl (parted_itemLexemes (next :: items) hmore))

theorem parted_memberLexemes (members : List (String × Written)) {more : List Lexeme}
    (hmore : Follows more) : Parted (memberLexemes members ++ more) :=
  match members with
  | [] => hmore.2
  | [(name, value)] => parted_cons rfl (parted_cons rfl (parted_lexemes value hmore))
  | (name, value) :: next :: members => by
    rw [memberLexemes_cons_cons]
    have hlater := parted_memberLexemes (next :: members) hmore
    exact parted_cons rfl (parted_cons rfl (parted_lexemes value (follows_cons rfl hlater)))

end

end Written

/-! ### Values in front of tokens -/

mutual

inductive ValueOff : List Token → Value → List Token → Prop
  | null {rest : List Token} : ValueOff (.null :: rest) .null rest
  | boolean {b : Bool} {rest : List Token} : ValueOff (.boolean b :: rest) (.boolean b) rest
  | number {n : Number} {rest : List Token} : ValueOff (.number n :: rest) (.number n) rest
  | string {text : String} {rest : List Token} : ValueOff (.string text :: rest) (.string text) rest
  | noItems {rest : List Token} : ValueOff (.openBracket :: .closeBracket :: rest) (.array []) rest
  | items {text rest : List Token} {items : List Value} (h : ItemsOff text items rest) :
      ValueOff (.openBracket :: text) (.array items) rest
  | noMembers {rest : List Token} : ValueOff (.openBrace :: .closeBrace :: rest) (.object []) rest
  | members {text rest : List Token} {members : List (String × Value)}
      (h : MembersOff text members rest) : ValueOff (.openBrace :: text) (.object members) rest

inductive ItemsOff : List Token → List Value → List Token → Prop
  | last {text rest : List Token} {item : Value} (h : ValueOff text item (.closeBracket :: rest)) :
      ItemsOff text [item] rest
  | cons {text tail rest : List Token} {item : Value} {items : List Value}
      (h : ValueOff text item (.comma :: tail)) (hitems : ItemsOff tail items rest) :
      ItemsOff text (item :: items) rest

inductive MembersOff : List Token → List (String × Value) → List Token → Prop
  | last {name : String} {text rest : List Token} {value : Value}
      (h : ValueOff text value (.closeBrace :: rest)) :
      MembersOff (.string name :: .colon :: text) [(name, value)] rest
  | cons {name : String} {text tail rest : List Token} {value : Value}
      {members : List (String × Value)} (h : ValueOff text value (.comma :: tail))
      (hmembers : MembersOff tail members rest) :
      MembersOff (.string name :: .colon :: text) ((name, value) :: members) rest

end

mutual

theorem valueOff_of_readValue {depth : Nat} {text : List Token} {found : Value} {rest : Rest text}
    (h : readValue depth text = some (found, rest)) : ValueOff text found rest.1 := by
  unfold readValue at h
  split at h
  · cases h
    exact .null
  · cases h
    exact .boolean
  · cases h
    exact .number
  · cases h
    exact .string
  next =>
    split at h
    · cases h
    · cases h
      exact .noItems
  next text _ =>
    split at h
    · cases h
    next depth =>
      split at h
      next items after hitems =>
        cases h
        exact .items (itemsOff_of_readItems hitems)
      next => cases h
  next =>
    split at h
    · cases h
    · cases h
      exact .noMembers
  next text _ =>
    split at h
    · cases h
    next depth =>
      split at h
      next members after hmembers =>
        cases h
        exact .members (membersOff_of_readMembers hmembers)
      next => cases h
  next => cases h
termination_by (text.length, 0)

theorem itemsOff_of_readItems {depth : Nat} {text : List Token} {items : List Value} {rest : Rest text}
    (h : readItems depth text = some (items, rest)) : ItemsOff text items rest.1 := by
  unfold readItems at h
  split at h
  next item tail hshorter hitem =>
    have shorter : tail.length < text.length := Nat.lt_of_succ_lt hshorter
    split at h
    next items' after hitems =>
      cases h
      exact .cons (valueOff_of_readValue hitem) (itemsOff_of_readItems hitems)
    next => cases h
  next item tail hshorter hitem =>
    cases h
    exact .last (valueOff_of_readValue hitem)
  next => cases h
termination_by (text.length, 1)

theorem membersOff_of_readMembers {depth : Nat} {text : List Token} {members : List (String × Value)}
    {rest : Rest text} (h : readMembers depth text = some (members, rest)) :
    MembersOff text members rest.1 := by
  unfold readMembers at h
  split at h
  next name value =>
    split at h
    next first tail hshorter hfirst =>
      have shorter : tail.length < value.length + 2 := by
        simp only [List.length_cons] at hshorter
        omega
      dsimp only at h
      split at h
      next members' after hmembers =>
        cases h
        exact .cons (valueOff_of_readValue hfirst) (membersOff_of_readMembers hmembers)
      next => cases h
    next first tail hshorter hfirst =>
      cases h
      exact .last (valueOff_of_readValue hfirst)
    next => cases h
  next => cases h
termination_by (text.length, 1)

end

/-! ### Values as they are written -/

namespace Written

/-- What a value reads as. Of an array and an object nothing is told but that they read as such. -/
inductive Reads : Written → Value → Prop
  | null : Reads .null .null
  | boolean {b : Bool} : Reads (.boolean b) (.boolean b)
  | number {literal : Literal} {n : Number} (h : literal.number? = some n) :
      Reads (.number literal) (.number n)
  | string {content : String} : Reads (.string content) (.string content)
  | array {items : List Written} {values : List Value} : Reads (.array items) (.array values)
  | object {members : List (String × Written)} {values : List (String × Value)} :
      Reads (.object members) (.object values)

private theorem lexed_number {literal : Literal} {n : Number} (h : literal.number? = some n)
    (more : List Lexeme) : lexed ((number literal).lexemes ++ more) = .number n :: lexed more := by
  have htoken : (Lexeme.number literal).token? = some (.number n) := by
    rw [Lexeme.token?, h, Option.map_some]
  show lexed (.number literal :: more) = _
  rw [lexed, htoken]

private theorem lexed_number_of_none {literal : Literal} (h : literal.number? = none)
    (more : List Lexeme) : lexed ((number literal).lexemes ++ more) = [.invalid] := by
  have htoken : (Lexeme.number literal).token? = none := by
    rw [Lexeme.token?, h, Option.map_none]
  show lexed (.number literal :: more) = _
  rw [lexed, htoken]

private theorem lexed_array (items : List Written) (more : List Lexeme) :
    lexed ((array items).lexemes ++ more) =
      .openBracket :: lexed (itemLexemes items ++ .closeBracket :: more) := by
  rw [lexemes, List.cons_append, List.append_assoc]
  rfl

theorem lexed_object (members : List (String × Written)) (more : List Lexeme) :
    lexed ((object members).lexemes ++ more) =
      .openBrace :: lexed (memberLexemes members ++ .closeBrace :: more) := by
  rw [lexemes, List.cons_append, List.append_assoc]
  rfl

private theorem lexed_ne_closeBracket (value : Written) {more : List Lexeme} {rest : List Token} :
    lexed (value.lexemes ++ more) ≠ .closeBracket :: rest := by
  cases value with
  | number literal =>
    cases hnumber : literal.number? with
    | none => simp [lexed_number_of_none hnumber]
    | some n => simp [lexed_number hnumber]
  | array items => simp [lexed_array]
  | object members => simp [lexed_object]
  | _ => simp [lexemes, lexed, Lexeme.token?]

mutual

/-- The value that stands in front is the one that was written there, and what is left is what was
written behind it. -/
theorem reads_of_valueOff (value : Written) {more : List Lexeme} {found : Value} {rest : List Token}
    (h : ValueOff (lexed (value.lexemes ++ more)) found rest) :
    value.Reads found ∧ rest = lexed more :=
  match value with
  | null => by
    cases h with
    | null => exact ⟨.null, rfl⟩
  | boolean b => by
    cases h with
    | boolean => exact ⟨.boolean, rfl⟩
  | string content => by
    cases h with
    | string => exact ⟨.string, rfl⟩
  | number literal => by
    cases hnumber : literal.number? with
    | none =>
      rw [lexed_number_of_none hnumber] at h
      cases h
    | some n =>
      rw [lexed_number hnumber] at h
      cases h with
      | number => exact ⟨.number hnumber, rfl⟩
  | array items => by
    rw [lexed_array] at h
    generalize hinner : lexed (itemLexemes items ++ .closeBracket :: more) = inner at h
    cases h with
    | noItems =>
      match items with
      | [] =>
        cases hinner
        exact ⟨.array, rfl⟩
      | [item] => exact absurd hinner item.lexed_ne_closeBracket
      | item :: next :: items =>
        rw [itemLexemes_cons_cons] at hinner
        exact absurd hinner item.lexed_ne_closeBracket
    | items h =>
      subst hinner
      exact ⟨.array, rest_of_itemsOff items h⟩
  | object members => by
    rw [lexed_object] at h
    generalize hinner : lexed (memberLexemes members ++ .closeBrace :: more) = inner at h
    cases h with
    | noMembers =>
      match members with
      | [] =>
        cases hinner
        exact ⟨.object, rfl⟩
      | [_] => cases hinner
      | _ :: _ :: _ => cases hinner
    | members h =>
      subst hinner
      exact ⟨.object, rest_of_membersOff members h⟩

theorem rest_of_itemsOff (items : List Written) {more : List Lexeme} {found : List Value}
    {rest : List Token} (h : ItemsOff (lexed (itemLexemes items ++ .closeBracket :: more)) found rest) :
    rest = lexed more :=
  match items with
  | [] => by
    cases h with
    | last h => cases h
    | cons h => cases h
  | [item] => by
    cases h with
    | last h =>
      obtain ⟨-, heq⟩ := reads_of_valueOff item h
      cases heq
      rfl
    | cons h =>
      obtain ⟨-, heq⟩ := reads_of_valueOff item h
      cases heq
  | item :: next :: items => by
    rw [itemLexemes_cons_cons] at h
    cases h with
    | last h =>
      obtain ⟨-, heq⟩ := reads_of_valueOff item h
      cases heq
    | cons h hitems =>
      obtain ⟨-, heq⟩ := reads_of_valueOff item h
      cases heq
      exact rest_of_itemsOff (next :: items) hitems

theorem rest_of_membersOff (members : List (String × Written)) {more : List Lexeme}
    {found : List (String × Value)} {rest : List Token}
    (h : MembersOff (lexed (memberLexemes members ++ .closeBrace :: more)) found rest) :
    rest = lexed more :=
  match members with
  | [] => by cases h
  | [(name, value)] => by
    cases h with
    | last h =>
      obtain ⟨-, heq⟩ := reads_of_valueOff value h
      cases heq
      rfl
    | cons h =>
      obtain ⟨-, heq⟩ := reads_of_valueOff value h
      cases heq
  | (name, value) :: next :: members => by
    rw [memberLexemes_cons_cons] at h
    cases h with
    | last h =>
      obtain ⟨-, heq⟩ := reads_of_valueOff value h
      cases heq
    | cons h hmembers =>
      obtain ⟨-, heq⟩ := reads_of_valueOff value h
      cases heq
      exact rest_of_membersOff (next :: members) hmembers

end

theorem integer_injective {n m : Int} (h : integer n = integer m) : n = m :=
  Literal.ofInt_injective (Written.number.inj h)

theorem reads_integer {n : Int} (hlow : Word.smallestSigned ≤ n) (hhigh : n ≤ Word.largest) :
    (integer n).Reads (.number (.integer n)) :=
  .number (number?_ofInt hlow hhigh)

theorem eq_integer_of_reads {value : Written} {n : Int} (h : value.Reads (.number (.integer n)))
    (hspelled : ∀ literal, value = number literal → ∃ text, LiteralText literal text) :
    value = integer n := by
  cases h with
  | @number literal _ h =>
    obtain ⟨text, htext⟩ := hspelled literal rfl
    rw [(eq_ofInt_of_number? htext h).1]
    rfl

theorem Reads.number_unique {literal : Literal} {first second : Value}
    (hfirst : (Written.number literal).Reads first)
    (hsecond : (Written.number literal).Reads second) : first = second := by
  cases hfirst with
  | number hfirst =>
    cases hsecond with
    | number hsecond => rw [Option.some.inj (hfirst.symm.trans hsecond)]

def Flat : Written → Prop
  | null | boolean _ | number _ | string _ => True
  | array _ | object _ => False

theorem readValue_flat {value : Written} {found : Value} (hflat : value.Flat) (h : value.Reads found)
    (depth : Nat) (more : List Lexeme) :
    ∃ rest, readValue depth (lexed (value.lexemes ++ more)) = some (found, rest) ∧
      rest.1 = lexed more := by
  cases h with
  | array => cases hflat
  | object => cases hflat
  | null =>
    show ∃ rest, readValue depth (.null :: lexed more) = _ ∧ _
    refine ⟨⟨lexed more, Nat.lt_succ_self _⟩, ?_, rfl⟩
    rw [readValue]
    rfl
  | boolean =>
    show ∃ rest, readValue depth (.boolean _ :: lexed more) = _ ∧ _
    refine ⟨⟨lexed more, Nat.lt_succ_self _⟩, ?_, rfl⟩
    rw [readValue]
    rfl
  | string =>
    show ∃ rest, readValue depth (.string _ :: lexed more) = _ ∧ _
    refine ⟨⟨lexed more, Nat.lt_succ_self _⟩, ?_, rfl⟩
    rw [readValue]
    rfl
  | number h =>
    rw [lexed_number h]
    exact ⟨_, by rw [readValue], rfl⟩

end Written

end NodeTelemetry.Json
