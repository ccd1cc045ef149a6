import NodeTelemetry.Event.Line
import NodeTelemetry.Proofs.Except
import NodeTelemetry.Proofs.Json.Reading

/-!
Members of an event. They are read off the tokens of an object one after another. One of them names the
kind, wherever it stands, and the others are left with their names and in their order.
-/

set_option autoImplicit false

namespace NodeTelemetry

private theorem EventKind.ofTag?_eq_some_iff {name : String} {kind : EventKind} :
    ofTag? name = some kind ↔ name = kind.tag := by
  constructor
  · intro h
    simpa [eq_comm] using List.find?_some h
  · rintro rfl
    cases kind <;> decide

theorem EventKind.tag_injective {first second : EventKind} (h : first.tag = second.tag) :
    first = second :=
  Option.some.inj ((ofTag?_eq_some_iff.2 rfl).symm.trans (ofTag?_eq_some_iff.2 h))

namespace NodeEvent

open Json (Lexeme Token Value ValueOff Written lexed readValue valueOff_of_readValue valuesOf
  valuesOf_cons_ne valuesOf_cons_self)
open Json.Written (memberLexemes memberLexemes_cons_cons readValue_flat reads_of_valueOff)

private theorem kindOf_eq_ok_iff {token : Token} {kind : EventKind} :
    kindOf token = .ok kind ↔ token = .string kind.tag := by
  constructor
  · intro h
    unfold kindOf at h
    split at h
    next name =>
      split at h
      next found hfound =>
        cases h
        rw [EventKind.ofTag?_eq_some_iff.1 hfound]
      next => cases h
    next => cases h
  · rintro rfl
    simp only [kindOf, EventKind.ofTag?_eq_some_iff.2 rfl]

/-- Members of an event stand in front of the rest of the tokens. The kind is as known before them and as
known behind them. -/
inductive MembersOff : Option EventKind → List Token → Option EventKind → Members → List Token → Prop
  | lastTag {kind : EventKind} {rest : List Token} :
      MembersOff none (.string tagName :: .colon :: .string kind.tag :: .closeBrace :: rest) (some kind)
        [] rest
  | tag {kind : EventKind} {tail rest : List Token} {known : Option EventKind} {members : Members}
      (h : MembersOff (some kind) tail known members rest) :
      MembersOff none (.string tagName :: .colon :: .string kind.tag :: .comma :: tail) known members
        rest
  | last {kind : Option EventKind} {name : String} {text rest : List Token} {value : Value}
      (hname : name ≠ tagName) (hvalue : ValueOff text value (.closeBrace :: rest)) :
      MembersOff kind (.string name :: .colon :: text) kind [(name, value)] rest
  | cons {kind known : Option EventKind} {name : String} {text tail rest : List Token} {value : Value}
      {members : Members} (hname : name ≠ tagName) (hvalue : ValueOff text value (.comma :: tail))
      (h : MembersOff kind tail known members rest) :
      MembersOff kind (.string name :: .colon :: text) known ((name, value) :: members) rest

private theorem membersOff_of_readMembers {kind known : Option EventKind} {text rest : List Token}
    {members : Members} (h : readMembers kind text = .ok (known, members, rest)) :
    MembersOff kind text known members rest := by
  fun_induction readMembers kind text generalizing known members rest
  case case3 token named hkind tail ih =>
    obtain rfl := kindOf_eq_ok_iff.1 hkind
    exact .tag (ih h)
  case case4 token named hkind tail =>
    cases h
    obtain rfl := kindOf_eq_ok_iff.1 hkind
    exact .lastTag
  case case7 kind name hname value first tail hshorter hfirst _ known' members' after hmembers ih =>
    cases h
    exact .cons hname (valueOff_of_readValue hfirst) (ih hmembers)
  case case9 kind name hname value first tail hshorter hfirst =>
    cases h
    exact .last hname (valueOff_of_readValue hfirst)
  all_goals cases h

/-- What members are taken for as they are written: one names the kind, which is known from there on, and
the others keep their names and order. -/
inductive Taken : Option EventKind → List (String × Written) → Option EventKind → Members → Prop
  | nil {kind : Option EventKind} : Taken kind [] kind []
  | tag {kind : EventKind} {written : List (String × Written)} {known : Option EventKind}
      {members : Members} (h : Taken (some kind) written known members) :
      Taken none ((tagName, .string kind.tag) :: written) known members
  | other {kind known : Option EventKind} {name : String} {value : Written} {found : Value}
      {written : List (String × Written)} {members : Members} (hname : name ≠ tagName)
      (hvalue : value.Reads found) (h : Taken kind written known members) :
      Taken kind ((name, value) :: written) known ((name, found) :: members)

private theorem eq_string_of_lexed {value : Written} {more : List Lexeme} {content : String}
    {rest : List Token} (h : lexed (value.lexemes ++ more) = .string content :: rest) :
    value = .string content ∧ rest = lexed more := by
  have hoff : ValueOff (lexed (value.lexemes ++ more)) (.string content) rest := by
    rw [h]
    exact .string
  obtain ⟨hreads, hrest⟩ := reads_of_valueOff value hoff
  cases hreads
  exact ⟨rfl, hrest⟩

private theorem taken_of_membersOff {kind known : Option EventKind}
    {written : List (String × Written)} {more : List Lexeme} {members : Members} {rest : List Token}
    (h : MembersOff kind (lexed (memberLexemes written ++ .closeBrace :: more)) known members rest) :
    Taken kind written known members ∧ rest = lexed more := by
  induction written generalizing kind members with
  | nil => cases h
  | cons member later ih =>
    obtain ⟨name, value⟩ := member
    cases later with
    | nil =>
      replace h : MembersOff kind
        (.string name :: .colon :: lexed (value.lexemes ++ .closeBrace :: more)) known members rest := h
      generalize htext : lexed (value.lexemes ++ .closeBrace :: more) = text at h
      cases h with
      | lastTag =>
        obtain ⟨rfl, heq⟩ := eq_string_of_lexed htext
        cases heq
        exact ⟨.tag .nil, rfl⟩
      | tag =>
        obtain ⟨-, heq⟩ := eq_string_of_lexed htext
        cases heq
      | last hname hvalue =>
        subst htext
        obtain ⟨hreads, heq⟩ := reads_of_valueOff value hvalue
        cases heq
        exact ⟨.other hname hreads .nil, rfl⟩
      | cons hname hvalue =>
        subst htext
        obtain ⟨-, heq⟩ := reads_of_valueOff value hvalue
        cases heq
    | cons next later =>
      rw [memberLexemes_cons_cons] at h
      replace h : MembersOff kind
        (.string name :: .colon :: lexed (value.lexemes ++
          .comma :: (memberLexemes (next :: later) ++ .closeBrace :: more))) known members rest := h
      generalize htext : lexed (value.lexemes ++
        .comma :: (memberLexemes (next :: later) ++ .closeBrace :: more)) = text at h
      cases h with
      | lastTag =>
        obtain ⟨-, heq⟩ := eq_string_of_lexed htext
        cases heq
      | tag h =>
        obtain ⟨rfl, heq⟩ := eq_string_of_lexed htext
        cases heq
        obtain ⟨htaken, hrest⟩ := ih h
        exact ⟨.tag htaken, hrest⟩
      | last hname hvalue =>
        subst htext
        obtain ⟨-, heq⟩ := reads_of_valueOff value hvalue
        cases heq
      | cons hname hvalue h =>
        subst htext
        obtain ⟨hreads, heq⟩ := reads_of_valueOff value hvalue
        cases heq
        obtain ⟨htaken, hrest⟩ := ih h
        exact ⟨.other hname hreads htaken, hrest⟩

private theorem readMembers_of_taken {kind known : Option EventKind}
    {written : List (String × Written)}
    {members : Members} (h : Taken kind written known members) (hsome : written ≠ [])
    (hflat : ∀ member ∈ written, member.2.Flat) (more : List Lexeme) :
    readMembers kind (lexed (memberLexemes written ++ .closeBrace :: more)) =
      .ok (known, members, lexed more) := by
  induction h with
  | nil => exact absurd rfl hsome
  | @tag kind later known members h ih =>
    have hkind : kindOf (.string kind.tag) = .ok kind := kindOf_eq_ok_iff.2 rfl
    cases later with
    | nil =>
      cases h
      show readMembers none
        (.string tagName :: .colon :: .string kind.tag :: .closeBrace :: lexed more) = _
      simp only [readMembers, if_true, hkind]
    | cons next later =>
      have hlater := ih (List.cons_ne_nil _ _) fun member hmember =>
        hflat member (List.mem_cons_of_mem _ hmember)
      rw [memberLexemes_cons_cons]
      show readMembers none (.string tagName :: .colon :: .string kind.tag :: .comma ::
        lexed (memberLexemes (next :: later) ++ .closeBrace :: more)) = _
      simp only [readMembers, if_true, hkind, hlater]
  | @other kind known name value found later members hname hvalue h ih =>
    have hhere := hflat (name, value) List.mem_cons_self
    cases later with
    | nil =>
      cases h
      obtain ⟨⟨rest, hshorter⟩, hread, hrest⟩ :=
        readValue_flat hhere hvalue innerDepth (.closeBrace :: more)
      obtain rfl : rest = .closeBrace :: lexed more := hrest
      show readMembers kind
        (.string name :: .colon :: lexed (value.lexemes ++ .closeBrace :: more)) = _
      unfold readMembers
      simp only [hname, if_false, hread]
    | cons next later =>
      have hlater := ih (List.cons_ne_nil _ _) fun member hmember =>
        hflat member (List.mem_cons_of_mem _ hmember)
      rw [memberLexemes_cons_cons]
      obtain ⟨⟨rest, hshorter⟩, hread, hrest⟩ := readValue_flat hhere hvalue innerDepth
        (.comma :: (memberLexemes (next :: later) ++ .closeBrace :: more))
      obtain rfl : rest = .comma :: lexed (memberLexemes (next :: later) ++ .closeBrace :: more) := hrest
      show readMembers kind (.string name :: .colon :: lexed (value.lexemes ++
        .comma :: (memberLexemes (next :: later) ++ .closeBrace :: more))) = _
      unfold readMembers
      simp only [hname, if_false, hread, hlater]

/-! ### Kinds and values -/

theorem nil_iff_of_forall₂ {β γ : Type} {R : β → γ → Prop} {xs : List β} {ys : List γ}
    (h : List.Forall₂ R xs ys) : xs = [] ↔ ys = [] := by
  cases h <;> simp

theorem singleton_iff_of_forall₂ {β γ : Type} {R : β → γ → Prop} {xs : List β} {ys : List γ} {x : β}
    {y : γ} (h : List.Forall₂ R xs ys) (hxy : ∀ a ∈ xs, ∀ b, R a b → (a = x ↔ b = y)) :
    xs = [x] ↔ ys = [y] := by
  cases h with
  | nil => simp
  | cons hab hrest =>
    cases hrest with
    | nil => simpa using hxy _ List.mem_cons_self _ hab
    | cons => simp

section Taken

variable {kind known : Option EventKind} {written : List (String × Written)} {members : Members}

def tags (kind : Option EventKind) : List Written := kind.toList.map fun kind => .string kind.tag

theorem Taken.tags_eq (h : Taken kind written known members) :
    tags kind ++ valuesOf tagName written = tags known := by
  induction h with
  | nil => exact List.append_nil _
  | tag h ih =>
    rw [valuesOf_cons_self]
    exact ih
  | other hname _ _ ih =>
    rw [valuesOf_cons_ne hname]
    exact ih

theorem Taken.values (h : Taken kind written known members) {name : String} (hname : name ≠ tagName) :
    List.Forall₂ Written.Reads (valuesOf name written) (valuesOf name members) := by
  induction h with
  | nil => exact .nil
  | tag h ih =>
    rw [valuesOf_cons_ne hname.symm]
    exact ih
  | @other _ _ other value found _ _ _ hvalue _ ih =>
    by_cases heq : other = name
    · subst heq
      rw [valuesOf_cons_self, valuesOf_cons_self]
      exact .cons hvalue ih
    · rw [valuesOf_cons_ne heq, valuesOf_cons_ne heq]
      exact ih

theorem exists_taken {found : EventKind}
    (htags : tags kind ++ valuesOf tagName written = tags (some found))
    (hvalues : ∀ member ∈ written, member.1 ≠ tagName → ∃ value, member.2.Reads value) :
    ∃ members, Taken kind written (some found) members := by
  induction written generalizing kind with
  | nil =>
    cases kind with
    | none => cases htags
    | some kind =>
      obtain rfl := EventKind.tag_injective (Written.string.inj (List.cons_eq_cons.1 htags).1)
      exact ⟨[], .nil⟩
  | cons member written ih =>
    obtain ⟨name, value⟩ := member
    have hlater : ∀ member ∈ written, member.1 ≠ tagName → ∃ value, member.2.Reads value :=
      fun member hmember => hvalues member (List.mem_cons_of_mem _ hmember)
    by_cases hname : name = tagName
    · subst hname
      rw [valuesOf_cons_self] at htags
      cases kind with
      | some kind => cases (List.cons_eq_cons.1 htags).2
      | none =>
        obtain ⟨rfl, hnone⟩ := List.cons_eq_cons.1 htags
        have hnamed : tags (some found) ++ valuesOf tagName written = tags (some found) := by
          rw [hnone]
          exact List.append_nil _
        obtain ⟨members, h⟩ := ih hnamed hlater
        exact ⟨members, .tag h⟩
    · rw [valuesOf_cons_ne hname] at htags
      obtain ⟨found, hfound⟩ := hvalues (name, value) List.mem_cons_self hname
      obtain ⟨members, h⟩ := ih htags hlater
      exact ⟨_, .other hname hfound h⟩

end Taken

/-! ### Objects -/

section ofTokens

variable {written : List (String × Written)} {event : NodeEvent}

private theorem lexed_object (written : List (String × Written)) :
    lexed (Written.object written).lexemes =
      .openBrace :: lexed (memberLexemes written ++ [.closeBrace]) := by
  rw [← List.append_nil (Written.object written).lexemes, Written.lexed_object]

theorem exists_taken_of_ofTokens (h : ofTokens (lexed (Written.object written).lexemes) = .ok event) :
    ∃ kind members, Taken none written (some kind) members ∧ ofMembers kind members = .ok event := by
  rw [lexed_object] at h
  obtain ⟨⟨found, after⟩, hobject, h⟩ := exists_of_bind h
  have hfound : found = event := by
    dsimp only at h
    split at h
    · cases h
      rfl
    · cases h
  subst hfound
  unfold readObject at hobject
  dsimp only at hobject
  split at hobject
  · cases hobject
  · obtain ⟨⟨known, members, rest⟩, hmembers, hobject⟩ := exists_of_bind hobject
    obtain ⟨htaken, -⟩ := taken_of_membersOff (membersOff_of_readMembers hmembers)
    dsimp only at hobject
    split at hobject
    · cases hobject
    next kind =>
      split at hobject
      next event hevent =>
        cases hobject
        exact ⟨kind, members, htaken, hevent⟩
      next => cases hobject

theorem ofTokens_of_taken {kind : EventKind} {members : Members}
    (htaken : Taken none written (some kind) members) (hflat : ∀ member ∈ written, member.2.Flat)
    (h : ofMembers kind members = .ok event) :
    ofTokens (lexed (Written.object written).lexemes) = .ok event := by
  have hsome : written ≠ [] := by
    rintro rfl
    cases htaken
  have hread := readMembers_of_taken htaken hsome hflat []
  have hobject : readObject (lexed (memberLexemes written ++ [.closeBrace])) = .ok (event, []) := by
    unfold readObject
    split
    next rest hclose =>
      rw [hclose] at hread
      unfold readMembers at hread
      cases hread
    next =>
      simp only [hread, bind, Except.bind, h]
      rfl
  rw [lexed_object, ofTokens, hobject]
  rfl

end ofTokens

end NodeEvent

end NodeTelemetry
