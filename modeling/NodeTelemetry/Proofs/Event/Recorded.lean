import Mathlib.Algebra.Group.Int.Defs
import NodeTelemetry.Proofs.Event.Members
import NodeTelemetry.Proofs.Event.Report
import NodeTelemetry.Proofs.Text

/-!
Recorded events. An event reads as itself from every JSON object that gives its kind and its fields,
whatever the order and the spelling, and from no other object. The line of an object with a defect is
an error.
-/

set_option autoImplicit false

namespace NodeTelemetry

namespace Json

variable {lexemes : List Lexeme} {text : List Char}

private theorem Spaced.trimmed_eq (h : Spaced (.openBrace :: (lexemes ++ [.closeBrace])) text)
    {before after : List Char} (hbefore : ∀ c ∈ before, Text.isBlank c = true)
    (hafter : ∀ c ∈ after, Text.isBlank c = true) :
    Text.trimmed (before ++ text ++ after) = text ∧ ∃ tail, text = '{' :: tail := by
  obtain ⟨opening, tail, htail, hopening⟩ := h.exists_first
  have hall : Spaced ((.openBrace :: lexemes) ++ [.closeBrace]) text := h
  obtain ⟨init, closing, hinit, hclosing⟩ := hall.exists_last
  cases hopening
  cases hclosing
  exact ⟨Text.trimmed_eq hbefore hafter htail (by decide) hinit (by decide), tail, htail⟩

end Json

namespace NodeEvent

open Json (Literal LiteralText Spaced Spelling Written lexed mem_valuesOf valuesOf)

/-- The members record an event: they name its kind, and give its fields. -/
structure RecordedBy (event : NodeEvent) (members : List (String × Written)) : Prop where
  tagged : valuesOf "event" members = [.string event.kind.tag]
  gives : event.Gives Written.integer Written.null members

def Plain : Written → Prop
  | .null | .boolean _ | .string _ => True
  | .number _ | .array _ | .object _ => False

/-- What can be wrong with the members of an event. -/
inductive Defective (members : List (String × Written)) : Prop
  /-- The tag is none of those of the kinds. -/
  | unknownKind {tag : String} (htag : .string tag ∈ valuesOf "event" members)
      (hunknown : ∀ kind : EventKind, tag ≠ kind.tag)
  /-- A name that means something comes twice. -/
  | repeated {kind : EventKind} {name : String} (htag : .string kind.tag ∈ valuesOf "event" members)
      (hname : name ∈ kind.knownNames) (htwice : 2 ≤ (valuesOf name members).length)
  | repeatedTag (htwice : 2 ≤ (valuesOf "event" members).length)
  /-- An unsigned field is out of its range. -/
  | word {kind : EventKind} {name : String} {n : Int}
      (htag : .string kind.tag ∈ valuesOf "event" members) (hname : name ∈ kind.wordNames)
      (hvalue : Written.integer n ∈ valuesOf name members) (hrange : n < 0 ∨ 2 ^ 64 ≤ n)
  /-- The time of arrival is out of its range. -/
  | arrival {n : Int} (htag : .string EventKind.performance.tag ∈ valuesOf "event" members)
      (hvalue : Written.integer n ∈ valuesOf "received_at_ms" members)
      (hrange : n < -2 ^ 63 ∨ 2 ^ 63 ≤ n)
  /-- A field is missing that may not be left out. -/
  | missing {kind : EventKind} {name : String} (htag : .string kind.tag ∈ valuesOf "event" members)
      (hkind : kind = .volume ∨ kind = .blockPopped) (hname : name ∈ kind.wordNames)
      (hnone : valuesOf name members = [])

/-! ### Written and read -/

section reading

variable {event : NodeEvent} {kind : EventKind} {written : List (String × Written)} {members : Members}

private theorem Taken.values_eq_integer_iff (htaken : Taken none written (some kind) members)
    (hspelled : ∀ name literal, (name, .number literal) ∈ written → ∃ text, LiteralText literal text)
    {name : String} (hname : name ≠ tagName) {n : Int} (hlow : Word.smallestSigned ≤ n)
    (hhigh : n ≤ Word.largest) :
    valuesOf name written = [.integer n] ↔ valuesOf name members = [.number (.integer n)] := by
  refine singleton_iff_of_forall₂ (htaken.values hname) fun value hvalue found hreads => ?_
  constructor
  · rintro rfl
    exact hreads.number_unique (Written.reads_integer hlow hhigh)
  · rintro rfl
    refine Written.eq_integer_of_reads hreads fun literal hliteral => hspelled name literal ?_
    rw [← hliteral]
    exact mem_valuesOf.1 hvalue

private theorem Taken.values_eq_null_iff (htaken : Taken none written (some kind) members)
    {name : String} (hname : name ≠ tagName) :
    valuesOf name written = [.null] ↔ valuesOf name members = [.null] := by
  refine singleton_iff_of_forall₂ (htaken.values hname) fun value _ found hreads => ?_
  cases hreads <;> simp

private theorem fst_mem_wordNames {entry : String × UInt64} (h : entry ∈ event.entries) :
    entry.1 ∈ event.kind.wordNames :=
  (List.of_mem_zip h).1

private theorem ne_tagName_of_mem_wordNames {name : String} (h : name ∈ kind.wordNames) :
    name ≠ tagName := by
  rintro rfl
  revert h
  cases kind <;> decide

private theorem Taken.gives_iff (htaken : Taken none written (some kind) members)
    (hspelled : ∀ name literal, (name, .number literal) ∈ written → ∃ text, LiteralText literal text) :
    event.Gives Written.integer .null written ↔ Given members event := by
  have hword : ∀ entry ∈ event.entries,
      (valuesOf entry.1 written = [.integer entry.2.toNat] ↔
        valuesOf entry.1 members = [.number (.integer entry.2.toNat)]) ∧
      (valuesOf entry.1 written = [] ↔ valuesOf entry.1 members = []) := by
    intro entry hentry
    have hname := ne_tagName_of_mem_wordNames (fst_mem_wordNames hentry)
    have hlow : Word.smallestSigned ≤ (entry.2.toNat : Int) :=
      Int.le_trans (by decide) (Int.natCast_nonneg _)
    have hhigh : (entry.2.toNat : Int) ≤ Word.largest :=
      Int.ofNat_le.2 (Word.le_largest_iff.2 ⟨entry.2, rfl⟩)
    exact ⟨htaken.values_eq_integer_iff hspelled hname hlow hhigh,
      nil_iff_of_forall₂ (htaken.values hname)⟩
  have hname : "received_at_ms" ≠ tagName := by
    decide
  have htime : ∀ time : Option Int64,
      valuesOf "received_at_ms" written = [time.elim .null fun time => .integer time.toInt] ↔
        valuesOf "received_at_ms" members =
          [time.elim .null fun time => .number (.integer time.toInt)] := by
    intro time
    cases time with
    | none => exact htaken.values_eq_null_iff hname
    | some time =>
      have hhigh : time.toInt ≤ Word.largest := Int.le_trans time.toInt_le (by decide)
      exact htaken.values_eq_integer_iff hspelled hname time.le_toInt hhigh
  have hnone := nil_iff_of_forall₂ (htaken.values hname)
  constructor
  · rintro ⟨hwords, harrival⟩
    refine ⟨fun entry hentry => ?_, fun time hmem => ?_⟩
    · rw [← (hword entry hentry).1, ← (hword entry hentry).2]
      exact hwords entry hentry
    · rw [← htime, ← hnone]
      exact harrival time hmem
  · rintro ⟨hwords, harrival⟩
    refine ⟨fun entry hentry => ?_, fun time hmem => ?_⟩
    · rw [(hword entry hentry).1, (hword entry hentry).2]
      exact hwords entry hentry
    · rw [htime, hnone]
      exact harrival time hmem

/-! ### What members of an event hold -/

private theorem exists_mem_entries {name : String} (h : name ∈ event.kind.wordNames) :
    ∃ word, (name, word) ∈ event.entries := by
  have hnames : event.entries.map Prod.fst = event.kind.wordNames := by
    cases event <;> rfl
  rw [← hnames] at h
  obtain ⟨entry, hentry, rfl⟩ := List.mem_map.1 h
  exact ⟨entry.2, hentry⟩

private theorem exists_arrival (h : event.kind = .performance) :
    ∃ time, event.arrival? = some time := by
  cases event with
  | performance sample time => exact ⟨time, rfl⟩
  | _ => cases h

private theorem mem_knownNames {name : String} :
    name ∈ kind.knownNames ↔
      name = "event" ∨ name ∈ kind.wordNames ∨ kind = .performance ∧ name = "received_at_ms" := by
  by_cases hkind : kind = .performance <;> simp [EventKind.knownNames, hkind]

/-- A name that means something has one value at most: the tag, an integer in its range, or the null. -/
theorem RecordedBy.values_of_known (h : event.RecordedBy written) {name : String}
    (hname : name ∈ event.kind.knownNames) :
    valuesOf name written = [] ∨ ∃ value, valuesOf name written = [value] ∧
      (Plain value ∨ ∃ n, value = .integer n ∧ Word.smallestSigned ≤ n ∧ n ≤ Word.largest) := by
  rcases mem_knownNames.1 hname with rfl | hword | ⟨hkind, rfl⟩
  · exact .inr ⟨_, h.tagged, .inl trivial⟩
  · obtain ⟨word, hentry⟩ := exists_mem_entries hword
    rcases h.gives.words _ hentry with hvalue | ⟨-, hnone⟩
    · refine .inr ⟨_, hvalue, .inr ⟨_, rfl, Int.le_trans (by decide) (Int.natCast_nonneg _), ?_⟩⟩
      exact Int.ofNat_le.2 (Word.le_largest_iff.2 ⟨word, rfl⟩)
    · exact .inl hnone
  · obtain ⟨time, htime⟩ := exists_arrival hkind
    rcases h.gives.arrival time htime with hvalue | ⟨-, hnone⟩
    · refine .inr ⟨_, hvalue, ?_⟩
      cases time with
      | none => exact .inl trivial
      | some time => exact .inr ⟨_, rfl, time.le_toInt, Int.le_trans time.toInt_le (by decide)⟩
    · exact .inl hnone

private theorem RecordedBy.readable (h : event.RecordedBy written)
    (hplain : ∀ member ∈ written, member.1 ∉ event.kind.knownNames → Plain member.2)
    {member : String × Written} (hmember : member ∈ written) :
    member.2.Flat ∧ ∃ value, member.2.Reads value := by
  obtain ⟨name, value⟩ := member
  have hvalue : Plain value ∨ ∃ n, value = .integer n ∧ Word.smallestSigned ≤ n ∧ n ≤ Word.largest := by
    by_cases hname : name ∈ event.kind.knownNames
    · have hmem : value ∈ valuesOf name written := mem_valuesOf.2 hmember
      rcases h.values_of_known hname with hnone | ⟨found, hfound, hcases⟩
      · rw [hnone] at hmem
        cases hmem
      · rw [hfound, List.mem_singleton] at hmem
        rw [hmem]
        exact hcases
    · exact .inl (hplain _ hmember hname)
  rcases hvalue with hvalue | ⟨n, rfl, hlow, hhigh⟩
  · cases value with
    | null => exact ⟨trivial, _, .null⟩
    | boolean b => exact ⟨trivial, _, .boolean⟩
    | string content => exact ⟨trivial, _, .string⟩
    | _ => cases hvalue
  · exact ⟨trivial, _, Written.reads_integer hlow hhigh⟩

private theorem RecordedBy.length_le_one (h : event.RecordedBy written) {name : String}
    (hname : name ∈ event.kind.knownNames) : (valuesOf name written).length ≤ 1 := by
  rcases h.values_of_known hname with hnone | ⟨value, hvalue, -⟩
  · rw [hnone]
    exact Nat.zero_le 1
  · rw [hvalue]
    exact Nat.le_refl 1

private theorem RecordedBy.not_defective (h : event.RecordedBy written) : ¬Defective written := by
  have htag_eq : ∀ {tag : String}, .string tag ∈ valuesOf "event" written → tag = event.kind.tag := by
    intro tag htag
    rw [h.tagged, List.mem_singleton] at htag
    exact Written.string.inj htag
  intro hdefective
  cases hdefective with
  | unknownKind htag hunknown => exact hunknown event.kind (htag_eq htag)
  | repeated htag hname htwice =>
    obtain rfl := EventKind.tag_injective (htag_eq htag)
    exact absurd (Nat.le_trans htwice (h.length_le_one hname)) (by decide)
  | repeatedTag htwice =>
    rw [h.tagged] at htwice
    exact Nat.not_succ_le_self 1 htwice
  | word htag hname hvalue hrange =>
    obtain rfl := EventKind.tag_injective (htag_eq htag)
    obtain ⟨word, hentry⟩ := exists_mem_entries hname
    rcases h.gives.words _ hentry with hword | ⟨-, hnone⟩
    · rw [hword, List.mem_singleton] at hvalue
      have hlimit : (word.toNat : Int) < 2 ^ 64 := Int.ofNat_lt.2 word.toNat_lt
      have hn : _ = (word.toNat : Int) := Written.integer_injective hvalue
      omega
    · rw [hnone] at hvalue
      cases hvalue
  | arrival htag hvalue hrange =>
    obtain ⟨time, htime⟩ := exists_arrival (EventKind.tag_injective (htag_eq htag)).symm
    rcases h.gives.arrival time htime with hmoment | ⟨-, hnone⟩
    · rw [hmoment, List.mem_singleton] at hvalue
      cases time with
      | none => cases hvalue
      | some time =>
        have hlow : -2 ^ 63 ≤ time.toInt := time.le_toInt
        have hhigh : time.toInt < 2 ^ 63 := time.toInt_lt
        have hn := Written.integer_injective hvalue
        omega
    · rw [hnone] at hvalue
      cases hvalue
  | missing htag hkind hname hnone =>
    obtain rfl := EventKind.tag_injective (htag_eq htag)
    obtain ⟨word, hentry⟩ := exists_mem_entries hname
    have hdense : event.kind.sparse = false := by
      rcases hkind with hkind | hkind <;> rw [hkind] <;> rfl
    rcases h.gives.words _ hentry with hword | ⟨⟨hsparse, -⟩, -⟩
    · cases hnone.symm.trans hword
    · cases hdense.symm.trans hsparse

end reading

/-! ### Lines -/

section lines

variable {number : Nat} {written : List (String × Written)} {text before after : List Char}
  {line : String}

private theorem ofLine_object (htext : Spaced (Written.object written).lexemes text)
    (hbefore : ∀ c ∈ before, Text.IsWhiteSpace c) (hafter : ∀ c ∈ after, Text.IsWhiteSpace c)
    (hline : line.toList = before ++ text ++ after) (number : Nat) :
    ofLine number line =
      match ofTokens (lexed (Written.object written).lexemes) with
      | .ok event => .ok (some event)
      | .error error => .error ⟨number, error⟩ := by
  have hparted : Json.Parted (Written.object written).lexemes := by
    have h := (Written.object written).parted_lexemes
      (show Json.Follows [] from ⟨fun _ hnone => (nomatch hnone), .nil⟩)
    rwa [List.append_nil] at h
  obtain ⟨htrimmed, tail, htail⟩ := htext.trimmed_eq
    (fun c hc => Text.isBlank_of_isWhiteSpace (hbefore c hc))
    (fun c hc => Text.isBlank_of_isWhiteSpace (hafter c hc))
  rw [ofLine, hline, htrimmed, ← Json.tokens_spaced htext hparted]
  subst htail
  rfl

private theorem spelled_of_spaced (htext : Spaced (Written.object written).lexemes text)
    (name : String) (literal : Literal) (hmember : (name, .number literal) ∈ written) :
    ∃ spelled, LiteralText literal spelled := by
  have hlexeme : .number literal ∈ (Written.object written).lexemes := by
    rw [Written.lexemes]
    refine List.mem_cons_of_mem _ (List.mem_append_left _ ?_)
    exact Written.mem_memberLexemes hmember List.mem_cons_self
  obtain ⟨spelled, h⟩ := htext.exists_spelling hlexeme
  cases h with
  | number h => exact ⟨spelled, h⟩

/-- An event reads as itself from every line with an object that records it, whatever the order and the
spelling of the members, the white space, and other members, which hold no numbers. A line with an object
reads as no event that the object does not record. If the object has a defect the line is an error, which
tells the number of the line. -/
theorem recorded_decodes (htext : Spaced (Written.object written).lexemes text)
    (hbefore : ∀ c ∈ before, Text.IsWhiteSpace c) (hafter : ∀ c ∈ after, Text.IsWhiteSpace c)
    (hline : line.toList = before ++ text ++ after) (number : Nat) :
    (∀ event : NodeEvent, event.RecordedBy written →
      (∀ member ∈ written, member.1 ∉ event.kind.knownNames → Plain member.2) →
      ofLine number line = .ok (some event)) ∧
    (∀ event : NodeEvent, ofLine number line = .ok (some event) → event.RecordedBy written) ∧
    (Defective written → ∃ error, ofLine number line = .error ⟨number, error⟩) := by
  have hread := ofLine_object htext hbefore hafter hline number
  have hspelled := spelled_of_spaced htext
  have hrecorded : ∀ event, ofLine number line = .ok (some event) → event.RecordedBy written := by
    intro event h
    rw [hread] at h
    cases htokens : ofTokens (lexed (Written.object written).lexemes) with
    | error error =>
      rw [htokens] at h
      cases h
    | ok found =>
      rw [htokens] at h
      cases h
      obtain ⟨kind, members, htaken, hmembers⟩ := exists_taken_of_ofTokens htokens
      obtain ⟨rfl, hgiven⟩ := ofMembers_ok_iff.1 hmembers
      exact ⟨htaken.tags_eq, (htaken.gives_iff hspelled).2 hgiven⟩
  refine ⟨fun event h hplain => ?_, hrecorded, fun hdefective => ?_⟩
  · have htags : tags none ++ valuesOf tagName written = tags (some event.kind) := h.tagged
    obtain ⟨members, htaken⟩ := exists_taken htags fun member hmember _ =>
      (h.readable hplain hmember).2
    have hmembers : ofMembers event.kind members = .ok event :=
      ofMembers_ok_iff.2 ⟨rfl, (htaken.gives_iff hspelled).1 h.gives⟩
    rw [hread, ofTokens_of_taken htaken (fun member hmember => (h.readable hplain hmember).1) hmembers]
  · rw [hread]
    cases htokens : ofTokens (lexed (Written.object written).lexemes) with
    | error error => exact ⟨error, rfl⟩
    | ok event =>
      rw [htokens] at hread
      exact absurd hdefective (hrecorded event hread).not_defective

/-- A block sample between blanks, with a height, an unknown member and the kind behind them; and a popped
block whose height is there twice. -/
theorem recorded_decodes_height :
    let line := "\u3000\x7b\"height\": 7,\"note\":true,\"event\":\"performance\"\x7d\t"
    let twice := "\x7b\"event\":\"block_popped\",\"height\":7,\"height\":7\x7d"
    ofLine 3 line = .ok (some (.performance { height := 7 } none)) ∧
      ∃ error, ofLine 4 twice = .error ⟨4, error⟩ := by
  intro line twice
  have hbare : ∀ content ∈ ["height", "note", "event", "performance", "block_popped"],
      Spelling (.string content) ('"' :: content.toList ++ ['"']) := by
    have hall : ∀ content ∈ ["height", "note", "event", "performance", "block_popped"],
        content.toList.all Json.isBare = true := by
      decide +kernel
    exact fun content hcontent => .string (Json.contentText_bare (hall content hcontent))
  have hseven : Spelling (.number (.ofInt 7)) ['7'] := .number (Json.literalText_ofInt 7)
  have hnone : Json.IsGap [] := fun _ hc => nomatch hc
  have hblank : Json.IsGap [' '] := by
    simp [Json.IsGap]
  constructor
  · let written : List (String × Written) :=
      [("height", .integer 7), ("note", .boolean true), ("event", .string "performance")]
    have htext : Spaced (Written.object written).lexemes _ :=
      .cons .openBrace hnone (.cons (hbare "height" (by decide)) hnone (.cons .colon hblank
        (.cons hseven hnone (.cons .comma hnone (.cons (hbare "note" (by decide)) hnone
        (.cons .colon hnone (.cons .yes hnone (.cons .comma hnone
        (.cons (hbare "event" (by decide)) hnone (.cons .colon hnone
        (.cons (hbare "performance" (by decide)) hnone (.last .closeBrace))))))))))))
    have hbefore : ∀ c ∈ ['\u3000'], Text.IsWhiteSpace c := by
      simp [Text.IsWhiteSpace, Text.whiteSpace]
    have hafter : ∀ c ∈ ['\t'], Text.IsWhiteSpace c := by
      simp [Text.IsWhiteSpace, Text.whiteSpace]
    obtain ⟨hreads, -⟩ := recorded_decodes htext hbefore hafter
      (show line.toList = _ by decide +kernel) 3
    refine hreads _ ⟨rfl, ?_, ?_⟩ ?_
    · simp [entries, kind, words, EventKind.wordNames, EventKind.sparse, written, valuesOf]
    · simp [arrival?, written, valuesOf]
    · simp [written, EventKind.knownNames, EventKind.wordNames, kind, Plain]
  · let written : List (String × Written) :=
      [("event", .string "block_popped"), ("height", .integer 7), ("height", .integer 7)]
    have htext : Spaced (Written.object written).lexemes _ :=
      .cons .openBrace hnone (.cons (hbare "event" (by decide)) hnone (.cons .colon hnone
        (.cons (hbare "block_popped" (by decide)) hnone (.cons .comma hnone
        (.cons (hbare "height" (by decide)) hnone (.cons .colon hnone
        (.cons hseven hnone (.cons .comma hnone
        (.cons (hbare "height" (by decide)) hnone (.cons .colon hnone
        (.cons hseven hnone (.last .closeBrace))))))))))))
    have hnowhere : ∀ c ∈ [], Text.IsWhiteSpace c := fun _ hc => nomatch hc
    obtain ⟨-, -, hdefect⟩ := recorded_decodes htext hnowhere hnowhere
      (show twice.toList = _ by decide +kernel) 4
    have htag : .string EventKind.blockPopped.tag ∈ valuesOf "event" written := by
      simp [written, valuesOf, EventKind.tag]
    have hname : "height" ∈ EventKind.blockPopped.knownNames := by
      decide
    have htwice : 2 ≤ (valuesOf "height" written).length := by
      simp [written, valuesOf]
    exact hdefect (.repeated htag hname htwice)

end lines

end NodeEvent

end NodeTelemetry
