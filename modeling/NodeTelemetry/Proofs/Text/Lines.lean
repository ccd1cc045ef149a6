import NodeTelemetry.Replay

/-!
Lines of bytes and lines of text. No byte of an encoded character but those of a newline and a carriage
return themselves looks like one, so cutting the bytes of a text into lines cuts the text into lines.
-/

set_option autoImplicit false

namespace NodeTelemetry

def textLines : List Char → List (List Char)
  | [] => []
  | '\n' :: rest => [] :: textLines rest
  | '\r' :: '\n' :: rest => [] :: textLines rest
  | c :: rest =>
    match textLines rest with
    | [] => [[c]]
    | line :: lines => (c :: line) :: lines

def encoded (text : List Char) : List UInt8 := text.flatMap String.utf8EncodeChar

private theorem toList_toUTF8 (text : String) : text.toUTF8.data.toList = encoded text.toList := by
  rw [String.toUTF8_eq_toByteArray, ← String.utf8Encode_toList]
  exact List.toList_data_toByteArray

private theorem fromUTF8?_encoded (text : List Char) :
    String.fromUTF8? ⟨(encoded text).toArray⟩ = some (String.ofList text) := by
  have hbytes : (⟨(encoded text).toArray⟩ : ByteArray) = text.utf8Encode := by
    refine ByteArray.ext ?_
    exact List.data_toByteArray.symm
  rw [hbytes, String.fromUTF8?, dif_pos ByteArray.isValidUTF8_utf8Encode]
  refine congrArg some (String.toByteArray_inj.1 ?_)
  rw [String.toByteArray_ofList]
  rfl

/-! ### Bytes of characters -/

private theorem utf8EncodeChar_cases (c : Char) :
    (c.val.toNat < 128 ∧ String.utf8EncodeChar c = [UInt8.ofNat c.val.toNat]) ∨
      (128 ≤ c.val.toNat ∧ String.utf8EncodeChar c ≠ [] ∧
        ∀ byte ∈ String.utf8EncodeChar c, 128 ≤ byte.toNat) := by
  by_cases hsmall : c.val.toNat < 128
  · refine .inl ⟨hsmall, ?_⟩
    have hle : c.val.toNat ≤ 127 := by omega
    rw [String.utf8EncodeChar, if_pos hle]
  · refine .inr ⟨by omega, String.utf8EncodeChar_ne_nil, ?_⟩
    have hle : ¬c.val.toNat ≤ 127 := by omega
    unfold String.utf8EncodeChar
    simp only [hle, if_false]
    split
    · simp only [List.mem_cons, List.not_mem_nil, or_false, forall_eq_or_imp, forall_eq, UInt8.toNat_ofNat']
      omega
    · split
      · simp only [List.mem_cons, List.not_mem_nil, or_false, forall_eq_or_imp, forall_eq, UInt8.toNat_ofNat']
        omega
      · simp only [List.mem_cons, List.not_mem_nil, or_false, forall_eq_or_imp, forall_eq, UInt8.toNat_ofNat']
        omega

private theorem toNat_eq_of_ofNat {value : Nat} {byte : UInt8} (hsmall : value < 128)
    (h : UInt8.ofNat value = byte) : value = byte.toNat := by
  rw [← h, UInt8.toNat_ofNat']
  omega

/-! ### Lines -/

private def prepend {β : Type} (part : List β) : List (List β) → List (List β)
  | [] => [part]
  | line :: lines => (part ++ line) :: lines

private theorem splitLines_cons {byte : UInt8} {rest : List UInt8} (hnewline : byte ≠ 10)
    (hreturn : byte = 13 → ∀ later, rest ≠ 10 :: later) :
    splitLines (byte :: rest) = prepend [byte] (splitLines rest) := by
  rw [splitLines.eq_def]
  split
  next heq => cases heq
  next heq =>
    cases heq
    exact absurd rfl hnewline
  next later heq =>
    cases heq
    exact absurd rfl (hreturn rfl later)
  next heq =>
    cases heq
    cases splitLines rest with
    | nil => rfl
    | cons line lines => rfl

private theorem splitLines_append {bytes rest : List UInt8} (hsome : bytes ≠ [])
    (hbytes : ∀ byte ∈ bytes, 128 ≤ byte.toNat) :
    splitLines (bytes ++ rest) = prepend bytes (splitLines rest) := by
  induction bytes with
  | nil => exact absurd rfl hsome
  | cons byte bytes ih =>
    have hlarge : 128 ≤ byte.toNat := hbytes byte List.mem_cons_self
    have hnewline : byte ≠ 10 := by
      rintro rfl
      exact absurd hlarge (by decide)
    have hreturn : byte ≠ 13 := by
      rintro rfl
      exact absurd hlarge (by decide)
    have hfirst : splitLines (byte :: (bytes ++ rest)) =
        prepend [byte] (splitLines (bytes ++ rest)) :=
      splitLines_cons hnewline fun h => absurd h hreturn
    rw [List.cons_append, hfirst]
    cases bytes with
    | nil => rfl
    | cons next bytes =>
      rw [ih (List.cons_ne_nil _ _) fun other hother => hbytes other (List.mem_cons_of_mem _ hother)]
      cases splitLines rest with
      | nil => rfl
      | cons line lines => rfl

private theorem exists_newline_of_encoded {text : List Char} {later : List UInt8}
    (h : encoded text = 10 :: later) : ∃ rest, text = '\n' :: rest := by
  cases text with
  | nil => cases h
  | cons c rest =>
    have hbytes : String.utf8EncodeChar c ++ encoded rest = 10 :: later := h
    rcases utf8EncodeChar_cases c with ⟨hsmall, hchar⟩ | ⟨-, hsome, hlarge⟩
    · rw [hchar, List.singleton_append] at hbytes
      have hbyte : UInt8.ofNat c.val.toNat = 10 := (List.cons.inj hbytes).1
      have hvalue : c.val.toNat = 10 := toNat_eq_of_ofNat hsmall hbyte
      have hc : c = '\n' := Char.ext (UInt32.toNat_inj.1 hvalue)
      exact ⟨rest, by rw [hc]⟩
    · obtain ⟨byte, bytes, hchar⟩ := List.exists_cons_of_ne_nil hsome
      rw [hchar, List.cons_append] at hbytes
      have hbyte : byte = 10 := (List.cons.inj hbytes).1
      have hmem : byte ∈ String.utf8EncodeChar c := by
        rw [hchar]
        exact List.mem_cons_self
      have hlarge := hlarge byte hmem
      rw [hbyte] at hlarge
      exact absurd hlarge (by decide)

private theorem splitLines_encoded_cons {c : Char} {rest : List Char} (hnewline : c ≠ '\n')
    (hreturn : ∀ later, c = '\r' → rest ≠ '\n' :: later) :
    splitLines (encoded (c :: rest)) =
      prepend (String.utf8EncodeChar c) (splitLines (encoded rest)) := by
  have hcons : encoded (c :: rest) = String.utf8EncodeChar c ++ encoded rest := rfl
  rw [hcons]
  rcases utf8EncodeChar_cases c with ⟨hsmall, hchar⟩ | ⟨-, hsome, hlarge⟩
  · rw [hchar, List.singleton_append]
    refine splitLines_cons (fun hbyte => hnewline ?_) fun hbyte later hlater => ?_
    · exact Char.ext (UInt32.toNat_inj.1 (toNat_eq_of_ofNat hsmall hbyte))
    · obtain ⟨after, hafter⟩ := exists_newline_of_encoded hlater
      have hc : c = '\r' := Char.ext (UInt32.toNat_inj.1 (toNat_eq_of_ofNat hsmall hbyte))
      exact hreturn after hc hafter
  · exact splitLines_append hsome hlarge

/-- The lines of a text's bytes are the bytes of the text's lines. -/
theorem splitLines_encoded (text : List Char) :
    splitLines (encoded text) = (textLines text).map encoded := by
  fun_induction textLines text with
  | case1 => rfl
  | case2 rest ih =>
    have hfirst : splitLines (10 :: encoded rest) = [] :: splitLines (encoded rest) := by
      rw [splitLines]
    exact hfirst.trans (congrArg _ ih)
  | case3 rest ih =>
    have hfirst : splitLines (13 :: 10 :: encoded rest) = [] :: splitLines (encoded rest) := by
      rw [splitLines]
    exact hfirst.trans (congrArg _ ih)
  | case4 c rest hnewline hreturn hlines ih =>
    rw [splitLines_encoded_cons hnewline hreturn, ih, hlines]
    exact congrArg (fun bytes => [bytes]) (List.append_nil _).symm
  | case5 c rest hnewline hreturn line lines hlines ih =>
    rw [splitLines_encoded_cons hnewline hreturn, ih, hlines]
    rfl

theorem recordingLines_toUTF8 (text : String) :
    recordingLines text.toUTF8.data.toList =
      (textLines text.toList).map fun line => some (String.ofList line) := by
  rw [recordingLines, toList_toUTF8, splitLines_encoded, List.map_map]
  exact List.map_congr_left fun line _ => fromUTF8?_encoded line

end NodeTelemetry
