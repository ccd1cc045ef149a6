import Mathlib.Data.List.TakeWhile
import NodeTelemetry.Http
import NodeTelemetry.Proofs.Text

/-!
Requests for a window. A size in digits comes out of a path as it went in. A request either takes the
size to the engine, which grants it, or leaves the engine as it is.
-/

set_option autoImplicit false

namespace NodeTelemetry

namespace Text

/-! ### Percent encoding -/

private theorem toList_loop (bytes : ByteArray) (i : Nat) (read : List UInt8) :
    ByteArray.toList.loop bytes i read = read.reverse ++ bytes.data.toList.drop i := by
  fun_induction ByteArray.toList.loop bytes i read with
  | case1 i read h ih =>
    have hi : i < bytes.data.toList.length := h
    have hbyte : bytes.get! i = bytes.data.toList[i] := getElem!_pos bytes.data i hi
    rw [ih, List.drop_eq_getElem_cons hi, hbyte, List.reverse_cons, List.append_assoc]
    rfl
  | case2 i read h =>
    have hi : bytes.data.toList.length ≤ i := Nat.le_of_not_lt h
    rw [List.drop_eq_nil_of_le hi, List.append_nil]

private theorem percentDecodeBytes_of_plain {bytes : List UInt8} (h : 37 ∉ bytes) :
    percentDecodeBytes bytes = bytes := by
  fun_induction percentDecodeBytes bytes with
  | case1 => simp at h
  | case2 => simp at h
  | case3 byte rest hnot ih => rw [ih (List.not_mem_of_not_mem_cons h)]
  | case4 => rfl

private theorem percentDecode?_of_plain {text : String} (h : 37 ∉ text.toByteArray.data.toList) :
    percentDecode? text = some text := by
  have hbytes : percentDecodeBytes text.toUTF8.toList = text.toByteArray.data.toList := by
    rw [ByteArray.toList, toList_loop]
    exact percentDecodeBytes_of_plain h
  rw [percentDecode?, hbytes]
  exact dif_pos text.isValidUTF8

/-! ### Digits -/

section digits

variable {c : Char} {digits : List Char}

private theorem percentDecode?_of_digits (h : ∀ c ∈ digits, c.isDigit = true) :
    percentDecode? (String.ofList digits) = some (String.ofList digits) := by
  refine percentDecode?_of_plain ?_
  rw [String.toByteArray_ofList, List.utf8Encode, List.toList_data_toByteArray, List.mem_flatMap]
  rintro ⟨c, hc, hbyte⟩
  -- a digit is one byte, which is no percent sign
  obtain ⟨hlow, hhigh⟩ := toNat_of_isDigit (h c hc)
  have hencoded : String.utf8EncodeChar c = [UInt8.ofNat c.toNat] :=
    if_pos (show c.toNat ≤ 127 by omega)
  rw [hencoded, List.mem_singleton] at hbyte
  have hvalue : 37 = c.toNat % 256 := by
    simpa using congrArg UInt8.toNat hbyte
  omega

private theorem appendDigit?_of_isDigit (h : c.isDigit = true) (n : Nat) :
    appendDigit? 10 n c = some (10 * n + (c.toNat - '0'.toNat)) := by
  obtain ⟨hlow, hhigh⟩ := toNat_of_isDigit h
  have hvalue : hexDigit? c = some (c.toNat - '0'.toNat) :=
    if_pos ⟨hlow, hhigh⟩
  have hsmall : c.toNat - '0'.toNat < 10 := by
    show c.toNat - 48 < 10
    omega
  rw [appendDigit?, hvalue]
  exact if_pos hsmall

private theorem foldlM_appendDigit? (h : ∀ c ∈ digits, c.isDigit = true) (n : Nat) :
    digits.foldlM (appendDigit? 10) n = some (Nat.ofDigitChars 10 digits n) := by
  induction digits generalizing n with
  | nil => rfl
  | cons c digits ih =>
    rw [List.foldlM_cons, appendDigit?_of_isDigit (h c List.mem_cons_self), Nat.ofDigitChars_cons]
    exact ih (fun c hc => h c (List.mem_cons_of_mem _ hc)) _

private theorem withoutPlus_of_digits (h : ∀ c ∈ digits, c.isDigit = true) :
    withoutPlus digits = digits := by
  unfold withoutPlus
  split
  · exact absurd (h '+' List.mem_cons_self) (by decide)
  · rfl

end digits

private theorem numeral?_toDigits (limit n : Nat) :
    numeral? 10 limit (Nat.toDigits 10 n) = if n ≤ limit then some n else none := by
  have hread : (Nat.toDigits 10 n).foldlM (appendDigit? 10) 0 = some n := by
    rw [foldlM_appendDigit? isDigit_of_mem_toDigits, Nat.ofDigitChars_ten_toDigits]
  have hsome : ¬(Nat.toDigits 10 n).isEmpty = true := by
    rw [List.isEmpty_iff]
    exact Nat.toDigits_ne_nil
  rw [numeral?, if_neg hsome, hread]
  rfl

end Text

namespace Http

/-! ### Sizes in paths -/

theorem readSize_toString (n : Nat) :
    readSize (toString n) = if n ≤ Word.largest then .ok n else .error (.notSize (toString n)) := by
  have hdecoded : Text.percentDecode? (toString n) = some (toString n) := by
    rw [Nat.toString_eq_ofList_toDigits]
    exact Text.percentDecode?_of_digits Text.isDigit_of_mem_toDigits
  have hsize : size? (toString n) = if n ≤ Word.largest then some n else none := by
    rw [size?, Text.toList_toString, Text.withoutPlus_of_digits Text.isDigit_of_mem_toDigits,
      Text.numeral?_toDigits]
  rw [readSize, hdecoded]
  simp only [hsize]
  by_cases hn : n ≤ Word.largest
  · simp only [if_pos hn]
  · simp only [if_neg hn]

private theorem toList_windowPath (segment : String) :
    ("/window/" ++ segment).toList =
      '/' :: 'w' :: 'i' :: 'n' :: 'd' :: 'o' :: 'w' :: '/' :: segment.toList := by
  rw [String.toList_append]
  rfl

private theorem resource?_windowPath {segment : String} (hsome : segment ≠ "")
    (hpiece : ∀ c ∈ segment.toList, c ≠ '/' ∧ c ≠ '?' ∧ c ≠ '#') :
    resource? ("/window/" ++ segment) = some (.window segment) := by
  have hkept : segment.toList.takeWhile (fun c => c != '?' && c != '#') = segment.toList :=
    List.takeWhile_eq_self_iff.2 fun c hc => by simp [hpiece c hc]
  have hwhole : withoutQuery ("/window/" ++ segment) = ("/window/" ++ segment).toList := by
    rw [withoutQuery, toList_windowPath]
    simp [hkept]
  have hpath : pathOf ("/window/" ++ segment) = ("/window/" ++ segment).toList := by
    rw [pathOf, hwhole, toList_windowPath]
    rfl
  have hsize : ¬(segment.toList.isEmpty || segment.toList.contains '/') = true := by
    simp only [Bool.or_eq_true, List.isEmpty_iff, String.toList_eq_nil_iff, List.contains_iff_mem,
      not_or]
    exact ⟨hsome, fun hc => (hpiece '/' hc).1 rfl⟩
  rw [resource?, hpath, toList_windowPath]
  simp only [if_neg hsize, String.ofList_toList]

theorem resource?_toString (n : Nat) :
    resource? ("/window/" ++ toString n) = some (.window (toString n)) := by
  refine resource?_windowPath (fun hempty => ?_) fun c hc => ?_
  · have hnone : Nat.toDigits 10 n = [] := by
      rw [← Text.toList_toString, hempty]
      rfl
    exact Nat.toDigits_ne_nil hnone
  · rw [Text.toList_toString] at hc
    have hdigit := Text.isDigit_of_mem_toDigits c hc
    refine ⟨?_, ?_, ?_⟩ <;> rintro rfl <;> exact absurd hdigit (by decide)

/-! ### What a request does -/

variable {α : Type} [Scalar α]

theorem changeWindow_cases (engine : Engine α) (segment : String) :
    (∃ window, readSize segment = .ok window ∧
        engine.setWindow window = .ok (changeWindow engine segment).1 ∧
        (changeWindow engine segment).2.status = 200) ∨
      (∀ window changed, readSize segment = .ok window → engine.setWindow window ≠ .ok changed) ∧
        (changeWindow engine segment).1 = engine ∧ (changeWindow engine segment).2.status = 400 := by
  cases hread : readSize segment with
  | error error =>
    refine .inr ⟨fun window changed hwindow => ?_, ?_, ?_⟩
    · cases hwindow
    · simp only [changeWindow, hread]
    · simp only [changeWindow, hread]
  | ok window =>
    cases hset : engine.setWindow window with
    | error error =>
      refine .inr ⟨fun asked changed hasked hchanged => ?_, ?_, ?_⟩
      · cases hasked
        cases hset.symm.trans hchanged
      · simp only [changeWindow, hread, hset]
      · simp only [changeWindow, hread, hset]
    | ok changed =>
      refine .inl ⟨window, rfl, ?_, ?_⟩
      · simp only [changeWindow, hread, hset]
      · simp only [changeWindow, hread, hset]

theorem respond_window {target segment : String} (h : resource? target = some (.window segment))
    (engine : Engine α) :
    let answer := respond engine "POST" target
    (answer.2.status = 200 ↔
      ∃ window changed, readSize segment = .ok window ∧ engine.setWindow window = .ok changed) ∧
    (∀ window changed, readSize segment = .ok window → engine.setWindow window = .ok changed →
      answer.1 = changed) ∧
    (answer.2.status ≠ 200 → answer.2.status = 400 ∧ answer.1 = engine) := by
  intro answer
  have hanswer : answer = changeWindow engine segment := by
    simp only [answer, respond, h, if_true]
  rw [hanswer]
  rcases changeWindow_cases engine segment with ⟨window, hread, hset, hstatus⟩ | ⟨hnone, hsame, hstatus⟩
  · refine ⟨⟨fun _ => ⟨window, _, hread, hset⟩, fun _ => hstatus⟩, ?_, fun hnot => absurd hstatus hnot⟩
    intro asked changed hasked hchanged
    cases hread.symm.trans hasked
    cases hset.symm.trans hchanged
    rfl
  · have hnot : (changeWindow engine segment).2.status ≠ 200 := by
      rw [hstatus]
      decide
    refine ⟨⟨fun hgranted => absurd hgranted hnot, fun ⟨window, changed, hread, hchanged⟩ => ?_⟩, ?_,
      fun _ => ⟨hstatus, hsame⟩⟩
    · exact absurd hchanged (hnone window changed hread)
    · exact fun window changed hread hchanged => absurd hchanged (hnone window changed hread)

theorem respond_cases (engine : Engine α) (method target : String) :
    (respond engine method target).1 = engine ∨
      ∃ segment, (respond engine method target).1 = (changeWindow engine segment).1 := by
  unfold respond
  split
  · exact .inl rfl
  next segment _ =>
    split
    · exact .inr ⟨segment, rfl⟩
    · exact .inl rfl
  · split
    · exact .inl rfl
    · split
      · exact .inl rfl
      · split <;> exact .inl rfl

end Http

end NodeTelemetry
