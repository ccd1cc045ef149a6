import Mathlib.Data.List.Induction
import Mathlib.Data.List.Nodup
import NodeTelemetry.Event.Decode
import NodeTelemetry.Proofs.Except
import NodeTelemetry.Proofs.Json.Grammar

/-!
Fields from members. Members give a report if and only if they give each of its fields at most once and
in its range, whatever their order and whatever else there is among them; a field that is not there is
as at the start, where fields may be missing.
-/

set_option autoImplicit false

namespace NodeTelemetry

open Json (Value valuesOf valuesOf_concat_ne valuesOf_concat_self valuesOf_cons_ne
  valuesOf_cons_self)

/-- The fields of a report are told apart by their names. Each is set without a change to the others,
and together they are all that the report holds. -/
structure Field.Lawful {σ : Type} (fields : List (Field σ)) : Prop where
  distinct : (fields.map (·.name)).Nodup
  get_set : ∀ field ∈ fields, ∀ report word, field.get (field.set report word) = word
  get_set_other : ∀ field ∈ fields, ∀ other ∈ fields, field.name ≠ other.name →
    ∀ report word, other.get (field.set report word) = other.get report
  ext : ∀ first second, (∀ field ∈ fields, field.get first = field.get second) → first = second

private theorem Field.Lawful.eq_of_name {σ : Type} {fields : List (Field σ)} (h : Lawful fields)
    {field other : Field σ} (hfield : field ∈ fields) (hother : other ∈ fields)
    (hname : field.name = other.name) : field = other :=
  List.inj_on_of_nodup_map h.distinct hfield hother hname

theorem BlockSample.lawful_fields : Field.Lawful fields where
  distinct := by decide
  get_set := by simp [fields]
  get_set_other := by simp [fields]
  ext first second h := by
    simp only [fields, List.forall_mem_cons] at h
    cases first
    cases second
    simp_all

theorem QueueStatus.lawful_fields : Field.Lawful fields where
  distinct := by decide
  get_set := by simp [fields]
  get_set_other := by simp [fields]
  ext first second h := by
    simp only [fields, List.forall_mem_cons] at h
    cases first
    cases second
    simp_all

theorem VolumeCounters.lawful_fields : Field.Lawful fields where
  distinct := by decide
  get_set := by simp [fields]
  get_set_other := by simp [fields]
  ext first second h := by
    simp only [fields, List.forall_mem_cons] at h
    cases first
    cases second
    simp_all

namespace NodeEvent

theorem lawful_heightField : Field.Lawful heightField where
  distinct := by decide
  get_set := by simp [heightField]
  get_set_other := by simp [heightField]
  ext first second h := by simpa [heightField] using h

/-! ### Single values -/

def wordValue (word : UInt64) : Value := .number (.integer word.toNat)

def timeValue : Option Int64 → Value
  | none => .null
  | some time => .number (.integer time.toInt)

private theorem decodeWord_eq_ok_iff {value : Value} {word : UInt64} :
    decodeWord value = .ok word ↔ value = wordValue word := by
  constructor
  · intro h
    unfold decodeWord at h
    split at h
    next n =>
      split at h
      next hrange =>
        cases h
        have hword : n.toNat.toUInt64.toNat = n.toNat :=
          UInt64.toNat_ofNat_of_lt (Nat.lt_succ_of_le hrange.2)
        rw [wordValue, hword, Int.toNat_of_nonneg hrange.1]
      next => cases h
    next => cases h
  · rintro rfl
    have hrange : 0 ≤ (word.toNat : Int) ∧ (word.toNat : Int).toNat ≤ Word.largest :=
      ⟨Int.natCast_nonneg _, Word.le_largest_iff.2 ⟨word, rfl⟩⟩
    rw [wordValue, decodeWord, if_pos hrange, Int.toNat_natCast]
    exact congrArg Except.ok UInt64.ofNat_toNat

private theorem decodeTime_eq_ok_iff {value : Value} {time : Option Int64} :
    decodeTime value = .ok time ↔ value = timeValue time := by
  constructor
  · intro h
    unfold decodeTime at h
    split at h
    · cases h
      rfl
    next n =>
      split at h
      next hrange =>
        cases h
        rw [timeValue, Int64.toInt_ofInt_of_le]
        · exact hrange.1
        · exact Int.lt_of_le_of_lt hrange.2 (by decide)
      next => cases h
    next => cases h
  · rintro rfl
    cases time with
    | none => rfl
    | some time =>
      have hrange : Word.smallestSigned ≤ time.toInt ∧ time.toInt ≤ Word.largestSigned :=
        ⟨time.le_toInt, time.toInt_le⟩
      rw [timeValue, decodeTime, if_pos hrange, Int64.ofInt_toInt]

/-! ### The fields of a table -/

section decodeFields

variable {σ : Type} {fields : List (Field σ)} {start report : σ} {seen : List String} {members : Members}

private theorem decodeFields_concat (fields : List (Field σ)) (start : σ) (members : Members)
    (name : String) (value : Value) :
    decodeFields fields start (members ++ [(name, value)]) =
      decodeFields fields start members >>= fun (report, seen) =>
        match fields.find? (·.name = name) with
        | none => .ok (report, seen)
        | some field =>
          if seen.contains name then .error (.duplicateField name)
          else do return (field.set report (← decodeWord value), name :: seen) := by
  rw [decodeFields, List.foldlM_append]
  refine congrArg (_ >>= ·) (funext fun state => ?_)
  rw [List.foldlM_cons]
  exact bind_pure _

/-- How a field stands after members: as at the start if they have no value for it, and else with the
only one that they have. -/
inductive Held (field : Field σ) (start : σ) (members : Members) (report : σ) (seen : List String) : Prop
  | absent (hvalues : valuesOf field.name members = []) (hseen : field.name ∉ seen)
      (hget : field.get report = field.get start)
  | present (hvalues : valuesOf field.name members = [wordValue (field.get report)])
      (hseen : field.name ∈ seen)

private theorem Held.of_unchanged {field : Field σ} {members longer : Members} {report later : σ}
    {seen more : List String} (h : Held field start members report seen)
    (hvalues : valuesOf field.name longer = valuesOf field.name members)
    (hseen : field.name ∈ more ↔ field.name ∈ seen) (hget : field.get later = field.get report) :
    Held field start longer later more := by
  cases h with
  | absent hnone hnot hstart => exact .absent (hvalues.trans hnone) (mt hseen.1 hnot) (hget.trans hstart)
  | present hsome hin => exact .present (by rw [hvalues, hsome, hget]) (hseen.2 hin)

private theorem held_of_decodeFields (hlawful : Field.Lawful fields)
    (h : decodeFields fields start members = .ok (report, seen)) :
    ∀ field ∈ fields, Held field start members report seen := by
  induction members using List.reverseRecOn generalizing report seen with
  | nil =>
    cases h
    exact fun field _ => .absent rfl List.not_mem_nil rfl
  | append_singleton members member ih =>
    obtain ⟨name, value⟩ := member
    rw [decodeFields_concat] at h
    obtain ⟨⟨earlier, before⟩, hearlier, h⟩ := exists_of_bind h
    have hheld := ih hearlier
    dsimp only at h
    split at h
    next hunknown =>
      cases h
      intro field hfield
      have hname : name ≠ field.name := by
        simpa [eq_comm] using List.find?_eq_none.1 hunknown field hfield
      exact (hheld field hfield).of_unchanged (valuesOf_concat_ne hname value members) Iff.rfl rfl
    next found hfound =>
      split at h
      · cases h
      next hnew =>
        obtain ⟨word, hword, h⟩ := exists_of_bind h
        cases h
        obtain rfl : found.name = name := by
          simpa using List.find?_some hfound
        have hmem := List.mem_of_find?_eq_some hfound
        intro field hfield
        by_cases hname : found.name = field.name
        · obtain rfl := hlawful.eq_of_name hmem hfield hname
          cases hheld found hmem with
          | absent hnone =>
            refine .present ?_ List.mem_cons_self
            rw [valuesOf_concat_self, hnone, hlawful.get_set found hmem, decodeWord_eq_ok_iff.1 hword]
            rfl
          | present _ hin => exact absurd (List.contains_iff_mem.2 hin) hnew
        · refine (hheld field hfield).of_unchanged (valuesOf_concat_ne hname value members) ?_
            (hlawful.get_set_other found hmem field hfield hname earlier word)
          rw [List.mem_cons, or_iff_right fun heq => hname heq.symm]

private theorem exists_decodeFields (hlawful : Field.Lawful fields) (start : σ)
    (h : ∀ field ∈ fields, valuesOf field.name members = [] ∨
      ∃ word, valuesOf field.name members = [wordValue word]) :
    ∃ report seen, decodeFields fields start members = .ok (report, seen) := by
  induction members using List.reverseRecOn with
  | nil => exact ⟨start, [], rfl⟩
  | append_singleton members member ih =>
    obtain ⟨name, value⟩ := member
    have hlast : ∀ field ∈ fields, name = field.name →
        valuesOf field.name members = [] ∧ ∃ word, value = wordValue word := by
      rintro field hfield rfl
      have hvalues := h field hfield
      rw [valuesOf_concat_self] at hvalues
      obtain hnone | ⟨word, hsome⟩ := hvalues
      · exact absurd hnone (List.append_ne_nil_of_right_ne_nil _ (List.cons_ne_nil _ _))
      · obtain ⟨hnone, hvalue⟩ := List.append_inj' (hsome.trans (List.nil_append _).symm) rfl
        exact ⟨hnone, word, List.singleton_inj.1 hvalue⟩
    have hearlier : ∀ field ∈ fields, valuesOf field.name members = [] ∨
        ∃ word, valuesOf field.name members = [wordValue word] := by
      intro field hfield
      by_cases hname : name = field.name
      · exact .inl (hlast field hfield hname).1
      · have hvalues := h field hfield
        rw [valuesOf_concat_ne hname] at hvalues
        exact hvalues
    obtain ⟨report, seen, hdecoded⟩ := ih hearlier
    cases hfound : fields.find? (·.name = name) with
    | none =>
      refine ⟨report, seen, ?_⟩
      rw [decodeFields_concat, hdecoded]
      simp only [bind, Except.bind, hfound]
    | some found =>
      obtain rfl : found.name = name := by
        simpa using List.find?_some hfound
      have hmem := List.mem_of_find?_eq_some hfound
      obtain ⟨hnone, word, rfl⟩ := hlast found hmem rfl
      have hnew : seen.contains found.name = false := by
        cases held_of_decodeFields hlawful hdecoded found hmem with
        | absent _ hnot => simpa using hnot
        | present hsome => cases hnone.symm.trans hsome
      refine ⟨found.set report word, found.name :: seen, ?_⟩
      rw [decodeFields_concat, hdecoded]
      simp only [bind, Except.bind, hfound, hnew, decodeWord_eq_ok_iff.2 rfl]
      rfl

private theorem Held.values {field : Field σ} (h : Held field start members report seen) :
    valuesOf field.name members = [wordValue (field.get report)] ∨
      field.get report = field.get start ∧ valuesOf field.name members = [] := by
  cases h with
  | absent hnone _ hget => exact .inr ⟨hget, hnone⟩
  | present hsome => exact .inl hsome

private theorem wordValue_inj {word other : UInt64} (h : wordValue word = wordValue other) :
    word = other := by
  rw [← decodeWord_eq_ok_iff, decodeWord_eq_ok_iff.2 rfl] at h
  exact Except.ok.inj h

/-- Members give a report if they have one word for each of its fields, or none for one that is as at the
start. -/
theorem decodeFields_ok_iff (hlawful : Field.Lawful fields) :
    (∃ seen, decodeFields fields start members = .ok (report, seen)) ↔
      ∀ field ∈ fields, valuesOf field.name members = [wordValue (field.get report)] ∨
        field.get report = field.get start ∧ valuesOf field.name members = [] := by
  constructor
  · rintro ⟨seen, h⟩ field hfield
    exact (held_of_decodeFields hlawful h field hfield).values
  · intro h
    obtain ⟨found, seen, hdecoded⟩ := exists_decodeFields hlawful start fun field hfield =>
      (h field hfield).elim (fun hsome => .inr ⟨_, hsome⟩) fun hnone => .inl hnone.2
    have hsame : found = report := by
      refine hlawful.ext found report fun field hfield => ?_
      rcases (held_of_decodeFields hlawful hdecoded field hfield).values with hfound | ⟨hfound, hnone⟩ <;>
        rcases h field hfield with hreport | ⟨hreport, hnone'⟩
      · exact wordValue_inj (List.singleton_inj.1 (hfound.symm.trans hreport))
      · cases hfound.symm.trans hnone'
      · cases hnone.symm.trans hreport
      · rw [hfound, hreport]
    exact ⟨seen, hsame ▸ hdecoded⟩

theorem decodeAllFields_ok_iff (hlawful : Field.Lawful fields) :
    decodeAllFields fields start members = .ok report ↔
      ∀ field ∈ fields, valuesOf field.name members = [wordValue (field.get report)] := by
  constructor
  · intro h field hfield
    obtain ⟨⟨found, seen⟩, hdecoded, h⟩ := exists_of_bind h
    dsimp only at h
    split at h
    next => cases h
    next hall =>
      cases h
      cases held_of_decodeFields hlawful hdecoded field hfield with
      | absent _ hnot =>
        have hin := List.find?_eq_none.1 hall field hfield
        simp [hnot] at hin
      | present hsome => exact hsome
  · intro h
    have hgiven : ∀ field ∈ fields, valuesOf field.name members = [wordValue (field.get report)] ∨
        field.get report = field.get start ∧ valuesOf field.name members = [] :=
      fun field hfield => .inl (h field hfield)
    obtain ⟨seen, hdecoded⟩ := (decodeFields_ok_iff hlawful).2 hgiven
    have hall : (fields.find? fun field => !seen.contains field.name) = none := by
      refine List.find?_eq_none.2 fun field hfield => ?_
      cases held_of_decodeFields hlawful hdecoded field hfield with
      | absent hnone => cases hnone.symm.trans (h field hfield)
      | present _ hin => simpa using hin
    rw [decodeAllFields, hdecoded]
    simp only [bind, Except.bind, hall]

end decodeFields

/-! ### The time of arrival -/

/-- One member on the way to the time of arrival, and whether that was there before. -/
def takeArrival : Option Int64 × Bool → String × Value → Decoded (Option Int64 × Bool)
  | (time, seen), (name, value) =>
    if name = arrivalName then
      if seen then .error (.duplicateField name) else do return (← decodeTime value, true)
    else .ok (time, seen)

private theorem takeArrival_again {members : Members} {time : Option Int64}
    {state : Option Int64 × Bool} : members.foldlM takeArrival (time, true) = .ok state ↔
      state = (time, true) ∧ valuesOf arrivalName members = [] := by
  induction members with
  | nil =>
    refine ⟨fun h => ?_, fun ⟨hstate, _⟩ => hstate ▸ rfl⟩
    cases h
    exact ⟨rfl, rfl⟩
  | cons member members ih =>
    obtain ⟨name, value⟩ := member
    by_cases hname : name = arrivalName
    · subst hname
      rw [valuesOf_cons_self]
      exact ⟨fun h => (nomatch h), fun h => (nomatch h.2)⟩
    · rw [valuesOf_cons_ne hname, List.foldlM_cons, takeArrival, if_neg hname]
      exact ih

private theorem takeArrival_first {members : Members} {state : Option Int64 × Bool} :
    members.foldlM takeArrival (none, false) = .ok state ↔
      state.2 = true ∧ valuesOf arrivalName members = [timeValue state.1] ∨
        state = (none, false) ∧ valuesOf arrivalName members = [] := by
  induction members with
  | nil =>
    refine ⟨fun h => ?_, fun h => ?_⟩
    · cases h
      exact .inr ⟨rfl, rfl⟩
    · obtain ⟨-, hsome⟩ | ⟨rfl, -⟩ := h
      · cases hsome
      · rfl
  | cons member members ih =>
    obtain ⟨name, value⟩ := member
    by_cases hname : name = arrivalName
    · subst hname
      rw [valuesOf_cons_self]
      refine ⟨fun h => ?_, fun h => ?_⟩
      · obtain ⟨after, htake, hrest⟩ := exists_of_bind h
        obtain ⟨time, htime, heq⟩ := exists_of_bind htake
        cases heq
        obtain ⟨rfl, hnone⟩ := takeArrival_again.1 hrest
        exact .inl ⟨rfl, by rw [hnone, decodeTime_eq_ok_iff.1 htime]⟩
      · obtain ⟨hseen, hsome⟩ | ⟨-, hnone⟩ := h
        · obtain ⟨time, seen⟩ := state
          obtain ⟨rfl, hnone⟩ := List.cons_eq_cons.1 hsome
          cases hseen
          have htake : takeArrival (none, false) (arrivalName, timeValue time) = .ok (time, true) := by
            rw [takeArrival, if_pos rfl, decodeTime_eq_ok_iff.2 rfl]
            rfl
          rw [List.foldlM_cons, htake]
          exact takeArrival_again.2 ⟨rfl, hnone⟩
        · cases hnone
    · rw [valuesOf_cons_ne hname, List.foldlM_cons, takeArrival, if_neg hname]
      exact ih

theorem decodeArrival_ok_iff {members : Members} {time : Option Int64} :
    decodeArrival members = .ok time ↔
      valuesOf arrivalName members = [timeValue time] ∨
        time = none ∧ valuesOf arrivalName members = [] := by
  have hfold : decodeArrival members =
      members.foldlM takeArrival (none, false) >>= fun state => return state.1 := rfl
  rw [hfold]
  constructor
  · intro h
    obtain ⟨state, hstate, heq⟩ := exists_of_bind h
    cases heq
    rcases takeArrival_first.1 hstate with ⟨-, hsome⟩ | ⟨rfl, hnone⟩
    · exact .inl hsome
    · exact .inr ⟨rfl, hnone⟩
  · rintro (hsome | ⟨rfl, hnone⟩)
    · have hfirst : members.foldlM takeArrival (none, false) = .ok (time, true) :=
        takeArrival_first.2 (.inl ⟨rfl, hsome⟩)
      rw [hfirst]
      rfl
    · rw [takeArrival_first.2 (.inr ⟨rfl, hnone⟩)]
      rfl

end NodeEvent

end NodeTelemetry
