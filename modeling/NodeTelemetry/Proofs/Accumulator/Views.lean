import NodeTelemetry.Proofs.Accumulator.Set
import NodeTelemetry.Proofs.Except

/-!
The views of the groups. They part a set between them: an accumulator is in the view of the one group
that owns it, and what is done through a view to the accumulator of a name is done to no other.
-/

set_option autoImplicit false

namespace NodeTelemetry.AccumulatorSet

variable {α : Type}

def view (set : AccumulatorSet α) (kind : GroupKind) : NameMap (OwnedAccumulator α) :=
  set.entries.filter fun _ entry => entry.owner = kind

variable {set other : AccumulatorSet α} {kind own : GroupKind} {name : String}
  {accumulator : Accumulator α}

private theorem get?_view (set : AccumulatorSet α) (kind : GroupKind) (name : String) :
    (set.view kind).get? name =
      (set.entries.get? name).filter fun entry => decide (entry.owner = kind) :=
  NameMap.get?_filter _ _ _

theorem lookup_eq_ok_iff :
    set.lookup kind name = .ok accumulator ↔ set.entries.get? name = some ⟨kind, accumulator⟩ := by
  have hlookup : set.lookup kind name = .ok accumulator ↔
      ∃ entry, (set.view kind).get? name = some entry ∧ entry.accumulator = accumulator := by
    rw [lookup, view]
    cases (set.entries.filter fun _ entry => entry.owner = kind).get? name with
    | none => simp
    | some entry => simp
  rw [hlookup, get?_view]
  constructor
  · rintro ⟨entry, hentry, rfl⟩
    obtain ⟨hfound, howner⟩ := Option.filter_eq_some_iff.1 hentry
    rw [hfound, ← of_decide_eq_true howner]
  · intro h
    exact ⟨⟨kind, accumulator⟩, by rw [h, Option.filter_some, if_pos (decide_eq_true rfl)], rfl⟩

theorem lookup_congr (h : set.view kind = other.view kind) (name : String) :
    set.lookup kind name = other.lookup kind name := by
  rw [view, view] at h
  rw [lookup, lookup, h]

theorem ext_view (h : ∀ kind, set.view kind = other.view kind) : set = other := by
  have hentries : set.entries = other.entries := by
    refine NameMap.ext_get? fun name => Option.ext fun entry => ?_
    have hfound (set : AccumulatorSet α) : set.entries.get? name = some entry ↔
        set.lookup entry.owner name = .ok entry.accumulator := lookup_eq_ok_iff.symm
    rw [hfound, hfound, lookup_congr (h entry.owner) name]
  cases set
  cases other
  exact congrArg mk hentries

/-! ### Operations -/

theorem get?_modify (set : AccumulatorSet α) (name : String) (f : Accumulator α → Accumulator α)
    (other : String) :
    (set.modify name f).get? other =
      if other = name then (set.get? other).map f else set.get? other := by
  rw [get?, modify, NameMap.get?_modify, get?]
  split
  · cases set.entries.get? other <;> rfl
  · rfl

theorem get?_of_lookup (h : set.lookup kind name = .ok accumulator) :
    set.get? name = some accumulator := by
  rw [get?, lookup_eq_ok_iff.1 h]
  rfl

theorem lookup_modify (h : set.lookup kind name = .ok accumulator)
    (f : Accumulator α → Accumulator α) :
    (set.modify name f).lookup kind name = .ok (f accumulator) := by
  rw [lookup_eq_ok_iff, modify, NameMap.get?_modify, if_pos rfl, lookup_eq_ok_iff.1 h]
  rfl

theorem lookup_modify_of_ne (set : AccumulatorSet α) (kind : GroupKind) {name other : String}
    (hother : other ≠ name) (f : Accumulator α → Accumulator α) :
    (set.modify name f).lookup kind other = set.lookup kind other := by
  have hfound : ((set.modify name f).view kind).get? other = (set.view kind).get? other := by
    rw [get?_view, get?_view, modify, NameMap.get?_modify, if_neg hother]
  rw [view, view] at hfound
  rw [lookup, lookup, hfound]

theorem modify_of_lookup (h : set.lookup kind name = .ok accumulator)
    (f : Accumulator α → Accumulator α) :
    set.modify name f = set.modify name fun _ => f accumulator := by
  refine congrArg mk (NameMap.map_congr fun other entry hentry => ?_)
  by_cases hother : other = name
  · subst hother
    rw [lookup_eq_ok_iff.1 h] at hentry
    cases hentry
    rfl
  · rw [if_neg hother, if_neg hother]

theorem view_modify (set : AccumulatorSet α) (kind : GroupKind) (name : String)
    (f : Accumulator α → Accumulator α) :
    (set.modify name f).view kind = (set.view kind).modify name fun entry =>
      { entry with accumulator := f entry.accumulator } := by
  refine NameMap.ext_get? fun other => ?_
  rw [get?_view, modify, NameMap.get?_modify, NameMap.get?_modify, get?_view]
  cases set.entries.get? other with
  | none => simp
  | some entry =>
    by_cases hother : other = name
    · simp only [hother, if_true, Option.map_some, Option.filter_some]
      split <;> rfl
    · simp only [hother, if_false]

theorem view_modify_of_lookup (h : set.lookup kind name = .ok accumulator) (hown : own ≠ kind)
    (f : Accumulator α → Accumulator α) : (set.modify name f).view own = set.view own := by
  refine NameMap.ext_get? fun other => ?_
  rw [view_modify, NameMap.get?_modify]
  split
  next heq =>
    subst heq
    rw [get?_view, lookup_eq_ok_iff.1 h, Option.filter_some,
      if_neg fun howner => hown (of_decide_eq_true howner).symm]
    rfl
  next => rfl

/-! ### Sets of descriptors -/

theorem mem_namesOf_iff :
    name ∈ set.namesOf kind ↔ ∃ accumulator, set.lookup kind name = .ok accumulator := by
  have hnames : name ∈ set.namesOf kind ↔ ∃ entry, (set.view kind).get? name = some entry := by
    constructor
    · intro h
      obtain ⟨⟨_, entry⟩, hentry, rfl⟩ := List.mem_map.1 h
      exact ⟨entry, (set.view kind).get?_eq_some_iff.2 hentry⟩
    · rintro ⟨entry, hentry⟩
      exact List.mem_map.2 ⟨(name, entry), (set.view kind).get?_eq_some_iff.1 hentry, rfl⟩
  rw [hnames]
  constructor
  · rintro ⟨entry, hentry⟩
    refine ⟨entry.accumulator, ?_⟩
    rw [lookup, ← view, hentry]
  · rintro ⟨accumulator, h⟩
    refine ⟨⟨kind, accumulator⟩, ?_⟩
    rw [get?_view, lookup_eq_ok_iff.1 h, Option.filter_some, if_pos (decide_eq_true rfl)]

/-- The last descriptor of a name, among those of accumulated metrics. -/
def lastNamed? (descriptors : List Descriptor) (name : String) : Option Descriptor :=
  (descriptors.filter (·.accumulated)).reverse.find? (·.name = name)

variable [Scalar α]

/-- The last descriptor of a name tells who owns its accumulator and how large it is. -/
theorem entries_ofDescriptors {descriptors : List Descriptor} {sizes : HistorySizes} {window : Nat}
    (h : ofDescriptors descriptors sizes window = .ok set) (name : String) :
    (lastNamed? descriptors name = none → set.entries.get? name = none) ∧
      ∀ d ∈ lastNamed? descriptors name, ∃ accumulator,
        Accumulator.ofSizes (sizes.along d.axis) window = .ok accumulator ∧
          set.entries.get? name = some ⟨d.group, accumulator⟩ := by
  obtain ⟨entries, hentries, hset⟩ := exists_of_bind h
  cases hset
  clear h
  unfold lastNamed?
  generalize descriptors.filter (·.accumulated) = ds at hentries
  induction ds using List.reverseRecOn generalizing entries with
  | nil =>
    cases hentries
    exact ⟨fun _ => rfl, fun d hd => nomatch hd⟩
  | append_singleton ds last ih =>
    obtain ⟨earlier, entry, hearlier, hentry, rfl⟩ := exists_of_mapM_concat hentries
    obtain ⟨accumulator, haccumulator, hentry⟩ := exists_of_bind hentry
    cases hentry
    have hbefore := ih earlier hearlier
    rw [List.reverse_append, List.reverse_singleton, List.singleton_append, List.find?_cons]
    simp only [NameMap.get?_ofList_concat]
    by_cases hname : name = last.name
    · simp only [hname, decide_true, if_true]
      refine ⟨fun hnone => (nomatch hnone), ?_⟩
      rintro d ⟨⟩
      exact ⟨accumulator, haccumulator, rfl⟩
    · simp only [hname, Ne.symm hname, decide_false, if_false]
      exact hbefore

variable {sizes : HistorySizes} {window : Nat}

theorem exists_entry_of_ofDescriptors (h : ofDescriptors catalogue sizes window = .ok set)
    {metric : Metric} (haccumulated : metric.descriptor.accumulated = true) :
    ∃ accumulator, Accumulator.ofSizes (sizes.along metric.descriptor.axis) window = .ok accumulator ∧
      set.entries.get? metric.name = some ⟨metric.descriptor.group, accumulator⟩ := by
  have hmem : metric.descriptor ∈ catalogue.filter (·.accumulated) :=
    List.mem_filter.2 ⟨mem_catalogue metric, haccumulated⟩
  have hlast : lastNamed? catalogue metric.descriptor.name = some metric.descriptor :=
    NameMap.find?_reverse_of_unique hmem fun other hother hname =>
      eq_of_name_eq (List.mem_filter.1 hother).1 (mem_catalogue metric) hname
  obtain ⟨accumulator, hsizes, hentry⟩ := (entries_ofDescriptors h _).2 _ hlast
  rw [Metric.descriptor_name] at hentry
  exact ⟨accumulator, hsizes, hentry⟩

theorem exists_shows_ofDescriptors (h : ofDescriptors catalogue sizes window = .ok set) :
    ∃ acc, set.Shows acc := by
  have hentries : ∀ metric : Metric, ∃ accumulator, metric.descriptor.accumulated = true →
      set.entries.get? metric.name = some ⟨metric.descriptor.group, accumulator⟩ := by
    intro metric
    by_cases haccumulated : metric.descriptor.accumulated = true
    · obtain ⟨accumulator, -, hentry⟩ := exists_entry_of_ofDescriptors h haccumulated
      exact ⟨accumulator, fun _ => hentry⟩
    · exact ⟨.empty 1 1 (by decide) (by decide), fun h => absurd h haccumulated⟩
  choose acc hacc using hentries
  exact ⟨acc, hacc⟩

theorem fits_of_ofSizes {capacity : Nat} {acc : Accumulator α}
    (h : Accumulator.ofSizes capacity window = .ok acc) : 0 < window ∧ window ≤ capacity := by
  unfold Accumulator.ofSizes at h
  split at h
  · cases h
  · split at h
    next hfits => exact hfits
    · cases h

theorem fits_of_ofDescriptors (h : ofDescriptors catalogue sizes window = .ok set) (axis : Axis) :
    0 < window ∧ window ≤ sizes.along axis := by
  cases axis with
  | height =>
    have haccumulated : Metric.pushTime.descriptor.accumulated = true := rfl
    obtain ⟨accumulator, hsizes, -⟩ := exists_entry_of_ofDescriptors h haccumulated
    exact fits_of_ofSizes hsizes
  | timestamp =>
    have haccumulated : Metric.uploadSpeed.descriptor.accumulated = true := rfl
    obtain ⟨accumulator, hsizes, -⟩ := exists_entry_of_ofDescriptors h haccumulated
    exact fits_of_ofSizes hsizes

end NodeTelemetry.AccumulatorSet
