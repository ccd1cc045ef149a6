import Mathlib
import NodeTelemetry.NameMap

/-!
Look-ups in name maps: what each operation does to the value of one name, and that a map is determined
by its look-ups.
-/

set_option autoImplicit false

namespace NodeTelemetry.NameMap

variable {β γ : Type}

private theorem find?_insertEntry (name other : String) (value : β) (entries : List (String × β)) :
    (insertEntry name value entries).find? (·.1 = other) =
      if other = name then some (name, value) else entries.find? (·.1 = other) := by
  induction entries with
  | nil =>
    by_cases h : other = name
    · subst h
      simp [insertEntry]
    · simp [insertEntry, h, Ne.symm h]
  | cons entry rest ih =>
    unfold insertEntry
    split
    next =>
      by_cases h : other = name
      · subst h
        simp
      · simp [h, Ne.symm h, List.find?_cons]
    next =>
      split
      next heq =>
        by_cases h : other = name
        · subst h
          simp
        · have hentry : entry.1 ≠ other := heq ▸ Ne.symm h
          simp [h, Ne.symm h, hentry]
      next hne =>
        by_cases h : entry.1 = other
        · subst h
          simp [Ne.symm hne]
        · simp [h, ih]

theorem get?_insert (map : NameMap β) (name other : String) (value : β) :
    (map.insert name value).get? other = if other = name then some value else map.get? other := by
  simp only [get?, insert, find?_insertEntry]
  split <;> rfl

theorem get?_map (f : String → β → γ) (m : NameMap β) (name : String) :
    (m.map f).get? name = (m.get? name).map (f name) := by
  simp only [get?, map, List.find?_map]
  cases h : m.toList.find? (·.1 = name) with
  | none => simp [h]
  | some entry =>
    have hname : entry.1 = name := by simpa using List.find?_some h
    simp [h, hname]

theorem get?_modify (m : NameMap β) (name other : String) (f : β → β) :
    (m.modify name f).get? other = if other = name then (m.get? other).map f else m.get? other := by
  rw [modify, get?_map]
  by_cases h : other = name
  · simp [h]
  · simp [h]

private theorem find?_of_mem {entries : List (String × β)} (hsorted : entries.Pairwise (·.1 < ·.1))
    {name : String} {value : β} (hmem : (name, value) ∈ entries) :
    entries.find? (·.1 = name) = some (name, value) := by
  induction entries with
  | nil => simp at hmem
  | cons entry rest ih =>
    obtain ⟨hfirst, hrest⟩ := List.pairwise_cons.1 hsorted
    rcases List.mem_cons.1 hmem with rfl | hmem
    · simp
    · have hne : entry.1 ≠ name := String.ne_of_lt (hfirst _ hmem)
      simp [hne, ih hrest hmem]

theorem get?_eq_some_iff (m : NameMap β) {name : String} {value : β} :
    m.get? name = some value ↔ (name, value) ∈ m.toList := by
  constructor
  · intro h
    obtain ⟨entry, hfind, rfl⟩ := Option.map_eq_some_iff.1 h
    have hname : entry.1 = name := by simpa using List.find?_some hfind
    exact hname ▸ List.mem_of_find?_eq_some hfind
  · intro hmem
    rw [get?, find?_of_mem m.sorted hmem]
    rfl

theorem get?_filter (m : NameMap β) (p : String → β → Bool) (name : String) :
    (m.filter p).get? name = (m.get? name).filter (p name) := by
  refine Option.ext fun value => ?_
  rw [get?_eq_some_iff, Option.filter_eq_some_iff, get?_eq_some_iff]
  exact List.mem_filter

theorem get?_foldl_insert {δ : Type} (key : δ → String) (value : δ → β) (items : List δ)
    (m : NameMap β) (name : String) :
    (items.foldl (fun m item => m.insert (key item) (value item)) m).get? name =
      ((items.reverse.find? (key · = name)).map value).or (m.get? name) := by
  induction items generalizing m with
  | nil => rfl
  | cons item items ih =>
    rw [List.foldl_cons, ih, get?_insert, List.reverse_cons, List.find?_append]
    by_cases h : name = key item
    · subst h
      cases items.reverse.find? (key · = key item) <;> simp
    · cases items.reverse.find? (key · = name) <;> simp [h, Ne.symm h]

theorem find?_reverse_of_unique {δ : Type} {key : δ → String} {items : List δ} {item : δ}
    (hitem : item ∈ items) (hunique : ∀ other ∈ items, key other = key item → other = item) :
    items.reverse.find? (key · = key item) = some item := by
  obtain ⟨found, hfound⟩ : ∃ found, items.reverse.find? (key · = key item) = some found := by
    rw [← Option.isSome_iff_exists, List.find?_isSome]
    exact ⟨item, List.mem_reverse.2 hitem, by simp⟩
  have hname : key found = key item := by simpa using List.find?_some hfound
  have hmem : found ∈ items := List.mem_reverse.1 (List.mem_of_find?_eq_some hfound)
  rw [hfound, hunique found hmem hname]

theorem get?_ofList_of_mem {δ : Type} {key : δ → String} {items : List δ} (value : δ → β)
    (hkey : ∀ a ∈ items, ∀ b ∈ items, key a = key b → a = b) {item : δ} (hitem : item ∈ items) :
    (ofList (items.map fun item => (key item, value item))).get? (key item) = some (value item) := by
  have hfind := find?_reverse_of_unique hitem fun other hother => hkey other hother item hitem
  rw [ofList, List.foldl_map, get?_foldl_insert key value, hfind]
  rfl

theorem get?_ofList_concat (entries : List (String × β)) (name other : String) (value : β) :
    (ofList (entries ++ [(name, value)])).get? other =
      if other = name then some value else (ofList entries).get? other := by
  rw [ofList, List.foldl_append]
  exact get?_insert _ _ _ _

theorem mem_ofList {entries : List (String × β)} {entry : String × β}
    (h : entry ∈ (ofList entries).toList) : entry ∈ entries := by
  induction entries using List.reverseRecOn with
  | nil => exact h
  | append_singleton earlier last ih =>
    rw [ofList, List.foldl_append] at h
    rcases mem_insertEntry h with rfl | h
    · exact List.mem_append_right _ List.mem_cons_self
    · exact List.mem_append_left _ (ih h)

private theorem insertEntry_ne_nil (name : String) (value : β) (entries : List (String × β)) :
    insertEntry name value entries ≠ [] := by
  cases entries with
  | nil => exact List.cons_ne_nil _ _
  | cons entry rest =>
    unfold insertEntry
    split
    · exact List.cons_ne_nil _ _
    · split <;> exact List.cons_ne_nil _ _

theorem ofList_ne_nil {entries : List (String × β)} (h : entries ≠ []) :
    (ofList entries).toList ≠ [] := by
  induction entries using List.reverseRecOn with
  | nil => exact absurd rfl h
  | append_singleton earlier last ih =>
    rw [ofList, List.foldl_append]
    exact insertEntry_ne_nil _ _ _

/-! ### Maps as wholes -/

theorem change_eq_map {ε : Type} {f : β → Except ε β} {g : β → β} {m : NameMap β}
    (h : ∀ value ∈ m.values, f value = .ok (g value)) :
    m.change f = (m.map fun _ value => g value, none) := by
  have hentries : ∀ entries : List (String × β), (∀ entry ∈ entries, f entry.2 = .ok (g entry.2)) →
      changeInTurn f entries = (entries.map fun entry => (entry.1, g entry.2), none) := by
    intro entries hall
    induction entries with
    | nil => rfl
    | cons entry rest ih =>
      obtain ⟨hfirst, hrest⟩ := List.forall_mem_cons.1 hall
      rw [changeInTurn, hfirst, ih hrest]
      rfl
  have hall := hentries m.toList (List.forall_mem_map.1 h)
  simp only [change, hall]
  rfl

def total (m : NameMap β) (f : String → β → Nat) : Nat :=
  (m.toList.map fun entry => f entry.1 entry.2).sum

theorem total_congr {f g : String → β → Nat} {m : NameMap β}
    (h : ∀ name value, m.get? name = some value → f name value = g name value) :
    m.total f = m.total g := by
  have hsummands : m.toList.map (fun entry => f entry.1 entry.2) =
      m.toList.map fun entry => g entry.1 entry.2 :=
    List.map_congr_left fun entry hentry =>
      h entry.1 entry.2 (m.get?_eq_some_iff.2 hentry)
  rw [total, hsummands, total]

theorem le_total (f : String → β → Nat) {m : NameMap β} {name : String} {value : β}
    (h : m.get? name = some value) : f name value ≤ m.total f := by
  have hmem := m.get?_eq_some_iff.1 h
  rw [total]
  generalize m.toList = entries at hmem
  induction entries with
  | nil => cases hmem
  | cons entry entries ih =>
    rw [List.map_cons, List.sum_cons]
    rcases List.mem_cons.1 hmem with rfl | hmem
    · exact Nat.le_add_right _ _
    · exact Nat.le_trans (ih hmem) (Nat.le_add_left _ _)

theorem total_map (f : String → β → γ) (g : String → γ → Nat) (m : NameMap β) :
    (m.map f).total g = m.total fun name value => g name (f name value) := by
  simp [total, map, Function.comp_def]

theorem eq_of_toList {m m' : NameMap β} (h : m.toList = m'.toList) : m = m' := by
  cases m
  cases m'
  cases h
  rfl

private theorem nodup_toList (m : NameMap β) : m.toList.Nodup :=
  m.sorted.imp fun h heq => String.ne_of_lt h (congrArg Prod.fst heq)

theorem ext_get? {m m' : NameMap β} (h : ∀ name, m.get? name = m'.get? name) : m = m' := by
  refine eq_of_toList (List.Perm.eq_of_pairwise (fun a b _ _ hab hba => ?_) m.sorted m'.sorted ?_)
  · exact absurd (String.lt_trans hab hba) (String.lt_irrefl _)
  · refine (List.perm_ext_iff_of_nodup m.nodup_toList m'.nodup_toList).2 fun entry => ?_
    rw [← m.get?_eq_some_iff, ← m'.get?_eq_some_iff, h]

theorem map_map {δ : Type} (f : String → β → γ) (g : String → γ → δ) (m : NameMap β) :
    (m.map f).map g = m.map fun name value => g name (f name value) :=
  eq_of_toList (by simp [map, Function.comp_def])

theorem map_id (m : NameMap β) : m.map (fun _ value => value) = m :=
  eq_of_toList (by simp [map])

theorem values_map (f : β → γ) (m : NameMap β) :
    (m.map fun _ value => f value).values = m.values.map f := by
  simp [values, map, Function.comp_def]

theorem map_congr {f g : String → β → γ} {m : NameMap β}
    (h : ∀ name value, m.get? name = some value → f name value = g name value) :
    m.map f = m.map g := by
  refine eq_of_toList (List.map_congr_left fun entry hentry => ?_)
  rw [h entry.1 entry.2 (m.get?_eq_some_iff.2 hentry)]

end NodeTelemetry.NameMap
