/-!
Finite maps from names, kept in the order of the names. The entries are a list whose names strictly
increase, so that two maps with the same look-ups are the same map and every listing is sorted.
-/

set_option autoImplicit false

namespace NodeTelemetry

/-- A finite map from names to values, sorted by name. -/
structure NameMap (β : Type) where
  toList : List (String × β)
  sorted : toList.Pairwise (fun a b => a.1 < b.1)

namespace NameMap

variable {β γ : Type}

def empty : NameMap β := ⟨[], .nil⟩

instance : EmptyCollection (NameMap β) := ⟨empty⟩

instance : Inhabited (NameMap β) := ⟨empty⟩

/-- Puts an entry at its place in a sorted list, in place of one of the same name. -/
def insertEntry (name : String) (value : β) : List (String × β) → List (String × β)
  | [] => [(name, value)]
  | entry :: rest =>
    if name < entry.1 then (name, value) :: entry :: rest
    else if name = entry.1 then (name, value) :: rest
    else entry :: insertEntry name value rest

theorem mem_insertEntry {name : String} {value : β} {entries : List (String × β)} {e : String × β}
    (h : e ∈ insertEntry name value entries) : e = (name, value) ∨ e ∈ entries := by
  induction entries with
  | nil => simpa [insertEntry] using h
  | cons entry rest ih =>
    unfold insertEntry at h
    split at h
    · simpa using h
    · split at h
      · rcases List.mem_cons.1 h with h | h
        · exact .inl h
        · exact .inr (List.mem_cons_of_mem _ h)
      · rcases List.mem_cons.1 h with h | h
        · exact .inr (h ▸ List.mem_cons_self)
        · exact (ih h).imp id (List.mem_cons_of_mem _)

theorem sorted_insertEntry (name : String) (value : β) {entries : List (String × β)}
    (h : entries.Pairwise (fun a b => a.1 < b.1)) :
    (insertEntry name value entries).Pairwise (fun a b => a.1 < b.1) := by
  induction entries with
  | nil => exact List.pairwise_singleton _ _
  | cons entry rest ih =>
    obtain ⟨hfirst, hrest⟩ := List.pairwise_cons.1 h
    unfold insertEntry
    split
    next hlt =>
      refine List.pairwise_cons.2 ⟨fun e he => ?_, h⟩
      rcases List.mem_cons.1 he with rfl | he
      · exact hlt
      · exact String.lt_trans hlt (hfirst e he)
    next hnot =>
      split
      next heq =>
        exact List.pairwise_cons.2 ⟨fun e he => by rw [heq]; exact hfirst e he, hrest⟩
      next hne =>
        refine List.pairwise_cons.2 ⟨fun e he => ?_, ih hrest⟩
        rcases mem_insertEntry he with rfl | he
        · exact Std.lt_of_le_of_ne (String.not_lt.1 hnot) (Ne.symm hne)
        · exact hfirst e he

def insert (map : NameMap β) (name : String) (value : β) : NameMap β :=
  ⟨insertEntry name value map.toList, sorted_insertEntry name value map.sorted⟩

/-- The map of a list of entries; of two entries with one name the later counts. -/
def ofList (entries : List (String × β)) : NameMap β :=
  entries.foldl (fun map entry => map.insert entry.1 entry.2) empty

def get? (map : NameMap β) (name : String) : Option β :=
  (map.toList.find? (·.1 = name)).map (·.2)

def map (f : String → β → γ) (m : NameMap β) : NameMap γ where
  toList := m.toList.map fun entry => (entry.1, f entry.1 entry.2)
  sorted := List.pairwise_map.2 m.sorted

def modify (map : NameMap β) (name : String) (f : β → β) : NameMap β :=
  map.map fun n value => if n = name then f value else value

def filter (p : String → β → Bool) (m : NameMap β) : NameMap β where
  toList := m.toList.filter fun entry => p entry.1 entry.2
  sorted := m.sorted.filter _

section changes

variable {ε : Type} (f : β → Except ε β)

/-- Changes the values of entries one by one, up to the first one that cannot be changed: what is wrong
with that one is told, and those before it are changed by then. -/
def changeInTurn : List (String × β) → List (String × β) × Option ε
  | [] => ([], none)
  | (name, value) :: rest =>
    match f value with
    | .ok changed => ((name, changed) :: (changeInTurn rest).1, (changeInTurn rest).2)
    | .error error => ((name, value) :: rest, some error)

theorem map_fst_changeInTurn (entries : List (String × β)) :
    (changeInTurn f entries).1.map (·.1) = entries.map (·.1) := by
  induction entries with
  | nil => rfl
  | cons entry rest ih =>
    unfold changeInTurn
    split
    · simp [ih]
    · rfl

/-- Changes the values in the order of their names, as far as they can be changed. -/
def change (map : NameMap β) : NameMap β × Option ε :=
  let changed := changeInTurn f map.toList
  (⟨changed.1, List.pairwise_map.1 (by
    rw [map_fst_changeInTurn]
    exact List.pairwise_map.2 map.sorted)⟩, changed.2)

end changes

def names (map : NameMap β) : List String := map.toList.map (·.1)

def values (map : NameMap β) : List β := map.toList.map (·.2)

def size (map : NameMap β) : Nat := map.toList.length

end NameMap

end NodeTelemetry
