import NodeTelemetry.Dashboard
import NodeTelemetry.Proofs.Catalogue
import NodeTelemetry.Proofs.NameMap
import NodeTelemetry.Proofs.Series

/-!
Runs of batches on a dashboard. The charts see only the points of a run, each chart those of its own
name; a readout that is shown is the latest one of its name.
-/

set_option autoImplicit false

namespace NodeTelemetry

variable {α : Type}

def Update.pointFor? (name : String) : Update α → Option (Point α)
  | .point series x y => if series = name then some ⟨x, y⟩ else none
  | .readout _ => none

def Update.readout? : Update α → Option (Readout α)
  | .point _ _ _ => none
  | .readout shown => some shown

def Update.subject : Update α → String
  | .point series _ _ => series
  | .readout shown => shown.name

def Batch.pointsFor (name : String) (batch : Batch α) : List (Point α) :=
  batch.updates.filterMap (Update.pointFor? name)

def Batch.readouts (batch : Batch α) : List (Readout α) :=
  batch.updates.filterMap Update.readout?

namespace Batch

variable {batch : Batch α} {name : String}

theorem pointsFor_eq_nil (h : ∀ update ∈ batch.updates, update.subject ≠ name) :
    batch.pointsFor name = [] := by
  refine List.filterMap_eq_nil_iff.2 fun update hupdate => ?_
  have hne := h update hupdate
  cases update with
  | point series x y => exact if_neg hne
  | readout shown => rfl

theorem exists_subject_of_readout {readout : Readout α} (h : readout ∈ batch.readouts) :
    ∃ update ∈ batch.updates, update.subject = readout.name := by
  obtain ⟨update, hupdate, hshown⟩ := List.mem_filterMap.1 h
  refine ⟨update, hupdate, ?_⟩
  cases update with
  | point series x y => cases hshown
  | readout shown =>
    cases hshown
    rfl

end Batch

def Readout.latest? (name : String) (readouts : List (Readout α)) : Option (Readout α) :=
  readouts.reverse.find? (·.name = name)

namespace Readout

variable {name : String} {readouts : List (Readout α)}

theorem latest?_append (first second : List (Readout α)) :
    latest? name (first ++ second) = (latest? name second).or (latest? name first) := by
  rw [latest?, List.reverse_append, List.find?_append]
  rfl

theorem latest?_eq_none (h : ∀ readout ∈ readouts, readout.name ≠ name) :
    latest? name readouts = none := by
  rw [latest?, List.find?_eq_none]
  intro readout hreadout hname
  exact h readout (List.mem_reverse.1 hreadout) (of_decide_eq_true hname)

theorem mem_of_latest? {readout : Readout α} (h : latest? name readouts = some readout) :
    readout ∈ readouts ∧ readout.name = name := by
  have hname := List.find?_some h
  exact ⟨List.mem_reverse.1 (List.mem_of_find?_eq_some h), of_decide_eq_true hname⟩

theorem latest?_of_unique {readout : Readout α} (hmem : readout ∈ readouts)
    (hunique : ∀ other ∈ readouts, other.name = readout.name → other = readout) :
    latest? readout.name readouts = some readout :=
  NameMap.find?_reverse_of_unique hmem hunique

end Readout

namespace Dashboard

private theorem overlay_append (first second : List (Readout α)) (shown : NameMap (Readout α)) :
    overlay (first ++ second) shown = overlay second (overlay first shown) :=
  List.foldl_append

theorem get?_overlay (readouts : List (Readout α)) (shown : NameMap (Readout α)) (name : String) :
    (overlay readouts shown).get? name = (Readout.latest? name readouts).or (shown.get? name) := by
  have hlast := NameMap.get?_foldl_insert Readout.name id readouts shown name
  rwa [Option.map_id] at hlast

end Dashboard

variable [Scalar α]

def SeriesStore.insertAll (store : SeriesStore α) (points : String → List (Point α)) :
    SeriesStore α :=
  ⟨store.charts.map fun name chart => { chart with series := chart.series.insertAll (points name) }⟩

def Dashboard.applyAll (dashboard : Dashboard α) (batches : List (Batch α)) : Dashboard α :=
  batches.foldl apply dashboard

/-! ### Charts -/

namespace SeriesStore

theorem get?_insertAll (store : SeriesStore α) (points : String → List (Point α)) (name : String) :
    (store.insertAll points).charts.get? name = (store.charts.get? name).map fun chart =>
      { chart with series := chart.series.insertAll (points name) } :=
  NameMap.get?_map _ _ _

private theorem insertAll_nil (store : SeriesStore α) : store.insertAll (fun _ => []) = store :=
  congrArg mk (NameMap.map_id store.charts)

theorem insertAll_insertAll (store : SeriesStore α) (first second : String → List (Point α)) :
    (store.insertAll first).insertAll second =
      store.insertAll fun name => first name ++ second name := by
  simp only [insertAll, NameMap.map_map, Series.insertAll_append]

private theorem insert_eq_insertAll (store : SeriesStore α) (series : String) (x y : α) :
    store.insert series x y =
      store.insertAll fun name => if series = name then [⟨x, y⟩] else [] := by
  refine congrArg mk (NameMap.map_congr fun name chart _ => ?_)
  by_cases h : series = name
  · subst h
    simp [Series.insertAll]
  · simp [h, Ne.symm h, Series.insertAll]

end SeriesStore

namespace Dashboard

theorem series_foldl_update (dashboard : Dashboard α) (updates : List (Update α)) :
    (updates.foldl update dashboard).series =
      dashboard.series.insertAll fun name =>
        updates.filterMap (Update.pointFor? name) := by
  induction updates generalizing dashboard with
  | nil => exact (SeriesStore.insertAll_nil dashboard.series).symm
  | cons first updates ih =>
    rw [List.foldl_cons, ih]
    cases first with
    | readout => rfl
    | point series x y =>
      have hinsert := SeriesStore.insert_eq_insertAll dashboard.series series x y
      rw [update, hinsert, SeriesStore.insertAll_insertAll]
      congr 1
      funext name
      by_cases h : series = name
      · simp [Update.pointFor?, h]
      · simp [Update.pointFor?, h]

theorem series_apply (dashboard : Dashboard α) (batch : Batch α) :
    (dashboard.apply batch).series = dashboard.series.insertAll fun name => batch.pointsFor name :=
  series_foldl_update dashboard batch.updates

theorem series_applyAll (dashboard : Dashboard α) (batches : List (Batch α)) :
    (dashboard.applyAll batches).series =
      dashboard.series.insertAll fun name => batches.flatMap (Batch.pointsFor name) := by
  induction batches generalizing dashboard with
  | nil => exact (SeriesStore.insertAll_nil dashboard.series).symm
  | cons batch batches ih =>
    have hrest := ih (dashboard.apply batch)
    rw [series_apply, SeriesStore.insertAll_insertAll] at hrest
    exact hrest

/-! ### Readouts -/

private theorem readouts_foldl_update (dashboard : Dashboard α) (updates : List (Update α)) :
    (updates.foldl update dashboard).readouts =
      overlay (updates.filterMap Update.readout?) dashboard.readouts := by
  induction updates generalizing dashboard with
  | nil => rfl
  | cons first updates ih =>
    rw [List.foldl_cons, ih]
    cases first with
    | point => rfl
    | readout => rfl

theorem readouts_apply (dashboard : Dashboard α) (batch : Batch α) :
    (dashboard.apply batch).readouts = overlay batch.readouts dashboard.readouts :=
  readouts_foldl_update dashboard batch.updates

theorem readouts_applyAll (dashboard : Dashboard α) (batches : List (Batch α)) :
    (dashboard.applyAll batches).readouts =
      overlay (batches.flatMap Batch.readouts) dashboard.readouts := by
  induction batches generalizing dashboard with
  | nil => rfl
  | cons batch batches ih =>
    have hrest := ih (dashboard.apply batch)
    rw [readouts_apply, ← overlay_append] at hrest
    exact hrest

/-! ### The latest height and the count -/

private theorem lastHeight_foldl_update (dashboard : Dashboard α) (updates : List (Update α)) :
    (updates.foldl update dashboard).lastHeight = dashboard.lastHeight := by
  induction updates generalizing dashboard with
  | nil => rfl
  | cons first updates ih =>
    rw [List.foldl_cons, ih]
    cases first <;> rfl

theorem lastHeight_apply (dashboard : Dashboard α) (batch : Batch α) :
    (dashboard.apply batch).lastHeight = heightAfter batch.kind dashboard.lastHeight := by
  rw [apply, lastHeight_foldl_update]

private theorem commits_foldl_update (dashboard : Dashboard α) (updates : List (Update α)) :
    (updates.foldl update dashboard).commits = dashboard.commits := by
  induction updates generalizing dashboard with
  | nil => rfl
  | cons first updates ih =>
    rw [List.foldl_cons, ih]
    cases first <;> rfl

theorem commits_apply (dashboard : Dashboard α) (batch : Batch α) :
    (dashboard.apply batch).commits = dashboard.commits + 1 := by
  rw [apply, commits_foldl_update]

end Dashboard

end NodeTelemetry
