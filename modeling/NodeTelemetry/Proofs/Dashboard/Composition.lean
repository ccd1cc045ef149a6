import NodeTelemetry.Proofs.Dashboard.Commutation
import NodeTelemetry.Proofs.Scalar.FloatWords

/-!
Rollbacks in a row. Of several cuts only the lowest shows: it leaves the points that it would have left
by itself, and the readouts that an earlier cut gave anew are given anew by a later one that takes
points away. So a row of rollbacks is one rollback to the lowest of their heights.
-/

set_option autoImplicit false

namespace NodeTelemetry

open Scalar (LawfulOrder LawfulWords ofWord)

variable {α : Type} [Scalar α]

/-! ### Charts -/

section tests

variable {β : Type} {weak strong : β → Bool} (h : ∀ entry, weak entry = true → strong entry = true)

include h

private theorem dropWhile_weak_strong (entries : List β) :
    (entries.dropWhile weak).dropWhile strong = entries.dropWhile strong := by
  induction entries with
  | nil => rfl
  | cons entry entries ih =>
    by_cases hweak : weak entry = true
    · have hstrong : strong entry = true := h entry hweak
      rw [List.dropWhile_cons_of_pos hweak, List.dropWhile_cons_of_pos hstrong, ih]
    · rw [List.dropWhile_cons_of_neg hweak]

private theorem dropWhile_strong_weak (entries : List β) :
    (entries.dropWhile strong).dropWhile weak = entries.dropWhile strong := by
  induction entries with
  | nil => rfl
  | cons entry entries ih =>
    by_cases hstrong : strong entry = true
    · rw [List.dropWhile_cons_of_pos hstrong, ih]
    · have hweak : ¬weak entry = true := fun hpasses => hstrong (h entry hpasses)
      rw [List.dropWhile_cons_of_neg hstrong, List.dropWhile_cons_of_neg hweak]

end tests

namespace Series

private theorem beyond_of_le [LawfulOrder α] {low high : α} (h : Scalar.le low high = true)
    (point : Point α)
    (hbeyond : (!Scalar.le point.x high) = true) : (!Scalar.le point.x low) = true := by
  rw [Bool.not_eq_true'] at hbeyond ⊢
  rw [← Bool.not_eq_true] at hbeyond ⊢
  intro hbelow
  exact hbeyond (LawfulOrder.le_trans hbelow h)

variable [LawfulWords α]

private theorem truncate_truncate (series : Series α) (first second : UInt64) :
    (series.truncate (ofWord first)).truncate (ofWord second) =
      series.truncate (ofWord (min first second)) := by
  rw [UInt64.min_def]
  split
  next hle =>
    have hbounds : Scalar.le (ofWord first : α) (ofWord second) = true := LawfulWords.ofWord_mono hle
    simp only [truncate, dropWhile_strong_weak (beyond_of_le hbounds)]
  next hnot =>
    have hle : second ≤ first := UInt64.le_of_lt (UInt64.not_le.1 hnot)
    have hbounds : Scalar.le (ofWord second : α) (ofWord first) = true := LawfulWords.ofWord_mono hle
    simp only [truncate, dropWhile_weak_strong (beyond_of_le hbounds)]

private theorem beyond_truncate (series : Series α) (first second : UInt64) :
    series.beyond (ofWord first) + (series.truncate (ofWord first)).beyond (ofWord second) =
      series.beyond (ofWord (min first second)) := by
  have hfirst := series.size_truncate (ofWord first)
  have hsecond := (series.truncate (ofWord first)).size_truncate (ofWord second)
  have honce := series.size_truncate (ofWord (min first second))
  rw [truncate_truncate] at hsecond
  omega

end Series

namespace SeriesStore

private theorem truncate_of_beyond_eq_zero {store : SeriesStore α} {axis : Axis} {bound : α}
    (h : store.beyond axis bound = 0) : store.truncate axis bound = store := by
  refine (congrArg mk (NameMap.map_congr fun name chart hchart => ?_)).trans
    (congrArg mk (NameMap.map_id store.charts))
  by_cases haxis : chart.axis = axis
  · have hle := NameMap.le_total (fun _ chart => if chart.axis = axis
      then chart.series.beyond bound else 0) hchart
    rw [← beyond_eq_total, h, if_pos haxis] at hle
    rw [if_pos haxis, Series.truncate_of_beyond_eq_zero (Nat.le_zero.1 hle)]
  · rw [if_neg haxis]

private theorem names_readouts_truncate (store : SeriesStore α) (axis : Axis) (bound : α) :
    (store.truncate axis bound).readouts.map (·.name) = store.readouts.map (·.name) := by
  have htold (store : SeriesStore α) : store.readouts.map (·.name) =
      (catalogue.filter fun d => d.charted && d.axis = .height && d.formatter.isSome).filterMap
        fun d => (store.series? d.name).map fun _ => d.name := by
    rw [readouts, List.map_filterMap]
    refine List.filterMap_congr fun d _ => ?_
    rw [Option.map_map]
    exact congrArg (Option.map · _) (funext fun series => Readout.render_name d _)
  rw [htold, htold]
  refine List.filterMap_congr fun d _ => ?_
  rw [series?, series?, get?_truncate]
  cases store.charts.get? d.name <;> rfl

variable [LawfulWords α]

private theorem truncate_truncate (store : SeriesStore α) (axis : Axis) (first second : UInt64) :
    (store.truncate axis (ofWord first)).truncate axis (ofWord second) =
      store.truncate axis (ofWord (min first second)) := by
  simp only [truncate, NameMap.map_map]
  refine congrArg mk (NameMap.map_congr fun name chart _ => ?_)
  by_cases haxis : chart.axis = axis
  · simp only [haxis, if_true, Series.truncate_truncate]
  · simp only [haxis, if_false]

private theorem beyond_truncate (store : SeriesStore α) (axis : Axis) (first second : UInt64) :
    store.beyond axis (ofWord first) +
        (store.truncate axis (ofWord first)).beyond axis (ofWord second) =
      store.beyond axis (ofWord (min first second)) := by
  rw [beyond_eq_total, beyond_eq_total, beyond_eq_total, truncate, NameMap.total_map,
    NameMap.total, NameMap.total, NameMap.total, ← List.sum_map_add]
  refine congrArg List.sum (List.map_congr_left fun entry _ => ?_)
  by_cases haxis : entry.2.axis = axis
  · simp only [haxis, if_true, Series.beyond_truncate]
  · simp only [haxis, if_false]

end SeriesStore

/-! ### Dashboards -/

namespace Dashboard

omit [Scalar α] in
private theorem overlay_overlay_of_names {first second : List (Readout α)}
    (h : first.map (·.name) = second.map (·.name)) (shown : NameMap (Readout α)) :
    overlay second (overlay first shown) = overlay second shown := by
  refine NameMap.ext_get? fun name => ?_
  rw [get?_overlay, get?_overlay, get?_overlay]
  cases hsecond : Readout.latest? name second with
  | some readout => rfl
  | none =>
    have hnone : Readout.latest? name first = none := by
      refine Readout.latest?_eq_none fun own hown hname => ?_
      have hmem : own.name ∈ second.map (·.name) := h ▸ List.mem_map_of_mem hown
      obtain ⟨other, hother, hsame⟩ := List.mem_map.1 hmem
      rw [Readout.latest?, List.find?_eq_none] at hsecond
      exact hsecond other (List.mem_reverse.2 hother) (decide_eq_true (hsame.trans hname))
    rw [hnone, Option.none_or]

private theorem readouts_of_removed_eq_zero {dashboard : Dashboard α} {height : UInt64}
    (h : (dashboard.truncate height).2.removed = 0) : (dashboard.truncate height).2.readouts = [] :=
  if_pos h

private theorem readouts_of_removed_ne_zero {dashboard : Dashboard α} {height : UInt64}
    (h : (dashboard.truncate height).2.removed ≠ 0) :
    (dashboard.truncate height).2.readouts = (dashboard.truncate height).1.series.readouts :=
  if_neg h

private theorem readouts_truncate_eq_overlay (dashboard : Dashboard α) (height : UInt64) :
    (dashboard.truncate height).1.readouts =
      overlay (dashboard.truncate height).2.readouts dashboard.readouts :=
  rfl

private theorem lastHeight_truncate (dashboard : Dashboard α) (height : UInt64) :
    (dashboard.truncate height).1.lastHeight = dashboard.lastHeight.map (min height) := by
  show dashboard.lastHeight.map _ = _
  refine congrArg (Option.map · dashboard.lastHeight) (funext fun last => ?_)
  rw [UInt64.min_def]
  split
  next hlt => rw [if_pos (UInt64.le_of_lt hlt)]
  next hnot =>
    have hle : last ≤ height := UInt64.not_lt.1 hnot
    split
    next hge => exact UInt64.le_antisymm hle hge
    next => rfl

section words

variable [LawfulWords α]

private theorem series_truncate_truncate (dashboard : Dashboard α) (first second : UInt64) :
    ((dashboard.truncate first).1.truncate second).1.series =
      (dashboard.truncate (min first second)).1.series := by
  rw [series_truncate, series_truncate, series_truncate, SeriesStore.truncate_truncate]

private theorem removed_truncate_truncate (dashboard : Dashboard α) (first second : UInt64) :
    (dashboard.truncate first).2.removed + ((dashboard.truncate first).1.truncate second).2.removed =
      (dashboard.truncate (min first second)).2.removed := by
  rw [removed_truncate, removed_truncate, removed_truncate, series_truncate,
    SeriesStore.beyond_truncate]

/-- The second rollback gives the readouts of the one to the lower height if it takes a point away, and
the first one gives them if not. -/
theorem readouts_truncate_truncate (dashboard : Dashboard α) (first second : UInt64) :
    (if ((dashboard.truncate first).1.truncate second).2.removed = 0
        then (dashboard.truncate first).2.readouts
        else ((dashboard.truncate first).1.truncate second).2.readouts) =
      (dashboard.truncate (min first second)).2.readouts := by
  have hseries := dashboard.series_truncate_truncate first second
  have hremoved := dashboard.removed_truncate_truncate first second
  by_cases hsecond : ((dashboard.truncate first).1.truncate second).2.removed = 0
  · rw [if_pos hsecond]
    have hsame : (dashboard.truncate first).2.removed =
        (dashboard.truncate (min first second)).2.removed := by omega
    by_cases hfirst : (dashboard.truncate first).2.removed = 0
    · rw [readouts_of_removed_eq_zero hfirst, readouts_of_removed_eq_zero (hsame ▸ hfirst)]
    · have hkept : ((dashboard.truncate first).1.truncate second).1.series =
          (dashboard.truncate first).1.series := SeriesStore.truncate_of_beyond_eq_zero hsecond
      rw [readouts_of_removed_ne_zero hfirst, readouts_of_removed_ne_zero (hsame ▸ hfirst), ← hseries,
        hkept]
  · rw [if_neg hsecond]
    have honce : (dashboard.truncate (min first second)).2.removed ≠ 0 := by omega
    rw [readouts_of_removed_ne_zero hsecond, readouts_of_removed_ne_zero honce, hseries]

private theorem shown_truncate_truncate (dashboard : Dashboard α) (first second : UInt64) :
    ((dashboard.truncate first).1.truncate second).1.readouts =
      (dashboard.truncate (min first second)).1.readouts := by
  have honce := dashboard.readouts_truncate_truncate first second
  rw [readouts_truncate_eq_overlay, readouts_truncate_eq_overlay, readouts_truncate_eq_overlay,
    ← honce]
  by_cases hsecond : ((dashboard.truncate first).1.truncate second).2.removed = 0
  · rw [if_pos hsecond, readouts_of_removed_eq_zero hsecond]
    rfl
  · rw [if_neg hsecond]
    by_cases hfirst : (dashboard.truncate first).2.removed = 0
    · rw [readouts_of_removed_eq_zero hfirst]
      rfl
    · refine overlay_overlay_of_names ?_ dashboard.readouts
      rw [readouts_of_removed_ne_zero hfirst, readouts_of_removed_ne_zero hsecond,
        series_truncate (dashboard.truncate first).1, SeriesStore.names_readouts_truncate]

private theorem truncate_truncate (dashboard : Dashboard α) (first second : UInt64) :
    ((dashboard.truncate first).1.truncate second).1 =
      (dashboard.truncate (min first second)).1 := by
  ext1
  · exact dashboard.series_truncate_truncate first second
  · exact dashboard.shown_truncate_truncate first second
  · rw [lastHeight_truncate, lastHeight_truncate, lastHeight_truncate, Option.map_map]
    refine congrArg (Option.map · dashboard.lastHeight) (funext fun last => ?_)
    show min second (min first last) = min (min first second) last
    simp only [UInt64.min_def]
    grind
  · rfl

end words

end Dashboard

/-! ### Rows of rollbacks -/

attribute [ext] Truncation

namespace Truncation

variable {α : Type}

def removedInAll (truncations : List (Truncation α)) : Nat := (truncations.map (·.removed)).sum

/-- The readouts of the last rollback that took a point away; none if no rollback did. -/
def lastGiven (truncations : List (Truncation α)) : List (Readout α) :=
  ((truncations.filter (·.removed ≠ 0)).getLast?.map (·.readouts)).getD []

private theorem removedInAll_concat (truncations : List (Truncation α)) (last : Truncation α) :
    removedInAll (truncations ++ [last]) = removedInAll truncations + last.removed := by
  simp [removedInAll]

private theorem lastGiven_concat (truncations : List (Truncation α)) (last : Truncation α) :
    lastGiven (truncations ++ [last]) =
      if last.removed = 0 then lastGiven truncations else last.readouts := by
  by_cases hremoved : last.removed = 0
  · simp [lastGiven, hremoved]
  · simp [lastGiven, hremoved]

end Truncation

namespace Dashboard

/-- The dashboard after rollbacks to some heights, and what each of them has done. -/
def truncateAll (dashboard : Dashboard α) : List UInt64 → Dashboard α × List (Truncation α)
  | [] => (dashboard, [])
  | height :: heights =>
    let (cut, truncation) := dashboard.truncate height
    let (last, later) := cut.truncateAll heights
    (last, truncation :: later)

private theorem truncateAll_concat (dashboard : Dashboard α) (heights : List UInt64)
    (last : UInt64) : dashboard.truncateAll (heights ++ [last]) =
      let (cut, truncations) := dashboard.truncateAll heights
      ((cut.truncate last).1, truncations ++ [(cut.truncate last).2]) := by
  induction heights generalizing dashboard with
  | nil => rfl
  | cons height heights ih =>
    have hrest := ih (dashboard.truncate height).1
    simp only [List.cons_append, truncateAll, hrest]

variable [LawfulWords α]

private theorem truncateAll_eq (dashboard : Dashboard α) (height : UInt64) (heights : List UInt64) :
    let row := dashboard.truncateAll (height :: heights)
    let once := dashboard.truncate (heights.foldl min height)
    row.1 = once.1 ∧ Truncation.removedInAll row.2 = once.2.removed ∧
      Truncation.lastGiven row.2 = once.2.readouts := by
  induction heights using List.reverseRecOn with
  | nil =>
    have hnone := Truncation.lastGiven_concat [] (dashboard.truncate height).2
    refine ⟨rfl, rfl, hnone.trans ?_⟩
    split
    next hremoved => exact (readouts_of_removed_eq_zero hremoved).symm
    next => rfl
  | append_singleton heights last ih =>
    intro row once
    obtain ⟨hcut, hremoved, hgiven⟩ := ih
    let lowest := heights.foldl min height
    have hlowest : (heights ++ [last]).foldl min height = min lowest last := by
      rw [List.foldl_append]
      rfl
    have hrow : row = (((dashboard.truncate lowest).1.truncate last).1,
        (dashboard.truncateAll (height :: heights)).2 ++
          [((dashboard.truncate lowest).1.truncate last).2]) := by
      have hconcat := dashboard.truncateAll_concat (height :: heights) last
      simp only [hcut] at hconcat
      exact hconcat
    have honce : once = dashboard.truncate (min lowest last) := congrArg dashboard.truncate hlowest
    rw [hrow, honce]
    refine ⟨dashboard.truncate_truncate lowest last, ?_, ?_⟩
    · rw [Truncation.removedInAll_concat, hremoved]
      exact dashboard.removed_truncate_truncate lowest last
    · rw [Truncation.lastGiven_concat, hgiven]
      exact dashboard.readouts_truncate_truncate lowest last

/-- Rollbacks compose. Two of them leave the dashboard that the one to the lower height leaves, take
away as many points between them, and the last of them to take one away gives its readouts. So a rollback
that is repeated does nothing, and a row of rollbacks is one to the lowest of their heights. -/
theorem rollbacks_compose (dashboard : Dashboard α) :
    (∀ first second : UInt64,
      let cut := dashboard.truncate first
      let again := cut.1.truncate second
      let once := dashboard.truncate (min first second)
      again.1 = once.1 ∧ cut.2.removed + again.2.removed = once.2.removed ∧
        (again.2.removed ≠ 0 → again.2.readouts = once.2.readouts) ∧
        (again.2.removed = 0 → cut.2.readouts = once.2.readouts)) ∧
    (∀ height : UInt64, (dashboard.truncate height).1.truncate height =
      ((dashboard.truncate height).1, ⟨0, []⟩)) ∧
    ∀ heights : List UInt64, ∀ lowest ∈ heights.min?,
      let row := dashboard.truncateAll heights
      let once := dashboard.truncate lowest
      row.1 = once.1 ∧ Truncation.removedInAll row.2 = once.2.removed ∧
        Truncation.lastGiven row.2 = once.2.readouts := by
  refine ⟨fun first second => ?_, fun height => ?_, fun heights lowest hlowest => ?_⟩
  · intro cut again once
    have hreadouts := dashboard.readouts_truncate_truncate first second
    refine ⟨dashboard.truncate_truncate first second,
      dashboard.removed_truncate_truncate first second, fun hremoved => ?_, fun hremoved => ?_⟩
    · rwa [if_neg hremoved] at hreadouts
    · rwa [if_pos hremoved] at hreadouts
  · have hself : min height height = height := by
      rw [UInt64.min_def]
      exact ite_self height
    have hsame := dashboard.truncate_truncate height height
    have hcount := dashboard.removed_truncate_truncate height height
    rw [hself] at hsame hcount
    have hremoved : ((dashboard.truncate height).1.truncate height).2.removed = 0 := by omega
    have hreadouts := readouts_of_removed_eq_zero hremoved
    exact Prod.ext hsame (Truncation.ext hremoved hreadouts)
  · cases heights with
    | nil => cases hlowest
    | cons height heights =>
      rw [List.min?_cons', Option.mem_some_iff] at hlowest
      obtain rfl := hlowest
      exact dashboard.truncateAll_eq height heights

/-- Three rollbacks, of which the second is the lowest and the last finds nothing to take away. -/
theorem rollbacks_compose_row :
    let charts : NameMap (Chart Float) :=
      .ofList [("push_time", ⟨.height, ⟨4, [⟨4, 40⟩, ⟨3, 30⟩, ⟨2, 20⟩, ⟨1, 10⟩]⟩⟩),
        ("upload_speed", ⟨.timestamp, ⟨4, [⟨1000, 7⟩]⟩⟩)]
    let dashboard : Dashboard Float := ⟨⟨charts⟩, ∅, some 4, 5⟩
    let row := dashboard.truncateAll [3, 2, 5]
    ((dashboard.truncate 3).1.truncate 2).1 = (dashboard.truncate 2).1 ∧
      (dashboard.truncate 2).2.removed = 2 ∧
      (dashboard.truncate 3).1.truncate 3 = ((dashboard.truncate 3).1, ⟨0, []⟩) ∧
      row.1 = (dashboard.truncate 2).1 ∧ Truncation.removedInAll row.2 = 2 ∧
      (Truncation.lastGiven row.2).map (·.label) = ["20 ms - max: 20 ms"] := by
  intro charts dashboard row
  obtain ⟨hpair, hrepeated, hrow⟩ := rollbacks_compose dashboard
  have hlowest : (2 : UInt64) ∈ ([3, 2, 5] : List UInt64).min? := by decide
  have hremoved : (dashboard.truncate 2).2.removed = 2 := by decide +kernel
  have hgiven : (dashboard.truncate 2).2.readouts.map (·.label) = ["20 ms - max: 20 ms"] := by
    decide +kernel
  obtain ⟨hsame, hcount, hreadouts⟩ := hrow [3, 2, 5] 2 hlowest
  refine ⟨(hpair 3 2).1, hremoved, hrepeated 3, hsame, ?_, ?_⟩
  · rw [hcount, hremoved]
  · rw [hreadouts, hgiven]

end Dashboard

end NodeTelemetry
