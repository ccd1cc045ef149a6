import NodeTelemetry.Proofs.Computation

/-!
Computations that keep to one view. Each of their steps looks up an accumulator through that view,
whatever the accumulators hold; `Within` also says what their result is like if they have one.
-/

set_option autoImplicit false

namespace NodeTelemetry.Computation

variable {α β γ : Type} {view : GroupKind} {p : β → Prop} {q : γ → Prop}

/-- All steps go through a view, and every result has a property. -/
def Within (view : GroupKind) (p : β → Prop) : Computation α β → Prop
  | done result => p result
  | fail _ => True
  | look own _ next => own = view ∧ ∀ accumulator, Within view p (next accumulator)
  | enter own _ _ next => own = view ∧ ∀ accumulator, Within view p (next accumulator)

theorem within_pure {result : β} (h : p result) : (pure result : Computation α β).Within view p := h

theorem within_reach (metric : Metric) : (reach (α := α) view metric).Within view fun _ => True :=
  ⟨rfl, fun _ => trivial⟩

theorem within_feed (metric : Metric) (value : α) :
    (feed view metric value).Within view fun _ => True :=
  ⟨rfl, fun _ => trivial⟩

theorem Within.bind {computation : Computation α β} {next : β → Computation α γ}
    (hfirst : computation.Within view p) (hnext : ∀ result, p result → (next result).Within view q) :
    (computation >>= next).Within view q := by
  show (computation.andThen next).Within view q
  induction computation with
  | done result => exact hnext result hfirst
  | fail error => trivial
  | look own metric k ih => exact ⟨hfirst.1, fun accumulator => ih accumulator (hfirst.2 accumulator)⟩
  | enter own metric value k ih =>
    exact ⟨hfirst.1, fun accumulator => ih accumulator (hfirst.2 accumulator)⟩

theorem Within.map {computation : Computation α β} (h : computation.Within view p) {f : β → γ}
    (hf : ∀ result, p result → q (f result)) : (f <$> computation).Within view q := by
  rw [← bind_pure_comp]
  exact h.bind fun result hresult => within_pure (hf result hresult)

theorem Within.mono {computation : Computation α β} {q : β → Prop} (h : computation.Within view p)
    (hpq : ∀ result, p result → q result) : computation.Within view q := by
  rw [← id_map computation]
  exact h.map hpq

/-! ### Computations over lists -/

section lists

variable {δ : Type} {f : δ → Computation α β} {items : List δ}

theorem within_mapM (h : ∀ item ∈ items, (f item).Within view p) :
    (items.mapM f).Within view fun results => ∀ result ∈ results, p result := by
  induction items with
  | nil => exact fun result hresult => nomatch hresult
  | cons item items ih =>
    have hrest := ih fun next hnext => h next (List.mem_cons_of_mem _ hnext)
    rw [List.mapM_cons]
    refine (h item List.mem_cons_self).bind fun first hfirst => hrest.bind fun results hresults => ?_
    exact List.forall_mem_cons.2 ⟨hfirst, hresults⟩

theorem within_forM {f : δ → Computation α PUnit}
    (h : ∀ item ∈ items, (f item).Within view fun _ => True) :
    (items.forM f).Within view fun _ => True := by
  induction items with
  | nil => trivial
  | cons item items ih =>
    exact (h item List.mem_cons_self).bind fun _ _ =>
      ih fun next hnext => h next (List.mem_cons_of_mem _ hnext)

end lists

/-! ### Runs -/

theorem Within.of_run [Scalar α] {computation : Computation α β} (h : computation.Within view p)
    {set after : AccumulatorSet α} {result : β}
    (hrun : computation.run set = (.ok result, after)) : p result := by
  induction computation generalizing set with
  | done own =>
    cases hrun
    exact h
  | fail error => cases hrun
  | look own metric k ih =>
    rw [run_look] at hrun
    split at hrun
    · exact ih _ (h.2 _) hrun
    · cases hrun
  | enter own metric value k ih =>
    rw [run_enter] at hrun
    split at hrun
    · exact ih _ (h.2 _) hrun
    · cases hrun

end NodeTelemetry.Computation
