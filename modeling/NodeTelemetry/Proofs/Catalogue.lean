import Mathlib.Data.List.Nodup
import NodeTelemetry.Readout

/-!
The catalogue: names identify metrics, and a readout carries the name of the descriptor that it was
rendered for.
-/

set_option autoImplicit false

namespace NodeTelemetry

namespace Metric

private theorem names_nodup : (all.map name).Nodup := by decide +kernel

theorem name_injective : Function.Injective name := by
  intro first second h
  exact List.inj_on_of_nodup_map names_nodup (mem_all first) (mem_all second) h

@[simp] theorem descriptor_name (metric : Metric) : metric.descriptor.name = metric.name := by
  cases metric <;> rfl

end Metric

theorem mem_catalogue (metric : Metric) : metric.descriptor ∈ catalogue :=
  List.mem_map_of_mem (Metric.mem_all metric)

theorem mem_catalogue_iff {descriptor : Descriptor} :
    descriptor ∈ catalogue ↔ ∃ metric : Metric, metric.descriptor = descriptor := by
  constructor
  · intro h
    obtain ⟨metric, -, rfl⟩ := List.mem_map.1 h
    exact ⟨metric, rfl⟩
  · rintro ⟨metric, rfl⟩
    exact mem_catalogue metric

theorem eq_of_name_eq {first second : Descriptor} (hfirst : first ∈ catalogue)
    (hsecond : second ∈ catalogue) (h : first.name = second.name) : first = second := by
  obtain ⟨metric, rfl⟩ := mem_catalogue_iff.1 hfirst
  obtain ⟨other, rfl⟩ := mem_catalogue_iff.1 hsecond
  rw [Metric.descriptor_name, Metric.descriptor_name] at h
  rw [Metric.name_injective h]

theorem axis_eq_timestamp_iff {descriptor : Descriptor} (h : descriptor ∈ catalogue) :
    descriptor.axis = .timestamp ↔ descriptor.group = .network ∨ descriptor.group = .queue := by
  obtain ⟨metric, rfl⟩ := mem_catalogue_iff.1 h
  cases metric <;> decide

@[simp] theorem Readout.render_name {α : Type} [Scalar α] (descriptor : Descriptor)
    (reading : Reading α) : (Readout.render descriptor reading).name = descriptor.name := by
  unfold render
  split <;> rfl

end NodeTelemetry
