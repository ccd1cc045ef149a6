/-!
Work that can fail. A result tells that every part has ended well, and what each part has given.
-/

set_option autoImplicit false

namespace NodeTelemetry

variable {ε β γ : Type}

theorem exists_of_bind {first : Except ε β} {next : β → Except ε γ} {result : γ}
    (h : first >>= next = .ok result) : ∃ value, first = .ok value ∧ next value = .ok result := by
  cases first with
  | error error => cases h
  | ok value => exact ⟨value, rfl, h⟩

theorem error_of_bind {first : Except ε β} {next : β → Except ε γ} {error : ε}
    (hnext : ∀ value, ∃ result, next value = .ok result) (h : first >>= next = .error error) :
    first = .error error := by
  cases first with
  | error other =>
    cases h
    rfl
  | ok value =>
    obtain ⟨result, hresult⟩ := hnext value
    cases hresult.symm.trans h

theorem error_of_map {outcome : Except ε β} {f : β → γ} {error : ε}
    (h : outcome.map f = .error error) : outcome = .error error := by
  cases outcome with
  | error other =>
    cases h
    rfl
  | ok value => cases h

theorem length_of_mapM {f : β → Except ε γ} {items : List β} {results : List γ}
    (h : items.mapM f = .ok results) : results.length = items.length := by
  induction items generalizing results with
  | nil =>
    cases h
    rfl
  | cons item items ih =>
    rw [List.mapM_cons] at h
    obtain ⟨result, -, h⟩ := exists_of_bind h
    obtain ⟨later, hlater, h⟩ := exists_of_bind h
    cases h
    exact congrArg (· + 1) (ih hlater)

theorem exists_of_mapM_concat {f : β → Except ε γ} {items : List β} {last : β} {results : List γ}
    (h : (items ++ [last]).mapM f = .ok results) :
    ∃ earlier result, items.mapM f = .ok earlier ∧ f last = .ok result ∧
      results = earlier ++ [result] := by
  rw [List.mapM_append] at h
  obtain ⟨earlier, hearlier, h⟩ := exists_of_bind h
  obtain ⟨latest, hlatest, h⟩ := exists_of_bind h
  cases h
  rw [List.mapM_cons] at hlatest
  obtain ⟨result, hresult, hlatest⟩ := exists_of_bind hlatest
  cases hlatest
  exact ⟨earlier, result, hearlier, hresult, rfl⟩

theorem exists_of_mem_mapM {f : β → Except ε γ} {items : List β} {results : List γ}
    (h : items.mapM f = .ok results) {result : γ} (hresult : result ∈ results) :
    ∃ item ∈ items, f item = .ok result := by
  induction items generalizing results with
  | nil =>
    cases h
    cases hresult
  | cons item items ih =>
    rw [List.mapM_cons] at h
    obtain ⟨first, hfirst, h⟩ := exists_of_bind h
    obtain ⟨later, hlater, h⟩ := exists_of_bind h
    cases h
    rcases List.mem_cons.1 hresult with rfl | hresult
    · exact ⟨item, List.mem_cons_self, hfirst⟩
    · obtain ⟨other, hother, hmade⟩ := ih hlater hresult
      exact ⟨other, List.mem_cons_of_mem _ hother, hmade⟩

theorem exists_of_mapM_eq_error {f : β → Except ε γ} {items : List β} {error : ε}
    (h : items.mapM f = .error error) :
    ∃ earlier item later, items = earlier ++ item :: later ∧ f item = .error error ∧
      ∀ other ∈ earlier, ∃ result, f other = .ok result := by
  induction items with
  | nil => cases h
  | cons first items ih =>
    rw [List.mapM_cons] at h
    cases hfirst : f first with
    | error other =>
      rw [hfirst] at h
      cases h
      exact ⟨[], first, items, rfl, hfirst, fun _ hnone => nomatch hnone⟩
    | ok result =>
      cases hrest : items.mapM f with
      | ok results =>
        rw [hfirst, hrest] at h
        cases h
      | error other =>
        rw [hfirst, hrest] at h
        cases h
        obtain ⟨earlier, item, later, hsplit, hitem, hearlier⟩ := ih hrest
        refine ⟨first :: earlier, item, later, congrArg (first :: ·) hsplit, hitem, ?_⟩
        intro other hother
        rcases List.mem_cons.1 hother with rfl | hother
        · exact ⟨result, hfirst⟩
        · exact hearlier other hother

end NodeTelemetry
