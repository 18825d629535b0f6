import Mathlib.Data.List.Forall2

/-!
# Computations that succeed or fail

What a computation that may fail has done, when it succeeded: each of its parts has succeeded, and
handed its value to the next. When it failed, one of its parts has failed, and those before it have
succeeded.
-/

namespace Courseware

variable {ε δ α β σ : Type}

theorem exists_of_map_eq_ok {f : α → β} {result : Except ε α} {value : β}
    (h : result.map f = .ok value) : ∃ inner, result = .ok inner ∧ f inner = value := by
  cases result with
  | error fault => exact nomatch h
  | ok inner => exact ⟨inner, rfl, Except.ok.inj h⟩

theorem exists_of_bind_eq_ok {f : α → Except ε β} {result : Except ε α} {value : β}
    (h : (result >>= f) = .ok value) : ∃ inner, result = .ok inner ∧ f inner = .ok value := by
  cases result with
  | error fault => exact nomatch h
  | ok inner => exact ⟨inner, rfl, h⟩

/-- Going through a list succeeds by taking its first item and then going through the others. -/
theorem foldlM_cons_eq_ok_iff {f : σ → α → Except ε σ} {item : α} {rest : List α} {start stop : σ} :
    (item :: rest).foldlM f start = .ok stop ↔
      ∃ middle, f start item = .ok middle ∧ rest.foldlM f middle = .ok stop := by
  rw [List.foldlM_cons]
  constructor
  · exact exists_of_bind_eq_ok
  · rintro ⟨middle, hfirst, hrest⟩
    rw [hfirst]
    exact hrest

theorem ok_of_mapError_eq_ok {f : ε → δ} {result : Except ε α} {value : α}
    (h : result.mapError f = .ok value) : result = .ok value := by
  cases result with
  | error fault => exact nomatch h
  | ok inner => exact congrArg Except.ok (Except.ok.inj h)

theorem exists_of_mapError_eq_error {f : ε → δ} {result : Except ε α} {fault : δ}
    (h : result.mapError f = .error fault) : ∃ inner, result = .error inner ∧ f inner = fault := by
  cases result with
  | error inner => exact ⟨inner, rfl, Except.error.inj h⟩
  | ok inner => exact nomatch h

theorem error_of_map_eq_error {f : α → β} {result : Except ε α} {fault : ε}
    (h : result.map f = .error fault) : result = .error fault := by
  cases result with
  | error other => exact congrArg Except.error (Except.error.inj h)
  | ok inner => exact nomatch h

theorem error_or_of_bind_eq_error {f : α → Except ε β} {result : Except ε α} {fault : ε}
    (h : (result >>= f) = .error fault) :
    result = .error fault ∨ ∃ inner, result = .ok inner ∧ f inner = .error fault := by
  cases result with
  | error other => exact .inl (congrArg Except.error (Except.error.inj h))
  | ok inner => exact .inr ⟨inner, rfl, h⟩

/-- Where doing something with every item of a list succeeds, it does so with each of them. -/
theorem forall₂_of_mapM_eq_ok {f : α → Except ε β} {items : List α} {values : List β}
    (h : items.mapM f = .ok values) : List.Forall₂ (fun item value => f item = .ok value) items values := by
  induction items generalizing values with
  | nil =>
    obtain rfl := Except.ok.inj h
    exact .nil
  | cons item rest ih =>
    rw [List.mapM_cons] at h
    obtain ⟨value, hvalue, h⟩ := exists_of_bind_eq_ok h
    obtain ⟨others, hothers, h⟩ := exists_of_bind_eq_ok h
    obtain rfl := Except.ok.inj h
    exact .cons hvalue (ih hothers)

/-- Of two lists that correspond, each item of the second has one in the first. -/
theorem exists_of_mem_of_forall₂ {R : α → β → Prop} {items : List α} {values : List β}
    (h : List.Forall₂ R items values) {value : β} (hvalue : value ∈ values) : ∃ item ∈ items, R item value := by
  induction h with
  | nil => exact absurd hvalue List.not_mem_nil
  | cons hfirst _ ih =>
    rcases List.mem_cons.mp hvalue with rfl | hothers
    · exact ⟨_, List.mem_cons_self, hfirst⟩
    · obtain ⟨item, hitem, hsame⟩ := ih hothers
      exact ⟨item, List.mem_cons_of_mem _ hitem, hsame⟩

/-- Where doing something with every item of a list fails, it does so with one of them. -/
theorem exists_of_mapM_eq_error {f : α → Except ε β} {items : List α} {fault : ε}
    (h : items.mapM f = .error fault) : ∃ item ∈ items, f item = .error fault := by
  induction items with
  | nil => exact nomatch h
  | cons item rest ih =>
    rw [List.mapM_cons] at h
    rcases error_or_of_bind_eq_error h with hitem | ⟨value, _, h⟩
    · exact ⟨item, List.mem_cons_self, hitem⟩
    · rcases error_or_of_bind_eq_error h with hrest | ⟨others, _, h⟩
      · obtain ⟨other, hother, hfault⟩ := ih hrest
        exact ⟨other, List.mem_cons_of_mem _ hother, hfault⟩
      · exact nomatch h

/-- Going through a list fails at one of its items. -/
theorem exists_of_foldlM_eq_error {f : σ → α → Except ε σ} {items : List α} {start : σ} {fault : ε}
    (h : items.foldlM f start = .error fault) :
    ∃ before item after middle, items = before ++ item :: after ∧
      before.foldlM f start = .ok middle ∧ f middle item = .error fault := by
  induction items generalizing start with
  | nil => exact nomatch h
  | cons item rest ih =>
    rw [List.foldlM_cons] at h
    rcases error_or_of_bind_eq_error h with hitem | ⟨middle, hitem, hrest⟩
    · exact ⟨[], item, rest, start, rfl, rfl, hitem⟩
    · obtain ⟨before, last, after, stop, rfl, hbefore, hlast⟩ := ih hrest
      exact ⟨item :: before, last, after, stop, rfl,
        foldlM_cons_eq_ok_iff.mpr ⟨middle, hitem, hbefore⟩, hlast⟩

end Courseware
