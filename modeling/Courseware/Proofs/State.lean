/-!
# Computations that only look at a state

A computation that leaves the state as it found it may be run anywhere without being noticed: what comes
after it sees the state from before. Going through a list with such computations gives what each of them
gives by itself.
-/

namespace Courseware

variable {σ α β : Type}

/-- Whether a computation leaves every state as it is. -/
def Keeps (action : StateM σ α) : Prop := ∀ state, (action.run state).2 = state

namespace Keeps

variable {action : StateM σ α}

theorem pure (value : α) : Keeps (Pure.pure value : StateM σ α) := fun _ => rfl

/-- What follows a computation that only looks is run in the state from before. -/
theorem run_bind (keeps : Keeps action) (next : α → StateM σ β) (state : σ) :
    (action >>= next).run state = (next (action.run state).1).run state := by
  have hrun : (action >>= next).run state = (next (action.run state).1).run (action.run state).2 := rfl
  rw [hrun, keeps state]

theorem bind (keeps : Keeps action) {next : α → StateM σ β} (hnext : ∀ value, Keeps (next value)) :
    Keeps (action >>= next) := by
  intro state
  rw [keeps.run_bind]
  exact hnext _ state

variable {f : α → StateM σ β}

theorem run_mapM (keeps : ∀ item, Keeps (f item)) (items : List α) (state : σ) :
    (items.mapM f).run state = (items.map fun item => ((f item).run state).1, state) := by
  induction items with
  | nil => rfl
  | cons item rest ih =>
    rw [List.mapM_cons, (keeps item).run_bind]
    have hrun : (rest.mapM f >>= fun others => Pure.pure (((f item).run state).1 :: others)).run
        state = (((f item).run state).1 :: ((rest.mapM f).run state).1,
          ((rest.mapM f).run state).2) := rfl
    rw [hrun, ih]
    rfl

variable {test : α → StateM σ Bool}

theorem run_filterM (keeps : ∀ item, Keeps (test item)) (items : List α) (state : σ) :
    (items.filterM test).run state = (items.filter fun item => ((test item).run state).1, state) := by
  have haux : ∀ kept : List α, (items.filterAuxM test kept).run state =
      ((items.filter fun item => ((test item).run state).1).reverse ++ kept, state) := by
    induction items with
    | nil => exact fun kept => rfl
    | cons item rest ih =>
      intro kept
      rw [List.filterAuxM, (keeps item).run_bind, ih]
      cases hitem : ((test item).run state).1 <;> simp [hitem]
  have hrun : (items.filterM test).run state =
      (((items.filterAuxM test []).run state).1.reverse,
        ((items.filterAuxM test []).run state).2) := rfl
  rw [hrun, haux, List.append_nil, List.reverse_reverse]

theorem findM? (keeps : ∀ item, Keeps (test item)) (items : List α) :
    Keeps (items.findM? test) := by
  induction items with
  | nil => exact pure none
  | cons item rest ih =>
    rw [List.findM?]
    apply (keeps item).bind
    intro found
    cases found with
    | true => exact pure (some item)
    | false => exact ih

end Keeps
end Courseware
