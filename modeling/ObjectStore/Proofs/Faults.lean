import ObjectStore.Emulator

/-!
# Faults of calls

A container keeps the faults of all operations in one list.  A call of an operation uses up the oldest
fault of that operation and leaves those of other operations alone, so that the list is as good as a
queue for each operation: `faultsOf`.
-/

namespace ObjectStore.Emulator

/-- The errors that coming calls of an operation are to fail with, the oldest first. -/
def faultsOf (operation : Operation) (faults : List (Operation × ServiceError)) :
    List ServiceError :=
  (faults.filter (·.1 = operation)).map (·.2)

theorem faultsOf_cons (operation : Operation) (fault : Operation × ServiceError)
    (rest : List (Operation × ServiceError)) :
  faultsOf operation (fault :: rest) =
    if fault.1 = operation then fault.2 :: faultsOf operation rest else faultsOf operation rest
  := by
  rw [faultsOf, List.filter_cons]
  by_cases h : fault.1 = operation <;> simp [faultsOf, h]

/-- There is no fault of an operation, or the oldest of them is used up and no other one is. -/
theorem takeFault_cases (operation : Operation) (faults : List (Operation × ServiceError)) :
  takeFault operation faults = none ∧ faultsOf operation faults = [] ∨
    ∃ error kept, takeFault operation faults = some (error, kept) ∧
      faultsOf operation faults = error :: faultsOf operation kept ∧
      ∀ other ≠ operation, faultsOf other kept = faultsOf other faults
  := by
  induction faults with
  | nil => exact .inl ⟨rfl, rfl⟩
  | cons fault rest ih =>
    obtain ⟨other, error⟩ := fault
    rw [takeFault, faultsOf_cons]
    by_cases hother : other = operation
    · rw [if_pos hother, if_pos hother]
      refine .inr ⟨error, rest, rfl, rfl, fun another hanother => ?_⟩
      rw [faultsOf_cons, if_neg fun heq => hanother (heq.symm.trans hother)]
    · rw [if_neg hother, if_neg hother]
      obtain ⟨hnone, hempty⟩ | ⟨found, kept, htaken, hfaults, hothers⟩ := ih
      · rw [hnone]
        exact .inl ⟨rfl, hempty⟩
      · refine .inr ⟨found, (other, error) :: kept, by rw [htaken]; rfl, ?_, ?_⟩
        · rw [faultsOf_cons, if_neg hother, hfaults]
        · intro another hanother
          rw [faultsOf_cons, faultsOf_cons, hothers another hanother]

theorem takeFault_eq_none {operation : Operation} {faults : List (Operation × ServiceError)}
    (h : faultsOf operation faults = []) :
  takeFault operation faults = none
  := by
  obtain ⟨hnone, -⟩ | ⟨error, kept, -, hfaults, -⟩ := takeFault_cases operation faults
  · exact hnone
  · rw [h] at hfaults
    cases hfaults

end ObjectStore.Emulator
