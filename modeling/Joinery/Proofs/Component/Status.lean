import Joinery.Proofs.Estimate.Completion
import Joinery.Proofs.Product.Fresh

/-!
The status of a component. It is read off the completion, which is rounded, so that one operation to
do among twenty thousand is not seen any more, and neither is one done among a few more of them.
Among fewer operations the status says what it seems to say.
-/
namespace Joinery

namespace Component

theorem status_cases (c : Component) :
    (c.status = .completed ↔ 100 ≤ c.completion) ∧
    (c.status = .pending ↔ ¬ 100 ≤ c.completion ∧ ¬ 0 < c.completion) ∧
    (c.status = .inProgress ↔ ¬ 100 ≤ c.completion ∧ 0 < c.completion) := by
  unfold status
  by_cases full : 100 ≤ c.completion
  · simp [full]
  · by_cases started : 0 < c.completion
    · simp [full, started]
    · simp [full, started]

theorem count_statuses (c : Component) (s : Progress) :
    c.statuses.count s = c.operations.countP (·.status = s) := by
  rw [statuses, List.count, List.countP_map]
  congr

theorem count_eq_length {c : Component} :
    c.statuses.count .completed = c.operations.length ↔
      ∀ p ∈ c.operations, p.status = .completed := by
  rw [count_statuses, List.countP_eq_length]
  simp

theorem count_eq_zero {c : Component} :
    c.statuses.count .completed = 0 ↔ ∀ p ∈ c.operations, p.status ≠ .completed := by
  rw [count_statuses, List.countP_eq_zero]
  simp

/-- The status of a component by its numbers of operations. The words are right as long as there
are fewer than twenty thousand of them. -/
theorem status_of_counts (c : Component) (few : c.operations.length < 2 ^ 36) :
    (c.status = .completed ↔ c.operations ≠ [] ∧
      19999 * c.operations.length ≤ 20000 * c.statuses.count .completed) ∧
    (c.status = .pending ↔ c.operations = [] ∨
      20000 * c.statuses.count .completed < c.operations.length) ∧
    (c.operations.length < 20000 →
      (c.status = .completed ↔ c.operations ≠ [] ∧ ∀ p ∈ c.operations, p.status = .completed) ∧
      (c.status = .pending ↔ ∀ p ∈ c.operations, p.status ≠ .completed) ∧
      (c.status = .inProgress ↔ (∃ p ∈ c.operations, p.status = .completed) ∧
        ∃ p ∈ c.operations, p.status ≠ .completed)) := by
  have length : c.statuses.length = c.operations.length := List.length_map ..
  have le : c.statuses.count .completed ≤ c.operations.length := length ▸ List.count_le_length
  have few : c.statuses.length < 2 ^ 36 := length ▸ few
  obtain ⟨full, started⟩ := Estimate.completion_bounds few
  rw [length, ← List.length_pos_iff, length, ← completion] at full started
  obtain ⟨completed, pending, inProgress⟩ := c.status_cases
  rw [full] at completed
  rw [full, started] at pending inProgress
  have some : (∃ p ∈ c.operations, p.status = .completed) ↔ c.statuses.count .completed ≠ 0 := by
    rw [Ne, count_eq_zero]
    push Not
    rfl
  have unfinished : (∃ p ∈ c.operations, p.status ≠ .completed) ↔
      c.statuses.count .completed ≠ c.operations.length := by
    rw [Ne, count_eq_length]
    push Not
    rfl
  rw [completed, pending, inProgress, ← count_eq_length, ← count_eq_zero, some, unfinished,
    ← List.length_pos_iff, ← List.length_eq_zero_iff]
  generalize c.statuses.count .completed = k at *
  generalize c.operations.length = n at *
  refine ⟨Iff.rfl, by omega, fun few => ⟨by omega, by omega, by omega⟩⟩

end Component

namespace Shelf

def almostDone (n : Nat) : Component :=
  { side with
    operations := { operation with status := .pending } ::
      List.replicate n { operation with status := .completed } }

theorem almostDone_length (n : Nat) : (almostDone n).operations.length = n + 1 := by
  simp [almostDone]

theorem almostDone_count (n : Nat) : (almostDone n).statuses.count .completed = n := by
  simp [almostDone, Component.statuses]

end Shelf

theorem almostDone_is_completed :
    (Shelf.almostDone 19999).operations.length < 2 ^ 36 ∧
      (Shelf.almostDone 19999).status = .completed ∧
      ∃ p ∈ (Shelf.almostDone 19999).operations, p.status = .pending := by
  have few : (Shelf.almostDone 19999).operations.length < 2 ^ 36 := by
    rw [Shelf.almostDone_length]
    decide
  obtain ⟨completed, -, -⟩ := Component.status_of_counts (Shelf.almostDone 19999) few
  refine ⟨few, completed.mpr ⟨List.cons_ne_nil _ _, ?_⟩, _, List.mem_cons_self, rfl⟩
  rw [Shelf.almostDone_length, Shelf.almostDone_count]

end Joinery
