import Joinery.Proofs.Component.Reach

/-!
What a refused edit of a component leaves behind. Edits read all that they are given before they
write, and so leave nothing, but for one: the update of an operation writes its template, parameters
and equipment before it reads the actual time. If it is refused then, these three stay changed and
the stored times are those of the operation as it was.
-/
namespace Joinery

theorem changeFirst_congr {α : Type} {q : α → Bool} {f g : α → α} {xs : List α} {a : α}
    (found : xs.find? q = some a) (same : f a = g a) : changeFirst q f xs = changeFirst q g xs := by
  induction xs with
  | nil => rfl
  | cons x xs ih =>
    by_cases first : q x = true
    · obtain rfl : x = a := by simpa [first] using found
      simp [changeFirst, first, same]
    · rw [List.find?_cons_of_neg first] at found
      simp [changeFirst, first, ih found]

theorem changeFirst_eq_self_iff {α : Type} {q : α → Bool} {f : α → α} {xs : List α} :
    changeFirst q f xs = xs ↔ ∀ a ∈ xs.find? q, f a = a := by
  induction xs with
  | nil => simp [changeFirst]
  | cons x xs ih =>
    by_cases first : q x = true
    · simp [changeFirst, first]
    · rw [List.find?_cons_of_neg first]
      simpa [changeFirst, first] using ih

namespace Component

theorem operation?_error {c : Component} {id : String} {f : Fault}
    (missing : c.operation? id = .error f) : c.operations.find? (hasId id) = none := by
  unfold operation? at missing
  split at missing
  · cases missing
  · assumption

def Edit.leftover (c : Component) : Edit → Component
  | .updateOperation id template parameters equipment _ =>
    c.changeOperation id (updated template parameters equipment)
  | _ => c

def Edit.Rewrites (c : Component) : Edit → Prop
  | .updateOperation id template parameters equipment _ =>
    ∃ p ∈ c.operations.find? (hasId id), updated template parameters equipment p ≠ p
  | _ => False

theorem leftover_eq_self_iff {c : Component} {e : Edit} : e.leftover c = c ↔ ¬ e.Rewrites c := by
  cases e <;> simp only [Edit.leftover, Edit.Rewrites, not_false_eq_true]
  case updateOperation id template parameters equipment actualTime =>
    have operations : c.changeOperation id (updated template parameters equipment) = c ↔
        changeFirst (hasId id) (updated template parameters equipment) c.operations =
          c.operations := by
      constructor
      · intro same
        exact congrArg Component.operations same
      · intro same
        simp only [changeOperation, same]
    simp only [operations, changeFirst_eq_self_iff, not_exists, not_and, ne_eq, Classical.not_not]

theorem updateOperation_error {c c' : Component} {id : String} {template : Option Template}
    {parameters : Option (List Parameter)} {equipment actualTime : Datum} {f : Fault}
    (refused : c.updateOperation id template parameters equipment actualTime = (c', .error f)) :
    c' = c.changeOperation id (updated template parameters equipment) := by
  unfold updateOperation at refused
  split at refused
  · rename_i missing
    obtain ⟨rfl, -⟩ := Prod.mk.inj refused
    have same : changeFirst (hasId id) (updated template parameters equipment) c.operations =
        c.operations :=
      changeFirst_eq_self_iff.mpr (by simp [operation?_error missing])
    rw [changeOperation, same]
  · rename_i p found
    split at refused
    · obtain ⟨rfl, -⟩ := Prod.mk.inj refused
      have same : changeFirst (hasId id) (fun _ => updated template parameters equipment p)
            c.operations =
          changeFirst (hasId id) (updated template parameters equipment) c.operations :=
        changeFirst_congr (operation?_ok found) rfl
      simp only [changeOperation, same]
    · simp at refused

/-- A refused edit leaves the component as it was, or with the operation that it was updating. -/
theorem leftover_of_refused {c c' : Component} {e : Edit} {f : Fault}
    (refused : e.apply c = (c', .error f)) : c' = e.leftover c := by
  cases e <;> simp only [Edit.apply] at refused
  case updateOperation id template parameters equipment actualTime =>
    obtain ⟨same, failed⟩ := Prod.mk.inj refused
    cases result : (c.updateOperation id template parameters equipment actualTime).2 with
    | ok p => simp [result, Except.map] at failed
    | error g => exact same.symm.trans (updateOperation_error (Prod.ext rfl result))
  case setMaterial material => simp at refused
  case recalculate => simp at refused
  case addFeature => exact settle_error refused
  case removeFeature => exact settle_error refused
  case addOperation => exact settle_error refused
  case removeOperation => exact settle_error refused
  all_goals exact settleQuietly_error refused

end Component
end Joinery
