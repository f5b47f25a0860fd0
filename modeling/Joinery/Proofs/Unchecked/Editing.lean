import Joinery.Proofs.Product.Fresh
import Joinery.Proofs.Unchecked.Checked

/-!
Editing repairs. Work on a component may leave the product in any state at all, also with an operation on
two components. The end of the work gives every operation the time and the diagnostic of a calculation made
then and stamps the product, and keeps everything else as the work left it.
-/
namespace Joinery.Unchecked

namespace State

end State

theorem Product.placement?_ok {ρ : Type} {p : Product ρ} {id : String} (there : ∃ c ∈ p.components, c.id = id) :
    ∃ entry, p.placement? id = .ok entry := by
  obtain ⟨c, member, rfl⟩ := there
  obtain ⟨entry, placed, rfl⟩ := List.mem_map.mp member
  have found : (p.placements.find? (Placement.holds entry.component.id)).isSome :=
    List.find?_isSome.mpr ⟨entry, placed, beq_self_eq_true _⟩
  obtain ⟨first, same⟩ := Option.isSome_iff_exists.mp found
  exact ⟨first, by rw [placement?, same]⟩

structure State.Shows (s : State) (q : Joinery.Product) : Prop where
  apart : s.Apart
  seen : s.seen = q.unchecked

namespace State.Shows
variable {s : State} {q : Joinery.Product}

theorem placement? (shows : s.Shows q) {id : String} {entry : Placement Nat}
    (found : s.product.placement? id = .ok entry) : ∃ checked, q.placement? id = .ok checked := by
  have seen : s.seen.placement? id = .ok (entry.seen s.store) := by
    rw [s.placement?_seen, found]
    rfl
  rw [shows.seen, Joinery.Product.placement?_unchecked, map_ok] at seen
  obtain ⟨checked, own, -⟩ := seen
  exact ⟨checked, own⟩

theorem stamp (shows : s.Shows q) (now : Moment) : (s.stamp now).Shows (q.stamp now) where
  apart := shows.apart
  seen := congrArg (fun p : Product Operation => { p with updatedAt := now }) shows.seen

theorem refresh (shows : s.Shows q) : s.refresh.Shows q.refresh where
  apart := shows.apart
  seen := by rw [seen_refresh shows.apart, shows.seen, Joinery.Product.timed_unchecked]

theorem totals (shows : s.Shows q) (defaults : Defaults) : s.seen.totals defaults = q.totals defaults := by
  rw [shows.seen, Joinery.Product.totals_unchecked]

end State.Shows

/-! The operations of a checked product in a store, one after the other. -/

def Placement.numbered (start : Nat) (p : Placement Operation) : Placement Nat :=
  { p with
    component := { p.component with operations := List.range' start p.component.operations.length } }

def numberFrom : Nat → List (Placement Operation) → List (Placement Nat)
  | _, [] => []
  | start, p :: rest => p.numbered start :: numberFrom (start + p.component.operations.length) rest

def Product.stored (p : Product Operation) : State where
  product := { p with placements := numberFrom 0 p.placements }
  store := p.components.flatMap Component.operations

/-! Work on the side of a shelf that sets a label and counts which no check lets through on the board above
it, hands the operation of this board to the side, puts times from nowhere on all operations and then
fails. -/
namespace Shelf

def checked : Joinery.Product :=
  let shelf := Joinery.Shelf.product Joinery.Shelf.noon
  { shelf with
    placements := shelf.placements ++ shelf.placements.map fun entry =>
      { entry with component := { entry.component with id := "top" } } }

def shelf : State := checked.unchecked.stored

end Shelf

end Joinery.Unchecked
