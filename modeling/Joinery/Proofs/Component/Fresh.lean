import Joinery.Estimate.Cost
import Joinery.Proofs.Component.Reach

/-!
Stored times. A calculation looks at a component's size, material, features and counts and not at
its operations, so calculating all times anew leaves times that a further calculation repeats, and a
change of progress leaves them as good as they were.
-/
namespace Joinery

def Operation.FreshIn (c : Component) (p : Operation) : Prop :=
  p.minutes = (Duration.compute p.template p.parameters c).minutes ∧
    p.diagnostic = (Duration.compute p.template p.parameters c).diagnostic

def Component.Fresh (c : Component) : Prop := ∀ p ∈ c.operations, p.FreshIn c

theorem Component.subject_with_operations (c : Component) (operations : List Operation) :
    Component.subject { c with operations } = c.subject := rfl

theorem Operation.timed_eq_self {c : Component} {p : Operation} (fresh : p.FreshIn c) :
    p.timed c = p := by
  simp [Operation.timed, ← fresh.1, ← fresh.2]

namespace Component

theorem refresh_fresh (c : Component) : c.refresh.Fresh := by
  intro p member
  obtain ⟨q, -, rfl⟩ := List.mem_map.mp member
  exact ⟨rfl, rfl⟩

theorem refresh_eq_self {c : Component} (fresh : c.Fresh) : c.refresh = c := by
  have same : c.operations.map (Operation.timed c) = c.operations := by
    rw [List.map_congr_left fun p member => Operation.timed_eq_self (fresh p member), List.map_id']
  simp [refresh, same]

theorem make_fresh {draft : ComponentDraft} {c : Component} (made : Component.make draft = .ok c) :
    c.Fresh := by
  obtain ⟨_, _, _, -, -, -, rfl⟩ := parts_of_make made
  exact refresh_fresh _

theorem progress_fresh {c : Component} (fresh : c.Fresh) (id : String) (status : Progress) :
    (c.changeOperation id fun p => { p with status }).Fresh := by
  intro p member
  rcases mem_changeFirst member with kept | ⟨q, mq, -, rfl⟩
  · exact fresh p kept
  · exact fresh q mq

theorem changed_fresh {c c' : Component} {e : Edit} (changed : Changed c e c') (fresh : c.Fresh) :
    c'.Fresh := by
  cases changed with
  | setProgress read => exact progress_fresh fresh _ _
  | _ => exact refresh_fresh _

theorem Reaches.fresh {c c' : Component} (reaches : c.Reaches c') (fresh : c.Fresh) : c'.Fresh := by
  induction reaches with
  | start => exact fresh
  | edited _ _ applied ih => exact changed_fresh (changed_of_apply applied) ih
  | @progressed d i p status _ found ih =>
    intro q member
    rcases List.mem_or_eq_of_mem_set member with kept | rfl
    · exact ih q kept
    · exact ih p (List.mem_of_getElem? found)

theorem Reachable.fresh {c : Component} (reachable : c.Reachable) : c.Fresh := by
  obtain ⟨draft, start, -, made, reaches⟩ := reachable
  exact reaches.fresh (make_fresh made)

theorem totalTime_of_fresh {c : Component} (fresh : c.Fresh) :
    c.totalTime = Estimate.total (c.operations.map (Estimate.minutes c)) := by
  have same : c.operations.map Operation.minutes = c.operations.map (Estimate.minutes c) :=
    List.map_congr_left fun p member => (fresh p member).1
  rw [totalTime, same]

end Component

end Joinery
