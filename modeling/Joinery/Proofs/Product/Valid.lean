import Joinery.Proofs.Component.Valid
import Joinery.Proofs.Product.Distinct

/-!
Valid products: all that they hold is valid, and so are their own counts, measures and labels.
Constructors establish this and edits keep it, as long as the components that an edit brings in are
valid. It does not matter whether the edit succeeds, is refused, or is carried out and then fails
because the totals cannot be taken.
-/
namespace Joinery

structure Placement.Valid (p : Placement) : Prop where
  component : p.component.Valid
  quantity : Counted 1 p.quantity
  order : Counted 0 p.order

structure AssemblyStep.Valid (s : AssemblyStep) : Prop where
  estimatedTime : Measure s.estimatedTime
  status : Choice.Listed s.status

structure Product.Valid (p : Product) : Prop where
  placements : ∀ entry ∈ p.placements, entry.Valid
  steps : ∀ s ∈ p.steps, s.Valid
  status : Choice.Listed p.status

theorem Placement.valid_of_make {c : Component} {quantity position order : Datum} {p : Placement}
    (valid : c.Valid) (made : Placement.make c quantity position order = .ok p) : p.Valid := by
  obtain ⟨_, _, readQuantity, readOrder, rfl⟩ := parts_of_make made
  exact ⟨valid, counted_of_read readQuantity, counted_of_read readOrder⟩

theorem AssemblyStep.valid_of_make {id name description notes : String} {componentIds : List String}
    {estimatedTime status : Datum} {s : AssemblyStep}
    (made : AssemblyStep.make id name description componentIds estimatedTime status notes = .ok s) :
    s.Valid := by
  obtain ⟨_, _, read, readStatus, rfl⟩ := parts_of_make made
  exact ⟨measure_of_read read, Choice.listed_of_read readStatus⟩

theorem AssemblyStep.Valid.progressed {s : AssemblyStep} (valid : s.Valid) {d : Datum}
    {status : Progress} (read : Choice.read d = .ok status) : { s with status }.Valid :=
  ⟨valid.estimatedTime, Choice.listed_of_read read⟩

namespace Product

def Edit.components {α : Type} (p : Product) : Edit α → List Component
  | .addComponent component _ _ _ => [component]
  | .within _ work => p.components.map fun c => (work c).1
  | .past _ work => p.components.map fun c => (work c).1
  | _ => []

theorem Valid.refresh {p : Product} (valid : p.Valid) : p.refresh.Valid := by
  refine { valid with placements := ?_ }
  intro entry member
  obtain ⟨before, mb, rfl⟩ := List.mem_map.mp member
  have kept := valid.placements before mb
  exact ⟨kept.component.refresh, kept.quantity, kept.order⟩

theorem valid_of_make {defaults : Defaults} {draft : ProductDraft} {p : Product}
    (placements : ∀ entry ∈ draft.placements, entry.Valid) (steps : ∀ s ∈ draft.steps, s.Valid)
    (made : Product.make defaults draft = .ok p) : p.Valid := by
  obtain ⟨_, _, readStatus, rfl, -⟩ := parts_of_make made
  exact Valid.refresh ⟨placements, steps, Choice.listed_of_read readStatus⟩

namespace Valid
variable {p : Product} (valid : p.Valid)
include valid

theorem stamp (now : Moment) : (p.stamp now).Valid := { valid with }

theorem replaceComponent {id : String} {c : Component} (new : c.Valid) :
    (p.replaceComponent id c).Valid := by
  refine { valid with placements := ?_ }
  intro entry member
  rcases mem_changeFirst member with kept | ⟨before, mb, -, rfl⟩
  · exact valid.placements entry kept
  · exact ⟨new, (valid.placements before mb).quantity, (valid.placements before mb).order⟩

theorem addComponent (defaults : Defaults) (now : Moment) {c : Component} (new : c.Valid)
    (quantity position order : Datum) :
    (p.addComponent defaults now c quantity position order).1.Valid := by
  unfold Product.addComponent
  split
  · exact valid
  · rename_i entry placed
    simp only [place] at placed
    split at placed
    · cases placed
    · rw [settle_fst]
      refine Valid.refresh { valid with placements := ?_ }
      intro other member
      rcases List.mem_append.mp member with old | added
      · exact valid.placements other old
      · obtain rfl := List.mem_singleton.mp added
        exact Placement.valid_of_make new placed

theorem removeComponent (defaults : Defaults) (now : Moment) (id : String) :
    (p.removeComponent defaults now id).1.Valid := by
  unfold Product.removeComponent
  split
  · exact valid
  · rw [settle_fst]
    exact Valid.refresh { valid with
      placements := fun entry member => valid.placements entry (List.mem_of_mem_eraseP member) }

theorem workWithin {α : Type} (defaults : Defaults) (now : Moment) {id : String}
    {work : Component.Work α} (keeps : ∀ c ∈ p.components, (work c).1.Valid) :
    (p.workWithin defaults now id work).1.Valid := by
  unfold Product.workWithin
  split
  · exact valid
  · rename_i entry found
    rw [settle_fst]
    have member : entry.component ∈ p.components := List.mem_map_of_mem (mem_of_placement? found)
    exact ((valid.replaceComponent (keeps _ member)).stamp now).refresh

theorem workPast {α : Type} {id : String} {work : Component.Work α}
    (keeps : ∀ c ∈ p.components, (work c).1.Valid) : (p.workPast id work).1.Valid := by
  unfold Product.workPast
  split
  · exact valid
  · rename_i entry found
    have member : entry.component ∈ p.components := List.mem_map_of_mem (mem_of_placement? found)
    exact valid.replaceComponent (keeps _ member)

theorem applied {α : Type} (defaults : Defaults) (now : Moment) {e : Edit α}
    (used : ∀ c ∈ e.components p, c.Valid) : (e.apply defaults now p).1.Valid := by
  cases e with
  | addComponent c quantity position order =>
    exact valid.addComponent defaults now (used c (List.mem_singleton_self c)) quantity position order
  | removeComponent id => exact valid.removeComponent defaults now id
  | within id work =>
    exact valid.workWithin defaults now fun c member => used _ (List.mem_map_of_mem member)
  | past id work => exact valid.workPast fun c member => used _ (List.mem_map_of_mem member)
  | addStep id name description componentIds estimatedTime =>
    simp only [Edit.apply]
    cases added : p.addStep now id name description componentIds estimatedTime with
    | ok pair =>
      obtain ⟨made, read, same⟩ := bind_ok.mp added
      obtain rfl := Except.ok.inj same
      refine { valid with steps := ?_ }
      intro s member
      rcases List.mem_append.mp member with old | new
      · exact valid.steps s old
      · obtain rfl := List.mem_singleton.mp new
        exact AssemblyStep.valid_of_make read
    | error f => exact valid
  | setStepProgress id status =>
    simp only [Edit.apply]
    cases changed : p.setStepProgress id status with
    | ok q =>
      obtain ⟨progress, read, same⟩ := bind_ok.mp changed
      obtain rfl := Except.ok.inj same
      refine { valid with steps := ?_ }
      intro s member
      rcases mem_changeFirst member with kept | ⟨before, mb, -, rfl⟩
      · exact valid.steps s kept
      · exact (valid.steps before mb).progressed read
    | error f => exact valid
  | setStatus status =>
    simp only [Edit.apply]
    cases changed : p.setStatus now status with
    | ok q =>
      obtain ⟨wanted, read, same⟩ := bind_ok.mp changed
      obtain rfl := Except.ok.inj same
      exact { valid with status := Choice.listed_of_read read }
    | error f => exact valid
  | recalculate rates params => exact Valid.refresh { valid with }

theorem worked {i : Nat} {entry : Placement} {c : Component} (found : p.placements[i]? = some entry)
    (new : c.Valid) :
    { p with placements := p.placements.set i { entry with component := c } }.Valid := by
  refine { valid with placements := ?_ }
  intro other member
  rcases List.mem_or_eq_of_mem_set member with kept | rfl
  · exact valid.placements other kept
  · have before := valid.placements entry (List.mem_of_getElem? found)
    exact ⟨new, before.quantity, before.order⟩

theorem progressed {i : Nat} {s : AssemblyStep} {d : Datum} {status : Progress}
    (found : p.steps[i]? = some s) (read : Choice.read d = .ok status) :
    { p with steps := p.steps.set i { s with status } }.Valid := by
  refine { valid with steps := ?_ }
  intro other member
  rcases List.mem_or_eq_of_mem_set member with kept | rfl
  · exact valid.steps other kept
  · exact (valid.steps s (List.mem_of_getElem? found)).progressed read

end Valid
end Product
end Joinery
