import Joinery.Proofs.Component.Reach
import Joinery.Proofs.Datum.Measure
import Joinery.Proofs.Catalog.Names

/-!
What the checks of constructors and edits leave behind: templates that were made, and measures and
counts that were read.
-/
namespace Joinery

/-- What a template is known to hold once it is made. -/
structure Template.WellMade (t : Template) : Prop where
  logic : ∀ l ∈ t.logic, l.Made
  createdAt : t.createdAt.Valid
  updatedAt : t.updatedAt.Valid
  code : Text.trim t.code ≠ ""
  equipment : distinctNames (t.equipment.map .text) = .ok t.equipment
  materials : distinctNames (t.materials.map .text) = .ok t.materials

theorem Template.Made.wellMade {t : Template} (made : t.Made) : t.WellMade := by
  obtain ⟨draft, logic, createdAt, updatedAt, made⟩ := made
  obtain ⟨code, _, _, _, _, _, _, -, -, equipment, materials, rfl⟩ := parts_of_make made
  exact ⟨logic, createdAt, updatedAt, code, distinctNames_again equipment,
    distinctNames_again materials⟩

structure Feature.WellMade (f : Feature) : Prop where
  count : ∃ d, Feature.readCount d = .ok f.count
  size : ∃ d, Feature.readSize "feature size" d = .ok f.size

structure Operation.WellMade (p : Operation) : Prop where
  template : p.template.WellMade
  actualTime : ∃ d, Operation.readActualTime d = .ok p.actualTime

structure Component.WellMade (c : Component) : Prop where
  size : ∃ length width thickness, Size.make length width thickness = .ok c.size
  quantity : ∃ d, Component.readQuantity d = .ok c.quantity
  edgeCount : ∃ d, Component.readEdgeCount d = .ok c.edgeCount
  features : ∀ f ∈ c.features, f.WellMade
  operations : ∀ p ∈ c.operations, p.WellMade

theorem Feature.wellMade_of_make {id name description : String} {type count size position : Datum}
    {f : Feature} (made : Feature.make id type count size position name description = .ok f) :
    f.WellMade := by
  obtain ⟨_, _, _, -, readCount, readSize, rfl⟩ := parts_of_make made
  exact ⟨⟨count, readCount⟩, ⟨size, readSize⟩⟩

theorem Feature.Reachable.wellMade {f : Feature} (reachable : f.Reachable) : f.WellMade := by
  induction reachable with
  | made made => exact wellMade_of_make made
  | recounted _ read ih => exact ⟨⟨_, read⟩, ih.size⟩

theorem Operation.wellMade_of_make {id notes : String} {template : Template}
    {actualTime status equipment : Datum} {parameters : List Parameter} {p : Operation}
    (made : template.WellMade)
    (same : Operation.make id template actualTime status notes parameters equipment = .ok p) :
    p.WellMade := by
  obtain ⟨_, _, -, read, rfl⟩ := parts_of_make same
  exact ⟨made, ⟨actualTime, read⟩⟩

theorem Operation.WellMade.updated {p : Operation} (wellMade : p.WellMade)
    {template : Option Template} (made : ∀ t ∈ template, t.WellMade)
    (parameters : Option (List Parameter)) (equipment : Datum) {d : Datum} {time : Option Float}
    (read : Operation.readActualTime d = .ok time) :
    (Component.withActualTime time (Component.updated template parameters equipment p)).WellMade := by
  refine ⟨?_, ?_⟩
  · cases template with
    | none => exact wellMade.template
    | some t => exact made t rfl
  · cases time with
    | none => exact wellMade.actualTime
    | some x => exact ⟨d, read⟩

theorem Operation.Reachable.wellMade {p : Operation} (reachable : p.Reachable) : p.WellMade := by
  induction reachable with
  | made made same => exact wellMade_of_make made.wellMade same
  | progressed status _ ih => exact ⟨ih.template, ih.actualTime⟩
  | updated parameters equipment _ made read ih =>
    exact ih.updated (fun t own => (made t own).wellMade) parameters equipment read
  | timed minutes diagnostic _ ih => exact ⟨ih.template, ih.actualTime⟩

namespace Component

theorem WellMade.refresh {c : Component} (wellMade : c.WellMade) : c.refresh.WellMade := by
  refine ⟨wellMade.size, wellMade.quantity, wellMade.edgeCount, wellMade.features, ?_⟩
  intro p member
  obtain ⟨q, mq, rfl⟩ := List.mem_map.mp member
  have before := wellMade.operations q mq
  exact ⟨before.template, before.actualTime⟩

theorem mem_of_operation? {c : Component} {id : String} {p : Operation}
    (found : c.operation? id = .ok p) : p ∈ c.operations :=
  List.mem_of_find?_eq_some (operation?_ok found)

theorem WellMade.changed {c c' : Component} {e : Edit} (wellMade : c.WellMade) (made : e.UsesMade)
    (changed : Changed c e c') : c'.WellMade := by
  obtain ⟨size, quantity, edgeCount, features, operations⟩ := wellMade
  cases changed with
  | resize read =>
    exact WellMade.refresh ⟨⟨_, _, _, read⟩, quantity, edgeCount, features, operations⟩
  | setMaterial material => exact WellMade.refresh ⟨size, quantity, edgeCount, features, operations⟩
  | setComplexity read => exact WellMade.refresh ⟨size, quantity, edgeCount, features, operations⟩
  | setQuantity read => exact WellMade.refresh ⟨size, ⟨_, read⟩, edgeCount, features, operations⟩
  | setEdgeCount read => exact WellMade.refresh ⟨size, quantity, ⟨_, read⟩, features, operations⟩
  | addFeature read =>
    refine WellMade.refresh ⟨size, quantity, edgeCount, ?_, operations⟩
    intro f member
    rcases List.mem_append.mp member with old | new
    · exact features f old
    · obtain rfl := List.mem_singleton.mp new
      exact Feature.wellMade_of_make read
  | setFeatureCount read =>
    refine WellMade.refresh ⟨size, quantity, edgeCount, ?_, operations⟩
    intro f member
    rcases mem_changeFirst member with kept | ⟨g, mg, -, rfl⟩
    · exact features f kept
    · exact ⟨⟨_, read⟩, (features g mg).size⟩
  | removeFeature id =>
    refine WellMade.refresh ⟨size, quantity, edgeCount, ?_, operations⟩
    intro f member
    exact features f (List.mem_of_mem_eraseP member)
  | addOperation read =>
    refine WellMade.refresh ⟨size, quantity, edgeCount, features, ?_⟩
    intro p member
    rcases List.mem_append.mp member with old | new
    · exact operations p old
    · obtain rfl := List.mem_singleton.mp new
      exact Operation.wellMade_of_make (Template.Made.wellMade made) read
  | @updateOperation id template parameters equipment actualTime p time found read =>
    refine WellMade.refresh ⟨size, quantity, edgeCount, features, ?_⟩
    intro q member
    rcases mem_changeFirst member with kept | ⟨r, -, -, rfl⟩
    · exact operations q kept
    · have before := operations p (mem_of_operation? found)
      have used : ∀ t ∈ template, t.WellMade := fun t own => Template.Made.wellMade (made t own)
      exact before.updated used parameters equipment read
  | removeOperation id =>
    refine WellMade.refresh ⟨size, quantity, edgeCount, features, ?_⟩
    intro p member
    exact operations p (List.mem_of_mem_eraseP member)
  | setProgress read =>
    refine ⟨size, quantity, edgeCount, features, ?_⟩
    intro p member
    rcases mem_changeFirst member with kept | ⟨q, mq, -, rfl⟩
    · exact operations p kept
    · exact ⟨(operations q mq).template, (operations q mq).actualTime⟩
  | recalculate => exact WellMade.refresh ⟨size, quantity, edgeCount, features, operations⟩

theorem Reaches.wellMade {c c' : Component} (reaches : c.Reaches c') (wellMade : c.WellMade) :
    c'.WellMade := by
  induction reaches with
  | start => exact wellMade
  | edited _ made applied ih => exact ih.changed made (changed_of_apply applied)
  | @progressed d i p status _ found ih =>
    refine ⟨ih.size, ih.quantity, ih.edgeCount, ih.features, ?_⟩
    intro q member
    rcases List.mem_or_eq_of_mem_set member with kept | rfl
    · exact ih.operations q kept
    · have before := ih.operations p (List.mem_of_getElem? found)
      exact ⟨before.template, before.actualTime⟩

theorem wellMade_of_make {draft : ComponentDraft} {c : Component} (parts : DraftOfMade draft)
    (made : Component.make draft = .ok c) : c.WellMade := by
  obtain ⟨_, _, _, readQuantity, readEdgeCount, -, rfl⟩ := parts_of_make made
  exact WellMade.refresh ⟨parts.size, ⟨_, readQuantity⟩, ⟨_, readEdgeCount⟩,
    fun f member => (parts.features f member).wellMade,
    fun p member => (parts.operations p member).wellMade⟩

theorem Reachable.wellMade {c : Component} (reachable : c.Reachable) : c.WellMade := by
  obtain ⟨draft, start, parts, made, reaches⟩ := reachable
  exact reaches.wellMade (wellMade_of_make parts made)

end Component
end Joinery
