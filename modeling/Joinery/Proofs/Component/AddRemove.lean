import Joinery.Proofs.Component.Fresh
import Joinery.Proofs.Identity
import Mathlib

/-!
Adding and removing again. A component with fresh times is left as it was when a feature or an operation
is added under a new id and then removed by the id that it was given; in between the ids are as distinct
as they were before.
-/
namespace Joinery

/-- An id that may be given to a new member: none at all, or one that no member has. -/
def NewId (id : String) (taken : List String) : Prop := id = "" ∨ id ∉ taken

theorem idOrFresh_not_mem {id : String} {taken : List String} (new : NewId id taken)
    (stem : String) : idOrFresh id stem taken ∉ taken := by
  unfold idOrFresh
  split
  · exact freshId_not_mem stem taken
  · rename_i given
    exact new.resolve_left given

section Last
variable {α : Type} {q : α → Bool} {xs : List α} {a : α}

theorem find?_last (others : ∀ x ∈ xs, q x = false) (last : q a = true) :
    (xs ++ [a]).find? q = some a := by
  have none : xs.find? q = none := List.find?_eq_none.mpr fun x member => by simp [others x member]
  rw [List.find?_append, none, Option.none_or, List.find?_cons_of_pos last]

theorem eraseP_last (others : ∀ x ∈ xs, q x = false) (last : q a = true) :
    (xs ++ [a]).eraseP q = xs := by
  have absent : ∀ x ∈ xs, ¬ q x = true := fun x member => by simp [others x member]
  rw [List.eraseP_append_right [a] absent, List.eraseP_cons_of_pos last, List.append_nil]

end Last

theorem nodup_ids_append {α : Type} {id : α → String} {xs : List α} {a : α}
    (distinct : (xs.map id).Nodup) (new : id a ∉ xs.map id) : ((xs ++ [a]).map id).Nodup := by
  rw [List.map_append, List.map_singleton, ← List.concat_eq_append, List.nodup_concat]
  exact ⟨new, distinct⟩

theorem Feature.make_id {id name description : String} {type count size position : Datum} {f : Feature}
    (made : make id type count size position name description = .ok f) : f.id = id := by
  obtain ⟨_, _, _, -, -, -, rfl⟩ := parts_of_make made
  rfl

theorem Operation.make_id {id notes : String} {template : Template} {actualTime status equipment : Datum}
    {parameters : List Parameter} {p : Operation}
    (made : make id template actualTime status notes parameters equipment = .ok p) : p.id = id := by
  obtain ⟨_, _, -, -, rfl⟩ := parts_of_make made
  rfl

namespace Component

def featureIds (c : Component) : List String := c.features.map Feature.id

def operationIds (c : Component) : List String := c.operations.map Operation.id

@[simp] theorem refresh_features (c : Component) : c.refresh.features = c.features := rfl

@[simp] theorem refresh_operationIds (c : Component) : c.refresh.operationIds = c.operationIds := by
  simp [operationIds, refresh, Function.comp_def, Operation.timed]

theorem addFeature_ok {c changed : Component} {id name : String} {type count size position : Datum}
    {f : Feature} (added : c.addFeature id type count size position name = .ok (changed, f)) :
    changed = refresh { c with features := c.features ++ [f] } ∧
      f.id = idOrFresh id "feature" c.featureIds := by
  obtain ⟨g, made, same⟩ := bind_ok.mp added
  obtain ⟨rfl, rfl⟩ := Prod.mk.inj (Except.ok.inj same)
  exact ⟨rfl, Feature.make_id made⟩

theorem addOperation_ok {c changed : Component} {id notes : String} {template : Template}
    {parameters : List Parameter} {equipment status : Datum} {p : Operation}
    (added : c.addOperation id template parameters equipment status notes = .ok (changed, p)) :
    ∃ q : Operation, changed = refresh { c with operations := c.operations ++ [q] } ∧
      p = q.timed c ∧ q.id = idOrFresh id (Text.lower template.code) c.operationIds := by
  obtain ⟨q, made, same⟩ := bind_ok.mp added
  obtain ⟨rfl, rfl⟩ := Prod.mk.inj (Except.ok.inj same)
  exact ⟨q, rfl, rfl, Operation.make_id made⟩

/-- Times that a calculation finds stored leave no trace in those that it stores. -/
theorem refresh_timed (c d : Component) :
    refresh { c with operations := c.operations.map (Operation.timed d) } = c.refresh := by
  have again : (c.operations.map (Operation.timed d)).map (Operation.timed c) =
      c.operations.map (Operation.timed c) := by
    rw [List.map_map]
    rfl
  exact congrArg (fun operations => { c with operations }) again

theorem feature?_of_find {c : Component} {id : String} {f : Feature}
    (found : c.features.find? (featureHasId id) = some f) : c.feature? id = .ok f := by
  unfold featureHasId at found
  rw [feature?, found]

theorem operation?_of_find {c : Component} {id : String} {p : Operation}
    (found : c.operations.find? (hasId id) = some p) : c.operation? id = .ok p := by
  unfold hasId at found
  rw [operation?, found]

theorem featureHasId_eq_false {c : Component} {id : String} (new : id ∉ c.featureIds) :
    ∀ f ∈ c.features, featureHasId id f = false := by
  intro f member
  refine beq_eq_false_iff_ne.mpr ?_
  rintro rfl
  exact new (List.mem_map_of_mem member)

theorem hasId_eq_false {c : Component} {id : String} (new : id ∉ c.operationIds) :
    ∀ p ∈ c.operations, hasId id p = false := by
  intro p member
  refine beq_eq_false_iff_ne.mpr ?_
  rintro rfl
  exact new (List.mem_map_of_mem member)

theorem removeFeature_last {c : Component} {f : Feature} (new : f.id ∉ c.featureIds) :
    (refresh { c with features := c.features ++ [f] }).removeFeature f.id = .ok (c.refresh, f) := by
  have others := featureHasId_eq_false new
  have own : featureHasId f.id f = true := beq_self_eq_true f.id
  have found := feature?_of_find (c := refresh { c with features := c.features ++ [f] })
    (find?_last others own)
  rw [removeFeature, found, ok_bind, refresh_features, eraseP_last others own]
  exact congrArg (fun d => Except.ok (d, f)) (refresh_timed c { c with features := c.features ++ [f] })

theorem removeOperation_last {c : Component} {p : Operation} (new : p.id ∉ c.operationIds) :
    (refresh { c with operations := c.operations ++ [p] }).removeOperation p.id =
      .ok (c.refresh, p.timed c) := by
  have others := hasId_eq_false (c := c.refresh) (refresh_operationIds c ▸ new)
  have own : hasId p.id (p.timed c) = true := beq_self_eq_true p.id
  have operations : (refresh { c with operations := c.operations ++ [p] }).operations =
      c.refresh.operations ++ [p.timed c] := List.map_append
  have found : (refresh { c with operations := c.operations ++ [p] }).operation? p.id =
      .ok (p.timed c) := by
    apply operation?_of_find
    rw [operations]
    exact find?_last others own
  rw [removeOperation, found, ok_bind, operations, eraseP_last others own]
  exact congrArg (fun d => Except.ok (d, p.timed c)) (refresh_timed c c)

theorem addFeature_undone {c changed : Component} {id name : String}
    {type count size position : Datum} {f : Feature} (new : NewId id c.featureIds)
    (added : c.addFeature id type count size position name = .ok (changed, f)) :
    changed.removeFeature f.id = .ok (c.refresh, f) := by
  obtain ⟨rfl, named⟩ := addFeature_ok added
  exact removeFeature_last (named ▸ idOrFresh_not_mem new "feature")

theorem addFeature_distinct {c changed : Component} {id name : String}
    {type count size position : Datum} {f : Feature} (new : NewId id c.featureIds)
    (distinct : c.featureIds.Nodup)
    (added : c.addFeature id type count size position name = .ok (changed, f)) :
    changed.featureIds.Nodup := by
  obtain ⟨rfl, named⟩ := addFeature_ok added
  exact nodup_ids_append distinct (named ▸ idOrFresh_not_mem new "feature")

theorem addOperation_undone {c changed : Component} {id notes : String} {template : Template}
    {parameters : List Parameter} {equipment status : Datum} {p : Operation}
    (new : NewId id c.operationIds)
    (added : c.addOperation id template parameters equipment status notes = .ok (changed, p)) :
    changed.removeOperation p.id = .ok (c.refresh, p) := by
  obtain ⟨q, rfl, rfl, named⟩ := addOperation_ok added
  exact removeOperation_last (named ▸ idOrFresh_not_mem new _)

theorem addOperation_distinct {c changed : Component} {id notes : String} {template : Template}
    {parameters : List Parameter} {equipment status : Datum} {p : Operation}
    (new : NewId id c.operationIds) (distinct : c.operationIds.Nodup)
    (added : c.addOperation id template parameters equipment status notes = .ok (changed, p)) :
    changed.operationIds.Nodup := by
  obtain ⟨q, rfl, -, named⟩ := addOperation_ok added
  rw [refresh_operationIds]
  exact nodup_ids_append distinct (named ▸ idOrFresh_not_mem new _)

end Component
end Joinery
