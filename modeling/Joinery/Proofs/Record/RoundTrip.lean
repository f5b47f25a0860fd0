import Joinery.Proofs.Record.Equality
import Joinery.Record.Product

/-!
Products written and read. What is read equals what was written, unless the distance of a date from
universal time is neither none nor a second at least: of such a distance a reader sees nothing.
-/
namespace Joinery

theorem Product.write_read {defaults : Defaults} {p q : Product} {d : Datum}
    (written : p.record defaults = .ok d) (read : Product.ofRecord defaults d = .ok q)
    {indent : Option Nat}
    (undone : Json.read .malformedProduct (Json.write (Json.recordLayout indent) d) = .ok d) :
    ∃ text, p.write defaults indent = .ok text ∧ Product.read defaults text = .ok q := by
  refine ⟨Json.write (Json.recordLayout indent) d, ?_, ?_⟩
  · rw [Product.write, written]
    rfl
  · rw [Product.read, undone]
    exact read

/-- A product is written and read back. What is read equals it if and only if no date that is read has an
offset by a part of a second. Each component has operations of its own, which no other component works
on. -/
theorem record_round_trip {settings : Outcome Record} {p : Product}
    (reachable : p.Reachable (Settings.defaults settings)) (plain : p.Plain) (short : p.Short)
    (equal : ∀ t ∈ p.templates, ∀ u ∈ p.templates, t.id = u.id → (t == u) = true) :
    ∃ d q, p.record (Settings.defaults settings) = .ok d ∧
      Product.ofRecord (Settings.defaults settings) d = .ok q ∧
      ((q == p) = true ↔ ∀ m ∈ p.datesRead, m.Whole) ∧
      ∀ indent, Json.read .malformedProduct (Json.write (Json.recordLayout indent) d) = .ok d →
        ∃ text, p.write (Settings.defaults settings) indent = .ok text ∧
          Product.read (Settings.defaults settings) text = .ok q := by
  have usable := reachable.defaults_usable
  have shared : Template.Shared p.templates := ⟨Product.plain_of_templates plain, equal⟩
  obtain ⟨d, written⟩ := Product.record_ok reachable usable plain short
  have read := Product.ofRecord_record reachable usable plain shared short written
  exact ⟨d, p.readBack, written, read, Product.readBack_beq_iff reachable plain shared,
    fun _ undone => Product.write_read written read undone⟩

/-! The shelf is plain, because it is made of plain parts. -/

theorem Feature.plain_of_make {id name description : String} {type count size position : Datum}
    {f : Feature} (made : Feature.make id type count size position name description = .ok f)
    (text : position.IsText) : f.Plain := by
  obtain ⟨_, _, _, -, -, -, rfl⟩ := parts_of_make made
  exact ⟨text⟩

theorem Operation.plain_of_make {id notes : String} {template : Template}
    {actualTime status equipment : Datum} {parameters : List Parameter} {p : Operation}
    (made : Operation.make id template actualTime status notes parameters equipment = .ok p)
    (plain : template.Plain) (plainParameters : ∀ q ∈ parameters, q.Plain)
    (plainEquipment : equipment.IsText ∧ equipment ≠ .text "") : p.Plain := by
  obtain ⟨_, _, -, -, rfl⟩ := parts_of_make made
  exact ⟨plain, plainParameters, plainEquipment⟩

theorem Component.Plain.refresh {c : Component} (plain : c.Plain) : c.refresh.Plain := by
  refine ⟨plain.features, ?_⟩
  intro p member
  obtain ⟨q, mq, rfl⟩ := List.mem_map.mp member
  have before := plain.operations q mq
  exact ⟨before.template, before.parameters, before.equipment⟩

theorem Component.plain_of_make {draft : ComponentDraft} {c : Component}
    (made : Component.make draft = .ok c) (features : ∀ f ∈ draft.features, f.Plain)
    (operations : ∀ p ∈ draft.operations, p.Plain) : c.Plain := by
  obtain ⟨_, _, _, -, -, -, rfl⟩ := parts_of_make made
  exact Component.Plain.refresh ⟨features, operations⟩

theorem Placement.plain_of_make {c : Component} {quantity position order : Datum} {p : Placement}
    (made : Placement.make c quantity position order = .ok p) (plain : c.Plain)
    (text : position.IsText) : p.Plain := by
  obtain ⟨_, _, -, -, rfl⟩ := parts_of_make made
  exact ⟨plain, text⟩

theorem Product.plain_of_draft {draft : ProductDraft} (status : ProductStatus)
    (placements : ∀ entry ∈ draft.placements, entry.Plain) :
    (Product.ofDraft draft status).refresh.Plain := by
  refine ⟨?_, ?_, ?_⟩
  · intro entry member
    obtain ⟨before, mb, rfl⟩ := List.mem_map.mp member
    exact ⟨(placements before mb).component.refresh, (placements before mb).position⟩
  · intro t own
    cases own
  · intro t own
    cases own

instance (m : Moment) : Decidable m.Whole :=
  inferInstanceAs (Decidable (∀ ahead ∈ m.ahead, ahead = 0 ∨ 1000000 ≤ ahead.natAbs))

namespace Shelf

theorem length_plain : length.Plain := by
  apply Variable.plain_of_make (Outcome.eq_value _)
  simp [Numeral.IsReal]
  decide

theorem template_plain : template.Plain := by
  refine Template.plain_of_make (Outcome.eq_value _) ?_ ?_
  · intro l used
    obtain rfl := Option.some.inj used
    refine ⟨fun v member => ?_⟩
    rw [List.mem_singleton.mp member]
    exact length_plain
  · intro e used
    cases used

theorem operation_plain : operation.Plain := by
  apply Operation.plain_of_make (Outcome.eq_value _) template_plain
  · intro q member
    rw [List.mem_singleton.mp member]
    exact ⟨trivial, trivial, trivial⟩
  · exact ⟨trivial, by simp⟩

theorem placement_plain : placement.Plain := by
  refine Placement.plain_of_make (Outcome.eq_value _) ?_ trivial
  apply Component.plain_of_make (Outcome.eq_value _)
  · intro f member
    rw [List.mem_singleton.mp member]
    exact Feature.plain_of_make (Outcome.eq_value _) trivial
  · intro p member
    rw [List.mem_singleton.mp member]
    exact operation_plain

theorem product_plain (createdAt : Moment) : (product createdAt).Plain := by
  apply Product.plain_of_draft
  intro entry member
  rw [List.mem_singleton.mp member]
  exact placement_plain

def earlyNoon : Moment := { noon with ahead := some 1 }

theorem earlyNoon_valid : earlyNoon.Valid := ⟨by decide, by decide⟩

end Shelf

theorem shelf_round_trip :
    (∃ d q, (Shelf.product Shelf.noon).record (Settings.defaults Shelf.settings) = .ok d ∧
      Product.ofRecord (Settings.defaults Shelf.settings) d = .ok q ∧
      (q == Shelf.product Shelf.noon) = true) ∧
    ∃ d q, (Shelf.product Shelf.earlyNoon).record (Settings.defaults Shelf.settings) = .ok d ∧
      Product.ofRecord (Settings.defaults Shelf.settings) d = .ok q ∧
      (q == Shelf.product Shelf.earlyNoon) = false := by
  obtain ⟨d, q, written, read, equal, -⟩ := record_round_trip
    (Shelf.product_reachable Shelf.settings_usable Shelf.noon_valid)
    (Shelf.product_plain _) (Product.refresh_listed (Shelf.draft_listed _)).toShort (by decide +kernel)
  obtain ⟨e, r, writtenEarly, readEarly, equalEarly, -⟩ := record_round_trip
    (Shelf.product_reachable Shelf.settings_usable Shelf.earlyNoon_valid)
    (Shelf.product_plain _) (Product.refresh_listed (Shelf.draft_listed _)).toShort (by decide +kernel)
  refine ⟨⟨d, q, written, read, equal.mpr (by decide +kernel)⟩, e, r, writtenEarly, readEarly, ?_⟩
  have lost : ¬ ∀ m ∈ (Shelf.product Shelf.earlyNoon).datesRead, m.Whole := by decide +kernel
  simpa using fun same => lost (equalEarly.mp same)

end Joinery
