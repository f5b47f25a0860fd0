import Joinery.Proofs.Component.Fresh
import Joinery.Proofs.Duration.Unsigned
import Joinery.Proofs.Product.Fresh
import Joinery.Proofs.Record.Reference

/-!
Stored times that are not negative. The standard templates go by formulas without a minus, so that a
component has no negative time of its own as long as all its operations use them, with parameters
that are not below zero. Times are stored when they are calculated: an update that is refused changes
the template and leaves the time of the template before.
-/
namespace Joinery
open Number

namespace Duration

instance : DecidablePred Rule.Unsigned
  | .formula logic => inferInstanceAs (Decidable ('-' ∉ logic.formula.toList))
  | .heuristic _ => inferInstanceAs (Decidable True)
  | .efficiency _ => inferInstanceAs (Decidable False)

theorem rule_unsigned {t : Template} (strategy : t.strategy = .formula)
    (minus : ∀ l ∈ t.logic, '-' ∉ l.formula.toList) : (Rule.ofTemplate t).Unsigned := by
  unfold Rule.ofTemplate
  rw [strategy]
  cases logic : t.logic with
  | none => trivial
  | some l => exact minus l logic

end Duration

theorem Standard.rule_unsigned :
    ∀ t ∈ templates, (Duration.Rule.ofTemplate t).Unsigned := by decide +kernel

theorem Standard.template_valid {t : Template} (standard : t ∈ templates) : t.Valid := by
  have noEfficiency : ∀ t ∈ templates, t.draft.efficiency.isNone = true := by decide +kernel
  refine Template.valid_of_make (fun e own => ?_) (template_made standard)
  have none := noEfficiency t standard
  rw [own] at none
  cases none

structure Operation.Regular (p : Operation) : Prop where
  template : p.template ∈ Standard.templates
  parameters : ∀ q ∈ p.parameters, q.Unsigned

theorem Operation.regular_of_make {id notes : String} {template : Template}
    {actualTime status equipment : Datum} {parameters : List Parameter} {p : Operation}
    (standard : template ∈ Standard.templates) (unsigned : ∀ q ∈ parameters, q.Unsigned)
    (made : Operation.make id template actualTime status notes parameters equipment = .ok p) :
    p.Regular := by
  obtain ⟨_, _, -, -, rfl⟩ := parts_of_make made
  exact ⟨standard, unsigned⟩

structure Operation.Timed (p : Operation) : Prop where
  measure : Measure p.minutes
  small : Small 47 p.minutes

namespace Estimate

theorem minutes_measure {c : Component} (size : c.size.Valid) {p : Operation}
    (regular : p.Regular) : Measure (minutes c p) :=
  Duration.ofOutcome_measure regular.parameters size (Standard.rule_unsigned _ regular.template)

theorem total_measure {xs : List Float} {t : Float} (above : ∀ x ∈ xs, ¬ x < 0)
    (taken : total xs = .ok t) : Measure t := by
  obtain ⟨x, summed, rfl⟩ := map_ok.mp taken
  unfold sum at summed
  split at summed
  · rename_i y whole
    obtain rfl := Except.ok.inj summed
    exact measure_roundHundredths (sum?_not_lt above whole)
  · cases summed

end Estimate

namespace Component

def Regular (c : Component) : Prop := ∀ p ∈ c.operations, p.Regular

def Timed (c : Component) : Prop := ∀ p ∈ c.operations, p.Timed

theorem timed_of_fresh {c : Component} (fresh : c.Fresh) (size : c.size.Valid)
    (regular : c.Regular) : c.Timed := by
  intro p member
  obtain ⟨same, -⟩ := fresh p member
  refine ⟨?_, ?_⟩
  · rw [same]
    exact Estimate.minutes_measure size (regular p member)
  · rw [same]
    exact Duration.small_compute p.template p.parameters c

theorem totalTime_of_timed {c : Component} (timed : c.Timed)
    (short : c.operations.length < 2 ^ 63) : ∃ t, c.totalTime = .ok t ∧ Measure t := by
  have small : ∀ x ∈ c.operations.map Operation.minutes, Small 47 x := by
    intro x member
    obtain ⟨p, mp, rfl⟩ := List.mem_map.mp member
    exact (timed p mp).small
  obtain ⟨t, taken, -⟩ := Estimate.total_of_small small (by simpa using short)
  refine ⟨t, taken, Estimate.total_measure ?_ taken⟩
  intro x member
  obtain ⟨p, mp, rfl⟩ := List.mem_map.mp member
  exact (timed p mp).measure.not_lt

/-! Runs of edits, whether they succeed or are refused. -/

def Edit.parameters : Edit → List Parameter
  | .addOperation _ _ parameters _ _ _ => parameters
  | .updateOperation _ _ parameters _ _ => parameters.getD []
  | _ => []

structure Edit.Regular (e : Edit) : Prop where
  templates : ∀ t ∈ e.templates, t ∈ Standard.templates
  parameters : ∀ q ∈ e.parameters, q.Unsigned

def run (c : Component) (edits : List Edit) : Component := edits.foldl (fun c e => (e.apply c).1) c

theorem regular_updated {p : Operation} (regular : p.Regular) {id : String}
    {template : Option Template} {parameters : Option (List Parameter)} {equipment actualTime : Datum}
    (brought : (Edit.updateOperation id template parameters equipment actualTime).Regular) :
    (updated template parameters equipment p).Regular := by
  refine ⟨?_, ?_⟩
  · cases template with
    | none => exact regular.template
    | some t => exact brought.templates t (List.mem_singleton_self t)
  · cases parameters with
    | none => exact regular.parameters
    | some given => exact brought.parameters

theorem regular_refresh {c : Component} (regular : c.Regular) : c.refresh.Regular := by
  intro p member
  obtain ⟨q, mq, rfl⟩ := List.mem_map.mp member
  exact ⟨(regular q mq).template, (regular q mq).parameters⟩

theorem regular_of_make {draft : ComponentDraft} {c : Component}
    (regular : ∀ p ∈ draft.operations, p.Regular) (made : Component.make draft = .ok c) :
    c.Regular := by
  obtain ⟨_, _, _, -, -, -, rfl⟩ := parts_of_make made
  exact regular_refresh regular

theorem regular_changeOperation {c : Component} (regular : c.Regular) {id : String}
    {f : Operation → Operation} (keeps : ∀ p ∈ c.operations, (f p).Regular) :
    (c.changeOperation id f).Regular := by
  intro p member
  rcases mem_changeFirst member with kept | ⟨q, mq, -, rfl⟩
  · exact regular p kept
  · exact keeps q mq

theorem regular_changed {c c' : Component} {e : Edit} (regular : c.Regular) (brought : e.Regular)
    (changed : Changed c e c') : c'.Regular := by
  cases changed with
  | resize _ | setMaterial _ | setComplexity _ | setQuantity _ | setEdgeCount _ | addFeature _
  | setFeatureCount _ | removeFeature _ | recalculate => exact regular_refresh regular
  | addOperation made =>
    apply regular_refresh
    intro p member
    rcases List.mem_append.mp member with old | new
    · exact regular p old
    · obtain rfl := List.mem_singleton.mp new
      exact Operation.regular_of_make (brought.templates _ (List.mem_singleton_self _))
        brought.parameters made
  | updateOperation found read =>
    apply regular_refresh
    apply regular_changeOperation regular
    intro q _
    have after := regular_updated (regular _ (mem_of_operation? found)) brought
    exact ⟨after.template, after.parameters⟩
  | removeOperation id =>
    exact regular_refresh fun p member => regular p (List.mem_of_mem_eraseP member)
  | setProgress read =>
    exact regular_changeOperation regular fun p member => ⟨(regular p member).template,
      (regular p member).parameters⟩

theorem timed_changed {c c' : Component} {e : Edit} (timed : c.Timed) (size : c'.size.Valid)
    (regular : c'.Regular) (changed : Changed c e c') : c'.Timed := by
  cases changed with
  | setProgress read =>
    intro p member
    rcases mem_changeFirst member with kept | ⟨q, mq, -, rfl⟩
    · exact timed p kept
    · exact ⟨(timed q mq).measure, (timed q mq).small⟩
  | _ => exact timed_of_fresh (refresh_fresh _) size regular

structure WellTimed (c : Component) : Prop where
  valid : c.Valid
  regular : c.Regular
  timed : c.Timed

namespace WellTimed
variable {c : Component} (before : c.WellTimed)
include before

theorem leftover {e : Edit} (brought : e.Regular) :
    (e.leftover c).Regular ∧ (e.leftover c).Timed := by
  cases e with
  | updateOperation id template parameters equipment actualTime =>
    refine ⟨regular_changeOperation before.regular fun p member =>
      regular_updated (before.regular p member) brought, ?_⟩
    intro p member
    rcases mem_changeFirst member with kept | ⟨q, mq, -, rfl⟩
    · exact before.timed p kept
    · exact ⟨(before.timed q mq).measure, (before.timed q mq).small⟩
  | _ => exact ⟨before.regular, before.timed⟩

theorem applied {e : Edit} (brought : e.Regular) : (e.apply c).1.WellTimed := by
  have valid : (e.apply c).1.Valid :=
    before.valid.applied fun t own => Standard.template_valid (brought.templates t own)
  cases outcome : (e.apply c).2 with
  | ok r =>
    have changed : Changed c e (e.apply c).1 := changed_of_apply (Prod.ext rfl outcome)
    have regular := regular_changed before.regular brought changed
    exact ⟨valid, regular, timed_changed before.timed valid.size regular changed⟩
  | error f =>
    have left : (e.apply c).1 = e.leftover c := leftover_of_refused (Prod.ext rfl outcome)
    obtain ⟨regular, timed⟩ := before.leftover brought
    exact ⟨valid, left ▸ regular, left ▸ timed⟩

theorem run {edits : List Edit} (brought : ∀ e ∈ edits, e.Regular) : (c.run edits).WellTimed := by
  induction edits generalizing c with
  | nil => exact before
  | cons e rest ih =>
    obtain ⟨first, others⟩ := List.forall_mem_cons.mp brought
    exact ih (before.applied first) others

end WellTimed
end Component

/-- Formulas without a minus and guesses take no negative time on a valid component, and neither do
operations of standard templates. Nor do their stored times say so, if they were right at first and
whatever edits, refused ones among them, came then. -/
theorem times_not_negative {c : Component} (valid : c.Valid) :
    (∀ (t : Template) (parameters : List Parameter), t.strategy = .formula →
      (∀ l ∈ t.logic, '-' ∉ l.formula.toList) → (∀ q ∈ parameters, q.Unsigned) →
      Measure (Duration.compute t parameters c).minutes) ∧
    (∀ (name : String) (parameters : List Parameter),
      Measure (Duration.ofOutcome ((Duration.Rule.heuristic name).compute parameters c)).minutes) ∧
    (c.Regular → (∀ p ∈ c.operations, Measure (Estimate.minutes c p)) ∧
      (c.Fresh → ∀ edits : List Component.Edit, (∀ e ∈ edits, e.Regular) →
        (∀ p ∈ (c.run edits).operations, Measure p.minutes) ∧
        ((c.run edits).operations.length < 2 ^ 63 →
          ∃ t, (c.run edits).totalTime = .ok t ∧ Measure t))) := by
  refine ⟨?_, ?_, ?_⟩
  · intro t parameters strategy minus unsigned
    exact Duration.ofOutcome_measure unsigned valid.size (Duration.rule_unsigned strategy minus)
  · intro name parameters
    have none : ∀ q ∈ ([] : List Parameter), q.Unsigned := nofun
    have guess : (Duration.Rule.heuristic name).Unsigned := trivial
    exact Duration.ofOutcome_measure none valid.size guess
  · intro regular
    refine ⟨fun p member => Estimate.minutes_measure valid.size (regular p member), ?_⟩
    intro fresh edits brought
    have start : c.WellTimed :=
      ⟨valid, regular, Component.timed_of_fresh fresh valid.size regular⟩
    have after := start.run brought
    exact ⟨fun p member => (after.timed p member).measure,
      Component.totalTime_of_timed after.timed⟩

namespace Shelf

def cut : Template := Standard.templates[0]

def cutting : Operation :=
  (Operation.make "cut-1" cut .null (.text "pending") "" [⟨"area", .real 2500.5, .null, .null⟩]
    .null).value (by decide +kernel)

def cutSide : Component :=
  (Component.make { sideDraft with operations := [cutting] }).value (by decide +kernel)

def oddLogic : Logic := ⟨"2", "Odd", "0 ^ length / 0 * (2 +", [], "", false⟩

def oddTemplate : Template := { template with logic := some oddLogic }

def badDrilling : Component.Edit :=
  .updateOperation "cut-1" (some Standard.templates[1]) none .null (.int (-1))

end Shelf

theorem cut_side_not_negative :
    Measure (Duration.compute Shelf.oddTemplate [] Shelf.cutSide).minutes ∧
    Measure (Duration.ofOutcome
      ((Duration.Rule.heuristic "Sawing").compute [] Shelf.cutSide)).minutes ∧
    (Shelf.badDrilling.apply Shelf.cutSide).2.isOk = false ∧
    (∀ p ∈ (Shelf.cutSide.run [Shelf.badDrilling]).operations, Measure p.minutes) ∧
    ∃ t, (Shelf.cutSide.run [Shelf.badDrilling]).totalTime = .ok t ∧ Measure t := by
  have made : Component.make { Shelf.sideDraft with operations := [Shelf.cutting] } =
    .ok Shelf.cutSide := Outcome.eq_value _
  have standard : Shelf.cut ∈ Standard.templates := List.getElem_mem _
  have cutting : Shelf.cutting.Valid :=
    Operation.valid_of_make (Standard.template_valid standard) (Outcome.eq_value _)
  have hole : Shelf.hole.Valid := Feature.valid_of_make (Outcome.eq_value _)
  have valid : Shelf.cutSide.Valid := by
    refine Component.valid_of_make (Size.valid_of_make Shelf.size_made) ?_ ?_ made
    · intro f member
      rw [List.mem_singleton.mp member]
      exact hole
    · intro p member
      rw [List.mem_singleton.mp member]
      exact cutting
  have area : Parameter.Unsigned ⟨"area", .real 2500.5, .null, .null⟩ := by
    intro x read
    rw [Datum.finite?_real (by decide +kernel)] at read
    obtain rfl := Option.some.inj (Except.ok.inj read)
    decide +kernel
  have regular : Shelf.cutSide.Regular := by
    refine Component.regular_of_make ?_ made
    intro p member
    rw [List.mem_singleton.mp member]
    exact Operation.regular_of_make standard (by simpa using area) (Outcome.eq_value _)
  have brought : ∀ e ∈ [Shelf.badDrilling], e.Regular := by
    intro e member
    rw [List.mem_singleton.mp member]
    refine ⟨?_, nofun⟩
    intro t own
    rw [List.mem_singleton.mp own]
    exact List.getElem_mem _
  obtain ⟨formulas, guesses, stored⟩ := times_not_negative valid
  obtain ⟨-, runs⟩ := stored regular
  obtain ⟨each, total⟩ := runs (Component.make_fresh made) [Shelf.badDrilling] brought
  refine ⟨formulas Shelf.oddTemplate [] rfl ?_ nofun, guesses "Sawing" [], by decide +kernel, each,
    total (by decide +kernel)⟩
  intro l own
  obtain rfl := Option.some.inj own
  decide

end Joinery
