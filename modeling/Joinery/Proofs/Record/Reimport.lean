import Joinery.Proofs.Record.Library
import Joinery.Proofs.Record.Readable

/-!
Records that were accepted. What a reader gives is written, and what is written is read as the same
product: whatever a record left out, spelled in its own way or said twice, it is settled with the
first reading.
-/
namespace Joinery
open Datum (WithoutNaN)

theorem Moment.whole_of_settle {m : Moment} (settled : m.settle = m) : m.Whole := by
  apply Moment.settle_beq_self_iff.mp
  rw [settled]
  exact Moment.beq_iff.mpr ⟨rfl, rfl⟩

/-! Settled templates that are each the first of their id are found again as they are. -/
section Again
variable {all : List Template}

theorem Operation.Settled.reread {p : Operation} (settled : p.Settled)
    (first : p.template.firstIn all = p.template) :
    p.reread all = { p with minutes := 0, diagnostic := none } := by
  rw [Operation.reread, first, settled.template.plain.readBack, settled.template.dates,
    settled.equipment]

theorem Operation.Settled.readIn {p : Operation} (settled : p.Settled)
    (first : p.template.firstIn all = p.template) : p.readIn all = p := by
  rw [Operation.readIn, first, settled.template.dates]

theorem Component.Settled.reread {c : Component} (settled : c.Settled) (fresh : c.Fresh)
    (first : ∀ t ∈ c.templates, t.firstIn all = t) : c.reread all = c := by
  have each (operations : List Operation) : ∀ p ∈ c.operations,
      Operation.timed { c with operations } (p.reread all) = p := by
    intro p member
    obtain ⟨minutes, diagnostic⟩ := fresh p member
    rw [(settled.operations p member).reread (first p.template (List.mem_map_of_mem member))]
    simp only [Operation.timed, Component.subject_with_operations, ← minutes, ← diagnostic]
  have same : (c.operations.map (Operation.reread all)).map
      (Operation.timed { c with operations := c.operations.map (Operation.reread all) }) =
      c.operations := by
    rw [List.map_map]
    exact (List.map_congr_left (each _)).trans (List.map_id _)
  simp only [Component.reread, Component.refresh, same]

theorem Component.Settled.readIn {c : Component} (settled : c.Settled)
    (first : ∀ t ∈ c.templates, t.firstIn all = t) : c.readIn all = c := by
  have same : c.operations.map (Operation.readIn all) = c.operations := by
    refine (List.map_congr_left fun p member => ?_).trans (List.map_id _)
    exact (settled.operations p member).readIn (first p.template (List.mem_map_of_mem member))
  rw [Component.readIn, same]

end Again

namespace Product

/-- A product as a reader gives it. -/
structure Settled (defaults : Defaults) (p : Product) : Prop where
  reachable : p.Reachable defaults
  totals : ∃ totals, p.totals defaults = .ok totals
  placements : ∀ entry ∈ p.placements, entry.Settled
  first : ∀ t ∈ p.templates, t.firstIn p.templates = t
  createdAt : p.createdAt.settle = p.createdAt
  updatedAt : p.updatedAt.settle = p.updatedAt
  own : p.rates = none ∧ p.params = none

theorem make_of_fresh {defaults : Defaults} {draft : ProductDraft} {p : Product}
    (fresh : ∀ entry ∈ draft.placements, entry.component.Fresh) (made : make defaults draft = .ok p) :
    ∃ status, p = ofDraft draft status ∧ ∃ totals, p.totals defaults = .ok totals := by
  obtain ⟨status, totals, -, rfl, taken⟩ := parts_of_make made
  exact ⟨status, refresh_eq_self fresh, totals, taken⟩

theorem ofRecord_settled {defaults : Defaults} {whole : Datum} {p : Product}
    (numbers : whole.WithoutNaN) (read : ofRecord defaults whole = .ok p) : p.Settled defaults := by
  obtain ⟨r, draft, rfl, drawn, made⟩ := parts_of_read read
  obtain ⟨⟨ds, after, listed, reads⟩, ⟨es, listedSteps, readSteps⟩, ⟨_, -, readCreated⟩,
    ⟨_, -, readUpdated⟩⟩ := drawn
  obtain ⟨validCreated, settledCreated⟩ := Datum.moment_ok readCreated
  obtain ⟨validUpdated, settledUpdated⟩ := Datum.moment_ok readUpdated
  obtain ⟨each, added⟩ := readEach_added (Placement.ofRecord_ok numbers) (fun _ _ => ⟨_, rfl⟩)
    Template.library_nil (fun d member => Record.holds_of_items listed member) reads
  have eachStep : ∀ s ∈ draft.steps, s.Reachable := by
    refine Record.each_read Datum.Holds.self listedSteps (fun d s _ read => ?_)
      (fun _ => ⟨_, rfl⟩) readSteps
    obtain ⟨_, _, _, _, _, _, _, made⟩ := AssemblyStep.parts_of_read read
    exact .made made
  have reachable : p.Reachable defaults :=
    .made ⟨fun entry placed => (each entry placed).1, eachStep, validCreated, validUpdated⟩ made
  obtain ⟨status, rfl, totals⟩ :=
    make_of_fresh (fun entry placed => (each entry placed).1.component.fresh) made
  exact ⟨reachable, totals, fun entry placed => (each entry placed).2,
    fun t member => added.firstIn_eq member, settledCreated, settledUpdated, rfl, rfl⟩

namespace Settled
variable {defaults : Defaults} {p : Product} (settled : p.Settled defaults)
include settled

theorem template {t : Template} (used : t ∈ p.templates) : t.Settled := by
  obtain ⟨entry, placed, used⟩ := List.mem_flatMap.mp used
  obtain ⟨q, mq, rfl⟩ := List.mem_map.mp used
  exact ((settled.placements entry placed).component.operations q mq).template

theorem reread : p.reread = p := by
  have same : p.placements.map (Placement.reread p.templates) = p.placements := by
    refine (List.map_congr_left fun entry placed => ?_).trans (List.map_id _)
    rw [Placement.reread, (settled.placements entry placed).component.reread
      (settled.reachable.parts.placements entry placed).component.fresh
      fun t used => settled.first t (templates_of_placement placed t used)]
    rfl
  obtain ⟨rates, params⟩ := settled.own
  rw [Product.reread, same, settled.createdAt, settled.updatedAt, ← rates, ← params]

theorem readBack : p.readBack = p := by
  have same : p.placements.map (Placement.readIn p.templates) = p.placements := by
    refine (List.map_congr_left fun entry placed => ?_).trans (List.map_id _)
    rw [Placement.readIn, (settled.placements entry placed).component.readIn
      fun t used => settled.first t (templates_of_placement placed t used)]
    rfl
  obtain ⟨rates, params⟩ := settled.own
  rw [Product.readBack, same, settled.createdAt, settled.updatedAt, ← rates, ← params]

theorem beq_self : (p == p) = true := by
  have shared : Template.Shared p.templates := by
    refine ⟨fun t used => (settled.template used).plain, fun t used u other same => ?_⟩
    have one : t = u := by
      rw [← settled.first t used, ← settled.first u other, Template.firstIn_congr same other]
    rw [← one]
    exact (settled.template used).plain.beq_self
  have dates : ∀ m ∈ p.datesRead, m.Whole := by
    refine whole_datesRead_iff.mpr ⟨Moment.whole_of_settle settled.createdAt,
      Moment.whole_of_settle settled.updatedAt, fun t used => ?_⟩
    rw [settled.first t used]
    have kept := (settled.template used).dates
    exact ⟨Moment.whole_of_settle (congrArg Template.createdAt kept),
      Moment.whole_of_settle (congrArg Template.updatedAt kept)⟩
  have equal := (readBack_beq_iff_of_parts settled.reachable
    (fun entry placed => (settled.placements entry placed).selfEqual) shared).mpr dates
  rwa [settled.readBack] at equal

theorem ofRecord_record {d : Datum} (written : p.record defaults = .ok d) :
    ofRecord defaults d = .ok p := by
  obtain ⟨totals, taken⟩ := settled.totals
  have same : p.reread.refresh = p := (reread_refresh p).trans settled.reread
  have made : make defaults p.draftBack = .ok p.reread.refresh :=
    make_of_totals (read_ofChoice p.status) ((congrArg (Product.totals defaults) same).trans taken)
  have doubles : ∀ t ∈ p.templates, (t.firstIn p.templates).HasDoubles := by
    intro t used
    rw [settled.first t used]
    exact (settled.template used).plain.hasDoubles
  rw [ofRecord_make settled.reachable doubles written, made, same]
  rfl

end Settled
end Product

theorem reimport_changes_nothing {defaults : Defaults} {r : Datum} {p : Product}
    (numbers : r.WithoutNaN) (read : Product.ofRecord defaults r = .ok p) :
    ∃ e, p.record defaults = .ok e ∧ Product.ofRecord defaults e = .ok p ∧ (p == p) = true := by
  have settled := Product.ofRecord_settled numbers read
  obtain ⟨totals, taken⟩ := settled.totals
  obtain ⟨e, written⟩ := Product.record_of_totals settled.reachable taken
  exact ⟨e, written, settled.ofRecord_record written, settled.beq_self⟩

namespace Shelf

/-- A record as it may come from elsewhere: ids that are numbers, numbers typed as texts, labels in
their own case, dates in universal time or without a time, and a template that is given by its id. -/
def looseRecord : Datum := .object [
  ("id", .int 7),
  ("name", .null),
  ("components", .list [.object [
    ("component", .object [
      ("id", .text "side"),
      ("size", .object [
        ("length", .text "1200"), ("width", .int 600), ("thickness", .real 18.5)]),
      ("material", .text "mdf"),
      ("complexity", .text " Medium"),
      ("quantity", .text "2"),
      ("processes", .list [
        .object [
          ("id", .int 1),
          ("template", .object [
            ("id", .int 3),
            ("code", .text "SAW"),
            ("category", .text "CUTTING"),
            ("strategy", .text "Efficiency"),
            ("efficiency", .object [
              ("id", .null), ("baseTime", .text "5"), ("sizeFactor", .int 2)]),
            ("requiredEquipment", .list [.text " saw ", .text "saw"]),
            ("createdAt", .text "2024-05-06T10:00:00Z"),
            ("updatedAt", .text "20240507")])],
        .object [
          ("id", .int 2),
          ("template", .object [("id", .text "3")]),
          ("status", .text "In_Progress"),
          ("equipment", .text "")]])]),
    ("position", .object [("x", .real 0.5), ("y", .list [])])]]),
  ("createdAt", .text " 2024-05-06T12:00:00.5+02:00 "),
  ("updatedAt", .text "2024-W19-1")]

end Shelf

theorem shelf_reimport : Shelf.looseRecord.WithoutNaN ∧
    ∃ p e, Product.ofRecord .standard Shelf.looseRecord = .ok p ∧ p.record .standard = .ok e ∧
      Product.ofRecord .standard e = .ok p ∧ (p == p) = true := by
  have numbers : Shelf.looseRecord.WithoutNaN := Datum.withoutNaN_of_check (by decide +kernel)
  have read : Product.ofRecord .standard Shelf.looseRecord = .ok _ :=
    Outcome.eq_value (by decide +kernel)
  obtain ⟨e, written, again, same⟩ := reimport_changes_nothing numbers read
  exact ⟨numbers, _, e, read, written, again, same⟩

end Joinery
