import Joinery.Product.Edit
import Joinery.Proofs.Component.Reach
import Joinery.Proofs.Product.Totals

/-!
What constructors and successful edits of products lead to. All parts of a reachable product are
reachable on their own, because work on a component that succeeds is a run of successful edits of
it.
-/
namespace Joinery

structure Placement.Reachable (p : Placement) : Prop where
  component : p.component.Reachable
  quantity : ∃ d, Component.readQuantity d = .ok p.quantity
  order : ∃ d : Datum, d.count 0 "assembly_order" = .ok p.order

theorem Placement.reachable_of_make {c : Component} {quantity position order : Datum} {p : Placement}
    (reachable : c.Reachable) (made : Placement.make c quantity position order = .ok p) :
    p.Reachable := by
  obtain ⟨n, m, readQuantity, readOrder, rfl⟩ := parts_of_make made
  exact ⟨reachable, ⟨quantity, readQuantity⟩, ⟨order, readOrder⟩⟩

inductive AssemblyStep.Reachable : AssemblyStep → Prop where
  | made {id name description notes : String} {componentIds : List String}
      {estimatedTime status : Datum} {s : AssemblyStep} :
      AssemblyStep.make id name description componentIds estimatedTime status notes = .ok s →
      Reachable s
  | progressed {s : AssemblyStep} (status : Progress) : Reachable s → Reachable { s with status }

namespace Product

/-- A component that comes in is reachable, and work that succeeds on one is made of successful
edits. -/
def Edit.Public {α : Type} : Edit α → Prop
  | .addComponent c _ _ _ => c.Reachable
  | .within _ work => ∀ c c' a, work c = (c', .ok a) → c.Reaches c'
  | .past _ work => ∀ c c' a, work c = (c', .ok a) → c.Reaches c'
  | _ => True

structure DraftOfReachable (draft : ProductDraft) : Prop where
  placements : ∀ entry ∈ draft.placements, entry.Reachable
  steps : ∀ s ∈ draft.steps, s.Reachable
  createdAt : draft.createdAt.Valid
  updatedAt : draft.updatedAt.Valid

/-- Components and steps may share an id, so that they are also changed by their place. -/
inductive Reachable (defaults : Defaults) : Product → Prop where
  | made {draft : ProductDraft} {p : Product} :
      DraftOfReachable draft → Product.make defaults draft = .ok p → Reachable defaults p
  | edited {α : Type} {p q : Product} {now : Moment} {e : Edit α} {r : Edited α} :
      Reachable defaults p → now.Valid → e.Public → e.apply defaults now p = (q, .ok r) →
      Reachable defaults q
  | worked {p : Product} {i : Nat} {entry : Placement} {c : Component} :
      Reachable defaults p → p.placements[i]? = some entry → entry.component.Reaches c →
      Reachable defaults { p with placements := p.placements.set i { entry with component := c } }
  | progressed {p : Product} {i : Nat} {s : AssemblyStep} (status : Progress) :
      Reachable defaults p → p.steps[i]? = some s →
      Reachable defaults { p with steps := p.steps.set i { s with status } }

theorem Reachable.applied {α : Type} {defaults : Defaults} {p : Product} {now : Moment} {e : Edit α}
    (reachable : p.Reachable defaults) (valid : now.Valid) (isPublic : e.Public)
    (succeeds : (e.apply defaults now p).2.isOk = true) :
    (e.apply defaults now p).1.Reachable defaults :=
  .edited reachable valid isPublic (Prod.ext rfl (Outcome.eq_value succeeds))

inductive Changed {α : Type} (now : Moment) (p : Product) : Edit α → Product → Prop where
  | addComponent {component : Component} {quantity position order : Datum} {entry : Placement} :
      Placement.make component quantity position (p.orderOrNext order) = .ok entry →
      Changed now p (.addComponent component quantity position order)
        (refresh (stamp now { p with placements := p.placements ++ [entry] }))
  | removeComponent (id : String) :
      Changed now p (.removeComponent id)
        (refresh (stamp now { p with placements := p.placements.eraseP (Placement.holds id) }))
  | within {id : String} {work : Component.Work α} {entry : Placement} {c : Component} {a : α} :
      entry ∈ p.placements → work entry.component = (c, .ok a) →
      Changed now p (.within id work) (refresh (stamp now (p.replaceComponent id c)))
  | past {id : String} {work : Component.Work α} {entry : Placement} {c : Component} {a : α} :
      entry ∈ p.placements → work entry.component = (c, .ok a) →
      Changed now p (.past id work) (p.replaceComponent id c)
  | addStep {id name description : String} {componentIds : List String} {estimatedTime : Datum}
      {step : AssemblyStep} :
      AssemblyStep.make (idOrFresh id "assembly" (p.steps.map AssemblyStep.id)) name description
        componentIds estimatedTime (.text "pending") "" = .ok step →
      Changed now p (.addStep id name description componentIds estimatedTime)
        (stamp now { p with steps := p.steps ++ [step] })
  | setStepProgress {id : String} {d : Datum} {status : Progress} : Choice.read d = .ok status →
      Changed now p (.setStepProgress id d)
        { p with steps := changeFirst (fun s => s.id == id) (fun s => { s with status }) p.steps }
  | setStatus {d : Datum} {status : ProductStatus} : Choice.read d = .ok status →
      Changed now p (.setStatus d) (stamp now { p with status })
  | recalculate (rates : Option RateTable) (params : Option EstimateParameters) :
      Changed now p (.recalculate rates params)
        (refresh { p with rates := rates.or p.rates, params := params.or p.params })

theorem give_ok {α β : Type} {give : β → Edited α} {outcome : Product × Outcome β} {q : Product}
    {r : Edited α} (h : Edit.give give outcome = (q, .ok r)) : ∃ b, outcome = (q, .ok b) := by
  obtain ⟨p, result⟩ := outcome
  obtain ⟨rfl, same⟩ := Prod.mk.inj h
  obtain ⟨b, rfl, -⟩ := map_ok.mp same
  exact ⟨b, rfl⟩

theorem settle_ok {α : Type} {defaults : Defaults} {p q : Product} {result : Outcome α} {a : α}
    (h : settle defaults p result = (q, .ok a)) : q = p.refresh ∧ result = .ok a := by
  obtain ⟨rfl, rest⟩ := Prod.mk.inj h
  obtain ⟨-, -, same⟩ := bind_ok.mp rest
  exact ⟨rfl, same⟩

theorem placement?_ok {p : Product} {id : String} {entry : Placement}
    (found : p.placement? id = .ok entry) :
    p.placements.find? (Placement.holds id) = some entry := by
  unfold placement? at found
  split at found
  · rename_i same
    obtain rfl := Except.ok.inj found
    exact same
  · cases found

theorem mem_of_placement? {p : Product} {id : String} {entry : Placement}
    (found : p.placement? id = .ok entry) : entry ∈ p.placements :=
  List.mem_of_find?_eq_some (placement?_ok found)

theorem changed_of_apply {α : Type} {defaults : Defaults} {now : Moment} {p q : Product}
    {e : Edit α} {r : Edited α} (h : e.apply defaults now p = (q, .ok r)) : Changed now p e q := by
  cases e <;> simp only [Edit.apply] at h
  case addComponent component quantity position order =>
    obtain ⟨placed, outcome⟩ := give_ok h
    simp only [addComponent] at outcome
    split at outcome
    · cases outcome
    · rename_i entry made
      obtain ⟨rfl, -⟩ := settle_ok outcome
      simp only [place] at made
      split at made
      · cases made
      · exact .addComponent made
  case removeComponent id =>
    obtain ⟨removed, outcome⟩ := give_ok h
    simp only [removeComponent] at outcome
    split at outcome
    · cases outcome
    · obtain ⟨rfl, -⟩ := settle_ok outcome
      exact .removeComponent id
  case within id work =>
    obtain ⟨a, outcome⟩ := give_ok h
    simp only [workWithin] at outcome
    split at outcome
    · cases outcome
    · rename_i entry found
      obtain ⟨rfl, done⟩ := settle_ok outcome
      exact .within (mem_of_placement? found) (Prod.ext rfl done)
  case past id work =>
    obtain ⟨a, outcome⟩ := give_ok h
    simp only [workPast] at outcome
    split at outcome
    · cases outcome
    · rename_i entry found
      obtain ⟨rfl, done⟩ := Prod.mk.inj outcome
      exact .past (mem_of_placement? found) (Prod.ext rfl done)
  case addStep id name description componentIds estimatedTime =>
    obtain ⟨step, outcome⟩ := Joinery.settle_ok h
    obtain ⟨made, read, same⟩ := bind_ok.mp outcome
    obtain ⟨rfl, -⟩ := Prod.mk.inj (Except.ok.inj same)
    exact .addStep read
  case setStepProgress id status =>
    have outcome := settleQuietly_ok h
    obtain ⟨progress, read, same⟩ := bind_ok.mp outcome
    obtain rfl := Except.ok.inj same
    exact .setStepProgress read
  case setStatus status =>
    have outcome := settleQuietly_ok h
    obtain ⟨wanted, read, same⟩ := bind_ok.mp outcome
    obtain rfl := Except.ok.inj same
    exact .setStatus read
  case recalculate rates params =>
    obtain ⟨totals, outcome⟩ := give_ok h
    obtain ⟨rfl, -⟩ := Prod.mk.inj outcome
    exact .recalculate rates params

structure PartsReachable (p : Product) : Prop where
  placements : ∀ entry ∈ p.placements, entry.Reachable
  steps : ∀ s ∈ p.steps, s.Reachable
  createdAt : p.createdAt.Valid
  updatedAt : p.updatedAt.Valid

namespace PartsReachable
variable {p : Product} (parts : p.PartsReachable)
include parts

theorem refresh : p.refresh.PartsReachable := by
  refine ⟨?_, parts.steps, parts.createdAt, parts.updatedAt⟩
  intro entry member
  obtain ⟨before, mb, rfl⟩ := List.mem_map.mp member
  have reachable := parts.placements before mb
  exact ⟨reachable.component.refresh, reachable.quantity, reachable.order⟩

theorem stamp {now : Moment} (valid : now.Valid) : (p.stamp now).PartsReachable :=
  ⟨parts.placements, parts.steps, parts.createdAt, valid⟩

theorem replaceComponent {id : String} {c : Component} (reachable : c.Reachable) :
    (p.replaceComponent id c).PartsReachable := by
  refine ⟨?_, parts.steps, parts.createdAt, parts.updatedAt⟩
  intro entry member
  rcases mem_changeFirst member with kept | ⟨before, mb, -, rfl⟩
  · exact parts.placements entry kept
  · have others := parts.placements before mb
    exact ⟨reachable, others.quantity, others.order⟩

theorem changed {α : Type} {q : Product} {now : Moment} {e : Edit α} (valid : now.Valid)
    (isPublic : e.Public) (changed : Changed now p e q) : q.PartsReachable := by
  cases changed with
  | addComponent made =>
    apply refresh
    refine ⟨?_, parts.steps, parts.createdAt, valid⟩
    intro entry member
    rcases List.mem_append.mp member with old | new
    · exact parts.placements entry old
    · obtain rfl := List.mem_singleton.mp new
      exact Placement.reachable_of_make isPublic made
  | removeComponent id =>
    apply refresh
    exact ⟨fun entry member => parts.placements entry (List.mem_of_mem_eraseP member), parts.steps,
      parts.createdAt, valid⟩
  | within member done =>
    have reachable := (parts.placements _ member).component.reaches (isPublic _ _ _ done)
    exact refresh (stamp (replaceComponent parts reachable) valid)
  | past member done =>
    have reachable := (parts.placements _ member).component.reaches (isPublic _ _ _ done)
    exact replaceComponent parts reachable
  | addStep made =>
    refine ⟨parts.placements, ?_, parts.createdAt, valid⟩
    intro s member
    rcases List.mem_append.mp member with old | new
    · exact parts.steps s old
    · obtain rfl := List.mem_singleton.mp new
      exact .made made
  | setStepProgress read =>
    refine ⟨parts.placements, ?_, parts.createdAt, parts.updatedAt⟩
    intro s member
    rcases mem_changeFirst member with kept | ⟨before, mb, -, rfl⟩
    · exact parts.steps s kept
    · exact .progressed _ (parts.steps before mb)
  | setStatus read => exact ⟨parts.placements, parts.steps, parts.createdAt, valid⟩
  | recalculate rates params =>
    apply refresh
    exact ⟨parts.placements, parts.steps, parts.createdAt, parts.updatedAt⟩

end PartsReachable

theorem Reachable.parts {defaults : Defaults} {p : Product} (reachable : p.Reachable defaults) :
    p.PartsReachable := by
  induction reachable with
  | made parts made =>
    obtain ⟨_, _, -, rfl, -⟩ := parts_of_make made
    apply PartsReachable.refresh
    exact ⟨parts.placements, parts.steps, parts.createdAt, parts.updatedAt⟩
  | edited _ valid isPublic applied ih => exact ih.changed valid isPublic (changed_of_apply applied)
  | @worked p i entry c _ found reaches ih =>
    refine ⟨?_, ih.steps, ih.createdAt, ih.updatedAt⟩
    intro other member
    rcases List.mem_or_eq_of_mem_set member with kept | rfl
    · exact ih.placements other kept
    · have before := ih.placements entry (List.mem_of_getElem? found)
      exact ⟨before.component.reaches reaches, before.quantity, before.order⟩
  | @progressed p i s status _ found ih =>
    refine ⟨ih.placements, ?_, ih.createdAt, ih.updatedAt⟩
    intro other member
    rcases List.mem_or_eq_of_mem_set member with kept | rfl
    · exact ih.steps other kept
    · exact .progressed status (ih.steps s (List.mem_of_getElem? found))

end Product
end Joinery
