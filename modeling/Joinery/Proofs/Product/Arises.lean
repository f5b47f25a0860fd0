import Joinery.Proofs.Product.Refusal
import Joinery.Proofs.Record.Reimport
import Joinery.Proofs.Record.Valid

/-!
All that can come to be. A piece arises if it is made by a constructor or read from a record, if it is
a part of one that arises, or if it is what an edit leaves of one, whether the edit succeeded or was
refused. Every piece that arises is valid.
-/
namespace Joinery

inductive Piece where
  | template (t : Template)
  | size (s : Size)
  | feature (f : Feature)
  | operation (p : Operation)
  | component (c : Component)
  | placement (p : Placement)
  | step (s : AssemblyStep)
  | product (p : Product)

def Piece.Valid : Piece → Prop
  | .template t => t.Valid
  | .size s => s.Valid
  | .feature f => f.Valid
  | .operation p => p.Valid
  | .component c => c.Valid
  | .placement p => p.Valid
  | .step s => s.Valid
  | .product p => p.Valid

/-- Edits are given anything as numbers, texts and labels. What they are given as templates and
components, and what work makes of the components of a product, has to arise as well. -/
inductive Arises : Piece → Prop where
  -- What constructors make.
  | template {draft : TemplateDraft} {t : Template} : (∀ e ∈ draft.efficiency, e.Made) →
      Template.make draft = .ok t → Arises (.template t)
  | size {length width thickness : Datum} {s : Size} :
      Size.make length width thickness = .ok s → Arises (.size s)
  | feature {id name description : String} {type count size position : Datum} {f : Feature} :
      Feature.make id type count size position name description = .ok f → Arises (.feature f)
  | operation {id notes : String} {template : Template} {actualTime status equipment : Datum}
      {parameters : List Parameter} {p : Operation} : Arises (.template template) →
      Operation.make id template actualTime status notes parameters equipment = .ok p →
      Arises (.operation p)
  | component {draft : ComponentDraft} {c : Component} : Arises (.size draft.size) →
      (∀ f ∈ draft.features, Arises (.feature f)) →
      (∀ p ∈ draft.operations, Arises (.operation p)) →
      Component.make draft = .ok c → Arises (.component c)
  | placement {component : Component} {quantity position order : Datum} {p : Placement} :
      Arises (.component component) → Placement.make component quantity position order = .ok p →
      Arises (.placement p)
  | step {id name description notes : String} {componentIds : List String}
      {estimatedTime status : Datum} {s : AssemblyStep} :
      AssemblyStep.make id name description componentIds estimatedTime status notes = .ok s →
      Arises (.step s)
  | product {defaults : Defaults} {draft : ProductDraft} {p : Product} :
      (∀ entry ∈ draft.placements, Arises (.placement entry)) →
      (∀ s ∈ draft.steps, Arises (.step s)) →
      Product.make defaults draft = .ok p → Arises (.product p)
  -- What is read from records.
  | componentRead {known after : Keyed Template} {d : Datum} {c : Component} :
      (∀ id t, known.get? id = some t → Arises (.template t)) →
      Component.ofRecord known d = .ok (c, after) → Arises (.component c)
  | productRead {defaults : Defaults} {d : Datum} {p : Product} :
      Product.ofRecord defaults d = .ok p → Arises (.product p)
  -- What is a part of something else.
  | templateOf {p : Operation} : Arises (.operation p) → Arises (.template p.template)
  | sizeOf {c : Component} : Arises (.component c) → Arises (.size c.size)
  | featureOf {c : Component} {f : Feature} :
      Arises (.component c) → f ∈ c.features → Arises (.feature f)
  | operationOf {c : Component} {p : Operation} :
      Arises (.component c) → p ∈ c.operations → Arises (.operation p)
  | componentOf {p : Placement} : Arises (.placement p) → Arises (.component p.component)
  | placementOf {p : Product} {entry : Placement} :
      Arises (.product p) → entry ∈ p.placements → Arises (.placement entry)
  | stepOf {p : Product} {s : AssemblyStep} :
      Arises (.product p) → s ∈ p.steps → Arises (.step s)
  -- What edits leave.
  | operationProgressed {p : Operation} {d : Datum} {status : Progress} :
      Arises (.operation p) → Choice.read d = .ok status → Arises (.operation { p with status })
  | stepProgressed {s : AssemblyStep} {d : Datum} {status : Progress} :
      Arises (.step s) → Choice.read d = .ok status → Arises (.step { s with status })
  | componentEdited {c : Component} {e : Component.Edit} : Arises (.component c) →
      (∀ t ∈ e.templates, Arises (.template t)) → Arises (.component (e.apply c).1)
  | componentProgressed {c : Component} {i : Nat} {p : Operation} {d : Datum} {status : Progress} :
      Arises (.component c) → c.operations[i]? = some p → Choice.read d = .ok status →
      Arises (.component { c with operations := c.operations.set i { p with status } })
  | productEdited {α : Type} {defaults : Defaults} {now : Moment} {p : Product}
      {e : Product.Edit α} : Arises (.product p) →
      (∀ c ∈ e.components p, Arises (.component c)) →
      Arises (.product (e.apply defaults now p).1)
  | productWorked {p : Product} {i : Nat} {entry : Placement} {c : Component} :
      Arises (.product p) → p.placements[i]? = some entry → Arises (.component c) →
      Arises (.product { p with placements := p.placements.set i { entry with component := c } })
  | productProgressed {p : Product} {i : Nat} {s : AssemblyStep} {d : Datum} {status : Progress} :
      Arises (.product p) → p.steps[i]? = some s → Choice.read d = .ok status →
      Arises (.product { p with steps := p.steps.set i { s with status } })

theorem valid_of_arises {x : Piece} (arises : Arises x) : x.Valid := by
  induction arises with
  | template efficiency made => exact Template.valid_of_make efficiency made
  | size made => exact Size.valid_of_make made
  | feature made => exact Feature.valid_of_make made
  | operation _ made valid => exact Operation.valid_of_make valid made
  | component _ _ _ made size features operations =>
    exact Component.valid_of_make size features operations made
  | placement _ made valid => exact Placement.valid_of_make valid made
  | step made => exact AssemblyStep.valid_of_make made
  | product _ _ made placements steps => exact Product.valid_of_make placements steps made
  | componentRead _ read library => exact (Component.valid_of_record library read).1
  | productRead read => exact Product.valid_of_record read
  | templateOf _ valid => exact Operation.Valid.template valid
  | sizeOf _ valid => exact Component.Valid.size valid
  | featureOf _ member valid => exact Component.Valid.features valid _ member
  | operationOf _ member valid => exact Component.Valid.operations valid _ member
  | componentOf _ valid => exact Placement.Valid.component valid
  | placementOf _ member valid => exact Product.Valid.placements valid _ member
  | stepOf _ member valid => exact Product.Valid.steps valid _ member
  | operationProgressed _ read valid => exact Operation.Valid.progressed valid read
  | stepProgressed _ read valid => exact AssemblyStep.Valid.progressed valid read
  | componentEdited _ _ valid used => exact Component.Valid.applied valid used
  | componentProgressed _ found read valid => exact Component.Valid.progressed valid found read
  | productEdited _ _ valid used => exact Product.Valid.applied valid _ _ used
  | productWorked _ found _ valid new => exact Product.Valid.worked valid found new
  | productProgressed _ found read valid => exact Product.Valid.progressed valid found read

namespace Shelf

def readLoose : Product := (Product.ofRecord .standard looseRecord).value (by decide +kernel)

def badTime : Component.Edit := .updateOperation "2" none none (.text "drill") (.text "soon")

def badTimeWithin : Product.Edit Component.Edited := .within "side" fun c => badTime.apply c

end Shelf

theorem shelf_stays_valid :
    (Shelf.badTimeWithin.apply .standard Shelf.noon Shelf.readLoose).2.isOk = false ∧
      (Shelf.badTimeWithin.apply .standard Shelf.noon Shelf.readLoose).1.Valid := by
  have read : Arises (.product Shelf.readLoose) := .productRead (Outcome.eq_value _)
  refine ⟨by decide +kernel, valid_of_arises (.productEdited read ?_)⟩
  intro c member
  obtain ⟨own, placed, rfl⟩ := List.mem_map.mp member
  obtain ⟨entry, me, rfl⟩ := List.mem_map.mp placed
  refine .componentEdited (.componentOf (.placementOf read me)) ?_
  intro t brought
  cases brought

end Joinery
