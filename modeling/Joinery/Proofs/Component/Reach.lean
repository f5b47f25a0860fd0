import Joinery.Component.Edit
import Joinery.Proofs.Made
import Joinery.Proofs.Moment.Text

/-!
What constructors and successful edits lead to. A component is reachable if it was made from made
parts and then edited, where every edit succeeded; `Changed` says what each edit can have done by
then.
-/
namespace Joinery

section settle
variable {σ α β : Type} {before after : σ} {nothing given : β} {give : α → β} {f : Fault}

theorem settleQuietly_ok {outcome : Outcome σ}
    (h : settleQuietly before nothing outcome = (after, .ok given)) : outcome = .ok after := by
  cases outcome with
  | ok changed =>
    obtain ⟨rfl, -⟩ := Prod.mk.inj h
    rfl
  | error f => simp [settleQuietly] at h

theorem settle_ok {outcome : Outcome (σ × α)} (h : settle before give outcome = (after, .ok given)) :
    ∃ a, outcome = .ok (after, a) := by
  cases outcome with
  | ok pair =>
    obtain ⟨changed, a⟩ := pair
    obtain ⟨rfl, -⟩ := Prod.mk.inj h
    exact ⟨a, rfl⟩
  | error f => simp [settle] at h

theorem settleQuietly_error {outcome : Outcome σ}
    (refused : settleQuietly before nothing outcome = (after, .error f)) : after = before := by
  cases outcome with
  | ok changed => simp [settleQuietly] at refused
  | error g => exact (Prod.mk.inj refused).1.symm

theorem settle_error {outcome : Outcome (σ × α)}
    (refused : settle before give outcome = (after, .error f)) : after = before := by
  cases outcome with
  | ok pair => simp [settle] at refused
  | error g => exact (Prod.mk.inj refused).1.symm

end settle

theorem mem_changeFirst {α : Type} {q : α → Bool} {f : α → α} {xs : List α} {a : α}
    (member : a ∈ changeFirst q f xs) : a ∈ xs ∨ ∃ b ∈ xs, q b ∧ a = f b := by
  induction xs with
  | nil => simp [changeFirst] at member
  | cons x xs ih =>
    simp only [changeFirst] at member
    split at member
    · rename_i first
      rcases List.mem_cons.mp member with rfl | later
      · exact Or.inr ⟨x, by simp, first, rfl⟩
      · exact Or.inl (List.mem_cons_of_mem x later)
    · rcases List.mem_cons.mp member with rfl | later
      · exact Or.inl (by simp)
      · rcases ih later with kept | ⟨b, mb, rest⟩
        · exact Or.inl (List.mem_cons_of_mem x kept)
        · exact Or.inr ⟨b, List.mem_cons_of_mem x mb, rest⟩

def Variable.Made (v : Variable) : Prop :=
  ∃ name kind unit description fallback least most,
    Variable.make name kind unit description fallback least most = .ok v

def Logic.Made (l : Logic) : Prop := ∀ v ∈ l.used, v.Made

def Template.Made (t : Template) : Prop :=
  ∃ draft, (∀ l ∈ draft.logic, l.Made) ∧ draft.createdAt.Valid ∧ draft.updatedAt.Valid ∧
    Template.make draft = .ok t

inductive Feature.Reachable : Feature → Prop where
  | made {id name description : String} {type count size position : Datum} {f : Feature} :
      Feature.make id type count size position name description = .ok f → Reachable f
  | recounted {f : Feature} {d : Datum} {count : Nat} :
      Reachable f → Feature.readCount d = .ok count → Reachable { f with count }

inductive Operation.Reachable : Operation → Prop where
  | made {id notes : String} {template : Template} {actualTime status equipment : Datum}
      {parameters : List Parameter} {p : Operation} : template.Made →
      Operation.make id template actualTime status notes parameters equipment = .ok p → Reachable p
  | progressed {p : Operation} (status : Progress) : Reachable p → Reachable { p with status }
  | updated {p : Operation} {template : Option Template} (parameters : Option (List Parameter))
      (equipment : Datum) {d : Datum} {time : Option Float} : Reachable p →
      (∀ t ∈ template, t.Made) → Operation.readActualTime d = .ok time →
      Reachable (Component.withActualTime time (Component.updated template parameters equipment p))
  | timed {p : Operation} (minutes : Float) (diagnostic : Option String) :
      Reachable p → Reachable { p with minutes, diagnostic }

namespace Component

def Edit.UsesMade : Edit → Prop
  | .addOperation _ template _ _ _ _ => template.Made
  | .updateOperation _ template _ _ _ => ∀ t ∈ template, t.Made
  | _ => True

/-- The component is one that successful edits make of another. Operations may share an id, so that
the progress of one of them is also set by its place. -/
inductive Reaches (c : Component) : Component → Prop where
  | start : Reaches c c
  | edited {d d' : Component} {e : Edit} {r : Edited} :
      Reaches c d → e.UsesMade → e.apply d = (d', .ok r) → Reaches c d'
  | progressed {d : Component} {i : Nat} {p : Operation} (status : Progress) :
      Reaches c d → d.operations[i]? = some p →
      Reaches c { d with operations := d.operations.set i { p with status } }

/-- A draft whose parts come from their own constructors and edits. -/
structure DraftOfMade (draft : ComponentDraft) : Prop where
  size : ∃ length width thickness, Size.make length width thickness = .ok draft.size
  features : ∀ f ∈ draft.features, f.Reachable
  operations : ∀ p ∈ draft.operations, p.Reachable

def Reachable (c : Component) : Prop :=
  ∃ draft start, DraftOfMade draft ∧ Component.make draft = .ok start ∧ start.Reaches c

theorem Reaches.trans {a b c : Component} (first : a.Reaches b) (second : b.Reaches c) :
    a.Reaches c := by
  induction second with
  | start => exact first
  | edited _ made applied ih => exact ih.edited made applied
  | progressed status _ found ih => exact ih.progressed status found

theorem Reachable.reaches {c c' : Component} (reachable : c.Reachable) (reaches : c.Reaches c') :
    c'.Reachable := by
  obtain ⟨draft, start, parts, made, before⟩ := reachable
  exact ⟨draft, start, parts, made, before.trans reaches⟩

theorem Reachable.refresh {c : Component} (reachable : c.Reachable) : c.refresh.Reachable :=
  reachable.reaches (Reaches.edited (e := .recalculate) .start trivial rfl)

inductive Changed (c : Component) : Edit → Component → Prop where
  | resize {length width thickness : Datum} {size : Size} :
      Size.make (orKept length c.size.length) (orKept width c.size.width)
        (orKept thickness c.size.thickness) = .ok size →
      Changed c (.resize length width thickness) (refresh { c with size })
  | setMaterial (material : String) : Changed c (.setMaterial material) (refresh { c with material })
  | setComplexity {label : Datum} {complexity : Complexity} : Choice.read label = .ok complexity →
      Changed c (.setComplexity label) (refresh { c with complexity })
  | setQuantity {d : Datum} {quantity : Nat} : readQuantity d = .ok quantity →
      Changed c (.setQuantity d) (refresh { c with quantity })
  | setEdgeCount {d : Datum} {edgeCount : Nat} : readEdgeCount d = .ok edgeCount →
      Changed c (.setEdgeCount d) (refresh { c with edgeCount })
  | addFeature {id name : String} {type count size position : Datum} {f : Feature} :
      Feature.make (idOrFresh id "feature" (c.features.map Feature.id)) type count size position
        name "" = .ok f →
      Changed c (.addFeature id type count size position name)
        (refresh { c with features := c.features ++ [f] })
  | setFeatureCount {id : String} {d : Datum} {count : Nat} : Feature.readCount d = .ok count →
      Changed c (.setFeatureCount id d)
        (refresh { c with
          features := changeFirst (featureHasId id) (fun f => { f with count }) c.features })
  | removeFeature (id : String) :
      Changed c (.removeFeature id)
        (refresh { c with features := c.features.eraseP (featureHasId id) })
  | addOperation {id notes : String} {template : Template} {parameters : List Parameter}
      {equipment status : Datum} {p : Operation} :
      Operation.make (idOrFresh id (Text.lower template.code) (c.operations.map Operation.id))
        template .null status notes parameters equipment = .ok p →
      Changed c (.addOperation id template parameters equipment status notes)
        (refresh { c with operations := c.operations ++ [p] })
  | updateOperation {id : String} {template : Option Template}
      {parameters : Option (List Parameter)} {equipment actualTime : Datum} {p : Operation}
      {time : Option Float} : c.operation? id = .ok p →
      Operation.readActualTime actualTime = .ok time →
      Changed c (.updateOperation id template parameters equipment actualTime)
        (refresh (c.changeOperation id fun _ =>
          withActualTime time (updated template parameters equipment p)))
  | removeOperation (id : String) :
      Changed c (.removeOperation id)
        (refresh { c with operations := c.operations.eraseP (hasId id) })
  | setProgress {id : String} {d : Datum} {status : Progress} : Choice.read d = .ok status →
      Changed c (.setProgress id d) (c.changeOperation id fun p => { p with status })
  | recalculate : Changed c .recalculate (refresh c)

theorem operation?_ok {c : Component} {id : String} {p : Operation}
    (found : c.operation? id = .ok p) : c.operations.find? (hasId id) = some p := by
  unfold operation? at found
  split at found
  · rename_i same
    obtain rfl := Except.ok.inj found
    exact same
  · cases found

theorem changed_of_apply {c c' : Component} {e : Edit} {r : Edited}
    (h : e.apply c = (c', .ok r)) : Changed c e c' := by
  cases e <;> simp only [Edit.apply] at h
  case resize length width thickness =>
    have outcome : c.resize length width thickness = .ok c' := settleQuietly_ok h
    obtain ⟨size, made, same⟩ := bind_ok.mp outcome
    obtain rfl := Except.ok.inj same
    exact .resize made
  case setMaterial material =>
    obtain ⟨rfl, -⟩ := Prod.mk.inj h
    exact .setMaterial material
  case setComplexity label =>
    have outcome : c.setComplexity label = .ok c' := settleQuietly_ok h
    obtain ⟨complexity, read, same⟩ := bind_ok.mp outcome
    obtain rfl := Except.ok.inj same
    exact .setComplexity read
  case setQuantity quantity =>
    have outcome : c.setQuantity quantity = .ok c' := settleQuietly_ok h
    obtain ⟨n, read, same⟩ := bind_ok.mp outcome
    obtain rfl := Except.ok.inj same
    exact .setQuantity read
  case setEdgeCount edgeCount =>
    have outcome : c.setEdgeCount edgeCount = .ok c' := settleQuietly_ok h
    obtain ⟨n, read, same⟩ := bind_ok.mp outcome
    obtain rfl := Except.ok.inj same
    exact .setEdgeCount read
  case addFeature id type count size position name =>
    obtain ⟨f, outcome⟩ : ∃ f, c.addFeature id type count size position name = .ok (c', f) :=
      settle_ok h
    obtain ⟨g, made, same⟩ := bind_ok.mp outcome
    obtain ⟨rfl, -⟩ := Prod.mk.inj (Except.ok.inj same)
    exact .addFeature made
  case setFeatureCount id count =>
    have outcome : c.setFeatureCount id count = .ok c' := settleQuietly_ok h
    obtain ⟨n, read, rest⟩ := bind_ok.mp outcome
    obtain ⟨_, _, same⟩ := bind_ok.mp rest
    obtain rfl := Except.ok.inj same
    exact .setFeatureCount read
  case removeFeature id =>
    obtain ⟨f, outcome⟩ : ∃ f, c.removeFeature id = .ok (c', f) := settle_ok h
    obtain ⟨_, _, same⟩ := bind_ok.mp outcome
    obtain ⟨rfl, -⟩ := Prod.mk.inj (Except.ok.inj same)
    exact .removeFeature id
  case addOperation id template parameters equipment status notes =>
    obtain ⟨p, outcome⟩ :
        ∃ p, c.addOperation id template parameters equipment status notes = .ok (c', p) :=
      settle_ok h
    obtain ⟨q, made, same⟩ := bind_ok.mp outcome
    obtain ⟨rfl, -⟩ := Prod.mk.inj (Except.ok.inj same)
    exact .addOperation made
  case updateOperation id template parameters equipment actualTime =>
    simp only [updateOperation] at h
    split at h
    · simp [Except.map] at h
    · rename_i p found
      split at h
      · simp [Except.map] at h
      · rename_i time read
        obtain ⟨rfl, -⟩ := Prod.mk.inj h
        exact .updateOperation found read
  case removeOperation id =>
    obtain ⟨p, outcome⟩ : ∃ p, c.removeOperation id = .ok (c', p) := settle_ok h
    obtain ⟨_, _, same⟩ := bind_ok.mp outcome
    obtain ⟨rfl, -⟩ := Prod.mk.inj (Except.ok.inj same)
    exact .removeOperation id
  case setProgress id status =>
    have outcome : c.setProgress id status = .ok c' := settleQuietly_ok h
    obtain ⟨_, _, rest⟩ := bind_ok.mp outcome
    obtain ⟨progress, read, same⟩ := bind_ok.mp rest
    obtain rfl := Except.ok.inj same
    exact .setProgress read
  case recalculate =>
    obtain ⟨rfl, -⟩ := Prod.mk.inj h
    exact .recalculate

end Component
end Joinery
