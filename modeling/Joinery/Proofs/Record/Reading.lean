import Joinery.Proofs.Datum.Giant
import Joinery.Proofs.Outcome
import Joinery.Record.Product

/-!
What readers look at and go through. Whatever a reader looks at is part of the value that it was given,
so what is known of all parts of a value is known of everything that is read from it. A record is read
by drawing up what its constructor is given, with each part read from a field of its own, and by making
the thing of that. Templates are handed on from one operation to the next, with those that were read so
far.
-/
namespace Joinery

/-! Parts of loose values. -/

namespace Datum

/-- A value holds itself, its items or fields, and the items and fields of these, however deep. -/
inductive Holds (whole : Datum) : Datum → Prop where
  | self : Holds whole whole
  | item {items : List Datum} {d : Datum} : Holds whole (.list items) → d ∈ items → Holds whole d
  | field {fields : Record} {name : String} {d : Datum} :
      Holds whole (.object fields) → (name, d) ∈ fields → Holds whole d

theorem Holds.trans {whole d part : Datum} (outer : Holds whole d) (inner : Holds d part) :
    Holds whole part := by
  induction inner with
  | self => exact outer
  | item _ member ih => exact ih.item member
  | field _ member ih => exact ih.field member

theorem holds_of_elements {d e : Datum} {ds : List Datum} (read : d.elements = .ok ds)
    (member : e ∈ ds) : Holds d e ∨ ∃ s, e = .text s := by
  cases d with
  | list items =>
    obtain rfl := Except.ok.inj read
    exact Or.inl (Holds.self.item member)
  | text s =>
    obtain rfl := Except.ok.inj read
    obtain ⟨c, -, rfl⟩ := List.mem_map.mp member
    exact Or.inr ⟨_, rfl⟩
  | object fields =>
    obtain rfl := Except.ok.inj read
    obtain ⟨entry, -, rfl⟩ := List.mem_map.mp member
    exact Or.inr ⟨_, rfl⟩
  | null | bool _ | number _ => cases read

theorem asRecord_ok {kind : String} {d : Datum} {r : Record} (read : d.asRecord kind = .ok r) :
    d = .object r := by
  unfold asRecord at read
  split at read
  · obtain rfl := Except.ok.inj read
    rfl
  · cases read

end Datum

namespace Record
open Datum

theorem mem_of_lookup {r : Record} {key : String} {d : Datum} (found : r.lookup key = some d) :
    (key, d) ∈ r := by
  obtain ⟨before, after, rfl, -⟩ := List.lookup_eq_some_iff.mp found
  simp

theorem holds_of_lookup {r : Record} {key : String} {d : Datum} (found : r.lookup key = some d) :
    Holds (.object r) d := Holds.self.field (mem_of_lookup found)

theorem lookup_of_need {kind key : String} {r : Record} {d : Datum}
    (needed : r.need kind key = .ok d) : r.lookup key = some d := by
  unfold need at needed
  split at needed
  · rename_i found
    obtain rfl := Except.ok.inj needed
    exact found
  · cases needed

theorem valueOr_cases (r : Record) (key : String) (otherwise : Datum) :
    r.valueOr key otherwise = otherwise ∨ r.lookup key = some (r.valueOr key otherwise) := by
  unfold valueOr
  cases r.lookup key with
  | none => exact Or.inl rfl
  | some d => exact Or.inr rfl

theorem value_cases (r : Record) (key : String) :
    r.value key = .null ∨ Holds (.object r) (r.value key) :=
  (r.valueOr_cases key .null).imp_right holds_of_lookup

theorem holds_of_part {r : Record} {key : String} {d : Datum} (part : r.part? key = some d) :
    Holds (.object r) d := by
  unfold part? at part
  split at part
  · rename_i given
    obtain rfl := Option.some.inj part
    rcases r.value_cases key with none | held
    · rw [none] at given
      cases given
    · exact held
  · cases part

theorem holds_of_items {r : Record} {key : String} {d : Datum} {ds : List Datum}
    (read : r.items key = .ok ds) (member : d ∈ ds) : Holds (.object r) d ∨ ∃ s, d = .text s := by
  unfold items at read
  split at read
  · rename_i given
    rcases r.value_cases key with none | held
    · rw [none] at given
      cases given
    · exact (holds_of_elements read member).imp_left held.trans
  · obtain rfl := Except.ok.inj read
    cases member

end Record

/-! Records read part by part, in one lemma for each kind of them. -/

theorem within_ok {α : Type} {wrap : Fault → Fault} {outcome : Outcome α} {a : α}
    (success : outcome.within wrap = .ok a) : outcome = .ok a := by
  cases outcome with
  | ok b => exact success
  | error f => cases success

structure Template.Drawn (id : String) (r : Record) (draft : TemplateDraft) : Prop where
  id : draft.id = id
  logic : (r.part? "calculationLogic").mapM Logic.ofRecord = .ok draft.logic
  efficiency : (r.part? "efficiency").mapM Efficiency.ofRecord = .ok draft.efficiency
  createdAt : ∃ d, r.need "process template" "createdAt" = .ok d ∧
    d.moment "createdAt" = .ok draft.createdAt
  updatedAt : ∃ d, r.need "process template" "updatedAt" = .ok d ∧
    d.moment "updatedAt" = .ok draft.updatedAt

theorem Template.parts_of_new {id : String} {r : Record} {t : Template}
    (read : ofNewRecord id r = .ok t) : ∃ draft, Drawn id r draft ∧ make draft = .ok t := by
  obtain ⟨code, -, rest⟩ := bind_ok.mp read
  obtain ⟨name, -, rest⟩ := bind_ok.mp rest
  obtain ⟨category, -, rest⟩ := bind_ok.mp rest
  obtain ⟨logic, readLogic, rest⟩ := bind_ok.mp rest
  obtain ⟨efficiency, readEfficiency, rest⟩ := bind_ok.mp rest
  obtain ⟨equipment, -, rest⟩ := bind_ok.mp rest
  obtain ⟨materials, -, rest⟩ := bind_ok.mp rest
  obtain ⟨description, -, rest⟩ := bind_ok.mp rest
  obtain ⟨created, needCreated, rest⟩ := bind_ok.mp rest
  obtain ⟨createdAt, readCreated, rest⟩ := bind_ok.mp rest
  obtain ⟨updated, needUpdated, rest⟩ := bind_ok.mp rest
  obtain ⟨updatedAt, readUpdated, made⟩ := bind_ok.mp rest
  exact ⟨_, ⟨rfl, readLogic, readEfficiency, ⟨created, needCreated, readCreated⟩,
    ⟨updated, needUpdated, readUpdated⟩⟩, made⟩

theorem Template.parts_of_read {known after : Keyed Template} {d : Datum} {t : Template}
    (read : ofRecord known d = .ok (t, after)) :
    ∃ (r : Record) (id : String), d = .object r ∧ r.needText "process template" "id" = .ok id ∧
      (known.get? id = some t ∧ after = known ∨
        known.get? id = none ∧ ofNewRecord id r = .ok t ∧ after = known.set id t) := by
  obtain ⟨r, record, rest⟩ := bind_ok.mp read
  obtain ⟨id, needed, rest⟩ := bind_ok.mp rest
  refine ⟨r, id, Datum.asRecord_ok record, needed, ?_⟩
  split at rest
  · rename_i found
    obtain ⟨rfl, rfl⟩ := Prod.mk.inj (Except.ok.inj rest)
    exact Or.inl ⟨found, rfl⟩
  · rename_i unknown
    obtain ⟨_, new, same⟩ := bind_ok.mp rest
    obtain ⟨rfl, rfl⟩ := Prod.mk.inj (Except.ok.inj same)
    exact Or.inr ⟨unknown, new, rfl⟩

theorem Feature.parts_of_read {d : Datum} {f : Feature} (read : ofRecord d = .ok f) :
    ∃ (r : Record) (type : Datum) (id name description : String), d = .object r ∧
      make id type (r.valueOr "count" (.int 0)) (r.value "size") (r.value "position") name
        description = .ok f := by
  obtain ⟨r, record, rest⟩ := bind_ok.mp read
  obtain ⟨id, -, rest⟩ := bind_ok.mp rest
  obtain ⟨type, -, rest⟩ := bind_ok.mp rest
  obtain ⟨name, -, rest⟩ := bind_ok.mp rest
  obtain ⟨description, -, made⟩ := bind_ok.mp rest
  exact ⟨r, type, id, name, description, Datum.asRecord_ok record, made⟩

theorem Size.parts_of_read {d : Datum} {s : Size} (read : ofRecord d = .ok s) :
    ∃ length width thickness, make length width thickness = .ok s := by
  obtain ⟨_, -, rest⟩ := bind_ok.mp read
  obtain ⟨length, -, rest⟩ := bind_ok.mp rest
  obtain ⟨width, -, rest⟩ := bind_ok.mp rest
  obtain ⟨thickness, -, made⟩ := bind_ok.mp rest
  exact ⟨length, width, thickness, made⟩

theorem AssemblyStep.parts_of_read {d : Datum} {s : AssemblyStep} (read : ofRecord d = .ok s) :
    ∃ id name description componentIds estimatedTime status notes,
      make id name description componentIds estimatedTime status notes = .ok s := by
  obtain ⟨r, -, rest⟩ := bind_ok.mp read
  obtain ⟨id, -, rest⟩ := bind_ok.mp rest
  obtain ⟨name, -, rest⟩ := bind_ok.mp rest
  obtain ⟨description, -, rest⟩ := bind_ok.mp rest
  obtain ⟨_, -, rest⟩ := bind_ok.mp rest
  obtain ⟨componentIds, -, rest⟩ := bind_ok.mp rest
  obtain ⟨notes, -, made⟩ := bind_ok.mp rest
  exact ⟨id, name, description, componentIds, _, _, notes, made⟩

section
variable {α κ : Type} {read : κ → Datum → Outcome (α × κ)} {known after : κ}

theorem readEach_nil {as : List α} (success : readEach read known [] = .ok (as, after)) :
    as = [] ∧ after = known := by
  obtain ⟨rfl, rfl⟩ := Prod.mk.inj (Except.ok.inj success)
  exact ⟨rfl, rfl⟩

theorem readEach_cons {d : Datum} {ds : List Datum} {as : List α}
    (success : readEach read known (d :: ds) = .ok (as, after)) :
    ∃ a next others, read known d = .ok (a, next) ∧ readEach read next ds = .ok (others, after) ∧
      as = a :: others := by
  obtain ⟨⟨a, next⟩, first, rest⟩ := bind_ok.mp success
  obtain ⟨⟨others, last⟩, later, same⟩ := bind_ok.mp rest
  obtain ⟨rfl, rfl⟩ := Prod.mk.inj (Except.ok.inj same)
  exact ⟨a, next, others, first, later, rfl⟩

theorem readEach_keeps {holds : κ → Prop} {good : α → Prop} {ds : List Datum} {as : List α}
    (each : ∀ {known after : κ} {d : Datum} {a : α}, holds known → read known d = .ok (a, after) →
      good a ∧ holds after)
    (start : holds known) (success : readEach read known ds = .ok (as, after)) :
    (∀ a ∈ as, good a) ∧ holds after := by
  induction ds generalizing known as with
  | nil =>
    obtain ⟨rfl, rfl⟩ := readEach_nil success
    exact ⟨by simp, start⟩
  | cons d ds ih =>
    obtain ⟨a, next, others, first, later, rfl⟩ := readEach_cons success
    obtain ⟨own, kept⟩ := each start first
    obtain ⟨rest, last⟩ := ih kept later
    exact ⟨List.forall_mem_cons.mpr ⟨own, rest⟩, last⟩

theorem mem_readEach {ds : List Datum} {as : List α} {a : α}
    (success : readEach read known ds = .ok (as, after)) (member : a ∈ as) :
    ∃ d ∈ ds, ∃ before next, read before d = .ok (a, next) := by
  induction ds generalizing known as with
  | nil =>
    obtain ⟨rfl, -⟩ := readEach_nil success
    cases member
  | cons d ds ih =>
    obtain ⟨first, next, others, reads, later, rfl⟩ := readEach_cons success
    rcases List.mem_cons.mp member with rfl | further
    · exact ⟨d, by simp, known, next, reads⟩
    · obtain ⟨e, held, rest⟩ := ih later further
      exact ⟨e, by simp [held], rest⟩

theorem length_readEach {ds : List Datum} {as : List α}
    (success : readEach read known ds = .ok (as, after)) : as.length = ds.length := by
  induction ds generalizing known as with
  | nil =>
    obtain ⟨rfl, -⟩ := readEach_nil success
    rfl
  | cons d ds ih =>
    obtain ⟨a, next, others, -, later, rfl⟩ := readEach_cons success
    simp [ih later]

end

namespace Operation

theorem parts_of_read {known after : Keyed Template} {d : Datum} {p : Operation}
    (read : ofRecord known d = .ok (p, after)) :
    ∃ (r : Record) (id notes : String) (inner : Datum) (template : Template) (ds : List Datum)
      (parameters : List Parameter), d = .object r ∧
      r.need "process" "template" = .ok inner ∧
      Template.ofRecord known inner = .ok (template, after) ∧
      r.items "parameters" = .ok ds ∧ ds.mapM Parameter.ofRecord = .ok parameters ∧
      make id template (r.value "actualTime") (r.valueOr "status" (.text "pending")) notes
        parameters ((r.part? "equipment").getD .null) = .ok p := by
  obtain ⟨r, record, rest⟩ := bind_ok.mp read
  obtain ⟨id, -, rest⟩ := bind_ok.mp rest
  obtain ⟨inner, needed, rest⟩ := bind_ok.mp rest
  obtain ⟨⟨template, next⟩, readTemplate, rest⟩ := bind_ok.mp rest
  obtain ⟨notes, -, rest⟩ := bind_ok.mp rest
  obtain ⟨ds, listed, rest⟩ := bind_ok.mp rest
  obtain ⟨parameters, readParameters, rest⟩ := bind_ok.mp rest
  obtain ⟨_, made, same⟩ := bind_ok.mp rest
  obtain ⟨rfl, rfl⟩ := Prod.mk.inj (Except.ok.inj same)
  exact ⟨r, id, notes, inner, template, ds, parameters, Datum.asRecord_ok record, needed,
    readTemplate, listed, readParameters, made⟩

end Operation

structure Component.Drawn (known : Keyed Template) (r : Record) (draft : ComponentDraft)
    (after : Keyed Template) : Prop where
  id : ∃ d, r.need "component" "id" = .ok d ∧ d.asText = .ok draft.id
  size : ∃ d, r.need "component" "size" = .ok d ∧ Size.ofRecord d = .ok draft.size
  features : ∃ ds, r.items "features" = .ok ds ∧ ds.mapM Feature.ofRecord = .ok draft.features
  operations : ∃ ds, r.items "processes" = .ok ds ∧
    readEach Operation.ofRecord known ds = .ok (draft.operations, after)

theorem Component.parts_of_read {known after : Keyed Template} {d : Datum} {c : Component}
    (read : ofRecord known d = .ok (c, after)) :
    ∃ (r : Record) (draft : ComponentDraft), d = .object r ∧ Drawn known r draft after ∧
      make draft = .ok c := by
  obtain ⟨r, record, rest⟩ := bind_ok.mp read
  obtain ⟨id, needed, rest⟩ := bind_ok.mp rest
  obtain ⟨inner, neededSize, rest⟩ := bind_ok.mp (within_ok rest)
  obtain ⟨text, readId, rest⟩ := bind_ok.mp rest
  obtain ⟨name, -, rest⟩ := bind_ok.mp rest
  obtain ⟨code, -, rest⟩ := bind_ok.mp rest
  obtain ⟨size, readSize, rest⟩ := bind_ok.mp rest
  obtain ⟨material, -, rest⟩ := bind_ok.mp rest
  obtain ⟨ds, listed, rest⟩ := bind_ok.mp rest
  obtain ⟨features, readFeatures, rest⟩ := bind_ok.mp rest
  obtain ⟨es, listedOperations, rest⟩ := bind_ok.mp rest
  obtain ⟨⟨operations, next⟩, readOperations, rest⟩ := bind_ok.mp rest
  obtain ⟨notes, -, rest⟩ := bind_ok.mp rest
  obtain ⟨_, made, same⟩ := bind_ok.mp rest
  obtain ⟨rfl, rfl⟩ := Prod.mk.inj (Except.ok.inj same)
  exact ⟨r, _, Datum.asRecord_ok record, ⟨⟨id, needed, readId⟩, ⟨inner, neededSize, readSize⟩,
    ⟨ds, listed, readFeatures⟩, ⟨es, listedOperations, readOperations⟩⟩, made⟩

theorem Placement.parts_of_read {known after : Keyed Template} {d : Datum} {entry : Placement}
    (read : ofRecord known d = .ok (entry, after)) :
    ∃ (r : Record) (inner : Datum) (c : Component), d = .object r ∧
      r.need "product component" "component" = .ok inner ∧
      Component.ofRecord known inner = .ok (c, after) ∧
      make c (r.valueOr "quantity" (.int 1)) (r.value "position")
        (r.valueOr "assemblyOrder" (.int 0)) = .ok entry := by
  obtain ⟨r, record, rest⟩ := bind_ok.mp read
  obtain ⟨inner, needed, rest⟩ := bind_ok.mp rest
  obtain ⟨⟨c, next⟩, readComponent, rest⟩ := bind_ok.mp rest
  obtain ⟨_, made, same⟩ := bind_ok.mp rest
  obtain ⟨rfl, rfl⟩ := Prod.mk.inj (Except.ok.inj same)
  exact ⟨r, inner, c, Datum.asRecord_ok record, needed, readComponent, made⟩

structure Product.Drawn (r : Record) (draft : ProductDraft) : Prop where
  placements : ∃ ds known, r.items "components" = .ok ds ∧
    readEach Placement.ofRecord [] ds = .ok (draft.placements, known)
  steps : ∃ ds, r.items "assemblyProcesses" = .ok ds ∧
    ds.mapM AssemblyStep.ofRecord = .ok draft.steps
  createdAt : ∃ d, r.need "product" "createdAt" = .ok d ∧ d.moment "createdAt" = .ok draft.createdAt
  updatedAt : ∃ d, r.need "product" "updatedAt" = .ok d ∧ d.moment "updatedAt" = .ok draft.updatedAt

theorem Product.parts_of_read {defaults : Defaults} {d : Datum} {p : Product}
    (read : ofRecord defaults d = .ok p) :
    ∃ (r : Record) (draft : ProductDraft), d = .object r ∧ Drawn r draft ∧
      make defaults draft = .ok p := by
  obtain ⟨r, record, rest⟩ := bind_ok.mp read
  obtain ⟨id, -, rest⟩ := bind_ok.mp rest
  dsimp only at rest
  split at rest
  · obtain ⟨ds, listed, rest⟩ := bind_ok.mp (within_ok rest)
    obtain ⟨⟨placements, known⟩, readPlacements, rest⟩ := bind_ok.mp rest
    obtain ⟨text, -, rest⟩ := bind_ok.mp rest
    obtain ⟨name, -, rest⟩ := bind_ok.mp rest
    obtain ⟨code, -, rest⟩ := bind_ok.mp rest
    obtain ⟨description, -, rest⟩ := bind_ok.mp rest
    obtain ⟨es, listedSteps, rest⟩ := bind_ok.mp rest
    obtain ⟨steps, readSteps, rest⟩ := bind_ok.mp rest
    obtain ⟨created, neededCreated, rest⟩ := bind_ok.mp rest
    obtain ⟨createdAt, readCreated, rest⟩ := bind_ok.mp rest
    obtain ⟨updated, neededUpdated, rest⟩ := bind_ok.mp rest
    obtain ⟨updatedAt, readUpdated, made⟩ := bind_ok.mp rest
    exact ⟨r, _, Datum.asRecord_ok record, ⟨⟨ds, known, listed, readPlacements⟩,
      ⟨es, listedSteps, readSteps⟩, ⟨created, neededCreated, readCreated⟩,
      ⟨updated, neededUpdated, readUpdated⟩⟩, made⟩
  · cases rest

/-! What readers look at. Two records are read alike if they agree in the fields that a reader takes as
they are, and if what they hold in the one field with records of its own is read alike. -/

/-- Records that agree in some fields, whatever else they hold. -/
def Record.AgreeOn (fields : List String) (r s : Record) : Prop :=
  ∀ key ∈ fields, r.lookup key = s.lookup key

theorem Record.items_congr {r s : Record} {key : String} (same : r.lookup key = s.lookup key) :
    r.items key = s.items key := by
  rw [items, items, value, value, valueOr, valueOr, same]

theorem bind_congr_first {α β γ : Type} {x y : Outcome α} {f : α → Outcome β}
    (same : (x >>= f) = (y >>= f)) (next : β → Outcome γ) :
    (x >>= fun a => f a >>= next) = (y >>= fun a => f a >>= next) := by
  rw [← bind_assoc, ← bind_assoc, same]

section
variable {known : Keyed Template} {r s : Record}

theorem Operation.ofRecord_congr
    (same : r.AgreeOn ["id", "actualTime", "status", "notes", "parameters", "equipment"] s)
    (template : (r.need "process" "template" >>= Template.ofRecord known) =
      (s.need "process" "template" >>= Template.ofRecord known)) :
    ofRecord known (.object r) = ofRecord known (.object s) := by
  have id : r.need "process" "id" = s.need "process" "id" := by
    rw [Record.need, Record.need, same "id" (by decide)]
  have parameters := Record.items_congr (same "parameters" (by decide))
  simp (disch := decide) only [ofRecord, Datum.asRecord, ok_bind, Record.needText, id,
    bind_congr_first template, Record.text, Record.value, Record.valueOr, Record.part?, same _,
    parameters]
  rfl

theorem Component.ofRecord_congr
    (same : r.AgreeOn ["id", "name", "size", "material", "quantity", "complexity", "features", "code",
      "edgeCount", "notes"] s)
    (processes : (r.items "processes" >>= readEach Operation.ofRecord known) =
      (s.items "processes" >>= readEach Operation.ofRecord known)) :
    ofRecord known (.object r) = ofRecord known (.object s) := by
  have fields (id : Datum) : ofFields known id r = ofFields known id s := by
    have features := Record.items_congr (same "features" (by decide))
    simp (disch := decide) only [ofFields, Record.needText, Record.need, Record.text, Record.value, Record.valueOr,
      same _, features, bind_congr_first processes]
  simp (disch := decide) only [ofRecord, Datum.asRecord, ok_bind, Record.need, same _, fields]

theorem Placement.ofRecord_congr (same : r.AgreeOn ["quantity", "position", "assemblyOrder"] s)
    (component : (r.need "product component" "component" >>= Component.ofRecord known) =
      (s.need "product component" "component" >>= Component.ofRecord known)) :
    ofRecord known (.object r) = ofRecord known (.object s) := by
  simp (disch := decide) only [ofRecord, Datum.asRecord, ok_bind, Record.value, Record.valueOr,
    same _, bind_congr_first component]

theorem Product.ofRecord_congr {defaults : Defaults}
    (same : r.AgreeOn ["version", "id", "name", "code", "description", "status", "assemblyProcesses",
      "createdAt", "updatedAt"] s)
    (components : (r.items "components" >>= readEach Placement.ofRecord []) =
      (s.items "components" >>= readEach Placement.ofRecord [])) :
    ofRecord defaults (.object r) = ofRecord defaults (.object s) := by
  have fields (id : Datum) : ofFields defaults id r = ofFields defaults id s := by
    have steps := Record.items_congr (same "assemblyProcesses" (by decide))
    simp (disch := decide) only [ofFields, Record.need, Record.text, Record.value, Record.valueOr,
      same _, steps, bind_congr_first components]
  simp (disch := decide) only [ofRecord, Datum.asRecord, ok_bind, Record.need, Record.valueOr, same _,
    fields]
  rfl

end
end Joinery
