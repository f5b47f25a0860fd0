import Joinery.Proofs.Component.WellMade
import Joinery.Proofs.Keyed
import Joinery.Proofs.Record.Derived
import Joinery.Proofs.Record.Estimate
import Joinery.Proofs.Record.Product
import Joinery.Proofs.Record.Reading

/-!
Templates shared by id. A reader takes the templates of a record in the order in which they stand
there, and only the first one with an id is read: every operation below it with the same id shares that
template, and what else the later ones hold is never looked at.
-/
namespace Joinery

def Datum.field (key : String) : Datum → Datum
  | .object r => Record.value r key
  | _ => .null

def Datum.itemsOf (key : String) : Datum → List Datum
  | .object r => (Record.items r key).toOption.getD []
  | _ => []

/-! The records of templates in a record, in the order in which they are read. -/

def Operation.templateRecord (d : Datum) : Datum := d.field "template"

def Component.templateRecords (d : Datum) : List Datum :=
  (d.itemsOf "processes").map Operation.templateRecord

def Placement.templateRecords (d : Datum) : List Datum :=
  Component.templateRecords (d.field "component")

def Product.templateRecords (d : Datum) : List Datum :=
  (d.itemsOf "components").flatMap Placement.templateRecords

theorem Record.field_of_need {kind key : String} {r : Record} {d : Datum}
    (needed : r.need kind key = .ok d) : (Datum.object r).field key = d := by
  rw [Datum.field, value, valueOr, lookup_of_need needed, Option.getD_some]

theorem Record.itemsOf_of_items {key : String} {r : Record} {ds : List Datum}
    (listed : r.items key = .ok ds) : (Datum.object r).itemsOf key = ds := by
  rw [Datum.itemsOf, listed]
  rfl

namespace Template

def recordId? (d : Datum) : Option String := (d.field "id").asText.toOption

def readAlone (d : Datum) : Outcome Template := (ofRecord [] d).map Prod.fst

def firstPlace (records : List Datum) (id : String) : Nat := records.findIdx fun d => recordId? d == some id

def ReadFirst (records : List Datum) (id : String) (t : Template) : Prop :=
  t.id = id ∧ ∃ first, records[firstPlace records id]? = some first ∧ readAlone first = .ok t

/-- A template that is the one of the first record with the id of its own record. -/
def SharedBy (records : List Datum) (t : Template) (d : Datum) : Prop :=
  ∃ id, recordId? d = some id ∧ ReadFirst records id t

theorem firstPlace_eq_find (records : List Datum) (id : String) :
    records[firstPlace records id]? = records.find? fun d => recordId? d == some id :=
  List.find?_eq_getElem?_findIdx.symm

theorem ReadFirst.append {records : List Datum} {id : String} {t : Template}
    (read : ReadFirst records id t) (more : List Datum) : ReadFirst (records ++ more) id t := by
  obtain ⟨own, first, found, alone⟩ := read
  refine ⟨own, first, ?_, alone⟩
  rw [firstPlace_eq_find] at found ⊢
  rw [List.find?_append, found, Option.some_or]

theorem ReadFirst.new {records : List Datum} {d : Datum} {t : Template} {id : String}
    (named : recordId? d = some id) (absent : ∀ e ∈ records, recordId? e ≠ some id) (own : t.id = id)
    (alone : readAlone d = .ok t) : ReadFirst (records ++ [d]) id t := by
  refine ⟨own, d, ?_, alone⟩
  have none : (records.find? fun e => recordId? e == some id) = none := by
    simpa using absent
  rw [firstPlace_eq_find, List.find?_append, none, Option.none_or, List.find?_cons, named,
    beq_self_eq_true]

/-- The templates of some records: each id is there, with what the first record with it is read as. -/
structure Registered (records : List Datum) (known : Keyed Template) : Prop where
  complete : ∀ d ∈ records, ∀ id, recordId? d = some id → known.has id = true
  shared : ∀ id t, known.get? id = some t → ReadFirst records id t

theorem registered_nil : Registered [] [] where
  complete _ member := absurd member List.not_mem_nil
  shared id t found := by cases found

theorem Registered.absent {records : List Datum} {known : Keyed Template} {id : String}
    (registered : Registered records known) (unknown : known.get? id = none) :
    ∀ d ∈ records, recordId? d ≠ some id := by
  intro d member named
  have there := registered.complete d member id named
  rw [Keyed.has, unknown] at there
  cases there

/-- What reading some records adds to the templates of the records before them. -/
structure Taken (before records : List Datum) (templates : List Template) (after : Keyed Template) :
    Prop where
  registered : Registered (before ++ records) after
  shared : List.Forall₂ (SharedBy (before ++ records)) templates records

namespace Taken
variable {before records more : List Datum} {templates others : List Template}
  {known after : Keyed Template}

theorem nothing (registered : Registered before known) : Taken before [] [] known :=
  ⟨by rwa [List.append_nil], .nil⟩

theorem trans (first : Taken before records templates known)
    (later : Taken (before ++ records) more others after) :
    Taken before (records ++ more) (templates ++ others) after where
  registered := by
    rw [← List.append_assoc]
    exact later.registered
  shared := by
    rw [← List.append_assoc]
    refine List.rel_append (first.shared.imp fun t d shared => ?_) later.shared
    obtain ⟨id, named, read⟩ := shared
    exact ⟨id, named, read.append more⟩

end Taken

theorem readAlone_of_new {id : String} {r : Record} {t : Template}
    (needed : r.needText "process template" "id" = .ok id) (new : ofNewRecord id r = .ok t) :
    readAlone (.object r) = .ok t := by
  simp only [readAlone, ofRecord, Datum.asRecord, ok_bind, needed, Keyed.get?, List.lookup_nil, new]
  rfl

theorem recordId?_of_needed {id : String} {r : Record}
    (needed : r.needText "process template" "id" = .ok id) : recordId? (.object r) = some id := by
  obtain ⟨d, there, shown⟩ := bind_ok.mp needed
  rw [recordId?, Record.field_of_need there, shown]
  rfl

theorem ofNewRecord_id {id : String} {r : Record} {t : Template} (new : ofNewRecord id r = .ok t) :
    t.id = id := by
  obtain ⟨draft, drawn, made⟩ := parts_of_new new
  obtain ⟨-, _, _, _, _, _, _, -, -, -, -, rfl⟩ := parts_of_make made
  exact drawn.id

theorem Registered.taken {before : List Datum} {known after : Keyed Template} {d : Datum} {t : Template}
    {id : String} (registered : Registered before known) (named : recordId? d = some id)
    (added : ∀ name, after.get? name = if name = id then some t else known.get? name)
    (read : ReadFirst (before ++ [d]) id t) : Taken before [d] [t] after := by
  refine ⟨⟨?_, ?_⟩, .cons ⟨id, named, read⟩ .nil⟩
  · intro e member name given
    rw [Keyed.has, added]
    split
    · rfl
    · rename_i other
      rcases List.mem_append.mp member with old | new
      · exact registered.complete e old name given
      · rw [List.mem_singleton.mp new, named] at given
        exact absurd (Option.some.inj given).symm other
  · intro name u found
    rw [added] at found
    split at found
    · rename_i same
      obtain rfl := Option.some.inj found
      rw [same]
      exact read
    · exact (registered.shared name u found).append [d]

theorem ofRecord_taken {before : List Datum} {known after : Keyed Template} {d : Datum} {t : Template}
    (registered : Registered before known) (read : ofRecord known d = .ok (t, after)) :
    Taken before [d] [t] after := by
  obtain ⟨r, id, rfl, needed, found⟩ := parts_of_read read
  have named := recordId?_of_needed needed
  rcases found with ⟨found, rfl⟩ | ⟨unknown, new, rfl⟩
  · refine registered.taken named (fun name => ?_) ((registered.shared _ _ found).append [.object r])
    split
    · rename_i same
      rw [same, found]
    · rfl
  · refine registered.taken named (fun name => Keyed.get?_set ..) ?_
    exact .new named (registered.absent unknown) (ofNewRecord_id new) (readAlone_of_new needed new)

end Template

/-! What a reader takes from the records of templates in a record, one after the other. -/

section Readers
open Template
variable {before : List Datum} {known after : Keyed Template}

theorem Operation.ofRecord_taken {d : Datum} {p : Operation} (registered : Registered before known)
    (read : ofRecord known d = .ok (p, after)) :
    Taken before [templateRecord d] [p.template] after := by
  obtain ⟨r, _, _, inner, t, _, _, rfl, needed, readTemplate, -, -, made⟩ := parts_of_read read
  obtain ⟨_, _, -, -, rfl⟩ := parts_of_make made
  rw [templateRecord, Record.field_of_need needed]
  exact Template.ofRecord_taken registered readTemplate

theorem readEach_taken {α : Type} {read : Keyed Template → Datum → Outcome (α × Keyed Template)}
    {records : Datum → List Datum} {templates : α → List Template}
    (each : ∀ {before : List Datum} {known after : Keyed Template} {d : Datum} {a : α},
      Registered before known → read known d = .ok (a, after) →
      Taken before (records d) (templates a) after)
    {ds : List Datum} {as : List α} (registered : Registered before known)
    (success : readEach read known ds = .ok (as, after)) :
    Taken before (ds.flatMap records) (as.flatMap templates) after := by
  induction ds generalizing before known as with
  | nil =>
    obtain ⟨rfl, rfl⟩ := readEach_nil success
    exact .nothing registered
  | cons d ds ih =>
    obtain ⟨a, next, others, first, later, rfl⟩ := readEach_cons success
    have taken := each registered first
    exact taken.trans (ih taken.registered later)

theorem Component.ofRecord_taken {d : Datum} {c : Component} (registered : Registered before known)
    (read : ofRecord known d = .ok (c, after)) :
    Taken before (templateRecords d) c.templates after := by
  obtain ⟨r, draft, rfl, ⟨-, -, -, ⟨ds, listed, readOperations⟩⟩, made⟩ := parts_of_read read
  obtain ⟨_, _, _, -, -, -, rfl⟩ := parts_of_make made
  rw [templateRecords, Record.itemsOf_of_items listed, templates, refresh, List.map_map,
    List.map_eq_flatMap, List.map_eq_flatMap]
  exact readEach_taken (fun one first => Operation.ofRecord_taken one first) registered readOperations

theorem Placement.ofRecord_taken {d : Datum} {p : Placement} (registered : Registered before known)
    (read : ofRecord known d = .ok (p, after)) :
    Taken before (templateRecords d) p.component.templates after := by
  obtain ⟨r, inner, c, rfl, needed, readComponent, made⟩ := parts_of_read read
  obtain ⟨_, _, -, -, rfl⟩ := parts_of_make made
  rw [templateRecords, Record.field_of_need needed]
  exact Component.ofRecord_taken registered readComponent

theorem Product.refresh_templates (p : Product) : p.refresh.templates = p.templates := by
  rw [templates, templates, refresh, List.flatMap_map]
  exact List.flatMap_congr fun entry _ => Component.refresh_templates entry.component

theorem Product.ofRecord_taken {defaults : Defaults} {d : Datum} {p : Product}
    (read : ofRecord defaults d = .ok p) :
    ∃ after, Taken [] (templateRecords d) p.templates after := by
  obtain ⟨r, draft, rfl, ⟨⟨ds, after, listed, readPlacements⟩, -, -, -⟩, made⟩ := parts_of_read read
  obtain ⟨status, _, -, rfl, -⟩ := parts_of_make made
  rw [templateRecords, Record.itemsOf_of_items listed, refresh_templates, templates]
  exact ⟨after, readEach_taken (fun one first => Placement.ofRecord_taken one first) registered_nil
    readPlacements⟩

end Readers

/-! Records that differ in what is never looked at. -/

/-- Two values that are the same, or two lists that are alike. -/
inductive Datum.ListsAlike (alike : List Datum → List Datum → Prop) : Datum → Datum → Prop where
  | same (d : Datum) : ListsAlike alike d d
  | lists {ds es : List Datum} : alike ds es → ListsAlike alike (.list ds) (.list es)

/-- Lists that are alike item by item, where each item is compared beside the records of templates
in the items before it. -/
inductive Datum.InTurn (records : Datum → List Datum) (alike : List Datum → Datum → Datum → Prop) :
    List Datum → List Datum → List Datum → Prop where
  | nil (before : List Datum) : InTurn records alike before [] []
  | cons {before ds es : List Datum} {d e : Datum} : alike before d e →
      InTurn records alike (before ++ records d) ds es →
      InTurn records alike before (d :: ds) (e :: es)

/-- Two records of templates that are the same, or that give one id, which a record before them has
given already, and hold anything else. -/
inductive Template.Varies (before : List Datum) : Datum → Datum → Prop where
  | same (d : Datum) : Varies before d d
  | repeated {r s : Record} : r.lookup "id" = s.lookup "id" →
      (∃ d ∈ before, recordId? d = recordId? (.object r)) → Varies before (.object r) (.object s)

def Operation.Varies (before : List Datum) : Datum → Datum → Prop :=
  Datum.AlikeBut [] (Record.onlyIn "template" (Template.Varies before))

def Component.Varies (before : List Datum) : Datum → Datum → Prop :=
  Datum.AlikeBut [] (Record.onlyIn "processes"
    (Datum.ListsAlike (Datum.InTurn (fun d => [Operation.templateRecord d]) Operation.Varies before)))

def Placement.Varies (before : List Datum) : Datum → Datum → Prop :=
  Datum.AlikeBut [] (Record.onlyIn "component" (Component.Varies before))

/-- Records of products that differ in later records of templates alone, whose ids are the same and
were given before. -/
def Product.Varies : Datum → Datum → Prop :=
  Datum.AlikeBut [] (Record.onlyIn "components"
    (Datum.ListsAlike (Datum.InTurn Placement.templateRecords Placement.Varies [])))

section Readers
open Template
variable {before : List Datum} {known : Keyed Template}

theorem Record.items_bind_lists {α : Type} {r s : Record} {key : String}
    {alike : List Datum → List Datum → Prop} {read : List Datum → Outcome α}
    (related : Option.Rel (Datum.ListsAlike alike) (r.lookup key) (s.lookup key))
    (each : ∀ {ds es}, alike ds es → read ds = read es) :
    (r.items key >>= read) = (s.items key >>= read) := by
  simp only [items_eq, value, valueOr]
  generalize r.lookup key = left at related
  generalize s.lookup key = right at related
  cases related with
  | none => rfl
  | some items =>
    cases items with
    | same d => rfl
    | lists alike =>
      simp only [Option.getD_some, Datum.items_list, ok_bind]
      exact each alike

theorem Template.ofRecord_varies (registered : Registered before known) {d e : Datum}
    (varies : Varies before d e) : ofRecord known d = ofRecord known e := by
  cases varies with
  | same => rfl
  | @repeated r s same seen =>
    obtain ⟨d, member, again⟩ := seen
    have needed : s.needText "process template" "id" = r.needText "process template" "id" := by
      rw [Record.needText, Record.needText, Record.need, Record.need, same]
    simp only [ofRecord, Datum.asRecord, ok_bind, needed]
    refine bind_congr_ok fun id named => ?_
    have there := registered.complete d member id (again.trans (recordId?_of_needed named))
    rw [Keyed.has, Option.isSome_iff_exists] at there
    obtain ⟨t, found⟩ := there
    simp only [found]

theorem Operation.ofRecord_varies (registered : Registered before known) {d e : Datum}
    (varies : Varies before d e) : ofRecord known d = ofRecord known e := by
  cases varies with
  | same => rfl
  | records agree =>
    exact ofRecord_congr (agree.on_others (by decide)) <|
      Record.need_bind_alike (agree.lookup_rel (by decide)) (Template.ofRecord_varies registered)

/-- Items that differ in later records of templates are read alike, because what is read first is
known by then. -/
theorem readEach_varies {α : Type} {read : Keyed Template → Datum → Outcome (α × Keyed Template)}
    {records : Datum → List Datum} {templates : α → List Template}
    {varies : List Datum → Datum → Datum → Prop}
    (taken : ∀ {before : List Datum} {known after : Keyed Template} {d : Datum} {a : α},
      Registered before known → read known d = .ok (a, after) →
      Taken before (records d) (templates a) after)
    (each : ∀ {before : List Datum} {known : Keyed Template} {d e : Datum},
      Registered before known → varies before d e → read known d = read known e)
    (registered : Registered before known) {ds es : List Datum}
    (all : Datum.InTurn records varies before ds es) :
    readEach read known ds = readEach read known es := by
  induction all generalizing known with
  | nil => rfl
  | cons first _ ih =>
    rw [readEach, readEach, ← each registered first]
    refine bind_congr_ok fun own same => ?_
    obtain ⟨a, next⟩ := own
    dsimp only
    rw [ih (taken registered same).registered]

theorem Component.ofRecord_varies (registered : Registered before known) {d e : Datum}
    (varies : Varies before d e) : ofRecord known d = ofRecord known e := by
  cases varies with
  | same => rfl
  | records agree =>
    exact ofRecord_congr (agree.on_others (by decide)) <|
      Record.items_bind_lists (agree.lookup_rel (by decide))
        (readEach_varies (fun one first => Operation.ofRecord_taken one first)
          (fun one varied => Operation.ofRecord_varies one varied) registered)

theorem Placement.ofRecord_varies (registered : Registered before known) {d e : Datum}
    (varies : Varies before d e) : ofRecord known d = ofRecord known e := by
  cases varies with
  | same => rfl
  | records agree =>
    exact ofRecord_congr (agree.on_others (by decide)) <|
      Record.need_bind_alike (agree.lookup_rel (by decide)) (Component.ofRecord_varies registered)

theorem Product.ofRecord_varies (defaults : Defaults) {d e : Datum} (varies : Varies d e) :
    ofRecord defaults d = ofRecord defaults e := by
  cases varies with
  | same => rfl
  | records agree =>
    exact ofRecord_congr (agree.on_others (by decide)) <|
      Record.items_bind_lists (agree.lookup_rel (by decide))
        (readEach_varies (fun one first => Placement.ofRecord_taken one first)
          (fun one varied => Placement.ofRecord_varies one varied) registered_nil)

end Readers

/-- The templates of a product and the records that they come from: each is the one of the first
record with its id, and one id is one template. -/
structure Product.SharesTemplates (records : List Datum) (p : Product) : Prop where
  first : List.Forall₂ (Template.SharedBy records) p.templates records
  identical : ∀ t ∈ p.templates, ∀ u ∈ p.templates, t.id = u.id ↔ t = u

theorem Template.ReadFirst.unique {records : List Datum} {id : String} {t u : Template}
    (left : ReadFirst records id t) (right : ReadFirst records id u) : t = u := by
  obtain ⟨-, first, found, alone⟩ := left
  obtain ⟨-, other, same, read⟩ := right
  obtain rfl := Option.some.inj (found.symm.trans same)
  exact Except.ok.inj (alone.symm.trans read)

theorem Product.sharesTemplates_of_shared {records : List Datum} {p : Product}
    (shared : List.Forall₂ (Template.SharedBy records) p.templates records) :
    p.SharesTemplates records := by
  have both : List.Forall₂ (fun t d => Template.ReadFirst records t.id t ∧ Template.SharedBy records t d)
      p.templates records := by
    refine shared.imp fun t d own => ?_
    obtain ⟨id, named, read⟩ := own
    exact ⟨read.1.symm ▸ read, id, named, read⟩
  have each := ((List.forall₂_and_left _ _).mp both).1
  refine ⟨shared, fun t left u right => ⟨fun same => ?_, congrArg _⟩⟩
  exact (each t left).unique (same ▸ each u right)

/-- A product that is read shares its templates by id, in the order of its record, and what the record
holds of a template after the first with its id does not matter to the outcome. -/
theorem templates_are_shared (defaults : Defaults) (d : Datum) :
    (∀ p, Product.ofRecord defaults d = .ok p → p.SharesTemplates (Product.templateRecords d)) ∧
      ∀ e, Product.Varies d e → Product.ofRecord defaults e = Product.ofRecord defaults d := by
  refine ⟨fun p read => ?_, fun e varies => (Product.ofRecord_varies defaults varies).symm⟩
  obtain ⟨_, taken⟩ := Product.ofRecord_taken read
  exact Product.sharesTemplates_of_shared taken.shared

/-! A shelf whose second operation names the template of the first, with an id that is no text, beside
fields that no template could be read from. -/
namespace Shelf

def sideRecord (operations : List Datum) : Datum := .object [
  ("id", .text "side"),
  ("size", .object [("length", .int 700), ("width", .int 300), ("thickness", .int 18)]),
  ("material", .text "mdf"),
  ("processes", .list operations)]

def laterOperation (template : Record) : Datum := .object [
  ("id", .text "saw-2"),
  ("template", .object template)]

def sharingRecord (later : Record) : Datum :=
  productRecord (placementRecord (sideRecord [operationRecord [], laterOperation later])) []

def bareTemplate : Record := [("id", .int 1)]

def brokenTemplate : Record := [("id", .int 1), ("code", .text ""), ("category", .list [])]

theorem broken_varies : Product.Varies (sharingRecord bareTemplate) (sharingRecord brokenTemplate) := by
  have template : Template.Varies [Operation.templateRecord (operationRecord [])]
      (.object bareTemplate) (.object brokenTemplate) :=
    .repeated rfl ⟨_, List.mem_singleton_self _, by decide +kernel⟩
  have operation : Operation.Varies [Operation.templateRecord (operationRecord [])]
      (laterOperation bareTemplate) (laterOperation brokenTemplate) := by
    refine .records (.of_fields ?_)
    simpa [Record.onlyIn] using template
  have side : Component.Varies [] (sideRecord [operationRecord [], laterOperation bareTemplate])
      (sideRecord [operationRecord [], laterOperation brokenTemplate]) := by
    refine .records (.of_fields ?_)
    simpa [Record.onlyIn] using
      Datum.ListsAlike.lists (.cons (.same _) (.cons operation (.nil _)))
  have placement : Placement.Varies []
      (placementRecord (sideRecord [operationRecord [], laterOperation bareTemplate]))
      (placementRecord (sideRecord [operationRecord [], laterOperation brokenTemplate])) := by
    refine .records (.of_fields ?_)
    simpa [Record.onlyIn] using side
  refine .records (.of_fields ?_)
  simpa [Record.onlyIn] using Datum.ListsAlike.lists (.cons placement (.nil _))

end Shelf

theorem shelf_templates_shared :
    (Product.ofRecord .standard (Shelf.productRecord (Shelf.placementRecord
      (Shelf.sideRecord [Shelf.laterOperation Shelf.bareTemplate])) [])).isOk = false ∧
      ∃ p, Product.ofRecord .standard (Shelf.sharingRecord Shelf.bareTemplate) = .ok p ∧
        Product.ofRecord .standard (Shelf.sharingRecord Shelf.brokenTemplate) = .ok p ∧
        p.templates.length = 2 ∧
        p.SharesTemplates (Product.templateRecords (Shelf.sharingRecord Shelf.bareTemplate)) := by
  have read : Product.ofRecord .standard (Shelf.sharingRecord Shelf.bareTemplate) = .ok _ :=
    Outcome.eq_value (by decide +kernel)
  obtain ⟨shares, again⟩ := templates_are_shared .standard (Shelf.sharingRecord Shelf.bareTemplate)
  exact ⟨by decide +kernel, _, read, (again _ Shelf.broken_varies).trans read, by decide +kernel,
    shares _ read⟩

end Joinery
