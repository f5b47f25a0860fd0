import Joinery.Proofs.Product.Refusal
import Joinery.Proofs.Record.Reading
import Joinery.Record.Product

/-!
The ids of the components of a product. A product is made and read with the ids that it is given,
repeated or not. From there on no edit repeats an id that it found at most once, so that ids that are
distinct at first stay distinct, and each of them stands for one component.
-/
namespace Joinery

theorem map_changeFirst {α β : Type} {q : α → Bool} {f : α → α} {g : α → β} {xs : List α}
    (kept : ∀ a ∈ xs, q a = true → g (f a) = g a) : (changeFirst q f xs).map g = xs.map g := by
  induction xs with
  | nil => rfl
  | cons x xs ih =>
    rw [changeFirst]
    split
    · rename_i first
      rw [List.map_cons, List.map_cons, kept x List.mem_cons_self first]
    · rw [List.map_cons, List.map_cons, ih fun a member => kept a (List.mem_cons_of_mem x member)]

theorem changeFirst_append {α : Type} {q : α → Bool} {f : α → α} {before after : List α} {a : α}
    (others : ∀ b ∈ before, q b = false) (first : q a = true) :
    changeFirst q f (before ++ a :: after) = before ++ f a :: after := by
  induction before with
  | nil => simp [changeFirst, first]
  | cons b before ih =>
    have skipped := others b List.mem_cons_self
    have rest := ih fun c member => others c (List.mem_cons_of_mem b member)
    simp [changeFirst, skipped, rest]

theorem map_set_same {α β : Type} {f : α → β} {xs : List α} {i : Nat} {a b : α}
    (found : xs[i]? = some a) (same : f b = f a) : (xs.set i b).map f = xs.map f := by
  obtain ⟨inside, rfl⟩ := List.getElem?_eq_some_iff.mp found
  have inMap : i < (xs.map f).length := by simpa using inside
  have here : (xs.map f)[i] = f xs[i] := List.getElem_map f
  rw [List.map_set, same, ← here, List.set_getElem_self]

namespace Placement

def componentId (entry : Placement) : String := entry.component.id

theorem holds_iff {id : String} {entry : Placement} :
    entry.holds id = true ↔ entry.componentId = id := beq_iff_eq

theorem holds_eq_false {id : String} {entry : Placement} :
    entry.holds id = false ↔ entry.componentId ≠ id := beq_eq_false_iff_ne

@[simp] theorem refresh_componentId (entry : Placement) :
    entry.refresh.componentId = entry.componentId := rfl

theorem make_componentId {c : Component} {quantity position order : Datum} {entry : Placement}
    (made : make c quantity position order = .ok entry) : entry.componentId = c.id := by
  obtain ⟨_, _, -, -, rfl⟩ := parts_of_make made
  rfl

end Placement

namespace Product

def componentIds (p : Product) : List String := p.placements.map Placement.componentId

/-- Work on a component is about all but its id. -/
def Edit.KeepsIds {α : Type} : Edit α → Prop
  | .within _ work | .past _ work => ∀ c, (work c).1.id = c.id
  | _ => True

/-- What edits make of a product, whether they succeed or not, as long as no component is given
another id. -/
inductive Becomes (defaults : Defaults) (p : Product) : Product → Prop where
  | start : Becomes defaults p p
  | edited {α : Type} {q : Product} (now : Moment) {e : Edit α} :
      Becomes defaults p q → e.KeepsIds → Becomes defaults p (e.apply defaults now q).1
  | worked {q : Product} {i : Nat} {entry : Placement} {c : Component} :
      Becomes defaults p q → q.placements[i]? = some entry → c.id = entry.component.id →
      Becomes defaults p { q with placements := q.placements.set i { entry with component := c } }
  | progressed {q : Product} {i : Nat} {s : AssemblyStep} (status : Progress) :
      Becomes defaults p q → q.steps[i]? = some s →
      Becomes defaults p { q with steps := q.steps.set i { s with status } }

/-- What one edit does to the ids of the components. -/
inductive IdsAfter (ids : List String) : List String → Prop where
  | kept : IdsAfter ids ids
  | added {id : String} : id ∉ ids → IdsAfter ids (ids ++ [id])
  | removed (id : String) : IdsAfter ids (ids.erase id)

theorem IdsAfter.count_le {ids after : List String} (done : IdsAfter ids after) (id : String) :
    after.count id ≤ max 1 (ids.count id) := by
  cases done with
  | kept => exact Nat.le_max_right 1 _
  | @added new fresh =>
    rw [List.count_append, List.count_singleton]
    by_cases same : new = id
    · subst same
      simp [List.count_eq_zero_of_not_mem fresh]
    · simp [same]
  | removed gone => exact List.erase_sublist.count_le id |>.trans (Nat.le_max_right 1 _)

@[simp] theorem refresh_componentIds (p : Product) : p.refresh.componentIds = p.componentIds := by
  simp [componentIds, refresh, Function.comp_def]

@[simp] theorem stamp_componentIds (now : Moment) (p : Product) :
    (p.stamp now).componentIds = p.componentIds := rfl

@[simp] theorem settle_fst {α : Type} (defaults : Defaults) (p : Product) (result : Outcome α) :
    (settle defaults p result).1 = p.refresh := rfl

theorem replaceComponent_componentIds {p : Product} {id : String} {c : Component} (same : c.id = id) :
    (p.replaceComponent id c).componentIds = p.componentIds := by
  apply map_changeFirst
  intro entry _ held
  exact same.trans (Placement.holds_iff.mp held).symm

theorem erased_componentIds {p : Product} {id : String} :
    { p with placements := p.placements.eraseP (Placement.holds id) }.componentIds =
      p.componentIds.erase id := by
  rw [componentIds, componentIds, List.erase_eq_eraseP', List.eraseP_map]
  rfl

theorem placement?_holds {p : Product} {id : String} {entry : Placement}
    (found : p.placement? id = .ok entry) : entry.component.id = id :=
  Placement.holds_iff.mp (List.find?_some (placement?_ok found))

theorem addComponent_ids {defaults : Defaults} {now : Moment} {c : Component}
    {quantity position order : Datum} {p : Product} :
    IdsAfter p.componentIds (p.addComponent defaults now c quantity position order).1.componentIds := by
  unfold addComponent
  split
  · exact .kept
  · rename_i entry placed
    simp only [place] at placed
    split at placed
    · cases placed
    · rename_i fresh
      have new : entry.componentId = c.id := Placement.make_componentId placed
      have absent : c.id ∉ p.componentIds := by
        simpa [componentIds, Placement.holds_eq_false] using fresh
      rw [settle_fst, refresh_componentIds, stamp_componentIds]
      simpa [componentIds, new] using IdsAfter.added absent

theorem removeComponent_ids {defaults : Defaults} {now : Moment} {id : String} {p : Product} :
    IdsAfter p.componentIds (p.removeComponent defaults now id).1.componentIds := by
  unfold removeComponent
  split
  · exact .kept
  · rw [settle_fst, refresh_componentIds, stamp_componentIds, erased_componentIds]
    exact .removed id

theorem workWithin_ids {α : Type} (defaults : Defaults) (now : Moment) {id : String}
    {work : Component.Work α} {p : Product} (keeps : ∀ c, (work c).1.id = c.id) :
    (p.workWithin defaults now id work).1.componentIds = p.componentIds := by
  unfold workWithin
  split
  · rfl
  · rename_i entry found
    rw [settle_fst, refresh_componentIds, stamp_componentIds]
    exact replaceComponent_componentIds ((keeps entry.component).trans (placement?_holds found))

theorem workPast_ids {α : Type} {id : String} {work : Component.Work α} {p : Product}
    (keeps : ∀ c, (work c).1.id = c.id) : (p.workPast id work).1.componentIds = p.componentIds := by
  unfold workPast
  split
  · rfl
  · rename_i entry found
    exact replaceComponent_componentIds ((keeps entry.component).trans (placement?_holds found))

theorem apply_ids {α : Type} (defaults : Defaults) (now : Moment) {p : Product} {e : Edit α}
    (keeps : e.KeepsIds) : IdsAfter p.componentIds (e.apply defaults now p).1.componentIds := by
  cases e with
  | addComponent component quantity position order => exact addComponent_ids
  | removeComponent id => exact removeComponent_ids
  | within id work => exact workWithin_ids defaults now keeps ▸ .kept
  | past id work => exact workPast_ids keeps ▸ .kept
  | addStep id name description componentIds estimatedTime =>
    simp only [Edit.apply]
    cases added : p.addStep now id name description componentIds estimatedTime with
    | ok done =>
      obtain ⟨made, -, same⟩ := bind_ok.mp added
      obtain rfl := Except.ok.inj same
      exact .kept
    | error f => exact .kept
  | setStepProgress id status =>
    simp only [Edit.apply]
    cases changed : p.setStepProgress id status with
    | ok q =>
      obtain ⟨progress, -, same⟩ := bind_ok.mp changed
      obtain rfl := Except.ok.inj same
      exact .kept
    | error f => exact .kept
  | setStatus status =>
    simp only [Edit.apply]
    cases changed : p.setStatus now status with
    | ok q =>
      obtain ⟨wanted, -, same⟩ := bind_ok.mp changed
      obtain rfl := Except.ok.inj same
      exact .kept
    | error f => exact .kept
  | recalculate rates params =>
    have same : ((Edit.recalculate rates params : Edit α).apply defaults now p).1.componentIds =
        p.componentIds := refresh_componentIds _
    exact same ▸ .kept

/-- No run of edits repeats an id that was there at most once. -/
theorem Becomes.count_le {defaults : Defaults} {p q : Product} (run : p.Becomes defaults q)
    (id : String) : q.componentIds.count id ≤ max 1 (p.componentIds.count id) := by
  induction run with
  | start => exact Nat.le_max_right 1 _
  | @edited _ q now e _ keeps ih =>
    have step := (apply_ids defaults now (p := q) keeps).count_le id
    omega
  | @worked q i entry c _ found same ih =>
    have ids : (q.placements.set i { entry with component := c }).map Placement.componentId =
        q.componentIds := map_set_same found same
    rw [componentIds, ids]
    exact ih
  | progressed _ _ _ ih => exact ih

/-! Where the ids of a product come from. -/

theorem make_componentIds {defaults : Defaults} {draft : ProductDraft} {p : Product}
    (made : make defaults draft = .ok p) :
    p.componentIds = draft.placements.map Placement.componentId := by
  obtain ⟨status, _, -, rfl, -⟩ := parts_of_make made
  exact refresh_componentIds _

end Product

def Placement.statedId (d : Datum) : Outcome String := do
  let r ← d.asRecord "product component"
  let component ← (← r.need "product component" "component").asRecord "component"
  (← component.need "component" "id").asText

def Product.statedIds (d : Datum) : Outcome (List String) := do
  let r ← d.asRecord "product"
  (← r.items "components").mapM Placement.statedId

theorem Component.make_id {draft : ComponentDraft} {c : Component} (made : make draft = .ok c) :
    c.id = draft.id := by
  obtain ⟨_, _, _, -, -, -, rfl⟩ := parts_of_make made
  rfl

theorem Component.ofRecord_id {known after : Keyed Template} {d : Datum} {c : Component}
    (read : ofRecord known d = .ok (c, after)) :
    ∃ (r : Record) (id : Datum), d = .object r ∧ r.need "component" "id" = .ok id ∧
      id.asText = .ok c.id := by
  obtain ⟨r, draft, same, ⟨⟨id, needed, own⟩, -, -, -⟩, made⟩ := parts_of_read read
  exact ⟨r, id, same, needed, make_id made ▸ own⟩

theorem Placement.ofRecord_statedId {known after : Keyed Template} {d : Datum} {entry : Placement}
    (read : ofRecord known d = .ok (entry, after)) : statedId d = .ok entry.componentId := by
  obtain ⟨r, inner, c, rfl, needed, readComponent, made⟩ := parts_of_read read
  obtain ⟨fields, id, rfl, neededId, own⟩ := Component.ofRecord_id readComponent
  simp only [statedId, Datum.asRecord, needed, neededId, make_componentId made, own, ok_bind]

theorem Placement.readEach_statedIds {known after : Keyed Template} {ds : List Datum}
    {entries : List Placement} (read : readEach ofRecord known ds = .ok (entries, after)) :
    ds.mapM statedId = .ok (entries.map componentId) := by
  induction ds generalizing known entries with
  | nil =>
    obtain ⟨rfl, -⟩ := readEach_nil read
    rfl
  | cons d ds ih =>
    obtain ⟨entry, next, later, first, readLater, rfl⟩ := readEach_cons read
    rw [List.mapM_cons, ofRecord_statedId first, ih readLater]
    rfl

namespace Product

theorem ofRecord_componentIds {defaults : Defaults} {d : Datum} {p : Product}
    (read : ofRecord defaults d = .ok p) : statedIds d = .ok p.componentIds := by
  obtain ⟨r, draft, rfl, ⟨⟨ds, after, listed, readEntries⟩, -, -, -⟩, made⟩ := parts_of_read read
  simp only [statedIds, Datum.asRecord, listed, ok_bind]
  rw [Placement.readEach_statedIds readEntries, make_componentIds made]

/-- An id that stands for one component: what is looked up, taken out and worked on under that id is
this component, and the others stay where they are. -/
structure Addresses (p : Product) (id : String) (before : List Placement) (entry : Placement)
    (after : List Placement) : Prop where
  placed : p.placements = before ++ entry :: after
  named : entry.componentId = id
  others : ∀ other ∈ before ++ after, other.componentId ≠ id
  found : p.placement? id = .ok entry
  removed : ∀ defaults now,
    (p.removeComponent defaults now id).1.placements = (before ++ after).map Placement.refresh
  handedOut : ∀ defaults now c, (p.removeComponent defaults now id).2 = .ok c → c = entry.component
  worked : ∀ (α : Type) (work : Component.Work α) defaults now,
    (p.workWithin defaults now id work).1.placements =
      (before ++ { entry with component := (work entry.component).1 } :: after).map Placement.refresh

theorem addresses_of_alone {p : Product} {id : String} {before after : List Placement}
    {entry : Placement} (placed : p.placements = before ++ entry :: after)
    (named : entry.componentId = id) (others : ∀ other ∈ before ++ after, other.componentId ≠ id) :
    p.Addresses id before entry after := by
  have held : entry.holds id = true := Placement.holds_iff.mpr named
  have skipped : ∀ other ∈ before, other.holds id = false := fun other member =>
    Placement.holds_eq_false.mpr (others other (List.mem_append_left after member))
  have found : p.placement? id = .ok entry := by
    have first : p.placements.find? (Placement.holds id) = some entry := by
      rw [placed, List.find?_append, List.find?_eq_none.mpr (by simpa using skipped)]
      simp [held]
    simp only [placement?, first]
  refine ⟨placed, named, others, found, ?_, ?_, ?_⟩
  · intro defaults now
    have rest : p.placements.eraseP (Placement.holds id) = before ++ after := by
      rw [placed, List.eraseP_append_right _ (by simpa using skipped), List.eraseP_cons_of_pos held]
    simp only [removeComponent, found, settle_fst, refresh, stamp, rest]
  · intro defaults now c done
    simp only [removeComponent, found, settle] at done
    obtain ⟨-, -, same⟩ := bind_ok.mp done
    exact (Except.ok.inj same).symm
  · intro α work defaults now
    simp only [workWithin, found, settle_fst, refresh, stamp, replaceComponent, placed,
      changeFirst_append skipped held]

theorem addresses_of_distinct {p : Product} {id : String} (distinct : p.componentIds.Nodup)
    (listed : id ∈ p.componentIds) : ∃ before entry after, p.Addresses id before entry after := by
  obtain ⟨entry, member, named⟩ := List.mem_map.mp listed
  obtain ⟨before, after, placed⟩ := List.append_of_mem member
  refine ⟨before, entry, after, addresses_of_alone placed named ?_⟩
  rw [componentIds, placed, List.map_append, List.map_cons, List.nodup_middle] at distinct
  intro other elsewhere same
  apply (List.nodup_cons.mp distinct).1
  rw [← List.map_append, named, ← same]
  exact List.mem_map_of_mem elsewhere

theorem Addresses.count_eq_one {p : Product} {id : String} {before after : List Placement}
    {entry : Placement} (addresses : p.Addresses id before entry after) :
    p.componentIds.count id = 1 := by
  have absent : id ∉ (before ++ after).map Placement.componentId := by
    intro listed
    obtain ⟨other, member, same⟩ := List.mem_map.mp listed
    exact addresses.others other member same
  rw [componentIds, addresses.placed, List.map_append, List.map_cons,
    List.perm_middle.count_eq, addresses.named, List.count_cons_self, ← List.map_append,
    List.count_eq_zero_of_not_mem absent]

theorem distinct_iff_addressed {p : Product} :
    p.componentIds.Nodup ↔
      ∀ id ∈ p.componentIds, ∃ before entry after, p.Addresses id before entry after := by
  constructor
  · intro distinct id listed
    exact addresses_of_distinct distinct listed
  · intro each
    rw [List.nodup_iff_count_le_one]
    intro id
    by_cases listed : id ∈ p.componentIds
    · obtain ⟨before, entry, after, addresses⟩ := each id listed
      exact addresses.count_eq_one.le
    · simp [List.count_eq_zero_of_not_mem listed]

theorem addComponent_of_repeated {defaults : Defaults} {now : Moment} {c : Component}
    {quantity position order : Datum} {p : Product} (repeated : c.id ∈ p.componentIds) :
    p.addComponent defaults now c quantity position order =
      (p, .error (.repeatedComponent p.id c.id)) := by
  obtain ⟨entry, member, same⟩ := List.mem_map.mp repeated
  have there : p.placements.any (Placement.holds c.id) = true :=
    List.any_eq_true.mpr ⟨entry, member, Placement.holds_iff.mpr same⟩
  simp only [addComponent, place, there, if_true]

end Product

theorem Component.Changed.id_eq {c c' : Component} {e : Edit} (changed : Changed c e c') :
    c'.id = c.id := by
  cases changed <;> rfl

theorem Component.leftover_id (e : Edit) (c : Component) : (e.leftover c).id = c.id := by
  cases e <;> rfl

theorem Component.apply_id (e : Edit) (c : Component) : (e.apply c).1.id = c.id := by
  rcases applied : e.apply c with ⟨c', f | r⟩
  · obtain rfl := leftover_of_refused applied
    exact leftover_id e c
  · exact (changed_of_apply applied).id_eq

/-- The ids of components repeat only as a product is given them. It is made and read with whatever
ids there are, and from there on ids that are distinct stay so, which is what it takes for each of
them to stand for one component. -/
theorem component_ids_repeat_only_as_given (defaults : Defaults) :
    (∀ draft p, Product.make defaults draft = .ok p →
      p.componentIds = draft.placements.map Placement.componentId) ∧
    (∀ draft status, defaults.Usable → Choice.read draft.status = .ok status →
      (Product.ofDraft draft status).Listed → ∃ p, Product.make defaults draft = .ok p) ∧
    (∀ d p, Product.ofRecord defaults d = .ok p → Product.statedIds d = .ok p.componentIds) ∧
    (∀ text p, Product.read defaults text = .ok p →
      ∃ d, Json.read .malformedProduct text = .ok d ∧
        Product.statedIds d = .ok p.componentIds) ∧
    (∀ (p : Product) now c quantity position order, c.id ∈ p.componentIds →
      p.addComponent defaults now c quantity position order =
        (p, .error (.repeatedComponent p.id c.id))) ∧
    (∀ p q : Product, p.Becomes defaults q →
      (∀ id, q.componentIds.count id ≤ max 1 (p.componentIds.count id)) ∧
        (p.componentIds.Nodup → q.componentIds.Nodup)) ∧
    ∀ p : Product, p.componentIds.Nodup ↔
      ∀ id ∈ p.componentIds, ∃ before entry after, p.Addresses id before entry after := by
  refine ⟨fun _ _ => Product.make_componentIds, ?_, fun _ _ => Product.ofRecord_componentIds, ?_,
    fun _ _ _ _ _ _ => Product.addComponent_of_repeated, ?_, fun _ => Product.distinct_iff_addressed⟩
  · intro draft status usable read listed
    exact ⟨_, Product.make_ok usable read listed⟩
  · intro text p read
    obtain ⟨d, written, readRecord⟩ := bind_ok.mp read
    exact ⟨d, written, Product.ofRecord_componentIds readRecord⟩
  · intro p q run
    refine ⟨run.count_le, fun distinct => List.nodup_iff_count_le_one.mpr fun id => ?_⟩
    have before := List.nodup_iff_count_le_one.mp distinct id
    have after := run.count_le id
    omega

namespace Shelf

def twinDraft : ProductDraft := { draft noon with placements := [placement, placement] }

theorem twinDraft_listed : (Product.ofDraft twinDraft .designing).Listed :=
  Product.listed_of_bare (by decide +kernel) (by decide +kernel) (by decide +kernel)

def twinRecord : Datum :=
  let component : Datum := .object [
    ("id", .text "a"),
    ("size", .object [("length", .int 700), ("width", .int 300), ("thickness", .int 18)]),
    ("material", .text "mdf")]
  .object [
    ("id", .text "p"),
    ("components", .list [.object [("component", component)], .object [("component", component)]]),
    ("createdAt", .text "2024-05-06T12:00:00+02:00"),
    ("updatedAt", .text "2024-05-06T12:00:00+02:00")]

theorem twinRecord_read : (Product.ofRecord .standard twinRecord).isOk = true := by decide +kernel

def withoutSide : Product.Edit Component.Edited := .removeComponent "side"

theorem product_distinct : (product noon).componentIds.Nodup := by decide +kernel

theorem longer_has_side : side.id ∈ longer.componentIds := by decide +kernel

def emptied : Product :=
  (withoutSide.apply .standard noon (sideAgain.apply .standard noon longer).1).1

theorem product_becomes_longer : (product noon).Becomes .standard longer :=
  .edited noon (e := lengthen) .start (Component.apply_id _)

theorem product_becomes_emptied : (product noon).Becomes .standard emptied :=
  .edited noon (.edited noon product_becomes_longer trivial) trivial

end Shelf

theorem shelf_ids_repeat_only_as_given :
    (∃ p, Product.make .standard Shelf.twinDraft = .ok p ∧ p.componentIds = ["side", "side"]) ∧
    (∃ p, Product.ofRecord .standard Shelf.twinRecord = .ok p ∧ p.componentIds = ["a", "a"]) ∧
    Shelf.longer.addComponent .standard Shelf.noon Shelf.side (.int 1) .null .null =
      (Shelf.longer, .error (.repeatedComponent Shelf.longer.id Shelf.side.id)) ∧
    Shelf.emptied.componentIds.Nodup ∧
    ∃ before entry after, Shelf.longer.Addresses Shelf.side.id before entry after := by
  obtain ⟨made, accepted, read, -, refused, run, addressed⟩ :=
    component_ids_repeat_only_as_given .standard
  refine ⟨?_, ?_, ?_, ?_, ?_⟩
  · obtain ⟨p, isMade⟩ :=
      accepted Shelf.twinDraft .designing Defaults.standard_usable rfl Shelf.twinDraft_listed
    refine ⟨p, isMade, (made _ _ isMade).trans ?_⟩
    decide +kernel
  · have isRead := Outcome.eq_value Shelf.twinRecord_read
    have stated : Product.statedIds Shelf.twinRecord = .ok ["a", "a"] := rfl
    exact ⟨_, isRead, Except.ok.inj ((read _ _ isRead).symm.trans stated)⟩
  · exact refused _ _ _ _ _ _ Shelf.longer_has_side
  · exact (run _ _ Shelf.product_becomes_emptied).2 Shelf.product_distinct
  · have distinct := (run _ _ Shelf.product_becomes_longer).2 Shelf.product_distinct
    exact (addressed _).mp distinct _ Shelf.longer_has_side

end Joinery
