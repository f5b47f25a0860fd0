import Joinery.Proofs.Product.Fresh
import Joinery.Proofs.Record.Reading
import Joinery.Proofs.Settings.Defaults
import Joinery.Record.Product

/-!
Derived fields. A record shows areas, volumes, times, diagnostics, totals and a completion to whoever
reads it, and no reader of records looks at them: two records that agree in everything else are read
alike, down to the fault, and what is read has all of these values calculated anew.
-/
namespace Joinery

/-! Records that agree but for some of their fields. -/

/-- Two records agree in every field that is not derived, where what the records hold in one field is
compared as records of that kind are. -/
def Record.AgreeBut (derived : List String) (parts : String → Datum → Datum → Prop)
    (r s : Record) : Prop :=
  ∀ key ∉ derived, Option.Rel (parts key) (r.lookup key) (s.lookup key)

/-- Two values that are the same, or two records that agree but for their derived fields. -/
inductive Datum.AlikeBut (derived : List String) (parts : String → Datum → Datum → Prop) :
    Datum → Datum → Prop where
  | same (d : Datum) : AlikeBut derived parts d d
  | records {r s : Record} : r.AgreeBut derived parts s → AlikeBut derived parts (.object r) (.object s)

inductive Datum.ItemsAlike (alike : Datum → Datum → Prop) : Datum → Datum → Prop where
  | same (d : Datum) : ItemsAlike alike d d
  | lists {ds es : List Datum} : List.Forall₂ alike ds es → ItemsAlike alike (.list ds) (.list es)

/-- One field is compared in its own way, and all others have to be equal. -/
def Record.onlyIn (field : String) (alike : Datum → Datum → Prop) (key : String) :
    Datum → Datum → Prop := if key = field then alike else Eq

def Operation.RecordsAlike : Datum → Datum → Prop :=
  Datum.AlikeBut ["calculatedTime", "diagnostic"] fun _ => Eq

def Component.RecordsAlike : Datum → Datum → Prop :=
  Datum.AlikeBut ["area", "volume", "totalTime"]
    (Record.onlyIn "processes" (Datum.ItemsAlike Operation.RecordsAlike))

def Placement.RecordsAlike : Datum → Datum → Prop :=
  Datum.AlikeBut [] (Record.onlyIn "component" Component.RecordsAlike)

/-- Records of products that differ in derived fields alone, at any depth. -/
def Product.RecordsAlike : Datum → Datum → Prop :=
  Datum.AlikeBut ["totals", "completion"]
    (Record.onlyIn "components" (Datum.ItemsAlike Placement.RecordsAlike))

namespace Record.AgreeBut
variable {derived : List String} {parts : String → Datum → Datum → Prop} {r s : Record}

theorem lookup_eq (agree : r.AgreeBut derived parts s) {key : String} (kept : key ∉ derived)
    (equal : parts key = Eq) : r.lookup key = s.lookup key := by
  have related := agree key kept
  rw [equal] at related
  generalize r.lookup key = left at related
  generalize s.lookup key = right at related
  cases related with
  | some same => rw [same]
  | none => rfl

theorem on_plain {fields : List String} (agree : r.AgreeBut derived (fun _ => Eq) s)
    (kept : ∀ key ∈ fields, key ∉ derived) : r.AgreeOn fields s :=
  fun key listed => agree.lookup_eq (kept key listed) rfl

theorem on_others {field : String} {fields : List String} {alike : Datum → Datum → Prop}
    (agree : r.AgreeBut derived (onlyIn field alike) s)
    (others : ∀ key ∈ fields, key ∉ derived ∧ key ≠ field) : r.AgreeOn fields s :=
  fun key listed => agree.lookup_eq (others key listed).1 (if_neg (others key listed).2)

theorem lookup_rel {field : String} {alike : Datum → Datum → Prop}
    (agree : r.AgreeBut derived (onlyIn field alike) s) (kept : field ∉ derived) :
    Option.Rel alike (r.lookup field) (s.lookup field) := by
  have related := agree field kept
  rwa [onlyIn, if_pos rfl] at related

theorem of_fields (each : List.Forall₂ (fun a b => a.1 = b.1 ∧ parts a.1 a.2 b.2) r s) :
    r.AgreeBut derived parts s := by
  intro key _
  induction each with
  | nil => exact .none
  | @cons a b _ _ first _ ih =>
    obtain ⟨name, value⟩ := a
    obtain ⟨same, related⟩ := first
    rw [List.lookup_cons, List.lookup_cons, ← same]
    cases found : key == name with
    | true =>
      rw [beq_iff_eq.mp found]
      exact .some related
    | false => exact ih

theorem lookup_of_derived {key : String} (kept : key ∉ derived)
    (each : ∀ entry ∈ r, entry.1 ∈ derived) : r.lookup key = none := by
  rw [List.lookup_eq_none_iff]
  intro entry member
  have different : key ≠ entry.1 := fun same => kept (same ▸ each entry member)
  simpa using different

theorem append {rest other : Record} (agree : r.AgreeBut derived parts s)
    (left : ∀ entry ∈ rest, entry.1 ∈ derived) (right : ∀ entry ∈ other, entry.1 ∈ derived) :
    AgreeBut derived parts (r ++ rest) (s ++ other) := by
  intro key kept
  rw [List.lookup_append, List.lookup_append, lookup_of_derived kept left,
    lookup_of_derived kept right, Option.or_none, Option.or_none]
  exact agree key kept

end Record.AgreeBut

theorem Record.items_bind_alike {α : Type} {r s : Record} {key : String}
    {alike : Datum → Datum → Prop} {read : List Datum → Outcome α}
    (related : Option.Rel (Datum.ItemsAlike alike) (r.lookup key) (s.lookup key))
    (each : ∀ {ds es}, List.Forall₂ alike ds es → read ds = read es) :
    (r.items key >>= read) = (s.items key >>= read) := by
  unfold items value valueOr
  generalize r.lookup key = left at related
  generalize s.lookup key = right at related
  cases related with
  | none => rfl
  | some items =>
    cases items with
    | same d => rfl
    | lists ds =>
      cases ds with
      | nil => rfl
      | cons first rest => exact each (.cons first rest)

theorem Record.need_bind_alike {α : Type} {kind key : String} {r s : Record}
    {alike : Datum → Datum → Prop} {read : Datum → Outcome α}
    (related : Option.Rel alike (r.lookup key) (s.lookup key))
    (each : ∀ {d e}, alike d e → read d = read e) :
    (r.need kind key >>= read) = (s.need kind key >>= read) := by
  unfold need
  generalize r.lookup key = left at related
  generalize s.lookup key = right at related
  cases related with
  | none => rfl
  | some alike => exact each alike

/-- Records that are read alike one by one, whatever is known, are read alike one after another. -/
theorem readEach_alike {α κ : Type} {read : κ → Datum → Outcome (α × κ)} {alike : Datum → Datum → Prop}
    (each : ∀ (known : κ) {d e : Datum}, alike d e → read known d = read known e) (known : κ)
    {ds es : List Datum} (all : List.Forall₂ alike ds es) :
    readEach read known ds = readEach read known es := by
  induction all generalizing known with
  | nil => rfl
  | cons first _ ih => simp only [readEach, each known first, ih]

namespace Operation

theorem ofRecord_alike (known : Keyed Template) {d e : Datum} (alike : RecordsAlike d e) :
    ofRecord known d = ofRecord known e := by
  cases alike with
  | same => rfl
  | @records r s agree =>
    have template : r.need "process" "template" = s.need "process" "template" := by
      rw [Record.need, Record.need, agree.lookup_eq (by decide) rfl]
    exact ofRecord_congr (agree.on_plain (by decide)) (by rw [template])

end Operation

namespace Component

theorem ofRecord_alike (known : Keyed Template) {d e : Datum} (alike : RecordsAlike d e) :
    ofRecord known d = ofRecord known e := by
  cases alike with
  | same => rfl
  | records agree =>
    exact ofRecord_congr (agree.on_others (by decide)) <|
      Record.items_bind_alike (agree.lookup_rel (by decide))
        (readEach_alike Operation.ofRecord_alike known)

end Component

namespace Placement

theorem ofRecord_alike (known : Keyed Template) {d e : Datum} (alike : RecordsAlike d e) :
    ofRecord known d = ofRecord known e := by
  cases alike with
  | same => rfl
  | records agree =>
    exact ofRecord_congr (agree.on_others (by decide)) <|
      Record.need_bind_alike (agree.lookup_rel (by decide)) (Component.ofRecord_alike known)

end Placement

namespace Product

theorem ofRecord_alike (defaults : Defaults) {d e : Datum} (alike : RecordsAlike d e) :
    ofRecord defaults d = ofRecord defaults e := by
  cases alike with
  | same => rfl
  | records agree =>
    exact ofRecord_congr (agree.on_others (by decide)) <|
      Record.items_bind_alike (agree.lookup_rel (by decide)) (readEach_alike Placement.ofRecord_alike [])

end Product

/-! What is read has its derived values calculated from its leaves. -/

def Operation.untimed (p : Operation) : Operation := { p with minutes := 0, diagnostic := none }

def Component.untimed (c : Component) : Component :=
  { c with operations := c.operations.map Operation.untimed }

def Product.untimed (p : Product) : List Component := p.components.map Component.untimed

/-- All that the record of a component shows for its reader follows from its leaves. -/
structure Component.Recomputed (c : Component) : Prop where
  times : c.untimed.refresh = c
  written : ∃ (r : Record) (totalTime : Float), c.record = .ok (.object r) ∧
    Estimate.total (c.untimed.operations.map (Estimate.minutes c.untimed)) = .ok totalTime ∧
    c.totalTime = .ok totalTime ∧
    r.lookup "area" = some (.real (c.size.length * c.size.width)) ∧
    r.lookup "volume" = some (.real (c.size.length * c.size.width * c.size.thickness)) ∧
    r.lookup "totalTime" = some (.real totalTime) ∧
    r.lookup "processes" = some (.list (c.untimed.operations.map fun p =>
      (p.timed c.untimed).record))

/-- The totals of a product that was read are those of its leaves at the default rates, and its
completion is that of their statuses. -/
structure Product.Recomputed (defaults : Defaults) (p : Product) : Prop where
  components : ∀ c ∈ p.components, c.Recomputed
  written : ∃ (r : Record) (rates : RateTable) (params : EstimateParameters) (totals : ProductTotals),
    p.record defaults = .ok (.object r) ∧ defaults.rates = .ok rates ∧ defaults.params = .ok params ∧
    Estimate.productTotals rates params p.untimed = .ok totals ∧ p.totals defaults = .ok totals ∧
    r.lookup "totals" = some totals.record ∧
    r.lookup "completion" = some (.real (Estimate.completion
      (p.untimed.flatMap Component.statuses ++ p.steps.map AssemblyStep.status)))

namespace Component

theorem timed_untimed (c : Component) (p : Operation) : p.untimed.timed c.untimed = p.timed c := rfl

theorem untimed_refresh (c : Component) : c.untimed.refresh = c.refresh := by
  have times : c.untimed.operations.map (Operation.timed c.untimed) =
      c.operations.map (Operation.timed c) := by
    rw [untimed, List.map_map]
    exact List.map_congr_left fun p _ => timed_untimed c p
  simp only [refresh, times]
  rfl

theorem minutes_untimed (c : Component) :
    c.untimed.operations.map (Estimate.minutes c.untimed) =
      c.operations.map (Estimate.minutes c) := by
  simp only [untimed, List.map_map]
  rfl

theorem statuses_untimed (c : Component) : c.untimed.statuses = c.statuses := by
  simp only [statuses, untimed, List.map_map]
  rfl

theorem componentTotals_untimed (rates : RateTable) (c : Component) :
    Estimate.componentTotals rates c.untimed = Estimate.componentTotals rates c := by
  have costs : c.untimed.operations.mapM (Estimate.processCost rates c.untimed) =
      c.operations.mapM (Estimate.processCost rates c) := mapM_map_congr fun _ _ => rfl
  have material : Estimate.materialCost rates c.untimed = Estimate.materialCost rates c := rfl
  rw [Estimate.componentTotals, Estimate.componentTotals, costs, material, minutes_untimed]

/-- A component with fresh times shows what follows from its leaves as soon as it has any totals. -/
theorem Fresh.recomputed {c : Component} (fresh : c.Fresh) {rates : RateTable}
    {totals : ComponentTotals} (taken : Estimate.componentTotals rates c = .ok totals) :
    c.Recomputed := by
  have total := totalTime_of_totals taken
  have stored : c.totalTime = .ok totals.totalTime := (totalTime_of_fresh fresh).trans total
  have processes : c.operations.map Operation.record =
      c.untimed.operations.map fun p => (p.timed c.untimed).record := by
    rw [untimed, List.map_map]
    exact List.map_congr_left fun p member =>
      congrArg Operation.record (Operation.timed_eq_self (fresh p member)).symm
  refine ⟨(untimed_refresh c).trans (refresh_eq_self fresh), ?_⟩
  rw [minutes_untimed, record, stored, ok_bind]
  exact ⟨_, totals.totalTime, rfl, total, rfl, rfl, rfl, rfl,
    congrArg (some <| Datum.list ·) processes⟩

end Component

namespace Product

theorem statuses_untimed (p : Product) :
    p.untimed.flatMap Component.statuses ++ p.steps.map AssemblyStep.status = p.statuses := by
  rw [untimed, List.flatMap_map, statuses]
  simp only [Component.statuses_untimed]

theorem productTotals_untimed (rates : RateTable) (params : EstimateParameters) (p : Product) :
    Estimate.productTotals rates params p.untimed =
      Estimate.productTotals rates params p.components := by
  have parts : p.untimed.mapM (Estimate.componentTotals rates) =
      p.components.mapM (Estimate.componentTotals rates) :=
    mapM_map_congr fun c _ => Component.componentTotals_untimed rates c
  rw [Estimate.productTotals, Estimate.productTotals, parts]

theorem refresh_fresh (p : Product) : ∀ c ∈ p.refresh.components, c.Fresh :=
  fresh_of_placements rfl fun _ => Component.refresh_fresh _

/-- A product with fresh times and no rates or parameters of its own shows what follows from its
leaves as soon as its totals can be taken. -/
theorem recomputed_of_fresh {defaults : Defaults} {p : Product} {totals : ProductTotals}
    (rates : p.rates = none) (params : p.params = none) (fresh : ∀ c ∈ p.components, c.Fresh)
    (taken : p.totals defaults = .ok totals) : p.Recomputed defaults := by
  obtain ⟨usedRates, usedParams, sameRates, sameParams, summed⟩ := totals_parts taken
  rw [rates] at sameRates
  rw [params] at sameParams
  obtain ⟨parts, each, -⟩ := bind_ok.mp summed
  have components : ∀ c ∈ p.components, c.Recomputed := by
    intro c member
    obtain ⟨part, taken⟩ := mapM_member each c member
    exact (fresh c member).recomputed taken
  have placements : ∀ entry ∈ p.placements, ∃ d, entry.record = .ok d := by
    intro entry placed
    obtain ⟨-, r, _, written, -⟩ := components entry.component (List.mem_map_of_mem placed)
    rw [Placement.record, written, ok_bind]
    exact ⟨_, rfl⟩
  obtain ⟨entries, written⟩ := mapM_ok placements
  refine ⟨components, ?_⟩
  rw [← productTotals_untimed] at summed
  rw [record, taken, ok_bind, written, ok_bind, statuses_untimed]
  exact ⟨_, usedRates, usedParams, totals, rfl, sameRates, sameParams, summed, rfl, rfl, rfl⟩

theorem made_recomputed {defaults : Defaults} {draft : ProductDraft} {p : Product}
    (made : make defaults draft = .ok p) : p.Recomputed defaults := by
  obtain ⟨status, totals, -, rfl, taken⟩ := parts_of_make made
  exact recomputed_of_fresh rfl rfl (refresh_fresh _) taken

end Product

theorem import_ignores_derived (defaults : Defaults) {d e : Datum}
    (alike : Product.RecordsAlike d e) :
    Product.ofRecord defaults d = Product.ofRecord defaults e ∧
      ∀ p, Product.ofRecord defaults d = .ok p → p.Recomputed defaults := by
  refine ⟨Product.ofRecord_alike defaults alike, fun p read => ?_⟩
  obtain ⟨-, draft, -, -, made⟩ := Product.parts_of_read read
  exact Product.made_recomputed made

/-! The record of a shelf, as it is without derived fields and as it is with any in their places. -/
namespace Shelf

def operationRecord (derived : Record) : Datum := .object ([
  ("id", .text "saw-1"),
  ("template", .object [
    ("id", .text "1"),
    ("code", .text "SAW"),
    ("name", .text "Sawing"),
    ("category", .text "cutting"),
    ("createdAt", .text "2024-05-06T12:00:00"),
    ("updatedAt", .text "2024-05-06T12:00:00")])] ++ derived)

def componentRecord (operation : Datum) (derived : Record) : Datum := .object ([
  ("id", .text "side"),
  ("size", .object [("length", .int 700), ("width", .int 300), ("thickness", .int 18)]),
  ("material", .text "mdf"),
  ("processes", .list [operation])] ++ derived)

def placementRecord (component : Datum) : Datum := .object [("component", component)]

def productRecord (placement : Datum) (derived : Record) : Datum := .object ([
  ("id", .text "shelf"),
  ("components", .list [placement]),
  ("createdAt", .text "2024-05-06T12:00:00"),
  ("updatedAt", .text "2024-05-06T12:00:00")] ++ derived)

def plainSide : Datum := componentRecord (operationRecord []) []

def tamperedOperation : Datum :=
  operationRecord [("calculatedTime", .int (-5)), ("diagnostic", .list [])]

def tamperedSide : Datum :=
  componentRecord tamperedOperation [("area", .text "wide"), ("totalTime", .real (0 / 0))]

def plainRecord : Datum := productRecord (placementRecord plainSide) []

def tamperedRecord : Datum :=
  productRecord (placementRecord tamperedSide)
    [("totals", .object [("totalCost", .int 1)]), ("completion", .int 100)]

theorem tampered_alike : Product.RecordsAlike plainRecord tamperedRecord := by
  have operation : Operation.RecordsAlike (operationRecord []) tamperedOperation :=
    .records (.append (.of_fields (List.forall₂_same.mpr fun _ _ => ⟨rfl, rfl⟩)) (by simp) (by simp))
  have side : Component.RecordsAlike plainSide tamperedSide := by
    refine .records (.append (.of_fields ?_) (by simp) (by simp))
    simpa [Record.onlyIn] using Datum.ItemsAlike.lists (.cons operation .nil)
  have placement : Placement.RecordsAlike (placementRecord plainSide)
      (placementRecord tamperedSide) := by
    refine .records (.of_fields ?_)
    simpa [Record.onlyIn] using side
  refine .records (.append (.of_fields ?_) (by simp) (by simp))
  simpa [Record.onlyIn] using Datum.ItemsAlike.lists (.cons placement .nil)

end Shelf

theorem tampered_shelf :
    Product.RecordsAlike Shelf.plainRecord Shelf.tamperedRecord ∧
      ∃ p, Product.ofRecord .standard Shelf.plainRecord = .ok p ∧
        Product.ofRecord .standard Shelf.tamperedRecord = .ok p ∧ p.Recomputed .standard := by
  have read : Product.ofRecord .standard Shelf.plainRecord = .ok _ :=
    Outcome.eq_value (by decide +kernel)
  obtain ⟨same, recomputed⟩ := import_ignores_derived .standard Shelf.tampered_alike
  exact ⟨Shelf.tampered_alike, _, read, same.symm.trans read, recomputed _ read⟩

end Joinery
