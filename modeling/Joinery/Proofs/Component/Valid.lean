import Joinery.Proofs.Component.Refusal
import Joinery.Proofs.Component.WellMade
import Joinery.Proofs.Number.Bound
import Joinery.Proofs.Number.Unsigned
import Joinery.Proofs.Record.Field

/-!
Valid components. Measures are finite and not below zero, counts are whole and at least what their
field asks for, labels are among those of their field and names are distinct. Constructors establish
this from whatever they are given, and edits keep it, whether they succeed or are refused.
-/
namespace Joinery

structure Measure (x : Float) : Prop where
  finite : x.isFinite = true
  nonNegative : 0 ≤ x

/-- A whole number of at least so many, which reads as itself in every field with that bound. -/
structure Counted (least n : Nat) : Prop where
  bound : least ≤ n
  again : ∀ field, (Datum.nat n).count least field = .ok n

/-- One of the labels of a field, which reads as itself. -/
structure Choice.Listed {α : Type} [Choice α] (a : α) : Prop where
  option : a ∈ Choice.options
  again : Choice.read (Datum.ofChoice a) = .ok a

structure DistinctNames (names : List String) : Prop where
  nodup : names.Nodup
  each : ∀ s ∈ names, Text.trim s = s ∧ s ≠ ""

theorem measure_of_not_lt {x : Float} (finite : x.isFinite = true) (above : ¬ x < 0) : Measure x :=
  ⟨finite, Number.zero_le_of_not_lt finite above⟩

theorem Measure.not_lt {x : Float} (measure : Measure x) : ¬ x < 0 :=
  Number.not_lt_of_zero_le measure.nonNegative

theorem measure_roundHundredths {x : Float} (above : ¬ x < 0) :
    Measure (Number.roundHundredths x) :=
  measure_of_not_lt (Number.small_roundHundredths x).isFinite (Number.roundHundredths_not_lt above)

theorem measure_of_read {d : Datum} {field : String} {x : Float}
    (read : d.nonNegative field = .ok x) : Measure x := by
  obtain ⟨finite, above⟩ := Datum.measure_of_nonNegative read
  exact measure_of_not_lt finite above

theorem least_le_of_count {d : Datum} {least n : Nat} {field : String}
    (read : d.count least field = .ok n) : least ≤ n := by
  obtain ⟨z, whole, rfl⟩ := map_ok.mp read
  obtain ⟨found, -, rest⟩ := bind_ok.mp whole
  cases found with
  | none => cases rest
  | some x =>
    simp only at rest
    split at rest
    · rename_i holds
      obtain rfl := Except.ok.inj rest
      have bound : (least : Int) ≤ Number.wholePart x :=
        of_decide_eq_true (Bool.and_eq_true_iff.mp holds).2
      omega
    · cases rest

theorem counted_of_read {d : Datum} {least n : Nat} {field : String}
    (read : d.count least field = .ok n) : Counted least n :=
  ⟨least_le_of_count read, Datum.count_again read⟩

theorem Choice.listed_of_read {α : Type} [Choice α] [LawfulChoice α] {d : Datum} {a : α}
    (read : Choice.read d = .ok a) : Choice.Listed a := by
  obtain ⟨given, -, rest⟩ := bind_ok.mp read
  split at rest
  · rename_i b found
    obtain rfl := Except.ok.inj rest
    exact ⟨List.mem_of_find?_eq_some found, read_ofChoice _⟩
  · cases rest

theorem distinct_of_read {items : List Datum} {names : List String}
    (read : distinctNames items = .ok names) : DistinctNames names :=
  ⟨nodup_distinctNames read, fun _ => mem_distinctNames read⟩

def Efficiency.Made (e : Efficiency) : Prop :=
  ∃ id processName baseTime sizeFactor complexityFactor unit description,
    Efficiency.make id processName baseTime sizeFactor complexityFactor unit description = .ok e

theorem Efficiency.Made.unit {e : Efficiency} (made : e.Made) : Choice.Listed e.unit := by
  obtain ⟨_, _, _, _, _, _, _, made⟩ := made
  obtain ⟨unit, read, same⟩ := bind_ok.mp made
  obtain rfl := Except.ok.inj same
  exact Choice.listed_of_read read

structure Template.Valid (t : Template) : Prop where
  code : Text.trim t.code ≠ ""
  category : Choice.Listed t.category
  strategy : Choice.Listed t.strategy
  unit : ∀ e ∈ t.efficiency, Choice.Listed e.unit
  equipment : DistinctNames t.equipment
  materials : DistinctNames t.materials

structure Size.Valid (s : Size) : Prop where
  length : Measure s.length
  width : Measure s.width
  thickness : Measure s.thickness

structure Feature.Valid (f : Feature) : Prop where
  type : Choice.Listed f.type
  count : Counted 0 f.count
  size : ∀ x ∈ f.size, Measure x

structure Operation.Valid (p : Operation) : Prop where
  template : p.template.Valid
  actualTime : ∀ x ∈ p.actualTime, Measure x
  status : Choice.Listed p.status

structure Component.Valid (c : Component) : Prop where
  size : c.size.Valid
  quantity : Counted 1 c.quantity
  complexity : Choice.Listed c.complexity
  features : ∀ f ∈ c.features, f.Valid
  operations : ∀ p ∈ c.operations, p.Valid
  edgeCount : Counted 0 c.edgeCount

theorem Template.valid_of_make {draft : TemplateDraft} {t : Template}
    (efficiency : ∀ e ∈ draft.efficiency, e.Made) (made : Template.make draft = .ok t) : t.Valid := by
  obtain ⟨code, _, _, _, _, _, _, category, strategy, equipment, materials, rfl⟩ := parts_of_make made
  exact ⟨code, Choice.listed_of_read category, Choice.listed_of_read strategy,
    fun e own => (efficiency e own).unit, distinct_of_read equipment, distinct_of_read materials⟩

theorem Size.valid_of_make {length width thickness : Datum} {s : Size}
    (made : Size.make length width thickness = .ok s) : s.Valid := by
  obtain ⟨readLength, readWidth, readThickness⟩ := parts_of_make made
  exact ⟨measure_of_read readLength, measure_of_read readWidth, measure_of_read readThickness⟩

theorem measure_of_map {d : Datum} {field : String} {found : Option Float} {x : Float}
    (read : (d.nonNegative field).map some = .ok found) (own : x ∈ found) : Measure x := by
  obtain ⟨y, measured, rfl⟩ := map_ok.mp read
  obtain rfl := Option.some.inj own
  exact measure_of_read measured

theorem Feature.measure_of_readSize {d : Datum} {field : String} {size : Option Float} {x : Float}
    (read : Feature.readSize field d = .ok size) (own : x ∈ size) : Measure x := by
  unfold readSize at read
  split at read
  · obtain rfl := Except.ok.inj read
    cases own
  · exact measure_of_map read own

theorem Operation.measure_of_readActualTime {d : Datum} {time : Option Float} {x : Float}
    (read : Operation.readActualTime d = .ok time) (own : x ∈ time) : Measure x := by
  unfold readActualTime at read
  split at read
  · obtain rfl := Except.ok.inj read
    cases own
  · exact measure_of_map read own

theorem Feature.valid_of_make {id name description : String} {type count size position : Datum}
    {f : Feature} (made : Feature.make id type count size position name description = .ok f) :
    f.Valid := by
  obtain ⟨_, _, _, readType, readCount, readSize, rfl⟩ := parts_of_make made
  exact ⟨Choice.listed_of_read readType, counted_of_read readCount, fun x => measure_of_readSize readSize⟩

theorem Operation.valid_of_make {id notes : String} {template : Template}
    {actualTime status equipment : Datum} {parameters : List Parameter} {p : Operation}
    (valid : template.Valid)
    (made : Operation.make id template actualTime status notes parameters equipment = .ok p) :
    p.Valid := by
  obtain ⟨_, _, readStatus, read, rfl⟩ := parts_of_make made
  exact ⟨valid, fun x => measure_of_readActualTime read, Choice.listed_of_read readStatus⟩

theorem Operation.Valid.progressed {p : Operation} (valid : p.Valid) {d : Datum} {status : Progress}
    (read : Choice.read d = .ok status) : { p with status }.Valid :=
  ⟨valid.template, valid.actualTime, Choice.listed_of_read read⟩

theorem Operation.Valid.updated {p : Operation} (valid : p.Valid) {template : Option Template}
    (used : ∀ t ∈ template, t.Valid) (parameters : Option (List Parameter)) (equipment : Datum) :
    (Component.updated template parameters equipment p).Valid := by
  refine ⟨?_, valid.actualTime, valid.status⟩
  cases template with
  | none => exact valid.template
  | some t => exact used t rfl

theorem Operation.Valid.withActualTime {p : Operation} (valid : p.Valid) {d : Datum}
    {time : Option Float} (read : Operation.readActualTime d = .ok time) :
    (Component.withActualTime time p).Valid := by
  refine ⟨valid.template, ?_, valid.status⟩
  cases time with
  | none => exact valid.actualTime
  | some y => exact fun x => measure_of_readActualTime read

namespace Component

def Edit.templates : Edit → List Template
  | .addOperation _ template _ _ _ _ => [template]
  | .updateOperation _ template _ _ _ => template.toList
  | _ => []

theorem Valid.refresh {c : Component} (valid : c.Valid) : c.refresh.Valid := by
  refine { valid with operations := ?_ }
  intro p member
  obtain ⟨q, mq, rfl⟩ := List.mem_map.mp member
  exact ⟨(valid.operations q mq).template, (valid.operations q mq).actualTime,
    (valid.operations q mq).status⟩

theorem valid_of_make {draft : ComponentDraft} {c : Component} (size : draft.size.Valid)
    (features : ∀ f ∈ draft.features, f.Valid) (operations : ∀ p ∈ draft.operations, p.Valid)
    (made : Component.make draft = .ok c) : c.Valid := by
  obtain ⟨_, _, _, readQuantity, readEdgeCount, readComplexity, rfl⟩ := parts_of_make made
  exact Valid.refresh ⟨size, counted_of_read readQuantity, Choice.listed_of_read readComplexity,
    features, operations, counted_of_read readEdgeCount⟩

namespace Valid
variable {c : Component} (valid : c.Valid)
include valid

theorem changeOperation {id : String} {f : Operation → Operation}
    (keeps : ∀ p ∈ c.operations, (f p).Valid) : (c.changeOperation id f).Valid := by
  refine { valid with operations := ?_ }
  intro p member
  rcases mem_changeFirst member with kept | ⟨q, mq, -, rfl⟩
  · exact valid.operations p kept
  · exact keeps q mq

theorem changed {c' : Component} {e : Edit} (used : ∀ t ∈ e.templates, t.Valid)
    (changed : Changed c e c') : c'.Valid := by
  cases changed with
  | resize made => exact refresh { valid with size := Size.valid_of_make made }
  | setMaterial material => exact refresh { valid with }
  | setComplexity read => exact refresh { valid with complexity := Choice.listed_of_read read }
  | setQuantity read => exact refresh { valid with quantity := counted_of_read read }
  | setEdgeCount read => exact refresh { valid with edgeCount := counted_of_read read }
  | addFeature made =>
    refine refresh { valid with features := ?_ }
    intro f member
    rcases List.mem_append.mp member with old | new
    · exact valid.features f old
    · obtain rfl := List.mem_singleton.mp new
      exact Feature.valid_of_make made
  | setFeatureCount read =>
    refine refresh { valid with features := ?_ }
    intro f member
    rcases mem_changeFirst member with kept | ⟨g, mg, -, rfl⟩
    · exact valid.features f kept
    · exact ⟨(valid.features g mg).type, counted_of_read read, (valid.features g mg).size⟩
  | removeFeature id =>
    exact refresh { valid with
      features := fun f member => valid.features f (List.mem_of_mem_eraseP member) }
  | addOperation made =>
    refine refresh { valid with operations := ?_ }
    intro p member
    rcases List.mem_append.mp member with old | new
    · exact valid.operations p old
    · obtain rfl := List.mem_singleton.mp new
      exact Operation.valid_of_make (used _ (List.mem_singleton_self _)) made
  | updateOperation found read =>
    apply refresh
    apply valid.changeOperation
    intro q _
    have before := valid.operations _ (mem_of_operation? found)
    exact (before.updated (fun t own => used t (Option.mem_toList.mpr own)) _ _).withActualTime read
  | removeOperation id =>
    exact refresh { valid with
      operations := fun p member => valid.operations p (List.mem_of_mem_eraseP member) }
  | setProgress read =>
    exact valid.changeOperation fun p member => (valid.operations p member).progressed read
  | recalculate => exact refresh valid

theorem leftover {e : Edit} (used : ∀ t ∈ e.templates, t.Valid) : (e.leftover c).Valid := by
  cases e with
  | updateOperation id template parameters equipment actualTime =>
    apply valid.changeOperation
    intro p member
    exact (valid.operations p member).updated (fun t own => used t (Option.mem_toList.mpr own)) _ _
  | _ => exact valid

theorem applied {e : Edit} (used : ∀ t ∈ e.templates, t.Valid) : (e.apply c).1.Valid := by
  cases outcome : (e.apply c).2 with
  | ok r => exact valid.changed used (changed_of_apply (Prod.ext rfl outcome))
  | error f =>
    have left : (e.apply c).1 = e.leftover c := leftover_of_refused (Prod.ext rfl outcome)
    exact left ▸ valid.leftover used

theorem progressed {i : Nat} {p : Operation} {d : Datum} {status : Progress}
    (found : c.operations[i]? = some p) (read : Choice.read d = .ok status) : { c with operations := c.operations.set i { p with status } }.Valid := by
  refine { valid with operations := ?_ }
  intro q member
  rcases List.mem_or_eq_of_mem_set member with kept | rfl
  · exact valid.operations q kept
  · exact (valid.operations p (List.mem_of_getElem? found)).progressed read

end Valid
end Component
end Joinery
