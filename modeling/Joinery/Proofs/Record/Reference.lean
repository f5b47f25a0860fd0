import Joinery.Catalog.Standard
import Joinery.Proofs.Catalog.Double
import Joinery.Proofs.Component.WellMade
import Joinery.Proofs.Keyed
import Joinery.Proofs.Record.Field

/-!
Records of the reference data read back. Texts and labels come back as they were, numbers as doubles
and dates settled.
-/
namespace Joinery

theorem Datum.amount?_orNull {n : Option Numeral} (doubles : ∀ k ∈ n, k.HasDouble) :
    (Datum.orNull Datum.number n).amount? = .ok (n.map Numeral.asDouble) := by
  cases n with
  | none => rfl
  | some k =>
    obtain ⟨x, read⟩ := doubles k rfl
    simp only [orNull, amount?, toFloat, read, Except.map, Option.map_some,
      Numeral.asDouble_of_read read]

theorem Variable.make_again {v : Variable} (made : v.Made) (doubles : v.HasDoubles) :
    Variable.make v.name (.ofChoice v.kind) v.unit v.description (v.fallback.map Numeral.asDouble)
      (v.least.map Numeral.asDouble) (v.most.map Numeral.asDouble) = .ok v.asDoubles := by
  obtain ⟨name, kind, unit, description, fallback, least, most, made⟩ := made
  obtain ⟨k, -, ordered, rfl⟩ := parts_of_make made
  have again := ordered?_asDouble doubles.least doubles.most ordered
  simp only [Variable.make, read_ofChoice, again, bind, Except.bind]
  rfl

theorem Variable.ofRecord_record {v : Variable} (made : v.Made) (doubles : v.HasDoubles) :
    Variable.ofRecord v.record = .ok v.asDoubles := by
  have again := Variable.make_again made doubles
  simpa [Variable.ofRecord, Variable.record, Datum.amount?_orNull doubles.fallback,
    Datum.amount?_orNull doubles.least, Datum.amount?_orNull doubles.most, bind, Except.bind,
    Datum.asText] using again

theorem Logic.ofRecord_record {l : Logic} (made : l.Made) (doubles : l.HasDoubles) :
    Logic.ofRecord l.record = .ok l.asDoubles := by
  have used : (l.used.map Variable.record).mapM Variable.ofRecord =
      .ok (l.used.map Variable.asDoubles) :=
    mapM_map_read fun v member => Variable.ofRecord_record (made v member) (doubles.used v member)
  simp [Logic.ofRecord, Logic.record, used, bind, Except.bind, pure, Except.pure, Datum.asText]
  rfl

theorem Efficiency.ofRecord_record {e : Efficiency} (doubles : e.HasDoubles) :
    Efficiency.ofRecord e.record = .ok e.asDoubles := by
  obtain ⟨b, base⟩ := doubles.baseTime
  obtain ⟨s, size⟩ := doubles.sizeFactor
  obtain ⟨c, complexity⟩ := doubles.complexityFactor
  simp [Efficiency.ofRecord, Efficiency.record, Datum.toFloat, base, size, complexity,
    Efficiency.make, read_ofChoice, bind, Except.bind, pure, Except.pure, Datum.asText,
    Efficiency.asDoubles, Numeral.asDouble_of_read base, Numeral.asDouble_of_read size,
    Numeral.asDouble_of_read complexity]

/-- A template whose code and names would be read as they are is made again from its draft. -/
theorem Template.make_of_names {t : Template} (code : Text.trim t.code ≠ "")
    (equipment : distinctNames (t.equipment.map .text) = .ok t.equipment)
    (materials : distinctNames (t.materials.map .text) = .ok t.materials) (logic : Option Logic)
    (efficiency : Option Efficiency) (createdAt updatedAt : Moment) :
    Template.make { t.draft with logic, efficiency, createdAt, updatedAt } =
      .ok { t with logic, efficiency, createdAt, updatedAt } := by
  have category : Choice.read (.text (Choice.label t.category)) = .ok t.category :=
    read_ofChoice t.category
  have strategy : Choice.read (.text (Choice.label t.strategy)) = .ok t.strategy :=
    read_ofChoice t.strategy
  simp only [Template.make, Template.draft, category, strategy, Datum.elements, code, equipment,
    materials, bind, Except.bind, ↓reduceIte]
  rfl

theorem Template.make_again {t : Template} (made : t.WellMade) (logic : Option Logic)
    (efficiency : Option Efficiency) (createdAt updatedAt : Moment) :
    Template.make { t.draft with logic, efficiency, createdAt, updatedAt } =
      .ok { t with logic, efficiency, createdAt, updatedAt } :=
  make_of_names made.code made.equipment made.materials logic efficiency createdAt updatedAt

theorem Standard.template_made {t : Template} (standard : t ∈ templates) :
    Template.make t.draft = .ok t := by
  have checked : ∀ t ∈ templates, Text.trim t.code ≠ "" ∧
      (distinctNames (t.equipment.map .text)).toOption = some t.equipment ∧
      (distinctNames (t.materials.map .text)).toOption = some t.materials := by decide +kernel
  obtain ⟨code, equipment, materials⟩ := checked t standard
  rw [Outcome.toOption_eq_some] at equipment materials
  exact Template.make_of_names code equipment materials t.logic t.efficiency t.createdAt t.updatedAt

theorem Template.ofNewRecord_record {t : Template} (made : t.WellMade) (doubles : t.HasDoubles)
    {fields : Record} (written : t.record = .object fields) :
    Template.ofNewRecord t.id fields = .ok t.readBack := by
  obtain rfl := Datum.object.inj written.symm
  have logic : Option.mapM Logic.ofRecord (Datum.orNull Logic.record t.logic).part? =
      .ok (t.logic.map Logic.asDoubles) :=
    Datum.part_read (fun _ => rfl) fun l own =>
      Logic.ofRecord_record (made.logic l own) (doubles.logic l own)
  have efficiency :
      Option.mapM Efficiency.ofRecord (Datum.orNull Efficiency.record t.efficiency).part? =
        .ok (t.efficiency.map Efficiency.asDoubles) :=
    Datum.part_read (fun _ => rfl) fun e own =>
      Efficiency.ofRecord_record (doubles.efficiency e own)
  have createdAt := Moment.record_read made.createdAt "createdAt"
  have updatedAt := Moment.record_read made.updatedAt "updatedAt"
  simp only [Template.ofNewRecord, Record.need, Record.items_eq, Record.part?_eq, Record.text,
    Record.value, Record.valueOr, List.lookup, String.reduceBEq, Option.getD, Datum.items_texts,
    givenText_text, logic, efficiency, createdAt, updatedAt, bind, Except.bind]
  exact Template.make_again made _ _ t.createdAt.settle t.updatedAt.settle

/-! Of the templates with one id a reader knows the first. -/

def Template.firstIn (all : List Template) (t : Template) : Template :=
  (all.find? fun u => u.id == t.id).getD t

theorem Template.firstIn_initial {before all : List Template} {t : Template}
    (start : before ++ [t] <+: all) : t.firstIn all = t.firstIn (before ++ [t]) := by
  obtain ⟨after, rfl⟩ := start
  unfold firstIn
  rw [List.find?_append]
  cases found : (before ++ [t]).find? fun u => u.id == t.id with
  | some u => rw [Option.some_or]
  | none => simp at found

/-- What is known once the records of some templates are read. -/
def Remembers (known : Keyed Template) (before : List Template) : Prop :=
  ∀ id, known.get? id = (before.find? fun t => t.id == id).map Template.readBack

theorem remembers_nothing : Remembers [] [] := fun _ => rfl

/-- Only the first template of an id is read, and so only its numbers have to have doubles. -/
theorem Template.ofRecord_record {known : Keyed Template} {before : List Template} {t : Template}
    (remembers : Remembers known before) (made : t.WellMade)
    (doubles : (t.firstIn (before ++ [t])).HasDoubles) :
    ∃ after, Template.ofRecord known t.record = .ok ((t.firstIn (before ++ [t])).readBack, after) ∧
      Remembers after (before ++ [t]) := by
  have own := remembers t.id
  cases earlier : before.find? fun u => u.id == t.id with
  | some u =>
    rw [earlier] at own
    have first : t.firstIn (before ++ [t]) = u := by simp [firstIn, List.find?_append, earlier]
    refine ⟨known, ?_, ?_⟩
    · rw [first]
      simp [Template.ofRecord, Template.record, Datum.asText, own, bind, Except.bind, pure,
        Except.pure]
    · intro id
      rw [remembers id, List.find?_append]
      by_cases same : t.id = id
      · rw [← same, earlier, Option.some_or]
      · simp [same]
  | none =>
    rw [earlier] at own
    have first : t.firstIn (before ++ [t]) = t := by simp [firstIn, List.find?_append, earlier]
    rw [first] at doubles
    refine ⟨known.set t.id t.readBack, ?_, ?_⟩
    · rw [first]
      simp [Template.ofRecord, Template.record, Datum.asText, own, bind, Except.bind, pure,
        Except.pure, Template.ofNewRecord_record made doubles rfl]
    · intro id
      rw [Keyed.get?_set, remembers id, List.find?_append]
      by_cases same : id = t.id
      · simp [same, earlier]
      · simp [same, Ne.symm same]

end Joinery
