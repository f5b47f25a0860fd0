import Joinery.Product
import Joinery.Proofs.Outcome

/-!
What constructors leave behind. Each of them reads the labels, measures and counts that it is given and
keeps the rest as it is, and there is nothing else to know of what it made.
-/
namespace Joinery

theorem RateTable.parts_of_make {materials equipment : Keyed Datum}
    {materialFallback equipmentFallback : Numeral} {t : RateTable}
    (made : make materials equipment materialFallback equipmentFallback = .ok t) :
    ∃ prices rates, Rates.readTable "material" materials = .ok prices ∧
      Rates.readTable "equipment" equipment = .ok rates ∧
      t = { materials := prices, equipment := rates, materialFallback, equipmentFallback } := by
  obtain ⟨prices, readPrices, rest⟩ := bind_ok.mp made
  obtain ⟨rates, readRates, same⟩ := bind_ok.mp rest
  exact ⟨prices, rates, readPrices, readRates, (Except.ok.inj same).symm⟩

theorem RateTable.made_of_override {materials equipment : Keyed Datum} {t changed : RateTable}
    (overridden : t.override materials equipment = .ok changed) :
    ∃ prices rates,
      make prices rates t.materialFallback t.equipmentFallback = .ok changed := by
  obtain ⟨_, -, rest⟩ := bind_ok.mp overridden
  obtain ⟨_, -, made⟩ := bind_ok.mp rest
  exact ⟨_, _, made⟩

theorem EstimateParameters.parts_of_make {hourly overhead : Numeral} {p : EstimateParameters}
    (made : make hourly overhead = .ok p) :
    checkRate "hourly_rate" hourly = .ok () ∧ checkRate "overhead_rate" overhead = .ok () ∧
      p = { hourlyRate := hourly, overheadRate := overhead } := by
  obtain ⟨_, first, rest⟩ := bind_ok.mp made
  obtain ⟨_, second, same⟩ := bind_ok.mp rest
  exact ⟨first, second, (Except.ok.inj same).symm⟩

theorem Variable.parts_of_make {name unit description : String} {kind : Datum}
    {fallback least most : Option Numeral} {v : Variable}
    (made : make name kind unit description fallback least most = .ok v) :
    ∃ label, Choice.read kind = .ok label ∧ ordered? name least most = .ok () ∧
      v = { name, kind := label, unit, description, fallback, least, most } := by
  obtain ⟨label, read, rest⟩ := bind_ok.mp made
  obtain ⟨_, ordered, same⟩ := bind_ok.mp rest
  exact ⟨label, read, ordered, (Except.ok.inj same).symm⟩

theorem Template.parts_of_make {draft : TemplateDraft} {t : Template} (made : make draft = .ok t) :
    Text.trim draft.code ≠ "" ∧ ∃ category strategy tools stock equipment materials,
      Choice.read draft.category = .ok category ∧ Choice.read draft.strategy = .ok strategy ∧
      distinctNames tools = .ok equipment ∧ distinctNames stock = .ok materials ∧ t =
      { id := draft.id
        code := draft.code
        name := draft.name
        category
        logic := draft.logic
        strategy
        efficiency := draft.efficiency
        equipment
        materials
        isActive := draft.isActive
        description := draft.description
        createdAt := draft.createdAt
        updatedAt := draft.updatedAt } := by
  obtain ⟨category, readCategory, rest⟩ := bind_ok.mp made
  obtain ⟨strategy, readStrategy, rest⟩ := bind_ok.mp rest
  obtain ⟨tools, -, rest⟩ := bind_ok.mp rest
  obtain ⟨equipment, readEquipment, rest⟩ := bind_ok.mp rest
  obtain ⟨stock, -, rest⟩ := bind_ok.mp rest
  obtain ⟨materials, readMaterials, rest⟩ := bind_ok.mp rest
  by_cases code : Text.trim draft.code = ""
  · simp [code, bind, Except.bind] at rest
  · simp only [code, ↓reduceIte] at rest
    exact ⟨code, category, strategy, tools, stock, equipment, materials, readCategory, readStrategy,
      readEquipment, readMaterials, (Except.ok.inj rest).symm⟩

theorem Size.parts_of_make {length width thickness : Datum} {s : Size}
    (made : make length width thickness = .ok s) :
    length.nonNegative "length" = .ok s.length ∧ width.nonNegative "width" = .ok s.width ∧
      thickness.nonNegative "thickness" = .ok s.thickness := by
  obtain ⟨_, readLength, rest⟩ := bind_ok.mp made
  obtain ⟨_, readWidth, rest⟩ := bind_ok.mp rest
  obtain ⟨_, readThickness, same⟩ := bind_ok.mp rest
  obtain rfl := Except.ok.inj same
  exact ⟨readLength, readWidth, readThickness⟩

theorem Feature.parts_of_make {id name description : String} {type count size position : Datum}
    {f : Feature} (made : make id type count size position name description = .ok f) :
    ∃ label n measure, Choice.read type = .ok label ∧ readCount count = .ok n ∧
      readSize "feature size" size = .ok measure ∧
      f = { id, type := label, count := n, size := measure, position, name, description } := by
  obtain ⟨label, readLabel, rest⟩ := bind_ok.mp made
  obtain ⟨n, counted, rest⟩ := bind_ok.mp rest
  obtain ⟨measure, measured, same⟩ := bind_ok.mp rest
  exact ⟨label, n, measure, readLabel, counted, measured, (Except.ok.inj same).symm⟩

theorem Operation.parts_of_make {id notes : String} {template : Template}
    {actualTime status equipment : Datum} {parameters : List Parameter} {p : Operation}
    (made : make id template actualTime status notes parameters equipment = .ok p) :
    ∃ label time, Choice.read status = .ok label ∧ readActualTime actualTime = .ok time ∧
      p = { id, template, minutes := 0, actualTime := time, status := label, notes, parameters,
            equipment, diagnostic := none } := by
  obtain ⟨label, readLabel, rest⟩ := bind_ok.mp made
  obtain ⟨time, timed, same⟩ := bind_ok.mp rest
  exact ⟨label, time, readLabel, timed, (Except.ok.inj same).symm⟩

theorem Component.parts_of_make {draft : ComponentDraft} {c : Component}
    (made : make draft = .ok c) :
    ∃ quantity edgeCount complexity, readQuantity draft.quantity = .ok quantity ∧
      readEdgeCount draft.edgeCount = .ok edgeCount ∧
      Choice.read draft.complexity = .ok complexity ∧
      c = refresh {
        id := draft.id
        name := draft.name
        size := draft.size
        material := draft.material
        quantity
        complexity
        features := draft.features
        operations := draft.operations
        code := draft.code
        edgeCount
        notes := draft.notes } := by
  obtain ⟨quantity, readQuantity, rest⟩ := bind_ok.mp made
  obtain ⟨edgeCount, readEdgeCount, rest⟩ := bind_ok.mp rest
  obtain ⟨complexity, readLabel, same⟩ := bind_ok.mp rest
  exact ⟨quantity, edgeCount, complexity, readQuantity, readEdgeCount, readLabel,
    (Except.ok.inj same).symm⟩

theorem Placement.parts_of_make {c : Component} {quantity position order : Datum} {entry : Placement}
    (made : make c quantity position order = .ok entry) :
    ∃ n m, Component.readQuantity quantity = .ok n ∧ order.count 0 "assembly_order" = .ok m ∧
      entry = { component := c, quantity := n, position, order := m } := by
  obtain ⟨n, readQuantity, rest⟩ := bind_ok.mp made
  obtain ⟨m, readOrder, same⟩ := bind_ok.mp rest
  exact ⟨n, m, readQuantity, readOrder, (Except.ok.inj same).symm⟩

theorem AssemblyStep.parts_of_make {id name description notes : String} {componentIds : List String}
    {estimatedTime status : Datum} {s : AssemblyStep}
    (made : make id name description componentIds estimatedTime status notes = .ok s) :
    ∃ time label, estimatedTime.nonNegative "estimated_time" = .ok time ∧
      Choice.read status = .ok label ∧
      s = { id, name, description, componentIds, estimatedTime := time, status := label, notes } := by
  obtain ⟨time, timed, rest⟩ := bind_ok.mp made
  obtain ⟨label, readLabel, same⟩ := bind_ok.mp rest
  exact ⟨time, label, timed, readLabel, (Except.ok.inj same).symm⟩

end Joinery
