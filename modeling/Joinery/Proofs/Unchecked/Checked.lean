import Joinery.Proofs.Record.Field
import Joinery.Unchecked

/-!
States of components and products past all checks. A calculation times the operations of one component
after those of another, so that an operation has the time of the last component that holds it, and a second
calculation finds nothing to do. Among the states are those of checked components and products, where every
label is one of its field, every count is in range and no operation is on two components. There the times,
the totals and the end of an edit are those of components and products that can only be changed through
checks.
-/
namespace Joinery

namespace Unchecked
variable {ρ : Type}

namespace Operation

def untimed (p : Operation) : Operation := { p with minutes := 0, diagnostic := none }

def timedBy (holder : Option (Component Nat)) (p : Operation) : Operation :=
  holder.elim p fun c => p.timed c.subject

theorem timed_timed (s t : Subject) (p : Operation) : (p.timed s).timed t = p.timed t := rfl

theorem timedBy_timedBy (holder : Option (Component Nat)) (p : Operation) :
    (p.timedBy holder).timedBy holder = p.timedBy holder := by
  cases holder <;> rfl

end Operation

/-! One calculation, place by place. -/

def lastHolder? (components : List (Component Nat)) (place : Nat) : Option (Component Nat) :=
  components.reverse.find? fun c => place ∈ c.operations

theorem lastHolder?_append (components : List (Component Nat)) (c : Component Nat) (place : Nat) :
    lastHolder? (components ++ [c]) place =
      if place ∈ c.operations then some c else lastHolder? components place := by
  rw [lastHolder?, List.reverse_append, List.reverse_singleton, List.singleton_append, List.find?_cons,
    lastHolder?]
  by_cases held : place ∈ c.operations <;> simp [held]

theorem lastHolder?_some {components : List (Component Nat)} {place : Nat} {c : Component Nat}
    (last : lastHolder? components place = some c) : c ∈ components ∧ place ∈ c.operations := by
  obtain ⟨held, before, after, same, -⟩ := List.find?_eq_some_iff_append.mp last
  have member : c ∈ components.reverse := by simp [same]
  exact ⟨List.mem_reverse.mp member, by simpa using held⟩

theorem lastHolder?_of_held {components : List (Component Nat)} {place : Nat} {c : Component Nat}
    (member : c ∈ components) (held : place ∈ c.operations) :
    ∃ holder, lastHolder? components place = some holder := by
  have found : (lastHolder? components place).isSome :=
    List.find?_isSome.mpr ⟨c, List.mem_reverse.mpr member, by simpa using held⟩
  exact Option.isSome_iff_exists.mp found

theorem getElem?_timeEach (s : Subject) (places : List Nat) (store : Store) (place : Nat) :
    (places.foldl (fun store place => store.modify place (Operation.timed s)) store)[place]? =
      if place ∈ places then store[place]?.map (Operation.timed s) else store[place]? := by
  induction places generalizing store with
  | nil => rfl
  | cons first rest ih =>
    have twice : Operation.timed s ∘ Operation.timed s = Operation.timed s :=
      funext (Operation.timed_timed s s)
    rw [List.foldl_cons, ih, List.getElem?_modify]
    by_cases here : first = place
    · subst here
      by_cases again : first ∈ rest <;> simp [again, twice]
    · simp [here, Ne.symm here]

theorem getElem?_timeAll (components : List (Component Nat)) (store : Store) (place : Nat) :
    (components.foldl (fun store c => c.time store) store)[place]? =
      store[place]?.map (Operation.timedBy (lastHolder? components place)) := by
  -- the last component to hold an operation times it last, so the induction takes them from the end
  induction components using List.reverseRecOn with
  | nil => exact (Option.map_id' ..).symm
  | append_singleton components c ih =>
    rw [List.foldl_append, List.foldl_cons, List.foldl_nil, Component.time, getElem?_timeEach, ih,
      lastHolder?_append]
    by_cases held : place ∈ c.operations
    · rw [if_pos held, if_pos held, Option.map_map]
      congr 1
      funext p
      cases lastHolder? components place <;> rfl
    · rw [if_neg held, if_neg held]

namespace State

theorem getElem?_refresh (s : State) (place : Nat) : s.refresh.store[place]? =
    s.store[place]?.map (Operation.timedBy (lastHolder? s.product.components place)) :=
  getElem?_timeAll ..

theorem refresh_refresh (s : State) : s.refresh.refresh = s.refresh := by
  have same : s.refresh.refresh.store = s.refresh.store := by
    refine List.ext_getElem? fun place => ?_
    rw [getElem?_refresh, getElem?_refresh, Option.map_map]
    exact congrArg (s.store[place]?.map ·) (funext (Operation.timedBy_timedBy _))
  calc s.refresh.refresh = { s.refresh with store := s.refresh.refresh.store } := rfl
    _ = s.refresh := by rw [same]

/-- No other component holds the operation at a place. -/
def Owns (s : State) (c : Component Nat) (place : Nat) : Prop :=
  ∀ other ∈ s.product.components, place ∈ other.operations → other = c

/-- Components own their operations: none is on two of them. -/
def Apart (s : State) : Prop :=
  ∀ c ∈ s.product.components, ∀ place ∈ c.operations, s.Owns c place

theorem Owns.last {s : State} {c : Component Nat} {place : Nat} (own : s.Owns c place)
    (member : c ∈ s.product.components) (held : place ∈ c.operations) :
    lastHolder? s.product.components place = some c := by
  obtain ⟨holder, last⟩ := lastHolder?_of_held member held
  obtain ⟨among, shared⟩ := lastHolder?_some last
  obtain rfl := own holder among shared
  exact last

end State

/-! The same calculation where components own their operations. -/

def Component.timed (c : Component Operation) : Component Operation :=
  { c with operations := c.operations.map (Operation.timed c.subject) }

def Placement.timed (p : Placement Operation) : Placement Operation :=
  { p with component := p.component.timed }

def Product.timed (p : Product Operation) : Product Operation :=
  { p with placements := p.placements.map Placement.timed }

theorem Component.seen_refresh {s : State} (apart : s.Apart) {c : Component Nat}
    (member : c ∈ s.product.components) : c.seen s.refresh.store = (c.seen s.store).timed := by
  have each : c.operations.filterMap (fun place => s.refresh.store[place]?) =
      (c.operations.filterMap fun place => s.store[place]?).map (Operation.timed c.subject) := by
    rw [List.map_filterMap]
    refine List.filterMap_congr fun place held => ?_
    rw [State.getElem?_refresh, (apart c member place held).last member held]
    rfl
  rw [seen, each]
  rfl

theorem State.seen_refresh {s : State} (apart : s.Apart) : s.refresh.seen = s.seen.timed := by
  have each : s.product.placements.map (Placement.seen s.refresh.store) =
      (s.product.placements.map (Placement.seen s.store)).map Placement.timed := by
    rw [List.map_map]
    refine List.map_congr_left fun entry placed => ?_
    have member : entry.component ∈ s.product.components := List.mem_map_of_mem placed
    rw [Placement.seen, Component.seen_refresh apart member]
    rfl
  have same : s.refresh.product = s.product := rfl
  rw [seen, same, each]
  rfl

theorem State.placement?_seen (s : State) (id : String) :
    s.seen.placement? id = (s.product.placement? id).map (Placement.seen s.store) := by
  have found : s.seen.placements.find? (Placement.holds id) =
      (s.product.placements.find? (Placement.holds id)).map (Placement.seen s.store) := List.find?_map ..
  rw [Product.placement?, found, Product.placement?]
  cases s.product.placements.find? (Placement.holds id) with
  | none => rfl
  | some entry => rfl

end Unchecked

/-! Checked states among all others. -/

def Feature.unchecked (f : Feature) : Unchecked.Feature where
  id := f.id
  type := Choice.label f.type
  count := f.count
  size := f.size
  position := f.position
  name := f.name
  description := f.description

def Operation.unchecked (p : Operation) : Unchecked.Operation where
  id := p.id
  template := p.template
  minutes := p.minutes
  actualTime := p.actualTime
  status := Choice.label p.status
  notes := p.notes
  parameters := p.parameters
  equipment := p.equipment
  diagnostic := p.diagnostic

def Component.unchecked (c : Component) : Unchecked.Component Unchecked.Operation where
  id := c.id
  name := c.name
  size := c.size
  material := c.material
  quantity := c.quantity
  complexity := Choice.label c.complexity
  features := c.features.map Feature.unchecked
  operations := c.operations.map Operation.unchecked
  code := c.code
  edgeCount := c.edgeCount
  notes := c.notes

def Placement.unchecked (p : Placement) : Unchecked.Placement Unchecked.Operation where
  component := p.component.unchecked
  quantity := p.quantity
  position := p.position
  order := p.order

def AssemblyStep.unchecked (s : AssemblyStep) : Unchecked.AssemblyStep where
  id := s.id
  name := s.name
  description := s.description
  componentIds := s.componentIds
  estimatedTime := s.estimatedTime
  status := Choice.label s.status
  notes := s.notes

def Product.unchecked (p : Product) : Unchecked.Product Unchecked.Operation where
  id := p.id
  name := p.name
  code := p.code
  description := p.description
  placements := p.placements.map Placement.unchecked
  steps := p.steps.map AssemblyStep.unchecked
  status := Choice.label p.status
  createdAt := p.createdAt
  updatedAt := p.updatedAt
  rates := p.rates
  params := p.params

namespace Feature

theorem knownType?_unchecked (f : Feature) : f.unchecked.knownType? = some f.type :=
  LawfulChoice.found f.type

theorem weight_unchecked (f : Feature) : f.unchecked.weight = weight f.type := by
  rw [Unchecked.Feature.weight, knownType?_unchecked]
  rfl

theorem countOf_unchecked (type : FeatureType) (features : List Feature) :
    Unchecked.Feature.countOf type (features.map unchecked) = countOf type features := by
  induction features with
  | nil => rfl
  | cons f rest ih =>
    simp only [Unchecked.Feature.countOf, countOf] at ih
    by_cases same : f.type = type
    · simp [Unchecked.Feature.countOf, countOf, knownType?_unchecked, same, ih]
      rfl
    · simp [Unchecked.Feature.countOf, countOf, knownType?_unchecked, same, ih]

theorem factor_unchecked (features : List Feature) :
    Unchecked.Feature.factor (features.map unchecked) = factor features := by
  have shares : (features.map unchecked).mapM Unchecked.Feature.share = features.mapM share := by
    refine mapM_map_congr fun f _ => ?_
    rw [Unchecked.Feature.share, weight_unchecked]
    rfl
  rw [Unchecked.Feature.factor, shares]
  rfl

end Feature

theorem complexityFactor_label (c : Complexity) :
    complexityFactor (.text (Choice.label c)) = .ok c.factor := by
  have plain : ∀ letter ∈ (Choice.label c).toList, letter ∈ labelChars := fun letter member =>
    List.contains_iff_mem.mp (List.all_eq_true.mp (LawfulChoice.plain c) letter member)
  have wanted : Text.lower (Text.trim (Choice.label c)) = Choice.label c := by
    rw [LawfulChoice.trimmed, Text.lower, lowerAfter_label [] plain, String.ofList_toList]
  simp only [complexityFactor, Datum.asText, ok_bind, wanted, LawfulChoice.found]
  rfl

namespace Component

/-- The rules of durations see no difference between a checked component and any other. -/
theorem subject_unchecked (c : Component) : c.unchecked.subject = c.subject := by
  have counts : (fun type => Unchecked.Feature.countOf type (c.features.map Feature.unchecked)) =
      fun type => (Feature.countOf type c.features : Int) :=
    funext fun type => Feature.countOf_unchecked type c.features
  simp only [Unchecked.Component.subject, subject, unchecked, counts, complexityFactor_label,
    Feature.factor_unchecked]

theorem timed_unchecked (c : Component) : c.unchecked.timed = c.refresh.unchecked := by
  have each : c.unchecked.operations.map (Unchecked.Operation.timed c.unchecked.subject) =
      (c.operations.map (Operation.timed c)).map Operation.unchecked := by
    rw [subject_unchecked, unchecked, List.map_map, List.map_map]
    rfl
  rw [Unchecked.Component.timed, each]
  rfl

theorem totals_unchecked (rates : RateTable) (c : Component) :
    c.unchecked.totals rates = Estimate.componentTotals rates c := by
  have operations : c.unchecked.operations = c.operations.map Operation.unchecked := rfl
  have minutes (p : Operation) : c.unchecked.minutes p.unchecked = Estimate.minutes c p := by
    rw [Unchecked.Component.minutes, subject_unchecked]
    rfl
  have costs : c.unchecked.operations.mapM (c.unchecked.processCost rates) =
      c.operations.mapM (Estimate.processCost rates c) := by
    rw [operations]
    refine mapM_map_congr fun p _ => ?_
    rw [Unchecked.Component.processCost, minutes]
    rfl
  have times : c.unchecked.operations.map c.unchecked.minutes = c.operations.map (Estimate.minutes c) := by
    rw [operations, List.map_map]
    exact List.map_congr_left fun p _ => minutes p
  rw [Unchecked.Component.totals, costs, times]
  rfl

end Component

namespace Product

theorem timed_unchecked (p : Product) : p.unchecked.timed = p.refresh.unchecked := by
  have each : (p.placements.map Placement.unchecked).map Unchecked.Placement.timed =
      (p.placements.map Placement.refresh).map Placement.unchecked := by
    rw [List.map_map, List.map_map]
    refine List.map_congr_left fun entry _ => ?_
    simp only [Function.comp, Unchecked.Placement.timed, Placement.refresh, Placement.unchecked,
      Component.timed_unchecked]
  rw [Unchecked.Product.timed, unchecked, each]
  rfl

theorem totals_unchecked (defaults : Defaults) (p : Product) :
    p.unchecked.totals defaults = p.totals defaults := by
  have components : p.unchecked.components = p.components.map Component.unchecked := by
    rw [Unchecked.Product.components, unchecked, Product.components, List.map_map, List.map_map]
    rfl
  have parts (rates : RateTable) : p.unchecked.components.mapM (Unchecked.Component.totals rates) =
      p.components.mapM (Estimate.componentTotals rates) := by
    rw [components]
    exact mapM_map_congr fun c _ => Component.totals_unchecked rates c
  simp only [Unchecked.Product.totals, parts]
  rfl

theorem placement?_unchecked (p : Product) (id : String) :
    p.unchecked.placement? id = (p.placement? id).map Placement.unchecked := by
  have found : p.unchecked.placements.find? (Unchecked.Placement.holds id) =
      (p.placements.find? (Placement.holds id)).map Placement.unchecked := List.find?_map ..
  rw [Unchecked.Product.placement?, found, placement?]
  cases p.placements.find? (Placement.holds id) with
  | none => rfl
  | some entry => rfl

end Product
end Joinery
