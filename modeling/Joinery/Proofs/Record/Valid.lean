import Joinery.Proofs.Keyed
import Joinery.Proofs.Product.Valid
import Joinery.Proofs.Record.Reading
import Joinery.Proofs.Settings.Defaults
import Joinery.Record.Product

/-!
Records are read into valid pieces, whatever is in them: each reader ends with the constructor of what
it reads. The library of templates that is handed from operation to operation holds valid templates
only, if those that it starts with are valid.
-/
namespace Joinery

theorem Efficiency.made_of_read {d : Datum} {e : Efficiency} (read : ofRecord d = .ok e) : e.Made := by
  obtain ⟨r, -, rest⟩ := bind_ok.mp read
  obtain ⟨id, -, rest⟩ := bind_ok.mp rest
  obtain ⟨processName, -, rest⟩ := bind_ok.mp rest
  obtain ⟨_, -, rest⟩ := bind_ok.mp rest
  obtain ⟨baseTime, -, rest⟩ := bind_ok.mp rest
  obtain ⟨_, -, rest⟩ := bind_ok.mp rest
  obtain ⟨sizeFactor, -, rest⟩ := bind_ok.mp rest
  obtain ⟨complexityFactor, -, rest⟩ := bind_ok.mp rest
  obtain ⟨description, -, made⟩ := bind_ok.mp rest
  exact ⟨_, _, _, _, _, _, _, made⟩

namespace Template

def LibraryValid (known : Keyed Template) : Prop :=
  ∀ id t, known.get? id = some t → t.Valid

theorem libraryValid_nil : LibraryValid [] := by
  intro id t found
  cases found

theorem valid_of_newRecord {id : String} {r : Record} {t : Template}
    (read : ofNewRecord id r = .ok t) : t.Valid := by
  obtain ⟨draft, drawn, made⟩ := parts_of_new read
  refine valid_of_make (fun e own => ?_) made
  obtain ⟨d, -, reads⟩ := mapM_option_ok drawn.efficiency own
  exact Efficiency.made_of_read reads

theorem valid_of_record {known after : Keyed Template} {d : Datum} {t : Template}
    (library : LibraryValid known) (read : ofRecord known d = .ok (t, after)) :
    t.Valid ∧ LibraryValid after := by
  obtain ⟨r, name, -, -, ⟨found, rfl⟩ | ⟨-, new, rfl⟩⟩ := parts_of_read read
  · exact ⟨library _ _ found, library⟩
  · have valid := valid_of_newRecord new
    refine ⟨valid, ?_⟩
    intro id v found
    rw [Keyed.get?_set] at found
    split at found
    · obtain rfl := Option.some.inj found
      exact valid
    · exact library id v found

end Template

theorem Size.valid_of_record {d : Datum} {s : Size} (read : ofRecord d = .ok s) : s.Valid := by
  obtain ⟨_, _, _, made⟩ := parts_of_read read
  exact valid_of_make made

theorem Feature.valid_of_record {d : Datum} {f : Feature} (read : ofRecord d = .ok f) : f.Valid := by
  obtain ⟨_, _, _, _, _, -, made⟩ := parts_of_read read
  exact valid_of_make made

theorem AssemblyStep.valid_of_record {d : Datum} {s : AssemblyStep} (read : ofRecord d = .ok s) :
    s.Valid := by
  obtain ⟨_, _, _, _, _, _, _, made⟩ := parts_of_read read
  exact valid_of_make made

namespace Operation

theorem valid_of_record {known after : Keyed Template} {d : Datum} {p : Operation}
    (library : Template.LibraryValid known) (read : ofRecord known d = .ok (p, after)) :
    p.Valid ∧ Template.LibraryValid after := by
  obtain ⟨r, _, _, _, _, _, _, -, -, readTemplate, -, -, made⟩ := parts_of_read read
  obtain ⟨valid, kept⟩ := Template.valid_of_record library readTemplate
  exact ⟨valid_of_make valid made, kept⟩

end Operation

theorem Component.valid_of_record {known after : Keyed Template} {d : Datum} {c : Component}
    (library : Template.LibraryValid known) (read : ofRecord known d = .ok (c, after)) :
    c.Valid ∧ Template.LibraryValid after := by
  obtain ⟨r, draft, -, drawn, made⟩ := parts_of_read read
  obtain ⟨-, ⟨_, -, readSize⟩, ⟨_, -, readFeatures⟩, ⟨_, -, readOperations⟩⟩ := drawn
  obtain ⟨eachOperation, kept⟩ := readEach_keeps Operation.valid_of_record library readOperations
  have eachFeature : ∀ f ∈ draft.features, f.Valid := by
    intro f member
    obtain ⟨inner, -, read⟩ := mapM_result readFeatures f member
    exact Feature.valid_of_record read
  exact ⟨valid_of_make (Size.valid_of_record readSize) eachFeature eachOperation made, kept⟩

namespace Placement

theorem valid_of_record {known after : Keyed Template} {d : Datum} {p : Placement}
    (library : Template.LibraryValid known) (read : ofRecord known d = .ok (p, after)) :
    p.Valid ∧ Template.LibraryValid after := by
  obtain ⟨_, _, c, -, -, readComponent, made⟩ := parts_of_read read
  obtain ⟨valid, kept⟩ := Component.valid_of_record library readComponent
  exact ⟨valid_of_make valid made, kept⟩

end Placement

theorem Product.valid_of_record {defaults : Defaults} {d : Datum} {p : Product}
    (read : ofRecord defaults d = .ok p) : p.Valid := by
  obtain ⟨r, draft, -, drawn, made⟩ := parts_of_read read
  obtain ⟨⟨_, _, -, readPlacements⟩, ⟨_, -, readSteps⟩, -, -⟩ := drawn
  obtain ⟨eachPlacement, -⟩ :=
    readEach_keeps Placement.valid_of_record Template.libraryValid_nil readPlacements
  refine valid_of_make eachPlacement ?_ made
  intro s member
  obtain ⟨inner, -, read⟩ := mapM_result readSteps s member
  exact AssemblyStep.valid_of_record read

end Joinery
