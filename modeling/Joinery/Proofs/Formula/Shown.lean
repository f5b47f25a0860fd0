import Joinery.Proofs.Formula.Replace
import Joinery.Proofs.Keyed

/-!
Formulas with values written into them. The names of a formula without issues are replaced one after the
other, and the outcome is the same as if every token were looked up at once: what is written for one
name holds no other name, and the order of the names does not matter.
-/
namespace Joinery.Formula
open Number Text

/-! Runs of a formula without issues. -/

/-- Two tokens that may follow each other: not two operands. -/
def Apart (s t : Token) : Prop := ∀ a b, ¬ (s = .operand a ∧ t = .operand b)

theorem apart_of_issuesFrom {known : Option (List String)} {expects : Bool} {place : Nat}
    {ts : List Token} (clean : issuesFrom known expects place ts = []) :
    ts.IsChain Apart ∧ (expects = false → ∀ text, ts.head? ≠ some (.operand text)) := by
  induction ts generalizing expects place with
  | nil =>
    refine ⟨.nil, ?_⟩
    intro _ text head
    cases head
  | cons t ts ih =>
    cases t with
    | operand text =>
      simp only [issuesFrom, List.append_eq_nil_iff] at clean
      obtain ⟨⟨-, first⟩, rest⟩ := clean
      obtain ⟨later, next⟩ := ih rest
      refine ⟨List.isChain_cons.mpr ⟨?_, later⟩, ?_⟩
      · rintro t member a b ⟨-, rfl⟩
        exact next rfl b member
      · rintro rfl
        cases first
    | opening | closing | operator _ =>
      simp only [issuesFrom, List.append_eq_nil_iff] at clean
      refine ⟨List.isChain_cons.mpr ⟨?_, (ih clean.2).1⟩, ?_⟩
      · rintro t - a b ⟨same, -⟩
        cases same
      · intro _ text head
        cases head

/-- A run that is an operand of a formula without issues. -/
structure IsOperand (run : List Char) : Prop where
  word : IsWord isOperandChar run
  form : IsNumeral run ∨ IsIdentifier run

/-- Runs as a formula without issues has them: operands that are apart from each other, also where only
blanks are between them, and single characters. -/
structure Spaced (rs : List (List Char)) : Prop where
  kinds : ∀ r ∈ rs, IsOperand r ∨ ∃ c, r = [c] ∧ isOperandChar c = false
  runs : rs.IsChain fun r s => IsWord isOperandChar r → ∃ c ∈ s, isOperandChar c = false
  tokens : (rs.filterMap Token.ofRun?).IsChain Apart

theorem IsOperand.token {r : List Char} (operand : IsOperand r) :
    Token.ofRun? r = some (.operand (.ofList r)) := ofRun?_word operand.word

theorem Spaced.tail {r : List Char} {rs : List (List Char)} (spaced : Spaced (r :: rs)) : Spaced rs where
  kinds s member := spaced.kinds s (List.mem_cons_of_mem r member)
  runs := spaced.runs.tail
  tokens := by
    have chain := spaced.tokens
    rw [List.filterMap_cons] at chain
    split at chain
    · exact chain
    · exact chain.tail

theorem spaced_of_clean {formula : String} (clean : lint none formula = []) :
    Spaced (runs isOperandChar formula.toList) where
  kinds r member := by
    refine (run_cases member).imp_left fun word => ⟨word, ?_⟩
    have listed : .operand (.ofList r) ∈ tokens formula :=
      List.mem_filterMap.mpr ⟨r, member, ofRun?_word word⟩
    have form := ((lint_nil_iff_expression _ _).mp clean).1.operand listed
    rwa [String.toList_ofList] at form
  runs := runs_apart _
  tokens := (apart_of_issuesFrom ((lint_nil_iff_faultless _ _).mp clean).2).1

theorem Spaced.next {r : List Char} {rs : List (List Char)} (spaced : Spaced (r :: rs))
    (operand : IsOperand r) :
    rs = [] ∨ ∃ c rest, rs = [c] :: rest ∧ isOperandChar c = false ∧
      (c = '\n' → ∀ s ∈ rest.head?, ∃ d, s = [d] ∧ isOperandChar d = false) := by
  cases rs with
  | nil => exact Or.inl rfl
  | cons s rest =>
    refine Or.inr ?_
    obtain ⟨outside, -⟩ := List.isChain_cons_cons.mp spaced.runs
    obtain ⟨c, member, other⟩ := outside operand.word
    rcases spaced.tail.kinds s List.mem_cons_self with word | ⟨d, rfl, single⟩
    · simp [word.word.all c member] at other
    · refine ⟨d, rest, rfl, single, ?_⟩
      rintro rfl s behind
      have listed := List.mem_of_mem_head? behind
      rcases spaced.tail.tail.kinds s listed with second | alone
      · obtain ⟨more, rfl⟩ : ∃ more, rest = s :: more := by
          cases rest with
          | nil => cases behind
          | cons t more =>
            obtain rfl := Option.some.inj behind
            exact ⟨more, rfl⟩
        have chain := spaced.tokens
        have blank : Token.ofRun? ['\n'] = none := by decide
        rw [List.filterMap_cons_some operand.token, List.filterMap_cons_none blank,
          List.filterMap_cons_some second.token] at chain
        exact absurd ⟨rfl, rfl⟩ ((List.isChain_cons_cons.mp chain).1 _ _)
      · exact alone

/-! Names looked up at once. -/

def image (name : List Char) (x : Float) : List Char := name ++ '(' :: ((valueText x).toList ++ [')'])

def shownRun (values : Keyed Float) (run : List Char) : List Char :=
  match values.get? (.ofList run) with
  | some x => image run x
  | none => run

def shownAtOnce (values : Keyed Float) (formula : String) : String :=
  .ofList ((runs isOperandChar formula.toList).flatMap (shownRun values))

def Writable (values : Keyed Float) : Prop :=
  ∀ entry ∈ values, isName entry.1 = true ∧ entry.2.isFinite = true

section
variable {values : Keyed Float} {r : List Char} {rs : List (List Char)}

theorem shownRun_of_none (absent : values.get? (.ofList r) = none) : shownRun values r = r := by
  simp [shownRun, absent]

theorem shownRun_of_some {y : Float} (bound : values.get? (.ofList r) = some y) :
    shownRun values r = image r y := by
  simp [shownRun, bound]

theorem not_startsName_of_not_word {c : Char} (outside : isWordChar c = false) :
    startsName c = false :=
  eq_false_of_ne_true fun letter => by
    simp [word_of_continuesName (continuesName_of_startsName letter)] at outside

theorem shownRun_single (writable : Writable values) {c : Char} (outside : isOperandChar c = false) :
    shownRun values [c] = [c] := by
  refine shownRun_of_none (Option.eq_none_iff_forall_ne_some.mpr fun y bound => ?_)
  obtain ⟨d, ds, same, letter⟩ := starts_of_isName (writable _ (Keyed.mem_of_get? bound)).1
  rw [String.toList_ofList] at same
  obtain ⟨rfl, -⟩ := List.cons.inj same
  have inside := operandChar_of_word (word_of_continuesName (continuesName_of_startsName letter))
  simp [inside] at outside

theorem Spaced.ends (spaced : Spaced (r :: rs)) (operand : IsOperand r) (writable : Writable values) :
    Ends (rs.flatMap (shownRun values)) := by
  rcases spaced.next operand with rfl | ⟨c, rest, rfl, outside, line⟩
  · exact ⟨rfl, nofun⟩
  · rw [List.flatMap_cons, shownRun_single writable outside, List.singleton_append]
    refine ⟨not_word_of_not_operandChar outside, ?_⟩
    intro after same
    obtain ⟨lineEnd, rfl⟩ := List.cons.inj same
    cases rest with
    | nil => rfl
    | cons s more =>
      obtain ⟨d, rfl, single⟩ := line lineEnd s rfl
      rw [List.flatMap_cons, shownRun_single writable single]
      exact not_word_of_not_operandChar single

/-! One name after the other. -/

variable {name : String} {before : Option Char}

theorem replaceWord_image (named : isName name = true) {word : List Char}
    (identifier : IsIdentifier word) (apart : word ≠ name.toList) {y : Float}
    (finite : y.isFinite = true) (text : List Char) (rest : List Char) :
    ∃ last, replaceWord name.toList text 0 before (image word y ++ rest) =
      image word y ++ replaceWord name.toList text 0 last rest := by
  have starts := starts_of_isName named
  have ends : Ends ('(' :: ((valueText y).toList ++ [')']) ++ rest) := by
    refine ⟨by rw [List.cons_append, List.head?_cons, isWordAt_some]; decide +kernel, ?_⟩
    intro after same
    exact absurd (List.cons.inj same).1 (by decide)
  have quiet : Quiet word.getLast? ('(' :: ((valueText y).toList ++ [')'])) :=
    ⟨Or.inl (by decide), quiet_append.mpr ⟨quiet_valueText finite _, Or.inl (by decide), trivial⟩⟩
  exact ⟨_, by rw [image, List.append_assoc, replaceWord_other named identifier apart ends,
    replaceWord_quiet starts quiet, List.append_assoc]⟩

theorem not_startsName_of_numeral {cs : List Char} (numeral : IsNumeral cs) :
    ∀ c ∈ cs, startsName c = false := by
  have digit {c : Char} (is : isDigit c = true) : startsName c = false :=
    eq_false_of_ne_true fun letter => by
      simp [letter_not_digit ((startsName_iff c).mp letter)] at is
  have point : startsName '.' = false := by decide
  cases numeral with
  | whole _ digits => exact fun c member => digit (digits c member)
  | pointed _ digits fraction =>
    exact List.forall_mem_append.mpr ⟨fun c member => digit (digits c member),
      List.forall_mem_cons.mpr ⟨point, fun c member => digit (fraction c member)⟩⟩
  | fraction _ digits => exact List.forall_mem_cons.mpr ⟨point, fun c member => digit (digits c member)⟩

theorem replaceWord_operand (writable : Writable values) (named : isName name = true)
    (fresh : name ∉ values.names) (x : Float) (operand : IsOperand r)
    (outside : isWordAt before = false) {rest : List Char} (ends : Ends rest) :
    ∃ last, replaceWord name.toList (image name.toList x) 0 before (shownRun values r ++ rest) =
      shownRun (values ++ [(name, x)]) r ++
        replaceWord name.toList (image name.toList x) 0 last rest := by
  have starts := starts_of_isName named
  have lookup : Keyed.get? (values ++ [(name, x)]) (.ofList r) =
      (values.get? (.ofList r)).or (if String.ofList r = name then some x else none) := by
    rw [Keyed.get?_append, Keyed.get?_cons]
    rfl
  cases bound : values.get? (.ofList r) with
  | some y =>
    obtain ⟨form, finite⟩ := writable _ (Keyed.mem_of_get? bound)
    have identifier : IsIdentifier r := by
      have own := (isName_iff (by rw [String.toList_ofList]; exact operand.word.all)).mp form
      rwa [String.toList_ofList] at own
    have apart : r ≠ name.toList := by
      rintro rfl
      rw [String.ofList_toList] at bound
      exact fresh (List.mem_map_of_mem (Keyed.mem_of_get? bound))
    have kept : Keyed.get? (values ++ [(name, x)]) (.ofList r) = some y := by rw [lookup, bound]; rfl
    rw [shownRun_of_some bound, shownRun_of_some kept]
    exact replaceWord_image named identifier apart finite _ rest
  | none =>
    rw [shownRun_of_none bound]
    by_cases own : r = name.toList
    · subst own
      have identifier : IsIdentifier name.toList := (isName_iff operand.word.all).mp named
      have new : Keyed.get? (values ++ [(name, x)]) (.ofList name.toList) = some x := by
        rw [lookup, bound, String.ofList_toList, if_pos rfl]
        rfl
      exact ⟨_, by rw [shownRun_of_some new, replaceWord_self identifier outside ends.outside]⟩
    · have other : String.ofList r ≠ name := by
        rintro rfl
        exact own String.toList_ofList.symm
      have still : Keyed.get? (values ++ [(name, x)]) (.ofList r) = none := by
        rw [lookup, bound, if_neg other]
        rfl
      rw [shownRun_of_none still]
      rcases operand.form with numeral | identifier
      · have quiet := quiet_of_no_letter (not_startsName_of_numeral numeral) before
        exact ⟨_, replaceWord_quiet starts quiet rest⟩
      · exact ⟨_, replaceWord_other named identifier own ends _ _⟩

theorem Writable.append (writable : Writable values) (named : isName name = true) {x : Float}
    (finite : x.isFinite = true) : Writable (values ++ [(name, x)]) :=
  List.forall_mem_append.mpr ⟨writable, List.forall_mem_singleton.mpr ⟨named, finite⟩⟩

theorem replaceWord_runs (writable : Writable values) (named : isName name = true)
    (fresh : name ∉ values.names) {x : Float} (finite : x.isFinite = true) (spaced : Spaced rs)
    (outside : ∀ r ∈ rs.head?, IsOperand r → isWordAt before = false) :
    replaceWord name.toList (image name.toList x) 0 before (rs.flatMap (shownRun values)) =
      rs.flatMap (shownRun (values ++ [(name, x)])) := by
  induction rs generalizing before with
  | nil => exact replaceWord_nil (starts_of_isName named)
  | cons r rs ih =>
    rw [List.flatMap_cons, List.flatMap_cons]
    rcases spaced.kinds r List.mem_cons_self with operand | ⟨c, rfl, single⟩
    · obtain ⟨last, replaced⟩ := replaceWord_operand writable named fresh x operand
        (outside r rfl operand) (spaced.ends operand writable)
      rw [replaced, ih spaced.tail]
      intro s next second
      rcases spaced.next operand with rfl | ⟨c, rest, rfl, single, -⟩
      · cases next
      · obtain rfl := Option.some.inj next
        simp [second.word.all c List.mem_cons_self] at single
    · have noWord := not_word_of_not_operandChar single
      have quiet : Quiet before [c] := ⟨Or.inl (not_startsName_of_not_word noWord), trivial⟩
      rw [shownRun_single writable single, shownRun_single (writable.append named finite) single,
        replaceWord_quiet (starts_of_isName named) quiet]
      exact congrArg ([c] ++ ·) (ih spaced.tail fun _ _ _ => noWord)

end

def loose (values : Keyed Float) : Keyed Datum := values.map fun entry => (entry.1, .real entry.2)

theorem showValue_real (text name : String) (x : Float) :
    showValue text name (.real x) =
      .ok (.ofList (replaceWord name.toList (image name.toList x) 0 none text.toList)) := by
  have written : (name ++ "(" ++ valueText x ++ ")").toList = image name.toList x := by
    simp [image, String.toList_append]
  rw [← written]
  rfl

/-- Names that are replaced one after the other. -/
theorem showValues_runs {rs : List (List Char)} (spaced : Spaced rs) {values more : Keyed Float}
    (distinct : (values ++ more).names.Nodup) (writable : Writable (values ++ more)) :
    showValues (.ofList (rs.flatMap (shownRun values))) (loose more) =
      .ok (.ofList (rs.flatMap (shownRun (values ++ more)))) := by
  induction more generalizing values with
  | nil => rw [List.append_nil]; rfl
  | cons entry more ih =>
    obtain ⟨name, x⟩ := entry
    obtain ⟨before, here⟩ := List.forall_mem_append.mp writable
    obtain ⟨⟨named, finite⟩, -⟩ := List.forall_mem_cons.mp here
    have fresh : name ∉ values.names := by
      rw [Keyed.names, List.map_append, List.map_cons] at distinct
      exact (List.nodup_middle.mp distinct).notMem ∘ List.mem_append_left _
    have split : values ++ (name, x) :: more = (values ++ [(name, x)]) ++ more := by simp
    rw [split] at distinct writable ⊢
    have first : showValue (.ofList (rs.flatMap (shownRun values))) name (.real x) =
        .ok (.ofList (rs.flatMap (shownRun (values ++ [(name, x)])))) := by
      rw [showValue_real, String.toList_ofList,
        replaceWord_runs before named fresh finite spaced fun _ _ _ => rfl]
    have step : showValues (.ofList (rs.flatMap (shownRun values))) (loose ((name, x) :: more)) =
        showValues (.ofList (rs.flatMap (shownRun (values ++ [(name, x)])))) (loose more) := by
      rw [showValues, loose, List.map_cons, List.foldlM_cons, first]
      rfl
    rw [step, ih distinct writable]

/-- In whatever order the names of a formula without issues are replaced, the outcome is the formula
with each of its tokens looked up once, and with every other character as it was. -/
theorem showValues_at_once {formula : String} (clean : lint none formula = [])
    {values : Keyed Float} (distinct : values.names.Nodup) (writable : Writable values)
    {arranged : Keyed Float} (same : arranged.Perm values) :
    showValues formula (loose arranged) = .ok (shownAtOnce values formula) := by
  have names : arranged.names.Nodup := (same.map Prod.fst).nodup_iff.mpr distinct
  have ready : Writable arranged := fun entry member => writable entry (same.mem_iff.mp member)
  have lookups : shownRun arranged = shownRun values := by
    funext run
    have found : arranged.get? (.ofList run) = values.get? (.ofList run) := by
      refine Option.ext fun y => ?_
      rw [Keyed.get?_iff_mem names, Keyed.get?_iff_mem distinct, same.mem_iff]
    rw [shownRun, shownRun, found]
  have untouched : formula =
      .ofList ((runs isOperandChar formula.toList).flatMap (shownRun [])) := by
    have whole : (runs isOperandChar formula.toList).flatten = formula.toList :=
      List.flatten_splitBy _ _
    have none : shownRun [] = id := rfl
    rw [none, List.flatMap_id, whole, String.ofList_toList]
  have replaced : showValues (.ofList ((runs isOperandChar formula.toList).flatMap (shownRun [])))
      (loose arranged) =
        .ok (.ofList ((runs isOperandChar formula.toList).flatMap (shownRun arranged))) :=
    showValues_runs (spaced_of_clean clean) names ready
  rw [← untouched] at replaced
  rw [replaced, shownAtOnce, lookups]

theorem showValues_at_once_area :
    let values : Keyed Float := [("e", 0.5), ("area", 720000), ("a", -2)]
    lint none "e + area1 * area" = [] ∧ values.names.Nodup ∧ Writable values ∧
      showValues "e + area1 * area" (loose values.reverse) = .ok "e(0.5) + area1 * area(720000)" := by
  intro values
  have clean : lint none "e + area1 * area" = [] := by decide +kernel
  have distinct : values.names.Nodup := by decide
  have writable : Writable values := by
    have each : values.all (fun entry => isName entry.1 && entry.2.isFinite) = true := by
      decide +kernel
    simpa [Writable, List.all_eq_true] using each
  have text : shownAtOnce values "e + area1 * area" = "e(0.5) + area1 * area(720000)" := by
    decide +kernel
  refine ⟨clean, distinct, writable, ?_⟩
  rw [showValues_at_once clean distinct writable values.reverse_perm, text]

end Joinery.Formula
