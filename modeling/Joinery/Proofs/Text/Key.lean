import Joinery.Proofs.Text.Runs
import Joinery.Text.Key

/-!
Keys as a canonical form. Folding leaves alone whatever it has put out, and the words that a key is
joined from are those that it falls apart into again, so that a key is its own key. Each underscore in
it stands alone between two other characters. What separates the words of a name is not seen in its key,
neither what it is nor how much of it there is, and not at all at the ends of the name.
-/
namespace Joinery.Text

namespace Casing

/-! Sets of codes as the bits of one number, so that two of them are compared at once. -/

def codeSet (codes : List Nat) : Nat := codes.foldr (fun n set => 1 <<< n ||| set) 0

theorem testBit_codeSet {codes : List Nat} {n : Nat} : (codeSet codes).testBit n = true ↔ n ∈ codes := by
  induction codes with
  | nil => simp [codeSet]
  | cons m codes ih =>
    rw [codeSet, List.foldr_cons, ← codeSet, Nat.testBit_lor, Bool.or_eq_true, ih, List.mem_cons,
      Nat.one_shiftLeft, Nat.testBit_two_pow, decide_eq_true_eq, eq_comm]

def union (sets : List Nat) : Nat := sets.foldr (· ||| ·) 0

theorem testBit_union {sets : List Nat} {n : Nat} :
    (union sets).testBit n = true ↔ ∃ set ∈ sets, set.testBit n = true := by
  induction sets with
  | nil => simp [union]
  | cons set sets ih =>
    rw [union, List.foldr_cons, ← union, Nat.testBit_lor, Bool.or_eq_true, ih,
      List.exists_mem_cons_iff]

def Run.codes (r : Run) : List Nat :=
  (List.range ((r.last - r.first) / r.stride + 1)).map fun i => r.first + r.stride * i

theorem Run.mem_codes {r : Run} {n : Nat} (covered : r.covers n = true) : n ∈ r.codes := by
  simp only [covers, Bool.and_eq_true, decide_eq_true_eq, beq_iff_eq] at covered
  obtain ⟨⟨least, most⟩, even⟩ := covered
  have place : r.stride * ((n - r.first) / r.stride) = n - r.first := by
    have parts := Nat.div_add_mod (n - r.first) r.stride
    omega
  refine List.mem_map.mpr ⟨(n - r.first) / r.stride, ?_, by omega⟩
  exact List.mem_range.mpr (Nat.lt_succ_of_le (Nat.div_le_div_right (by omega)))

def Run.target (r : Run) (n : Nat) : Char := Char.ofNat (n + r.shift).toNat

namespace Mapping

def moved (m : Mapping) : Nat :=
  union (m.runs.map fun r => codeSet r.codes) ||| codeSet (m.expansions.map Prod.fst)

def reached (m : Mapping) : Nat :=
  union (m.runs.map fun r => codeSet (r.codes.map fun n => (r.target n).toNat)) |||
    union (m.expansions.map fun e => codeSet (e.2.map fun n => (Char.ofNat n).toNat))

theorem apply_of_not_moved {m : Mapping} {c : Char} (kept : m.moved.testBit c.toNat = false) :
    m.apply c = [c] := by
  rw [moved, Nat.testBit_lor, Bool.or_eq_false_iff, ← Bool.not_eq_true, ← Bool.not_eq_true,
    testBit_union, testBit_codeSet] at kept
  obtain ⟨outside, single⟩ := kept
  have noRun : m.runs.find? (·.covers c.toNat) = none := by
    refine List.find?_eq_none.mpr fun r member covered => outside ?_
    exact ⟨_, List.mem_map_of_mem member, testBit_codeSet.mpr (Run.mem_codes covered)⟩
  have noExpansion : m.expansions.lookup c.toNat = none := by
    refine List.lookup_eq_none_iff.mpr fun e member => bne_iff_ne.mpr fun same => single ?_
    exact same ▸ List.mem_map_of_mem member
  rw [apply, noRun, noExpansion]

theorem reached_of_mem_apply {m : Mapping} {c d : Char} (member : d ∈ m.apply c) :
    m.apply c = [c] ∨ m.reached.testBit d.toNat = true := by
  rw [reached, Nat.testBit_lor, Bool.or_eq_true, testBit_union, testBit_union]
  unfold apply at member ⊢
  split
  · rename_i r found
    simp only [found, List.mem_singleton] at member
    subst member
    have covered : r.covers c.toNat = true := by simpa using List.find?_some found
    right; left
    exact ⟨_, List.mem_map_of_mem (List.mem_of_find?_eq_some found),
      testBit_codeSet.mpr (List.mem_map_of_mem (Run.mem_codes covered))⟩
  · rename_i noRun
    simp only [noRun] at member ⊢
    split
    · rename_i codes found
      simp only [found, List.mem_map] at member
      obtain ⟨n, listed, rfl⟩ := member
      obtain ⟨before, after, same, -⟩ := List.lookup_eq_some_iff.mp found
      have entry : (c.toNat, codes) ∈ m.expansions := same ▸ List.mem_append_cons_self
      right; right
      exact ⟨_, List.mem_map_of_mem entry, testBit_codeSet.mpr (List.mem_map_of_mem listed)⟩
    · exact Or.inl rfl

theorem apply_settled {m : Mapping} (apart : m.moved &&& m.reached = 0) {c d : Char}
    (member : d ∈ m.apply c) : m.apply d = [d] := by
  rcases reached_of_mem_apply member with own | reached
  · rw [own, List.mem_singleton] at member
    rw [member, own]
  · apply apply_of_not_moved
    have both : (m.moved &&& m.reached).testBit d.toNat = false := by rw [apart, Nat.zero_testBit]
    rwa [Nat.testBit_land, reached, Bool.and_true] at both

end Mapping

theorem foldMapping_apart : foldMapping.moved &&& foldMapping.reached = 0 := by
  decide +kernel

end Casing

theorem foldCase_of_settled {cs : List Char}
    (settled : ∀ c ∈ cs, Casing.foldMapping.apply c = [c]) : foldCase cs = cs := by
  induction cs with
  | nil => rfl
  | cons c cs ih =>
    obtain ⟨first, rest⟩ := List.forall_mem_cons.mp settled
    rw [foldCase, List.flatMap_cons, first, ← foldCase, ih rest]
    rfl

theorem settled_of_mem_foldCase {cs : List Char} {c : Char} (member : c ∈ foldCase cs) :
    Casing.foldMapping.apply c = [c] := by
  obtain ⟨_, -, put⟩ := List.mem_flatMap.mp member
  exact Casing.Mapping.apply_settled Casing.foldMapping_apart put

theorem Casing.Mapping.apply_ne_nil {m : Mapping} (filled : ∀ e ∈ m.expansions, e.2 ≠ [])
    (c : Char) : m.apply c ≠ [] := by
  unfold apply
  split
  · exact List.cons_ne_nil _ _
  · split
    · rename_i codes found
      obtain ⟨before, after, same, -⟩ := List.lookup_eq_some_iff.mp found
      have entry : (c.toNat, codes) ∈ m.expansions := same ▸ List.mem_append_cons_self
      exact fun empty => filled _ entry (List.map_eq_nil_iff.mp empty)
    · exact List.cons_ne_nil _ _

theorem foldCase_append (cs ds : List Char) : foldCase (cs ++ ds) = foldCase cs ++ foldCase ds :=
  List.flatMap_append

theorem foldCase_ne_nil {cs : List Char} (some : cs ≠ []) : foldCase cs ≠ [] := by
  have expands : Casing.foldMapping.expansions.all (fun e => !e.2.isEmpty) = true := by decide
  have filled : ∀ e ∈ Casing.foldMapping.expansions, e.2 ≠ [] := fun e member => by
    simpa using List.all_eq_true.mp expands e member
  obtain ⟨c, rest, rfl⟩ := List.exists_cons_of_ne_nil some
  rw [foldCase, List.flatMap_cons]
  exact List.append_ne_nil_of_left_ne_nil (Casing.foldMapping.apply_ne_nil filled c) _

/-! Keys of keys. -/

theorem keyChars_keyChars (cs : List Char) : keyChars (keyChars cs) = keyChars cs := by
  have settled : foldCase (keyChars cs) = keyChars cs := by
    apply foldCase_of_settled
    intro c member
    rcases mem_intercalate member with rfl | ⟨word, among, inside⟩
    · decide
    · exact settled_of_mem_foldCase (mem_of_mem_words among inside)
  have parts : words isKeyChar (keyChars cs) = words isKeyChar (foldCase cs) :=
    words_intercalate (by decide) fun word among => isWord_of_mem among
  calc keyChars (keyChars cs) = ['_'].intercalate (words isKeyChar (foldCase (keyChars cs))) := rfl
    _ = ['_'].intercalate (words isKeyChar (keyChars cs)) := by rw [settled]
    _ = keyChars cs := by rw [parts, ← keyChars]

/-- A name of words in folded case that are joined already is its own key. -/
theorem key_eq_self {name : String}
    (kept : (name.toList.all fun c => !Casing.foldMapping.moved.testBit c.toNat) = true)
    (joined : ['_'].intercalate (words isKeyChar name.toList) = name.toList) : key name = name := by
  have settled : foldCase name.toList = name.toList := by
    refine foldCase_of_settled fun c member => Casing.Mapping.apply_of_not_moved ?_
    simpa using List.all_eq_true.mp kept c member
  rw [key, keyChars, settled, joined, String.ofList_toList]

theorem key_key (name : String) : key (key name) = key name := by
  rw [key, key, String.toList_ofList, keyChars_keyChars]

/-! The form of a key. -/

/-- Word characters, with underscores that stand alone between two others. -/
structure IsKey (key : String) : Prop where
  chars : ∀ c ∈ key.toList, isWordChar c = true
  leading : key.toList.head? ≠ some '_'
  trailing : key.toList.getLast? ≠ some '_'
  single : ¬ ['_', '_'] <:+: key.toList

theorem key_isKey (name : String) : IsKey (key name) := by
  have text : (key name).toList = keyChars name.toList := String.toList_ofList
  have parts : ∀ word ∈ words isKeyChar (foldCase name.toList), IsWord isKeyChar word :=
    fun word among => isWord_of_mem among
  obtain ⟨first, last, inner⟩ := joined_intercalate '_' parts
  rw [← keyChars, ← text] at first last inner
  have underscore : ¬ isKeyChar '_' = true := by decide
  constructor
  · intro c member
    rw [text] at member
    rcases mem_intercalate member with rfl | ⟨word, among, inside⟩
    · decide +kernel
    · exact (Bool.and_eq_true_iff.mp ((parts word among).all c inside)).1
  · exact fun head => underscore (first '_' head)
  · exact fun tail => underscore (last '_' tail)
  · rintro ⟨before, after, double⟩
    rw [← double] at inner
    have both := inner.left_of_append.right_of_append
    simp [underscore] at both

/-- A character of which only separators of words are left when it is folded. -/
def Separator (c : Char) : Prop := ∀ d ∈ foldCase [c], isWordChar d = false ∨ d = '_'

instance : DecidablePred Separator := fun c =>
  List.decidableBAll (fun d => isWordChar d = false ∨ d = '_') (foldCase [c])

theorem separators_of_all {gap : List Char} (all : gap.all (fun c => decide (Separator c)) = true) :
    ∀ c ∈ gap, Separator c := fun c member =>
  of_decide_eq_true (List.all_eq_true.mp all c member)

theorem foldCase_separators {gap : List Char} (separators : ∀ c ∈ gap, Separator c) :
    ∀ d ∈ foldCase gap, isKeyChar d = false := by
  intro d member
  obtain ⟨c, listed, put⟩ := List.mem_flatMap.mp member
  have folded : d ∈ foldCase [c] := by simpa [foldCase] using put
  rcases separators c listed d folded with other | rfl
  · simp [isKeyChar, other]
  · decide

section
variable {gap : List Char} (separators : ∀ c ∈ gap, Separator c)
include separators

theorem keyChars_between (some : gap ≠ []) (cs ds : List Char) :
    keyChars (cs ++ gap ++ ds) =
      ['_'].intercalate (words isKeyChar (foldCase cs) ++ words isKeyChar (foldCase ds)) := by
  rw [keyChars, foldCase_append, foldCase_append,
    words_between (foldCase_ne_nil some) (foldCase_separators separators)]

theorem keyChars_after (cs : List Char) : keyChars (gap ++ cs) = keyChars cs := by
  rw [keyChars, foldCase_append, words_after (foldCase_separators separators), ← keyChars]

theorem keyChars_before (cs : List Char) : keyChars (cs ++ gap) = keyChars cs := by
  rw [keyChars, foldCase_append, words_before (foldCase_separators separators), ← keyChars]

end

/-- A key is its own key and has the form of one. It stays the same when some separators in the name are
replaced by others, and when separators are added at either end. -/
theorem key_canonical (name : String) :
    key (key name) = key name ∧ IsKey (key name) ∧
    (∀ front gap other back : String, name = front ++ gap ++ back → gap ≠ "" → other ≠ "" →
      (∀ c ∈ gap.toList, Separator c) → (∀ c ∈ other.toList, Separator c) →
      key (front ++ other ++ back) = key name) ∧
    ∀ gap : String, (∀ c ∈ gap.toList, Separator c) →
      key (gap ++ name) = key name ∧ key (name ++ gap) = key name := by
  refine ⟨key_key name, key_isKey name, ?_, ?_⟩
  · rintro front gap other back rfl some otherSome separators others
    have filled {s : String} (nonempty : s ≠ "") : s.toList ≠ [] :=
      fun empty => nonempty (String.toList_injective empty)
    simp only [key, String.toList_append]
    rw [keyChars_between separators (filled some), keyChars_between others (filled otherSome)]
  · intro gap separators
    simp only [key, String.toList_append]
    exact ⟨by rw [keyChars_after separators], by rw [keyChars_before separators]⟩

/-- Folding makes two letters of one here, and leaves an accent that is part of no word. -/
theorem key_canonical_street :
    key "Straße (ǰ)" = "strasse_j" ∧ key "strasse_j" = "strasse_j" ∧ IsKey "strasse_j" ∧
      key "Straße\u0301_ǰ)" = "strasse_j" ∧ key "__Straße (ǰ)" = "strasse_j" := by
  have keyed : key "Straße (ǰ)" = "strasse_j" := by decide +kernel
  obtain ⟨again, form, replaced, ends⟩ := key_canonical "Straße (ǰ)"
  have other := replaced "Straße" " (" "\u0301_" "ǰ)" (by decide) (by decide) (by decide)
    (separators_of_all (by decide +kernel)) (separators_of_all (by decide +kernel))
  have added := (ends "__" (separators_of_all (by decide +kernel))).1
  rw [keyed] at again form other added
  exact ⟨keyed, again, form, other, added⟩

end Joinery.Text
