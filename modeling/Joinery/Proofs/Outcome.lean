import Joinery.Fault
import Mathlib

/-!
What an outcome says about the outcomes that it was put together from.
-/
namespace Joinery

theorem ok_bind {α β : Type} (a : α) (f : α → Outcome β) : (Except.ok a >>= f) = f a := rfl

theorem error_bind {α β : Type} (fault : Fault) (f : α → Outcome β) :
    (Except.error fault >>= f) = .error fault := rfl

theorem bind_ok {α β : Type} {x : Outcome α} {f : α → Outcome β} {b : β} :
    (x >>= f) = .ok b ↔ ∃ a, x = .ok a ∧ f a = .ok b := by
  cases x with
  | ok a => simp [bind, Except.bind]
  | error fault => simp [bind, Except.bind]

theorem bind_error {α β : Type} {x : Outcome α} {f : α → Outcome β} {fault : Fault} :
    (x >>= f) = .error fault ↔ x = .error fault ∨ ∃ a, x = .ok a ∧ f a = .error fault := by
  cases x with
  | ok a => simp [bind, Except.bind]
  | error other => simp [bind, Except.bind]

theorem bind_congr_ok {α β : Type} {x : Outcome α} {f g : α → Outcome β}
    (each : ∀ a, x = .ok a → f a = g a) : (x >>= f) = (x >>= g) := by
  cases x with
  | ok a => exact each a rfl
  | error _ => rfl

theorem map_ok {α β : Type} {x : Outcome α} {f : α → β} {b : β} :
    x.map f = .ok b ↔ ∃ a, x = .ok a ∧ f a = b := by
  cases x with
  | ok a => simp [Except.map]
  | error fault => simp [Except.map]

theorem map_error {α β : Type} {x : Outcome α} {f : α → β} {fault : Fault} :
    x.map f = .error fault ↔ x = .error fault := by
  cases x with
  | ok a => simp [Except.map]
  | error other => simp [Except.map]

theorem mapM_ok_iff {α β : Type} {f : α → Outcome β} {xs : List α} {ys : List β} :
    xs.mapM f = .ok ys ↔ List.Forall₂ (fun a b => f a = .ok b) xs ys := by
  induction xs generalizing ys with
  | nil => cases ys <;> simp [pure, Except.pure]
  | cons a xs ih =>
    rw [List.mapM_cons]
    constructor
    · intro success
      obtain ⟨b, first, later⟩ := bind_ok.mp success
      obtain ⟨bs, rest, same⟩ := bind_ok.mp later
      obtain rfl := Except.ok.inj same
      exact .cons first (ih.mp rest)
    · intro each
      cases each with
      | cons first rest => simp [first, ih.mpr rest, bind, Except.bind, pure, Except.pure]

theorem mapM_error_iff {α β : Type} {f : α → Outcome β} {xs : List α} {fault : Fault} :
    xs.mapM f = .error fault ↔ ∃ before a after, xs = before ++ a :: after ∧
      (∀ x ∈ before, ∃ b, f x = .ok b) ∧ f a = .error fault := by
  induction xs with
  | nil => simp [pure, Except.pure]
  | cons first rest ih =>
    rw [List.mapM_cons]
    constructor
    · intro failed
      rcases bind_error.mp failed with fails | ⟨b, reads, later⟩
      · exact ⟨[], first, rest, rfl, by simp, fails⟩
      · rcases bind_error.mp later with fails | ⟨_, -, impossible⟩
        · obtain ⟨before, a, after, rfl, each, fails⟩ := ih.mp fails
          exact ⟨first :: before, a, after, rfl, by simpa using ⟨⟨b, reads⟩, each⟩, fails⟩
        · cases impossible
    · rintro ⟨before, a, after, same, each, fails⟩
      cases before with
      | nil =>
        obtain ⟨rfl, rfl⟩ := List.cons.inj same
        exact bind_error.mpr (Or.inl fails)
      | cons other before =>
        obtain ⟨rfl, rfl⟩ := List.cons.inj same
        obtain ⟨b, reads⟩ := each first (by simp)
        have earlier : ∀ x ∈ before, ∃ b, f x = .ok b := fun x member => each x (by simp [member])
        have later := ih.mpr ⟨before, a, after, rfl, earlier, fails⟩
        exact bind_error.mpr (Or.inr ⟨b, reads, bind_error.mpr (Or.inl later)⟩)

theorem mapM_of_forall₂ {α β γ : Type} {f : α → Outcome γ} {g : β → Outcome γ} {xs : List α}
    {ys : List β} (each : List.Forall₂ (fun a b => f a = g b) xs ys) : xs.mapM f = ys.mapM g := by
  induction each with
  | nil => rfl
  | cons first _ ih => rw [List.mapM_cons, List.mapM_cons, first, ih]

theorem mapM_map_congr {α β γ : Type} {write : α → β} {f : β → Outcome γ} {g : α → Outcome γ}
    {xs : List α} (each : ∀ a ∈ xs, f (write a) = g a) : (xs.map write).mapM f = xs.mapM g := by
  apply mapM_of_forall₂
  rw [List.forall₂_map_left_iff]
  exact List.forall₂_same.mpr each

theorem mapM_member {α β : Type} {f : α → Outcome β} {xs : List α} {ys : List β}
    (success : xs.mapM f = .ok ys) : ∀ a ∈ xs, ∃ b, f a = .ok b := by
  have each := mapM_ok_iff.mp success
  clear success
  induction each with
  | nil => simp
  | cons first _ ih =>
    intro a member
    rcases List.mem_cons.mp member with rfl | later
    · exact ⟨_, first⟩
    · exact ih a later

theorem mem_mapM {α β : Type} {f : α → Outcome β} {xs : List α} {ys : List β} {b : β}
    (success : xs.mapM f = .ok ys) : b ∈ ys ↔ ∃ a ∈ xs, f a = .ok b := by
  have each := mapM_ok_iff.mp success
  clear success
  induction each with
  | nil => simp
  | cons first _ ih => simp [first, ih, eq_comm]

theorem mapM_result {α β : Type} {f : α → Outcome β} {xs : List α} {ys : List β}
    (success : xs.mapM f = .ok ys) : ∀ b ∈ ys, ∃ a ∈ xs, f a = .ok b :=
  fun _ => (mem_mapM success).mp

theorem mapM_each {α β : Type} {f : α → Outcome β} {holds : β → Prop} {xs : List α}
    (each : ∀ a ∈ xs, ∃ b, f a = .ok b ∧ holds b) :
    ∃ bs, xs.mapM f = .ok bs ∧ bs.length = xs.length ∧ ∀ b ∈ bs, holds b := by
  induction xs with
  | nil => exact ⟨[], rfl, rfl, by simp⟩
  | cons a xs ih =>
    obtain ⟨b, first, held⟩ := each a (by simp)
    obtain ⟨bs, rest, length, later⟩ := ih fun x member => each x (by simp [member])
    refine ⟨b :: bs, ?_, by simp [length], ?_⟩
    · simp [List.mapM_cons, first, rest, bind, Except.bind, pure, Except.pure]
    · intro x member
      rcases List.mem_cons.mp member with rfl | member
      · exact held
      · exact later x member

theorem mapM_ok {α β : Type} {f : α → Outcome β} {xs : List α} (each : ∀ a ∈ xs, ∃ b, f a = .ok b) :
    ∃ bs, xs.mapM f = .ok bs := by
  have all : ∀ a ∈ xs, ∃ b, f a = .ok b ∧ True := by
    intro a member
    obtain ⟨b, success⟩ := each a member
    exact ⟨b, success, trivial⟩
  obtain ⟨bs, success, -⟩ := mapM_each all
  exact ⟨bs, success⟩

theorem mapM_option_ok {α β : Type} {f : α → Outcome β} {part : Option α} {out : Option β} {b : β}
    (success : part.mapM f = .ok out) (own : b ∈ out) : ∃ a, part = some a ∧ f a = .ok b := by
  cases part with
  | none =>
    obtain rfl := Except.ok.inj success
    cases own
  | some a =>
    obtain ⟨c, read, rfl⟩ := map_ok.mp success
    obtain rfl := Option.some.inj own
    exact ⟨a, rfl, read⟩

theorem mapM_map_read {α β γ : Type} {write : α → β} {read : β → Outcome γ} {g : α → γ}
    {xs : List α} (each : ∀ a ∈ xs, read (write a) = .ok (g a)) :
    (xs.map write).mapM read = .ok (xs.map g) := by
  induction xs with
  | nil => rfl
  | cons a xs ih =>
    have rest := ih fun x member => each x (by simp [member])
    simp [List.mapM_cons, each a (by simp), rest, bind, Except.bind, pure, Except.pure]

theorem mapM_map_ok {α β : Type} {write : α → β} {read : β → Outcome α} {xs : List α}
    (each : ∀ a ∈ xs, read (write a) = .ok a) : (xs.map write).mapM read = .ok xs := by
  rw [mapM_map_read (g := id) each, List.map_id]

theorem mapM_image {α β γ : Type} {f : α → Outcome β} {source : α → γ} {image : β → γ} {xs : List α}
    {ys : List β} (keeps : ∀ a b, f a = .ok b → image b = source a) (success : xs.mapM f = .ok ys) :
    ys.map image = xs.map source := by
  have each := mapM_ok_iff.mp success
  clear success
  induction each with
  | nil => rfl
  | cons first _ ih => rw [List.map_cons, List.map_cons, keeps _ _ first, ih]

theorem foldlM_preserves {α β γ : Type} {f : β → α → Outcome β} {observe : β → γ} {xs : List α}
    {start last : β} (effect : ∀ b, ∀ a ∈ xs, ∀ next, f b a = .ok next → observe next = observe b)
    (success : xs.foldlM f start = .ok last) : observe last = observe start := by
  induction xs generalizing start with
  | nil =>
    obtain rfl := Except.ok.inj success
    rfl
  | cons a xs ih =>
    rw [List.foldlM_cons] at success
    obtain ⟨next, first, later⟩ := bind_ok.mp success
    rw [ih (fun b x member => effect b x (List.mem_cons_of_mem a member)) later,
      effect start a List.mem_cons_self next first]

theorem foldlM_ok {α β : Type} {f : β → α → Outcome β} {xs : List α}
    (each : ∀ b, ∀ a ∈ xs, ∃ next, f b a = .ok next) (start : β) :
    ∃ last, xs.foldlM f start = .ok last := by
  induction xs generalizing start with
  | nil => exact ⟨start, rfl⟩
  | cons a xs ih =>
    obtain ⟨next, first⟩ := each start a List.mem_cons_self
    obtain ⟨last, later⟩ := ih (fun b x member => each b x (List.mem_cons_of_mem a member)) next
    exact ⟨last, by rw [List.foldlM_cons, first, ok_bind, later]⟩

theorem filterMapM_cons_ok {α β : Type} {f : α → Outcome (Option β)} {a : α} {xs : List α}
    {ys : List β} : (a :: xs).filterMapM f = .ok ys ↔
      ∃ o zs, f a = .ok o ∧ xs.filterMapM f = .ok zs ∧ ys = o.toList ++ zs := by
  rw [List.filterMapM_cons]
  constructor
  · intro success
    obtain ⟨o, first, rest⟩ := bind_ok.mp success
    cases o with
    | none => exact ⟨none, ys, first, rest, rfl⟩
    | some b =>
      obtain ⟨zs, later, same⟩ := bind_ok.mp rest
      exact ⟨some b, zs, first, later, (Except.ok.inj same).symm⟩
  · rintro ⟨o, zs, first, later, rfl⟩
    cases o <;> simp [first, later, bind, Except.bind, pure, Except.pure]

theorem mem_filterMapM {α β : Type} {f : α → Outcome (Option β)} {xs : List α} {ys : List β} {b : β}
    (success : xs.filterMapM f = .ok ys) : b ∈ ys ↔ ∃ a ∈ xs, f a = .ok (some b) := by
  induction xs generalizing ys with
  | nil =>
    obtain rfl := Except.ok.inj success
    simp
  | cons a xs ih =>
    obtain ⟨o, zs, first, later, rfl⟩ := filterMapM_cons_ok.mp success
    simp [first, ih later]

theorem filterMapM_member {α β : Type} {f : α → Outcome (Option β)} {xs : List α} {ys : List β}
    (success : xs.filterMapM f = .ok ys) : ∀ a ∈ xs, ∃ o, f a = .ok o := by
  induction xs generalizing ys with
  | nil => simp
  | cons a xs ih =>
    obtain ⟨o, zs, first, later, -⟩ := filterMapM_cons_ok.mp success
    intro b member
    rcases List.mem_cons.mp member with rfl | rest
    · exact ⟨o, first⟩
    · exact ih later b rest

theorem filterMapM_ok {α β : Type} {f : α → Outcome (Option β)} {xs : List α}
    (each : ∀ a ∈ xs, ∃ o, f a = .ok o) : ∃ ys, xs.filterMapM f = .ok ys := by
  induction xs with
  | nil => exact ⟨[], rfl⟩
  | cons a xs ih =>
    obtain ⟨first, others⟩ := List.forall_mem_cons.mp each
    obtain ⟨o, read⟩ := first
    obtain ⟨zs, later⟩ := ih others
    exact ⟨_, filterMapM_cons_ok.mpr ⟨o, zs, read, later, rfl⟩⟩

theorem filterMapM_sublist {α β γ : Type} {f : α → Outcome (Option β)} {source : α → γ}
    {image : β → γ} {xs : List α} {ys : List β}
    (keeps : ∀ a b, f a = .ok (some b) → image b = source a) (success : xs.filterMapM f = .ok ys) :
    (ys.map image).Sublist (xs.map source) := by
  induction xs generalizing ys with
  | nil =>
    obtain rfl := Except.ok.inj success
    exact .slnil
  | cons a xs ih =>
    obtain ⟨o, zs, first, later, rfl⟩ := filterMapM_cons_ok.mp success
    cases o with
    | none => exact (ih later).cons _
    | some b =>
      rw [List.map_cons, ← keeps a b first]
      exact (ih later).cons_cons _

theorem Outcome.toOption_eq_some {α : Type} {x : Outcome α} {a : α} :
    x.toOption = some a ↔ x = .ok a := by
  cases x <;> simp [Except.toOption]

def Outcome.value {α : Type} (x : Outcome α) (success : x.isOk = true) : α :=
  match x, success with
  | .ok a, _ => a

theorem Outcome.eq_value {α : Type} {x : Outcome α} (success : x.isOk = true) :
    x = .ok (x.value success) := by
  cases x with
  | ok a => rfl
  | error fault => cases success

theorem Outcome.error_of_fails {α : Type} {x : Outcome α} (failure : x.isOk = false) :
    ∃ f, x = .error f := by
  cases x with
  | ok a => cases failure
  | error fault => exact ⟨fault, rfl⟩

theorem Outcome.eq_error {α β : Type} {x : β × Outcome α} (failure : x.2.isOk = false) :
    ∃ f, x = (x.1, .error f) := by
  obtain ⟨b, outcome⟩ := x
  obtain ⟨fault, rfl⟩ := error_of_fails failure
  exact ⟨fault, rfl⟩

end Joinery
