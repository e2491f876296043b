import Mathlib.Data.List.Forall2

/-
Computations that may fail, read off their results.

A description is resolved by blocks that stop at the first failure.  A block succeeds when all of
its parts do, and fails as one of its parts does; these lemmas take a result apart.
-/
namespace OpenApi.Except

variable {ε α β : Type}

theorem bind_eq_ok_iff {x : Except ε α} {f : α → Except ε β} {b : β} :
    (x >>= f) = .ok b ↔ ∃ a, x = .ok a ∧ f a = .ok b := by
  cases x with
  | error e =>
    constructor
    · intro h
      cases h
    · rintro ⟨a, ha, -⟩
      cases ha
  | ok a =>
    constructor
    · exact fun h => ⟨a, rfl, h⟩
    · rintro ⟨a', ha, h⟩
      cases ha
      exact h

theorem map_eq_ok_iff {x : Except ε α} {f : α → β} {b : β} :
    x.map f = .ok b ↔ ∃ a, x = .ok a ∧ f a = b := by
  cases x with
  | error e =>
    constructor
    · intro h
      cases h
    · rintro ⟨a, ha, -⟩
      cases ha
  | ok a =>
    constructor
    · intro h
      exact ⟨a, rfl, Except.ok.inj h⟩
    · rintro ⟨a', ha, rfl⟩
      cases ha
      rfl

theorem mapError_eq_ok_iff {ε' : Type} {x : Except ε α} {f : ε → ε'} {a : α} :
    x.mapError f = .ok a ↔ x = .ok a := by
  cases x with
  | error e => exact ⟨nofun, nofun⟩
  | ok b => exact ⟨fun h => congrArg _ (Except.ok.inj h), fun h => congrArg _ (Except.ok.inj h)⟩

theorem exists_map_iff {f : α → β} {x : Except ε α} :
    (∃ b, x.map f = .ok b) ↔ ∃ a, x = .ok a := by
  cases x with
  | error e => exact ⟨nofun, nofun⟩
  | ok a => exact ⟨fun _ => ⟨a, rfl⟩, fun _ => ⟨f a, rfl⟩⟩

theorem pure_eq_ok_iff {a b : α} : (pure a : Except ε α) = .ok b ↔ a = b :=
  ⟨fun h => Except.ok.inj h, fun h => congrArg Except.ok h⟩

theorem exists_of_isOk {x : Except ε α} (h : x.isOk = true) : ∃ a, x = .ok a := by
  cases x with
  | error e => cases h
  | ok a => exact ⟨a, rfl⟩

theorem exists_of_toOption_map {x : Except ε α} {f : α → β} {b : β}
    (h : x.toOption.map f = some b) : ∃ a, x = .ok a ∧ f a = b := by
  cases x with
  | error e => cases h
  | ok a => exact ⟨a, rfl, Option.some.inj h⟩

theorem bind_eq_error_iff {x : Except ε α} {f : α → Except ε β} {e : ε} :
    x >>= f = .error e ↔ x = .error e ∨ ∃ a, x = .ok a ∧ f a = .error e := by
  cases x with
  | error e' =>
    constructor
    · exact fun h => .inl (congrArg Except.error (Except.error.inj h))
    · rintro (h | ⟨a, ha, -⟩)
      · exact congrArg Except.error (Except.error.inj h)
      · cases ha
  | ok a =>
    constructor
    · exact fun h => .inr ⟨a, rfl, h⟩
    · rintro (h | ⟨a', ha, h⟩)
      · cases h
      · cases ha
        exact h

theorem map_eq_error_iff {x : Except ε α} {f : α → β} {e : ε} :
    x.map f = .error e ↔ x = .error e := by
  cases x with
  | error e' => exact ⟨fun h => congrArg Except.error (Except.error.inj h), fun h => h ▸ rfl⟩
  | ok a => exact ⟨fun h => (nomatch h), fun h => (nomatch h)⟩

/-- A list of computations succeeds when each of them does. -/
theorem mapM_eq_ok_iff {f : α → Except ε β} {xs : List α} {ys : List β} :
    xs.mapM f = .ok ys ↔ List.Forall₂ (fun x y => f x = .ok y) xs ys := by
  induction xs generalizing ys with
  | nil =>
    rw [List.mapM_nil, pure_eq_ok_iff, List.forall₂_nil_left_iff]
    exact eq_comm
  | cons x xs ih =>
    rw [List.mapM_cons, bind_eq_ok_iff]
    simp only [bind_eq_ok_iff, pure_eq_ok_iff, ih, List.forall₂_cons_left_iff]
    constructor
    · rintro ⟨y, hy, rest, hrest, rfl⟩
      exact ⟨y, rest, hy, hrest, rfl⟩
    · rintro ⟨y, rest, hy, hrest, rfl⟩
      exact ⟨y, hy, rest, hrest, rfl⟩

/-- Every item of a list has its result among the results. -/
theorem exists_result_of_mapM {f : α → Except ε β} {xs : List α} {ys : List β}
    (h : xs.mapM f = .ok ys) {x : α} (hx : x ∈ xs) : ∃ y ∈ ys, f x = .ok y := by
  have pairs := mapM_eq_ok_iff.mp h
  induction pairs with
  | nil => cases hx
  | @cons x' y xs ys hxy _ ih =>
    rcases List.mem_cons.mp hx with rfl | hx
    · exact ⟨y, List.mem_cons_self, hxy⟩
    · obtain ⟨y', hy', h'⟩ := ih (mapM_eq_ok_iff.mpr ‹_›) hx
      exact ⟨y', List.mem_cons_of_mem y hy', h'⟩

theorem exists_of_mapM {f : α → Except ε β} {xs : List α} {ys : List β} (h : xs.mapM f = .ok ys)
    {x : α} (hx : x ∈ xs) : ∃ y, f x = .ok y := by
  obtain ⟨y, _, hy⟩ := exists_result_of_mapM h hx
  exact ⟨y, hy⟩

/-- A list of computations succeeds if each of them does. -/
theorem exists_mapM {f : α → Except ε β} {xs : List α} (h : ∀ x ∈ xs, ∃ y, f x = .ok y) :
    ∃ ys, xs.mapM f = .ok ys := by
  induction xs with
  | nil => exact ⟨[], rfl⟩
  | cons x xs ih =>
    rw [List.forall_mem_cons] at h
    obtain ⟨y, hy⟩ := h.1
    obtain ⟨ys, hys⟩ := ih h.2
    exact ⟨y :: ys, by rw [List.mapM_cons, hy, hys]; rfl⟩

theorem exists_mapM_iff {f : α → Except ε β} {xs : List α} :
    (∃ ys, xs.mapM f = .ok ys) ↔ ∀ x ∈ xs, ∃ y, f x = .ok y :=
  ⟨fun ⟨_, h⟩ _ hx => exists_of_mapM h hx, exists_mapM⟩

/-- A list of computations fails as one of them does. -/
theorem exists_of_mapM_eq_error {f : α → Except ε β} {xs : List α} {e : ε}
    (h : xs.mapM f = .error e) : ∃ x ∈ xs, f x = .error e := by
  induction xs with
  | nil => cases h
  | cons x xs ih =>
    rw [List.mapM_cons] at h
    rcases bind_eq_error_iff.mp h with h | ⟨y, _, h⟩
    · exact ⟨x, List.mem_cons_self, h⟩
    · rcases bind_eq_error_iff.mp h with h | ⟨ys, _, h⟩
      · obtain ⟨x', hx', h'⟩ := ih h
        exact ⟨x', List.mem_cons_of_mem x hx', h'⟩
      · cases h

/-- A list of computations has the results that its items have one by one. -/
theorem mapM_eq_ok_map {f : α → Except ε β} {g : α → β} {xs : List α}
    (h : ∀ x ∈ xs, f x = .ok (g x)) : xs.mapM f = .ok (xs.map g) :=
  mapM_eq_ok_iff.mpr (List.forall₂_map_right_iff.mpr (List.forall₂_same.mpr h))

theorem mapM_map_eq_ok_map {γ : Type} {f : α → β} {g : β → Except ε γ} {k : α → γ} {xs : List α}
    (h : ∀ x ∈ xs, g (f x) = .ok (k x)) : (xs.map f).mapM g = .ok (xs.map k) :=
  mapM_eq_ok_iff.mpr (List.forall₂_map_left_iff.mpr
    (List.forall₂_map_right_iff.mpr (List.forall₂_same.mpr h)))

theorem exists_results [Inhabited β] {f : α → Except ε β} {xs : List α}
    (h : ∀ x ∈ xs, ∃ y, f x = .ok y) : ∃ g : α → β, ∀ x ∈ xs, f x = .ok (g x) := by
  refine ⟨fun x => (f x).toOption.getD default, fun x hx => ?_⟩
  obtain ⟨y, hy⟩ := h x hx
  simp only [hy]
  rfl

theorem mapM_congr {f g : α → Except ε β} {xs : List α} (h : ∀ x ∈ xs, f x = g x) :
    xs.mapM f = xs.mapM g := by
  induction xs with
  | nil => rfl
  | cons x xs ih =>
    rw [List.mapM_cons, List.mapM_cons, h x List.mem_cons_self,
      ih fun y hy => h y (List.mem_cons_of_mem x hy)]

/-- Changing the items first or the results last. -/
theorem mapM_map {α' β' : Type} {f : α → α'} {g : α → Except ε β} {g' : α' → Except ε β'}
    {k : β → β'} {xs : List α} (h : ∀ x ∈ xs, g' (f x) = (g x).map k) :
    (xs.map f).mapM g' = (xs.mapM g).map (List.map k) := by
  induction xs with
  | nil => rfl
  | cons x xs ih =>
    rw [List.forall_mem_cons] at h
    rw [List.map_cons, List.mapM_cons, List.mapM_cons, h.1, ih h.2]
    cases g x with
    | error e => rfl
    | ok y => cases xs.mapM g <;> rfl

/-- Every result in a list comes from an item. -/
theorem exists_mem_of_mapM {f : α → Except ε β} {xs : List α} {ys : List β}
    (h : xs.mapM f = .ok ys) {y : β} (hy : y ∈ ys) : ∃ x ∈ xs, f x = .ok y := by
  have pairs := mapM_eq_ok_iff.mp h
  induction pairs with
  | nil => cases hy
  | @cons x y' xs ys hxy _ ih =>
    rcases List.mem_cons.mp hy with rfl | hy
    · exact ⟨x, List.mem_cons_self, hxy⟩
    · obtain ⟨x', hx', h'⟩ := ih (mapM_eq_ok_iff.mpr ‹_›) hy
      exact ⟨x', List.mem_cons_of_mem x hx', h'⟩

/-- The results that are present, if all computations succeed. -/
theorem filterMap_of_mapM {f : α → Except ε (Option β)} {xs : List α} {ys : List (Option β)}
    (h : xs.mapM f = .ok ys) : ys.filterMap id = xs.filterMap fun x => (f x).toOption.join := by
  have pairs := mapM_eq_ok_iff.mp h
  clear h
  induction pairs with
  | nil => rfl
  | @cons x y xs ys hxy _ ih =>
    rw [List.filterMap_cons, List.filterMap_cons, ih, hxy]
    rfl

/-- Whether a computation succeeds if something holds, and fails for one reason if it does not. -/
inductive OkIff (holds : Prop) (reason : ε) (outcome : Except ε α) : Prop where
  | ok {a : α} (h : holds) (eq : outcome = .ok a)
  | error (h : ¬ holds) (eq : outcome = .error reason)

namespace OkIff

variable {holds : Prop} {reason : ε} {outcome : Except ε α}

theorem exists_iff (h : OkIff holds reason outcome) : (∃ a, outcome = .ok a) ↔ holds := by
  cases h with
  | ok h eq => exact ⟨fun _ => h, fun _ => ⟨_, eq⟩⟩
  | error h eq => exact ⟨fun ⟨_, heq⟩ => (nomatch eq.symm.trans heq), fun h' => absurd h' h⟩

theorem congr {holds' : Prop} (h : OkIff holds reason outcome) (iff : holds ↔ holds') :
    OkIff holds' reason outcome := by
  cases h with
  | ok h eq => exact .ok (iff.mp h) eq
  | error h eq => exact .error (fun h' => h (iff.mpr h')) eq

theorem map (h : OkIff holds reason outcome) (f : α → β) :
    OkIff holds reason (outcome.map f) := by
  cases h with
  | ok h eq => exact .ok h (by rw [eq]; rfl)
  | error h eq => exact .error h (by rw [eq]; rfl)

theorem mapError {ε' : Type} (h : OkIff holds reason outcome) (f : ε → ε') :
    OkIff holds (f reason) (outcome.mapError f) := by
  cases h with
  | ok h eq => exact .ok h (by rw [eq]; rfl)
  | error h eq => exact .error h (by rw [eq]; rfl)

theorem mapM {f : α → Except ε β} {P : α → Prop} {xs : List α}
    (h : ∀ x ∈ xs, OkIff (P x) reason (f x)) : OkIff (∀ x ∈ xs, P x) reason (xs.mapM f) := by
  induction xs with
  | nil => exact .ok nofun rfl
  | cons x xs ih =>
    rw [List.forall_mem_cons] at h
    rw [List.mapM_cons]
    cases h.1 with
    | error hx eq => exact .error (fun hall => hx (hall x List.mem_cons_self)) (by rw [eq]; rfl)
    | ok hx eq =>
      cases ih h.2 with
      | error hxs eqs =>
        refine .error (fun hall => hxs fun y hy => hall y (List.mem_cons_of_mem x hy)) ?_
        rw [eq, eqs]
        rfl
      | ok hxs eqs => exact .ok (List.forall_mem_cons.mpr ⟨hx, hxs⟩) (by rw [eq, eqs]; rfl)

end OkIff

end OpenApi.Except
