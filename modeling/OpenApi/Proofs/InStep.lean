import OpenApi.Proofs.Except
import Mathlib.Data.List.Perm.Basic

/-
Two computations that keep in step.

Rewriting a description changes the texts in it and with them what a failure says.  What stays the
same is whether there is a failure, and what a success comes to.  `InStep f x y` says that `x` and
`y` fail together and that a result of `y` is `f` of the result of `x`; the blocks that a resolution
is made of keep this up when their parts do.

What is added to a description may turn a failure into a success, but it leaves a success as it is.
`Carries x y` says this half of it: what `x` comes to, `y` comes to as well.

Between the two lies `InStepUnless`, which keeps count of how the computations may part: `y` may
succeed where `x` does not, if the failure of `x` is one that is excused.
-/
namespace OpenApi

variable {ε α β γ δ : Type}

/-- Whether two computations both fail, or both succeed with results that `f` relates. -/
def InStep (f : α → β) : Except ε α → Except ε β → Prop
  | .ok a, .ok b => f a = b
  | .error _, .error _ => True
  | _, _ => False

namespace InStep

variable {f : α → β} {x : Except ε α} {y : Except ε β}

theorem refl (x : Except ε α) : InStep id x x := by
  cases x with
  | ok a => exact (rfl : id a = a)
  | error e => exact True.intro

theorem of_map (h : y = x.map f) : InStep f x y := by
  subst h
  cases x with
  | ok a => exact (rfl : f a = f a)
  | error e => exact True.intro

theorem cases (h : InStep f x y) :
    (∃ a, x = .ok a ∧ y = .ok (f a)) ∨ ∃ e e', x = .error e ∧ y = .error e' := by
  cases x with
  | ok a =>
    cases y with
    | ok b => exact .inl ⟨a, rfl, congrArg Except.ok (Eq.symm h)⟩
    | error e => exact absurd h not_false
  | error e =>
    cases y with
    | ok b => exact absurd h not_false
    | error e' => exact .inr ⟨e, e', rfl, rfl⟩

theorem ok_iff (h : InStep f x y) {b : β} : y = .ok b ↔ ∃ a, x = .ok a ∧ f a = b := by
  rcases h.cases with ⟨a, rfl, rfl⟩ | ⟨e, e', rfl, rfl⟩ <;> simp

/-- Computations with the same results succeed with the same result or not at all. -/
theorem eq_ok_iff {y : Except ε α} (h : InStep id x y) {a : α} : x = .ok a ↔ y = .ok a := by
  rw [h.ok_iff]
  simp

theorem toOption_eq {y : Except ε α} (h : InStep id x y) : x.toOption = y.toOption := by
  rcases h.cases with ⟨a, rfl, rfl⟩ | ⟨e, e', rfl, rfl⟩ <;> rfl

theorem bind {f' : γ → δ} {next : α → Except ε γ} {next' : β → Except ε δ} (h : InStep f x y)
    (hnext : ∀ a, x = .ok a → InStep f' (next a) (next' (f a))) :
    InStep f' (x >>= next) (y >>= next') := by
  rcases h.cases with ⟨a, rfl, rfl⟩ | ⟨e, e', rfl, rfl⟩
  · exact hnext a rfl
  · exact True.intro

/-- Lists of computations keep in step if the computations do, item by item. -/
theorem mapM {f : α → β} {g : α → Except ε γ} {g' : β → Except ε γ} {items : List α}
    (h : ∀ a ∈ items, InStep id (g a) (g' (f a))) :
    InStep id (items.mapM g) ((items.map f).mapM g') := by
  induction items with
  | nil => exact refl _
  | cons a rest ih =>
    rw [List.forall_mem_cons] at h
    rw [List.map_cons, List.mapM_cons, List.mapM_cons]
    exact h.1.bind fun c _ => (ih h.2).bind fun cs _ => refl _

end InStep

/-- Whether one computation comes to every result of another one. -/
def Carries (x y : Except ε α) : Prop := ∀ a, x = .ok a → y = .ok a

namespace Carries

variable {x y : Except ε α}

theorem refl (x : Except ε α) : Carries x x := fun _ h => h

theorem bind {next next' : α → Except ε β} (h : Carries x y)
    (hnext : ∀ a, x = .ok a → Carries (next a) (next' a)) :
    Carries (x >>= next) (y >>= next') := by
  intro b hb
  obtain ⟨a, ha, hb⟩ := Except.bind_eq_ok_iff.mp hb
  exact Except.bind_eq_ok_iff.mpr ⟨a, h a ha, hnext a ha b hb⟩

theorem mapM {f g : α → Except ε β} {items : List α} (h : ∀ a ∈ items, Carries (f a) (g a)) :
    Carries (items.mapM f) (items.mapM g) := by
  induction items with
  | nil => exact refl _
  | cons a rest ih =>
    rw [List.forall_mem_cons] at h
    rw [List.mapM_cons, List.mapM_cons]
    exact h.1.bind fun b _ => (ih h.2).bind fun bs _ => refl _

end Carries

/-- Whether two computations keep in step, but for failures of the first that are excused: their
results are related, and the second one succeeds where the first does. -/
def InStepUnless (excused : ε → Prop) (r : α → β → Prop) : Except ε α → Except ε β → Prop
  | .ok a, .ok b => r a b
  | .ok _, .error _ => False
  | .error e, .ok _ => excused e
  | .error _, .error _ => True

namespace InStepUnless

variable {excused : ε → Prop} {r : α → β → Prop} {x : Except ε α} {y : Except ε β}

theorem refl (x : Except ε α) : InStepUnless excused Eq x x := by
  cases x with
  | ok a => exact (rfl : a = a)
  | error e => exact True.intro

theorem of_eq {y : Except ε α} (h : x = y) : InStepUnless excused Eq x y := h ▸ refl x

theorem of_self {r : α → α → Prop} (hr : ∀ a, x = .ok a → r a a) : InStepUnless excused r x x := by
  cases x with
  | ok a => exact hr a rfl
  | error e => exact True.intro

theorem of_map {f : α → β} (h : y = x.map f) (hr : ∀ a, x = .ok a → r a (f a)) :
    InStepUnless excused r x y := by
  subst h
  cases x with
  | ok a => exact hr a rfl
  | error e => exact True.intro

theorem of_excused {e : ε} (h : excused e) (y : Except ε β) :
    InStepUnless excused r (.error e) y := by
  cases y with
  | ok b => exact h
  | error e' => exact True.intro

theorem of_inStep {f : α → β} (h : InStep f x y) (hr : ∀ a, x = .ok a → r a (f a)) :
    InStepUnless excused r x y := by
  rcases h.cases with ⟨a, rfl, rfl⟩ | ⟨e, e', rfl, rfl⟩
  · exact hr a rfl
  · exact True.intro

/-- Whatever the first computation may fail for. -/
theorem of_carries {y : Except ε α} {r : α → α → Prop} (h : Carries x y)
    (hr : ∀ a, x = .ok a → r a a) : InStepUnless (fun _ => True) r x y := by
  cases x with
  | ok a =>
    rw [h a rfl]
    exact hr a rfl
  | error e => exact .of_excused True.intro y

theorem cases (h : InStepUnless excused r x y) :
    (∃ a b, x = .ok a ∧ y = .ok b ∧ r a b) ∨
      ∃ e, x = .error e ∧ (excused e ∨ ∃ e', y = .error e') := by
  cases x with
  | ok a =>
    cases y with
    | ok b => exact .inl ⟨a, b, rfl, rfl, h⟩
    | error e => exact absurd h not_false
  | error e =>
    cases y with
    | ok b => exact .inr ⟨e, rfl, .inl h⟩
    | error e' => exact .inr ⟨e, rfl, .inr ⟨e', rfl⟩⟩

theorem inStep {y : Except ε α} (h : InStepUnless (fun _ => False) Eq x y) : InStep id x y := by
  rcases h.cases with ⟨a, _, rfl, rfl, rfl⟩ | ⟨e, rfl, hnever | ⟨e', rfl⟩⟩
  · exact InStep.refl _
  · exact absurd hnever not_false
  · exact True.intro

theorem carries {y : Except ε α} (h : InStepUnless excused Eq x y) : Carries x y := by
  rcases h.cases with ⟨a, _, rfl, rfl, rfl⟩ | ⟨e, rfl, _⟩
  · exact Carries.refl _
  · exact nofun

theorem mono {excused' : ε → Prop} (h : InStepUnless excused r x y)
    (himp : ∀ e, excused e → excused' e) : InStepUnless excused' r x y := by
  rcases h.cases with ⟨a, b, rfl, rfl, hab⟩ | ⟨e, rfl, hexcused | ⟨e', rfl⟩⟩
  · exact hab
  · exact of_excused (himp e hexcused) _
  · exact True.intro

theorem imp {r' : α → β → Prop} (h : InStepUnless excused r x y)
    (himp : ∀ a b, x = .ok a → r a b → r' a b) : InStepUnless excused r' x y := by
  rcases h.cases with ⟨a, b, rfl, rfl, hab⟩ | ⟨e, rfl, hexcused | ⟨e', rfl⟩⟩
  · exact himp a b rfl hab
  · exact of_excused hexcused _
  · exact True.intro

theorem bind {r' : γ → δ → Prop} {next : α → Except ε γ} {next' : β → Except ε δ}
    (h : InStepUnless excused r x y)
    (hnext : ∀ a b, x = .ok a → r a b → InStepUnless excused r' (next a) (next' b)) :
    InStepUnless excused r' (x >>= next) (y >>= next') := by
  rcases h.cases with ⟨a, b, rfl, rfl, hab⟩ | ⟨e, rfl, hexcused | ⟨e', rfl⟩⟩
  · exact hnext a b rfl hab
  · exact of_excused hexcused _
  · exact True.intro

/-- What follows equal results. -/
theorem bind_eq {y : Except ε α} {r' : γ → δ → Prop} {next : α → Except ε γ}
    {next' : α → Except ε δ} (h : InStepUnless excused Eq x y)
    (hnext : ∀ a, x = .ok a → InStepUnless excused r' (next a) (next' a)) :
    InStepUnless excused r' (x >>= next) (y >>= next') :=
  h.bind fun a _ ha hab => hab ▸ hnext a ha

theorem map {r' : γ → δ → Prop} {g : α → γ} {g' : β → δ} (h : InStepUnless excused r x y)
    (hg : ∀ a b, r a b → r' (g a) (g' b)) :
    InStepUnless excused r' (x.map g) (y.map g') := by
  rcases h.cases with ⟨a, b, rfl, rfl, hab⟩ | ⟨e, rfl, hexcused | ⟨e', rfl⟩⟩
  · exact hg a b hab
  · exact of_excused hexcused _
  · exact True.intro

theorem map_eq {y : Except ε α} (g : α → γ) (h : InStepUnless excused Eq x y) :
    InStepUnless excused Eq (x.map g) (y.map g) := h.map fun _ _ => congrArg g

/-- Lists of computations keep in step if the computations for related items do. -/
theorem mapM {g : α → Except ε γ} {g' : β → Except ε γ} {items : List α} {items' : List β}
    (hitems : List.Forall₂ r items items')
    (h : ∀ a ∈ items, ∀ b, r a b → InStepUnless excused Eq (g a) (g' b)) :
    InStepUnless excused Eq (items.mapM g) (items'.mapM g') := by
  induction hitems with
  | nil => exact refl _
  | @cons a b rest rest' hab _ ih =>
    rw [List.forall_mem_cons] at h
    rw [List.mapM_cons, List.mapM_cons]
    exact (h.1 b hab).bind_eq fun c _ => (ih h.2).bind_eq fun cs _ => refl _

/-- Computations for the same items in another order have the same results in another order. -/
theorem mapM_of_perm {f : α → Except ε β} {items items' : List α} (perm : items.Perm items') :
    InStepUnless excused List.Perm (items.mapM f) (items'.mapM f) := by
  cases h : items.mapM f with
  | ok results =>
    obtain ⟨results', pairs, same⟩ :=
      List.perm_comp_forall₂ perm.symm (Except.mapM_eq_ok_iff.mp h)
    rw [Except.mapM_eq_ok_iff.mpr pairs]
    exact same.symm
  | error failure =>
    cases h' : items'.mapM f with
    | ok results' =>
      obtain ⟨results, pairs, -⟩ := List.perm_comp_forall₂ perm (Except.mapM_eq_ok_iff.mp h')
      rw [Except.mapM_eq_ok_iff.mpr pairs] at h
      cases h
    | error failure' => exact True.intro

end InStepUnless
end OpenApi
