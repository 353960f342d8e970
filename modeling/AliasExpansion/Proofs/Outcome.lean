-- SUMMARY: Taking apart computations that may fail.
import AliasExpansion.Error
import Mathlib.Data.List.Forall2

/-!
# Outcomes

Equations for sequences of computations in `Except`, and what a sequence that succeeded or failed
says about its parts.
-/

namespace AliasExpansion.Outcome

variable {ε ε' α β : Type}

@[simp] theorem ok_bind (a : α) (f : α → Except ε β) : (Except.ok a >>= f) = f a := rfl

@[simp] theorem error_bind (e : ε) (f : α → Except ε β) : (Except.error e >>= f) = .error e := rfl

@[simp] theorem pure_eq_ok (a : α) : (pure a : Except ε α) = .ok a := rfl

@[simp] theorem throw_eq_error (e : ε) : (throw e : Except ε α) = .error e := rfl

@[simp] theorem mapError_ok (f : ε → ε') (a : α) :
    (Except.ok a : Except ε α).mapError f = .ok a := rfl

@[simp] theorem mapError_error (f : ε → ε') (e : ε) :
    (Except.error e : Except ε α).mapError f = .error (f e) := rfl

@[simp] theorem monadLift_eq (x : Except ε α) : (monadLift x : Except ε α) = x := rfl

@[simp] theorem map_ok (f : α → β) (a : α) : (f <$> Except.ok a : Except ε β) = .ok (f a) := rfl

@[simp] theorem map_error (f : α → β) (e : ε) :
    (f <$> Except.error e : Except ε β) = .error e := rfl

@[simp] theorem run_throw {σ : Type} (e : ε) (s : σ) :
    (throw e : StateT σ (Except ε) α).run s = .error e := rfl

theorem bind_eq_ok {x : Except ε α} {f : α → Except ε β} {b : β} :
    (x >>= f) = .ok b ↔ ∃ a, x = .ok a ∧ f a = .ok b := by
  cases x <;> simp

theorem bind_eq_error {x : Except ε α} {f : α → Except ε β} {e : ε} :
    (x >>= f) = .error e ↔ x = .error e ∨ ∃ a, x = .ok a ∧ f a = .error e := by
  cases x <;> simp

theorem map_eq_ok {f : α → β} {x : Except ε α} {b : β} :
    f <$> x = .ok b ↔ ∃ a, x = .ok a ∧ f a = b := by
  cases x <;> simp

theorem map_eq_error {f : α → β} {x : Except ε α} {e : ε} : f <$> x = .error e ↔ x = .error e := by
  cases x <;> simp

theorem mapError_eq_ok {x : Except ε α} {f : ε → ε'} {a : α} :
    x.mapError f = .ok a ↔ x = .ok a := by
  cases x <;> simp

theorem toOption_eq_some {result : Except ε α} {a : α} :
    result.toOption = some a ↔ result = .ok a := by
  cases result <;> simp [Except.toOption]

/-- Why a computation failed, if it did. -/
def failure? : Except ε α → Option ε
  | .ok _ => none
  | .error e => some e

theorem failure?_eq_some {result : Except ε α} {e : ε} :
    failure? result = some e ↔ result = .error e := by
  cases result <;> simp [failure?]

theorem exists_of_mem_mapM {f : α → Except ε β} {items : List α} {results : List β}
    (h : items.mapM f = .ok results) {b : β} (hb : b ∈ results) : ∃ a ∈ items, f a = .ok b := by
  induction items generalizing results with
  | nil =>
    cases h
    cases hb
  | cons item rest ih =>
    rw [List.mapM_cons] at h
    obtain ⟨first, hfirst, h⟩ := bind_eq_ok.1 h
    obtain ⟨others, hothers, h⟩ := bind_eq_ok.1 h
    cases h
    rcases List.mem_cons.1 hb with rfl | hb
    · exact ⟨item, List.mem_cons_self, hfirst⟩
    · obtain ⟨a, ha, hf⟩ := ih hothers hb
      exact ⟨a, List.mem_cons_of_mem _ ha, hf⟩

/-- What is done to each result may be done to all of them in the end. -/
theorem mapM_map {γ : Type} (f : α → Except ε β) (g : β → γ) (items : List α) :
    items.mapM (fun a => g <$> f a) = List.map g <$> items.mapM f := by
  induction items with
  | nil => rfl
  | cons a items ih =>
    rw [List.mapM_cons, List.mapM_cons, ih]
    cases f a with
    | error e => rfl
    | ok b => cases items.mapM f <;> rfl

theorem mapM_mapError (f : α → Except ε β) (g : ε → ε') (items : List α) :
    items.mapM (fun a => (f a).mapError g) = (items.mapM f).mapError g := by
  induction items with
  | nil => rfl
  | cons a items ih =>
    rw [List.mapM_cons, List.mapM_cons, ih]
    cases f a <;> cases items.mapM f <;> rfl

theorem mapM_eq_ok {f : α → Except ε β} {items : List α} {results : List β} :
    items.mapM f = .ok results ↔ List.Forall₂ (fun a b => f a = .ok b) items results := by
  induction items generalizing results with
  | nil => simp [eq_comm]
  | cons a items ih =>
    simp only [List.mapM_cons, bind_eq_ok, pure_eq_ok, Except.ok.injEq, ih,
      List.forall₂_cons_left_iff]
    constructor
    · rintro ⟨b, hb, rest, hrest, rfl⟩
      exact ⟨b, rest, hb, hrest, rfl⟩
    · rintro ⟨b, rest, hb, hrest, rfl⟩
      exact ⟨b, hb, rest, hrest, rfl⟩

/-- A sequence fails as the first of its members that fails. -/
theorem mapM_eq_error {f : α → Except ε β} {items : List α} {e : ε} :
    items.mapM f = .error e ↔ ∃ before a after, items = before ++ a :: after
      ∧ (∀ a ∈ before, ∃ b, f a = .ok b) ∧ f a = .error e := by
  induction items with
  | nil => simp
  | cons a items ih =>
    simp only [List.mapM_cons, bind_eq_error, pure_eq_ok, reduceCtorEq, and_false, exists_false,
      or_false, ih]
    constructor
    · rintro (h | ⟨b, hb, before, a', after, rfl, hbefore, h⟩)
      · exact ⟨[], a, items, rfl, by simp, h⟩
      · exact ⟨a :: before, a', after, rfl, by simpa using ⟨⟨b, hb⟩, hbefore⟩, h⟩
    · rintro ⟨_ | ⟨_, before⟩, a', after, split, hbefore, h⟩
      · cases split
        exact .inl h
      · cases split
        obtain ⟨⟨b, hb⟩, hbefore⟩ := List.forall_mem_cons.mp hbefore
        exact .inr ⟨b, hb, before, a', after, rfl, hbefore, h⟩

/-- A sequence whose members succeed under a condition, each with a known result. -/
theorem mapM_eq_ok_of {f : α → Except ε β} {P : α → Prop} {g : α → β}
    (h : ∀ a b, f a = .ok b ↔ P a ∧ b = g a) {items : List α} {results : List β} :
    items.mapM f = .ok results ↔ (∀ a ∈ items, P a) ∧ results = items.map g := by
  simp only [mapM_eq_ok, h]
  induction items generalizing results with
  | nil => simp
  | cons a items ih =>
    simp only [List.forall₂_cons_left_iff, ih, List.forall_mem_cons, List.map_cons]
    constructor
    · rintro ⟨_, _, ⟨first, rfl⟩, ⟨rest, rfl⟩, rfl⟩
      exact ⟨⟨first, rest⟩, rfl⟩
    · rintro ⟨⟨first, rest⟩, rfl⟩
      exact ⟨_, _, ⟨first, rfl⟩, ⟨rest, rfl⟩, rfl⟩

theorem mapM_ok_of {f g : α → Except ε β} {items : List α}
    (h : ∀ a ∈ items, ∀ b, f a = .ok b → g a = .ok b) {results : List β}
    (ok : items.mapM f = .ok results) : items.mapM g = .ok results := by
  induction items generalizing results with
  | nil => exact ok
  | cons a items ih =>
    rw [List.forall_mem_cons] at h
    rw [List.mapM_cons] at ok ⊢
    obtain ⟨b, hb, ok⟩ := bind_eq_ok.mp ok
    obtain ⟨bs, hbs, ok⟩ := bind_eq_ok.mp ok
    rw [h.1 b hb, ok_bind, ih h.2 hbs, ok_bind]
    exact ok

/-- A fold that comes to its end has come past two neighbours. -/
theorem foldlM_pair_eq_ok {σ : Type} {f : σ → α → Except ε σ} {before after : List α}
    {first second : α} {start final : σ} :
    (before ++ first :: second :: after).foldlM f start = .ok final ↔
      ∃ middle one both, before.foldlM f start = .ok middle ∧ f middle first = .ok one
        ∧ f one second = .ok both ∧ after.foldlM f both = .ok final := by
  simp only [List.foldlM_append, List.foldlM_cons, bind_eq_ok]
  constructor
  · rintro ⟨middle, hbefore, one, hfirst, both, hsecond, hafter⟩
    exact ⟨middle, one, both, hbefore, hfirst, hsecond, hafter⟩
  · rintro ⟨middle, one, both, hbefore, hfirst, hsecond, hafter⟩
    exact ⟨middle, hbefore, one, hfirst, both, hsecond, hafter⟩

end AliasExpansion.Outcome
