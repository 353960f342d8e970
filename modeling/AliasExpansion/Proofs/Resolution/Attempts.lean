-- SUMMARY: Which attempts are collected for a call, and which of them is preferred.
import AliasExpansion.Proofs.Outcome
import AliasExpansion.Proofs.Resolution.Assignment

/-!
# Attempts

All overloads of a call are attempted in order. The collected attempts are the ones that succeed,
unless one fails with more than a refusal; the preferred one has the lowest rank, and all that come
before it have a higher one.
-/

namespace AliasExpansion

/-- Whether the error only says that an expression does not fit, so that another overload may be
    tried. -/
def Error.isRefusal (error : Error) : Bool :=
  error.isDiagnostic && !error.isInternal

@[simp] theorem Error.isRefusal_decode (cause : DecodeError) :
    (Error.decode cause).isRefusal = false := rfl

namespace Attempt

-- ---------------------------------------------------------------------------
-- Collecting
-- ---------------------------------------------------------------------------

theorem collect_eq_ok {attempt : Overload → Except Error Attempt} {overloads : List Overload}
    {attempts : List Attempt} (h : collect attempt overloads = .ok attempts) :
    (∀ overload ∈ overloads, ∀ e, attempt overload = .error e → e.isRefusal = true) ∧
      attempts = overloads.filterMap fun overload => (attempt overload).toOption := by
  induction overloads generalizing attempts with
  | nil =>
    cases h
    exact ⟨nofun, rfl⟩
  | cons overload rest ih =>
    rw [collect] at h
    cases hattempt : attempt overload with
    | ok fitting =>
      rw [hattempt] at h
      obtain ⟨others, hothers, hcons⟩ := Outcome.bind_eq_ok.1 h
      cases hcons
      obtain ⟨hrefusal, rfl⟩ := ih hothers
      refine ⟨List.forall_mem_cons.2 ⟨fun e he => ?_, hrefusal⟩, ?_⟩
      · rw [hattempt] at he
        cases he
      · rw [List.filterMap_cons, hattempt]
        rfl
    | error e =>
      simp only [hattempt] at h
      split at h
      · next hordinary =>
        obtain ⟨hrefusal, rfl⟩ := ih h
        refine ⟨List.forall_mem_cons.2 ⟨fun e' he' => ?_, hrefusal⟩, ?_⟩
        · rw [hattempt] at he'
          cases he'
          exact hordinary
        · rw [List.filterMap_cons, hattempt]
          rfl
      · cases h

theorem collect_eq_error {attempt : Overload → Except Error Attempt} {overloads : List Overload}
    {e : Error} (h : collect attempt overloads = .error e) :
    e.isRefusal = false ∧ ∃ overload ∈ overloads, attempt overload = .error e := by
  induction overloads with
  | nil => cases h
  | cons overload rest ih =>
    have hrest (h : collect attempt rest = .error e) : e.isRefusal = false ∧
        ∃ other ∈ overload :: rest, attempt other = .error e := by
      obtain ⟨hrefusal, other, hmem, hother⟩ := ih h
      exact ⟨hrefusal, other, List.mem_cons_of_mem _ hmem, hother⟩
    rw [collect] at h
    cases hattempt : attempt overload with
    | ok fitting =>
      rw [hattempt] at h
      obtain h | ⟨others, -, h⟩ := Outcome.bind_eq_error.1 h
      · exact hrest h
      · cases h
    | error e' =>
      simp only [hattempt] at h
      split at h
      · exact hrest h
      · next hordinary =>
        cases h
        exact ⟨by simpa [Error.isRefusal] using hordinary, overload, List.mem_cons_self, hattempt⟩

-- ---------------------------------------------------------------------------
-- Preferring
-- ---------------------------------------------------------------------------

/-- The rank of the selection that an attempt leads to. -/
def rank (attempt : Attempt) : ℕ ×ₗ Bool ×ₗ ℕ :=
  toLex (attempt.cost,
    toLex (attempt.overload.signature.isVariadic, attempt.overload.signature.arity))

theorem precedes_iff (a b : Attempt) : a.precedes b = true ↔ a.rank < b.rank := by
  simp only [precedes, rank, Prod.Lex.toLex_lt_toLex, Bool.or_eq_true, Bool.and_eq_true,
    decide_eq_true_eq, beq_iff_eq]
  cases a.overload.signature.isVariadic <;> cases b.overload.signature.isVariadic <;> simp

theorem best?_eq_none_iff {attempts : List Attempt} : best? attempts = none ↔ attempts = [] := by
  cases attempts with
  | nil => simp [best?]
  | cons attempt rest =>
    simp only [best?]
    cases best? rest <;> simp

/-- The preferred attempt is the first of those with the lowest rank. -/
theorem best?_eq_some {attempts : List Attempt} {best : Attempt}
    (h : best? attempts = some best) :
    ∃ before after, attempts = before ++ best :: after ∧
      (∀ other ∈ before, best.rank < other.rank) ∧ ∀ other ∈ after, best.rank ≤ other.rank := by
  induction attempts generalizing best with
  | nil => cases h
  | cons attempt rest ih =>
    simp only [best?] at h
    cases hrest : best? rest with
    | none =>
      rw [hrest] at h
      cases h
      rw [best?_eq_none_iff] at hrest
      exact ⟨[], [], by rw [hrest]; rfl, by simp, by simp⟩
    | some other =>
      obtain ⟨before, after, hsplit, hbefore, hafter⟩ := ih hrest
      simp only [hrest, Option.some.injEq] at h
      split at h
      · next hprecedes =>
        subst h
        rw [precedes_iff] at hprecedes
        refine ⟨attempt :: before, after, by rw [hsplit]; rfl, ?_, hafter⟩
        exact List.forall_mem_cons.2 ⟨hprecedes, hbefore⟩
      · next hprecedes =>
        subst h
        rw [precedes_iff, not_lt] at hprecedes
        refine ⟨[], rest, rfl, by simp, fun later hlater => ?_⟩
        rw [hsplit, List.mem_append, List.mem_cons] at hlater
        rcases hlater with hlater | rfl | hlater
        · exact hprecedes.trans (hbefore later hlater).le
        · exact hprecedes
        · exact hprecedes.trans (hafter later hlater)

end Attempt

end AliasExpansion
