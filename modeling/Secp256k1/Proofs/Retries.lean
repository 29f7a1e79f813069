import Mathlib
import Secp256k1.Retry

/-!
# Ends of repeated attempts

Attempts without a result cost their number and nothing else.  A run therefore ends with the first
attempt that gives a result or fails, in the state that this attempt leaves.
-/

set_option autoImplicit false

namespace Secp256k1

variable {σ α : Type} {step : σ → Except Error (Option α) × σ}

/-- The state after a number of attempts, whatever they gave. -/
def stateAfter (step : σ → Except Error (Option α) × σ) (count : Nat) (state : σ) : σ :=
  (fun state => (step state).2)^[count] state

theorem stateAfter_succ (count : Nat) (state : σ) :
    stateAfter step (count + 1) state = stateAfter step count (step state).2 :=
  Function.iterate_succ_apply _ count state

theorem stateAfter_succ_eq_step (count : Nat) (state : σ) :
    stateAfter step (count + 1) state = (step (stateAfter step count state)).2 :=
  Function.iterate_succ_apply' _ count state

theorem stateAfter_preserves {holds : σ → Prop}
    (preserved : ∀ state, holds state → holds (step state).2) {state : σ} (held : holds state)
    (count : Nat) : holds (stateAfter step count state) := by
  induction count with
  | zero => exact held
  | succ count ih =>
    rw [stateAfter_succ_eq_step]
    exact preserved _ ih

/-- Attempts without a result are one attempt and the others from the state behind it. -/
theorem rejects_succ {count : Nat} {state : σ}
    (rejects : ∀ i < count + 1, (step (stateAfter step i state)).1 = .ok none) :
    (step state).1 = .ok none ∧
      ∀ i < count, (step (stateAfter step i (step state).2)).1 = .ok none := by
  refine ⟨rejects 0 (Nat.succ_pos count), fun i before => ?_⟩
  rw [← stateAfter_succ]
  exact rejects (i + 1) (Nat.succ_lt_succ before)

theorem retry_add {rejected : Nat} (attempts : Nat) : ∀ state,
    (∀ i < rejected, (step (stateAfter step i state)).1 = .ok none) →
      retry step (rejected + attempts) state =
        retry step attempts (stateAfter step rejected state) := by
  induction rejected with
  | zero =>
    intro state _
    rw [Nat.zero_add]
    rfl
  | succ rejected ih =>
    intro state rejects
    obtain ⟨first, others⟩ := rejects_succ rejects
    rw [stateAfter_succ, ← ih (step state).2 others, Nat.succ_add, retry]
    rcases outcome : step state with ⟨result, next⟩
    rw [outcome] at first
    cases first
    rfl

variable {attempts j : Nat} {state : σ}

theorem retry_eq {outcome : Except Error α} (allowed : j < attempts)
    (rejects : ∀ i < j, (step (stateAfter step i state)).1 = .ok none)
    (ends : (step (stateAfter step j state)).1 = outcome.map some) :
    retry step attempts state = (outcome, stateAfter step (j + 1) state) := by
  obtain ⟨left, rfl⟩ := Nat.exists_eq_add_of_lt allowed
  rw [Nat.add_assoc, retry_add _ state rejects, retry, stateAfter_succ_eq_step]
  rcases last : step (stateAfter step j state) with ⟨result, next⟩
  rw [last] at ends
  cases ends
  cases outcome <;> rfl

theorem retry_eq_exhausted
    (rejects : ∀ i < attempts, (step (stateAfter step i state)).1 = .ok none) :
    retry step attempts state = (.error .attemptsExhausted, stateAfter step attempts state) :=
  retry_add 0 state rejects

theorem exists_first_or_none (holds : Nat → Prop) (count : Nat) :
    (∃ j < count, holds j ∧ ∀ i < j, ¬ holds i) ∨ ∀ i < count, ¬ holds i := by
  classical
  by_cases present : ∃ j, j < count ∧ holds j
  · obtain ⟨below, first⟩ := Nat.find_spec present
    refine Or.inl ⟨Nat.find present, below, first, fun i before holdsAt => ?_⟩
    exact Nat.find_min present before ⟨before.trans below, holdsAt⟩
  · exact Or.inr fun i below holdsAt => present ⟨i, below, holdsAt⟩

theorem exists_eq_map_some {outcome : Except Error (Option α)} (ends : outcome ≠ .ok none) :
    ∃ final : Except Error α, outcome = final.map some := by
  rcases outcome with cause | (none | result)
  · exact ⟨.error cause, rfl⟩
  · exact absurd rfl ends
  · exact ⟨.ok result, rfl⟩

/-- Either some attempt within the limit is the first that ends the run, or all of them are used
up without a result. -/
theorem retry_cases (step : σ → Except Error (Option α) × σ) (attempts : Nat) (state : σ) :
    (∃ j < attempts, (∀ i < j, (step (stateAfter step i state)).1 = .ok none) ∧
      ∃ outcome, (step (stateAfter step j state)).1 = Except.map some outcome ∧
        retry step attempts state = (outcome, stateAfter step (j + 1) state)) ∨
    (∀ i < attempts, (step (stateAfter step i state)).1 = .ok none) ∧
      retry step attempts state = (.error .attemptsExhausted, stateAfter step attempts state) := by
  rcases exists_first_or_none (fun i => (step (stateAfter step i state)).1 ≠ .ok none) attempts with
    ⟨j, allowed, stops, earlier⟩ | endless
  · have rejects : ∀ i < j, (step (stateAfter step i state)).1 = .ok none :=
      fun i before => not_not.mp (earlier i before)
    obtain ⟨outcome, ends⟩ := exists_eq_map_some stops
    exact Or.inl ⟨j, allowed, rejects, outcome, ends, retry_eq allowed rejects ends⟩
  · have rejects : ∀ i < attempts, (step (stateAfter step i state)).1 = .ok none :=
      fun i before => not_not.mp (endless i before)
    exact Or.inr ⟨rejects, retry_eq_exhausted rejects⟩

theorem exists_of_retry_eq_ok {result : α} (attempts : Nat) (state : σ)
    (found : (retry step attempts state).1 = .ok result) :
    ∃ reached, (step reached).1 = .ok (some result) := by
  rcases retry_cases step attempts state with ⟨j, _, _, outcome, ends, equal⟩ | ⟨_, equal⟩
  · rw [equal] at found
    cases found
    exact ⟨_, ends⟩
  · rw [equal] at found
    cases found

/-- An error is one of the step, or says that the attempts are used up. -/
theorem exists_of_retry_eq_error {cause : Error} (attempts : Nat) (state : σ)
    (failed : (retry step attempts state).1 = .error cause) :
    cause = .attemptsExhausted ∨ ∃ reached, (step reached).1 = .error cause := by
  rcases retry_cases step attempts state with ⟨j, _, _, outcome, ends, equal⟩ | ⟨_, equal⟩
  · rw [equal] at failed
    cases failed
    exact Or.inr ⟨_, ends⟩
  · rw [equal] at failed
    cases failed
    exact Or.inl rfl

theorem retry_preserves {holds : σ → Prop}
    (preserved : ∀ state, holds state → holds (step state).2) (attempts : Nat) (state : σ)
    (held : holds state) : holds (retry step attempts state).2 := by
  rcases retry_cases step attempts state with ⟨j, _, _, outcome, _, equal⟩ | ⟨_, equal⟩
  · rw [equal]
    exact stateAfter_preserves preserved held (j + 1)
  · rw [equal]
    exact stateAfter_preserves preserved held attempts

end Secp256k1
