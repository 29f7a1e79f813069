import Secp256k1.Error

/-!
# Repeated attempts

Rejection sampling and signing repeat a step until it gives a result.  The number of attempts is
limited, so that every run ends; a run that uses them up says so with an error of its own.
-/

set_option autoImplicit false

namespace Secp256k1

/-- More attempts than any run over a large group makes. -/
def ampleAttempts : Nat :=
  4294967296

/-- Repeats a step on a state.  The step ends the run with an error or a result; otherwise the
next attempt goes on from the state that it left. -/
def retry {σ α : Type} (step : σ → Except Error (Option α) × σ) :
    (attempts : Nat) → σ → Except Error α × σ
  | 0, state => (.error .attemptsExhausted, state)
  | attempts + 1, state =>
    match step state with
    | (.error cause, next) => (.error cause, next)
    | (.ok (some result), next) => (.ok result, next)
    | (.ok none, next) => retry step attempts next

end Secp256k1
