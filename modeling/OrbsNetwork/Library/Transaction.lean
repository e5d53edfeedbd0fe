import Mathlib

/-! Calls that run as transactions: a call either returns a result with a new state or fails, and
a failed call leaves the state as it was. A run is a sequence of such calls, each with its input. -/

namespace Transaction

variable {ι σ ρ : Type*}

/-- One call as a transaction: its result, if any, and the state after it, which is the state
before when the call fails. -/
def commit (call : σ → Option (ρ × σ)) (s : σ) : Option ρ × σ :=
  match call s with
  | some (r, s') => (some r, s')
  | none => (none, s)

/-- The calls of `inputs` in turn: the result of each and the final state. -/
def run (call : ι → σ → Option (ρ × σ)) : List ι → σ → List (Option ρ) × σ
  | [], s => ([], s)
  | i :: rest, s =>
    let (r, s) := commit (call i) s
    let (results, s) := run call rest s
    (r :: results, s)

variable {call : ι → σ → Option (ρ × σ)}

@[simp] theorem run_nil (s : σ) : run call [] s = ([], s) := rfl

theorem commit_of_none {f : σ → Option (ρ × σ)} {s : σ} (failed : f s = none) : commit f s = (none, s) := by
  rw [commit, failed]

theorem run_cons (i : ι) (rest : List ι) (s : σ) :
    run call (i :: rest) s =
      ((commit (call i) s).1 :: (run call rest (commit (call i) s).2).1, (run call rest (commit (call i) s).2).2) := rfl

/-- From a state in which every call fails, a run changes nothing and every call fails. -/
theorem run_of_stuck {s : σ} (stuck : ∀ i, call i s = none) (inputs : List ι) :
    run call inputs s = (inputs.map fun _ => none, s) := by
  induction inputs with
  | nil => rfl
  | cons i rest ih => rw [run_cons, commit_of_none (stuck i), ih]; rfl

end Transaction
