import Mathlib.Logic.Basic

/-!
# Machines that answer calls

A machine takes a call, answers it and goes on. One that may fail at a call refines one that never does
if a relation between their states is kept by every call, with the same answer on both sides.
-/

namespace OnlineJam.Lib

variable {σ τ ι ω : Type}

/-- The answers to some calls in turn, and the state after them. -/
def replies (step : τ → ι → ω × τ) (t : τ) : List ι → List ω × τ
  | [] => ([], t)
  | call :: calls =>
    let (answer, t) := step t call
    let (answers, t) := replies step t calls
    (answer :: answers, t)

/-- The same for a machine that may fail, which it does not recover from. -/
def checkedReplies (step : σ → ι → Option (ω × σ)) (s : σ) : List ι → Option (List ω × σ)
  | [] => some ([], s)
  | call :: calls => do
    let (answer, s) ← step s call
    let (answers, s) ← checkedReplies step s calls
    pure (answer :: answers, s)

/-- Every call succeeds where the specification is, with its answer. -/
def Refines (R : σ → τ → Prop) (step : σ → ι → Option (ω × σ)) (spec : τ → ι → ω × τ) : Prop :=
  ∀ s t call, R s t → ∃ s', step s call = some ((spec t call).1, s') ∧ R s' (spec t call).2

theorem Refines.replies {R : σ → τ → Prop} {step : σ → ι → Option (ω × σ)} {spec : τ → ι → ω × τ}
    (h : Refines R step spec) {s : σ} {t : τ} (hst : R s t) (calls : List ι) :
    ∃ s', checkedReplies step s calls = some ((Lib.replies spec t calls).1, s') ∧
      R s' (Lib.replies spec t calls).2 := by
  induction calls generalizing s t with
  | nil => exact ⟨s, rfl, hst⟩
  | cons call calls ih =>
    obtain ⟨s', hcall, hst'⟩ := h s t call hst
    obtain ⟨s'', hcalls, hst''⟩ := ih hst'
    refine ⟨s'', ?_, hst''⟩
    rw [checkedReplies, hcall, Option.bind_eq_bind, Option.bind_some]
    dsimp only
    rw [hcalls]
    rfl

end OnlineJam.Lib
