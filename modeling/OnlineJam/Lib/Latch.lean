import Mathlib.Data.List.Induction

/-!
# What has held since

A walk through the states of a system, a step of some relation at a time. What holds at the end of a walk
but did not at its start was made true by one of the steps, and has held ever since the last such step.
-/

namespace OnlineJam.Lib

variable {σ : Type*}

/-- A walk from the first to the last state, with the states that follow the first one. -/
inductive Walk (r : σ → σ → Prop) (s : σ) : List σ → σ → Prop
  | nil : Walk r s [] s
  | snoc {ss : List σ} {t u : σ} (h : Walk r s ss t) (hr : r t u) : Walk r s (ss ++ [u]) u

variable {r : σ → σ → Prop} {s t u : σ} {ss ts : List σ}

theorem Walk.single (h : r s t) : Walk r s [t] t := .snoc .nil h

theorem Walk.append (h : Walk r s ss t) (h' : Walk r t ts u) : Walk r s (ss ++ ts) u := by
  induction h' with
  | nil => rwa [List.append_nil]
  | snoc _ hr ih =>
    rw [← List.append_assoc]
    exact .snoc ih hr

/-- The last state comes last. -/
theorem Walk.ends (h : Walk r s ss t) : ∃ before, s :: ss = before ++ [t] := by
  cases h with
  | nil => exact ⟨[], rfl⟩
  | snoc h hr => exact ⟨s :: _, rfl⟩

theorem Walk.invariant {p : σ → Prop} (h : Walk r s ss t) (h0 : p s) (hstep : ∀ t u, p t → r t u → p u) :
    p t ∧ ∀ u ∈ ss, p u := by
  induction h with
  | nil => exact ⟨h0, fun u hu => by cases hu⟩
  | snoc h hr ih =>
    have hp := hstep _ _ ih.1 hr
    refine ⟨hp, fun u hu => ?_⟩
    rcases List.mem_append.mp hu with hu | hu
    · exact ih.2 u hu
    · rw [List.mem_singleton.mp hu]
      exact hp

/-- The last step that made it true, and all the states since. -/
theorem Walk.latched (h : Walk r s ss t) (held : σ → Prop) (h0 : ¬ held s) (ht : held t) :
    ∃ before prior latch after, s :: ss = before ++ prior :: latch :: after ∧ ¬ held prior ∧
      r prior latch ∧ (∀ u ∈ latch :: after, held u) ∧ (latch :: after).getLast? = some t := by
  induction h with
  | nil => exact absurd ht h0
  | @snoc ss t u h hr ih =>
    by_cases hheld : held t
    · obtain ⟨before, prior, latch, after, hsplit, hprior, hlatch, hsince, -⟩ := ih hheld
      refine ⟨before, prior, latch, after ++ [u], ?_, hprior, hlatch, fun v hv => ?_, ?_⟩
      · rw [← List.cons_append, hsplit, List.append_assoc]
        rfl
      · rw [← List.cons_append] at hv
        rcases List.mem_append.mp hv with hv | hv
        · exact hsince v hv
        · rw [List.mem_singleton.mp hv]
          exact ht
      · rw [← List.cons_append, List.getLast?_concat]
    · obtain ⟨before, hends⟩ := h.ends
      refine ⟨before, t, u, [], ?_, hheld, hr, fun v hv => ?_, rfl⟩
      · rw [← List.cons_append, hends, List.append_assoc]
        rfl
      · rw [List.mem_singleton.mp hv]
        exact ht

end OnlineJam.Lib
