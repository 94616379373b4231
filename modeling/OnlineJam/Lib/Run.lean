import Mathlib.Data.List.Induction

/-!
# Runs of a labelled system

A system is a partial step function on a state type: `step s l` is the state after label `l`, or
`none` where `l` cannot happen. `exec` runs a list of labels, `Steps` is the same as a relation whose
steps may all be required to meet a condition. An observer watches the steps of a system and records
what it needs in a state of its own, without having a say in them.
-/

namespace OnlineJam.Lib

/-- A place in a history with one more event is the place of that event, or was there before. -/
theorem split_append_singleton {ι : Type} {xs ys zs : List ι} {a b : ι} (h : xs ++ [a] = ys ++ b :: zs) :
    (zs = [] ∧ xs = ys ∧ a = b) ∨ ∃ ws, zs = ws ++ [a] ∧ xs = ys ++ b :: ws := by
  rcases List.eq_nil_or_concat zs with rfl | ⟨ws, c, rfl⟩
  · obtain ⟨hxs, hab⟩ := List.append_inj' h rfl
    exact .inl ⟨rfl, hxs, List.singleton_inj.mp hab⟩
  · rw [List.concat_eq_append, ← List.cons_append, ← List.append_assoc] at h
    obtain ⟨hxs, hac⟩ := List.append_inj' h rfl
    rw [List.singleton_inj.mp hac]
    exact .inr ⟨ws, List.concat_eq_append, hxs⟩

section Runs

variable {σ ι ω : Type}

/-- The state after a list of labels. -/
def exec (step : σ → ι → Option σ) (s : σ) (ls : List ι) : Option σ := ls.foldlM step s

theorem exec_nil (step : σ → ι → Option σ) (s : σ) : exec step s [] = some s := rfl

theorem exec_cons (step : σ → ι → Option σ) (s : σ) (l : ι) (ls : List ι) :
    exec step s (l :: ls) = (step s l).bind fun t => exec step t ls := rfl

theorem exec_cons_of {step : σ → ι → Option σ} {s t : σ} {l : ι} (h : step s l = some t) (ls : List ι) :
    exec step s (l :: ls) = exec step t ls := by
  rw [exec_cons, h, Option.bind_some]

theorem exec_append (step : σ → ι → Option σ) (s : σ) (ls ms : List ι) :
    exec step s (ls ++ ms) = (exec step s ls).bind fun t => exec step t ms := by
  simp only [exec, List.foldlM_append]
  rfl

theorem exec_singleton (step : σ → ι → Option σ) (s : σ) (l : ι) : exec step s [l] = step s l := by
  show (step s l).bind some = step s l
  cases step s l <;> rfl

/-- A run from the first to the last state, every step of which meets the condition `c`. -/
inductive Steps (step : σ → ι → Option σ) (c : σ → ι → Prop) (s : σ) : List ι → σ → Prop
  | nil : Steps step c s [] s
  | snoc {ls : List ι} {t u : σ} {l : ι} (h : Steps step c s ls t) (hc : c t l)
      (hs : step t l = some u) : Steps step c s (ls ++ [l]) u

variable {step : σ → ι → Option σ} {c : σ → ι → Prop} {s t : σ} {ls : List ι}

/-- What holds at the start and is kept by every step of a run holds at its end. -/
theorem Steps.invariant {p : σ → Prop} (h : Steps step c s ls t) (h0 : p s)
    (hstep : ∀ ls t l u, Steps step c s ls t → p t → c t l → step t l = some u → p u) : p t := by
  induction h with
  | nil => exact h0
  | snoc h hc hs ih => exact hstep _ _ _ _ h ih hc hs

/-- The system with the steps that fail a test left out. -/
def guarded (step : σ → ι → Option σ) (test : σ → ι → Bool) (s : σ) (l : ι) : Option σ :=
  if test s l then step s l else none

theorem Steps.of_guarded {test : σ → ι → Bool} (hc : ∀ t l, test t l = true → c t l)
    (h : exec (guarded step test) s ls = some t) : Steps step c s ls t := by
  induction ls using List.reverseRecOn generalizing t with
  | nil => exact Option.some.inj h ▸ .nil
  | append_singleton ls l ih =>
    rw [exec_append, Option.bind_eq_some_iff] at h
    obtain ⟨u, hu, hl⟩ := h
    rw [exec_singleton, guarded] at hl
    split at hl
    · rename_i htest
      exact .snoc (ih hu) (hc u l htest) hl
    · cases hl

/-- A run on given labels exists, and ends as a test of its last state says. -/
theorem Steps.of_test {test : σ → ι → Bool} {p : σ → Bool} (hc : ∀ t l, test t l = true → c t l)
    (h : (exec (guarded step test) s ls).any p = true) : ∃ t, Steps step c s ls t ∧ p t = true := by
  obtain ⟨t, ht, hp⟩ := (Option.any_eq_true _ _).mp h
  exact ⟨t, .of_guarded hc ht, hp⟩

/-! ## One process -/

/-- What a process comes to by steps of its own, which it takes until it is done. -/
inductive Goes (move : σ → σ) (done : σ → Prop) : σ → σ → Prop
  | refl {s : σ} : Goes move done s s
  | step {s t : σ} (h : ¬ done s) (hs : Goes move done (move s) t) : Goes move done s t

theorem Goes.trans {move : σ → σ} {done : σ → Prop} {s t u : σ} (h : Goes move done s t)
    (h' : Goes move done t u) : Goes move done s u := by
  induction h with
  | refl => exact h'
  | step hs _ ih => exact .step hs (ih h')

/-- A process of a system that goes on alone: every step of its own is one of the system. -/
theorem Goes.exec {τ : Type} {move : τ → τ} {done : τ → Prop} {l : ι} {p : τ → σ}
    (hp : ∀ x, ¬ done x → step (p x) l = some (p (move x))) {x y : τ} (h : Goes move done x y) :
    ∃ k, exec step (p x) (List.replicate k l) = some (p y) := by
  induction h with
  | refl => exact ⟨0, rfl⟩
  | step hx _ ih =>
    obtain ⟨k, hk⟩ := ih
    refine ⟨k + 1, ?_⟩
    rw [List.replicate_succ, exec_cons, hp _ hx]
    exact hk

/-! ## Observers -/

/-- The system together with an observer. -/
def watch (step : σ → ι → Option σ) (observe : ω → σ → ι → σ → ω) (s : σ × ω) (l : ι) :
    Option (σ × ω) :=
  (step s.1 l).map fun t => (t, observe s.2 s.1 l t)

theorem watch_eq_some {observe : ω → σ → ι → σ → ω} {s t : σ × ω} {l : ι} :
    watch step observe s l = some t ↔ step s.1 l = some t.1 ∧ t.2 = observe s.2 s.1 l t.1 := by
  rw [watch, Option.map_eq_some_iff]
  constructor
  · rintro ⟨u, hu, rfl⟩
    exact ⟨hu, rfl⟩
  · rintro ⟨h1, h2⟩
    exact ⟨t.1, h1, Prod.ext rfl h2.symm⟩

/-- Observers do not change the runs of the system. -/
theorem Steps.of_watch {observe : ω → σ → ι → σ → ω} {c : σ × ω → ι → Prop} {s t : σ × ω}
    (h : Steps (watch step observe) c s ls t) : Steps step (fun _ _ => True) s.1 ls t.1 := by
  induction h with
  | nil => exact .nil
  | snoc _ _ hs ih => exact .snoc ih trivial (watch_eq_some.mp hs).1

/-- A system whose labels say more than its steps need. -/
theorem Steps.of_labels {κ : Type} {f : κ → ι} {step' : σ → κ → Option σ} {c : σ → κ → Prop} {ks : List κ}
    (hf : ∀ s k t, step' s k = some t → step s (f k) = some t) (h : Steps step' c s ks t) :
    Steps step (fun _ _ => True) s (ks.map f) t := by
  induction h with
  | nil => exact .nil
  | snoc _ _ hs ih =>
    rw [List.map_append]
    exact .snoc ih trivial (hf _ _ _ hs)

end Runs

end OnlineJam.Lib
