import Mathlib.Data.List.Basic

/-!
# Byte cursors

Checked access to a fixed buffer, and the two monads of hand-written codecs over it: a writer that
copies into the buffer and a scanner that consumes it. `none` is an out-of-range access (what a
bounds-checked language answers with a panic), `some (.error e)` a rejected input.

A writer is specified by the one operation `Cursor.emit`, which composes like list append; a scanner
by `Scan.Reads` (which input gives which value) and `Scan.Accepts` (what a success says about the
input). Both come with one rule for each monadic operation, and with one for reads of a fixed length
(`Scan.Fixed`).
-/

namespace OnlineJam.Lib

/-! ## Checked buffer access -/

section Access

variable {β : Type}

/-- `buf[i..i + v.len()].copy_from_slice(v)`. -/
def copyAt (buf : List β) (i : Nat) (v : List β) : Option (List β) :=
  if i + v.length ≤ buf.length then some (buf.take i ++ v ++ buf.drop (i + v.length)) else none

/-- `&buf[a..b]`. -/
def slice (buf : List β) (a b : Nat) : Option (List β) :=
  if a ≤ b ∧ b ≤ buf.length then some ((buf.drop a).take (b - a)) else none

/-- Unsigned subtraction, `none` on underflow. -/
def checkedSub (a b : Nat) : Option Nat :=
  if b ≤ a then some (a - b) else none

/-- Unsigned remainder, `none` on division by zero. -/
def checkedMod (a b : Nat) : Option Nat :=
  if 0 < b then some (a % b) else none

/-- `buf.copy_from_slice(v)`, which wants equal lengths. -/
def copyFrom (buf v : List β) : Option (List β) :=
  if v.length = buf.length then some v else none

theorem checkedSub_eq {a b : Nat} (h : b ≤ a) : checkedSub a b = some (a - b) := if_pos h

theorem checkedMod_eq {a b : Nat} (h : 0 < b) : checkedMod a b = some (a % b) := if_pos h

theorem slice_take {buf : List β} {i : Nat} (h : i ≤ buf.length) : slice buf 0 i = some (buf.take i) := by
  rw [slice, if_pos ⟨Nat.zero_le _, h⟩, List.drop_zero, Nat.sub_zero]

theorem slice_drop {buf : List β} {i : Nat} (h : i ≤ buf.length) :
    slice buf i buf.length = some (buf.drop i) := by
  rw [slice, if_pos ⟨h, Nat.le_refl _⟩, ← List.length_drop, List.take_length]

theorem slice_add {buf : List β} {i n : Nat} (h : i + n ≤ buf.length) :
    slice buf i (i + n) = some ((buf.drop i).take n) := by
  rw [slice, if_pos ⟨Nat.le_add_right i n, h⟩, Nat.add_sub_cancel_left]

end Access

/-- A buffer with a position in it. -/
structure Cursor (β : Type) where
  /-- The whole buffer. -/
  buf : List β
  /-- The index of the next element to write or to read. -/
  pos : Nat

namespace Cursor

variable {β : Type}

/-- What lies before the position. -/
def done (c : Cursor β) : List β := c.buf.take c.pos

/-- What lies at and after the position. -/
def rest (c : Cursor β) : List β := c.buf.drop c.pos

/-- The cursor `n` elements further. -/
def advance (c : Cursor β) (n : Nat) : Cursor β := { c with pos := c.pos + n }

/-- Writes `v` at the position and moves past it. -/
def emit (c : Cursor β) (v : List β) : Option (Cursor β) :=
  (copyAt c.buf c.pos v).map fun buf => { buf := buf, pos := c.pos + v.length }

@[simp] theorem advance_buf (c : Cursor β) (n : Nat) : (c.advance n).buf = c.buf := rfl

@[simp] theorem advance_pos (c : Cursor β) (n : Nat) : (c.advance n).pos = c.pos + n := rfl

theorem advance_advance (c : Cursor β) (m n : Nat) :
    (c.advance m).advance n = c.advance (m + n) := by
  simp [advance, Nat.add_assoc]

theorem rest_advance {c : Cursor β} {u v : List β} (h : c.rest = u ++ v) :
    (c.advance u.length).rest = v := by
  have hd : (c.advance u.length).rest = c.rest.drop u.length := by
    simp [rest, advance, List.drop_drop]
  rw [hd, h, List.drop_left]

theorem pos_add_le {c : Cursor β} {u v : List β} (h : c.rest = u ++ v)
    (hp : c.pos ≤ c.buf.length) : c.pos + u.length ≤ c.buf.length := by
  have hl := congrArg List.length h
  simp [rest] at hl
  omega

/-! ## Emitting -/

theorem emit_eq_some {c : Cursor β} {v : List β} (h : c.pos + v.length ≤ c.buf.length) :
    c.emit v = some { buf := c.buf.take c.pos ++ v ++ c.buf.drop (c.pos + v.length),
                      pos := c.pos + v.length } := by
  simp [emit, copyAt, h]

theorem emit_eq_none {c : Cursor β} {v : List β} (h : ¬ c.pos + v.length ≤ c.buf.length) :
    c.emit v = none := by
  simp [emit, copyAt, h]

theorem emit_nil {c : Cursor β} (h : c.pos ≤ c.buf.length) : c.emit [] = some c := by
  rw [emit_eq_some (by simpa using h)]
  simp

/-- Emitting twice is emitting the concatenation. -/
theorem emit_emit (c : Cursor β) (u v : List β) :
    (c.emit u).bind (fun c' => c'.emit v) = c.emit (u ++ v) := by
  by_cases hu : c.pos + u.length ≤ c.buf.length
  · have hlen : (c.buf.take c.pos ++ u).length = c.pos + u.length := by
      rw [List.length_append, List.length_take]; omega
    have htot : (c.buf.take c.pos ++ u ++ c.buf.drop (c.pos + u.length)).length = c.buf.length := by
      simp only [List.length_append, List.length_take, List.length_drop]; omega
    rw [emit_eq_some hu, Option.bind_some]
    by_cases hv : c.pos + (u ++ v).length ≤ c.buf.length
    · have hv' : c.pos + u.length + v.length ≤ c.buf.length := by simp at hv; omega
      have h1 : (c.buf.take c.pos ++ u ++ c.buf.drop (c.pos + u.length)).take (c.pos + u.length)
          = c.buf.take c.pos ++ u := by rw [← hlen]; exact List.take_left
      have h2 : (c.buf.take c.pos ++ u ++ c.buf.drop (c.pos + u.length)).drop
            (c.pos + u.length + v.length) = c.buf.drop (c.pos + u.length + v.length) := by
        rw [← List.drop_drop, ← hlen, List.drop_left, hlen, List.drop_drop]
      rw [emit_eq_some (by simp only [htot]; exact hv'), emit_eq_some hv, h1, h2]
      simp [Nat.add_assoc]
    · have hv' : ¬ c.pos + u.length + v.length ≤ c.buf.length := by simp at hv; omega
      rw [emit_eq_none hv, emit_eq_none (by simp only [htot]; exact hv')]
  · have huv : ¬ c.pos + (u ++ v).length ≤ c.buf.length := by simp; omega
    rw [emit_eq_none hu, emit_eq_none huv, Option.bind_none]

theorem le_of_emit_eq_some {c c' : Cursor β} {v : List β} (h : c.emit v = some c') :
    c.pos + v.length ≤ c.buf.length := by
  by_contra hv
  rw [emit_eq_none hv] at h
  exact Option.some_ne_none _ h.symm

theorem emit_pos_le {c c' : Cursor β} {v : List β} (h : c.emit v = some c') :
    c'.pos ≤ c'.buf.length := by
  have hv := le_of_emit_eq_some h
  rw [emit_eq_some hv] at h
  rw [← Option.some.inj h]
  simp only [List.length_append, List.length_take, List.length_drop]
  omega

/-- What a successful emission leaves in a fresh buffer. -/
theorem emit_zero {out v : List β} (h : v.length ≤ out.length) :
    (Cursor.mk out 0).emit v = some { buf := v ++ out.drop v.length, pos := v.length } := by
  rw [emit_eq_some (by simpa using h)]
  simp

end Cursor

/-! ## Scanning -/

/-- A computation that may reject its input (`some (.error e)`) or run out of range (`none`). -/
abbrev Checked (ε : Type) := ExceptT ε Option

/-- A scanner over a buffer of `β` with errors `ε`. -/
abbrev Scan (β ε : Type) := StateT (Cursor β) (Checked ε)

/-- Runs into the out-of-range outcome on `none`. -/
def orPanic {ε α : Type} (o : Option α) : Checked ε α := ExceptT.mk (o.map Except.ok)

namespace Checked

variable {ε α γ : Type}

theorem ok_inj {a b : α} (h : (some (.ok a) : Checked ε α) = some (.ok b)) : a = b :=
  Except.ok.inj (Option.some.inj h)

theorem error_ne_ok {e : ε} {a : α} : (some (.error e) : Checked ε α) ≠ some (.ok a) := by
  intro h
  have h' : (Except.error e : Except ε α) = .ok a := Option.some.inj h
  cases h'

theorem some_ne_none {r : Except ε α} : (some r : Checked ε α) ≠ none := Option.some_ne_none r

theorem bind_ok {x : Checked ε α} {a : α} {f : α → Checked ε γ} (h : x = some (.ok a)) :
    (x >>= f) = f a := by
  subst h; rfl

theorem bind_error {x : Checked ε α} {e : ε} {f : α → Checked ε γ} (h : x = some (.error e)) :
    (x >>= f) = some (.error e) := by
  subst h; rfl

/-- Inversion of a successful bind. -/
theorem bind_eq_ok {x : Checked ε α} {f : α → Checked ε γ} {c : γ}
    (h : (x >>= f) = some (.ok c)) : ∃ a, x = some (.ok a) ∧ f a = some (.ok c) := by
  rcases hx : x with _ | (e | a)
  · rw [hx] at h; exact absurd h.symm some_ne_none
  · rw [hx, bind_error rfl] at h; exact absurd h error_ne_ok
  · rw [hx, bind_ok rfl] at h; exact ⟨a, rfl, h⟩

/-- A bind stays in range if its parts do. -/
theorem bind_ne_none {x : Checked ε α} {f : α → Checked ε γ} (hx : x ≠ none)
    (hf : ∀ a, x = some (.ok a) → f a ≠ none) : (x >>= f) ≠ none := by
  rcases h : x with _ | (e | a)
  · exact absurd h hx
  · rw [bind_error rfl]; exact some_ne_none
  · rw [bind_ok rfl]; exact hf a h

@[simp] theorem orPanic_some (a : α) : (orPanic (some a) : Checked ε α) = some (.ok a) := rfl

@[simp] theorem pure_eq (a : α) : (pure a : Checked ε α) = some (.ok a) := rfl

@[simp] theorem throw_eq (e : ε) : (throw e : Checked ε α) = some (.error e) := rfl

end Checked

namespace Scan

variable {β ε α γ : Type}

/-- On any input that starts with `v`, the scanner consumes exactly `v` and returns `a`. -/
def Reads (r : Scan β ε α) (v : List β) (a : α) : Prop :=
  ∀ (c : Cursor β) (w : List β), c.pos ≤ c.buf.length → c.rest = v ++ w →
    r c = some (.ok (a, c.advance v.length))

/-- The scanner never runs out of range, and when it succeeds with `a`, what it consumed is some `v`
    with `R a v`. -/
def Accepts (r : Scan β ε α) (R : α → List β → Prop) : Prop :=
  ∀ c : Cursor β, c.pos ≤ c.buf.length → r c ≠ none ∧
    ∀ a c', r c = some (.ok (a, c')) →
      ∃ v w, c.rest = v ++ w ∧ c' = c.advance v.length ∧ R a v

theorem Reads.pure (a : α) : Reads (pure a : Scan β ε α) [] a := by
  intro c w _ _
  show some (Except.ok (a, c)) = _
  simp [Cursor.advance]

theorem Reads.bind {r : Scan β ε α} {k : α → Scan β ε γ} {u v : List β} {a : α} {b : γ}
    (hr : Reads r u a) (hk : Reads (k a) v b) : Reads (r >>= k) (u ++ v) b := by
  intro c w hp hc
  have hc' : c.rest = u ++ (v ++ w) := by rw [hc, List.append_assoc]
  show (r c >>= fun x => k x.1 x.2) = _
  rw [Checked.bind_ok (hr c _ hp hc'), hk _ w (Cursor.pos_add_le hc' hp) (Cursor.rest_advance hc'),
    Cursor.advance_advance, List.length_append]

theorem Reads.cast {r : Scan β ε α} {u v : List β} {a : α} (h : Reads r u a) (huv : u = v) :
    Reads r v a := huv ▸ h

theorem Reads.bind_pure {r : Scan β ε α} {v : List β} {a : α} (f : α → γ) (hr : Reads r v a) :
    Reads (r >>= fun x => Pure.pure (f x)) v (f a) :=
  (hr.bind (Reads.pure (f a))).cast (List.append_nil v)

/-- A check of what has been read consumes nothing. -/
theorem Reads.lift_bind {x : Checked ε α} {k : α → Scan β ε γ} {v : List β} {a : α} {b : γ}
    (h : x = some (.ok a)) (hk : Reads (k a) v b) : Reads (StateT.lift x >>= k) v b := by
  subst h
  exact hk

theorem Reads.ite_neg {p : Prop} [Decidable p] {r s : Scan β ε α} {v : List β} {a : α} (hp : ¬ p)
    (h : Reads s v a) : Reads (if p then r else s) v a := by rwa [if_neg hp]

/-- The scanner takes the next `n` elements and returns `f` of them, or rejects with `e` when fewer are
    left. -/
def Fixed (r : Scan β ε α) (n : Nat) (e : ε) (f : List β → α) : Prop :=
  ∀ c : Cursor β, c.pos ≤ c.buf.length → r c =
    if n ≤ c.rest.length then some (.ok (f (c.rest.take n), c.advance n)) else some (.error e)

theorem Fixed.bind {r : Scan β ε α} {n : Nat} {e : ε} {f : List β → α} {k : α → Scan β ε γ}
    {g : List β → γ} (hr : Fixed r n e f)
    (hk : ∀ b : List β, b.length = n → ∀ c, k (f b) c = some (.ok (g b, c))) :
    Fixed (r >>= k) n e g := by
  intro c hc
  show (r c >>= fun x => k x.1 x.2) = _
  have h := hr c hc
  by_cases hn : n ≤ c.rest.length
  · rw [if_pos hn] at h ⊢
    rw [Checked.bind_ok h, hk _ (by rw [List.length_take]; omega)]
  · rw [if_neg hn] at h ⊢
    rw [Checked.bind_error h]

theorem Fixed.reads {r : Scan β ε α} {n : Nat} {e : ε} {f : List β → α} (hr : Fixed r n e f)
    {v : List β} (hv : v.length = n) : Reads r v (f v) := by
  intro c w hp hc
  have hn : n ≤ c.rest.length := by rw [hc, List.length_append]; omega
  have ht : c.rest.take n = v := by rw [hc, ← hv, List.take_left]
  rw [hr c hp, if_pos hn, ht, hv]

theorem Fixed.accepts {r : Scan β ε α} {n : Nat} {e : ε} {f : List β → α} (hr : Fixed r n e f) :
    Accepts r fun a v => v.length = n ∧ a = f v := by
  intro c hp
  have h := hr c hp
  by_cases hn : n ≤ c.rest.length
  · rw [if_pos hn] at h
    refine ⟨by rw [h]; exact Checked.some_ne_none, fun a c' ha => ?_⟩
    have hlen : (c.rest.take n).length = n := by rw [List.length_take]; omega
    rw [h] at ha
    obtain ⟨rfl, rfl⟩ := Prod.mk.inj (Checked.ok_inj ha)
    exact ⟨c.rest.take n, c.rest.drop n, (List.take_append_drop _ _).symm, by rw [hlen], hlen, rfl⟩
  · rw [if_neg hn] at h
    refine ⟨by rw [h]; exact Checked.some_ne_none, fun a c' ha => ?_⟩
    rw [h] at ha
    exact absurd ha Checked.error_ne_ok

theorem Accepts.mono {r : Scan β ε α} {R S : α → List β → Prop} (h : Accepts r R)
    (hRS : ∀ a v, R a v → S a v) : Accepts r S := by
  intro c hc
  refine ⟨(h c hc).1, fun a c' hr => ?_⟩
  obtain ⟨v, w, h1, h2, h3⟩ := (h c hc).2 a c' hr
  exact ⟨v, w, h1, h2, hRS a v h3⟩

theorem Accepts.pure {a : α} {R : α → List β → Prop} (h : R a []) :
    Accepts (pure a : Scan β ε α) R := by
  intro c _
  have hp : (Pure.pure a : Scan β ε α) c = some (.ok (a, c)) := rfl
  refine ⟨by rw [hp]; exact Checked.some_ne_none, fun b c' hb => ?_⟩
  rw [hp] at hb
  obtain ⟨rfl, rfl⟩ := Prod.mk.inj (Checked.ok_inj hb)
  exact ⟨[], c.rest, rfl, by simp [Cursor.advance], h⟩

theorem Accepts.bind {r : Scan β ε α} {k : α → Scan β ε γ} {R : α → List β → Prop}
    {S : γ → List β → Prop} (hr : Accepts r R)
    (hk : ∀ a u, R a u → Accepts (k a) fun b v => S b (u ++ v)) : Accepts (r >>= k) S := by
  intro c hc
  show (r c >>= fun x => k x.1 x.2) ≠ none ∧ ∀ a c', (r c >>= fun x => k x.1 x.2) = _ → _
  refine ⟨Checked.bind_ne_none (hr c hc).1 ?_, ?_⟩
  · rintro ⟨a, c1⟩ h1
    obtain ⟨u, w, hu, rfl, hR⟩ := (hr c hc).2 a c1 h1
    exact (hk a u hR _ (Cursor.pos_add_le hu hc)).1
  · intro b c' h
    obtain ⟨⟨a, c1⟩, h1, h2⟩ := Checked.bind_eq_ok h
    obtain ⟨u, w, hu, rfl, hR⟩ := (hr c hc).2 a c1 h1
    obtain ⟨v, x, hv, rfl, hS⟩ := (hk a u hR _ (Cursor.pos_add_le hu hc)).2 b c' h2
    rw [Cursor.rest_advance hu] at hv
    refine ⟨u ++ v, x, by rw [hu, hv, List.append_assoc], ?_, hS⟩
    rw [Cursor.advance_advance, List.length_append]

theorem Accepts.bind_pure {r : Scan β ε α} {f : α → γ} {S : γ → List β → Prop}
    (hr : Accepts r fun a v => S (f a) v) : Accepts (r >>= fun x => Pure.pure (f x)) S :=
  hr.bind fun a u h => Accepts.pure (by rwa [List.append_nil])

theorem Accepts.lift_bind {x : Checked ε α} {k : α → Scan β ε γ} {S : γ → List β → Prop}
    (hx : x ≠ none) (hk : ∀ a, x = some (.ok a) → Accepts (k a) S) :
    Accepts (StateT.lift x >>= k) S := by
  rcases x with _ | (e | a)
  · exact absurd rfl hx
  · intro c _
    have hl : (StateT.lift (some (.error e)) >>= k : Scan β ε γ) c = some (.error e) := rfl
    exact ⟨by rw [hl]; exact Checked.some_ne_none,
      fun b c' hb => by rw [hl] at hb; exact absurd hb Checked.error_ne_ok⟩
  · exact hk a rfl

theorem Accepts.ite {p : Prop} [Decidable p] {r s : Scan β ε α} {R : α → List β → Prop}
    (hr : p → Accepts r R) (hs : ¬ p → Accepts s R) : Accepts (if p then r else s) R := by
  by_cases hp : p
  · rw [if_pos hp]; exact hr hp
  · rw [if_neg hp]; exact hs hp

theorem Accepts.throw (e : ε) (R : α → List β → Prop) : Accepts (throw e : Scan β ε α) R := by
  intro c _
  have ht : (MonadExcept.throw e : Scan β ε α) c = some (.error e) := rfl
  exact ⟨by rw [ht]; exact Checked.some_ne_none,
    fun b c' hb => by rw [ht] at hb; exact absurd hb Checked.error_ne_ok⟩

end Scan

end OnlineJam.Lib
