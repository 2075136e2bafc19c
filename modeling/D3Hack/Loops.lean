import Mathlib.Data.Nat.Notation
import Mathlib.Order.Basic

/-!
# While loops

`Loops.loop cond body n s` is the loop `while (cond) body` from `s`, for at most `n` iterations:
the state in which it is over, or none if it is not over by then. The body says with its new
state whether the loop goes on, or breaks.

`Loops.loop_terminates` bounds the iterations by a measure, `Loops.loop_mono` says that more
iterations change nothing once the loop is over, and `Loops.loop_rule` is the rule of
invariants.
-/

namespace Loops

variable {S : Type*} (cond : S → Bool) (body : S → Bool × S)

/-- `while (cond) body`, for at most the given number of iterations. -/
def loop : ℕ → S → Option S
  | n, s =>
    if cond s then
      match n with
      | 0 => none
      | n + 1 =>
        match body s with
        | (true, s) => loop n s
        | (false, s) => some s
    else some s

variable {cond body} {s s' : S} {n k : ℕ}

theorem loop_of_not (h : cond s = false) : loop cond body n s = some s := by
  unfold loop
  simp [h]

theorem loop_zero (h : cond s = true) : loop cond body 0 s = none := by
  unfold loop
  simp [h]

theorem loop_go (h : cond s = true) (hb : body s = (true, s')) :
    loop cond body (n + 1) s = loop cond body n s' := by
  rw [loop]
  simp [h, hb]

theorem loop_break (h : cond s = true) (hb : body s = (false, s')) :
    loop cond body (n + 1) s = some s' := by
  rw [loop]
  simp [h, hb]

/-- A loop that is over stays over. -/
theorem loop_mono (h : loop cond body n s = some s') (hn : n ≤ k) :
    loop cond body k s = some s' := by
  induction n generalizing s k with
  | zero =>
    cases hc : cond s with
    | false =>
      rw [loop_of_not hc] at h ⊢
      exact h
    | true =>
      rw [loop_zero hc] at h
      cases h
  | succ n ih =>
    cases hc : cond s with
    | false =>
      rw [loop_of_not hc] at h ⊢
      exact h
    | true =>
      obtain ⟨k, rfl⟩ := Nat.exists_eq_add_of_le' (Nat.le_trans (Nat.le_add_left 1 n) hn)
      rcases hb : body s with ⟨_ | _, next⟩
      · rw [loop_break hc hb] at h ⊢
        exact h
      · rw [loop_go hc hb] at h ⊢
        exact ih h (Nat.le_of_succ_le_succ hn)

/-- A loop is over within `n` iterations if a measure of at most `n` is positive while the loop
runs, and decreases while it goes on. -/
theorem loop_terminates {I : S → Prop} (μ : S → ℕ)
    (hpos : ∀ s, I s → cond s = true → 0 < μ s)
    (hgo : ∀ s s', I s → cond s = true → body s = (true, s') → I s' ∧ μ s' < μ s) (hI : I s)
    (hn : μ s ≤ n) : ∃ s', loop cond body n s = some s' := by
  induction n generalizing s with
  | zero =>
    cases hc : cond s with
    | false => exact ⟨s, loop_of_not hc⟩
    | true =>
      have h := hpos s hI hc
      omega
  | succ n ih =>
    cases hc : cond s with
    | false => exact ⟨s, loop_of_not hc⟩
    | true =>
      rcases hb : body s with ⟨_ | _, next⟩
      · exact ⟨next, loop_break hc hb⟩
      · obtain ⟨hI', hlt⟩ := hgo s next hI hc hb
        rw [loop_go hc hb]
        exact ih hI' (by omega)

/-- What an invariant gives where the condition fails, and where the body breaks, holds when the
loop is over. -/
theorem loop_rule {I Q : S → Prop} (hexit : ∀ s, I s → cond s = false → Q s)
    (hgo : ∀ s s', I s → cond s = true → body s = (true, s') → I s')
    (hbreak : ∀ s s', I s → cond s = true → body s = (false, s') → Q s') (hI : I s)
    (h : loop cond body n s = some s') : Q s' := by
  induction n generalizing s with
  | zero =>
    cases hc : cond s with
    | false =>
      rw [loop_of_not hc] at h
      obtain rfl := Option.some.inj h
      exact hexit s hI hc
    | true =>
      rw [loop_zero hc] at h
      cases h
  | succ n ih =>
    cases hc : cond s with
    | false =>
      rw [loop_of_not hc] at h
      obtain rfl := Option.some.inj h
      exact hexit s hI hc
    | true =>
      rcases hb : body s with ⟨_ | _, next⟩
      · rw [loop_break hc hb] at h
        obtain rfl := Option.some.inj h
        exact hbreak s next hI hc hb
      · rw [loop_go hc hb] at h
        exact ih (hgo s next hI hc hb) h

end Loops
