import Mathlib.Data.List.Basic

/-!
# Programs that make calls

A program is a tree of calls: `Prog.call op k` makes the call `op` and continues with its
reply, `Prog.done` returns and `Prog.abort` stops at a failed assertion. A `Handler` gives
each call its reply and its effect on the state, and `Prog.run` runs a program with it.

`Prog.trace` is the list of the states after each call, and `Prog.stop n` the state when
execution stops after `n` calls; by `Prog.getElem?_trace` a statement about every stopping
point is one about the entries of the trace. `Prog.Only`
bounds the calls a program makes, and `Prog.run_keeps` is the frame rule: what the allowed
calls keep, the program keeps.
-/

namespace Calls

variable {Op : Type} {Reply : Op → Type} {S α β : Type}

/-- A program over the calls `Op`, each with its type of replies. -/
inductive Prog (Op : Type) (Reply : Op → Type) (α : Type) where
  | done (a : α)
  | abort (msg : String)
  | call (op : Op) (k : Reply op → Prog Op Reply α)

/-- How a run ends: with a value, or at a failed assertion. -/
inductive Outcome (α : Type) where
  | value (a : α)
  | aborted (msg : String)
  deriving DecidableEq

/-- The reply and the effect of each call. -/
abbrev Handler (Op : Type) (Reply : Op → Type) (S : Type) := (op : Op) → S → Reply op × S

namespace Prog

/-- The calls of `p`, then the program `f` makes of its value. -/
def bind : Prog Op Reply α → (α → Prog Op Reply β) → Prog Op Reply β
  | done a, f => f a
  | abort msg, _ => abort msg
  | call op k, f => call op fun r => (k r).bind f

instance : Monad (Prog Op Reply) where
  pure := done
  bind := bind

theorem bind_done (p : Prog Op Reply α) : p.bind done = p := by
  induction p with
  | done a => rfl
  | abort msg => rfl
  | call op k ih => exact congrArg (call op) (funext ih)

theorem bind_bind {γ : Type} (p : Prog Op Reply α) (f : α → Prog Op Reply β)
    (g : β → Prog Op Reply γ) : (p.bind f).bind g = p.bind fun a => (f a).bind g := by
  induction p with
  | done a => rfl
  | abort msg => rfl
  | call op k ih => exact congrArg (call op) (funext ih)

instance : LawfulMonad (Prog Op Reply) :=
  LawfulMonad.mk' _ (fun p => bind_done p) (fun _ _ => rfl) fun p f g => bind_bind p f g

/-- One call, for its reply. -/
def perform (op : Op) : Prog Op Reply (Reply op) := call op done

/-- The outcome of a program and the state it leaves. -/
def run (h : Handler Op Reply S) : Prog Op Reply α → S → Outcome α × S
  | done a, s => (.value a, s)
  | abort msg, s => (.aborted msg, s)
  | call op k, s => (k (h op s).1).run h (h op s).2

/-- The states after each call, in order. -/
def trace (h : Handler Op Reply S) : Prog Op Reply α → S → List S
  | done _, _ => []
  | abort _, _ => []
  | call op k, s => (h op s).2 :: (k (h op s).1).trace h (h op s).2

/-- The state when execution stops after `n` calls, or at the end of the program. -/
def stop (h : Handler Op Reply S) : Prog Op Reply α → ℕ → S → S
  | call op k, n + 1, s => (k (h op s).1).stop h n (h op s).2
  | _, _, s => s

variable (h : Handler Op Reply S)

/-! ## Running -/

@[simp] theorem run_pure (a : α) (s : S) :
    (pure a : Prog Op Reply α).run h s = (.value a, s) := rfl

/-- The value of a program flows into the next one; an abort ends both. -/
theorem run_bind (p : Prog Op Reply α) (f : α → Prog Op Reply β) (s : S) :
    (p >>= f).run h s = match p.run h s with
      | (.value a, s') => (f a).run h s'
      | (.aborted msg, s') => (.aborted msg, s') := by
  induction p generalizing s with
  | done a => rfl
  | abort msg => rfl
  | call op k ih => exact ih _ _

@[simp] theorem run_perform_bind (op : Op) (f : Reply op → Prog Op Reply β) (s : S) :
    (perform op >>= f).run h s = (f (h op s).1).run h (h op s).2 := rfl

@[simp] theorem run_pure_bind (a : α) (f : α → Prog Op Reply β) (s : S) :
    (pure a >>= f).run h s = (f a).run h s := rfl

theorem run_bind_value {p : Prog Op Reply α} {s s' : S} {a : α}
    (hp : p.run h s = (.value a, s')) (f : α → Prog Op Reply β) :
    (p >>= f).run h s = (f a).run h s' := by
  rw [run_bind, hp]

theorem run_ite (c : Prop) [Decidable c] (p q : Prog Op Reply α) (s : S) :
    (if c then p else q).run h s = if c then p.run h s else q.run h s := by
  split_ifs <;> rfl

/-! ## Stopping -/

@[simp] theorem trace_pure (a : α) (s : S) : (pure a : Prog Op Reply α).trace h s = [] := rfl

@[simp] theorem trace_perform_bind (op : Op) (f : Reply op → Prog Op Reply β) (s : S) :
    (perform op >>= f).trace h s = (h op s).2 :: (f (h op s).1).trace h (h op s).2 := rfl

/-- The calls of a sequence are those of its first part, then those of its second. -/
theorem trace_bind_value {p : Prog Op Reply α} {s s' : S} {a : α}
    (hp : p.run h s = (.value a, s')) (f : α → Prog Op Reply β) :
    (p >>= f).trace h s = p.trace h s ++ (f a).trace h s' := by
  induction p generalizing s with
  | done b =>
    obtain ⟨hb, rfl⟩ := Prod.mk.inj hp
    obtain rfl := Outcome.value.inj hb
    rfl
  | abort msg => cases (Prod.mk.inj hp).1
  | call op k ih => exact congrArg (_ :: ·) (ih _ hp)

/-- A program that stops after `n` calls is in the `n`-th of its states, or in the last. -/
theorem getElem?_trace (p : Prog Op Reply α) (s : S) (n : ℕ) :
    (s :: p.trace h s)[min n (p.trace h s).length]? = some (p.stop h n s) := by
  induction p generalizing s n with
  | done a => simp [stop, trace]
  | abort msg => simp [stop, trace]
  | call op k ih =>
    cases n with
    | zero => simp [stop]
    | succ n =>
      rw [stop, trace, List.length_cons, Nat.succ_min_succ, List.getElem?_cons_succ]
      exact ih _ _ n

/-! ## The calls a program makes -/

/-- Every call of the program satisfies `allowed`, whatever the replies. -/
def Only (allowed : Op → Prop) : Prog Op Reply α → Prop
  | done _ => True
  | abort _ => True
  | call op k => allowed op ∧ ∀ r, (k r).Only allowed

@[simp] theorem only_pure (allowed : Op → Prop) (a : α) :
    (pure a : Prog Op Reply α).Only allowed := trivial

theorem only_perform_bind (allowed : Op → Prop) (op : Op) (f : Reply op → Prog Op Reply β) :
    (perform op >>= f).Only allowed ↔ allowed op ∧ ∀ r, (f r).Only allowed := Iff.rfl

theorem Only.ite {allowed : Op → Prop} {c : Prop} [Decidable c] {p q : Prog Op Reply α}
    (hp : p.Only allowed) (hq : q.Only allowed) : (if c then p else q).Only allowed := by
  split_ifs
  · exact hp
  · exact hq

theorem Only.bind {allowed : Op → Prop} {p : Prog Op Reply α} {f : α → Prog Op Reply β}
    (hp : p.Only allowed) (hf : ∀ a, (f a).Only allowed) : (p >>= f).Only allowed := by
  induction p with
  | done a => exact hf a
  | abort msg => trivial
  | call op k ih => exact ⟨hp.1, fun r => ih r (hp.2 r)⟩

/-- What every allowed call keeps, a program that makes only such calls keeps. -/
theorem run_keeps {allowed : Op → Prop} {I : S → Prop}
    (hI : ∀ op s, allowed op → I s → I (h op s).2) {p : Prog Op Reply α}
    (hp : p.Only allowed) {s : S} (hs : I s) : I (p.run h s).2 := by
  induction p generalizing s with
  | done a => exact hs
  | abort msg => exact hs
  | call op k ih => exact ih _ (hp.2 _) (hI op s hp.1 hs)

/-- What every allowed call keeps holds after each call of such a program. -/
theorem trace_keeps {allowed : Op → Prop} {I : S → Prop}
    (hI : ∀ op s, allowed op → I s → I (h op s).2) {p : Prog Op Reply α}
    (hp : p.Only allowed) {s : S} (hs : I s) : ∀ s' ∈ p.trace h s, I s' := by
  induction p generalizing s with
  | done a => simp [trace]
  | abort msg => simp [trace]
  | call op k ih =>
    have hnext := hI op s hp.1 hs
    rintro s' (_ | ⟨_, hs'⟩)
    · exact hnext
    · exact ih _ (hp.2 _) hnext s' hs'

end Prog

end Calls
