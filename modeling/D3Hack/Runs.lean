import Mathlib.Data.List.Basic

/-!
# Runs of a step function

A deterministic system is a step function `step : S → A → S`, and `Runs.run` takes it
along a list of inputs. An invariant is proved for one step and carried over a run by
`Runs.run_invariant`, or by `Runs.run_invariant_of_stepsMeet` when only the steps meeting
a condition keep it.

`Runs.StepsMeet` says that each step of a run meets a condition on the state before it and
its input, and `Runs.Along` that a property holds in each state reached. Both speak of the
states after the prefixes of the inputs (`Runs.stepsMeet_iff`, `Runs.along_iff`).
`Runs.along_iff_stepsMeet` exchanges the two: where a property is kept by exactly the
steps that meet a condition, it holds along a run if and only if all its steps meet it.
-/

namespace Runs

variable {S A : Type*} (step : S → A → S)

/-- The state after the inputs `as`, from `s`. -/
def run : S → List A → S
  | s, [] => s
  | s, a :: as => run (step s a) as

/-- Each step of the run meets `C` in the state before it. -/
def StepsMeet (C : S → A → Prop) : S → List A → Prop
  | _, [] => True
  | s, a :: as => C s a ∧ StepsMeet C (step s a) as

/-- `P` holds in each state of the run, the first included. -/
def Along (P : S → Prop) : S → List A → Prop
  | s, [] => P s
  | s, a :: as => P s ∧ Along P (step s a) as

/-- `P` holds in each state of the run after the first. -/
def After (P : S → Prop) : S → List A → Prop
  | _, [] => True
  | s, a :: as => P (step s a) ∧ After P (step s a) as

variable {step}

@[simp] theorem run_nil (s : S) : run step s [] = s := rfl

@[simp] theorem run_cons (s : S) (a : A) (as : List A) :
    run step s (a :: as) = run step (step s a) as := rfl

theorem run_append (s : S) (as bs : List A) :
    run step s (as ++ bs) = run step (run step s as) bs := by
  induction as generalizing s with
  | nil => rfl
  | cons a as ih => exact ih (step s a)

@[simp] theorem run_concat (s : S) (as : List A) (a : A) :
    run step s (as ++ [a]) = step (run step s as) a := by
  simp [run_append]

@[simp] theorem stepsMeet_nil (C : S → A → Prop) (s : S) : StepsMeet step C s [] := trivial

/-- Each step of a run meets a condition exactly when each input meets it after those before. -/
theorem stepsMeet_iff {C : S → A → Prop} {s : S} {as : List A} :
    StepsMeet step C s as ↔ ∀ bs a cs, as = bs ++ a :: cs → C (run step s bs) a := by
  induction as generalizing s with
  | nil => simp
  | cons a as ih =>
    refine ⟨fun h bs b cs hb => ?_, fun h => ⟨h [] a as rfl, ih.2 fun bs b cs hb => ?_⟩⟩
    · cases bs with
      | nil =>
        obtain ⟨rfl, -⟩ := List.cons_eq_cons.1 hb
        exact h.1
      | cons b' bs =>
        obtain ⟨rfl, rfl⟩ := List.cons_eq_cons.1 hb
        exact ih.1 h.2 bs b cs rfl
    · exact h (a :: bs) b cs (by rw [hb]; rfl)

/-- Two conditions that agree under an invariant are met by the same runs. -/
theorem stepsMeet_congr {J : S → Prop} {C D : S → A → Prop} (hJ : ∀ s a, J s → J (step s a))
    (h : ∀ s a, J s → (C s a ↔ D s a)) {s : S} (hs : J s) (as : List A) :
    StepsMeet step C s as ↔ StepsMeet step D s as := by
  induction as generalizing s with
  | nil => rfl
  | cons a as ih => exact and_congr (h s a hs) (ih (hJ s a hs))

/-- What every step keeps holds at the end of a run. -/
theorem run_invariant {I : S → Prop} (hstep : ∀ s a, I s → I (step s a)) {s : S}
    (h : I s) (as : List A) : I (run step s as) := by
  induction as generalizing s with
  | nil => exact h
  | cons a as ih => exact ih (hstep s a h)

/-- What the steps meeting `C` keep holds at the end of a run of such steps. -/
theorem run_invariant_of_stepsMeet {I : S → Prop} {C : S → A → Prop}
    (hstep : ∀ s a, I s → C s a → I (step s a)) {s : S} (h : I s) {as : List A}
    (has : StepsMeet step C s as) : I (run step s as) := by
  induction as generalizing s with
  | nil => exact h
  | cons a as ih => exact ih (hstep s a h has.1) has.2

theorem Along.head {P : S → Prop} {s : S} {as : List A} (h : Along step P s as) : P s := by
  cases as with
  | nil => exact h
  | cons a as => exact h.1

/-- A property along a run holds after each prefix of it. -/
theorem along_iff {P : S → Prop} {s : S} {as : List A} :
    Along step P s as ↔ ∀ bs cs, as = bs ++ cs → P (run step s bs) := by
  induction as generalizing s with
  | nil =>
    refine ⟨fun h bs cs hb => ?_, fun h => h [] [] rfl⟩
    obtain ⟨rfl, -⟩ := List.append_eq_nil_iff.1 hb.symm
    exact h
  | cons a as ih =>
    refine ⟨fun h bs cs hb => ?_, fun h => ⟨h [] (a :: as) rfl, ih.2 fun bs cs hb => ?_⟩⟩
    · cases bs with
      | nil => exact h.1
      | cons b bs =>
        obtain ⟨rfl, rfl⟩ := List.cons_eq_cons.1 hb
        exact ih.1 h.2 bs cs rfl
    · exact h (a :: bs) cs (by rw [hb]; rfl)

/-- What every step keeps holds along a run. -/
theorem along_invariant {P : S → Prop} (hstep : ∀ s a, P s → P (step s a)) {s : S} (h : P s)
    (as : List A) : Along step P s as :=
  along_iff.2 fun bs _ _ => run_invariant hstep h bs

/-- What follows from an invariant that the steps meeting `C` keep holds along a run of such
steps. -/
theorem along_of_stepsMeet {I P : S → Prop} {C : S → A → Prop}
    (hstep : ∀ s a, I s → C s a → I (step s a)) (hP : ∀ s, I s → P s) {s : S} (h : I s)
    {as : List A} (has : StepsMeet step C s as) : Along step P s as := by
  induction as generalizing s with
  | nil => exact hP s h
  | cons a as ih => exact ⟨hP s h, ih (hstep s a h has.1) has.2⟩

/-- Where, under an invariant `J`, a step from a state with `P` leads to `P` exactly when it
meets `C`, a run keeps `P` in each state exactly when each step meets `C`. -/
theorem along_iff_stepsMeet {J P : S → Prop} {C : S → A → Prop}
    (hJ : ∀ s a, J s → J (step s a)) (hP : ∀ s a, J s → P s → (P (step s a) ↔ C s a))
    {s : S} (hs : J s) (h : P s) (as : List A) :
    Along step P s as ↔ StepsMeet step C s as := by
  induction as generalizing s with
  | nil => simpa [Along] using h
  | cons a as ih =>
    refine ⟨fun ha => ?_, fun ha => ⟨h, ?_⟩⟩
    · exact ⟨(hP s a hs h).1 ha.2.head, (ih (hJ s a hs) ha.2.head).1 ha.2⟩
    · exact (ih (hJ s a hs) ((hP s a hs h).2 ha.1)).2 ha.2

/-- Where, under an invariant `J`, a step leads to `P` exactly when it starts with `P` and meets
`C`, a run ends with `P` exactly when it starts so and each step meets `C`. -/
theorem run_iff_stepsMeet {J P : S → Prop} {C : S → A → Prop}
    (hJ : ∀ s a, J s → J (step s a)) (hP : ∀ s a, J s → (P (step s a) ↔ P s ∧ C s a)) {s : S}
    (hs : J s) (as : List A) : P (run step s as) ↔ P s ∧ StepsMeet step C s as := by
  induction as generalizing s with
  | nil => exact (and_iff_left trivial).symm
  | cons a as ih => rw [run_cons, ih (hJ s a hs), hP s a hs, StepsMeet, and_assoc]

/-- Where, under an invariant `J`, a step leads to `P` exactly when it meets `C`, the states
after the steps of a run all have `P` exactly when all its steps meet `C`. -/
theorem after_iff_stepsMeet {J P : S → Prop} {C : S → A → Prop}
    (hJ : ∀ s a, J s → J (step s a)) (hP : ∀ s a, J s → (P (step s a) ↔ C s a)) {s : S}
    (hs : J s) (as : List A) : After step P s as ↔ StepsMeet step C s as := by
  induction as generalizing s with
  | nil => rfl
  | cons a as ih => exact and_congr (hP s a hs) (ih (hJ s a hs))

end Runs
