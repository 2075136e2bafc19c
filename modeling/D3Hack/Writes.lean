import Mathlib.Data.List.Nodup
import Mathlib.Data.List.Flatten
import Mathlib.Data.List.Pairwise
import Mathlib.Logic.Function.Basic

/-!
# Writes to a memory, and tables of guarded blocks

A memory is a partial map, and `Writes.apply` is the memory after a series of writes. Where no
key is written twice, a fresh memory holds exactly the writes (`Writes.holds_apply`), and a
block is written anew by `Writes.Holds.refresh`. Memories that hold writes are compared as sets
of writes (`Writes.Holds.eq_iff`).

A `Guarded.Table` lists blocks with their guards, and `Guarded.emit` gives the blocks whose
guards hold of a configuration. Where the blocks are disjoint, the emitted entries determine
the guards (`Guarded.guards_eq`).
-/

namespace Writes

variable {K V : Type} [DecidableEq K]

/-- The memory after a series of writes. -/
def apply (m : K → Option V) : List (K × V) → K → Option V
  | [] => m
  | w :: ws => apply (Function.update m w.1 (some w.2)) ws

/-- The keys of a series of writes. -/
abbrev keys (ws : List (K × V)) : List K := ws.map Prod.fst

variable {m : K → Option V} {ws vs : List (K × V)} {k : K} {v : V}

@[simp] theorem apply_nil : apply m [] = m := rfl

theorem apply_append : apply m (ws ++ vs) = apply (apply m ws) vs := by
  induction ws generalizing m with
  | nil => rfl
  | cons w ws ih => exact ih

theorem apply_of_not_mem (h : k ∉ keys ws) : apply m ws k = m k := by
  induction ws generalizing m with
  | nil => rfl
  | cons w ws ih =>
    obtain ⟨hw, hws⟩ : k ≠ w.1 ∧ k ∉ keys ws := by simpa [keys] using h
    rw [apply, ih hws, Function.update_of_ne hw]

omit [DecidableEq K] in
/-- What is written under a condition is written under a weaker one. -/
theorem keys_ite_subset {p q : Prop} [Decidable p] [Decidable q] (hpq : p → q)
    (h : keys ws ⊆ keys vs) :
    keys (if p then ws else []) ⊆ keys (if q then vs else []) := by
  by_cases hp : p
  · rwa [if_pos hp, if_pos (hpq hp)]
  · rw [if_neg hp]
    exact List.nil_subset _

/-- A memory holds the writes, and elsewhere what it held before. -/
theorem apply_eq_some_iff (hn : (keys ws).Nodup) :
    apply m ws k = some v ↔ (k, v) ∈ ws ∨ k ∉ keys ws ∧ m k = some v := by
  induction ws generalizing m with
  | nil => simp
  | cons w ws ih =>
    obtain ⟨k', v'⟩ := w
    obtain ⟨hk', hn'⟩ : k' ∉ keys ws ∧ (keys ws).Nodup := by simpa [keys] using hn
    rw [apply, ih hn']
    by_cases hk : k = k'
    · subst hk
      have hmem : (k, v) ∉ ws := fun h => hk' (List.mem_map_of_mem (f := Prod.fst) h)
      simp [keys, hk', hmem, eq_comm]
    · simp [keys, hk]

/-- The memory holds exactly the writes `ws`. -/
def Holds (m : K → Option V) (ws : List (K × V)) : Prop := ∀ k v, m k = some v ↔ (k, v) ∈ ws

theorem holds_apply (hn : (keys ws).Nodup) : Holds (apply (fun _ => none) ws) ws := fun k v => by
  simp [apply_eq_some_iff hn]

omit [DecidableEq K] in
theorem Holds.congr (h : Holds m ws) (hw : ∀ w, w ∈ ws ↔ w ∈ vs) : Holds m vs := fun k v =>
  (h k v).trans (hw (k, v))

omit [DecidableEq K] in
/-- Memories are equal when they hold the same writes. -/
theorem Holds.eq_iff {m' : K → Option V} (h : Holds m ws) (h' : Holds m' vs) :
    m = m' ↔ ∀ w, w ∈ ws ↔ w ∈ vs := by
  refine ⟨?_, fun hw => funext fun k => Option.ext fun v => ?_⟩
  · rintro rfl w
    exact (h w.1 w.2).symm.trans (h' w.1 w.2)
  · rw [h k v, h' k v, hw]

/-- A block written anew replaces what was written to its keys. -/
theorem Holds.refresh {us old new : List (K × V)} (h : Holds m (us ++ old))
    (hold : keys old ⊆ keys new) (hn : (keys (us ++ new)).Nodup) :
    Holds (apply m new) (us ++ new) := by
  rw [keys, List.map_append] at hn
  obtain ⟨-, hnew, hdisj⟩ := List.nodup_append'.1 hn
  intro k v
  rw [apply_eq_some_iff hnew, h k v, List.mem_append, List.mem_append]
  refine ⟨?_, ?_⟩
  · rintro (hv | ⟨hk, hv | hv⟩)
    · exact .inr hv
    · exact .inl hv
    · exact absurd (hold (List.mem_map_of_mem (f := Prod.fst) hv)) hk
  · rintro (hv | hv)
    · exact .inr ⟨hdisj (List.mem_map_of_mem (f := Prod.fst) hv), .inl hv⟩
    · exact .inl hv

end Writes

namespace Guarded

variable {C D A K : Type}

/-- Blocks of entries, each with its guard. -/
abbrev Table (C A : Type) := List ((C → Bool) × List A)

/-- The blocks whose guards hold. -/
def emit (table : Table C A) (c : C) : List A :=
  table.flatMap fun b => if b.1 c then b.2 else []

/-- All the blocks. -/
def all (table : Table C A) : List A := table.flatMap Prod.snd

variable {table : Table C A} {c c' : C} {a : A}

theorem mem_emit : a ∈ emit table c ↔ ∃ b ∈ table, b.1 c = true ∧ a ∈ b.2 := by
  simp only [emit, List.mem_flatMap]
  refine exists_congr fun b => and_congr_right fun _ => ?_
  split_ifs with hb <;> simp [hb]

theorem emit_append (table' : Table C A) :
    emit (table ++ table') c = emit table c ++ emit table' c := List.flatMap_append

theorem emit_sublist (table : Table C A) (c : C) : (emit table c).Sublist (all table) := by
  induction table with
  | nil => exact List.Sublist.refl _
  | cons b table ih =>
    refine List.Sublist.append ?_ ih
    dsimp only
    split_ifs
    · exact List.Sublist.refl _
    · exact List.nil_sublist _

/-- The entries depend on the configuration through the guards only. -/
theorem emit_congr (h : ∀ b ∈ table, b.2 ≠ [] → b.1 c = b.1 c') :
    emit table c = emit table c' := by
  refine List.flatMap_congr fun b hb => ?_
  rcases eq_or_ne b.2 [] with hnil | hne
  · simp [hnil]
  · rw [h b hb hne]

/-- The blocks of a table under one more guard. -/
def under (guard : D → Bool) (f : D → C) (table : Table C A) : Table D A :=
  table.map fun b => (fun d => guard d && b.1 (f d), b.2)

theorem emit_under (guard : D → Bool) (f : D → C) (d : D) :
    emit (under guard f table) d = if guard d then emit table (f d) else [] := by
  simp only [emit, under, List.flatMap_map]
  cases guard d <;> simp

/-- Disjoint blocks determine their guards: each is emitted from its own block only. -/
theorem guards_eq (hn : (all table).Nodup)
    (h : ∀ a ∈ all table, a ∈ emit table c ↔ a ∈ emit table c') :
    ∀ b ∈ table, b.2 ≠ [] → b.1 c = b.1 c' := by
  have hdisj := (List.nodup_flatMap.1 hn).2
  have hsymm : Std.Symm (Function.onFun List.Disjoint (Prod.snd : (C → Bool) × List A → List A)) :=
    ⟨fun _ _ hd _ h₁ h₂ => hd h₂ h₁⟩
  intro b hb hne
  obtain ⟨a, ha⟩ := List.exists_mem_of_ne_nil _ hne
  have huniq : ∀ c, a ∈ emit table c ↔ b.1 c = true := by
    intro c
    rw [mem_emit]
    refine ⟨?_, fun hg => ⟨b, hb, hg, ha⟩⟩
    rintro ⟨b', hb', hg, ha'⟩
    by_contra hne'
    have hbb : b ≠ b' := by
      rintro rfl
      exact hne' hg
    exact hdisj.forall hb hb' hbb ha ha'
  have hiff := h a (List.mem_flatMap.2 ⟨b, hb, ha⟩)
  rw [huniq, huniq] at hiff
  exact Bool.eq_iff_iff.2 hiff

end Guarded
