import Mathlib.Data.Fintype.Card
import Mathlib.Logic.Function.Basic

/-!
# Open addressing with slots that are set once

A key is looked for in the slots `probe k 0`, `probe k 1`, .. of a table, up to the first one that
holds it or is empty. A table is `Probing.Placed` if each key in it is where this search ends,
behind slots that other keys hold. A key put into the first empty slot of its search keeps that
(`Probing.Placed.update`), and since no slot is ever emptied, what a search has passed stays
passed (`Probing.Passed.mono`).

In a placed table no key is in two slots (`Probing.Placed.slot_unique`), a key that is in the
table is not passed by (`Probing.Placed.not_passed`), and a search that passes every slot has met
as many other keys as there are slots (`Probing.Placed.card_lt_of_passed`).
-/

namespace Probing

variable {K : Type} {n : ℕ}

/-- The slots of a table, with the keys in them. -/
abbrev Table (K : Type) (n : ℕ) := Fin n → Option K

/-- Every key of `t` is in the same slot of `t'`. -/
def Grows (t t' : Table K n) : Prop := ∀ slot k, t slot = some k → t' slot = some k

variable (probe : K → ℕ → Fin n)

/-- The first `i` slots that are searched for `k` hold other keys. -/
def Passed (t : Table K n) (k : K) (i : ℕ) : Prop :=
  ∀ j < i, ∃ k', t (probe k j) = some k' ∧ k' ≠ k

/-- Each key is in a slot that is searched for it, behind slots that other keys hold. -/
def Placed (t : Table K n) : Prop :=
  ∀ slot k, t slot = some k → ∃ i < n, probe k i = slot ∧ Passed probe t k i

variable {probe} {t t' : Table K n} {k : K} {i : ℕ}

theorem Grows.refl (t : Table K n) : Grows t t := fun _ _ h => h

theorem grows_update [DecidableEq K] {slot : Fin n} (hempty : t slot = none) (k : K) :
    Grows t (Function.update t slot (some k)) := by
  intro slot' k' hk'
  have hne : slot' ≠ slot := by
    rintro rfl
    rw [hempty] at hk'
    contradiction
  rwa [Function.update_of_ne hne]

theorem passed_zero (t : Table K n) (k : K) : Passed probe t k 0 := fun _ h => absurd h (by omega)

theorem Passed.mono (h : Passed probe t k i) (hgrows : Grows t t') : Passed probe t' k i := by
  intro j hj
  obtain ⟨k', hk', hne⟩ := h j hj
  exact ⟨k', hgrows _ _ hk', hne⟩

theorem Passed.succ (h : Passed probe t k i) {k' : K} (hk' : t (probe k i) = some k')
    (hne : k' ≠ k) : Passed probe t k (i + 1) := by
  intro j hj
  rcases Nat.lt_succ_iff_lt_or_eq.1 hj with hlt | rfl
  · exact h j hlt
  · exact ⟨k', hk', hne⟩

theorem placed_empty : Placed probe (fun _ => none) := fun _ _ h => nomatch h

/-- A key put into the first empty slot of its search is placed. -/
theorem Placed.update [DecidableEq K] (h : Placed probe t) (hi : i < n)
    (hpassed : Passed probe t k i) (hempty : t (probe k i) = none) :
    Placed probe (Function.update t (probe k i) (some k)) := by
  have hgrows := grows_update hempty k
  intro slot k' hk'
  by_cases hslot : slot = probe k i
  · subst hslot
    rw [Function.update_self, Option.some.injEq] at hk'
    subst hk'
    exact ⟨i, hi, rfl, hpassed.mono hgrows⟩
  · rw [Function.update_of_ne hslot] at hk'
    obtain ⟨i', hi', hprobe, hpassed'⟩ := h slot k' hk'
    exact ⟨i', hi', hprobe, hpassed'.mono hgrows⟩

/-- No key is in two slots: the search for it ends at the first of them. -/
theorem Placed.slot_unique (h : Placed probe t) {slot slot' : Fin n} (hk : t slot = some k)
    (hk' : t slot' = some k) : slot = slot' := by
  obtain ⟨i, -, rfl, hpassed⟩ := h slot k hk
  obtain ⟨i', -, rfl, hpassed'⟩ := h slot' k hk'
  have hnot {i i' : ℕ} (hpassed : Passed probe t k i') (hk : t (probe k i) = some k) :
      ¬ i < i' := by
    intro hlt
    obtain ⟨k', hk', hne⟩ := hpassed i hlt
    rw [hk, Option.some.injEq] at hk'
    exact hne hk'.symm
  have heq : i = i' := Nat.le_antisymm (Nat.not_lt.1 (hnot hpassed hk'))
    (Nat.not_lt.1 (hnot hpassed' hk))
  rw [heq]

/-- A search does not pass all the slots if the key is in the table. -/
theorem Placed.not_passed (h : Placed probe t) {slot : Fin n} (hk : t slot = some k) :
    ¬ Passed probe t k n := by
  intro hpassed
  obtain ⟨i, hi, rfl, -⟩ := h slot k hk
  obtain ⟨k', hk', hne⟩ := hpassed i hi
  rw [hk, Option.some.injEq] at hk'
  exact hne hk'.symm

/-- A search that passes all the slots has met a different key in each of them. -/
theorem Placed.card_lt_of_passed [DecidableEq K] (h : Placed probe t)
    (hprobe : ∀ slot, ∃ i < n, probe k i = slot) (hpassed : Passed probe t k n) {S : Finset K}
    (hk : k ∈ S) (hS : ∀ slot k', t slot = some k' → k' ∈ S) : n < S.card := by
  have hfull (slot : Fin n) : ∃ k', t slot = some k' ∧ k' ≠ k := by
    obtain ⟨i, hi, rfl⟩ := hprobe slot
    exact hpassed i hi
  choose key hkey hne using hfull
  have hinj : Function.Injective key := fun slot slot' heq =>
    h.slot_unique (hkey slot) (heq ▸ hkey slot')
  have hmaps : ∀ slot, key slot ∈ S.erase k := fun slot =>
    Finset.mem_erase.2 ⟨hne slot, hS slot _ (hkey slot)⟩
  have hcard := Finset.card_le_card_of_injOn key (s := Finset.univ) (fun slot _ => hmaps slot)
    hinj.injOn
  rw [Finset.card_univ, Fintype.card_fin, Finset.card_erase_of_mem hk] at hcard
  have hpos := Finset.card_pos.2 ⟨k, hk⟩
  omega

end Probing
