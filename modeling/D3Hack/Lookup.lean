import Mathlib.Data.List.Basic

/-!
# Lookup in two passes

A value is looked for under several names. A primary pass stops at the first name with a primary
reading; only where there is none, a secondary pass stops at the first with a secondary one
(`Lookup.twoPass`). A reading may give no value, and a pass does not go on then.

`Lookup.takesFirst_iff`: such a lookup takes the value of the first name that has one alone
(`Lookup.TakesFirst`) if and only if no pass stops at another reading (`Lookup.PassesAgree`).
-/

namespace Lookup

variable {K P S V : Type*} (primary : K → Option P) (secondary : K → Option S)
  (f : P → Option V) (g : S → Option V)

/-- The value that the two passes find. -/
def twoPass (keys : List K) : Option V :=
  match keys.findSome? primary with
  | some p => f p
  | none => (keys.findSome? secondary).bind g

/-- `whole` has the value of the first name that has one alone. -/
def TakesFirst (alone : K → V → Prop) (whole : V → Prop) (keys : List K) : Prop :=
  ∀ before key after v, keys = before ++ key :: after →
    (∀ k ∈ before, ∀ w, ¬alone k w) → alone key v → whole v

/-- No name before the first with a value has a primary reading; and where its reading is a
secondary one, the first primary reading after it gives the same value, or there is none and no
name before it has a secondary reading either. -/
def PassesAgree (keys : List K) : Prop :=
  ∀ before key after v, keys = before ++ key :: after →
    (∀ k ∈ before, twoPass primary secondary f g [k] = none) →
      twoPass primary secondary f g [key] = some v →
        (∀ k ∈ before, primary k = none) ∧
          (primary key = none →
            match after.findSome? primary with
            | some p => f p = some v
            | none => ∀ k ∈ before, secondary k = none)

variable {primary secondary f g}

theorem twoPass_of_primary {keys : List K} {p : P} (h : keys.findSome? primary = some p) :
    twoPass primary secondary f g keys = f p := by
  rw [twoPass, h]

theorem twoPass_of_none {keys : List K} (h : keys.findSome? primary = none) :
    twoPass primary secondary f g keys = (keys.findSome? secondary).bind g := by
  rw [twoPass, h]

/-- The lookup depends on the readings that the passes stop at. -/
theorem twoPass_congr {primary' : K → Option P} {secondary' : K → Option S} {keys keys' : List K}
    (hprimary : keys.findSome? primary = keys'.findSome? primary')
    (hsecondary : keys.findSome? secondary = keys'.findSome? secondary') :
    twoPass primary secondary f g keys = twoPass primary' secondary' f g keys' := by
  rw [twoPass, twoPass, hprimary, hsecondary]

theorem findSome?_single {T : Type*} (read : K → Option T) (key : K) :
    [key].findSome? read = read key := by
  rw [List.findSome?_cons]
  cases read key <;> rfl

theorem findSome?_split {T : Type*} (read : K → Option T) (before after : List K) (key : K) :
    (before ++ key :: after).findSome? read =
      (before.findSome? read).or ((read key).or (after.findSome? read)) := by
  rw [List.findSome?_append, List.findSome?_cons]
  cases read key <;> rfl

/-- A search that only one member can answer gives that member's answer. -/
theorem findSome?_of_unique {α β : Type} {f : α → Option β} {a : α} :
    ∀ {l : List α}, a ∈ l → (∀ b ∈ l, b ≠ a → f b = none) → l.findSome? f = f a
  | b :: l, ha, h => by
    rw [List.findSome?_cons]
    by_cases hb : b = a
    · subst hb
      cases hf : f b with
      | some y => rfl
      | none =>
        refine List.findSome?_eq_none_iff.2 fun c hc => ?_
        by_cases hcb : c = b
        · rw [hcb, hf]
        · exact h c (List.mem_cons_of_mem _ hc) hcb
    · rw [h b List.mem_cons_self hb]
      exact findSome?_of_unique ((List.mem_cons.1 ha).resolve_left (Ne.symm hb))
        fun c hc => h c (List.mem_cons_of_mem _ hc)

/-- A reading before the first name with a value has none itself. -/
theorem primary_useless {before : List K}
    (hbefore : ∀ k ∈ before, twoPass primary secondary f g [k] = none) {p : P}
    (h : before.findSome? primary = some p) : f p = none := by
  obtain ⟨k, hk, hp⟩ := List.exists_of_findSome?_eq_some h
  exact (twoPass_of_primary ((findSome?_single primary k).trans hp)).symm.trans (hbefore k hk)

theorem secondary_useless {before : List K}
    (hbefore : ∀ k ∈ before, twoPass primary secondary f g [k] = none)
    (hprimary : ∀ k ∈ before, primary k = none) {s : S}
    (h : before.findSome? secondary = some s) : g s = none := by
  obtain ⟨k, hk, hs⟩ := List.exists_of_findSome?_eq_some h
  have hsingle := hbefore k hk
  rw [twoPass_of_none ((findSome?_single primary k).trans (hprimary k hk)), findSome?_single,
    hs] at hsingle
  exact hsingle

/-- Past names without a value, the lookup gives the value of the next one exactly when no pass
stops elsewhere. -/
theorem twoPass_append_iff {before after : List K} {key : K} {v : V}
    (hbefore : ∀ k ∈ before, twoPass primary secondary f g [k] = none)
    (hkey : twoPass primary secondary f g [key] = some v) :
    twoPass primary secondary f g (before ++ key :: after) = some v ↔
      (∀ k ∈ before, primary k = none) ∧
        (primary key = none →
          match after.findSome? primary with
          | some p => f p = some v
          | none => ∀ k ∈ before, secondary k = none) := by
  by_cases hprimary : ∀ k ∈ before, primary k = none
  swap
  -- a primary reading before the name stops the first pass without a value
  · have hstop : before.findSome? primary ≠ none := mt List.findSome?_eq_none_iff.1 hprimary
    obtain ⟨p, hp⟩ := Option.ne_none_iff_exists'.1 hstop
    rw [twoPass_of_primary (by rw [findSome?_split, hp, Option.some_or]),
      primary_useless hbefore hp]
    exact iff_of_false (by simp) fun h => hprimary h.1
  have hnone : before.findSome? primary = none := List.findSome?_eq_none_iff.2 hprimary
  have hsingle : [key].findSome? primary = primary key := findSome?_single primary key
  rcases hread : primary key with _ | p <;> rw [hread] at hsingle
  swap
  · rw [twoPass_of_primary hsingle] at hkey
    rw [twoPass_of_primary (by rw [findSome?_split, hnone, hread]; rfl)]
    exact iff_of_true hkey ⟨hprimary, fun h => by cases h⟩
  rw [twoPass_of_none hsingle, findSome?_single] at hkey
  rcases hafter : after.findSome? primary with _ | p
  swap
  · rw [twoPass_of_primary (by rw [findSome?_split, hnone, hread, hafter]; rfl)]
    exact ⟨fun h => ⟨hprimary, fun _ => h⟩, fun h => h.2 rfl⟩
  obtain ⟨s, hs, hg⟩ := Option.bind_eq_some_iff.1 hkey
  rw [twoPass_of_none (by rw [findSome?_split, hnone, hread, hafter]; rfl), findSome?_split]
  by_cases hsecondary : ∀ k ∈ before, secondary k = none
  · rw [List.findSome?_eq_none_iff.2 hsecondary, hs]
    exact iff_of_true hg ⟨hprimary, fun _ => hsecondary⟩
  · have hstop : before.findSome? secondary ≠ none := mt List.findSome?_eq_none_iff.1 hsecondary
    obtain ⟨s', hs'⟩ := Option.ne_none_iff_exists'.1 hstop
    rw [hs', Option.some_or, Option.bind_some, secondary_useless hbefore hprimary hs']
    exact iff_of_false (by simp) fun h => hsecondary (h.2 rfl)

/-- **A lookup in two passes takes the first name that has a value exactly when no pass stops at
another reading.** -/
theorem takesFirst_iff {alone : K → V → Prop} {whole : V → Prop} {keys : List K}
    (halone : ∀ k ∈ keys, ∀ v, alone k v ↔ twoPass primary secondary f g [k] = some v)
    (hwhole : ∀ v, whole v ↔ twoPass primary secondary f g keys = some v) :
    TakesFirst alone whole keys ↔ PassesAgree primary secondary f g keys := by
  refine forall₄_congr fun before key after v => imp_congr_right fun hkeys => ?_
  have hbefore : (∀ k ∈ before, ∀ w, ¬alone k w) ↔
      ∀ k ∈ before, twoPass primary secondary f g [k] = none := by
    refine forall₂_congr fun k hk => ?_
    have hmem : k ∈ keys := by
      rw [hkeys]
      exact List.mem_append_left _ hk
    simp only [halone k hmem, Option.eq_none_iff_forall_ne_some, ne_eq]
  have hkey : key ∈ keys := by
    rw [hkeys]
    exact List.mem_append_right _ List.mem_cons_self
  rw [hbefore, halone key hkey, hwhole]
  refine imp_congr_right fun huseless => imp_congr_right fun hvalue => ?_
  rw [hkeys]
  exact twoPass_append_iff huseless hvalue

end Lookup
