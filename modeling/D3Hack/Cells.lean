import D3Hack.WordMemory

/-!
# Updates of cells

An update writes a cell of `n` bytes with a value that it makes from the memory, or leaves the
cell alone. Updates are independent if no two share a byte of their cells and each makes its value
from its own cell and from what no cell covers (`Independent`). A series of independent updates,
one after the other, leaves in each cell what its update alone would have left there
(`Independent.apply_of_mem`), and everything else as it was (`apply_of_not_covered`).

`foldlM_eq_apply` is for loops that read their updates from the memory as they go, and `ofCell` for
updates that make their value from their own cell alone.
-/

namespace Cells

open WordMemory

/-- An update of a cell. -/
structure Update where
  cell : Addr
  value : Memory → Option ℕ

variable (n : ℕ)

/-- The memory after the update. -/
def Update.apply (u : Update) (m : Memory) : Memory :=
  match u.value m with
  | some v => store m u.cell n v
  | none => m

/-- The updates, one after the other. -/
def apply (us : List Update) (m : Memory) : Memory := us.foldl (fun m u => u.apply n m) m

/-- The bytes of the cells. -/
def Covered (us : List Update) (x : Addr) : Prop := ∃ u ∈ us, InWindow u.cell n x

/-- The same bytes, but for the cells. -/
def AgreeOff (us : List Update) (m m' : Memory) : Prop := ∀ x, ¬Covered n us x → m x = m' x

/-- The value comes from the cell itself, and from what no cell covers. -/
def Update.Local (us : List Update) (u : Update) : Prop :=
  ∀ m m', AgreeOff n us m m' → (∀ x, InWindow u.cell n x → m x = m' x) → u.value m = u.value m'

/-- No two updates share a cell, and none depends on the cell of another. -/
structure Independent (us : List Update) : Prop where
  separate : us.Pairwise fun u v => Separate u.cell n v.cell n
  local_mem : ∀ u ∈ us, u.Local n us

section

variable {n} {us vs : List Update} {u : Update} {m m' : Memory} {x : Addr}

theorem Update.apply_of_not_inWindow (h : ¬InWindow u.cell n x) : u.apply n m x = m x := by
  unfold Update.apply
  cases u.value m with
  | none => rfl
  | some v => exact store_of_not_inWindow h

theorem apply_cons : apply n (u :: us) m = apply n us (u.apply n m) := rfl

theorem apply_append : apply n (us ++ vs) m = apply n vs (apply n us m) := List.foldl_append

theorem apply_of_not_covered (h : ¬Covered n us x) : apply n us m x = m x := by
  induction us generalizing m with
  | nil => rfl
  | cons u us ih =>
    rw [apply_cons, ih fun ⟨v, hv, hx⟩ => h ⟨v, List.mem_cons_of_mem u hv, hx⟩]
    exact Update.apply_of_not_inWindow fun hx => h ⟨u, List.mem_cons_self, hx⟩

theorem AgreeOff.mono (h : AgreeOff n us m m') (hsub : ∀ u ∈ us, u ∈ vs) : AgreeOff n vs m m' :=
  fun x hx => h x fun ⟨u, hu, hxu⟩ => hx ⟨u, hsub u hu, hxu⟩

theorem agreeOff_apply : AgreeOff n us (apply n us m) m := fun _ => apply_of_not_covered

theorem AgreeOff.apply (h : AgreeOff n us m m') (vs : List Update) (hsub : ∀ v ∈ vs, v ∈ us) :
    AgreeOff n us (apply n vs m) m' := fun x hx =>
  (agreeOff_apply.mono hsub x hx).trans (h x hx)

/-- What an update leaves in its cell. -/
theorem Update.apply_congr (hcell : ∀ x, InWindow u.cell n x → m x = m' x)
    (hvalue : u.value m = u.value m') (hx : InWindow u.cell n x) :
    u.apply n m x = u.apply n m' x := by
  unfold Update.apply
  rw [hvalue]
  cases u.value m' with
  | none => exact hcell x hx
  | some v => exact (if_pos hx).trans (if_pos hx).symm

theorem Independent.tail (h : Independent n (u :: us)) : Independent n us where
  separate := h.separate.of_cons
  local_mem v hv m m' hoff := by
    exact h.local_mem v (List.mem_cons_of_mem u hv) m m' (hoff.mono fun _ => List.mem_cons_of_mem u)

theorem not_covered_of_separate (h : ∀ v ∈ us, Separate u.cell n v.cell n)
    (hx : InWindow u.cell n x) : ¬Covered n us x := fun ⟨v, hv, hxv⟩ => h v hv x hx hxv

/-- **Each cell holds what its update alone would have left there.** -/
theorem Independent.apply_of_mem (h : Independent n us) (hu : u ∈ us) (hx : InWindow u.cell n x) :
    apply n us m x = u.apply n m x := by
  induction us generalizing m with
  | nil => cases hu
  | cons v us ih =>
    have hv := (List.pairwise_cons.1 h.separate).1
    rw [apply_cons]
    rcases List.mem_cons.1 hu with rfl | hu
    · exact apply_of_not_covered (not_covered_of_separate hv hx)
    · rw [ih h.tail hu]
      have hout : ∀ y, InWindow u.cell n y → v.apply n m y = m y := fun y hy =>
        Update.apply_of_not_inWindow fun hvy => hv u hu y hvy hy
      refine Update.apply_congr hout ?_ hx
      refine h.local_mem u (List.mem_cons_of_mem v hu) _ _ (fun y hy => ?_) hout
      exact Update.apply_of_not_inWindow fun hvy => hy ⟨v, List.mem_cons_self, hvy⟩

/-- A loop whose steps are updates, wherever it has written nothing but cells; `J` is what holds
before the steps that are left. -/
theorem foldlM_eq_apply {S ι : Type*} {f : S → ι → Option S} (mem : S → Memory)
    {J : List ι → S → Prop} {g : ι → Option Update} {is : List ι}
    (hsub : ∀ i ∈ is, ∀ u, g i = some u → u ∈ us)
    (hstep : ∀ i ∈ is, ∀ js s, J (i :: js) s → AgreeOff n us (mem s) m → ∃ s', f s i = some s' ∧
      J js s' ∧ mem s' = (g i).elim (mem s) fun u => u.apply n (mem s))
    {s : S} (hs : J is s) (hoff : AgreeOff n us (mem s) m) :
    ∃ s', is.foldlM f s = some s' ∧ J [] s' ∧ mem s' = apply n (is.filterMap g) (mem s) := by
  induction is generalizing s with
  | nil => exact ⟨s, rfl, hs, rfl⟩
  | cons i is ih =>
    obtain ⟨s', hf, hs', hmem⟩ := hstep i List.mem_cons_self is s hs hoff
    have hoff' : AgreeOff n us (mem s') m := by
      intro x hx
      rw [hmem, ← hoff x hx]
      cases hg : g i with
      | none => rfl
      | some u =>
        exact Update.apply_of_not_inWindow fun hxu =>
          hx ⟨u, hsub i List.mem_cons_self u hg, hxu⟩
    obtain ⟨s'', hrest, hs'', hmem'⟩ := ih (fun j hj => hsub j (List.mem_cons_of_mem i hj))
      (fun j hj => hstep j (List.mem_cons_of_mem i hj)) hs' hoff'
    refine ⟨s'', ?_, hs'', ?_⟩
    · rw [List.foldlM_cons, hf]
      exact hrest
    · rw [hmem', hmem]
      cases hg : g i with
      | none => rw [List.filterMap_cons_none hg]; rfl
      | some u => rw [List.filterMap_cons_some hg]; rfl

/-- A loop that has no state but the memory. -/
theorem foldlM_memory {ι : Type*} {f : Memory → ι → Option Memory} {g : ι → Option Update}
    {is : List ι} (hsub : ∀ i ∈ is, ∀ u, g i = some u → u ∈ us)
    (hstep : ∀ i ∈ is, ∀ m', AgreeOff n us m' m →
      f m' i = some ((g i).elim m' fun u => u.apply n m')) (hoff : AgreeOff n us m' m) :
    is.foldlM f m' = some (apply n (is.filterMap g) m') := by
  obtain ⟨s', hf, -, hmem⟩ := foldlM_eq_apply id (J := fun _ _ => True) hsub
    (fun i hi _ s _ hs => ⟨_, hstep i hi s hs, trivial, rfl⟩) trivial hoff
  rw [hf]
  exact congrArg some hmem

/-- One loop after the other. -/
theorem foldlM_memory_bind {ι κ : Type*} {f : Memory → ι → Option Memory}
    {p : Memory → κ → Option Memory} {g : ι → Option Update} {q : κ → Option Update}
    {is : List ι} {js : List κ} (hsub : ∀ i ∈ is, ∀ u, g i = some u → u ∈ us)
    (hsub' : ∀ j ∈ js, ∀ u, q j = some u → u ∈ us)
    (hstep : ∀ i ∈ is, ∀ m', AgreeOff n us m' m →
      f m' i = some ((g i).elim m' fun u => u.apply n m'))
    (hstep' : ∀ j ∈ js, ∀ m', AgreeOff n us m' m →
      p m' j = some ((q j).elim m' fun u => u.apply n m')) (hoff : AgreeOff n us m' m) :
    (is.foldlM f m').bind (js.foldlM p) =
      some (apply n (is.filterMap g ++ js.filterMap q) m') := by
  have hoff' : AgreeOff n us (apply n (is.filterMap g) m') m := hoff.apply _ fun u hu => by
    obtain ⟨i, hi, hu⟩ := List.mem_filterMap.1 hu
    exact hsub i hi u hu
  rw [foldlM_memory hsub hstep hoff, Option.bind_some]
  exact (foldlM_memory hsub' hstep' hoff').trans (congrArg some apply_append.symm)

end

/-! ## Cells that are updated from what they hold -/

/-- An update that makes its value from its own cell. -/
def ofCell (n : ℕ) (a : Addr) (g : ℕ → Option ℕ) : Update where
  cell := a
  value m := g (load m a n)

section

variable {n : ℕ} {us : List Update} {m : Memory} {a : Addr} {g : ℕ → Option ℕ}

theorem local_ofCell (hn : n ≤ 2 ^ 64) : (ofCell n a g).Local n us := fun _ _ _ hcell =>
  congrArg g (load_congr hn hcell)

/-- A cell holds its new value, or still the old one. -/
theorem Independent.load_ofCell (h : Independent n us) (hn : n ≤ 2 ^ 64)
    (hu : ofCell n a g ∈ us) : load (apply n us m) a n =
      (g (load m a n)).elim (load m a n) fun v => v % 256 ^ n := by
  have hload : load (apply n us m) a n = load ((ofCell n a g).apply n m) a n :=
    load_congr hn fun x hx => h.apply_of_mem hu hx
  have hvalue : (ofCell n a g).value m = g (load m a n) := rfl
  rw [hload]
  unfold Update.apply
  rw [hvalue]
  cases g (load m a n) with
  | none => rfl
  | some v => exact load_store hn

end

end Cells
