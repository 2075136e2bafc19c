import D3Hack.BackPatch
import D3Hack.HookFix

/-!
# The words that a moved instruction becomes

Moving an instruction appends a `Block` to the trampoline: words of which one may wait for the
place of a later instruction, and the place of the instruction itself. `Emits` says what a step of
the loop does in these terms: the block is written, its references are noted, the instruction has
its place, and the words that waited for it are completed.
-/

namespace D3Hack

open A64 BackPatch WordMemory

/-! ## Blocks -/

/-- The shift and the mask of a reference. -/
abbrev HookItem := Item Word ℕ (ℕ × Word)

/-- The word with its offset, where it waited for the place. -/
def patchWord (rx : Addr) (f : ℕ × Word) (n : ℕ) (place : Addr) (w : Word) : Word :=
  FixInfo.patch ⟨n, f.1, f.2⟩ rx place w

/-- The words of one instruction, and the place that it has by them. -/
structure Block where
  items : List HookItem
  place : Addr

namespace FixState

/-- The words that wait for an instruction. -/
def pending (s : FixState) (idx : ℕ) : List (ℕ × ℕ × Word) :=
  (s.dat idx).fmap.map fun f => (f.bpr, f.ls, f.ad)

/-- A step that moves the instruction at an index. -/
structure Emits (e : FixSite) (s : FixState) (idx : ℕ) (b : Block) (s' : FixState) : Prop where
  inprx_eq : s'.inprx = s.inprx + 4
  out_eq : s'.out =
    complete (patchWord e.rx) b.place (s.pending idx) (s.out ++ b.items.map Item.bare)
  ins_eq : ∀ i, (s'.dat i).ins = if i = idx then b.place else (s.dat i).ins
  pending_eq : ∀ i, i ≠ idx → s'.pending i = s.pending i ++ waiting i s.out.length b.items

variable {e : FixSite} {s s' : FixState} {idx : ℕ} {place : Addr}

theorem processFixMap_out (s : FixState) :
    (processFixMap e s idx).out =
      complete (patchWord e.rx) (s.dat idx).ins (s.pending idx) s.out := by
  unfold processFixMap complete pending
  rw [List.foldl_map]
  rfl

theorem processFixMap_dat (s : FixState) : (processFixMap e s idx).dat =
    Function.update s.dat idx { s.dat idx with fmap := [] } := rfl

theorem setIns_dat (s : FixState) : (s.setIns idx place).dat =
    Function.update s.dat idx { s.dat idx with ins := place } := rfl

theorem processFixMap_ins (s : FixState) (i : ℕ) :
    ((processFixMap e s idx).dat i).ins = (s.dat i).ins := by
  rw [processFixMap_dat]
  by_cases hi : i = idx
  · subst hi
    rw [Function.update_self]
  · rw [Function.update_of_ne hi]

theorem processFixMap_pending (s : FixState) {i : ℕ} (hi : i ≠ idx) :
    (processFixMap e s idx).pending i = s.pending i := by
  unfold pending
  rw [processFixMap_dat, Function.update_of_ne hi]

theorem setIns_ins (s : FixState) (i : ℕ) :
    ((s.setIns idx place).dat i).ins = if i = idx then place else (s.dat i).ins := by
  rw [setIns_dat]
  by_cases hi : i = idx
  · subst hi
    rw [Function.update_self, if_pos rfl]
  · rw [Function.update_of_ne hi, if_neg hi]

theorem setIns_fmap (s : FixState) (i : ℕ) :
    ((s.setIns idx place).dat i).fmap = (s.dat i).fmap := by
  rw [setIns_dat]
  by_cases hi : i = idx
  · subst hi
    rw [Function.update_self]
  · rw [Function.update_of_ne hi]

theorem setIns_pending (s : FixState) (i : ℕ) :
    (s.setIns idx place).pending i = s.pending i := by
  unfold pending
  rw [setIns_fmap]

theorem insertFixMap_ins (s : FixState) (l bpr ls : ℕ) (ad : Word) (i : ℕ) :
    ((s.insertFixMap l bpr ls ad).dat i).ins = (s.dat i).ins := by
  unfold insertFixMap
  dsimp only
  split
  · dsimp only
    by_cases hi : i = l
    · subst hi
      rw [Function.update_self]
    · rw [Function.update_of_ne hi]
  · rfl

theorem insertFixMap_out (s : FixState) (l bpr ls : ℕ) (ad : Word) :
    (s.insertFixMap l bpr ls ad).out = s.out := by
  unfold insertFixMap
  dsimp only
  split <;> rfl

theorem insertFixMap_inprx (s : FixState) (l bpr ls : ℕ) (ad : Word) :
    (s.insertFixMap l bpr ls ad).inprx = s.inprx := by
  unfold insertFixMap
  dsimp only
  split <;> rfl

/-- A list of references that is not full takes another one. -/
theorem insertFixMap_pending {l : ℕ} (h : (s.dat l).fmap.length < maxReferences) (bpr ls : ℕ)
    (ad : Word) (i : ℕ) : (s.insertFixMap l bpr ls ad).pending i =
      if i = l then s.pending l ++ [(bpr, ls, ad)] else s.pending i := by
  unfold pending insertFixMap
  simp only [h, if_true]
  by_cases hi : i = l
  · subst hi
    rw [Function.update_self, if_pos rfl, List.map_append]
    rfl
  · rw [Function.update_of_ne hi, if_neg hi]

@[simp]
theorem setIns_inprx (s : FixState) : (s.setIns idx place).inprx = s.inprx := rfl

@[simp]
theorem setIns_out (s : FixState) : (s.setIns idx place).out = s.out := rfl

@[simp]
theorem outprx_setIns (s : FixState) : e.outprx (s.setIns idx place) = e.outprx s := rfl

@[simp]
theorem pcOffset_setIns (s : FixState) (a : Addr) :
    pcOffset e (s.setIns idx place) a = pcOffset e s a := rfl

@[simp]
theorem isAligned_setIns (s : FixState) (words : ℕ) (mask : Addr) :
    e.isAligned (s.setIns idx place) words mask = e.isAligned s words mask := rfl

@[simp]
theorem write_write (s : FixState) (ws vs : List Word) :
    (s.write ws).write vs = s.write (ws ++ vs) := by
  rw [write, write, write, List.append_assoc]

@[simp]
theorem write_nil (s : FixState) : s.write [] = s := by
  rw [write, List.append_nil]

@[simp]
theorem setIns_setIns (s : FixState) (place' : Addr) :
    (s.setIns idx place).setIns idx place' = s.setIns idx place' := by
  unfold setIns
  simp

/-- A `NOP` that aligns what follows, and the place behind it. -/
theorem aligned_eq (s : FixState) (p : Prop) [Decidable p] :
    (if p then ((s.setIns idx place).write [aarch64Nop]).setIns idx
        (e.outprx ((s.setIns idx place).write [aarch64Nop])) else s.setIns idx place) =
      (s.setIns idx (if p then e.outprx (s.write [aarch64Nop]) else place)).write
        (List.replicate (if p then 1 else 0) aarch64Nop) := by
  split
  · exact congrArg (FixState.write · [aarch64Nop]) (setIns_setIns s _)
  · exact (write_nil _).symm

/-- A block of finished words. -/
theorem emits_of_write {v : List Word}
    (h : s' = processFixMap e ((s.setIns idx place).write v).next idx) :
    Emits e s idx ⟨v.map .word, place⟩ s' where
  inprx_eq := by rw [h]; rfl
  out_eq := by
    have hbare : (v.map Item.word : List HookItem).map Item.bare = v := by
      rw [List.map_map]
      exact List.map_id v
    rw [h, processFixMap_out, hbare]
    change complete _ ((s.setIns idx place).dat idx).ins ((s.setIns idx place).pending idx) _ = _
    rw [setIns_ins, if_pos rfl, setIns_pending]
    rfl
  ins_eq i := by
    rw [h, processFixMap_ins]
    exact setIns_ins s i
  pending_eq i hi := by
    have hnone : waiting i s.out.length (v.map Item.word : List HookItem) = [] := by
      refine waiting_eq_nil fun item hmem => ?_
      obtain ⟨w, -, rfl⟩ := List.mem_map.1 hmem
      exact fun h => by cases h
    rw [h, processFixMap_pending _ hi, hnone, List.append_nil]
    exact setIns_pending s i

/-- A word that waits for the place of another instruction. -/
theorem emits_of_refer {l ls : ℕ} {w ad : Word} (hl : l ≠ idx)
    (hfull : (s.dat l).fmap.length < maxReferences)
    (h : s' = processFixMap e
      (((s.setIns idx place).insertFixMap l s.out.length ls ad).write [w]).next idx) :
    Emits e s idx ⟨[.refer w l (ls, ad)], place⟩ s' where
  inprx_eq := by
    rw [h]
    change (FixState.insertFixMap _ _ _ _ _).inprx + 4 = _
    rw [insertFixMap_inprx]
    rfl
  out_eq := by
    have hfull' : ((s.setIns idx place).dat l).fmap.length < maxReferences := by
      rwa [setIns_fmap]
    rw [h, processFixMap_out]
    change complete _ (((s.setIns idx place).insertFixMap l _ ls ad).dat idx).ins
      (((s.setIns idx place).insertFixMap l _ ls ad).pending idx)
      (((s.setIns idx place).insertFixMap l _ ls ad).out ++ [w]) = _
    rw [insertFixMap_ins, setIns_ins, if_pos rfl, insertFixMap_pending hfull', if_neg hl.symm,
      setIns_pending, insertFixMap_out]
    rfl
  ins_eq i := by
    rw [h, processFixMap_ins]
    change (((s.setIns idx place).insertFixMap l _ ls ad).dat i).ins = _
    rw [insertFixMap_ins, setIns_ins]
  pending_eq i hi := by
    have hfull' : ((s.setIns idx place).dat l).fmap.length < maxReferences := by
      rwa [setIns_fmap]
    rw [h, processFixMap_pending _ hi]
    change ((s.setIns idx place).insertFixMap l _ ls ad).pending i = _
    rw [insertFixMap_pending hfull', setIns_pending, setIns_pending, waiting]
    by_cases hil : i = l
    · subst hil
      rw [if_pos rfl, if_pos rfl]
      rfl
    · rw [if_neg hil, if_neg fun h => hil h.symm]
      exact (List.append_nil _).symm

end FixState

end D3Hack
