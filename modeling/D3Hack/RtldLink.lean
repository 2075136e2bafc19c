import D3Hack.Cells
import D3Hack.RtldLookup

/-!
# Linking a module

`link` relocates a module and resolves its symbols. Where the words that are relocated are apart
from each other and from what is read, and the tables of the modules are in memory (`Linkable`),
this is a series of independent updates (`link_eq`): every relocated word is made once, from the
address of the module or of its symbol and from what the word was at the start, and nothing else is
written (`link_image`).
-/

namespace D3Hack

open WordMemory

/-! ## Windows -/

/-- A window that ends before another begins, which does not go around the addresses. -/
def behind (w v : Addr × ℕ) : Bool := w.1.toNat + w.2 ≤ v.1.toNat && v.1.toNat + v.2 ≤ 2 ^ 64

theorem separate_of_behind {w v : Addr × ℕ} (h : behind w v = true ∨ behind v w = true) :
    Separate w.1 w.2 v.1 v.2 := by
  have hbehind : ∀ w v : Addr × ℕ, behind w v = true → Separate w.1 w.2 v.1 v.2 := by
    intro w v hwv x hx hx'
    obtain ⟨hle, hend⟩ := Bool.and_eq_true_iff.1 hwv
    rw [inWindow_iff ((of_decide_eq_true hle).trans (by omega))] at hx
    rw [inWindow_iff (of_decide_eq_true hend)] at hx'
    have hle := of_decide_eq_true hle
    omega
  rcases h with h | h
  · exact hbehind w v h
  · exact (hbehind v w h).symm

/-! ## Relocations -/

/-- A relocation: where it is, and what it makes of an address and the old word. -/
structure Reloc where
  offset : BitVec 64
  info : BitVec 64
  combine : Addr → BitVec 64 → BitVec 64

/-- Without an addend, the old word is added. -/
def ElfRel.reloc (e : ElfRel) : Reloc := ⟨e.offset, e.info, fun a old => old + a⟩

/-- With an addend, the old word is lost. -/
def ElfRela.reloc (e : ElfRela) : Reloc := ⟨e.offset, e.info, fun a _ => a + e.addend⟩

namespace Reloc

variable (r : Reloc)

/-- The relocation is for the base. -/
def isRelative : Bool := rType r.info = archRelative

/-- The relocation is for a symbol. -/
def isSymbolic : Bool := archIsRelAbsolute (rType r.info) || rType r.info == archGlobDat

/-- The relocation is for the slot of a function. -/
def isJumpSlot : Bool := rType r.info = archJumpSlot

end Reloc

namespace ModuleObject

variable (o : ModuleObject) (m : Memory)

/-- An entry of a table without addends. -/
def relAt (table : Addr) (i : ℕ) : Reloc := (readRel m (entryOf table sizeofRel i)).reloc

/-- An entry of a table with addends. -/
def relaAt (table : Addr) (i : ℕ) : Reloc := (readRela m (entryOf table sizeofRela i)).reloc

/-- The relocations that `relocate` goes through. -/
def relatives : List Reloc :=
  (List.range o.relCount.toNat).map (relAt m o.relaOrRel) ++
    (List.range o.relaCount.toNat).map (relaAt m o.relaOrRel)

/-- The relocations after them, that `resolveSymbols` goes through. -/
def symbolics : List Reloc :=
  (indices o.relCount.toNat (o.relDynSize.toNat / sizeofRel)).map (relAt m o.relaOrRel) ++
    (indices o.relaCount.toNat (o.relaDynSize.toNat / sizeofRela)).map (relaAt m o.relaOrRel)

/-- The number of slots of functions. -/
def slotCount : ℕ :=
  o.relaOrRelPltSize.toNat / if o.isRela then sizeofRela else sizeofRel

/-- An entry of the table of the slots. -/
def slotAt (i : ℕ) : Reloc :=
  if o.isRela then relaAt m o.relaOrRelPlt i else relAt m o.relaOrRelPlt i

/-- The relocations for the slots. -/
def slots : List Reloc := (List.range o.slotCount).map (o.slotAt m)

/-- The windows of memory that hold the relocations. -/
def relocWindows : List (Addr × ℕ) :=
  (List.range o.relCount.toNat ++
      indices o.relCount.toNat (o.relDynSize.toNat / sizeofRel)).map
        (fun i => (entryOf o.relaOrRel sizeofRel i, sizeofRel)) ++
    (List.range o.relaCount.toNat ++
      indices o.relaCount.toNat (o.relaDynSize.toNat / sizeofRela)).map
        (fun i => (entryOf o.relaOrRel sizeofRela i, sizeofRela)) ++
    (List.range o.slotCount).map fun i =>
      let size := if o.isRela then sizeofRela else sizeofRel
      (entryOf o.relaOrRelPlt size i, size)

/-! ## What they do -/

/-- The word that a relocation is for. -/
def ptr (r : Reloc) : Addr := o.moduleBase + r.offset

/-- An update of a word from what it was. -/
def wordUpdate (a : Addr) (g : BitVec 64 → Option (BitVec 64)) : Cells.Update :=
  Cells.ofCell 8 a fun v => (g (BitVec.ofNat 64 v)).map BitVec.toNat

/-- The update that a relocation of a kind stands for. -/
def updateIf (p : Reloc → Bool) (g : Reloc → BitVec 64 → Option (BitVec 64)) (r : Reloc) :
    Option Cells.Update :=
  if p r then some (wordUpdate (o.ptr r) (g r)) else none

/-- A relocation for the base makes its word from the base. -/
def relativeUpdate : Reloc → Option Cells.Update :=
  o.updateIf Reloc.isRelative fun r old => some (r.combine o.moduleBase old)

/-- A relocation for a symbol makes its word from the symbol, if that is found. -/
def symbolicUpdate (scope : Scope) (T : SymbolTable) : Reloc → Option Cells.Update :=
  o.updateIf Reloc.isSymbolic fun r old =>
    (scope.resolve o T (rSym r.info)).map fun a => r.combine a old

/-- The word in the slot of a function: the stub, or the function if it is resolved. -/
def slotWord (doLazyGotInit : Bool) (target : Option Addr) (r : Reloc) (old : BitVec 64) :
    BitVec 64 :=
  if doLazyGotInit then o.moduleBase + old
  else target.elim (o.moduleBase + old) fun a => r.combine a old

/-- A relocation for a slot sets it. -/
def slotUpdate (scope : Scope) (T : SymbolTable) (doLazyGotInit : Bool) :
    Reloc → Option Cells.Update :=
  o.updateIf Reloc.isJumpSlot fun r old =>
    some (o.slotWord doLazyGotInit (scope.resolve o T (rSym r.info)) r old)

/-- The two words that the stub needs. -/
def gotUpdates (scope : Scope) (self : Addr) : List Cells.Update :=
  if o.got ≠ 0 then
    [wordUpdate (o.got + 8) fun _ => some self,
      wordUpdate (o.got + 16) fun _ => some scope.runtimeResolve]
  else []

/-- All that linking a module writes. -/
def updates (scope : Scope) (T : SymbolTable) (doLazyGotInit : Bool) (self : Addr) :
    List Cells.Update :=
  (o.relatives m).filterMap o.relativeUpdate ++
    (o.symbolics m).filterMap (o.symbolicUpdate scope T) ++
    (o.slots m).filterMap (o.slotUpdate scope T doLazyGotInit) ++ o.gotUpdates scope self

/-- The words that linking a module writes. -/
def cells : List Addr :=
  ((o.relatives m).filter Reloc.isRelative).map o.ptr ++
    ((o.symbolics m).filter Reloc.isSymbolic).map o.ptr ++
    ((o.slots m).filter Reloc.isJumpSlot).map o.ptr ++
    if o.got ≠ 0 then [o.got + 8, o.got + 16] else []

/-- The symbols that are resolved. -/
def refs : List (BitVec 32) :=
  ((o.symbolics m).filter Reloc.isSymbolic ++ (o.slots m).filter Reloc.isJumpSlot).map fun r =>
    rSym r.info

/-- The windows of memory that linking a module reads, besides the words it writes. -/
def readWindows (scope : Scope) (T : SymbolTable) : List (Addr × ℕ) :=
  o.relocWindows ++ scope.windows ++ o.tableWindows T ++ (o.refs m).flatMap (o.symWindows T)

end ModuleObject

/-- Relocating a module and resolving its symbols. -/
def link (env : LinkEnv) (n : ℕ) (doLazyGotInit : Bool) (self : Addr) (o : ModuleObject)
    (m : Memory) : Option (ModuleObject × Memory) :=
  (o.relocate m).bind fun m => o.resolveSymbols env n doLazyGotInit self m

open ModuleObject

/-- The relocated words are apart from each other and from what is read; the tables of the modules
and the symbols of the relocations are in memory, and within `n` steps; and all slots of functions
start at one stub. -/
structure Linkable (scope : Scope) (n : ℕ) (stub : Addr) (o : ModuleObject) (T : SymbolTable)
    (m : Memory) : Prop where
  counts : o.relCount.toNat < 2 ^ 32 ∧ o.relaCount.toNat < 2 ^ 32 ∧ o.slotCount < 2 ^ 32
  held : scope.Held m n
  own : o.Represents m T
  within : T.Within n
  refs : ∀ i ∈ o.refs m, o.HoldsSym m T i ∧ (T.name i).length < n
  slots : ∀ r ∈ o.slots m, r.isJumpSlot = true → o.moduleBase + read64 m (o.ptr r) = stub
  stub : o.gotStubPtr = 0 ∨ o.gotStubPtr = stub
  separate : (o.cells m).Pairwise fun a b => Separate a 8 b 8
  apart : ∀ w ∈ o.readWindows m scope T, ∀ a ∈ o.cells m, Separate w.1 w.2 a 8

/-! ## The updates are independent -/

section

variable {o : ModuleObject} {m m' : Memory} {scope : Scope} {T : SymbolTable} {lazy : Bool}
  {self stub : Addr} {n : ℕ}

theorem wordUpdate_apply (a : Addr) (g : BitVec 64 → Option (BitVec 64)) :
    (wordUpdate a g).apply 8 m = (g (read64 m a)).elim m (write64 m a) := by
  have hvalue : (wordUpdate a g).value m = (g (read64 m a)).map BitVec.toNat := rfl
  unfold Cells.Update.apply
  rw [hvalue]
  cases g (read64 m a) <;> rfl

theorem map_cell_updateIf (p : Reloc → Bool) (g : Reloc → BitVec 64 → Option (BitVec 64))
    (rs : List Reloc) :
    (rs.filterMap (o.updateIf p g)).map Cells.Update.cell = (rs.filter p).map o.ptr := by
  induction rs with
  | nil => rfl
  | cons r rs ih =>
    cases hp : p r with
    | false =>
      have hnone : o.updateIf p g r = none := by unfold updateIf; rw [hp]; rfl
      rw [List.filterMap_cons_none hnone, List.filter_cons_of_neg (by simp [hp]), ih]
    | true =>
      have hsome : o.updateIf p g r = some (wordUpdate (o.ptr r) (g r)) := by
        unfold updateIf
        rw [hp]
        rfl
      rw [List.filterMap_cons_some hsome, List.filter_cons_of_pos hp, List.map_cons, ih]
      rfl

theorem map_cell_updates (o : ModuleObject) (m : Memory) (scope : Scope) (T : SymbolTable)
    (lazy : Bool) (self : Addr) :
    (o.updates m scope T lazy self).map Cells.Update.cell = o.cells m := by
  have hgot : (o.gotUpdates scope self).map Cells.Update.cell =
      if o.got ≠ 0 then [o.got + 8, o.got + 16] else [] := by
    unfold gotUpdates
    split <;> rfl
  unfold updates cells relativeUpdate symbolicUpdate slotUpdate
  rw [List.map_append, List.map_append, List.map_append, map_cell_updateIf, map_cell_updateIf,
    map_cell_updateIf, hgot]

/-- All updates are updates of words from what they were. -/
theorem eq_wordUpdate_of_mem {u : Cells.Update} (hu : u ∈ o.updates m scope T lazy self) :
    ∃ a g, u = wordUpdate a g := by
  have hif : ∀ {p g rs}, u ∈ List.filterMap (o.updateIf p g) rs → ∃ a g, u = wordUpdate a g := by
    intro p g rs h
    obtain ⟨r, -, hr⟩ := List.mem_filterMap.1 h
    unfold updateIf at hr
    split at hr
    · exact ⟨_, _, (Option.some.inj hr).symm⟩
    · cases hr
  rcases List.mem_append.1 hu with hu | hu
  · rcases List.mem_append.1 hu with hu | hu
    · rcases List.mem_append.1 hu with hu | hu
      · exact hif hu
      · exact hif hu
    · exact hif hu
  · unfold gotUpdates at hu
    split at hu
    · rcases List.mem_pair.1 hu with rfl | rfl <;> exact ⟨_, _, rfl⟩
    · cases hu

variable (h : Linkable scope n stub o T m)

include h

theorem Linkable.independent (lazy : Bool) (self : Addr) :
    Cells.Independent 8 (o.updates m scope T lazy self) where
  separate := by
    have hsep := h.separate
    rw [← map_cell_updates o m scope T lazy self] at hsep
    exact List.pairwise_map.1 hsep
  local_mem u hu := by
    obtain ⟨a, g, rfl⟩ := eq_wordUpdate_of_mem hu
    exact Cells.local_ofCell (by decide)

/-- Whatever the updates have written so far, what is read is as it was. -/
theorem Linkable.agreeOn (hoff : Cells.AgreeOff 8 (o.updates m scope T lazy self) m' m) :
    AgreeOn (o.readWindows m scope T) m m' := by
  intro w hw x hx
  refine (hoff x fun ⟨u, hu, hux⟩ => ?_).symm
  have hcell : u.cell ∈ o.cells m := map_cell_updates o m scope T lazy self ▸ List.mem_map_of_mem hu
  exact h.apart w hw _ hcell x hx hux

end

/-! ## Reading the relocations -/

section

variable {o : ModuleObject} {m m' : Memory} {a : Addr} {i : ℕ}

theorem readRel_congr (h : ∀ x, InWindow a sizeofRel x → m x = m' x) :
    readRel m a = readRel m' a := by
  have hsize : sizeofRel < 2 ^ 64 := by decide
  have hoffset : load m a 8 = load m' a 8 :=
    load_congr (by decide) fun x hx => h x (hx.mono (by decide))
  have hinfo : load m (a + 8) 8 = load m' (a + 8) 8 := load_part h (by decide) hsize
  unfold readRel read64
  rw [hoffset, hinfo]

theorem readRela_congr (h : ∀ x, InWindow a sizeofRela x → m x = m' x) :
    readRela m a = readRela m' a := by
  have hsize : sizeofRela < 2 ^ 64 := by decide
  have hoffset : load m a 8 = load m' a 8 :=
    load_congr (by decide) fun x hx => h x (hx.mono (by decide))
  have hinfo : load m (a + 8) 8 = load m' (a + 8) 8 := load_part h (by decide) hsize
  have haddend : load m (a + 16) 8 = load m' (a + 16) 8 := load_part h (by decide) hsize
  unfold readRela read64
  rw [hoffset, hinfo, haddend]

variable (h : AgreeOn o.relocWindows m m')

include h

theorem relAt_congr (hi : i ∈ List.range o.relCount.toNat ++
    indices o.relCount.toNat (o.relDynSize.toNat / sizeofRel)) :
    relAt m o.relaOrRel i = relAt m' o.relaOrRel i := by
  have hw : (entryOf o.relaOrRel sizeofRel i, sizeofRel) ∈ o.relocWindows :=
    List.mem_append_left _ (List.mem_append_left _ (List.mem_map.2 ⟨i, hi, rfl⟩))
  exact congrArg ElfRel.reloc (readRel_congr (h (entryOf o.relaOrRel sizeofRel i, sizeofRel) hw))

theorem relaAt_congr (hi : i ∈ List.range o.relaCount.toNat ++
    indices o.relaCount.toNat (o.relaDynSize.toNat / sizeofRela)) :
    relaAt m o.relaOrRel i = relaAt m' o.relaOrRel i := by
  have hw : (entryOf o.relaOrRel sizeofRela i, sizeofRela) ∈ o.relocWindows :=
    List.mem_append_left _ (List.mem_append_right _ (List.mem_map.2 ⟨i, hi, rfl⟩))
  exact congrArg ElfRela.reloc
    (readRela_congr (h (entryOf o.relaOrRel sizeofRela i, sizeofRela) hw))

theorem slotAt_congr (hi : i < o.slotCount) : o.slotAt m i = o.slotAt m' i := by
  have hw : ∀ size, (if o.isRela then sizeofRela else sizeofRel) = size →
      (entryOf o.relaOrRelPlt size i, size) ∈ o.relocWindows := by
    rintro size rfl
    exact List.mem_append_right _ (List.mem_map.2 ⟨i, List.mem_range.2 hi, rfl⟩)
  unfold slotAt
  cases hrela : o.isRela with
  | true =>
    exact congrArg ElfRela.reloc (readRela_congr
      (h (entryOf o.relaOrRelPlt sizeofRela i, sizeofRela) (hw _ (by rw [hrela]; rfl))))
  | false =>
    exact congrArg ElfRel.reloc (readRel_congr
      (h (entryOf o.relaOrRelPlt sizeofRel i, sizeofRel) (hw _ (by rw [hrela]; rfl))))

end

/-! ## The loops -/

section

variable {o : ModuleObject} {m m' : Memory} {scope : Scope} {T : SymbolTable} {lazy : Bool}
  {self stub : Addr} {n i : ℕ}

theorem relocateRel_eq : relocateRel o.moduleBase o.relaOrRel sizeofRel m i =
    (o.relativeUpdate (relAt m o.relaOrRel i)).elim m fun u => u.apply 8 m := by
  unfold relocateRel relativeUpdate updateIf Reloc.isRelative
  by_cases htype : rType (relAt m o.relaOrRel i).info = archRelative
  · simp only [htype, decide_true, if_true, Option.elim_some, wordUpdate_apply]
    exact if_pos htype
  · simp only [htype, decide_false]
    exact if_neg htype

theorem relocateRela_eq : relocateRela o.moduleBase o.relaOrRel sizeofRela m i =
    (o.relativeUpdate (relaAt m o.relaOrRel i)).elim m fun u => u.apply 8 m := by
  unfold relocateRela relativeUpdate updateIf Reloc.isRelative
  by_cases htype : rType (relaAt m o.relaOrRel i).info = archRelative
  · simp only [htype, decide_true, if_true, Option.elim_some, wordUpdate_apply]
    exact if_pos htype
  · simp only [htype, decide_false]
    exact if_neg htype

/-- The stub makes no difference to symbols. -/
theorem walkSyms_withStub {name : List UInt8} {p : Addr} {j : BitVec 32} :
    (o.withStub p).walkSyms m name n j = o.walkSyms m name n j := by
  induction n generalizing j with
  | zero => rfl
  | succ n ih =>
    unfold walkSyms
    rw [ih]
    rfl

theorem tryResolveSymbol_withStub {env : LinkEnv} {p a : Addr} :
    tryResolveSymbol env n m (o.withStub p) a = tryResolveSymbol env n m o a := by
  unfold tryResolveSymbol getSymbolByName
  simp only [walkSyms_withStub]
  rfl

theorem mem_updates_relative {r : Reloc} {u : Cells.Update} (hr : r ∈ o.relatives m)
    (hu : o.relativeUpdate r = some u) : u ∈ o.updates m scope T lazy self :=
  List.mem_append_left _ (List.mem_append_left _ (List.mem_append_left _
    (List.mem_filterMap.2 ⟨r, hr, hu⟩)))

theorem mem_updates_symbolic {r : Reloc} {u : Cells.Update} (hr : r ∈ o.symbolics m)
    (hu : o.symbolicUpdate scope T r = some u) : u ∈ o.updates m scope T lazy self :=
  List.mem_append_left _ (List.mem_append_left _ (List.mem_append_right _
    (List.mem_filterMap.2 ⟨r, hr, hu⟩)))

theorem mem_updates_slot {r : Reloc} {u : Cells.Update} (hr : r ∈ o.slots m)
    (hu : o.slotUpdate scope T lazy r = some u) : u ∈ o.updates m scope T lazy self :=
  List.mem_append_left _ (List.mem_append_right _ (List.mem_filterMap.2 ⟨r, hr, hu⟩))

variable (h : Linkable scope n stub o T m)

include h

/-- The loops of `relocate`. -/
theorem Linkable.relocate_eq : o.relocate m =
    some (Cells.apply 8 ((o.relatives m).filterMap o.relativeUpdate) m) := by
  have hmem : ∀ r ∈ o.relatives m, ∀ u, o.relativeUpdate r = some u →
      u ∈ o.updates m scope T false 0 := fun r hr u => mem_updates_relative hr
  have hrel : ∀ i ∈ List.range o.relCount.toNat, relAt m o.relaOrRel i ∈ o.relatives m :=
    fun i hi => List.mem_append_left _ (List.mem_map_of_mem hi)
  have hrela : ∀ i ∈ List.range o.relaCount.toNat, relaAt m o.relaOrRel i ∈ o.relatives m :=
    fun i hi => List.mem_append_right _ (List.mem_map_of_mem hi)
  have hwindows : ∀ w ∈ o.relocWindows, w ∈ o.readWindows m scope T := fun w hw =>
    List.mem_append_left _ (List.mem_append_left _ (List.mem_append_left _ hw))
  have hloops := Cells.foldlM_memory_bind (n := 8)
    (f := fun m' i => some (relocateRel o.moduleBase o.relaOrRel sizeofRel m' i))
    (p := fun m' i => some (relocateRela o.moduleBase o.relaOrRel sizeofRela m' i))
    (g := fun i => o.relativeUpdate (relAt m o.relaOrRel i))
    (q := fun i => o.relativeUpdate (relaAt m o.relaOrRel i))
    (fun i hi => hmem _ (hrel i hi)) (fun i hi => hmem _ (hrela i hi))
    (fun i hi m' hoff => by
      rw [relocateRel_eq, ← relAt_congr ((h.agreeOn hoff).mono hwindows)
        (List.mem_append_left _ hi)])
    (fun i hi m' hoff => by
      rw [relocateRela_eq, ← relaAt_congr ((h.agreeOn hoff).mono hwindows)
        (List.mem_append_left _ hi)])
    (fun _ _ => rfl : Cells.AgreeOff 8 _ m m)
  unfold ModuleObject.relocate ModuleObject.relatives
  rw [loop32_eq h.counts.1, loop32_eq h.counts.2.1, hloops, List.filterMap_append,
    List.filterMap_map, List.filterMap_map, Function.comp_def, Function.comp_def]

/-- A symbol is resolved in any memory in which only words of the module were written. -/
theorem Linkable.tryResolve_eq (hoff : Cells.AgreeOff 8 (o.updates m scope T lazy self) m' m)
    {j : BitVec 32} (hj : j ∈ o.refs m) :
    tryResolveSymbol scope.env n m' o (o.symAt j) = some (scope.resolve o T j) := by
  have hagree := h.agreeOn hoff
  have hscope : scope.Held m' n := h.held.congr <| hagree.mono fun w hw =>
    List.mem_append_left _ (List.mem_append_left _ (List.mem_append_right _ hw))
  have hown : o.Represents m' T := h.own.congr <| hagree.mono fun w hw =>
    List.mem_append_left _ (List.mem_append_right _ hw)
  have hsym : o.HoldsSym m' T j := (h.refs j hj).1.congr <| hagree.mono fun w hw =>
    List.mem_append_right _ (List.mem_flatMap.2 ⟨j, hj, hw⟩)
  exact tryResolveSymbol_eq hscope hown h.within hsym (h.refs j hj).2

theorem Linkable.resolveAbsolute_eq
    (hoff : Cells.AgreeOff 8 (o.updates m scope T lazy self) m' m) {r : Reloc}
    (hr : r ∈ o.symbolics m) : resolveAbsolute scope.env n o r.offset r.info r.combine m' =
      some ((o.symbolicUpdate scope T r).elim m' fun u => u.apply 8 m') := by
  have hunfold : (archIsRelAbsolute (rType r.info) || rType r.info == archGlobDat) = r.isSymbolic :=
    rfl
  unfold resolveAbsolute symbolicUpdate updateIf
  rw [hunfold]
  cases hsym : r.isSymbolic with
  | false => rfl
  | true =>
    have hj : rSym r.info ∈ o.refs m := List.mem_map.2
      ⟨r, List.mem_append_left _ (List.mem_filter.2 ⟨hr, hsym⟩), rfl⟩
    rw [if_pos rfl, if_pos rfl, h.tryResolve_eq hoff hj, Option.elim_some, wordUpdate_apply]
    dsimp only
    generalize scope.resolve o T (rSym r.info) = target
    cases target <;> rfl

/-- The loops of `resolveSymbols` over the relocations that `relocate` has left. -/
theorem Linkable.symbolics_eq
    (hoff : Cells.AgreeOff 8 (o.updates m scope T lazy self) m' m) :
    ((indices o.relCount.toNat (o.relDynSize.toNat / sizeofRel)).foldlM (fun m i =>
      resolveSymbolRelAbsolute scope.env n o (readRel m (entryOf o.relaOrRel sizeofRel i)) m)
        m').bind ((indices o.relaCount.toNat (o.relaDynSize.toNat / sizeofRela)).foldlM fun m i =>
      resolveSymbolRelaAbsolute scope.env n o (readRela m (entryOf o.relaOrRel sizeofRela i)) m) =
    some (Cells.apply 8 ((o.symbolics m).filterMap (o.symbolicUpdate scope T)) m') := by
  have hmem : ∀ r ∈ o.symbolics m, ∀ u, o.symbolicUpdate scope T r = some u →
      u ∈ o.updates m scope T lazy self := fun r hr u => mem_updates_symbolic hr
  have hrel : ∀ i ∈ indices o.relCount.toNat (o.relDynSize.toNat / sizeofRel),
      relAt m o.relaOrRel i ∈ o.symbolics m :=
    fun i hi => List.mem_append_left _ (List.mem_map_of_mem hi)
  have hrela : ∀ i ∈ indices o.relaCount.toNat (o.relaDynSize.toNat / sizeofRela),
      relaAt m o.relaOrRel i ∈ o.symbolics m :=
    fun i hi => List.mem_append_right _ (List.mem_map_of_mem hi)
  have hwindows : ∀ w ∈ o.relocWindows, w ∈ o.readWindows m scope T := fun w hw =>
    List.mem_append_left _ (List.mem_append_left _ (List.mem_append_left _ hw))
  have hloops := Cells.foldlM_memory_bind (n := 8)
    (f := fun m' i =>
      resolveSymbolRelAbsolute scope.env n o (readRel m' (entryOf o.relaOrRel sizeofRel i)) m')
    (p := fun m' i =>
      resolveSymbolRelaAbsolute scope.env n o (readRela m' (entryOf o.relaOrRel sizeofRela i)) m')
    (g := fun i => o.symbolicUpdate scope T (relAt m o.relaOrRel i))
    (q := fun i => o.symbolicUpdate scope T (relaAt m o.relaOrRel i))
    (fun i hi => hmem _ (hrel i hi)) (fun i hi => hmem _ (hrela i hi))
    (fun i hi m' hoff => by
      rw [← h.resolveAbsolute_eq hoff (hrel i hi),
        relAt_congr ((h.agreeOn hoff).mono hwindows) (List.mem_append_right _ hi)]
      rfl)
    (fun i hi m' hoff => by
      rw [← h.resolveAbsolute_eq hoff (hrela i hi),
        relaAt_congr ((h.agreeOn hoff).mono hwindows) (List.mem_append_right _ hi)]
      rfl) hoff
  unfold ModuleObject.symbolics
  rw [hloops, List.filterMap_append, List.filterMap_map, List.filterMap_map, Function.comp_def,
    Function.comp_def]

omit h in
/-- One slot: it is filled in, and the stub is the one of all slots. -/
theorem resolveJumpSlot_eq (lazy : Bool) {r : Reloc} {p : Addr} (hp : p = 0 ∨ p = stub)
    (hold : r.isJumpSlot = true → o.moduleBase + read64 m (o.ptr r) = stub)
    (htarget : r.isJumpSlot = true → tryResolveSymbol scope.env n m o (o.symAt (rSym r.info)) =
      some (scope.resolve o T (rSym r.info))) :
    ∃ p', (p' = 0 ∨ p' = stub) ∧ resolveJumpSlot scope.env n lazy r.offset r.info r.combine
      (o.withStub p, m) = some (o.withStub p',
        (o.slotUpdate scope T lazy r).elim m fun u => u.apply 8 m) := by
  unfold slotUpdate updateIf
  cases hslot : r.isJumpSlot with
  | false =>
    have htype : ¬rType r.info = archJumpSlot := of_decide_eq_false hslot
    exact ⟨p, hp, if_neg htype⟩
  | true =>
    have htype : rType r.info = archJumpSlot := of_decide_eq_true hslot
    have hstub : (o.withStub p).moduleBase + read64 m ((o.withStub p).moduleBase + r.offset) =
      stub := hold hslot
    have hassert : ¬((o.withStub p).gotStubPtr ≠ 0 ∧ (o.withStub p).gotStubPtr ≠ stub) :=
      fun hne => hp.elim hne.1 hne.2
    have hobject : (if (o.withStub p).gotStubPtr ≠ 0 then o.withStub p
        else (o.withStub p).withStub stub) = o.withStub stub := by
      split
      · next hne => rw [hp.resolve_left hne]
      · rfl
    have hresolve : tryResolveSymbol scope.env n m (o.withStub stub)
        ((o.withStub stub).symAt (rSym r.info)) = some (scope.resolve o T (rSym r.info)) :=
      tryResolveSymbol_withStub.trans (htarget hslot)
    refine ⟨stub, Or.inr rfl, ?_⟩
    rw [if_pos rfl, Option.elim_some, wordUpdate_apply, Option.elim_some]
    unfold resolveJumpSlot
    dsimp only
    rw [if_pos htype, hstub, if_neg hassert, hobject]
    unfold slotWord
    cases lazy with
    | true => rw [if_pos rfl, if_pos rfl, if_pos rfl, hold hslot]; rfl
    | false =>
      rw [if_neg Bool.false_ne_true, if_neg Bool.false_ne_true, if_neg Bool.false_ne_true, hresolve,
        hold hslot]
      generalize scope.resolve o T (rSym r.info) = target
      cases target <;> rfl

omit h in
/-- The two loops over the slots are one. -/
theorem resolvePlt_eq {env : LinkEnv} (hcount : o.slotCount < 2 ^ 32) :
    resolvePlt env n lazy (o, m) = (List.range o.slotCount).foldlM (fun s i =>
      resolveJumpSlot env n lazy (o.slotAt s.2 i).offset (o.slotAt s.2 i).info
        (o.slotAt s.2 i).combine s) (o, m) := by
  have hsmall : ∀ k : ℕ, 0 < k → ¬k ≤ o.relaOrRelPltSize.toNat →
      o.relaOrRelPltSize.toNat / k = 0 := fun k hk hle =>
    Nat.div_eq_of_lt (Nat.lt_of_not_le hle)
  unfold resolvePlt loop32
  unfold slotCount at hcount ⊢
  unfold slotAt
  dsimp only
  generalize o.isRela = rela at hcount ⊢
  cases rela with
  | true =>
    simp only [if_true] at hcount ⊢
    split
    · rfl
    · next hle =>
      rw [hsmall _ (by decide) hle]
      rfl
  | false =>
    simp only [Bool.false_eq_true, if_false] at hcount ⊢
    split
    · rfl
    · next hle =>
      rw [hsmall _ (by decide) hle]
      rfl

/-- The words of the slots of some indices. -/
def slotPtrs (o : ModuleObject) (m : Memory) (is : List ℕ) : List Addr :=
  ((is.map (o.slotAt m)).filter Reloc.isJumpSlot).map o.ptr

omit h in
theorem mem_slotPtrs {is : List ℕ} (hi : i ∈ is) (hslot : (o.slotAt m i).isJumpSlot = true) :
    o.ptr (o.slotAt m i) ∈ slotPtrs o m is :=
  List.mem_map_of_mem (List.mem_filter.2 ⟨List.mem_map_of_mem hi, hslot⟩)

/-- Before the slots that are left: the module, with the stub or none, and their words as they
were. -/
structure SlotsLeft (o : ModuleObject) (stub : Addr) (m : Memory) (is : List ℕ)
    (s : ModuleObject × Memory) : Prop where
  object : ∃ p, s.1 = o.withStub p ∧ (p = 0 ∨ p = stub)
  fresh : ∀ a ∈ slotPtrs o m is, read64 s.2 a = read64 m a
  separate : (slotPtrs o m is).Pairwise fun a b => Separate a 8 b 8

omit h in
theorem slotPtrs_cons_of_pos (hslot : (o.slotAt m i).isJumpSlot = true) (is : List ℕ) :
    slotPtrs o m (i :: is) = o.ptr (o.slotAt m i) :: slotPtrs o m is := by
  unfold slotPtrs
  rw [List.map_cons, List.filter_cons_of_pos hslot, List.map_cons]

omit h in
theorem slotPtrs_cons_of_neg (hslot : (o.slotAt m i).isJumpSlot = false) (is : List ℕ) :
    slotPtrs o m (i :: is) = slotPtrs o m is := by
  unfold slotPtrs
  rw [List.map_cons, List.filter_cons_of_neg (by simp [hslot])]

omit h in
/-- A slot that is filled in leaves the others as they were. -/
theorem SlotsLeft.next {is : List ℕ} {s : ModuleObject × Memory} {p : Addr}
    (hs : SlotsLeft o stub m (i :: is) s) (hp : p = 0 ∨ p = stub) : SlotsLeft o stub m is
      (o.withStub p,
        (o.slotUpdate scope T lazy (o.slotAt m i)).elim s.2 fun u => u.apply 8 s.2) where
  object := ⟨p, rfl, hp⟩
  fresh a ha := by
    have hfresh := hs.fresh
    have hsep := hs.separate
    unfold slotUpdate updateIf
    cases hslot : (o.slotAt m i).isJumpSlot with
    | false =>
      rw [slotPtrs_cons_of_neg hslot] at hfresh
      exact hfresh a ha
    | true =>
      rw [slotPtrs_cons_of_pos hslot] at hfresh hsep
      rw [if_pos rfl, Option.elim_some, wordUpdate_apply, Option.elim_some,
        ← hfresh a (List.mem_cons_of_mem _ ha)]
      exact congrArg (BitVec.ofNat 64) (load_store_of_separate (by decide)
        ((List.pairwise_cons.1 hsep).1 a ha))
  separate := by
    have hsep := hs.separate
    cases hslot : (o.slotAt m i).isJumpSlot with
    | false => rwa [slotPtrs_cons_of_neg hslot] at hsep
    | true =>
      rw [slotPtrs_cons_of_pos hslot] at hsep
      exact hsep.of_cons

theorem Linkable.slotsLeft (hfresh : ∀ a ∈ slotPtrs o m (List.range o.slotCount),
    read64 m' a = read64 m a) : SlotsLeft o stub m (List.range o.slotCount) (o, m') where
  object := ⟨o.gotStubPtr, rfl, h.stub⟩
  fresh := hfresh
  separate := (List.pairwise_append.1 (List.pairwise_append.1 h.separate).1).2.1

/-- One turn of the loop over the slots. -/
theorem Linkable.slot_step {is : List ℕ} {s : ModuleObject × Memory} (hi : i < o.slotCount)
    (hs : SlotsLeft o stub m (i :: is) s)
    (hoff : Cells.AgreeOff 8 (o.updates m scope T lazy self) s.2 m) :
    ∃ s', resolveJumpSlot scope.env n lazy (o.slotAt s.2 i).offset (o.slotAt s.2 i).info
        (o.slotAt s.2 i).combine s = some s' ∧ SlotsLeft o stub m is s' ∧
      s'.2 = (o.slotUpdate scope T lazy (o.slotAt m i)).elim s.2 fun u => u.apply 8 s.2 := by
  obtain ⟨p, hobject, hp⟩ := hs.object
  have hmem : o.slotAt m i ∈ o.slots m := List.mem_map_of_mem (List.mem_range.2 hi)
  have hread : o.slotAt s.2 i = o.slotAt m i := (slotAt_congr ((h.agreeOn hoff).mono fun w hw =>
    List.mem_append_left _ (List.mem_append_left _ (List.mem_append_left _ hw))) hi).symm
  have hold : (o.slotAt m i).isJumpSlot = true →
      o.moduleBase + read64 s.2 (o.ptr (o.slotAt m i)) = stub := fun hslot => by
    rw [hs.fresh _ (mem_slotPtrs List.mem_cons_self hslot)]
    exact h.slots _ hmem hslot
  have htarget : (o.slotAt m i).isJumpSlot = true →
      tryResolveSymbol scope.env n s.2 o (o.symAt (rSym (o.slotAt m i).info)) =
        some (scope.resolve o T (rSym (o.slotAt m i).info)) := fun hslot =>
    h.tryResolve_eq hoff (List.mem_map.2
      ⟨_, List.mem_append_right _ (List.mem_filter.2 ⟨hmem, hslot⟩), rfl⟩)
  obtain ⟨p', hp', hstep⟩ := resolveJumpSlot_eq lazy hp hold htarget
  have hpair : s = (o.withStub p, s.2) := Prod.ext hobject rfl
  refine ⟨_, ?_, hs.next hp', rfl⟩
  rw [hread]
  rw [hpair]
  exact hstep

/-- The loop over the slots of functions. -/
theorem Linkable.slots_eq (hoff : Cells.AgreeOff 8 (o.updates m scope T lazy self) m' m)
    (hfresh : ∀ a ∈ slotPtrs o m (List.range o.slotCount), read64 m' a = read64 m a) :
    ∃ p, resolvePlt scope.env n lazy (o, m') = some (o.withStub p,
      Cells.apply 8 ((o.slots m).filterMap (o.slotUpdate scope T lazy)) m') := by
  obtain ⟨s', hloop, hleft, happly⟩ := Cells.foldlM_eq_apply Prod.snd (n := 8)
    (J := SlotsLeft o stub m)
    (g := fun i => o.slotUpdate scope T lazy (o.slotAt m i))
    (fun i hi u hu => mem_updates_slot (List.mem_map_of_mem hi) hu)
    (fun i hi js s hs => h.slot_step (List.mem_range.1 hi) hs) (h.slotsLeft hfresh) hoff
  obtain ⟨p, hobject, -⟩ := hleft.object
  refine ⟨p, ?_⟩
  rw [resolvePlt_eq h.counts.2.2, hloop]
  unfold ModuleObject.slots
  rw [List.filterMap_map, Function.comp_def, ← happly, ← hobject]

omit h in
theorem initGot_eq (p : Addr) : initGot scope.env self (o.withStub p) m =
    Cells.apply 8 (o.gotUpdates scope self) m := by
  unfold initGot gotUpdates
  have hgot : (o.withStub p).got = o.got := rfl
  rw [hgot]
  split
  · rw [Cells.apply_cons, Cells.apply_cons, wordUpdate_apply, wordUpdate_apply]
    rfl
  · rfl

/-- Before the loop over the slots, their words are as they were. -/
theorem Linkable.fresh {a : Addr} (ha : a ∈ slotPtrs o m (List.range o.slotCount)) :
    read64 (Cells.apply 8 ((o.relatives m).filterMap o.relativeUpdate ++
      (o.symbolics m).filterMap (o.symbolicUpdate scope T)) m) a = read64 m a := by
  have hsep := (List.pairwise_append.1 (List.pairwise_append.1 h.separate).1).2.2
  refine congrArg (BitVec.ofNat 64) (load_congr (by decide) fun x hx => ?_)
  refine Cells.apply_of_not_covered fun ⟨u, hu, hux⟩ => hsep u.cell ?_ a ha x hux hx
  have hcell := List.mem_map_of_mem (f := Cells.Update.cell) hu
  unfold relativeUpdate symbolicUpdate at hcell
  rw [List.map_append, map_cell_updateIf, map_cell_updateIf] at hcell
  exact hcell

/-- Linking a module is a series of independent updates. -/
theorem Linkable.link_eq (lazy : Bool) (self : Addr) :
    ∃ p, link scope.env n lazy self o m = some (o.withStub p,
      Cells.apply 8 (o.updates m scope T lazy self) m) := by
  have hrel : Cells.AgreeOff 8 (o.updates m scope T lazy self)
      (Cells.apply 8 ((o.relatives m).filterMap o.relativeUpdate) m) m :=
    Cells.AgreeOff.apply (fun _ _ => rfl) _ fun u hu => by
      obtain ⟨r, hr, hu⟩ := List.mem_filterMap.1 hu
      exact mem_updates_relative hr hu
  have hsym := hrel.apply ((o.symbolics m).filterMap (o.symbolicUpdate scope T))
    fun u hu => by
      obtain ⟨r, hr, hu⟩ := List.mem_filterMap.1 hu
      exact mem_updates_symbolic hr hu
  rw [← Cells.apply_append] at hsym
  obtain ⟨p, hslots⟩ := h.slots_eq hsym fun a => h.fresh
  refine ⟨p, ?_⟩
  unfold link ModuleObject.resolveSymbols
  rw [h.relocate_eq, Option.bind_some]
  change Option.bind _ (fun m => Option.bind _ fun m => Option.bind _ fun s => _) = _
  rw [← Option.bind_assoc, h.symbolics_eq hrel, Option.bind_some, ← Cells.apply_append, hslots,
    Option.bind_some]
  dsimp only
  rw [initGot_eq, ← Cells.apply_append, ← Cells.apply_append, ← List.append_assoc]
  rfl

end

/-! ## The image -/

/-- What linking a module leaves: the relocated words, and nothing else. -/
structure Image (scope : Scope) (o : ModuleObject) (T : SymbolTable) (lazy : Bool) (owner : Addr)
    (m m' : Memory) : Prop where
  relative : ∀ r ∈ o.relatives m, r.isRelative = true →
    read64 m' (o.ptr r) = r.combine o.moduleBase (read64 m (o.ptr r))
  symbolic : ∀ r ∈ o.symbolics m, r.isSymbolic = true → read64 m' (o.ptr r) =
    (scope.resolve o T (rSym r.info)).elim (read64 m (o.ptr r)) fun a =>
      r.combine a (read64 m (o.ptr r))
  slot : ∀ r ∈ o.slots m, r.isJumpSlot = true → read64 m' (o.ptr r) =
    o.slotWord lazy (scope.resolve o T (rSym r.info)) r (read64 m (o.ptr r))
  got : o.got ≠ 0 → read64 m' (o.got + 8) = owner ∧
    read64 m' (o.got + 16) = scope.runtimeResolve
  frame : ∀ x, (∀ a ∈ o.cells m, ¬InWindow a 8 x) → m' x = m x

section

variable {o : ModuleObject} {m : Memory} {scope : Scope} {T : SymbolTable} {stub : Addr} {n : ℕ}

theorem read64_apply {us : List Cells.Update} (hus : Cells.Independent 8 us) {a : Addr}
    {g : BitVec 64 → Option (BitVec 64)} (hu : wordUpdate a g ∈ us) :
    read64 (Cells.apply 8 us m) a = (g (read64 m a)).getD (read64 m a) := by
  have hload := hus.load_ofCell (m := m) (by decide) hu
  change BitVec.ofNat 64 _ = _
  rw [hload]
  change BitVec.ofNat 64 (((g (read64 m a)).map BitVec.toNat).elim _ _) = _
  cases g (read64 m a) with
  | none => rfl
  | some v =>
    refine BitVec.eq_of_toNat_eq ?_
    have hlt := v.isLt
    change v.toNat % 256 ^ 8 % 2 ^ 64 = v.toNat
    omega

theorem mem_filterMap_updateIf {p : Reloc → Bool} {g : Reloc → BitVec 64 → Option (BitVec 64)}
    {rs : List Reloc} {r : Reloc} (hr : r ∈ rs) (hp : p r = true) :
    wordUpdate (o.ptr r) (g r) ∈ rs.filterMap (o.updateIf p g) :=
  List.mem_filterMap.2 ⟨r, hr, by unfold updateIf; rw [hp]; rfl⟩

/-- **Linking relocates each word once.** A module that can be linked is linked, with the slots of
functions filled in at once or left to the stub; every relocated word is made from the address of
the module or of its symbol, and the rest of the memory stays. -/
theorem Linkable.link_image (h : Linkable scope n stub o T m) (lazy : Bool) (self : Addr) :
    ∃ p m', link scope.env n lazy self o m = some (o.withStub p, m') ∧
      Image scope o T lazy self m m' := by
  obtain ⟨p, hlink⟩ := h.link_eq lazy self
  have hindep := h.independent lazy self
  refine ⟨p, _, hlink, ⟨fun r hr hrel => ?_, fun r hr hsym => ?_, fun r hr hslot => ?_,
    fun hgot => ?_, fun x hx => ?_⟩⟩
  · exact read64_apply hindep (List.mem_append_left _ (List.mem_append_left _
      (List.mem_append_left _ (mem_filterMap_updateIf hr hrel))))
  · rw [read64_apply hindep (List.mem_append_left _ (List.mem_append_left _
      (List.mem_append_right _ (mem_filterMap_updateIf hr hsym))))]
    cases scope.resolve o T (rSym r.info) <;> rfl
  · exact read64_apply hindep (List.mem_append_left _ (List.mem_append_right _
      (mem_filterMap_updateIf hr hslot)))
  · have hupdates : o.gotUpdates scope self = [wordUpdate (o.got + 8) fun _ => some self,
        wordUpdate (o.got + 16) fun _ => some scope.runtimeResolve] := if_pos hgot
    have hself : wordUpdate (o.got + 8) (fun _ => some self) ∈ o.updates m scope T lazy self :=
      List.mem_append_right _ (hupdates ▸ List.mem_cons_self)
    have hresolve : wordUpdate (o.got + 16) (fun _ => some scope.runtimeResolve) ∈
        o.updates m scope T lazy self :=
      List.mem_append_right _ (hupdates ▸ List.mem_cons_of_mem _ List.mem_cons_self)
    exact ⟨read64_apply hindep hself, read64_apply hindep hresolve⟩
  · refine Cells.apply_of_not_covered fun ⟨u, hu, hux⟩ => hx u.cell ?_ hux
    have hcell := List.mem_map_of_mem (f := Cells.Update.cell) hu
    rwa [map_cell_updates] at hcell

end

/-! ### Linking a module with another -/

/-- The two modules, which find their symbols in each other. -/
def sampleScope : Scope where
  modules := [(sampleUser, sampleUserTable), (sampleProvider, sampleProviderTable)]
  manual := none
  runtimeResolve := 0x30000

/-- The words that linking the user writes. -/
def sampleCells : List Addr := [0x11000, 0x11008, 0x11818, 0x11820, 0x11808, 0x11810]

/-- What linking the user reads. -/
def sampleWindows : List (Addr × ℕ) :=
  [(0x10100, 24), (0x10118, 24), (0x10180, 24), (0x10198, 24), (0x102c0, 4), (0x102c8, 4),
    (0x10218, 24), (0x10281, 2), (0x102cc, 4), (0x10230, 24), (0x10283, 2), (0x202c0, 4),
    (0x202c8, 4), (0x20218, 24), (0x20281, 2), (0x202cc, 4), (0x20230, 24), (0x20283, 2),
    (0x102c0, 4), (0x102c8, 4), (0x10218, 24), (0x10281, 2), (0x102cc, 4), (0x10230, 24),
    (0x10283, 2), (0x10218, 24), (0x10281, 2), (0x10218, 24), (0x10281, 2), (0x10230, 24),
    (0x10283, 2)]

theorem sample_cells : sampleUser.cells sampleMemory = sampleCells := by decide +kernel

theorem sample_windows :
    sampleUser.readWindows sampleMemory sampleScope sampleUserTable = sampleWindows := by
  decide +kernel

theorem linkable_sample : Linkable sampleScope 4 0x10300 sampleUser sampleUserTable
    sampleMemory where
  counts := ⟨by decide +kernel, by decide +kernel, by decide +kernel⟩
  held p hp := by
    rcases List.mem_pair.1 hp with rfl | rfl
    · exact ⟨sampleUser_represents, by decide, by decide⟩
    · exact ⟨sampleProvider_represents, by decide, by decide⟩
  own := sampleUser_represents
  within := ⟨by decide, by decide⟩
  refs i hi := by
    have hrefs : sampleUser.refs sampleMemory = [1, 1, 2] := by decide +kernel
    have hmem : i ∈ sampleUserTable.chains.flatten := by
      rw [hrefs] at hi
      exact (List.mem_cons.1 hi).elim (fun h => h ▸ List.mem_cons_self) id
    refine ⟨sampleUser_represents.holds i hmem, ?_⟩
    rcases List.mem_pair.1 hmem with rfl | rfl <;> decide
  slots r hr _ := by
    have hslots : (sampleUser.slots sampleMemory).map (fun r =>
        sampleUser.moduleBase + read64 sampleMemory (sampleUser.ptr r)) = [0x10300, 0x10300] := by
      decide +kernel
    have hmem := List.mem_map_of_mem (f := fun r =>
      sampleUser.moduleBase + read64 sampleMemory (sampleUser.ptr r)) hr
    rw [hslots] at hmem
    exact (List.mem_pair.1 hmem).elim id id
  stub := Or.inl rfl
  separate := by
    have hcells : sampleCells.Pairwise fun a b =>
        behind (a, 8) (b, 8) = true ∨ behind (b, 8) (a, 8) = true := by
      decide +kernel
    rw [sample_cells]
    exact hcells.imp separate_of_behind
  apart := by
    have hcells : (sampleWindows.all fun w => sampleCells.all fun a =>
        behind w (a, 8) || behind (a, 8) w) = true := by
      decide +kernel
    rw [sample_windows, sample_cells]
    intro w hw a ha
    have hwa := List.all_eq_true.1 (List.all_eq_true.1 hcells w hw) a ha
    exact separate_of_behind (w := w) (v := (a, 8)) (Bool.or_eq_true_iff.1 hwa)

theorem link_sample : ∃ p m', link sampleScope.env 4 true 0x10000 sampleUser sampleMemory =
    some (sampleUser.withStub p, m') ∧
      Image sampleScope sampleUser sampleUserTable true 0x10000 sampleMemory m' :=
  linkable_sample.link_image true 0x10000

end D3Hack
