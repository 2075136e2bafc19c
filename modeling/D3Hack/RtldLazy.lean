import D3Hack.RtldLink

/-!
# Binding functions at their first call

A slot of a function that was left to the stub is bound when the function is first called
(`callSlot`): the resolver looks the symbol up, puts the function into the slot and jumps to it.
Whether a module was linked at once or with its slots left to the stub, any series of calls goes to
the same functions (`Linkable.calls`), each through the word that `bindWord` gives, and a slot
that was called holds this word.

The two differ only for a weak symbol without a definition and with an addend, which the loop over
the slots adds and the resolver does not (`BindsAlike`).
-/

namespace D3Hack

open WordMemory ModuleObject

/-- A call of a function through its slot: where it goes. The stub goes on to the resolver, with
the module and the resolver from the table of functions. -/
def callSlot (env : LinkEnv) (n : ℕ) (stub self : Addr) (o : ModuleObject) (slot : Addr)
    (m : Memory) : Option (Memory × Addr) :=
  let target := read64 m slot
  if target = stub then
    if read64 m (o.got + 8) = self ∧ read64 m (o.got + 16) = env.runtimeResolve then
      rtldRuntimeResolve env n o (o.got + 16) slot m
    else none
  else some (m, target)

/-- Calls of functions by their indices, and where they go. -/
def callAll (env : LinkEnv) (n : ℕ) (stub self : Addr) (o : ModuleObject) :
    List ℕ → Memory → Option (Memory × List Addr)
  | [], m => some (m, [])
  | i :: is, m =>
    (callSlot env n stub self o (entryOf o.got 8 (3 + i)) m).bind fun p =>
      (callAll env n stub self o is p.1).map fun q => (q.1, p.2 :: q.2)

namespace ModuleObject

/-- The function that the resolver binds. -/
def bindWord (o : ModuleObject) (target : Option Addr) (r : Reloc) : Addr :=
  if o.isRela then target.elim 0 fun a => if a = 0 then 0 else r.combine a 0 else target.getD 0

/-- The function of a slot. -/
def slotFunction (o : ModuleObject) (m : Memory) (scope : Scope) (T : SymbolTable) (i : ℕ) : Addr :=
  o.bindWord (scope.resolve o T (rSym (o.slotAt m i).info)) (o.slotAt m i)

/-- The slots are the words of the table of functions from the fourth on. -/
structure HasSlots (o : ModuleObject) (m : Memory) : Prop where
  got_ne : o.got ≠ 0
  jump : ∀ i < o.slotCount, (o.slotAt m i).isJumpSlot = true
  place : ∀ i < o.slotCount, o.ptr (o.slotAt m i) = entryOf o.got 8 (3 + i)

/-- What the loop over the slots puts into a slot is the function, or still the stub. -/
def BindsAlike (o : ModuleObject) (m : Memory) (scope : Scope) (T : SymbolTable) (stub : Addr) :
    Prop :=
  ∀ i < o.slotCount, ∀ a, scope.resolve o T (rSym (o.slotAt m i).info) = some a →
    (o.slotAt m i).combine a (read64 m (o.ptr (o.slotAt m i))) = o.slotFunction m scope T i ∨
      (o.slotAt m i).combine a (read64 m (o.ptr (o.slotAt m i))) = stub

end ModuleObject

section

variable {o : ModuleObject} {m m' : Memory} {scope : Scope} {T : SymbolTable} {lazy : Bool}
  {self stub : Addr} {n i j : ℕ}

/-- The words of a table are apart. -/
theorem separate_entryOf (table : Addr) (hi : i < 2 ^ 60) (hj : j < 2 ^ 60) (hne : i ≠ j) :
    Separate (entryOf table 8 i) 8 (entryOf table 8 j) 8 := by
  intro x hx hx'
  unfold InWindow entryOf at hx hx'
  rw [← BitVec.sub_sub, BitVec.toNat_sub, BitVec.toNat_ofNat] at hx hx'
  have hlt := (x - table).isLt
  omega

theorem rtldLazyBindSymbol_withStub {env : LinkEnv} (p : Addr) :
    rtldLazyBindSymbol env n m (o.withStub p) i = rtldLazyBindSymbol env n m o i := by
  unfold rtldLazyBindSymbol
  simp only [tryResolveSymbol_withStub]
  rfl

variable (h : Linkable scope n stub o T m)

include h

/-- The resolver binds the function of the slot. -/
theorem Linkable.rtldLazyBindSymbol_eq
    (hoff : Cells.AgreeOff 8 (o.updates m scope T lazy self) m' m) (hi : i < o.slotCount)
    (hjump : (o.slotAt m i).isJumpSlot = true) :
    rtldLazyBindSymbol scope.env n m' o i = some (o.slotFunction m scope T i) := by
  have hread : o.slotAt m' i = o.slotAt m i := (slotAt_congr ((h.agreeOn hoff).mono fun w hw =>
    List.mem_append_left _ (List.mem_append_left _ (List.mem_append_left _ hw))) hi).symm
  have hmem : o.slotAt m i ∈ o.slots m := List.mem_map_of_mem (List.mem_range.2 hi)
  have htarget := h.tryResolve_eq hoff (List.mem_map.2
    ⟨_, List.mem_append_right _ (List.mem_filter.2 ⟨hmem, hjump⟩), rfl⟩)
  unfold slotFunction bindWord
  rw [← hread] at htarget ⊢
  unfold rtldLazyBindSymbol
  unfold slotAt at htarget ⊢
  generalize o.isRela = rela at htarget ⊢
  cases rela with
  | true =>
    have hinfo : (relaAt m' o.relaOrRelPlt i).info =
        (readRela m' (entryOf o.relaOrRelPlt sizeofRela i)).info := rfl
    simp only [if_true] at htarget ⊢
    rw [hinfo] at htarget ⊢
    rw [htarget]
    generalize scope.resolve o T _ = target
    cases target <;> rfl
  | false =>
    have hinfo : (relAt m' o.relaOrRelPlt i).info =
        (readRel m' (entryOf o.relaOrRelPlt sizeofRel i)).info := rfl
    simp only [Bool.false_eq_true, if_false] at htarget ⊢
    rw [hinfo] at htarget ⊢
    rw [htarget]
    rfl

omit h in
/-- The resolver is given the index of the slot. -/
theorem slot_index (got : Addr) (hi : i < 2 ^ 60) :
    ((entryOf got 8 (3 + i) - (got + 16) - 8) >>> 3).toNat = i := by
  have hdiff : entryOf got 8 (3 + i) - (got + 16) - 8 = BitVec.ofNat 64 (8 * i) := by
    unfold entryOf
    rw [Nat.mul_add, BitVec.ofNat_add]
    bv_omega
  rw [hdiff, BitVec.toNat_ushiftRight, BitVec.toNat_ofNat, Nat.shiftRight_eq_div_pow]
  omega

end

/-- Calls of functions in memory where the module is linked: words of the module were written
alone, the stub finds the resolver, and a slot holds its function or the stub. -/
structure CanCall (scope : Scope) (o : ModuleObject) (T : SymbolTable) (stub owner : Addr)
    (m m' : Memory) : Prop where
  frame : ∀ x, (∀ a ∈ o.cells m, ¬InWindow a 8 x) → m' x = m x
  got : read64 m' (o.got + 8) = owner ∧ read64 m' (o.got + 16) = scope.runtimeResolve
  slot : ∀ i < o.slotCount, read64 m' (entryOf o.got 8 (3 + i)) = stub ∨
    read64 m' (entryOf o.got 8 (3 + i)) = o.slotFunction m scope T i

section

variable {o : ModuleObject} {m m' : Memory} {scope : Scope} {T : SymbolTable} {lazy : Bool}
  {self stub p : Addr} {n i : ℕ}

theorem read64_write64 {a : Addr} {v : BitVec 64} : read64 (write64 m a v) a = v := by
  have hlt := v.isLt
  unfold read64 write64
  rw [load_store (by decide)]
  refine BitVec.eq_of_toNat_eq ?_
  rw [BitVec.toNat_ofNat]
  omega

theorem read64_write64_of_separate {a b : Addr} {v : BitVec 64} (h : Separate a 8 b 8) :
    read64 (write64 m a v) b = read64 m b :=
  congrArg (BitVec.ofNat 64) (load_store_of_separate (by decide) h)

theorem agreeOff_of_frame (hframe : ∀ x, (∀ a ∈ o.cells m, ¬InWindow a 8 x) → m' x = m x) :
    Cells.AgreeOff 8 (o.updates m scope T lazy self) m' m := by
  refine fun x hx => hframe x fun a ha hxa => hx ?_
  rw [← map_cell_updates o m scope T lazy self] at ha
  obtain ⟨u, hu, rfl⟩ := List.mem_map.1 ha
  exact ⟨u, hu, hxa⟩

variable (h : Linkable scope n stub o T m) (hslots : o.HasSlots m)

include h hslots

/-- A function that is bound leaves the memory ready for calls. -/
theorem CanCall.bind (hcan : CanCall scope o T stub self m m') (hi : i < o.slotCount) :
    CanCall scope o T stub self m
      (write64 m' (entryOf o.got 8 (3 + i)) (o.slotFunction m scope T i)) where
  frame x hx := by
    have hcell : entryOf o.got 8 (3 + i) ∈ o.cells m := by
      rw [← hslots.place i hi]
      refine List.mem_append_left _ (List.mem_append_right _ (List.mem_map_of_mem ?_))
      exact List.mem_filter.2 ⟨List.mem_map_of_mem (List.mem_range.2 hi), hslots.jump i hi⟩
    rw [← hcan.frame x hx]
    exact store_of_not_inWindow (hx _ hcell)
  got := by
    have hcount := h.counts.2.2
    have hself : Separate (entryOf o.got 8 (3 + i)) 8 (entryOf o.got 8 1) 8 :=
      separate_entryOf _ (by omega) (by decide) (by omega)
    have hresolve : Separate (entryOf o.got 8 (3 + i)) 8 (entryOf o.got 8 2) 8 :=
      separate_entryOf _ (by omega) (by decide) (by omega)
    exact ⟨(read64_write64_of_separate hself).trans hcan.got.1,
      (read64_write64_of_separate hresolve).trans hcan.got.2⟩
  slot j hj := by
    have hcount := h.counts.2.2
    by_cases hij : i = j
    · subst hij
      exact Or.inr read64_write64
    · rw [read64_write64_of_separate (separate_entryOf _ (by omega) (by omega) (by omega))]
      exact hcan.slot j hj

/-- A call goes to the function of its slot, and the slot then holds it. -/
theorem CanCall.call (hcan : CanCall scope o T stub self m m') (hi : i < o.slotCount) :
    ∃ m'', callSlot scope.env n stub self (o.withStub p) (entryOf o.got 8 (3 + i)) m' =
        some (m'', o.slotFunction m scope T i) ∧ CanCall scope o T stub self m m'' ∧
      read64 m'' (entryOf o.got 8 (3 + i)) = o.slotFunction m scope T i ∧
      ∀ j < o.slotCount, j ≠ i → read64 m'' (entryOf o.got 8 (3 + j)) =
        read64 m' (entryOf o.got 8 (3 + j)) := by
  have hcount := h.counts.2.2
  have hgot : (o.withStub p).got = o.got := rfl
  unfold callSlot
  dsimp only
  rw [hgot]
  by_cases hstub : read64 m' (entryOf o.got 8 (3 + i)) = stub
  · have hoff : Cells.AgreeOff 8 (o.updates m scope T false self) m' m :=
      agreeOff_of_frame hcan.frame
    have hbind := h.rtldLazyBindSymbol_eq hoff hi (hslots.jump i hi)
    have hready : read64 m' (o.got + 8) = self ∧
        read64 m' (o.got + 16) = scope.env.runtimeResolve := hcan.got
    rw [if_pos hstub, if_pos hready]
    unfold rtldRuntimeResolve
    dsimp only
    rw [slot_index o.got (by omega), rtldLazyBindSymbol_withStub, hbind]
    refine ⟨_, rfl, hcan.bind h hslots hi, read64_write64, fun j hj hne => ?_⟩
    exact read64_write64_of_separate (separate_entryOf _ (by omega) (by omega) (by omega))
  · have hfunction := (hcan.slot i hi).resolve_left hstub
    rw [if_neg hstub, hfunction]
    exact ⟨m', rfl, hcan, hfunction, fun _ _ _ => rfl⟩

/-- Any calls go to the functions of their slots, and leave these in the slots. -/
theorem CanCall.callAll (hcan : CanCall scope o T stub self m m') (calls : List ℕ)
    (hcalls : ∀ i ∈ calls, i < o.slotCount) :
    ∃ m'', callAll scope.env n stub self (o.withStub p) calls m' =
        some (m'', calls.map (o.slotFunction m scope T)) ∧
      ∀ j < o.slotCount, read64 m'' (entryOf o.got 8 (3 + j)) =
        if j ∈ calls then o.slotFunction m scope T j else read64 m' (entryOf o.got 8 (3 + j)) := by
  induction calls generalizing m' with
  | nil => exact ⟨m', rfl, fun j _ => by rw [if_neg List.not_mem_nil]⟩
  | cons i calls ih =>
    obtain ⟨m₁, hcall, hcan₁, hfirst, hothers⟩ :=
      hcan.call (p := p) h hslots (hcalls i List.mem_cons_self)
    obtain ⟨m₂, hrest, hslot⟩ := ih hcan₁ fun k hk => hcalls k (List.mem_cons_of_mem i hk)
    refine ⟨m₂, ?_, fun j hj => ?_⟩
    · unfold D3Hack.callAll
      rw [show (o.withStub p).got = o.got from rfl, hcall, Option.bind_some, hrest]
      rfl
    · rw [hslot j hj]
      by_cases hcalled : j ∈ calls
      · rw [if_pos hcalled, if_pos (List.mem_cons_of_mem i hcalled)]
      · rw [if_neg hcalled]
        by_cases hij : j = i
        · rw [hij, hfirst, if_pos List.mem_cons_self]
        · rw [hothers j hj hij, if_neg fun hmem => (List.mem_cons.1 hmem).elim hij hcalled]

/-- A module that is linked is ready for calls. -/
theorem Image.canCall (himage : Image scope o T lazy self m m')
    (halike : lazy = false → o.BindsAlike m scope T stub) :
    CanCall scope o T stub self m m' where
  frame := himage.frame
  got := himage.got hslots.got_ne
  slot i hi := by
    have hmem : o.slotAt m i ∈ o.slots m := List.mem_map_of_mem (List.mem_range.2 hi)
    have hstub := h.slots _ hmem (hslots.jump i hi)
    rw [← hslots.place i hi, himage.slot _ hmem (hslots.jump i hi)]
    unfold slotWord
    cases lazy with
    | true => exact Or.inl hstub
    | false =>
      have halike := halike rfl i hi
      rw [if_neg Bool.false_ne_true]
      cases htarget : scope.resolve o T (rSym (o.slotAt m i).info) with
      | none => exact Or.inl hstub
      | some a => exact (halike a htarget).symm

/-- **Lazy binding goes where binding at once goes.** A module that is linked with its slots left
to the stub, or with its slots filled in, sends any series of calls to the functions of their
slots. -/
theorem Linkable.calls (lazy : Bool) (self : Addr)
    (halike : lazy = false → o.BindsAlike m scope T stub) :
    ∃ p m', link scope.env n lazy self o m = some (o.withStub p, m') ∧
      ∀ calls : List ℕ, (∀ i ∈ calls, i < o.slotCount) →
        ∃ m'', callAll scope.env n stub self (o.withStub p) calls m' =
            some (m'', calls.map (o.slotFunction m scope T)) ∧
          ∀ j < o.slotCount, read64 m'' (entryOf o.got 8 (3 + j)) =
            if j ∈ calls then o.slotFunction m scope T j
            else read64 m' (entryOf o.got 8 (3 + j)) := by
  obtain ⟨p, m', hlink, himage⟩ := h.link_image lazy self
  exact ⟨p, m', hlink, fun calls hcalls =>
    (himage.canCall h hslots halike).callAll h hslots calls hcalls⟩

omit h hslots in
/-- With addends, the two differ at most for weak symbols without a definition. -/
theorem bindsAlike_of_isRela (hrela : o.isRela = true)
    (hweak : ∀ i < o.slotCount, scope.resolve o T (rSym (o.slotAt m i).info) = some 0 →
      (o.slotAt m i).combine 0 0 = 0) : o.BindsAlike m scope T stub := by
  intro i hi a ha
  have hcombine : ∀ old, (o.slotAt m i).combine a old = (o.slotAt m i).combine a 0 := fun old => by
    unfold slotAt
    rw [hrela]
    rfl
  refine Or.inl ?_
  unfold slotFunction bindWord
  rw [hcombine, ha, hrela, if_pos rfl, Option.elim_some]
  split
  · next hzero =>
    rw [hzero] at ha ⊢
    exact hweak i hi ha
  · rfl

end

/-! ### Calls of functions of another module -/

theorem lt_slotCount_sample {i : ℕ} (hi : i < sampleUser.slotCount) : i = 0 ∨ i = 1 := by
  have hcount : sampleUser.slotCount = 2 := by decide +kernel
  omega

theorem sample_slots : sampleUser.HasSlots sampleMemory where
  got_ne := by decide
  jump i hi := by
    rcases lt_slotCount_sample hi with rfl | rfl
    · decide +kernel
    · decide +kernel
  place i hi := by
    rcases lt_slotCount_sample hi with rfl | rfl
    · decide +kernel
    · decide +kernel

theorem sample_bindsAlike :
    sampleUser.BindsAlike sampleMemory sampleScope sampleUserTable 0x10300 := by
  refine bindsAlike_of_isRela rfl fun i hi hweak => ?_
  have htargets : ∀ i, i = 0 ∨ i = 1 → sampleScope.resolve sampleUser sampleUserTable
      (rSym (sampleUser.slotAt sampleMemory i).info) ≠ some 0 := by
    rintro i (rfl | rfl)
    · decide +kernel
    · decide +kernel
  exact absurd hweak (htargets i (lt_slotCount_sample hi))

/-- A module is linked, and calls of its second function, of its first and of its second again go
where they should. -/
def CallsSample (lazy : Bool) : Prop :=
  ∃ p m', link sampleScope.env 4 lazy 0x10000 sampleUser sampleMemory =
      some (sampleUser.withStub p, m') ∧
    ∃ m'', callAll sampleScope.env 4 0x10300 0x10000 (sampleUser.withStub p) [1, 0, 1] m' =
        some (m'', [0x20600, 0x20500, 0x20600]) ∧
      read64 m'' 0x11818 = 0x20500 ∧ read64 m'' 0x11820 = 0x20600

theorem calls_sample : CallsSample false ∧ CallsSample true := by
  have hfirst : sampleUser.slotFunction sampleMemory sampleScope sampleUserTable 0 = 0x20500 := by
    decide +kernel
  have hsecond : sampleUser.slotFunction sampleMemory sampleScope sampleUserTable 1 = 0x20600 := by
    decide +kernel
  have hcount : sampleUser.slotCount = 2 := by decide +kernel
  have hlazy : ∀ lazy, CallsSample lazy := by
    intro lazy
    obtain ⟨p, m', hlink, hcalls⟩ :=
      linkable_sample.calls sample_slots lazy 0x10000 fun _ => sample_bindsAlike
    obtain ⟨m'', hrun, hslot⟩ := hcalls [1, 0, 1] (by rw [hcount]; decide)
    refine ⟨p, m', hlink, m'', ?_, ?_, ?_⟩
    · rw [hrun]
      simp only [List.map_cons, List.map_nil, hfirst, hsecond]
    · exact (hslot 0 (by omega)).trans ((if_pos (by decide)).trans hfirst)
    · exact (hslot 1 (by omega)).trans ((if_pos (by decide)).trans hsecond)
  exact ⟨hlazy false, hlazy true⟩

end D3Hack
