import D3Hack.HookTrampoline

/-!
# Installing hooks

`hookFuncImpl` writes a jump over the first words of a function, after it has moved them to a
trampoline, and `hook` gives each trampoline a slot of the pool. A program installs its hooks one
after the other (`hookAll`), and whatever comes later, the jumps and the trampolines stay
(`hookAll_code`): the hooked functions go to their replacements (`hookAll_symbol`), and the
trampolines to the words that the functions had (`hookAll_installed`).

The words are written through a second mapping of the page of the function, and this mapping is
as large as the words alone, from the start of the page on. Words that reach over the end of their
page have no such mapping (`rwPagesCover`), and `none` is a program that does not go on.
-/

namespace D3Hack

open A64 WordMemory

/-! ## One hook -/

/-- `PAGE_SIZE`. -/
def pageSize : ℕ := 0x1000

/-- Whether the writable mapping of a window covers it: it starts with the page of the window, and
its size is the size of the window in whole pages. -/
def rwPagesCover (ro : Addr) (size : ℕ) : Bool :=
  ro.toNat % pageSize + size ≤ (size + pageSize - 1) / pageSize * pageSize

/-- The offset of the jump, in words. -/
def hookOffset (symbol replace : Addr) : BitVec 64 := (replace - symbol).sshiftRight 2

/-- Whether the jump to the replacement is too far for an offset. -/
def isFarHook (symbol replace : Addr) : Bool := 0x1ffffff ≤ (hookOffset symbol replace).toInt.natAbs

/-- How many words the jump takes. -/
def hookCount (symbol replace : Addr) : ℕ :=
  if isFarHook symbol replace then (if (symbol + 8) &&& 7 ≠ 0 then 5 else 4) else 1

/-- The jump to the replacement, with a `NOP` where its literal would not be aligned. -/
def hookWords (symbol replace : Addr) : List Word :=
  if isFarHook symbol replace then
    (if hookCount symbol replace = 5 then [aarch64Nop] else []) ++ jumpWords replace
  else [0x14000000 ||| ((hookOffset symbol replace).setWidth 32 &&& 0x03ffffff)]

/-- The two mappings of a trampoline. -/
structure Slot where
  rx : Addr
  rw : Addr
  deriving DecidableEq, Repr

/-- The words under the jump, on their way to a slot. -/
def hookSite (mem : Memory) (symbol replace : Addr) (slot : Slot) : FixSite where
  rx := slot.rx
  rw := slot.rw
  basep := symbol
  count := hookCount symbol replace
  mem := mem

/-- The memory with the moved words in the slot, if there is one. -/
def moveWords (mem : Memory) (symbol replace : Addr) : Option Slot → Memory
  | none => mem
  | some slot => storeWords mem slot.rx (fixInstructions (hookSite mem symbol replace slot))

/-- `HookFuncImpl`; nothing comes back where it aborts. -/
def hookFuncImpl (mem : Memory) (symbol replace : Addr) (slot : Option Slot) : Option Memory :=
  if rwPagesCover symbol (if isFarHook symbol replace then 5 * 4 else 1 * 4) = false then none
  else if slot.isSome ∧ trampolineSize < hookCount symbol replace * 10 then none
  else some (storeWords (moveWords mem symbol replace slot) symbol (hookWords symbol replace))

/-! ## The pool -/

/-- `JitSize`. -/
def jitSize : ℕ := 0x4000

/-- `HookMax`, the trampolines that fit the pool. -/
def hookMax : ℕ := jitSize / (trampolineSize * 4)

/-- The two mappings of the pool. -/
structure Jit where
  rx : Addr
  rw : Addr

/-- A trampoline of the pool. -/
def Jit.slot (jit : Jit) (i : ℕ) : Slot where
  rx := jit.rx + BitVec.ofNat 64 (trampolineSize * 4 * i)
  rw := jit.rw + BitVec.ofNat 64 (trampolineSize * 4 * i)

/-- The next slot. One more than the pool has is let through. -/
def allocForTrampoline (jit : Jit) (index : BitVec 32) : Option Slot :=
  let i := (index + 1).toNat
  if hookMax < i then none else some (jit.slot i)

/-- The arguments of `Hook`. -/
structure HookRequest where
  symbol : Addr
  replace : Addr
  doTrampoline : Bool

/-- The memory of the program and the index of the last slot. -/
structure HookState where
  mem : Memory
  index : BitVec 32 := -1

/-- The state after a hook, and its trampoline. -/
def hook (jit : Jit) (s : HookState) (r : HookRequest) : Option (HookState × Addr) :=
  if r.symbol = 0 ∨ r.replace = 0 then none
  else if r.doTrampoline then
    match allocForTrampoline jit s.index with
    | none => none
    | some slot =>
      (hookFuncImpl s.mem r.symbol r.replace (some slot)).map fun mem =>
        ({ mem, index := s.index + 1 }, slot.rx)
  else (hookFuncImpl s.mem r.symbol r.replace none).map fun mem => ({ s with mem }, 0)

/-- A hook that was installed, with the state before it. -/
structure InstalledHook where
  request : HookRequest
  before : HookState
  result : Addr

/-- The hooks of a program, one after the other. -/
def hookAll (jit : Jit) (s : HookState) :
    List HookRequest → Option (HookState × List InstalledHook)
  | [] => some (s, [])
  | r :: rs =>
    match hook jit s r with
    | none => none
    | some (s', result) => (hookAll jit s' rs).map fun p => (p.1, ⟨r, s, result⟩ :: p.2)

/-! ## The jump to the replacement -/

section

variable {mem : Memory} {symbol replace : Addr} {slot : Slot}

theorem length_hookWords (symbol replace : Addr) :
    (hookWords symbol replace).length = hookCount symbol replace := by
  unfold hookWords hookCount
  split
  · split <;> rfl
  · rfl

theorem hookCount_le (symbol replace : Addr) : hookCount symbol replace ≤ maxInstructions := by
  unfold hookCount
  split
  · split <;> decide
  · decide

/-- Whether the writable mapping covers what a hook writes. -/
def hookMapped (symbol replace : Addr) : Bool :=
  rwPagesCover symbol (if isFarHook symbol replace then 5 * 4 else 1 * 4)

/-- Room for the words of a trampoline is there, so that moving them never fails. -/
theorem hookFuncImpl_eq (mem : Memory) (symbol replace : Addr) (slot : Option Slot) :
    hookFuncImpl mem symbol replace slot =
      if hookMapped symbol replace then
        some (storeWords (moveWords mem symbol replace slot) symbol (hookWords symbol replace))
      else none := by
  have hcount := hookCount_le symbol replace
  have hroom : ¬(slot.isSome ∧ trampolineSize < hookCount symbol replace * 10) := by
    unfold trampolineSize
    omega
  unfold hookFuncImpl
  rw [if_neg hroom]
  change (if hookMapped symbol replace = false then none else _) = _
  cases hookMapped symbol replace <;> rfl

theorem hookFuncImpl_eq_some {mem' : Memory} {slot : Option Slot}
    (h : hookFuncImpl mem symbol replace slot = some mem') :
    mem' = storeWords (moveWords mem symbol replace slot) symbol (hookWords symbol replace) := by
  rw [hookFuncImpl_eq] at h
  cases hmapped : hookMapped symbol replace with
  | false =>
    rw [hmapped] at h
    cases h
  | true =>
    rw [hmapped] at h
    exact (Option.some.inj h).symm

/-- A hooked function goes to its replacement. -/
theorem reaches_replace {C : Type} {core : Core C} {I : Memory} (hsymbol : 4 ∣ symbol.toNat)
    (hreplace : 4 ∣ replace.toNat) (h : CodeAt I symbol (hookWords symbol replace)) (c : C) :
    ∃ c', (c' = c ∨ c' = core.setReg c 17 replace) ∧
      core.Reaches I ⟨symbol, c⟩ ⟨replace, c'⟩ := by
  unfold hookWords at h
  split at h
  · obtain ⟨hpad, hjump⟩ := codeAt_append.1 h
    have hnops : (if hookCount symbol replace = 5 then [aarch64Nop] else []) =
        List.replicate (padding (hookCount symbol replace = 5)) aarch64Nop := by
      unfold padding
      split <;> rfl
    rw [hnops] at hpad hjump
    rw [List.length_replicate] at hjump
    exact ⟨_, Or.inr rfl, (Core.reaches_nops hpad c).trans (reaches_jumpWords hjump)⟩
  · next hnear =>
    refine ⟨c, Or.inl rfl, ?_⟩
    have hfits : Fits 25 ((replace - symbol).sshiftRight 2) :=
      fits_of_near fun hle => hnear (decide_eq_true hle)
    have hd : symbol + BitVec.ofInt 64 (4 *
        (((hookOffset symbol replace).setWidth 32).extractLsb' 0 26).toInt) = replace :=
      add_ofInt_field (by decide) (dvd_sub hreplace hsymbol) hfits
        (extractLsb'_setWidth _ (by decide))
    refine Core.Reaches.exec (codeAt_singleton.1 h) (decode_branchOp false _) ?_
    rw [execAt_branch, hd]
    rfl

end

/-! ## What a hook writes -/

namespace HookRequest

variable (r : HookRequest)

/-- The bytes of the function that the jump takes. -/
def Covers (x : Addr) : Prop := InWindow r.symbol (4 * hookCount r.symbol r.replace) x

/-- A function in the lower half of the addresses, at a whole word. -/
structure Placed : Prop where
  symbol_aligned : 4 ∣ r.symbol.toNat
  replace_aligned : 4 ∣ r.replace.toNat
  symbol_lt : r.symbol.toNat + 4 * maxInstructions < 2 ^ 63

end HookRequest

namespace Jit

variable (jit : Jit)

/-- The bytes of the slots that are given out, the one too many included. -/
def Covers (x : Addr) : Prop := InWindow jit.rx (trampolineSize * 4 * (hookMax + 1)) x

/-- The pool is aligned to words. -/
structure Placed : Prop where
  rx_aligned : 4 ∣ jit.rx.toNat

end Jit

section

variable {jit : Jit} {s s' : HookState} {r : HookRequest} {result : Addr}

/-- The slot that a hook with a trampoline was given. -/
def InstalledHook.slot (jit : Jit) (d : InstalledHook) : Slot :=
  jit.slot (d.before.index + 1).toNat

/-- The words under the jump of a hook, on their way to its slot. -/
def InstalledHook.site (jit : Jit) (d : InstalledHook) : FixSite :=
  hookSite d.before.mem d.request.symbol d.request.replace (d.slot jit)

theorem wellPlaced_hookSite (hr : r.Placed) {slot : Slot} (hslot : 4 ∣ slot.rx.toNat)
    (mem : Memory) : (hookSite mem r.symbol r.replace slot).WellPlaced where
  basep_aligned := hr.symbol_aligned
  rx_aligned := hslot
  count_le := hookCount_le _ _
  endp_lt := by
    have hcount := hookCount_le r.symbol r.replace
    have hlt := hr.symbol_lt
    change r.symbol.toNat + 4 * hookCount r.symbol r.replace < 2 ^ 63
    omega

theorem dvd_slot (hjit : jit.Placed) (i : ℕ) : 4 ∣ (jit.slot i).rx.toNat := by
  have hrx := hjit.rx_aligned
  change 4 ∣ (jit.rx + BitVec.ofNat 64 (trampolineSize * 4 * i)).toNat
  rw [BitVec.toNat_add, BitVec.toNat_ofNat]
  simp only [trampolineSize, maxInstructions]
  omega

/-- The words of a trampoline are within its slot. -/
theorem length_hookSite_le (hr : r.Placed) {slot : Slot} (hslot : 4 ∣ slot.rx.toNat)
    (mem : Memory) :
    4 * (fixInstructions (hookSite mem r.symbol r.replace slot)).length ≤ trampolineSize * 4 := by
  have hlen := length_fixInstructions_le (wellPlaced_hookSite hr hslot mem)
  omega

/-- What a hook does to the state. -/
theorem hook_cases (h : hook jit s r = some (s', result)) :
    (r.doTrampoline = true ∧ (s.index + 1).toNat ≤ hookMax ∧ s'.index = s.index + 1 ∧
      result = (jit.slot (s.index + 1).toNat).rx ∧
      s'.mem = storeWords (moveWords s.mem r.symbol r.replace
        (some (jit.slot (s.index + 1).toNat))) r.symbol (hookWords r.symbol r.replace)) ∨
    (r.doTrampoline = false ∧ s'.index = s.index ∧
      s'.mem = storeWords (moveWords s.mem r.symbol r.replace none) r.symbol
        (hookWords r.symbol r.replace)) := by
  unfold hook at h
  split at h
  · cases h
  · split at h
    next htramp =>
      refine Or.inl ⟨htramp, ?_⟩
      unfold allocForTrampoline at h
      by_cases hmax : hookMax < (s.index + 1).toNat
      · simp only [hmax, if_true] at h
        cases h
      · simp only [hmax, if_false] at h
        obtain ⟨mem, hmem, heq⟩ := Option.map_eq_some_iff.1 h
        obtain ⟨rfl, rfl⟩ := Prod.mk.inj heq
        exact ⟨Nat.le_of_not_lt hmax, rfl, rfl, hookFuncImpl_eq_some hmem⟩
    next htramp =>
      refine Or.inr ⟨Bool.not_eq_true _ ▸ htramp, ?_⟩
      obtain ⟨mem, hmem, heq⟩ := Option.map_eq_some_iff.1 h
      obtain ⟨rfl, rfl⟩ := Prod.mk.inj heq
      exact ⟨rfl, hookFuncImpl_eq_some hmem⟩

/-! ## Windows -/

/-- The address is in a slot. -/
def slotCovers (jit : Jit) (k : ℕ) (x : Addr) : Prop :=
  InWindow (jit.slot k).rx (trampolineSize * 4) x

theorem slotCovers_iff {k : ℕ} (hk : k ≤ hookMax) {x : Addr} :
    slotCovers jit k x ↔ 200 * k ≤ (x - jit.rx).toNat ∧ (x - jit.rx).toNat < 200 * k + 200 := by
  have hmax : hookMax = 81 := rfl
  have hsub : x - (jit.slot k).rx = (x - jit.rx) - BitVec.ofNat 64 (200 * k) := by
    change x - (jit.rx + BitVec.ofNat 64 (200 * k)) = _
    bv_omega
  change (x - (jit.slot k).rx).toNat < 200 ↔ _
  rw [hsub, BitVec.toNat_sub, BitVec.toNat_ofNat]
  have := (x - jit.rx).isLt
  omega

theorem covers_of_slotCovers {k : ℕ} (hk : k ≤ hookMax) {x : Addr} (h : slotCovers jit k x) :
    jit.Covers x := by
  have hmax : hookMax = 81 := rfl
  have hx := (slotCovers_iff hk).1 h
  change (x - jit.rx).toNat < 16400
  omega

/-- Slots do not overlap. -/
theorem not_slotCovers {k l : ℕ} (hk : k ≤ hookMax) (hl : l ≤ hookMax) (hne : k ≠ l) {x : Addr}
    (h : slotCovers jit k x) : ¬slotCovers jit l x := by
  intro h'
  have hx := (slotCovers_iff hk).1 h
  have hx' := (slotCovers_iff hl).1 h'
  omega

theorem covers_hookWords (r : HookRequest) {x : Addr} :
    InWindow r.symbol (4 * (hookWords r.symbol r.replace).length) x ↔ r.Covers x := by
  rw [length_hookWords]
  rfl

theorem length_hookWords_lt (r : HookRequest) :
    4 * (hookWords r.symbol r.replace).length < 2 ^ 64 := by
  have hcount := hookCount_le r.symbol r.replace
  rw [length_hookWords]
  unfold maxInstructions at hcount
  omega

theorem length_fixInstructions_lt (hjit : jit.Placed) (hr : r.Placed) (mem : Memory) (k : ℕ) :
    4 * (fixInstructions (hookSite mem r.symbol r.replace (jit.slot k))).length < 2 ^ 64 := by
  have hlen := length_hookSite_le hr (dvd_slot hjit k) mem
  have hslot : trampolineSize * 4 = 200 := rfl
  omega

/-- Moved words are within the slot. -/
theorem moveWords_of_not_slotCovers (hjit : jit.Placed) (hr : r.Placed) (mem : Memory) {k : ℕ}
    {x : Addr} (hx : ¬slotCovers jit k x) :
    moveWords mem r.symbol r.replace (some (jit.slot k)) x = mem x := by
  refine storeWords_of_not_inWindow (length_fixInstructions_lt hjit hr mem k) fun h => hx ?_
  exact h.mono (length_hookSite_le hr (dvd_slot hjit k) mem)

/-- A hook leaves everything alone but its function and its slot. -/
theorem hook_frame (hjit : jit.Placed) (hr : r.Placed) (h : hook jit s r = some (s', result))
    {x : Addr} (hx : ¬r.Covers x)
    (hslot : (s.index + 1).toNat ≤ hookMax → ¬slotCovers jit (s.index + 1).toNat x) :
    s'.mem x = s.mem x := by
  have hsymbol : ¬InWindow r.symbol (4 * (hookWords r.symbol r.replace).length) x :=
    fun h => hx ((covers_hookWords r).1 h)
  rcases hook_cases h with ⟨-, hmax, -, -, hmem⟩ | ⟨-, -, hmem⟩
  · rw [hmem, storeWords_of_not_inWindow (length_hookWords_lt r) hsymbol,
      moveWords_of_not_slotCovers hjit hr _ (hslot hmax)]
  · rw [hmem, storeWords_of_not_inWindow (length_hookWords_lt r) hsymbol]
    rfl

/-- The slots that later hooks are given. -/
theorem hook_index (h : hook jit s r = some (s', result)) :
    (s.index + 1).toNat ≤ (s'.index + 1).toNat ∧
      (r.doTrampoline = true → (s'.index + 1).toNat = (s.index + 1).toNat + 1) := by
  rcases hook_cases h with ⟨-, hmax, hindex, -, -⟩ | ⟨htramp, hindex, -⟩
  · have hsucc : (s.index + 1 + 1).toNat = (s.index + 1).toNat + 1 := by
      have hlt : hookMax = 81 := rfl
      rw [hlt] at hmax
      rw [BitVec.toNat_add (s.index + 1)]
      change ((s.index + 1).toNat + 1) % 2 ^ 32 = _
      omega
    rw [hindex, hsucc]
    exact ⟨Nat.le_succ _, fun _ => rfl⟩
  · rw [hindex]
    exact ⟨Nat.le_refl _, fun h => by rw [htramp] at h; cases h⟩

end

/-! ## Runs of hooks -/

section

variable {jit : Jit} {s s' t : HookState} {r : HookRequest} {reqs : List HookRequest}
  {done : List InstalledHook} {d : InstalledHook} {result : Addr}

/-- The hooked functions are apart from each other and from the pool. -/
structure HooksApart (jit : Jit) (reqs : List HookRequest) : Prop where
  jit_placed : jit.Placed
  placed : ∀ r ∈ reqs, r.Placed
  pairwise : reqs.Pairwise fun r r' => ∀ x, r.Covers x → ¬r'.Covers x
  pool : ∀ r ∈ reqs, ∀ x, jit.Covers x → ¬r.Covers x

theorem HooksApart.tail (h : HooksApart jit (r :: reqs)) : HooksApart jit reqs where
  jit_placed := h.jit_placed
  placed r' hr' := h.placed r' (List.mem_cons_of_mem r hr')
  pairwise := h.pairwise.of_cons
  pool r' hr' := h.pool r' (List.mem_cons_of_mem r hr')

theorem hookAll_cons (h : hookAll jit s (r :: reqs) = some (t, done)) :
    ∃ s' result rest, hook jit s r = some (s', result) ∧ hookAll jit s' reqs = some (t, rest) ∧
      done = ⟨r, s, result⟩ :: rest := by
  unfold hookAll at h
  cases hhook : hook jit s r with
  | none =>
    rw [hhook] at h
    cases h
  | some p =>
    rw [hhook] at h
    obtain ⟨q, hrest, heq⟩ := Option.map_eq_some_iff.1 h
    obtain ⟨rfl, rfl⟩ := Prod.mk.inj heq
    exact ⟨p.1, p.2, q.2, rfl, hrest, rfl⟩

/-- A run leaves everything alone but its functions and its slots. -/
theorem hookAll_frame (hapart : HooksApart jit reqs) (h : hookAll jit s reqs = some (t, done))
    {x : Addr} (hx : ∀ r ∈ reqs, ¬r.Covers x)
    (hslot : ∀ k, (s.index + 1).toNat ≤ k → k ≤ hookMax → ¬slotCovers jit k x) :
    t.mem x = s.mem x := by
  induction reqs generalizing s done with
  | nil =>
    cases h
    rfl
  | cons r reqs ih =>
    obtain ⟨s', result, rest, hhook, hrest, -⟩ := hookAll_cons h
    have hle := (hook_index hhook).1
    have hfirst := hook_frame hapart.jit_placed (hapart.placed r List.mem_cons_self) hhook
      (hx r List.mem_cons_self) (hslot _ (Nat.le_refl _))
    rw [← hfirst]
    exact ih hapart.tail hrest (fun r' hr' => hx r' (List.mem_cons_of_mem r hr'))
      fun k hk => hslot k (hle.trans hk)

theorem request_mem (h : hookAll jit s reqs = some (t, done)) (hd : d ∈ done) :
    d.request ∈ reqs := by
  induction reqs generalizing s done with
  | nil =>
    cases h
    cases hd
  | cons r reqs ih =>
    obtain ⟨s', result, rest, -, hrest, rfl⟩ := hookAll_cons h
    rcases List.mem_cons.1 hd with rfl | hd
    · exact List.mem_cons_self
    · exact List.mem_cons_of_mem r (ih hrest hd)

/-- Before a hook, what no other hook takes is as it was at the start. -/
theorem before_eq (hapart : HooksApart jit reqs) (h : hookAll jit s reqs = some (t, done))
    (hd : d ∈ done) {x : Addr} (hx : ∀ r ∈ reqs, r.Covers x → r = d.request)
    (hpool : ¬jit.Covers x) :
    d.before.mem x = s.mem x := by
  induction reqs generalizing s done with
  | nil =>
    cases h
    cases hd
  | cons r reqs ih =>
    obtain ⟨s', result, rest, hhook, hrest, rfl⟩ := hookAll_cons h
    rcases List.mem_cons.1 hd with rfl | hd
    · rfl
    · have hfree : ¬r.Covers x := by
        intro hcovers
        have heq := hx r List.mem_cons_self hcovers
        have hlater := (List.pairwise_cons.1 hapart.pairwise).1 d.request (request_mem hrest hd)
        rw [← heq] at hlater
        exact hlater x hcovers hcovers
      rw [ih hapart.tail hrest hd fun r' hr' => hx r' (List.mem_cons_of_mem r hr')]
      exact hook_frame hapart.jit_placed (hapart.placed r List.mem_cons_self) hhook hfree
        fun hk hslot => hpool (covers_of_slotCovers hk hslot)

/-- A hook leaves its jump, and the moved words in its slot. -/
theorem hook_code (hjit : jit.Placed) (hr : r.Placed) (hpool : ∀ x, jit.Covers x → ¬r.Covers x)
    (h : hook jit s r = some (s', result)) :
    CodeAt s'.mem r.symbol (hookWords r.symbol r.replace) ∧
      (r.doTrampoline = true → CodeAt s'.mem (jit.slot (s.index + 1).toNat).rx
        (fixInstructions (hookSite s.mem r.symbol r.replace (jit.slot (s.index + 1).toNat)))) := by
  rcases hook_cases h with ⟨-, hmax, -, -, hmem⟩ | ⟨htramp, -, hmem⟩
  · rw [hmem]
    refine ⟨codeAt_storeWords _ _ (length_hookWords_lt r), fun _ => ?_⟩
    have hlen := length_fixInstructions_lt hjit hr s.mem (s.index + 1).toNat
    refine (codeAt_storeWords s.mem _ hlen).congr hlen fun x hx => ?_
    refine storeWords_of_not_inWindow (length_hookWords_lt r) fun hcovers => ?_
    have hslot : slotCovers jit (s.index + 1).toNat x :=
      hx.mono (length_hookSite_le hr (dvd_slot hjit _) s.mem)
    exact hpool x (covers_of_slotCovers hmax hslot) ((covers_hookWords r).1 hcovers)
  · rw [hmem]
    refine ⟨codeAt_storeWords _ _ (length_hookWords_lt r), fun h => ?_⟩
    rw [htramp] at h
    cases h

/-- **Hooks stay.** After any run of hooks of functions that are apart, every function holds its
jump, and every trampoline the words that its function was moved to. -/
theorem hookAll_code (hapart : HooksApart jit reqs) (h : hookAll jit s reqs = some (t, done))
    (hd : d ∈ done) :
    CodeAt t.mem d.request.symbol (hookWords d.request.symbol d.request.replace) ∧
      (d.request.doTrampoline = true →
        CodeAt t.mem (d.site jit).rx (fixInstructions (d.site jit))) := by
  induction reqs generalizing s done with
  | nil =>
    cases h
    cases hd
  | cons r reqs ih =>
    obtain ⟨s', result, rest, hhook, hrest, rfl⟩ := hookAll_cons h
    rcases List.mem_cons.1 hd with rfl | hd
    · have hjit := hapart.jit_placed
      have hr := hapart.placed r List.mem_cons_self
      have hpool := hapart.pool r List.mem_cons_self
      have hlater := (List.pairwise_cons.1 hapart.pairwise).1
      obtain ⟨hjump, hmoved⟩ := hook_code hjit hr hpool hhook
      obtain ⟨hle, hindex⟩ := hook_index hhook
      refine ⟨hjump.congr (length_hookWords_lt r) fun x hx => ?_, fun htramp => ?_⟩
      · have hcovers := (covers_hookWords r).1 hx
        exact hookAll_frame hapart.tail hrest (fun r' hr' => hlater r' hr' x hcovers)
          fun k _ hk hslot => hpool x (covers_of_slotCovers hk hslot) hcovers
      · have hlen := length_fixInstructions_lt hjit hr s.mem (s.index + 1).toNat
        refine (hmoved htramp).congr hlen fun x hx => ?_
        have hmax : (s.index + 1).toNat ≤ hookMax := by
          rcases hook_cases hhook with ⟨-, hmax, -⟩ | ⟨hno, -⟩
          · exact hmax
          · rw [hno] at htramp
            cases htramp
        have hslot : slotCovers jit (s.index + 1).toNat x :=
          hx.mono (length_hookSite_le hr (dvd_slot hjit _) s.mem)
        have hnext := hindex htramp
        exact hookAll_frame hapart.tail hrest
          (fun r' hr' => hapart.pool r' (List.mem_cons_of_mem r hr') x
            (covers_of_slotCovers hmax hslot))
          fun k hk hkmax => not_slotCovers hmax hkmax (by omega) hslot
    · exact ih hapart.tail hrest hd

/-- After any run of hooks, a hooked function goes to its replacement. -/
theorem hookAll_symbol {C : Type} {core : Core C} (hapart : HooksApart jit reqs)
    (h : hookAll jit s reqs = some (t, done)) (hd : d ∈ done) (c : C) :
    ∃ c', (c' = c ∨ c' = core.setReg c 17 d.request.replace) ∧
      core.Reaches t.mem ⟨d.request.symbol, c⟩ ⟨d.request.replace, c'⟩ := by
  have hr := hapart.placed _ (request_mem h hd)
  exact reaches_replace hr.symbol_aligned hr.replace_aligned (hookAll_code hapart h hd).1 c

/-- A literal that a moved instruction loads from outside of its window is no code of a hook. -/
def LiteralsApart (jit : Jit) (reqs : List HookRequest) (e : FixSite) : Prop :=
  ∀ idx < e.count, ∀ k rt offset, e.insAt idx = .load k rt offset →
    e.isInFixingRange (e.pcAt idx + BitVec.ofInt 64 offset) = false →
    ∀ x, InWindow (e.pcAt idx + BitVec.ofInt 64 offset) k.size x →
      ¬jit.Covers x ∧ ∀ r ∈ reqs, ¬r.Covers x

/-- Before its hook, a function is as it was before any hook. -/
theorem before_eq_of_covers (hapart : HooksApart jit reqs)
    (h : hookAll jit s reqs = some (t, done)) (hd : d ∈ done) {x : Addr}
    (hx : d.request.Covers x) : d.before.mem x = s.mem x := by
  have hreq := request_mem h hd
  have hsymm : Std.Symm fun r r' : HookRequest => ∀ x, r.Covers x → ¬r'.Covers x :=
    ⟨fun _ _ hr x hx hx' => hr x hx' hx⟩
  refine before_eq hapart h hd (fun r hr hcovers => ?_) fun hpool => hapart.pool _ hreq x hpool hx
  by_contra hne
  exact hapart.pairwise.forall hr hreq hne x hcovers hx

/-- The words that are moved are those that the function had before any hook. -/
theorem fetch_site (hapart : HooksApart jit reqs) (h : hookAll jit s reqs = some (t, done))
    (hd : d ∈ done) {idx : ℕ} (hidx : idx < (d.site jit).count) :
    fetch (d.site jit).mem ((d.site jit).pcAt idx) = fetch s.mem ((d.site jit).pcAt idx) := by
  have hcount : (d.site jit).count ≤ maxInstructions := hookCount_le _ _
  unfold maxInstructions at hcount
  refine fetch_congr fun x hx => before_eq_of_covers hapart h hd ?_
  exact (hx.add (by omega)).mono (by change 4 + 4 * idx ≤ 4 * (d.site jit).count; omega)

/-- Before its hook and after all of them, the literals of a function are what they were. -/
theorem literal_eq (hapart : HooksApart jit reqs) (h : hookAll jit s reqs = some (t, done))
    (hd : d ∈ done) (hliterals : LiteralsApart jit reqs (d.site jit)) {idx : ℕ}
    (hidx : idx < (d.site jit).count) :
    (d.site jit).KeepsLiteral s.mem idx ∧ (d.site jit).KeepsLiteral t.mem idx := by
  have hlit := hliterals idx hidx
  unfold FixSite.KeepsLiteral FixSite.KeepsLiteralOf
  split
  next k rt offset hins =>
    refine ⟨fun hout => load_congr (by cases k <;> decide) fun x hx => ?_,
      fun hout => load_congr (by cases k <;> decide) fun x hx => ?_⟩ <;>
      obtain ⟨hpool, hfree⟩ := hlit k rt offset hins hout x hx
    · exact (before_eq hapart h hd (fun r hr hx' => absurd hx' (hfree r hr)) hpool).symm
    · have hbefore : (d.site jit).mem x = s.mem x :=
        before_eq hapart h hd (fun r hr hx' => absurd hx' (hfree r hr)) hpool
      rw [hbefore]
      exact hookAll_frame hapart h hfree fun k _ hk hslot => hpool (covers_of_slotCovers hk hslot)
  · exact ⟨trivial, trivial⟩

/-- **Trampolines stay.** After any run of hooks, a trampoline whose instructions can be moved is
installed for the words that its function had before any hook, with the literals that they load. -/
theorem hookAll_installed (hapart : HooksApart jit reqs) (h : hookAll jit s reqs = some (t, done))
    (hd : d ∈ done) (htramp : d.request.doTrampoline = true)
    (hmovable : ∀ idx < (d.site jit).count,
      (d.site jit).Movable (stateAt (d.site jit) idx).out.length idx)
    (hliterals : LiteralsApart jit reqs (d.site jit)) :
    Installed (d.site jit) t.mem ∧ ∀ idx < (d.site jit).count,
      fetch (d.site jit).mem ((d.site jit).pcAt idx) = fetch s.mem ((d.site jit).pcAt idx) ∧
        (d.site jit).KeepsLiteral s.mem idx := by
  refine ⟨?_, fun idx hidx =>
    ⟨fetch_site hapart h hd hidx, (literal_eq hapart h hd hliterals hidx).1⟩⟩
  exact {
    placed := wellPlaced_hookSite (hapart.placed _ (request_mem h hd))
      (dvd_slot hapart.jit_placed _) d.before.mem
    code := (hookAll_code hapart h hd).2 htramp
    movable := hmovable
    literals := fun idx hidx => (literal_eq hapart h hd hliterals hidx).2 }

end

/-! ### Two hooks -/

/-- A pool. -/
def sampleJit : Jit := ⟨0x40000000, 0x50000000⟩

/-- A far hook with a trampoline, and a near one without. -/
def sampleRequests : List HookRequest :=
  [⟨0x10000, 0x20000000, true⟩, ⟨0x20010, 0x20000, false⟩]

/-- The memory before any hook, with the words of `sampleSite`. -/
def sampleStart : HookState where
  mem := sampleSite.mem

theorem sample_apart : HooksApart sampleJit sampleRequests where
  jit_placed := ⟨by decide⟩
  placed r hr := by
    rcases List.mem_pair.1 hr with rfl | rfl <;> exact ⟨by decide, by decide, by decide⟩
  pairwise := by
    refine List.pairwise_pair.2 fun x h h' => ?_
    have hfar : hookCount 0x10000 0x20000000 = 4 := by decide
    have hnear : hookCount 0x20010 0x20000 = 1 := by decide
    unfold HookRequest.Covers at h h'
    rw [hfar] at h
    rw [hnear] at h'
    unfold InWindow at h h'
    bv_omega
  pool r hr x hpool := by
    have hfar : hookCount 0x10000 0x20000000 = 4 := by decide
    have hnear : hookCount 0x20010 0x20000 = 1 := by decide
    have hpool' : (x - 0x40000000).toNat < 16400 := hpool
    rcases List.mem_pair.1 hr with rfl | rfl
    · unfold HookRequest.Covers
      rw [hfar]
      unfold InWindow
      bv_omega
    · unfold HookRequest.Covers
      rw [hnear]
      unfold InWindow
      bv_omega

theorem sample_isSome : (hookAll sampleJit sampleStart sampleRequests).isSome = true := by
  decide +kernel

theorem hookAll_symbol_sample : ∃ t done,
    hookAll sampleJit sampleStart sampleRequests = some (t, done) ∧ ∀ d ∈ done, ∃ c',
      (c' = (fun _ => 0) ∨ c' = sampleCore.setReg (fun _ => 0) 17 d.request.replace) ∧
      sampleCore.Reaches t.mem ⟨d.request.symbol, fun _ => 0⟩ ⟨d.request.replace, c'⟩ := by
  obtain ⟨⟨t, done⟩, h⟩ := Option.isSome_iff_exists.1 sample_isSome
  exact ⟨t, done, h, fun d hd => hookAll_symbol sample_apart h hd _⟩

/-- Before its hook, the first function is the window of the five instructions but for the last. -/
theorem sample_site (result : Addr) :
    InstalledHook.site sampleJit ⟨⟨0x10000, 0x20000000, true⟩, sampleStart, result⟩ =
      { sampleSite with rx := 0x40000000, rw := 0x50000000, count := 4 } := by
  have hslot : sampleJit.slot (sampleStart.index + 1).toNat = ⟨0x40000000, 0x50000000⟩ := by
    decide +kernel
  have hcount : hookCount 0x10000 0x20000000 = 4 := by decide
  unfold InstalledHook.site InstalledHook.slot hookSite
  rw [hslot, hcount]
  rfl

theorem hookAll_installed_sample : ∃ t done,
    hookAll sampleJit sampleStart sampleRequests = some (t, done) ∧ ∃ d ∈ done,
      d.request.symbol = 0x10000 ∧ Installed (d.site sampleJit) t.mem ∧
        ∀ idx < (d.site sampleJit).count, fetch (d.site sampleJit).mem
            ((d.site sampleJit).pcAt idx) = fetch sampleStart.mem ((d.site sampleJit).pcAt idx) ∧
          (d.site sampleJit).KeepsLiteral sampleStart.mem idx := by
  obtain ⟨⟨t, done⟩, h⟩ := Option.isSome_iff_exists.1 sample_isSome
  obtain ⟨s', result, rest, -, -, hdone⟩ := hookAll_cons h
  have hd : ⟨⟨0x10000, 0x20000000, true⟩, sampleStart, result⟩ ∈ done := by
    rw [hdone]
    exact List.mem_cons_self
  have hmovable : ∀ idx < 4, FixSite.Movable
      { sampleSite with rx := 0x40000000, rw := 0x50000000, count := 4 }
      (stateAt { sampleSite with rx := 0x40000000, rw := 0x50000000, count := 4 } idx).out.length
      idx := by
    decide +kernel
  have hplain : ∀ idx < 4, FixSite.insAt
      { sampleSite with rx := 0x40000000, rw := 0x50000000, count := 4 } idx ∈
        [.branchIf (.zero true false 0) 8, .branch true 0x40000, .branch false 0x40000,
          .other 0x910043ff] := by
    decide +kernel
  refine ⟨t, done, h, _, hd, rfl, hookAll_installed sample_apart h hd rfl ?_ ?_⟩
  · rw [sample_site]
    exact hmovable
  · rw [sample_site]
    intro idx hidx k rt offset hins
    have hmem := hplain idx hidx
    rw [hins] at hmem
    simp at hmem

end D3Hack
