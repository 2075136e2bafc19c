import D3Hack.ItemMap
import D3Hack.Rtld
import D3Hack.SysvHash

/-!
# Looking symbols up

A `SymbolTable` lists the chains of a module's hash section, with the symbols and their names, and
`Represents` says that the memory holds it. `getSymbolByName` then walks one chain of the table
(`getSymbolByName_eq`), in memory that differs anywhere else (`Represents.congr`).

The buckets of a table are chosen by the hash of the format, in 32 bits, and the lookup computes it
in 64 bits, so that for a few names it looks into another bucket (`getSymbolByName_iff`).
-/

namespace D3Hack

open WordMemory

/-! ## Names in memory -/

/-- The memory holds a name, and the zero behind it. -/
def IsCStr (m : Memory) : Addr → List UInt8 → Prop
  | a, [] => m a = 0
  | a, c :: s => m a = c ∧ c ≠ 0 ∧ IsCStr m (a + 1) s

instance (m : Memory) : ∀ (a : Addr) (s : List UInt8), Decidable (IsCStr m a s)
  | a, [] => inferInstanceAs (Decidable (m a = 0))
  | a, c :: s =>
    have := instDecidableIsCStr m (a + 1) s
    inferInstanceAs (Decidable (m a = c ∧ c ≠ 0 ∧ IsCStr m (a + 1) s))

section

variable {m m' : Memory} {a : Addr} {s : List UInt8} {n : ℕ}

theorem readCStr_eq (h : IsCStr m a s) (hn : s.length < n) : readCStr m n a = some s := by
  induction s generalizing a n with
  | nil =>
    cases n with
    | zero => cases hn
    | succ n => exact if_pos h
  | cons c s ih =>
    cases n with
    | zero => cases hn
    | succ n =>
      obtain ⟨hc, hne, hrest⟩ := h
      unfold readCStr
      rw [if_neg (hc ▸ hne), ih hrest (Nat.lt_of_succ_lt_succ hn), hc]
      rfl

/-- Names are compared as lists. -/
theorem strcmpEq_eq (h : IsCStr m a s) {name : List UInt8} (hname : ∀ c ∈ name, c ≠ 0) :
    strcmpEq m name a = (s == name) := by
  induction name generalizing a s with
  | nil =>
    cases s with
    | nil => exact beq_iff_eq.2 h
    | cons c s =>
      obtain ⟨hc, hne, -⟩ := h
      exact beq_false_of_ne (hc ▸ hne)
  | cons d name ih =>
    have hd := hname d List.mem_cons_self
    unfold strcmpEq
    cases s with
    | nil =>
      have hzero : m a = 0 := h
      rw [hzero, beq_false_of_ne hd.symm]
      rfl
    | cons c s =>
      obtain ⟨rfl, -, hrest⟩ := h
      rw [ih hrest fun c hc => hname c (List.mem_cons_of_mem d hc)]
      rfl

theorem IsCStr.ne_zero (h : IsCStr m a s) : ∀ c ∈ s, c ≠ 0 := by
  induction s generalizing a with
  | nil => exact fun _ hc => absurd hc List.not_mem_nil
  | cons d s ih =>
    intro c hc
    rcases List.mem_cons.1 hc with rfl | hc
    · exact h.2.1
    · exact ih h.2.2 c hc

theorem IsCStr.get (h : IsCStr m a s) : (∀ i < s.length, m (a + BitVec.ofNat 64 i) ≠ 0) ∧
    m (a + BitVec.ofNat 64 s.length) = 0 := by
  induction s generalizing a with
  | nil =>
    exact ⟨fun i hi => absurd hi (Nat.not_lt_zero i), (congrArg m (BitVec.add_zero a)).trans h⟩
  | cons c s ih =>
    obtain ⟨rfl, hne, hrest⟩ := h
    obtain ⟨hget, hend⟩ := ih hrest
    have hsucc : ∀ i, a + BitVec.ofNat 64 (i + 1) = a + 1 + BitVec.ofNat 64 i := fun i => by
      rw [Nat.add_comm, BitVec.ofNat_add, ← BitVec.add_assoc]
      rfl
    refine ⟨fun i hi => ?_, ?_⟩
    · cases i with
      | zero => simpa using hne
      | succ i =>
        rw [hsucc]
        exact hget i (Nat.lt_of_succ_lt_succ hi)
    · rw [List.length_cons, hsucc]
      exact hend

/-- A name does not go around the addresses. -/
theorem IsCStr.length_lt (h : IsCStr m a s) : s.length < 2 ^ 64 := by
  obtain ⟨hget, hend⟩ := h.get
  by_contra hlong
  have hsame : BitVec.ofNat 64 (s.length - 2 ^ 64) = BitVec.ofNat 64 s.length := by
    refine BitVec.eq_of_toNat_eq ?_
    rw [BitVec.toNat_ofNat, BitVec.toNat_ofNat]
    omega
  refine hget (s.length - 2 ^ 64) (by omega) ?_
  rw [hsame]
  exact hend

theorem IsCStr.congr (h : IsCStr m a s) (hm : ∀ x, InWindow a (s.length + 1) x → m x = m' x) :
    IsCStr m' a s := by
  have hlen := h.length_lt
  induction s generalizing a with
  | nil => exact (hm a (inWindow_self Nat.one_pos)).symm.trans h
  | cons c s ih =>
    obtain ⟨hc, hne, hrest⟩ := h
    refine ⟨(hm a (inWindow_self (Nat.succ_pos _))).symm.trans hc, hne, ?_⟩
    exact ih hrest (fun x hx => hm x (inWindow_succ hx hlen)) (Nat.lt_of_succ_lt hlen)

end

/-- The hash of the loader is that of the format, in 64 bits. -/
theorem rtldElfHash_eq (name : List UInt8) : rtldElfHash name = SysvHash.hash 64 name := by
  have hfold : ∀ x : BitVec 64, ((if x &&& 0xf0000000 ≠ 0 then x ^^^ ((x &&& 0xf0000000) >>> 24)
      else x) &&& ~~~(x &&& 0xf0000000)) = SysvHash.fold x := by
    intro x
    change _ = (x ^^^ ((x &&& 0xf0000000) >>> 24)) &&& ~~~(x &&& 0xf0000000)
    split
    · rfl
    · next h =>
      rw [not_not.1 h]
      simp
  exact congrArg (fun f => name.foldl f 0) (funext₂ fun _ _ => hfold _)

/-! ## Symbol tables -/

/-- The chains of the buckets, as indices of symbols, and the symbols with their names. -/
structure SymbolTable where
  chains : List (List (BitVec 32))
  sym : BitVec 32 → ElfSym
  name : BitVec 32 → List UInt8

namespace SymbolTable

variable (T : SymbolTable)

/-- The symbol is defined in the module under a name. -/
def defines (name : List UInt8) (i : BitVec 32) : Bool :=
  ModuleObject.isCommon (T.sym i) = false && T.name i == name

/-- The first symbol of the table that is defined under a name. -/
def find (name : List UInt8) : Option (BitVec 32) := T.chains.flatten.find? (T.defines name)

/-- The symbol that is looked up in the bucket of the hash in 64 bits. -/
def lookup (name : List UInt8) : Option (BitVec 32) :=
  (T.chains.getD ((SysvHash.hash 64 name).toNat % T.chains.length) []).find? (T.defines name)

/-- A symbol is on the chain of its bucket. -/
structure WellFormed : Prop where
  pos : 0 < T.chains.length
  bucketed : ∀ b chain, T.chains[b]? = some chain → ∀ i ∈ chain,
    (SysvHash.hash 32 (T.name i)).toNat % T.chains.length = b

/-- The hash in 64 bits chooses the same bucket. -/
def HashAgrees (name : List UInt8) : Prop :=
  (SysvHash.hash 64 name).toNat % T.chains.length = (SysvHash.hash 32 name).toNat % T.chains.length

variable {T} {name : List UInt8}

theorem name_of_defines {i : BitVec 32} (h : T.defines name i = true) : T.name i = name :=
  beq_iff_eq.1 (Bool.and_eq_true_iff.1 h).2

/-- The other buckets do not define the name. -/
theorem WellFormed.not_defines (hT : T.WellFormed) {b : ℕ} {chain : List (BitVec 32)}
    (hb : b ≠ (SysvHash.hash 32 name).toNat % T.chains.length)
    (hchain : T.chains[b]? = some chain) : ∀ i ∈ chain, T.defines name i = false := by
  intro i hi
  by_contra h
  have hname := name_of_defines (Bool.eq_true_of_not_eq_false h)
  have hbucket := hT.bucketed b chain hchain i hi
  rw [hname] at hbucket
  exact hb hbucket.symm

theorem WellFormed.find_eq (hT : T.WellFormed) :
    T.find name = (T.chains.getD ((SysvHash.hash 32 name).toNat % T.chains.length) []).find?
      (T.defines name) :=
  find?_flatten_of_only fun _ _ hb hchain => hT.not_defines hb hchain

/-- The lookup in 64 bits finds the symbol, unless there is one and it looks into another bucket. -/
theorem WellFormed.lookup_eq_find_iff (hT : T.WellFormed) :
    T.lookup name = T.find name ↔ T.HashAgrees name ∨ T.find name = none := by
  by_cases hagrees : T.HashAgrees name
  · refine iff_of_true ?_ (Or.inl hagrees)
    rw [hT.find_eq, lookup, hagrees]
  · have hlt : (SysvHash.hash 64 name).toNat % T.chains.length < T.chains.length :=
      Nat.mod_lt _ hT.pos
    have hmiss : T.lookup name = none := by
      unfold lookup
      rw [List.getD_eq_getElem?_getD, List.getElem?_eq_getElem hlt, Option.getD_some,
        List.find?_eq_none]
      intro i hi
      rw [hT.not_defines hagrees (List.getElem?_eq_getElem hlt) i hi]
      exact Bool.false_ne_true
    rw [hmiss, or_iff_right hagrees, eq_comm]

/-- Names without a carry, and tables of 2, 4, 8, .. buckets. -/
theorem hashAgrees_of_carried (h : SysvHash.carried name = 0) : T.HashAgrees name := by
  unfold HashAgrees
  rw [SysvHash.toNat_hash, h, Nat.mul_zero, Nat.add_zero]

theorem hashAgrees_of_dvd (h : T.chains.length ∣ 2 ^ 32) : T.HashAgrees name :=
  SysvHash.hash_mod h name

end SymbolTable

/-! ## Symbol tables in memory -/

namespace ModuleObject

variable (o : ModuleObject) (m : Memory)

/-- The memory holds a chain from an index on. -/
def OnChain : BitVec 32 → List (BitVec 32) → Prop
  | i, [] => i = 0
  | i, j :: chain => i = j ∧ j ≠ 0 ∧ OnChain (read32 m (entryOf o.hashChain 4 j.toNat)) chain

instance : ∀ (i : BitVec 32) (chain : List (BitVec 32)), Decidable (o.OnChain m i chain)
  | i, [] => inferInstanceAs (Decidable (i = 0))
  | i, j :: chain =>
    have := instDecidableOnChain (read32 m (entryOf o.hashChain 4 j.toNat)) chain
    inferInstanceAs (Decidable (i = j ∧ j ≠ 0 ∧ OnChain _ _ _ chain))

/-- The address of the name of a symbol. -/
def nameAt (s : ElfSym) : Addr := o.dynstr + s.name.setWidth 64

/-- The memory holds the symbol and its name. -/
structure HoldsSym (T : SymbolTable) (i : BitVec 32) : Prop where
  sym : readSym m (o.symAt i) = T.sym i
  name : IsCStr m (o.nameAt (T.sym i)) (T.name i)

/-- The memory holds the table. -/
structure Represents (T : SymbolTable) : Prop where
  nbucket : o.hashNbucketValue.toNat = T.chains.length
  chain : ∀ b chain, T.chains[b]? = some chain →
    o.OnChain m (read32 m (entryOf o.hashBucket 4 b)) chain
  holds : ∀ i ∈ T.chains.flatten, o.HoldsSym m T i

/-- The windows of memory that hold a symbol and its name. -/
def symWindows (T : SymbolTable) (i : BitVec 32) : List (Addr × ℕ) :=
  [(o.symAt i, sizeofSym), (o.nameAt (T.sym i), (T.name i).length + 1)]

/-- The windows of memory that hold the table. -/
def tableWindows (T : SymbolTable) : List (Addr × ℕ) :=
  (List.range T.chains.length).map (fun b => (entryOf o.hashBucket 4 b, 4)) ++
    T.chains.flatten.flatMap fun i => (entryOf o.hashChain 4 i.toNat, 4) :: o.symWindows T i

end ModuleObject

/-- Two memories agree on some windows. -/
def AgreeOn (ws : List (Addr × ℕ)) (m m' : Memory) : Prop :=
  ∀ w ∈ ws, ∀ x, InWindow w.1 w.2 x → m x = m' x

section

variable {o : ModuleObject} {m m' : Memory} {T : SymbolTable} {ws : List (Addr × ℕ)} {a : Addr}

theorem AgreeOn.mono {ws' : List (Addr × ℕ)} (h : AgreeOn ws' m m') (hsub : ∀ w ∈ ws, w ∈ ws') :
    AgreeOn ws m m' := fun w hw => h w (hsub w hw)

theorem AgreeOn.load {n : ℕ} (h : AgreeOn ws m m') (hw : (a, n) ∈ ws) (hn : n ≤ 2 ^ 64) :
    load m a n = load m' a n := load_congr hn (h _ hw)

/-- A part of a window. -/
theorem load_part {n k size : ℕ} (h : ∀ x, InWindow a size x → m x = m' x) (hk : k + n ≤ size)
    (hsize : size < 2 ^ 64) :
    load m (a + BitVec.ofNat 64 k) n = load m' (a + BitVec.ofNat 64 k) n :=
  load_congr (by omega) fun x hx => h x ((InWindow.add hx (by omega)).mono (by omega))

theorem byte_part {k size : ℕ} (h : ∀ x, InWindow a size x → m x = m' x) (hk : k < size)
    (hsize : size < 2 ^ 64) : m (a + BitVec.ofNat 64 k) = m' (a + BitVec.ofNat 64 k) :=
  h _ ((InWindow.add (inWindow_self Nat.one_pos) (by omega)).mono (by omega))

theorem readSym_congr (h : ∀ x, InWindow a sizeofSym x → m x = m' x) :
    readSym m a = readSym m' a := by
  have hsize : sizeofSym < 2 ^ 64 := by decide
  have hname : load m a 4 = load m' a 4 :=
    load_congr (by decide) fun x hx => h x (hx.mono (by decide))
  have hinfo : m (a + 4) = m' (a + 4) := byte_part h (by decide) hsize
  have hother : m (a + 5) = m' (a + 5) := byte_part h (by decide) hsize
  have hshndx : load m (a + 6) 2 = load m' (a + 6) 2 := load_part h (by decide) hsize
  have hvalue : load m (a + 8) 8 = load m' (a + 8) 8 := load_part h (by decide) hsize
  unfold readSym read32 read16 read64
  rw [hname, hinfo, hother, hshndx, hvalue]

/-! ### Memory that differs elsewhere -/

theorem ModuleObject.HoldsSym.congr {i : BitVec 32} (h : o.HoldsSym m T i)
    (hm : AgreeOn (o.symWindows T i) m m') : o.HoldsSym m' T i where
  sym := by
    rw [← h.sym]
    exact (readSym_congr (hm (o.symAt i, sizeofSym) List.mem_cons_self)).symm
  name := h.name.congr (hm (o.nameAt (T.sym i), (T.name i).length + 1)
    (List.mem_cons_of_mem _ List.mem_cons_self))

theorem ModuleObject.OnChain.congr {chain : List (BitVec 32)} {i : BitVec 32}
    (h : o.OnChain m i chain)
    (hm : ∀ j ∈ chain, load m (entryOf o.hashChain 4 j.toNat) 4 =
      load m' (entryOf o.hashChain 4 j.toNat) 4) : o.OnChain m' i chain := by
  induction chain generalizing i with
  | nil => exact h
  | cons j chain ih =>
    obtain ⟨hi, hj, hrest⟩ := h
    have hnext : read32 m (entryOf o.hashChain 4 j.toNat) =
        read32 m' (entryOf o.hashChain 4 j.toNat) :=
      congrArg (BitVec.ofNat 32) (hm j List.mem_cons_self)
    exact ⟨hi, hj, ih (hnext ▸ hrest) fun k hk => hm k (List.mem_cons_of_mem j hk)⟩

/-- A table stays in memory that differs outside of its windows. -/
theorem ModuleObject.Represents.congr (h : o.Represents m T)
    (hm : AgreeOn (o.tableWindows T) m m') : o.Represents m' T where
  nbucket := h.nbucket
  chain b chain hb := by
    have hlt : b < T.chains.length := (List.getElem?_eq_some_iff.1 hb).1
    have hbucket : read32 m (entryOf o.hashBucket 4 b) = read32 m' (entryOf o.hashBucket 4 b) := by
      refine congrArg (BitVec.ofNat 32) (hm.load (List.mem_append_left _ ?_) (by decide))
      exact List.mem_map.2 ⟨b, List.mem_range.2 hlt, rfl⟩
    rw [← hbucket]
    refine (h.chain b chain hb).congr fun j hj => hm.load (List.mem_append_right _ ?_) (by decide)
    have hj' : j ∈ T.chains.flatten := List.mem_flatten.2 ⟨chain, List.mem_of_getElem? hb, hj⟩
    exact List.mem_flatMap.2 ⟨j, hj', List.mem_cons_self⟩
  holds i hi := (h.holds i hi).congr <| hm.mono fun w hw => List.mem_append_right _
    (List.mem_flatMap.2 ⟨i, hi, List.mem_cons_of_mem _ hw⟩)

end

/-! ## The lookup -/

section

variable {o : ModuleObject} {m : Memory} {T : SymbolTable} {n : ℕ} {name : List UInt8}

theorem walkSyms_eq {chain : List (BitVec 32)} {i : BitVec 32} (h : o.OnChain m i chain)
    (hn : chain.length ≤ n) (hsym : ∀ j ∈ chain, o.HoldsSym m T j) (hname : ∀ c ∈ name, c ≠ 0) :
    o.walkSyms m name n i = some ((chain.find? (T.defines name)).map o.symAt) := by
  induction chain generalizing i n with
  | nil =>
    have hi : i = 0 := h
    cases n with
    | zero => exact if_pos hi
    | succ n => exact if_pos hi
  | cons j chain ih =>
    obtain ⟨rfl, hi, hrest⟩ := h
    cases n with
    | zero => cases hn
    | succ n =>
      have hheld := hsym i List.mem_cons_self
      have hstep := ih hrest (Nat.le_of_succ_le_succ hn) fun k hk =>
        hsym k (List.mem_cons_of_mem i hk)
      have hdefines : (ModuleObject.isCommon (readSym m (o.symAt i)) = false && strcmpEq m name
          (o.dynstr + (readSym m (o.symAt i)).name.setWidth 64)) = T.defines name i := by
        have hcmp := strcmpEq_eq hheld.name hname
        unfold ModuleObject.nameAt at hcmp
        rw [hheld.sym, hcmp]
        rfl
      unfold ModuleObject.walkSyms
      rw [if_neg hi]
      dsimp only
      rw [hdefines, hstep, List.find?_cons]
      cases T.defines name i <;> rfl

/-- No chain is longer. -/
def SymbolTable.Within (T : SymbolTable) (n : ℕ) : Prop :=
  0 < T.chains.length ∧ ∀ chain ∈ T.chains, chain.length ≤ n

theorem getSymbolByName_eq (h : o.Represents m T) (hn : T.Within n) (hname : ∀ c ∈ name, c ≠ 0) :
    ModuleObject.getSymbolByName n m o name = some ((T.lookup name).map o.symAt) := by
  have hbucket : (rtldElfHash name % o.hashNbucketValue).toNat =
      (SysvHash.hash 64 name).toNat % T.chains.length := by
    rw [rtldElfHash_eq, BitVec.toNat_umod, h.nbucket]
  have hlt : (SysvHash.hash 64 name).toNat % T.chains.length < T.chains.length :=
    Nat.mod_lt _ hn.1
  have hchain := List.getElem?_eq_getElem hlt
  have hmem := List.getElem_mem hlt
  unfold ModuleObject.getSymbolByName SymbolTable.lookup
  dsimp only
  rw [hbucket, List.getD_eq_getElem?_getD, hchain, Option.getD_some]
  refine walkSyms_eq (h.chain _ _ hchain) (hn.2 _ hmem) (fun j hj => ?_) hname
  exact h.holds j (List.mem_flatten.2 ⟨_, hmem, hj⟩)

theorem symAt_injective (o : ModuleObject) : Function.Injective o.symAt := by
  intro i j h
  have hlt : ∀ k : BitVec 32, 24 * k.toNat < 2 ^ 64 := fun k => by
    have hk := k.isLt
    omega
  unfold ModuleObject.symAt entryOf sizeofSym at h
  have heq := congrArg BitVec.toNat ((BitVec.add_right_inj o.dynsym).1 h)
  rw [BitVec.toNat_ofNat, BitVec.toNat_ofNat, Nat.mod_eq_of_lt (hlt i), Nat.mod_eq_of_lt (hlt j)]
    at heq
  exact BitVec.eq_of_toNat_eq (Nat.eq_of_mul_eq_mul_left (by decide) heq)

/-- **The lookup finds the symbol that a module defines under a name**, and finds none where there
is none, if and only if its hash in 64 bits chooses the bucket of the name, or the module does not
define it. -/
theorem getSymbolByName_iff (h : o.Represents m T) (hT : T.WellFormed) (hn : T.Within n)
    (hname : ∀ c ∈ name, c ≠ 0) :
    ModuleObject.getSymbolByName n m o name = some ((T.find name).map o.symAt) ↔
      T.HashAgrees name ∨ T.find name = none := by
  rw [getSymbolByName_eq h hn hname, ← hT.lookup_eq_find_iff, Option.some.injEq]
  exact (Option.map_injective (symAt_injective o)).eq_iff

end

/-! ### Two modules -/

/-- A module with the symbols `f` and `g`, which it does not define, and one that defines them. The
first has a relocation of each kind, behind its tables. -/
def sampleMemory : Memory :=
  [(0x10100, 0x1000), (0x10108, 0x403), (0x10110, 0x40),
    (0x10118, 0x1008), (0x10120, 0x100000401), (0x10128, 8),
    (0x10180, 0x1818), (0x10188, 0x100000402), (0x10198, 0x1820), (0x101a0, 0x200000402),
    (0x10218, 0x1200000001), (0x10230, 0x1200000003), (0x10280, 0x67006600), (0x102c0, 1),
    (0x102c8, 2), (0x11818, 0x300), (0x11820, 0x300),
    (0x20218, 0x5001200000001), (0x20220, 0x500), (0x20230, 0x5001200000003), (0x20238, 0x600),
    (0x20280, 0x67006600), (0x202c0, 1), (0x202c8, 2)].foldl
      (fun m w => write64 m w.1 w.2) fun _ => 0

/-- A module that refers to `f` and `g`, with a relocation of each kind. -/
def sampleUser : ModuleObject where
  moduleBase := 0x10000
  isRela := true
  relaOrRelPlt := 0x10180
  relaOrRel := 0x10100
  relaOrRelPltSize := 48
  hashBucket := 0x102c0
  hashChain := 0x102c4
  dynstr := 0x10280
  dynsym := 0x10200
  got := 0x11800
  relaDynSize := 48
  relaCount := 1
  hashNchainValue := 3
  hashNbucketValue := 1

/-- A module that defines them. -/
def sampleProvider : ModuleObject where
  moduleBase := 0x20000
  hashBucket := 0x202c0
  hashChain := 0x202c4
  dynstr := 0x20280
  dynsym := 0x20200
  hashNchainValue := 3
  hashNbucketValue := 1

/-- The symbols of the user, without values. -/
def sampleUserTable : SymbolTable where
  chains := [[1, 2]]
  sym i := if i = 1 then ⟨1, 0x12, 0, 0, 0⟩ else ⟨3, 0x12, 0, 0, 0⟩
  name i := if i = 1 then [0x66] else [0x67]

/-- The symbols of the provider. -/
def sampleProviderTable : SymbolTable where
  chains := [[1, 2]]
  sym i := if i = 1 then ⟨1, 0x12, 0, 5, 0x500⟩ else ⟨3, 0x12, 0, 5, 0x600⟩
  name i := if i = 1 then [0x66] else [0x67]

/-- One bucket with two symbols. -/
theorem ModuleObject.represents_pair {o : ModuleObject} {m : Memory} {T : SymbolTable}
    (hnbucket : o.hashNbucketValue.toNat = 1) (hchains : T.chains = [[1, 2]])
    (hchain : o.OnChain m (read32 m (entryOf o.hashBucket 4 0)) [1, 2])
    (hfirst : o.HoldsSym m T 1) (hsecond : o.HoldsSym m T 2) : o.Represents m T where
  nbucket := by rw [hnbucket, hchains]; rfl
  chain b chain hb := by
    rw [hchains] at hb
    obtain ⟨hlt, rfl⟩ := List.getElem?_eq_some_iff.1 hb
    obtain rfl : b = 0 := Nat.lt_one_iff.1 hlt
    exact hchain
  holds i hi := by
    rw [hchains] at hi
    rcases List.mem_pair.1 hi with rfl | rfl
    · exact hfirst
    · exact hsecond

theorem sampleUser_represents : sampleUser.Represents sampleMemory sampleUserTable :=
  ModuleObject.represents_pair rfl rfl (by decide +kernel)
    ⟨by decide +kernel, by decide +kernel⟩ ⟨by decide +kernel, by decide +kernel⟩

theorem sampleProvider_represents :
    sampleProvider.Represents sampleMemory sampleProviderTable :=
  ModuleObject.represents_pair rfl rfl (by decide +kernel)
    ⟨by decide +kernel, by decide +kernel⟩ ⟨by decide +kernel, by decide +kernel⟩

/-! ### A module with three buckets

The hash of `hyl9l5Oa` is 81 in 32 bits and 81 more than 2 ^ 32 in 64 bits: the name is on the
first chain, and the lookup walks the second one. -/

/-- The names of the module, and one that it does not define. -/
def nameHyl9l5Oa : List UInt8 := [0x68, 0x79, 0x6c, 0x39, 0x6c, 0x35, 0x4f, 0x61]

/-- `f`, on the second chain. -/
def nameF : List UInt8 := [0x66]

/-- `g`, alone on its chain. -/
def nameG : List UInt8 := [0x67]

/-- `h`, which no symbol has. -/
def nameH : List UInt8 := [0x68]

/-- The symbols, their names, the buckets and the chains. -/
def bucketsMemory : Memory :=
  [(0x30218, 0x5001200000001), (0x30220, 0x500),
    (0x30230, 0x500120000000a), (0x30238, 0x600),
    (0x30248, 0x500120000000c), (0x30250, 0x700),
    (0x30280, 0x4f356c396c796800), (0x30288, 0x6700660061),
    (0x302c0, 0x300000001), (0x302d0, 2)].foldl (fun m w => write64 m w.1 w.2) fun _ => 0

/-- The module in the memory. -/
def bucketsModule : ModuleObject where
  moduleBase := 0x30000
  hashBucket := 0x302c0
  hashChain := 0x302cc
  dynstr := 0x30280
  dynsym := 0x30200
  hashNchainValue := 4
  hashNbucketValue := 3

/-- Its chains and symbols. -/
def bucketsTable : SymbolTable where
  chains := [[1, 2], [3], []]
  sym i :=
    if i = 1 then ⟨1, 0x12, 0, 5, 0x500⟩
    else if i = 2 then ⟨10, 0x12, 0, 5, 0x600⟩
    else ⟨12, 0x12, 0, 5, 0x700⟩
  name i := if i = 1 then nameHyl9l5Oa else if i = 2 then nameF else nameG

theorem bucketsModule_represents : bucketsModule.Represents bucketsMemory bucketsTable where
  nbucket := rfl
  chain b chain hb := by
    have hchains : ∀ b : Fin 3, bucketsModule.OnChain bucketsMemory
        (read32 bucketsMemory (entryOf bucketsModule.hashBucket 4 b)) bucketsTable.chains[b] := by
      decide +kernel
    obtain ⟨hlt, rfl⟩ := List.getElem?_eq_some_iff.1 hb
    exact hchains ⟨b, hlt⟩
  holds := by
    have hsym : ∀ i, readSym bucketsMemory (bucketsModule.symAt i) = bucketsTable.sym i →
        IsCStr bucketsMemory (bucketsModule.nameAt (bucketsTable.sym i)) (bucketsTable.name i) →
        bucketsModule.HoldsSym bucketsMemory bucketsTable i := fun _ hsym hname => ⟨hsym, hname⟩
    refine List.forall_mem_cons.2 ⟨hsym 1 (by decide +kernel) (by decide +kernel), ?_⟩
    refine List.forall_mem_cons.2 ⟨hsym 2 (by decide +kernel) (by decide +kernel), ?_⟩
    exact List.forall_mem_singleton.2 (hsym 3 (by decide +kernel) (by decide +kernel))

theorem bucketsTable_wellFormed : bucketsTable.WellFormed where
  pos := by decide
  bucketed b chain hb := by
    have hbuckets : ∀ b : Fin 3, ((bucketsTable.chains[b]).all fun i =>
        (SysvHash.hash 32 (bucketsTable.name i)).toNat % 3 == b) = true := by decide +kernel
    obtain ⟨hlt, rfl⟩ := List.getElem?_eq_some_iff.1 hb
    exact fun i hi => beq_iff_eq.1 (List.all_eq_true.1 (hbuckets ⟨b, hlt⟩) i hi)

/-- The module defines `hyl9l5Oa`, and the lookup does not find it. It finds `f` and `g`, and there
is no `h`. -/
theorem getSymbolByName_buckets :
    (¬ (ModuleObject.getSymbolByName 2 bucketsMemory bucketsModule nameHyl9l5Oa =
          some ((bucketsTable.find nameHyl9l5Oa).map bucketsModule.symAt)) ∧
        bucketsTable.find nameHyl9l5Oa = some 1) ∧
      (ModuleObject.getSymbolByName 2 bucketsMemory bucketsModule nameF =
          some ((bucketsTable.find nameF).map bucketsModule.symAt) ∧
        bucketsTable.find nameF = some 2) ∧
      (ModuleObject.getSymbolByName 2 bucketsMemory bucketsModule nameG =
          some ((bucketsTable.find nameG).map bucketsModule.symAt) ∧
        bucketsTable.find nameG = some 3) ∧
      ModuleObject.getSymbolByName 2 bucketsMemory bucketsModule nameH =
          some ((bucketsTable.find nameH).map bucketsModule.symAt) ∧
        bucketsTable.find nameH = none := by
  have hwithin : bucketsTable.Within 2 := by unfold SymbolTable.Within; decide
  have hfinds : ∀ name : List UInt8, (name.all fun c => decide (c ≠ 0)) = true → _ :=
    fun name hname => getSymbolByName_iff bucketsModule_represents bucketsTable_wellFormed hwithin
      fun c hc => of_decide_eq_true (List.all_eq_true.1 hname c hc)
  have hhyl : ¬ (bucketsTable.HashAgrees nameHyl9l5Oa ∨ bucketsTable.find nameHyl9l5Oa = none) := by
    unfold SymbolTable.HashAgrees
    decide +kernel
  have hf : bucketsTable.HashAgrees nameF := by unfold SymbolTable.HashAgrees; decide +kernel
  have hg : bucketsTable.HashAgrees nameG := by unfold SymbolTable.HashAgrees; decide +kernel
  have hh : bucketsTable.find nameH = none := by decide +kernel
  refine ⟨⟨fun h => hhyl ((hfinds _ (by decide)).1 h), by decide +kernel⟩,
    ⟨(hfinds _ (by decide)).2 (Or.inl hf), by decide +kernel⟩,
    ⟨(hfinds _ (by decide)).2 (Or.inl hg), by decide +kernel⟩,
    (hfinds _ (by decide)).2 (Or.inr hh), hh⟩

/-! ## Resolving -/

/-- The modules of the load list with their tables, the lookup that the program may set, and the
address of the resolver. -/
structure Scope where
  modules : List (ModuleObject × SymbolTable)
  manual : Option (List UInt8 → Addr)
  runtimeResolve : Addr

namespace Scope

variable (scope : Scope)

/-- What the linker knows of the modules. -/
def env : LinkEnv where
  autoLoadList := scope.modules.map Prod.fst
  lookupGlobalManual := scope.manual
  runtimeResolve := scope.runtimeResolve

/-- The address of a name in the first module that finds a symbol with a binding for it. -/
def globalAddress (name : List UInt8) : List (ModuleObject × SymbolTable) → Addr
  | [] => 0
  | p :: ps =>
    match p.2.lookup name with
    | none => globalAddress name ps
    | some i =>
      if (p.2.sym i).bind ≠ 0 then p.1.moduleBase + (p.2.sym i).value else globalAddress name ps

/-- The address of a symbol that a module refers to. -/
def resolve (o : ModuleObject) (T : SymbolTable) (i : BitVec 32) : Option Addr :=
  if (T.sym i).visibility ≠ 0 then
    match T.lookup (T.name i) with
    | some j => some (o.moduleBase + (T.sym j).value)
    | none => if (T.sym i).bind &&& stbWeak = stbWeak then some 0 else none
  else
    let auto := globalAddress (T.name i) scope.modules
    let address := if auto = 0 then (scope.manual.map fun f => f (T.name i)).getD auto else auto
    if address ≠ 0 then some address else none

/-- The memory holds the tables of all modules, and no chain is too long. -/
def Held (m : Memory) (n : ℕ) : Prop :=
  ∀ p ∈ scope.modules, p.1.Represents m p.2 ∧ p.2.Within n

/-- The windows of memory that hold the tables of all modules. -/
def windows : List (Addr × ℕ) := scope.modules.flatMap fun p => p.1.tableWindows p.2

end Scope

section

variable {scope : Scope} {o : ModuleObject} {m m' : Memory} {T : SymbolTable} {n : ℕ}
  {name : List UInt8}

theorem Scope.Held.congr (h : scope.Held m n) (hm : AgreeOn scope.windows m m') :
    scope.Held m' n := fun p hp =>
  ⟨(h p hp).1.congr (hm.mono fun _ hw => List.mem_flatMap.2 ⟨p, hp, hw⟩), (h p hp).2⟩

/-- What is looked up is on a chain. -/
theorem mem_flatten_of_lookup {i : BitVec 32} (h : T.lookup name = some i) :
    i ∈ T.chains.flatten := by
  have hi := List.mem_of_find?_eq_some h
  rw [List.getD_eq_getElem?_getD] at hi
  cases hchain : T.chains[(SysvHash.hash 64 name).toNat % T.chains.length]? with
  | none =>
    rw [hchain] at hi
    cases hi
  | some chain =>
    rw [hchain] at hi
    exact List.mem_flatten.2 ⟨chain, List.mem_of_getElem? hchain, hi⟩

theorem readSym_of_lookup (h : o.Represents m T) {i : BitVec 32} (hi : T.lookup name = some i) :
    readSym m (o.symAt i) = T.sym i := (h.holds i (mem_flatten_of_lookup hi)).sym

theorem lookupGlobalAuto_eq {ps : List (ModuleObject × SymbolTable)}
    (h : ∀ p ∈ ps, p.1.Represents m p.2 ∧ p.2.Within n) (hname : ∀ c ∈ name, c ≠ 0) :
    lookupGlobalAuto n m name (ps.map Prod.fst) = some (Scope.globalAddress name ps) := by
  induction ps with
  | nil => rfl
  | cons p ps ih =>
    obtain ⟨hrep, hwithin⟩ := h p List.mem_cons_self
    have hrest := ih fun q hq => h q (List.mem_cons_of_mem p hq)
    rw [List.map_cons]
    unfold lookupGlobalAuto Scope.globalAddress
    rw [getSymbolByName_eq hrep hwithin hname, hrest]
    cases hi : p.2.lookup name with
    | none => rfl
    | some i =>
      dsimp only [Option.map_some]
      rw [readSym_of_lookup hrep hi]
      split <;> rfl

/-- A symbol is resolved to its address. -/
theorem tryResolveSymbol_eq (hscope : scope.Held m n) (ho : o.Represents m T) (hT : T.Within n)
    {i : BitVec 32} (hi : o.HoldsSym m T i) (hn : (T.name i).length < n) :
    ModuleObject.tryResolveSymbol scope.env n m o (o.symAt i) = some (scope.resolve o T i) := by
  have hname := hi.name.ne_zero
  have hread : readCStr m n (o.dynstr + (T.sym i).name.setWidth 64) = some (T.name i) :=
    readCStr_eq hi.name hn
  have hglobal : lookupGlobalAuto n m (T.name i) scope.env.autoLoadList =
      some (Scope.globalAddress (T.name i) scope.modules) := lookupGlobalAuto_eq hscope hname
  unfold ModuleObject.tryResolveSymbol Scope.resolve
  rw [hi.sym]
  dsimp only
  rw [hread, Option.bind_some]
  split
  · rw [getSymbolByName_eq ho hT hname]
    cases hj : T.lookup (T.name i) with
    | none => rfl
    | some j =>
      dsimp only [Option.map_some]
      rw [readSym_of_lookup ho hj]
  · rw [hglobal]
    rfl

end

end D3Hack
