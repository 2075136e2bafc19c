import D3Hack.WordMemory
import Mathlib.Data.BitVec
import Mathlib.Data.List.Pairwise
import Mathlib.Logic.Function.Iterate

/-!
# A fragment of the AArch64 instruction set

The instructions whose effect depends on where they are: branches, loads of literals and
computations of addresses. `Format` is a pattern of bits with the instruction it stands for, and
`decode` reads a word by the format that it matches; what matches none is `Instr.other`, whose
effect a `Core` provides. Since no word matches two formats, `decode_of_mem` decodes a word by any
format that it matches.

A `Core` also provides the registers. `Core.execAt` is the effect of an instruction at an address,
with the return address that it would link as an input of its own, and `Core.step` the step of a
processor that fetches its instructions from an image. `Core.Reaches` is any number of such steps.
-/

namespace A64

open WordMemory

/-- An instruction word. -/
abbrev Word := BitVec 32

/-! ## Instructions -/

/-- What a conditional branch tests. -/
inductive Test where
  | flags (cond : BitVec 4)
  | zero (is64 nonzero : Bool) (rt : BitVec 5)
  | bit (nonzero : Bool) (n : BitVec 6) (rt : BitVec 5)
  deriving DecidableEq, Repr

/-- The kinds of literals, by what is loaded of them and to where. -/
inductive Literal where
  | w
  | x
  | sw
  | s
  | d
  | q
  deriving DecidableEq, Repr

/-- The bytes of a literal. -/
def Literal.size : Literal → ℕ
  | .w => 4
  | .x => 8
  | .sw => 4
  | .s => 4
  | .d => 8
  | .q => 16

/-- Instructions, with offsets in bytes. -/
inductive Instr where
  | branch (link : Bool) (offset : ℤ)
  | branchIf (t : Test) (offset : ℤ)
  | load (k : Literal) (rt : BitVec 5) (offset : ℤ)
  | prefetch
  | adr (rd : BitVec 5) (offset : ℤ)
  | adrp (rd : BitVec 5) (offset : ℤ)
  | branchReg (rn : BitVec 5)
  | nop
  | other (w : Word)
  deriving DecidableEq, Repr

/-- The word is a `BLR`, with or without the authentication of its pointer. -/
def isCallReg (w : Word) : Bool := w &&& 0xfee00000 == 0xd6200000

/-- Whether the instruction is a call, which links to the address behind it. -/
def Instr.links : Instr → Bool
  | .branch link _ => link
  | .other w => isCallReg w
  | _ => false

/-! ## Fields -/

/-- The low five bits, the register that is written or tested. -/
def low5 (w : Word) : BitVec 5 := w.extractLsb' 0 5

/-- The offset of `B` and `BL`, in words. -/
def imm26 (w : Word) : BitVec 26 := w.extractLsb' 0 26

/-- The offset of `B.cond`, `CBZ`, `CBNZ` and of the loads of literals, in words. -/
def imm19 (w : Word) : BitVec 19 := w.extractLsb' 5 19

/-- The offset of `TBZ` and `TBNZ`, in words. -/
def imm14 (w : Word) : BitVec 14 := w.extractLsb' 5 14

/-- The immediate of an address computation, whose low bits stand apart. -/
def imm21 (w : Word) : BitVec 21 := w.extractLsb' 5 19 ++ w.extractLsb' 29 2

/-- The number of a tested bit, whose high bit stands apart. -/
def bitNumber (w : Word) : BitVec 6 := w.extractLsb' 31 1 ++ w.extractLsb' 19 5

/-! ## Formats -/

/-- The words that have a value under a mask, and the instruction that such a word stands for. -/
structure Format where
  mask : Word
  value : Word
  instr : Word → Instr

namespace Format

/-- `B`. -/
def b : Format := ⟨0xfc000000, 0x14000000, fun w => .branch false (4 * (imm26 w).toInt)⟩

/-- `BL`. -/
def bl : Format := ⟨0xfc000000, 0x94000000, fun w => .branch true (4 * (imm26 w).toInt)⟩

/-- `B.cond`; with bit 4 set it is `BC.cond`, which is another format. -/
def bCond : Format :=
  ⟨0xff000010, 0x54000000, fun w => .branchIf (.flags (w.extractLsb' 0 4)) (4 * (imm19 w).toInt)⟩

/-- `CBZ`, or `CBNZ`. -/
def cb (nonzero : Bool) (value : Word) : Format :=
  ⟨0x7f000000, value, fun w =>
    .branchIf (.zero (w.getLsbD 31) nonzero (low5 w)) (4 * (imm19 w).toInt)⟩

/-- `TBZ`, or `TBNZ`. -/
def tb (nonzero : Bool) (value : Word) : Format :=
  ⟨0x7f000000, value, fun w =>
    .branchIf (.bit nonzero (bitNumber w) (low5 w)) (4 * (imm14 w).toInt)⟩

/-- `CBZ`. -/
def cbz : Format := cb false 0x34000000

/-- `CBNZ`. -/
def cbnz : Format := cb true 0x35000000

/-- `TBZ`. -/
def tbz : Format := tb false 0x36000000

/-- `TBNZ`. -/
def tbnz : Format := tb true 0x37000000

/-- `LDR` of a literal. -/
def ldr (k : Literal) (value : Word) : Format :=
  ⟨0xff000000, value, fun w => .load k (low5 w) (4 * (imm19 w).toInt)⟩

/-- `LDR` of a word. -/
def ldrW : Format := ldr .w 0x18000000

/-- `LDR` of a doubleword. -/
def ldrX : Format := ldr .x 0x58000000

/-- `LDRSW`, which extends the sign. -/
def ldrSW : Format := ldr .sw 0x98000000

/-- `LDR` to a vector register, of four bytes. -/
def ldrS : Format := ldr .s 0x1c000000

/-- `LDR` to a vector register, of eight bytes. -/
def ldrD : Format := ldr .d 0x5c000000

/-- `LDR` to a vector register, of sixteen bytes. -/
def ldrQ : Format := ldr .q 0x9c000000

/-- `PRFM` of a literal, a hint without effect. -/
def prfm : Format := ⟨0xff000000, 0xd8000000, fun _ => .prefetch⟩

/-- `ADR`. -/
def adr : Format := ⟨0x9f000000, 0x10000000, fun w => .adr (low5 w) (imm21 w).toInt⟩

/-- `ADRP`, which counts in pages. -/
def adrp : Format := ⟨0x9f000000, 0x90000000, fun w => .adrp (low5 w) (4096 * (imm21 w).toInt)⟩

/-- `BR`. -/
def br : Format := ⟨0xfffffc1f, 0xd61f0000, fun w => .branchReg (w.extractLsb' 5 5)⟩

/-- `NOP`. -/
def nop : Format := ⟨0xffffffff, 0xd503201f, fun _ => .nop⟩

/-- The word has the fixed bits of the format. -/
def Matches (f : Format) (w : Word) : Prop := w &&& f.mask = f.value

instance (f : Format) (w : Word) : Decidable (f.Matches w) :=
  inferInstanceAs (Decidable (_ = _))

/-- Formats that disagree on a bit that both of them fix. -/
def Apart (f g : Format) : Prop := f.value &&& g.mask ≠ g.value &&& f.mask

instance (f g : Format) : Decidable (f.Apart g) := inferInstanceAs (Decidable (_ ≠ _))

instance : Std.Symm Apart := ⟨fun _ _ h heq => h heq.symm⟩

theorem Apart.not_matches {f g : Format} (h : f.Apart g) {w : Word} (hf : f.Matches w) :
    ¬g.Matches w := by
  intro hg
  refine h ?_
  rw [← hf, ← hg, BitVec.and_assoc, BitVec.and_assoc, BitVec.and_comm f.mask]

end Format

open Format

/-- The formats of the fragment, no two of which share a word. -/
def formats : List Format :=
  [b, bl, bCond, cbz, cbnz, tbz, tbnz, ldrW, ldrX, ldrSW, ldrS, ldrD, ldrQ, prfm, adr, adrp, br,
    Format.nop]

theorem formats_apart : formats.Pairwise Format.Apart := by decide +kernel

/-- The instruction that a word stands for. -/
def decode (w : Word) : Instr :=
  match formats.find? fun f => decide (f.Matches w) with
  | some f => f.instr w
  | none => .other w

/-- A word is decoded by any format that it matches. -/
theorem decode_of_mem {f : Format} (hf : f ∈ formats) {w : Word} (h : f.Matches w) :
    decode w = f.instr w := by
  unfold decode
  cases hfind : formats.find? fun f => decide (f.Matches w) with
  | none => simpa [h] using List.find?_eq_none.1 hfind f hf
  | some g =>
    have hg : g.Matches w := by simpa using List.find?_some hfind
    have hmem := List.mem_of_find?_eq_some hfind
    by_cases hne : g = f
    · rw [hne]
    · exact absurd h ((formats_apart.forall hmem hf hne).not_matches hg)

/-! ## The processor -/

/-- What a processor does apart from its program counter: its registers, and the instructions
that depend on their address by the return address at most. Only calls depend on that, and where
they go does not. -/
structure Core (C : Type*) where
  reg : C → BitVec 5 → Addr
  setReg : C → BitVec 5 → Addr → C
  setVec : C → BitVec 5 → BitVec 128 → C
  holds : C → BitVec 4 → Bool
  exec : Word → Addr → C → C × Option Addr
  reg_setReg : ∀ c r v, r ≠ 31 → reg (setReg c r v) r = v
  setReg_comm : ∀ c r r' v v', r ≠ r' →
    setReg (setReg c r v) r' v' = setReg (setReg c r' v') r v
  exec_ret : ∀ w ret ret' c, isCallReg w = false → exec w ret c = exec w ret' c
  exec_target : ∀ w ret ret' c, (exec w ret c).2 = (exec w ret' c).2

namespace Core

variable {C : Type*} (core : Core C)

/-- Whether a conditional branch is taken. -/
def takes (c : C) : Test → Bool
  | .flags cond => core.holds c cond
  | .zero is64 nonzero rt =>
    let value := if is64 then core.reg c rt else ((core.reg c rt).extractLsb' 0 32).setWidth 64
    (value == 0) != nonzero
  | .bit nonzero n rt => (core.reg c rt).getLsbD n.toNat == nonzero

/-- The registers after a literal of the given bytes is loaded. -/
def setLiteral (c : C) (rt : BitVec 5) (v : ℕ) : Literal → C
  | .w => core.setReg c rt (BitVec.ofNat 64 v)
  | .x => core.setReg c rt (BitVec.ofNat 64 v)
  | .sw => core.setReg c rt ((BitVec.ofNat 32 v).signExtend 64)
  | .s => core.setVec c rt (BitVec.ofNat 128 v)
  | .d => core.setVec c rt (BitVec.ofNat 128 v)
  | .q => core.setVec c rt (BitVec.ofNat 128 v)

/-- The next address and the state after the instruction at `pc`, where `ret` is the address that
a call returns to. -/
def execAt (I : Memory) (pc ret : Addr) (c : C) : Instr → Addr × C
  | .branch link offset =>
    (pc + BitVec.ofInt 64 offset, if link then core.setReg c 30 ret else c)
  | .branchIf t offset =>
    (if core.takes c t then pc + BitVec.ofInt 64 offset else pc + 4, c)
  | .load k rt offset =>
    (pc + 4, core.setLiteral c rt (WordMemory.load I (pc + BitVec.ofInt 64 offset) k.size) k)
  | .prefetch => (pc + 4, c)
  | .adr rd offset => (pc + 4, core.setReg c rd (pc + BitVec.ofInt 64 offset))
  | .adrp rd offset => (pc + 4, core.setReg c rd ((pc &&& ~~~0xfff) + BitVec.ofInt 64 offset))
  | .branchReg rn => (core.reg c rn, c)
  | .nop => (pc + 4, c)
  | .other w =>
    let (c', target) := core.exec w ret c
    (target.getD (pc + 4), c')

/-- Only a call depends on the address that it would link. -/
theorem execAt_ret {i : Instr} (h : i.links = false) (I : Memory) (pc ret ret' : Addr) (c : C) :
    core.execAt I pc ret c i = core.execAt I pc ret' c i := by
  cases i with
  | branch link offset =>
    obtain rfl : link = false := h
    rfl
  | other w => rw [execAt, execAt, core.exec_ret w ret ret' c h]
  | _ => rfl

/-- Where an instruction leads does not depend on the address that it would link. -/
theorem fst_execAt_ret (I : Memory) (pc ret ret' : Addr) (c : C) (i : Instr) :
    (core.execAt I pc ret c i).1 = (core.execAt I pc ret' c i).1 := by
  cases i with
  | other w =>
    change (core.exec w ret c).2.getD (pc + 4) = (core.exec w ret' c).2.getD (pc + 4)
    rw [core.exec_target w ret ret' c]
  | _ => rfl

end Core

/-- The word at an address of an image. -/
def fetch (I : Memory) (a : Addr) : Word := BitVec.ofNat 32 (WordMemory.load I a 4)

/-- The words are in an image from an address on. -/
def CodeAt (I : Memory) (a : Addr) (ws : List Word) : Prop :=
  ∀ i (h : i < ws.length), fetch I (a + BitVec.ofNat 64 (4 * i)) = ws[i]

/-- The state of a processor. -/
structure Cpu (C : Type*) where
  pc : Addr
  ctx : C

namespace Core

variable {C : Type*} (core : Core C)

/-- One instruction of the image is fetched and executed. -/
def step (I : Memory) (s : Cpu C) : Cpu C :=
  let (pc, ctx) := core.execAt I s.pc (s.pc + 4) s.ctx (decode (fetch I s.pc))
  { pc, ctx }

/-- Some number of steps leads from one state to another. -/
def Reaches (I : Memory) (s t : Cpu C) : Prop := ∃ n, (core.step I)^[n] s = t

variable {core} {I : Memory} {s t u : Cpu C}

theorem Reaches.refl (s : Cpu C) : core.Reaches I s s := ⟨0, rfl⟩

theorem Reaches.trans (h : core.Reaches I s t) (h' : core.Reaches I t u) :
    core.Reaches I s u := by
  obtain ⟨n, rfl⟩ := h
  obtain ⟨k, rfl⟩ := h'
  exact ⟨k + n, Function.iterate_add_apply _ _ _ _⟩

theorem Reaches.head (h : core.Reaches I (core.step I s) t) : core.Reaches I s t := by
  obtain ⟨n, rfl⟩ := h
  exact ⟨n + 1, Function.iterate_succ_apply _ _ _⟩

/-- A step at a word that is known. -/
theorem Reaches.cons {pc : Addr} {c : C} {w : Word} (hw : fetch I pc = w) {p : Addr × C}
    (hp : core.execAt I pc (pc + 4) c (decode w) = p) (h : core.Reaches I ⟨p.1, p.2⟩ t) :
    core.Reaches I ⟨pc, c⟩ t := by
  refine Reaches.head ?_
  have hstep : core.step I ⟨pc, c⟩ = ⟨p.1, p.2⟩ := by
    rw [← hp, ← hw]
    rfl
  rwa [hstep]

end Core

/-! ## Code in an image -/

variable {I : Memory} {a : Addr}

theorem codeAt_nil (I : Memory) (a : Addr) : CodeAt I a [] :=
  fun i h => absurd h (Nat.not_lt_zero i)

theorem add_ofNat_add (a : Addr) (m n : ℕ) :
    a + BitVec.ofNat 64 (m + n) = a + BitVec.ofNat 64 m + BitVec.ofNat 64 n := by
  rw [BitVec.ofNat_add, BitVec.add_assoc]

theorem codeAt_append {u v : List Word} : CodeAt I a (u ++ v) ↔
    CodeAt I a u ∧ CodeAt I (a + BitVec.ofNat 64 (4 * u.length)) v := by
  have hnext (i : ℕ) : a + BitVec.ofNat 64 (4 * (u.length + i)) =
      a + BitVec.ofNat 64 (4 * u.length) + BitVec.ofNat 64 (4 * i) := by
    rw [Nat.mul_add, add_ofNat_add]
  constructor
  · intro h
    refine ⟨fun i hi => ?_, fun i hi => ?_⟩
    · have hword := h i (by rw [List.length_append]; omega)
      rwa [List.getElem_append_left hi] at hword
    · have hword := h (u.length + i) (by rw [List.length_append]; omega)
      rw [hnext, List.getElem_append_right (Nat.le_add_right _ _)] at hword
      simpa using hword
  · rintro ⟨hws, hvs⟩ i hi
    by_cases hlt : i < u.length
    · rw [List.getElem_append_left hlt]
      exact hws i hlt
    · obtain ⟨k, rfl⟩ := Nat.exists_eq_add_of_le (Nat.le_of_not_lt hlt)
      rw [List.length_append] at hi
      have hword := hvs k (by omega)
      rw [hnext, hword, List.getElem_append_right (Nat.le_add_right _ _)]
      simp

theorem codeAt_singleton {w : Word} : CodeAt I a [w] ↔ fetch I a = w := by
  constructor
  · intro h
    simpa using h 0 (Nat.zero_lt_one)
  · intro h i hi
    obtain rfl : i = 0 := by simpa using hi
    simpa using h

theorem codeAt_cons {w : Word} {ws : List Word} :
    CodeAt I a (w :: ws) ↔ fetch I a = w ∧ CodeAt I (a + 4) ws := by
  rw [← codeAt_singleton]
  exact codeAt_append (u := [w])

/-! ## Writing code -/

/-- The image with words from an address on. -/
def storeWords (I : Memory) (a : Addr) : List Word → Memory
  | [] => I
  | w :: ws => storeWords (store I a 4 w.toNat) (a + 4) ws

theorem fetch_congr {J : Memory} (h : ∀ x, InWindow a 4 x → J x = I x) : fetch J a = fetch I a := by
  rw [fetch, fetch, load_congr (by decide) h]

theorem storeWords_of_not_inWindow {ws : List Word} {x : Addr} (hlen : 4 * ws.length < 2 ^ 64)
    (h : ¬InWindow a (4 * ws.length) x) : storeWords I a ws x = I x := by
  induction ws generalizing I a with
  | nil => rfl
  | cons w ws ih =>
    rw [List.length_cons] at hlen h
    have hhead : ¬InWindow a 4 x := fun hx => h (hx.mono (by omega))
    have htail : ¬InWindow (a + 4) (4 * ws.length) x := by
      intro hx
      refine h ?_
      have hadd : InWindow (a + BitVec.ofNat 64 4) (4 * ws.length) x := hx
      exact (hadd.add (by omega)).mono (by omega)
    rw [storeWords, ih (by omega) htail, store_of_not_inWindow hhead]

/-- An image keeps its code as long as the window of the code is kept. -/
theorem CodeAt.congr {J : Memory} {ws : List Word} (h : CodeAt I a ws)
    (hlen : 4 * ws.length < 2 ^ 64) (hJ : ∀ x, InWindow a (4 * ws.length) x → J x = I x) :
    CodeAt J a ws := by
  intro i hi
  rw [← h i hi]
  refine fetch_congr fun x hx => hJ x ?_
  exact (hx.add (by omega)).mono (by omega)

theorem codeAt_storeWords (I : Memory) (a : Addr) {ws : List Word}
    (hlen : 4 * ws.length < 2 ^ 64) : CodeAt (storeWords I a ws) a ws := by
  induction ws generalizing I a with
  | nil => exact codeAt_nil _ _
  | cons w ws ih =>
    rw [List.length_cons] at hlen
    refine codeAt_cons.2 ⟨?_, ih _ _ (by omega)⟩
    have hkept (x : Addr) (hx : InWindow a 4 x) :
        storeWords I a (w :: ws) x = store I a 4 w.toNat x := by
      rw [storeWords]
      refine storeWords_of_not_inWindow (by omega) fun hx' => ?_
      unfold InWindow at hx hx'
      bv_omega
    rw [fetch, load_of_store_kept (by decide) hkept]
    apply BitVec.eq_of_toNat_eq
    have := w.isLt
    rw [BitVec.toNat_ofNat]
    omega

/-! ## Data in code -/

theorem load_four (I : Memory) (a : Addr) : WordMemory.load I a 4 = (fetch I a).toNat := by
  rw [fetch, BitVec.toNat_ofNat, Nat.mod_eq_of_lt]
  exact load_lt

/-- Words that were copied are loaded as what they were copied from. -/
theorem load_copied {J : Memory} {b : Addr} {k n : ℕ}
    (h : ∀ i < k, fetch I (a + BitVec.ofNat 64 (4 * i)) = fetch J (b + BitVec.ofNat 64 (4 * i)))
    (hn : n ≤ 4 * k) : WordMemory.load I a n = WordMemory.load J b n := by
  refine load_eq_of_bytes fun i hi => ?_
  have hword := congrArg BitVec.toNat (h (i / 4) (by omega))
  rw [← load_four, ← load_four] at hword
  have hbyte := byte_of_load_eq hword (i := i % 4) (by omega)
  rw [← add_ofNat_add, ← add_ofNat_add, Nat.div_add_mod] at hbyte
  exact hbyte

/-- An address in two words. -/
theorem load_address {t : Addr} (h : CodeAt I a [t.setWidth 32, (t >>> 32).setWidth 32]) :
    BitVec.ofNat 64 (WordMemory.load I a 8) = t := by
  obtain ⟨hlow, hhigh⟩ := codeAt_cons.1 h
  have hload := load_add (m := I) (a := a) (n := 4) (k := 4)
  have hnext : a + BitVec.ofNat 64 4 = a + 4 := rfl
  rw [hnext, load_four, load_four, hlow, codeAt_singleton.1 hhigh] at hload
  apply BitVec.eq_of_toNat_eq
  rw [hload, BitVec.toNat_ofNat, BitVec.toNat_setWidth, BitVec.toNat_setWidth,
    BitVec.toNat_ushiftRight, Nat.shiftRight_eq_div_pow]
  have := t.isLt
  omega

/-! ## Instructions one after the other -/

namespace Core

variable {C : Type*} {core : Core C} {c : C} {s : Cpu C} {pc : Addr}

/-- A step at a word that is known. -/
theorem Reaches.exec {w : Word} {i : Instr} {pc' : Addr} {c' : C} (hw : fetch I pc = w)
    (hi : decode w = i) (hp : core.execAt I pc (pc + 4) c i = (pc', c')) :
    core.Reaches I ⟨pc, c⟩ ⟨pc', c'⟩ :=
  Reaches.cons hw (hi ▸ hp) (Reaches.refl _)

/-- The word of `NOP`. -/
def nopWord : Word := 0xd503201f

theorem reaches_nops {n : ℕ} (h : CodeAt I pc (List.replicate n nopWord)) (c : C) :
    core.Reaches I ⟨pc, c⟩ ⟨pc + BitVec.ofNat 64 (4 * n), c⟩ := by
  induction n generalizing pc with
  | zero =>
    rw [BitVec.add_zero]
    exact Reaches.refl _
  | succ n ih =>
    obtain ⟨hfirst, hrest⟩ := codeAt_cons.1 h
    have hnext : pc + 4 + BitVec.ofNat 64 (4 * n) = pc + BitVec.ofNat 64 (4 * (n + 1)) := by
      rw [Nat.mul_succ, Nat.add_comm, add_ofNat_add]
      rfl
    have hstep : core.Reaches I ⟨pc, c⟩ ⟨pc + 4, c⟩ :=
      Reaches.exec hfirst (by decide +kernel : decode nopWord = .nop) rfl
    rw [← hnext]
    exact hstep.trans (ih hrest)

end Core

end A64
