import D3Hack.A64Fields

/-!
# Moving instructions to a trampoline

A hook writes a jump over the first instructions of a function, and `fixInstructions` moves those
instructions to a trampoline, so that they can still be executed. Instructions that depend on
their address are rewritten: with another offset where the trampoline is close enough, and into a
few instructions otherwise.

A branch to a moved instruction needs to know where that went. Places are known up to the current
instruction; a branch to a later one is written without its offset and completed when that
instruction has its place (`insertFixMap`, `processFixMap`).
-/

namespace D3Hack

open A64 WordMemory

/-! ## The context -/

/-- `Aarch64Nop`. -/
def aarch64Nop : Word := 0xd503201f

/-- `MaxInstructions`, the most that a hook overwrites. -/
def maxInstructions : ℕ := 5

/-- `TrampolineSize`, in words: ten for each instruction. -/
def trampolineSize : ℕ := maxInstructions * 10

/-- `MaxReferences`, the branches that can wait for one instruction. -/
def maxReferences : ℕ := maxInstructions * 2

/-- A word that waits for a place, by its own place in the output; `bprx` and `bprw` are this
place in the two mappings of the trampoline. -/
structure FixInfo where
  bpr : ℕ
  ls : ℕ
  ad : Word
  deriving DecidableEq, Repr

/-- `insns_info`: the new place of an instruction, and the words that wait for it. -/
structure InsnsInfo where
  ins : Addr := 0
  fmap : List FixInfo := []

/-- What does not change: the trampoline in its two mappings, the moved instructions and the
memory that they are read from. -/
structure FixSite where
  rx : Addr
  rw : Addr
  basep : Addr
  count : ℕ
  mem : Memory

/-- The next instruction to move, the words written so far, and what is known of the places. -/
structure FixState where
  inprx : Addr
  out : List Word := []
  dat : ℕ → InsnsInfo := fun _ => {}

namespace FixSite

variable (e : FixSite) (s : FixState)

/-- `endp`, behind the last instruction to move. -/
def endp : Addr := e.basep + BitVec.ofNat 64 (4 * e.count)

/-- `outprx`, the next word of the trampoline where it is executed. -/
def outprx : Addr := e.rx + BitVec.ofNat 64 (4 * s.out.length)

/-- `outprw`, the next word of the trampoline where it is written. -/
def outprw : Addr := e.rw + BitVec.ofNat 64 (4 * s.out.length)

/-- `context::is_in_fixing_range`; addresses are compared with their signs. -/
def isInFixingRange (absoluteAddr : Addr) : Bool :=
  e.basep.toInt ≤ absoluteAddr.toInt && absoluteAddr.toInt < e.endp.toInt

/-- `context::get_ref_ins_index`. -/
def getRefInsIndex (absoluteAddr : Addr) : ℕ := (absoluteAddr - e.basep).toNat / 4

/-- The index of the current instruction. -/
def currentIdx : ℕ := e.getRefInsIndex s.inprx

/-- Whether a place in the trampoline and a literal two words on is aligned for the literal. -/
def isAligned (words : ℕ) (mask : Addr) : Bool :=
  (e.outprx s + BitVec.ofNat 64 (4 * words)) &&& mask == 0

end FixSite

namespace FixState

variable (s : FixState)

/-- The instruction gets its place. -/
def setIns (idx : ℕ) (place : Addr) : FixState :=
  { s with dat := Function.update s.dat idx { s.dat idx with ins := place } }

/-- Words are put at the end of the output. -/
def write (ws : List Word) : FixState := { s with out := s.out ++ ws }

/-- The instruction is done. -/
def next : FixState := { s with inprx := s.inprx + 4 }

/-- A full list of references takes no more. -/
def insertFixMap (idx : ℕ) (bpr ls : ℕ) (ad : Word) : FixState :=
  let info := s.dat idx
  if info.fmap.length < maxReferences then
    { s with dat := Function.update s.dat idx { info with fmap := info.fmap ++ [⟨bpr, ls, ad⟩] } }
  else s

end FixState

/-- The word with the offset from its place to another. -/
def FixInfo.patch (f : FixInfo) (rx place : Addr) (w : Word) : Word :=
  let offset := (place - (rx + BitVec.ofNat 64 (4 * f.bpr))).setWidth 32
  w ||| ((offset.sshiftRight 2 <<< f.ls) &&& f.ad)

/-- `context::process_fix_map`: the words that waited for the instruction get their offsets. -/
def processFixMap (e : FixSite) (s : FixState) (idx : ℕ) : FixState :=
  let info := s.dat idx
  { s with
    out := info.fmap.foldl (fun out f => out.modify f.bpr (f.patch e.rx info.ins)) s.out
    dat := Function.update s.dat idx { info with fmap := [] } }

/-- The bytes of an address, as two words. -/
def addrWords (a : Addr) : List Word := [a.setWidth 32, (a >>> 32).setWidth 32]

/-- `(absolute_addr - outprx) >> 2`. -/
def pcOffset (e : FixSite) (s : FixState) (absoluteAddr : Addr) : BitVec 64 :=
  (absoluteAddr - e.outprx s).sshiftRight 2

/-- `LDR X17, #0x8`, `BR X17` and the address. -/
def jumpWords (a : Addr) : List Word := [0x58000051, 0xd61f0220] ++ addrWords a

/-! ## The instructions that depend on their address -/

/-- `__fix_branch_imm`: `B` and `BL`. -/
def fixBranchImm (e : FixSite) (s : FixState) : Option FixState :=
  let ins := fetch e.mem s.inprx
  let opc := ins &&& 0xfc000000
  if opc = 0x14000000 ∨ opc = 0x94000000 then
    let currentIdx := e.currentIdx s
    let s := s.setIns currentIdx (e.outprx s)
    let absoluteAddr := s.inprx + ((ins <<< 6).sshiftRight 4).signExtend 64
    let newPcOffset := pcOffset e s absoluteAddr
    let specialFixType := e.isInFixingRange absoluteAddr
    let s :=
      if specialFixType = false ∧ 0x1ffffff ≤ newPcOffset.toInt.natAbs then
        let bAligned := e.isAligned s 2 7
        if opc = 0x14000000 then
          let s := if bAligned = false then
              let s := s.write [aarch64Nop]
              s.setIns currentIdx (e.outprx s)
            else s
          s.write (jumpWords absoluteAddr)
        else
          let s := if bAligned = true then
              let s := s.write [aarch64Nop]
              s.setIns currentIdx (e.outprx s)
            else s
          -- LDR X17, #12; ADR X30, #16; BR X17
          s.write ([0x58000071, 0x1000009e, 0xd61f0220] ++ addrWords absoluteAddr)
      else
        if specialFixType then
          let refIdx := e.getRefInsIndex absoluteAddr
          if refIdx ≤ currentIdx then
            let newPcOffset := pcOffset e s (s.dat refIdx).ins
            s.write [opc ||| (newPcOffset.setWidth 32 &&& 0x03ffffff)]
          else
            let s := s.insertFixMap refIdx s.out.length 0 0x03ffffff
            s.write [opc]
        else
          s.write [opc ||| (newPcOffset.setWidth 32 &&& 0x03ffffff)]
    some (processFixMap e s.next currentIdx)
  else none

/-- The mask of the bits that stay of a conditional branch. -/
def lmaskOf (ins : Word) : Option Word :=
  if ins &&& 0xff000010 = 0x54000000 then some 0xff00001f
  else if ins &&& 0x7f000000 = 0x34000000 ∨ ins &&& 0x7f000000 = 0x35000000 then some 0xff00001f
  else if ins &&& 0x7f000000 = 0x36000000 ∨ ins &&& 0x7f000000 = 0x37000000 then some 0xfff8001f
  else none

/-- `__fix_cond_comp_test_branch`: `B.cond`, `CBZ`, `CBNZ`, `TBZ` and `TBNZ`. -/
def fixCondCompTestBranch (e : FixSite) (s : FixState) : Option FixState :=
  let ins := fetch e.mem s.inprx
  match lmaskOf ins with
  | none => none
  | some lmask =>
    let currentIdx := e.currentIdx s
    let s := s.setIns currentIdx (e.outprx s)
    -- the offset is not sign-extended
    let absoluteAddr := s.inprx + ((ins &&& ~~~lmask) >>> 3).setWidth 64
    let newPcOffset := pcOffset e s absoluteAddr
    let specialFixType := e.isInFixingRange absoluteAddr
    let s :=
      if specialFixType = false ∧ (~~~lmask >>> 6).toNat ≤ newPcOffset.toInt.natAbs then
        let s := if e.isAligned s 4 7 = false then
            (s.setIns currentIdx (e.outprx s)).write [aarch64Nop]
          else s
        -- B.C #0x8; B #0x14
        s.write ([(((2 : Word) <<< 5) &&& ~~~lmask) ||| (ins &&& lmask), 0x14000005] ++
          jumpWords absoluteAddr)
      else
        if specialFixType then
          let refIdx := e.getRefInsIndex absoluteAddr
          if refIdx ≤ currentIdx then
            let newPcOffset := pcOffset e s (s.dat refIdx).ins
            s.write [((newPcOffset.setWidth 32 <<< 5) &&& ~~~lmask) ||| (ins &&& lmask)]
          else
            let s := s.insertFixMap refIdx s.out.length 5 (~~~lmask)
            s.write [ins &&& lmask]
        else
          s.write [((newPcOffset.setWidth 32 <<< 5) &&& ~~~lmask) ||| (ins &&& lmask)]
    some (processFixMap e s.next currentIdx)

/-- `NOP`s up to a place where a literal two words on is aligned. -/
def alignNops (e : FixSite) (faligned : Addr) : ℕ → FixState → FixState
  | 0, s => s
  | n + 1, s =>
    if e.isAligned s 2 faligned then s else alignNops e faligned n (s.write [aarch64Nop])

/-- `NOP`s up to a place with an aligned offset to the literal. -/
def offsetNops (e : FixSite) (absoluteAddr faligned : Addr) : ℕ → FixState → FixState
  | 0, s => s
  | n + 1, s =>
    if pcOffset e s absoluteAddr &&& faligned = 0 then s
    else offsetNops e absoluteAddr faligned n (s.write [aarch64Nop])

/-- The mask of an instruction that loads a literal, and of the alignment of the literal. -/
def literalMasks (ins : Word) : Option (Word × Addr) :=
  let faligned : Addr := if ins &&& 0x40000000 ≠ 0 then 7 else 3
  if ins &&& 0xbf000000 = 0x18000000 then some (0xbf000000, faligned)
  else
    let faligned := if faligned ≠ 7 then (if ins &&& 0x80000000 ≠ 0 then 15 else 3) else faligned
    if ins &&& 0x3f000000 = 0x1c000000 then some (0x3f000000, faligned)
    else if ins &&& 0xff000000 = 0x98000000 then some (0xff000000, 7)
    else none

/-- The `n` words from an address on. -/
def copyWords (mem : Memory) (a : Addr) (n : ℕ) : List Word :=
  (List.range n).map fun i => fetch mem (a + BitVec.ofNat 64 (4 * i))

/-- `__fix_loadlit`: `LDR` and `LDRSW` of literals; a literal that is too far, or in the window, is
copied. -/
def fixLoadlit (e : FixSite) (s : FixState) : Option FixState :=
  let ins := fetch e.mem s.inprx
  let currentIdx := e.currentIdx s
  -- memory prefetch, which is skipped
  if ins &&& 0xff000000 = 0xd8000000 then
    some (processFixMap e (s.setIns currentIdx (e.outprx s)) currentIdx).next
  else
    match literalMasks ins with
    | none => none
    | some (mask, faligned) =>
      let s := s.setIns currentIdx (e.outprx s)
      -- the offset is sign-extended to 32 bits
      let absoluteAddr := s.inprx + (((ins <<< 8).sshiftRight 11) &&& ~~~(3 : Word)).setWidth 64
      let newPcOffset := pcOffset e s absoluteAddr
      let specialFixType := e.isInFixingRange absoluteAddr
      let s :=
        if specialFixType = true ∨
            0x3ffff ≤ newPcOffset.toInt.natAbs + (faligned.toNat + 1 - 4) / 4 then
          let s := alignNops e faligned 4 s
          let s := s.setIns currentIdx (e.outprx s)
          let ns := (faligned.toNat + 1) / 4
          -- LDR #0x8; B over the literal
          s.write ([(((2 : Word) <<< 5) &&& ~~~mask) ||| (ins &&& 0xff00001f),
            0x14000001 + BitVec.ofNat 32 ns] ++ copyWords e.mem absoluteAddr ns)
        else
          let s := offsetNops e absoluteAddr (faligned >>> 2) 4 s
          let newPcOffset := pcOffset e s absoluteAddr
          let s := s.setIns currentIdx (e.outprx s)
          s.write [((newPcOffset.setWidth 32 <<< 5) &&& ~~~mask) ||| (ins &&& 0xff00001f)]
      some (processFixMap e s.next currentIdx)

/-- `LDR #0x8`, `B #0xc` and the address. -/
def loadAddrWords (rd : Word) (a : Addr) : List Word :=
  [(0x58000000 : Word) ||| (((2 : Word) <<< 5) &&& ~~~(0x9f000000 : Word)) ||| rd, 0x14000003] ++
    addrWords a

/-- `__fix_pcreladdr`: `ADR` and `ADRP`. -/
def fixPcreladdr (e : FixSite) (s : FixState) : Option FixState :=
  let ins := fetch e.mem s.inprx
  let currentIdx := e.currentIdx s
  let lsbBytes : Word := (ins <<< 1) >>> 30
  if ins &&& 0x9f000000 = 0x10000000 then
    let s := s.setIns currentIdx (e.outprx s)
    -- the offset is sign-extended to 32 bits
    let absoluteAddr :=
      s.inprx + ((((ins <<< 8).sshiftRight 11) &&& ~~~(3 : Word)) ||| lsbBytes).setWidth 64
    let newPcOffset := absoluteAddr - e.outprx s
    let specialFixType := e.isInFixingRange absoluteAddr
    let s :=
      if specialFixType = false ∧ 0xfffff ≤ newPcOffset.toInt.natAbs then
        let s := if e.isAligned s 2 7 = false then
            let s := s.write [aarch64Nop]
            s.setIns currentIdx (e.outprx s)
          else s
        s.write (loadAddrWords (ins &&& 0x0000001f) absoluteAddr)
      else
        if specialFixType then
          let refIdx := e.getRefInsIndex (absoluteAddr &&& ~~~(3 : Addr))
          if refIdx ≤ currentIdx then
            let newPcOffset := (s.dat refIdx).ins - e.outprx s
            s.write [((newPcOffset <<< 3).setWidth 32 &&& 0x00ffffff) ||| (ins &&& 0xff00001f)]
          else
            let s := s.insertFixMap refIdx s.out.length 5 0x00ffffff
            s.write [ins &&& 0xff00001f]
        else
          s.write [((newPcOffset <<< 3).setWidth 32 &&& 0x00ffffff) ||| (ins &&& 0xff00001f)]
    some (processFixMap e s currentIdx).next
  else if ins &&& 0x9f000000 = 0x90000000 then
    -- the place is taken from the writable mapping
    let s := s.setIns currentIdx (e.outprw s)
    let absoluteAddr := (s.inprx &&& ~~~(0xfff : Addr)) +
      (((((ins <<< 8).sshiftRight 11) &&& ~~~(3 : Word)) ||| lsbBytes) <<< 12).setWidth 64
    let s :=
      if e.isInFixingRange absoluteAddr then s.write [ins]
      else
        let s := if e.isAligned s 2 7 = false then
            let s := s.write [aarch64Nop]
            s.setIns currentIdx (e.outprx s)
          else s
        s.write (loadAddrWords (ins &&& 0x0000001f) absoluteAddr)
    some (processFixMap e s currentIdx).next
  else none

/-! ## The loop -/

/-- An instruction that does not depend on its address is copied. -/
def copyInstruction (e : FixSite) (s : FixState) : FixState :=
  let currentIdx := e.currentIdx s
  let s := processFixMap e (s.setIns currentIdx (e.outprx s)) currentIdx
  (s.write [fetch e.mem s.inprx]).next

/-- The body of the loop of `__fix_instructions`: the first of the four that takes the instruction.
-/
def fixInstruction (e : FixSite) (s : FixState) : FixState :=
  (fixBranchImm e s <|> fixCondCompTestBranch e s <|> fixLoadlit e s <|> fixPcreladdr e s).getD
    (copyInstruction e s)

/-- The jump back behind the moved instructions. -/
def writeCallback (e : FixSite) (s : FixState) : FixState :=
  let callback := s.inprx
  let newPcOffset := pcOffset e s callback
  if 0x1ffffff ≤ newPcOffset.toInt.natAbs then
    let s := if e.isAligned s 2 7 = false then s.write [aarch64Nop] else s
    s.write (jumpWords callback)
  else s.write [0x14000000 ||| (newPcOffset.setWidth 32 &&& 0x03ffffff)]

/-- The words that `__fix_instructions` leaves in the trampoline. -/
def fixInstructions (e : FixSite) : List Word :=
  (writeCallback e ((fixInstruction e)^[e.count] { inprx := e.basep })).out

end D3Hack
