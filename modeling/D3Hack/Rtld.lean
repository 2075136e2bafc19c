import D3Hack.WordMemory

/-!
# The loader

A `ModuleObject` is what the loader knows of a module, read from its dynamic section
(`ModuleObject.initializeModule`). `relocate` applies the relocations that need the address of the
module alone, and `resolveSymbols` those that need a symbol, which is looked up by its name in the
module itself or in the modules of the load list (`tryResolveSymbol`). Slots of functions are
filled in at once, or left to the stub that fills them in when they are first called
(`rtldLazyBindSymbol`). `relocateSelf` is how the program relocates itself before it has a loader.

Addresses wrap around. `none` is a program that does not go on: it aborts at a failed assertion, or
loops, or looks for more than the given number of steps for the end of a name, of a chain or of a
dynamic section.
-/

namespace D3Hack

open WordMemory

/-! ## Words -/

/-- A halfword of the memory. -/
def read16 (m : Memory) (a : Addr) : BitVec 16 := BitVec.ofNat 16 (load m a 2)

/-- A word of the memory. -/
def read32 (m : Memory) (a : Addr) : BitVec 32 := BitVec.ofNat 32 (load m a 4)

/-- A doubleword of the memory. -/
def read64 (m : Memory) (a : Addr) : BitVec 64 := BitVec.ofNat 64 (load m a 8)

/-- The memory with a doubleword written. -/
def write64 (m : Memory) (a : Addr) (v : BitVec 64) : Memory := store m a 8 v.toNat

/-- The address of an entry of a table. -/
def entryOf (table : Addr) (size i : ℕ) : Addr := table + BitVec.ofNat 64 (size * i)

/-! ## The object file format -/

/-- `Elf_Dyn`. -/
structure ElfDyn where
  tag : BitVec 64
  val : BitVec 64
  deriving DecidableEq, Repr

/-- `Elf_Rel`. -/
structure ElfRel where
  offset : BitVec 64
  info : BitVec 64
  deriving DecidableEq, Repr

/-- `Elf_Rela`. -/
structure ElfRela where
  offset : BitVec 64
  info : BitVec 64
  addend : BitVec 64
  deriving DecidableEq, Repr

/-- `Elf_Sym`, but for its size. -/
structure ElfSym where
  name : BitVec 32
  info : UInt8
  other : UInt8
  shndx : BitVec 16
  value : BitVec 64
  deriving DecidableEq, Repr

/-- `sizeof(Elf_Rel)`. -/
def sizeofRel : ℕ := 16

/-- `sizeof(Elf_Rela)`. -/
def sizeofRela : ℕ := 24

/-- `sizeof(Elf_Sym)`. -/
def sizeofSym : ℕ := 24

/-- The entry of a dynamic section at an address. -/
def readDyn (m : Memory) (a : Addr) : ElfDyn := ⟨read64 m a, read64 m (a + 8)⟩

/-- The relocation without an addend at an address. -/
def readRel (m : Memory) (a : Addr) : ElfRel := ⟨read64 m a, read64 m (a + 8)⟩

/-- The relocation with an addend at an address. -/
def readRela (m : Memory) (a : Addr) : ElfRela := ⟨read64 m a, read64 m (a + 8), read64 m (a + 16)⟩

/-- The symbol at an address. -/
def readSym (m : Memory) (a : Addr) : ElfSym :=
  ⟨read32 m a, m (a + 4), m (a + 5), read16 m (a + 6), read64 m (a + 8)⟩

/-- `ELF_R_TYPE`. -/
def rType (info : BitVec 64) : BitVec 32 := info.setWidth 32

/-- `ELF_R_SYM`. -/
def rSym (info : BitVec 64) : BitVec 32 := (info >>> 32).setWidth 32

/-- `ELF_ST_BIND`. -/
def ElfSym.bind (s : ElfSym) : UInt8 := s.info >>> 4

/-- `ELF_ST_VISIBILITY`. -/
def ElfSym.visibility (s : ElfSym) : UInt8 := s.other &&& 3

/-- `STB_WEAK`. -/
def stbWeak : UInt8 := 2

/-- `SHN_COMMON`. -/
def shnCommon : BitVec 16 := 0xfff2

/-- `ARCH_RELATIVE`, for AArch64. -/
def archRelative : BitVec 32 := 1027

/-- `ARCH_JUMP_SLOT`. -/
def archJumpSlot : BitVec 32 := 1026

/-- `ARCH_GLOB_DAT`. -/
def archGlobDat : BitVec 32 := 1025

/-- `ARCH_IS_REL_ABSOLUTE`. -/
def archIsRelAbsolute (type : BitVec 32) : Bool := type == 258 || type == 257

/-! ## Names -/

/-- A C string. -/
def readCStr (m : Memory) : ℕ → Addr → Option (List UInt8)
  | 0, _ => none
  | n + 1, a => if m a = 0 then some [] else (readCStr m n (a + 1)).map (m a :: ·)

/-- `strcmp(name, a) == 0`. -/
def strcmpEq (m : Memory) : List UInt8 → Addr → Bool
  | [], a => m a == 0
  | c :: s, a => m a == c && strcmpEq m s (a + 1)

/-- `__rtld_elf_hash`; a `char` has no sign. -/
def rtldElfHash (name : List UInt8) : BitVec 64 :=
  name.foldl (fun h c =>
    let h := (h <<< 4) + c.toBitVec.setWidth 64
    let g := h &&& 0xf0000000
    let h := if g ≠ 0 then h ^^^ (g >>> 24) else h
    h &&& ~~~g) 0

/-! ## Modules -/

/-- `ModuleObject`, but for its links in a list of modules. -/
structure ModuleObject where
  moduleBase : Addr := 0
  dynamic : Addr := 0
  isRela : Bool := false
  relaOrRelPlt : Addr := 0
  relaOrRel : Addr := 0
  relaOrRelPltSize : BitVec 64 := 0
  dtInit : Addr := 0
  dtFini : Addr := 0
  hashBucket : Addr := 0
  hashChain : Addr := 0
  dynstr : Addr := 0
  dynsym : Addr := 0
  dynstrSize : BitVec 64 := 0
  got : Addr := 0
  relaDynSize : BitVec 64 := 0
  relDynSize : BitVec 64 := 0
  relCount : BitVec 64 := 0
  relaCount : BitVec 64 := 0
  hashNchainValue : BitVec 64 := 0
  hashNbucketValue : BitVec 64 := 0
  gotStubPtr : Addr := 0
  deriving DecidableEq, Repr

/-- The entries of a dynamic section, up to `DT_NULL`. -/
def readDynamic (m : Memory) : ℕ → Addr → Option (List ElfDyn)
  | 0, _ => none
  | n + 1, a =>
    let d := readDyn m a
    if d.tag = 0 then some [] else (readDynamic m n (a + 16)).map (d :: ·)

namespace ModuleObject

/-- The fields that `Initialize` resets; it keeps the counts, and the numbers of buckets and
chains. -/
def reset (o : ModuleObject) (aslrBase dynamic : Addr) : ModuleObject where
  moduleBase := aslrBase
  dynamic := dynamic
  relCount := o.relCount
  relaCount := o.relaCount
  hashNchainValue := o.hashNchainValue
  hashNbucketValue := o.hashNbucketValue

/-- One turn of the loop of `Initialize`. `DT_JMPREL` is kept aside until the end. -/
def readEntry (m : Memory) (s : ModuleObject × Addr) (d : ElfDyn) : Option (ModuleObject × Addr) :=
  let (o, relPlt) := s
  let ptr := o.moduleBase + d.val
  match d.tag.toNat with
  | 2 => some ({ o with relaOrRelPltSize := d.val }, relPlt)
  | 3 => some ({ o with got := ptr }, relPlt)
  | 4 =>
    let nbucket := read32 m ptr
    let nchain := read32 m (ptr + 4)
    some ({ o with
      hashNbucketValue := nbucket.setWidth 64
      hashNchainValue := nchain.setWidth 64
      hashBucket := entryOf ptr 4 2
      hashChain := entryOf ptr 4 (2 + nbucket).toNat }, relPlt)
  | 5 => some ({ o with dynstr := ptr }, relPlt)
  | 6 => some ({ o with dynsym := ptr }, relPlt)
  | 7 => some ({ o with relaOrRel := ptr }, relPlt)
  | 8 => some ({ o with relaDynSize := d.val }, relPlt)
  | 9 => if d.val = 24 then some (o, relPlt) else none
  | 10 => some ({ o with dynstrSize := d.val }, relPlt)
  | 11 => if d.val = 24 then some (o, relPlt) else none
  | 12 => some ({ o with dtInit := ptr }, relPlt)
  | 13 => some ({ o with dtFini := ptr }, relPlt)
  | 17 => some ({ o with relaOrRel := ptr }, relPlt)
  | 18 => some ({ o with relDynSize := d.val }, relPlt)
  | 19 => if d.val = 16 then some (o, relPlt) else none
  | 20 =>
    if d.val = 17 ∨ d.val = 7 then some ({ o with isRela := d.val == 7 }, relPlt) else none
  | 23 => some (o, ptr)
  | 0x6ffffff9 => some ({ o with relaCount := d.val }, relPlt)
  | 0x6ffffffa => some ({ o with relCount := d.val }, relPlt)
  | _ => some (o, relPlt)

/-- `Initialize`. -/
def initializeModule (n : ℕ) (m : Memory) (old : ModuleObject) (aslrBase dynamic : Addr) :
    Option ModuleObject :=
  (readDynamic m n dynamic).bind fun ds =>
    (ds.foldlM (readEntry m) (old.reset aslrBase dynamic, 0)).map fun s =>
      { s.1 with relaOrRelPlt := s.2 }

/-- A loop over a table by a counter of 32 bits, which never gets to a larger number. -/
def loop32 {S : Type} (count : ℕ) (f : S → ℕ → Option S) (s : S) : Option S :=
  if count < 2 ^ 32 then (List.range count).foldlM f s else none

theorem loop32_eq {S : Type} {count : ℕ} (hcount : count < 2 ^ 32) (f : S → ℕ → Option S) :
    loop32 count f = fun s => (List.range count).foldlM f s := funext fun _ => if_pos hcount

/-! ## Relocations that need the base alone -/

/-- The body of the first loop of `Relocate`: the base is added to the word in place. -/
def relocateRel (base table : Addr) (size : ℕ) (m : Memory) (i : ℕ) : Memory :=
  let entry := readRel m (entryOf table size i)
  let ptr := base + entry.offset
  if rType entry.info = archRelative then write64 m ptr (read64 m ptr + base) else m

/-- The body of its second loop: the word is the base and the addend. -/
def relocateRela (base table : Addr) (size : ℕ) (m : Memory) (i : ℕ) : Memory :=
  let entry := readRela m (entryOf table size i)
  let ptr := base + entry.offset
  if rType entry.info = archRelative then write64 m ptr (base + entry.addend) else m

/-- `Relocate`. -/
def relocate (o : ModuleObject) (m : Memory) : Option Memory :=
  (loop32 o.relCount.toNat (fun m i => relocateRel o.moduleBase o.relaOrRel sizeofRel m i) m).bind
    (loop32 o.relaCount.toNat fun m i => relocateRela o.moduleBase o.relaOrRel sizeofRela m i)

/-! ## Symbols -/

/-- The symbol has no place in its module. -/
def isCommon (s : ElfSym) : Bool := if s.shndx ≠ 0 then s.shndx == shnCommon else true

/-- The address of a symbol of the module. -/
def symAt (o : ModuleObject) (i : BitVec 32) : Addr := entryOf o.dynsym sizeofSym i.toNat

/-- The loop of `GetSymbolByName` over a chain. -/
def walkSyms (o : ModuleObject) (m : Memory) (name : List UInt8) :
    ℕ → BitVec 32 → Option (Option Addr)
  | 0, i => if i = 0 then some none else none
  | n + 1, i =>
    if i = 0 then some none
    else
      let sym := readSym m (o.symAt i)
      if isCommon sym = false && strcmpEq m name (o.dynstr + sym.name.setWidth 64) then
        some (some (o.symAt i))
      else walkSyms o m name n (read32 m (entryOf o.hashChain 4 i.toNat))

/-- `GetSymbolByName`: the address of the symbol. -/
def getSymbolByName (n : ℕ) (m : Memory) (o : ModuleObject) (name : List UInt8) :
    Option (Option Addr) :=
  let nameHash := rtldElfHash name
  walkSyms o m name n (read32 m (entryOf o.hashBucket 4 (nameHash % o.hashNbucketValue).toNat))

end ModuleObject

/-- The modules of the load list in the order of its iterator, the lookup that the program may set,
and the address of the resolver. -/
structure LinkEnv where
  autoLoadList : List ModuleObject
  lookupGlobalManual : Option (List UInt8 → Addr)
  runtimeResolve : Addr

open ModuleObject

/-- `lookup_global_auto`. -/
def lookupGlobalAuto (n : ℕ) (m : Memory) (name : List UInt8) : List ModuleObject → Option Addr
  | [] => some 0
  | o :: os =>
    match getSymbolByName n m o name with
    | none => none
    | some none => lookupGlobalAuto n m name os
    | some (some a) =>
      let symbol := readSym m a
      if symbol.bind ≠ 0 then some (o.moduleBase + symbol.value) else lookupGlobalAuto n m name os

namespace ModuleObject

/-- `TryResolveSymbol`: the address of the symbol, if it is resolved. -/
def tryResolveSymbol (env : LinkEnv) (n : ℕ) (m : Memory) (o : ModuleObject) (symbolAddr : Addr) :
    Option (Option Addr) :=
  let symbol := readSym m symbolAddr
  (readCStr m n (o.dynstr + symbol.name.setWidth 64)).bind fun name =>
    if symbol.visibility ≠ 0 then
      (getSymbolByName n m o name).map fun targetSymbol =>
        match targetSymbol with
        | some a => some (o.moduleBase + (readSym m a).value)
        | none => if symbol.bind &&& stbWeak = stbWeak then some 0 else none
    else
      (lookupGlobalAuto n m name env.autoLoadList).map fun address =>
        let address :=
          if address = 0 then (env.lookupGlobalManual.map fun f => f name).getD address else address
        if address ≠ 0 then some address else none

/-! ## Relocations that need a symbol -/

/-- What the two functions for absolute relocations do; `combine` makes the new word from the
address of the symbol and the old word. -/
def resolveAbsolute (env : LinkEnv) (n : ℕ) (o : ModuleObject) (offset info : BitVec 64)
    (combine : Addr → BitVec 64 → BitVec 64) (m : Memory) : Option Memory :=
  if archIsRelAbsolute (rType info) || rType info == archGlobDat then
    (tryResolveSymbol env n m o (o.symAt (rSym info))).map fun target =>
      match target with
      | some address =>
        let ptr := o.moduleBase + offset
        write64 m ptr (combine address (read64 m ptr))
      | none => m
  else some m

/-- `ResolveSymbolRelAbsolute`; the addend is the word in place. -/
def resolveSymbolRelAbsolute (env : LinkEnv) (n : ℕ) (o : ModuleObject) (entry : ElfRel)
    (m : Memory) : Option Memory :=
  resolveAbsolute env n o entry.offset entry.info (fun address old => old + address) m

/-- `ResolveSymbolRelaAbsolute`. -/
def resolveSymbolRelaAbsolute (env : LinkEnv) (n : ℕ) (o : ModuleObject) (entry : ElfRela)
    (m : Memory) : Option Memory :=
  resolveAbsolute env n o entry.offset entry.info (fun address _ => address + entry.addend) m

/-- The module with its `got_stub_ptr` set. -/
def withStub (o : ModuleObject) (stub : Addr) : ModuleObject := { o with gotStubPtr := stub }

/-- What the two functions for the slots of functions do. All slots start at the same stub. -/
def resolveJumpSlot (env : LinkEnv) (n : ℕ) (doLazyGotInit : Bool) (offset info : BitVec 64)
    (combine : Addr → BitVec 64 → BitVec 64) (s : ModuleObject × Memory) :
    Option (ModuleObject × Memory) :=
  let (o, m) := s
  if rType info = archJumpSlot then
    let ptr := o.moduleBase + offset
    let targetAddress := o.moduleBase + read64 m ptr
    let m := if doLazyGotInit then write64 m ptr targetAddress else m
    if o.gotStubPtr ≠ 0 ∧ o.gotStubPtr ≠ targetAddress then none
    else
      let o := if o.gotStubPtr ≠ 0 then o else o.withStub targetAddress
      if doLazyGotInit then some (o, m)
      else
        (tryResolveSymbol env n m o (o.symAt (rSym info))).map fun target =>
          match target with
          | some address => (o, write64 m ptr (combine address (read64 m ptr)))
          | none => (o, write64 m ptr targetAddress)
  else some (o, m)

/-- `ResolveSymbolRelJumpSlot`. -/
def resolveSymbolRelJumpSlot (env : LinkEnv) (n : ℕ) (doLazyGotInit : Bool) (entry : ElfRel)
    (s : ModuleObject × Memory) : Option (ModuleObject × Memory) :=
  resolveJumpSlot env n doLazyGotInit entry.offset entry.info (fun address old => old + address) s

/-- `ResolveSymbolRelaJumpSlot`. -/
def resolveSymbolRelaJumpSlot (env : LinkEnv) (n : ℕ) (doLazyGotInit : Bool) (entry : ElfRela)
    (s : ModuleObject × Memory) : Option (ModuleObject × Memory) :=
  resolveJumpSlot env n doLazyGotInit entry.offset entry.info
    (fun address _ => address + entry.addend) s

/-- The entries of a table from one index to another. -/
def indices (start stop : ℕ) : List ℕ := List.range' start (stop - start)

/-- The loop over the slots of functions. -/
def resolvePlt (env : LinkEnv) (n : ℕ) (doLazyGotInit : Bool) (s : ModuleObject × Memory) :
    Option (ModuleObject × Memory) :=
  let (table, size) := (s.1.relaOrRelPlt, s.1.relaOrRelPltSize.toNat)
  if s.1.isRela then
    if sizeofRela ≤ size then
      loop32 (size / sizeofRela) (fun s i => resolveSymbolRelaJumpSlot env n doLazyGotInit
        (readRela s.2 (entryOf table sizeofRela i)) s) s
    else some s
  else if sizeofRel ≤ size then
    loop32 (size / sizeofRel) (fun s i => resolveSymbolRelJumpSlot env n doLazyGotInit
      (readRel s.2 (entryOf table sizeofRel i)) s) s
  else some s

/-- The words of the table of functions that the stub needs: the module and the resolver. -/
def initGot (env : LinkEnv) (self : Addr) (o : ModuleObject) (m : Memory) : Memory :=
  if o.got ≠ 0 then write64 (write64 m (o.got + 8) self) (o.got + 16) env.runtimeResolve else m

/-- `ResolveSymbols`; `self` is the address of the module object. -/
def resolveSymbols (env : LinkEnv) (n : ℕ) (doLazyGotInit : Bool) (self : Addr) (o : ModuleObject)
    (m : Memory) : Option (ModuleObject × Memory) := do
  let m ← (indices o.relCount.toNat (o.relDynSize.toNat / sizeofRel)).foldlM (fun m i =>
    resolveSymbolRelAbsolute env n o (readRel m (entryOf o.relaOrRel sizeofRel i)) m) m
  let m ← (indices o.relaCount.toNat (o.relaDynSize.toNat / sizeofRela)).foldlM (fun m i =>
    resolveSymbolRelaAbsolute env n o (readRela m (entryOf o.relaOrRel sizeofRela i)) m) m
  let (o, m) ← resolvePlt env n doLazyGotInit (o, m)
  some (o, initGot env self o m)

end ModuleObject

/-! ## Binding at the first call -/

/-- `__rtld_lazy_bind_symbol`. -/
def rtldLazyBindSymbol (env : LinkEnv) (n : ℕ) (m : Memory) (module : ModuleObject) (index : ℕ) :
    Option Addr :=
  if module.isRela then
    let entry := readRela m (entryOf module.relaOrRelPlt sizeofRela index)
    (tryResolveSymbol env n m module (module.symAt (rSym entry.info))).map fun target =>
      match target with
      | some address => if address = 0 then 0 else address + entry.addend
      | none => 0
  else
    let entry := readRel m (entryOf module.relaOrRelPlt sizeofRel index)
    (tryResolveSymbol env n m module (module.symAt (rSym entry.info))).map fun target =>
      target.getD 0

/-- `__rtld_runtime_resolve`: from the third word of the table of functions (`X16`) and the slot,
the index of the slot; what was bound is put into the slot, and jumped to. -/
def rtldRuntimeResolve (env : LinkEnv) (n : ℕ) (module : ModuleObject) (x16 slot : Addr)
    (m : Memory) : Option (Memory × Addr) :=
  let index := (slot - x16 - 8) >>> 3
  (rtldLazyBindSymbol env n m module index.toNat).map fun address =>
    (write64 m slot address, address)

/-! ## Relocating itself -/

/-- What the runtime linker reads of its own dynamic section. -/
structure SelfRelocations where
  rela : Addr := 0
  rel : Addr := 0
  relaEntrySize : BitVec 64 := 24
  relEntrySize : BitVec 64 := 16
  relaEntryCount : BitVec 64 := 0
  relEntryCount : BitVec 64 := 0
  relaSize : BitVec 64 := 0
  relSize : BitVec 64 := 0
  deriving DecidableEq, Repr

/-- An entry of its dynamic section is read. -/
def SelfRelocations.readEntry (aslrBase : Addr) (r : SelfRelocations) (d : ElfDyn) :
    SelfRelocations :=
  match d.tag.toNat with
  | 7 => { r with rela := aslrBase + d.val }
  | 9 => { r with relaEntrySize := d.val }
  | 8 => { r with relaSize := d.val }
  | 17 => { r with rel := aslrBase + d.val }
  | 19 => { r with relEntrySize := d.val }
  | 18 => { r with relSize := d.val }
  | 0x6ffffff9 => { r with relaEntryCount := d.val }
  | 0x6ffffffa => { r with relEntryCount := d.val }
  | _ => r

/-- Where no count is given, the size of the table gives it. -/
def SelfRelocations.counted (r : SelfRelocations) : SelfRelocations :=
  { r with
    relaEntryCount :=
      if r.relaEntryCount = 0 then r.relaSize / r.relaEntrySize else r.relaEntryCount
    relEntryCount := if r.relEntryCount = 0 then r.relSize / r.relEntrySize else r.relEntryCount }

/-- `exl_relocate_self`. -/
def relocateSelf (n : ℕ) (aslrBase dynamic : Addr) (m : Memory) : Option Memory :=
  (readDynamic m n dynamic).map fun ds =>
    let r := (ds.foldl (SelfRelocations.readEntry aslrBase) {}).counted
    let m := (List.range r.relEntryCount.toNat).foldl
      (fun m i => relocateRel aslrBase r.rel r.relEntrySize.toNat m i) m
    (List.range r.relaEntryCount.toNat).foldl
      (fun m i => relocateRela aslrBase r.rela r.relaEntrySize.toNat m i) m

end D3Hack
