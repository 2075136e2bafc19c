import D3Hack.RtldLookup

/-!
# Relocating itself

The program relocates itself before there is a module object, with a loop of its own
(`relocateSelf`). It reads the dynamic section as `Initialize` does, but for two things: where the
section gives no count, the size of the table gives it, and the relocations with an addend and
those without have a table each, where a module object has a pointer for both. Where all
relocations have addends, it does what `relocate` does to the module, once the module has that count
(`relocateSelf_eq`). A module without a count is one that `relocate` alone would leave as it is.
-/

namespace D3Hack

open WordMemory ModuleObject

/-- The tags about the tables of relocations: `DT_RELA`, `DT_RELASZ`, `DT_RELAENT`, `DT_REL`,
`DT_RELSZ`, `DT_RELENT`, `DT_RELACOUNT` and `DT_RELCOUNT`. -/
def tableTags : List ℕ := [7, 8, 9, 17, 18, 19, 0x6ffffff9, 0x6ffffffa]

/-- An entry about the table of relocations without an addend, or their count. -/
def ElfDyn.IsRel (d : ElfDyn) : Prop := d.tag.toNat ∈ [17, 18, 0x6ffffffa]

instance (d : ElfDyn) : Decidable d.IsRel := inferInstanceAs (Decidable (_ ∈ _))

/-- A module whose count is the one that `relocateSelf` goes by. -/
def ModuleObject.counted (o : ModuleObject) : ModuleObject :=
  { o with relaCount := if o.relaCount = 0 then o.relaDynSize / 24 else o.relaCount }

/-- The two readers agree on the relocations with an addend, and have seen no others. -/
structure SameTables (base : Addr) (r : SelfRelocations) (o : ModuleObject) : Prop where
  base_eq : o.moduleBase = base
  rela : r.rela = o.relaOrRel
  relaSize : r.relaSize = o.relaDynSize
  relaEntryCount : r.relaEntryCount = o.relaCount
  relaEntrySize : r.relaEntrySize = 24
  relSize : r.relSize = 0
  relEntryCount : r.relEntryCount = 0
  relCount : o.relCount = 0

section

variable {base dynamic : Addr} {r : SelfRelocations} {o o' : ModuleObject} {m : Memory}
  {p p' : Addr} {d : ElfDyn} {ds : List ElfDyn} {n : ℕ}

/-- Other entries keep the tables of relocations. -/
theorem SameTables.readEntry_of_other (h : SameTables base r o)
    (hother : ∀ k ∈ tableTags, d.tag.toNat ≠ k)
    (hread : readEntry m (o, p) d = some (o', p')) : SameTables base r o' := by
  unfold ModuleObject.readEntry at hread
  dsimp only at hread
  split at hread
  all_goals try split at hread
  all_goals cases hread
  all_goals first
    | exact ⟨h.base_eq, h.rela, h.relaSize, h.relaEntryCount, h.relaEntrySize, h.relSize,
        h.relEntryCount, h.relCount⟩
    | exact absurd ‹d.tag.toNat = _› (hother _ (by decide))

theorem selfReadEntry_of_other (hother : ∀ k ∈ tableTags, d.tag.toNat ≠ k) :
    r.readEntry base d = r := by
  unfold SelfRelocations.readEntry
  split
  all_goals first
    | rfl
    | exact absurd ‹d.tag.toNat = _› (hother _ (by decide))

/-- A loop whose steps all succeed. -/
theorem loop32_some {S : Type} {count : ℕ} (hcount : count < 2 ^ 32) (f : S → ℕ → S) (s : S) :
    loop32 count (fun s i => some (f s i)) s = some ((List.range count).foldl f s) :=
  (congrFun (loop32_eq hcount _) s).trans List.foldlM_pure

/-- One entry of the section. -/
theorem SameTables.readEntry (h : SameTables base r o) (hrel : ¬d.IsRel)
    (hread : readEntry m (o, p) d = some (o', p')) :
    SameTables base (r.readEntry base d) o' := by
  by_cases htable : d.tag.toNat ∈ tableTags
  · unfold ElfDyn.IsRel at hrel
    unfold tableTags at htable
    unfold ModuleObject.readEntry at hread
    unfold SelfRelocations.readEntry
    simp only [List.mem_cons, List.not_mem_nil, or_false, not_or] at htable hrel
    rcases htable with htag | htag | htag | htag | htag | htag | htag | htag
    · simp only [htag] at hread ⊢
      cases hread
      exact { h with rela := by rw [h.base_eq] }
    · simp only [htag] at hread ⊢
      cases hread
      exact { h with relaSize := rfl }
    · -- `Initialize` asserts the size that `relocateSelf` goes by.
      simp only [htag] at hread ⊢
      split at hread
      · next hval =>
        cases hread
        exact { h with relaEntrySize := hval }
      · cases hread
    · exact absurd htag hrel.1
    · exact absurd htag hrel.2.1
    · simp only [htag] at hread ⊢
      split at hread
      · cases hread
        exact { h with }
      · cases hread
    · simp only [htag] at hread ⊢
      cases hread
      exact { h with relaEntryCount := rfl }
    · exact absurd htag hrel.2.2
  · have hother : ∀ k ∈ tableTags, d.tag.toNat ≠ k := by
      rintro k hk rfl
      exact htable hk
    rw [selfReadEntry_of_other hother]
    exact h.readEntry_of_other hother hread

/-- The whole section. -/
theorem SameTables.readEntries (h : SameTables base r o) (hrel : ∀ d ∈ ds, ¬d.IsRel)
    (hread : ds.foldlM (ModuleObject.readEntry m) (o, p) = some (o', p')) :
    SameTables base (ds.foldl (SelfRelocations.readEntry base) r) o' := by
  induction ds generalizing r o p with
  | nil =>
    cases hread
    exact h
  | cons d ds ih =>
    rw [List.foldlM_cons] at hread
    obtain ⟨⟨o₁, p₁⟩, hfirst, hrest⟩ := Option.bind_eq_some_iff.1 hread
    exact ih (h.readEntry (hrel d List.mem_cons_self) hfirst)
      (fun d' hd' => hrel d' (List.mem_cons_of_mem d hd')) hrest

theorem sameTables_reset : SameTables base {} (ModuleObject.reset {} base dynamic) :=
  ⟨rfl, rfl, rfl, rfl, rfl, rfl, rfl, rfl⟩

/-- What `initializeModule` has read of the tables, `relocateSelf` has read too. -/
theorem sameTables_of_initialize (hds : readDynamic m n dynamic = some ds)
    (hrel : ∀ d ∈ ds, ¬d.IsRel) (hinit : initializeModule n m {} base dynamic = some o) :
    SameTables base (ds.foldl (SelfRelocations.readEntry base) {}) o := by
  unfold initializeModule at hinit
  rw [hds, Option.bind_some] at hinit
  obtain ⟨⟨o', p⟩, hread, rfl⟩ := Option.map_eq_some_iff.1 hinit
  have h := sameTables_reset.readEntries hrel hread
  exact { h with }

/-- **The program relocates itself as it relocates a module.** For a section whose relocations
have addends, `relocateSelf` does what `relocate` does to the module that `Initialize` reads, with
the size of the table for a count that is not there. -/
theorem relocateSelf_eq (hds : readDynamic m n dynamic = some ds) (hrel : ∀ d ∈ ds, ¬d.IsRel)
    (hinit : initializeModule n m {} base dynamic = some o)
    (hcount : o.counted.relaCount.toNat < 2 ^ 32) :
    relocateSelf n base dynamic m = o.counted.relocate m := by
  have h := sameTables_of_initialize hds hrel hinit
  unfold relocateSelf
  rw [hds, Option.map_some]
  generalize ds.foldl (SelfRelocations.readEntry base) {} = r at h ⊢
  have hrelCount : r.counted.relEntryCount.toNat = 0 := by
    unfold SelfRelocations.counted
    rw [if_pos h.relEntryCount, h.relSize]
    exact congrArg BitVec.toNat BitVec.zero_udiv
  have hrelaCount : r.counted.relaEntryCount = o.counted.relaCount := by
    unfold SelfRelocations.counted ModuleObject.counted
    dsimp only
    rw [h.relaEntryCount, h.relaSize, h.relaEntrySize]
  have hsize : r.counted.relaEntrySize.toNat = sizeofRela := congrArg BitVec.toNat h.relaEntrySize
  have htable : r.counted.rela = o.counted.relaOrRel := h.rela
  have hbase : o.counted.moduleBase = base := h.base_eq
  have hnone : o.counted.relCount.toNat = 0 := congrArg BitVec.toNat h.relCount
  unfold ModuleObject.relocate
  dsimp only
  rw [hrelCount, hrelaCount, hsize, htable, hbase, hnone, loop32_some (by decide), Option.bind_some,
    loop32_some hcount, List.range_zero, List.foldl_nil, List.foldl_nil]

end

/-! ### A section without a count -/

/-- A section with a table of two relocations with an addend, at the start of the module. -/
def selfMemory : Memory :=
  [(0x10000, 7), (0x10008, 0x100), (0x10010, 8), (0x10018, 48), (0x10020, 9), (0x10028, 24),
    (0x10100, 0x200), (0x10108, 0x403), (0x10110, 0x40),
    (0x10118, 0x208), (0x10120, 0x403), (0x10128, 0x48)].foldl
      (fun m w => write64 m w.1 w.2) fun _ => 0

/-- A dynamic section with two relocations. -/
def selfDynamic : List ElfDyn := [⟨7, 0x100⟩, ⟨8, 48⟩, ⟨9, 24⟩]

/-- The module that it is read into. -/
def selfModule : ModuleObject where
  moduleBase := 0x10000
  dynamic := 0x10000
  relaOrRel := 0x10100
  relaDynSize := 48

theorem relocateSelf_sample :
    relocateSelf 4 0x10000 0x10000 selfMemory = selfModule.counted.relocate selfMemory :=
  relocateSelf_eq (show readDynamic selfMemory 4 0x10000 = some selfDynamic by decide +kernel)
    (by decide) (by decide +kernel) (by decide)

end D3Hack
