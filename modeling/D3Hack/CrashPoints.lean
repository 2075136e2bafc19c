import D3Hack.ConfigLoad
import Mathlib.Tactic.IntervalCases

/-!
# Where a save stops

Execution can stop after any of the calls of `writeAllAtomic`. The file at the target is then
the one from before, up to the rename of the target to the backup (call 12), and the new one
from the rename of the temporary file to the target (call 13) on; between these two calls
there is none (`stop_writeAllAtomic_replaced`). The loader reads only the target, so
`crashConsistent_stop_iff` says that a load after the stop reads a complete file exactly
outside that gap, and where the file in place is not empty: the loader takes an empty file
for none.
-/

namespace D3Hack

open Calls Toml

section Trace

variable {Site : Type} (place : WriteSite → Site) (path : String) (text : List UInt8)
  (what error : String) (fs : Fs)

/-! ## The states after each call -/

theorem map_trace_ensureConfigRootDirs {p : String} (hr : p ≠ kRootDir) (hh : p ≠ kHackDir) :
    ((ensureConfigRootDirs place error).trace reliable fs).map (· p) =
      List.replicate 3 (fs p) := by
  have hhack : kHackDir ≠ "" := by decide
  simp only [ensureConfigRootDirs, doesFileExistImpl, if_neg hhack, NnFs.createDirectory,
    NnFs.getEntryType, sys]
  have hdir : ∀ (site : Site) (dir : String) (fs : Fs), p ≠ dir →
      (reliable (site, .createDirectory dir) fs).2 p = fs p := fun _ _ _ hp =>
    faulty_of_not_touched _ (by simpa [FsCall.touched] using hp) _
  simp only [Prog.trace_perform_bind, bind_assoc, pure_bind, List.map_cons, hdir _ _ _ hr,
    hdir _ _ _ hh]
  have hstat : ∀ fs, (reliable (place .statHackDir, .getEntryType kHackDir) fs).2 = fs :=
    fun _ => rfl
  rw [hstat, hdir _ _ _ hh, hdir _ _ _ hr]
  split_ifs <;> rfl

/-- The calls on the temporary file, where no directory is in its place. -/
theorem map_trace_writeTemp (htmp : fs (path ++ ".tmp") ≠ some .directory) {p : String}
    (hp : p ≠ path ++ ".tmp") :
    ((writeTemp place path text what error).trace reliable fs).map (· p) =
      List.replicate 6 (fs p) := by
  simp only [writeTemp, NnFs.deleteFile, NnFs.createFile, NnFs.openFile, NnFs.writeFile,
    NnFs.flushFile, NnFs.closeFile, sys, Prog.trace_perform_bind, faulty, Bool.false_eq_true,
    if_false]
  rcases h : fs (path ++ ".tmp") with _ | ⟨c⟩ | _
  · simp [-bind_pure_comp, FsCall.exec, faulty, Fs.fileAt, h, hp, List.replicate]
  · simp [-bind_pure_comp, FsCall.exec, faulty, Fs.fileAt, h, hp, List.replicate]
  · exact absurd h htmp

/-- An existing target: it stays, it is moved to the backup, the text is moved to it. -/
theorem map_trace_replaceTarget {old : List UInt8} (hpath : path ≠ "")
    (htmp : fs (path ++ ".tmp") = some (.file text)) (hold : fs path = some (.file old))
    (hbak : fs (path ++ ".bak") ≠ some .directory) :
    ((replaceTarget place path what error).trace reliable fs).map (· path) =
      [some (.file old), some (.file old), none, some (.file text), some (.file text),
        some (.file text)] := by
  have hbp := bak_ne_self path
  have htp := tmp_ne_self path
  have htb := tmp_ne_bak path
  have hb := (targetPath_bak path).ne_empty
  simp only [replaceTarget, backUpTarget, installTemp, doesFileExist, doesFileExistImpl,
    if_neg hpath, if_neg hb, NnFs.deleteFile, NnFs.renameFile, NnFs.getEntryType, sys]
  rcases h : fs (path ++ ".bak") with _ | ⟨c⟩ | _
  · simp [-bind_pure_comp, FsCall.exec, FsEntry.type, faulty, h, hold, htmp, hbp, htp, htb,
      hbp.symm, htb.symm]
  · simp [-bind_pure_comp, FsCall.exec, FsEntry.type, faulty, h, hold, htmp, hbp, htp, htb,
      hbp.symm, htb.symm]
  · exact absurd h hbak

/-- No existing target, or one that cannot be backed up: it stays, or the text comes to be in
the free place. -/
theorem mem_trace_replaceTarget (hpath : path ≠ "")
    (htmp : fs (path ++ ".tmp") = some (.file text))
    (h : fs.fileAt path = none ∨ fs (path ++ ".bak") = some .directory) :
    ∀ s ∈ (replaceTarget place path what error).trace reliable fs,
      s path = fs path ∨ fs.fileAt path = none ∧ s path = some (.file text) := by
  have hbp := bak_ne_self path
  have htp := tmp_ne_self path
  have htb := tmp_ne_bak path
  have hb := (targetPath_bak path).ne_empty
  simp only [replaceTarget, backUpTarget, installTemp, doesFileExist, doesFileExistImpl,
    if_neg hpath, if_neg hb, NnFs.deleteFile, NnFs.renameFile, NnFs.getEntryType, sys]
  rcases hp : fs path with _ | ⟨old⟩ | _
  · rcases hbak : fs (path ++ ".bak") with _ | ⟨c⟩ | _ <;>
      simp [-bind_pure_comp, FsCall.exec, FsEntry.type, Fs.fileAt, faulty, hp, hbak, htmp, hbp,
        hbp.symm, htb.symm]
  · have hbak : fs (path ++ ".bak") = some .directory := by simpa [Fs.fileAt, hp] using h
    simp [-bind_pure_comp, FsCall.exec, FsEntry.type, faulty, hp, hbak, htmp, htp.symm]
  · rcases hbak : fs (path ++ ".bak") with _ | ⟨c⟩ | _ <;>
      simp [-bind_pure_comp, FsCall.exec, FsEntry.type, Fs.fileAt, faulty, hp, hbak, htmp,
        htp.symm]

/-! ## The whole write -/

/-- No file is where the directory goes, and no directory where the side files go. -/
def Unblocked : Prop :=
  fs.fileAt kHackDir = none ∧ fs (path ++ ".tmp") ≠ some .directory ∧
    fs (path ++ ".bak") ≠ some .directory

theorem dirsReady_iff : DirsReady place (fun _ => false) fs ↔ fs.fileAt kHackDir = none := by
  unfold DirsReady Fs.fileAt
  rcases fs kHackDir with _ | ⟨c⟩ | _ <;> simp

theorem tempWritten_iff :
    TempWritten place (fun _ => false) path fs ↔ fs (path ++ ".tmp") ≠ some .directory := by
  unfold TempWritten FreeAfterDelete Fs.fileAt
  rcases fs (path ++ ".tmp") with _ | ⟨c⟩ | _ <;> simp

/-- The states of a write are those of its parts, up to the first part that fails. -/
theorem trace_writeAllAtomic : ∃ e₁ fs₁ e₂ fs₂,
    (∀ p, p ≠ kRootDir → p ≠ kHackDir → fs₁ p = fs p) ∧
      (∀ p, p ≠ path ++ ".tmp" → fs₂ p = fs₁ p) ∧
        (fs₁ (path ++ ".tmp") ≠ some .directory → fs₂ (path ++ ".tmp") = some (.file text)) ∧
          (writeAllAtomic place path text what error).trace reliable fs =
            (ensureConfigRootDirs place error).trace reliable fs ++
              if fs.fileAt kHackDir = none then
                (writeTemp place path text what e₁).trace reliable fs₁ ++
                  if fs₁ (path ++ ".tmp") ≠ some .directory then
                    (replaceTarget place path what e₂).trace reliable fs₂
                  else []
              else [] := by
  obtain ⟨ok₁, e₁, fs₁, hrun₁, hok₁, hoff₁⟩ :=
    ensureConfigRootDirs_spec place (fun _ => false) error fs
  obtain ⟨ok₂, e₂, fs₂, hrun₂, hok₂, htext, hoff₂⟩ :=
    writeTemp_spec place (fun _ => false) path text what e₁ fs₁
  rw [dirsReady_iff] at hok₁
  rw [tempWritten_iff] at hok₂
  refine ⟨e₁, fs₁, e₂, fs₂, hoff₁, hoff₂, fun h => htext (hok₂.2 h), ?_⟩
  rw [writeAllAtomic, Prog.trace_bind_value _ hrun₁]
  congr 1
  rcases ok₁ with _ | _
  · rw [if_neg (fun h => absurd (hok₁.2 h) (by simp))]
    rfl
  rw [if_pos (hok₁.1 rfl)]
  simp only [if_true]
  rw [Prog.trace_bind_value _ hrun₂]
  congr 1
  rcases ok₂ with _ | _
  · rw [if_neg (fun h => absurd (hok₂.2 h) (by simp))]
    rfl
  · rw [if_pos (hok₂.1 rfl)]
    rfl

/-- A write over an existing file, with nothing in the way: the file from before for eleven
calls, then nothing, then the text. -/
theorem map_trace_writeAllAtomic (hpath : TargetPath path) {old : List UInt8}
    (hold : fs path = some (.file old)) (hun : Unblocked path fs) :
    ((writeAllAtomic place path text what error).trace reliable fs).map (· path) =
      List.replicate 11 (some (.file old)) ++ none :: List.replicate 3 (some (.file text)) := by
  obtain ⟨e₁, fs₁, e₂, fs₂, hoff₁, hoff₂, htext, htrace⟩ :=
    trace_writeAllAtomic place path text what error fs
  have hside₁ : ∀ p, TargetPath p → fs₁ p = fs p := fun p hp =>
    hoff₁ p hp.ne_rootDir hp.ne_hackDir
  have htmp₁ : fs₁ (path ++ ".tmp") ≠ some .directory := by
    rw [hside₁ _ (targetPath_tmp path)]
    exact hun.2.1
  have hold₂ : fs₂ path = some (.file old) := by
    rw [hoff₂ _ (tmp_ne_self path).symm, hside₁ _ hpath, hold]
  have hbak₂ : fs₂ (path ++ ".bak") ≠ some .directory := by
    rw [hoff₂ _ (tmp_ne_bak path).symm, hside₁ _ (targetPath_bak path)]
    exact hun.2.2
  rw [htrace, if_pos hun.1, if_pos htmp₁, List.map_append, List.map_append,
    map_trace_ensureConfigRootDirs place error fs hpath.ne_rootDir hpath.ne_hackDir,
    map_trace_writeTemp place path text what e₁ fs₁ htmp₁ (tmp_ne_self path).symm,
    map_trace_replaceTarget place path text what e₂ fs₂ hpath.ne_empty (htext htmp₁) hold₂ hbak₂,
    hside₁ _ hpath, hold]
  rfl

/-- Any other write: the target stays, or the text comes to be where no file was. -/
theorem mem_trace_writeAllAtomic (hpath : TargetPath path)
    (h : fs.fileAt path = none ∨ ¬Unblocked path fs) :
    ∀ s ∈ (writeAllAtomic place path text what error).trace reliable fs,
      s path = fs path ∨ fs.fileAt path = none ∧ s path = some (.file text) := by
  obtain ⟨e₁, fs₁, e₂, fs₂, hoff₁, hoff₂, htext, htrace⟩ :=
    trace_writeAllAtomic place path text what error fs
  have hside₁ : ∀ p, TargetPath p → fs₁ p = fs p := fun p hp =>
    hoff₁ p hp.ne_rootDir hp.ne_hackDir
  have hpath₂ : fs₂ path = fs path := by rw [hoff₂ _ (tmp_ne_self path).symm, hside₁ _ hpath]
  have hbak₂ : fs₂ (path ++ ".bak") = fs (path ++ ".bak") := by
    rw [hoff₂ _ (tmp_ne_bak path).symm, hside₁ _ (targetPath_bak path)]
  intro s hs
  rw [htrace, List.mem_append] at hs
  rcases hs with hs | hs
  · have hmem := List.mem_map_of_mem (f := (· path)) hs
    rw [map_trace_ensureConfigRootDirs place error fs hpath.ne_rootDir hpath.ne_hackDir] at hmem
    exact Or.inl (List.eq_of_mem_replicate hmem)
  split_ifs at hs with hdir htmp
  · rcases List.mem_append.1 hs with hs | hs
    · refine Or.inl ((Prog.trace_keeps (I := fun s : Fs => s path = fs path) _ ?_
        (only_writeTemp place path text what e₁ (tmp_ne_self path).symm) (hside₁ _ hpath)) s hs)
      intro op s hop hs
      rw [faulty_of_not_touched _ hop, hs]
    · have h₂ : fs₂.fileAt path = none ∨ fs₂ (path ++ ".bak") = some .directory := by
        rw [fileAt_congr hpath₂, hbak₂]
        rw [hside₁ _ (targetPath_tmp path)] at htmp
        exact h.imp_right fun hun => by_contra fun hb => hun ⟨hdir, htmp, hb⟩
      have hres := mem_trace_replaceTarget place path text what e₂ fs₂ hpath.ne_empty
        (htext htmp) h₂ s hs
      rwa [fileAt_congr hpath₂, hpath₂] at hres
  · rw [List.append_nil] at hs
    refine Or.inl ((Prog.trace_keeps (I := fun s : Fs => s path = fs path) _ ?_
      (only_writeTemp place path text what e₁ (tmp_ne_self path).symm) (hside₁ _ hpath)) s hs)
    intro op s hop hs
    rw [faulty_of_not_touched _ hop, hs]
  · simp at hs

/-! ## Stopping -/

theorem stop_writeAllAtomic_replaced (hpath : TargetPath path) {old : List UInt8}
    (hold : fs path = some (.file old)) (hun : Unblocked path fs) (n : ℕ) :
    ((writeAllAtomic place path text what error).stop reliable n fs) path =
      if n ≤ 11 then some (.file old) else if n = 12 then none else some (.file text) := by
  have htrace := map_trace_writeAllAtomic place path text what error fs hpath hold hun
  have hlen := congrArg List.length htrace
  have hstop := congrArg (Option.map (· path))
    ((writeAllAtomic place path text what error).getElem?_trace reliable fs n)
  rw [← List.getElem?_map, List.map_cons, htrace, hold] at hstop
  simp only [List.length_map, List.length_append, List.length_replicate, List.length_cons] at hlen
  rw [hlen, Option.map_some] at hstop
  refine Option.some.inj (hstop.symm.trans ?_)
  rcases Nat.lt_or_ge n 15 with hn | hn
  · rw [min_eq_left (by omega)]
    interval_cases n <;> rfl
  · rw [min_eq_right (by omega), if_neg (by omega), if_neg (by omega)]
    rfl

theorem stop_writeAllAtomic_other (hpath : TargetPath path)
    (h : fs.fileAt path = none ∨ ¬Unblocked path fs) (n : ℕ) :
    ((writeAllAtomic place path text what error).stop reliable n fs) path = fs path ∨
      fs.fileAt path = none ∧
        ((writeAllAtomic place path text what error).stop reliable n fs) path =
          some (.file text) := by
  have hmem := List.mem_of_getElem?
    ((writeAllAtomic place path text what error).getElem?_trace reliable fs n)
  rcases List.mem_cons.1 hmem with hs | hs
  · exact Or.inl (by rw [hs])
  · exact mem_trace_writeAllAtomic place path text what error fs hpath h _ hs

end Trace

/-! ## Crash consistency -/

/-- The text that a load reads with nothing going wrong. -/
def textRead (fs : Fs) : Outcome (Option (List UInt8) × String) :=
  ((readAll id kConfigPath { hasAllocator := true } "").run reliable fs).1

/-- After a save of `text` stopped, a load reads the complete file from before or the complete
new one; or it finds none, where there was none before. -/
def CrashConsistent (text : List UInt8) (before after : Fs) : Prop :=
  ∃ read error, textRead after = .value (read, error) ∧
    ((∃ old, before.fileAt kConfigPath = some old ∧ read = some old) ∨ read = some text ∨
      before.fileAt kConfigPath = none ∧ read = none)

/-- The loader takes an empty file for none. -/
theorem crashConsistent_iff {text : List UInt8} {before after : Fs}
    {read : Option (List UInt8)} (hread : (after.fileAt kConfigPath).filter (· ≠ []) = read) :
    CrashConsistent text before after ↔
      (∃ old, before.fileAt kConfigPath = some old ∧ read = some old) ∨ read = some text ∨
        before.fileAt kConfigPath = none ∧ read = none := by
  have hval : textRead after = .value (read, "") := by
    rw [textRead, readAll_reliable id kConfigPath (by decide) "", hread]
  constructor
  · rintro ⟨read', error, hval', h⟩
    obtain ⟨rfl, -⟩ := Prod.mk.inj (Outcome.value.inj (hval.symm.trans hval'))
    exact h
  · exact fun h => ⟨read, "", hval, h⟩

/-- **A load after a save that stopped reads a complete file exactly outside the gap between
the two renames, and where the file in place is not empty.** -/
theorem crashConsistent_stop_iff (text : List UInt8) (what error : String) (fs : Fs) (n : ℕ) :
    CrashConsistent text fs
        ((writeAllAtomic id kConfigPath text what error).stop reliable n fs) ↔
      ∀ old, fs.fileAt kConfigPath = some old →
        ¬(Unblocked kConfigPath fs ∧ 12 ≤ n) ∧ old ≠ [] ∨
          Unblocked kConfigPath fs ∧ 13 ≤ n ∧ text ≠ [] := by
  have hpath : TargetPath kConfigPath := ⟨by decide, by decide, by decide⟩
  set after := (writeAllAtomic id kConfigPath text what error).stop reliable n fs with hafter
  have hkept : ∀ {content : List UInt8}, after kConfigPath = some (.file content) →
      (after.fileAt kConfigPath).filter (· ≠ []) = if content = [] then none else some content := by
    intro content h
    rw [Fs.fileAt_eq_some.2 h]
    by_cases hc : content = [] <;> simp [hc]
  rcases hold : fs.fileAt kConfigPath with _ | old
  · -- No file before: the load may find none, or the new one.
    refine iff_of_true ?_ (by simp)
    rcases stop_writeAllAtomic_other id kConfigPath text what error fs hpath (Or.inl hold) n with
      h | ⟨-, h⟩
    · have hnone : (after.fileAt kConfigPath).filter (· ≠ []) = none := by
        rw [fileAt_congr h, hold]
        rfl
      exact (crashConsistent_iff hnone).2 (Or.inr (Or.inr ⟨hold, rfl⟩))
    · refine (crashConsistent_iff (hkept h)).2 ?_
      split_ifs
      · exact Or.inr (Or.inr ⟨hold, rfl⟩)
      · exact Or.inr (Or.inl rfl)
  simp only [Option.some.injEq, forall_eq']
  have hold' := Fs.fileAt_eq_some.1 hold
  by_cases hun : Unblocked kConfigPath fs
  · have hstop := stop_writeAllAtomic_replaced id kConfigPath text what error fs hpath hold' hun n
    rw [← hafter] at hstop
    rcases Nat.lt_trichotomy n 12 with hn | rfl | hn
    · rw [if_pos (by omega)] at hstop
      rw [crashConsistent_iff (hkept hstop)]
      by_cases hnil : old = [] <;> simp [hold, hnil, hn, show ¬13 ≤ n by omega]
    · have hnone : (after.fileAt kConfigPath).filter (· ≠ []) = none := by
        simp [Fs.fileAt, hstop]
      rw [crashConsistent_iff hnone]
      simp [hold, hun]
    · rw [if_neg (by omega), if_neg (by omega)] at hstop
      rw [crashConsistent_iff (hkept hstop)]
      by_cases hnil : text = [] <;> simp [hold, hnil, hun, show 12 ≤ n by omega,
        show 13 ≤ n by omega]
  · have hstop : after kConfigPath = some (.file old) := by
      rcases stop_writeAllAtomic_other id kConfigPath text what error fs hpath (Or.inr hun) n with
        h | ⟨h, -⟩
      · exact h.trans hold'
      · simp [hold] at h
    rw [crashConsistent_iff (hkept hstop)]
    by_cases hnil : old = [] <;> simp [hun, hnil, hold]

/-- Execution stops between the two renames: the file is only in the backup, which no load
reads. -/
theorem not_crashConsistent_betweenRenames :
    ¬CrashConsistent [2] (cardWith [(kConfigPath, [1])])
      ((writeAllAtomic id kConfigPath [2] "config file" "").stop reliable 12
        (cardWith [(kConfigPath, [1])])) := by
  rintro ⟨read, error, hval, h⟩
  have hread : textRead ((writeAllAtomic id kConfigPath [2] "config file" "").stop reliable 12
      (cardWith [(kConfigPath, [1])])) = .value (none, "") := by decide +kernel
  obtain ⟨rfl, -⟩ := Prod.mk.inj (Outcome.value.inj (hread.symm.trans hval))
  rcases h with ⟨old, -, h⟩ | h | ⟨h, -⟩
  · cases h
  · cases h
  · exact absurd h (by decide)

end D3Hack
