import D3Hack.RuntimeApply

/-!
# Restart policies

The schema marks each of its settings as safe at runtime or in need of a restart, and
`applyPatchConfigRuntime` reports whether a change needs a restart by rules of its own.

The rules leave out eight of the settings that the schema marks (`unruled`).
`restartAgrees_iff`: a change of marked settings is reported if and only if none of the eight
differ or something that is compared changes with them (`Reported`).
-/

namespace D3Hack

/-- The value of a setting differs. -/
def Entry.Differs (e : Entry) (prev next : PatchConfig) : Prop :=
  match e.accessor with
  | .bool get _ => get prev ≠ get next
  | .u32 _ _ get _ _ => get prev ≠ get next
  | .float _ _ get _ _ => get prev ≠ get next
  | .string _ get _ => get prev ≠ get next

/-- A change of a setting that the schema marks is reported. -/
def RestartAgrees (env : GameEnv) (devMem : Option ℕ) (m : Machine) (prev next : PatchConfig) :
    Prop :=
  (∃ e ∈ kEntries devMem, e.restart = .restartRequired ∧ e.Differs prev next) →
    (applyPatchConfigRuntime env next ⟨m, prev⟩).2.restartRequired = true

/-- The marked settings that no rule compares. -/
def unruled (c : PatchConfig) : Bool × Bool × String × Bool × Bool × Ieee × Ieee × ℕ :=
  (c.overlays.buildlockerWatermark, c.overlays.ddmLabels, c.gui.languageOverride,
    c.debug.enablePubfileDump, c.debug.enableErrorTraces, c.resolutionHack.minResScale,
    c.resolutionHack.maxResScale, c.resolutionHack.clampTextureResolution)

/-- Something differs that the rules compare, or is turned off that stays on. -/
def Reported (prev next : PatchConfig) : Prop :=
  ruled prev ≠ ruled next ∨ prev.resolutionHack.outputHandheldScale = .nan ∨
    (buildlockerOn prev = true ∧ buildlockerOn next = false) ∨
      (prev.events.active = true ∧ next.events.active = false) ∨
        (prev.seasons.active = true ∧ next.seasons.active = false)

section Report

variable (prev next : PatchConfig)

/-- The marked settings are the unruled ones and all ruled ones but one. -/
theorem exists_differs_iff (devMem : Option ℕ) :
    (∃ e ∈ kEntries devMem, e.restart = .restartRequired ∧ e.Differs prev next) ↔
      unruled prev ≠ unruled next ∨
        ruled { prev with seasons.allowOnline := true } ≠
          ruled { next with seasons.allowOnline := true } := by
  simp only [kEntries, overlaysEntries, guiEntries, debugEntries, resolutionHackEntries,
    List.cons_append, List.nil_append, List.exists_mem_cons_iff, List.not_mem_nil, false_and,
    exists_false, Entry.Differs, reduceCtorEq, true_and, false_or, or_false, unruled, ruled, ne_eq,
    Prod.mk.injEq, not_and_or]
  refine ⟨fun h => ?_, fun h => ?_⟩ <;> grind

/-- What the report says. -/
theorem restartRequired_eq_true_iff (env : GameEnv) (m : Machine) :
    (applyPatchConfigRuntime env next ⟨m, prev⟩).2.restartRequired = true ↔
      Reported prev next := by
  have hfalse := restartRequired_eq_false_iff prev (running next)
  rw [rules_agree_iff] at hfalse
  rw [← Bool.not_eq_false, applyPatchConfigRuntime]
  dsimp only
  rw [hfalse, Reported]
  have hlocker : buildlockerOn (running next) = buildlockerOn next := rfl
  have hruled : ruled (running next) = ruled next := rfl
  have hevents : (running next).events.active = next.events.active := rfl
  have hseasons : (running next).seasons.active = next.seasons.active := rfl
  rw [hlocker, hruled, hevents, hseasons]
  simp only [not_and_or, Classical.not_imp, Bool.not_eq_true, ne_eq, not_not]
  grind

/-- **A change of settings that the schema marks is reported if and only if the rules compare
all that differ, or something else that is reported changes too.** -/
theorem restartAgrees_iff (env : GameEnv) (devMem : Option ℕ) (m : Machine) :
    RestartAgrees env devMem m prev next ↔
      (unruled prev = unruled next ∨ Reported prev next) := by
  rw [RestartAgrees, exists_differs_iff, restartRequired_eq_true_iff]
  refine ⟨fun h => ?_, fun h hdiffer => ?_⟩
  · by_cases hu : unruled prev = unruled next
    · exact Or.inl hu
    · exact Or.inr (h (Or.inl hu))
  · rcases h with hu | hreported
    · have hruled := hdiffer.resolve_left (not_not.2 hu)
      refine Or.inl fun heq => hruled ?_
      simp only [ruled, Prod.mk.injEq] at heq ⊢
      grind
    · exact hreported

end Report

/-- Dumping publisher files is turned on: the schema marks the setting, and no restart is
reported. -/
theorem not_restartAgrees_pubfileDump :
    ¬RestartAgrees .complete none {} {} { debug := { enablePubfileDump := true } } := by
  intro h
  have hmarked : ∃ e ∈ kEntries none, e.restart = .restartRequired ∧
      e.Differs {} { debug := { enablePubfileDump := true } } := by
    refine ⟨⟨"debug", "EnablePubFileDump", ["EnablePubFileDump", "PubFileDump"], .restartRequired,
      .bool (·.debug.enablePubfileDump) fun cfg v => { cfg with debug.enablePubfileDump := v }⟩,
      ?_, rfl, Bool.false_ne_true⟩
    simp [kEntries, debugEntries]
  exact absurd (h hmarked) (by decide +kernel)

end D3Hack
