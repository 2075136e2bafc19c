import D3Hack.RuntimeApply

/-!
# The seasonal gate

Two words of the game's code change while it runs: the gate that treats a spawn as seasonal,
and the call that spends a resource. The gate is armed by a game hook and disarmed by the
hook, by a configuration that is applied and by `patchDynamicSeasonal`, always through
`setDynamicSeasonalPatchArmed`, which keeps a flag and a counter next to the word.

`along_gateOk`: after every step of a run the flag and the counter agree with the gate word,
an armed gate was armed by the latest step, and the resource word follows the configuration.
-/

namespace D3Hack

open Runs

/-! ## The two words -/

/-- The instruction that gates the seasonal content. -/
def gateSite : PatchSite := ⟨.dynamicSeasonal, 10⟩

/-- The instruction that is patched for infinite resources. -/
def infiniteMpSite : PatchSite := ⟨.infiniteMp, 1⟩

/-- `k_dynamic_seasonal_restore_tbz`. -/
def kDynamicSeasonalRestoreTbz : PatchWord := .bytes 0xA8 0x00 0x90 0x36

/-- `k_infinite_mp_restore_call`. -/
def kInfiniteMpRestoreCall : PatchWord := .bytes 0x41 0xFF 0xFF 0x97

/-- The word at the gate, which starts as the restore word. -/
def gateWord (m : Machine) : PatchWord := (m.code gateSite).getD kDynamicSeasonalRestoreTbz

/-- The word at the resource call, which starts as the restore word. -/
def infiniteMpWord (m : Machine) : PatchWord := (m.code infiniteMpSite).getD kInfiniteMpRestoreCall

/-! ## Runs -/

/-- A step after the boot: a configuration is applied, the game initialises its common data
with parameters of these creation flags or with none, or `PatchDynamicSeasonal` is called. -/
inductive GateAction where
  | apply (config : PatchConfig)
  | spawn (creationFlags : Option ℕ)
  | bootstrap

/-- The session, with the latest step and the number of changes of the gate word so far. -/
structure GateState where
  session : Session
  latest : Option GateAction := none
  changes : ℕ := 0

/-- What an action does to the session. -/
def gateSession (env : GameEnv) (s : Session) : GateAction → Session
  | .apply config => (applyPatchConfigRuntime env config s).1
  | .spawn creationFlags =>
    { s with machine := updateDynamicSeasonalForSpawn s.globalConfig creationFlags s.machine }
  | .bootstrap => { s with machine := patchDynamicSeasonal s.globalConfig s.machine }

/-- What an action does. -/
def gateStep (env : GameEnv) (s : GateState) (a : GateAction) : GateState :=
  let session := gateSession env s.session a
  { session
    latest := some a
    changes := s.changes + if gateWord session.machine ≠ gateWord s.session.machine then 1 else 0 }

/-- The state after a boot. -/
def bootGate (env : GameEnv) (c : PatchConfig) : GateState := { session := bootSession env c }

/-- What holds of the two words after every step. -/
structure GateOk (s : GateState) : Prop where
  gate : gateWord s.session.machine =
    if s.session.machine.dynamicSeasonalPatchApplied then .nop else kDynamicSeasonalRestoreTbz
  applied : s.session.machine.dynamicSeasonalPatchApplied = true →
    s.session.globalConfig.seasons.active = true ∧
      ∃ flags, s.latest = some (.spawn (some flags)) ∧ flags.testBit 18 = true
  generation : s.session.machine.dynamicSeasonalGeneration = s.changes
  infiniteMp : infiniteMpWord s.session.machine = .nop ↔
    s.session.globalConfig.rareCheats.active = true ∧
      (s.session.globalConfig.rareCheats.superGodMode = true ∨
        s.session.globalConfig.rareCheats.infiniteMp = true)

/-! ## What keeps the gate -/

/-- The gate, its flag and its counter are the same in two machines. -/
structure SameGate (m m' : Machine) : Prop where
  code : m'.code gateSite = m.code gateSite
  applied : m'.dynamicSeasonalPatchApplied = m.dynamicSeasonalPatchApplied
  generation : m'.dynamicSeasonalGeneration = m.dynamicSeasonalGeneration

theorem SameGate.trans {m₁ m₂ m₃ : Machine} (h : SameGate m₁ m₂) (h' : SameGate m₂ m₃) :
    SameGate m₁ m₃ :=
  ⟨h'.code.trans h.code, h'.applied.trans h.applied, h'.generation.trans h.generation⟩

theorem sameGate_patch (m : Machine) {ws : List PatchWrite} (h : gateSite ∉ Writes.keys ws) :
    SameGate m (m.patch ws) :=
  ⟨Writes.apply_of_not_mem h, rfl, rfl⟩

theorem sameGate_setXVars (m : Machine) (ws : List XVarWrite) : SameGate m (m.setXVars ws) :=
  ⟨rfl, rfl, rfl⟩

/-- The gate word follows the flag. -/
def GateFollows (m : Machine) : Prop :=
  gateWord m = if m.dynamicSeasonalPatchApplied then .nop else kDynamicSeasonalRestoreTbz

theorem SameGate.gateWord {m m' : Machine} (h : SameGate m m') : gateWord m' = gateWord m := by
  rw [D3Hack.gateWord, D3Hack.gateWord, h.code]

theorem SameGate.follows {m m' : Machine} (h : SameGate m m') (hm : GateFollows m) :
    GateFollows m' := by
  rw [GateFollows, h.gateWord, h.applied]
  exact hm

/-- The gate is moved to `armed`: its word follows the flag, the counter counts the change of
the word, and the resource call is left. -/
structure GateMoved (armed : Bool) (m m' : Machine) : Prop where
  follows : GateFollows m'
  applied : m'.dynamicSeasonalPatchApplied = armed
  generation : m'.dynamicSeasonalGeneration =
    m.dynamicSeasonalGeneration + if gateWord m' ≠ gateWord m then 1 else 0
  infiniteMp : m'.code infiniteMpSite = m.code infiniteMpSite

theorem SameGate.moved {armed : Bool} {m₁ m₂ m₃ : Machine} (h : SameGate m₁ m₂)
    (hmp : m₂.code infiniteMpSite = m₁.code infiniteMpSite) (h' : GateMoved armed m₂ m₃) :
    GateMoved armed m₁ m₃ := by
  refine ⟨h'.follows, h'.applied, ?_, h'.infiniteMp.trans hmp⟩
  rw [h'.generation, h.generation, h.gateWord]

theorem gateMoved_setDynamicSeasonalPatchArmed (c : PatchConfig) (armed : Bool) {m : Machine}
    (h : GateFollows m) :
    GateMoved (armed && c.seasons.active) m (setDynamicSeasonalPatchArmed c armed m) := by
  by_cases heq : m.dynamicSeasonalPatchApplied = (armed && c.seasons.active)
  · have hsame : setDynamicSeasonalPatchArmed c armed m = m := if_pos heq
    rw [hsame]
    exact ⟨h, heq, by simp, rfl⟩
  · have hset : setDynamicSeasonalPatchArmed c armed m =
        { m.patch [(gateSite, if armed && c.seasons.active then .nop
            else kDynamicSeasonalRestoreTbz)] with
          dynamicSeasonalPatchApplied := armed && c.seasons.active
          dynamicSeasonalGeneration := m.dynamicSeasonalGeneration + 1 } := if_neg heq
    have hword : gateWord (setDynamicSeasonalPatchArmed c armed m) =
        if armed && c.seasons.active then .nop else kDynamicSeasonalRestoreTbz := by
      rw [hset, gateWord]
      simp [Machine.patch, Writes.apply]
    have hne : gateWord (setDynamicSeasonalPatchArmed c armed m) ≠ gateWord m := by
      rw [hword, h]
      rcases hm : m.dynamicSeasonalPatchApplied with _ | _ <;>
        rcases ha : armed && c.seasons.active with _ | _ <;> rw [hm, ha] at heq
      · exact absurd rfl heq
      · simp [kDynamicSeasonalRestoreTbz]
      · simp [kDynamicSeasonalRestoreTbz]
      · exact absurd rfl heq
    refine ⟨?_, by rw [hset], ?_, ?_⟩
    · rw [GateFollows, hword, hset]
    · rw [if_pos hne, hset]
    · rw [hset]
      exact Writes.apply_of_not_mem (by simp [infiniteMpSite, gateSite])

theorem gateMoved_patchDynamicSeasonal (c : PatchConfig) {m : Machine} (h : GateFollows m) :
    GateMoved false m (patchDynamicSeasonal c m) := by
  unfold patchDynamicSeasonal
  split_ifs with hactive
  · have hkeys : ∀ site ∈ [gateSite, infiniteMpSite],
        site ∉ Writes.keys (dynamicSeasonalWrites c) := by
      simp [gateSite, infiniteMpSite, dynamicSeasonalWrites]
    have hsame : SameGate m ((m.setXVars (dynamicSeasonalXVars c)).patch
        (dynamicSeasonalWrites c)) :=
      (sameGate_setXVars m _).trans (sameGate_patch _ (hkeys gateSite (by simp)))
    exact hsame.moved (Writes.apply_of_not_mem (hkeys infiniteMpSite (by simp)))
      (gateMoved_setDynamicSeasonalPatchArmed c false (hsame.follows h))
  · exact gateMoved_setDynamicSeasonalPatchArmed c false h

/-- A spawn arms the gate if its flags are seasonal and seasons are active. -/
theorem gateMoved_updateDynamicSeasonalForSpawn (c : PatchConfig) (creationFlags : Option ℕ)
    {m : Machine} (h : GateFollows m) :
    GateMoved (c.seasons.active && creationFlags.any (·.testBit 18)) m
      (updateDynamicSeasonalForSpawn c creationFlags m) := by
  have hmoved := gateMoved_setDynamicSeasonalPatchArmed c (creationFlags.any (·.testBit 18)) h
  rw [Bool.and_comm] at hmoved
  unfold updateDynamicSeasonalForSpawn
  split_ifs with hactive
  · rcases creationFlags with _ | flags <;> exact hmoved
  · rw [Bool.eq_false_iff.2 hactive, Bool.false_and]
    exact gateMoved_setDynamicSeasonalPatchArmed c false h

/-! ## Applying a configuration -/

theorem infiniteMpEffective_iff (c : PatchConfig) : infiniteMpEffective c = true ↔
    c.rareCheats.active = true ∧
      (c.rareCheats.superGodMode = true ∨ c.rareCheats.infiniteMp = true) := by
  rw [infiniteMpEffective, Bool.and_eq_true, Bool.or_eq_true]

theorem sameGate_patchDynamicEvents (env : GameEnv) (c : PatchConfig) (m : Machine) :
    SameGate m (if c.events.active then patchDynamicEvents env c m else m) ∧
      (if c.events.active then patchDynamicEvents env c m else m).code = m.code := by
  obtain ⟨start, stop, egg, hev⟩ := patchDynamicEvents_ite env c m
  rw [hev]
  exact ⟨⟨rfl, rfl, rfl⟩, rfl⟩

theorem not_mem_keys_patchBuildlocker (c : PatchConfig) {site : PatchSite}
    (h : site ∉ buildlockerSites) : site ∉ Writes.keys (patchBuildlocker c) :=
  fun hmem => h ((keys_patchBuildlocker c).subset hmem)

/-- The seasonal part of an applied configuration. -/
def applySeasons (prev c : PatchConfig) (m : Machine) : Machine :=
  if c.seasons.active then patchDynamicSeasonal c m
  else if prev.seasons.active then updateDynamicSeasonalForSpawn c none m else m

/-- Before its seasonal part, an applied configuration leaves the gate and sets the resource
call where its effect differs. -/
theorem applyEffects_split (env : GameEnv) (prev c : PatchConfig) (m : Machine) : ∃ m₁,
    applyEffects env prev c m = applySeasons prev c m₁ ∧ SameGate m m₁ ∧
    m₁.code infiniteMpSite = if infiniteMpEffective prev != infiniteMpEffective c then
        some (if infiniteMpEffective c then .nop else kInfiniteMpRestoreCall)
      else m.code infiniteMpSite := by
  set m₁ := m.setXVars [(.onlineServicePTR, .bool c.seasons.spoofPtr),
    (.experimentalScheduling, .bool c.resolutionHack.expScheduler)] with hm₁
  set m₂ := if infiniteMpEffective prev != infiniteMpEffective c then
    m₁.patch (patchInfiniteMp (infiniteMpEffective c)) else m₁ with hm₂
  set m₃ := if buildlockerOn c && !buildlockerOn prev then m₂.patch (patchBuildlocker c) else m₂
    with hm₃
  have hsame₁ : SameGate m m₁ := sameGate_setXVars m _
  have hsame₂ : SameGate m m₂ := by
    refine hsame₁.trans ?_
    rw [hm₂]
    split_ifs
    · exact sameGate_patch m₁ (by simp [patchInfiniteMp, gateSite])
    · exact ⟨rfl, rfl, rfl⟩
  have hsame₃ : SameGate m₂ m₃ := by
    rw [hm₃]
    split_ifs
    · exact sameGate_patch m₂ (not_mem_keys_patchBuildlocker c (by decide))
    · exact ⟨rfl, rfl, rfl⟩
  have hmp₃ : m₃.code infiniteMpSite = m₂.code infiniteMpSite := by
    rw [hm₃]
    split_ifs
    · exact Writes.apply_of_not_mem (not_mem_keys_patchBuildlocker c (by decide))
    · rfl
  have hmp₂ : m₂.code infiniteMpSite =
      if infiniteMpEffective prev != infiniteMpEffective c then
        some (if infiniteMpEffective c then .nop else kInfiniteMpRestoreCall)
      else m.code infiniteMpSite := by
    rw [hm₂]
    split_ifs <;>
      simp_all [patchInfiniteMp, infiniteMpSite, kInfiniteMpRestoreCall, Machine.patch,
        Machine.setXVars, Writes.apply]
  obtain ⟨hsame₄, hcode₄⟩ := sameGate_patchDynamicEvents env c m₃
  refine ⟨_, rfl, (hsame₂.trans hsame₃).trans hsame₄, ?_⟩
  exact (congrFun hcode₄ _).trans (hmp₃.trans hmp₂)

/-- The seasonal part moves the gate to closed. -/
theorem gateMoved_applySeasons {prev c : PatchConfig} {m : Machine} (h : GateFollows m)
    (hprev : m.dynamicSeasonalPatchApplied = true → prev.seasons.active = true) :
    GateMoved false m (applySeasons prev c m) := by
  unfold applySeasons
  split_ifs with hc hp
  · exact gateMoved_patchDynamicSeasonal c h
  · have hmoved := gateMoved_updateDynamicSeasonalForSpawn c none h
    rwa [Bool.eq_false_iff.2 hc, Bool.false_and] at hmoved
  · exact ⟨h, Bool.eq_false_iff.2 fun ha => hp (hprev ha), by simp, rfl⟩

/-! ## The boot -/

/-- A boot leaves the gate as the game has it. -/
theorem mainInit_gateSite (env : GameEnv) (c : PatchConfig) :
    (mainInit env c).code gateSite = none := by
  rw [Option.eq_none_iff_forall_ne_some]
  intro word hword
  have hmem := (mainInit_code env c _ _).1 hword
  have hkeys := (((Guarded.emit_sublist staticBlocks c).map Prod.fst).append
    (keys_liveWrites env c)).subset
      (by rw [← List.map_append]; exact List.mem_map_of_mem (f := Prod.fst) hmem)
  have hnot : gateSite ∉ bootSites := by decide +kernel
  exact hnot hkeys

theorem mainInit_infiniteMpSite (env : GameEnv) (c : PatchConfig) :
    (mainInit env c).code infiniteMpSite =
      some (if infiniteMpEffective c then .nop else kInfiniteMpRestoreCall) := by
  refine (mainInit_code env c _ _).2 (List.mem_append_right _ ?_)
  rw [liveWrites]
  exact List.mem_append_right _ (List.mem_singleton.2 rfl)

theorem gateOk_bootGate (env : GameEnv) (c : PatchConfig) : GateOk (bootGate env c) := by
  have happlied := (mainInit_spec env c).2.2.2
  refine ⟨?_, fun h => ?_, mainInit_dynamicSeasonalGeneration env c, ?_⟩
  · rw [bootGate, bootSession, gateWord, mainInit_gateSite, happlied]
    rfl
  · rw [bootGate, bootSession, happlied] at h
    cases h
  · rw [bootGate, bootSession, infiniteMpWord, mainInit_infiniteMpSite, ← infiniteMpEffective_iff]
    rcases infiniteMpEffective c with _ | _ <;> simp [kInfiniteMpRestoreCall]

/-! ## Every step -/

/-- A step moves the gate to armed for a seasonal spawn, and to closed otherwise; before that it
sets the resource call as the configuration it leaves asks. -/
theorem gateSession_spec (env : GameEnv) {s : GateState} (h : GateOk s) (a : GateAction) :
    ∃ m₁ armed, SameGate s.session.machine m₁ ∧
      GateMoved armed m₁ (gateSession env s.session a).machine ∧
      (armed = true → (gateSession env s.session a).globalConfig.seasons.active = true ∧
        ∃ flags, a = .spawn (some flags) ∧ flags.testBit 18 = true) ∧
      (infiniteMpWord m₁ = .nop ↔
        infiniteMpEffective (gateSession env s.session a).globalConfig = true) := by
  have hmp : infiniteMpWord s.session.machine = .nop ↔
      infiniteMpEffective s.session.globalConfig = true :=
    h.infiniteMp.trans (infiniteMpEffective_iff _).symm
  cases a with
  | apply config =>
    obtain ⟨m₁, hsplit, hsame, hcode⟩ := applyEffects_split env s.session.globalConfig
      (running config) s.session.machine
    have hprev : m₁.dynamicSeasonalPatchApplied = true →
        s.session.globalConfig.seasons.active = true := by
      rw [hsame.applied]
      exact fun happlied => (h.applied happlied).1
    refine ⟨m₁, false, hsame, ?_, fun ha => absurd ha Bool.false_ne_true, ?_⟩
    · rw [gateSession, applyPatchConfigRuntime]
      dsimp only
      rw [hsplit]
      exact gateMoved_applySeasons (hsame.follows h.gate) hprev
    · change infiniteMpWord m₁ = .nop ↔ infiniteMpEffective (running config) = true
      rw [infiniteMpWord, hcode]
      split_ifs with hdiff heff
      · exact iff_of_true rfl heff
      · exact iff_of_false (by simp [kInfiniteMpRestoreCall]) heff
      · rw [Bool.not_eq_true, bne_eq_false_iff_eq] at hdiff
        rw [← hdiff]
        exact hmp
  | spawn creationFlags =>
    refine ⟨s.session.machine, _, ⟨rfl, rfl, rfl⟩,
      gateMoved_updateDynamicSeasonalForSpawn s.session.globalConfig creationFlags h.gate,
      fun harmed => ?_, hmp⟩
    rw [Bool.and_eq_true] at harmed
    obtain ⟨hactive, hany⟩ := harmed
    rcases creationFlags with _ | flags
    · cases hany
    · exact ⟨hactive, flags, rfl, hany⟩
  | bootstrap =>
    exact ⟨s.session.machine, false, ⟨rfl, rfl, rfl⟩,
      gateMoved_patchDynamicSeasonal s.session.globalConfig h.gate,
      fun ha => absurd ha Bool.false_ne_true, hmp⟩

theorem gateOk_gateStep (env : GameEnv) {s : GateState} (h : GateOk s) (a : GateAction) :
    GateOk (gateStep env s a) := by
  obtain ⟨m₁, armed, hsame, hmoved, harmed, hmp⟩ := gateSession_spec env h a
  refine ⟨hmoved.follows, fun happlied => ?_, ?_, ?_⟩
  · obtain ⟨hactive, flags, rfl, hflags⟩ := harmed (hmoved.applied.symm.trans happlied)
    exact ⟨hactive, flags, rfl, hflags⟩
  · have hgen := hmoved.generation
    rw [hsame.generation, hsame.gateWord, h.generation] at hgen
    exact hgen
  · have hword : infiniteMpWord (gateSession env s.session a).machine = infiniteMpWord m₁ := by
      rw [infiniteMpWord, infiniteMpWord, hmoved.infiniteMp]
    rw [← infiniteMpEffective_iff]
    exact (iff_of_eq (congrArg (· = PatchWord.nop) hword)).trans hmp

/-- **After every step of every run the gate, its flag and its counter agree, an armed gate was
armed by the latest step, and the resource call follows the configuration.** -/
theorem along_gateOk (env : GameEnv) (boot : PatchConfig) (actions : List GateAction) :
    Along (gateStep env) GateOk (bootGate env boot) actions :=
  along_invariant (P := GateOk) (fun _ a h => gateOk_gateStep env h a) (gateOk_bootGate env boot)
    actions

end D3Hack
