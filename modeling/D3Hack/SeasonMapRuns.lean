import D3Hack.ConfigSave
import D3Hack.Runs

/-!
# The season map over a history of edits

A user edits the season number and the season map mode, and each time the configuration is
normalised, or saved and loaded again. The event flags in effect should be those of
`effectiveFlags` on the flags the user set, whatever came before. The map overwrites the
very fields that hold the user's flags, so this holds after each step of exactly the runs
whose steps all meet `KeepsUserFlags` (`after_userFlags_iff`): a step that reads the stored
flags must find the user's own there.
-/

namespace D3Hack

open Toml Runs

/-- An edit of the season number and of the season map mode, and whether the configuration
then goes through the file. -/
structure SeasonEdit where
  season : Option ℕ
  mode : Option SeasonEventMapMode
  viaFile : Bool

namespace SeasonEdit

/-- The edited configuration, before it is normalised. -/
def apply (e : SeasonEdit) (c : PatchConfig) : PatchConfig :=
  { c with
    seasons.currentSeason := e.season.getD c.seasons.currentSeason
    events.seasonMapMode := e.mode.getD c.events.seasonMapMode }

end SeasonEdit

/-- An edit followed by normalising, or by saving and loading. -/
def seasonStep (api : Api) (devMem : Option ℕ) (c : PatchConfig) (e : SeasonEdit) :
    PatchConfig :=
  if e.viaFile then saveReload api devMem (e.apply c)
  else normalizePatchConfig api devMem (e.apply c)

/-- The flags in effect are those of the current season and mode over the user's. -/
def UserFlags (user : SeasonEventFlags) (c : PatchConfig) : Prop :=
  c.events.flags = effectiveFlags c.seasons.currentSeason c.events.seasonMapMode user

/-- The stored flags are the user's wherever a season and a mode read them: nowhere for a
mapped season in mode `MapOnly`, outside the season's map in mode `OverlayConfig`, and
everywhere else. -/
def ReadsUserFlags (season : ℕ) (mode : SeasonEventMapMode) (stored user : SeasonEventFlags) :
    Prop :=
  match mode, buildSeasonEventMap season with
  | .mapOnly, some _ => True
  | .overlayConfig, some map => ∀ f, map f = false → stored f = user f
  | _, _ => stored = user

/-- The edited season and mode find the user's flags where they read the stored ones. -/
def KeepsUserFlags (user : SeasonEventFlags) (c : PatchConfig) (e : SeasonEdit) : Prop :=
  ReadsUserFlags (e.season.getD c.seasons.currentSeason)
    (e.mode.getD c.events.seasonMapMode) c.events.flags user

theorem finite_apply (e : SeasonEdit) {c : PatchConfig} (h : FiniteNumbers c) :
    FiniteNumbers (e.apply c) := ⟨h.1, h.2, h.3, h.4, h.5⟩

/-- Both ways of a step give the normal form of the edited configuration. -/
theorem seasonStep_eq {api : Api} (laws : api.Laws) (devMem : Option ℕ) {c : PatchConfig}
    (h : FiniteNumbers c) (e : SeasonEdit) :
    seasonStep api devMem c e = normalForm devMem (e.apply c) := by
  have hfin := finite_apply e h
  have hn := normalizePatchConfig_eq laws devMem hfin
  unfold seasonStep saveReload
  split_ifs
  · have hfin' := finite_of_canonical (canonical_normalForm devMem hfin)
    rw [hn]
    exact (normalizePatchConfig_eq laws devMem hfin').trans (normalForm_idem devMem hfin)
  · exact hn

/-- A step keeps the numbers finite and the seasons active. -/
theorem seasonStep_invariant {api : Api} (laws : api.Laws) (devMem : Option ℕ)
    {c : PatchConfig} (h : FiniteNumbers c ∧ c.seasons.active = true) (e : SeasonEdit) :
    FiniteNumbers (seasonStep api devMem c e) ∧
      (seasonStep api devMem c e).seasons.active = true := by
  rw [seasonStep_eq laws devMem h.1]
  exact ⟨finite_of_canonical (canonical_normalForm devMem (finite_apply e h.1)), h.2⟩

/-- Two sets of stored flags have the same effect exactly where they are read alike. -/
theorem effectiveFlags_eq_iff (season : ℕ) (mode : SeasonEventMapMode)
    (stored user : SeasonEventFlags) :
    effectiveFlags season mode stored = effectiveFlags season mode user ↔
      ReadsUserFlags season mode stored user := by
  unfold effectiveFlags ReadsUserFlags
  cases buildSeasonEventMap season with
  | none => cases mode <;> exact Iff.rfl
  | some map =>
    cases mode with
    | mapOnly => exact iff_of_true rfl trivial
    | disabled => exact Iff.rfl
    | overlayConfig =>
      refine funext_iff.trans (forall_congr' fun f => ?_)
      cases hf : map f <;> simp [overlaySeasonEventFlags, hf]

/-- A step leads to the user's flags in effect exactly when it finds them where it reads. -/
theorem userFlags_seasonStep_iff {api : Api} (laws : api.Laws) (devMem : Option ℕ)
    (user : SeasonEventFlags) {c : PatchConfig}
    (h : FiniteNumbers c ∧ c.seasons.active = true) (e : SeasonEdit) :
    UserFlags user (seasonStep api devMem c e) ↔ KeepsUserFlags user c e := by
  have hactive : (e.apply c).seasons.active = true := h.2
  have hclamp (flags : SeasonEventFlags) (season : ℕ) (mode : SeasonEventMapMode) :
      effectiveFlags (max 1 (min season 200)) mode flags = effectiveFlags season mode flags := by
    unfold effectiveFlags
    rw [buildSeasonEventMap_clamp]
  have hflags : (seasonStep api devMem c e).events.flags =
      effectiveFlags (e.apply c).seasons.currentSeason (e.apply c).events.seasonMapMode
        c.events.flags := by
    rw [seasonStep_eq laws devMem h.1]
    simp only [normalForm, normalSeasons, hactive, if_true, hclamp]
    rfl
  have hseason : (seasonStep api devMem c e).seasons.currentSeason =
      max 1 (min (e.apply c).seasons.currentSeason 200) := by
    rw [seasonStep_eq laws devMem h.1]
    rfl
  have hmode : (seasonStep api devMem c e).events.seasonMapMode =
      (e.apply c).events.seasonMapMode := by
    rw [seasonStep_eq laws devMem h.1]
    rfl
  rw [UserFlags, hflags, hseason, hmode, hclamp]
  exact effectiveFlags_eq_iff _ _ _ _

/-- Over a history of edits from flags `user`, the flags in effect after each step are those
of the current season and mode over `user` exactly when each step finds the user's flags
where it reads the stored ones. -/
theorem after_userFlags_iff {api : Api} (laws : api.Laws) (devMem : Option ℕ)
    {c : PatchConfig} (hfin : FiniteNumbers c) (hactive : c.seasons.active = true)
    (edits : List SeasonEdit) :
    After (seasonStep api devMem) (UserFlags c.events.flags) c edits ↔
      StepsMeet (seasonStep api devMem) (KeepsUserFlags c.events.flags) c edits :=
  after_iff_stepsMeet (J := fun c => FiniteNumbers c ∧ c.seasons.active = true)
    (fun _ e h => seasonStep_invariant laws devMem h e)
    (fun _ e h => userFlags_seasonStep_iff laws devMem _ h e) ⟨hfin, hactive⟩ edits

/-- From the defaults, simulating season 28 and then season 22 leaves the user's flags out of
both. -/
theorem after_userFlags_default :
    After (seasonStep Api.accessors none) (UserFlags ({} : PatchConfig).events.flags) {}
      [⟨some 28, some .mapOnly, false⟩, ⟨some 22, some .mapOnly, true⟩] :=
  (after_userFlags_iff (Api.laws_ofText _ _) none finite_default rfl _).2
    ⟨trivial, trivial, trivial⟩

/-- Season 22 simulated over the defaults, and the map then turned off. -/
def mapThenDisabled : PatchConfig :=
  run (seasonStep Api.accessors none) {}
    [⟨some 22, some .mapOnly, false⟩, ⟨none, some .disabled, false⟩]

/-- Turning the map off leaves the flags of the simulated season in the user's place. -/
theorem not_userFlags_mapThenDisabled :
    mapThenDisabled.events.seasonMapMode = .disabled ∧
      mapThenDisabled.events.flags .shadowClones = true ∧
      ({} : PatchConfig).events.flags .shadowClones = false ∧
      ¬UserFlags ({} : PatchConfig).events.flags mapThenDisabled := by
  have laws := Api.laws_ofText (fun _ => .ok []) fun _ => []
  have hfin := (seasonStep_invariant laws none ⟨finite_default, rfl⟩
    ⟨some 22, some .mapOnly, false⟩).1
  have hrun : mapThenDisabled = normalForm none (SeasonEdit.apply ⟨none, some .disabled, false⟩
      (normalForm none (SeasonEdit.apply ⟨some 22, some .mapOnly, false⟩ {}))) := by
    rw [mapThenDisabled, run_cons, run_cons, run_nil, Api.accessors, seasonStep_eq laws none hfin,
      seasonStep_eq laws none finite_default]
  have hmode : mapThenDisabled.events.seasonMapMode = .disabled := by rw [hrun]; rfl
  have hflag : mapThenDisabled.events.flags .shadowClones = true := by rw [hrun]; rfl
  refine ⟨hmode, hflag, rfl, fun h => ?_⟩
  have huser := congrFun h .shadowClones
  rw [hflag, hmode] at huser
  cases huser

end D3Hack
