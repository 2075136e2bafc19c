import D3Hack.Config

/-!
# The season event map

`buildSeasonEventMap` gives the event flags of a season, and `applySeasonEventMapIfNeeded`
puts them in place of the configured ones, or over them, as the season map mode says.
-/

namespace D3Hack

/-- `SeasonEventFlags`: one boolean for each flag. -/
abbrev SeasonEventFlags := SeasonEventFlag → Bool

/-- The map defaults with the flags `on` set. -/
def seasonFlags (on : List SeasonEventFlag) : SeasonEventFlags :=
  fun f => f.defaultMap || decide (f ∈ on)

open SeasonEventFlag in
/-- `BuildSeasonEventMap`: the flags of a season, if it is mapped. -/
def buildSeasonEventMap (season : ℕ) : Option SeasonEventFlags :=
  match season with
  | 14 => some (seasonFlags [doubleTreasureGoblins])
  | 15 => some (seasonFlags [doubleBountyBags])
  | 16 => some (seasonFlags [royalGrandeur])
  | 17 => some (seasonFlags [legacyOfNightmares])
  | 18 => some (seasonFlags [triunesWill])
  | 19 => some (seasonFlags [pandemonium])
  | 20 => some (seasonFlags [kanaiPowers])
  | 21 => some (seasonFlags [trialsOfTempests])
  | 22 => some (seasonFlags [shadowClones, fourthKanaisCubeSlot])
  | 24 => some (seasonFlags [etherealItems])
  | 25 => some (seasonFlags [soulShards])
  | 26 => some (seasonFlags [swarmRifts])
  | 27 => some (seasonFlags [sanctifiedItems])
  | 28 => some (seasonFlags [darkAlchemy])
  | 29 => some (seasonFlags [nestingPortals])
  | 30 => some (seasonFlags [soulShards])
  | 31 => some (seasonFlags [kanaiPowers])
  | 32 => some (seasonFlags [etherealItems])
  | 33 => some (seasonFlags [shadowClones, fourthKanaisCubeSlot])
  | 34 => some (seasonFlags [sanctifiedItems])
  | 35 => some (seasonFlags [pandemonium])
  | 36 => some (seasonFlags [soulShards])
  | 37 => some (seasonFlags [kanaiPowers])
  | _ => none

/-- `OverlaySeasonEventFlags`. -/
def overlaySeasonEventFlags (map extra : SeasonEventFlags) : SeasonEventFlags :=
  fun f => map f || extra f

/-- `ApplySeasonEventMapIfNeeded`. -/
def applySeasonEventMapIfNeeded (config : PatchConfig) : PatchConfig :=
  if config.events.seasonMapMode = .disabled then config
  else if !config.seasons.active then config
  else
    match buildSeasonEventMap config.seasons.currentSeason with
    | none => config
    | some map =>
      let merged :=
        if config.events.seasonMapMode = .overlayConfig then
          overlaySeasonEventFlags map config.events.flags
        else map
      { config with events.flags := merged }

/-- The flags in effect for a season and a mode over the configured ones, with the seasons
section active. -/
def effectiveFlags (season : ℕ) (mode : SeasonEventMapMode) (flags : SeasonEventFlags) :
    SeasonEventFlags :=
  match mode, buildSeasonEventMap season with
  | .mapOnly, some map => map
  | .overlayConfig, some map => overlaySeasonEventFlags map flags
  | _, _ => flags

/-- The season map changes the event flags only. -/
theorem applySeasonEventMapIfNeeded_eq (config : PatchConfig) :
    applySeasonEventMapIfNeeded config =
      let effective := effectiveFlags config.seasons.currentSeason config.events.seasonMapMode
        config.events.flags
      { config with
        events.flags := if config.seasons.active then effective else config.events.flags } := by
  unfold applySeasonEventMapIfNeeded effectiveFlags
  cases hm : config.events.seasonMapMode <;> cases ha : config.seasons.active <;>
    cases buildSeasonEventMap config.seasons.currentSeason <;> simp

/-- Seasons past the last mapped one are unmapped. -/
theorem buildSeasonEventMap_of_lt {season : ℕ} (h : 37 < season) :
    buildSeasonEventMap season = none := by
  unfold buildSeasonEventMap
  split <;> first | omega | rfl

/-- The loader's bounds on the season number do not change what it is mapped to. -/
theorem buildSeasonEventMap_clamp (season : ℕ) :
    buildSeasonEventMap (max 1 (min season 200)) = buildSeasonEventMap season := by
  rcases Nat.lt_or_ge 37 season with h | h
  · rw [buildSeasonEventMap_of_lt h, buildSeasonEventMap_of_lt (by omega)]
  · rcases Nat.eq_zero_or_pos season with rfl | h0
    · rfl
    · congr 1
      omega

/-- Applying the map twice is applying it once. -/
theorem effectiveFlags_idem (season : ℕ) (mode : SeasonEventMapMode)
    (flags : SeasonEventFlags) :
    effectiveFlags season mode (effectiveFlags season mode flags) =
      effectiveFlags season mode flags := by
  unfold effectiveFlags
  cases mode <;> cases buildSeasonEventMap season <;>
    simp [overlaySeasonEventFlags, funext_iff]

end D3Hack
