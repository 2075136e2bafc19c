import D3Hack.Config
import D3Hack.Toml

/-!
# The settings schema

`kEntries` lists the settings that are read and written through a schema, each with its
section, its key, the aliases accepted on reads, its restart policy and its accessor.
`applyTomlTable` reads them from a TOML root, one entry after the other, and
`insertIntoToml` writes them to one.

The accessor of an entry carries the bounds and the parser of its kind, so an entry whose
kind and accessor disagree cannot be written down. The largest output target depends on the
developer memory mode, which every reader takes as the parameter `devMem` (`none` where the
game's pointer to it is null).
-/

namespace D3Hack

open Toml

/-! ## Reading values -/

/-- `ReadValue`: the value of the first alias that has one. -/
def readValue {α : Type} (value : Node → Option α) (table : Table) (keys : List String) :
    Option α :=
  keys.findSome? fun key => (table.get key).bind value

/-- `ReadNumber`: each alias is tried as a double, then as an integer. -/
def readNumber (api : Api) (table : Table) (keys : List String) : Option Ieee :=
  keys.findSome? fun key => (table.get key).bind fun node =>
    (api.valueDouble node).or ((api.valueInt node).map fun i => .fin i)

/-- `std::isspace`. -/
def isSpace (c : Char) : Bool := c = ' ' || (decide ('\t' ≤ c) && decide (c ≤ '\r'))

/-- `NormalizeKey`: spaces, underscores and dashes dropped, letters in lower case. -/
def normalizeKey (input : String) : String :=
  String.ofList
    ((input.toList.filter fun ch => !(isSpace ch || ch = '_' || ch = '-')).map Char.toLower)

/-- `std::from_chars` on the whole input, for a `u32`. -/
def fromCharsU32 (input : String) : Option ℕ :=
  let digits := input.toList
  if digits ≠ [] ∧ digits.all Char.isDigit then
    let value := digits.foldl (fun n c => 10 * n + (c.toNat - '0'.toNat)) 0
    if value < 2 ^ 32 then some value else none
  else none

/-- `ParseResolutionHackOutputTarget`. -/
def parseResolutionHackOutputTarget (input : String) (fallback : ℕ) : ℕ :=
  let normalized := normalizeKey input
  if normalized = "" then fallback
  else if normalized = "default" ∨ normalized = "unchanged" then 900
  else if normalized = "720" ∨ normalized = "720p" then 720
  else if normalized = "900" ∨ normalized = "900p" then 900
  else if normalized = "1080" ∨ normalized = "1080p" ∨ normalized = "fhd" then 1080
  else if normalized = "1440" ∨ normalized = "1440p" ∨ normalized = "2k" ∨
      normalized = "qhd" then 1440
  else if normalized = "2160" ∨ normalized = "2160p" ∨ normalized = "4k" ∨
      normalized = "uhd" then 2160
  else
    match fromCharsU32 normalized with
    | some value => if 0 < value then value else fallback
    | none => fallback

/-! ## Entries -/

/-- Whether a change of the setting takes effect without a restart. -/
inductive RestartPolicy where
  | runtimeSafe
  | restartRequired
  deriving DecidableEq

/-- The accessors and the numeric metadata of a setting, by the kind of its value. -/
inductive Accessor where
  | bool (get : PatchConfig → Bool) (set : PatchConfig → Bool → PatchConfig)
  | u32 (minU maxU : ℕ) (get : PatchConfig → ℕ) (set : PatchConfig → ℕ → PatchConfig)
      (parseStr : Option (String → ℕ → ℕ))
  | float (minF maxF : ℚ) (get : PatchConfig → Ieee) (set : PatchConfig → Ieee → PatchConfig)
      (parseStr : Option (String → Ieee → Ieee))
  | string (omitIfEmpty : Bool) (get : PatchConfig → String)
      (set : PatchConfig → String → PatchConfig)

/-- A schema entry. -/
structure Entry where
  sec : String
  /-- The canonical key, for writes. -/
  key : String
  /-- The aliases, for reads. -/
  keys : List String
  restart : RestartPolicy
  accessor : Accessor

/-- `MaxResolutionHackOutputTarget`. -/
def maxResolutionHackOutputTarget (devMem : Option ℕ) : ℕ :=
  match devMem with
  | some mode => if mode ≠ 0 then 2160 else 1440
  | none => 1440

/-- `SetReshackOutputTarget`. -/
def setReshackOutputTarget (devMem : Option ℕ) (cfg : PatchConfig) (v : ℕ) : PatchConfig :=
  { cfg with resolutionHack.targetResolution := min v (maxResolutionHackOutputTarget devMem) }

/-- `SetReshackOutputHandheldScale`: a value up to one is a fraction. -/
def setReshackOutputHandheldScale (cfg : PatchConfig) (v : Ieee) : PatchConfig :=
  let percent := if Ieee.lt (.fin 0) v && v.le (.fin 1) then v.scale 100 else v
  let normalized := ResolutionHackConfig.normalizeHandheldScale percent
  { cfg with resolutionHack.outputHandheldScale := normalized }

/-- `SetReshackMinResScale`: the maximum is raised to the new minimum. -/
def setReshackMinResScale (cfg : PatchConfig) (v : Ieee) : PatchConfig :=
  let r := cfg.resolutionHack
  let minScale := v.clamp (.fin 10) (.fin 100)
  let maxScale := if r.maxResScale.lt minScale then minScale else r.maxResScale
  { cfg with resolutionHack := { r with minResScale := minScale, maxResScale := maxScale } }

/-- `SetReshackMaxResScale`: the minimum is lowered to the new maximum. -/
def setReshackMaxResScale (cfg : PatchConfig) (v : Ieee) : PatchConfig :=
  let r := cfg.resolutionHack
  let maxScale := v.clamp (.fin 10) (.fin 100)
  let minScale := if maxScale.lt r.minResScale then maxScale else r.minResScale
  { cfg with resolutionHack := { r with minResScale := minScale, maxResScale := maxScale } }

/-- `SetReshackClampTextureResolution`: zero turns the clamp off. -/
def setReshackClampTextureResolution (cfg : PatchConfig) (v : ℕ) : PatchConfig :=
  let stored :=
    if v = 0 then 0
    else max ResolutionHackConfig.kClampTextureResolutionMin
      (min v ResolutionHackConfig.kClampTextureResolutionMax)
  { cfg with resolutionHack.clampTextureResolution := stored }

/-- The keys of the switch of a section. -/
def kKeysSectionEnabled : List String := ["SectionEnabled", "Enabled", "Active"]

/-- The keys of the target resolution. -/
def kKeysReshackOutputTarget : List String :=
  ["OutputTarget", "OutputHeight", "Height", "OutputVertical", "Vertical", "OutputRes",
    "OutputResolution", "OutputWidth", "Width"]

/-- The entries of `overlays`. -/
def overlaysEntries : List Entry :=
  [ ⟨"overlays", "SectionEnabled", kKeysSectionEnabled, .runtimeSafe,
      .bool (·.overlays.active) fun cfg v => { cfg with overlays.active := v }⟩,
    ⟨"overlays", "BuildLockerWatermark", ["BuildLockerWatermark", "BuildlockerWatermark"],
      .restartRequired, .bool (·.overlays.buildlockerWatermark)
        fun cfg v => { cfg with overlays.buildlockerWatermark := v }⟩,
    ⟨"overlays", "DDMLabels", ["DDMLabels", "DebugLabels"], .restartRequired,
      .bool (·.overlays.ddmLabels) fun cfg v => { cfg with overlays.ddmLabels := v }⟩,
    ⟨"overlays", "FPSLabel", ["FPSLabel", "DrawFPSLabel"], .runtimeSafe,
      .bool (·.overlays.fpsLabel) fun cfg v => { cfg with overlays.fpsLabel := v }⟩,
    ⟨"overlays", "VariableResLabel",
      ["VariableResLabel", "VarResLabel", "DrawVariableResolutionLabel"], .runtimeSafe,
      .bool (·.overlays.varResLabel) fun cfg v => { cfg with overlays.varResLabel := v }⟩ ]

/-- The entries of `gui`. -/
def guiEntries : List Entry :=
  [ ⟨"gui", "Enabled", ["Enabled", "SectionEnabled", "Active"], .runtimeSafe,
      .bool (·.gui.enabled) fun cfg v => { cfg with gui.enabled := v }⟩,
    ⟨"gui", "Visible", ["Visible", "Show", "WindowVisible"], .runtimeSafe,
      .bool (·.gui.visible) fun cfg v => { cfg with gui.visible := v }⟩,
    ⟨"gui", "AllowLeftStickPassthrough",
      ["AllowLeftStickPassthrough", "LeftStickPassthrough", "AllowLeftStickThrough"],
      .runtimeSafe, .bool (·.gui.allowLeftStickPassthrough)
        fun cfg v => { cfg with gui.allowLeftStickPassthrough := v }⟩,
    ⟨"gui", "Language", ["Language", "Lang", "Locale"], .restartRequired,
      .string true (·.gui.languageOverride)
        fun cfg v => { cfg with gui.languageOverride := v }⟩ ]

/-- The entries of `debug`. -/
def debugEntries : List Entry :=
  [ ⟨"debug", "SectionEnabled", kKeysSectionEnabled, .runtimeSafe,
      .bool (·.debug.active) fun cfg v => { cfg with debug.active := v }⟩,
    ⟨"debug", "Acknowledge_god_jester", ["Acknowledge_god_jester"], .restartRequired,
      .bool (·.debug.enableCrashes) fun cfg v => { cfg with debug.enableCrashes := v }⟩,
    ⟨"debug", "EnablePubFileDump", ["EnablePubFileDump", "PubFileDump"], .restartRequired,
      .bool (·.debug.enablePubfileDump) fun cfg v => { cfg with debug.enablePubfileDump := v }⟩,
    ⟨"debug", "EnableErrorTraces", ["EnableErrorTraces", "ErrorTraces"], .restartRequired,
      .bool (·.debug.enableErrorTraces) fun cfg v => { cfg with debug.enableErrorTraces := v }⟩,
    ⟨"debug", "EnableDebugFlags", ["EnableDebugFlags", "DebugFlags"], .restartRequired,
      .bool (·.debug.enableDebugFlags) fun cfg v => { cfg with debug.enableDebugFlags := v }⟩,
    ⟨"debug", "SpoofNetworkFunctions", ["SpoofNetworkFunctions", "SpoofNetwork", "TagNX"],
      .restartRequired, .bool (·.debug.tagnx) fun cfg v => { cfg with debug.tagnx := v }⟩,
    ⟨"debug", "EnableExceptionHandler", ["EnableExceptionHandler", "ExceptionHandler"],
      .restartRequired, .bool (·.debug.enableExceptionHandler)
        fun cfg v => { cfg with debug.enableExceptionHandler := v }⟩,
    ⟨"debug", "EnableOeNotificationHook", ["EnableOeNotificationHook", "OeNotificationHook"],
      .restartRequired, .bool (·.debug.enableOeNotificationHook)
        fun cfg v => { cfg with debug.enableOeNotificationHook := v }⟩,
    ⟨"debug", "LogOeNotificationMessages",
      ["LogOeNotificationMessages", "LogNotificationMessages"], .runtimeSafe,
      .bool (·.debug.logOeNotificationMessages)
        fun cfg v => { cfg with debug.logOeNotificationMessages := v }⟩ ]

/-- The entries of `resolution_hack`. -/
def resolutionHackEntries (devMem : Option ℕ) : List Entry :=
  [ ⟨"resolution_hack", "SectionEnabled", kKeysSectionEnabled, .restartRequired,
      .bool (·.resolutionHack.active) fun cfg v => { cfg with resolutionHack.active := v }⟩,
    ⟨"resolution_hack", "OutputTarget", kKeysReshackOutputTarget, .restartRequired,
      .u32 720 2160 (·.resolutionHack.targetResolution) (setReshackOutputTarget devMem)
        (some parseResolutionHackOutputTarget)⟩,
    ⟨"resolution_hack", "OutputHandheldScale",
      ["OutputHandheldScale", "HandheldScale", "HandheldOutputScale"], .restartRequired,
      .float 0 ResolutionHackConfig.kHandheldScaleMax (·.resolutionHack.outputHandheldScale)
        setReshackOutputHandheldScale none⟩,
    ⟨"resolution_hack", "MinResScale",
      ["MinScale", "MinimumScale", "MinResScale", "MinimumResScale", "MinResolutionScale",
        "MinimumResolutionScale"], .restartRequired,
      .float 10 100 (·.resolutionHack.minResScale) setReshackMinResScale none⟩,
    ⟨"resolution_hack", "MaxResScale",
      ["MaxScale", "MaximumScale", "MaxResScale", "MaximumResScale", "MaxResolutionScale",
        "MaximumResolutionScale"], .restartRequired,
      .float 10 100 (·.resolutionHack.maxResScale) setReshackMaxResScale none⟩,
    ⟨"resolution_hack", "ClampTextureResolution",
      ["ClampTextureResolution", "ClampTextureHeight", "ClampTexture", "ClampTextureRes"],
      .restartRequired,
      .u32 0 ResolutionHackConfig.kClampTextureResolutionMax
        (·.resolutionHack.clampTextureResolution) setReshackClampTextureResolution none⟩,
    ⟨"resolution_hack", "SpoofDocked", ["SpoofDocked", "SpoofDock", "DockedSpoof"],
      .restartRequired, .bool (·.resolutionHack.spoofDocked)
        fun cfg v => { cfg with resolutionHack.spoofDocked := v }⟩,
    ⟨"resolution_hack", "ExperimentalScheduler",
      ["ExperimentalScheduler", "ExpScheduler", "ExperimentalScheduling", "ExpScheduling"],
      .runtimeSafe, .bool (·.resolutionHack.expScheduler)
        fun cfg v => { cfg with resolutionHack.expScheduler := v }⟩ ]

/-- `k_entries`. -/
def kEntries (devMem : Option ℕ) : List Entry :=
  overlaysEntries ++ guiEntries ++ debugEntries ++ resolutionHackEntries devMem

/-! ## Reading the schema -/

/-- The number an entry bounds, clamped when its bounds are in order. -/
def clampNumber (v lo hi : Ieee) : Ieee := if lo.lt hi then v.clamp lo hi else v

/-- The setting of an entry read from the table of its section. -/
def applyEntry (api : Api) (table : Table) (config : PatchConfig) (e : Entry) : PatchConfig :=
  match e.accessor with
  | .bool _ set =>
    match readValue api.valueBool table e.keys with
    | some v => set config v
    | none => config
  | .u32 minU maxU get set parseStr =>
    match readNumber api table e.keys with
    | some v =>
      let clamped := clampNumber v (.fin minU) (.fin maxU)
      if Ieee.le (.fin 0) clamped && clamped.isFinite && clamped.le (.fin (2 ^ 32 - 1)) then
        set config (clamped.toNat 32)
      else config
    | none =>
      match parseStr, readValue api.valueString table e.keys with
      | some parse, some s => set config (parse s (get config))
      | _, _ => config
  | .float minF maxF get set parseStr =>
    match readNumber api table e.keys with
    | some v =>
      let clamped := clampNumber v (.fin minF) (.fin maxF)
      if clamped.isFinite then set config clamped else config
    | none =>
      match parseStr, readValue api.valueString table e.keys with
      | some parse, some s => set config (parse s (get config))
      | _, _ => config
  | .string _ _ set =>
    match readValue api.valueString table e.keys with
    | some v => set config v
    | none => config

/-- The setting of an entry read from the root, where its section is a table. -/
def applyEntryOf (api : Api) (root : Table) (config : PatchConfig) (e : Entry) : PatchConfig :=
  match subtable root e.sec with
  | some table => applyEntry api table config e
  | none => config

/-- `ApplyTomlTable`. -/
def applyTomlTable (api : Api) (devMem : Option ℕ) (config : PatchConfig) (root : Table) :
    PatchConfig :=
  (kEntries devMem).foldl (applyEntryOf api root) config

/-! ## Invariants of the schema reader -/

/-- What the setter of an entry keeps, for each value the reader may give it. -/
def Entry.Preserves (I : PatchConfig → Prop) (e : Entry) : Prop :=
  match e.accessor with
  | .bool _ set => ∀ c v, I c → I (set c v)
  | .u32 _ _ _ set _ => ∀ c v, I c → I (set c v)
  | .float _ _ get set parseStr =>
    (∀ c q, I c → I (set c (.fin q))) ∧
      ∀ parse, parseStr = some parse → ∀ c s, I c → I (set c (parse s (get c)))
  | .string _ _ set => ∀ c v, I c → I (set c v)

/-- Reading one entry keeps what its setter keeps. -/
theorem applyEntry_preserves {I : PatchConfig → Prop} {e : Entry} (he : e.Preserves I)
    (api : Api) (table : Table) {c : PatchConfig} (hc : I c) : I (applyEntry api table c e) := by
  unfold Entry.Preserves at he
  unfold applyEntry
  cases ha : e.accessor with
  | bool get set =>
    simp only [ha] at he ⊢
    cases readValue api.valueBool table e.keys with
    | some v => exact he c v hc
    | none => exact hc
  | u32 minU maxU get set parseStr =>
    simp only [ha] at he ⊢
    cases readNumber api table e.keys with
    | some v =>
      dsimp only
      split_ifs
      · exact he c _ hc
      · exact hc
    | none =>
      cases parseStr <;> cases readValue api.valueString table e.keys <;>
        first | exact hc | exact he c _ hc
  | float minF maxF get set parseStr =>
    simp only [ha] at he ⊢
    cases readNumber api table e.keys with
    | some v =>
      dsimp only
      cases clampNumber v (.fin minF) (.fin maxF) with
      | fin q => exact he.1 c q hc
      | nan | posInf | negInf => exact hc
    | none =>
      cases parseStr <;> cases readValue api.valueString table e.keys <;>
        first | exact hc | exact he.2 _ rfl c _ hc
  | string omitIfEmpty get set =>
    simp only [ha] at he ⊢
    cases readValue api.valueString table e.keys with
    | some v => exact he c v hc
    | none => exact hc

/-- Reading entries keeps what each of their setters keeps. -/
theorem foldl_applyEntryOf_preserves {I : PatchConfig → Prop} (api : Api) (root : Table) :
    ∀ {entries : List Entry}, (∀ e ∈ entries, e.Preserves I) → ∀ {c : PatchConfig}, I c →
      I (entries.foldl (applyEntryOf api root) c)
  | [], _, _, hc => hc
  | e :: entries, h, c, hc => by
    refine foldl_applyEntryOf_preserves api root
      (fun e' he' => h e' (List.mem_cons_of_mem _ he')) ?_
    unfold applyEntryOf
    cases subtable root e.sec with
    | some table => exact applyEntry_preserves (h e List.mem_cons_self) api table hc
    | none => exact hc

theorem applyTomlTable_preserves {I : PatchConfig → Prop} {devMem : Option ℕ}
    (h : ∀ e ∈ kEntries devMem, e.Preserves I) (api : Api) (root : Table) {c : PatchConfig}
    (hc : I c) : I (applyTomlTable api devMem c root) :=
  foldl_applyEntryOf_preserves api root h hc

/-! ## Writing -/

/-- The node an entry writes; an empty string is left out where the entry says so. -/
def entryNode (config : PatchConfig) (e : Entry) : Option Node :=
  match e.accessor with
  | .bool get _ => some (.boolean (get config))
  | .u32 _ _ get _ _ => some (.integer (get config))
  | .float _ _ get _ _ => some (.float (get config))
  | .string omitIfEmpty get _ =>
    if omitIfEmpty && (get config).isEmpty then none else some (.string (get config))

/-- `InsertIntoToml`: the section of each entry is made to exist and its node inserted. -/
def insertIntoToml (devMem : Option ℕ) (root : Table) (config : PatchConfig) : Table :=
  insertAll root ((kEntries devMem).map fun e => (e.sec, e.key, entryNode config e))

end D3Hack
