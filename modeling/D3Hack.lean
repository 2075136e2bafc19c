import D3Hack.Runs
import D3Hack.Calls
import D3Hack.Toml
import D3Hack.Config
import D3Hack.ConfigSchema
import D3Hack.SeasonMap
import D3Hack.ConfigTable
import D3Hack.ConfigRange
import D3Hack.ConfigNormalize
import D3Hack.SeasonMapRuns
import D3Hack.SystemAllocator
import D3Hack.FileSystem
import D3Hack.FsUtil
import D3Hack.ConfigLoad
import D3Hack.CrashPoints
import D3Hack.TomlText
import D3Hack.ConfigSave
import D3Hack.Patches
import D3Hack.HookRegistry
import D3Hack.RuntimeApply
import D3Hack.BootEquivalence
import D3Hack.ConfigWindow
import D3Hack.Overlay
import D3Hack.GameMemory
import D3Hack.ChallengeRift
import D3Hack.RiftCache
import D3Hack.RiftImport
import D3Hack.Pubfiles
import D3Hack.HeapOwnership
import D3Hack.ChallengeRearm
import D3Hack.SeasonalGate
import D3Hack.SchemaRestart
import D3Hack.GameLog
import D3Hack.HidBlock
import D3Hack.AliasPrecedence
import D3Hack.BufferBlocks
import D3Hack.BufferStream
import D3Hack.NnMalloc
import D3Hack.Fnv
import D3Hack.ItemMap
import D3Hack.ReadableMemory
import D3Hack.RewardList
import D3Hack.ProtoWire
import D3Hack.WeeklyChallenge
import D3Hack.CachePath
import D3Hack.OverlaySwipe
import D3Hack.PointerInputs
import D3Hack.DebugFlags
import D3Hack.VirtualKeyboard
import D3Hack.Translations
import D3Hack.Probing
import D3Hack.LogOnce
import D3Hack.DumpImport
import D3Hack.A64
import D3Hack.A64Fields
import D3Hack.HookFix
import D3Hack.BackPatch
import D3Hack.HookBlock
import D3Hack.HookImitates
import D3Hack.HookBranches
import D3Hack.HookLiterals
import D3Hack.HookTrampoline
import D3Hack.HookInstall
import D3Hack.Cells
import D3Hack.Rtld
import D3Hack.RtldLookup
import D3Hack.RtldLink
import D3Hack.RtldLazy
import D3Hack.RtldSelf
