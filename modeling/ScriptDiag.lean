import ScriptDiag.Image.Build
import ScriptDiag.Native.ModuleMap
import ScriptDiag.Settings.Load
import ScriptDiag.Registry.Guarded
import ScriptDiag.Session
import ScriptDiag.Proofs.BlockExtent
import ScriptDiag.Proofs.CallsInFlight
import ScriptDiag.Proofs.CrashBlame
import ScriptDiag.Proofs.DebugLookups
import ScriptDiag.Proofs.DetachedMachines
import ScriptDiag.Proofs.FailureReports
import ScriptDiag.Proofs.FieldStreams
import ScriptDiag.Proofs.FollowedStubs
import ScriptDiag.Proofs.FramedRuns
import ScriptDiag.Proofs.GuardLedger
import ScriptDiag.Proofs.ImageGrammar
import ScriptDiag.Proofs.Interrupts
import ScriptDiag.Proofs.JoiningOrder
import ScriptDiag.Proofs.KernelListings
import ScriptDiag.Proofs.LatchClearing
import ScriptDiag.Proofs.ListedRuns
import ScriptDiag.Proofs.ModuleLookups
import ScriptDiag.Proofs.NestedNatives
import ScriptDiag.Proofs.OversizedBlocks
import ScriptDiag.Proofs.SettingLines
import ScriptDiag.Proofs.SleepingNatives
import ScriptDiag.Proofs.StubTable
import ScriptDiag.Proofs.Transparency
import ScriptDiag.Proofs.TrueTraces
import ScriptDiag.Proofs.WalkRounds
