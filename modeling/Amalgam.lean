import Amalgam.Main
import Amalgam.Proofs.CacheHistory
import Amalgam.Proofs.Pass
import Amalgam.Proofs.ScheduleRanks
import Amalgam.Proofs.BucketOutcome
import Amalgam.Proofs.Incremental
import Amalgam.Proofs.ItemOrder
import Amalgam.Proofs.Artifacts
import Amalgam.Proofs.CombinedItems
import Amalgam.Proofs.PlatformCoverage
import Amalgam.Proofs.TrampolineBlocks
import Amalgam.Proofs.TrampolineRemoval
import Amalgam.Proofs.KotlinLines
import Amalgam.Proofs.Loading
import Amalgam.Proofs.OutputAttempts
import Amalgam.Proofs.UnreadableContent
import Amalgam.Proofs.BuildRuns
import Amalgam.Proofs.CommandEnding
import Amalgam.Proofs.StageOrder
import Amalgam.Proofs.OutputPlaces
import Amalgam.Proofs.TreeChanges
import Amalgam.Proofs.Containment
import Amalgam.Proofs.WrittenOutputs
import Amalgam.Proofs.CommandOutputs
import Amalgam.Proofs.ScheduleRun
import Amalgam.Proofs.DependencyCycles
import Amalgam.Proofs.LeastOrder
import Amalgam.Proofs.ScheduleInput
import Amalgam.Proofs.Survival
import Amalgam.Proofs.BucketWalk
import Amalgam.Proofs.FailedWrites
import Amalgam.Proofs.GeneratorFailures
import Amalgam.Proofs.ManifestFormat
import Amalgam.Proofs.TrampolineRerun
import Amalgam.Proofs.CppHeaderLines
import Amalgam.Proofs.RegistryFormat
import Amalgam.Proofs.RequireCalls
import Amalgam.Proofs.AcceptedPaths
import Amalgam.Proofs.TrampolineSignatures
