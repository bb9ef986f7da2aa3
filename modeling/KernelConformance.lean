import KernelConformance.Main
import KernelConformance.Scenario.Session
import KernelConformance.Proofs.Processes.Reclamation
import KernelConformance.Proofs.Processes.CompleteJournals
import KernelConformance.Proofs.Processes.PidNumbers
import KernelConformance.Proofs.Processes.JoinContract
import KernelConformance.Proofs.Processes.BlockedJoins
import KernelConformance.Proofs.FailedCalls
import KernelConformance.Proofs.Files.DescriptorSteps
import KernelConformance.Proofs.Files.OpenDescriptors
import KernelConformance.Proofs.Files.DescriptorLaw
import KernelConformance.Proofs.Files.Aliasing
import KernelConformance.Proofs.Files.Accounts
import KernelConformance.Proofs.Files.WriteLog
import KernelConformance.Proofs.Programs.Dialogues
import KernelConformance.Proofs.Text.Numerals
import KernelConformance.Proofs.Text.Records
import KernelConformance.Proofs.Programs.SoloRuns
import KernelConformance.Proofs.Programs.Workspaces
import KernelConformance.Proofs.Suite.RecurrenceFiles
import KernelConformance.Proofs.Suite.RecurrenceRuns
import KernelConformance.Proofs.Files.AdmittedNames
import KernelConformance.Proofs.Suite.RecurrenceRefinement
import KernelConformance.Proofs.Randomness.Shuffles
import KernelConformance.Proofs.Suite.ProbeRounds
import KernelConformance.Proofs.Suite.ProbeSaturation
import KernelConformance.Proofs.Suite.ProbeOutcomes
import KernelConformance.Proofs.Processes.SlotCounts
import KernelConformance.Proofs.Programs.Followers
import KernelConformance.Proofs.Suite.SpawnerCalls
import KernelConformance.Proofs.Suite.SpawnerSlots
import KernelConformance.Proofs.Suite.AdmissionControl
import KernelConformance.Proofs.Suite.SequentialChildren
import KernelConformance.Proofs.Suite.SequentialSoundness
import KernelConformance.Proofs.Files.Correspondence
import KernelConformance.Proofs.Files.Noninterference
import KernelConformance.Proofs.Suite.Cleanliness
import KernelConformance.Proofs.Programs.Companions
import KernelConformance.Proofs.Programs.ConsoleOutput
import KernelConformance.Proofs.Suite.JobCrews
import KernelConformance.Proofs.Suite.CrewRuns
import KernelConformance.Proofs.Suite.CrewJournals
import KernelConformance.Proofs.Suite.MachineCrews
import KernelConformance.Proofs.Suite.CrewEnds
import KernelConformance.Proofs.Suite.SequentialJobs
import KernelConformance.Proofs.Suite.SequentialCompleteness
import KernelConformance.Proofs.Suite.DescriptorNeeds
import KernelConformance.Proofs.Suite.IdleKernels
import KernelConformance.Proofs.Suite.ParentNeeds
import KernelConformance.Proofs.Suite.Thresholds
import KernelConformance.Proofs.Suite.SpawnerLedgers
import KernelConformance.Proofs.Suite.SpawnerAccounts
import KernelConformance.Proofs.Suite.ProbeDetection
import KernelConformance.Proofs.Suite.RecurrenceProtocol
import KernelConformance.Proofs.Programs.DamagedWrites
import KernelConformance.Proofs.Suite.RecurrenceDamage
import KernelConformance.Proofs.Runner.RunOutcomes
import KernelConformance.Proofs.Programs.TraceLines
import KernelConformance.Proofs.Suite.FaultFreeRuns
import KernelConformance.Proofs.Suite.Reruns
import KernelConformance.Proofs.Processes.ExitOrders
import KernelConformance.Proofs.Randomness.FairShuffles
import KernelConformance.Proofs.Suite.Submissions
import KernelConformance.Proofs.Text.RecordCodec
import KernelConformance.Proofs.Files.Chunking
import KernelConformance.Proofs.Runner.CommandLines
import KernelConformance.Proofs.Files.OffsetBounds
import KernelConformance.Proofs.Text.LossyDecoding
import KernelConformance.Proofs.Programs.ConsoleTakes
import KernelConformance.Proofs.Suite.FileNames
import KernelConformance.Proofs.Runner.DepthFirstRuns
