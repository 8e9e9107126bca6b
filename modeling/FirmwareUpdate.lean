import FirmwareUpdate.Agent
import FirmwareUpdate.Bytes
import FirmwareUpdate.CancelToken
import FirmwareUpdate.Cause
import FirmwareUpdate.Config
import FirmwareUpdate.Console
import FirmwareUpdate.Decimal.Binary64
import FirmwareUpdate.Decimal.Layout
import FirmwareUpdate.Decimal.Shortest
import FirmwareUpdate.Device
import FirmwareUpdate.Download
import FirmwareUpdate.Engine.Applying
import FirmwareUpdate.Engine.Booting
import FirmwareUpdate.Engine.Clock
import FirmwareUpdate.Engine.Effect
import FirmwareUpdate.Engine.Enabling
import FirmwareUpdate.Engine.Fetching
import FirmwareUpdate.Engine.Reporting
import FirmwareUpdate.Engine.Trial
import FirmwareUpdate.Engine.World
import FirmwareUpdate.Event
import FirmwareUpdate.Hash.Sha256
import FirmwareUpdate.Image
import FirmwareUpdate.Job
import FirmwareUpdate.Json.Number
import FirmwareUpdate.Json.Printer
import FirmwareUpdate.Json.Record
import FirmwareUpdate.Json.Token
import FirmwareUpdate.Json.Tree
import FirmwareUpdate.Json.Value
import FirmwareUpdate.Main
import FirmwareUpdate.Network
import FirmwareUpdate.Outcome
import FirmwareUpdate.Proofs.AppliedIds
import FirmwareUpdate.Proofs.Commits
import FirmwareUpdate.Proofs.Conduct
import FirmwareUpdate.Proofs.Decisions
import FirmwareUpdate.Proofs.Downloads
import FirmwareUpdate.Proofs.Erasures
import FirmwareUpdate.Proofs.FetchConduct
import FirmwareUpdate.Proofs.Fetches
import FirmwareUpdate.Proofs.Interleaving
import FirmwareUpdate.Proofs.Lives
import FirmwareUpdate.Proofs.NextBoot
import FirmwareUpdate.Proofs.ReportBodies
import FirmwareUpdate.Proofs.RollbackNet
import FirmwareUpdate.Proofs.SuccessReports
import FirmwareUpdate.Proofs.TickAccounts
import FirmwareUpdate.Proofs.ReportReplies
import FirmwareUpdate.Proofs.Traces
import FirmwareUpdate.Proofs.Verdicts
import FirmwareUpdate.Rehearsal.Bench
import FirmwareUpdate.Rehearsal.Cue
import FirmwareUpdate.Rehearsal.Part
import FirmwareUpdate.Rehearsal.Play
import FirmwareUpdate.Rehearsal.Polling
import FirmwareUpdate.Rehearsal.Probe
import FirmwareUpdate.Rehearsal.Script
import FirmwareUpdate.Rehearsal.Stage
import FirmwareUpdate.Rehearsal.Terminal
import FirmwareUpdate.Report
import FirmwareUpdate.Routine
import FirmwareUpdate.Slots
import FirmwareUpdate.Store
import FirmwareUpdate.Text.Boundary
import FirmwareUpdate.Text.Quoted
import FirmwareUpdate.Text.Unprintable
import FirmwareUpdate.Timers
import FirmwareUpdate.UpdateError
import FirmwareUpdate.Version
import FirmwareUpdate.Worker
import FirmwareUpdate.Proofs.Repertoires
import FirmwareUpdate.Proofs.OneJob
import FirmwareUpdate.Proofs.Races
import FirmwareUpdate.Proofs.LateReports
import FirmwareUpdate.Proofs.TrialDecisions
import FirmwareUpdate.Proofs.Ledger
import FirmwareUpdate.Proofs.Examinations
import FirmwareUpdate.Proofs.RollbackEpisode
import FirmwareUpdate.Proofs.Attempts
import FirmwareUpdate.Proofs.UpdateCycle
import FirmwareUpdate.Proofs.JobReports
import FirmwareUpdate.Proofs.FetchAnswers
import FirmwareUpdate.Proofs.Leftovers
import FirmwareUpdate.Proofs.AbandonedJobs
import FirmwareUpdate.Proofs.FirstEnabling
import FirmwareUpdate.Proofs.RollbackReports
import FirmwareUpdate.Proofs.OneValidation
import FirmwareUpdate.Proofs.JoblessTrials
import FirmwareUpdate.Proofs.Ticking
import FirmwareUpdate.Proofs.AutofetchTimers
import FirmwareUpdate.Proofs.LateTicks
import FirmwareUpdate.Proofs.Streams
import FirmwareUpdate.Proofs.PreviousImages
import FirmwareUpdate.Proofs.SideBySide
import FirmwareUpdate.Proofs.Disabling
import FirmwareUpdate.Proofs.TokenSpelling
import FirmwareUpdate.Proofs.TreeSpelling
import FirmwareUpdate.Proofs.WrittenTexts
import FirmwareUpdate.Proofs.TextCuts
import FirmwareUpdate.Proofs.MemberOrder
import FirmwareUpdate.Proofs.PositionalAnswers
import FirmwareUpdate.Proofs.SalvagedIds
import FirmwareUpdate.Proofs.WrittenNumbers
import FirmwareUpdate.Proofs.StoredConfigs
import FirmwareUpdate.Proofs.ValidationStates
import FirmwareUpdate.Proofs.Overlaps
import FirmwareUpdate.Proofs.RollbackHandles
import FirmwareUpdate.Proofs.IdTrips
import FirmwareUpdate.Proofs.OneShots
import FirmwareUpdate.Proofs.ProgressLines
import FirmwareUpdate.Proofs.FetchCourses
import FirmwareUpdate.Proofs.Restarts
import FirmwareUpdate.Proofs.Acceptance
import FirmwareUpdate.Proofs.EarlyMarks
import FirmwareUpdate.Proofs.ModuleNames
