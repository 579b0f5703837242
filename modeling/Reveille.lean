import Reveille.Number.Power
import Reveille.Calendar
import Reveille.Instant
import Reveille.Text.Blank
import Reveille.Text.Decimal
import Reveille.Zone
import Reveille.Instant.Text
import Reveille.Occurrence
import Reveille.Display
import Reveille.Number.Binary
import Reveille.Number.Shortest
import Reveille.Text.Quoted
import Reveille.Json.Value
import Reveille.Json.Cursor
import Reveille.Json.Literal
import Reveille.Json.Numeral
import Reveille.Json.Collection
import Reveille.Json.Skip
import Reveille.Json.Scalar
import Reveille.Json.Decoder
import Reveille.Json.Record
import Reveille.Json.Write
import Reveille.Wakeup
import Reveille.Wakeup.Json
import Reveille.Records
import Reveille.Settings
import Reveille.File
import Reveille.Config
import Reveille.Config.Text
import Reveille.Sound
import Reveille.Scheduler
import Reveille.Phase
import Reveille.Records.Text
import Reveille.Store.Fault
import Reveille.Store.Alarms
import Reveille.Store.Wakeups
import Reveille.Session.Activity
import Reveille.Session.Tick
import Reveille.Session.Acknowledger
import Reveille.Session.World
import Reveille.Session.Outlook
import Reveille.Session.Timeline
import Reveille.Text.Utf8
import Reveille.CommandLine.Command
import Reveille.CommandLine.Report
import Reveille.CommandLine.Dialogue
import Reveille.CommandLine.Arguments
import Reveille.CommandLine.Program
import Reveille.Zone.Sampled
import Reveille.Main
import Reveille.Proofs.UnixScale
import Reveille.Proofs.Phase
import Reveille.Proofs.Occurrence
import Reveille.Proofs.Scheduler.Decision
import Reveille.Proofs.Scheduler.FiringLaw
import Reveille.Proofs.Session.Ensures
import Reveille.Proofs.Session.Course
import Reveille.Proofs.Session.TickReport
import Reveille.Proofs.Session.Alert
import Reveille.Proofs.Session.RingsOnce
import Reveille.Proofs.Calendar
import Reveille.Proofs.Settings
import Reveille.Proofs.Scheduler.NeverBlind
import Reveille.Proofs.Records
import Reveille.Proofs.Records.History
import Reveille.Proofs.Text.Decimal
import Reveille.Proofs.Alarm
import Reveille.Proofs.Instant.Text
import Reveille.Proofs.Json.Reads
import Reveille.Proofs.Json.Scalars
import Reveille.Proofs.Json.Collections
import Reveille.Proofs.Records.Text
import Reveille.Proofs.Records.Order
import Reveille.Proofs.Session.Kept
import Reveille.Proofs.Session.NothingLost
import Reveille.Proofs.Session.Horizon
import Reveille.Proofs.Session.Told
import Reveille.Proofs.Session.Polling
import Reveille.Proofs.Session.Interplay
import Reveille.Proofs.Session.StaysSilent
import Reveille.Proofs.Scheduler.OncePerDay
import Reveille.Proofs.Occurrence.DaySearch
import Reveille.Proofs.Occurrence.Daily
import Reveille.Proofs.Occurrence.SetBack
import Reveille.Proofs.Display
import Reveille.Proofs.CommandLine.Report
import Reveille.Proofs.CommandLine.Overrides
import Reveille.Proofs.CommandLine.SetAhead
import Reveille.Proofs.Session.Sharing
import Reveille.Proofs.Session.StaysAcknowledged
import Reveille.Proofs.Session.AcknowledgesAgain
import Reveille.Proofs.Checks
import Reveille.Proofs.Config.Check
import Reveille.Proofs.Config.Text
import Reveille.Proofs.Store.Alarms
import Reveille.Proofs.Session.Superseded
import Reveille.Proofs.Session.Playback
import Reveille.Proofs.Session.Verdict
import Reveille.Proofs.Session.AfterRinging
import Reveille.Proofs.Session.FailedTick
import Reveille.Proofs.Session.ShowsRinging
