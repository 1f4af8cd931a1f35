import CronFire.Main
import CronFire.Proofs.Fire.Possible
import CronFire.Proofs.Fire.Sequence
import CronFire.Proofs.Fire.Earliest
import CronFire.Proofs.Field.Members
import CronFire.Proofs.Field.Bounded
import CronFire.Proofs.Field.Overlong
import CronFire.Proofs.Field.Spelling
import CronFire.Proofs.Schedule.FirstError
import CronFire.Proofs.Schedule.Rejected
import CronFire.Proofs.CommandLine.Invalid
import CronFire.Proofs.CommandLine.NextFires
import CronFire.Proofs.Journal.Calls
import CronFire.Proofs.Journal.Kept
import CronFire.Proofs.Toml.Numerals
import CronFire.Proofs.Toml.Strings
import CronFire.Proofs.Toml.Lines
import CronFire.Proofs.Settings.Document
import CronFire.Proofs.Settings.Reload
import CronFire.Proofs.Settings.Agreement
import CronFire.Proofs.Fire.MonthLoop
import CronFire.Proofs.Fire.SearchLoop
import CronFire.Proofs.CommandLine.Reports
import CronFire.Proofs.Settings.Recovery
