import Leasehold.Limiter
import Leasehold.Main
import Leasehold.Proofs.Store.Ledger
import Leasehold.Proofs.Text.Numeral
import Leasehold.Proofs.Text.Utf8
import Leasehold.Redis.Playback
import Leasehold.Store.Rehearsal
import Leasehold.Yaml.Printer
import Leasehold.Proofs.Store.View
import Leasehold.Proofs.Lock.Calls
import Leasehold.Proofs.Lock.Contenders
import Leasehold.Proofs.Store.Fate
import Leasehold.Proofs.Lock.Exclusion
import Leasehold.Proofs.Lock.LeaseTable
import Leasehold.Proofs.Redis.Keyspace
import Leasehold.Proofs.Script.Execution
import Leasehold.Proofs.Redis.Server
import Leasehold.Proofs.Redis.Interference
import Leasehold.Proofs.Redis.Atomicity
import Leasehold.Proofs.Store.Transcript
import Leasehold.Proofs.Limiter.Window
import Leasehold.Proofs.Store.Separation
import Leasehold.Proofs.Redis.Invocation
import Leasehold.Proofs.Lock.Likeness
import Leasehold.Proofs.Lock.Watch
import Leasehold.Proofs.Lock.Rehearsal
import Leasehold.Proofs.Lock.Schedule
import Leasehold.Proofs.CommandLine.ExitCode
import Leasehold.Proofs.Lock.Takeover
import Leasehold.Proofs.Redis.Veil
import Leasehold.Proofs.Redis.Secrecy
import Leasehold.Proofs.Lock.Failure
import Leasehold.Proofs.Lock.Bystanders
import Leasehold.Proofs.Lock.Coverage
import Leasehold.Proofs.Lock.Verdict
import Leasehold.Proofs.Lock.Wards
import Leasehold.Proofs.Lock.Leniency
import Leasehold.Proofs.Limiter.Overflow
import Leasehold.Proofs.Logging.Building
import Leasehold.Proofs.Redis.Reading
import Leasehold.Proofs.Redis.Conversation
import Leasehold.Proofs.Redis.Rounds
import Leasehold.Proofs.Text.Lossy
import Leasehold.Proofs.Redis.Verdicts
import Leasehold.Proofs.Text.Denotation
import Leasehold.Proofs.Text.Pieces
import Leasehold.Proofs.Store.Arguments
import Leasehold.Proofs.Text.Order
import Leasehold.Proofs.Files.Nearest
import Leasehold.Proofs.Yaml.Lookup
import Leasehold.Proofs.Yaml.Fitting
import Leasehold.Proofs.CommandLine.Settings
import Leasehold.Proofs.Logging.Dispatch
import Leasehold.Proofs.CommandLine.Server
