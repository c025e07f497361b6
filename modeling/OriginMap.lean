import OriginMap.Main
import OriginMap.Delta.Meaning
import OriginMap.Proofs.Delta.Runs
import OriginMap.Proofs.Delta.Words
import OriginMap.Proofs.Text.Lines
import OriginMap.Proofs.Context
import OriginMap.Proofs.SourceName
import OriginMap.Proofs.Location
import OriginMap.Proofs.Mappings
import OriginMap.Proofs.FileName
import OriginMap.Proofs.Disk
import OriginMap.Proofs.Json.Spelling
import OriginMap.Proofs.Json.Reading
import OriginMap.Proofs.Json.Records
import OriginMap.Proofs.Time.Calendar
import OriginMap.Proofs.Time.Rfc3339
import OriginMap.Proofs.Sidecar
import OriginMap.Proofs.Interruption
import OriginMap.Proofs.Files.Standing
import OriginMap.Proofs.Disk.Room
import OriginMap.Proofs.Stats
import OriginMap.Proofs.Archive
import OriginMap.Proofs.Container
import OriginMap.Proofs.Filing
import OriginMap.Proofs.Store
import OriginMap.Proofs.Index
import OriginMap.Proofs.Resolve
import OriginMap.Proofs.Files.Confinement
import OriginMap.Proofs.Fingerprint
import OriginMap.Proofs.Disk.Confinement
import OriginMap.Proofs.Isolation
import OriginMap.Proofs.Disk.Failure
import OriginMap.Proofs.Removal
import OriginMap.Proofs.Files.Opening
import OriginMap.Proofs.FailedIngest
import OriginMap.Proofs.Container.Wording
import OriginMap.Proofs.Nearest
import OriginMap.Proofs.Config
import OriginMap.Proofs.Command
import OriginMap.Proofs.Disk.RoundTrip
import OriginMap.Proofs.Files.Loss
import OriginMap.Proofs.Disk.Expiry
import OriginMap.Proofs.Sweep
import OriginMap.Proofs.Files.Order
import OriginMap.Proofs.Disk.Order
import OriginMap.Proofs.Enumeration
import OriginMap.Mappings.Meaning
import OriginMap.Proofs.Lookup
import OriginMap.Proofs.Meaning
import OriginMap.Proofs.Damage
import OriginMap.Proofs.Report
