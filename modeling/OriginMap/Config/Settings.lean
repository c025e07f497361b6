import OriginMap.Accumulation
import OriginMap.Time.Instant

/-!
# Settings

The settings that a program runs with, and their defaults.
-/

namespace OriginMap.Config

/-- Settings of the artifact store. -/
structure StoreSettings where
  /-- The data directory. -/
  dataDir : String := "./retrace-data"
  /-- How many days an artifact is kept. -/
  retentionDays : UInt32 := 30
  /-- Seconds between two sweeps. -/
  sweepIntervalSecs : UInt64 := 86400
  /-- How mapping texts are to be read. -/
  accumulation : Accumulation := .crossLine
  deriving DecidableEq, Repr

/-- Settings of the log. -/
structure LoggingSettings where
  /-- What is logged. -/
  level : String := "info"
  deriving DecidableEq, Repr

/-- All settings. -/
structure Settings where
  /-- Of the store. -/
  store : StoreSettings := {}
  /-- Of the log. -/
  logging : LoggingSettings := {}
  deriving DecidableEq, Repr

/-- How long an artifact is kept. -/
def StoreSettings.retention (s : StoreSettings) : Time.Span := .days s.retentionDays.toNat

/-- The time between two sweeps. -/
def StoreSettings.sweepInterval (s : StoreSettings) : Time.Span := ⟨s.sweepIntervalSecs.toNat, 0⟩

end OriginMap.Config
