import OriginMap.Config.Settings
import OriginMap.Store

/-!
# Retention

A sweeper removes artifacts that have grown too old, once or again and again while it runs.
-/

namespace OriginMap

open Files

/-- Removes artifacts past an age. -/
structure Sweeper where
  /-- The age past which artifacts are removed. -/
  maxAge : Time.Span
  /-- The time between two sweeps while it runs. -/
  interval : Time.Span
  /-- Whether it runs. -/
  running : Bool := false
  deriving DecidableEq, Repr

namespace Sweeper

/-- The sweeper that the settings describe. -/
def ofSettings (settings : Config.StoreSettings) : Sweeper where
  maxAge := settings.retention
  interval := settings.sweepInterval

/-- Sweeps once and counts what was removed. -/
def runOnce (sweeper : Sweeper) (store : Store) (now : Time.Instant) : Script (Nat × Store) :=
  store.sweepExpired now sweeper.maxAge

/-- Sets the sweeper running, if it does not run already. -/
def start (sweeper : Sweeper) : Sweeper := { sweeper with running := true }

/-- Stops the sweeper, if it runs. -/
def shutdown (sweeper : Sweeper) : Sweeper := { sweeper with running := false }

/-- What happens while so much time passes: a sweep, if the sweeper runs and its turn comes. -/
def wait (sweeper : Sweeper) (time : Time.Span) (store : Store) (now : Time.Instant) :
    Script (Nat × Store) :=
  if sweeper.running && sweeper.interval.total ≤ time.total then sweeper.runOnce store now
  else return (0, store)

end Sweeper

end OriginMap
