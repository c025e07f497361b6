import OriginMap.Config.Settings

/-!
# Layers of settings

A layer sets some settings and leaves others open. Layers are laid over one another, and what no layer
sets has its default.
-/

namespace OriginMap.Config

/-- A layer's settings of the store. -/
structure StoreLayer where
  /-- The data directory. -/
  dataDir : Option String := none
  /-- How many days an artifact is kept. -/
  retentionDays : Option UInt32 := none
  /-- Seconds between two sweeps. -/
  sweepIntervalSecs : Option UInt64 := none
  /-- How mapping texts are to be read. -/
  accumulation : Option Accumulation := none
  deriving DecidableEq, Repr

/-- A layer's settings of the log. -/
structure LoggingLayer where
  /-- What is logged. -/
  level : Option String := none
  deriving DecidableEq, Repr

/-- A layer; a section may be left out altogether. -/
structure Layer where
  /-- Settings of the store. -/
  store : Option StoreLayer := none
  /-- Settings of the log. -/
  logging : Option LoggingLayer := none
  deriving DecidableEq, Repr

/-- Lays one section over another: what the upper one sets counts. -/
def StoreLayer.over (upper lower : StoreLayer) : StoreLayer where
  dataDir := upper.dataDir.or lower.dataDir
  retentionDays := upper.retentionDays.or lower.retentionDays
  sweepIntervalSecs := upper.sweepIntervalSecs.or lower.sweepIntervalSecs
  accumulation := upper.accumulation.or lower.accumulation

/-- Lays one section over another: what the upper one sets counts. -/
def LoggingLayer.over (upper lower : LoggingLayer) : LoggingLayer where
  level := upper.level.or lower.level

/-- Lays one section that may be left out over another. -/
def sectionOver (combine : α → α → α) : Option α → Option α → Option α
  | none, lower => lower
  | some upper, none => some upper
  | some upper, some lower => some (combine upper lower)

/-- Lays one layer over another, section by section. -/
def Layer.over (upper lower : Layer) : Layer where
  store := sectionOver StoreLayer.over upper.store lower.store
  logging := sectionOver LoggingLayer.over upper.logging lower.logging

/-- The settings of a section, with defaults for what it leaves open. -/
def StoreLayer.settle (layer : StoreLayer) : StoreSettings :=
  let defaults : StoreSettings := {}
  { dataDir := layer.dataDir.getD defaults.dataDir
    retentionDays := layer.retentionDays.getD defaults.retentionDays
    sweepIntervalSecs := layer.sweepIntervalSecs.getD defaults.sweepIntervalSecs
    accumulation := layer.accumulation.getD defaults.accumulation }

/-- The settings of a section, with defaults for what it leaves open. -/
def LoggingLayer.settle (layer : LoggingLayer) : LoggingSettings :=
  let defaults : LoggingSettings := {}
  { level := layer.level.getD defaults.level }

/-- The settings of a layer, with defaults for what it leaves open. -/
def Layer.settle (layer : Layer) : Settings where
  store := (layer.store.getD {}).settle
  logging := (layer.logging.getD {}).settle

end OriginMap.Config
