import MediaCatalogue.Broker.Queue
import MediaCatalogue.Fault
import MediaCatalogue.Toml.Decode
import MediaCatalogue.Toml.Document
import MediaCatalogue.Word

/-!
# Settings

`Settings` are read from a TOML document. Every setting has a default, keys that are not known are
ignored, and a few values make no sense: `Settings.checked` refuses settings without a partition, or
without time for a query.
-/

namespace MediaCatalogue

/-- How change events are taken in. -/
structure IngestSettings where
  /-- The number of partitions of the broker. -/
  partitions : Nat := 4
  /-- How long an idle partition is left alone, in milliseconds. -/
  pollIntervalMillis : Nat := 250
  /-- For how long a delivered message is hidden, in milliseconds. -/
  visibilityTimeoutMillis : Nat := 30000
  /-- After which delay a message is delivered again, in milliseconds. -/
  retryDelayMillis : Nat := 5000
  /-- The longest pause after a failed refresh, in milliseconds. -/
  refreshMaxBackoffMillis : Nat := 30000
deriving DecidableEq, Repr

/-- All settings. -/
structure Settings where
  /-- The file of the database. -/
  databasePath : String
  /-- Which messages are logged. -/
  logLevel : String := "info"
  /-- How long a query may take, in milliseconds. -/
  queryTimeoutMillis : Nat := 2000
  /-- Where the title index is; without one titles cannot be searched. -/
  searchBaseUrl : Option String := none
  /-- How change events are taken in. -/
  ingest : IngestSettings := {}
deriving DecidableEq, Repr

namespace Settings

open Toml.Decoder

/-- Reads how change events are taken in. -/
def ingestDecoder : Toml.Decoder IngestSettings :=
  record
    [field "partitions" (natural Word.limit32) fun partitions s => { s with partitions },
     field "poll_interval_ms" (natural Word.limit64) fun pollIntervalMillis s =>
      { s with pollIntervalMillis },
     field "visibility_timeout_ms" (natural Word.limit64) fun visibilityTimeoutMillis s =>
      { s with visibilityTimeoutMillis },
     field "retry_delay_ms" (natural Word.limit64) fun retryDelayMillis s =>
      { s with retryDelayMillis },
     field "refresh_max_backoff_ms" (natural Word.limit64) fun refreshMaxBackoffMillis s =>
      { s with refreshMaxBackoffMillis }]
    {}

/-- Reads all settings. The database is at `path` if the document does not say where it is. -/
def decoder (path : String) : Toml.Decoder Settings :=
  record
    [field "database_path" text fun databasePath s => { s with databasePath },
     field "logging" (record [field "level" text fun level _ => level] "info")
      fun logLevel s => { s with logLevel },
     field "query" (record [field "timeout_ms" (natural Word.limit64) fun millis _ => millis] 2000)
      fun queryTimeoutMillis s => { s with queryTimeoutMillis },
     field "search" (record [field "base_url" text fun url _ => some url] none)
      fun searchBaseUrl s => { s with searchBaseUrl },
     field "ingest" ingestDecoder fun ingest s => { s with ingest }]
    { databasePath := path }

/-- Refuses settings that make no sense. -/
def checked (settings : Settings) : Except Fault Settings :=
  if settings.ingest.partitions = 0 then .error (.configuration .noPartition)
  else if settings.queryTimeoutMillis = 0 then .error (.configuration .noTimeout)
  else .ok settings

/-- Reads settings from a document. -/
def parse (path : String) (document : String) : Except Fault Settings :=
  match (Toml.parse document).bind (decoder path) with
  | some settings => settings.checked
  | none => .error (.configuration .invalidToml)

/-- How long a query may take. -/
def queryTimeout (settings : Settings) : Duration := .ofMillis settings.queryTimeoutMillis

/-- The settings of the broker. -/
def broker (settings : Settings) : BrokerSettings :=
  { partitions := settings.ingest.partitions
    visibilityTimeout := .ofMillis settings.ingest.visibilityTimeoutMillis
    retryDelay := .ofMillis settings.ingest.retryDelayMillis }

end Settings

end MediaCatalogue
