import MediaCatalogue.Json.Decode

/-!
# Faults

Everything that can go wrong below the level of queries and messages is a `Fault`. A fault is a
cause; its wording is `Fault.message`: a heading for the kind of fault, and a detail. Each kind has
a constructor for a detail that somebody else worded (`described`).
-/

namespace MediaCatalogue

/-- A value that a caller passed, or that a table holds, is not acceptable. -/
inductive InputFault where
  /-- A text or number is no id. -/
  | code (cause : Id.CodeError)
  /-- A storage column holds a negative number in place of an id. -/
  | negativeStored (column : Int)
  /-- A word is no kind of content. -/
  | unknownKind (word : String)
  /-- A word names no detail of an answer. -/
  | unknownDetail (word : String)
  /-- A time cannot be stored. -/
  | unstorable (time : Instant)
  /-- Anything else. -/
  | described (text : String)
deriving DecidableEq, Repr

/-- The configuration is not acceptable. -/
inductive ConfigurationFault where
  /-- Two publishers have one key. -/
  | duplicatePublisher (key : String)
  /-- A key belongs to no publisher. -/
  | unknownPublisher (key : String)
  /-- A broker has no partition. -/
  | noBrokerPartition
  /-- The settings ask for no partition. -/
  | noPartition
  /-- The settings leave no time for a query. -/
  | noTimeout
  /-- The settings are not written in TOML, or a value has the wrong type. -/
  | invalidToml
  /-- Anything else. -/
  | described (text : String)
deriving DecidableEq, Repr

/-- A message holds no valid event. -/
inductive EventFault where
  /-- The event itself cannot be decoded. -/
  | undecodable (cause : Json.DecodeError)
  /-- The payload of an event does not fit. -/
  | payload (entity : String) (id : Id) (cause : Json.DecodeError)
  /-- Anything else. -/
  | described (text : String)
deriving DecidableEq, Repr

/-- Something that the catalogue depends on fails. -/
inductive DependencyFault where
  /-- The title index cannot be reached. -/
  | unreachable
  /-- The title index answers with a status that means no success. -/
  | refused (status : Nat) (text : String)
  /-- The title index answers something else than a list of hits. -/
  | invalidResponse
  /-- Anything else. -/
  | described (text : String)
deriving DecidableEq, Repr

/-- What went wrong. -/
inductive Fault where
  /-- The database failed. -/
  | database (detail : String)
  /-- A file could not be read. -/
  | io (detail : String)
  /-- The configuration is not acceptable. -/
  | configuration (cause : ConfigurationFault)
  /-- A value is not acceptable. -/
  | invalidInput (cause : InputFault)
  /-- A message holds no valid event. -/
  | malformedEvent (cause : EventFault)
  /-- Something else failed. -/
  | dependency (cause : DependencyFault)
  /-- A case that should not arise. -/
  | internal (detail : String)
deriving DecidableEq, Repr

/-! ### Wording -/

/-- The wording of an input fault. -/
def InputFault.message : InputFault → String
  | code cause => cause.message
  | negativeStored column => s!"negative id {column} in storage"
  | unknownKind word => s!"unknown content kind: {word}"
  | unknownDetail word => s!"unknown annotation: {word}"
  | unstorable time => s!"timestamp {time.display} out of storable range"
  | described text => text

/-- The wording of a configuration fault. -/
def ConfigurationFault.message : ConfigurationFault → String
  | duplicatePublisher key => s!"duplicate publisher key: {key}"
  | unknownPublisher key => s!"unknown publisher key: {key}"
  | noBrokerPartition => "broker needs at least one partition"
  | noPartition => "ingest.partitions must be at least 1"
  | noTimeout => "query.timeout_ms must be positive"
  | invalidToml => "Invalid TOML"
  | described text => text

/-- The wording of an event fault. -/
def EventFault.message : EventFault → String
  | undecodable cause => cause.message
  | payload entity id cause => s!"{entity} payload for {id.code}: {cause.message}"
  | described text => text

/-- The wording of a dependency fault. -/
def DependencyFault.message : DependencyFault → String
  | unreachable => "title index unreachable"
  | refused status text => s!"title index returned {status}: {text}"
  | invalidResponse => "invalid title index response"
  | described text => text

/-- The wording of a fault. -/
def Fault.message : Fault → String
  | database detail => "Database error: " ++ detail
  | io detail => "IO error: " ++ detail
  | configuration cause => "Configuration error: " ++ cause.message
  | invalidInput cause => "Invalid input: " ++ cause.message
  | malformedEvent cause => "Malformed event: " ++ cause.message
  | dependency cause => "Dependency failure: " ++ cause.message
  | internal detail => "Internal error: " ++ detail

/-! ### Checked ids -/

namespace Id

/-- The id of a number, or the fault that it is none. -/
def checked (value : Nat) : Except Fault Id :=
  (ofNat value).mapError fun cause => .invalidInput (.code cause)

/-- The id of a code, or the fault that it is none. -/
def checkedCode (code : String) : Except Fault Id :=
  (ofCode code).mapError fun cause => .invalidInput (.code cause)

/-- The id that a storage column holds, or the fault that it holds none. -/
def ofStored (column : Int) : Except Fault Id :=
  match ofStored? column with
  | some id => .ok id
  | none => .error (.invalidInput (.negativeStored column))

@[simp]
theorem ofStored_stored (id : Id) : ofStored id.stored = .ok id := by
  simp only [ofStored, ofStored?_stored]

end Id

end MediaCatalogue
