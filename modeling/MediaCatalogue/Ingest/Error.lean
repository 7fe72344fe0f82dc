import MediaCatalogue.Fault

/-!
# Failures to take in a message

A message that can never be applied is dropped; one that may be applied later is delivered again.
`IngestError.isRetryable` tells the two cases apart.

* `IngestError.ofFault` : a malformed event and unacceptable input are permanent, everything else
  may pass.
-/

namespace MediaCatalogue

/-- Why a message was not applied. -/
inductive IngestError where
  /-- The source of the event is no known publisher. -/
  | unknownSource (key : String)
  /-- The message holds no valid event. -/
  | malformedEvent (cause : EventFault)
  /-- The event holds a value that is not acceptable. -/
  | invalidInput (cause : InputFault)
  /-- Something failed that may work later. -/
  | transient (cause : Fault)
  /-- Anything else. -/
  | described (isRetryable : Bool) (text : String)
deriving DecidableEq, Repr

namespace IngestError

/-- Delivering the message again may help. -/
def isRetryable : IngestError → Bool
  | transient _ => true
  | described isRetryable _ => isRetryable
  | _ => false

/-- The detail of an error. -/
def detail : IngestError → String
  | unknownSource key => s!"unknown source: {key}"
  | malformedEvent cause => cause.message
  | invalidInput cause => cause.message
  | transient cause => cause.message
  | described _ text => text

/-- The wording of an error. -/
def message (e : IngestError) : String :=
  (if e.isRetryable then "Transient failure: " else "Malformed message: ") ++ e.detail

/-- The error that a fault means for a message. -/
def ofFault : Fault → IngestError
  | .malformedEvent cause => malformedEvent cause
  | .invalidInput cause => invalidInput cause
  | other => transient other

end IngestError

end MediaCatalogue
