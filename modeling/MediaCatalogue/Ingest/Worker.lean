import MediaCatalogue.Ingest.Apply

/-!
# Workers

A worker takes one message and decides what becomes of it. A message that was applied, came too late
or can never be applied is acknowledged; a message that may be applied later is not. A worker
remembers nothing between two messages.
-/

namespace MediaCatalogue

/-- What becomes of a message. -/
inductive Decision where
  /-- The message is done with. -/
  | ack
  /-- The message shall be delivered again. -/
  | nack
deriving DecidableEq, Repr

/-- Takes messages. -/
structure Worker (σ : Type) where
  /-- The known publishers. -/
  registry : Registry
  /-- Where updates are stored. -/
  writers : Writers σ
  /-- Tells whoever brings equivalence sets up to date that there are requests. -/
  wake : StateM σ Unit

/-- There is something to bring up to date. -/
def Outcome.hasRequests : Outcome → Bool
  | applied refresh => !refresh.isEmpty
  | stale => false

namespace Worker

variable {σ : Type}

/-- Decodes a message and applies it. -/
def process (worker : Worker σ) (message : List UInt8) :
    ExceptT IngestError (StateM σ) Outcome := do
  let event ← (ChangeEvent.decode message).mapError IngestError.ofFault
  let update ← EntityUpdate.ofEvent worker.registry event
  let outcome ← ExceptT.adapt IngestError.ofFault (worker.writers.apply update)
  if outcome.hasRequests then ExceptT.lift worker.wake
  return outcome

/-- Decides what becomes of a message. -/
def onMessage (worker : Worker σ) (message : List UInt8) : StateM σ Decision := do
  match ← (worker.process message).run with
  | .ok _ => return .ack
  | .error e => return if e.isRetryable then .nack else .ack

end Worker

end MediaCatalogue
