import MediaCatalogue.Broker.Queue
import MediaCatalogue.Ingest.Worker

/-!
# Worker pools

A pool serves the partitions of a broker: it receives a message, lets a worker decide, and settles
the message as decided.
-/

namespace MediaCatalogue

/-- The consumer side of a broker. -/
structure Subscription (σ : Type) where
  /-- The number of partitions. -/
  partitions : Nat
  /-- Leases the next message of a partition. -/
  receive : Nat → Access σ (Option Delivery)
  /-- The message is done with. -/
  ack : Delivery → Access σ Unit
  /-- The message shall be delivered again. -/
  nack : Delivery → Access σ Unit

/-- Workers for the partitions of a broker. -/
structure Pool (σ : Type) where
  /-- The broker. -/
  subscription : Subscription σ
  /-- The worker. -/
  worker : Worker σ

namespace Pool

variable {σ : Type}

/-- Receives and settles the next message of a partition. Gives the decision, if there was a
message. -/
def processNext (pool : Pool σ) (partition : Nat) : Access σ (Option Decision) := do
  match ← pool.subscription.receive partition with
  | none => return none
  | some delivery =>
    let decision ← ExceptT.lift (pool.worker.onMessage delivery.body)
    match decision with
    | .ack => pool.subscription.ack delivery
    | .nack => pool.subscription.nack delivery
    return some decision

/-- Lets every partition process one message, in ascending order. A partition whose access fails is
left for the next round. -/
def round (pool : Pool σ) : StateM σ Unit :=
  (List.range pool.subscription.partitions).forM fun partition => do
    let _ ← (pool.processNext partition).run
    return ()

end Pool

end MediaCatalogue
