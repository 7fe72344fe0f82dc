import MediaCatalogue.Deployment.State
import MediaCatalogue.Ingest.Pool

/-!
# The broker of a deployment

The operations of the message queue on a deployment, at the time of its clock. Every delivery gets a
lease that was not used before.
-/

namespace MediaCatalogue.Deployment

/-- Opens the broker with other settings; the messages stay. -/
def openBroker (settings : BrokerSettings) : Access Deployment Unit := do
  let settings ← settings.checked
  whileOpen (modify fun d => { d with broker := some settings })

/-- Publishes a message. Gives its number. -/
def publish (settings : BrokerSettings) (key : String) (body : List UInt8) :
    Access Deployment Int :=
  whileOpen do
    let d ← get
    let (seq, queue) := d.queue.publish settings d.now key body
    set { d with queue }
    return seq

/-- Leases the next message of a partition. -/
def receive (settings : BrokerSettings) (partition : Nat) : Access Deployment (Option Delivery) :=
  whileOpen do
    let d ← get
    let (delivery, queue) := d.queue.receive settings d.now d.nextLease partition
    set { d with queue, nextLease := d.nextLease + 1 }
    return delivery

/-- Removes a delivered message. -/
def ack (delivery : Delivery) : Access Deployment Unit :=
  whileOpen (modify fun d => { d with queue := d.queue.ack delivery })

/-- Gives a delivered message back. -/
def nack (settings : BrokerSettings) (delivery : Delivery) : Access Deployment Unit :=
  whileOpen (modify fun d => { d with queue := d.queue.nack settings d.now delivery })

/-- The number of messages that are not done with. -/
def messageCount : Access Deployment Nat :=
  whileOpen do return (← get).queue.size

/-- The consumer side of the broker. -/
def subscription (settings : BrokerSettings) : Subscription Deployment :=
  { partitions := settings.partitions, receive := receive settings, ack, nack := nack settings }

/-- A worker of a deployment in which nobody waits to be woken. -/
def worker (registry : Registry) : Worker Deployment := ⟨registry, writers, return ()⟩

end MediaCatalogue.Deployment
