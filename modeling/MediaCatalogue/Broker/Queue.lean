import MediaCatalogue.Broker.Partition
import MediaCatalogue.Store.Catalogue
import MediaCatalogue.Time.Duration
import MediaCatalogue.Word

/-!
# The message queue

Messages wait in the queue of their partition until a consumer is done with them.
`MessageQueue.receive` leases the oldest visible message and hides it for a while; `ack` removes it,
`nack` shows it again after a delay, and if neither happens the lease runs out and the message is
delivered again. Only the last delivery of a message can settle it: every delivery has a lease of
its own, and a message knows its latest one.

Times are signed 64-bit milliseconds. The milliseconds of a delay are cut to 64 bits and then added
with saturation (`visibleAfter`).
-/

namespace MediaCatalogue

/-- The timing of leases, and the number of partitions. -/
structure BrokerSettings where
  /-- The number of partitions. -/
  partitions : Nat
  /-- For how long a delivered message is hidden. -/
  visibilityTimeout : Duration
  /-- After which delay a message is delivered again. -/
  retryDelay : Duration
deriving DecidableEq, Repr

/-- A message in the queue. -/
structure Message where
  /-- The partition. -/
  partition : Nat
  /-- What was published. -/
  body : List UInt8
  /-- How often the message was delivered. -/
  attempts : Nat
  /-- From when on the message can be delivered, in milliseconds. -/
  visibleAt : Int
  /-- The lease of the last delivery. -/
  lease : Option Nat
  /-- When the message was published, in milliseconds. -/
  publishedAt : Int
deriving DecidableEq, Repr

/-- A leased message. -/
structure Delivery where
  /-- The number of the message. -/
  seq : Int
  /-- The partition. -/
  partition : Nat
  /-- What was published. -/
  body : List UInt8
  /-- How often the message was delivered, this time included; a 32-bit number. -/
  attempts : Nat
  /-- The lease. -/
  lease : Nat
deriving DecidableEq, Repr

/-- The messages that are not done with. -/
structure MessageQueue where
  /-- The messages by number. -/
  messages : Table Message := ∅
  /-- The number of the next message. Numbers are not used again. -/
  nextSeq : Int := 1

/-- The milliseconds of a duration, as a signed 64-bit number. -/
def Duration.wrappedMillis (d : Duration) : Int := Int.bmod d.millis Word.limit64

/-- A sum that stays within signed 64 bits. -/
def saturatingAdd (a b : Int) : Int := max (-Word.signedLimit) (min (Word.signedLimit - 1) (a + b))

/-- The time after a delay, in milliseconds. -/
def visibleAfter (now : Instant) (delay : Duration) : Int :=
  saturatingAdd now.millis delay.wrappedMillis

namespace MessageQueue

/-- Nothing was published. -/
def empty : MessageQueue := {}

/-- The number of messages. -/
def size (q : MessageQueue) : Nat := q.messages.size

/-- Publishes a message on the partition of its key. Gives its number. -/
def publish (settings : BrokerSettings) (now : Instant) (key : String) (body : List UInt8)
    (q : MessageQueue) : Int × MessageQueue :=
  let message : Message :=
    { partition := Partition.ofKey settings.partitions key, body, attempts := 0
      visibleAt := now.millis, lease := none, publishedAt := now.millis }
  (q.nextSeq, { messages := q.messages.insert q.nextSeq message, nextSeq := q.nextSeq + 1 })

/-- The oldest message of a partition that is visible. -/
def next? (now : Instant) (partition : Nat) (q : MessageQueue) : Option (Int × Message) :=
  q.messages.toList.find? fun (_, m) => m.partition = partition && decide (m.visibleAt ≤ now.millis)

/-- Leases the oldest visible message of a partition. -/
def receive (settings : BrokerSettings) (now : Instant) (lease : Nat) (partition : Nat)
    (q : MessageQueue) : Option Delivery × MessageQueue :=
  match q.next? now partition with
  | none => (none, q)
  | some (seq, m) =>
    let leased : Message :=
      { m with
        attempts := m.attempts + 1, lease := some lease
        visibleAt := visibleAfter now settings.visibilityTimeout }
    (some { seq, partition, body := m.body, attempts := leased.attempts % Word.limit32, lease },
      { q with messages := q.messages.insert seq leased })

/-- The message that a delivery can still settle. -/
def leased? (d : Delivery) (q : MessageQueue) : Option Message :=
  q.messages[d.seq]?.filter fun m => decide (m.lease = some d.lease)

/-- Removes a delivered message, if the delivery is its last one. -/
def ack (d : Delivery) (q : MessageQueue) : MessageQueue :=
  match q.leased? d with
  | none => q
  | some _ => { q with messages := q.messages.erase d.seq }

/-- Gives a delivered message back, if the delivery is its last one. -/
def nack (settings : BrokerSettings) (now : Instant) (d : Delivery) (q : MessageQueue) :
    MessageQueue :=
  match q.leased? d with
  | none => q
  | some m =>
    let returned : Message :=
      { m with visibleAt := visibleAfter now settings.retryDelay, lease := none }
    { q with messages := q.messages.insert d.seq returned }

end MessageQueue

/-- A broker must have a partition. -/
def BrokerSettings.checked (settings : BrokerSettings) : Except Fault BrokerSettings :=
  if settings.partitions = 0 then .error (.configuration .noBrokerPartition) else .ok settings

end MediaCatalogue
