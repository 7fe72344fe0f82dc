import MediaCatalogue.Broker.Queue
import MediaCatalogue.Equivalence.Lookup
import MediaCatalogue.Equivalence.Refresh
import MediaCatalogue.Ingest.Apply
import MediaCatalogue.Ingest.Refresher
import MediaCatalogue.Store.Resolve

/-!
# Deployments

A `Deployment` is a catalogue at work: its tables, the message queue of its broker, a clock, and
what is out of order. Every access to the tables fails while the database is closed; an access to a
part that is offline fails before it comes to the tables.

* `Deployment.write` runs a write call at a time of its own;
* `Deployment.writers` are the writers of a deployment;
* `Deployment.resolve`, `Deployment.lookup` and `Deployment.requests` read.
-/

namespace MediaCatalogue

/-- The parts that are out of order. -/
structure Outages where
  /-- Records can be neither read nor written. -/
  content : Bool := false
  /-- Tags cannot be written. -/
  topics : Bool := false
  /-- Assertions cannot be written. -/
  equivalence : Bool := false
deriving DecidableEq, Repr

/-- A catalogue at work. -/
structure Deployment where
  /-- The known publishers. -/
  registry : Registry
  /-- The tables. -/
  catalogue : Catalogue := .empty
  /-- The messages. -/
  queue : MessageQueue := .empty
  /-- The broker, if it was opened. -/
  broker : Option BrokerSettings := none
  /-- The database is open. -/
  isOpen : Bool := true
  /-- What is out of order. -/
  outages : Outages := {}
  /-- The time in nanoseconds. -/
  clock : Int
  /-- The lease of the next delivery. -/
  nextLease : Nat := 0

namespace Deployment

variable {α : Type}

/-- The time. -/
def now (d : Deployment) : Instant := Instant.ofNanos d.clock

/-- Lets time pass. -/
def later (nanos : Nat) (d : Deployment) : Deployment := { d with clock := d.clock + nanos }

/-- Closes the database. -/
def close (d : Deployment) : Deployment := { d with isOpen := false }

/-- Opens the database again. Everything is in order then, and there is no broker. -/
def reopen (d : Deployment) : Deployment :=
  { d with isOpen := true, outages := {}, broker := none }

/-- The fault of a part that is offline. -/
def offline (part : String) : Fault := .dependency (.described (part ++ " offline"))

/-- An access to a part that may be offline. -/
def unlessOffline (isOffline : Outages → Bool) (part : String) (access : Access Deployment α) :
    Access Deployment α := do
  if isOffline (← get).outages then throw (offline part)
  access

/-- An access that fails while the database is closed. -/
def whileOpen (access : Access Deployment α) : Access Deployment α := do
  if (← get).isOpen then access else throw .closedDatabase

/-! ### Writing -/

/-- Runs a write call, a nanosecond after whatever happened before. -/
def write (call : Instant → Statements α) : Access Deployment α :=
  ExceptT.mk fun d =>
    let d := d.later 1
    let working := if d.isOpen then none else some 0
    let (outcome, catalogue) := (call d.now).perform working d.catalogue
    (outcome, { d with catalogue })

/-- The writers of a deployment. -/
def writers : Writers Deployment :=
  { content := fun record =>
      unlessOffline Outages.content "storage" (write fun now => record.write now)
    topic := fun tag => unlessOffline Outages.topics "topics" (write fun _ => tag.write)
    equivalence := fun update =>
      unlessOffline Outages.equivalence "assertions" (write fun now => update.write now) }

/-! ### Reading -/

/-- What the statements of a read call see. -/
def snapshots (d : Deployment) : Snapshots :=
  if d.isOpen then .still d.catalogue else .failing .closedDatabase

/-- The records of some ids. -/
def resolve (d : Deployment) (ids : IdSet) : Except Fault (Resolved Content) :=
  if d.outages.content then .error (offline "storage")
  else resolveContent d.registry d.snapshots ids

/-- The equivalence sets of some ids. -/
def lookup (d : Deployment) (ids : IdSet) (enabled : PublisherSet) : Except Fault (IdMap IdSet) :=
  MediaCatalogue.lookup d.snapshots ids enabled

/-- The oldest requests to bring equivalence sets up to date. -/
def requests (limit : Nat) : Access Deployment (List RefreshRequest) :=
  whileOpen do (← get).catalogue.oldestRequests limit

/-- What a refresher of a deployment works with. -/
def refreshServices : RefreshServices Deployment :=
  { pending := requests
    refresh := fun id => write fun _ => MediaCatalogue.refresh id
    complete := fun request => write fun _ => completeRequest request }

end Deployment

end MediaCatalogue
