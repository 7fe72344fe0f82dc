import MediaCatalogue.Deployment.Messages

/-!
# Rehearsals

In a `Rehearsal` some accesses to a deployment fail on purpose: the next few refreshes, reads of the
request queue, or receives of messages. Records can be written just when their ids are being
refreshed, one record a refresh, so that their requests are made again while they are served. All
calls of the index are recorded.

* `Rehearsal.drain` runs the refresher until it has nothing to do;
* `Rehearsal.live` lets a worker take messages while the refresher runs;
* `Rehearsal.serveQueue` runs a pool until no message is left.
-/

namespace MediaCatalogue

/-- A deployment in which some accesses fail on purpose. -/
structure Rehearsal where
  /-- The deployment. -/
  deployment : Deployment
  /-- How many of the next refreshes fail. -/
  refreshFailures : Nat := 0
  /-- How many of the next reads of the request queue fail. -/
  queueFailures : Nat := 0
  /-- How many of the next receives fail. -/
  receiveFailures : Nat := 0
  /-- Records to be written while their ids are being refreshed. -/
  arriving : List Content := []
  /-- The refreshes so far, the last one first, and whether they were let through. -/
  calls : List (Id × Bool) := []
  /-- The refresher. -/
  refresher : Refresher.State

namespace Rehearsal

variable {α : Type}

/-- An access to the deployment. -/
def access (a : Access Deployment α) : Access Rehearsal α :=
  ExceptT.mk fun r =>
    let (outcome, deployment) := a.run r.deployment
    (outcome, { r with deployment })

/-- The fault of an access that fails on purpose. -/
def fault : Fault := .dependency (.described "out of order")

/-- Reads the request queue. -/
def pending (limit : Nat) : Access Rehearsal (List RefreshRequest) := do
  let r ← get
  if 0 < r.queueFailures then
    set { r with queueFailures := r.queueFailures - 1 }
    throw fault
  access (Deployment.refreshServices.pending limit)

/-- Lets a refresh through, unless it fails on purpose. -/
def letThrough (id : Id) : Access Rehearsal Unit := do
  let r ← get
  if 0 < r.refreshFailures then
    set { r with refreshFailures := r.refreshFailures - 1, calls := (id, false) :: r.calls }
    throw fault
  set { r with calls := (id, true) :: r.calls }

/-- Writes the next record that arrives for an id. -/
def writeArriving (id : Id) : Access Rehearsal Unit := do
  let r ← get
  match r.arriving.find? (·.id = id) with
  | none => return ()
  | some content =>
    set { r with arriving := r.arriving.eraseP (·.id = id) }
    let _ ← access (Deployment.writers.content content)
    return ()

/-- Refreshes an id, after the next record that arrives for it. If that record cannot be written,
the refresh fails. -/
def refresh (id : Id) : Access Rehearsal Unit := do
  letThrough id
  writeArriving id
  access (Deployment.refreshServices.refresh id)

/-- What the refresher works with. -/
def services : RefreshServices Rehearsal :=
  { pending, refresh
    complete := fun request => access (Deployment.refreshServices.complete request) }

/-- A bound on the steps that the refresher needs to serve all requests. -/
def steps (r : Rehearsal) : Nat :=
  let requests := r.deployment.catalogue.pending.size + r.arriving.length
  (r.refreshFailures + r.queueFailures + requests + 2) * (requests + 4)

/-- Runs the refresher until it is parked. -/
def runRefresher (settings : RefreshSettings) : StateM Rehearsal Unit := do
  let r ← get
  let refresher ← Refresher.run services settings r.steps r.refresher
  modify fun r => { r with refresher }

/-- Tells whether no request is left. -/
def isDrained : Access Rehearsal Bool :=
  access (Deployment.whileOpen do return (← get).catalogue.pending.isEmpty)

/-- Runs the refresher until it has nothing to do. Tells whether no request is left. -/
def drain (settings : RefreshSettings) : Access Rehearsal Bool := do
  runRefresher settings
  isDrained

/-- A worker that wakes the refresher. -/
def worker (registry : Registry) : Worker Rehearsal :=
  { registry
    writers :=
      { content := fun content => access (Deployment.writers.content content)
        topic := fun topic => access (Deployment.writers.topic topic)
        equivalence := fun update => access (Deployment.writers.equivalence update) }
    wake := modify fun r => { r with refresher := r.refresher.wake } }

/-- Takes messages while the refresher runs, and then lets it serve what is left. -/
def live (registry : Registry) (settings : RefreshSettings) (messages : List (List UInt8)) :
    Access Rehearsal (List Decision × Bool) := do
  runRefresher settings
  let decisions ← messages.mapM fun message => do
    let decision ← (worker registry).onMessage message
    runRefresher settings
    return decision
  return (decisions, ← drain settings)

/-- The consumer side of the broker. -/
def subscription (settings : BrokerSettings) : Subscription Rehearsal :=
  let inner := Deployment.subscription settings
  { partitions := inner.partitions
    receive := fun partition => do
      let r ← get
      if 0 < r.receiveFailures then
        set { r with receiveFailures := r.receiveFailures - 1 }
        throw fault
      access (inner.receive partition)
    ack := fun delivery => access (inner.ack delivery)
    nack := fun delivery => access (inner.nack delivery) }

/-- Moves the clock to the time when the next message of a partition that is served becomes visible,
if there is such a time. -/
def waitForMessage (settings : BrokerSettings) (r : Rehearsal) : Rehearsal :=
  let served := r.deployment.queue.messages.toList.filter fun (_, m) =>
    decide (m.partition < settings.partitions)
  match (served.map fun (_, m) => m.visibleAt).min? with
  | none => r
  | some millis =>
    if Word.fits (millis * 1000000) then
      { r with
        deployment := { r.deployment with clock := max r.deployment.clock (millis * 1000000) } }
    else r

/-- Runs a pool for at most some rounds, until no message is left. -/
def serveQueue (registry : Registry) (settings : BrokerSettings) : Nat → StateM Rehearsal Unit
  | 0 => return ()
  | rounds + 1 => do
    if (← get).deployment.queue.size = 0 then return ()
    modify (waitForMessage settings)
    Pool.round ⟨subscription settings, worker registry⟩
    serveQueue registry settings rounds

/-- A bound on the rounds that a pool needs when nothing but receives fails. -/
def rounds (r : Rehearsal) : Nat := r.deployment.queue.size + r.receiveFailures + 1

end Rehearsal

end MediaCatalogue
