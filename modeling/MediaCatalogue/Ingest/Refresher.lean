import MediaCatalogue.Ingest.Apply
import MediaCatalogue.Store.RefreshQueue
import MediaCatalogue.Time.Duration

/-!
# The refresher

The refresher serves the requests to bring equivalence sets up to date. It reads a batch, serves its
requests one after the other, and removes those that were served and not made again meanwhile. When
a batch is empty it parks until it is woken; when something failed it makes a pause that doubles
each time, up to a limit.

* `Refresher.serve` serves one request, `Refresher.pass` a whole batch;
* `Refresher.afterPass` is the rule for pauses;
* `Refresher.step` is one step of the refresher as a machine with a permit: waking a refresher that
  is not parked leaves the permit, and a parked refresher that finds it goes on.
-/

namespace MediaCatalogue

/-- The timing of the refresher. -/
structure RefreshSettings where
  /-- The first pause after a failure. -/
  initialBackoff : Duration := .ofMillis 100
  /-- The longest pause after a failure. -/
  maxBackoff : Duration := .ofMillis 30000
  /-- How many requests are read at a time. -/
  batchSize : Nat := 100

/-- The timing of a refresher whose batches can hold a request. No configuration changes the size of
batches, so there is no other refresher in use. -/
structure WorkingSettings extends RefreshSettings where
  batchSize_pos : 0 < batchSize := by decide

/-- What the refresher works with. -/
structure RefreshServices (σ : Type) where
  /-- Reads the oldest requests. -/
  pending : Nat → Access σ (List RefreshRequest)
  /-- Brings the equivalence set of an id up to date. -/
  refresh : Id → Access σ Unit
  /-- Removes a request unless it was made again, and tells whether it did. -/
  complete : RefreshRequest → Access σ Bool

/-- The result of serving a batch. -/
structure Pass where
  /-- How many requests the batch has. -/
  taken : Nat
  /-- How many of them failed. -/
  failed : Nat
deriving DecidableEq, Repr

/-- Counts a served request. -/
def Pass.count (p : Pass) (failed : Bool) : Pass :=
  if failed then { p with failed := p.failed + 1 } else p

/-- What the refresher does after a pass. -/
inductive Pause where
  /-- It goes on at once. -/
  | none
  /-- It parks until it is woken. -/
  | idle
  /-- It waits. -/
  | wait (time : Duration)
deriving DecidableEq, Repr

namespace Refresher

variable {σ : Type}

/-- Serves a request. Tells whether serving it failed; removing it afterwards must not fail. -/
def serve (services : RefreshServices σ) (request : RefreshRequest) : Access σ Bool := do
  match ← ExceptT.lift (services.refresh request.id).run with
  | .error _ => return true
  | .ok () =>
    let _ ← services.complete request
    return false

/-- Serves requests one after the other. -/
def serveAll (services : RefreshServices σ) : List RefreshRequest → Pass → Access σ Pass
  | [], p => return p
  | request :: rest, p => do
    let failed ← serve services request
    serveAll services rest (p.count failed)

/-- Reads a batch and serves it. -/
def pass (services : RefreshServices σ) (settings : RefreshSettings) : Access σ Pass := do
  let batch ← services.pending settings.batchSize
  serveAll services batch ⟨batch.length, 0⟩

/-- What follows a pass, and the next pause after a failure. -/
def afterPass (settings : RefreshSettings) (backoff : Duration) :
    Except Fault Pass → Pause × Duration
  | .ok ⟨0, _⟩ => (.idle, settings.initialBackoff)
  | .ok ⟨_, 0⟩ => (.none, settings.initialBackoff)
  | _ => (.wait backoff, ⟨min (2 * backoff.nanos) settings.maxBackoff.nanos⟩)

/-- Where the refresher stands. -/
inductive Phase where
  /-- It reads the next batch. -/
  | reading
  /-- It serves the rest of a batch. -/
  | serving (rest : List RefreshRequest) (pass : Pass)
  /-- It waits until it is woken. -/
  | parked
  /-- It waits for some time. -/
  | waiting (time : Duration)

/-- The state of the refresher. -/
structure State where
  /-- Where it stands. -/
  phase : Phase
  /-- The next pause after a failure. -/
  backoff : Duration
  /-- It was woken and has not noticed yet. -/
  permit : Bool

/-- Before the first batch. -/
def State.initial (settings : RefreshSettings) : State := ⟨.reading, settings.initialBackoff, false⟩

/-- Wakes the refresher. -/
def State.wake (s : State) : State := { s with permit := true }

/-- Ends a pass. -/
def State.endPass (settings : RefreshSettings) (s : State) (outcome : Except Fault Pass) : State :=
  let (pause, backoff) := afterPass settings s.backoff outcome
  let phase := match pause with
    | .none => .reading
    | .idle => .parked
    | .wait time => .waiting time
  { s with phase, backoff }

/-- One step of the refresher. A parked refresher stays so without a permit. -/
def step (services : RefreshServices σ) (settings : RefreshSettings) (s : State) :
    StateM σ State := do
  match s.phase with
  | .reading =>
    match ← (services.pending settings.batchSize).run with
    | .error fault => return s.endPass settings (.error fault)
    | .ok batch => return { s with phase := .serving batch ⟨batch.length, 0⟩ }
  | .serving [] p => return s.endPass settings (.ok p)
  | .serving (request :: rest) p =>
    match ← (serve services request).run with
    | .error fault => return s.endPass settings (.error fault)
    | .ok failed => return { s with phase := .serving rest (p.count failed) }
  | .parked => return if s.permit then { s with phase := .reading, permit := false } else s
  | .waiting _ => return { s with phase := .reading }

/-- The refresher waits to be woken. -/
def State.isParked (s : State) : Bool :=
  match s.phase with
  | .parked => !s.permit
  | _ => false

/-- Runs the refresher until it is parked, for at most some steps. -/
def run (services : RefreshServices σ) (settings : RefreshSettings) : Nat → State → StateM σ State
  | 0, s => return s
  | steps + 1, s =>
    if s.isParked then return s
    else do run services settings steps (← step services settings s)

end Refresher

end MediaCatalogue
