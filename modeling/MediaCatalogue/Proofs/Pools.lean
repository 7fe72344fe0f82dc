import MediaCatalogue.Deployment.Messages
import MediaCatalogue.Proofs.Delivery

/-!
# Pools at work

A pool that processes the next message of a partition receives it, lets a worker decide, and settles
it: these are steps of a consumer of an `Ingestion`. `Ingestion.Shows` says that an ingestion has
the queue and the tables of a deployment.

**Main theorem** (`Ingestion.Shows.steps_round`): what a round of a pool does to a deployment, steps
of a consumer do to any ingestion that shows it. So what all steps keep, a round keeps
(`Ingestion.Shows.consistent_round`).
-/

namespace MediaCatalogue

/-! ### Workers -/

namespace Worker

variable {σ : Type}

/-- A worker whose writers do what those on the tables do decides as a worker on the tables. -/
theorem onMessage_stored (worker : Worker σ) (now : Instant) (working : Option Nat)
    (R : σ → Catalogue → Prop) {s : σ} {c : Catalogue} (hstart : R s c)
    (happly : ∀ update, ((worker.writers.apply update).run s).1 =
        (((Writers.stored now working).apply update).run c).1 ∧
      R ((worker.writers.apply update).run s).2
        (((Writers.stored now working).apply update).run c).2)
    (hwake : ∀ s' c', R s' c' → R (worker.wake.run s').2 c') (message : List UInt8) :
    ((worker.onMessage message).run s).1 =
        (((stored worker.registry now working).onMessage message).run c).1 ∧
      R ((worker.onMessage message).run s).2
        (((stored worker.registry now working).onMessage message).run c).2 := by
  rw [run_onMessage, run_onMessage]
  cases hupdate : EntityUpdate.ofMessage worker.registry message with
  | error error =>
    rw [run_process_of_error worker hupdate,
      run_process_of_error (stored worker.registry now working) hupdate]
    exact ⟨rfl, hstart⟩
  | ok update =>
    have hasked := EntityUpdate.ofMessage_eq_ok_iff.1 hupdate
    -- Both workers apply the same update, with the same result.
    obtain ⟨hresult, hnext⟩ := happly update
    cases hworker : (worker.writers.apply update).run s with
    | mk result s' =>
      cases htables : ((Writers.stored now working).apply update).run c with
      | mk result' c' =>
        rw [hworker, htables] at hresult hnext
        cases hresult
        cases result with
        | error fault =>
          rw [run_process_of_fault worker hasked hworker,
            run_process_of_fault (stored worker.registry now working) hasked htables]
          exact ⟨rfl, hnext⟩
        | ok outcome =>
          rw [run_process worker hasked hworker,
            run_process (stored worker.registry now working) hasked htables, run_wake_stored]
          refine ⟨rfl, ?_⟩
          cases outcome.hasRequests with
          | false => exact hnext
          | true => exact hwake s' c' hnext

end Worker

namespace Deployment

variable {d : Deployment}

/-! ### Accesses of a deployment -/

theorem run_get : (get : Access Deployment Deployment).run d = (.ok d, d) := rfl

theorem run_whileOpen {α : Type} {access : Access Deployment α} (hopen : d.isOpen = true) :
    (whileOpen access).run d = access.run d := by
  unfold whileOpen
  rw [run_bind_ok run_get, if_pos hopen]

theorem run_whileOpen_of_closed {α : Type} {access : Access Deployment α}
    (hopen : d.isOpen = false) :
    (whileOpen access).run d = (.error .closedDatabase, d) := by
  unfold whileOpen
  rw [run_bind_ok run_get, hopen]
  rfl

theorem run_unlessOffline {α : Type} {isOffline : Outages → Bool} {part : String}
    {access : Access Deployment α} (h : isOffline d.outages = false) :
    (unlessOffline isOffline part access).run d = access.run d := by
  unfold unlessOffline
  rw [run_bind_ok run_get, h]
  rfl

/-- How many statements of a write call work. -/
def working (d : Deployment) : Option Nat := if d.isOpen then none else some 0

theorem run_write {α : Type} (call : Instant → Statements α) :
    (write call).run d =
      (((call (d.later 1).now).perform d.working d.catalogue).1,
        { d.later 1 with
          catalogue := ((call (d.later 1).now).perform d.working d.catalogue).2 }) := by
  show (((call (d.later 1).now).perform (d.later 1).working (d.later 1).catalogue).1, _) = _
  rfl

/-- The writers of a deployment are those on its tables, a nanosecond later. -/
theorem run_apply (houtages : d.outages = {}) (update : EntityUpdate) :
    (writers.apply update).run d =
      ((((Writers.stored (d.later 1).now d.working).apply update).run d.catalogue).1,
        { d.later 1 with
          catalogue :=
            (((Writers.stored (d.later 1).now d.working).apply update).run d.catalogue).2 }) := by
  cases update with
  | content record =>
    rw [Writers.run_apply_content, Writers.run_apply_content, Writers.run_stored_content, writers,
      run_unlessOffline (by rw [houtages]), run_write]
  | topic tag =>
    rw [Writers.run_apply_topic, Writers.run_apply_topic, Writers.run_stored_topic, writers,
      run_unlessOffline (by rw [houtages]), run_write]
  | equivalence u =>
    rw [Writers.run_apply_equivalence, Writers.run_apply_equivalence,
      Writers.run_stored_equivalence, writers, run_unlessOffline (by rw [houtages]), run_write]

theorem run_onMessage (houtages : d.outages = {}) (registry : Registry) (message : List UInt8) :
    ∃ clock : Int, d.clock ≤ clock ∧ clock ≤ d.clock + 1 ∧
      ((worker registry).onMessage message).run d =
        ((((Worker.stored registry (d.later 1).now d.working).onMessage message).run
            d.catalogue).1,
          { d with
            clock
            catalogue := (((Worker.stored registry (d.later 1).now d.working).onMessage
              message).run d.catalogue).2 }) := by
  obtain ⟨hdecision, clock, hle, hlt, hnext⟩ := Worker.onMessage_stored (worker registry)
    (d.later 1).now d.working
    (fun d' c => ∃ clock : Int, d.clock ≤ clock ∧ clock ≤ d.clock + 1 ∧
      d' = { d with clock, catalogue := c })
    ⟨d.clock, by omega, by omega, rfl⟩
    (fun update => by
      rw [worker, run_apply houtages]
      exact ⟨rfl, d.clock + 1, by omega, by omega, rfl⟩)
    (fun d' c' h => h) message
  exact ⟨clock, hle, hlt, Prod.ext hdecision hnext⟩

theorem run_receive (settings : BrokerSettings) (partition : Nat) (hopen : d.isOpen = true) :
    (receive settings partition).run d =
      (.ok (d.queue.receive settings d.now d.nextLease partition).1,
        { d with
          queue := (d.queue.receive settings d.now d.nextLease partition).2
          nextLease := d.nextLease + 1 }) := by
  unfold receive
  rw [run_whileOpen hopen, run_bind_ok run_get]
  rfl

theorem run_ack (delivery : Delivery) (hopen : d.isOpen = true) :
    (ack delivery).run d = (.ok (), { d with queue := d.queue.ack delivery }) := by
  unfold ack
  rw [run_whileOpen hopen]
  rfl

theorem run_nack (settings : BrokerSettings) (delivery : Delivery) (hopen : d.isOpen = true) :
    (nack settings delivery).run d =
      (.ok (), { d with queue := d.queue.nack settings d.now delivery }) := by
  unfold nack
  rw [run_whileOpen hopen]
  rfl

/-! ### Messages -/

/-- A pool of a deployment. -/
def pool (settings : BrokerSettings) (registry : Registry) : Pool Deployment :=
  ⟨subscription settings, worker registry⟩

variable {settings : BrokerSettings} {registry : Registry} {partition : Nat}

theorem run_processNext_of_closed (hopen : d.isOpen = false) :
    ((pool settings registry).processNext partition).run d = (.error .closedDatabase, d) := by
  unfold Pool.processNext
  refine run_bind_error ?_
  exact run_whileOpen_of_closed hopen

theorem run_processNext_of_none {d' : Deployment}
    (h : (receive settings partition).run d = (.ok none, d')) :
    ((pool settings registry).processNext partition).run d = (.ok none, d') := by
  unfold Pool.processNext
  rw [show (pool settings registry).subscription.receive = receive settings from rfl,
    run_bind_ok h]
  rfl

theorem run_processNext_of_some {delivery : Delivery} {decision : Decision} {d' d'' : Deployment}
    (hreceive : (receive settings partition).run d = (.ok (some delivery), d'))
    (hdecide : ((worker registry).onMessage delivery.body).run d' = (decision, d''))
    (hopen : d''.isOpen = true) :
    ((pool settings registry).processNext partition).run d =
      (.ok (some decision),
        { d'' with queue := d''.queue.settle settings d''.now delivery decision }) := by
  unfold Pool.processNext
  rw [show (pool settings registry).subscription.receive = receive settings from rfl,
    run_bind_ok hreceive]
  refine (run_bind_ok (run_lift hdecide)).trans ?_
  cases decision with
  | ack => exact run_bind_ok (run_ack delivery hopen)
  | nack => exact run_bind_ok (run_nack settings delivery hopen)

end Deployment

namespace Ingestion

/-- The ingestion has the queue and the tables of the deployment. -/
structure Shows (s : Ingestion) (d : Deployment) : Prop where
  queue : s.queue = d.queue
  catalogue : s.maintenance.catalogue = d.catalogue

variable {registry : Registry} {clock : SystemClock} {settings : BrokerSettings}
  {s : Ingestion} {d : Deployment}

theorem run_delivered {consumer tick lease partition : Nat} {working : Option Nat}
    {now now' : Instant} {delivery : Delivery} {q : MessageQueue} {decision : Decision}
    {c : Catalogue}
    (hreceive : s.queue.receive settings now lease partition = (some delivery, q))
    (hhandle : handle registry clock tick working delivery.body s.maintenance.catalogue =
      (decision, c)) :
    run registry clock
        [.receive consumer settings now lease partition, .process consumer tick working,
          .settle consumer settings now'] s =
      { s.withCatalogue c with queue := q.settle settings now' delivery decision }.assign consumer
        none := by
  simp [run, act, hreceive, hhandle, assign, withCatalogue]

theorem Shows.steps_processNext (registry : Registry) (settings : BrokerSettings)
    (h : s.Shows d) (houtages : d.outages = {}) (consumer : Nat)
    {tick : Nat} (hclock : clock tick = (d.later 1).now) (partition : Nat) :
    ∃ actions d', (((Deployment.pool settings registry).processNext partition).run d).2 = d' ∧
      (run registry clock actions s).Shows d' ∧ d'.outages = {} ∧ d.clock ≤ d'.clock ∧
        d'.clock ≤ d.clock + 1 := by
  cases hopen : d.isOpen with
  | false =>
    rw [Deployment.run_processNext_of_closed hopen]
    exact ⟨[], d, rfl, h, houtages, by omega, by omega⟩
  | true =>
    have hreceive := Deployment.run_receive settings partition hopen
    cases hnext : d.queue.receive settings d.now d.nextLease partition with
    | mk received q =>
      rw [hnext] at hreceive
      cases received with
      | none =>
        rw [Deployment.run_processNext_of_none hreceive]
        refine ⟨[.receive consumer settings d.now d.nextLease partition], _, rfl, ⟨?_, ?_⟩,
          houtages, by simp, ?_⟩
        · simp [run, act, assign, h.queue, hnext]
        · simp [run, act, assign, h.catalogue]
        · show d.clock ≤ d.clock + 1
          omega
      | some delivery =>
        -- Receiving changes neither the tables nor the clock, so the worker sees those of `d`.
        obtain ⟨time, hle, hlt, hdecide⟩ := Deployment.run_onMessage
          (d := { d with queue := q, nextLease := d.nextLease + 1 }) houtages registry
          delivery.body
        have hhandle : handle registry clock tick d.working delivery.body
            s.maintenance.catalogue =
              ((Worker.stored registry (d.later 1).now d.working).onMessage delivery.body).run
                d.catalogue := by
          rw [handle, hclock, h.catalogue]
        rw [Deployment.run_processNext_of_some hreceive hdecide hopen]
        refine ⟨[.receive consumer settings d.now d.nextLease partition,
          .process consumer tick d.working, .settle consumer settings (.ofNanos time)], _, rfl,
          ?_, houtages, hle, hlt⟩
        rw [← h.queue] at hnext
        rw [run_delivered hnext hhandle]
        exact ⟨rfl, rfl⟩

theorem Shows.steps_forM (h : s.Shows d) (houtages : d.outages = {}) (consumer : Nat)
    (partitions : List Nat)
    (hclock : ∀ nanos, d.clock < nanos → nanos ≤ d.clock + partitions.length →
      ∃ tick, clock tick = .ofNanos nanos) :
    ∃ actions, (run registry clock actions s).Shows
      ((partitions.forM fun partition => do
        let _ ← ((Deployment.pool settings registry).processNext partition).run
        return ()).run d).2 := by
  induction partitions generalizing s d with
  | nil => exact ⟨[], h⟩
  | cons partition partitions ih =>
    rw [List.length_cons] at hclock
    -- A write takes a nanosecond, so the times of the other partitions are still ahead.
    obtain ⟨tick, htick⟩ := hclock (d.clock + 1) (by omega) (by omega)
    obtain ⟨first, d', hd', hfirst, houtages', hle, hlt⟩ :=
      h.steps_processNext registry settings houtages consumer htick partition
    obtain ⟨rest, hrest⟩ := ih hfirst houtages' fun nanos hlow hhigh =>
      hclock nanos (by omega) (by omega)
    refine ⟨first ++ rest, ?_⟩
    rw [run, List.foldl_append]
    subst hd'
    exact hrest

/-- **A round of a pool is a sequence of steps**, if the clock of the ingestion shows the times at
which the pool writes. -/
theorem Shows.steps_round (h : s.Shows d) (houtages : d.outages = {}) (consumer : Nat)
    (hclock : ∀ nanos, d.clock < nanos → nanos ≤ d.clock + settings.partitions →
      ∃ tick, clock tick = .ofNanos nanos) :
    ∃ actions, (run registry clock actions s).Shows
      ((Deployment.pool settings registry).round.run d).2 :=
  h.steps_forM houtages consumer (List.range settings.partitions) (by simpa using hclock)

/-- After a round no message of the deployment is lost, if none was before. -/
theorem Shows.consistent_round {dropped : Int → Prop} (h : s.Shows d)
    (hconsistent : s.Consistent registry dropped) (houtages : d.outages = {})
    (hstorable : clock.Storable)
    (hclock : ∀ nanos, d.clock < nanos → nanos ≤ d.clock + settings.partitions →
      ∃ tick, clock tick = .ofNanos nanos) :
    ∃ s' : Ingestion, s'.Consistent registry dropped ∧
      s'.Shows ((Deployment.pool settings registry).round.run d).2 := by
  obtain ⟨actions, hshows⟩ := h.steps_round houtages 0 hclock
  exact ⟨_, hconsistent.run_of_storable hstorable actions, hshows⟩

end Ingestion

end MediaCatalogue
