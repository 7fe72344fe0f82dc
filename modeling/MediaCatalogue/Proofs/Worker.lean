import MediaCatalogue.Ingest.Worker
import MediaCatalogue.Proofs.Accesses
import MediaCatalogue.Proofs.Rows

/-!
# What a worker does with a message

A worker on the tables applies the update that a message asks for, and decides by the result; a
message that asks for none is acknowledged and changes nothing (`Worker.handled_onMessage`).

**Main theorem** (`Worker.Handled.reflects_of_ack`): if a worker acknowledges a message, the tables
reflect what the message asks for. There is one exception (`Worker.IsUndated`): the request that a
record or an assertion leaves has no time if the clock shows one that cannot be stored, and this
counts as a fault of the message.
-/

namespace MediaCatalogue

/-- The message asks for an update. -/
def EntityUpdate.IsAsked (registry : Registry) (message : List UInt8) (update : EntityUpdate) :
    Prop :=
  ∃ e, ChangeEvent.decode message = .ok e ∧ EntityUpdate.ofEvent registry e = .ok update

/-- The message asks for an update of the time `nanos`. -/
def EntityUpdate.IsAskedAt (registry : Registry) (message : List UInt8) (update : EntityUpdate)
    (nanos : Int) : Prop :=
  update.IsAsked registry message ∧ update.timestamp.nanos? = some nanos

/-! ### Events and updates -/

namespace EntityUpdate

variable {registry : Registry} {e : ChangeEvent} {update : EntityUpdate}

theorem ofPayload_eq_ok {publisher : Publisher} (h : ofPayload e publisher = .ok update) :
    update.entityType = e.entityType ∧ update.entityId = e.entityId ∧
      update.timestamp = e.timestamp := by
  unfold ofPayload at h
  split at h
  · rename_i htype
    obtain ⟨_, _, heq⟩ := of_bind_eq_ok h
    cases heq
    exact ⟨htype.symm, rfl, rfl⟩
  · rename_i htype
    obtain ⟨_, _, heq⟩ := of_bind_eq_ok h
    cases heq
    exact ⟨htype.symm, rfl, rfl⟩
  · rename_i htype
    obtain ⟨_, _, heq⟩ := of_bind_eq_ok h
    cases heq
    exact ⟨htype.symm, rfl, rfl⟩

theorem ofEvent_of_ofPayload {publisher : Publisher}
    (hsource : registry.find? e.source = some publisher)
    (hpayload : ofPayload e publisher = .ok update) : ofEvent registry e = .ok update := by
  simp only [ofEvent, hsource, hpayload]
  rfl

theorem exists_publisher_of_ofEvent (h : ofEvent registry e = .ok update) :
    ∃ publisher, registry.find? e.source = some publisher ∧
      ofPayload e publisher = .ok update := by
  unfold ofEvent at h
  split at h
  · cases h
  · rename_i publisher hsource
    exact ⟨publisher, hsource, mapError_eq_ok_iff.1 h⟩

theorem ofEvent_eq_ok (h : ofEvent registry e = .ok update) :
    update.entityType = e.entityType ∧ update.entityId = e.entityId ∧
      update.timestamp = e.timestamp := by
  obtain ⟨publisher, _, hpayload⟩ := exists_publisher_of_ofEvent h
  exact ofPayload_eq_ok hpayload

theorem not_isRetryable_of_payloadAs {α : Type} {decoder : Json.Decoder α} {fault : Fault}
    (h : e.payloadAs decoder = .error fault) : (IngestError.ofFault fault).isRetryable = false := by
  obtain ⟨_, _, rfl⟩ := mapError_eq_error_iff.1 h
  rfl

theorem not_isRetryable_of_ofPayload {publisher : Publisher} {fault : Fault}
    (h : ofPayload e publisher = .error fault) :
    (IngestError.ofFault fault).isRetryable = false := by
  unfold ofPayload at h
  split at h
  · exact not_isRetryable_of_payloadAs (of_bind_pure_eq_error h)
  · exact not_isRetryable_of_payloadAs (of_bind_pure_eq_error h)
  · exact not_isRetryable_of_payloadAs (of_bind_pure_eq_error h)

theorem not_isRetryable_of_ofEvent {error : IngestError} (h : ofEvent registry e = .error error) :
    error.isRetryable = false := by
  unfold ofEvent at h
  split at h
  · cases h
    rfl
  · obtain ⟨_, hpayload, rfl⟩ := mapError_eq_error_iff.1 h
    exact not_isRetryable_of_ofPayload hpayload

theorem isAskedAt_of_ofEvent {message : List UInt8} {nanos : Int}
    (hdecode : ChangeEvent.decode message = .ok e) (h : ofEvent registry e = .ok update)
    (hnanos : e.timestamp.nanos? = some nanos) : update.IsAskedAt registry message nanos := by
  refine ⟨⟨e, hdecode, h⟩, ?_⟩
  rw [(ofEvent_eq_ok h).2.2]
  exact hnanos

theorem IsAsked.unique {message : List UInt8} {update' : EntityUpdate}
    (h : update.IsAsked registry message) (h' : update'.IsAsked registry message) :
    update = update' := by
  obtain ⟨e, he, hupdate⟩ := h
  obtain ⟨e', he', hupdate'⟩ := h'
  rw [he] at he'
  cases he'
  rw [hupdate] at hupdate'
  exact Except.ok.inj hupdate'

/-- The update that a message asks for, or what is wrong with the message. -/
def ofMessage (registry : Registry) (message : List UInt8) : Except IngestError EntityUpdate :=
  (ChangeEvent.decode message).mapError IngestError.ofFault >>= ofEvent registry

theorem ofMessage_eq_ok_iff {message : List UInt8} :
    ofMessage registry message = .ok update ↔ update.IsAsked registry message := by
  constructor
  · intro h
    obtain ⟨e, hdecode, hupdate⟩ := of_bind_eq_ok h
    exact ⟨e, mapError_eq_ok_iff.1 hdecode, hupdate⟩
  · rintro ⟨e, hdecode, hupdate⟩
    rw [ofMessage, hdecode]
    exact hupdate

/-- A message that asks for no update will not ask for one later. -/
theorem not_isRetryable_of_ofMessage {message : List UInt8} {error : IngestError}
    (h : ofMessage registry message = .error error) : error.isRetryable = false := by
  rcases of_bind_eq_error h with hdecode | ⟨e, _, hupdate⟩
  · obtain ⟨_, hfault, rfl⟩ := mapError_eq_error_iff.1 hdecode
    obtain ⟨_, _, rfl⟩ := mapError_eq_error_iff.1 hfault
    rfl
  · exact not_isRetryable_of_ofEvent hupdate

end EntityUpdate

/-! ### Decisions -/

/-- What a worker decides by the result of processing a message. -/
def Decision.ofResult : Except IngestError Outcome → Decision
  | .ok _ => .ack
  | .error e => if e.isRetryable then .nack else .ack

namespace Worker

/-- A worker on the tables, at the time `now`, if enough statements work. -/
def stored (registry : Registry) (now : Instant) (working : Option Nat) : Worker Catalogue :=
  ⟨registry, .stored now working, return ()⟩

variable {registry : Registry} {now : Instant} {working : Option Nat} {message : List UInt8}
  {c : Catalogue}

section

variable {σ : Type} {update : EntityUpdate} {s s' : σ}

theorem run_onMessage (worker : Worker σ) (message : List UInt8) (s : σ) :
    (worker.onMessage message).run s =
      (.ofResult ((worker.process message).run s).1, ((worker.process message).run s).2) := by
  simp only [onMessage, bind, StateT.bind, StateT.run, ExceptT.run]
  cases worker.process message s with
  | mk result s' => cases result <;> rfl

theorem run_process_of_error (worker : Worker σ) {error : IngestError}
    (h : EntityUpdate.ofMessage worker.registry message = .error error) :
    (worker.process message).run s = (.error error, s) := by
  unfold EntityUpdate.ofMessage at h
  unfold process
  cases hdecode : ChangeEvent.decode message with
  | error fault =>
    rw [hdecode] at h
    cases h
    exact run_bind_error (run_liftM _)
  | ok e =>
    rw [hdecode] at h
    rw [Except.mapError, run_bind_ok (run_liftM _)]
    refine run_bind_error ?_
    rw [run_liftM]
    exact congrArg (·, s) h

/-- An update that fails changes nothing beyond what its writer did. -/
theorem run_process_of_fault (worker : Worker σ) {fault : Fault}
    (hasked : update.IsAsked worker.registry message)
    (h : (worker.writers.apply update).run s = (.error fault, s')) :
    (worker.process message).run s = (.error (.ofFault fault), s') := by
  obtain ⟨e, hdecode, hupdate⟩ := hasked
  unfold process
  rw [hdecode, Except.mapError, run_bind_ok (run_liftM _), hupdate, run_bind_ok (run_liftM _)]
  refine run_bind_error ?_
  rw [run_adapt, h]
  rfl

theorem run_process (worker : Worker σ) {outcome : Outcome}
    (hasked : update.IsAsked worker.registry message)
    (h : (worker.writers.apply update).run s = (.ok outcome, s')) :
    (worker.process message).run s =
      (.ok outcome, if outcome.hasRequests then (worker.wake.run s').2 else s') := by
  obtain ⟨e, hdecode, hupdate⟩ := hasked
  unfold process
  rw [hdecode, Except.mapError, run_bind_ok (run_liftM _), hupdate, run_bind_ok (run_liftM _)]
  have hadapt : (ExceptT.adapt IngestError.ofFault (worker.writers.apply update)).run s =
      (.ok outcome, s') := by
    rw [run_adapt, h]
    rfl
  rw [run_bind_ok hadapt]
  cases outcome.hasRequests with
  | true => rfl
  | false => rfl

end

theorem run_wake_stored {condition : Bool} :
    (if condition then ((stored registry now working).wake.run c).2 else c) = c := by
  cases condition <;> rfl

/-- The message asks for a record or an assertion that is newer than what is stored, and the request
that this would leave has a time that cannot be stored. -/
def IsUndated (registry : Registry) (now : Instant) (message : List UInt8) (c : Catalogue) : Prop :=
  now.nanos? = none ∧ ∃ (update : EntityUpdate) (nanos : Int),
    update.IsAskedAt registry message nanos ∧ update.entityType ≠ .topic ∧
      ¬ c.Reflects update.entityType update.entityId nanos

theorem not_isUndated (h : ∃ nanos, now.nanos? = some nanos) :
    ¬ IsUndated registry now message c := by
  rintro ⟨hnone, _⟩
  obtain ⟨nanos, hnanos⟩ := h
  cases hnone.symm.trans hnanos

/-- What a worker can do with a message. -/
inductive Handled (registry : Registry) (now : Instant) (message : List UInt8) (c : Catalogue) :
    Decision → Catalogue → Prop
  /-- It applies the update that the message asks for, or finds that it came too late. -/
  | written {update : EntityUpdate} {outcome : Outcome} {c' : Catalogue}
    (hasked : update.IsAsked registry message) (hwritten : update.Written now c outcome c') :
    Handled registry now message c .ack c'
  /-- It cannot apply the update. -/
  | failed {update : EntityUpdate} {fault : Fault} (hasked : update.IsAsked registry message)
    (hfault : update.ApplyFault now c fault) :
    Handled registry now message c (.ofResult (.error (.ofFault fault))) c
  /-- The message asks for no update. -/
  | dropped (hnone : ∀ update : EntityUpdate, ¬ update.IsAsked registry message) :
    Handled registry now message c .ack c

/-- **What a worker does with a message.** It applies the update that the message asks for, and
decides by the result; a message that asks for none is dropped. -/
theorem handled_onMessage (registry : Registry) (now : Instant) (working : Option Nat)
    (message : List UInt8) (c : Catalogue) :
    Handled registry now message c (((stored registry now working).onMessage message).run c).1
      (((stored registry now working).onMessage message).run c).2 := by
  rw [run_onMessage]
  cases hupdate : EntityUpdate.ofMessage registry message with
  | error error =>
    rw [run_process_of_error (stored registry now working) hupdate, Decision.ofResult,
      EntityUpdate.not_isRetryable_of_ofMessage hupdate]
    refine .dropped fun update hasked => ?_
    cases hupdate.symm.trans (EntityUpdate.ofMessage_eq_ok_iff.2 hasked)
  | ok update =>
    have hasked := EntityUpdate.ofMessage_eq_ok_iff.1 hupdate
    rcases Writers.apply_stored now working update c with
      ⟨outcome, hresult, hwritten⟩ | ⟨fault, hresult, hfault, hsame⟩
    · rw [run_process (stored registry now working) hasked (Prod.ext hresult rfl),
        run_wake_stored]
      exact .written hasked hwritten
    · rw [run_process_of_fault (stored registry now working) hasked (Prod.ext hresult hsame)]
      exact .failed hasked hfault

namespace Handled

variable {decision : Decision} {c' : Catalogue}

theorem reflects_of_reflects (h : Handled registry now message c decision c') {type : EntityType}
    {id : Id} {nanos : Int} (hreflects : c.Reflects type id nanos) : c'.Reflects type id nanos := by
  cases h with
  | written _ hwritten => exact hwritten.reflects_of_reflects hreflects
  | failed => exact hreflects
  | dropped => exact hreflects

/-- A worker writes nothing but the updates that messages ask for. -/
theorem stemsFrom (h : Handled registry now message c decision c')
    {offered : EntityUpdate → Int → Prop} (hc : c.StemsFrom offered)
    (hoffered : ∀ (update : EntityUpdate) (nanos : Int),
      update.IsAskedAt registry message nanos → offered update nanos) : c'.StemsFrom offered := by
  cases h with
  | written hasked hwritten =>
    exact hwritten.stemsFrom hc fun nanos hnanos => hoffered _ _ ⟨hasked, hnanos⟩
  | failed => exact hc
  | dropped => exact hc

/-- **No early acknowledgement.** When a worker acknowledges a message, the tables reflect what the
message asks for, unless its request would be undated. -/
theorem reflects_of_ack (h : Handled registry now message c .ack c') (hedges : c.edges.HoldsIds)
    {update : EntityUpdate} {nanos : Int} (hasked : update.IsAskedAt registry message nanos) :
    c'.Reflects update.entityType update.entityId nanos ∨ IsUndated registry now message c := by
  by_cases hreflects : c'.Reflects update.entityType update.entityId nanos
  · exact .inl hreflects
  right
  obtain ⟨hupdate, hnanos⟩ := hasked
  generalize hdecision : Decision.ack = decision at h
  cases h with
  | written hupdate' hwritten =>
    cases hupdate.unique hupdate'
    exact absurd (hwritten.reflects hnanos) hreflects
  | failed hupdate' hfault =>
    cases hupdate.unique hupdate'
    -- A message is acknowledged with a fault only if one of its times cannot be stored.
    cases hfault with
    | write hfault =>
      cases hfault with
      | broken => cases hdecision
      | unstorable ht hnone =>
        rcases EntityUpdate.eq_of_mem_timesStored ht with rfl | ⟨rfl, htype⟩
        · cases hnone.symm.trans hnanos
        · exact ⟨hnone, update, nanos, ⟨hupdate, hnanos⟩, htype, hreflects⟩
    | target hfault =>
      obtain ⟨ids, hids, _⟩ := EdgeSet.targetIds_spec hedges update.entityId
      rw [hids] at hfault
      cases hfault
  | dropped hnone => exact absurd hupdate (hnone update)

end Handled

end Worker

end MediaCatalogue
