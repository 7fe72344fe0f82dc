import MediaCatalogue.Proofs.Counts
import MediaCatalogue.Proofs.Transactions
import MediaCatalogue.Proofs.Worker

/-!
# Messages are processed as a whole

A message has one of three fates: it is written and acknowledged, it is acknowledged without any
effect, or it is given back without any effect.

* `Fate.Shows` says what the decision of the worker and the tables show of each fate;
* `Fate.Cause` lists what each fate comes from: the message, the row that is stored, and the
  statements that work.

**Main theorem** (`Worker.all_or_nothing`): on all tables that transactions can leave, exactly one
fate shows, and it is that of the cause. Whatever is committed after an acknowledgement, the same
message changes nothing when it is processed again.
-/

namespace MediaCatalogue

/-- The payload of an event fits its type. -/
def ChangeEvent.Fits (e : ChangeEvent) : Prop :=
  match e.entityType with
  | .content => ∃ payload, e.payloadAs ContentPayload.decoder = .ok payload
  | .topic => ∃ payload, e.payloadAs TopicPayload.decoder = .ok payload
  | .equivalence => ∃ payload, e.payloadAs EquivalencePayload.decoder = .ok payload

/-- One of the statements that the update takes does not work. -/
def EntityUpdate.Breaks (now : Instant) (working : Option Nat) (c : Catalogue)
    (update : EntityUpdate) : Prop :=
  ∃ outcome c', update.Written now c outcome c' ∧
    Statements.Breaks working (update.statementCount outcome)

/-- The fates of a message. -/
inductive Fate where
  /-- It is written and acknowledged. -/
  | written
  /-- It is acknowledged and has no effect. -/
  | dropped
  /-- It is given back and has no effect. -/
  | returned

namespace Fate

variable (registry : Registry) (now : Instant) (working : Option Nat) (message : List UInt8)
  (c : Catalogue)

/-- What the decision and the tables show of a fate, if the tables were `c` before. -/
def Shows (result : Decision × Catalogue) : Fate → Prop
  | written => result.1 = .ack ∧ ∃ (update : EntityUpdate) (touched : IdSet),
    update.IsAsked registry message ∧ update.Written now c (.applied touched) result.2
  | dropped => result = (.ack, c)
  | returned => result = (.nack, c)

/-- What a fate comes from. -/
inductive Cause : Fate → Prop
  /-- The update that the message asks for is newer than what is stored, and all statements work. -/
  | newer {update : EntityUpdate} {nanos : Int} (hasked : update.IsAskedAt registry message nanos)
    (hnewer : ¬ c.Reflects update.entityType update.entityId nanos)
    (hworks : ¬ update.Breaks now working c) : Cause written
  /-- The message holds no event. -/
  | undecodable {fault : Fault} (hdecode : ChangeEvent.decode message = .error fault) :
    Cause dropped
  /-- The source of the event is not known. -/
  | unknown {e : ChangeEvent} (hdecode : ChangeEvent.decode message = .ok e)
    (hsource : registry.find? e.source = none) : Cause dropped
  /-- The payload of the event does not fit its type. -/
  | unfit {e : ChangeEvent} {publisher : Publisher} (hdecode : ChangeEvent.decode message = .ok e)
    (hsource : registry.find? e.source = some publisher) (hunfit : ¬ e.Fits) : Cause dropped
  /-- The time of the event cannot be stored. -/
  | unstorable {update : EntityUpdate} (hasked : update.IsAsked registry message)
    (hnanos : update.timestamp.nanos? = none) : Cause dropped
  /-- What is stored is at least as new as the update, and all statements work. -/
  | stale {update : EntityUpdate} {nanos : Int} (hasked : update.IsAskedAt registry message nanos)
    (hstale : c.Reflects update.entityType update.entityId nanos)
    (hworks : ¬ update.Breaks now working c) : Cause dropped
  /-- A statement does not work. -/
  | broken {update : EntityUpdate} {nanos : Int} (hasked : update.IsAskedAt registry message nanos)
    (hbreaks : update.Breaks now working c) : Cause returned

end Fate

/-! ### What a message asks for -/

namespace EntityUpdate

variable {registry : Registry} {message : List UInt8} {e : ChangeEvent} {publisher : Publisher}

theorem exists_ofPayload_iff : (∃ update, ofPayload e publisher = .ok update) ↔ e.Fits := by
  unfold ChangeEvent.Fits ofPayload
  cases e.entityType with
  | content => exact exists_bind_pure_eq_ok_iff
  | topic => exact exists_bind_pure_eq_ok_iff
  | equivalence => exact exists_bind_pure_eq_ok_iff

/-- A message asks for an update iff it holds an event of a known source whose payload fits. -/
theorem exists_isAsked_iff :
    (∃ update : EntityUpdate, update.IsAsked registry message) ↔ ∃ e publisher,
      ChangeEvent.decode message = .ok e ∧ registry.find? e.source = some publisher ∧ e.Fits := by
  constructor
  · rintro ⟨update, e, hdecode, hupdate⟩
    obtain ⟨publisher, hsource, hpayload⟩ := exists_publisher_of_ofEvent hupdate
    exact ⟨e, publisher, hdecode, hsource, exists_ofPayload_iff.1 ⟨update, hpayload⟩⟩
  · rintro ⟨e, publisher, hdecode, hsource, hfits⟩
    obtain ⟨update, hpayload⟩ := exists_ofPayload_iff.2 hfits
    exact ⟨update, e, hdecode, ofEvent_of_ofPayload hsource hpayload⟩

end EntityUpdate

/-! ### What a worker does by each cause -/

namespace Worker

variable {registry : Registry} {now : Instant} {working : Option Nat} {message : List UInt8}
  {c c' : Catalogue} {update : EntityUpdate} {outcome : Outcome}

theorem run_onMessage_of_not_asked
    (h : ¬ ∃ update : EntityUpdate, update.IsAsked registry message) :
    ((stored registry now working).onMessage message).run c = (.ack, c) := by
  have hhandled := handled_onMessage registry now working message c
  generalize ((stored registry now working).onMessage message).run c = result at hhandled
  obtain ⟨decision, c'⟩ := result
  cases hhandled with
  | written hasked => exact absurd ⟨_, hasked⟩ h
  | failed hasked => exact absurd ⟨_, hasked⟩ h
  | dropped => rfl

theorem run_onMessage_of_unstorable (hasked : update.IsAsked registry message)
    (hnanos : update.timestamp.nanos? = none) :
    ((stored registry now working).onMessage message).run c = (.ack, c) := by
  rw [run_onMessage, run_process_of_fault (stored registry now working) hasked
    (Writers.run_apply_of_unstorable hnanos working)]
  rfl

theorem run_onMessage_of_written (hasked : update.IsAsked registry message)
    (hwritten : update.Written now c outcome c') :
    ((stored registry now working).onMessage message).run c =
      if Statements.Breaks working (update.statementCount outcome) then (.nack, c)
      else (.ack, c') := by
  have happly := Writers.run_apply_of_written hwritten working
  rw [run_onMessage]
  by_cases hbreaks : Statements.Breaks working (update.statementCount outcome)
  · rw [if_pos hbreaks] at happly ⊢
    rw [run_process_of_fault (stored registry now working) hasked happly]
    rfl
  · rw [if_neg hbreaks] at happly ⊢
    rw [run_process (stored registry now working) hasked happly, run_wake_stored]
    rfl

end Worker

namespace Fate

variable {registry : Registry} {now : Instant} {working : Option Nat} {message : List UInt8}
  {c : Catalogue}

theorem exists_cause (registry : Registry) (now : Instant) (working : Option Nat)
    (message : List UInt8) (c : Catalogue) :
    ∃ fate, Cause registry now working message c fate := by
  by_cases hasked : ∃ update : EntityUpdate, update.IsAsked registry message
  · obtain ⟨update, hasked⟩ := hasked
    cases hnanos : update.timestamp.nanos? with
    | none => exact ⟨_, .unstorable hasked hnanos⟩
    | some nanos =>
      by_cases hbreaks : update.Breaks now working c
      · exact ⟨_, .broken ⟨hasked, hnanos⟩ hbreaks⟩
      by_cases hreflects : c.Reflects update.entityType update.entityId nanos
      · exact ⟨_, .stale ⟨hasked, hnanos⟩ hreflects hbreaks⟩
      · exact ⟨_, .newer ⟨hasked, hnanos⟩ hreflects hbreaks⟩
  · cases hdecode : ChangeEvent.decode message with
    | error fault => exact ⟨_, .undecodable hdecode⟩
    | ok e =>
      cases hsource : registry.find? e.source with
      | none => exact ⟨_, .unknown hdecode hsource⟩
      | some publisher =>
        refine ⟨_, .unfit hdecode hsource fun hfits => hasked ?_⟩
        exact EntityUpdate.exists_isAsked_iff.2 ⟨e, publisher, hdecode, hsource, hfits⟩

theorem Cause.shows {fate : Fate} (h : Cause registry now working message c fate)
    (hedges : c.edges.HoldsIds) (hnow : ∃ nanos, now.nanos? = some nanos) :
    fate.Shows registry now message c
      (((Worker.stored registry now working).onMessage message).run c) := by
  cases h with
  | @newer update nanos hasked hnewer hworks =>
    obtain ⟨outcome, c', hwritten⟩ := EntityUpdate.exists_written hedges hnow hasked.2
    -- What is newer than the row cannot come too late.
    obtain ⟨touched, rfl⟩ := hwritten.applied_of_not_reflects hasked.2 hnewer
    rw [Worker.run_onMessage_of_written hasked.1 hwritten,
      if_neg fun hbreaks => hworks ⟨_, _, hwritten, hbreaks⟩]
    exact ⟨rfl, update, touched, hasked.1, hwritten⟩
  | undecodable hdecode =>
    refine Worker.run_onMessage_of_not_asked fun hasked => ?_
    obtain ⟨e, publisher, he, _⟩ := EntityUpdate.exists_isAsked_iff.1 hasked
    cases hdecode.symm.trans he
  | unknown hdecode hsource =>
    refine Worker.run_onMessage_of_not_asked fun hasked => ?_
    obtain ⟨e, publisher, he, hpublisher, _⟩ := EntityUpdate.exists_isAsked_iff.1 hasked
    cases hdecode.symm.trans he
    cases hsource.symm.trans hpublisher
  | unfit hdecode hsource hunfit =>
    refine Worker.run_onMessage_of_not_asked fun hasked => ?_
    obtain ⟨e, publisher, he, _, hfits⟩ := EntityUpdate.exists_isAsked_iff.1 hasked
    cases hdecode.symm.trans he
    exact hunfit hfits
  | unstorable hasked hnanos => exact Worker.run_onMessage_of_unstorable hasked hnanos
  | @stale update nanos hasked hstale hworks =>
    obtain ⟨outcome, c', hwritten⟩ := EntityUpdate.exists_written hedges hnow hasked.2
    cases hwritten.stale_of_reflects hasked.2 hstale
    cases hwritten.eq_of_stale
    exact (Worker.run_onMessage_of_written hasked.1 hwritten).trans
      (if_neg fun hbreaks => hworks ⟨_, _, hwritten, hbreaks⟩)
  | broken hasked hbreaks =>
    obtain ⟨outcome, c', hwritten, hbreaks⟩ := hbreaks
    exact (Worker.run_onMessage_of_written hasked.1 hwritten).trans (if_pos hbreaks)

/-- A worker shows one fate at most: an update that was written changed the tables. -/
theorem Shows.unique {result : Decision × Catalogue} {fate fate' : Fate}
    (h : fate.Shows registry now message c result)
    (h' : fate'.Shows registry now message c result) : fate = fate' := by
  have hchanged : ∀ {update : EntityUpdate} {touched : IdSet},
      update.Written now c (.applied touched) result.2 → result ≠ (.ack, c) :=
    fun hwritten heq => hwritten.ne_of_applied (congrArg Prod.snd heq)
  cases fate with
  | written =>
    obtain ⟨hack, _, _, _, hwritten⟩ := h
    cases fate' with
    | written => rfl
    | dropped => exact absurd h' (hchanged hwritten)
    | returned => cases hack.symm.trans (congrArg Prod.fst h')
  | dropped =>
    cases fate' with
    | written =>
      obtain ⟨_, _, _, _, hwritten⟩ := h'
      exact absurd h (hchanged hwritten)
    | dropped => rfl
    | returned => cases h.symm.trans h'
  | returned =>
    cases fate' with
    | written => cases h'.1.symm.trans (congrArg Prod.fst h)
    | dropped => cases h.symm.trans h'
    | returned => rfl

theorem Shows.returned_of_nack {result : Decision × Catalogue} {fate : Fate}
    (h : fate.Shows registry now message c result) (hnack : result.1 = .nack) :
    fate = .returned := by
  cases fate with
  | written => cases hnack.symm.trans h.1
  | dropped => cases hnack.symm.trans (congrArg Prod.fst h)
  | returned => rfl

theorem Shows.written_of_ne {result : Decision × Catalogue} {fate : Fate}
    (h : fate.Shows registry now message c result) (hne : result.2 ≠ c) : fate = .written := by
  cases fate with
  | written => rfl
  | dropped => exact absurd (congrArg Prod.snd h) hne
  | returned => exact absurd (congrArg Prod.snd h) hne

end Fate

/-! ### All or nothing -/

namespace Worker

variable {registry : Registry} {now : Instant} {message : List UInt8} {c : Catalogue}

theorem fst_run_onMessage_of_working (registry : Registry) (message : List UInt8)
    (hedges : c.edges.HoldsIds) (hnow : ∃ nanos, now.nanos? = some nanos) :
    (((stored registry now none).onMessage message).run c).1 = .ack := by
  obtain ⟨fate, hcause⟩ := Fate.exists_cause registry now none message c
  have hshows := hcause.shows hedges hnow
  cases fate with
  | written => exact hshows.1
  | dropped => exact congrArg Prod.fst hshows
  | returned =>
    cases hcause with
    | broken _ hbreaks =>
      obtain ⟨_, _, _, hbreaks⟩ := hbreaks
      exact absurd hbreaks Statements.not_breaks_none

theorem Handled.committed {decision : Decision} {c' : Catalogue}
    (h : Handled registry now message c decision c') : c.Committed c' := by
  cases h with
  | written _ hwritten => exact .written hwritten
  | failed => exact .failed
  | dropped => exact .failed

theorem snd_run_onMessage_of_reflects
    (h : ∀ (update : EntityUpdate) (nanos : Int), update.IsAskedAt registry message nanos →
      c.Reflects update.entityType update.entityId nanos) (now : Instant) (working : Option Nat) :
    (((stored registry now working).onMessage message).run c).2 = c := by
  have hhandled := handled_onMessage registry now working message c
  generalize ((stored registry now working).onMessage message).run c = result at hhandled
  obtain ⟨decision, c'⟩ := result
  cases hhandled with
  | written hasked hwritten =>
    obtain ⟨nanos, hnanos⟩ := hwritten.exists_nanos
    cases hwritten.stale_of_reflects hnanos (h _ nanos ⟨hasked, hnanos⟩)
    exact hwritten.eq_of_stale
  | failed => rfl
  | dropped => rfl

/-- **All or nothing.** On all tables that transactions can leave, and whatever statements work, a
message has exactly one fate, and that is the fate of its cause. Whatever is committed after an
acknowledgement, processing the message again changes nothing. -/
theorem all_or_nothing (registry : Registry) (now : Instant) (working : Option Nat)
    (message : List UInt8) (transactions : List Transaction)
    (hnow : ∃ nanos, now.nanos? = some nanos) :
    let c := Catalogue.empty.after transactions
    let result := ((stored registry now working).onMessage message).run c
    (∃! fate : Fate, fate.Shows registry now message c result) ∧
      (∀ fate : Fate, fate.Shows registry now message c result ↔
        fate.Cause registry now working message c) ∧
      (result.1 = .ack → ∀ (later : List Transaction) (now' : Instant) (working' : Option Nat),
        (((stored registry now' working').onMessage message).run (result.2.after later)).2 =
          result.2.after later) := by
  intro c result
  have hc : c.WellFormed := Catalogue.wellFormed_after transactions
  obtain ⟨fate, hcause⟩ := Fate.exists_cause registry now working message c
  have hshows := hcause.shows hc.holdsIds.edges hnow
  refine ⟨⟨fate, hshows, fun _ h => h.unique hshows⟩, fun fate' => ⟨fun h => ?_, fun h => ?_⟩,
    fun hack later now' working' => ?_⟩
  · cases h.unique hshows
    exact hcause
  · exact h.shows hc.holdsIds.edges hnow
  · have hhandled : Handled registry now message c result.1 result.2 :=
      handled_onMessage registry now working message c
    -- The tables reflect an acknowledged message, and transactions do not change this.
    rw [hack] at hhandled
    refine snd_run_onMessage_of_reflects (fun update nanos hasked => ?_) now' working'
    have hreflects := (hhandled.reflects_of_ack hc.holdsIds.edges hasked).resolve_right
      (not_isUndated hnow)
    exact (hhandled.committed.wellFormed hc).reflects_after later hreflects

/-- A message with the assertion that 6 denotes the same work as 7. -/
def assertionMessage : List UInt8 :=
  Text.Utf8.encode "[null,\"6\",\"1970-01-01T00:00:01Z\",\"equivalence\",\"bbc\",[[\"7\"]]]"

/-- The tables with an earlier assertion about 6. -/
def earlierAssertion : List Transaction :=
  [.write (.ofNanos 0) none (.equivalence
    { subject := 6, equivalents := IdSet.ofList [5]
      source := ⟨"bbc", "GB", "BBC"⟩, timestamp := .ofNanos 0 })]

/-- The assertion takes nine statements: two begin and end the transaction, three store the
assertion and read and remove the old target, one stores the new target, and three make requests. If
one of these does not work, the message is given back; otherwise it is done with for good. -/
theorem all_or_nothing_of_assertion :
    let c := Catalogue.empty.after earlierAssertion
    let failed := ((stored .builtin (.ofNanos 0) (some 8)).onMessage assertionMessage).run c
    let worked := ((stored .builtin (.ofNanos 0) (some 9)).onMessage assertionMessage).run c
    (∃ nanos, (Instant.ofNanos 0).nanos? = some nanos) ∧
      failed = (.nack, c) ∧
      Fate.returned.Cause .builtin (.ofNanos 0) (some 8) assertionMessage c ∧
      worked.1 = .ack ∧
      Fate.written.Cause .builtin (.ofNanos 0) (some 9) assertionMessage c ∧
      (((stored .builtin (.ofNanos 0) none).onMessage assertionMessage).run worked.2).2 =
        worked.2 := by
  intro c failed worked
  have hnow : ∃ nanos, (Instant.ofNanos 0).nanos? = some nanos := ⟨0, by decide⟩
  have hnack : failed.1 = .nack := by decide +kernel
  have hack : worked.1 = .ack := by decide +kernel
  -- The row of the assertion is another one afterwards.
  have hne : worked.2 ≠ c := by
    intro heq
    have hbefore : c.assertions[(6 : Int)]? = some ⟨"bbc", 0⟩ := by decide +kernel
    have hafter : worked.2.assertions[(6 : Int)]? = some ⟨"bbc", 1000000000⟩ := by decide +kernel
    rw [heq, hbefore] at hafter
    cases hafter
  obtain ⟨⟨fate, hfailed, _⟩, hcauses, _⟩ :=
    all_or_nothing .builtin (.ofNanos 0) (some 8) assertionMessage earlierAssertion hnow
  obtain ⟨⟨fate', hworked, _⟩, hcauses', hagain⟩ :=
    all_or_nothing .builtin (.ofNanos 0) (some 9) assertionMessage earlierAssertion hnow
  cases hfailed.returned_of_nack hnack
  cases hworked.written_of_ne hne
  exact ⟨hnow, hfailed, (hcauses _).1 hfailed, hack, (hcauses' _).1 hworked,
    hagain hack [] (.ofNanos 0) none⟩

end Worker

end MediaCatalogue
