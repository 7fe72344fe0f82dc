import Mathlib.Logic.Function.Basic
import MediaCatalogue.Proofs.Maintenance
import MediaCatalogue.Proofs.Queue
import MediaCatalogue.Proofs.Transactions
import MediaCatalogue.Proofs.Worker

/-!
# From the message queue to the tables

Publishers put messages into the queue. Any number of consumers receive messages, let a worker
process them, and settle them as the worker decided; meanwhile a refresher works on the labels. All
these steps may come in any order. Statements may fail, a consumer may crash before each of its
steps, and a message whose lease ran out is delivered to another consumer while the first one still
works on it. The settings of the queue, its clock and the leases are arbitrary in each step.

`Ingestion` is the state of all parts, `Ingestion.act` is one step and `Ingestion.run` several ones.

**Main theorem** (`Ingestion.lost_only_undated`): a published message stays in the queue until the
tables reflect what it asks for, unless a worker handled it when the clock showed a time that cannot
be stored. Such a message is lost (`Ingestion.lost_in_late_run`). With a clock whose readings can
all be stored no message is lost (`Ingestion.no_lost_update`). The invariant is
`Ingestion.Consistent`; every step keeps it (`Ingestion.Consistent.act`).
-/

namespace MediaCatalogue

/-- The clock by which requests are dated: the time of each reading. Readings may go back. -/
abbrev SystemClock := Nat → Instant

/-- All readings can be stored. -/
def SystemClock.Storable (clock : SystemClock) : Prop :=
  ∀ tick, ∃ nanos, (clock tick).nanos? = some nanos

/-- A delivery that a consumer works on. -/
structure Work where
  /-- What it received. -/
  delivery : Delivery
  /-- What the worker decided, if it is done. -/
  decision : Option Decision

/-- Queue, tables, and all who work on them. -/
structure Ingestion where
  /-- The tables, and where the refresher is. -/
  maintenance : Maintenance
  /-- The queue. -/
  queue : MessageQueue
  /-- What was ever published, by the number of the message. -/
  published : Table (List UInt8)
  /-- What each consumer works on. -/
  work : Nat → Option Work

namespace Ingestion

/-- Nothing was published, and nothing is stored. -/
def start : Ingestion := ⟨.start, .empty, ∅, fun _ => none⟩

/-- A consumer goes over to other work, or to none. -/
def assign (consumer : Nat) (work : Option Work) (s : Ingestion) : Ingestion :=
  { s with work := Function.update s.work consumer work }

/-- Other tables. -/
def withCatalogue (c : Catalogue) (s : Ingestion) : Ingestion :=
  { s with maintenance := { s.maintenance with catalogue := c } }

/-- A step of a publisher, of a consumer, or of the refresher. -/
inductive Action where
  /-- A message is published. -/
  | publish (settings : BrokerSettings) (now : Instant) (key : String) (body : List UInt8)
  /-- A consumer leases the next message of a partition. -/
  | receive (consumer : Nat) (settings : BrokerSettings) (now : Instant) (lease partition : Nat)
  /-- A worker processes the message of a consumer, if enough statements work. -/
  | process (consumer tick : Nat) (working : Option Nat)
  /-- A consumer settles its message. -/
  | settle (consumer : Nat) (settings : BrokerSettings) (now : Instant)
  /-- A consumer crashes, or cannot reach the queue to settle its message. -/
  | crash (consumer : Nat)
  /-- The refresher makes a call. -/
  | refresh (call : RefreshCall)

section

variable (registry : Registry) (clock : SystemClock)

/-- What a worker does with a message at a reading of the clock. -/
def handle (tick : Nat) (working : Option Nat) (message : List UInt8) (c : Catalogue) :
    Decision × Catalogue :=
  ((Worker.stored registry (clock tick) working).onMessage message).run c

theorem handled_handle (tick : Nat) (working : Option Nat) (message : List UInt8) (c : Catalogue) :
    Worker.Handled registry (clock tick) message c
      (handle registry clock tick working message c).1
      (handle registry clock tick working message c).2 :=
  Worker.handled_onMessage registry (clock tick) working message c

/-- One step. -/
def act (s : Ingestion) : Action → Ingestion
  | .publish settings now key body =>
    let (seq, queue) := s.queue.publish settings now key body
    { s with queue, published := s.published.insert seq body }
  | .receive consumer settings now lease partition =>
    let (delivery, queue) := s.queue.receive settings now lease partition
    { s with queue }.assign consumer (delivery.map fun d => ⟨d, none⟩)
  | .process consumer tick working =>
    match s.work consumer with
    | some ⟨d, _⟩ =>
      let (decision, c) := handle registry clock tick working d.body s.maintenance.catalogue
      (s.withCatalogue c).assign consumer (some ⟨d, some decision⟩)
    | none => s
  | .settle consumer settings now =>
    match s.work consumer with
    | some ⟨d, some decision⟩ =>
      { s with queue := s.queue.settle settings now d decision }.assign consumer none
    | _ => s
  | .crash consumer => s.assign consumer none
  | .refresh call => { s with maintenance := s.maintenance.refresh call }

/-- Several steps, one after the other. -/
def run (actions : List Action) (s : Ingestion) : Ingestion :=
  actions.foldl (act registry clock) s

/-- In the step, a worker decides to acknowledge the message with the number `seq`, although its
request is undated. -/
def Drops (s : Ingestion) (seq : Int) : Action → Prop
  | .process consumer tick working =>
    ∃ work, s.work consumer = some work ∧ work.delivery.seq = seq ∧
      Worker.IsUndated registry (clock tick) work.delivery.body s.maintenance.catalogue ∧
      (handle registry clock tick working work.delivery.body s.maintenance.catalogue).1 = .ack
  | _ => False

/-- One of several steps drops the message with the number `seq`. -/
def DropsIn (s : Ingestion) (actions : List Action) (seq : Int) : Prop :=
  ∃ before action after, actions = before ++ action :: after ∧
    (run registry clock before s).Drops registry clock seq action

end

end Ingestion

/-! ### The invariant -/

/-- The tables reflect what the message asks for. -/
def Catalogue.ReflectsMessage (c : Catalogue) (registry : Registry) (message : List UInt8) : Prop :=
  ∀ (update : EntityUpdate) (nanos : Int), update.IsAskedAt registry message nanos →
    c.Reflects update.entityType update.entityId nanos

namespace Maintenance

variable {s : Maintenance}

theorem Sound.handled (h : s.Sound) {registry : Registry} {now : Instant} {message : List UInt8}
    {decision : Decision} {c : Catalogue}
    (hhandled : Worker.Handled registry now message s.catalogue decision c) :
    Sound { s with catalogue := c } := by
  cases hhandled with
  | written _ hwritten => exact h.written hwritten
  | failed => exact h
  | dropped => exact h

theorem Sound.sameRows_refresh (h : s.Sound) (call : RefreshCall) :
    s.catalogue.SameRows (s.refresh call).catalogue := by
  have hserved := served_refresh h.holdsIds call
  generalize s.refresh call = s' at hserved
  cases hserved with
  | idle => exact .rfl
  | read => exact .rfl
  | refreshed _ hc => exact hc.sameRows
  | completed => exact Catalogue.sameRows_withoutRequest
  | forgot => exact .rfl

end Maintenance

namespace Ingestion

/-- A published message asks for the update. -/
def Offers (registry : Registry) (s : Ingestion) (update : EntityUpdate) (nanos : Int) : Prop :=
  ∃ (seq : Int) (message : List UInt8), s.published[seq]? = some message ∧
    update.IsAskedAt registry message nanos

/-- Queue and consumers hold published messages. A message that left the queue is reflected in the
tables or was dropped, and so is one that a consumer is about to acknowledge. -/
structure Consistent (registry : Registry) (dropped : Int → Prop) (s : Ingestion) : Prop where
  sound : s.maintenance.Sound
  stems : s.maintenance.catalogue.StemsFrom (s.Offers registry)
  numbered : ∀ seq message, s.published[seq]? = some message → seq < s.queue.nextSeq
  queued : ∀ seq message, s.queue.body? seq = some message → s.published[seq]? = some message
  delivered : ∀ consumer work, s.work consumer = some work →
    s.published[work.delivery.seq]? = some work.delivery.body
  decided : ∀ consumer work, s.work consumer = some work → work.decision = some .ack →
    s.maintenance.catalogue.ReflectsMessage registry work.delivery.body ∨ dropped work.delivery.seq
  kept : ∀ seq message, s.published[seq]? = some message →
    s.queue.body? seq = some message ∨
      s.maintenance.catalogue.ReflectsMessage registry message ∨ dropped seq

theorem consistent_start (registry : Registry) (dropped : Int → Prop) :
    start.Consistent registry dropped where
  sound := Maintenance.sound_start
  stems := Catalogue.stemsFrom_empty
  numbered seq message h := by simp [start] at h
  queued seq message h := by simp [start, MessageQueue.empty, MessageQueue.body?] at h
  delivered consumer work h := by cases h
  decided consumer work h := by cases h
  kept seq message h := by simp [start] at h

variable {registry : Registry} {dropped dropped' : Int → Prop} {s : Ingestion}

theorem Consistent.mono (h : s.Consistent registry dropped)
    (himp : ∀ seq, dropped seq → dropped' seq) : s.Consistent registry dropped' where
  sound := h.sound
  stems := h.stems
  numbered := h.numbered
  queued := h.queued
  delivered := h.delivered
  decided consumer work hwork hack := (h.decided consumer work hwork hack).imp_right (himp _)
  kept seq message hseq := (h.kept seq message hseq).imp_right (Or.imp_right (himp _))

/-! ### What changes one part -/

/-- A consumer may go over to any published message; it must not have decided too early. -/
theorem Consistent.assign (h : s.Consistent registry dropped) (consumer : Nat)
    {work : Option Work}
    (hdelivered : ∀ w, work = some w → s.published[w.delivery.seq]? = some w.delivery.body)
    (hdecided : ∀ w, work = some w → w.decision = some .ack →
      s.maintenance.catalogue.ReflectsMessage registry w.delivery.body ∨ dropped w.delivery.seq) :
    (s.assign consumer work).Consistent registry dropped where
  sound := h.sound
  stems := h.stems
  numbered := h.numbered
  queued := h.queued
  delivered other w hw := by
    by_cases hother : other = consumer
    · subst hother
      exact hdelivered w (by simpa [Ingestion.assign] using hw)
    · exact h.delivered other w (by simpa [Ingestion.assign, hother] using hw)
  decided other w hw := by
    by_cases hother : other = consumer
    · subst hother
      exact hdecided w (by simpa [Ingestion.assign] using hw)
    · exact h.decided other w (by simpa [Ingestion.assign, hother] using hw)
  kept := h.kept

theorem Consistent.crash (h : s.Consistent registry dropped) (consumer : Nat) :
    (s.assign consumer none).Consistent registry dropped :=
  h.assign consumer (fun w hw => by cases hw) (fun w hw => by cases hw)

theorem Consistent.withQueue (h : s.Consistent registry dropped) {q : MessageQueue}
    (hnext : q.nextSeq = s.queue.nextSeq)
    (hqueued : ∀ seq message, q.body? seq = some message → s.queue.body? seq = some message)
    (hkept : ∀ seq message, s.queue.body? seq = some message →
      q.body? seq = some message ∨
        s.maintenance.catalogue.ReflectsMessage registry message ∨ dropped seq) :
    Consistent registry dropped { s with queue := q } where
  sound := h.sound
  stems := h.stems
  numbered seq message hseq := by
    rw [hnext]
    exact h.numbered seq message hseq
  queued seq message hseq := h.queued seq message (hqueued seq message hseq)
  delivered := h.delivered
  decided := h.decided
  kept seq message hseq := by
    rcases h.kept seq message hseq with hqueue | hgone
    · exact hkept seq message hqueue
    · exact .inr hgone

theorem Consistent.withMaintenance (h : s.Consistent registry dropped) {m : Maintenance}
    (hsound : m.Sound) (hstems : m.catalogue.StemsFrom (s.Offers registry))
    (hreflects : ∀ type id nanos, s.maintenance.catalogue.Reflects type id nanos →
      m.catalogue.Reflects type id nanos) :
    Consistent registry dropped { s with maintenance := m } where
  sound := hsound
  stems := hstems
  numbered := h.numbered
  queued := h.queued
  delivered := h.delivered
  decided consumer work hwork hack := by
    refine (h.decided consumer work hwork hack).imp_left fun hdone update nanos hasked => ?_
    exact hreflects _ _ _ (hdone update nanos hasked)
  kept seq message hseq := by
    refine (h.kept seq message hseq).imp_right (Or.imp_left fun hdone update nanos hasked => ?_)
    exact hreflects _ _ _ (hdone update nanos hasked)

/-! ### Steps -/

theorem Consistent.publish (h : s.Consistent registry dropped) (clock : SystemClock)
    (settings : BrokerSettings) (now : Instant) (key : String) (body : List UInt8) :
    (s.act registry clock (.publish settings now key body)).Consistent registry dropped := by
  -- Older messages have lower numbers, so they stay what they are.
  have hold : ∀ (seq : Int) (message : List UInt8), s.published[seq]? = some message →
      (s.published.insert s.queue.nextSeq body)[seq]? = some message := by
    intro seq message hseq
    have hlt := h.numbered seq message hseq
    rw [Std.ExtTreeMap.getElem?_insert, if_neg (by simp; omega)]
    exact hseq
  have hcases : ∀ (seq : Int) (message : List UInt8),
      (s.published.insert s.queue.nextSeq body)[seq]? = some message →
        s.queue.nextSeq = seq ∧ body = message ∨ s.published[seq]? = some message := by
    intro seq message hseq
    simp only [Std.ExtTreeMap.getElem?_insert, Std.LawfulEqCmp.compare_eq_iff_eq] at hseq
    split at hseq
    · exact .inl ⟨‹_›, Option.some.inj hseq⟩
    · exact .inr hseq
  refine ⟨h.sound, h.stems.mono ?_, ?_, ?_, ?_, h.decided, ?_⟩
  · rintro update nanos ⟨seq, message, hseq, hasked⟩
    exact ⟨seq, message, hold seq message hseq, hasked⟩
  · intro seq message hseq
    show seq < s.queue.nextSeq + 1
    rcases hcases seq message hseq with ⟨rfl, _⟩ | hseq
    · omega
    · have hlt := h.numbered seq message hseq
      omega
  · intro seq message hseq
    rw [act, MessageQueue.body?_publish] at hseq
    split at hseq
    · rename_i heq
      subst heq
      cases hseq
      exact Std.ExtTreeMap.getElem?_insert_self
    · exact hold seq message (h.queued seq message hseq)
  · intro consumer work hwork
    exact hold _ _ (h.delivered consumer work hwork)
  · intro seq message hseq
    rw [act, MessageQueue.body?_publish]
    rcases hcases seq message hseq with ⟨rfl, rfl⟩ | hseq
    · exact .inl (if_pos rfl)
    · have hlt := h.numbered seq message hseq
      rw [if_neg (by omega)]
      exact h.kept seq message hseq

theorem Consistent.receive (h : s.Consistent registry dropped) (clock : SystemClock) (consumer : Nat)
    (settings : BrokerSettings) (now : Instant) (lease partition : Nat) :
    (s.act registry clock (.receive consumer settings now lease partition)).Consistent
      registry dropped := by
  have hqueue : Consistent registry dropped
      { s with queue := (s.queue.receive settings now lease partition).2 } := by
    refine h.withQueue MessageQueue.nextSeq_receive ?_ ?_
    · intro seq message hseq
      rwa [MessageQueue.body?_receive] at hseq
    · intro seq message hseq
      rw [MessageQueue.body?_receive]
      exact .inl hseq
  refine hqueue.assign consumer ?_ ?_
  · intro w hw
    obtain ⟨d, hd, rfl⟩ := Option.map_eq_some_iff.1 hw
    exact h.queued _ _ (MessageQueue.body?_of_receive hd)
  · intro w hw hack
    obtain ⟨d, _, rfl⟩ := Option.map_eq_some_iff.1 hw
    cases hack

/-- A worker writes what the message asks for before it decides to acknowledge it, or it drops the
message. -/
theorem Consistent.process (h : s.Consistent registry dropped) (clock : SystemClock)
    (consumer tick : Nat) (working : Option Nat) :
    (s.act registry clock (.process consumer tick working)).Consistent registry fun seq =>
      dropped seq ∨ s.Drops registry clock seq (.process consumer tick working) := by
  simp only [act]
  split
  · rename_i d previous hwork
    have hbody := h.delivered consumer _ hwork
    have hhandled := handled_handle registry clock tick working d.body s.maintenance.catalogue
    generalize hresult : handle registry clock tick working d.body s.maintenance.catalogue = result
      at hhandled
    obtain ⟨decision, c⟩ := result
    have hcatalogue : (s.withCatalogue c).Consistent registry dropped := by
      refine h.withMaintenance (h.sound.handled hhandled) ?_ ?_
      · refine hhandled.stemsFrom h.stems fun update nanos hasked => ?_
        exact ⟨d.seq, d.body, hbody, hasked⟩
      · exact fun type id nanos hreflects => hhandled.reflects_of_reflects hreflects
    refine (hcatalogue.mono fun _ => .inl).assign consumer ?_ ?_
    · intro w hw
      cases hw
      exact hbody
    · intro w hw hack
      cases hw
      cases hack
      -- The tables reflect what was acknowledged, unless the clock is to blame.
      by_cases hundated : Worker.IsUndated registry (clock tick) d.body s.maintenance.catalogue
      · exact .inr (.inr ⟨⟨d, previous⟩, hwork, rfl, hundated, congrArg Prod.fst hresult⟩)
      · refine .inl fun update nanos hasked => ?_
        exact (hhandled.reflects_of_ack h.sound.holdsIds.edges hasked).resolve_right hundated
  · exact h.mono fun _ => .inl

/-- Only a message that is reflected or was dropped is acknowledged. -/
theorem Consistent.settle (h : s.Consistent registry dropped) (clock : SystemClock) (consumer : Nat)
    (settings : BrokerSettings) (now : Instant) :
    (s.act registry clock (.settle consumer settings now)).Consistent registry dropped := by
  simp only [act]
  split
  · rename_i d decision hwork
    refine Consistent.crash (h.withQueue MessageQueue.nextSeq_settle ?_ ?_) consumer
    · exact fun seq message hseq => MessageQueue.body?_of_body?_settle hseq
    · intro seq message hseq
      -- A message that is removed was acknowledged by its worker, and this was decided rightly.
      by_cases hacked : decision = .ack ∧ d.seq = seq
      · obtain ⟨rfl, rfl⟩ := hacked
        have hbody := h.delivered consumer _ hwork
        have hmessage := h.queued d.seq message hseq
        rw [hbody] at hmessage
        cases hmessage
        exact .inr (h.decided consumer _ hwork rfl)
      · left
        rw [MessageQueue.body?_settle fun hack heq => hacked ⟨hack, heq⟩]
        exact hseq
  · exact h

theorem Consistent.refresh (h : s.Consistent registry dropped) (clock : SystemClock)
    (call : RefreshCall) : (s.act registry clock (.refresh call)).Consistent registry dropped := by
  have hsame := h.sound.sameRows_refresh call
  refine h.withMaintenance (h.sound.refresh call) (hsame.stemsFrom h.stems) ?_
  exact fun type id nanos hreflects => hsame.reflects_iff.2 hreflects

/-- **Every step keeps the invariant**, but for the message that it drops. -/
theorem Consistent.act (h : s.Consistent registry dropped) (clock : SystemClock)
    (action : Action) :
    (s.act registry clock action).Consistent registry fun seq =>
      dropped seq ∨ s.Drops registry clock seq action := by
  cases action with
  | publish settings now key body => exact (h.publish clock settings now key body).mono fun _ => .inl
  | receive consumer settings now lease partition =>
    exact (h.receive clock consumer settings now lease partition).mono fun _ => .inl
  | process consumer tick working => exact h.process clock consumer tick working
  | settle consumer settings now => exact (h.settle clock consumer settings now).mono fun _ => .inl
  | crash consumer => exact (h.crash consumer).mono fun _ => .inl
  | refresh call => exact (h.refresh clock call).mono fun _ => .inl

theorem Consistent.run (h : s.Consistent registry dropped) (clock : SystemClock)
    (actions : List Action) :
    (run registry clock actions s).Consistent registry fun seq =>
      dropped seq ∨ s.DropsIn registry clock actions seq := by
  induction actions generalizing s dropped with
  | nil => exact h.mono fun _ => .inl
  | cons action actions ih =>
    refine (ih (h.act clock action)).mono fun seq hseq => ?_
    rcases hseq with (hseq | hseq) | ⟨before, later, after, rfl, hseq⟩
    · exact .inl hseq
    · exact .inr ⟨[], action, actions, rfl, hseq⟩
    · exact .inr ⟨action :: before, later, after, rfl, hseq⟩

theorem consistent_run (registry : Registry) (clock : SystemClock) (actions : List Action) :
    (Ingestion.run registry clock actions start).Consistent registry
      (start.DropsIn registry clock actions) :=
  ((consistent_start registry fun _ => False).run clock actions).mono fun _ hseq =>
    hseq.resolve_left id

/-- No message is dropped if the readings of the clock can be stored. -/
theorem not_dropsIn {clock : SystemClock} (h : clock.Storable) (actions : List Action) (seq : Int) :
    ¬ s.DropsIn registry clock actions seq := by
  rintro ⟨before, action, after, -, hdrops⟩
  cases action with
  | process consumer tick working =>
    obtain ⟨_, _, _, hundated, _⟩ := hdrops
    exact Worker.not_isUndated (h tick) hundated
  | publish | receive | settle | crash | refresh => exact hdrops

theorem Consistent.run_of_storable (h : s.Consistent registry dropped) {clock : SystemClock}
    (hclock : clock.Storable) (actions : List Action) :
    (Ingestion.run registry clock actions s).Consistent registry dropped :=
  (h.run clock actions).mono fun seq hseq => hseq.resolve_right (not_dropsIn hclock actions seq)

/-! ### What is lost -/

theorem Consistent.kept_of_decode (h : s.Consistent registry dropped) {seq : Int}
    {message : List UInt8} {e : ChangeEvent} {publisher : Publisher} {update : EntityUpdate}
    {nanos : Int} (hpublished : s.published[seq]? = some message)
    (hdecode : ChangeEvent.decode message = .ok e)
    (hsource : registry.find? e.source = some publisher)
    (hpayload : EntityUpdate.ofPayload e publisher = .ok update)
    (hnanos : e.timestamp.nanos? = some nanos) :
    s.queue.body? seq = some message ∨
      s.maintenance.catalogue.Reflects e.entityType e.entityId nanos ∨ dropped seq := by
  refine (h.kept seq message hpublished).imp_right (Or.imp_left fun hreflects => ?_)
  have hupdate := EntityUpdate.ofEvent_of_ofPayload hsource hpayload
  obtain ⟨htype, hid, _⟩ := EntityUpdate.ofEvent_eq_ok hupdate
  rw [← htype, ← hid]
  exact hreflects update nanos (EntityUpdate.isAskedAt_of_ofEvent hdecode hupdate hnanos)

/-- **What can be lost.** After any run, a published message whose event has a known source, a
payload of its type and a time that can be stored is still in the queue, or the row of its entity is
at least as new as the event, or the run dropped the message: in one of its steps a worker handled
the message at a reading of the clock that cannot be stored, when the message asked for a record or
an assertion newer than the stored one, and decided to acknowledge it. -/
theorem lost_only_undated (registry : Registry) (clock : SystemClock) (actions : List Action)
    {seq : Int} {message : List UInt8} {e : ChangeEvent} {publisher : Publisher}
    {update : EntityUpdate} {nanos : Int}
    (hpublished : (Ingestion.run registry clock actions start).published[seq]? = some message)
    (hdecode : ChangeEvent.decode message = .ok e)
    (hsource : registry.find? e.source = some publisher)
    (hpayload : EntityUpdate.ofPayload e publisher = .ok update)
    (hnanos : e.timestamp.nanos? = some nanos) :
    (Ingestion.run registry clock actions start).queue.body? seq = some message ∨
      (Ingestion.run registry clock actions start).maintenance.catalogue.Reflects e.entityType
        e.entityId nanos ∨
      start.DropsIn registry clock actions seq :=
  (consistent_run registry clock actions).kept_of_decode hpublished hdecode hsource hpayload hnanos

/-- **No lost update.** If the clock of the workers shows only times that can be stored, then after
any run a published message with such an event is in the queue, or the row of its entity is at least
as new. -/
theorem no_lost_update (registry : Registry) {clock : SystemClock} (hclock : clock.Storable)
    (actions : List Action) {seq : Int} {message : List UInt8} {e : ChangeEvent}
    {publisher : Publisher} {update : EntityUpdate} {nanos : Int}
    (hpublished : (Ingestion.run registry clock actions start).published[seq]? = some message)
    (hdecode : ChangeEvent.decode message = .ok e)
    (hsource : registry.find? e.source = some publisher)
    (hpayload : EntityUpdate.ofPayload e publisher = .ok update)
    (hnanos : e.timestamp.nanos? = some nanos) :
    (Ingestion.run registry clock actions start).queue.body? seq = some message ∨
      (Ingestion.run registry clock actions start).maintenance.catalogue.Reflects e.entityType
        e.entityId nanos := by
  have hconsistent := (consistent_start registry fun _ => False).run_of_storable hclock actions
  have hkept := hconsistent.kept_of_decode hpublished hdecode hsource hpayload hnanos
  exact hkept.imp_right (·.resolve_right id)

/-- A clock that stands still. -/
def stillClock : SystemClock := fun _ => .ofNanos 0

/-- A broker with one partition and leases of ten milliseconds. -/
def smallBroker : BrokerSettings := ⟨1, .ofMillis 10, .ofMillis 10⟩

/-- A message with a tag. -/
def tagMessage : List UInt8 :=
  Text.Utf8.encode "[null,\"6\",\"1970-01-01T00:00:00Z\",\"topic\",\"bbc\",[\"a\",\"b\"]]"

/-- The event in the message with a tag. -/
def tagEvent : ChangeEvent :=
  ⟨none, 6, ⟨0, 0⟩, .topic, "bbc", .array [.string "a", .string "b"]⟩

/-- A message fails once and is given back. Its second consumer writes it and crashes, so that it is
delivered a third time when the lease ran out. -/
def redelivery : List Action :=
  [.publish smallBroker (.ofNanos 0) "6" tagMessage,
   .receive 0 smallBroker (.ofNanos 0) 0 0, .process 0 0 (some 0),
   .settle 0 smallBroker (.ofNanos 1000000),
   .receive 1 smallBroker (.ofNanos 20000000) 1 0, .process 1 1 none, .crash 1,
   .receive 2 smallBroker (.ofNanos 40000000) 2 0, .process 2 2 none,
   .settle 2 smallBroker (.ofNanos 41000000)]

theorem storable_stillClock : stillClock.Storable := by
  intro tick
  exact ⟨0, show (Instant.ofNanos 0).nanos? = some 0 by decide⟩

theorem lost_only_undated_after_redelivery :
    (Ingestion.run .builtin stillClock redelivery start).published[(1 : Int)]? = some tagMessage ∧
      ((Ingestion.run .builtin stillClock redelivery start).queue.body? 1 = some tagMessage ∨
        (Ingestion.run .builtin stillClock redelivery start).maintenance.catalogue.Reflects
          tagEvent.entityType tagEvent.entityId 0) := by
  have hpublished : (Ingestion.run .builtin stillClock redelivery start).published[(1 : Int)]? =
      some tagMessage := by decide +kernel
  have hdecode : ChangeEvent.decode tagMessage = .ok tagEvent := by decide +kernel
  have hsource : Registry.builtin.find? tagEvent.source = some ⟨"bbc", "GB", "BBC"⟩ := by
    decide +kernel
  have hnanos : tagEvent.timestamp.nanos? = some 0 := by decide
  have hkept := lost_only_undated .builtin stillClock redelivery hpublished hdecode hsource rfl
    hnanos
  exact ⟨hpublished, hkept.imp_right (·.resolve_right (not_dropsIn storable_stillClock _ _))⟩

/-! ### A message is lost -/

/-- A record is not written if the request that it leaves would have no time. -/
theorem perform_write_of_unstorable_now {record : Content} {now : Instant} {c : Catalogue}
    {nanos : Int} (hnanos : record.lastUpdated.nanos? = some nanos)
    (hnewer : c.content.IsNewer ContentRow.lastUpdated record.id.stored (record.row nanos))
    (hnow : now.nanos? = none) :
    (record.write now).perform none c = (.error (.invalidInput (.unstorable now)), c) := by
  unfold Statements.perform Content.write
  simp [Instant.storable, hnanos, hnow, Statements.mark, Statements.update, Statements.statement,
    bind, StateT.bind, Except.bind, liftM, monadLift, MonadLift.monadLift, StateT.lift, pure,
    Except.pure, Table.insertNewer_of_isNewer hnewer, requestAll]

/-- **A worker drops a message** whose record is new: the reading of the clock is taken for a fault of
the message. -/
theorem ack_of_unstorable_now {registry : Registry} {now : Instant} {message : List UInt8}
    {c : Catalogue} {record : Content} {nanos : Int}
    (hasked : (EntityUpdate.content record).IsAskedAt registry message nanos)
    (hnewer : c.content.IsNewer ContentRow.lastUpdated record.id.stored (record.row nanos))
    (hnow : now.nanos? = none) :
    ((Worker.stored registry now none).onMessage message).run c = (.ack, c) := by
  obtain ⟨hasked, hnanos⟩ := hasked
  have happly : ((Writers.stored now none).apply (.content record)).run c =
      (.error (.invalidInput (.unstorable now)), c) := by
    rw [Writers.run_apply_content, Writers.run_stored_content,
      perform_write_of_unstorable_now hnanos hnewer hnow]
    rfl
  rw [Worker.run_onMessage,
    Worker.run_process_of_fault (Worker.stored registry now none) hasked happly]
  rfl

/-- A clock that shows the first second of the year 2300. -/
def lateClock : SystemClock := fun _ => ⟨10413792000, 0⟩

/-- A message with a record. -/
def recordMessage : List UInt8 :=
  Text.Utf8.encode "[null,\"6\",\"1970-01-01T00:00:00Z\",\"content\",\"bbc\",[\"film\"]]"

/-- The event in the message with a record. -/
def recordEvent : ChangeEvent := ⟨none, 6, ⟨0, 0⟩, .content, "bbc", .array [.string "film"]⟩

/-- A message is published, received, processed and settled, and nothing fails. -/
def smoothly : List Action :=
  [.publish smallBroker (.ofNanos 0) "6" recordMessage, .receive 0 smallBroker (.ofNanos 0) 0 0,
   .process 0 0 none, .settle 0 smallBroker (.ofNanos 0)]

/-- **A message is lost** when the clock of a worker shows a time that cannot be stored: it has left
the queue, and there is no record. -/
theorem lost_in_late_run :
    (Ingestion.run .builtin lateClock smoothly start).published[(1 : Int)]? = some recordMessage ∧
      ChangeEvent.decode recordMessage = .ok recordEvent ∧
      Registry.builtin.find? recordEvent.source = some ⟨"bbc", "GB", "BBC"⟩ ∧
      (EntityUpdate.ofPayload recordEvent ⟨"bbc", "GB", "BBC"⟩).isOk = true ∧
      recordEvent.timestamp.nanos? = some 0 ∧
      (Ingestion.run .builtin lateClock smoothly start).queue.body? 1 = none ∧
      ¬ (Ingestion.run .builtin lateClock smoothly start).maintenance.catalogue.Reflects
        recordEvent.entityType recordEvent.entityId 0 := by
  have hcontent : (Ingestion.run .builtin lateClock smoothly start).maintenance.catalogue.content[
      recordEvent.entityId.stored]? = none := by decide +kernel
  refine ⟨by decide +kernel, by decide +kernel, by decide +kernel, rfl, by decide,
    by decide +kernel, ?_⟩
  rintro ⟨row, hrow, _⟩
  cases hcontent.symm.trans hrow

end Ingestion

end MediaCatalogue
