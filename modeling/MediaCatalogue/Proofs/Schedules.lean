import MediaCatalogue.Deployment.Reading
import MediaCatalogue.Proofs.Convergence
import MediaCatalogue.Proofs.Delivery

/-!
# Schedules do not matter

What is stored in the end does not depend on the schedule: not on the order in which messages are
published and delivered, not on how often they are delivered, on failures and crashes, or on when
the refresher works.

**Main theorem** (`Ingestion.schedule_independent`): two runs that publish the same messages, and
that leave neither a message in the queue nor a request, have the same tables and give the same
answers, if no two events of one entity have the same time.

The rows are determined because each of them is that of a published message, and at least as new as
all published messages of its entity (`Catalogue.StemsFrom.agree`); the labels, because they are
materialised from the edges (`Catalogue.Materialised.sets_eq`).
-/

namespace MediaCatalogue

theorem Deployment.services_congr {d d' : Deployment} (hregistry : d.registry = d'.registry)
    (hcatalogue : d.catalogue = d'.catalogue) (hopen : d.isOpen = d'.isOpen)
    (houtages : d.outages = d'.outages) (index : Backing (IdMap IdSet))
    (titles : Option (TitleQuery → Call Tally (List Id))) :
    d.services index titles = d'.services index titles := by
  have hsnapshots : d.snapshots = d'.snapshots := by
    simp only [snapshots, hopen, hcatalogue]
  simp only [services, lookup, resolve, hsnapshots, hregistry, houtages]

namespace Ingestion

/-- A published message holds the event, which has a known source, a payload of its type and the
time `nanos`. -/
def Reports (registry : Registry) (s : Ingestion) (e : ChangeEvent) (nanos : Int) : Prop :=
  ∃ (seq : Int) (message : List UInt8) (publisher : Publisher) (update : EntityUpdate),
    s.published[seq]? = some message ∧ ChangeEvent.decode message = .ok e ∧
      registry.find? e.source = some publisher ∧
        EntityUpdate.ofPayload e publisher = .ok update ∧ e.timestamp.nanos? = some nanos

/-- No two different events of one entity that were published have the same time. -/
def TellsEventsApart (registry : Registry) (s : Ingestion) : Prop :=
  ∀ (e e' : ChangeEvent) (nanos : Int), s.Reports registry e nanos → s.Reports registry e' nanos →
    e.entityType = e'.entityType → e.entityId = e'.entityId → e = e'

/-- The same messages were published, each of them at least once. -/
def SameMessages (s s' : Ingestion) : Prop :=
  ∀ message : List UInt8,
    (∃ seq : Int, s.published[seq]? = some message) ↔
      ∃ seq : Int, s'.published[seq]? = some message

/-- No message and no request is left. -/
structure Drained (s : Ingestion) : Prop where
  messages : s.queue.messages = ∅
  pending : s.maintenance.catalogue.pending = ∅

/-- A deployment with these tables and this queue. -/
def deployment (registry : Registry) (s : Ingestion) : Deployment :=
  { registry, catalogue := s.maintenance.catalogue, queue := s.queue, clock := 0 }

/-- What a query is answered with, as long as nothing is out of order. -/
def answer (registry : Registry) (titles : Option (TitleQuery → Call Tally (List Id)))
    (limit : Duration) (query : Query) (context : QueryContext) (s : Ingestion) :
    Except QueryError (Resolved Merged) :=
  let executor : Executor Tally := ⟨(s.deployment registry).services .tables titles, limit⟩
  ((executor.execute query context).run {}).1

variable {registry : Registry} {s s' : Ingestion}

theorem answer_congr (h : s.maintenance.catalogue = s'.maintenance.catalogue)
    (titles : Option (TitleQuery → Call Tally (List Id))) (limit : Duration) (query : Query)
    (context : QueryContext) :
    s.answer registry titles limit query context =
      s'.answer registry titles limit query context := by
  have hservices : (s.deployment registry).services .tables titles =
      (s'.deployment registry).services .tables titles := by
    apply Deployment.services_congr
    · rfl
    · exact h
    · rfl
    · rfl
  unfold answer
  rw [hservices]

theorem offers_iff {update : EntityUpdate} {nanos : Int} :
    s.Offers registry update nanos ↔
      ∃ e, s.Reports registry e nanos ∧ EntityUpdate.ofEvent registry e = .ok update := by
  constructor
  · rintro ⟨seq, message, hseq, ⟨e, hdecode, hupdate⟩, hnanos⟩
    obtain ⟨publisher, hsource, hpayload⟩ := EntityUpdate.exists_publisher_of_ofEvent hupdate
    rw [(EntityUpdate.ofEvent_eq_ok hupdate).2.2] at hnanos
    exact ⟨e, ⟨seq, message, publisher, update, hseq, hdecode, hsource, hpayload, hnanos⟩, hupdate⟩
  · rintro ⟨e, ⟨seq, message, _, _, hseq, hdecode, _, _, hnanos⟩, hupdate⟩
    exact ⟨seq, message, hseq, EntityUpdate.isAskedAt_of_ofEvent hdecode hupdate hnanos⟩

/-- Events that are told apart ask for updates that are told apart. -/
theorem TellsEventsApart.oneAtATime (h : s.TellsEventsApart registry) :
    OneAtATime (s.Offers registry) := by
  intro update update' nanos hoffers hoffers' htype hid
  obtain ⟨e, hreports, hupdate⟩ := offers_iff.1 hoffers
  obtain ⟨e', hreports', hupdate'⟩ := offers_iff.1 hoffers'
  obtain ⟨htype₁, hid₁, _⟩ := EntityUpdate.ofEvent_eq_ok hupdate
  obtain ⟨htype₂, hid₂, _⟩ := EntityUpdate.ofEvent_eq_ok hupdate'
  have heq : e = e' := by
    refine h e e' nanos hreports hreports' ?_ ?_
    · rw [← htype₁, ← htype₂, htype]
    · rw [← hid₁, ← hid₂, hid]
  subst heq
  rw [hupdate] at hupdate'
  exact Except.ok.inj hupdate'

theorem SameMessages.offers (h : s.SameMessages s') {update : EntityUpdate} {nanos : Int}
    (hoffers : s.Offers registry update nanos) : s'.Offers registry update nanos := by
  obtain ⟨seq, message, hseq, hasked⟩ := hoffers
  obtain ⟨seq', hseq'⟩ := (h message).1 ⟨seq, hseq⟩
  exact ⟨seq', message, hseq', hasked⟩

theorem SameMessages.symm (h : s.SameMessages s') : s'.SameMessages s := fun message =>
  (h message).symm

theorem Consistent.reflectsAll (h : s.Consistent registry fun _ => False) (hdrained : s.Drained) :
    s.maintenance.catalogue.ReflectsAll (s.Offers registry) := by
  rintro update nanos ⟨seq, message, hseq, hasked⟩
  rcases h.kept seq message hseq with hqueue | hreflects
  · rw [MessageQueue.body?, hdrained.messages] at hqueue
    simp at hqueue
  · exact hreflects.resolve_right id update nanos hasked

/-- **Tables that are drained are determined by what was published.** -/
theorem Consistent.catalogue_eq (h : s.Consistent registry fun _ => False)
    (h' : s'.Consistent registry fun _ => False) (hsame : s.SameMessages s')
    (happart : s.TellsEventsApart registry) (hdrained : s.Drained) (hdrained' : s'.Drained) :
    s.maintenance.catalogue = s'.maintenance.catalogue := by
  -- Both runs were offered the same updates.
  have hstems' : s'.maintenance.catalogue.StemsFrom (s.Offers registry) :=
    h'.stems.mono fun _ _ hoffers => hsame.symm.offers hoffers
  have hall' : s'.maintenance.catalogue.ReflectsAll (s.Offers registry) := by
    intro update nanos hoffers
    exact h'.reflectsAll hdrained' update nanos (hsame.offers hoffers)
  have hrows : s.maintenance.catalogue.SameRows s'.maintenance.catalogue :=
    h.stems.agree hstems' (h.reflectsAll hdrained) hall' happart.oneAtATime
  have hsets : s.maintenance.catalogue.sets = s'.maintenance.catalogue.sets :=
    (h.sound.materialised hdrained.pending).sets_eq (h'.sound.materialised hdrained'.pending)
      hrows.edges.symm
  have hpending : s.maintenance.catalogue.pending = s'.maintenance.catalogue.pending := by
    rw [hdrained.pending, hdrained'.pending]
  exact Catalogue.eq_of_sameRows hrows hsets hpending

/-- **Schedules do not matter.** Two runs from the empty tables that publish the same messages, with
failures and an order of steps of their own, and with clocks of their own whose readings can be
stored, leave the same tables and give the same answers if they leave neither a message nor a
request. -/
theorem schedule_independent (registry : Registry) {clock clock' : SystemClock}
    (hclock : clock.Storable) (hclock' : clock'.Storable) (actions actions' : List Action)
    (hsame : (run registry clock actions start).SameMessages (run registry clock' actions' start))
    (happart : (run registry clock actions start).TellsEventsApart registry)
    (hdrained : (run registry clock actions start).Drained)
    (hdrained' : (run registry clock' actions' start).Drained) :
    (run registry clock actions start).maintenance.catalogue =
        (run registry clock' actions' start).maintenance.catalogue ∧
      ∀ titles limit query context,
        (run registry clock actions start).answer registry titles limit query context =
          (run registry clock' actions' start).answer registry titles limit query context := by
  have hconsistent := (consistent_start registry fun _ => False).run_of_storable hclock actions
  have hconsistent' := (consistent_start registry fun _ => False).run_of_storable hclock' actions'
  have hcatalogue := hconsistent.catalogue_eq hconsistent' hsame happart hdrained hdrained'
  exact ⟨hcatalogue, fun titles limit query context =>
    answer_congr hcatalogue titles limit query context⟩

/-! ### Two schedules -/

theorem run_append (registry : Registry) (clock : SystemClock) (actions more : List Action)
    (s : Ingestion) :
    run registry clock (actions ++ more) s =
      run registry clock more (run registry clock actions s) :=
  List.foldl_append

theorem run_refresh (registry : Registry) (clock : SystemClock) (calls : List RefreshCall)
    (s : Ingestion) :
    run registry clock (calls.map .refresh) s =
      { s with maintenance := calls.foldl Maintenance.refresh s.maintenance } := by
  induction calls generalizing s with
  | nil => rfl
  | cons call calls ih => exact ih _

theorem published_run_refresh {clock : SystemClock} {calls : List RefreshCall} :
    (run registry clock (calls.map .refresh) s).published = s.published := by
  rw [run_refresh]

theorem drained_run_refresh {clock : SystemClock} {calls : List RefreshCall} {m : Maintenance}
    (hmaintenance : s.maintenance = m) (hqueue : s.queue.messages = ∅)
    (hpending : (calls.foldl Maintenance.refresh m).catalogue.pending = ∅) :
    (run registry clock (calls.map .refresh) s).Drained := by
  subst hmaintenance
  rw [run_refresh]
  exact ⟨hqueue, hpending⟩

/-- The old equivalents of a record. -/
def oldLink : List UInt8 :=
  Text.Utf8.encode
    "[null,\"3\",\"1970-01-01T00:00:00Z\",\"equivalence\",\"bbc\",[[\"4\"]]]"

/-- The new equivalents of the same record. -/
def newLink : List UInt8 :=
  Text.Utf8.encode
    "[null,\"3\",\"1970-01-01T00:00:01Z\",\"equivalence\",\"bbc\",[[\"2\"]]]"

/-- The event in the message with the old equivalents. -/
def oldEvent : ChangeEvent :=
  ⟨none, 3, ⟨0, 0⟩, .equivalence, "bbc", .array [.array [.string "4"]]⟩

/-- The event in the message with the new equivalents. -/
def newEvent : ChangeEvent :=
  ⟨none, 3, ⟨1, 0⟩, .equivalence, "bbc", .array [.array [.string "2"]]⟩

/-- A refresher serves three requests. -/
def serving : List RefreshCall :=
  [.read 10, .refresh none, .complete none, .refresh none, .complete none, .refresh none,
   .complete none]

/-- The messages are taken in as they were published. -/
def inOrder : List Action :=
  [.publish smallBroker (.ofNanos 0) "3" oldLink, .publish smallBroker (.ofNanos 0) "3" newLink,
   .receive 0 smallBroker (.ofNanos 0) 0 0, .process 0 0 none, .settle 0 smallBroker (.ofNanos 0),
   .receive 0 smallBroker (.ofNanos 0) 1 0, .process 0 1 none, .settle 0 smallBroker (.ofNanos 0)]

/-- The new equivalents come first, and their first consumer crashes; the old ones come too late. -/
def shuffled : List Action :=
  [.publish smallBroker (.ofNanos 0) "3" newLink, .publish smallBroker (.ofNanos 0) "3" oldLink,
   .receive 0 smallBroker (.ofNanos 0) 0 0, .process 0 0 none, .crash 0,
   .receive 1 smallBroker (.ofNanos 0) 1 0, .process 1 1 none, .settle 1 smallBroker (.ofNanos 0),
   .receive 2 smallBroker (.ofNanos 20000000) 2 0, .process 2 2 none,
   .settle 2 smallBroker (.ofNanos 20000000)]

/-- The tables with the new equivalents and some requests. -/
def linked (requests : List (Int × RequestRow)) : Maintenance :=
  { catalogue :=
      { assertions := (∅ : Table AssertionRow).insert 3 ⟨"bbc", 1000000000⟩
        edges := (∅ : EdgeSet).insert ⟨3, 2⟩
        pending := (∅ : Table RequestRow).insertMany requests }
    progress := .waiting [] }

/-- Two messages that were published. -/
def twoMessages (first second : List UInt8) : Table (List UInt8) :=
  ((∅ : Table (List UInt8)).insert 1 first).insert 2 second

theorem exists_twoMessages {first second message : List UInt8} :
    (∃ seq : Int, (twoMessages first second)[seq]? = some message) ↔
      message = first ∨ message = second := by
  simp only [twoMessages, Std.ExtTreeMap.getElem?_insert, Std.LawfulEqCmp.compare_eq_iff_eq,
    Std.ExtTreeMap.getElem?_empty]
  constructor
  · rintro ⟨seq, hseq⟩
    split at hseq
    · exact .inr (Option.some.inj hseq).symm
    · split at hseq
      · exact .inl (Option.some.inj hseq).symm
      · cases hseq
  · rintro (rfl | rfl)
    · exact ⟨1, by simp⟩
    · exact ⟨2, by simp⟩

theorem sameMessages_of_twoMessages {first second : List UInt8}
    (h : s.published = twoMessages first second) (h' : s'.published = twoMessages second first) :
    s.SameMessages s' := by
  intro message
  rw [h, h', exists_twoMessages, exists_twoMessages, or_comm]

theorem tellsEventsApart_of_links (h : s.published = twoMessages oldLink newLink) :
    s.TellsEventsApart registry := by
  have hold : ChangeEvent.decode oldLink = .ok oldEvent := by decide +kernel
  have hnew : ChangeEvent.decode newLink = .ok newEvent := by decide +kernel
  have holdTime : oldEvent.timestamp.nanos? = some 0 := by decide
  have hnewTime : newEvent.timestamp.nanos? = some 1000000000 := by decide
  have hevent : ∀ e nanos, s.Reports registry e nanos →
      e = oldEvent ∧ nanos = 0 ∨ e = newEvent ∧ nanos = 1000000000 := by
    rintro e nanos ⟨seq, message, _, _, hseq, hdecode, _, _, hnanos⟩
    rw [h] at hseq
    rcases exists_twoMessages.1 ⟨seq, hseq⟩ with rfl | rfl
    · rw [hold] at hdecode
      cases hdecode
      exact .inl ⟨rfl, Option.some.inj (hnanos.symm.trans holdTime)⟩
    · rw [hnew] at hdecode
      cases hdecode
      exact .inr ⟨rfl, Option.some.inj (hnanos.symm.trans hnewTime)⟩
  intro e e' nanos hreports hreports' _ _
  rcases hevent e nanos hreports with ⟨rfl, htime⟩ | ⟨rfl, htime⟩ <;>
    rcases hevent e' nanos hreports' with ⟨rfl, htime'⟩ | ⟨rfl, htime'⟩
  · rfl
  · omega
  · omega
  · rfl

/-- What the first schedule leaves to the refresher. -/
theorem run_inOrder :
    (run .builtin stillClock inOrder start).maintenance =
        linked [(2, ⟨0, 0⟩), (3, ⟨1, 0⟩), (4, ⟨1, 0⟩)] ∧
      (run .builtin stillClock inOrder start).queue.messages = ∅ ∧
        (run .builtin stillClock inOrder start).published = twoMessages oldLink newLink := by
  decide +kernel

/-- What the second schedule leaves to the refresher: fewer requests. -/
theorem run_shuffled :
    (run .builtin stillClock shuffled start).maintenance =
        linked [(2, ⟨0, 0⟩), (3, ⟨0, 0⟩)] ∧
      (run .builtin stillClock shuffled start).queue.messages = ∅ ∧
        (run .builtin stillClock shuffled start).published = twoMessages newLink oldLink := by
  decide +kernel

theorem pending_serving_inOrder :
    (serving.foldl Maintenance.refresh
      (linked [(2, ⟨0, 0⟩), (3, ⟨1, 0⟩), (4, ⟨1, 0⟩)])).catalogue.pending.isEmpty = true := by
  rw [serving, List.foldl_cons, Maintenance.refresh_read]
  decide +kernel

theorem pending_serving_shuffled :
    (serving.foldl Maintenance.refresh
      (linked [(2, ⟨0, 0⟩), (3, ⟨0, 0⟩)])).catalogue.pending.isEmpty = true := by
  rw [serving, List.foldl_cons, Maintenance.refresh_read]
  decide +kernel

theorem drained_inOrder :
    (run .builtin stillClock (inOrder ++ serving.map .refresh) start).Drained ∧
      (run .builtin stillClock (inOrder ++ serving.map .refresh) start).published =
        twoMessages oldLink newLink := by
  obtain ⟨hmaintenance, hqueue, hpublished⟩ := run_inOrder
  rw [run_append, published_run_refresh]
  have hpending := Std.ExtTreeMap.isEmpty_iff.1 pending_serving_inOrder
  exact ⟨drained_run_refresh hmaintenance hqueue hpending, hpublished⟩

theorem drained_shuffled :
    (run .builtin stillClock (shuffled ++ serving.map .refresh) start).Drained ∧
      (run .builtin stillClock (shuffled ++ serving.map .refresh) start).published =
        twoMessages newLink oldLink := by
  obtain ⟨hmaintenance, hqueue, hpublished⟩ := run_shuffled
  rw [run_append, published_run_refresh]
  have hpending := Std.ExtTreeMap.isEmpty_iff.1 pending_serving_shuffled
  exact ⟨drained_run_refresh hmaintenance hqueue hpending, hpublished⟩

theorem schedule_independent_of_crash :
    (run .builtin stillClock (inOrder ++ serving.map .refresh) start).Drained ∧
      (run .builtin stillClock (shuffled ++ serving.map .refresh) start).Drained ∧
        (run .builtin stillClock (inOrder ++ serving.map .refresh) start).maintenance.catalogue =
          (run .builtin stillClock (shuffled ++ serving.map .refresh)
            start).maintenance.catalogue := by
  obtain ⟨hdrained, hpublished⟩ := drained_inOrder
  obtain ⟨hdrained', hpublished'⟩ := drained_shuffled
  have hindependent := schedule_independent .builtin storable_stillClock storable_stillClock _ _
    (sameMessages_of_twoMessages hpublished hpublished') (tellsEventsApart_of_links hpublished)
    hdrained hdrained'
  exact ⟨hdrained, hdrained', hindependent.1⟩

end Ingestion

end MediaCatalogue
