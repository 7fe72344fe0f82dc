import Mathlib.Data.List.Induction
import MediaCatalogue.Proofs.Leases

/-!
# The order of deliveries

Publishers and consumers make calls in any order. Some messages are hidden, some were given back,
and several consumers may read one partition.

**Main theorem** (`QueueJournal.delivery_order`): while the clock does not go back, a delivery is
that of a published message, made by a call for its partition; the deliveries of a message are
counted; between two of them the first one was given back, or its lease ran out; and a message is
not delivered before all earlier ones of its partition were.

The last property rests on `QueueJournal.Waiting`: a message that was never delivered is as it was
published, so it has been visible since then.
-/

namespace MediaCatalogue

/-- A consumer gave a message back that it held under the lease of the delivery. -/
def GivenBack (events : List QueueEvent) (d : Delivery) : Prop :=
  ∃ d', .settled d' .nack ∈ events ∧ d'.seq = d.seq ∧ d'.lease = d.lease

theorem GivenBack.append {events : List QueueEvent} {d : Delivery} (h : GivenBack events d)
    (later : List QueueEvent) : GivenBack (events ++ later) d := by
  obtain ⟨d', hsettled, hsame⟩ := h
  exact ⟨d', List.mem_append_left _ hsettled, hsame⟩

namespace QueueJournal

variable {s s' : QueueJournal} {call : QueueCall}

/-! ### Calls and events -/

/-- Every delivery is what a call for its partition received when its message was due. -/
theorem exists_receive_of_delivered (calls : List QueueCall) {before after : List QueueEvent}
    {now : Instant} {settings : BrokerSettings} {d : Delivery}
    (h : (run calls start).events = before ++ .delivered now settings d :: after) :
    ∃ earlier later m, calls = earlier ++ .receive settings now d.lease d.partition :: later ∧
      (run earlier start).events = before ∧ (run earlier start).queue.IsDue now d.seq m ∧
      d = m.delivery d.seq d.lease m.partition := by
  induction calls using List.reverseRecOn generalizing after with
  | nil => cases before <;> cases h
  | append_singleton calls call ih =>
    -- The event belongs to the last call, or it was there before this call.
    have hold : ∀ after', (run calls start).events = before ++ .delivered now settings d :: after' →
        ∃ earlier later m,
          calls ++ [call] = earlier ++ .receive settings now d.lease d.partition :: later ∧
          (run earlier start).events = before ∧ (run earlier start).queue.IsDue now d.seq m ∧
          d = m.delivery d.seq d.lease m.partition := by
      intro after' hevents
      obtain ⟨earlier, later, m, rfl, hrest⟩ := ih hevents
      exact ⟨earlier, later ++ [call], m, by rw [List.append_assoc, List.cons_append], hrest⟩
    have heffect := effect_act (run calls start) call
    rw [run_concat] at h
    generalize (run calls start).act call = s' at heffect h
    cases heffect with
    | published hseq =>
      rcases append_singleton_eq_append_cons h with ⟨_, hevent, _⟩ | ⟨after', _, hevents⟩
      · cases hevent
      · exact hold after' hevents
    | idle => exact hold after h
    | settled =>
      rcases append_singleton_eq_append_cons h with ⟨_, hevent, _⟩ | ⟨after', _, hevents⟩
      · cases hevent
      · exact hold after' hevents
    | @delivered _ _ _ _ m hdue =>
      rcases append_singleton_eq_append_cons h with ⟨hbefore, hevent, _⟩ | ⟨after', _, hevents⟩
      · cases hevent
        exact ⟨calls, [], m, rfl, hbefore, hdue, rfl⟩
      · exact hold after' hevents

theorem millis_mem_readings (calls : List QueueCall) {p : Publication}
    (hp : .published p ∈ (run calls start).events) :
    p.now.millis ∈ calls.filterMap QueueCall.reading? := by
  induction calls using List.reverseRecOn with
  | nil => cases hp
  | append_singleton calls call ih =>
    rw [List.filterMap_append, List.mem_append]
    have heffect := effect_act (run calls start) call
    rw [run_concat] at hp
    generalize (run calls start).act call = s' at heffect hp
    cases heffect with
    | published hseq =>
      rcases List.mem_append.1 hp with hold | hnew
      · exact .inl (ih hold)
      · cases List.mem_singleton.1 hnew
        exact .inr (List.mem_singleton_self _)
    | idle => exact .inl (ih hp)
    | delivered hdue => exact .inl (ih (by simpa using hp))
    | settled => exact .inl (ih (by simpa using hp))

/-! ### Numbers and attempts -/

/-- Messages are published under ascending numbers. -/
def Ascending (s : QueueJournal) : Prop :=
  Throughout (fun before event => ∀ p p', event = .published p → .published p' ∈ before →
    p'.seq < p.seq) s.events

theorem ascending_run (calls : List QueueCall) : (run calls start).Ascending := by
  refine run_induction_of_recorded (I := Ascending) throughout_nil ?_ calls
  intro s call s' hrecorded h heffect
  cases heffect with
  | published hseq =>
    refine h.snoc fun p p' hp hp' => ?_
    cases hp
    rw [hseq]
    exact hrecorded.numbered p' hp'
  | idle => exact h
  | delivered hdue => exact h.snoc fun p p' hp => by cases hp
  | settled => exact h.snoc fun p p' hp => by cases hp

/-- A row counts the deliveries of its message. -/
def Counted (s : QueueJournal) : Prop :=
  ∀ (seq : Int) (m : Message), s.queue.messages[seq]? = some m →
    m.attempts = (deliveriesOf s.events seq).length

theorem counted_run (calls : List QueueCall) : (run calls start).Counted := by
  refine run_induction_of_recorded (I := Counted) ?_ ?_ calls
  · intro seq m hm
    simp [start, MessageQueue.empty] at hm
  intro s call s' hrecorded h heffect
  cases heffect with
  | idle => exact h
  | @published p hseq =>
    refine Table.forall_insert (fun seq m hm => ?_) ?_
    · rw [deliveriesOf_append, deliveriesOf_published, List.append_nil]
      exact h seq m hm
    · -- The number is new, so nothing was delivered under it.
      have hnone : deliveriesOf s.events p.seq = [] := deliveriesOf_eq_nil_iff.2 fun d hd heq => by
        have hlt := hrecorded.seq_lt_nextSeq hd
        omega
      rw [deliveriesOf_append, deliveriesOf_published, hnone]
      rfl
  | @delivered settings now lease seq m hdue =>
    intro seq' m' hm'
    by_cases hseq : seq = seq'
    · subst hseq
      rw [Std.ExtTreeMap.getElem?_insert_self] at hm'
      cases hm'
      have hcount := h seq m hdue.stored
      rw [deliveriesOf_append, deliveriesOf_delivered m.seq_delivery, List.length_append, ← hcount]
      rfl
    · rw [Table.getElem?_insert_of_ne hseq] at hm'
      rw [deliveriesOf_append, deliveriesOf_delivered_of_ne hseq, List.append_nil]
      exact h seq' m' hm'
  | settled =>
    intro seq m hm
    rw [deliveriesOf_append, deliveriesOf_settled, List.append_nil]
    rcases MessageQueue.stored_of_settle hm with hold | ⟨m', hleased, rfl, _, rfl⟩
    · exact h seq m hold
    · exact h _ m' (MessageQueue.leased?_eq_some hleased)

/-! ### Messages that were not delivered yet -/

/-- A message that was never delivered is in the queue as it was published. -/
def Waiting (s : QueueJournal) : Prop :=
  ∀ p, .published p ∈ s.events → deliveriesOf s.events p.seq = [] →
    s.queue.messages[p.seq]? = some p.message

theorem waiting_run (calls : List QueueCall) : (run calls start).Waiting := by
  refine run_induction_of_recorded (I := Waiting) (fun p hp => by cases hp) ?_ calls
  intro s call s' hrecorded h heffect
  cases heffect with
  | idle => exact h
  | published hseq =>
    intro p' hp' hnone
    rw [deliveriesOf_append, deliveriesOf_published, List.append_nil] at hnone
    rcases List.mem_append.1 hp' with hold | hnew
    · have hlt := hrecorded.numbered p' hold
      exact (Table.getElem?_insert_of_ne (by omega)).trans (h p' hold hnone)
    · cases List.mem_singleton.1 hnew
      exact Std.ExtTreeMap.getElem?_insert_self
  | @delivered settings now lease seq m hdue =>
    intro p hp hnone
    obtain ⟨hnone, hother⟩ := List.append_eq_nil_iff.1 (deliveriesOf_append ▸ hnone)
    have hseq : seq ≠ p.seq := by
      rintro rfl
      rw [deliveriesOf_delivered m.seq_delivery] at hother
      cases hother
    exact (Table.getElem?_insert_of_ne hseq).trans (h p (by simpa using hp) hnone)
  | @settled settings now d decision =>
    intro p hp hnone
    rw [deliveriesOf_append, deliveriesOf_settled, List.append_nil] at hnone
    have hsame := h p (by simpa using hp) hnone
    -- Nobody holds the lease of a message that was not leased.
    have hleased : d.seq = p.seq → s.queue.leased? d = none := by
      intro hseq
      rw [Option.eq_none_iff_forall_ne_some]
      intro m hm
      obtain ⟨hstored, hlease⟩ := MessageQueue.leased?_eq_some_iff.1 hm
      rw [hseq, hsame] at hstored
      cases hstored
      cases hlease
    by_cases hseq : d.seq = p.seq
    · rw [MessageQueue.settle_of_not_leased (hleased hseq)]
      exact hsame
    · rw [MessageQueue.getElem?_settle_of_ne hseq]
      exact hsame

/-! ### Messages that were delivered -/

/-- A message that is still in the queue has the lease of its last delivery, and is hidden for as
long as this one said, or it was given back since. -/
def Hidden (s : QueueJournal) : Prop :=
  ∀ before now settings d between m, s.events = before ++ .delivered now settings d :: between →
    deliveriesOf between d.seq = [] → s.queue.messages[d.seq]? = some m →
    GivenBack between d ∨
      m.lease = some d.lease ∧ m.visibleAt = visibleAfter now settings.visibilityTimeout

theorem hidden_run (calls : List QueueCall) : (run calls start).Hidden := by
  refine run_induction_of_recorded (I := Hidden) ?_ ?_ calls
  · intro before now settings d between m h
    cases before <;> cases h
  intro s call s' hrecorded h heffect
  cases heffect with
  | idle => exact h
  | @published p hseq =>
    intro before now settings d between m hall hnone hm
    rcases append_singleton_eq_append_cons hall with ⟨_, hevent, _⟩ | ⟨between, rfl, hevents⟩
    · cases hevent
    have hd : d ∈ deliveries s.events :=
      mem_deliveries.2 ⟨now, settings, hevents ▸ List.mem_append_right _ List.mem_cons_self⟩
    have hlt := hrecorded.seq_lt_nextSeq hd
    rw [deliveriesOf_append, deliveriesOf_published, List.append_nil] at hnone
    rw [Table.getElem?_insert_of_ne (by omega)] at hm
    exact (h before now settings d between m hevents hnone hm).imp_left fun hback => hback.append _
  | @delivered settings now lease seq m hdue =>
    intro before now' settings' d between m' hall hnone hm'
    rcases append_singleton_eq_append_cons hall with ⟨_, hevent, _⟩ | ⟨between, rfl, hevents⟩
    · cases hevent
      rw [Message.seq_delivery, Std.ExtTreeMap.getElem?_insert_self] at hm'
      cases hm'
      exact .inr ⟨rfl, rfl⟩
    · obtain ⟨hnone, hother⟩ := List.append_eq_nil_iff.1 (deliveriesOf_append ▸ hnone)
      have hseq : seq ≠ d.seq := by
        rintro rfl
        rw [deliveriesOf_delivered m.seq_delivery] at hother
        cases hother
      rw [Table.getElem?_insert_of_ne hseq] at hm'
      exact (h before now' settings' d between m' hevents hnone hm').imp_left
        fun hback => hback.append _
  | @settled settings now d' decision =>
    intro before now' settings' d between m hall hnone hm
    rcases append_singleton_eq_append_cons hall with ⟨_, hevent, _⟩ | ⟨between, rfl, hevents⟩
    · cases hevent
    rw [deliveriesOf_append, deliveriesOf_settled, List.append_nil] at hnone
    rcases MessageQueue.stored_of_settle hm with hold | ⟨m', hleased, hseq, rfl, rfl⟩
    · exact (h before now' settings' d between m hevents hnone hold).imp_left
        fun hback => hback.append _
    · -- The lease that is given back is that of the last delivery, unless this happened before.
      obtain ⟨hstored, hlease⟩ := MessageQueue.leased?_eq_some_iff.1 hleased
      rw [hseq] at hstored
      rcases h before now' settings' d between m' hevents hnone hstored with hback | ⟨hheld, _⟩
      · exact .inl (hback.append _)
      · rw [hheld] at hlease
        exact .inl ⟨d', List.mem_append_right _ (List.mem_singleton_self _), hseq,
          (Option.some.inj hlease).symm⟩

/-! ### Main result -/

theorem permitsAll_of_append {earlier later : List QueueCall}
    (h : s.PermitsAll (earlier ++ later)) : s.PermitsAll earlier := by
  induction earlier generalizing s with
  | nil => trivial
  | cons call earlier ih => exact ⟨h.1, ih h.2⟩

/-- Where all leases are different, it is the delivery itself that was given back. -/
theorem Authorised.settled_of_givenBack (h : s.Authorised) {d : Delivery}
    {before between : List QueueEvent} {now : Instant} {settings : BrokerSettings}
    (hevents : s.events = before ++ .delivered now settings d :: between)
    (hback : GivenBack between d) : .settled d .nack ∈ between := by
  obtain ⟨d', hsettled, _, hlease⟩ := hback
  have hd : d ∈ deliveries s.events :=
    mem_deliveries.2 ⟨now, settings, hevents ▸ List.mem_append_right _ List.mem_cons_self⟩
  have hd' : d' ∈ deliveries s.events := by
    refine h.received d' .nack ?_
    rw [hevents]
    exact List.mem_append_right _ (List.mem_cons_of_mem _ hsettled)
  obtain rfl := h.distinct d' hd' d hd hlease
  exact hsettled

/-- **The order of deliveries.** Take any calls of publishers and consumers whose readings of the
clock do not go back, and any delivery that happened.

1. It was received by a call for its partition, and its message was published before. The partition
   is that of the key under which the message was published, and the body is what was published.
2. It is counted, up to 32 bits: the attempts of a message are 1, 2, 3, …
3. If its message was delivered before, the last of these deliveries was given back since, or the
   clock reads at least the time until which it was hidden.
4. If its message was not delivered before, all messages that were published earlier for its
   partition were. -/
theorem delivery_order {calls : List QueueCall}
    (hclock : (calls.filterMap QueueCall.reading?).Pairwise (· ≤ ·))
    {before after : List QueueEvent} {now : Instant} {settings : BrokerSettings} {d : Delivery}
    (hdelivered : (run calls start).events = before ++ .delivered now settings d :: after) :
    ((∃ earlier later, calls = earlier ++ .receive settings now d.lease d.partition :: later ∧
        (run earlier start).events = before) ∧
      ∃ p, .published p ∈ before ∧ p.seq = d.seq ∧ d.body = p.body ∧
        d.partition = Partition.ofKey p.settings.partitions p.key ∧
        ∀ p', .published p' ∈ (run calls start).events → p'.seq = d.seq → p' = p) ∧
    d.attempts = ((deliveriesOf before d.seq).length + 1) % Word.limit32 ∧
    (∀ first now' settings' d' between,
      before = first ++ .delivered now' settings' d' :: between → d'.seq = d.seq →
      deliveriesOf between d.seq = [] →
      (GivenBack between d' ∧ (start.PermitsAll calls → .settled d' .nack ∈ between)) ∨
        visibleAfter now' settings'.visibilityTimeout ≤ now.millis) ∧
    (deliveriesOf before d.seq = [] → ∀ first p between p',
      before = first ++ .published p :: between → p.seq = d.seq → .published p' ∈ first →
      p'.partition = d.partition → deliveriesOf before p'.seq ≠ []) := by
  obtain ⟨earlier, later, m, rfl, rfl, hdue, hd⟩ := exists_receive_of_delivered calls hdelivered
  have hrecorded := recorded_run earlier
  have hpartition : d.partition = m.partition := congrArg Delivery.partition hd
  refine ⟨⟨⟨earlier, later, rfl, rfl⟩, ?_⟩, ?_, ?_, ?_⟩
  · obtain ⟨p, hp, hseq, hbody, hrow⟩ := hrecorded.stored d.seq m hdue.stored
    refine ⟨p, hp, hseq, (congrArg Delivery.body hd).trans hbody, hpartition.trans hrow, ?_⟩
    intro p' hp' hseq'
    have hold : .published p ∈ (run (earlier ++ .receive settings now d.lease d.partition :: later)
        start).events := by
      rw [hdelivered]
      exact List.mem_append_left _ hp
    exact (recorded_run _).once p' p hp' hold (hseq'.trans hseq.symm)
  · rw [← counted_run earlier d.seq m hdue.stored]
    exact congrArg Delivery.attempts hd
  · intro first now' settings' d' between hevents hseq hnone
    have hstored := hdue.stored
    rw [← hseq] at hnone hstored
    rcases hidden_run earlier first now' settings' d' between m hevents hnone hstored with
      hback | ⟨_, hvisible⟩
    · refine .inl ⟨hback, fun hcalls => ?_⟩
      exact (authorised_start.run (permitsAll_of_append hcalls)).settled_of_givenBack hevents hback
    · rw [← hvisible]
      exact .inr hdue.visible
  · intro _ first p between p' hevents hseq hp' hsame hnone
    have hlt : p'.seq < p.seq := ascending_run earlier first _ between hevents p p' rfl hp'
    have hmem : .published p' ∈ (run earlier start).events := by
      rw [hevents]
      exact List.mem_append_left _ hp'
    -- The earlier message is visible since it was published, so it would be delivered instead.
    have hwaiting := waiting_run earlier p' hmem hnone
    have hhidden := hdue.first p'.seq p'.message hwaiting (hsame.trans hpartition) (hseq ▸ hlt)
    have hread := millis_mem_readings earlier hmem
    rw [List.filterMap_append] at hclock
    have hle : p'.now.millis ≤ now.millis :=
      (List.pairwise_append.1 hclock).2.2 _ hread _ List.mem_cons_self
    exact absurd hhidden (Int.not_lt.2 hle)

/-- Two messages are published and leased. The first one is given back and leased again. -/
def twoMessages : List QueueCall :=
  [.publish Ingestion.smallBroker (.ofNanos 0) "3" [120],
   .publish Ingestion.smallBroker (.ofNanos 0) "3" [121],
   .receive Ingestion.smallBroker (.ofNanos 0) 0 0,
   .receive Ingestion.smallBroker (.ofNanos 0) 1 0,
   .settle Ingestion.smallBroker (.ofNanos 1000000) ⟨1, 0, [120], 1, 0⟩ .nack,
   .receive Ingestion.smallBroker (.ofNanos 20000000) 2 0]

theorem delivery_order_of_two_messages :
    have events := (run twoMessages start).events
    (twoMessages.filterMap QueueCall.reading?).Pairwise (· ≤ ·) ∧
      (∃ first second, events = first ++
          .delivered (.ofNanos 0) Ingestion.smallBroker ⟨2, 0, [121], 1, 1⟩ :: second ∧
        deliveriesOf first 1 ≠ []) ∧
      ∃ first, events = first ++
          [.delivered (.ofNanos 20000000) Ingestion.smallBroker ⟨1, 0, [120], 2, 2⟩] ∧
        2 = ((deliveriesOf first 1).length + 1) % Word.limit32 := by
  intro events
  have hclock : (twoMessages.filterMap QueueCall.reading?).Pairwise (· ≤ ·) := by decide +kernel
  have hfirst : events = events.take 3 ++
      .delivered (.ofNanos 0) Ingestion.smallBroker ⟨2, 0, [121], 1, 1⟩ :: events.drop 4 := by
    decide +kernel
  have hsecond : events = events.take 5 ++
      [.delivered (.ofNanos 20000000) Ingestion.smallBroker ⟨1, 0, [120], 2, 2⟩] := by
    decide +kernel
  obtain ⟨_, _, _, hinOrder⟩ := delivery_order hclock hfirst
  obtain ⟨_, hcounted, _⟩ := delivery_order hclock hsecond
  -- The two publications are the first events, so the first message comes before the second.
  have hpublished : events.take 3 =
      [.published ⟨1, Ingestion.smallBroker, .ofNanos 0, "3", [120]⟩] ++
        .published ⟨2, Ingestion.smallBroker, .ofNanos 0, "3", [121]⟩ ::
          (events.take 3).drop 2 := by
    decide +kernel
  have hdelivered : deliveriesOf (events.take 3) 1 ≠ [] :=
    hinOrder (by decide +kernel) _ _ _ _ hpublished rfl (List.mem_singleton_self _)
      (by decide +kernel)
  exact ⟨hclock, ⟨_, _, hfirst, hdelivered⟩, _, hsecond, hcounted⟩

end QueueJournal

end MediaCatalogue
