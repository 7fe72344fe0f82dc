import MediaCatalogue.Proofs.Journal

/-!
# Who can settle a message

Consumers keep what was delivered to them, and may settle it late, again, or after the message was
delivered to somebody else. All leases are different, and a consumer settles nothing but what was
delivered; the clock may read anything.

**Main theorem** (`QueueJournal.authority`): a settlement has an effect iff its delivery is the last
one of its message and was not settled before. Then an acknowledgement removes the message, and
giving it back changes nothing but its lease and the time from which it is visible. So a message
leaves the queue in no other way, and its body and its partition never change.

The invariant is `QueueJournal.Authorised`: a delivery holds the lease of its message iff it is
`Unsettled`.
-/

namespace MediaCatalogue

/-- The delivery is the last one of its message, and nobody settled it. -/
def Unsettled (events : List QueueEvent) (d : Delivery) : Prop :=
  (deliveriesOf events d.seq).getLast? = some d ∧ ∀ decision, .settled d decision ∉ events

instance (events : List QueueEvent) (d : Delivery) : Decidable (Unsettled events d) :=
  decidable_of_iff ((deliveriesOf events d.seq).getLast? = some d ∧
    .settled d .ack ∉ events ∧ .settled d .nack ∉ events) <|
    and_congr_right fun _ =>
      ⟨fun h decision => match decision with
        | .ack => h.1
        | .nack => h.2, fun h => ⟨h .ack, h .nack⟩⟩

section

variable {events : List QueueEvent} {d d' : Delivery}

theorem Unsettled.eq (h : Unsettled events d) (h' : Unsettled events d') (hseq : d.seq = d'.seq) :
    d = d' := by
  have hlast := h.1
  rw [hseq, h'.1] at hlast
  exact (Option.some.inj hlast).symm

theorem unsettled_published {p : Publication} :
    Unsettled (events ++ [.published p]) d ↔ Unsettled events d := by
  simp [Unsettled]

/-- A settlement ends the authority of its delivery. -/
theorem unsettled_settled {decision : Decision} :
    Unsettled (events ++ [.settled d' decision]) d ↔ Unsettled events d ∧ d' ≠ d := by
  have hmem : (∀ decision', QueueEvent.settled d decision' ∉ events ++ [.settled d' decision]) ↔
      (∀ decision', QueueEvent.settled d decision' ∉ events) ∧ d' ≠ d := by
    constructor
    · intro h
      refine ⟨fun decision' hold => h decision' (List.mem_append_left _ hold), ?_⟩
      rintro rfl
      exact h decision (List.mem_append_right _ (List.mem_singleton_self _))
    · rintro ⟨hold, hne⟩ decision' hevent
      rcases List.mem_append.1 hevent with hevent | hevent
      · exact hold decision' hevent
      · cases List.mem_singleton.1 hevent
        exact hne rfl
  rw [Unsettled, Unsettled, deliveriesOf_append, deliveriesOf_settled, List.append_nil, hmem,
    and_assoc]

theorem unsettled_delivered_of_ne {now : Instant} {settings : BrokerSettings}
    (h : d'.seq ≠ d.seq) :
    Unsettled (events ++ [.delivered now settings d']) d ↔ Unsettled events d := by
  simp [Unsettled, deliveriesOf_delivered_of_ne h]

theorem unsettled_delivered {now : Instant} {settings : BrokerSettings} (h : d'.seq = d.seq) :
    Unsettled (events ++ [.delivered now settings d']) d ↔
      d' = d ∧ ∀ decision, .settled d decision ∉ events := by
  simp [Unsettled, deliveriesOf_delivered h]

end

namespace MessageQueue

variable {q q' : MessageQueue} {settings : BrokerSettings} {now : Instant} {d d' : Delivery}
  {decision : Decision} {m : Message}

theorem leased?_congr (h : q'.messages[d.seq]? = q.messages[d.seq]?) :
    q'.leased? d = q.leased? d := by
  rw [leased?, leased?, h]

theorem leased?_settle (h : q.leased? d = some m) (hseq : d.seq = d'.seq) :
    (q.settle settings now d decision).leased? d' = none := by
  rw [Option.eq_none_iff_forall_ne_some]
  intro m' hleased
  obtain ⟨hstored, hlease⟩ := leased?_eq_some_iff.1 hleased
  rw [← hseq, getElem?_settle h] at hstored
  cases decision with
  | ack => cases hstored
  | nack =>
    cases hstored
    cases hlease

theorem messages_ack_ne_iff :
    (q.ack d).messages ≠ q.messages ↔ ∃ m, q.leased? d = some m := by
  constructor
  · intro hne
    by_contra hleased
    have hnone : q.leased? d = none := Option.eq_none_iff_forall_ne_some.2 fun m hm =>
      hleased ⟨m, hm⟩
    exact hne (congrArg messages (ack_of_not_leased hnone))
  · rintro ⟨m, hm⟩ heq
    have hstored := leased?_eq_some hm
    rw [← heq, ack_of_leased hm, Std.ExtTreeMap.getElem?_erase_self] at hstored
    cases hstored

theorem messages_nack_ne_iff :
    (q.nack settings now d).messages ≠ q.messages ↔ ∃ m, q.leased? d = some m := by
  constructor
  · intro hne
    by_contra hleased
    have hnone : q.leased? d = none := Option.eq_none_iff_forall_ne_some.2 fun m hm =>
      hleased ⟨m, hm⟩
    exact hne (congrArg messages (nack_of_not_leased hnone))
  · rintro ⟨m, hm⟩ heq
    obtain ⟨hstored, hlease⟩ := leased?_eq_some_iff.1 hm
    rw [← heq, nack_of_leased hm, Std.ExtTreeMap.getElem?_insert_self] at hstored
    have hsame : (m.returned settings now).lease = m.lease :=
      congrArg Message.lease (Option.some.inj hstored)
    rw [hlease] at hsame
    cases hsame

end MessageQueue

/-! ### Calls that are permitted -/

namespace QueueJournal

/-- Every lease is a new one, and only deliveries are settled. -/
def Permits (s : QueueJournal) : QueueCall → Prop
  | .publish _ _ _ _ => True
  | .receive _ _ lease _ => ∀ d ∈ deliveries s.events, d.lease ≠ lease
  | .settle _ _ d _ => d ∈ deliveries s.events

instance (s : QueueJournal) : DecidablePred s.Permits
  | .publish _ _ _ _ => inferInstanceAs (Decidable True)
  | .receive _ _ lease _ =>
    inferInstanceAs (Decidable (∀ d ∈ deliveries s.events, d.lease ≠ lease))
  | .settle _ _ d _ => inferInstanceAs (Decidable (d ∈ deliveries s.events))

/-- Every call is permitted when it is made. -/
def PermitsAll (s : QueueJournal) : List QueueCall → Prop
  | [] => True
  | call :: calls => s.Permits call ∧ (s.act call).PermitsAll calls

instance decidablePermitsAll (s : QueueJournal) :
    (calls : List QueueCall) → Decidable (s.PermitsAll calls)
  | [] => inferInstanceAs (Decidable True)
  | call :: calls =>
    have := decidablePermitsAll (s.act call) calls
    inferInstanceAs (Decidable (s.Permits call ∧ (s.act call).PermitsAll calls))

/-! ### The invariant -/

/-- Deliveries are told apart by their leases, and the one that holds the lease of a message is the
one that is unsettled. -/
structure Authorised (s : QueueJournal) : Prop where
  recorded : s.Recorded
  distinct : ∀ d ∈ deliveries s.events, ∀ d' ∈ deliveries s.events, d.lease = d'.lease → d = d'
  received : ∀ d decision, .settled d decision ∈ s.events → d ∈ deliveries s.events
  leased_iff : ∀ d ∈ deliveries s.events,
    (∃ m, s.queue.leased? d = some m) ↔ Unsettled s.events d

theorem authorised_start : start.Authorised where
  recorded := recorded_start
  distinct d hd := by cases hd
  received d decision h := by cases h
  leased_iff d hd := by cases hd

variable {s s' : QueueJournal}

theorem Authorised.publish (h : s.Authorised) {p : Publication} (hseq : p.seq = s.queue.nextSeq) :
    Authorised ⟨{ messages := s.queue.messages.insert p.seq p.message, nextSeq := p.seq + 1 },
      s.events ++ [.published p]⟩ where
  recorded := h.recorded.publish hseq
  distinct := by
    rw [deliveries_append, deliveries_published, List.append_nil]
    exact h.distinct
  received d decision hsettled := by
    rw [deliveries_append, deliveries_published, List.append_nil]
    exact h.received d decision (by simpa using hsettled)
  leased_iff d hd := by
    rw [deliveries_append, deliveries_published, List.append_nil] at hd
    have hlt := h.recorded.seq_lt_nextSeq hd
    have hsame : (s.queue.messages.insert p.seq p.message)[d.seq]? = s.queue.messages[d.seq]? :=
      Table.getElem?_insert_of_ne (by omega)
    rw [unsettled_published, MessageQueue.leased?_congr hsame]
    exact h.leased_iff d hd

/-- The new lease is not that of an earlier delivery, so these lose their authority. -/
theorem Authorised.deliver (h : s.Authorised) {settings : BrokerSettings} {now : Instant}
    {lease : Nat} {seq : Int} {m : Message} (hm : s.queue.messages[seq]? = some m)
    (hlease : ∀ d ∈ deliveries s.events, d.lease ≠ lease) :
    Authorised
      ⟨{ s.queue with messages := s.queue.messages.insert seq (m.leased settings now lease) },
        s.events ++ [.delivered now settings (m.delivery seq lease m.partition)]⟩ where
  recorded := h.recorded.deliver hm
  distinct := by
    rw [deliveries_append, deliveries_delivered]
    intro d hd d' hd' heq
    rcases List.mem_append.1 hd with hold | hnew <;>
      rcases List.mem_append.1 hd' with hold' | hnew'
    · exact h.distinct d hold d' hold' heq
    · cases List.mem_singleton.1 hnew'
      exact absurd heq (hlease d hold)
    · cases List.mem_singleton.1 hnew
      exact absurd heq.symm (hlease d' hold')
    · exact (List.mem_singleton.1 hnew).trans (List.mem_singleton.1 hnew').symm
  received d decision hsettled := by
    rw [deliveries_append]
    exact List.mem_append_left _ (h.received d decision (by simpa using hsettled))
  leased_iff d hd := by
    rw [deliveries_append, deliveries_delivered] at hd
    rcases List.mem_append.1 hd with hold | hnew
    · by_cases hseq : d.seq = seq
      · subst hseq
        have hsame : (m.delivery d.seq lease m.partition).seq = d.seq := rfl
        rw [unsettled_delivered hsame]
        constructor
        · rintro ⟨m', hleased⟩
          obtain ⟨hstored, hheld⟩ := MessageQueue.leased?_eq_some_iff.1 hleased
          rw [Std.ExtTreeMap.getElem?_insert_self] at hstored
          cases hstored
          -- The message has the new lease now, and no earlier delivery has that.
          exact absurd (Option.some.inj hheld).symm (hlease d hold)
        · rintro ⟨hsame, _⟩
          exact absurd (congrArg Delivery.lease hsame).symm (hlease d hold)
      · have hsame : (s.queue.messages.insert seq (m.leased settings now lease))[d.seq]? =
            s.queue.messages[d.seq]? :=
          Table.getElem?_insert_of_ne (Ne.symm hseq)
        rw [unsettled_delivered_of_ne (Ne.symm hseq), MessageQueue.leased?_congr hsame]
        exact h.leased_iff d hold
    · cases List.mem_singleton.1 hnew
      rw [unsettled_delivered rfl]
      refine iff_of_true ⟨m.leased settings now lease, ?_⟩ ⟨rfl, fun decision hsettled => ?_⟩
      · rw [MessageQueue.leased?_eq_some_iff]
        exact ⟨Std.ExtTreeMap.getElem?_insert_self, rfl⟩
      · exact hlease _ (h.received _ decision hsettled) rfl

theorem Authorised.settle (h : s.Authorised) {settings : BrokerSettings} {now : Instant}
    {d : Delivery} {decision : Decision} (hd : d ∈ deliveries s.events) :
    Authorised ⟨s.queue.settle settings now d decision, s.events ++ [.settled d decision]⟩ where
  recorded := h.recorded.settle
  distinct := by
    rw [deliveries_append, deliveries_settled, List.append_nil]
    exact h.distinct
  received d' decision' hsettled := by
    rw [deliveries_append, deliveries_settled, List.append_nil]
    rcases List.mem_append.1 hsettled with hold | hnew
    · exact h.received d' decision' hold
    · cases List.mem_singleton.1 hnew
      exact hd
  leased_iff d' hd' := by
    rw [deliveries_append, deliveries_settled, List.append_nil] at hd'
    rw [unsettled_settled]
    cases hleased : s.queue.leased? d with
    | none =>
      rw [MessageQueue.settle_of_not_leased hleased, h.leased_iff d' hd', iff_self_and]
      rintro hunsettled rfl
      obtain ⟨m, hm⟩ := (h.leased_iff d hd).2 hunsettled
      rw [hleased] at hm
      cases hm
    | some m =>
      have hunsettled := (h.leased_iff d hd).1 ⟨m, hleased⟩
      by_cases hseq : d.seq = d'.seq
      · rw [MessageQueue.leased?_settle hleased hseq]
        refine iff_of_false (by simp) ?_
        rintro ⟨hother, hne⟩
        exact hne (hunsettled.eq hother hseq)
      · rw [MessageQueue.leased?_congr (MessageQueue.getElem?_settle_of_ne hseq),
          h.leased_iff d' hd', iff_self_and]
        rintro _ rfl
        exact hseq rfl

theorem Authorised.effect (h : s.Authorised) {call : QueueCall} (hcall : s.Permits call)
    (heffect : s.Effect call s') : s'.Authorised := by
  cases heffect with
  | published hseq => exact h.publish hseq
  | idle => exact h
  | delivered hdue => exact h.deliver hdue.stored hcall
  | settled => exact h.settle hcall

theorem Authorised.run (h : s.Authorised) {calls : List QueueCall} (hcalls : s.PermitsAll calls) :
    (QueueJournal.run calls s).Authorised := by
  induction calls generalizing s with
  | nil => exact h
  | cons call calls ih => exact ih (h.effect hcalls.1 (effect_act s call)) hcalls.2

/-! ### Consequences -/

/-- A message leaves the queue when its unsettled delivery is acknowledged. -/
theorem Authorised.ack_of_removed (h : s.Authorised) {call : QueueCall} (hcall : s.Permits call)
    {seq : Int} {m : Message} (hm : s.queue.messages[seq]? = some m)
    (hremoved : (s.act call).queue.messages[seq]? = none) :
    ∃ settings now d, call = .settle settings now d .ack ∧ d.seq = seq ∧ Unsettled s.events d := by
  -- All calls but the one that settles a delivery only put messages in.
  have hinsert : ∀ (key : Int) (m' : Message),
      (s.queue.messages.insert key m')[seq]? ≠ none := by
    intro key m' hnone
    rw [Std.ExtTreeMap.getElem?_insert] at hnone
    split at hnone
    · cases hnone
    · rw [hm] at hnone
      cases hnone
  have heffect := effect_act s call
  generalize s.act call = s' at heffect hremoved
  cases heffect with
  | published hseq => exact absurd hremoved (hinsert _ _)
  | idle =>
    rw [hm] at hremoved
    cases hremoved
  | delivered hdue => exact absurd hremoved (hinsert _ _)
  | @settled settings now d decision =>
    have hseq : d.seq = seq := by
      by_contra hne
      rw [MessageQueue.getElem?_settle_of_ne hne, hm] at hremoved
      cases hremoved
    subst hseq
    cases hleased : s.queue.leased? d with
    | none =>
      rw [MessageQueue.settle_of_not_leased hleased, hm] at hremoved
      cases hremoved
    | some m' =>
      rw [MessageQueue.getElem?_settle hleased] at hremoved
      cases decision with
      | nack => cases hremoved
      | ack => exact ⟨settings, now, d, rfl, rfl, (h.leased_iff d hcall).1 ⟨m', hleased⟩⟩

/-- The rows that a number ever has are all those of one publication. -/
theorem Recorded.same_message (h : s.Recorded) (h' : s'.Recorded) {later : List QueueEvent}
    (hlater : s'.events = s.events ++ later) {seq : Int} {m m' : Message}
    (hm : s.queue.messages[seq]? = some m) (hm' : s'.queue.messages[seq]? = some m') :
    m'.body = m.body ∧ m'.partition = m.partition := by
  obtain ⟨p, hp, hseq, hbody, hpartition⟩ := h.stored seq m hm
  obtain ⟨p', hp', hseq', hbody', hpartition'⟩ := h'.stored seq m' hm'
  have hold : .published p ∈ s'.events := by
    rw [hlater]
    exact List.mem_append_left _ hp
  obtain rfl := h'.once p p' hold hp' (hseq.trans hseq'.symm)
  exact ⟨hbody'.trans hbody.symm, hpartition'.trans hpartition.symm⟩

/-- **Who can settle a message.** Take any calls of publishers and consumers, with any readings of
the clock, in which all leases are different and only deliveries are settled.

A settlement of a delivery changes the table of messages iff the delivery is the last one of its
message and was not settled before. Then an acknowledgement removes the row of its message, and
giving the message back changes its lease and the time from which it is visible. So a message leaves
the table only when its last delivery is acknowledged while it is unsettled; and no body and no
partition of a message ever changes, whatever is called later. -/
theorem authority {calls : List QueueCall} (hcalls : start.PermitsAll calls) :
    have s := run calls start
    (∀ d ∈ deliveries s.events, ∀ (settings : BrokerSettings) (now : Instant),
      ((s.queue.ack d).messages ≠ s.queue.messages ↔ Unsettled s.events d) ∧
      ((s.queue.nack settings now d).messages ≠ s.queue.messages ↔ Unsettled s.events d) ∧
      (Unsettled s.events d → ∃ m, s.queue.messages[d.seq]? = some m ∧
        (s.queue.ack d).messages = s.queue.messages.erase d.seq ∧
        (s.queue.nack settings now d).messages = s.queue.messages.insert d.seq
          { m with visibleAt := visibleAfter now settings.retryDelay, lease := none })) ∧
    (∀ (call : QueueCall) (seq : Int) (m : Message), s.Permits call →
      s.queue.messages[seq]? = some m → (s.act call).queue.messages[seq]? = none →
      ∃ settings now d, call = .settle settings now d .ack ∧ d.seq = seq ∧
        Unsettled s.events d) ∧
    ∀ (later : List QueueCall) (seq : Int) (m m' : Message), s.queue.messages[seq]? = some m →
      (run later s).queue.messages[seq]? = some m' →
      m'.body = m.body ∧ m'.partition = m.partition := by
  intro s
  have h : s.Authorised := authorised_start.run hcalls
  refine ⟨fun d hd settings now => ⟨?_, ?_, fun hunsettled => ?_⟩, ?_, ?_⟩
  · rw [MessageQueue.messages_ack_ne_iff, h.leased_iff d hd]
  · rw [MessageQueue.messages_nack_ne_iff, h.leased_iff d hd]
  · obtain ⟨m, hleased⟩ := (h.leased_iff d hd).2 hunsettled
    refine ⟨m, MessageQueue.leased?_eq_some hleased, ?_, ?_⟩
    · rw [MessageQueue.ack_of_leased hleased]
    · rw [MessageQueue.nack_of_leased hleased]
      rfl
  · exact fun call seq m hcall => h.ack_of_removed hcall
  · intro later seq m m' hm hm'
    obtain ⟨events, hevents⟩ := exists_events_run later s
    -- What comes later belongs to the same run as what came before.
    have hlater : (run later s).Recorded := by
      rw [← run_append]
      exact recorded_run (calls ++ later)
    exact h.recorded.same_message hlater hevents hm hm'

/-- A message is published and leased, and leased again when the first lease ran out. -/
def leasedTwice : List QueueCall :=
  [.publish Ingestion.smallBroker (.ofNanos 0) "3" [120],
   .receive Ingestion.smallBroker (.ofNanos 0) 0 0,
   .receive Ingestion.smallBroker (.ofNanos 20000000) 1 0]

/-- The first consumer is late. Its acknowledgement keeps the message, that of the second consumer
removes it. -/
theorem authority_of_second_lease :
    have s := run leasedTwice start
    start.PermitsAll leasedTwice ∧
      (s.queue.ack ⟨1, 0, [120], 1, 0⟩).messages = s.queue.messages ∧
      (s.queue.ack ⟨1, 0, [120], 2, 1⟩).messages = s.queue.messages.erase 1 := by
  intro s
  have hcalls : start.PermitsAll leasedTwice := by decide +kernel
  have hdeliveries : deliveries s.events = [⟨1, 0, [120], 1, 0⟩, ⟨1, 0, [120], 2, 1⟩] := by
    decide +kernel
  have hlate : ¬ Unsettled s.events ⟨1, 0, [120], 1, 0⟩ := by decide +kernel
  have hlast : Unsettled s.events ⟨1, 0, [120], 2, 1⟩ := by decide +kernel
  obtain ⟨hsettle, _⟩ := authority hcalls
  obtain ⟨hack, _⟩ :=
    hsettle ⟨1, 0, [120], 1, 0⟩ (by simp [s, hdeliveries]) Ingestion.smallBroker (.ofNanos 0)
  obtain ⟨_, _, heffect⟩ :=
    hsettle ⟨1, 0, [120], 2, 1⟩ (by simp [s, hdeliveries]) Ingestion.smallBroker (.ofNanos 0)
  obtain ⟨_, _, herase, _⟩ := heffect hlast
  exact ⟨hcalls, not_not.1 (mt hack.1 hlate), herase⟩

end QueueJournal

end MediaCatalogue
