import MediaCatalogue.Proofs.Partitions

/-!
# What happens to a message queue

Publishers and consumers make calls in any order, each with settings and a reading of the clock of
its own, and each call is one statement. A `QueueJournal` is a queue together with what happened to
it: what was published, what was delivered, and which deliveries were settled.

* `QueueJournal.Effect` is all that a call can do (`QueueJournal.effect_act`);
* `QueueJournal.Recorded` says which rows and deliveries the publications account for, and
  `QueueJournal.recorded_run` that this holds after any calls, whatever the clock reads and
  whichever leases are used;
* `Throughout` states what holds of every event in view of those before it.
-/

namespace MediaCatalogue

theorem Table.getElem?_insert_of_ne {Row : Type} {table : Table Row} {row : Row} {key key' : Int}
    (h : key ≠ key') : (table.insert key row)[key']? = table[key']? := by
  rw [Std.ExtTreeMap.getElem?_insert, if_neg]
  simpa only [Std.LawfulEqCmp.compare_eq_iff_eq] using h

/-! ### Settling a delivery -/

/-- A message that was given back. -/
def Message.returned (settings : BrokerSettings) (now : Instant) (m : Message) : Message :=
  { m with visibleAt := visibleAfter now settings.retryDelay, lease := none }

@[simp]
theorem Message.seq_delivery (m : Message) {seq : Int} {lease partition : Nat} :
    (m.delivery seq lease partition).seq = seq := rfl

namespace MessageQueue

variable {q : MessageQueue} {settings : BrokerSettings} {now : Instant} {d : Delivery}
  {decision : Decision} {seq : Int} {m : Message}

theorem leased?_eq_some_iff :
    q.leased? d = some m ↔ q.messages[d.seq]? = some m ∧ m.lease = some d.lease := by
  rw [leased?, Option.filter_eq_some_iff, decide_eq_true_eq]

theorem ack_of_leased (h : q.leased? d = some m) :
    q.ack d = { q with messages := q.messages.erase d.seq } := by
  rw [ack, h]

theorem nack_of_leased (h : q.leased? d = some m) :
    q.nack settings now d =
      { q with messages := q.messages.insert d.seq (m.returned settings now) } := by
  rw [nack, h]
  rfl

theorem ack_of_not_leased (h : q.leased? d = none) : q.ack d = q := by
  rw [ack, h]

theorem nack_of_not_leased (h : q.leased? d = none) : q.nack settings now d = q := by
  rw [nack, h]

theorem settle_of_not_leased (h : q.leased? d = none) : q.settle settings now d decision = q := by
  cases decision with
  | ack => exact ack_of_not_leased h
  | nack => exact nack_of_not_leased h

theorem getElem?_settle (h : q.leased? d = some m) :
    (q.settle settings now d decision).messages[d.seq]? =
      match decision with
      | .ack => none
      | .nack => some (m.returned settings now) := by
  cases decision with
  | ack => simp only [settle, ack_of_leased h, Std.ExtTreeMap.getElem?_erase_self]
  | nack => simp only [settle, nack_of_leased h, Std.ExtTreeMap.getElem?_insert_self]

theorem getElem?_settle_of_ne (h : d.seq ≠ seq) :
    (q.settle settings now d decision).messages[seq]? = q.messages[seq]? := by
  cases hleased : q.leased? d with
  | none => rw [settle_of_not_leased hleased]
  | some m =>
    cases decision with
    | ack => simp [settle, ack_of_leased hleased, Std.ExtTreeMap.getElem?_erase, h]
    | nack => simp [settle, nack_of_leased hleased, Std.ExtTreeMap.getElem?_insert, h]

theorem stored_of_settle (h : (q.settle settings now d decision).messages[seq]? = some m) :
    q.messages[seq]? = some m ∨ ∃ m', q.leased? d = some m' ∧ d.seq = seq ∧ decision = .nack ∧
      m = m'.returned settings now := by
  by_cases hseq : d.seq = seq
  · subst hseq
    cases hleased : q.leased? d with
    | none =>
      rw [settle_of_not_leased hleased] at h
      exact .inl h
    | some m' =>
      rw [getElem?_settle hleased] at h
      cases decision with
      | ack => cases h
      | nack => exact .inr ⟨m', rfl, rfl, rfl, (Option.some.inj h).symm⟩
  · rw [getElem?_settle_of_ne hseq] at h
    exact .inl h

end MessageQueue

/-! ### Events -/

/-- A message when it was published. -/
structure Publication where
  /-- The number of the message. -/
  seq : Int
  /-- The settings of the broker that published it. -/
  settings : BrokerSettings
  /-- The reading of the clock. -/
  now : Instant
  /-- The key under which it was published. -/
  key : String
  /-- What was published. -/
  body : List UInt8
deriving DecidableEq, Repr

/-- The partition that a message was published to. -/
def Publication.partition (p : Publication) : Nat := Partition.ofKey p.settings.partitions p.key

/-- The row that a publication puts into the queue. -/
def Publication.message (p : Publication) : Message :=
  { partition := p.partition, body := p.body, attempts := 0, visibleAt := p.now.millis
    lease := none, publishedAt := p.now.millis }

/-- Something that happened to a queue. -/
inductive QueueEvent where
  /-- A message was published. -/
  | published (p : Publication)
  /-- A message was delivered at a reading of the clock, by a broker with some settings. -/
  | delivered (now : Instant) (settings : BrokerSettings) (d : Delivery)
  /-- A consumer settled a delivery. -/
  | settled (d : Delivery) (decision : Decision)
deriving DecidableEq, Repr

/-- What was delivered by an event. -/
def QueueEvent.delivery? : QueueEvent → Option Delivery
  | .delivered _ _ d => some d
  | _ => none

/-- All that was delivered. -/
def deliveries (events : List QueueEvent) : List Delivery := events.filterMap QueueEvent.delivery?

/-- The deliveries of one message. -/
def deliveriesOf (events : List QueueEvent) (seq : Int) : List Delivery :=
  (deliveries events).filter (·.seq = seq)

section

variable {events : List QueueEvent} {d d' : Delivery} {seq : Int}

theorem mem_deliveries :
    d ∈ deliveries events ↔ ∃ now settings, .delivered now settings d ∈ events := by
  rw [deliveries, List.mem_filterMap]
  constructor
  · rintro ⟨event, hevent, hd⟩
    cases event with
    | delivered now settings d' =>
      cases hd
      exact ⟨now, settings, hevent⟩
    | published p => cases hd
    | settled d' decision => cases hd
  · rintro ⟨now, settings, hevent⟩
    exact ⟨_, hevent, rfl⟩

theorem deliveriesOf_eq_nil_iff :
    deliveriesOf events seq = [] ↔ ∀ d ∈ deliveries events, d.seq ≠ seq := by
  simp [deliveriesOf, List.filter_eq_nil_iff]

@[simp]
theorem deliveries_append {events' : List QueueEvent} :
    deliveries (events ++ events') = deliveries events ++ deliveries events' :=
  List.filterMap_append

@[simp]
theorem deliveriesOf_append {events' : List QueueEvent} :
    deliveriesOf (events ++ events') seq =
      deliveriesOf events seq ++ deliveriesOf events' seq := by
  simp [deliveriesOf]

@[simp]
theorem deliveries_published {p : Publication} : deliveries [.published p] = [] := rfl

@[simp]
theorem deliveries_settled {decision : Decision} : deliveries [.settled d decision] = [] := rfl

@[simp]
theorem deliveries_delivered {now : Instant} {settings : BrokerSettings} :
    deliveries [.delivered now settings d] = [d] := rfl

@[simp]
theorem deliveriesOf_published {p : Publication} : deliveriesOf [.published p] seq = [] := rfl

@[simp]
theorem deliveriesOf_settled {decision : Decision} :
    deliveriesOf [.settled d decision] seq = [] := rfl

theorem deliveriesOf_delivered {now : Instant} {settings : BrokerSettings} (h : d.seq = seq) :
    deliveriesOf [.delivered now settings d] seq = [d] := by
  simp [deliveriesOf, h]

theorem deliveriesOf_delivered_of_ne {now : Instant} {settings : BrokerSettings} (h : d.seq ≠ seq) :
    deliveriesOf [.delivered now settings d] seq = [] := by
  simp [deliveriesOf, h]

end

/-! ### Every event in view of those before it -/

/-- The property `P` holds of every event, together with what happened before it. -/
def Throughout (P : List QueueEvent → QueueEvent → Prop) (events : List QueueEvent) : Prop :=
  ∀ before event after, events = before ++ event :: after → P before event

/-- A list that was prolonged is split at its last item, or where it could be split before. -/
theorem append_singleton_eq_append_cons {α : Type} {xs before after : List α} {x y : α}
    (h : xs ++ [x] = before ++ y :: after) :
    (xs = before ∧ x = y ∧ after = []) ∨ ∃ after', after = after' ++ [x] ∧
      xs = before ++ y :: after' := by
  rcases List.eq_nil_or_concat after with rfl | ⟨after', z, rfl⟩
  · obtain ⟨hxs, hx⟩ := List.append_inj' h rfl
    exact .inl ⟨hxs, List.singleton_inj.1 hx, rfl⟩
  · have hconcat : xs ++ [x] = (before ++ y :: after') ++ [z] := by
      rw [h, List.concat_eq_append, List.append_assoc, List.cons_append]
    obtain ⟨hxs, hx⟩ := List.append_inj' hconcat rfl
    cases List.singleton_inj.1 hx
    exact .inr ⟨after', List.concat_eq_append, hxs⟩

section

variable {P : List QueueEvent → QueueEvent → Prop} {events : List QueueEvent} {event : QueueEvent}

theorem throughout_nil : Throughout P [] := by
  intro before event after h
  cases before <;> cases h

theorem Throughout.snoc (h : Throughout P events) (hevent : P events event) :
    Throughout P (events ++ [event]) := by
  intro before event' after hsplit
  rcases append_singleton_eq_append_cons hsplit with ⟨rfl, rfl, _⟩ | ⟨after', _, rfl⟩
  · exact hevent
  · exact h before event' after' rfl

end

/-! ### Journals -/

/-- A call of a publisher or of a consumer. -/
inductive QueueCall where
  /-- A message is published. -/
  | publish (settings : BrokerSettings) (now : Instant) (key : String) (body : List UInt8)
  /-- The next message of a partition is leased. -/
  | receive (settings : BrokerSettings) (now : Instant) (lease partition : Nat)
  /-- A delivery is settled. -/
  | settle (settings : BrokerSettings) (now : Instant) (d : Delivery) (decision : Decision)

/-- What a call reads from the clock, in milliseconds. An acknowledgement does not ask for the
time. -/
def QueueCall.reading? : QueueCall → Option Int
  | .publish _ now _ _ => some now.millis
  | .receive _ now _ _ => some now.millis
  | .settle _ now _ .nack => some now.millis
  | .settle _ _ _ .ack => none

/-- A queue and what happened to it, the first event first. -/
structure QueueJournal where
  /-- The queue. -/
  queue : MessageQueue
  /-- What happened to it. -/
  events : List QueueEvent

namespace QueueJournal

/-- An empty queue, to which nothing happened. -/
def start : QueueJournal := ⟨.empty, []⟩

/-- A call is made. -/
def act (s : QueueJournal) : QueueCall → QueueJournal
  | .publish settings now key body =>
    let (seq, queue) := s.queue.publish settings now key body
    ⟨queue, s.events ++ [.published ⟨seq, settings, now, key, body⟩]⟩
  | .receive settings now lease partition =>
    match s.queue.receive settings now lease partition with
    | (none, queue) => ⟨queue, s.events⟩
    | (some d, queue) => ⟨queue, s.events ++ [.delivered now settings d]⟩
  | .settle settings now d decision =>
    ⟨s.queue.settle settings now d decision, s.events ++ [.settled d decision]⟩

/-- Several calls, one after the other. -/
def run (calls : List QueueCall) (s : QueueJournal) : QueueJournal := calls.foldl act s

theorem run_append (calls calls' : List QueueCall) (s : QueueJournal) :
    run (calls ++ calls') s = run calls' (run calls s) :=
  List.foldl_append

theorem run_concat (calls : List QueueCall) (call : QueueCall) (s : QueueJournal) :
    run (calls ++ [call]) s = (run calls s).act call :=
  run_append calls [call] s

/-- All that a call can do. -/
inductive Effect (s : QueueJournal) : QueueCall → QueueJournal → Prop
  /-- A message is added under the next number. -/
  | published {p : Publication} (h : p.seq = s.queue.nextSeq) :
    Effect s (.publish p.settings p.now p.key p.body)
      ⟨{ messages := s.queue.messages.insert p.seq p.message, nextSeq := p.seq + 1 },
        s.events ++ [.published p]⟩
  /-- There is nothing to deliver. -/
  | idle {settings : BrokerSettings} {now : Instant} {lease partition : Nat} :
    Effect s (.receive settings now lease partition) s
  /-- The next message of the partition is leased. -/
  | delivered {settings : BrokerSettings} {now : Instant} {lease : Nat} {seq : Int} {m : Message}
    (h : s.queue.IsDue now seq m) :
    Effect s (.receive settings now lease m.partition)
      ⟨{ s.queue with messages := s.queue.messages.insert seq (m.leased settings now lease) },
        s.events ++ [.delivered now settings (m.delivery seq lease m.partition)]⟩
  /-- A delivery is settled, perhaps too late. -/
  | settled {settings : BrokerSettings} {now : Instant} {d : Delivery} {decision : Decision} :
    Effect s (.settle settings now d decision)
      ⟨s.queue.settle settings now d decision, s.events ++ [.settled d decision]⟩

/-- **What a call does.** -/
theorem effect_act (s : QueueJournal) (call : QueueCall) : s.Effect call (s.act call) := by
  cases call with
  | publish settings now key body =>
    exact .published (p := ⟨s.queue.nextSeq, settings, now, key, body⟩) rfl
  | settle settings now d decision => exact .settled
  | receive settings now lease partition =>
    cases hnext : s.queue.next? now partition with
    | none =>
      have hact : s.act (.receive settings now lease partition) = s := by
        rw [act, MessageQueue.receive_of_no_next? hnext]
      rw [hact]
      exact .idle
    | some next =>
      obtain ⟨seq, m⟩ := next
      obtain ⟨hdue, rfl⟩ := MessageQueue.isDue_of_next? hnext
      have hact : s.act (.receive settings now lease m.partition) =
          ⟨{ s.queue with messages := s.queue.messages.insert seq (m.leased settings now lease) },
            s.events ++ [.delivered now settings (m.delivery seq lease m.partition)]⟩ := by
        rw [act, MessageQueue.receive_of_next? settings lease hnext]
      rw [hact]
      exact .delivered hdue

/-- What happened before a call is still recorded after it. -/
theorem Effect.exists_events {s s' : QueueJournal} {call : QueueCall} (h : s.Effect call s') :
    ∃ later, s'.events = s.events ++ later := by
  cases h with
  | published h => exact ⟨_, rfl⟩
  | idle => exact ⟨[], (List.append_nil _).symm⟩
  | delivered h => exact ⟨_, rfl⟩
  | settled => exact ⟨_, rfl⟩

theorem exists_events_run (calls : List QueueCall) (s : QueueJournal) :
    ∃ later, (run calls s).events = s.events ++ later := by
  induction calls generalizing s with
  | nil => exact ⟨[], (List.append_nil _).symm⟩
  | cons call calls ih =>
    obtain ⟨first, hfirst⟩ := (effect_act s call).exists_events
    obtain ⟨later, hlater⟩ := ih (s.act call)
    refine ⟨first ++ later, ?_⟩
    rw [run, List.foldl_cons, ← List.append_assoc, ← hfirst]
    exact hlater

/-- What holds of an empty journal and is kept by every effect holds after any calls. -/
theorem run_induction {I : QueueJournal → Prop} (hstart : I start)
    (hstep : ∀ s call s', I s → s.Effect call s' → I s') (calls : List QueueCall) :
    I (run calls start) := by
  suffices hrun : ∀ s, I s → I (run calls s) from hrun start hstart
  induction calls with
  | nil => exact fun s hs => hs
  | cons call calls ih => exact fun s hs => ih (s.act call) (hstep s call _ hs (effect_act s call))

/-! ### What publications account for -/

/-- Every row and every delivery is that of a message which was published under its number, and a
lease in the queue is that of a delivery. -/
structure Recorded (s : QueueJournal) : Prop where
  numbered : ∀ p, .published p ∈ s.events → p.seq < s.queue.nextSeq
  once : ∀ p p', .published p ∈ s.events → .published p' ∈ s.events → p.seq = p'.seq → p = p'
  stored : ∀ (seq : Int) (m : Message), s.queue.messages[seq]? = some m →
    ∃ p, .published p ∈ s.events ∧ p.seq = seq ∧ m.body = p.body ∧ m.partition = p.partition
  delivered : ∀ d ∈ deliveries s.events,
    ∃ p, .published p ∈ s.events ∧ p.seq = d.seq ∧ d.body = p.body ∧ d.partition = p.partition
  held : ∀ (seq : Int) (m : Message), s.queue.messages[seq]? = some m →
    ∀ lease, m.lease = some lease → ∃ d ∈ deliveries s.events, d.seq = seq ∧ d.lease = lease

theorem recorded_start : start.Recorded where
  numbered p hp := by cases hp
  once p p' hp := by cases hp
  stored seq m hm := by simp [start, MessageQueue.empty] at hm
  delivered d hd := by cases hd
  held seq m hm := by simp [start, MessageQueue.empty] at hm

variable {s s' : QueueJournal}

theorem Recorded.seq_lt_nextSeq (h : s.Recorded) {d : Delivery} (hd : d ∈ deliveries s.events) :
    d.seq < s.queue.nextSeq := by
  obtain ⟨p, hp, hseq, _⟩ := h.delivered d hd
  rw [← hseq]
  exact h.numbered p hp

theorem Recorded.publish (h : s.Recorded) {p : Publication} (hseq : p.seq = s.queue.nextSeq) :
    Recorded ⟨{ messages := s.queue.messages.insert p.seq p.message, nextSeq := p.seq + 1 },
      s.events ++ [.published p]⟩ where
  numbered p' hp' := by
    show p'.seq < p.seq + 1
    rcases List.mem_append.1 hp' with hold | hnew
    · have hlt := h.numbered p' hold
      omega
    · cases List.mem_singleton.1 hnew
      omega
  once p₁ p₂ hp₁ hp₂ heq := by
    -- All earlier publications have lower numbers.
    rcases List.mem_append.1 hp₁ with hold₁ | hnew₁ <;>
      rcases List.mem_append.1 hp₂ with hold₂ | hnew₂
    · exact h.once p₁ p₂ hold₁ hold₂ heq
    · cases List.mem_singleton.1 hnew₂
      have hlt := h.numbered p₁ hold₁
      omega
    · cases List.mem_singleton.1 hnew₁
      have hlt := h.numbered p₂ hold₂
      omega
    · cases List.mem_singleton.1 hnew₁
      cases List.mem_singleton.1 hnew₂
      rfl
  stored := by
    refine Table.forall_insert (fun seq m hm => ?_) ?_
    · obtain ⟨p', hp', hrow⟩ := h.stored seq m hm
      exact ⟨p', List.mem_append_left _ hp', hrow⟩
    · exact ⟨p, List.mem_append_right _ (List.mem_singleton_self _), rfl, rfl, rfl⟩
  delivered d hd := by
    rw [deliveries_append, deliveries_published, List.append_nil] at hd
    obtain ⟨p', hp', hrow⟩ := h.delivered d hd
    exact ⟨p', List.mem_append_left _ hp', hrow⟩
  held := by
    rw [deliveries_append, deliveries_published, List.append_nil]
    refine Table.forall_insert h.held fun lease hlease => ?_
    cases hlease

theorem Recorded.deliver (h : s.Recorded) {settings : BrokerSettings} {now : Instant} {lease : Nat}
    {seq : Int} {m : Message} (hm : s.queue.messages[seq]? = some m) :
    Recorded
      ⟨{ s.queue with messages := s.queue.messages.insert seq (m.leased settings now lease) },
        s.events ++ [.delivered now settings (m.delivery seq lease m.partition)]⟩ where
  numbered p hp := h.numbered p (by simpa using hp)
  once p p' hp hp' := h.once p p' (by simpa using hp) (by simpa using hp')
  stored := by
    refine Table.forall_insert (fun seq m hm => ?_) ?_
    · obtain ⟨p, hp, hrow⟩ := h.stored seq m hm
      exact ⟨p, List.mem_append_left _ hp, hrow⟩
    · obtain ⟨p, hp, hrow⟩ := h.stored seq m hm
      exact ⟨p, List.mem_append_left _ hp, hrow⟩
  delivered d hd := by
    rw [deliveries_append, deliveries_delivered] at hd
    rcases List.mem_append.1 hd with hold | hnew
    · obtain ⟨p, hp, hrow⟩ := h.delivered d hold
      exact ⟨p, List.mem_append_left _ hp, hrow⟩
    · cases List.mem_singleton.1 hnew
      obtain ⟨p, hp, hrow⟩ := h.stored seq m hm
      exact ⟨p, List.mem_append_left _ hp, hrow⟩
  held := by
    rw [deliveries_append, deliveries_delivered]
    refine Table.forall_insert (fun seq m hm lease hlease => ?_) fun lease' hlease => ?_
    · obtain ⟨d, hd, hsame⟩ := h.held seq m hm lease hlease
      exact ⟨d, List.mem_append_left _ hd, hsame⟩
    · cases hlease
      exact ⟨_, List.mem_append_right _ (List.mem_singleton_self _), rfl, rfl⟩

theorem Recorded.settle (h : s.Recorded) {settings : BrokerSettings} {now : Instant} {d : Delivery}
    {decision : Decision} :
    Recorded ⟨s.queue.settle settings now d decision, s.events ++ [.settled d decision]⟩ where
  numbered p hp := by
    show p.seq < (s.queue.settle settings now d decision).nextSeq
    rw [MessageQueue.nextSeq_settle]
    exact h.numbered p (by simpa using hp)
  once p p' hp hp' := h.once p p' (by simpa using hp) (by simpa using hp')
  stored seq m hm := by
    have hrow : ∃ p, .published p ∈ s.events ∧ p.seq = seq ∧ m.body = p.body ∧
        m.partition = p.partition := by
      rcases MessageQueue.stored_of_settle hm with hold | ⟨m', hleased, rfl, _, rfl⟩
      · exact h.stored seq m hold
      · exact h.stored d.seq m' (MessageQueue.leased?_eq_some hleased)
    obtain ⟨p, hp, hrow⟩ := hrow
    exact ⟨p, List.mem_append_left _ hp, hrow⟩
  delivered d' hd' := by
    rw [deliveries_append, deliveries_settled, List.append_nil] at hd'
    obtain ⟨p, hp, hrow⟩ := h.delivered d' hd'
    exact ⟨p, List.mem_append_left _ hp, hrow⟩
  held seq m hm lease hlease := by
    rw [deliveries_append, deliveries_settled, List.append_nil]
    rcases MessageQueue.stored_of_settle hm with hold | ⟨m', _, _, _, rfl⟩
    · exact h.held seq m hold lease hlease
    · cases hlease

theorem Recorded.effect (h : s.Recorded) {call : QueueCall} (heffect : s.Effect call s') :
    s'.Recorded := by
  cases heffect with
  | published hseq => exact h.publish hseq
  | idle => exact h
  | delivered hdue => exact h.deliver hdue.stored
  | settled => exact h.settle

theorem recorded_run (calls : List QueueCall) : (run calls start).Recorded :=
  run_induction recorded_start (fun _ _ _ h heffect => h.effect heffect) calls

/-- In an induction over calls, the journal accounts for the queue at every step. -/
theorem run_induction_of_recorded {I : QueueJournal → Prop} (hstart : I start)
    (hstep : ∀ s call s', s.Recorded → I s → s.Effect call s' → I s') (calls : List QueueCall) :
    I (run calls start) := by
  have hboth : (run calls start).Recorded ∧ I (run calls start) := by
    refine run_induction (I := fun s => s.Recorded ∧ I s) ⟨recorded_start, hstart⟩ ?_ calls
    intro s call s' ⟨hrecorded, hs⟩ heffect
    exact ⟨hrecorded.effect heffect, hstep s call s' hrecorded hs heffect⟩
  exact hboth.2

end QueueJournal

end MediaCatalogue
