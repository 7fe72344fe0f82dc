import MediaCatalogue.Broker.Queue
import MediaCatalogue.Ingest.Worker

/-!
# The bodies of queued messages

No operation of the message queue changes the body of a message. Publishing adds one, an
acknowledgement can remove one, and a delivery has the body of its message. What receiving does is
said by `MessageQueue.receive_of_next?` and `MessageQueue.receive_of_no_next?`.
-/

namespace MediaCatalogue

/-- A message after a delivery. -/
def Message.leased (settings : BrokerSettings) (now : Instant) (lease : Nat) (m : Message) :
    Message :=
  { m with
    attempts := m.attempts + 1, lease := some lease
    visibleAt := visibleAfter now settings.visibilityTimeout }

/-- The delivery of a message. -/
def Message.delivery (seq : Int) (lease partition : Nat) (m : Message) : Delivery :=
  { seq, partition, body := m.body, attempts := (m.attempts + 1) % Word.limit32, lease }

namespace MessageQueue

/-- The body of a message in the queue. -/
def body? (q : MessageQueue) (seq : Int) : Option (List UInt8) :=
  q.messages[seq]?.map Message.body

variable {q : MessageQueue} {settings : BrokerSettings} {now : Instant} {seq : Int}

theorem body?_insert {key : Int} {m : Message} :
    ({ q with messages := q.messages.insert key m } : MessageQueue).body? seq =
      if key = seq then some m.body else q.body? seq := by
  simp only [body?, Std.ExtTreeMap.getElem?_insert, Std.LawfulEqCmp.compare_eq_iff_eq]
  split <;> rfl

theorem body?_insert_of_body {key : Int} {m m' : Message} (h : q.messages[key]? = some m)
    (hbody : m'.body = m.body) :
    ({ q with messages := q.messages.insert key m' } : MessageQueue).body? seq = q.body? seq := by
  rw [body?_insert]
  split
  · rename_i hkey
    subst hkey
    rw [hbody, body?, h]
    rfl
  · rfl

theorem body?_publish {key : String} {body : List UInt8} :
    (q.publish settings now key body).2.body? seq =
      if q.nextSeq = seq then some body else q.body? seq := by
  simp only [publish, body?, Std.ExtTreeMap.getElem?_insert, Std.LawfulEqCmp.compare_eq_iff_eq]
  split <;> rfl

theorem next?_eq_some {partition : Nat} {m : Message} (h : q.next? now partition = some (seq, m)) :
    q.messages[seq]? = some m :=
  Std.ExtTreeMap.mem_toList_iff_getElem?_eq_some.1 (List.mem_of_find?_eq_some h)

theorem receive_of_next? (settings : BrokerSettings) (lease : Nat) {partition : Nat} {m : Message}
    (h : q.next? now partition = some (seq, m)) :
    q.receive settings now lease partition = (some (m.delivery seq lease partition),
      { q with messages := q.messages.insert seq (m.leased settings now lease) }) := by
  unfold receive
  rw [h]
  rfl

theorem receive_of_no_next? {lease partition : Nat} (h : q.next? now partition = none) :
    q.receive settings now lease partition = (none, q) := by
  unfold receive
  rw [h]

/-- What receiving does: nothing, or it leases a message of the queue. -/
theorem receive_cases (settings : BrokerSettings) (now : Instant) (lease partition : Nat)
    (q : MessageQueue) :
    q.receive settings now lease partition = (none, q) ∨
      ∃ d m m', q.receive settings now lease partition =
          (some d, { q with messages := q.messages.insert d.seq m' }) ∧
        q.messages[d.seq]? = some m ∧ d.body = m.body ∧ m'.body = m.body := by
  cases hnext : q.next? now partition with
  | none => exact .inl (receive_of_no_next? hnext)
  | some next =>
    obtain ⟨seq, m⟩ := next
    exact .inr ⟨_, m, _, receive_of_next? settings lease hnext, next?_eq_some hnext, rfl, rfl⟩

theorem body?_receive {lease partition : Nat} :
    (q.receive settings now lease partition).2.body? seq = q.body? seq := by
  rcases receive_cases settings now lease partition q with h | ⟨d, m, m', h, hm, _, hbody⟩
  · rw [h]
  · rw [h]
    exact body?_insert_of_body hm hbody

theorem nextSeq_receive {lease partition : Nat} :
    (q.receive settings now lease partition).2.nextSeq = q.nextSeq := by
  rcases receive_cases settings now lease partition q with h | ⟨d, m, m', h, _⟩ <;> rw [h]

theorem body?_of_receive {lease partition : Nat} {d : Delivery}
    (h : (q.receive settings now lease partition).1 = some d) : q.body? d.seq = some d.body := by
  rcases receive_cases settings now lease partition q with hnone | ⟨d', m, m', hsome, hm, hbody, _⟩
  · rw [hnone] at h
    cases h
  · rw [hsome] at h
    cases h
    rw [body?, hm, hbody]
    rfl

theorem leased?_eq_some {d : Delivery} {m : Message} (h : q.leased? d = some m) :
    q.messages[d.seq]? = some m :=
  (Option.filter_eq_some_iff.1 h).1

theorem body?_nack {d : Delivery} : (q.nack settings now d).body? seq = q.body? seq := by
  unfold nack
  split
  · rfl
  · rename_i m hm
    exact body?_insert_of_body (leased?_eq_some hm) rfl

theorem nextSeq_nack {d : Delivery} : (q.nack settings now d).nextSeq = q.nextSeq := by
  unfold nack
  split <;> rfl

theorem body?_ack_of_ne {d : Delivery} (h : d.seq ≠ seq) : (q.ack d).body? seq = q.body? seq := by
  unfold ack
  split
  · rfl
  · simp [body?, Std.ExtTreeMap.getElem?_erase, h]

theorem body?_of_body?_ack {d : Delivery} {body : List UInt8}
    (h : (q.ack d).body? seq = some body) : q.body? seq = some body := by
  by_cases hseq : d.seq = seq
  · unfold ack at h
    split at h
    · exact h
    · simp [body?, hseq] at h
  · rwa [body?_ack_of_ne hseq] at h

theorem nextSeq_ack {d : Delivery} : (q.ack d).nextSeq = q.nextSeq := by
  unfold ack
  split <;> rfl

/-- Settles a delivered message as a worker decided. -/
def settle (settings : BrokerSettings) (now : Instant) (d : Delivery) (q : MessageQueue) :
    Decision → MessageQueue
  | .ack => q.ack d
  | .nack => q.nack settings now d

variable {d : Delivery} {decision : Decision}

theorem nextSeq_settle : (q.settle settings now d decision).nextSeq = q.nextSeq := by
  cases decision with
  | ack => exact nextSeq_ack
  | nack => exact nextSeq_nack

theorem body?_of_body?_settle {body : List UInt8}
    (h : (q.settle settings now d decision).body? seq = some body) : q.body? seq = some body := by
  cases decision with
  | ack => exact body?_of_body?_ack h
  | nack =>
    rw [settle, body?_nack] at h
    exact h

theorem body?_settle (h : decision = .ack → d.seq ≠ seq) :
    (q.settle settings now d decision).body? seq = q.body? seq := by
  cases decision with
  | ack => exact body?_ack_of_ne (h rfl)
  | nack => exact body?_nack

end MessageQueue

end MediaCatalogue
