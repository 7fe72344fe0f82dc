import MediaCatalogue.Proofs.Delivery

/-!
# Partitions of messages

The partition of a message is chosen when it is published, by the number of partitions that the
broker had then.

* `MessageQueue.IsDue` says that a message is the next one of its partition, and
  `MessageQueue.received_iff` that it is then received from this partition and from no other;
* `MessageQueue.Within` says that all messages are in the first partitions. Publishers that have no
  more partitions keep this, whatever else happens (`Ingestion.within_run`).
-/

namespace MediaCatalogue

/-! ### The next message of a partition -/

namespace MessageQueue

/-- The message `seq` can be delivered, and no message before it in its partition can. -/
structure IsDue (now : Instant) (q : MessageQueue) (seq : Int) (m : Message) : Prop where
  stored : q.messages[seq]? = some m
  visible : m.visibleAt ≤ now.millis
  first : ∀ seq' m', q.messages[seq']? = some m' → m'.partition = m.partition → seq' < seq →
    now.millis < m'.visibleAt

variable {q : MessageQueue} {settings : BrokerSettings} {now : Instant} {seq : Int} {m : Message}
  {lease partition : Nat}

theorem exists_next? (hstored : q.messages[seq]? = some m) (hpartition : m.partition = partition)
    (hvisible : m.visibleAt ≤ now.millis) : ∃ next, q.next? now partition = some next := by
  refine Option.isSome_iff_exists.1 (List.find?_isSome.2 ⟨(seq, m), ?_, ?_⟩)
  · exact Std.ExtTreeMap.mem_toList_iff_getElem?_eq_some.2 hstored
  · simp [hpartition, hvisible]

theorem isDue_of_next? (h : q.next? now partition = some (seq, m)) :
    q.IsDue now seq m ∧ m.partition = partition := by
  have hstored := next?_eq_some h
  unfold next? at h
  obtain ⟨hnext, before, after, hlist, hbefore⟩ := List.find?_eq_some_iff_append.1 h
  simp only [Bool.and_eq_true, decide_eq_true_eq] at hnext
  refine ⟨⟨hstored, hnext.2, fun seq' m' hstored' hpartition hlt => ?_⟩, hnext.1⟩
  -- The list is in ascending order, so a lower number stands before the one that was found.
  have hordered := q.messages.ordered_keys_toList
  have hmem : (seq', m') ∈ q.messages.toList :=
    Std.ExtTreeMap.mem_toList_iff_getElem?_eq_some.2 hstored'
  rw [hlist] at hordered hmem
  rcases List.mem_append.1 hmem with hmem | hmem
  · have hskipped := hbefore _ hmem
    simp only [hpartition, hnext.1, decide_true, Bool.true_and, Bool.not_eq_true',
      decide_eq_false_iff_not, Int.not_le] at hskipped
    exact hskipped
  · exfalso
    rcases List.mem_cons.1 hmem with heq | hmem
    · cases heq
      omega
    · have hafter := List.rel_of_pairwise_cons (List.pairwise_append.1 hordered).2.1 hmem
      rw [Std.compare_eq_lt] at hafter
      omega

theorem IsDue.unique {seq' : Int} {m' : Message} (h : q.IsDue now seq m) (h' : q.IsDue now seq' m')
    (hpartition : m'.partition = m.partition) : seq' = seq := by
  by_contra hne
  rcases Int.lt_or_gt_of_ne hne with hlt | hlt
  · exact absurd h'.visible (Int.not_le.2 (h.first seq' m' h'.stored hpartition hlt))
  · exact absurd h.visible (Int.not_le.2 (h'.first seq m h.stored hpartition.symm hlt))

/-- A message that is due is received from its partition, and from no other. -/
theorem received_iff (h : q.IsDue now seq m) :
    (∃ d, (q.receive settings now lease partition).1 = some d ∧ d.seq = seq) ↔
      m.partition = partition := by
  constructor
  · rintro ⟨d, hd, hseq⟩
    cases hnext : q.next? now partition with
    | none =>
      rw [receive_of_no_next? hnext] at hd
      cases hd
    | some next =>
      obtain ⟨seq', m'⟩ := next
      obtain ⟨hdue, hpartition⟩ := isDue_of_next? hnext
      rw [receive_of_next? settings lease hnext] at hd
      cases hd
      cases hseq
      cases h.stored.symm.trans hdue.stored
      exact hpartition
  · intro hpartition
    obtain ⟨⟨seq', m'⟩, hnext⟩ := exists_next? h.stored hpartition h.visible
    obtain ⟨hdue, hpartition'⟩ := isDue_of_next? hnext
    rw [receive_of_next? settings lease hnext]
    exact ⟨_, rfl, h.unique hdue (hpartition'.trans hpartition.symm)⟩

theorem ack_insert {d : Delivery} {m : Message} (hlease : m.lease = some d.lease) :
    ({ q with messages := q.messages.insert d.seq m } : MessageQueue).ack d =
      { q with messages := q.messages.erase d.seq } := by
  have hleased : ({ q with messages := q.messages.insert d.seq m } : MessageQueue).leased? d =
      some m := by
    simp [leased?, hlease]
  have hsame : (q.messages.insert d.seq m).erase d.seq = q.messages.erase d.seq := by
    refine Std.ExtTreeMap.ext_getElem? fun seq => ?_
    simp only [Std.ExtTreeMap.getElem?_erase, Std.ExtTreeMap.getElem?_insert]
    split <;> rfl
  simp only [ack, hleased, hsame]

end MessageQueue

/-! ### Brokers that never had more partitions -/

namespace MessageQueue

/-- All messages are in the first partitions. -/
def Within (partitions : Nat) (q : MessageQueue) : Prop :=
  ∀ (seq : Int) (m : Message), q.messages[seq]? = some m → m.partition < partitions

variable {partitions : Nat} {q : MessageQueue} {settings : BrokerSettings} {now : Instant}

theorem within_empty : empty.Within partitions := by
  intro seq m hstored
  simp [empty] at hstored

theorem Within.publish (h : q.Within partitions) (hpos : 0 < settings.partitions)
    (hle : settings.partitions ≤ partitions) (key : String) (body : List UInt8) :
    (q.publish settings now key body).2.Within partitions :=
  Table.forall_insert h (Nat.lt_of_lt_of_le (Nat.mod_lt _ hpos) hle)

theorem Within.receive (h : q.Within partitions) (lease partition : Nat) :
    (q.receive settings now lease partition).2.Within partitions := by
  cases hnext : q.next? now partition with
  | none =>
    rw [receive_of_no_next? hnext]
    exact h
  | some next =>
    obtain ⟨seq, m⟩ := next
    rw [receive_of_next? settings lease hnext]
    exact Table.forall_insert h (h seq m (next?_eq_some hnext))

theorem Within.ack (h : q.Within partitions) (d : Delivery) : (q.ack d).Within partitions := by
  unfold MessageQueue.ack
  split
  · exact h
  · intro seq m hstored
    rw [Std.ExtTreeMap.getElem?_erase] at hstored
    split at hstored
    · cases hstored
    · exact h seq m hstored

theorem Within.nack (h : q.Within partitions) (d : Delivery) :
    (q.nack settings now d).Within partitions := by
  unfold MessageQueue.nack
  split
  · exact h
  · rename_i m hleased
    exact Table.forall_insert h (h d.seq m (leased?_eq_some hleased))

theorem Within.settle (h : q.Within partitions) (d : Delivery) (decision : Decision) :
    (q.settle settings now d decision).Within partitions := by
  cases decision with
  | ack => exact h.ack d
  | nack => exact h.nack d

end MessageQueue

namespace Ingestion

/-- A message is published by a broker with at most so many partitions. -/
def Action.PublishesWithin (partitions : Nat) : Action → Prop
  | .publish settings _ _ _ => 0 < settings.partitions ∧ settings.partitions ≤ partitions
  | _ => True

variable {registry : Registry} {clock : SystemClock} {s : Ingestion} {partitions : Nat}

theorem within_act (h : s.queue.Within partitions) {action : Action}
    (haction : action.PublishesWithin partitions) :
    (act registry clock s action).queue.Within partitions := by
  cases action with
  | publish settings now key body => exact h.publish haction.1 haction.2 key body
  | receive consumer settings now lease partition => exact h.receive lease partition
  | process consumer tick working =>
    cases hwork : s.work consumer with
    | none => simpa only [act, hwork] using h
    | some work => simpa only [act, hwork, assign, withCatalogue] using h
  | settle consumer settings now =>
    cases hwork : s.work consumer with
    | none => simpa only [act, hwork] using h
    | some work =>
      obtain ⟨d, decision⟩ := work
      cases decision with
      | none => simpa only [act, hwork] using h
      | some decision => simpa only [act, hwork, assign] using h.settle d decision
  | crash consumer => exact h
  | refresh call => exact h

/-- Whatever publishers, consumers and the refresher do: if no broker had more partitions, all
messages are in partitions that are served. -/
theorem within_run (registry : Registry) (clock : SystemClock) {actions : List Action}
    (hactions : ∀ action ∈ actions, action.PublishesWithin partitions)
    (h : s.queue.Within partitions) : (run registry clock actions s).queue.Within partitions := by
  induction actions generalizing s with
  | nil => exact h
  | cons action actions ih =>
    exact ih (fun a ha => hactions a (List.mem_cons_of_mem _ ha))
      (within_act h (hactions action List.mem_cons_self))

end Ingestion

end MediaCatalogue
