import Mathlib.Algebra.GroupWithZero.Nat
import MediaCatalogue.Proofs.Decisions
import MediaCatalogue.Proofs.Partitions
import MediaCatalogue.Proofs.Pools

/-!
# What a pool drains

A broker delivers from the partitions it has itself, but messages stay in the partition that they
were published to. While the database works, every round of a pool takes the next message of each
partition that the broker has off the queue (`Deployment.worked_round`).

**Main theorem** (`Deployment.served_exactly`): a broker with `n` partitions delivers a message that
is due iff its partition is below `n`, and a pool that serves this broker drains exactly the
messages of these partitions. That is the whole queue if no earlier broker had more partitions;
otherwise messages can be stranded (`Deployment.stranded_by_fewer_partitions`).
-/

namespace MediaCatalogue

/-! ### Times -/

namespace Instant

theorem millis_ofNanos (nanos : Int) : (ofNanos nanos).millis = nanos / 1000000 := by
  simp only [millis, ofNanos, billion]
  omega

theorem nanos?_ofNanos {nanos : Int} (h : Word.fits nanos = true) :
    (ofNanos nanos).nanos? = some nanos := by
  have hsum : nanos / billion * billion + nanos % billion = nanos :=
    Int.ediv_mul_add_emod nanos billion
  have hlow : 0 ≤ nanos % billion := Int.emod_nonneg _ (by decide)
  have hhigh : nanos % billion < billion := Int.emod_lt_of_pos _ (by decide)
  have hfraction : ((nanos % billion).toNat : Int) = nanos % billion := Int.toNat_of_nonneg hlow
  have hbounds := Word.fits_iff.1 h
  simp only [nanos?, ofNanos, hfraction]
  by_cases hneg : nanos / billion < 0
  · -- Before 1970 the seconds are rounded up, so they stay between the number and zero.
    have hscaled : (nanos / billion + 1) * billion = nanos - nanos % billion + billion := by
      rw [Int.add_mul, Int.one_mul]
      omega
    have hle : (nanos / billion + 1) * billion ≤ 0 :=
      Int.mul_nonpos_of_nonpos_of_nonneg (by omega) (by decide)
    have hfits : Word.fits ((nanos / billion + 1) * billion) = true :=
      Word.fits_iff.2 ⟨by omega, by omega⟩
    have htotal : (nanos / billion + 1) * billion + (nanos % billion - billion) = nanos := by omega
    simp only [hneg, if_true, htotal, hfits, h, Bool.and_self]
  · have hle : 0 ≤ nanos / billion * billion := Int.mul_nonneg (by omega) (by decide)
    have hfits : Word.fits (nanos / billion * billion) = true :=
      Word.fits_iff.2 ⟨by omega, by omega⟩
    simp only [hneg, if_false, hsum, hfits, h, Bool.and_self, if_true]

/-- The nanoseconds of an instant are again those of the instant that they count up to. -/
theorem nanos?_ofNanos_of_nanos? {t : Instant} {nanos : Int} (h : t.nanos? = some nanos) :
    (ofNanos nanos).nanos? = some nanos := by
  refine nanos?_ofNanos ?_
  simp only [nanos?, Option.ite_none_right_eq_some, Bool.and_eq_true, Option.some.injEq] at h
  obtain ⟨⟨_, hfits⟩, rfl⟩ := h
  exact hfits

end Instant

/-! ### Taking messages off the queue -/

namespace MessageQueue

variable {q : MessageQueue} {seq : Int} {m : Message}

/-- Some messages of the partitions `ps` were taken off the queue, and one at least if there is
one. -/
structure Reduced (ps : List Nat) (q q' : MessageQueue) : Prop where
  kept : ∀ seq : Int, q'.messages[seq]? = q.messages[seq]? ∨ q'.messages[seq]? = none ∧
    ∃ m : Message, q.messages[seq]? = some m ∧ m.partition ∈ ps
  size_le : q'.size ≤ q.size
  size_lt : ∀ (seq : Int) (m : Message), q.messages[seq]? = some m → m.partition ∈ ps →
    q'.size < q.size

variable {ps : List Nat} {q' q'' : MessageQueue}

theorem reduced_of_no_message
    (h : ∀ (seq : Int) (m : Message), q.messages[seq]? = some m → m.partition ∉ ps) :
    q.Reduced ps q where
  kept _ := .inl rfl
  size_le := Nat.le_refl _
  size_lt seq m hstored hpartition := absurd hpartition (h seq m hstored)

theorem size_pos_of_stored (hstored : q.messages[seq]? = some m) : 0 < q.size := by
  rw [size, Nat.pos_iff_ne_zero]
  intro hzero
  rw [Std.ExtTreeMap.eq_empty_iff_size_eq_zero.2 hzero] at hstored
  simp at hstored

theorem reduced_erase (hstored : q.messages[seq]? = some m) (hpartition : m.partition ∈ ps) :
    q.Reduced ps { q with messages := q.messages.erase seq } := by
  have hlt : (q.messages.erase seq).size < q.messages.size := by
    have hcontains : q.messages.contains seq = true :=
      Std.ExtTreeMap.contains_eq_isSome_getElem?.trans (by rw [hstored]; rfl)
    have hpos : 0 < q.messages.size := size_pos_of_stored hstored
    rw [Std.ExtTreeMap.size_erase, if_pos hcontains]
    omega
  refine ⟨fun seq' => ?_, Nat.le_of_lt hlt, fun _ _ _ _ => hlt⟩
  simp only [Std.ExtTreeMap.getElem?_erase, Std.LawfulEqCmp.compare_eq_iff_eq]
  by_cases hseq : seq = seq'
  · subst hseq
    exact .inr ⟨if_pos rfl, m, hstored, hpartition⟩
  · exact .inl (if_neg hseq)

theorem Reduced.stored (h : q.Reduced ps q') (hstored : q'.messages[seq]? = some m) :
    q.messages[seq]? = some m := by
  rcases h.kept seq with hsame | ⟨hnone, _⟩
  · rwa [hsame] at hstored
  · cases hnone.symm.trans hstored

theorem Reduced.append {ps' : List Nat} (h : q.Reduced ps q') (h' : q'.Reduced ps' q'') :
    q.Reduced (ps ++ ps') q'' where
  kept seq := by
    rcases h'.kept seq with hsame' | ⟨hnone', m, hstored, hpartition⟩
    · rcases h.kept seq with hsame | ⟨hnone, m, hstored, hpartition⟩
      · exact .inl (hsame'.trans hsame)
      · exact .inr ⟨hsame'.trans hnone, m, hstored, List.mem_append_left ps' hpartition⟩
    · exact .inr ⟨hnone', m, h.stored hstored, List.mem_append_right ps hpartition⟩
  size_le := Nat.le_trans h'.size_le h.size_le
  size_lt seq m hstored hpartition := by
    rcases List.mem_append.1 hpartition with hfirst | hsecond
    · exact Nat.lt_of_le_of_lt h'.size_le (h.size_lt seq m hstored hfirst)
    · rcases h.kept seq with hsame | ⟨_, m', hstored', hfirst⟩
      · exact Nat.lt_of_lt_of_le (h'.size_lt seq m (hsame.trans hstored) hsecond) h.size_le
      · exact Nat.lt_of_le_of_lt h'.size_le (h.size_lt seq m' hstored' hfirst)

/-- The messages of the other partitions. -/
def others (partitions : Nat) (q : MessageQueue) (seq : Int) : Option Message :=
  q.messages[seq]?.filter fun m => decide (partitions ≤ m.partition)

/-- All messages are in other partitions, or there are at most so many messages. -/
def WithinRounds (partitions rounds : Nat) (q : MessageQueue) : Prop :=
  q.size ≤ rounds ∨
    ∀ (seq : Int) (m : Message), q.messages[seq]? = some m → partitions ≤ m.partition

variable {partitions rounds : Nat}

theorem WithinRounds.others_eq (h : q.WithinRounds partitions 0) :
    q.others partitions seq = q.messages[seq]? := by
  unfold others
  cases hstored : q.messages[seq]? with
  | none => rfl
  | some m =>
    rcases h with hsize | hothers
    · have hpos := size_pos_of_stored hstored
      omega
    · exact Option.filter_some_pos (by simpa using hothers seq m hstored)

theorem Reduced.others_eq (h : q.Reduced (List.range partitions) q') :
    q'.others partitions seq = q.others partitions seq := by
  unfold others
  rcases h.kept seq with hsame | ⟨hnone, m, hstored, hpartition⟩
  · rw [hsame]
  · have hlt : ¬ partitions ≤ m.partition := Nat.not_le.2 (List.mem_range.1 hpartition)
    rw [hnone, hstored, Option.filter_some_neg (by simpa using hlt)]
    rfl

theorem Reduced.withinRounds (h : q.Reduced (List.range partitions) q')
    (hrounds : q.WithinRounds partitions (rounds + 1)) : q'.WithinRounds partitions rounds := by
  by_cases hothers : ∀ (seq : Int) (m : Message), q.messages[seq]? = some m →
      partitions ≤ m.partition
  · exact .inr fun seq m hstored => hothers seq m (h.stored hstored)
  · have hsize : q.size ≤ rounds + 1 := hrounds.resolve_right hothers
    simp only [not_forall, Nat.not_le] at hothers
    obtain ⟨seq, m, hstored, hlt⟩ := hothers
    have hless := h.size_lt seq m hstored (List.mem_range.2 hlt)
    exact .inl (by omega)

end MessageQueue

/-! ### Rounds of a pool -/

namespace Deployment

/-- The database is open, everything is in order, and the tables are well-formed. -/
structure IsHealthy (d : Deployment) : Prop where
  isOpen : d.isOpen = true
  outages : d.outages = {}
  wellFormed : d.catalogue.WellFormed

/-- Every message in the queue can be delivered. -/
def AllVisible (d : Deployment) : Prop :=
  ∀ (seq : Int) (m : Message), d.queue.messages[seq]? = some m → m.visibleAt ≤ d.now.millis

/-- What one message at most of each of some partitions makes of a deployment. -/
structure Worked (ps : List Nat) (d d' : Deployment) : Prop where
  healthy : d'.IsHealthy
  reduced : d.queue.Reduced ps d'.queue
  clock_le : d.clock ≤ d'.clock
  le_clock : d'.clock ≤ d.clock + ps.length

variable {settings : BrokerSettings} {registry : Registry} {ps : List Nat} {d d' d'' : Deployment}

theorem AllVisible.later (h : d.AllVisible) (hclock : d.clock ≤ d'.clock)
    (hstored : ∀ (seq : Int) (m : Message), d'.queue.messages[seq]? = some m →
      d.queue.messages[seq]? = some m) :
    d'.AllVisible := by
  intro seq m hm
  have hvisible := h seq m (hstored seq m hm)
  rw [now, Instant.millis_ofNanos] at hvisible ⊢
  omega

theorem Worked.append {ps' : List Nat} (h : d.Worked ps d') (h' : d'.Worked ps' d'') :
    d.Worked (ps ++ ps') d'' where
  healthy := h'.healthy
  reduced := h.reduced.append h'.reduced
  clock_le := by have := h.clock_le; have := h'.clock_le; omega
  le_clock := by have := h.le_clock; have := h'.le_clock; rw [List.length_append]; omega

theorem worked_processNext (h : d.IsHealthy) (hvisible : d.AllVisible)
    (hclock : Word.fits (d.clock + 1) = true) (partition : Nat) :
    d.Worked [partition] (((pool settings registry).processNext partition).run d).2 := by
  have hreceive := run_receive settings partition h.isOpen
  cases hnext : d.queue.next? d.now partition with
  | none =>
    rw [MessageQueue.receive_of_no_next? hnext] at hreceive
    rw [run_processNext_of_none hreceive]
    refine ⟨⟨h.isOpen, h.outages, h.wellFormed⟩, ?_, Int.le_refl _,
      Int.le_add_of_nonneg_right (by simp)⟩
    refine MessageQueue.reduced_of_no_message fun seq m hstored hpartition => ?_
    obtain ⟨next, hsome⟩ := MessageQueue.exists_next? hstored (List.mem_singleton.1 hpartition)
      (hvisible seq m hstored)
    rw [hnext] at hsome
    cases hsome
  | some next =>
    obtain ⟨seq, m⟩ := next
    obtain ⟨⟨hstored, _⟩, hpartition⟩ := MessageQueue.isDue_of_next? hnext
    rw [MessageQueue.receive_of_next? settings d.nextLease hnext] at hreceive
    let m' := m.leased settings d.now d.nextLease
    let delivery := m.delivery seq d.nextLease partition
    obtain ⟨time, hle, hlt, hdecide⟩ := run_onMessage
      (d := { d with
        queue := { d.queue with messages := d.queue.messages.insert seq m' }
        nextLease := d.nextLease + 1 }) h.outages registry m.body
    -- All statements work and the clock can be stored, so the worker acknowledges what it gets.
    have hack : (((Worker.stored registry (d.later 1).now d.working).onMessage
        m.body).run d.catalogue).1 = .ack := by
      rw [working, if_pos h.isOpen]
      exact Worker.fst_run_onMessage_of_working registry m.body
        h.wellFormed.holdsIds.edges ⟨_, Instant.nanos?_ofNanos hclock⟩
    have htables := (Worker.handled_onMessage registry (d.later 1).now d.working m.body
      d.catalogue).committed.wellFormed h.wellFormed
    rw [run_processNext_of_some hreceive hdecide h.isOpen]
    refine ⟨⟨h.isOpen, h.outages, htables⟩, ?_, hle, hlt⟩
    have hqueue : ({ d.queue with messages := d.queue.messages.insert seq m' } :
        MessageQueue).settle settings (.ofNanos time) delivery .ack =
          { d.queue with messages := d.queue.messages.erase seq } :=
      MessageQueue.ack_insert rfl
    rw [← hack] at hqueue
    exact hqueue ▸ MessageQueue.reduced_erase hstored (List.mem_singleton.2 hpartition)

theorem worked_forM (h : d.IsHealthy) (hvisible : d.AllVisible) (ps : List Nat)
    (hlow : -(Word.signedLimit : Int) ≤ d.clock)
    (hhigh : d.clock + ps.length < Word.signedLimit) :
    d.Worked ps ((ps.forM fun partition => do
      let _ ← ((pool settings registry).processNext partition).run
      return ()).run d).2 := by
  induction ps generalizing d with
  | nil =>
    exact ⟨h, MessageQueue.reduced_of_no_message (by simp), Int.le_refl _,
      Int.le_add_of_nonneg_right (by simp)⟩
  | cons partition ps ih =>
    rw [List.length_cons] at hhigh
    have hfirst : d.Worked [partition] (((pool settings registry).processNext partition).run d).2 :=
      worked_processNext h hvisible (Word.fits_iff.2 ⟨by omega, by omega⟩) partition
    have hle := hfirst.clock_le
    have hlt : _ ≤ d.clock + 1 := hfirst.le_clock
    exact hfirst.append (ih hfirst.healthy (hvisible.later hle fun _ _ => hfirst.reduced.stored)
      (by omega) (by omega))

theorem worked_round (h : d.IsHealthy) (hvisible : d.AllVisible)
    (hlow : -(Word.signedLimit : Int) ≤ d.clock)
    (hhigh : d.clock + settings.partitions < Word.signedLimit) :
    d.Worked (List.range settings.partitions) ((pool settings registry).round.run d).2 :=
  worked_forM h hvisible (List.range settings.partitions) hlow (by simpa using hhigh)

/-- The deployment after rounds of a pool with pauses before them, in nanoseconds. -/
def afterRounds (settings : BrokerSettings) (registry : Registry) (pauses : List Nat)
    (d : Deployment) : Deployment :=
  pauses.foldl (fun d pause => ((pool settings registry).round.run (d.later pause)).2) d

theorem clock_later (pause : Nat) : (d.later pause).clock = d.clock + pause := rfl

/-- What a pause and a round make of a deployment. -/
theorem worked_round_later (h : d.IsHealthy) (hvisible : d.AllVisible) {pause : Nat}
    (hlow : -(Word.signedLimit : Int) ≤ d.clock)
    (hhigh : d.clock + (pause + settings.partitions : Nat) < Word.signedLimit) :
    (d.later pause).Worked (List.range settings.partitions)
      ((pool settings registry).round.run (d.later pause)).2 := by
  have hlater : d.clock ≤ (d.later pause).clock := Int.le_add_of_nonneg_right (by simp)
  exact worked_round ⟨h.isOpen, h.outages, h.wellFormed⟩ (hvisible.later hlater fun _ _ hm => hm)
    (Int.le_trans hlow hlater) (by rw [clock_later]; omega)

/-- Rounds take all messages of the partitions that the broker has off the queue, if there are as
many rounds as messages; the other messages stay. -/
theorem queue_afterRounds (h : d.IsHealthy) (hvisible : d.AllVisible) (pauses : List Nat)
    (hlow : -(Word.signedLimit : Int) ≤ d.clock)
    (hhigh : d.clock + (pauses.map (· + settings.partitions)).sum < Word.signedLimit)
    (hrounds : d.queue.WithinRounds settings.partitions pauses.length) (seq : Int) :
    (d.afterRounds settings registry pauses).queue.messages[seq]? =
      d.queue.others settings.partitions seq := by
  induction pauses generalizing d with
  | nil => exact hrounds.others_eq.symm
  | cons pause pauses ih =>
    rw [List.map_cons, List.sum_cons] at hhigh
    have hround : (d.later pause).Worked (List.range settings.partitions)
        ((pool settings registry).round.run (d.later pause)).2 :=
      worked_round_later h hvisible hlow (by omega)
    have hle := hround.clock_le
    have hlt := hround.le_clock
    rw [clock_later] at hle hlt
    rw [List.length_range] at hlt
    have hreduced : d.queue.Reduced (List.range settings.partitions) _ := hround.reduced
    refine (ih hround.healthy (hvisible.later (by omega) fun _ _ => hreduced.stored) (by omega)
      (by omega) (hreduced.withinRounds hrounds)).trans hreduced.others_eq

/-! ### Which messages are delivered -/

/-- **What a broker delivers.** Take a deployment whose database works, with any messages in its
queue, and a broker with `n` partitions.

* A message that is due is received from a partition below `n` iff its own partition is below `n`.
* If all messages can be delivered, and the clock stays in the range of times that can be stored,
  then as many rounds of a pool as there are messages, with any pauses, leave exactly the messages
  of the other partitions.
* No message is in another partition if the queue was left by publishers, consumers and a refresher
  whose brokers had no more than `n` partitions. -/
theorem served_exactly (settings : BrokerSettings) (registry : Registry) (d : Deployment)
    (h : d.IsHealthy) :
    (∀ (seq : Int) (m : Message), d.queue.IsDue d.now seq m →
      ((∃ partition < settings.partitions, ∃ delivery : Delivery,
          ((receive settings partition).run d).1 = .ok (some delivery) ∧ delivery.seq = seq) ↔
        m.partition < settings.partitions)) ∧
      (∀ pauses : List Nat, d.AllVisible → -(Word.signedLimit : Int) ≤ d.clock →
        d.clock + (pauses.map (· + settings.partitions)).sum < Word.signedLimit →
          d.queue.size ≤ pauses.length → ∀ seq : Int,
            (d.afterRounds settings registry pauses).queue.messages[seq]? =
              d.queue.others settings.partitions seq) ∧
        ∀ (clock : SystemClock) (earlier : List Ingestion.Action),
          (∀ action ∈ earlier, action.PublishesWithin settings.partitions) →
            d.queue = (Ingestion.run registry clock earlier .start).queue →
              ∀ (seq : Int) (m : Message), d.queue.messages[seq]? = some m →
                m.partition < settings.partitions := by
  refine ⟨fun seq m hdue => ?_, fun pauses hvisible hlow hhigh hsize seq =>
    queue_afterRounds h hvisible pauses hlow hhigh (.inl hsize) seq,
    fun clock earlier hearlier hqueue => ?_⟩
  · simp only [run_receive settings _ h.isOpen, Except.ok.injEq, MessageQueue.received_iff hdue]
    constructor
    · rintro ⟨partition, hlt, rfl⟩
      exact hlt
    · intro hlt
      exact ⟨m.partition, hlt, rfl⟩
  · rw [hqueue]
    exact Ingestion.within_run registry clock hearlier MessageQueue.within_empty

/-- A broker with four partitions. -/
def wideBroker : BrokerSettings := ⟨4, .ofMillis 10, .ofMillis 10⟩

/-- A broker with one partition. -/
def narrowBroker : BrokerSettings := ⟨1, .ofMillis 10, .ofMillis 10⟩

/-- The message that a broker with four partitions published for the key `b`. -/
def strandedMessage : Message := ⟨1, [120], 0, 0, none, 0⟩

/-- Two messages are published. -/
def twoPublications : List Ingestion.Action :=
  [.publish wideBroker (.ofNanos 0) "b" [120], .publish wideBroker (.ofNanos 0) "a" [121]]

/-- The messages wait when the clock shows the time at which they were published. -/
def twoKeys : Deployment :=
  { registry := .builtin, clock := 0
    queue := (Ingestion.run .builtin Ingestion.stillClock twoPublications .start).queue }

theorem toList_twoKeys :
    twoKeys.queue.messages.toList = [(1, strandedMessage), (2, ⟨0, [121], 0, 0, none, 0⟩)] := by
  decide +kernel

theorem served_exactly_of_two_keys :
    twoKeys.IsHealthy ∧ twoKeys.AllVisible ∧
      (∃ delivery : Delivery,
        ((receive narrowBroker 0).run twoKeys).1 = .ok (some delivery) ∧ delivery.seq = 2) ∧
      (twoKeys.afterRounds narrowBroker .builtin [0, 5]).queue.messages[(1 : Int)]? =
        some strandedMessage ∧
      (twoKeys.afterRounds narrowBroker .builtin [0, 5]).queue.messages[(2 : Int)]? = none ∧
      strandedMessage.partition < wideBroker.partitions := by
  have hhealthy : twoKeys.IsHealthy := ⟨rfl, rfl, Catalogue.wellFormed_empty⟩
  have hstored : ∀ (seq : Int) (m : Message), twoKeys.queue.messages[seq]? = some m →
      seq = 1 ∧ m = strandedMessage ∨ seq = 2 ∧ m = ⟨0, [121], 0, 0, none, 0⟩ := by
    intro seq m hm
    have hmem := Std.ExtTreeMap.mem_toList_iff_getElem?_eq_some.2 hm
    rw [toList_twoKeys] at hmem
    simpa using hmem
  have hvisible : twoKeys.AllVisible := by
    intro seq m hm
    rcases hstored seq m hm with ⟨_, rfl⟩ | ⟨_, rfl⟩ <;> decide
  have hdue : twoKeys.queue.IsDue twoKeys.now 2 ⟨0, [121], 0, 0, none, 0⟩ := by
    refine ⟨by decide +kernel, by decide, fun seq m hm hpartition hlt => ?_⟩
    rcases hstored seq m hm with ⟨_, rfl⟩ | ⟨rfl, _⟩
    · cases hpartition
    · omega
  obtain ⟨hreceived, hdrained, _⟩ := served_exactly narrowBroker .builtin twoKeys hhealthy
  obtain ⟨_, _, hwithin⟩ := served_exactly wideBroker .builtin twoKeys hhealthy
  have hwide : ∀ action ∈ twoPublications, action.PublishesWithin wideBroker.partitions := by
    simp [twoPublications, Ingestion.Action.PublishesWithin, wideBroker]
  obtain ⟨partition, hlt, hdelivery⟩ := (hreceived 2 _ hdue).2 (by decide)
  cases Nat.lt_one_iff.1 hlt
  have hrounds := hdrained [0, 5] hvisible (by decide) (by decide) (by decide +kernel)
  exact ⟨hhealthy, hvisible, hdelivery, (hrounds 1).trans (by decide +kernel),
    (hrounds 2).trans (by decide +kernel),
    hwithin Ingestion.stillClock twoPublications hwide rfl 1 _ (by decide +kernel)⟩

/-- **A message can be stranded.** The message for the key `b` is the only one in the queue. A
broker with one partition never delivers it. -/
theorem stranded_by_fewer_partitions :
    let q := (MessageQueue.empty.publish wideBroker (.ofNanos 0) "b" [120]).2
    q.IsDue (.ofNanos 0) 1 strandedMessage ∧
      ∀ (now : Instant) (lease partition : Nat), partition < narrowBroker.partitions →
        q.receive narrowBroker now lease partition = (none, q) := by
  intro q
  have hlist : q.messages.toList = [(1, strandedMessage)] := by decide +kernel
  refine ⟨⟨by decide +kernel, by decide, fun seq m hm _ hlt => ?_⟩,
    fun now lease partition hlt => ?_⟩
  · have hmem := Std.ExtTreeMap.mem_toList_iff_getElem?_eq_some.2 hm
    rw [hlist, List.mem_singleton] at hmem
    cases hmem
    omega
  · cases Nat.lt_one_iff.1 hlt
    refine MessageQueue.receive_of_no_next? ?_
    rw [MessageQueue.next?, hlist]
    rfl

end Deployment

end MediaCatalogue
