import MediaCatalogue.Proofs.Journal

/-!
# For how long messages are hidden

A lease hides its message for the timeout of the broker, and a message that is given back is hidden
for the delay of retries. Both times end at `visibleAfter`. The sum saturates, but the delay is cut
to 64 bits before it is added: only delays below `Word.signedLimit` milliseconds are added as they
are, and a delay that is cut to a negative number ends before it begins.

* `visibleAfter_eq_until_iff` : for which delays the sum is the one that saturates;
* `le_visibleAfter_iff`, `visibleAfter_le_iff` : the times that are over at once;
* `MessageQueue.delivered_again_iff` : a message that was leased is delivered again by the same
  clock if its time is over at once.

**Main theorem** (`MessageQueue.lease_times_saturate`): the rows that deliveries and returns leave,
and what their times are.
-/

namespace MediaCatalogue

/-! ### Delays that are cut to 64 bits -/

namespace Duration

variable {d : Duration}

/-- A delay is cut by a multiple of two to the power of 64. -/
theorem exists_millis_eq (d : Duration) : ∃ k : Nat,
    (d.millis : Int) = d.wrappedMillis + k * 0x10000000000000000 ∧
      -(Word.signedLimit : Int) ≤ d.wrappedMillis ∧ d.wrappedMillis < Word.signedLimit := by
  have hwrapped : d.wrappedMillis = Int.bmod d.millis 0x10000000000000000 := rfl
  rw [Int.bmod_def] at hwrapped
  simp only [Word.signedLimit]
  split at hwrapped
  · exact ⟨d.millis / 0x10000000000000000, by omega⟩
  · exact ⟨d.millis / 0x10000000000000000 + 1, by omega⟩

theorem wrappedMillis_of_lt (h : d.millis < Word.signedLimit) : d.wrappedMillis = d.millis := by
  obtain ⟨k, hk, hlow, hhigh⟩ := d.exists_millis_eq
  simp only [Word.signedLimit] at *
  omega

end Duration

/-! ### The time until which a message is hidden -/

/-- The time after a delay, or the last time that there is. -/
def hiddenUntil (now : Instant) (delay : Duration) : Int :=
  min (now.millis + delay.millis) (Word.signedLimit - 1)

section

variable {now : Instant} {delay delay' : Duration}

theorem visibleAfter_of_lt (h : -(Word.signedLimit : Int) ≤ now.millis)
    (hdelay : delay.millis < Word.signedLimit) :
    visibleAfter now delay = hiddenUntil now delay := by
  rw [visibleAfter, saturatingAdd, hiddenUntil, Duration.wrappedMillis_of_lt hdelay]
  omega

/-- **The sum is the one that saturates** for delays that are not cut, and for those that reach the
last time all the same. -/
theorem visibleAfter_eq_until_iff (h : Word.fits now.millis = true) :
    visibleAfter now delay = hiddenUntil now delay ↔
      delay.millis < Word.signedLimit ∨
        (Word.signedLimit : Int) - 1 ≤ now.millis + delay.wrappedMillis := by
  rw [Word.fits_iff] at h
  by_cases hdelay : delay.millis < Word.signedLimit
  · simp only [visibleAfter_of_lt h.1 hdelay, hdelay, true_or]
  · obtain ⟨k, hk, hlow, hhigh⟩ := delay.exists_millis_eq
    simp only [hdelay, false_or, visibleAfter, saturatingAdd, hiddenUntil]
    simp only [Word.signedLimit] at *
    omega

/-- A time is over before it begins if the delay is cut to a negative number, as long as an earlier
time is left. -/
theorem le_visibleAfter_iff (h : Word.fits now.millis = true) :
    now.millis ≤ visibleAfter now delay ↔
      0 ≤ delay.wrappedMillis ∨ now.millis = -Word.signedLimit := by
  rw [Word.fits_iff] at h
  rw [visibleAfter, saturatingAdd]
  omega

/-- A time is over at once if the delay is cut to zero or less, or no later time is left. -/
theorem visibleAfter_le_iff (h : Word.fits now.millis = true) :
    visibleAfter now delay ≤ now.millis ↔
      delay.wrappedMillis ≤ 0 ∨ now.millis = Word.signedLimit - 1 := by
  rw [Word.fits_iff] at h
  rw [visibleAfter, saturatingAdd]
  omega

theorem visibleAfter_mono (hle : delay.nanos ≤ delay'.nanos)
    (hdelay : delay'.millis < Word.signedLimit) :
    visibleAfter now delay ≤ visibleAfter now delay' := by
  have hmillis : delay.millis ≤ delay'.millis := Nat.div_le_div_right hle
  rw [visibleAfter, visibleAfter, saturatingAdd, saturatingAdd,
    Duration.wrappedMillis_of_lt hdelay, Duration.wrappedMillis_of_lt (hmillis.trans_lt hdelay)]
  omega

end

/-! ### Messages that are hidden -/

namespace MessageQueue

variable {q q' : MessageQueue} {settings settings' : BrokerSettings} {now now' : Instant}
  {lease lease' partition partition' : Nat} {d : Delivery} {m : Message}

/-- The row of a message says until when it is hidden. -/
def HidesUntil (q : MessageQueue) (seq time : Int) : Prop :=
  ∃ m, q.messages[seq]? = some m ∧ m.visibleAt = time

theorem of_receive (h : q.receive settings now lease partition = (some d, q')) :
    ∃ m, q.IsDue now d.seq m ∧ m.partition = partition ∧
      q' = { q with messages := q.messages.insert d.seq (m.leased settings now lease) } := by
  cases hnext : q.next? now partition with
  | none =>
    rw [receive_of_no_next? hnext] at h
    cases h
  | some next =>
    obtain ⟨seq, m⟩ := next
    obtain ⟨hdue, hpartition⟩ := isDue_of_next? hnext
    rw [receive_of_next? settings lease hnext] at h
    cases h
    exact ⟨m, hdue, hpartition, rfl⟩

theorem hidesUntil_of_receive (h : q.receive settings now lease partition = (some d, q')) :
    q'.HidesUntil d.seq (visibleAfter now settings.visibilityTimeout) := by
  obtain ⟨m, _, _, rfl⟩ := of_receive h
  exact ⟨_, Std.ExtTreeMap.getElem?_insert_self, rfl⟩

theorem hidesUntil_of_nack (h : q.leased? d = some m) :
    (q.nack settings now d).HidesUntil d.seq (visibleAfter now settings.retryDelay) := by
  rw [nack_of_leased h]
  exact ⟨_, Std.ExtTreeMap.getElem?_insert_self, rfl⟩

/-- **A message is delivered again** while the clock stands still if its time is over at once, and
then to its partition only. -/
theorem delivered_again_iff (h : q.receive settings now lease partition = (some d, q'))
    (hclock : now'.millis = now.millis) :
    (∃ d', (q'.receive settings' now' lease' partition').1 = some d' ∧ d'.seq = d.seq) ↔
      partition' = partition ∧ visibleAfter now settings.visibilityTimeout ≤ now.millis := by
  obtain ⟨m, hdue, hpartition, rfl⟩ := of_receive h
  have hrow : (q.messages.insert d.seq (m.leased settings now lease))[d.seq]? =
      some (m.leased settings now lease) :=
    Std.ExtTreeMap.getElem?_insert_self
  constructor
  · rintro ⟨d', hd', hseq⟩
    obtain ⟨m', hdue', hpartition', _⟩ := of_receive (Prod.ext hd' rfl)
    rw [hseq] at hdue'
    cases hrow.symm.trans hdue'.stored
    exact ⟨hpartition'.symm.trans hpartition, hclock ▸ hdue'.visible⟩
  · rintro ⟨rfl, hover⟩
    -- The messages before it are as hidden as they were when it was delivered.
    refine (received_iff (m := m.leased settings now lease) ⟨hrow, hclock ▸ hover, ?_⟩).2 hpartition
    intro seq' m' hstored hsame hlt
    rw [Table.getElem?_insert_of_ne (Int.ne_of_gt hlt)] at hstored
    exact hclock ▸ hdue.first seq' m' hstored hsame hlt

/-- **Lease times saturate** as far as delays are not cut to 64 bits. The clock shows `c`, a signed
64-bit number of milliseconds.

1. After a delivery the message is hidden until `visibleAfter` the timeout. While the clock stands
   still it is delivered again if the timeout is cut to zero or less, or `c` is the last time.
2. After it was given back it is hidden until `visibleAfter` the delay of retries.
3. This time is `c` and the delay, or the last time, exactly if the delay is below
   `Word.signedLimit` milliseconds, or the last time is reached although the delay is cut.
4. It lies before `c` exactly if the delay is cut to a negative number, and there are times before
   `c`.
5. Delays below `Word.signedLimit` milliseconds are not cut, and a longer delay gives no earlier
   time. -/
theorem lease_times_saturate (settings : BrokerSettings) {now : Instant}
    (hclock : Word.fits now.millis = true) :
    (∀ (q q' : MessageQueue) (lease partition : Nat) (d : Delivery),
      q.receive settings now lease partition = (some d, q') →
      q'.HidesUntil d.seq (visibleAfter now settings.visibilityTimeout) ∧
      ∀ (settings' : BrokerSettings) (now' : Instant) (lease' partition' : Nat),
        now'.millis = now.millis →
        ((∃ d', (q'.receive settings' now' lease' partition').1 = some d' ∧ d'.seq = d.seq) ↔
          partition' = partition ∧ (settings.visibilityTimeout.wrappedMillis ≤ 0 ∨
            now.millis = Word.signedLimit - 1))) ∧
    (∀ (q : MessageQueue) (d : Delivery), (q.leased? d).isSome = true →
      (q.nack settings now d).HidesUntil d.seq (visibleAfter now settings.retryDelay)) ∧
    (∀ delay : Duration,
      visibleAfter now delay = min (now.millis + delay.millis) (Word.signedLimit - 1) ↔
        delay.millis < Word.signedLimit ∨
          (Word.signedLimit : Int) - 1 ≤ now.millis + delay.wrappedMillis) ∧
    (∀ delay : Duration, now.millis ≤ visibleAfter now delay ↔
      0 ≤ delay.wrappedMillis ∨ now.millis = -Word.signedLimit) ∧
    (∀ delay : Duration, delay.millis < Word.signedLimit →
      delay.wrappedMillis = delay.millis ∧
        ∀ shorter : Duration, shorter.nanos ≤ delay.nanos →
          visibleAfter now shorter ≤ visibleAfter now delay) := by
  refine ⟨fun q q' lease partition d h => ⟨hidesUntil_of_receive h, ?_⟩, fun q d h => ?_,
    fun delay => visibleAfter_eq_until_iff hclock, fun delay => le_visibleAfter_iff hclock,
    fun delay hdelay => ⟨Duration.wrappedMillis_of_lt hdelay, fun shorter hle =>
      visibleAfter_mono hle hdelay⟩⟩
  · intro settings' now' lease' partition' hsame
    rw [delivered_again_iff h hsame, visibleAfter_le_iff hclock]
  · obtain ⟨m, hm⟩ := Option.isSome_iff_exists.1 h
    exact hidesUntil_of_nack hm

/-- A broker that hides a message for as long as a 64-bit number of milliseconds can say. -/
def patientBroker : BrokerSettings := ⟨1, .ofMillis (Word.limit64 - 1), .ofMillis 10⟩

/-- One message was published. -/
def oneMessage : MessageQueue :=
  (empty.publish Ingestion.smallBroker (.ofNanos 0) "3" [120]).2

/-- The message is leased until one millisecond before the lease begins, and delivered again at
once. -/
theorem delivered_again_by_patient_broker :
    have now := Instant.ofNanos 0
    have q := (oneMessage.receive patientBroker now 0 0).2
    q.HidesUntil 1 (-1) ∧
      min (now.millis + patientBroker.visibilityTimeout.millis) (Word.signedLimit - 1) ≠ -1 ∧
      (q.receive patientBroker now 1 0).1 = some ⟨1, 0, [120], 2, 1⟩ := by
  intro now q
  refine ⟨⟨⟨0, [120], 1, -1, some 0, 0⟩, ?_, rfl⟩, by decide +kernel, ?_⟩
  · decide +kernel
  · decide +kernel

/-- A message that is leased for ten milliseconds is not delivered again at once. -/
theorem lease_times_saturate_of_small_broker :
    have now := Instant.ofNanos 0
    have q := (oneMessage.receive Ingestion.smallBroker now 0 0).2
    Word.fits now.millis = true ∧
      (oneMessage.receive Ingestion.smallBroker now 0 0).1 = some ⟨1, 0, [120], 1, 0⟩ ∧
      Ingestion.smallBroker.visibilityTimeout.millis < Word.signedLimit ∧
      q.HidesUntil 1 10 ∧
      ¬ ∃ d, (q.receive Ingestion.smallBroker now 1 0).1 = some d ∧ d.seq = 1 := by
  intro now q
  have hclock : Word.fits now.millis = true := by decide
  have hlease : (oneMessage.receive Ingestion.smallBroker now 0 0).1 =
      some ⟨1, 0, [120], 1, 0⟩ := by
    decide +kernel
  have hdelay : Ingestion.smallBroker.visibilityTimeout.millis < Word.signedLimit := by decide
  obtain ⟨hreceive, _, hexact, _, huncut⟩ := lease_times_saturate Ingestion.smallBroker hclock
  obtain ⟨hhidden, hagain⟩ := hreceive oneMessage q 0 0 ⟨1, 0, [120], 1, 0⟩ (Prod.ext hlease rfl)
  obtain ⟨hwrapped, _⟩ := huncut _ hdelay
  have hten : min (now.millis + Ingestion.smallBroker.visibilityTimeout.millis)
      ((Word.signedLimit : Int) - 1) = 10 := by decide
  rw [(hexact _).2 (.inl hdelay), hten] at hhidden
  refine ⟨hclock, hlease, hdelay, hhidden, fun hdelivered => ?_⟩
  obtain ⟨_, hover⟩ := (hagain Ingestion.smallBroker now 1 0 rfl).1 hdelivered
  rw [hwrapped] at hover
  revert hover
  decide

end MessageQueue

end MediaCatalogue
