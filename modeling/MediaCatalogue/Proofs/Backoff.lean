import Mathlib.Algebra.Ring.Nat
import MediaCatalogue.Proofs.Passes
import MediaCatalogue.Settings.Basic

/-!
# The pauses of the refresher

The refresher makes a pause after a pass that failed: one that could not read or complete requests,
or that left some of them unserved. Each such pass in a row doubles the pause. The limit is applied
when the pause is doubled, so it binds every pause but the first one.

* `RefreshSettings.pause` : the pause after so many failures in a row, and `pause_succ`, the rule
  that gives the next one;
* `Refresher.ended?` : the pass that a step ends, if it ends one;
* `Refresher.Reaches` : the runs of the refresher, with the outcomes of their passes. Between two
  steps the catalogue may change in any way, so every sequence of outcomes is possible;
* `Refresher.Reaches.backoff_eq` : along every run the refresher knows the pause that is due;
* `Settings.inMillis_refresher` : what a configuration makes of the pauses.

**Main theorem** (`Refresher.pauses_double`): when the refresher waits, and for how long; which
pauses keep to the limit; and that doubling a pause stays within the durations there are.
-/

namespace MediaCatalogue

/-! ### Pauses -/

/-- Durations lie below it: their whole seconds are a number of 64 bits. -/
def Duration.limit : Nat := Word.limit64 * 1000000000

namespace RefreshSettings

variable {settings : RefreshSettings}

/-- The pause after a failure that follows `k` others. -/
def pause (settings : RefreshSettings) : Nat → Duration
  | 0 => settings.initialBackoff
  | k + 1 => ⟨min (settings.initialBackoff.nanos * 2 ^ (k + 1)) settings.maxBackoff.nanos⟩

theorem pause_succ (settings : RefreshSettings) (k : Nat) :
    settings.pause (k + 1) =
      ⟨min (2 * (settings.pause k).nanos) settings.maxBackoff.nanos⟩ := by
  cases k with
  | zero => simp only [pause, Nat.zero_add, Nat.pow_one, Nat.mul_comm]
  | succ k =>
    simp only [pause, Nat.pow_succ 2 (k + 1), Duration.mk.injEq]
    rw [← Nat.mul_assoc]
    omega

/-- The first pause may be longer than the limit, and then the rule is broken at once. -/
theorem pause_eq_min_iff {k : Nat} :
    (settings.pause k).nanos =
        min settings.maxBackoff.nanos (settings.initialBackoff.nanos * 2 ^ k) ↔
      0 < k ∨ settings.initialBackoff.nanos ≤ settings.maxBackoff.nanos := by
  cases k with
  | zero => simp only [pause, Nat.pow_zero, Nat.mul_one, right_eq_inf, Nat.lt_irrefl, false_or]
  | succ k => simp only [pause, Nat.min_comm, Nat.zero_lt_succ, true_or]

theorem pause_le_iff {k : Nat} :
    (settings.pause k).nanos ≤ settings.maxBackoff.nanos ↔
      0 < k ∨ settings.initialBackoff.nanos ≤ settings.maxBackoff.nanos := by
  cases k with
  | zero => simp only [pause, Nat.lt_irrefl, false_or]
  | succ k => simp only [pause, Nat.min_le_right, Nat.zero_lt_succ, true_or]

theorem pause_le_max (settings : RefreshSettings) (k : Nat) :
    (settings.pause k).nanos ≤
      max settings.initialBackoff.nanos settings.maxBackoff.nanos := by
  cases k with
  | zero => exact Nat.le_max_left ..
  | succ k => exact (Nat.min_le_right ..).trans (Nat.le_max_right ..)

/-- Both times are numbers of milliseconds of 64 bits. -/
def InMillis (settings : RefreshSettings) : Prop :=
  ∃ first last, first < Word.limit64 ∧ last < Word.limit64 ∧
    settings.initialBackoff = .ofMillis first ∧ settings.maxBackoff = .ofMillis last

theorem InMillis.two_mul_pause_lt (h : settings.InMillis) (k : Nat) :
    2 * (settings.pause k).nanos < Duration.limit := by
  obtain ⟨first, last, hfirst, hlast, hinitial, hmax⟩ := h
  have hle := settings.pause_le_max k
  rw [hinitial, hmax] at hle
  simp only [Duration.ofMillis, Duration.limit, Word.limit64] at *
  omega

end RefreshSettings

/-! ### Settings that are read -/

namespace Toml.Decoder

variable {α β : Type} {P : α → Prop} {fields : List (Field α)} {a b defaults : α} {value : Toml}

theorem of_putAll {values : List (Field α × Toml)} (h : putAll a values = some b) (ha : P a)
    (hput : ∀ entry ∈ values, ∀ value a b, entry.1.put value a = some b → P a → P b) : P b := by
  induction values generalizing a with
  | nil =>
    cases h
    exact ha
  | cons entry values ih =>
    obtain ⟨hfirst, hrest⟩ := List.forall_mem_cons.1 hput
    obtain ⟨next, hnext, h⟩ := Option.bind_eq_some_iff.1 h
    exact ih h (hfirst _ _ _ hnext ha) hrest

theorem of_record (h : record fields defaults value = some a) (hdefaults : P defaults)
    (hput : ∀ field ∈ fields, ∀ value a b, field.put value a = some b → P a → P b) : P a := by
  cases value with
  | table entries =>
    refine of_putAll h hdefaults fun entry hentry => hput _ ?_
    obtain ⟨field, hfield, hlookup⟩ := List.mem_filterMap.1 hentry
    obtain ⟨_, _, rfl⟩ := Option.map_eq_some_iff.1 hlookup
    exact hfield
  | array items =>
    exact of_putAll h hdefaults fun entry hentry => hput _ (List.of_mem_zip hentry).1
  | datetime _ =>
    cases h
    exact hdefaults
  | _ => cases h

theorem lt_of_natural {limit n : Nat} (h : natural limit value = some n) : n < limit := by
  cases value with
  | integer value =>
    simp only [natural, Option.ite_none_right_eq_some, Option.some.injEq] at h
    omega
  | _ => cases h

end Toml.Decoder

namespace Settings

/-- How the refresher is set up. -/
def refresher (settings : Settings) : RefreshSettings :=
  { maxBackoff := .ofMillis settings.ingest.refreshMaxBackoffMillis }

section

open Toml.Decoder

theorem of_ingestDecoder {value : Toml} {ingest : IngestSettings}
    (h : ingestDecoder value = some ingest) :
    ingest.refreshMaxBackoffMillis < Word.limit64 := by
  refine of_record (P := fun ingest : IngestSettings =>
    ingest.refreshMaxBackoffMillis < Word.limit64) h (by decide) ?_
  simp only [List.forall_mem_cons, field, Option.map_eq_some_iff]
  refine ⟨?_, ?_, ?_, ?_, ?_, by simp⟩
  all_goals
    rintro value a b ⟨n, hn, rfl⟩ ha
  · exact ha
  · exact ha
  · exact ha
  · exact ha
  · exact lt_of_natural hn

theorem of_decoder {path : String} {value : Toml} {settings : Settings}
    (h : decoder path value = some settings) :
    settings.ingest.refreshMaxBackoffMillis < Word.limit64 := by
  refine of_record (P := fun settings : Settings =>
    settings.ingest.refreshMaxBackoffMillis < Word.limit64) h
    (show (30000 : Nat) < Word.limit64 by decide) ?_
  simp only [List.forall_mem_cons, field, Option.map_eq_some_iff]
  refine ⟨?_, ?_, ?_, ?_, ?_, by simp⟩
  all_goals
    rintro value a b ⟨part, hpart, rfl⟩ ha
  · exact ha
  · exact ha
  · exact ha
  · exact ha
  · exact of_ingestDecoder hpart

end

theorem inMillis_refresher {path document : String} {settings : Settings}
    (h : parse path document = .ok settings) : settings.refresher.InMillis := by
  unfold parse at h
  split at h
  · next read hread =>
    have hsame : read = settings := by
      unfold checked at h
      split at h
      · cases h
      · split at h
        · cases h
        · exact Except.ok.inj h
    obtain ⟨value, _, hdecode⟩ := Option.bind_eq_some_iff.1 hread
    exact ⟨100, _, by decide, hsame ▸ of_decoder hdecode, rfl, rfl⟩
  · cases h

end Settings

namespace Refresher

variable {σ : Type} {services : RefreshServices σ} {settings : RefreshSettings} {r : State}
  {passes : List (Except Fault Pass)} {outcome : Except Fault Pass} {s : σ}

/-! ### Outcomes of passes -/

/-- A pass was broken off, or left requests unserved. -/
def isFailure : Except Fault Pass → Bool
  | .error _ => true
  | .ok p => p.taken != 0 && p.failed != 0

/-- How many of the last passes failed, one after the other. The last pass comes first. -/
def failuresInARow (passes : List (Except Fault Pass)) : Nat :=
  (passes.takeWhile isFailure).length

theorem failuresInARow_cons (outcome : Except Fault Pass) (passes : List (Except Fault Pass)) :
    failuresInARow (outcome :: passes) =
      if isFailure outcome then failuresInARow passes + 1 else 0 := by
  rw [failuresInARow, List.takeWhile_cons]
  split
  · rfl
  · rfl

theorem afterPass_of_isFailure {backoff : Duration} (h : isFailure outcome = true) :
    afterPass settings backoff outcome =
      (.wait backoff, ⟨min (2 * backoff.nanos) settings.maxBackoff.nanos⟩) := by
  match outcome with
  | .error _ => rfl
  | .ok ⟨0, _⟩ => cases h
  | .ok ⟨_ + 1, 0⟩ => cases h
  | .ok ⟨_ + 1, _ + 1⟩ => rfl

theorem afterPass_of_not_isFailure {backoff : Duration} (h : isFailure outcome = false) :
    (∀ time, (afterPass settings backoff outcome).1 ≠ .wait time) ∧
      (afterPass settings backoff outcome).2 = settings.initialBackoff := by
  match outcome with
  | .error _ => cases h
  | .ok ⟨0, _⟩ => exact ⟨fun _ hwait => (by cases hwait), rfl⟩
  | .ok ⟨_ + 1, 0⟩ => exact ⟨fun _ hwait => (by cases hwait), rfl⟩
  | .ok ⟨_ + 1, _ + 1⟩ => cases h

/-- The refresher waits after a failure, as long as it meant to. -/
theorem endPass_phase_eq_waiting_iff {time : Duration} :
    (r.endPass settings outcome).phase = .waiting time ↔
      isFailure outcome = true ∧ time = r.backoff := by
  cases h : isFailure outcome with
  | true =>
    simp only [State.endPass, afterPass_of_isFailure h, Phase.waiting.injEq, true_and, eq_comm]
  | false =>
    have hpause : ∀ time, (afterPass settings r.backoff outcome).1 ≠ .wait time :=
      (afterPass_of_not_isFailure h).1
    simp only [State.endPass, Bool.false_eq_true, false_and, iff_false]
    split
    · simp only [reduceCtorEq, not_false_eq_true]
    · simp only [reduceCtorEq, not_false_eq_true]
    · next hwait => exact absurd hwait (hpause _)

theorem endPass_backoff :
    (r.endPass settings outcome).backoff =
      if isFailure outcome then ⟨min (2 * r.backoff.nanos) settings.maxBackoff.nanos⟩
      else settings.initialBackoff := by
  cases h : isFailure outcome with
  | true => simp only [State.endPass, afterPass_of_isFailure h, if_true]
  | false =>
    simp only [State.endPass, (afterPass_of_not_isFailure h).2, Bool.false_eq_true, if_false]

/-! ### Steps -/

/-- The pass that the next step ends, if it ends one: a step that cannot read the batch or complete
a request breaks it off. -/
def ended? (services : RefreshServices σ) (settings : RefreshSettings) (s : σ) (r : State) :
    Option (Except Fault Pass) :=
  match r.phase with
  | .reading =>
    match ((services.pending settings.batchSize).run s).1 with
    | .error fault => some (.error fault)
    | .ok _ => none
  | .serving [] p => some (.ok p)
  | .serving (request :: _) _ =>
    match ((serve services request).run s).1 with
    | .error fault => some (.error fault)
    | .ok _ => none
  | .parked => none
  | .waiting _ => none

/-- What a step does: it ends a pass, or it neither changes the pause that is due nor waits. -/
theorem of_step (services : RefreshServices σ) (settings : RefreshSettings) (s : σ) (r : State) :
    (∃ outcome, ended? services settings s r = some outcome ∧
      ((step services settings r).run s).1 = r.endPass settings outcome) ∨
    (ended? services settings s r = none ∧
      ((step services settings r).run s).1.backoff = r.backoff ∧
      ∀ time, ((step services settings r).run s).1.phase ≠ .waiting time) := by
  unfold ended?
  cases hphase : r.phase with
  | reading =>
    cases h : (services.pending settings.batchSize).run s with
    | mk result s' =>
      rw [run_step_reading hphase h]
      cases result with
      | error fault => exact .inl ⟨_, rfl, rfl⟩
      | ok batch => exact .inr ⟨rfl, rfl, fun time h => by cases h⟩
  | serving rest p =>
    cases rest with
    | nil => exact .inl ⟨_, rfl, by rw [run_step_served hphase]⟩
    | cons request rest =>
      cases h : (serve services request).run s with
      | mk result s' =>
        rw [run_step_serving hphase h]
        cases result with
        | error fault => exact .inl ⟨.error fault, by simp only [h], rfl⟩
        | ok failed => exact .inr ⟨by simp only [h], rfl, fun time h => by cases h⟩
  | parked =>
    rw [run_step_parked hphase]
    cases hpermit : r.permit with
    | true => exact .inr ⟨rfl, rfl, fun time h => by cases h⟩
    | false => exact .inr ⟨rfl, rfl, fun time h => by cases hphase.symm.trans h⟩
  | waiting time =>
    rw [run_step_waiting hphase]
    exact .inr ⟨rfl, rfl, fun time h => by cases h⟩

/-! ### Runs -/

/-- The states that the refresher reaches, with the outcomes of its passes, the last one first.
Every step finds the catalogue as it may be by then. -/
inductive Reaches (services : RefreshServices σ) (settings : RefreshSettings) :
    List (Except Fault Pass) → State → Prop
  | start : Reaches services settings [] (.initial settings)
  | wake {passes : List (Except Fault Pass)} {r : State} :
    Reaches services settings passes r → Reaches services settings passes r.wake
  | step {passes : List (Except Fault Pass)} {r : State} (s : σ) :
    Reaches services settings passes r →
    Reaches services settings ((ended? services settings s r).toList ++ passes)
      ((step services settings r).run s).1

theorem Reaches.backoff_eq (h : Reaches services settings passes r) :
    r.backoff = settings.pause (failuresInARow passes) := by
  induction h with
  | start => rfl
  | wake _ ih => exact ih
  | @step passes r s _ ih =>
    obtain ⟨outcome, hended, hstep⟩ | ⟨hended, hbackoff, _⟩ := of_step services settings s r
    · rw [hended, hstep, Option.toList_some, List.singleton_append, failuresInARow_cons,
        endPass_backoff, ih]
      split
      · rw [RefreshSettings.pause_succ]
      · rfl
    · rw [hended, hbackoff, Option.toList_none, List.nil_append, ih]

theorem step_phase_eq_waiting_iff {time : Duration} :
    ((step services settings r).run s).1.phase = .waiting time ↔
      (∃ outcome, ended? services settings s r = some outcome ∧ isFailure outcome = true) ∧
        time = r.backoff := by
  obtain ⟨outcome, hended, hstep⟩ | ⟨hended, _, hphase⟩ := of_step services settings s r
  · rw [hstep, hended, endPass_phase_eq_waiting_iff]
    simp only [Option.some.injEq, exists_eq_left']
  · rw [hended]
    refine ⟨fun h => absurd h (hphase time), ?_⟩
    rintro ⟨⟨_, hnone, _⟩, _⟩
    cases hnone

/-- **Pauses double**, and the limit binds all of them but the first. Whatever the refresher did
before and whatever it finds:

1. a step makes the refresher wait exactly if it ends a pass that failed, and then for the pause
   that is due after as many failures in a row as there were before;
2. this pause is the first one, doubled as often as there were failures, or the limit if that is
   shorter, exactly if there was a failure before or the first pause keeps to the limit;
3. these are also the pauses that keep to the limit;
4. if the settings are numbers of milliseconds of 64 bits, the double of each pause is a duration;
5. such are the settings of every configuration. -/
theorem pauses_double (services : RefreshServices σ) (settings : RefreshSettings) :
    (∀ passes r, Reaches services settings passes r → ∀ s time,
      ((step services settings r).run s).1.phase = .waiting time ↔
        (∃ outcome, ended? services settings s r = some outcome ∧ isFailure outcome = true) ∧
          time = settings.pause (failuresInARow passes)) ∧
    (∀ k, (settings.pause k).nanos =
        min settings.maxBackoff.nanos (settings.initialBackoff.nanos * 2 ^ k) ↔
      0 < k ∨ settings.initialBackoff.nanos ≤ settings.maxBackoff.nanos) ∧
    (∀ k, (settings.pause k).nanos ≤ settings.maxBackoff.nanos ↔
      0 < k ∨ settings.initialBackoff.nanos ≤ settings.maxBackoff.nanos) ∧
    (settings.InMillis → ∀ k, 2 * (settings.pause k).nanos < Duration.limit) ∧
    ∀ (path document : String) (config : Settings), Settings.parse path document = .ok config →
      config.refresher.InMillis := by
  refine ⟨fun passes r h s time => ?_, fun k => RefreshSettings.pause_eq_min_iff,
    fun k => RefreshSettings.pause_le_iff, fun h => h.two_mul_pause_lt,
    fun path document config => Settings.inMillis_refresher⟩
  rw [step_phase_eq_waiting_iff, h.backoff_eq]

/-- Services that cannot read any request. -/
def unreadable : RefreshServices Unit where
  pending _ := throw (.database "disk I/O error")
  refresh _ := pure ()
  complete _ := pure true

/-- The configuration limits pauses to 50 milliseconds, and the first one takes 100. -/
theorem first_pause_exceeds_limit :
    ∃ config, Settings.parse "atlas.db" "[ingest]\nrefresh_max_backoff_ms = 50\n" = .ok config ∧
      config.refresher.maxBackoff = .ofMillis 50 ∧
      ((step unreadable config.refresher (.initial config.refresher)).run ()).1.phase =
        .waiting (.ofMillis 100) := by
  have hparsed : (Settings.parse "atlas.db" "[ingest]\nrefresh_max_backoff_ms = 50\n").toOption =
      some { databasePath := "atlas.db", ingest := { refreshMaxBackoffMillis := 50 } } := by
    decide +kernel
  cases hparse : Settings.parse "atlas.db" "[ingest]\nrefresh_max_backoff_ms = 50\n" with
  | error fault =>
    rw [hparse] at hparsed
    cases hparsed
  | ok config =>
    rw [hparse] at hparsed
    cases hparsed
    exact ⟨_, rfl, rfl, rfl⟩

/-- After two failures a pause of one millisecond has become one of four, its limit. -/
theorem pauses_double_of_unreadable :
    have settings : RefreshSettings := ⟨.ofMillis 1, .ofMillis 4, 100⟩
    have failure : Except Fault Pass := .error (.database "disk I/O error")
    ∃ r, Reaches unreadable settings [failure, failure] r ∧
      ((step unreadable settings r).run ()).1.phase = .waiting (.ofMillis 4) ∧
      2 * (settings.pause 2).nanos < Duration.limit := by
  intro settings failure
  obtain ⟨hwaits, _, _, hdouble, _⟩ := pauses_double unreadable settings
  -- A pass fails, the pause goes by, and so again.
  have hreaches : Reaches unreadable settings [failure, failure] _ :=
    (((Reaches.start.step ()).step ()).step ()).step ()
  have hpause : Duration.ofMillis 4 = settings.pause (failuresInARow [failure, failure]) := by
    decide
  refine ⟨_, hreaches, (hwaits _ _ hreaches () _).2 ⟨⟨failure, rfl, rfl⟩, hpause⟩, hdouble ?_ 2⟩
  exact ⟨1, 4, by decide, by decide, rfl, rfl⟩

end Refresher

end MediaCatalogue
