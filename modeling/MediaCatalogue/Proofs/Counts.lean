import MediaCatalogue.Proofs.Rows

/-!
# How many statements an update takes

An update that can be applied takes a number of statements that depends on nothing but its outcome
(`EntityUpdate.statementCount`), and it is applied either as a whole or not at all.

* `EntityUpdate.exists_written` : an update whose time can be stored has an outcome;
* `EntityUpdate.Written.stale_of_reflects`, `EntityUpdate.Written.applied_of_not_reflects` : the
  outcome depends on whether what is stored is at least as new;
* `Writers.run_apply_of_written` : what the writers do if some statements work. They do nothing if
  the time of the update cannot be stored (`Writers.run_apply_of_unstorable`).
-/

namespace MediaCatalogue

namespace Statements

variable {α β : Type} {c c' c'' : Catalogue} {n m : Nat} {a : α} {b : β}

theorem Takes.congr {call : Statements α} {result : α × Catalogue}
    (h : Takes call c n result.1 result.2) (heq : result = (a, c')) : Takes call c n a c' := by
  subst heq
  exact h

theorem storable_of_nanos {t : Instant} {nanos : Int} (h : t.nanos? = some nanos) :
    t.storable = .ok nanos := by
  simp only [Instant.storable, h]

theorem storable_of_no_nanos {t : Instant} (h : t.nanos? = none) :
    t.storable = .error (.invalidInput (.unstorable t)) := by
  simp only [Instant.storable, h]

theorem takes_requestAll {now : Instant} {t : Int} {ids : IdSet} (h : now.nanos? = some t) :
    Takes (requestAll now ids) c ids.size () (c.requested t ids) := by
  rw [← Std.ExtTreeSet.length_toList]
  exact .lift_bind (storable_of_nanos h) takes_forM

theorem Takes.map_perform {call : Statements α} (h : Takes call c n a c') (f : α → β)
    (working : Option Nat) :
    ((call.perform working c).1.map f, (call.perform working c).2) =
      if Breaks working n then (.error .brokenStatement, c) else (.ok (f a), c') := by
  rw [h.perform]
  by_cases hbreaks : Breaks working n
  · simp only [hbreaks, if_true, Except.map]
  · simp only [hbreaks, if_false, Except.map]

/-- A call that begins with a value that is a fault ends there. -/
theorem perform_lift_bind_error {value : Except Fault α} {next : α → Statements β} {fault : Fault}
    (h : value = .error fault) (working : Option Nat) (c : Catalogue) :
    ((liftM value : Statements α) >>= next).perform working c = (.error fault, c) := by
  subst h
  rfl

end Statements

open Statements

namespace EntityUpdate

/-- How many statements an update with that outcome takes: those that begin and end the
transaction, the conditional write, and, if it is applied, one for each request. An assertion also
reads and removes the earlier targets, and stores its own one by one. -/
def statementCount : EntityUpdate → Outcome → Nat
  | topic _, _ => 1
  | content _, .applied touched => touched.size + 3
  | equivalence u, .applied touched => touched.size + u.targets.length + 5
  | _, .stale => 3

end EntityUpdate

/-! ### The write of each type -/

theorem Content.Written.takes {now : Instant} {record : Content} {c c' : Catalogue} {applied : Bool}
    (h : record.Written now c applied c') :
    Takes (record.write now) c
      ((EntityUpdate.content record).statementCount
        (if applied then .applied (IdSet.ofList [record.id]) else .stale)) applied c' := by
  unfold Content.write
  cases h with
  | applied hnanos hnewer ht =>
    change Takes _ c ((IdSet.ofList [record.id]).size + 3) true _
    refine .lift_bind (storable_of_nanos hnanos) (takes_mark.bind (takes_statement.bind ?_))
    simp only [Table.insertNewer_of_isNewer hnewer, if_true]
    rw [Nat.add_comm]
    refine (takes_requestAll ht).bind (takes_mark.bind ?_)
    exact takes_pure
  | stale hnanos hstale =>
    change Takes _ c 3 false c
    refine .lift_bind (storable_of_nanos hnanos) (takes_mark.bind (takes_statement.bind ?_))
    simp only [Table.insertNewer_of_not_isNewer hstale]
    exact takes_mark.bind takes_pure

theorem Topic.Written.takes {tag : Topic} {c c' : Catalogue} {applied : Bool}
    (h : tag.Written c applied c') : Takes tag.write c 1 applied c' := by
  unfold Topic.write
  cases h with
  | applied hnanos hnewer =>
    refine .lift_bind (storable_of_nanos hnanos) (takes_statement.congr ?_)
    rw [Table.insertNewer_of_isNewer hnewer]
    rfl
  | stale hnanos hstale =>
    refine .lift_bind (storable_of_nanos hnanos) (takes_statement.congr ?_)
    rw [Table.insertNewer_of_not_isNewer hstale]

theorem EquivalenceUpdate.Written.takes {now : Instant} {u : EquivalenceUpdate} {c c' : Catalogue}
    {previous : Option IdSet} (h : u.Written now c previous c') :
    Takes (u.write now) c
      ((EntityUpdate.equivalence u).statementCount (.ofTouched (previous.map u.affected)))
      previous c' := by
  unfold EquivalenceUpdate.write
  cases h with
  | @applied nanos t previous hnanos hnewer hprevious ht =>
    change Takes _ c ((u.affected previous).size + u.targets.length + 5) (some previous) _
    refine .lift_bind (storable_of_nanos hnanos) (takes_mark.bind (takes_statement.bind ?_))
    simp only [Table.insertNewer_of_isNewer hnewer]
    refine takes_statement.bind (.lift_bind hprevious (takes_update.bind ?_))
    rw [Nat.add_right_comm]
    refine takes_forM.bind ?_
    rw [foldl_insert_eq, Nat.add_comm]
    refine (takes_requestAll ht).bind (takes_mark.bind ?_)
    exact takes_pure
  | stale hnanos hstale =>
    change Takes _ c 3 none c
    refine .lift_bind (storable_of_nanos hnanos) (takes_mark.bind (takes_statement.bind ?_))
    simp only [Table.insertNewer_of_not_isNewer hstale]
    exact takes_mark.bind takes_pure

theorem EquivalenceUpdate.exists_written {now : Instant} {u : EquivalenceUpdate} {c : Catalogue}
    (hedges : c.edges.HoldsIds) {t nanos : Int} (ht : now.nanos? = some t)
    (hnanos : u.timestamp.nanos? = some nanos)
    (hnewer : c.assertions.IsNewer AssertionRow.lastUpdated u.subject.stored ⟨u.source.key, nanos⟩) :
    ∃ previous c', u.Written now c (some previous) c' := by
  obtain ⟨previous, hprevious, _⟩ := EdgeSet.targetIds_spec hedges u.subject
  exact ⟨previous, _, .applied hnanos hnewer hprevious ht⟩

/-! ### Updates -/

namespace EntityUpdate

variable {now : Instant} {c c' : Catalogue} {update : EntityUpdate} {outcome : Outcome}
  {nanos : Int}

theorem exists_written (hedges : c.edges.HoldsIds) (hnow : ∃ t, now.nanos? = some t)
    (hnanos : update.timestamp.nanos? = some nanos) :
    ∃ outcome c', update.Written now c outcome c' := by
  obtain ⟨t, ht⟩ := hnow
  cases update with
  | content record =>
    by_cases hnewer : c.content.IsNewer ContentRow.lastUpdated record.id.stored (record.row nanos)
    · exact ⟨_, _, .content (.applied hnanos hnewer ht)⟩
    · exact ⟨_, _, .content (.stale hnanos hnewer)⟩
  | topic tag =>
    by_cases hnewer : c.topics.IsNewer TopicRow.lastUpdated tag.id.stored (tag.row nanos)
    · exact ⟨_, _, .topic (.applied hnanos hnewer)⟩
    · exact ⟨_, _, .topic (.stale hnanos hnewer)⟩
  | equivalence u =>
    by_cases hnewer :
      c.assertions.IsNewer AssertionRow.lastUpdated u.subject.stored ⟨u.source.key, nanos⟩
    · obtain ⟨_, _, hwritten⟩ := EquivalenceUpdate.exists_written hedges ht hnanos hnewer
      exact ⟨_, _, .equivalence hwritten⟩
    · exact ⟨_, _, .equivalence (.stale hnanos hnewer)⟩

theorem Written.eq_of_stale (h : update.Written now c .stale c') : c' = c := by
  generalize houtcome : Outcome.stale = outcome at h
  cases h with
  | content h =>
    cases h with
    | applied => cases houtcome
    | stale => rfl
  | topic h =>
    cases h with
    | applied => cases houtcome
    | stale => rfl
  | equivalence h =>
    cases h with
    | applied => cases houtcome
    | stale => rfl

theorem Written.stale_of_reflects (h : update.Written now c outcome c')
    (hnanos : update.timestamp.nanos? = some nanos)
    (hreflects : c.Reflects update.entityType update.entityId nanos) : outcome = .stale := by
  cases h with
  | content h =>
    cases h with
    | stale => rfl
    | applied hrecord hnewer =>
      cases hrecord.symm.trans hnanos
      obtain ⟨row, hrow, hle⟩ := hreflects
      exact absurd hle (Int.not_le.2 (hnewer row hrow))
  | topic h =>
    cases h with
    | stale => rfl
    | applied htag hnewer =>
      cases htag.symm.trans hnanos
      obtain ⟨row, hrow, hle⟩ := hreflects
      exact absurd hle (Int.not_le.2 (hnewer row hrow))
  | equivalence h =>
    cases h with
    | stale => rfl
    | applied hu hnewer =>
      cases hu.symm.trans hnanos
      obtain ⟨row, hrow, hle⟩ := hreflects
      exact absurd hle (Int.not_le.2 (hnewer row hrow))

theorem Written.applied_of_not_reflects (h : update.Written now c outcome c')
    (hnanos : update.timestamp.nanos? = some nanos)
    (hnewer : ¬ c.Reflects update.entityType update.entityId nanos) :
    ∃ touched, outcome = .applied touched := by
  cases outcome with
  | applied touched => exact ⟨touched, rfl⟩
  | stale =>
    have hreflects := h.reflects hnanos
    rw [h.eq_of_stale] at hreflects
    exact absurd hreflects hnewer

end EntityUpdate

namespace Writers

variable {now : Instant} {c c' : Catalogue} {update : EntityUpdate} {outcome : Outcome}

/-- **An update is applied as a whole or not at all.** -/
theorem run_apply_of_written (h : update.Written now c outcome c') (working : Option Nat) :
    ((stored now working).apply update).run c =
      if Breaks working (update.statementCount outcome) then (.error .brokenStatement, c)
      else (.ok outcome, c') := by
  cases h with
  | content h =>
    rw [run_apply_content, run_stored_content]
    exact h.takes.map_perform _ working
  | topic h =>
    rw [run_apply_topic, run_stored_topic]
    exact h.takes.map_perform _ working
  | equivalence h =>
    rw [run_apply_equivalence, run_stored_equivalence]
    exact h.takes.map_perform _ working

/-- An update whose time cannot be stored never reaches a statement. -/
theorem run_apply_of_unstorable (h : update.timestamp.nanos? = none) (working : Option Nat) :
    ((stored now working).apply update).run c =
      (.error (.invalidInput (.unstorable update.timestamp)), c) := by
  cases update with
  | content record =>
    have hunstorable := storable_of_no_nanos (t := record.lastUpdated) h
    rw [run_apply_content, run_stored_content, Content.write, perform_lift_bind_error hunstorable]
    rfl
  | topic tag =>
    have hunstorable := storable_of_no_nanos (t := tag.lastUpdated) h
    rw [run_apply_topic, run_stored_topic, Topic.write, perform_lift_bind_error hunstorable]
    rfl
  | equivalence u =>
    have hunstorable := storable_of_no_nanos (t := u.timestamp) h
    rw [run_apply_equivalence, run_stored_equivalence, EquivalenceUpdate.write,
      perform_lift_bind_error hunstorable]
    rfl

end Writers

namespace EntityUpdate

variable {now : Instant} {c c' : Catalogue} {update : EntityUpdate} {outcome : Outcome}

theorem Written.exists_nanos (h : update.Written now c outcome c') :
    ∃ nanos, update.timestamp.nanos? = some nanos := by
  cases hnanos : update.timestamp.nanos? with
  | some nanos => exact ⟨nanos, rfl⟩
  | none =>
    have hrun := Writers.run_apply_of_written h none
    rw [Writers.run_apply_of_unstorable hnanos, if_neg not_breaks_none] at hrun
    cases hrun

theorem Written.ne_of_applied {touched : IdSet} (h : update.Written now c (.applied touched) c') :
    c' ≠ c := by
  rintro rfl
  obtain ⟨nanos, hnanos⟩ := h.exists_nanos
  have hstale := h.stale_of_reflects hnanos (h.reflects hnanos)
  cases hstale

end EntityUpdate

end MediaCatalogue
