import MediaCatalogue.Equivalence.Assertion
import MediaCatalogue.Proofs.Connection
import MediaCatalogue.Proofs.Requests
import MediaCatalogue.Store.Write

/-!
# What the conditional writes do

Each conditional write stores a row and leaves its requests, or finds that the stored row is at
least as new and changes nothing, or fails.  `Content.Written`, `Topic.Written` and
`EquivalenceUpdate.Written` list what a write call that succeeds can have done; the rules
`Content.ends_write`, `Topic.ends_write` and `EquivalenceUpdate.ends_write` say that nothing else
happens, and which faults the calls can have.
-/

namespace MediaCatalogue

/-- No row of the table with that key is at least as new as `row`. -/
def Table.IsNewer {Row : Type} (time : Row → Int) (key : Int) (row : Row) (table : Table Row) :
    Prop :=
  ∀ stored, table[key]? = some stored → time stored < time row

section

variable {Row : Type} {time : Row → Int} {key : Int} {row : Row} {table : Table Row}

theorem Table.insertNewer_of_isNewer (h : table.IsNewer time key row) :
    table.insertNewer time key row = (true, table.insert key row) := by
  unfold Table.insertNewer
  split
  · rename_i stored hstored
    rw [if_pos (h stored hstored)]
  · rfl

theorem Table.insertNewer_of_not_isNewer (h : ¬ table.IsNewer time key row) :
    table.insertNewer time key row = (false, table) := by
  unfold Table.insertNewer
  split
  · rename_i stored hstored
    rw [if_neg]
    intro hlt
    refine h fun stored' hstored' => ?_
    rw [hstored] at hstored'
    cases hstored'
    exact hlt
  · rename_i hnone
    refine absurd (fun stored hstored => ?_) h
    rw [hnone] at hstored
    cases hstored

theorem Table.exists_of_not_isNewer (h : ¬ table.IsNewer time key row) :
    ∃ stored, table[key]? = some stored ∧ time row ≤ time stored := by
  by_contra hno
  exact h fun stored hstored => Int.not_le.1 fun hle => hno ⟨stored, hstored, hle⟩

end

/-- A statement does not work, or one of some times cannot be stored. -/
inductive WriteFault (times : List Instant) : Fault → Prop
  /-- A statement does not work. -/
  | broken : WriteFault times .brokenStatement
  /-- A time cannot be stored. -/
  | unstorable {t : Instant} (ht : t ∈ times) (hnanos : t.nanos? = none) :
    WriteFault times (.invalidInput (.unstorable t))

theorem WriteFault.of_storable {times : List Instant} {t : Instant} {fault : Fault}
    (ht : t ∈ times) (h : t.storable = .error fault) : WriteFault times fault := by
  obtain ⟨hnanos, rfl⟩ := Statements.storable_eq_error h
  exact .unstorable ht hnanos

theorem WriteFault.mono {times times' : List Instant} {fault : Fault} (h : WriteFault times fault)
    (hsub : ∀ t ∈ times, t ∈ times') : WriteFault times' fault := by
  cases h with
  | broken => exact .broken
  | unstorable ht hnanos => exact .unstorable (hsub _ ht) hnanos

open Statements

/-! ### Records -/

namespace Content

/-- The tables with a record that was changed at the time `nanos`. -/
def store (record : Content) (nanos : Int) (c : Catalogue) : Catalogue :=
  { c with content := c.content.insert record.id.stored (record.row nanos) }

/-- What the write of a record does when it succeeds. -/
inductive Written (now : Instant) (record : Content) (c : Catalogue) : Bool → Catalogue → Prop
  /-- The record is stored and its id is requested. -/
  | applied {nanos t : Int} (hnanos : record.lastUpdated.nanos? = some nanos)
    (hnewer : c.content.IsNewer ContentRow.lastUpdated record.id.stored (record.row nanos))
    (ht : now.nanos? = some t) :
    Written now record c true ((record.store nanos c).requested t (IdSet.ofList [record.id]))
  /-- The stored record is at least as new. -/
  | stale {nanos : Int} (hnanos : record.lastUpdated.nanos? = some nanos)
    (hstale : ¬ c.content.IsNewer ContentRow.lastUpdated record.id.stored (record.row nanos)) :
    Written now record c false c

theorem ends_write (now : Instant) (record : Content) (c : Catalogue) :
    Ends (record.write now) c (Written now record c) (WriteFault [record.lastUpdated, now]) := by
  unfold write
  refine ends_lift_bind (fun fault => .of_storable (by simp)) fun nanos h => ?_
  have hnanos := storable_eq_ok h
  refine ends_update_bind .broken (ends_statement_bind .broken ?_)
  by_cases hnewer : c.content.IsNewer ContentRow.lastUpdated record.id.stored (record.row nanos)
  · simp only [id_eq, Table.insertNewer_of_isNewer hnewer, if_true]
    refine ends_bind (ends_requestAll .broken (.unstorable (by simp))) fun _ c' hc => ?_
    obtain ⟨t, ht, rfl⟩ := hc
    exact ends_update_bind .broken (ends_pure (.applied hnanos hnewer ht))
  · simp only [id_eq, Table.insertNewer_of_not_isNewer hnewer]
    exact ends_update_bind .broken (ends_pure (.stale hnanos hnewer))

end Content

/-! ### Tags -/

namespace Topic

/-- The tables with a tag that was changed at the time `nanos`. -/
def store (tag : Topic) (nanos : Int) (c : Catalogue) : Catalogue :=
  { c with topics := c.topics.insert tag.id.stored (tag.row nanos) }

/-- What the write of a tag does when it succeeds. -/
inductive Written (tag : Topic) (c : Catalogue) : Bool → Catalogue → Prop
  /-- The tag is stored. -/
  | applied {nanos : Int} (hnanos : tag.lastUpdated.nanos? = some nanos)
    (hnewer : c.topics.IsNewer TopicRow.lastUpdated tag.id.stored (tag.row nanos)) :
    Written tag c true (tag.store nanos c)
  /-- The stored tag is at least as new. -/
  | stale {nanos : Int} (hnanos : tag.lastUpdated.nanos? = some nanos)
    (hstale : ¬ c.topics.IsNewer TopicRow.lastUpdated tag.id.stored (tag.row nanos)) :
    Written tag c false c

theorem ends_write (tag : Topic) (c : Catalogue) :
    Ends tag.write c (Written tag c) (WriteFault [tag.lastUpdated]) := by
  unfold write
  refine ends_lift_bind (fun fault => .of_storable (by simp)) fun nanos h => ?_
  have hnanos := storable_eq_ok h
  refine ends_statement .broken ?_
  by_cases hnewer : c.topics.IsNewer TopicRow.lastUpdated tag.id.stored (tag.row nanos)
  · simp only [Table.insertNewer_of_isNewer hnewer]
    exact .applied hnanos hnewer
  · simp only [Table.insertNewer_of_not_isNewer hnewer]
    exact .stale hnanos hnewer

end Topic

/-! ### Assertions -/

namespace EdgeSet

/-- The edges after a subject got new targets. -/
def replace (subject : Id) (targets : List Id) (edges : EdgeSet) : EdgeSet :=
  targets.foldl (fun edges target => edges.insert ⟨subject.stored, target.stored⟩)
    (edges.withoutSubject subject)

theorem mem_foldl_insert {subject : Id} {targets : List Id} {edges : EdgeSet} {e : Edge} :
    e ∈ targets.foldl (fun edges target => edges.insert ⟨subject.stored, target.stored⟩) edges ↔
      (∃ target ∈ targets, e = ⟨subject.stored, target.stored⟩) ∨ e ∈ edges := by
  induction targets generalizing edges with
  | nil => simp
  | cons target targets ih =>
    simp only [List.foldl_cons, ih, Std.ExtTreeSet.mem_insert, Std.LawfulEqCmp.compare_eq_iff_eq,
      List.mem_cons, exists_eq_or_imp]
    grind

theorem mem_replace {subject : Id} {targets : List Id} {edges : EdgeSet} {e : Edge} :
    e ∈ edges.replace subject targets ↔
      (∃ target ∈ targets, e = ⟨subject.stored, target.stored⟩) ∨
        (e ∈ edges ∧ e.subject ≠ subject.stored) := by
  simp [replace, mem_foldl_insert, withoutSubject]

theorem HoldsIds.replace {subject : Id} {targets : List Id} {edges : EdgeSet}
    (h : edges.HoldsIds) : (edges.replace subject targets).HoldsIds := by
  intro e he
  rcases mem_replace.1 he with ⟨target, _, rfl⟩ | ⟨he, _⟩
  · exact ⟨subject, target, rfl⟩
  · exact h e he

theorem mem_targets {edges : EdgeSet} {subject target : Int} :
    target ∈ edges.targets subject ↔ (⟨subject, target⟩ : Edge) ∈ edges := by
  simp only [targets, List.mem_map, List.mem_filter, Std.ExtTreeSet.mem_toList, decide_eq_true_eq]
  constructor
  · rintro ⟨⟨s, t⟩, ⟨he, rfl⟩, rfl⟩
    exact he
  · intro he
    exact ⟨⟨subject, target⟩, ⟨he, rfl⟩, rfl⟩

theorem mem_of_targetIds {edges : EdgeSet} {subject : Id} {ids : IdSet}
    (h : edges.targetIds subject = .ok ids) {id : Id} :
    id ∈ ids ↔ (⟨subject.stored, id.stored⟩ : Edge) ∈ edges := by
  obtain ⟨targets, htargets, heq⟩ := of_bind_eq_ok h
  cases heq
  simp only [IdSet.mem_ofList, mem_of_mapM_eq_ok htargets, Id.ofStored_eq_ok_iff, exists_eq_right,
    mem_targets]

theorem targetIds_spec {edges : EdgeSet} (h : edges.HoldsIds) (subject : Id) :
    ∃ ids, edges.targetIds subject = .ok ids ∧
      ∀ id : Id, id ∈ ids ↔ (⟨subject.stored, id.stored⟩ : Edge) ∈ edges := by
  have hcolumns : ∀ column ∈ edges.targets subject.stored, ∃ id : Id, column = id.stored := by
    intro column hcolumn
    obtain ⟨_, id, heq⟩ := h _ (mem_targets.1 hcolumn)
    exact ⟨id, (Edge.mk.inj heq).2⟩
  obtain ⟨ids, hids, hmem⟩ := mapM_ofStored_spec hcolumns
  refine ⟨IdSet.ofList ids, by rw [targetIds, hids]; rfl, fun id => ?_⟩
  rw [IdSet.mem_ofList, hmem, mem_targets]

end EdgeSet

namespace EquivalenceUpdate

/-- The targets of an assertion: nobody is asserted to be equivalent to itself. -/
def targets (u : EquivalenceUpdate) : List Id := u.equivalents.toList.filter (· ≠ u.subject)

theorem mem_targets {u : EquivalenceUpdate} {id : Id} :
    id ∈ u.targets ↔ id ∈ u.equivalents ∧ id ≠ u.subject := by
  simp [targets]

/-- The tables with an assertion that was made at the time `nanos`. -/
def store (u : EquivalenceUpdate) (nanos : Int) (c : Catalogue) : Catalogue :=
  { c with
    assertions := c.assertions.insert u.subject.stored ⟨u.source.key, nanos⟩
    edges := c.edges.replace u.subject u.targets }

theorem mem_affected {u : EquivalenceUpdate} {previous : IdSet} {id : Id} :
    id ∈ u.affected previous ↔ id = u.subject ∨ id ∈ previous ∨ id ∈ u.equivalents := by
  simp only [affected, Std.ExtTreeSet.mem_insert, Std.LawfulEqCmp.compare_eq_iff_eq,
    Std.ExtTreeSet.mem_insertMany_list, List.contains_iff_mem, Std.ExtTreeSet.mem_toList,
    eq_comm (a := u.subject)]

/-- All ids whose links change are affected. -/
theorem linked_store_iff {u : EquivalenceUpdate} {nanos : Int} {c : Catalogue} {previous : IdSet}
    (hprevious : c.edges.targetIds u.subject = .ok previous) {x y : Id}
    (hx : x ∉ u.affected previous) :
    c.edges.Linked x y ↔ (u.store nanos c).edges.Linked x y := by
  simp only [mem_affected, not_or, EdgeSet.mem_of_targetIds hprevious] at hx
  obtain ⟨hsubject, hold, hnew⟩ := hx
  have hstored : x.stored ≠ u.subject.stored := fun heq => hsubject (Id.stored_injective heq)
  -- Edges from `x` are not those of the subject; an edge from the subject to `x` is neither removed
  -- nor added.
  refine or_congr ?_ ?_
  · simp only [store, EdgeSet.mem_replace, Edge.mk.injEq, hstored, false_and, and_false,
      exists_const, false_or, ne_eq, not_false_eq_true, and_true]
  · simp only [store, EdgeSet.mem_replace, Edge.mk.injEq]
    constructor
    · intro he
      refine .inr ⟨he, fun hy => hold ?_⟩
      rwa [hy] at he
    · rintro (⟨target, htarget, _, heq⟩ | ⟨he, _⟩)
      · rw [← Id.stored_injective heq] at htarget
        exact absurd (mem_targets.1 htarget).1 hnew
      · exact he

theorem foldl_insert_eq (u : EquivalenceUpdate) (targets : List Id) (c : Catalogue) :
    targets.foldl
        (fun c target => { c with edges := c.edges.insert ⟨u.subject.stored, target.stored⟩ }) c =
      { c with
        edges := targets.foldl
          (fun edges target => edges.insert ⟨u.subject.stored, target.stored⟩) c.edges } := by
  induction targets generalizing c with
  | nil => rfl
  | cons target targets ih => simp only [List.foldl_cons, ih]

/-- What the write of an assertion does when it succeeds. -/
inductive Written (now : Instant) (u : EquivalenceUpdate) (c : Catalogue) :
    Option IdSet → Catalogue → Prop
  /-- The assertion is stored, and all ids that it affects are requested. -/
  | applied {nanos t : Int} {previous : IdSet} (hnanos : u.timestamp.nanos? = some nanos)
    (hnewer : c.assertions.IsNewer AssertionRow.lastUpdated u.subject.stored ⟨u.source.key, nanos⟩)
    (hprevious : c.edges.targetIds u.subject = .ok previous) (ht : now.nanos? = some t) :
    Written now u c (some previous) ((u.store nanos c).requested t (u.affected previous))
  /-- The stored assertion is at least as new. -/
  | stale {nanos : Int} (hnanos : u.timestamp.nanos? = some nanos)
    (hstale : ¬ c.assertions.IsNewer AssertionRow.lastUpdated u.subject.stored
      ⟨u.source.key, nanos⟩) :
    Written now u c none c

/-- The faults of the write of an assertion: those of all writes, or a target that is no id. -/
inductive AssertionFault (now : Instant) (u : EquivalenceUpdate) (c : Catalogue) : Fault → Prop
  /-- A statement does not work, or a time cannot be stored. -/
  | write {fault : Fault} (h : WriteFault [u.timestamp, now] fault) : AssertionFault now u c fault
  /-- The column of a target holds no id. -/
  | target {fault : Fault} (h : c.edges.targetIds u.subject = .error fault) :
    AssertionFault now u c fault

theorem ends_write (now : Instant) (u : EquivalenceUpdate) (c : Catalogue) :
    Ends (u.write now) c (Written now u c) (AssertionFault now u c) := by
  have hbroken : AssertionFault now u c .brokenStatement := .write .broken
  unfold write
  refine ends_lift_bind (fun fault h => .write (.of_storable (by simp) h)) fun nanos h => ?_
  have hnanos := storable_eq_ok h
  refine ends_update_bind hbroken (ends_statement_bind hbroken ?_)
  by_cases hnewer :
    c.assertions.IsNewer AssertionRow.lastUpdated u.subject.stored ⟨u.source.key, nanos⟩
  · simp only [id_eq, Table.insertNewer_of_isNewer hnewer]
    refine ends_statement_bind hbroken ?_
    refine ends_lift_bind (fun fault h => .target h) fun previous hprevious => ?_
    refine ends_update_bind hbroken (ends_bind (ends_forM hbroken) fun _ c' hc => ?_)
    refine ends_bind (ends_requestAll hbroken fun hnow => .write (.unstorable (by simp) hnow))
      fun _ c'' hc' => ?_
    obtain ⟨t, ht, rfl⟩ := hc'
    refine ends_update_bind hbroken (ends_pure ?_)
    rw [hc, foldl_insert_eq]
    exact .applied hnanos hnewer hprevious ht
  · simp only [id_eq, Table.insertNewer_of_not_isNewer hnewer]
    exact ends_update_bind hbroken (ends_pure (.stale hnanos hnewer))

end EquivalenceUpdate

end MediaCatalogue
