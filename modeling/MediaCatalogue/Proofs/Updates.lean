import MediaCatalogue.Ingest.Apply
import MediaCatalogue.Proofs.Accesses
import MediaCatalogue.Proofs.Writes

/-!
# What applying an update does

`EntityUpdate.Written` lists what the writers on the tables can do with an update of any type:
`Writers.apply_stored` says that applying it either does one of these things, or fails with an
`EntityUpdate.ApplyFault` and leaves the tables as they were.

The ids that an outcome names and the requests that the write leaves are computed apart from each
other. **Main theorem** (`Writers.requests_of_apply`): they are the same ids, namely those whose
equivalence sets the update can change (`EntityUpdate.Affects`), and each of them has one more
request afterwards; an update that is not applied changes no request.
-/

namespace MediaCatalogue

/-- The outcome of a write of a record or an assertion that may have touched some ids. -/
def Outcome.ofTouched : Option IdSet → Outcome
  | some ids => .applied ids
  | none => .stale

namespace EntityUpdate

/-- What applying an update does when it succeeds. -/
inductive Written (now : Instant) (c : Catalogue) : EntityUpdate → Outcome → Catalogue → Prop
  /-- A record is written. -/
  | content {record : Content} {applied : Bool} {c' : Catalogue}
    (h : record.Written now c applied c') :
    Written now c (.content record)
      (if applied then .applied (IdSet.ofList [record.id]) else .stale) c'
  /-- A tag is written. -/
  | topic {tag : Topic} {applied : Bool} {c' : Catalogue} (h : tag.Written c applied c') :
    Written now c (.topic tag) (if applied then .applied ∅ else .stale) c'
  /-- An assertion is written. -/
  | equivalence {u : EquivalenceUpdate} {previous : Option IdSet} {c' : Catalogue}
    (h : u.Written now c previous c') :
    Written now c (.equivalence u) (.ofTouched (previous.map u.affected)) c'

/-- The times that are stored with an update. A tag leaves no request, so it needs no clock. -/
def timesStored (now : Instant) : EntityUpdate → List Instant
  | content record => [record.lastUpdated, now]
  | topic tag => [tag.lastUpdated]
  | equivalence u => [u.timestamp, now]

theorem eq_of_mem_timesStored {now t : Instant} {update : EntityUpdate}
    (h : t ∈ update.timesStored now) :
    t = update.timestamp ∨ t = now ∧ update.entityType ≠ .topic := by
  cases update with
  | content record =>
    rcases List.mem_cons.1 h with rfl | h
    · exact .inl rfl
    · exact .inr ⟨List.mem_singleton.1 h, nofun⟩
  | topic tag => exact .inl (List.mem_singleton.1 h)
  | equivalence u =>
    rcases List.mem_cons.1 h with rfl | h
    · exact .inl rfl
    · exact .inr ⟨List.mem_singleton.1 h, nofun⟩

/-- The faults of applying an update. -/
inductive ApplyFault (now : Instant) (c : Catalogue) (update : EntityUpdate) : Fault → Prop
  /-- A statement does not work, or a time cannot be stored. -/
  | write {fault : Fault} (h : WriteFault (update.timesStored now) fault) :
    ApplyFault now c update fault
  /-- The column of an earlier target holds no id. -/
  | target {fault : Fault} (h : c.edges.targetIds update.entityId = .error fault) :
    ApplyFault now c update fault

/-- Storing the update can change the equivalence set of the id. An assertion affects its subject
and all ids that were, or now are, asserted to be equivalent to it. -/
def Affects (c : Catalogue) : EntityUpdate → Id → Prop
  | content record, id => id = record.id
  | topic _, _ => False
  | equivalence u, id =>
    (⟨u.subject.stored, id.stored⟩ : Edge) ∈ c.edges ∨ id ∈ u.equivalents ∨ id = u.subject

end EntityUpdate

namespace Writers

/-! ### Running the writers -/

section

variable {σ : Type} (writers : Writers σ) (s : σ)

theorem run_apply_content (record : Content) :
    (writers.apply (.content record)).run s =
      (((writers.content record).run s).1.map fun applied =>
        if applied then .applied (IdSet.ofList [record.id]) else .stale,
        ((writers.content record).run s).2) :=
  run_bind_pure _

theorem run_apply_topic (tag : Topic) :
    (writers.apply (.topic tag)).run s =
      (((writers.topic tag).run s).1.map fun applied => if applied then .applied ∅ else .stale,
        ((writers.topic tag).run s).2) :=
  run_bind_pure _

theorem run_apply_equivalence (u : EquivalenceUpdate) :
    (writers.apply (.equivalence u)).run s =
      (((writers.equivalence u).run s).1.map fun previous => .ofTouched (previous.map u.affected),
        ((writers.equivalence u).run s).2) := by
  unfold apply
  cases h : (writers.equivalence u).run s with
  | mk result s' =>
    cases result with
    | error fault =>
      rw [run_bind_error h]
      rfl
    | ok previous =>
      rw [run_bind_ok h]
      cases previous with
      | none => rfl
      | some ids => rfl

end

/-! ### The writers on the tables -/

section

variable {now : Instant} {working : Option Nat} {c : Catalogue}

theorem run_access {α : Type} (call : Statements α) :
    (access working call).run c = call.perform working c :=
  rfl

theorem run_stored_content (record : Content) :
    ((stored now working).content record).run c = (record.write now).perform working c := by
  rw [stored, run_access]

theorem run_stored_topic (tag : Topic) :
    ((stored now working).topic tag).run c = tag.write.perform working c := by
  rw [stored, run_access]

theorem run_stored_equivalence (u : EquivalenceUpdate) :
    ((stored now working).equivalence u).run c = (u.write now).perform working c := by
  rw [stored, run_access]

end

/-- **Applying an update** either does what the write call of its type does, or fails and leaves the
tables as they were. -/
theorem apply_stored (now : Instant) (working : Option Nat) (update : EntityUpdate)
    (c : Catalogue) :
    (∃ outcome, (((stored now working).apply update).run c).1 = .ok outcome ∧
        update.Written now c outcome (((stored now working).apply update).run c).2) ∨
      ∃ fault, (((stored now working).apply update).run c).1 = .error fault ∧
        update.ApplyFault now c fault ∧ (((stored now working).apply update).run c).2 = c := by
  cases update with
  | content record =>
    rw [run_apply_content, run_stored_content]
    rcases (record.ends_write now c).perform working with ⟨a, ha, h⟩ | ⟨fault, hfault, h, hc⟩
    · exact .inl ⟨_, by rw [ha]; rfl, .content h⟩
    · exact .inr ⟨fault, by rw [hfault]; rfl, .write h, hc⟩
  | topic tag =>
    rw [run_apply_topic, run_stored_topic]
    rcases (tag.ends_write c).perform working with ⟨a, ha, h⟩ | ⟨fault, hfault, h, hc⟩
    · exact .inl ⟨_, by rw [ha]; rfl, .topic h⟩
    · exact .inr ⟨fault, by rw [hfault]; rfl, .write h, hc⟩
  | equivalence u =>
    rw [run_apply_equivalence, run_stored_equivalence]
    rcases (u.ends_write now c).perform working with ⟨a, ha, h⟩ | ⟨fault, hfault, h, hc⟩
    · exact .inl ⟨_, by rw [ha]; rfl, .equivalence h⟩
    · refine .inr ⟨fault, by rw [hfault]; rfl, ?_, hc⟩
      cases h with
      | write h => exact .write h
      | target h => exact .target h

/-! ### Requests -/

theorem mem_affected_iff_affects {u : EquivalenceUpdate} {c : Catalogue} {previous : IdSet}
    (hprevious : c.edges.targetIds u.subject = .ok previous) (id : Id) :
    id ∈ u.affected previous ↔ (EntityUpdate.equivalence u).Affects c id := by
  rw [EquivalenceUpdate.mem_affected, EdgeSet.mem_of_targetIds hprevious, EntityUpdate.Affects]
  grind

/-- What an update that is written says about requests is what became of them. -/
theorem requests_of_written {now : Instant} {update : EntityUpdate} {c c' : Catalogue}
    {outcome : Outcome} (h : update.Written now c outcome c') :
    match outcome with
    | .applied refresh =>
      (∀ id, id ∈ refresh ↔ update.Affects c id) ∧ c.RequestedFor now refresh c'
    | .stale => c'.pending = c.pending := by
  cases h with
  | @content record _ _ h =>
    cases h with
    | applied _ _ ht =>
      exact ⟨fun id => by simp [EntityUpdate.Affects],
        Catalogue.requestedFor_requested (c := record.store _ c) ht rfl⟩
    | stale => rfl
  | @topic tag _ _ h =>
    cases h with
    | applied =>
      exact ⟨fun id => by simp [EntityUpdate.Affects], by simp, by simp, fun _ _ => rfl⟩
    | stale => rfl
  | @equivalence u _ _ h =>
    cases h with
    | applied _ _ hprevious ht =>
      exact ⟨mem_affected_iff_affects hprevious,
        Catalogue.requestedFor_requested (c := u.store _ c) ht rfl⟩
    | stale => rfl

/-- **Outcomes and requests agree.** When an update is applied, the outcome names the ids that it
affects, and these are the ids with one more request; when it comes too late, or fails, no request
changes. -/
theorem requests_of_apply (now : Instant) (working : Option Nat) (update : EntityUpdate)
    (c : Catalogue) :
    match ((stored now working).apply update).run c with
    | (.ok (.applied refresh), c') =>
      (∀ id, id ∈ refresh ↔ update.Affects c id) ∧ c.RequestedFor now refresh c'
    | (_, c') => c'.pending = c.pending := by
  have happly := apply_stored now working update c
  generalize ((stored now working).apply update).run c = result at happly ⊢
  obtain ⟨outcome, c'⟩ := result
  rcases happly with ⟨outcome, rfl, hwritten⟩ | ⟨fault, rfl, _, rfl⟩
  · have hrequests := requests_of_written hwritten
    cases outcome with
    | applied refresh => exact hrequests
    | stale => exact hrequests
  · rfl

end Writers

end MediaCatalogue
