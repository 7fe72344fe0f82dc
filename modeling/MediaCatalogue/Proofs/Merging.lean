import MediaCatalogue.Deployment.Reading
import MediaCatalogue.Proofs.Accesses
import MediaCatalogue.Proofs.Records

/-!
# What queries answer

* `mem_candidates`, `merge_eq_some` and `exists_merge_eq_some` : which records of a set take part,
  and what they are merged into;
* `Services.run_mergeIds`, `Services.of_run_mergeIds` and `Services.run_mergeIds_congr` : what the
  answers for some ids are, and on which calls of the services they depend.
-/

namespace MediaCatalogue

/-! ### Merging one set -/

section

variable {sources : Sources} {retain : Bool} {records : IdMap Content} {requested : Id}
  {set : IdSet}

theorem mem_candidates {candidate : Candidate} :
    candidate ∈ candidates sources records set ↔
      ∃ id ∈ set, records[id]? = some candidate.record ∧
        sources.rank? candidate.record.publisher = some candidate.rank := by
  obtain ⟨rank, record⟩ := candidate
  simp only [candidates, List.mem_filterMap, Std.ExtTreeSet.mem_toList, Option.bind_eq_bind,
    Option.bind_eq_some_iff, Option.pure_def, Option.some.injEq, Candidate.mk.injEq]
  grind

theorem merge_eq_some {m : Merged} (h : merge sources retain records requested set = some m) :
    m.id = requested ∧ m.equivalentIds = set ∧
      ∀ record, record = m.primary ∨ record ∈ m.equivalents →
        sources.isEnabled record.publisher = true ∧ ∃ id ∈ set, records[id]? = some record := by
  have hmem : ∀ candidate,
      candidate ∈ (candidates sources records set).mergeSort (Candidate.preferred requested) ↔
        candidate ∈ candidates sources records set :=
    fun _ => List.mem_mergeSort
  unfold merge at h
  split at h
  · cases h
  · rename_i first others hsorted
    rw [hsorted] at hmem
    cases h
    refine ⟨rfl, rfl, fun record hrecord => ?_⟩
    -- The primary record is that of the first candidate, the equivalents are those of the others.
    obtain ⟨candidate, hcandidate, rfl⟩ : ∃ candidate ∈ first :: others,
        candidate.record = record := by
      rcases hrecord with rfl | hrecord
      · exact ⟨first, List.mem_cons_self, rfl⟩
      · cases retain with
        | false => cases hrecord
        | true =>
          obtain ⟨candidate, hcandidate, rfl⟩ := List.mem_map.1 hrecord
          exact ⟨candidate, List.mem_cons_of_mem _ hcandidate, rfl⟩
    obtain ⟨id, hid, hget, hrank⟩ := mem_candidates.1 ((hmem candidate).1 hcandidate)
    exact ⟨by rw [Sources.isEnabled, hrank]; rfl, id, hid, hget⟩

theorem exists_merge_eq_some {id : Id} {record : Content} (hid : id ∈ set)
    (hget : records[id]? = some record) (henabled : sources.isEnabled record.publisher = true) :
    ∃ m, merge sources retain records requested set = some m := by
  obtain ⟨rank, hrank⟩ := Option.isSome_iff_exists.1 henabled
  have hmem : ⟨rank, record⟩ ∈
      (candidates sources records set).mergeSort (Candidate.preferred requested) :=
    List.mem_mergeSort.2 (mem_candidates.2 ⟨id, hid, hget, hrank⟩)
  unfold merge
  split
  · rename_i hnil
    rw [hnil] at hmem
    cases hmem
  · exact ⟨_, rfl⟩

end

/-! ### Answers for some ids -/

/-- The ids of all members of some sets. -/
def wantedIds (sets : IdMap IdSet) : IdSet :=
  IdSet.ofList (sets.toList.flatMap fun (_, members) => members.toList)

theorem mem_wantedIds {sets : IdMap IdSet} {x : Id} :
    x ∈ wantedIds sets ↔ ∃ (id : Id) (members : IdSet), sets[id]? = some members ∧ x ∈ members := by
  simp [wantedIds, Std.ExtTreeMap.mem_toList_iff_getElem?_eq_some]

/-- The merged records of some sets. -/
def mergeSets (context : QueryContext) (records : IdMap Content) (sets : IdMap IdSet) :
    List Merged :=
  sets.toList.filterMap fun (id, members) =>
    merge context.sources context.details.retainsAll records id members

theorem mem_mergeSets {context : QueryContext} {records : IdMap Content} {sets : IdMap IdSet}
    {m : Merged} : m ∈ mergeSets context records sets ↔
      ∃ (id : Id) (members : IdSet), sets[id]? = some members ∧
        merge context.sources context.details.retainsAll records id members = some m := by
  simp [mergeSets, Std.ExtTreeMap.mem_toList_iff_getElem?_eq_some]

namespace Services

variable {σ : Type} {services : Services σ} {context : QueryContext} {ids : IdSet}
  {sets : IdMap IdSet} {s s' s'' : σ}

theorem run_step {α : Type} (call : Call σ α) :
    call.step.run s = ((call.run s).1.mapError Interruption.stop, (call.run s).2) :=
  run_adapt _

theorem run_step_ok {α : Type} {call : Call σ α} {a : α} (h : call.run s = (.ok a, s')) :
    call.step.run s = (.ok a, s') := by
  rw [run_step, h]
  rfl

theorem run_step_congr {α : Type} {call call' : Call σ α} (h : call.run s = call'.run s) :
    call.step.run s = call'.step.run s := by
  rw [run_step, run_step, h]

theorem of_run_step {α : Type} {call : Call σ α} {a : α} (h : call.step.run s = (.ok a, s')) :
    call.run s = (.ok a, s') := by
  rw [run_step] at h
  cases hcall : call.run s with
  | mk result s₁ =>
    rw [hcall] at h
    cases result with
    | error e => cases h
    | ok a' =>
      cases h
      rfl

theorem run_mergeIds (hids : (ids.isEmpty || context.sources.isEmpty) = false)
    (hlookup : (services.lookup ids context.sources.enabled).run s = (.ok sets, s'))
    (hsets : sets.isEmpty = false) {r : Resolved Content}
    (hresolve : (services.resolve (wantedIds sets)).run s' = (.ok r, s'')) :
    (services.mergeIds ids context).run s =
      (.ok (.of ids (mergeSets context (recordsById r) sets)), s'') := by
  unfold mergeIds
  rw [hids]
  refine (run_bind_ok (run_step_ok hlookup)).trans ?_
  rw [hsets]
  exact run_bind_ok (run_step_ok hresolve)

/-- An answer has nothing, or merges records that were read for the sets that were found. -/
theorem of_run_mergeIds {answer : Resolved Merged}
    (h : (services.mergeIds ids context).run s = (.ok answer, s'')) :
    answer = .none ids ∨ ∃ sets r s', (services.lookup ids context.sources.enabled).run s =
        (.ok sets, s') ∧ (services.resolve (wantedIds sets)).run s' = (.ok r, s'') ∧
      answer = .of ids (mergeSets context (recordsById r) sets) := by
  unfold mergeIds at h
  split at h
  · cases h
    exact .inl rfl
  · obtain ⟨sets, s', hlookup, h⟩ := of_run_bind h
    split at h
    · cases h
      exact .inl rfl
    · obtain ⟨r, s₁, hresolve, h⟩ := of_run_bind h
      cases h
      exact .inr ⟨sets, r, s', of_run_step hlookup, of_run_step hresolve, rfl⟩

theorem run_answer_single {id : Id} {merged : Resolved Merged} {m : Merged}
    (h : (services.mergeIds (IdSet.ofList [id]) context).run s = (.ok merged, s'))
    (hm : m ∈ merged.resources) :
    (services.answer (.single id) context).run s = (.ok merged, s') := by
  have hsome : merged.isEmpty = false := by
    simp [Resolved.isEmpty, List.ne_nil_of_mem hm]
  unfold answer
  rw [run_bind_ok h, hsome]
  rfl

/-- Answers depend on the sets that are found and on the records of their members. -/
theorem run_mergeIds_congr {services' : Services σ}
    (hlookup : (services.lookup ids context.sources.enabled).run s =
      (services'.lookup ids context.sources.enabled).run s)
    (hresolve : ∀ sets s', (services.lookup ids context.sources.enabled).run s = (.ok sets, s') →
      (services.resolve (wantedIds sets)).run s' = (services'.resolve (wantedIds sets)).run s') :
    (services.mergeIds ids context).run s = (services'.mergeIds ids context).run s := by
  unfold mergeIds
  split
  · rfl
  · refine run_bind_congr (run_step_congr hlookup) fun sets s' hsets => ?_
    have hwanted := hresolve sets s' (of_run_step hsets)
    split
    · rfl
    · exact run_bind_congr (run_step_congr hwanted) fun _ _ _ => rfl

end Services

/-! ### Calls and outcomes -/

namespace Deployment

theorem run_outcome {σ α : Type} (result : Except Fault α) (s : σ) :
    (outcome result : Call σ α).run s = (result.mapError .fault, s) := by
  cases result <;> rfl

variable (d : Deployment) (titles : Option (TitleQuery → Call Tally (List Id))) (t : Tally)

theorem run_services_lookup (ids : IdSet) (enabled : PublisherSet) :
    ((d.services .tables titles).lookup ids enabled).run t =
      ((d.lookup ids enabled).mapError .fault, { t with indexLookups := t.indexLookups + 1 }) :=
  run_outcome _ _

theorem run_services_resolve (ids : IdSet) :
    ((d.services .tables titles).resolve ids).run t =
      ((d.resolve ids).mapError .fault, { t with storageReads := t.storageReads + 1 }) :=
  run_outcome _ _

variable {d titles t} {t' : Tally}

theorem of_run_services_lookup {ids : IdSet} {enabled : PublisherSet} {sets : IdMap IdSet}
    (h : ((d.services .tables titles).lookup ids enabled).run t = (.ok sets, t')) :
    d.lookup ids enabled = .ok sets := by
  rw [run_services_lookup] at h
  exact mapError_eq_ok_iff.1 (congrArg Prod.fst h)

theorem of_run_services_resolve {ids : IdSet} {r : Resolved Content}
    (h : ((d.services .tables titles).resolve ids).run t = (.ok r, t')) :
    d.resolve ids = .ok r := by
  rw [run_services_resolve] at h
  exact mapError_eq_ok_iff.1 (congrArg Prod.fst h)

end Deployment

/-- The outcome of a query is the answer, without the details of what failed. -/
theorem Executor.run_execute {σ : Type} (executor : Executor σ) (query : Query)
    (context : QueryContext) (s : σ) :
    (executor.execute query context).run s =
      (((executor.services.answer query context).run s).1.mapError fun stop =>
        (stop.error executor.limit).hideWith .unresolved,
        ((executor.services.answer query context).run s).2) :=
  rfl

end MediaCatalogue
