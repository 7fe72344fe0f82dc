import MediaCatalogue.Proofs.Members

/-!
# Answers do not depend on what else is asked for

The ids of one query share a lookup and a call that reads records. The tables may hold anything,
and some of it may be out of order.

**Main theorem** (`Deployment.batch_independence`): a query for some ids has an answer iff the query
for each of them alone has one, and then its resources are those of these answers. So the resources
and the missing ids of a union are the unions of those of its parts, and a query for a single id has
the same outcome as a page with this id.

`Deployment.Readable` says when an id has an answer, and `Deployment.mergedFor` is the resource in
it; neither mentions other ids.
-/

namespace MediaCatalogue

theorem Sources.isEmpty_enabled (sources : Sources) :
    sources.enabled.isEmpty = sources.isEmpty := by
  rw [Bool.eq_iff_iff, Std.ExtTreeSet.isEmpty_iff, isEmpty, List.isEmpty_iff]
  constructor
  · intro h
    refine List.eq_nil_iff_forall_not_mem.2 fun p hp => ?_
    have hmem := Sources.mem_enabled.2 hp
    rw [h] at hmem
    exact Std.ExtTreeSet.not_mem_empty hmem
  · intro h
    refine Std.ExtTreeSet.ext_mem fun p => ?_
    rw [Sources.mem_enabled, h]
    simp

/-! ### Merging one set -/

section

variable {sources : Sources} {retain : Bool} {records records' : IdMap Content} {requested : Id}
  {set : IdSet}

theorem candidates_congr (h : ∀ x ∈ set, records[x]? = records'[x]?) :
    candidates sources records set = candidates sources records' set :=
  List.filterMap_congr fun x hx => by rw [h x (Std.ExtTreeSet.mem_toList.1 hx)]

theorem merge_congr (h : ∀ x ∈ set, records[x]? = records'[x]?) :
    merge sources retain records requested set = merge sources retain records' requested set := by
  rw [merge, merge, candidates_congr h]

theorem merge_of_no_member (h : ∀ x, x ∉ set) :
    merge sources retain records requested set = none := by
  have hlist : set.toList = [] :=
    List.eq_nil_iff_forall_not_mem.2 fun x hx => h x (Std.ExtTreeSet.mem_toList.1 hx)
  rw [merge, candidates, hlist, List.filterMap_nil, List.mergeSort_nil]

end

theorem exists_mem_of_isEmpty {ids : IdSet} (h : ids.isEmpty = false) : ∃ id, id ∈ ids := by
  by_contra hnone
  rw [← Bool.not_eq_true, Std.ExtTreeSet.isEmpty_iff] at h
  refine h (Std.ExtTreeSet.ext_mem fun id => iff_of_false (fun hid => hnone ⟨id, hid⟩) ?_)
  exact Std.ExtTreeSet.not_mem_empty

namespace Deployment

/-! ### Answers from the tables -/

/-- What is merged for some ids. -/
def merged (d : Deployment) (context : QueryContext) (ids : IdSet) :
    Except Fault (Resolved Merged) :=
  if ids.isEmpty || context.sources.isEmpty then .ok (.none ids)
  else do
    let sets ← d.lookup ids context.sources.enabled
    if sets.isEmpty then return .none ids
    let records := recordsById (← d.resolve (wantedIds sets))
    return .of ids (mergeSets context records sets)

variable {d : Deployment} {context : QueryContext} {ids : IdSet}
  {titles : Option (TitleQuery → Call Tally (List Id))} {t : Tally}

/-- Answers depend on the tables alone, and not on the calls that were counted before. -/
theorem run_mergeIds_fst : (((d.services .tables titles).mergeIds ids context).run t).1 =
    (d.merged context ids).mapError fun cause => .failed (.fault cause) := by
  have hlookup : ∀ t, ((d.services .tables titles).lookup ids context.sources.enabled).step.run t =
      ((d.lookup ids context.sources.enabled).mapError fun cause => .failed (.fault cause),
        { t with indexLookups := t.indexLookups + 1 }) := by
    intro t
    rw [Services.run_step, run_services_lookup]
    cases d.lookup ids context.sources.enabled <;> rfl
  have hresolve : ∀ t wanted, ((d.services .tables titles).resolve wanted).step.run t =
      ((d.resolve wanted).mapError fun cause => .failed (.fault cause),
        { t with storageReads := t.storageReads + 1 }) := by
    intro t wanted
    rw [Services.run_step, run_services_resolve]
    cases d.resolve wanted <;> rfl
  unfold Services.mergeIds merged
  split
  · rfl
  cases hsets : d.lookup ids context.sources.enabled with
  | error cause =>
    rw [hsets] at hlookup
    exact congrArg Prod.fst (run_bind_error (hlookup t))
  | ok sets =>
    rw [hsets] at hlookup
    refine (congrArg Prod.fst (run_bind_ok (hlookup t))).trans ?_
    simp only [bind, Except.bind]
    split
    · rfl
    have hmerge := run_bind_pure (x := ((d.services .tables titles).resolve (wantedIds sets)).step)
      (s := { t with indexLookups := t.indexLookups + 1 })
      fun r => Resolved.of ids (mergeSets context (recordsById r) sets)
    rw [hresolve] at hmerge
    refine (congrArg Prod.fst hmerge).trans ?_
    cases d.resolve (wantedIds sets) <;> rfl

/-! ### The answer for one id -/

theorem lookup_of_isOpen (h : d.isOpen = true) (enabled : PublisherSet) :
    d.lookup ids enabled = MediaCatalogue.lookup (.still d.catalogue) ids enabled := by
  rw [lookup, snapshots, if_pos h]

theorem resolve_of_isOpen (h : d.isOpen = true) (hcontent : d.outages.content = false) :
    d.resolve ids = resolveContent d.registry (.still d.catalogue) ids := by
  rw [resolve, snapshots, hcontent, if_pos h]
  rfl

theorem online_of_resolve {r : Resolved Content} (h : d.resolve ids = .ok r) :
    d.outages.content = false := by
  unfold resolve at h
  split at h
  · cases h
  · rename_i hcontent
    exact Bool.not_eq_true _ ▸ hcontent

/-- A closed database is noticed by every lookup that has something to look up. -/
theorem isOpen_of_lookup {sets : IdMap IdSet} {enabled : PublisherSet} (hids : ids.isEmpty = false)
    (henabled : enabled.isEmpty = false) (h : d.lookup ids enabled = .ok sets) :
    d.isOpen = true := by
  by_contra hopen
  obtain ⟨x, xs, hlist⟩ : ∃ x xs, ids.toList = x :: xs := by
    refine List.exists_cons_of_ne_nil fun hnil => ?_
    rw [← Std.ExtTreeSet.isEmpty_toList, hnil] at hids
    cases hids
  rw [lookup, snapshots, if_neg hopen, MediaCatalogue.lookup, hids, henabled, readLabels, hlist,
    batches] at h
  cases h

/-- The set of an id and the records of its members can be read. -/
def Readable (d : Deployment) (context : QueryContext) (id : Id) : Prop :=
  context.sources.isEmpty = true ∨
    (d.isOpen = true ∧ d.catalogue.Legible context.sources.enabled id ∧
      ∀ x ∈ d.catalogue.setOf context.sources.enabled id, d.outages.content = false ∧
        ∃ found, d.catalogue.content? d.registry x = .ok found)

/-- The records of the set of an id, merged. -/
def mergedFor (d : Deployment) (context : QueryContext) (id : Id) : Option Merged :=
  merge context.sources context.details.retainsAll (d.catalogue.records d.registry) id
    (d.catalogue.setOf context.sources.enabled id)

theorem id_of_mergedFor {id : Id} {m : Merged} (h : d.mergedFor context id = some m) : m.id = id :=
  (merge_eq_some h).1

theorem exists_mem_of_mergedFor {id : Id} {m : Merged} (h : d.mergedFor context id = some m) :
    ∃ x, x ∈ d.catalogue.setOf context.sources.enabled id := by
  by_contra hnone
  rw [mergedFor, merge_of_no_member (not_exists.1 hnone)] at h
  cases h

theorem readable_of_merged {answer : Resolved Merged} (h : d.merged context ids = .ok answer)
    {id : Id} (hid : id ∈ ids) : d.Readable context id := by
  unfold merged at h
  split at h
  · rename_i hnone
    rcases Bool.or_eq_true_iff.1 hnone with hids | hsources
    · rw [Std.ExtTreeSet.isEmpty_iff] at hids
      subst hids
      exact absurd hid Std.ExtTreeSet.not_mem_empty
    · exact .inl hsources
  · rename_i hsome
    rw [Bool.not_eq_true, Bool.or_eq_false_iff, ← Sources.isEmpty_enabled] at hsome
    obtain ⟨sets, hsets, h⟩ := of_bind_eq_ok h
    have hopen := isOpen_of_lookup hsome.1 hsome.2 hsets
    rw [lookup_of_isOpen hopen] at hsets
    have hlegible := (Catalogue.exists_lookup_eq_ok_iff.1 ⟨_, hsets⟩).resolve_left
      (by rw [hsome.2]; exact Bool.false_ne_true)
    refine .inr ⟨hopen, hlegible id hid, fun x hx => ?_⟩
    -- A set with a member has an entry, so that records are read.
    have hget := (Catalogue.getElem?_of_lookup hsets).2 ⟨hid, rfl, x, hx⟩
    rw [isEmpty_of_getElem?_eq_some hget] at h
    obtain ⟨r, hr, _⟩ := of_bind_eq_ok h
    have hcontent := online_of_resolve hr
    rw [resolve_of_isOpen hopen hcontent] at hr
    exact ⟨hcontent, Catalogue.exists_resolveContent_eq_ok_iff.1 ⟨r, hr⟩ x
      (mem_wantedIds.2 ⟨id, _, hget, hx⟩)⟩

theorem exists_merged_eq_ok (h : ∀ id ∈ ids, d.Readable context id) :
    ∃ answer, d.merged context ids = .ok answer := by
  unfold merged
  split
  · exact ⟨_, rfl⟩
  · rename_i hsome
    rw [Bool.not_eq_true, Bool.or_eq_false_iff] at hsome
    have hreadable : ∀ id ∈ ids, d.isOpen = true ∧
        d.catalogue.Legible context.sources.enabled id ∧
          ∀ x ∈ d.catalogue.setOf context.sources.enabled id, d.outages.content = false ∧
            ∃ found, d.catalogue.content? d.registry x = .ok found :=
      fun id hid => (h id hid).resolve_left (by rw [hsome.2]; exact Bool.false_ne_true)
    obtain ⟨id, hid⟩ := exists_mem_of_isEmpty hsome.1
    have hopen := (hreadable id hid).1
    obtain ⟨sets, hsets⟩ := Catalogue.exists_lookup_eq_ok_iff.2 <| .inr fun id hid =>
      (hreadable id hid).2.1
    have hmember : ∀ x ∈ wantedIds sets, d.outages.content = false ∧
        ∃ found, d.catalogue.content? d.registry x = .ok found := by
      intro x hx
      obtain ⟨id, members, hget, hx⟩ := mem_wantedIds.1 hx
      obtain ⟨hid, rfl, _⟩ := (Catalogue.getElem?_of_lookup hsets).1 hget
      exact (hreadable id hid).2.2 x hx
    rw [lookup_of_isOpen hopen, hsets]
    simp only [bind, Except.bind]
    -- Records are read only if there is a set; then one of its members tells that they can be read.
    cases hempty : sets.isEmpty with
    | true => exact ⟨_, rfl⟩
    | false =>
      obtain ⟨id, members, hget⟩ := exists_getElem?_eq_some hempty
      obtain ⟨hid, _, x, hx⟩ := (Catalogue.getElem?_of_lookup hsets).1 hget
      have hcontent := (hmember x (mem_wantedIds.2 ⟨id, members, hget, hx⟩)).1
      obtain ⟨r, hr⟩ := Catalogue.exists_resolveContent_eq_ok_iff.2 fun x hx => (hmember x hx).2
      rw [resolve_of_isOpen hopen hcontent, hr]
      exact ⟨_, rfl⟩

/-- **When there is an answer.** It needs what each of its ids needs, and nothing else. -/
theorem exists_merged_eq_ok_iff : (∃ answer, d.merged context ids = .ok answer) ↔
    ∀ id ∈ ids, d.Readable context id :=
  ⟨fun ⟨_, h⟩ _ hid => readable_of_merged h hid, exists_merged_eq_ok⟩

/-- The sets that were found and the records that were read for them are merged into the resources
of the ids that were asked for. -/
theorem mem_mergeSets_iff {sets : IdMap IdSet} {r : Resolved Content}
    (hsets : MediaCatalogue.lookup (.still d.catalogue) ids context.sources.enabled = .ok sets)
    (hr : resolveContent d.registry (.still d.catalogue) (wantedIds sets) = .ok r) {m : Merged} :
    m ∈ mergeSets context (recordsById r) sets ↔
      m.id ∈ ids ∧ d.mergedFor context m.id = some m := by
  have hentry : ∀ {id : Id} {members : IdSet}, sets[id]? = some members ↔ id ∈ ids ∧
      members = d.catalogue.setOf context.sources.enabled id ∧ ∃ x, x ∈ members :=
    Catalogue.getElem?_of_lookup hsets
  -- What was read for a set are all records of its members.
  have hmerge : ∀ {id : Id} {members : IdSet}, sets[id]? = some members →
      merge context.sources context.details.retainsAll (recordsById r) id members =
        d.mergedFor context id := by
    intro id members hget
    obtain ⟨_, rfl, _⟩ := hentry.1 hget
    refine merge_congr fun x hx => Option.ext fun record => ?_
    rw [Catalogue.getElem?_of_resolveContent hr]
    exact and_iff_right (mem_wantedIds.2 ⟨id, _, hget, hx⟩)
  rw [mem_mergeSets]
  constructor
  · rintro ⟨id, members, hget, hm⟩
    rw [hmerge hget] at hm
    cases id_of_mergedFor hm
    exact ⟨(hentry.1 hget).1, hm⟩
  · rintro ⟨hid, hm⟩
    have hget := hentry.2 ⟨hid, rfl, exists_mem_of_mergedFor hm⟩
    exact ⟨m.id, _, hget, (hmerge hget).trans hm⟩

/-- **What an answer has.** Its resources are the merged records of the ids that were asked for. -/
theorem mem_resources_of_merged {answer : Resolved Merged} (h : d.merged context ids = .ok answer)
    {m : Merged} :
    m ∈ answer.resources ↔ m.id ∈ ids ∧ d.mergedFor context m.id = some m := by
  unfold merged at h
  split at h
  · rename_i hnone
    cases h
    refine iff_of_false List.not_mem_nil ?_
    rintro ⟨hid, hm⟩
    obtain ⟨x, hx⟩ := exists_mem_of_mergedFor hm
    rcases Bool.or_eq_true_iff.1 hnone with hids | hsources
    · rw [Std.ExtTreeSet.isEmpty_iff] at hids
      subst hids
      exact Std.ExtTreeSet.not_mem_empty hid
    · rw [← Sources.isEmpty_enabled] at hsources
      exact Catalogue.setOf_of_isEmpty hsources hx
  rename_i hsome
  rw [Bool.not_eq_true, Bool.or_eq_false_iff, ← Sources.isEmpty_enabled] at hsome
  obtain ⟨sets, hsets, h⟩ := of_bind_eq_ok h
  have hopen := isOpen_of_lookup hsome.1 hsome.2 hsets
  rw [lookup_of_isOpen hopen] at hsets
  split at h
  · rename_i hempty
    cases h
    refine iff_of_false List.not_mem_nil ?_
    rintro ⟨hid, hm⟩
    -- An id with a result has members, so there would be a set.
    have hget := (Catalogue.getElem?_of_lookup hsets).2 ⟨hid, rfl, exists_mem_of_mergedFor hm⟩
    rw [isEmpty_of_getElem?_eq_some hget] at hempty
    cases hempty
  · obtain ⟨r, hr, h⟩ := of_bind_eq_ok h
    cases h
    rw [resolve_of_isOpen hopen (online_of_resolve hr)] at hr
    have hmem : ∀ {m : Merged}, m ∈ mergeSets context (recordsById r) sets ↔
        m.id ∈ ids ∧ d.mergedFor context m.id = some m := mem_mergeSets_iff hsets hr
    rw [Resolved.mem_resources_iff, hmem]
    · exact and_iff_left_of_imp And.left
    · intro a ha b hb heq
      have hsame := (hmem.1 ha).2
      rw [show a.id = b.id from heq, (hmem.1 hb).2] at hsame
      exact (Option.some.inj hsame).symm

theorem exists_eq_of_merged {answer : Resolved Merged} (h : d.merged context ids = .ok answer) :
    ∃ resources, answer = .of ids resources := by
  unfold merged at h
  split at h
  · cases h
    exact ⟨[], rfl⟩
  obtain ⟨sets, _, h⟩ := of_bind_eq_ok h
  split at h
  · cases h
    exact ⟨[], rfl⟩
  · obtain ⟨r, _, h⟩ := of_bind_eq_ok h
    cases h
    exact ⟨_, rfl⟩

theorem requested_of_merged {answer : Resolved Merged} (h : d.merged context ids = .ok answer) :
    answer.requested = ids := by
  obtain ⟨resources, rfl⟩ := exists_eq_of_merged h
  rfl

theorem nodup_of_merged {answer : Resolved Merged} (h : d.merged context ids = .ok answer) :
    (answer.resources.map Merged.id).Nodup := by
  obtain ⟨resources, rfl⟩ := exists_eq_of_merged h
  exact nodup_map_distinctFrom _ _ _

theorem mem_missing_of_merged {answer : Resolved Merged} (h : d.merged context ids = .ok answer)
    {id : Id} : id ∈ answer.missing ↔ id ∈ ids ∧ d.mergedFor context id = none := by
  rw [Resolved.mem_missing, requested_of_merged h]
  refine and_congr_right fun hid => ?_
  rw [Option.eq_none_iff_forall_ne_some]
  constructor
  · intro hnone m hm
    have hsame := id_of_mergedFor hm
    subst hsame
    exact hnone m ((mem_resources_of_merged h).2 ⟨hid, hm⟩) rfl
  · rintro hnone m hm rfl
    exact hnone m ((mem_resources_of_merged h).1 hm).2

/-! ### Queries for one id -/

theorem mem_ofList_singleton {x id : Id} : x ∈ IdSet.ofList [id] ↔ x = id := by
  rw [IdSet.mem_ofList, List.mem_singleton]

theorem resources_of_merged_singleton {id : Id} {answer : Resolved Merged}
    (h : d.merged context (IdSet.ofList [id]) = .ok answer) :
    answer.resources = (d.mergedFor context id).toList := by
  have hmem : ∀ m, m ∈ answer.resources ↔ d.mergedFor context id = some m := by
    intro m
    rw [mem_resources_of_merged h, mem_ofList_singleton]
    constructor
    · rintro ⟨rfl, hm⟩
      exact hm
    · intro hm
      have hsame := id_of_mergedFor hm
      exact ⟨hsame, hsame.symm ▸ hm⟩
  have hperm : answer.resources.Perm (d.mergedFor context id).toList := by
    rw [List.perm_ext_iff_of_nodup (nodup_of_merged h).of_map]
    · intro m
      rw [hmem, Option.mem_toList]
    · cases d.mergedFor context id <;> simp
  cases hm : d.mergedFor context id with
  | none =>
    rw [hm] at hperm
    exact List.perm_nil.1 hperm
  | some m =>
    rw [hm] at hperm
    exact List.perm_singleton.1 hperm

theorem run_answer_single_fst {id : Id} :
    (((d.services .tables titles).answer (.single id) context).run t).1 =
      match d.merged context (IdSet.ofList [id]) with
      | .error cause => .error (.failed (.fault cause))
      | .ok answer => if answer.isEmpty then .error (.notFound id) else .ok answer := by
  have hmerged : (((d.services .tables titles).mergeIds (IdSet.ofList [id]) context).run t).1 =
      (d.merged context (IdSet.ofList [id])).mapError fun cause => .failed (.fault cause) :=
    run_mergeIds_fst
  unfold Services.answer
  cases hrun : ((d.services .tables titles).mergeIds (IdSet.ofList [id]) context).run t with
  | mk outcome t' =>
    rw [hrun] at hmerged
    cases hanswer : d.merged context (IdSet.ofList [id]) with
    | error cause =>
      rw [hanswer] at hmerged
      cases hmerged
      rw [run_bind_error hrun]
    | ok answer =>
      rw [hanswer] at hmerged
      cases hmerged
      rw [run_bind_ok hrun]
      simp only
      cases answer.isEmpty <;> rfl

theorem run_execute_single_fst {id : Id} {limit : Duration} :
    ((Executor.execute ⟨d.services .tables titles, limit⟩ (.single id) context).run t).1 =
      match d.merged context (IdSet.ofList [id]) with
      | .error _ => .error (.failed .unresolved)
      | .ok answer => if answer.isEmpty then .error (.notFound id) else .ok answer := by
  rw [Executor.run_execute]
  simp only [run_answer_single_fst]
  cases d.merged context (IdSet.ofList [id]) with
  | error cause => rfl
  | ok answer =>
    simp only
    cases answer.isEmpty <;> rfl

theorem run_execute_multiple_fst {list : List Id} {selection : Selection} {limit : Duration} :
    ((Executor.execute ⟨d.services .tables titles, limit⟩ (.multiple list selection) context).run
        t).1 = (d.merged context (selection.selectIds list)).mapError
      fun _ => .failed .unresolved := by
  rw [Executor.run_execute]
  show (((d.services .tables titles).mergeIds _ context).run t).1.mapError _ = _
  rw [run_mergeIds_fst]
  cases d.merged context (selection.selectIds list) <;> rfl

theorem run_execute_multiple_eq_ok_iff {list : List Id} {selection : Selection} {limit : Duration}
    {answer : Resolved Merged} :
    ((Executor.execute ⟨d.services .tables titles, limit⟩ (.multiple list selection) context).run
        t).1 = .ok answer ↔ d.merged context (selection.selectIds list) = .ok answer := by
  rw [run_execute_multiple_fst]
  cases d.merged context (selection.selectIds list) <;> simp [Except.mapError]

/-! ### Main result -/

theorem run_mergeIds_eq_ok_iff {answer : Resolved Merged} :
    (((d.services .tables titles).mergeIds ids context).run t).1 = .ok answer ↔
      d.merged context ids = .ok answer := by
  rw [run_mergeIds_fst]
  cases d.merged context ids <;> simp [Except.mapError]

theorem exists_merged_singleton_iff {id : Id} :
    (∃ answer, d.merged context (IdSet.ofList [id]) = .ok answer) ↔ d.Readable context id := by
  rw [exists_merged_eq_ok_iff]
  simp only [mem_ofList_singleton, forall_eq]

theorem run_execute_single_of_readable {id : Id} {limit : Duration} (h : d.Readable context id) :
    ((Executor.execute ⟨d.services .tables titles, limit⟩ (.single id) context).run t).1 =
      match d.mergedFor context id with
      | none => .error (.notFound id)
      | some m => .ok ⟨IdSet.ofList [id], [m]⟩ := by
  obtain ⟨answer, hanswer⟩ := exists_merged_singleton_iff.2 h
  have hanswer' : answer = ⟨IdSet.ofList [id], (d.mergedFor context id).toList⟩ := by
    rw [← requested_of_merged hanswer, ← resources_of_merged_singleton hanswer]
  simp only [run_execute_single_fst, hanswer]
  rw [hanswer']
  cases d.mergedFor context id <;> rfl

theorem readable_of_holdsIds (hopen : d.isOpen = true) (hcontent : d.outages.content = false)
    (hsets : d.catalogue.sets.HoldsIds) (hrecords : d.catalogue.HoldsRecords) (id : Id) :
    d.Readable context id := by
  obtain ⟨pairs, hpairs, _⟩ := Catalogue.membersOf_spec context.sources.enabled hsets
    (d.catalogue.representative id)
  exact .inr ⟨hopen, ⟨_, pairs, Catalogue.labelOf_eq hsets id, hpairs⟩, fun x _ =>
    ⟨hcontent, Catalogue.exists_content?_eq_ok hrecords d.registry x⟩⟩

/-- **Answers do not depend on what else is asked for.** The tables of the deployment may hold
anything.

1. The ids of a set have an answer iff each of them alone has one.
2. Then every id has at most one resource, and it has the one that it has alone.
3. The ids of a union have an answer iff those of both parts have one. The resources and the missing
   ids of this answer are those of both parts.
4. If a page has an answer, a query for a single id on it answers with the resource of this id on
   the page and nothing else; and it answers that there is none iff the id is missing from the page.
5. Where all is in order, every set of ids has an answer. -/
theorem batch_independence (d : Deployment)
    (titles : Option (TitleQuery → Call Tally (List Id))) (context : QueryContext) (t : Tally)
    (limit : Duration) :
    have ask := fun ids : IdSet => (((d.services .tables titles).mergeIds ids context).run t).1
    have outcome := fun query : Query =>
      ((Executor.execute ⟨d.services .tables titles, limit⟩ query context).run t).1
    (∀ A : IdSet, (∃ answer, ask A = .ok answer) ↔
      ∀ x ∈ A, ∃ answer, ask (IdSet.ofList [x]) = .ok answer) ∧
    (∀ (A : IdSet) answer, ask A = .ok answer → (answer.resources.map Merged.id).Nodup ∧
      ∀ x ∈ A, ∃ alone, ask (IdSet.ofList [x]) = .ok alone ∧
        ∀ m, m.id = x → (m ∈ answer.resources ↔ m ∈ alone.resources)) ∧
    (∀ A B : IdSet, ((∃ answer, ask (A ∪ B) = .ok answer) ↔
        (∃ first, ask A = .ok first) ∧ ∃ second, ask B = .ok second) ∧
      ∀ answer first second, ask (A ∪ B) = .ok answer → ask A = .ok first → ask B = .ok second →
        (∀ m, m ∈ answer.resources ↔ m ∈ first.resources ∨ m ∈ second.resources) ∧
        answer.missing = first.missing ∪ second.missing) ∧
    (∀ (list : List Id) (selection : Selection) answer,
      outcome (.multiple list selection) = .ok answer → ∀ x ∈ selection.selectIds list,
        (∀ m ∈ answer.resources, m.id = x →
          outcome (.single x) = .ok ⟨IdSet.ofList [x], [m]⟩) ∧
        (outcome (.single x) = .error (.notFound x) ↔ x ∈ answer.missing)) ∧
    (d.isOpen = true → d.outages.content = false → d.catalogue.sets.HoldsIds →
      d.catalogue.HoldsRecords → ∀ A : IdSet, ∃ answer, ask A = .ok answer) := by
  intro ask outcome
  have hask : ∀ {A : IdSet} {answer}, ask A = .ok answer ↔ d.merged context A = .ok answer :=
    run_mergeIds_eq_ok_iff
  -- Whether an id can be read does not depend on the other ids, and this decides all parts.
  have hreadable : ∀ A : IdSet, (∃ answer, ask A = .ok answer) ↔
      ∀ x ∈ A, d.Readable context x := by
    intro A
    simp only [hask, exists_merged_eq_ok_iff]
  have halone : ∀ x, (∃ answer, ask (IdSet.ofList [x]) = .ok answer) ↔ d.Readable context x := by
    intro x
    simp only [hask, exists_merged_singleton_iff]
  refine ⟨fun A => ?_, fun A answer hanswer => ⟨?_, fun x hx => ?_⟩, fun A B => ⟨?_, ?_⟩, ?_, ?_⟩
  · rw [hreadable]
    exact forall₂_congr fun x _ => (halone x).symm
  · exact nodup_of_merged (hask.1 hanswer)
  · obtain ⟨alone, hsingle⟩ := (halone x).2 ((hreadable A).1 ⟨answer, hanswer⟩ x hx)
    refine ⟨alone, hsingle, fun m hm => ?_⟩
    subst hm
    rw [mem_resources_of_merged (hask.1 hanswer), mem_resources_of_merged (hask.1 hsingle),
      mem_ofList_singleton]
    exact and_congr_left fun _ => iff_of_true hx rfl
  · simp only [hreadable, Std.ExtTreeSet.mem_union_iff, or_imp, forall_and]
  · intro answer first second hanswer hfirst hsecond
    rw [hask] at hanswer hfirst hsecond
    refine ⟨fun m => ?_, Std.ExtTreeSet.ext_mem fun x => ?_⟩
    · rw [mem_resources_of_merged hanswer, mem_resources_of_merged hfirst,
        mem_resources_of_merged hsecond, Std.ExtTreeSet.mem_union_iff, or_and_right]
    · rw [Std.ExtTreeSet.mem_union_iff, mem_missing_of_merged hanswer, mem_missing_of_merged hfirst,
        mem_missing_of_merged hsecond, Std.ExtTreeSet.mem_union_iff, or_and_right]
  · intro list selection answer hpage x hx
    have hanswer := run_execute_multiple_eq_ok_iff.1 hpage
    have hsingle : outcome (.single x) = match d.mergedFor context x with
        | none => .error (.notFound x)
        | some m => .ok ⟨IdSet.ofList [x], [m]⟩ :=
      run_execute_single_of_readable (exists_merged_eq_ok_iff.1 ⟨answer, hanswer⟩ x hx)
    refine ⟨fun m hm hid => ?_, ?_⟩
    · subst hid
      rw [hsingle, ((mem_resources_of_merged hanswer).1 hm).2]
    · rw [mem_missing_of_merged hanswer, and_iff_right hx, hsingle]
      cases d.mergedFor context x <;> simp
  · intro hopen hcontent hsets hrecords A
    exact (hreadable A).2 fun x _ => readable_of_holdsIds hopen hcontent hsets hrecords x

theorem holdsIds_stage : stage.catalogue.sets.HoldsIds :=
  (Table.holdsIds_empty.insert 5 5).insert 7 5

/-- An id of the set of the record that the application may see, and one that is not stored. -/
theorem batch_independence_of_page :
    have outcome := fun query : Query =>
      ((Executor.execute ⟨stage.services .tables none, .ofMillis 1⟩ query restricted).run {}).1
    (∀ ids : IdSet, ∃ answer,
        (((stage.services .tables none).mergeIds ids restricted).run {}).1 = .ok answer) ∧
      ∃ answer, outcome (.multiple [hiddenRecord.id, 9] .first) = .ok answer ∧
        9 ∈ answer.missing ∧
        outcome (.single 9) = .error (.notFound 9) ∧
        ∃ m ∈ answer.resources,
          outcome (.single hiddenRecord.id) = .ok ⟨IdSet.ofList [hiddenRecord.id], [m]⟩ := by
  intro outcome
  have hshown : (outcome (.multiple [hiddenRecord.id, 9] .first)).map
      (fun answer => (answer.missing.toList, answer.resources.map Merged.id)) =
        .ok ([9], [hiddenRecord.id]) := by
    decide +kernel
  obtain ⟨_, _, _, hpage, hall⟩ := batch_independence stage none restricted {} (.ofMillis 1)
  refine ⟨hall rfl rfl holdsIds_stage holdsRecords_stage, ?_⟩
  cases hanswer : outcome (.multiple [hiddenRecord.id, 9] .first) with
  | error =>
    rw [hanswer] at hshown
    cases hshown
  | ok answer =>
    rw [hanswer] at hshown
    obtain ⟨hmissing, hresources⟩ := Prod.mk.inj (Except.ok.inj hshown)
    have hnine : 9 ∈ answer.missing := by
      rw [← Std.ExtTreeSet.mem_toList, hmissing]
      exact List.mem_singleton_self _
    obtain ⟨m, hm, hid⟩ : ∃ m ∈ answer.resources, m.id = hiddenRecord.id := by
      rw [← List.mem_map, hresources]
      exact List.mem_singleton_self _
    have hselected : ∀ x ∈ [hiddenRecord.id, 9],
        x ∈ Selection.first.selectIds [hiddenRecord.id, 9] := by
      decide +kernel
    refine ⟨answer, rfl, hnine, ?_, m, hm, ?_⟩
    · exact (hpage _ _ answer hanswer _ (hselected _ (by simp))).2.2 hnine
    · exact (hpage _ _ answer hanswer _ (hselected _ (by simp))).1 m hm hid

end Deployment

end MediaCatalogue
