import MediaCatalogue.Proofs.Absence
import MediaCatalogue.Proofs.Agreement

/-!
# The rule of merging

The records of a set are put into a strict order, by the rank of their publishers, then the record
that was asked for, then the lowest id. The first one represents the set.

* `Candidate.TakesPart` : the candidate is a record of the set whose publisher is enabled;
* `exists_order` : those who take part, in this order, determine what the set is merged into;
* `Merged.FollowsRule` : what follows for the result.

**Main theorem** (`Deployment.merges_by_rule`): every result follows the rule, and there is none iff
nobody takes part. If the registry knows the enabled publishers, a query has a result for an id iff
the lookup has an entry for it, and with all details the records of a result are those of its ids.
-/

namespace MediaCatalogue

/-! ### Known publishers -/

theorem Sources.knownTo_ofKeys {registry : Registry} {keys : List String} {sources : Sources}
    (hkeyed : registry.Keyed) (h : ofKeys registry keys = .ok sources) :
    sources.KnownTo registry := by
  obtain ⟨publishers, hpublishers, heq⟩ := of_bind_eq_ok h
  cases heq
  intro p hp
  have hmem : p ∈ publishers := (mem_of_mem_distinctFrom hp).1
  obtain ⟨key, _, hkey⟩ := (mem_of_mapM_eq_ok hpublishers).1 hmem
  unfold findKey at hkey
  split at hkey
  · rename_i q hq
    cases hkey
    exact ⟨p, by rw [hkeyed _ _ hq, hq]⟩
  · cases hkey

/-! ### Who takes part -/

/-- A record of the set that was read under its id, with the rank of its publisher. -/
structure Candidate.TakesPart (sources : Sources) (records : IdMap Content) (set : IdSet)
    (c : Candidate) : Prop where
  member : c.record.id ∈ set
  read : records[c.record.id]? = some c.record
  ranked : sources.rank? c.record.publisher = some c.rank

section

variable {sources : Sources} {r : Resolved Content} {requested : Id} {set : IdSet}
  {a b c : Candidate}

theorem mem_candidates_iff_takesPart :
    c ∈ candidates sources (recordsById r) set ↔ c.TakesPart sources (recordsById r) set := by
  rw [mem_candidates]
  constructor
  · rintro ⟨id, hid, hread, hrank⟩
    cases id_of_recordsById hread
    exact ⟨hid, hread, hrank⟩
  · rintro ⟨hid, hread, hrank⟩
    exact ⟨_, hid, hread, hrank⟩

theorem Candidate.TakesPart.eq_of_id (ha : a.TakesPart sources (recordsById r) set)
    (hb : b.TakesPart sources (recordsById r) set) (h : a.record.id = b.record.id) : a = b := by
  have hrecord : a.record = b.record := by
    have hread := ha.read
    rw [h, hb.read] at hread
    exact (Option.some.inj hread).symm
  have hrank := ha.ranked
  rw [hrecord, hb.ranked] at hrank
  obtain ⟨rank, record⟩ := a
  obtain ⟨rank', record'⟩ := b
  cases hrecord
  cases hrank
  rfl

theorem Candidate.TakesPart.eq_of_place (ha : a.TakesPart sources (recordsById r) set)
    (hb : b.TakesPart sources (recordsById r) set)
    (h : a.place requested = b.place requested) : a = b := by
  simp only [place, toLex_inj, Prod.mk.injEq] at h
  exact ha.eq_of_id hb (Id.ext h.2.2)

theorem nodup_candidates : (candidates sources (recordsById r) set).Nodup := by
  refine set.nodup_toList.filterMap fun id id' c hc hc' => ?_
  simp only [Option.bind_eq_bind, Option.mem_def, Option.bind_eq_some_iff, Option.pure_def,
    Option.some.injEq] at hc hc'
  obtain ⟨record, hread, rank, _, rfl⟩ := hc
  obtain ⟨record', hread', rank', _, heq⟩ := hc'
  cases heq
  rw [← id_of_recordsById hread, ← id_of_recordsById hread']

/-! ### The order -/

/-- **Those who take part, in order**, determine what a set is merged into. -/
theorem exists_order (sources : Sources) (r : Resolved Content) (requested : Id) (set : IdSet) :
    ∃ order : List Candidate,
      (∀ c, c ∈ order ↔ c.TakesPart sources (recordsById r) set) ∧
      order.Pairwise (fun a b => a.place requested < b.place requested) ∧
      ∀ retain, merge sources retain (recordsById r) requested set =
        match order with
        | [] => none
        | first :: others =>
          some ⟨requested, first.record, if retain then others.map Candidate.record else [],
            set⟩ := by
  have hperm := List.mergeSort_perm (candidates sources (recordsById r) set)
    (Candidate.preferred requested)
  have hmem : ∀ c, c ∈ (candidates sources (recordsById r) set).mergeSort
      (Candidate.preferred requested) ↔ c.TakesPart sources (recordsById r) set :=
    fun c => hperm.mem_iff.trans mem_candidates_iff_takesPart
  refine ⟨_, hmem, ?_, fun retain => rfl⟩
  refine ((pairwise_mergeSort_preferred _ _).and (hperm.nodup_iff.2 nodup_candidates)).imp_of_mem ?_
  rintro a b ha hb ⟨hle, hne⟩
  exact lt_of_le_of_ne hle fun heq => hne (((hmem a).1 ha).eq_of_place ((hmem b).1 hb) heq)

end

/-! ### What is merged -/

/-- The result of merging the records of a set. -/
structure Merged.FollowsRule (sources : Sources) (retain : Bool) (records : IdMap Content)
    (requested : Id) (set : IdSet) (m : Merged) : Prop where
  /-- It is for the id that was asked for. -/
  id_eq : m.id = requested
  /-- It names the whole set. -/
  equivalentIds_eq : m.equivalentIds = set
  /-- The primary is the only one with the first place. -/
  primary : ∃ first : Candidate, first.record = m.primary ∧ first.TakesPart sources records set ∧
    ∀ c : Candidate, c.TakesPart sources records set → c ≠ first →
      first.place requested < c.place requested
  /-- Others are there only if they are retained. -/
  equivalents_eq : retain = false → m.equivalents = []
  /-- Then all who take part are listed once, in order. -/
  listed : retain = true → ∃ order : List Candidate,
    order.map Candidate.record = m.primary :: m.equivalents ∧
    (∀ c, c ∈ order ↔ c.TakesPart sources records set) ∧
    order.Pairwise (fun a b => a.place requested < b.place requested)

section

variable {sources : Sources} {retain : Bool} {r : Resolved Content} {requested : Id} {set : IdSet}
  {m : Merged}

theorem merge_eq_none_iff_takesPart :
    merge sources retain (recordsById r) requested set = none ↔
      ∀ c : Candidate, ¬ c.TakesPart sources (recordsById r) set := by
  simp only [merge_eq_none_iff, List.eq_nil_iff_forall_not_mem, mem_candidates_iff_takesPart]

theorem followsRule_of_merge (h : merge sources retain (recordsById r) requested set = some m) :
    m.FollowsRule sources retain (recordsById r) requested set := by
  obtain ⟨order, hmem, hsorted, hmerge⟩ := exists_order sources r requested set
  rw [hmerge] at h
  cases order with
  | nil => cases h
  | cons first others =>
    cases h
    refine ⟨rfl, rfl, ⟨first, rfl, (hmem first).1 List.mem_cons_self, fun c hc hne => ?_⟩, ?_, ?_⟩
    · have hother := (List.mem_cons.1 ((hmem c).2 hc)).resolve_left hne
      exact List.rel_of_pairwise_cons hsorted hother
    · rintro rfl
      rfl
    · rintro rfl
      exact ⟨_, rfl, hmem, hsorted⟩

/-- What represents a set does not depend on whether others are retained. -/
theorem primary_eq_of_merge {retain' : Bool} {m' : Merged}
    (h : merge sources retain (recordsById r) requested set = some m)
    (h' : merge sources retain' (recordsById r) requested set = some m') :
    m.primary = m'.primary := by
  obtain ⟨order, _, _, hmerge⟩ := exists_order sources r requested set
  rw [hmerge] at h h'
  cases order with
  | nil => cases h
  | cons first others =>
    cases h
    cases h'
    rfl

end

/-! ### Answers -/

namespace Deployment

variable {d : Deployment} {context : QueryContext} {ids : IdSet} {answer : Resolved Merged}
  {x y : Id} {m : Merged}

theorem exists_lookup_of_merged (h : d.merged context ids = .ok answer) :
    ∃ sets, d.lookup ids context.sources.enabled = .ok sets ∧
      ∀ (x : Id) (members : IdSet), sets[x]? = some members ↔
        x ∈ ids ∧ members = d.catalogue.setOf context.sources.enabled x ∧ ∃ y, y ∈ members := by
  have hsame : ∃ sets, d.lookup ids context.sources.enabled = .ok sets ∧
      MediaCatalogue.lookup (.still d.catalogue) ids context.sources.enabled = .ok sets := by
    unfold merged at h
    split at h
    · rename_i hnone
      rw [← Sources.isEmpty_enabled] at hnone
      exact ⟨∅, if_pos hnone, if_pos hnone⟩
    · rename_i hsome
      rw [Bool.not_eq_true, Bool.or_eq_false_iff, ← Sources.isEmpty_enabled] at hsome
      obtain ⟨sets, hsets, _⟩ := of_bind_eq_ok h
      have hopen := isOpen_of_lookup hsome.1 hsome.2 hsets
      exact ⟨sets, hsets, lookup_of_isOpen hopen _ ▸ hsets⟩
  obtain ⟨sets, hsets, hstill⟩ := hsame
  exact ⟨sets, hsets, fun _ _ => Catalogue.getElem?_of_lookup hstill⟩

theorem exists_record_of_setOf (hkeyed : d.registry.Keyed)
    (hknown : context.sources.KnownTo d.registry) (hreadable : d.Readable context x)
    (hy : y ∈ d.catalogue.setOf context.sources.enabled x) :
    ∃ record, d.catalogue.content? d.registry y = .ok (some record) ∧
      context.sources.isEnabled record.publisher = true := by
  rcases hreadable with hnone | ⟨_, _, hread⟩
  · rw [← Sources.isEmpty_enabled] at hnone
    exact absurd hy (Catalogue.setOf_of_isEmpty hnone)
  · obtain ⟨_, found, hfound⟩ := hread y hy
    obtain ⟨record, rfl, henabled⟩ :=
      Catalogue.exists_eq_some_of_content? hkeyed hknown (Catalogue.mem_setOf.1 hy).1 hfound
    exact ⟨record, hfound, henabled⟩

theorem exists_mergedFor_iff (hkeyed : d.registry.Keyed)
    (hknown : context.sources.KnownTo d.registry) (hreadable : d.Readable context x) :
    (∃ m, d.mergedFor context x = some m) ↔
      ∃ y, y ∈ d.catalogue.setOf context.sources.enabled x := by
  constructor
  · rintro ⟨m, hm⟩
    exact exists_mem_of_mergedFor hm
  · rintro ⟨y, hy⟩
    obtain ⟨record, hread, henabled⟩ := exists_record_of_setOf hkeyed hknown hreadable hy
    exact exists_merge_eq_some hy (Catalogue.getElem?_records.2 hread) henabled

theorem mem_equivalentIds_iff (hkeyed : d.registry.Keyed)
    (hknown : context.sources.KnownTo d.registry) (hreadable : d.Readable context x)
    (hretain : context.details.retainsAll = true) (h : d.mergedFor context x = some m) :
    y ∈ m.equivalentIds ↔ ∃ record ∈ m.primary :: m.equivalents, record.id = y := by
  rw [mergedFor, hretain] at h
  obtain ⟨first, others, hperm, _, rfl⟩ := exists_first_of_merge h
  change _ ↔ ∃ record ∈ (first :: others).map Candidate.record, record.id = y
  simp only [List.mem_map, hperm.mem_iff, mem_candidates_iff]
  constructor
  · intro hy
    obtain ⟨record, hread, henabled⟩ := exists_record_of_setOf hkeyed hknown hreadable hy
    obtain ⟨rank, hrank⟩ := Option.isSome_iff_exists.1 henabled
    cases (Catalogue.content?_eq_some hread).1
    exact ⟨record, ⟨⟨rank, record⟩, ⟨hy, hread, hrank⟩, rfl⟩, rfl⟩
  · rintro ⟨_, ⟨c, ⟨hmember, _⟩, rfl⟩, rfl⟩
    exact hmember

/-- **The rule of merging.** Whatever records were read, a set has no result iff nobody takes part,
and every result follows the rule; its primary is the same whether others are retained or not.

When the registry of a deployment knows the enabled publishers, a query has an answer where all is
in order. In every answer there is a result for an id iff the lookup has an entry for it, which is
the set of this result; and if all records are retained, their ids are those of the set. -/
theorem merges_by_rule :
    (∀ (sources : Sources) (r : Resolved Content) (requested : Id) (set : IdSet),
      have merging := fun retain => merge sources retain (recordsById r) requested set
      (∀ retain, merging retain = none ↔
        ∀ c : Candidate, ¬ c.TakesPart sources (recordsById r) set) ∧
      (∀ retain m, merging retain = some m →
        m.FollowsRule sources retain (recordsById r) requested set) ∧
      ∀ retain retain' m m', merging retain = some m → merging retain' = some m' →
        m.primary = m'.primary) ∧
    ∀ (d : Deployment) (titles : Option (TitleQuery → Call Tally (List Id))) (keys : List String)
      (context : QueryContext) (t : Tally) (ids : IdSet),
      d.registry.Keyed → Sources.ofKeys d.registry keys = .ok context.sources →
      have result := (((d.services .tables titles).mergeIds ids context).run t).1
      (d.isOpen = true → d.outages.content = false → d.catalogue.sets.HoldsIds →
        d.catalogue.HoldsRecords → ∃ answer, result = .ok answer) ∧
      ∀ answer, result = .ok answer →
        ∃ sets, d.lookup ids context.sources.enabled = .ok sets ∧
          (∀ x, (∃ m ∈ answer.resources, m.id = x) ↔ x ∈ sets) ∧
          (∀ m ∈ answer.resources, sets[m.id]? = some m.equivalentIds) ∧
          (context.details.retainsAll = true → ∀ m ∈ answer.resources, ∀ y : Id,
            y ∈ m.equivalentIds ↔ ∃ record ∈ m.primary :: m.equivalents, record.id = y) := by
  refine ⟨fun sources r requested set => ⟨fun _ => merge_eq_none_iff_takesPart,
    fun _ _ => followsRule_of_merge, fun _ _ _ _ => primary_eq_of_merge⟩, ?_⟩
  intro d titles keys context t ids hkeyed hkeys result
  have hknown : context.sources.KnownTo d.registry := Sources.knownTo_ofKeys hkeyed hkeys
  refine ⟨fun hopen hcontent hsets hrecords => ?_, fun answer hresult => ?_⟩
  · obtain ⟨answer, hanswer⟩ : ∃ answer, d.merged context ids = .ok answer :=
      exists_merged_eq_ok_iff.2 fun id _ => readable_of_holdsIds hopen hcontent hsets hrecords id
    exact ⟨answer, run_mergeIds_eq_ok_iff.2 hanswer⟩
  · have hanswer : d.merged context ids = .ok answer := run_mergeIds_eq_ok_iff.1 hresult
    obtain ⟨sets, hsets, hentry⟩ := exists_lookup_of_merged hanswer
    have hreadable : ∀ x ∈ ids, d.Readable context x :=
      exists_merged_eq_ok_iff.1 ⟨answer, hanswer⟩
    refine ⟨sets, hsets, fun x => ?_, fun m hm => ?_, fun hretain m hm y => ?_⟩
    · rw [Std.ExtTreeMap.mem_iff_isSome_getElem?, Option.isSome_iff_exists]
      constructor
      · rintro ⟨m, hm, rfl⟩
        obtain ⟨hid, hmerged⟩ := (mem_resources_of_merged hanswer).1 hm
        exact ⟨_, (hentry _ _).2 ⟨hid, rfl, exists_mem_of_mergedFor hmerged⟩⟩
      · -- A set has a member of an enabled publisher, so there is a candidate.
        rintro ⟨members, hget⟩
        obtain ⟨hid, rfl, hmember⟩ := (hentry _ _).1 hget
        obtain ⟨m, hm⟩ := (exists_mergedFor_iff hkeyed hknown (hreadable x hid)).2 hmember
        cases id_of_mergedFor hm
        exact ⟨m, (mem_resources_of_merged hanswer).2 ⟨hid, hm⟩, rfl⟩
    · obtain ⟨hid, hmerged⟩ := (mem_resources_of_merged hanswer).1 hm
      exact (hentry _ _).2 ⟨hid, (merge_eq_some hmerged).2.1,
        (merge_eq_some hmerged).2.1 ▸ exists_mem_of_mergedFor hmerged⟩
    · obtain ⟨hid, hmerged⟩ := (mem_resources_of_merged hanswer).1 hm
      exact mem_equivalentIds_iff hkeyed hknown (hreadable _ hid) hretain hmerged

theorem ofKeys_ensemble :
    Sources.ofKeys ensemble.registry ["bbc", "itv", "bbc"] = .ok unrestricted.sources := by
  decide +kernel

theorem lookup_ensemble :
    (ensemble.lookup (IdSet.ofList [secondRecord.id, 9]) unrestricted.sources.enabled).map
      (fun sets => (sets[secondRecord.id]?.map (·.toList), sets.contains 9)) =
        .ok (some [shownRecord.id, secondRecord.id, hiddenRecord.id], false) := by
  decide +kernel

/-- A member of the set is answered for with all three records, and an id without a record is not;
without the others, the primary is the same. -/
theorem merges_by_rule_of_ensemble :
    have records := [hiddenRecord, shownRecord, secondRecord]
    (∃ m m', merge unrestricted.sources true (recordsById ⟨∅, records⟩) secondRecord.id
        (IdSet.ofList [shownRecord.id, secondRecord.id, hiddenRecord.id]) = some m ∧
      merge unrestricted.sources false (recordsById ⟨∅, records⟩) secondRecord.id
        (IdSet.ofList [shownRecord.id, secondRecord.id, hiddenRecord.id]) = some m' ∧
      m.primary = m'.primary ∧ m'.equivalents = []) ∧
    ∃ answer, (((ensemble.services .tables none).mergeIds
        (IdSet.ofList [secondRecord.id, 9]) unrestricted).run {}).1 = .ok answer ∧
      (∀ m ∈ answer.resources, m.id ≠ 9) ∧
      ∃ m ∈ answer.resources, m.id = secondRecord.id ∧
        ∃ record ∈ m.primary :: m.equivalents, record.id = hiddenRecord.id := by
  intro records
  obtain ⟨hmerge, hanswers⟩ := merges_by_rule
  constructor
  · obtain ⟨hnone, hrule, hprimary⟩ := hmerge unrestricted.sources ⟨∅, records⟩ secondRecord.id
      (IdSet.ofList [shownRecord.id, secondRecord.id, hiddenRecord.id])
    have htakesPart : Candidate.TakesPart unrestricted.sources (recordsById ⟨∅, records⟩)
        (IdSet.ofList [shownRecord.id, secondRecord.id, hiddenRecord.id]) ⟨0, shownRecord⟩ :=
      ⟨by simp, by decide +kernel, by decide⟩
    have hsome : ∀ retain, ∃ m, merge unrestricted.sources retain (recordsById ⟨∅, records⟩)
        secondRecord.id (IdSet.ofList [shownRecord.id, secondRecord.id, hiddenRecord.id]) =
          some m :=
      fun retain => Option.ne_none_iff_exists'.1 fun h => (hnone retain).1 h _ htakesPart
    obtain ⟨m, hm⟩ := hsome true
    obtain ⟨m', hm'⟩ := hsome false
    exact ⟨m, m', hm, hm', hprimary _ _ m m' hm hm', (hrule _ m' hm').equivalents_eq rfl⟩
  · obtain ⟨hanswered, hrule⟩ := hanswers ensemble none ["bbc", "itv", "bbc"] unrestricted {}
      (IdSet.ofList [secondRecord.id, 9]) Registry.keyed_builtin ofKeys_ensemble
    obtain ⟨answer, hanswer⟩ := hanswered rfl rfl holdsIds_ensemble holdsRecords_ensemble
    obtain ⟨sets, hsets, hentry, hset, hrecords⟩ := hrule answer hanswer
    have hshown := lookup_ensemble
    rw [hsets] at hshown
    obtain ⟨hmembers, hnine⟩ := Prod.mk.inj (Except.ok.inj hshown)
    obtain ⟨members, hget, hlist⟩ := Option.map_eq_some_iff.1 hmembers
    obtain ⟨m, hm, hid⟩ := (hentry secondRecord.id).2
      (Std.ExtTreeMap.mem_iff_isSome_getElem?.2 (by rw [hget]; rfl))
    refine ⟨answer, hanswer, fun m' hm' hid' => ?_, m, hm, hid, ?_⟩
    · have hmem : 9 ∈ sets := (hentry 9).1 ⟨m', hm', hid'⟩
      rw [← Std.ExtTreeMap.contains_iff_mem, hnine] at hmem
      cases hmem
    · refine (hrecords (by decide +kernel) m hm hiddenRecord.id).1 ?_
      have hown := hset m hm
      rw [hid, hget] at hown
      rw [← Option.some.inj hown, ← Std.ExtTreeSet.mem_toList, hlist]
      simp

end Deployment

end MediaCatalogue
