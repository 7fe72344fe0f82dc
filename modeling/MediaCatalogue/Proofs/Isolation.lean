import MediaCatalogue.Proofs.Merging

/-!
# Publishers that are not enabled do not show

An application sees the records of the publishers that it has enabled. `Catalogue.LooksAlike` says
that two catalogues have the same labels, and the same rows as far as these publishers are
concerned; all other rows may differ, be missing, or belong to somebody else.

**Main theorem** (`Deployment.answers_isolated`): every query has the same outcome on catalogues
that look alike, with the same calls of the services, and no answer shows a record of a publisher
that is not enabled, or an id that is not stored by an enabled one.

The proof goes through the parts of an answer: what a lookup finds (`LooksAlike.lookup_eq`,
`storedBy_of_lookup`), what is read for it (`LooksAlike.resolveContent_eq`), and which of the hits
of a title index are kept (`LooksAlike.keptHits_eq`).
-/

namespace MediaCatalogue

namespace Catalogue

variable {c c' : Catalogue}

/-! ### Tables that stand still -/

theorem readLabels_still (c : Catalogue) (ids : IdSet) :
    readLabels (.still c) ids = do
      let found ← (batches ids.toList).zipIdx.mapM fun (q : List Id × Nat) => q.1.mapM c.labelOf
      return found.flatten :=
  rfl

/-- The members of the labels of one batch. -/
def batchMembers (c : Catalogue) (keys : List String) (labels : List Id) :
    Except Fault (List (Id × Id)) := do
  let labelled ← labels.mapM (c.membersOf keys)
  return labelled.flatten ++ (labels.filter (c.isAlone keys)).map fun id => (id, id)

theorem readMembers_still (c : Catalogue) (start : Nat) (keys : List String) (labels : IdSet) :
    readMembers (.still c) start keys labels = do
      let found ← (batches labels.toList).zipIdx.mapM fun (q : List Id × Nat) =>
        c.batchMembers keys q.1
      return found.flatten :=
  rfl

theorem resolveContent_still (c : Catalogue) (registry : Registry) (ids : IdSet) :
    resolveContent registry (.still c) ids = do
      let found ← (batches ids.toList).zipIdx.mapM fun (q : List Id × Nat) =>
        q.1.mapM (c.content? registry)
      return Resolved.of ids (found.flatten.filterMap id) :=
  rfl

/-! ### What a lookup finds -/

theorem isStoredBy_of_membersOf {keys : List String} {l : Id} {pairs : List (Id × Id)}
    (h : c.membersOf keys l = .ok pairs) {p : Id × Id} (hp : p ∈ pairs) :
    c.isStoredBy keys p.2.stored = true := by
  obtain ⟨row, hrow, hpair⟩ := (mem_of_mapM_eq_ok h).1 hp
  obtain ⟨x, hx, hpair⟩ := of_bind_eq_ok hpair
  cases hpair
  rw [← Id.ofStored_eq_ok_iff.1 hx]
  have hboth := (List.mem_filter.1 hrow).2
  simp only [Bool.and_eq_true] at hboth
  exact hboth.2

theorem isStoredBy_of_readMembers {see : Snapshots} {keys : List String} {start : Nat}
    {labels : IdSet} {pairs : List (Id × Id)} (h : readMembers see start keys labels = .ok pairs)
    {p : Id × Id} (hp : p ∈ pairs) :
    ∃ n c, see n = .ok c ∧ c.isStoredBy keys p.2.stored = true := by
  obtain ⟨found, hfound, heq⟩ := of_bind_eq_ok h
  cases heq
  obtain ⟨batch, hbatch, hp⟩ := List.mem_flatten.1 hp
  obtain ⟨q, _, hq⟩ := (mem_of_mapM_eq_ok hfound).1 hbatch
  obtain ⟨c, hc, hq⟩ := of_bind_eq_ok hq
  obtain ⟨labelled, hlabelled, hq⟩ := of_bind_eq_ok hq
  obtain ⟨c', hc', heq⟩ := of_bind_eq_ok hq
  cases heq
  rcases List.mem_append.1 hp with hp | hp
  · obtain ⟨members, hmembers, hp⟩ := List.mem_flatten.1 hp
    obtain ⟨l, _, hl⟩ := (mem_of_mapM_eq_ok hlabelled).1 hmembers
    exact ⟨_, c, hc, isStoredBy_of_membersOf hl hp⟩
  · obtain ⟨id, hid, rfl⟩ := List.mem_map.1 hp
    have halone := (List.mem_filter.1 hid).2
    simp only [isAlone, Bool.and_eq_true] at halone
    exact ⟨_, c', hc', halone.1⟩

/-- Whatever the labels are, a lookup finds no id that is not stored by an enabled publisher. -/
theorem storedBy_of_lookup {see : Snapshots} {ids : IdSet} {enabled : PublisherSet}
    {sets : IdMap IdSet} (h : lookup see ids enabled = .ok sets) {id x : Id}
    (hlists : sets.Lists id x) : ∃ n c, see n = .ok c ∧ c.StoredBy enabled x := by
  obtain ⟨members, hget, hx⟩ := hlists
  unfold lookup at h
  split at h
  · cases h
    simp at hget
  · obtain ⟨labels, _, h⟩ := of_bind_eq_ok h
    obtain ⟨pairs, hpairs, h⟩ := of_bind_eq_ok h
    cases h
    have hrow := mem_of_getElem?_ofList hget
    simp only [List.mem_filterMap, Option.map_eq_some_iff, Prod.exists, Prod.mk.injEq] at hrow
    obtain ⟨_, l, _, _, hl, _, rfl⟩ := hrow
    have hpair : (l, x) ∈ pairs := lists_collect.1 ⟨_, hl, hx⟩
    obtain ⟨n, c, hc, hstored⟩ := isStoredBy_of_readMembers hpairs hpair
    exact ⟨n, c, hc, isStoredBy_iff.1 hstored⟩

/-! ### Catalogues that look alike -/

/-- Two catalogues have the same labels, and the same rows of the publishers. -/
structure LooksAlike (c c' : Catalogue) (publishers : PublisherSet) : Prop where
  sets : c'.sets = c.sets
  content : ∀ (column : Int) (row : ContentRow), (∃ p ∈ publishers, row.publisher = p.key) →
    (c'.content[column]? = some row ↔ c.content[column]? = some row)

namespace LooksAlike

variable {publishers : PublisherSet}

theorem refl (c : Catalogue) (publishers : PublisherSet) : c.LooksAlike c publishers where
  sets := rfl
  content _ _ _ := Iff.rfl

theorem symm (h : c.LooksAlike c' publishers) : c'.LooksAlike c publishers where
  sets := h.sets.symm
  content column row hrow := (h.content column row hrow).symm

/-- Storing a row of another publisher over no row of these publishers does not show. -/
theorem store (h : c.LooksAlike c' publishers) {record : Content} {nanos : Int}
    (hrecord : ∀ p ∈ publishers, record.publisher.key ≠ p.key)
    (hold : ¬ c.StoredBy publishers record.id) :
    c.LooksAlike (record.store nanos c') publishers where
  sets := h.sets
  content column row hrow := by
    simp only [Content.store, Std.ExtTreeMap.getElem?_insert, Std.LawfulEqCmp.compare_eq_iff_eq]
    split
    · rename_i hcolumn
      subst hcolumn
      obtain ⟨p, hp, hkey⟩ := hrow
      constructor
      · intro heq
        cases heq
        exact absurd hkey (hrecord p hp)
      · intro hget
        exact absurd ⟨row, hget, p, hp, hkey⟩ hold
    · exact h.content column row hrow

theorem isStoredBy_eq (h : c.LooksAlike c' publishers) :
    c'.isStoredBy (publishers.toList.map Publisher.key) =
      c.isStoredBy (publishers.toList.map Publisher.key) := by
  have hiff : ∀ (d : Catalogue) (column : Int),
      d.isStoredBy (publishers.toList.map Publisher.key) column = true ↔
        ∃ row, d.content[column]? = some row ∧ ∃ p ∈ publishers, row.publisher = p.key := by
    intro d column
    unfold isStoredBy
    cases d.content[column]? with
    | none => simp
    | some row => simp [eq_comm]
  funext column
  rw [Bool.eq_iff_iff, hiff, hiff]
  exact exists_congr fun row => and_congr_left fun hrow => h.content column row hrow

theorem lookup_eq (h : c.LooksAlike c' publishers) (ids : IdSet) :
    lookup (.still c') ids publishers = lookup (.still c) ids publishers := by
  have hlabelOf : c'.labelOf = c.labelOf := by
    funext id
    rw [labelOf, labelOf, h.sets]
  have hmembers : c'.batchMembers (publishers.toList.map Publisher.key) =
      c.batchMembers (publishers.toList.map Publisher.key) := by
    have hmembersOf : c'.membersOf (publishers.toList.map Publisher.key) =
        c.membersOf (publishers.toList.map Publisher.key) := by
      funext l
      rw [membersOf, membersOf, h.sets, h.isStoredBy_eq]
    have halone : c'.isAlone (publishers.toList.map Publisher.key) =
        c.isAlone (publishers.toList.map Publisher.key) := by
      funext l
      rw [isAlone, isAlone, h.sets, h.isStoredBy_eq]
    funext labels
    rw [batchMembers, batchMembers, hmembersOf, halone]
  unfold lookup
  simp only [readLabels_still, readMembers_still, hlabelOf, hmembers]

theorem content?_eq (h : c.LooksAlike c' publishers) (registry : Registry) {id : Id}
    (hstored : c.StoredBy publishers id) : c'.content? registry id = c.content? registry id := by
  obtain ⟨row, hrow, hpublisher⟩ := hstored
  rw [content?, content?, hrow, (h.content _ _ hpublisher).2 hrow]

theorem resolveContent_eq (h : c.LooksAlike c' publishers) (registry : Registry) {ids : IdSet}
    (hstored : ∀ id ∈ ids, c.StoredBy publishers id) :
    resolveContent registry (.still c') ids = resolveContent registry (.still c) ids := by
  have hread : ((batches ids.toList).zipIdx.mapM fun (q : List Id × Nat) =>
      q.1.mapM (c'.content? registry)) =
        (batches ids.toList).zipIdx.mapM fun q => q.1.mapM (c.content? registry) := by
    refine mapM_congr fun q hq => mapM_congr fun id hid => h.content?_eq registry ?_
    exact hstored id (Std.ExtTreeSet.mem_toList.1 (mem_of_mem_batch hq hid))
  rw [resolveContent_still, resolveContent_still, hread]

end LooksAlike

end Catalogue

/-! ### Hits of a title index -/

/-- The records of hits that an application may see, in the order of the hits. -/
def keptHits (sources : Sources) (ranked : List Id) (r : Resolved Content) : List Content :=
  ((distinct ranked).filterMap ((recordsById r)[·]?)).filter (sources.isEnabled ·.publisher)

section

variable {c c' : Catalogue} {registry : Registry} {sources : Sources}

theorem Catalogue.storedBy_of_isEnabled (hkeyed : registry.Keyed) {id : Id} {record : Content}
    (h : c.content? registry id = .ok (some record))
    (henabled : sources.isEnabled record.publisher = true) : c.StoredBy sources.enabled id := by
  obtain ⟨_, row, hrow, hpublisher⟩ := content?_eq_some h
  obtain ⟨p, hp, hkey⟩ := Sources.isEnabled_iff.1 henabled
  exact ⟨row, hrow, p, Sources.mem_enabled.2 hp, by rw [hkey, hkeyed _ _ hpublisher]⟩

/-- The tables read as some records of which an application may see those that are in `c`. -/
theorem Catalogue.LooksAlike.keptHits_eq (h : c.LooksAlike c' sources.enabled)
    (hkeyed : registry.Keyed) (hc : c.HoldsRecords) (hc' : c'.HoldsRecords) (ranked : List Id) :
    (resolveContent registry (.still c') (IdSet.ofList ranked)).map (keptHits sources ranked) =
      (resolveContent registry (.still c) (IdSet.ofList ranked)).map (keptHits sources ranked) := by
  obtain ⟨r, hr, hrecords⟩ := resolveContent_changing (fun _ => hc) registry (.ofList ranked)
  obtain ⟨r', hr', hrecords'⟩ := resolveContent_changing (fun _ => hc') registry (.ofList ranked)
  rw [Snapshots.still_eq_changing, Snapshots.still_eq_changing, hr, hr']
  simp only [Except.map, keptHits, List.filter_filterMap]
  refine congrArg Except.ok (List.filterMap_congr fun id _ => Option.ext fun record => ?_)
  simp only [Option.filter_eq_some_iff, hrecords, hrecords', and_assoc]
  refine and_congr_right fun _ => and_congr_left fun henabled => ?_
  -- A record that is kept on one side is stored by an enabled publisher, and so on both.
  constructor
  · intro hread
    rwa [h.symm.content?_eq registry (Catalogue.storedBy_of_isEnabled hkeyed hread henabled)]
  · intro hread
    rwa [h.content?_eq registry (Catalogue.storedBy_of_isEnabled hkeyed hread henabled)]

end

/-! ### Answers -/

/-- All records that are shown are those of enabled publishers, and all ids of equivalents are
stored by enabled publishers. -/
def Merged.ShowsOnly (sources : Sources) (c : Catalogue) (m : Merged) : Prop :=
  (∀ record, record = m.primary ∨ record ∈ m.equivalents →
    sources.isEnabled record.publisher = true ∧ c.StoredBy sources.enabled record.id) ∧
    ∀ x ∈ m.equivalentIds, c.StoredBy sources.enabled x

namespace Deployment

variable {d : Deployment} {context : QueryContext} {t t' : Tally}
  {titles : Option (TitleQuery → Call Tally (List Id))}

theorem catalogue_of_snapshots {n : Nat} {c : Catalogue} (h : d.snapshots n = .ok c) :
    c = d.catalogue := by
  unfold snapshots at h
  split at h
  · cases h
    rfl
  · cases h

theorem storedBy_of_lookup {ids : IdSet} {enabled : PublisherSet} {sets : IdMap IdSet}
    (h : d.lookup ids enabled = .ok sets) {id x : Id} (hlists : sets.Lists id x) :
    d.catalogue.StoredBy enabled x := by
  obtain ⟨n, c, hc, hstored⟩ := Catalogue.storedBy_of_lookup h hlists
  rwa [catalogue_of_snapshots hc] at hstored

theorem content?_of_resolve {ids : IdSet} {r : Resolved Content} (h : d.resolve ids = .ok r)
    {record : Content} (hrecord : record ∈ r.resources) :
    d.catalogue.content? d.registry record.id = .ok (some record) := by
  unfold resolve at h
  split at h
  · cases h
  · obtain ⟨n, c, hc, hread⟩ := exists_content?_of_resolveContent h hrecord
    rwa [catalogue_of_snapshots hc] at hread

theorem showsOnly_of_mergeIds (hkeyed : d.registry.Keyed) {ids : IdSet} {answer : Resolved Merged}
    (h : ((d.services .tables titles).mergeIds ids context).run t = (.ok answer, t')) :
    ∀ m ∈ answer.resources, m.ShowsOnly context.sources d.catalogue := by
  intro m hm
  rcases Services.of_run_mergeIds h with rfl | ⟨sets, r, t₁, hlookup, hresolve, rfl⟩
  · cases hm
  · obtain ⟨id, members, hget, hmerge⟩ := mem_mergeSets.1 (Resolved.mem_of_mem_resources hm).1
    obtain ⟨_, hset, hrecords⟩ := merge_eq_some hmerge
    refine ⟨fun record hrecord => ?_, fun x hx => ?_⟩
    · obtain ⟨henabled, x, _, hread⟩ := hrecords record hrecord
      refine ⟨henabled, Catalogue.storedBy_of_isEnabled hkeyed ?_ henabled⟩
      exact content?_of_resolve (of_run_services_resolve hresolve)
        (mem_resources_of_recordsById hread)
    · rw [hset] at hx
      exact storedBy_of_lookup (of_run_services_lookup hlookup) ⟨members, hget, hx⟩

theorem showsOnly_of_searchTitles (hkeyed : d.registry.Keyed) {query : TitleQuery}
    {records : List Content}
    (h : ((d.services .tables titles).searchTitles query context.sources).run t =
      (.ok records, t')) :
    ∀ record ∈ records, (Merged.alone record).ShowsOnly context.sources d.catalogue := by
  intro record hrecord
  unfold Services.searchTitles at h
  split at h
  · cases h
  · unfold Services.searchWith at h
    obtain ⟨ranked, _, _, h⟩ := of_run_bind h
    split at h
    · cases h
      cases hrecord
    · obtain ⟨r, _, hresolve, h⟩ := of_run_bind h
      cases h
      obtain ⟨hmem, henabled⟩ := List.mem_filter.1 hrecord
      obtain ⟨id, _, hget⟩ := List.mem_filterMap.1 hmem
      have hread := content?_of_resolve (of_run_services_resolve (Services.of_run_step hresolve))
        (mem_resources_of_recordsById hget)
      have hstored := Catalogue.storedBy_of_isEnabled hkeyed hread henabled
      refine ⟨fun record' hrecord' => ?_, fun x hx => ?_⟩
      · rcases hrecord' with rfl | hrecord'
        · exact ⟨henabled, hstored⟩
        · cases hrecord'
      · have heq : x = record.id := by simpa [Merged.alone] using hx
        rwa [heq]

theorem showsOnly_of_answer (hkeyed : d.registry.Keyed) {query : Query} {answer : Resolved Merged}
    (h : ((d.services .tables titles).answer query context).run t = (.ok answer, t')) :
    ∀ m ∈ answer.resources, m.ShowsOnly context.sources d.catalogue := by
  cases query with
  | single id =>
    obtain ⟨merged, _, hmerged, h⟩ := of_run_bind h
    split at h
    · cases h
    · cases h
      exact showsOnly_of_mergeIds hkeyed hmerged
  | multiple ids selection => exact showsOnly_of_mergeIds hkeyed h
  | search text selection =>
    obtain ⟨records, _, hrecords, h⟩ := of_run_bind h
    have hshown := showsOnly_of_searchTitles hkeyed hrecords
    intro m hm
    split at h
    · cases h
      obtain ⟨record, hrecord, rfl⟩ := List.mem_map.1 (Resolved.mem_of_mem_resources hm).1
      exact hshown record hrecord
    · obtain ⟨merged, _, hmerged, h⟩ := of_run_bind h
      cases h
      -- The answer keeps some of the merged records, in another order.
      have hordered := (mem_of_mem_distinctFrom (Resolved.mem_of_mem_resources hm).1).1
      obtain ⟨id, _, hget⟩ := List.mem_filterMap.1 hordered
      obtain ⟨m', hm', heq⟩ := List.mem_map.1 (mem_of_getElem?_ofList hget)
      cases heq
      exact showsOnly_of_mergeIds hkeyed hmerged m hm'

/-! ### Deployments that look alike -/

section

variable {c' : Catalogue}

theorem lookup_eq (h : d.catalogue.LooksAlike c' context.sources.enabled) (ids : IdSet) :
    lookup { d with catalogue := c' } ids context.sources.enabled =
      d.lookup ids context.sources.enabled := by
  simp only [lookup, snapshots]
  split
  · exact h.lookup_eq ids
  · rfl

theorem resolve_eq (h : d.catalogue.LooksAlike c' context.sources.enabled) {ids : IdSet}
    (hstored : ∀ id ∈ ids, d.catalogue.StoredBy context.sources.enabled id) :
    resolve { d with catalogue := c' } ids = d.resolve ids := by
  simp only [resolve, snapshots]
  split
  · rfl
  · split
    · exact h.resolveContent_eq d.registry hstored
    · rfl

theorem keptHits_eq (h : d.catalogue.LooksAlike c' context.sources.enabled)
    (hkeyed : d.registry.Keyed) (hc : d.catalogue.HoldsRecords) (hc' : c'.HoldsRecords)
    (ranked : List Id) :
    (resolve { d with catalogue := c' } (IdSet.ofList ranked)).map
        (keptHits context.sources ranked) =
      (d.resolve (IdSet.ofList ranked)).map (keptHits context.sources ranked) := by
  simp only [resolve, snapshots]
  split
  · rfl
  · split
    · exact h.keptHits_eq hkeyed hc hc' ranked
    · rfl

theorem run_mergeIds_eq (h : d.catalogue.LooksAlike c' context.sources.enabled) (ids : IdSet) :
    ((services { d with catalogue := c' } .tables titles).mergeIds ids context).run t =
      ((d.services .tables titles).mergeIds ids context).run t := by
  refine (Services.run_mergeIds_congr ?_ fun sets t₁ hsets => ?_).symm
  · rw [run_services_lookup, run_services_lookup, lookup_eq h]
  · rw [run_services_resolve, run_services_resolve, resolve_eq h]
    intro x hx
    obtain ⟨id, members, hget, hmember⟩ := mem_wantedIds.1 hx
    exact storedBy_of_lookup (of_run_services_lookup hsets) ⟨members, hget, hmember⟩

theorem run_searchWith_eq (h : d.catalogue.LooksAlike c' context.sources.enabled)
    (hkeyed : d.registry.Keyed) (hc : d.catalogue.HoldsRecords) (hc' : c'.HoldsRecords)
    (search : TitleQuery → Call Tally (List Id)) (query : TitleQuery) :
    ((services { d with catalogue := c' } .tables titles).searchWith search query
        context.sources).run t =
      ((d.services .tables titles).searchWith search query context.sources).run t := by
  unfold Services.searchWith
  refine run_bind_congr rfl fun ranked t₁ _ => ?_
  split
  · rfl
  · have hkept : ∀ d : Deployment,
        (((d.services .tables titles).resolve (IdSet.ofList ranked)).step >>= fun r =>
            pure (keptHits context.sources ranked r)).run t₁ =
          ((((d.resolve (IdSet.ofList ranked)).map (keptHits context.sources ranked)).mapError
              .fault).mapError Interruption.stop,
            { t₁ with storageReads := t₁.storageReads + 1 }) := by
      intro d
      rw [run_bind_pure, Services.run_step, run_services_resolve]
      cases d.resolve (IdSet.ofList ranked) <;> rfl
    refine (hkept _).trans (Eq.trans ?_ (hkept d).symm)
    rw [keptHits_eq h hkeyed hc hc']

theorem run_searchTitles_eq (h : d.catalogue.LooksAlike c' context.sources.enabled)
    (hkeyed : d.registry.Keyed) (hc : d.catalogue.HoldsRecords) (hc' : c'.HoldsRecords)
    (query : TitleQuery) :
    ((services { d with catalogue := c' } .tables titles).searchTitles query
        context.sources).run t =
      ((d.services .tables titles).searchTitles query context.sources).run t := by
  cases titles with
  | none => rfl
  | some search => exact run_searchWith_eq h hkeyed hc hc' search query

theorem run_answer_eq (h : d.catalogue.LooksAlike c' context.sources.enabled)
    (hkeyed : d.registry.Keyed) (hc : d.catalogue.HoldsRecords) (hc' : c'.HoldsRecords)
    (query : Query) :
    ((services { d with catalogue := c' } .tables titles).answer query context).run t =
      ((d.services .tables titles).answer query context).run t := by
  cases query with
  | single id => exact run_bind_congr (run_mergeIds_eq h _) fun _ _ _ => rfl
  | multiple ids selection => exact run_mergeIds_eq h _
  | search text selection =>
    refine run_bind_congr (run_searchTitles_eq h hkeyed hc hc' _) fun records t₁ _ => ?_
    split
    · rfl
    · exact run_bind_congr (run_mergeIds_eq h _) fun _ _ _ => rfl

end

/-- **Publishers that are not enabled do not show.** Take two catalogues that have the same labels,
and the same rows of the publishers that an application may see. Every query has the same outcome on
both, with the same calls; and an answer shows only records of enabled publishers, and ids that
enabled publishers store. -/
theorem answers_isolated (d : Deployment) (c' : Catalogue) {context : QueryContext}
    (hkeyed : d.registry.Keyed) (hc : d.catalogue.HoldsRecords) (hc' : c'.HoldsRecords)
    (hsame : d.catalogue.LooksAlike c' context.sources.enabled)
    (titles : Option (TitleQuery → Call Tally (List Id))) (limit : Duration) (query : Query)
    (t : Tally) :
    have executor : Executor Tally := ⟨d.services .tables titles, limit⟩
    have other : Executor Tally := ⟨services { d with catalogue := c' } .tables titles, limit⟩
    (other.execute query context).run t = (executor.execute query context).run t ∧
      ∀ answer, ((executor.execute query context).run t).1 = .ok answer →
        ∀ m ∈ answer.resources, m.ShowsOnly context.sources d.catalogue := by
  refine ⟨?_, fun answer hanswer => ?_⟩
  · rw [Executor.run_execute, Executor.run_execute, run_answer_eq hsame hkeyed hc hc']
  · rw [Executor.run_execute] at hanswer
    cases hrun : ((d.services .tables titles).answer query context).run t with
    | mk outcome t' =>
      rw [hrun] at hanswer
      cases outcome with
      | error => cases hanswer
      | ok found =>
        cases hanswer
        exact showsOnly_of_answer hkeyed hrun

/-- A record that the application may see. -/
def shownRecord : Content :=
  ⟨5, ⟨"bbc", "GB", "BBC"⟩, .item, some "shown", .ofNanos 0, .null⟩

/-- A record of the same set that the application may not see. -/
def hiddenRecord : Content :=
  ⟨7, ⟨"itv", "GB", "ITV"⟩, .film, some "hidden", .ofNanos 0, .null⟩

/-- The same record, after somebody else took it over. -/
def takenOver : Content :=
  { hiddenRecord with publisher := ⟨"c4", "GB", "Channel 4"⟩, title := some "taken over" }

/-- A catalogue with an equivalence set of two publishers. -/
def stage : Deployment :=
  { registry := .builtin
    catalogue := hiddenRecord.store 0 (shownRecord.store 0
      { sets := ((∅ : Table Int).insert 5 5).insert 7 5 })
    clock := 0 }

/-- The application may see one of the publishers, and asks for all details. -/
def restricted : QueryContext :=
  ⟨⟨[shownRecord.publisher]⟩, Std.ExtTreeSet.ofList [Detail.equivalents, Detail.allEquivalents]⟩

theorem looksAlike_takenOver :
    stage.catalogue.LooksAlike (takenOver.store 1 stage.catalogue) restricted.sources.enabled := by
  refine (Catalogue.LooksAlike.refl _ _).store ?_ fun hstored => ?_
  · intro p hp
    have hp : p ∈ [shownRecord.publisher] := Sources.mem_enabled.1 hp
    cases List.mem_singleton.1 hp
    decide
  · have hnot : stage.catalogue.isStoredBy
        (restricted.sources.enabled.toList.map Publisher.key) takenOver.id.stored = false := by
      decide +kernel
    rw [Catalogue.isStoredBy_iff.2 hstored] at hnot
    cases hnot

theorem holdsRecords_stage : stage.catalogue.HoldsRecords := by
  refine Catalogue.HoldsRecords.store (Catalogue.HoldsRecords.store ?_)
  intro column row hrow
  simp at hrow

/-- A title index ranks a hidden record first; that it was taken over does not show. -/
theorem answers_isolated_of_takeover :
    have titles : Option (TitleQuery → Call Tally (List Id)) :=
      some fun _ => return [hiddenRecord.id, shownRecord.id]
    have executor : Executor Tally := ⟨stage.services .tables titles, .ofMillis 1⟩
    have other : Executor Tally :=
      ⟨services { stage with catalogue := takenOver.store 1 stage.catalogue } .tables titles,
        .ofMillis 1⟩
    (other.execute (.search "s" .first) restricted).run {} =
        (executor.execute (.search "s" .first) restricted).run {} ∧
      ∀ answer, ((executor.execute (.search "s" .first) restricted).run {}).1 = .ok answer →
        ∀ m ∈ answer.resources, m.ShowsOnly restricted.sources stage.catalogue :=
  answers_isolated stage _ Registry.keyed_builtin holdsRecords_stage holdsRecords_stage.store
    looksAlike_takenOver _ _ _ _

end Deployment

end MediaCatalogue
