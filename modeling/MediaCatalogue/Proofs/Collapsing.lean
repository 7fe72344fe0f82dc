import MediaCatalogue.Proofs.Hits
import MediaCatalogue.Proofs.Pages

/-!
# How hits collapse on a page

A search has two pages: one with the hits alone, and one on which the hits are merged and those that
are represented by the record of an earlier hit are left out. Each hit that the application may see
is a member of its own set, so that the second page loses no hit.

* `Deployment.Answers` : what an id is answered with when it is asked for alone;
* `mem_distinctBy_iff` : of different items with one key the first one is kept;
* `Deployment.Collapses` : how the one page comes from the other;
* `Deployment.exists_mergedFor_of_hit` : every hit is answered with something.

**Main theorem** (`Deployment.page_collapses`): whenever the hits of a search are merged, the page
comes from that of the hits alone.
-/

namespace MediaCatalogue

/-! ### First occurrences -/

section

variable {α κ : Type} [DecidableEq κ] {key : α → κ} {xs : List α} {x y : α}

theorem not_sublist_pair_of_nodup (h : (x :: xs).Nodup) : ¬ [y, x].Sublist (x :: xs) := by
  have hx : x ∉ xs := (List.nodup_cons.1 h).1
  intro hpair
  rcases List.cons_sublist_cons'.1 hpair with hpair | ⟨_, hpair⟩
  · exact hx (hpair.subset (List.mem_cons_of_mem _ List.mem_cons_self))
  · exact hx (hpair.subset List.mem_cons_self)

theorem mem_distinctFrom_iff {seen : List κ} (hnodup : xs.Nodup) :
    x ∈ distinctFrom key seen xs ↔
      x ∈ xs ∧ key x ∉ seen ∧ ∀ y, [y, x].Sublist xs → key y ≠ key x := by
  fun_induction distinctFrom key seen xs with
  | case1 => simp
  | case2 seen z zs hz ih =>
    rw [ih (List.nodup_cons.1 hnodup).2, List.mem_cons]
    constructor
    · rintro ⟨hx, hseen, hfirst⟩
      refine ⟨.inr hx, hseen, fun y hpair => ?_⟩
      rcases List.cons_sublist_cons'.1 hpair with hpair | ⟨rfl, _⟩
      · exact hfirst y hpair
      · exact fun heq => hseen (heq ▸ hz)
    · rintro ⟨rfl | hx, hseen, hfirst⟩
      · exact absurd hz hseen
      · exact ⟨hx, hseen, fun y hpair => hfirst y (hpair.cons z)⟩
  | case3 seen z zs hz ih =>
    rw [List.mem_cons, ih (List.nodup_cons.1 hnodup).2, List.mem_cons, List.mem_cons, not_or]
    constructor
    · rintro (rfl | ⟨hx, ⟨hne, hseen⟩, hfirst⟩)
      · exact ⟨.inl rfl, hz, fun y hpair => absurd hpair (not_sublist_pair_of_nodup hnodup)⟩
      · refine ⟨.inr hx, hseen, fun y hpair => ?_⟩
        rcases List.cons_sublist_cons'.1 hpair with hpair | ⟨rfl, _⟩
        · exact hfirst y hpair
        · exact Ne.symm hne
    · rintro ⟨rfl | hx, hseen, hfirst⟩
      · exact .inl rfl
      · have hne : key z ≠ key x := hfirst z ((List.singleton_sublist.2 hx).cons_cons z)
        exact .inr ⟨hx, ⟨Ne.symm hne, hseen⟩, fun y hpair => hfirst y (hpair.cons z)⟩

theorem mem_distinctBy_iff (hnodup : xs.Nodup) :
    x ∈ distinctBy key xs ↔ x ∈ xs ∧ ∀ y, [y, x].Sublist xs → key y ≠ key x := by
  rw [distinctBy, mem_distinctFrom_iff hnodup]
  simp

/-- An item with a name of its own is dropped if an earlier one has its key. -/
theorem forall_distinctBy_ne_iff {β : Type} {name : α → β} (hnodup : (xs.map name).Nodup)
    (hx : x ∈ xs) : (∀ y ∈ distinctBy key xs, name y ≠ name x) ↔
      ∃ y, [y, x].Sublist xs ∧ key y = key x := by
  have hdropped : x ∉ distinctBy key xs ↔ ∃ y, [y, x].Sublist xs ∧ key y = key x := by
    rw [mem_distinctBy_iff (.of_map name hnodup)]
    simp [hx]
  rw [← hdropped]
  refine ⟨fun hnone hkept => hnone x hkept rfl, fun hnot y hy heq => hnot ?_⟩
  rwa [List.inj_on_of_nodup_map hnodup (mem_of_mem_distinctFrom hy).1 hx heq] at hy

end

/-! ### Collapsing -/

/-- How a page of merged hits comes from the page with the hits alone. That `x` is a hit before `y`
is written `[x, y].Sublist ids`, where `ids` are those of the hits. -/
structure Collapses (answers : Id → Merged → Prop) (raw page : Resolved Merged) : Prop where
  /-- The ids of the results are some of those of the hits, in their order. -/
  sublist : (page.resources.map Merged.id).Sublist (raw.resources.map Merged.id)
  /-- Different results have different primaries. -/
  distinct : page.resources.Pairwise fun m m' => m.primary.id ≠ m'.primary.id
  /-- Every result is what its id is answered with. -/
  own : ∀ m ∈ page.resources, answers m.id m
  /-- Every hit is answered with something, and one result has its primary. -/
  represented : ∀ hit ∈ raw.resources, ∃ m, answers hit.id m ∧
    ∃! result, result ∈ page.resources ∧ result.primary = m.primary
  /-- A result is the one of the first hit with its primary. -/
  first : ∀ result ∈ page.resources, ∀ x, [x, result.id].Sublist (raw.resources.map Merged.id) →
    ∀ m, answers x m → m.primary.id ≠ result.primary.id
  /-- All hits are requested. -/
  requested : page.requested = IdSet.ofList (raw.resources.map Merged.id)
  /-- The hits that have the primary of an earlier one are missing. -/
  missing : ∀ y, y ∈ page.missing ↔ ∃ x, [x, y].Sublist (raw.resources.map Merged.id) ∧
    ∃ m m', answers x m ∧ answers y m' ∧ m.primary.id = m'.primary.id

section

variable {answers : Id → Merged → Prop} {raw : Resolved Merged} {results : List Merged}

theorem pair_sublist_map_iff {α β : Type} {f : α → β} {xs : List α} {x y : β} :
    [x, y].Sublist (xs.map f) ↔ ∃ a b, [a, b].Sublist xs ∧ f a = x ∧ f b = y := by
  rw [List.sublist_map_iff]
  constructor
  · rintro ⟨pair, hpair, heq⟩
    obtain ⟨a, _, rfl, ha, hrest⟩ := List.map_eq_cons_iff.1 heq.symm
    obtain ⟨b, _, rfl, hb, hnil⟩ := List.map_eq_cons_iff.1 hrest
    cases List.map_eq_nil_iff.1 hnil
    exact ⟨a, b, hpair, ha, hb⟩
  · rintro ⟨a, b, hpair, rfl, rfl⟩
    exact ⟨_, hpair, rfl⟩

/-- If hits have the results `results`, in their order, the page comes from them on which results
are kept whose primaries are new. -/
theorem collapses_of_results (hraw : raw.resources.map Merged.id = results.map Merged.id)
    (hnodup : (results.map Merged.id).Nodup)
    (hanswers : ∀ m ∈ results, ∀ m', answers m.id m' ↔ m' = m)
    (hprimary : ∀ m ∈ results, ∀ m' ∈ results, m.primary.id = m'.primary.id →
      m.primary = m'.primary) :
    Collapses answers raw
      ⟨IdSet.ofList (results.map Merged.id), distinctBy (·.primary.id) results⟩ := by
  have hkept : ∀ {m}, m ∈ distinctBy (·.primary.id) results ↔
      m ∈ results ∧ ∀ m', [m', m].Sublist results → m'.primary.id ≠ m.primary.id :=
    mem_distinctBy_iff (.of_map Merged.id hnodup)
  have hunique : ∀ {m m'}, m ∈ results → m' ∈ results → m.id = m'.id → m = m' :=
    fun hm hm' => List.inj_on_of_nodup_map hnodup hm hm'
  have hmem : ∀ {m m'}, [m, m'].Sublist results → m ∈ results ∧ m' ∈ results :=
    fun hpair => ⟨hpair.subset (by simp), hpair.subset (by simp)⟩
  constructor
  case sublist =>
    rw [hraw]
    exact (sublist_distinctFrom _ _ _).map _
  case distinct => exact List.pairwise_map.1 (nodup_map_distinctFrom _ _ _)
  case own => exact fun m hm => (hanswers m (hkept.1 hm).1 m).2 rfl
  case represented =>
    intro hit hhit
    have hid := List.mem_map_of_mem (f := Merged.id) hhit
    rw [hraw] at hid
    obtain ⟨m, hm, hid⟩ := List.mem_map.1 hid
    -- The first result with the same primary record stands for the hit.
    obtain ⟨result, hresult, heq⟩ : ∃ result ∈ distinctBy (fun m : Merged => m.primary.id) results,
        result.primary.id = m.primary.id :=
      exists_mem_distinctFrom hm List.not_mem_nil
    refine ⟨m, hid ▸ (hanswers m hm m).2 rfl, result,
      ⟨hresult, hprimary _ (hkept.1 hresult).1 _ hm heq⟩, fun other hother => ?_⟩
    refine List.inj_on_of_nodup_map (nodup_map_distinctFrom _ _ _) hother.1 hresult ?_
    exact (congrArg Content.id hother.2).trans heq.symm
  case first =>
    intro result hresult x hbefore m hm
    rw [hraw] at hbefore
    obtain ⟨earlier, later, hpair, rfl, hid⟩ := pair_sublist_map_iff.1 hbefore
    obtain ⟨hin, hfirst⟩ := hkept.1 hresult
    cases hunique (hmem hpair).2 hin hid
    cases (hanswers earlier (hmem hpair).1 m).1 hm
    exact hfirst _ hpair
  case requested => rw [hraw]
  case missing =>
    intro y
    rw [Resolved.mem_missing, IdSet.mem_ofList, hraw, List.mem_map]
    constructor
    · rintro ⟨⟨m, hm, rfl⟩, hnone⟩
      obtain ⟨earlier, hpair, heq⟩ := (forall_distinctBy_ne_iff hnodup hm).1 hnone
      exact ⟨earlier.id, pair_sublist_map_iff.2 ⟨_, _, hpair, rfl, rfl⟩, earlier, m,
        (hanswers _ (hmem hpair).1 _).2 rfl, (hanswers _ hm _).2 rfl, heq⟩
    · rintro ⟨x, hbefore, m, m', hm, hm', heq⟩
      obtain ⟨earlier, later, hpair, rfl, rfl⟩ := pair_sublist_map_iff.1 hbefore
      rw [(hanswers earlier (hmem hpair).1 m).1 hm, (hanswers later (hmem hpair).2 m').1 hm'] at heq
      exact ⟨⟨later, (hmem hpair).2, rfl⟩,
        (forall_distinctBy_ne_iff hnodup (hmem hpair).2).2 ⟨earlier, hpair, heq⟩⟩

end

namespace Deployment

variable {d : Deployment} {context : QueryContext} {id : Id} {ids : List Id} {m m' : Merged}
  {titles : Option (TitleQuery → Call Tally (List Id))} {t : Tally}

/-! ### Hits one by one -/

/-- The id is answered with `m` and nothing else when it is asked for alone. -/
def Answers (d : Deployment) (titles : Option (TitleQuery → Call Tally (List Id)))
    (context : QueryContext) (t : Tally) (id : Id) (m : Merged) : Prop :=
  (((d.services .tables titles).mergeIds (IdSet.ofList [id]) context).run t).1 =
    .ok ⟨IdSet.ofList [id], [m]⟩

theorem answers_iff (hread : d.Readable context id) :
    d.Answers titles context t id m ↔ d.mergedFor context id = some m := by
  obtain ⟨answer, hanswer⟩ := exists_merged_singleton_iff.2 hread
  rw [Answers, run_mergeIds_eq_ok_iff, hanswer]
  obtain ⟨requested, resources⟩ := answer
  cases requested_of_merged hanswer
  rw [show resources = _ from resources_of_merged_singleton hanswer]
  cases d.mergedFor context id with
  | none => simp
  | some m' =>
    constructor
    · intro h
      cases h
      rfl
    · intro h
      cases h
      rfl

/-- **No hit is lost**: a record that the application may see is in its own set, so that there is
something to represent it. -/
theorem exists_mergedFor_of_hit (hkeyed : d.registry.Keyed) (hread : d.Readable context id)
    {record : Content} (hfound : d.catalogue.content? d.registry id = .ok (some record))
    (henabled : context.sources.isEnabled record.publisher = true) :
    ∃ m, d.mergedFor context id = some m := by
  have hsources : context.sources.isEmpty ≠ true := by
    intro hnone
    obtain ⟨p, hp, _⟩ := Sources.isEnabled_iff.1 henabled
    rw [List.isEmpty_iff.1 hnone] at hp
    cases hp
  obtain ⟨_, ⟨l, _, hlabel, _⟩, _⟩ := hread.resolve_left hsources
  have hmem : id ∈ d.catalogue.setOf context.sources.enabled id :=
    Catalogue.mem_setOf.2
      ⟨Catalogue.storedBy_of_isEnabled hkeyed hfound henabled, l, hlabel, hlabel⟩
  exact exists_merge_eq_some hmem (Catalogue.getElem?_records.2 hfound) henabled

/-! ### The results of all hits -/

theorem map_filterMap_mergedFor (h : ∀ id ∈ ids, ∃ m, d.mergedFor context id = some m) :
    (ids.filterMap (d.mergedFor context)).map Merged.id = ids := by
  rw [List.map_filterMap]
  refine (List.filterMap_congr fun id hid => ?_).trans (List.filterMap_some (l := ids))
  obtain ⟨m, hm⟩ := h id hid
  rw [hm, Option.map_some, id_of_mergedFor hm]

theorem of_mem_filterMap_mergedFor (h : m ∈ ids.filterMap (d.mergedFor context)) :
    m.id ∈ ids ∧ d.mergedFor context m.id = some m := by
  obtain ⟨id, hid, hm⟩ := List.mem_filterMap.1 h
  cases id_of_mergedFor hm
  exact ⟨hid, hm⟩

theorem orderedHits_eq {records : List Content} {merged : Resolved Merged}
    (hnodup : (records.map Content.id).Nodup)
    (h : d.merged context (IdSet.ofList (records.map Content.id)) = .ok merged) :
    orderedHits records merged =
      distinctBy (·.primary.id) ((records.map Content.id).filterMap (d.mergedFor context)) := by
  have hids : MediaCatalogue.distinct (records.map Content.id) = records.map Content.id :=
    distinctFrom_eq_self (by rwa [List.map_id]) fun _ _ => List.not_mem_nil
  rw [orderedHits, hids]
  refine congrArg _ (List.filterMap_congr fun id hid => Option.ext fun m => ?_)
  rw [getElem?_ofList_resources (nodup_of_merged h), mem_resources_of_merged h]
  constructor
  · rintro ⟨⟨_, hm⟩, rfl⟩
    exact hm
  · intro hm
    cases id_of_mergedFor hm
    exact ⟨⟨IdSet.mem_ofList.2 hid, hm⟩, rfl⟩

theorem primary_eq_of_id_eq {x y : Id} (h : d.mergedFor context x = some m)
    (h' : d.mergedFor context y = some m') (heq : m.primary.id = m'.primary.id) :
    m.primary = m'.primary := by
  have hread := (represented_of_mergedFor h).read
  rw [heq, (represented_of_mergedFor h').read] at hread
  exact (Option.some.inj (Except.ok.inj hread)).symm

/-! ### Searching -/

theorem collapses_of_hits (hkeyed : d.registry.Keyed) {query : TitleQuery} {t' : Tally}
    {records : List Content} {merged : Resolved Merged}
    (hsearch : ((d.services .tables titles).searchTitles query context.sources).run t =
      (.ok records, t'))
    (hmerged : d.merged context (IdSet.ofList (records.map Content.id)) = .ok merged) :
    Collapses (d.Answers titles context t)
      (.of (IdSet.ofList (records.map Content.id)) (records.map Merged.alone))
      (.of (IdSet.ofList (records.map Content.id)) (orderedHits records merged)) := by
  obtain ⟨_, ranked, _, _, _, hread, hrecords⟩ := of_run_searchTitles hsearch
  have hnodup : (records.map Content.id).Nodup := by
    rw [hrecords, Catalogue.map_id_hits hread]
    exact (nodup_eraseDups ranked).filter _
  have hreadable : ∀ id ∈ records.map Content.id, d.Readable context id :=
    fun id hid => readable_of_merged hmerged (IdSet.mem_ofList.2 hid)
  have hresult : ∀ id ∈ records.map Content.id, ∃ m, d.mergedFor context id = some m := by
    intro id hid
    obtain ⟨record, hrecord, rfl⟩ := List.mem_map.1 hid
    obtain ⟨hfound, henabled⟩ := Catalogue.of_mem_hits (hrecords ▸ hrecord)
    exact exists_mergedFor_of_hit hkeyed (hreadable _ hid) hfound henabled
  have hmem : ∀ m ∈ (records.map Content.id).filterMap (d.mergedFor context),
      m.id ∈ records.map Content.id ∧ d.mergedFor context m.id = some m :=
    fun m hm => of_mem_filterMap_mergedFor hm
  have halone : (records.map Merged.alone).map Merged.id = records.map Content.id := List.map_map
  have hmap : ((records.map Content.id).filterMap (d.mergedFor context)).map Merged.id =
      records.map Content.id := map_filterMap_mergedFor hresult
  have hkept : ∀ m ∈ distinctBy (·.primary.id)
      ((records.map Content.id).filterMap (d.mergedFor context)), m ∈ _ :=
    fun m hm => (mem_of_mem_distinctFrom hm).1
  -- From here on only the results matter, one for each hit in the order of the hits.
  rw [orderedHits_eq hnodup hmerged]
  generalize (records.map Content.id).filterMap (d.mergedFor context) = results at hmem hmap hkept ⊢
  have hpage : ((distinctBy (·.primary.id) results).map Merged.id).Nodup :=
    (hmap ▸ hnodup).sublist ((sublist_distinctFrom _ _ _).map _)
  rw [Resolved.of_eq (halone ▸ hnodup) fun m hm => ?_,
    Resolved.of_eq hpage fun m hm => IdSet.mem_ofList.2 (hmem m (hkept m hm)).1, ← hmap]
  · refine collapses_of_results (halone.trans hmap.symm) (hmap ▸ hnodup) (fun m hm m' => ?_)
      fun m hm m' hm' heq => primary_eq_of_id_eq (hmem m hm).2 (hmem m' hm').2 heq
    rw [answers_iff (hreadable _ (hmem m hm).1), (hmem m hm).2, Option.some.injEq, eq_comm]
  · rw [IdSet.mem_ofList, ← halone]
    exact List.mem_map_of_mem hm

section

variable {limit : Duration} {text : String} {selection : Selection} {records : List Content}
  {t' : Tally}

variable (hsearch : ((d.services .tables titles).searchTitles
  (.forSources text selection context.sources) context.sources).run t = (.ok records, t'))

include hsearch

theorem run_execute_search_alone (hplain : context.details.wantsEquivalence = false) :
    ((Executor.execute ⟨d.services .tables titles, limit⟩ (.search text selection)
      context).run t).1 =
        .ok (.of (IdSet.ofList (records.map Content.id)) (records.map Merged.alone)) := by
  rw [Executor.run_execute]
  unfold Services.answer Services.answerSearch
  rw [run_bind_ok hsearch, hplain]
  rfl

theorem run_execute_search_merged (hwants : context.details.wantsEquivalence = true)
    {merged : Resolved Merged}
    (hmerged : d.merged context (IdSet.ofList (records.map Content.id)) = .ok merged) :
    ((Executor.execute ⟨d.services .tables titles, limit⟩ (.search text selection)
      context).run t).1 =
        .ok (.of (IdSet.ofList (records.map Content.id)) (orderedHits records merged)) := by
  have hwork : ((d.services .tables titles).answer (.search text selection) context).run t =
      ((d.services .tables titles).mergeIds (IdSet.ofList (records.map Content.id)) context >>=
        fun merged => pure (Resolved.of (IdSet.ofList (records.map Content.id))
          (orderedHits records merged))).run t' := by
    unfold Services.answer Services.answerSearch
    rw [run_bind_ok hsearch, hwants]
    rfl
  rw [Executor.run_execute]
  simp only [hwork, run_bind_pure, run_mergeIds_eq_ok_iff.2 hmerged]
  rfl

end

/-- **How hits collapse on a page.** Titles are searched for an application that wants hits merged.

1. Whenever there is an answer, the same search has one without merging. The results of the first
   come from the hits of the second: in their order, with a result for each primary that a hit is
   answered with when it is asked for alone, which is the one of the first hit with this primary.
   What is missing are the other hits.
2. There is an answer if the database is in order and the title index answers. -/
theorem page_collapses (d : Deployment) (hkeyed : d.registry.Keyed)
    (titles : TitleQuery → Call Tally (List Id)) (context : QueryContext) (plain : DetailSet)
    (hwants : context.details.wantsEquivalence = true) (hplain : plain.wantsEquivalence = false)
    (t : Tally) (limit : Duration) (text : String) (selection : Selection) :
    have outcome := fun context : QueryContext =>
      ((Executor.execute ⟨d.services .tables (some titles), limit⟩ (.search text selection)
        context).run t).1
    (∀ page, outcome context = .ok page → ∃ raw,
      outcome { context with details := plain } = .ok raw ∧
        Collapses (d.Answers (some titles) context t) raw page) ∧
    (d.isOpen = true → d.outages.content = false → d.catalogue.sets.HoldsIds →
      d.catalogue.HoldsRecords →
      (∃ ranked t',
        (titles (.forSources text selection context.sources)).run t = (.ok ranked, t')) →
      ∃ page, outcome context = .ok page) := by
  intro outcome
  constructor
  · intro page hpage
    obtain ⟨records, t', merged, hsearch, hmerged, rfl⟩ :=
      exists_orderedHits_of_search hwants hpage
    have hraw : outcome { context with details := plain } =
        .ok (.of (IdSet.ofList (records.map Content.id)) (records.map Merged.alone)) :=
      run_execute_search_alone hsearch hplain
    refine ⟨_, hraw, ?_⟩
    exact collapses_of_hits hkeyed hsearch hmerged
  · intro hopen hcontent hsets hrecords ⟨ranked, t', hranked⟩
    obtain ⟨records, _, hsearch⟩ := exists_run_searchTitles hopen hcontent hrecords hranked
    have hreadable : ∀ id ∈ IdSet.ofList (records.map Content.id), d.Readable context id :=
      fun id _ => readable_of_holdsIds hopen hcontent hsets hrecords id
    obtain ⟨merged, hmerged⟩ := exists_merged_eq_ok hreadable
    exact ⟨_, run_execute_search_merged hsearch hwants hmerged⟩

open Transaction

/-- A publisher that is less preferred. -/
def secondBroadcaster : Publisher := ⟨"itv", "GB", "ITV"⟩

/-- Records of two publishers denote the same work. -/
def couple : Deployment :=
  { registry := .builtin
    catalogue := Catalogue.empty.after
      [.write (.ofNanos 0) none (.content (plainRecord 1)),
       .write (.ofNanos 0) none (.content { plainRecord 2 with publisher := secondBroadcaster }),
       .write (.ofNanos 0) none (.equivalence ⟨1, IdSet.ofList [2], broadcaster, .ofNanos 0⟩),
       .refresh none 1]
    clock := 0 }

/-- An application that may see both asks for merged results. -/
def mergingBoth : QueryContext :=
  ⟨⟨[broadcaster, secondBroadcaster]⟩, Std.ExtTreeSet.ofList [Detail.equivalents]⟩

/-- The outcome of a search that finds the second record first, and again last. -/
def coupleSearch (context : QueryContext) : Except QueryError (Resolved Merged) :=
  ((Executor.execute ⟨couple.services .tables (some fun _ => return [2, 1, 2]), .ofMillis 1⟩
    (.search "s" .first) context).run {}).1

/-- The second record is represented by the first one, which is left out then. -/
theorem page_collapses_of_couple :
    ∃ raw page, coupleSearch { mergingBoth with details := ∅ } = .ok raw ∧
      coupleSearch mergingBoth = .ok page ∧
      Collapses (couple.Answers (some fun _ => return [2, 1, 2]) mergingBoth {}) raw page ∧
      raw.resources.map Merged.id = [2, 1] ∧ page.resources.map Merged.id = [2] ∧
      page.missing.toList = [1] := by
  obtain ⟨hcollapses, hexists⟩ := page_collapses couple Registry.keyed_builtin
    (fun _ => return [2, 1, 2]) mergingBoth ∅ (by decide +kernel) (by decide +kernel) {}
    (.ofMillis 1) "s" .first
  obtain ⟨page, hpage⟩ := hexists rfl rfl (Catalogue.wellFormed_after _).holdsIds.sets
    (Catalogue.wellFormed_after _).written.holdsRecords ⟨_, _, rfl⟩
  obtain ⟨raw, hraw, hboth⟩ := hcollapses page hpage
  have hshown : (coupleSearch { mergingBoth with details := ∅ }).map
      (·.resources.map Merged.id) = .ok [2, 1] := by
    decide +kernel
  have hkept : (coupleSearch mergingBoth).map
      (fun page => (page.resources.map Merged.id, page.missing.toList)) = .ok ([2], [1]) := by
    simp only [coupleSearch, Executor.execute, Services.answer, Services.answerSearch,
      Services.mergeIds, merge_eq_insertionSort]
    decide +kernel
  rw [show coupleSearch _ = _ from hraw] at hshown
  rw [show coupleSearch _ = _ from hpage] at hkept
  obtain ⟨hresults, hmissing⟩ := Prod.mk.inj (Except.ok.inj hkept)
  exact ⟨raw, page, hraw, hpage, hboth, Except.ok.inj hshown, hresults, hmissing⟩

end Deployment

end MediaCatalogue
