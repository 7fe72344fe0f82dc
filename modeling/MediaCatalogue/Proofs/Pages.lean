import Mathlib.Data.List.Pairwise
import MediaCatalogue.Proofs.Absence
import MediaCatalogue.Proofs.Agreement
import MediaCatalogue.Proofs.Outcomes

/-!
# Sets on a page of merged hits

Hits of a search are merged one by one, and a hit that is represented by the record of an earlier
one is left out. Hits of one set may be represented by different records, though: a hit whose record
is of the first publisher of the set represents itself.

* `Deployment.MergedPage` : which results are on the page. It has one for each record that
  represents a hit;
* `Deployment.Represented.primary_id_eq_iff` : when two hits of a set are represented by the same
  record.

**Main theorem** (`Deployment.sets_of_page`): two results on a page have sets without a common id,
or the same set and different primaries of its first publisher. No set is repeated iff one record
represents all hits of a set, which depends on the publishers of the hits.
-/

namespace MediaCatalogue

/-- The sets of the results have no id in common. -/
def Merged.Apart (m m' : Merged) : Prop := ∀ x ∈ m.equivalentIds, x ∉ m'.equivalentIds

theorem Merged.Apart.symm {m m' : Merged} (h : m.Apart m') : m'.Apart m :=
  fun x hx' hx => h x hx hx'

/-! ### Results on a page -/

section

variable {records : List Content} {merged : Resolved Merged} {m m' : Merged}

theorem pairwise_orderedHits :
    (orderedHits records merged).Pairwise fun m m' => m.primary.id ≠ m'.primary.id :=
  List.pairwise_map.1 (nodup_map_distinctFrom (fun m : Merged => m.primary.id) [] _)

theorem getElem?_ofList_resources (hnodup : (merged.resources.map Merged.id).Nodup) {id : Id} :
    (Std.ExtTreeMap.ofList (merged.resources.map fun m => (m.id, m)) : IdMap Merged)[id]? =
      some m ↔ m ∈ merged.resources ∧ m.id = id := by
  rw [getElem?_ofList_iff]
  · simp [and_comm, eq_comm]
  · intro id a b ha hb
    obtain ⟨_, hmem, heq⟩ := List.mem_map.1 ha
    cases heq
    obtain ⟨_, hmem', heq⟩ := List.mem_map.1 hb
    obtain ⟨hsame, rfl⟩ := Prod.mk.inj heq
    exact List.inj_on_of_nodup_map hnodup hmem hmem' hsame.symm

theorem exists_mem_orderedHits (hnodup : (merged.resources.map Merged.id).Nodup)
    (hm : m ∈ merged.resources) (hid : m.id ∈ records.map Content.id) :
    ∃ m' ∈ orderedHits records merged, m'.primary.id = m.primary.id := by
  suffices hhit : m ∈ (distinct (records.map Content.id)).filterMap
      ((Std.ExtTreeMap.ofList (merged.resources.map fun m => (m.id, m)) : IdMap Merged)[·]?) from
    exists_mem_distinctFrom hhit List.not_mem_nil
  exact List.mem_filterMap.2
    ⟨m.id, mem_distinct.2 hid, (getElem?_ofList_resources hnodup).2 ⟨hm, rfl⟩⟩

end

namespace Deployment

variable {d : Deployment} {context : QueryContext} {answer : Resolved Merged} {m m' : Merged}
  {id : Id}

/-- What is on a page of merged hits. -/
structure MergedPage (d : Deployment) (context : QueryContext) (answer : Resolved Merged) :
    Prop where
  /-- Every result is the one of a hit. -/
  own : ∀ m ∈ answer.resources, m.id ∈ answer.requested ∧ d.mergedFor context m.id = some m
  /-- Different results are represented by different records. -/
  distinct : answer.resources.Pairwise fun m m' => m.primary.id ≠ m'.primary.id
  /-- Every record that represents a hit is on the page. -/
  covers : ∀ id ∈ answer.requested, ∀ m, d.mergedFor context id = some m →
    ∃ m' ∈ answer.resources, m'.primary.id = m.primary.id

theorem mergedPage_orderedHits {records : List Content} {merged : Resolved Merged}
    (h : d.merged context (IdSet.ofList (records.map Content.id)) = .ok merged) :
    d.MergedPage context
      (.of (IdSet.ofList (records.map Content.id)) (orderedHits records merged)) where
  own m hm := by
    obtain ⟨hordered, hid⟩ := Resolved.mem_of_mem_resources hm
    exact ⟨hid, ((mem_resources_of_merged h).1 (mem_resources_of_mem_orderedHits hordered)).2⟩
  distinct := pairwise_orderedHits.sublist (Resolved.sublist_resources _ _)
  covers id hid m hm := by
    cases id_of_mergedFor hm
    have hmem := (mem_resources_of_merged h).2 ⟨hid, hm⟩
    obtain ⟨m', hm', heq⟩ :=
      exists_mem_orderedHits (nodup_of_merged h) hmem (IdSet.mem_ofList.1 hid)
    refine ⟨m', (Resolved.mem_resources_iff fun a ha b hb hab => ?_).2 ⟨hm', ?_⟩, heq⟩
    · exact List.inj_on_of_nodup_map (nodup_of_merged h) (mem_resources_of_mem_orderedHits ha)
        (mem_resources_of_mem_orderedHits hb) hab
    · exact ((mem_resources_of_merged h).1 (mem_resources_of_mem_orderedHits hm')).1

section

variable {titles : Option (TitleQuery → Call Tally (List Id))} {t : Tally} {limit : Duration}
  {text : String} {selection : Selection}

theorem exists_orderedHits_of_search (hwants : context.details.wantsEquivalence = true)
    (h : ((Executor.execute ⟨d.services .tables titles, limit⟩ (.search text selection)
      context).run t).1 = .ok answer) :
    ∃ records t' merged, ((d.services .tables titles).searchTitles
        (.forSources text selection context.sources) context.sources).run t = (.ok records, t') ∧
      d.merged context (IdSet.ofList (records.map Content.id)) = .ok merged ∧
      answer = .of (IdSet.ofList (records.map Content.id)) (orderedHits records merged) := by
  rw [Executor.run_execute] at h
  cases hrun : ((d.services .tables titles).answer (.search text selection) context).run t with
  | mk outcome t' =>
    rw [hrun] at h
    cases outcome with
    | error => cases h
    | ok found =>
      cases h
      obtain ⟨records, t₁, hsearch, h⟩ := of_run_bind hrun
      rw [hwants] at h
      obtain ⟨merged, t₂, hmerged, h⟩ := of_run_bind h
      cases h
      exact ⟨records, t₁, merged, hsearch,
        run_mergeIds_eq_ok_iff.1 (congrArg Prod.fst hmerged), rfl⟩

theorem mergedPage_of_search (hwants : context.details.wantsEquivalence = true)
    (h : ((Executor.execute ⟨d.services .tables titles, limit⟩ (.search text selection)
      context).run t).1 = .ok answer) : d.MergedPage context answer := by
  obtain ⟨records, _, merged, _, hmerged, rfl⟩ := exists_orderedHits_of_search hwants h
  exact mergedPage_orderedHits hmerged

end

/-! ### Hits of one set -/

theorem equivalentIds_eq_of_mem {x y z : Id} (h : d.mergedFor context x = some m)
    (h' : d.mergedFor context y = some m') (hz : z ∈ m.equivalentIds) (hz' : z ∈ m'.equivalentIds) :
    m.equivalentIds = m'.equivalentIds := by
  rw [(merge_eq_some h).2.1] at hz ⊢
  rw [(merge_eq_some h').2.1] at hz' ⊢
  rw [← Catalogue.setOf_eq_of_mem hz, Catalogue.setOf_eq_of_mem hz']

theorem Represented.contends_primary (h : d.Represented context m) :
    d.Contends m m.primary.id :=
  ⟨h.member, m.primary, h.read, rfl⟩

theorem Represented.contends_iff (h : d.Represented context m) (h' : d.Represented context m')
    (hset : m.equivalentIds = m'.equivalentIds) : d.Contends m id ↔ d.Contends m' id := by
  rw [Contends, Contends, hset, h.publisher_eq h' hset]

section

variable (h : d.Represented context m) (h' : d.Represented context m')
  (hset : m.equivalentIds = m'.equivalentIds)

include h h' hset

/-- A hit that contends represents itself. If it represents another hit too, that one does not
contend, and no contender is lower. -/
theorem Represented.lowest_of_primary_id_eq (hid : m.id ≠ m'.id)
    (heq : m.primary.id = m'.primary.id) (hown : d.Contends m m.id) :
    ¬ d.Contends m m'.id ∧ ∀ x, d.Contends m x → m.id.value ≤ x.value := by
  have hfirst : m.primary.id = m.id := h.own hown
  have hother : ¬ d.Contends m' m'.id := fun hother =>
    hid (hfirst.symm.trans (heq.trans (h'.own hother)))
  refine ⟨fun hcontends => hother ((h.contends_iff h' hset).1 hcontends), fun x hx => ?_⟩
  rw [← hfirst, heq]
  exact h'.lowest hother x ((h.contends_iff h' hset).1 hx)

/-- The lowest contender represents itself and every hit that does not contend. -/
theorem Represented.primary_id_eq_of_lowest (hown : d.Contends m m.id)
    (hother : ¬ d.Contends m m'.id) (hle : ∀ x, d.Contends m x → m.id.value ≤ x.value) :
    m.primary.id = m'.primary.id := by
  have hiff : ∀ x, d.Contends m x ↔ d.Contends m' x := fun x => h.contends_iff h' hset
  rw [h.own hown]
  refine Id.ext (le_antisymm (hle _ ((hiff _).2 h'.contends_primary)) ?_)
  exact h'.lowest (fun hcontends => hother ((hiff _).2 hcontends)) _ ((hiff _).1 hown)

/-- **When one record represents two hits of a set**: each of them is the lowest contender, or does
not contend. -/
theorem Represented.primary_id_eq_iff (hid : m.id ≠ m'.id) :
    m.primary.id = m'.primary.id ↔
      (d.Contends m m.id → ¬ d.Contends m m'.id ∧ ∀ x, d.Contends m x → m.id.value ≤ x.value) ∧
      (d.Contends m' m'.id →
        ¬ d.Contends m' m.id ∧ ∀ x, d.Contends m' x → m'.id.value ≤ x.value) := by
  constructor
  · intro heq
    exact ⟨h.lowest_of_primary_id_eq h' hset hid heq,
      h'.lowest_of_primary_id_eq h hset.symm hid.symm heq.symm⟩
  · rintro ⟨hfirst, hsecond⟩
    by_cases hown : d.Contends m m.id
    · exact h.primary_id_eq_of_lowest h' hset hown (hfirst hown).1 (hfirst hown).2
    by_cases hother : d.Contends m' m'.id
    · exact (h'.primary_id_eq_of_lowest h hset.symm hother (hsecond hother).1
        (hsecond hother).2).symm
    · rw [h.primary_eq h' hset hown hother]

end

namespace MergedPage

variable (page : d.MergedPage context answer)

include page

theorem represented (hm : m ∈ answer.resources) : d.Represented context m :=
  represented_of_mergedFor (page.own m hm).2

theorem equivalentIds_eq (hm : m ∈ answer.resources) (hid : d.mergedFor context id = some m')
    (heq : m.primary.id = m'.primary.id) : m.equivalentIds = m'.equivalentIds :=
  equivalentIds_eq_of_mem (page.own m hm).2 hid (page.represented hm).member
    (heq ▸ (represented_of_mergedFor hid).member)

/-- A page shows no set twice iff all hits of a set are represented by one record. -/
theorem pairwise_apart_iff : answer.resources.Pairwise Merged.Apart ↔
    ∀ x ∈ answer.requested, ∀ y ∈ answer.requested, ∀ m m', d.mergedFor context x = some m →
      d.mergedFor context y = some m' → m.equivalentIds = m'.equivalentIds →
        m.primary.id = m'.primary.id := by
  constructor
  · intro hapart x hx y hy m m' hm hm' hset
    obtain ⟨p, hp, hprimary⟩ := page.covers x hx m hm
    obtain ⟨p', hp', hprimary'⟩ := page.covers y hy m' hm'
    have hsame : p.equivalentIds = p'.equivalentIds := by
      rw [page.equivalentIds_eq hp hm hprimary, hset, page.equivalentIds_eq hp' hm' hprimary']
    -- The two results on the page have ids in common, so they are one.
    have heq : p = p' := by
      by_contra hne
      have : Std.Symm Merged.Apart := ⟨fun _ _ => Merged.Apart.symm⟩
      have hmember := (page.represented hp).member
      exact hapart.forall hp hp' hne _ hmember (hsame ▸ hmember)
    rw [← hprimary, heq, hprimary']
  · intro hone
    refine page.distinct.imp_of_mem fun {m m'} hm hm' hne x hx hx' => hne ?_
    obtain ⟨hid, hmerged⟩ := page.own m hm
    obtain ⟨hid', hmerged'⟩ := page.own m' hm'
    exact hone _ hid _ hid' m m' hmerged hmerged' (equivalentIds_eq_of_mem hmerged hmerged' hx hx')

end MergedPage

/-- **Sets on a page.** Titles are searched, and the hits are merged. Of two results on the page,

* the sets have no id in common;
* or the sets are equal, but the primaries are different records of one publisher, one of which is
  the record of its own hit.

So a page may show a set twice. It shows none twice iff for any two hits of one set of which the
first has a record of the publisher that represents the set, the second has none, and no other
record of this publisher in the set has a lower id. -/
theorem sets_of_page (d : Deployment) (titles : Option (TitleQuery → Call Tally (List Id)))
    (context : QueryContext) (t : Tally) (limit : Duration) (text : String)
    (selection : Selection) {answer : Resolved Merged}
    (hwants : context.details.wantsEquivalence = true)
    (h : ((Executor.execute ⟨d.services .tables titles, limit⟩ (.search text selection)
      context).run t).1 = .ok answer) :
    (answer.resources.Pairwise fun m m' =>
      m.Apart m' ∨
      m.equivalentIds = m'.equivalentIds ∧ m.primary.id ≠ m'.primary.id ∧
        m.primary.publisher.key = m'.primary.publisher.key ∧
        (m.primary.id = m.id ∨ m'.primary.id = m'.id)) ∧
    (answer.resources.Pairwise Merged.Apart ↔
      ∀ x ∈ answer.requested, ∀ y ∈ answer.requested, x ≠ y → ∀ m m',
        d.mergedFor context x = some m → d.mergedFor context y = some m' →
        m.equivalentIds = m'.equivalentIds → d.Contends m x →
          ¬ d.Contends m y ∧ ∀ z, d.Contends m z → x.value ≤ z.value) := by
  have page : d.MergedPage context answer := mergedPage_of_search hwants h
  constructor
  · refine page.distinct.imp_of_mem fun {m m'} hm hm' hne => or_iff_not_imp_left.2 fun hapart => ?_
    obtain ⟨hid, hmerged⟩ := page.own m hm
    obtain ⟨hid', hmerged'⟩ := page.own m' hm'
    -- Two results that share an id have the same set, so both primary records are of one publisher.
    obtain ⟨x, hx, hx'⟩ : ∃ x ∈ m.equivalentIds, x ∈ m'.equivalentIds := by
      simpa [Merged.Apart] using hapart
    have hset := equivalentIds_eq_of_mem hmerged hmerged' hx hx'
    have hfirst := page.represented hm
    have hsecond := page.represented hm'
    refine ⟨hset, hne, hfirst.publisher_eq hsecond hset, ?_⟩
    by_contra hneither
    rw [not_or] at hneither
    refine hne (congrArg Content.id (hfirst.primary_eq hsecond hset ?_ ?_))
    · exact fun hown => hneither.1 (hfirst.own hown)
    · exact fun hown => hneither.2 (hsecond.own hown)
  · rw [page.pairwise_apart_iff]
    constructor
    · intro hone x hx y hy hne m m' hm hm' hset
      cases id_of_mergedFor hm
      cases id_of_mergedFor hm'
      exact (represented_of_mergedFor hm).lowest_of_primary_id_eq (represented_of_mergedFor hm')
        hset hne (hone _ hx _ hy m m' hm hm' hset)
    · intro halone x hx y hy m m' hm hm' hset
      cases id_of_mergedFor hm
      cases id_of_mergedFor hm'
      by_cases hne : m.id = m'.id
      · rw [hne, hm'] at hm
        rw [Option.some.inj hm]
      · exact ((represented_of_mergedFor hm).primary_id_eq_iff (represented_of_mergedFor hm') hset
          hne).2 ⟨halone _ hx _ hy hne m m' hm hm' hset,
            halone _ hy _ hx (Ne.symm hne) m' m hm' hm hset.symm⟩

open Transaction

/-- Two records of one publisher denote the same work. -/
def twins : Deployment :=
  { registry := .builtin
    catalogue := Catalogue.empty.after
      [.write (.ofNanos 0) none (.content (plainRecord 1)),
       .write (.ofNanos 0) none (.content (plainRecord 2)),
       .write (.ofNanos 0) none (.equivalence ⟨1, IdSet.ofList [2], broadcaster, .ofNanos 0⟩),
       .refresh none 1]
    clock := 0 }

/-- An application that may see both asks for merged results. -/
def merging : QueryContext := ⟨viewer.sources, Std.ExtTreeSet.ofList [Detail.equivalents]⟩

/-- The outcome of a search that finds both. -/
def twinSearch : Except QueryError (Resolved Merged) :=
  ((Executor.execute ⟨twins.services .tables (some fun _ => return [1, 2]), .ofMillis 1⟩
    (.search "s" .first) merging).run {}).1

theorem resources_twinSearch :
    twinSearch.map (fun answer =>
      answer.resources.map fun m => (m.id, m.primary.id, m.equivalentIds.toList)) =
        .ok [(1, 1, [1, 2]), (2, 2, [1, 2])] := by
  simp only [twinSearch, Executor.execute, Services.answer, Services.answerSearch,
    Services.mergeIds, merge_eq_insertionSort]
  decide +kernel

/-- Both hits represent themselves, with the same set. -/
theorem exists_page_twins : ∃ (requested : IdSet) (m m' : Merged),
    twinSearch = .ok ⟨requested, [m, m']⟩ ∧
      m.equivalentIds.toList = [1, 2] ∧ m'.equivalentIds.toList = [1, 2] := by
  have hshown := resources_twinSearch
  cases hsearch : twinSearch with
  | error e =>
    rw [hsearch] at hshown
    cases hshown
  | ok answer =>
    rw [hsearch] at hshown
    obtain ⟨requested, resources⟩ := answer
    obtain ⟨m, others, rfl, hm, hothers⟩ := List.map_eq_cons_iff.1 (Except.ok.inj hshown)
    obtain ⟨m', others', rfl, hm', hnone⟩ := List.map_eq_cons_iff.1 hothers
    cases List.map_eq_nil_iff.1 hnone
    simp only [Prod.mk.injEq] at hm hm'
    exact ⟨requested, m, m', rfl, hm.2.2, hm'.2.2⟩

/-- The sets of the twins are equal, and represented by one publisher. -/
theorem sets_of_page_of_twins : ∃ (requested : IdSet) (m m' : Merged),
    twinSearch = .ok ⟨requested, [m, m']⟩ ∧ m.equivalentIds = m'.equivalentIds ∧
      m.primary.publisher.key = m'.primary.publisher.key := by
  obtain ⟨requested, m, m', hsearch, hset, hset'⟩ := exists_page_twins
  have hpair := (sets_of_page twins _ _ _ _ _ _ (by decide +kernel) hsearch).1
  obtain hapart | ⟨hsame, _, hpublisher, _⟩ :=
    List.rel_of_pairwise_cons hpair (List.mem_singleton_self m')
  · refine absurd ?_ (hapart 1 (Std.ExtTreeSet.mem_toList.1 (by rw [hset]; simp)))
    exact Std.ExtTreeSet.mem_toList.1 (by rw [hset']; simp)
  · exact ⟨requested, m, m', hsearch, hsame, hpublisher⟩

/-- **A set that is shown twice.** -/
theorem twins_not_apart : merging.details.wantsEquivalence = true ∧
    ∃ answer, twinSearch = .ok answer ∧ ¬ answer.resources.Pairwise Merged.Apart := by
  obtain ⟨requested, m, m', hsearch, hset, hset'⟩ := exists_page_twins
  refine ⟨by decide +kernel, _, hsearch, fun hapart => ?_⟩
  refine List.rel_of_pairwise_cons hapart (List.mem_singleton_self m') 1 ?_ ?_
  · exact Std.ExtTreeSet.mem_toList.1 (by rw [hset]; simp)
  · exact Std.ExtTreeSet.mem_toList.1 (by rw [hset']; simp)

end Deployment

end MediaCatalogue
