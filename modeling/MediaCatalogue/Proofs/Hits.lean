import MediaCatalogue.Proofs.Absence
import MediaCatalogue.Proofs.Answers
import MediaCatalogue.Proofs.Outcomes

/-!
# Hits of a search for titles

A title index ranks ids, perhaps several times, and perhaps ids of which there is no record. The
records come from one call of the store, in whatever order, and are put in the order of the ranking.

* `Catalogue.Shows` : an application sees an id if it is stored and the publisher in its row is
  registered and enabled;
* `ContentRow.Holds` : a record is what a row says;
* `Catalogue.hits` : the records of the ids that an application sees, in the order of a ranking.

**Main theorem** (`Deployment.search_answers_ranking`): a search answers with the ranking without
repetitions and without the ids that the application does not see, and with the stored record of
each.
-/

namespace MediaCatalogue

/-! ### Repetitions -/

theorem distinctFrom_id_eq {κ : Type} [DecidableEq κ] (seen xs : List κ) :
    distinctFrom id seen xs = (xs.filter (· ∉ seen)).eraseDups := by
  fun_induction distinctFrom id seen xs with
  | case1 => rfl
  | case2 seen x xs hx ih =>
    rw [ih, List.filter_cons_of_neg]
    simpa using hx
  | case3 seen x xs hx ih =>
    rw [List.filter_cons_of_pos (by simpa using hx), List.eraseDups_cons, ih, List.filter_filter]
    congr 2
    refine List.filter_congr fun y _ => ?_
    rw [Bool.eq_iff_iff]
    simp

theorem distinct_eq_eraseDups {κ : Type} [DecidableEq κ] (xs : List κ) :
    distinct xs = xs.eraseDups := by
  rw [distinct, distinctBy, distinctFrom_id_eq]
  simp

theorem nodup_eraseDups {κ : Type} [DecidableEq κ] (xs : List κ) : xs.eraseDups.Nodup := by
  rw [← distinct_eq_eraseDups]
  exact nodup_distinct xs

/-! ### What an application sees -/

namespace Catalogue

variable {c : Catalogue} {registry : Registry} {sources : Sources} {id : Id} {record : Content}
  {ranked : List Id}

/-- The id is stored, and the publisher in its row is registered and enabled. -/
def Shows (c : Catalogue) (registry : Registry) (sources : Sources) (id : Id) : Prop :=
  ∃ row publisher, c.content[id.stored]? = some row ∧
    registry.find? row.publisher = some publisher ∧ sources.isEnabled publisher = true

instance (c : Catalogue) (registry : Registry) (sources : Sources) :
    DecidablePred (c.Shows registry sources) := fun id =>
  decidable_of_iff
    ((c.content[id.stored]?.bind (registry.find? ·.publisher)).any sources.isEnabled = true) <| by
    simp [Shows, Option.any_eq_true, Option.bind_eq_some_iff]
    grind

/-- The record of an id, if the application may see it. -/
def hit? (c : Catalogue) (registry : Registry) (sources : Sources) (id : Id) : Option Content :=
  (c.records registry)[id]?.filter (sources.isEnabled ·.publisher)

/-- The records that the application may see, in the order of a ranking. -/
def hits (c : Catalogue) (registry : Registry) (sources : Sources) (ranked : List Id) :
    List Content :=
  ranked.eraseDups.filterMap (c.hit? registry sources)

theorem hit?_eq_some_iff : c.hit? registry sources id = some record ↔
    c.content? registry id = .ok (some record) ∧ sources.isEnabled record.publisher = true := by
  rw [hit?, Option.filter_eq_some_iff, getElem?_records]

theorem map_hit?_eq (hread : ∃ found, c.content? registry id = .ok found) :
    (c.hit? registry sources id).map Content.id =
      if c.Shows registry sources id then some id else none := by
  obtain ⟨found, hfound⟩ := hread
  split
  · rename_i hshows
    obtain ⟨row, publisher, hrow, hpublisher, henabled⟩ := hshows
    cases found with
    | none =>
      -- The row of a registered publisher is never skipped.
      exfalso
      rw [content?, hrow] at hfound
      simp only [ContentRow.content?, hpublisher] at hfound
      obtain ⟨_, _, heq⟩ := of_bind_eq_ok hfound
      cases heq
    | some record =>
      obtain ⟨hid, row', hrow', hholds⟩ := content?_eq_ok_some_iff.1 hfound
      rw [hrow] at hrow'
      cases hrow'
      have hsame : publisher = record.publisher :=
        Option.some.inj (hpublisher.symm.trans hholds.publisher)
      rw [hit?_eq_some_iff.2 ⟨hfound, hsame ▸ henabled⟩, Option.map_some, hid]
  · rename_i hshows
    rw [Option.map_eq_none_iff, Option.eq_none_iff_forall_ne_some]
    intro record hrecord
    obtain ⟨hfound, henabled⟩ := hit?_eq_some_iff.1 hrecord
    obtain ⟨_, row, hrow, hholds⟩ := content?_eq_ok_some_iff.1 hfound
    exact hshows ⟨row, _, hrow, hholds.publisher, henabled⟩

/-- **The ids of hits.** -/
theorem map_id_hits (hread : ∀ id ∈ ranked, ∃ found, c.content? registry id = .ok found) :
    (c.hits registry sources ranked).map Content.id =
      ranked.eraseDups.filter (c.Shows registry sources) := by
  rw [hits, List.map_filterMap, ← List.filterMap_eq_filter]
  refine List.filterMap_congr fun id hid => ?_
  rw [map_hit?_eq (hread id (List.mem_eraseDups.1 hid)), Option.guard]
  simp

theorem of_mem_hits (h : record ∈ c.hits registry sources ranked) :
    c.content? registry record.id = .ok (some record) ∧
      sources.isEnabled record.publisher = true := by
  obtain ⟨id, _, hrecord⟩ := List.mem_filterMap.1 h
  obtain ⟨hfound, henabled⟩ := hit?_eq_some_iff.1 hrecord
  obtain ⟨rfl, _⟩ := content?_eq_ok_some_iff.1 hfound
  exact ⟨hfound, henabled⟩

/-- The hits of a call that reads all that was ranked. -/
theorem keptHits_eq_hits {r : Resolved Content}
    (h : resolveContent registry (.still c) (IdSet.ofList ranked) = .ok r) :
    keptHits sources ranked r = c.hits registry sources ranked := by
  rw [keptHits, hits, distinct_eq_eraseDups, List.filter_filterMap]
  refine List.filterMap_congr fun id hid => ?_
  have hranked : id ∈ IdSet.ofList ranked := IdSet.mem_ofList.2 (List.mem_eraseDups.1 hid)
  have hsame : (recordsById r)[id]? = (c.records registry)[id]? :=
    Option.ext fun record => (getElem?_of_resolveContent h).trans (and_iff_right hranked)
  rw [hsame, hit?]

end Catalogue

/-! ### Searching -/

namespace Deployment

variable {d : Deployment} {titles : TitleQuery → Call Tally (List Id)} {query : TitleQuery}
  {sources : Sources} {t t' : Tally} {ranked : List Id} {records : List Content}

theorem isOpen_of_resolve {ids : IdSet} {id : Id} {r : Resolved Content} (hid : id ∈ ids)
    (h : d.resolve ids = .ok r) : d.isOpen = true := by
  by_contra hopen
  obtain ⟨x, xs, hlist⟩ := List.exists_cons_of_ne_nil
    (List.ne_nil_of_mem (Std.ExtTreeSet.mem_toList.2 hid))
  rw [resolve, online_of_resolve h, snapshots, if_neg hopen, resolveContent, hlist, batches] at h
  cases h

/-- What a search has found are the hits of what was ranked, and all of them could be read. -/
theorem of_run_searchTitles {titles : Option (TitleQuery → Call Tally (List Id))}
    (h : ((d.services .tables titles).searchTitles query sources).run t = (.ok records, t')) :
    ∃ index ranked t₁, titles = some index ∧ (index query).run t = (.ok ranked, t₁) ∧
      (∀ id ∈ ranked, ∃ found, d.catalogue.content? d.registry id = .ok found) ∧
      records = d.catalogue.hits d.registry sources ranked := by
  cases titles with
  | none => cases h
  | some index =>
    obtain ⟨ranked, t₁, hranked, h⟩ := of_run_bind h
    refine ⟨index, ranked, t₁, rfl, Services.of_run_step hranked, ?_⟩
    split at h
    · rename_i hnone
      cases List.isEmpty_iff.1 hnone
      cases h
      exact ⟨fun id hid => absurd hid List.not_mem_nil, rfl⟩
    · rename_i hsome
      obtain ⟨r, _, hresolve, h⟩ := of_run_bind h
      cases h
      have hr := of_run_services_resolve (Services.of_run_step hresolve)
      have hopen : d.isOpen = true := by
        obtain ⟨id, hid⟩ := List.exists_mem_of_ne_nil ranked (by simpa using hsome)
        exact isOpen_of_resolve (IdSet.mem_ofList.2 hid) hr
      rw [resolve_of_isOpen hopen (online_of_resolve hr)] at hr
      refine ⟨fun id hid => ?_, Catalogue.keptHits_eq_hits hr⟩
      exact Catalogue.exists_resolveContent_eq_ok_iff.1 ⟨r, hr⟩ id (IdSet.mem_ofList.2 hid)

theorem exists_run_searchTitles (hopen : d.isOpen = true) (hcontent : d.outages.content = false)
    (hrecords : d.catalogue.HoldsRecords) (hranked : (titles query).run t = (.ok ranked, t')) :
    ∃ records t₂, ((d.services .tables (some titles)).searchTitles query sources).run t =
      (.ok records, t₂) := by
  show ∃ records t₂, (Services.searchWith _ titles query sources).run t = _
  unfold Services.searchWith
  rw [run_bind_ok (Services.run_step_ok hranked)]
  cases hempty : ranked.isEmpty with
  | true => exact ⟨[], t', rfl⟩
  | false =>
    obtain ⟨r, hr⟩ := Catalogue.exists_resolveContent_eq_ok_iff.2
      fun id (_ : id ∈ IdSet.ofList ranked) =>
        Catalogue.exists_content?_eq_ok hrecords d.registry id
    rw [← resolve_of_isOpen hopen hcontent] at hr
    have hresolve : ((d.services .tables (some titles)).resolve (IdSet.ofList ranked)).run t' =
        (.ok r, { t' with storageReads := t'.storageReads + 1 }) := by
      rw [run_services_resolve, hr]
      rfl
    exact ⟨_, _, run_bind_ok (Services.run_step_ok hresolve)⟩

theorem run_search_eq_ok_iff {limit : Duration} :
    (((d.services .tables (some titles)).search query sources limit).run t).1 = .ok records ↔
      (((d.services .tables (some titles)).searchTitles query sources).run t).1 = .ok records := by
  show (((d.services .tables (some titles)).searchTitles query sources).run t).1.mapError _ = _ ↔ _
  cases (((d.services .tables (some titles)).searchTitles query sources).run t).1 <;>
    simp [Except.mapError]

/-- **Hits of a search for titles.** A title index ranks some ids.

1. Whatever the tables hold, an answer has the ranked ids that are stored with a registered and
   enabled publisher. Each occurs once, where it occurs first in the ranking, with its record. If no
   publisher is enabled, there is none.
2. There is an answer if all rows are those of records. -/
theorem search_answers_ranking (d : Deployment) (titles : TitleQuery → Call Tally (List Id))
    (query : TitleQuery) (sources : Sources) (limit : Duration) (t : Tally)
    (hranked : (titles query).run t = (.ok ranked, t')) :
    have outcome := (((d.services .tables (some titles)).search query sources limit).run t).1
    (∀ records, outcome = .ok records →
      records.map Content.id = ranked.eraseDups.filter (d.catalogue.Shows d.registry sources) ∧
      (∀ record ∈ records, ∃ row, d.catalogue.content[record.id.stored]? = some row ∧
        row.Holds d.registry record) ∧
      (sources.isEmpty = true → records = [])) ∧
    (d.isOpen = true → d.outages.content = false → d.catalogue.HoldsRecords →
      ∃ records, outcome = .ok records) := by
  intro outcome
  constructor
  · intro records houtcome
    obtain ⟨_, _, _, hindex, hranked', hread, rfl⟩ :=
      of_run_searchTitles (Prod.ext (run_search_eq_ok_iff.1 houtcome) rfl)
    cases hindex
    cases hranked.symm.trans hranked'
    refine ⟨Catalogue.map_id_hits hread, fun record hrecord => ?_, fun hsources => ?_⟩
    · exact (Catalogue.content?_eq_ok_some_iff.1 (Catalogue.of_mem_hits hrecord).1).2
    · refine List.eq_nil_iff_forall_not_mem.2 fun record hrecord => ?_
      obtain ⟨p, hp, _⟩ := Sources.isEnabled_iff.1 (Catalogue.of_mem_hits hrecord).2
      rw [List.isEmpty_iff.1 hsources] at hp
      cases hp
  · intro hopen hcontent hrecords
    obtain ⟨records, t₂, hrun⟩ := exists_run_searchTitles hopen hcontent hrecords hranked
    exact ⟨records, run_search_eq_ok_iff.2 (congrArg Prod.fst hrun)⟩

open Transaction

/-- Two records of a publisher that is enabled, and one of another publisher. -/
def shelf : Deployment :=
  { registry := .builtin
    catalogue := Catalogue.empty.after
      [.write (.ofNanos 0) none (.content (plainRecord 1)),
       .write (.ofNanos 0) none (.content { plainRecord 2 with publisher := ⟨"itv", "GB", "ITV"⟩ }),
       .write (.ofNanos 0) none (.content (plainRecord 3))]
    clock := 0 }

/-- Ids are ranked twice, one is not stored, and one may not be seen. -/
theorem search_answers_ranking_of_shelf :
    ∃ records, (((shelf.services .tables (some fun _ => return [3, 9, 2, 1, 3, 1])).search
        ⟨"s", .first, []⟩ viewer.sources (.ofMillis 1)).run {}).1 = .ok records ∧
      records.map Content.id = [3, 1] := by
  obtain ⟨hanswer, hexists⟩ := search_answers_ranking shelf
    (fun _ => return [3, 9, 2, 1, 3, 1]) ⟨"s", .first, []⟩ viewer.sources (.ofMillis 1) {} rfl
  obtain ⟨records, hrecords⟩ :=
    hexists rfl rfl (Catalogue.wellFormed_after _).written.holdsRecords
  refine ⟨records, hrecords, (hanswer records hrecords).1.trans ?_⟩
  decide +kernel

end Deployment

end MediaCatalogue
