import MediaCatalogue.Proofs.Recomputing
import MediaCatalogue.Proofs.Walks

/-!
# What a refresh does to the rows of labels

A refresh of an id visits the ids that are connected to it or to an id that has its label. It gives
each of them the row that it should have, whatever the table said before, and touches nothing else.

* `Catalogue.perform_refresh_eq_iff` : this determines the tables afterwards, so that the order in
  which the seeds are visited does not matter;
* `Catalogue.Relabelled.rightAt` : what is right stays right;
* `Catalogue.rightAt_after_refreshes` : what is connected to an id that was refreshed stays right
  while others are.

**Main theorem** (`Catalogue.refresh_repairs_rows`): besides, tables that are right do not change, and
those of which every id with an edge or a row was refreshed are right.
-/

namespace MediaCatalogue

namespace Catalogue

open Statements

variable {c c' : Catalogue} {q x : Id}

theorem relabelled_iff : c.Relabelled (c.SharesLabel q) c' ↔
    c' = { c with sets := c'.sets } ∧ (∀ x, c.Visited q x → c'.RightAt x) ∧
      ∀ column, (∀ x, c.Visited q x → x.stored ≠ column) →
        c'.sets[column]? = c.sets[column]? := by
  constructor
  · intro h
    refine ⟨h.eq, fun x => h.rightAt_of_visited, fun column hcolumn => ?_⟩
    exact h.kept column fun s x hs hsx => hcolumn x ⟨s, hs, hsx⟩
  · rintro ⟨heq, hright, hkept⟩
    refine ⟨heq, fun s x hs hsx => hright x ⟨s, hs, hsx⟩, fun column hcolumn => ?_⟩
    exact hkept column fun x ⟨s, hs, hsx⟩ => hcolumn s x hs hsx

theorem perform_refresh_eq_iff_refreshed :
    (MediaCatalogue.refresh q).perform none c = (.ok (), c') ↔ refreshed q c = .ok c' := by
  constructor
  · intro h
    have hends := ends_refreshed (c := c) (E := fun _ => True) q trivial fun _ _ => trivial
    exact hends.of_perform_ok h
  · intro h
    exact ((takes_refresh h).perform none).trans (if_neg not_breaks_none)

/-- **What a refresh does.** -/
theorem perform_refresh_eq_iff : (MediaCatalogue.refresh q).perform none c = (.ok (), c') ↔
    c.ReadableAround q ∧ c.Relabelled (c.SharesLabel q) c' :=
  perform_refresh_eq_iff_refreshed.trans refreshed_eq_ok_iff

theorem relabelled_of_refresh (h : (MediaCatalogue.refresh q).perform none c = (.ok (), c')) :
    c.Relabelled (c.SharesLabel q) c' :=
  (perform_refresh_eq_iff.1 h).2

/-- A refresh makes no right row wrong. -/
theorem Relabelled.rightAt {seed : Id → Prop} (h : c.Relabelled seed c') (hx : c.RightAt x) :
    c'.RightAt x := by
  by_contra hwrong
  exact (h.of_not_rightAt hwrong).1 hx

/-- Where all seeds are right, nothing changes. -/
theorem Relabelled.eq_self {seed : Id → Prop} (h : c.Relabelled seed c')
    (hright : ∀ x, c.RightAt x) : c' = c :=
  h.unique (relabelled_self fun _ x _ _ => hright x)

theorem rightAt_of_alone (hlinks : ∀ y, ¬ c.edges.Linked x y) (hrow : c.sets[x.stored]? = none) :
    c.RightAt x := by
  intro label
  simp only [hrow, reduceCtorEq, false_iff]
  rintro ⟨l, _, hl⟩
  obtain ⟨y, hy, hne⟩ := hl.shared
  refine hne (hy.kept (P := (· = x)) (fun a b hlink ha => ?_) rfl)
  exact absurd hlink (ha ▸ hlinks b)

/-- Refreshes of several ids, one after the other, keep right what is right, and make right what is
connected to one of them. -/
theorem rightAt_after_refreshes (hedges : c.edges.HoldsIds) (hkeys : c.sets.KeyedByIds)
    (ids : List Id) :
    (c.after (ids.map (Transaction.refresh none))).edges = c.edges ∧
      (c.after (ids.map (Transaction.refresh none))).sets.KeyedByIds ∧
        ∀ x, (∃ id ∈ ids, c.edges.Connected id x) ∨ c.RightAt x →
          (c.after (ids.map (Transaction.refresh none))).RightAt x := by
  induction ids generalizing c with
  | nil => exact ⟨rfl, hkeys, by simp [after]⟩
  | cons id ids ih =>
    obtain ⟨c', hc'⟩ := (readableAround hedges hkeys id).exists_refreshed
    have hrelabelled := (refreshed_eq_ok_iff.1 hc').2
    have hcommit : (Transaction.refresh none id).commit c = c' :=
      congrArg Prod.snd (perform_refresh_eq_iff_refreshed.2 hc')
    have hafter : c.after ((id :: ids).map (Transaction.refresh none)) =
        c'.after (ids.map (Transaction.refresh none)) := by
      rw [← hcommit]
      rfl
    obtain ⟨hedges', hkeys', hright⟩ :=
      ih (hrelabelled.edges_eq ▸ hedges) (hrelabelled.keyedByIds hkeys)
    rw [hafter]
    refine ⟨hedges'.trans hrelabelled.edges_eq, hkeys', fun x hx => hright x ?_⟩
    -- The first refresh makes its component right, and the later ones keep what is right.
    rcases hx with ⟨near, hnear, hconnected⟩ | hx
    · rcases List.mem_cons.1 hnear with rfl | hnear
      · exact .inr (hrelabelled.rightAt_of_visited (visited_of_connected hconnected))
      · exact .inl ⟨near, hnear, hrelabelled.edges_eq ▸ hconnected⟩
    · exact .inr (hrelabelled.rightAt hx)

/-- An id that has an edge or a row. -/
def Occurs (c : Catalogue) (x : Id) : Prop :=
  (∃ y, c.edges.Linked x y) ∨ x.stored ∈ c.sets

theorem materialised_after_refreshes (hedges : c.edges.HoldsIds) (hkeys : c.sets.KeyedByIds)
    {ids : List Id} (hids : ∀ x, c.Occurs x → x ∈ ids) :
    (c.after (ids.map (Transaction.refresh none))).Materialised := by
  obtain ⟨_, hkeys', hright⟩ := rightAt_after_refreshes hedges hkeys ids
  refine materialised_of_rightAt hkeys' fun x => hright x ?_
  by_cases hx : c.Occurs x
  · exact .inl ⟨x, hids x hx, .refl⟩
  · obtain ⟨hlinks, hrow⟩ := not_or.1 hx
    refine .inr (rightAt_of_alone (not_exists.1 hlinks) ?_)
    exact Std.ExtTreeMap.getElem?_eq_none hrow

/-- **A refresh repairs the rows around an id.** Take any tables, right or not.

1. A refresh succeeds if it meets ids only. It then changes nothing but labels: all ids that it
   visits get the right row, and all other rows stay as they are.
2. If the edges join ids, and the rows are those of ids, it succeeds.
3. It does not matter in which order the seeds are visited.
4. No row that is right becomes wrong.
5. If all rows are right, nothing changes.
6. Refreshes of all ids that have an edge or a row, in any order, materialise the labels. -/
theorem refresh_repairs_rows (c : Catalogue) :
    (∀ q c', (MediaCatalogue.refresh q).perform none c = (.ok (), c') ↔
      c.ReadableAround q ∧ c' = { c with sets := c'.sets } ∧
        (∀ x, c.Visited q x → c'.RightAt x) ∧
          ∀ column, (∀ x, c.Visited q x → x.stored ≠ column) →
            c'.sets[column]? = c.sets[column]?) ∧
    (c.edges.HoldsIds → c.sets.KeyedByIds → ∀ q,
      ∃ c', (MediaCatalogue.refresh q).perform none c = (.ok (), c')) ∧
    (∀ q seeds, c.seeds q = .ok seeds → ∀ order : List Id, (∀ s, s ∈ order ↔ s ∈ seeds) →
      ∀ c', labelFrom c.edges.links order ∅ c = .ok c' ↔
        (MediaCatalogue.refresh q).perform none c = (.ok (), c')) ∧
    (∀ q c', (MediaCatalogue.refresh q).perform none c = (.ok (), c') →
      ∀ x, c.RightAt x → c'.RightAt x) ∧
    (∀ q c', (MediaCatalogue.refresh q).perform none c = (.ok (), c') →
      (∀ x, c.RightAt x) → c' = c) ∧
    (c.edges.HoldsIds → c.sets.KeyedByIds → ∀ ids : List Id, (∀ x, c.Occurs x → x ∈ ids) →
      have c' := c.after (ids.map (Transaction.refresh none))
      c'.edges = c.edges ∧ c'.Materialised) := by
  refine ⟨fun q c' => ?_, fun hedges hkeys q => ?_, fun q seeds hseeds order horder c' => ?_,
    fun q c' h x hx => ?_, fun q c' h hright => ?_, fun hedges hkeys ids hids => ?_⟩
  · rw [perform_refresh_eq_iff, relabelled_iff]
  · obtain ⟨c', hc'⟩ := (readableAround hedges hkeys q).exists_refreshed
    exact ⟨c', perform_refresh_eq_iff_refreshed.2 hc'⟩
  · rw [perform_refresh_eq_iff_refreshed]
    simp only [refreshed, hseeds]
    change _ ↔ labelFrom c.edges.links seeds.toList ∅ c = .ok c'
    simp only [labelFrom_eq_ok_iff, horder, Std.ExtTreeSet.mem_toList]
  · exact (relabelled_of_refresh h).rightAt hx
  · exact (relabelled_of_refresh h).eq_self hright
  · exact ⟨(rightAt_after_refreshes hedges hkeys ids).1,
      materialised_after_refreshes hedges hkeys hids⟩

/-- 1 asserts 2, and 3 asserts 4. The table has 2, 4 and 5 in one set, though 5 is alone, and 7, which
is alone as well, in that of 1. -/
def stale : Catalogue where
  edges := .between [(1, 2), (3, 4)]
  sets := Std.ExtTreeMap.ofList [((2 : Int), (9 : Int)), (4, 9), (5, 9), (7, 1)]

theorem row_of_stale {column label : Int} (h : stale.sets[column]? = some label) :
    ∃ id : Id, column = id.stored ∧ id ∈ [(7 : Id), 5, 4, 2] := by
  have hrows : stale.sets.toList = [(2, 9), (4, 9), (5, 9), (7, 1)] := by decide +kernel
  rw [← Std.ExtTreeMap.mem_toList_iff_getElem?_eq_some, hrows] at h
  simp only [List.mem_cons, Prod.mk.injEq, List.not_mem_nil, or_false] at h
  obtain ⟨rfl, _⟩ | ⟨rfl, _⟩ | ⟨rfl, _⟩ | ⟨rfl, _⟩ := h
  exacts [⟨2, rfl, by decide⟩, ⟨4, rfl, by decide⟩, ⟨5, rfl, by decide⟩, ⟨7, rfl, by decide⟩]

theorem linked_stale {x y : Id} (h : stale.edges.Linked x y) : x ∈ [(4 : Id), 3, 2, 1] := by
  rw [stale, EdgeSet.linked_between] at h
  simp only [List.mem_cons, Prod.mk.injEq, List.not_mem_nil, or_false] at h ⊢
  tauto

/-- Bringing the labels around 2 up to date repairs all rows but that of 7, and then doing so for
all other ids repairs this one. -/
theorem refresh_repairs_rows_of_stale :
    stale.edges.HoldsIds ∧ stale.sets.KeyedByIds ∧
    (∃ c', (MediaCatalogue.refresh 2).perform none stale = (.ok (), c') ∧
      c'.sets.toList = [(1, 1), (2, 1), (3, 3), (4, 3), (7, 1)]) ∧
    (stale.after ([7, 5, 4, 3, 2, 1].map (Transaction.refresh none))).Materialised := by
  obtain ⟨_, hsucceeds, _, _, _, hall⟩ := refresh_repairs_rows stale
  have hedges : stale.edges.HoldsIds := EdgeSet.holdsIds_between _
  have hkeys : stale.sets.KeyedByIds :=
    fun _ _ hrow => (row_of_stale hrow).imp fun _ => And.left
  obtain ⟨c', hc'⟩ := hsucceeds hedges hkeys 2
  refine ⟨hedges, hkeys, ⟨c', hc', ?_⟩, (hall hedges hkeys [7, 5, 4, 3, 2, 1] ?_).2⟩
  · obtain rfl : (Transaction.refresh none 2).commit stale = c' := congrArg Prod.snd hc'
    decide +kernel
  · rintro x (⟨y, hy⟩ | hrow)
    · exact List.mem_cons_of_mem _ (List.mem_cons_of_mem _ (linked_stale hy))
    · obtain ⟨id, hid, hmem⟩ := row_of_stale (Std.ExtTreeMap.getElem?_eq_some_getElem hrow)
      rw [Id.stored_injective hid]
      simp only [List.mem_cons, List.not_mem_nil, or_false] at hmem ⊢
      tauto

end Catalogue

end MediaCatalogue
