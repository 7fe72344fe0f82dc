import Mathlib.Data.Finset.Card
import MediaCatalogue.Proofs.Resources
import MediaCatalogue.Query.Selection

/-!
# Pages of a list of ids

The ids of a list are paged in the order of their first occurrences. Pages of one limit that begin
at its multiples show every id on one of them.

* `rank` : how many different ids occur in a list before an id;
* `Selection.mem_selectIds_iff` : a page has the ids of some ranks;
* `Selection.size_selectIds` : how many ids are on a page;
* `Repeats` : a list with further occurrences of ids that it has already.

**Main theorem** (`Selection.pages_tile`): the pages tile the different ids of a list.
-/

namespace MediaCatalogue

/-! ### First occurrences -/

section

variable {κ : Type} [DecidableEq κ] {xs xs' ys : List κ} {x : κ}

/-- How many different items occur before an item. -/
def rank (xs : List κ) (x : κ) : Nat := (xs.takeWhile (· ≠ x)).toFinset.card

/-- Items that occurred before occur again, any number of times. -/
inductive Repeats (xs : List κ) : List κ → Prop
  /-- Nothing occurs again. -/
  | refl : Repeats xs xs
  /-- One item occurs once more. -/
  | insert {before after : List κ} {x : κ} (h : Repeats xs (before ++ after)) (hx : x ∈ before) :
    Repeats xs (before ++ x :: after)

theorem distinct_append : distinct (xs ++ ys) = distinct xs ++ distinctFrom id xs ys := by
  rw [distinct, distinctBy_append, List.map_id, distinct]

theorem length_distinct (xs : List κ) : (distinct xs).length = xs.toFinset.card := by
  rw [← List.toFinset_card_of_nodup (nodup_distinct xs)]
  congr 1
  ext x
  rw [List.mem_toFinset, List.mem_toFinset, mem_distinct]

/-- **Repeats are dropped.** -/
theorem distinct_of_repeats (h : Repeats xs xs') : distinct xs' = distinct xs := by
  induction h with
  | refl => rfl
  | insert _ hx ih => rw [distinct_append, distinctFrom, id, if_pos hx, ← distinct_append, ih]

/-- An item is kept at the place of its rank. -/
theorem idxOf_distinct (hx : x ∈ xs) : (distinct xs).idxOf x = rank xs x := by
  obtain ⟨before, after, rfl, hnew⟩ := List.eq_append_cons_of_mem hx
  have hbefore : (before ++ x :: after).takeWhile (· ≠ x) = before := by
    rw [List.takeWhile_append_of_pos, List.takeWhile_cons_of_neg (by simp), List.append_nil]
    intro y hy
    simpa using fun heq : y = x => hnew (heq ▸ hy)
  rw [rank, hbefore, distinct_append, distinctFrom, id, if_neg hnew,
    List.idxOf_append_of_notMem (mt mem_distinct.1 hnew), List.idxOf_cons_self, Nat.add_zero,
    length_distinct]

theorem mem_take_drop_iff {offset limit : Nat} (h : xs.Nodup) : x ∈ (xs.drop offset).take limit ↔
    x ∈ xs ∧ offset ≤ xs.idxOf x ∧ xs.idxOf x < offset + limit := by
  simp only [List.mem_take_iff_getElem, List.getElem_drop, List.length_drop]
  constructor
  · rintro ⟨i, hi, rfl⟩
    rw [h.idxOf_getElem]
    exact ⟨List.getElem_mem _, by omega, by omega⟩
  · rintro ⟨hx, hlow, hhigh⟩
    have hplace := List.idxOf_lt_length_iff.2 hx
    refine ⟨xs.idxOf x - offset, by omega, ?_⟩
    simp only [Nat.add_sub_cancel' hlow, List.getElem_idxOf]

end

/-! ### Pages -/

namespace Selection

variable {ids ids' : List Id} {x : Id}

theorem selectIds_of_repeats (selection : Selection) (h : Repeats ids ids') :
    selection.selectIds ids' = selection.selectIds ids := by
  rw [selectIds, selectIds, distinct_of_repeats h]

/-- **A page has the ids of some ranks.** -/
theorem mem_selectIds_iff {selection : Selection} : x ∈ selection.selectIds ids ↔
    x ∈ ids ∧ selection.offset ≤ rank ids x ∧ rank ids x < selection.offset + selection.limit := by
  rw [selectIds, IdSet.mem_ofList, page, mem_take_drop_iff (nodup_distinct ids), mem_distinct]
  refine and_congr_right fun hx => ?_
  rw [idxOf_distinct hx]

theorem size_selectIds {selection : Selection} : (selection.selectIds ids).size =
    min selection.limit (ids.toFinset.card - selection.offset) := by
  have hnodup : (selection.page (distinct ids)).Nodup :=
    (nodup_distinct ids).sublist ((List.take_sublist _ _).trans (List.drop_sublist _ _))
  rw [selectIds, IdSet.size_eq_length hnodup fun _ => IdSet.mem_ofList.symm, page,
    List.length_take, List.length_drop, length_distinct]

theorem selectIds_eq_empty_iff {selection : Selection} (hlimit : 0 < selection.limit) :
    selection.selectIds ids = ∅ ↔ ids.toFinset.card ≤ selection.offset := by
  rw [Std.ExtTreeSet.eq_empty_iff_size_eq_zero, size_selectIds]
  omega

/-- **Pages tile the different ids of a list.** A page has as many ids as the limit says, brought
between 1 and 100.

1. A page has the ids of the ranks that begin at its offset, whatever offset that is.
2. Pages that begin at different multiples of the limit have no id in common.
3. A page is full if there is an id on a later one.
4. Every id of the list is on a page, and no others.
5. Pages do not change if ids of the list occur again after their first occurrence.
6. A page is empty if and only if its offset is not below the number of different ids. -/
theorem pages_tile (limit : Option Nat) (ids : List Id) :
    have size := min maxLimit (max 1 (limit.getD defaultLimit))
    have page k := (Selection.of (k * size) limit).selectIds ids
    (∀ offset x, x ∈ (Selection.of offset limit).selectIds ids ↔
      x ∈ ids ∧ offset ≤ rank ids x ∧ rank ids x ≤ offset + size - 1) ∧
    (∀ j k, j ≠ k → ∀ x ∈ page j, x ∉ page k) ∧
    (∀ j k, j < k → page k ≠ ∅ → (page j).size = size) ∧
    (∀ x, x ∈ ids ↔ ∃ k, x ∈ page k) ∧
    (∀ ids', Repeats ids ids' → ∀ selection : Selection,
      selection.selectIds ids' = selection.selectIds ids) ∧
    ∀ offset, (Selection.of offset limit).selectIds ids = ∅ ↔ ids.toFinset.card ≤ offset := by
  intro size page
  have hsize : 0 < size := by
    simp only [size, maxLimit]
    omega
  have hranks : ∀ offset x, x ∈ (Selection.of offset limit).selectIds ids ↔
      x ∈ ids ∧ offset ≤ rank ids x ∧ rank ids x ≤ offset + size - 1 := by
    intro offset x
    rw [mem_selectIds_iff]
    exact and_congr_right fun _ => and_congr_right fun _ =>
      Nat.lt_iff_le_pred (Nat.add_pos_right offset hsize)
  -- The rank of an id tells on which page it is.
  have hpage : ∀ k x, x ∈ page k ↔ x ∈ ids ∧ rank ids x / size = k := by
    intro k x
    rw [hranks, Nat.div_eq_iff hsize]
  have hempty : ∀ offset, (Selection.of offset limit).selectIds ids = ∅ ↔
      ids.toFinset.card ≤ offset :=
    fun offset => selectIds_eq_empty_iff hsize
  refine ⟨hranks, fun j k hne x hj hk => ?_, fun j k hlt hk => ?_, fun x => ?_,
    fun ids' h selection => selectIds_of_repeats selection h, hempty⟩
  · exact hne (((hpage j x).1 hj).2.symm.trans ((hpage k x).1 hk).2)
  · rw [ne_eq, hempty, Nat.not_le] at hk
    have hnext : (j + 1) * size ≤ k * size := Nat.mul_le_mul_right size hlt
    rw [Nat.add_one_mul] at hnext
    calc (page j).size = min size (ids.toFinset.card - j * size) := size_selectIds
      _ = size := Nat.min_eq_left (by omega)
  · simp only [hpage, exists_and_left, exists_eq', and_true]

/-- Four different ids are on two pages, also if they occur again. -/
theorem pages_tile_of_repeats :
    have ids : List Id := [5, 3, 9, 1]
    have again : List Id := [5, 5, 3, 5, 9, 3, 1]
    Repeats ids again ∧
      (∀ selection : Selection, selection.selectIds again = selection.selectIds ids) ∧
      (3 : Id) ∈ (Selection.of 0 (some 2)).selectIds ids ∧
      (3 : Id) ∉ (Selection.of 2 (some 2)).selectIds ids ∧
      (Selection.of 2 (some 2)).selectIds ids ≠ ∅ ∧
      ((Selection.of 0 (some 2)).selectIds ids).size = 2 ∧
      (Selection.of 4 (some 2)).selectIds ids = ∅ := by
  intro ids again
  have hagain : Repeats ids again := by
    have hfive : Repeats ids ([5] ++ 5 :: [3, 9, 1]) := .insert .refl (by decide)
    have hfive' : Repeats ids ([5, 5, 3] ++ 5 :: [9, 1]) := .insert hfive (by decide)
    have hthree : Repeats ids ([5, 5, 3, 5, 9] ++ 3 :: [1]) := .insert hfive' (by decide)
    exact hthree
  obtain ⟨hranks, hdisjoint, hfull, _, hrepeats, hempty⟩ := pages_tile (some 2) ids
  have hthree : (3 : Id) ∈ (Selection.of 0 (some 2)).selectIds ids :=
    (hranks 0 3).2 ⟨by decide, by decide, by decide⟩
  have hsecond : (Selection.of 2 (some 2)).selectIds ids ≠ ∅ :=
    mt (hempty 2).1 (by decide)
  exact ⟨hagain, hrepeats again hagain, hthree, hdisjoint 0 1 (by decide) 3 hthree, hsecond,
    hfull 0 1 (by decide) hsecond, (hempty 4).2 (by decide)⟩

end Selection

end MediaCatalogue
