import Mathlib.Data.List.Perm.Subperm
import Mathlib.Data.Prod.Lex
import MediaCatalogue.Proofs.Requests

/-!
# The oldest requests

Requests are read in the order in which they were first made, and those of one time in the order of
their ids, but no more than so many at a time. Here this is said without an order of the rows: a row
is among the oldest if not too many rows are older.

* `Catalogue.age` : what rows are ordered by;
* `Catalogue.AmongOldest` : fewer than so many rows are older;
* `Catalogue.exists_oldestRequests` : what is read are the requests of the rows among the oldest;
* `Catalogue.exists_amongOldest_of_few` : if few rows have a property, some of the oldest rows do
  not, unless all rows do.
-/

namespace MediaCatalogue

/-! ### Beginnings of sorted lists -/

/-- The first items of a sorted list are those that have few items before them. -/
theorem mem_take_iff_of_pairwise {α β : Type} [LinearOrder β] {f : α → β} {xs : List α}
    (hsorted : xs.Pairwise (f · < f ·)) {x : α} {n : Nat} :
    x ∈ xs.take n ↔ x ∈ xs ∧ xs.countP (f · < f x) < n := by
  induction xs generalizing n with
  | nil => simp
  | cons y ys ih =>
    obtain ⟨hfirst, hrest⟩ := List.pairwise_cons.1 hsorted
    cases n with
    | zero => simp
    | succ n =>
      rw [List.take_succ_cons, List.mem_cons, List.mem_cons, ih hrest, List.countP_cons]
      constructor
      · rintro (rfl | ⟨hx, hlt⟩)
        · have hnone : ys.countP (f · < f x) = 0 :=
            List.countP_eq_zero.2 fun z hz => by simpa using (hfirst z hz).le
          simp [hnone]
        · refine ⟨.inr hx, ?_⟩
          split <;> omega
      · rintro ⟨rfl | hx, hlt⟩
        · exact .inl rfl
        · rw [if_pos (by simpa using hfirst x hx)] at hlt
          exact .inr ⟨hx, by omega⟩

namespace Catalogue

variable {c : Catalogue} {limit : Nat} {row : Int × RequestRow}

/-! ### Ages -/

/-- The age of a row: the time at which its request was first made, then the id. The oldest row is
the lowest one. -/
def age (row : Int × RequestRow) : Int ×ₗ Int := toLex (row.2.requestedAt, row.1)

theorem byAge_eq_true_iff {a b : Int × RequestRow} : byAge a b = true ↔ age a ≤ age b := by
  simp [byAge, age, Prod.Lex.toLex_le_toLex]

theorem byAge_trans (a b c : Int × RequestRow) (hab : byAge a b = true) (hbc : byAge b c = true) :
    byAge a c = true := by
  rw [byAge_eq_true_iff] at hab hbc ⊢
  exact hab.trans hbc

theorem byAge_total (a b : Int × RequestRow) : (byAge a b || byAge b a) = true := by
  rw [Bool.or_eq_true, byAge_eq_true_iff, byAge_eq_true_iff]
  exact le_total _ _

/-- Reading requests that are sorted by insertion. -/
theorem oldestRequests_eq_insertionSort (limit : Nat) (c : Catalogue) :
    c.oldestRequests limit =
      ((c.pending.toList.insertionSort (byAge · · = true)).take limit).mapM requestOf := by
  rw [oldestRequests, mergeSort_eq_insertionSort byAge_trans byAge_total]

theorem age_inj {a b : Int × RequestRow} (ha : a ∈ c.pending.toList) (hb : b ∈ c.pending.toList)
    (h : age a = age b) : a = b := by
  simp only [age, toLex_inj, Prod.mk.injEq] at h
  exact List.inj_on_of_nodup_map (nodup_rows c.pending) ha hb h.2

/-- The rows, the oldest ones first. -/
def rowsByAge (c : Catalogue) : List (Int × RequestRow) := c.pending.toList.mergeSort byAge

theorem perm_rowsByAge (c : Catalogue) : c.rowsByAge.Perm c.pending.toList :=
  List.mergeSort_perm _ _

theorem pairwise_rowsByAge (c : Catalogue) : c.rowsByAge.Pairwise (age · < age ·) := by
  have hsorted : c.rowsByAge.Pairwise fun a b => byAge a b = true :=
    List.pairwise_mergeSort byAge_trans byAge_total _
  have hnodup : c.rowsByAge.Nodup :=
    c.perm_rowsByAge.nodup_iff.2 (.of_map Prod.fst (nodup_rows c.pending))
  refine (hsorted.and hnodup).imp_of_mem fun {a b} ha hb hab => ?_
  refine lt_of_le_of_ne (byAge_eq_true_iff.1 hab.1) fun heq => hab.2 ?_
  exact age_inj (c.perm_rowsByAge.mem_iff.1 ha) (c.perm_rowsByAge.mem_iff.1 hb) heq

/-! ### The oldest rows -/

/-- Fewer than `limit` rows are older. -/
def AmongOldest (c : Catalogue) (limit : Nat) (row : Int × RequestRow) : Prop :=
  c.pending.toList.countP (age · < age row) < limit

instance (c : Catalogue) (limit : Nat) : DecidablePred (c.AmongOldest limit) :=
  fun _ => inferInstanceAs (Decidable (_ < _))

theorem mem_take_rowsByAge :
    row ∈ c.rowsByAge.take limit ↔ row ∈ c.pending.toList ∧ c.AmongOldest limit row := by
  rw [mem_take_iff_of_pairwise c.pairwise_rowsByAge, c.perm_rowsByAge.mem_iff, AmongOldest,
    c.perm_rowsByAge.countP_eq]

theorem perm_take_rowsByAge :
    (c.rowsByAge.take limit).Perm (c.pending.toList.filter (c.AmongOldest limit)) := by
  have hnodup : c.pending.toList.Nodup := .of_map Prod.fst (nodup_rows c.pending)
  refine (List.perm_ext_iff_of_nodup ?_ (hnodup.filter _)).2 fun row => ?_
  · exact (c.perm_rowsByAge.nodup_iff.2 hnodup).sublist (List.take_sublist _ _)
  · rw [mem_take_rowsByAge, List.mem_filter, decide_eq_true_eq]

theorem length_take_rowsByAge : (c.rowsByAge.take limit).length = min limit c.pending.size := by
  rw [List.length_take, c.perm_rowsByAge.length_eq, Std.ExtTreeMap.length_toList]

/-- If fewer rows have a property than are read, one of the oldest rows does not, unless all rows
do. -/
theorem exists_amongOldest_of_few {p : Int × RequestRow → Bool}
    (hfew : c.pending.toList.countP p < limit) (hsome : ∃ row ∈ c.pending.toList, p row = false) :
    ∃ row ∈ c.pending.toList, p row = false ∧ c.AmongOldest limit row := by
  by_contra hnone
  have hall : ∀ row ∈ c.rowsByAge.take limit, p row = true := by
    intro row hrow
    obtain ⟨hmem, hold⟩ := mem_take_rowsByAge.1 hrow
    by_contra hp
    exact hnone ⟨row, hmem, Bool.not_eq_true _ ▸ hp, hold⟩
  have hcount : (c.rowsByAge.take limit).length ≤ c.pending.toList.countP p := by
    rw [← List.countP_eq_length.2 hall, ← c.perm_rowsByAge.countP_eq]
    exact (List.take_sublist _ _).countP_le
  -- So all rows are read, and have the property.
  rw [length_take_rowsByAge] at hcount
  have htake : c.rowsByAge.take limit = c.rowsByAge := by
    refine List.take_of_length_le ?_
    rw [c.perm_rowsByAge.length_eq, Std.ExtTreeMap.length_toList]
    omega
  obtain ⟨row, hrow, hp⟩ := hsome
  rw [htake] at hall
  rw [hall row (c.perm_rowsByAge.mem_iff.2 hrow)] at hp
  cases hp

/-! ### Reading -/

/-- All rows are requests of ids. -/
def HoldsRequests (c : Catalogue) : Prop := ∀ row ∈ c.pending.toList, ∃ r, requestOf row = .ok r

/-- The row is that of an id for which `p` holds. -/
def isOf (p : Id → Bool) (row : Int × RequestRow) : Bool := (Id.ofStored? row.1).any p

theorem isOf_stored {p : Id → Bool} {id : Id} {row : RequestRow} :
    isOf p (id.stored, row) = p id := by
  have hid : Id.ofStored? id.stored = some id := Id.ofStored?_eq_some_iff.2 rfl
  rw [isOf, hid, Option.any_some]

theorem isOf_of_requestOf {p : Id → Bool} {r : RefreshRequest} (h : requestOf row = .ok r) :
    isOf p row = p r.id := by
  obtain ⟨column, row⟩ := row
  cases (requestOf_eq_ok h).1
  exact isOf_stored

/-- **What is read** are the requests of the oldest rows. -/
theorem exists_oldestRequests (h : c.HoldsRequests) (limit : Nat) :
    ∃ batch, c.oldestRequests limit = .ok batch ∧
      List.Forall₂ (fun row r => requestOf row = .ok r) (c.rowsByAge.take limit) batch := by
  obtain ⟨batch, hbatch⟩ := exists_mapM_eq_ok (f := requestOf)
    fun row (hrow : row ∈ c.rowsByAge.take limit) => h row (mem_take_rowsByAge.1 hrow).1
  exact ⟨batch, hbatch, mapM_eq_ok_iff.1 hbatch⟩

section

variable {batch : List RefreshRequest} (hread : List.Forall₂ (fun row r => requestOf row = .ok r)
  (c.rowsByAge.take limit) batch)

include hread

theorem length_of_read : batch.length = min limit c.pending.size := by
  rw [← hread.length_eq, length_take_rowsByAge]

theorem countP_of_read (p : Id → Bool) : batch.countP (fun r => p r.id) =
    c.pending.toList.countP fun row => isOf p row && decide (c.AmongOldest limit row) := by
  rw [← List.countP_filter, ← perm_take_rowsByAge.countP_eq]
  generalize c.rowsByAge.take limit = rows at hread
  induction hread with
  | nil => rfl
  | cons hrow _ ih => rw [List.countP_cons, List.countP_cons, ih, isOf_of_requestOf hrow]

theorem mem_map_id_of_read {id : Id} : id ∈ batch.map RefreshRequest.id ↔
    ∃ row, c.pending[id.stored]? = some row ∧ c.AmongOldest limit (id.stored, row) := by
  have hcolumn : id ∈ batch.map RefreshRequest.id ↔
      id.stored ∈ (c.rowsByAge.take limit).map Prod.fst := by
    rw [map_fst_of_requestOf hread, List.mem_map_of_injective fun _ _ => Id.stored_injective]
  rw [hcolumn, List.mem_map]
  constructor
  · rintro ⟨⟨column, row⟩, hrow, rfl⟩
    obtain ⟨hmem, hold⟩ := mem_take_rowsByAge.1 hrow
    exact ⟨row, Std.ExtTreeMap.mem_toList_iff_getElem?_eq_some.1 hmem, hold⟩
  · rintro ⟨row, hrow, hold⟩
    have hmem := Std.ExtTreeMap.mem_toList_iff_getElem?_eq_some.2 hrow
    exact ⟨_, mem_take_rowsByAge.2 ⟨hmem, hold⟩, rfl⟩

end

/-! ### Counting requests -/

/-- How many requests are those of ids for which `p` holds. -/
def countOf (c : Catalogue) (p : Id → Bool) : Nat := c.pending.toList.countP (isOf p)

section

variable {c' : Catalogue} {p : Id → Bool} (h : ∀ (column : Int) (row : RequestRow),
  c'.pending[column]? = some row → c.pending[column]? = some row)

include h

theorem subset_of_stored : c'.pending.toList ⊆ c.pending.toList := by
  rintro ⟨column, row⟩ hrow
  rw [Std.ExtTreeMap.mem_toList_iff_getElem?_eq_some] at hrow ⊢
  exact h column row hrow

theorem HoldsRequests.of_stored (hrequests : c.HoldsRequests) : c'.HoldsRequests :=
  fun row hrow => hrequests row (subset_of_stored h hrow)

theorem countOf_le : c'.countOf p ≤ c.countOf p := by
  have hnodup : c'.pending.toList.Nodup := .of_map Prod.fst (nodup_rows c'.pending)
  exact (hnodup.subperm (subset_of_stored h)).countP_le _

theorem countOf_lt (hrow : row ∈ c.pending.toList) (hgone : row ∉ c'.pending.toList)
    (hp : isOf p row = true) : c'.countOf p < c.countOf p := by
  have hnodup : (row :: c'.pending.toList).Nodup :=
    List.nodup_cons.2 ⟨hgone, .of_map Prod.fst (nodup_rows c'.pending)⟩
  have hsub : row :: c'.pending.toList ⊆ c.pending.toList :=
    List.cons_subset.2 ⟨hrow, subset_of_stored h⟩
  have hle : (row :: c'.pending.toList).countP (isOf p) ≤ c.countOf p :=
    (hnodup.subperm hsub).countP_le _
  rw [List.countP_cons, if_pos hp] at hle
  exact hle

end

end Catalogue

end MediaCatalogue
