import Mathlib.Data.List.Nodup
import MediaCatalogue.Proofs.Sequences
import MediaCatalogue.Store.Snapshots

/-!
# Reading in batches

A read call asks for a long list of ids in batches, and the statement of each batch may see other
tables. Every id is in one batch, `batchOf`; so what such a call finds is known as soon as it is
known what the statement of `batchOf` finds for each id (`readBatches_spec`).
-/

namespace MediaCatalogue

/-! ### Lists that are put together -/

theorem mapM_lists_spec {α β : Type} {f : α → Except Fault (List β)} {P : α → β → Prop}
    {xs : List α} (h : ∀ x ∈ xs, ∃ ys, f x = .ok ys ∧ ∀ y, y ∈ ys ↔ P x y) :
    ∃ yss, xs.mapM f = .ok yss ∧ ∀ y, y ∈ yss.flatten ↔ ∃ x ∈ xs, P x y := by
  obtain ⟨yss, hyss⟩ : ∃ yss, xs.mapM f = .ok yss := by
    refine exists_mapM_eq_ok fun x hx => ?_
    obtain ⟨ys, hys, _⟩ := h x hx
    exact ⟨ys, hys⟩
  refine ⟨yss, hyss, fun y => ?_⟩
  rw [List.mem_flatten]
  constructor
  · rintro ⟨ys, hys, hy⟩
    obtain ⟨x, hx, hf⟩ := (mem_of_mapM_eq_ok hyss).1 hys
    obtain ⟨ys', hf', hmem⟩ := h x hx
    rw [hf] at hf'
    cases hf'
    exact ⟨x, hx, (hmem y).1 hy⟩
  · rintro ⟨x, hx, hy⟩
    obtain ⟨ys, hf, hmem⟩ := h x hx
    exact ⟨ys, (mem_of_mapM_eq_ok hyss).2 ⟨x, hx, hf⟩, (hmem y).2 hy⟩

/-! ### The batch of an item -/

section

variable {α : Type} {xs : List α} {x : α}

theorem mem_of_mem_batch {q : List α × Nat} (hq : q ∈ (batches xs).zipIdx) (hx : x ∈ q.1) :
    x ∈ xs := by
  rw [← flatten_batches xs]
  exact List.mem_flatten_of_mem (List.fst_mem_of_mem_zipIdx hq) hx

variable [DecidableEq α]

/-- The number of the batch that an item of a list is in. -/
def batchOf (xs : List α) (x : α) : Nat := (batches xs).findIdx (x ∈ ·)

theorem exists_batch (hx : x ∈ xs) :
    ∃ batch, (batch, batchOf xs x) ∈ (batches xs).zipIdx ∧ x ∈ batch := by
  rw [← flatten_batches xs, List.mem_flatten] at hx
  obtain ⟨batch, hbatch, hx⟩ := hx
  have hlt : batchOf xs x < (batches xs).length :=
    List.findIdx_lt_length_of_exists ⟨batch, hbatch, by simpa using hx⟩
  refine ⟨(batches xs)[batchOf xs x], ?_, ?_⟩
  · rw [List.mem_zipIdx_iff_getElem?]
    exact List.getElem?_eq_getElem hlt
  · have hfound := List.findIdx_getElem (w := hlt)
    exact of_decide_eq_true hfound

theorem eq_batchOf (hnodup : xs.Nodup) {q : List α × Nat} (hq : q ∈ (batches xs).zipIdx)
    (hx : x ∈ q.1) : q.2 = batchOf xs x := by
  obtain ⟨batch, hbatch, hx'⟩ := exists_batch (mem_of_mem_batch hq hx)
  rw [← flatten_batches xs, List.nodup_flatten] at hnodup
  have hdisjoint := List.pairwise_iff_getElem.1 hnodup.2
  rw [List.mem_zipIdx_iff_getElem?] at hq hbatch
  obtain ⟨hlt, hq⟩ := List.getElem?_eq_some_iff.1 hq
  obtain ⟨hlt', hbatch⟩ := List.getElem?_eq_some_iff.1 hbatch
  -- Two batches of different numbers have no item in common.
  rcases Nat.lt_trichotomy q.2 (batchOf xs x) with hless | heq | hless
  · have hother := hdisjoint _ _ hlt hlt' hless
    rw [hq, hbatch] at hother
    exact absurd hx' (hother hx)
  · exact heq
  · have hother := hdisjoint _ _ hlt' hlt hless
    rw [hq, hbatch] at hother
    exact absurd hx (hother hx')

/-- The batches of a list have its items, each in its own batch. -/
theorem exists_mem_zipIdx_batches (hnodup : xs.Nodup) {P : Nat → α → Prop} :
    (∃ q ∈ (batches xs).zipIdx, ∃ x ∈ q.1, P q.2 x) ↔ ∃ x ∈ xs, P (batchOf xs x) x := by
  constructor
  · rintro ⟨q, hq, x, hx, hP⟩
    exact ⟨x, mem_of_mem_batch hq hx, eq_batchOf hnodup hq hx ▸ hP⟩
  · rintro ⟨x, hx, hP⟩
    obtain ⟨batch, hbatch, hx'⟩ := exists_batch hx
    exact ⟨_, hbatch, x, hx', hP⟩

/-- **What a call finds in batches**, if the statement of each batch finds the things in `P` for its
items. -/
theorem readBatches_spec {β γ : Type} {read : List α × Nat → Except Fault (List β)}
    {P : Nat → α → β → Prop} (g : List β → γ) (hnodup : xs.Nodup)
    (h : ∀ q ∈ (batches xs).zipIdx, ∃ ys, read q = .ok ys ∧ ∀ y, y ∈ ys ↔ ∃ x ∈ q.1, P q.2 x y) :
    ∃ ys, (do return g (← (batches xs).zipIdx.mapM read).flatten : Except Fault γ) = .ok (g ys) ∧
      ∀ y, y ∈ ys ↔ ∃ x ∈ xs, P (batchOf xs x) x y := by
  obtain ⟨yss, hyss, hmem⟩ := mapM_lists_spec h
  refine ⟨yss.flatten, by rw [hyss]; rfl, fun y => ?_⟩
  rw [hmem]
  exact exists_mem_zipIdx_batches hnodup (P := fun n x => P n x y)

end

/-! ### Tables that change -/

/-- All statements work, and each of them sees tables of its own. -/
def Snapshots.changing (states : Nat → Catalogue) : Snapshots := fun n => .ok (states n)

theorem Snapshots.still_eq_changing (c : Catalogue) : still c = changing fun _ => c := rfl

/-! ### Tables that stand still -/

section

variable {ε α β : Type}

theorem mapM_zipIdx_fst {f : α → Except ε β} (xs : List α) :
    (xs.zipIdx.mapM fun q => f q.1) = xs.mapM f := by
  have hmap : (xs.zipIdx.map Prod.fst).mapM f = xs.zipIdx.mapM fun q => f q.1 := List.mapM_map
  rw [← hmap, List.zipIdx_map_fst]

theorem flatten_mapM_mapM {f : α → Except ε β} (xss : List (List α)) :
    (xss.mapM fun xs : List α => xs.mapM f).map List.flatten = xss.flatten.mapM f := by
  induction xss with
  | nil => rfl
  | cons xs xss ih =>
    rw [List.mapM_cons, List.flatten_cons, List.mapM_append, ← ih]
    cases xs.mapM f with
    | error => rfl
    | ok ys => cases xss.mapM fun xs : List α => xs.mapM f <;> rfl

/-- **Batches do not matter** if every item is read from the same tables. -/
theorem readBatches_still {γ : Type} (f : α → Except Fault β) (g : List β → γ) (xs : List α) :
    (do return g (← (batches xs).zipIdx.mapM fun q => q.1.mapM f).flatten : Except Fault γ) =
      (xs.mapM f).map g := by
  have hflat := flatten_mapM_mapM (f := f) (batches xs)
  rw [flatten_batches] at hflat
  rw [mapM_zipIdx_fst, ← hflat]
  cases (batches xs).mapM fun batch : List α => batch.mapM f <;> rfl

end

end MediaCatalogue
