import Mathlib.Data.List.Forall2
import Mathlib.Data.List.Sort
import MediaCatalogue.Fault

/-!
# Sequences of fallible steps

A fallible function is applied to all items of a list, and the first fault ends everything. The
function that most lists need is `Id.ofStored`, for columns that hold ids.

Lists that are sorted by merging can also be sorted by insertion (`mergeSort_eq_insertionSort`),
which is what is computed for given lists.
-/

namespace MediaCatalogue

variable {ε δ α β : Type} {f : α → Except ε β}

theorem of_bind_eq_ok {x : Except ε α} {g : α → Except ε β} {b : β} (h : (x >>= g) = .ok b) :
    ∃ a, x = .ok a ∧ g a = .ok b := by
  cases x with
  | error e => cases h
  | ok a => exact ⟨a, rfl, h⟩

theorem of_bind_eq_error {x : Except ε α} {g : α → Except ε β} {e : ε}
    (h : (x >>= g) = .error e) : x = .error e ∨ ∃ a, x = .ok a ∧ g a = .error e := by
  cases x with
  | error e' =>
    cases h
    exact .inl rfl
  | ok a => exact .inr ⟨a, rfl, h⟩

theorem of_bind_pure_eq_error {x : Except ε α} {g : α → β} {e : ε}
    (h : (x >>= fun a => pure (g a)) = .error e) : x = .error e :=
  (of_bind_eq_error h).resolve_right fun ⟨_, _, hpure⟩ => nomatch hpure

/-- A last step that cannot fail does not matter for success. -/
theorem exists_bind_pure_eq_ok_iff {x : Except ε α} {g : α → β} :
    (∃ b, (x >>= fun a => pure (g a)) = .ok b) ↔ ∃ a, x = .ok a := by
  constructor
  · rintro ⟨b, h⟩
    obtain ⟨a, ha, _⟩ := of_bind_eq_ok h
    exact ⟨a, ha⟩
  · rintro ⟨a, rfl⟩
    exact ⟨g a, rfl⟩

theorem map_eq_ok_iff {x : Except ε α} {g : α → β} {b : β} :
    x.map g = .ok b ↔ ∃ a, x = .ok a ∧ g a = b := by
  cases x <;> simp [Except.map]

theorem mapError_eq_ok_iff {x : Except ε α} {g : ε → δ} {a : α} :
    x.mapError g = .ok a ↔ x = .ok a := by
  cases x <;> simp [Except.mapError]

theorem mapError_eq_error_iff {x : Except ε α} {g : ε → δ} {e : δ} :
    x.mapError g = .error e ↔ ∃ e', x = .error e' ∧ g e' = e := by
  cases x <;> simp [Except.mapError]

theorem mapM_congr {g : α → Except ε β} {xs : List α} (h : ∀ x ∈ xs, f x = g x) :
    xs.mapM f = xs.mapM g := by
  induction xs with
  | nil => rfl
  | cons x xs ih =>
    rw [List.mapM_cons, List.mapM_cons, h x List.mem_cons_self,
      ih fun y hy => h y (List.mem_cons_of_mem _ hy)]

theorem mapM_eq_ok_iff {xs : List α} {ys : List β} :
    xs.mapM f = .ok ys ↔ List.Forall₂ (fun x y => f x = .ok y) xs ys := by
  induction xs generalizing ys with
  | nil =>
    rw [List.forall₂_nil_left_iff]
    exact ⟨fun h => by cases h; rfl, fun h => by rw [h]; rfl⟩
  | cons x xs ih =>
    rw [List.mapM_cons, List.forall₂_cons_left_iff]
    constructor
    · intro h
      obtain ⟨y, hx, h⟩ := of_bind_eq_ok h
      obtain ⟨ys', hxs, h⟩ := of_bind_eq_ok h
      cases h
      exact ⟨y, ys', hx, ih.1 hxs, rfl⟩
    · rintro ⟨y, ys', hx, hxs, rfl⟩
      rw [hx, ih.2 hxs]
      rfl

theorem mapM_cons_eq_error_iff {x : α} {xs : List α} {e : ε} : (x :: xs).mapM f = .error e ↔
    f x = .error e ∨ (∃ y, f x = .ok y) ∧ xs.mapM f = .error e := by
  rw [List.mapM_cons]
  cases hx : f x with
  | error => simp [bind, Except.bind]
  | ok y => cases xs.mapM f <;> simp [bind, Except.bind, pure, Except.pure]

/-- The first fault is the one of the whole. -/
theorem mapM_eq_error_iff {xs : List α} {e : ε} :
    xs.mapM f = .error e ↔ ∃ before x after, xs = before ++ x :: after ∧
      (∀ x ∈ before, ∃ y, f x = .ok y) ∧ f x = .error e := by
  induction xs with
  | nil => simp [pure, Except.pure]
  | cons x xs ih =>
    rw [mapM_cons_eq_error_iff, ih]
    constructor
    · rintro (hx | ⟨hx, before, x', after, rfl, hbefore, hx'⟩)
      · exact ⟨[], x, xs, rfl, by simp, hx⟩
      · exact ⟨x :: before, x', after, rfl, List.forall_mem_cons.2 ⟨hx, hbefore⟩, hx'⟩
    · rintro ⟨before, x', after, heq, hbefore, hx'⟩
      cases before with
      | nil =>
        cases heq
        exact .inl hx'
      | cons z before =>
        cases heq
        obtain ⟨hx, hrest⟩ := List.forall_mem_cons.1 hbefore
        exact .inr ⟨hx, before, x', after, rfl, hrest, hx'⟩

theorem mapM_eq_ok_map {xs : List α} {g : α → β} (h : ∀ x ∈ xs, f x = .ok (g x)) :
    xs.mapM f = .ok (xs.map g) := by
  rw [mapM_eq_ok_iff, List.forall₂_map_right_iff, List.forall₂_same]
  exact h

theorem exists_mapM_eq_ok {xs : List α} (h : ∀ x ∈ xs, ∃ y, f x = .ok y) :
    ∃ ys, xs.mapM f = .ok ys := by
  induction xs with
  | nil => exact ⟨[], rfl⟩
  | cons x xs ih =>
    obtain ⟨y, hx⟩ := h x List.mem_cons_self
    obtain ⟨ys, hxs⟩ := ih fun x hx => h x (List.mem_cons_of_mem _ hx)
    refine ⟨y :: ys, ?_⟩
    rw [List.mapM_cons, hx, hxs]
    rfl

theorem exists_mapM_eq_ok_iff {xs : List α} :
    (∃ ys, xs.mapM f = .ok ys) ↔ ∀ x ∈ xs, ∃ y, f x = .ok y := by
  refine ⟨?_, exists_mapM_eq_ok⟩
  rintro ⟨ys, hys⟩ x hx
  have hall := mapM_eq_ok_iff.1 hys
  clear hys
  induction hall with
  | nil => cases hx
  | @cons _ y _ _ hy _ ih =>
    rcases List.mem_cons.1 hx with rfl | hx
    · exact ⟨y, hy⟩
    · exact ih hx

theorem mem_of_mapM_eq_ok {xs : List α} {ys : List β} (h : xs.mapM f = .ok ys) {y : β} :
    y ∈ ys ↔ ∃ x ∈ xs, f x = .ok y := by
  have hall := mapM_eq_ok_iff.1 h
  clear h
  induction hall with
  | nil => simp
  | cons hx _ ih =>
    simp only [List.mem_cons, ih, exists_eq_or_imp, hx, Except.ok.injEq]
    simp only [eq_comm]

/-! ### Ids -/

theorem IdSet.nodup_toList (ids : IdSet) : ids.toList.Nodup :=
  ids.ordered_toList.imp fun h heq => by simp [heq] at h

theorem Id.ofStored_eq_ok_iff {column : Int} {id : Id} :
    Id.ofStored column = .ok id ↔ column = id.stored := by
  constructor
  · intro h
    unfold Id.ofStored at h
    split at h
    · rename_i other hother
      cases h
      exact Id.ofStored?_eq_some_iff.1 hother
    · cases h
  · rintro rfl
    exact Id.ofStored_stored id

/-- Columns that hold ids can be read, and give those ids. -/
theorem mapM_ofStored_spec {columns : List Int}
    (h : ∀ column ∈ columns, ∃ id : Id, column = id.stored) :
    ∃ ids, columns.mapM Id.ofStored = .ok ids ∧ ∀ id : Id, id ∈ ids ↔ id.stored ∈ columns := by
  obtain ⟨ids, hids⟩ : ∃ ids, columns.mapM Id.ofStored = .ok ids := by
    refine exists_mapM_eq_ok fun column hcolumn => ?_
    obtain ⟨id, rfl⟩ := h column hcolumn
    exact ⟨id, Id.ofStored_stored id⟩
  refine ⟨ids, hids, fun id => ?_⟩
  simp only [mem_of_mapM_eq_ok hids, Id.ofStored_eq_ok_iff, exists_eq_right]

/-- Both ways of sorting are stable, so they agree even where different items have equal places. -/
theorem mergeSort_eq_insertionSort {le : α → α → Bool}
    (htrans : ∀ a b c, le a b = true → le b c = true → le a c = true)
    (htotal : ∀ a b, (le a b || le b a) = true) (xs : List α) :
    xs.mergeSort le = xs.insertionSort (le · · = true) := by
  induction xs with
  | nil => rw [List.mergeSort_nil, List.insertionSort_nil]
  | cons x xs ih =>
    obtain ⟨before, after, hsorted, hrest, hbefore⟩ := List.mergeSort_cons htrans htotal x xs
    have hafter : ∀ y ∈ after, le x y = true := by
      have hpairs := List.pairwise_mergeSort htrans htotal (x :: xs)
      rw [hsorted] at hpairs
      exact (List.pairwise_cons.1 (List.pairwise_append.1 hpairs).2.1).1
    rw [hsorted, List.insertionSort_cons, ← ih, hrest]
    -- The new item passes all items that it must follow, and stops at the next one.
    clear hsorted hrest
    induction before with
    | nil =>
      cases after with
      | nil => rfl
      | cons y after => simp [hafter y]
    | cons y before ih =>
      obtain ⟨hy, hbefore⟩ := List.forall_mem_cons.1 hbefore
      rw [List.cons_append, List.cons_append, List.orderedInsert_cons, if_neg (by simpa using hy),
        ih hbefore]

end MediaCatalogue
