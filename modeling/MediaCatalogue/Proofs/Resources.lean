import Mathlib.Data.List.Induction
import MediaCatalogue.Proofs.Records

/-!
# Chains of changes of resources

The resources that were found for some ids can be changed again and again, into things of other
kinds, and with other ids. After each change the first resource of each requested id is kept, so
that it does not matter what the earlier changes did to the ids.

* `firsts` says which items are the first ones with their keys, by their places; `distinctBy` finds
  them (`distinctBy_eq_firsts`);
* `Resolved.Chained` : what chains of changes lead to;
* `Resolved.Chained.size_add_missing` : requested ids are found or missing;
* `Resolved.Chained.filterMap_filterMap` : two changes are one, if the first one keeps ids.

**Main theorem** (`Resolved.chained_keeps`): after every chain each requested id has one resource or
is missing, and the resources are the first occurrences of what the last change made.
-/

namespace MediaCatalogue

/-! ### First occurrences -/

section

variable {α κ : Type} [DecidableEq κ] {key : α → κ} {seen seen' : List κ} {xs ys : List α} {x : α}

/-- The items that have no item with the same key before them. -/
def firsts (key : α → κ) (xs : List α) : List α :=
  (xs.zipIdx.filter fun (x, i) => ∀ y ∈ xs.take i, key y ≠ key x).map Prod.fst

theorem distinctFrom_congr (h : ∀ k, k ∈ seen ↔ k ∈ seen') :
    distinctFrom key seen xs = distinctFrom key seen' xs := by
  induction xs generalizing seen seen' with
  | nil => rfl
  | cons x xs ih =>
    have hcons : ∀ k, k ∈ key x :: seen ↔ k ∈ key x :: seen' := by
      simp only [List.mem_cons, h, implies_true]
    simp only [distinctFrom, h, ih h, ih hcons]

theorem distinctFrom_append : distinctFrom key seen (xs ++ ys) =
    distinctFrom key seen xs ++ distinctFrom key (xs.map key ++ seen) ys := by
  fun_induction distinctFrom key seen xs with
  | case1 => rfl
  | case2 seen x xs hx ih =>
    rw [List.cons_append, distinctFrom, if_pos hx, ih]
    congr 1
    refine distinctFrom_congr fun k => ?_
    simp only [List.map_cons, List.cons_append, List.mem_cons, List.mem_append]
    constructor
    · exact .inr
    · rintro (rfl | hk)
      · exact .inr hx
      · exact hk
  | case3 seen x xs hx ih =>
    rw [List.cons_append, distinctFrom, if_neg hx, ih, List.cons_append]
    congr 2
    refine distinctFrom_congr fun k => ?_
    simp only [List.map_cons, List.cons_append, List.mem_cons, List.mem_append, or_left_comm]

theorem distinctBy_append : distinctBy key (xs ++ ys) =
    distinctBy key xs ++ distinctFrom key (xs.map key) ys := by
  rw [distinctBy, distinctFrom_append, List.append_nil, distinctBy]

theorem firsts_concat : firsts key (xs ++ [x]) =
    firsts key xs ++ if key x ∈ xs.map key then [] else [x] := by
  have hbefore : ∀ p ∈ xs.zipIdx, (xs ++ [x]).take p.2 = xs.take p.2 := fun p hp =>
    List.take_append_of_le_length (Nat.le_of_lt (List.snd_lt_of_mem_zipIdx hp))
  have hlast : (∀ y ∈ xs, key y ≠ key x) ↔ key x ∉ xs.map key := by simp
  rw [firsts, List.zipIdx_append, List.filter_append, List.map_append]
  congr 1
  · rw [firsts]
    congr 1
    refine List.filter_congr fun p hp => ?_
    simp only [hbefore p hp]
  · simp only [List.zipIdx_singleton, Nat.zero_add, List.filter_cons, List.take_left, hlast,
      List.filter_nil, decide_eq_true_eq]
    by_cases hseen : key x ∈ xs.map key
    · rw [if_neg (not_not.2 hseen), if_pos hseen]
      rfl
    · rw [if_pos hseen, if_neg hseen]
      rfl

/-- **What is kept are the first occurrences.** -/
theorem distinctBy_eq_firsts (key : α → κ) (xs : List α) : distinctBy key xs = firsts key xs := by
  induction xs using List.reverseRecOn with
  | nil => rfl
  | append_singleton xs x ih =>
    rw [distinctBy_append, firsts_concat, ih]
    rfl

end

theorem IdSet.size_eq_length {ids : IdSet} {xs : List Id} (hnodup : xs.Nodup)
    (hmem : ∀ id, id ∈ xs ↔ id ∈ ids) : ids.size = xs.length := by
  have hperm : ids.toList.Perm xs := by
    rw [List.perm_ext_iff_of_nodup ids.nodup_toList hnodup]
    intro id
    rw [Std.ExtTreeSet.mem_toList, hmem]
  rw [← Std.ExtTreeSet.length_toList, hperm.length_eq]

/-! ### Chains -/

namespace Resolved

/-- What chains of changes make of resources that were found for requested ids. Each change may give
things of another kind. -/
inductive Chained (requested : IdSet) : {α : Type} → [Identified α] → Resolved α → Prop
  /-- Some resources were found. -/
  | found {α : Type} [Identified α] (resources : List α) :
    Chained requested (of requested resources)
  /-- The resources were changed. -/
  | changed {α β : Type} [Identified α] [Identified β] {r : Resolved α} (h : Chained requested r)
    (f : α → Option β) : Chained requested (r.filterMap f)

variable {α β γ : Type} [Identified α] [Identified β] [Identified γ] {requested : IdSet}
  {r : Resolved α} {f : α → Option β} {g : β → Option γ}

theorem resources_of (requested : IdSet) (resources : List α) :
    (of requested resources).resources = firsts idOf (resources.filter (idOf · ∈ requested)) :=
  distinctBy_eq_firsts _ _

namespace Chained

theorem requested_eq (h : Chained requested r) : r.requested = requested := by
  induction h with
  | found => rfl
  | changed _ _ ih => exact ih

/-- A chain ends with some resources of which the first ones were kept. -/
theorem exists_eq_of (h : Chained requested r) :
    ∃ resources : List α, r = of requested resources := by
  cases h with
  | found resources => exact ⟨resources, rfl⟩
  | changed h f => exact ⟨_, by rw [Resolved.filterMap, h.requested_eq]⟩

theorem nodup (h : Chained requested r) : (r.resources.map idOf).Nodup := by
  obtain ⟨resources, rfl⟩ := h.exists_eq_of
  exact nodup_map_distinctFrom _ _ _

theorem mem_requested (h : Chained requested r) : ∀ a ∈ r.resources, idOf a ∈ requested := by
  obtain ⟨resources, rfl⟩ := h.exists_eq_of
  exact fun a ha => (mem_of_mem_resources ha).2

theorem mem_missing_iff (h : Chained requested r) {id : Id} :
    id ∈ r.missing ↔ id ∈ requested ∧ id ∉ r.resources.map idOf := by
  rw [mem_missing, h.requested_eq]
  simp

/-- **No id is lost.** -/
theorem size_add_missing (h : Chained requested r) :
    r.size + r.missing.size = requested.size := by
  have hdisjoint : (r.resources.map idOf ++ r.missing.toList).Nodup := by
    rw [List.nodup_append']
    refine ⟨h.nodup, r.missing.nodup_toList, fun id hfound hmissing => ?_⟩
    rw [Std.ExtTreeSet.mem_toList, h.mem_missing_iff] at hmissing
    exact hmissing.2 hfound
  have hcover : ∀ id, id ∈ r.resources.map idOf ++ r.missing.toList ↔ id ∈ requested := by
    intro id
    rw [List.mem_append, Std.ExtTreeSet.mem_toList, h.mem_missing_iff]
    constructor
    · rintro (hfound | ⟨hmem, _⟩)
      · obtain ⟨a, ha, rfl⟩ := List.mem_map.1 hfound
        exact h.mem_requested a ha
      · exact hmem
    · intro hmem
      by_cases hfound : id ∈ r.resources.map idOf
      · exact .inl hfound
      · exact .inr ⟨hmem, hfound⟩
  rw [IdSet.size_eq_length hdisjoint hcover, List.length_append, List.length_map,
    Std.ExtTreeSet.length_toList, size]

/-- A change that keeps ids makes no two ids equal, and so drops nothing that it does not drop
itself. -/
theorem filterMap_of_keeps (h : Chained requested r)
    (hf : ∀ a ∈ r.resources, ∀ b, f a = some b → idOf b = idOf a) :
    r.filterMap f = ⟨requested, r.resources.filterMap f⟩ := by
  rw [Resolved.filterMap, h.requested_eq, of_eq]
  · rw [List.Nodup, List.pairwise_map, List.pairwise_filterMap]
    refine (List.pairwise_map.1 h.nodup).imp_of_mem fun {a a'} ha ha' hne b hb b' hb' => ?_
    rw [hf a ha b hb, hf a' ha' b' hb']
    exact hne
  · intro b hb
    obtain ⟨a, ha, hab⟩ := List.mem_filterMap.1 hb
    rw [hf a ha b hab]
    exact h.mem_requested a ha

/-- **Two changes are one** if the first one keeps ids. -/
theorem filterMap_filterMap (h : Chained requested r)
    (hf : ∀ a ∈ r.resources, ∀ b, f a = some b → idOf b = idOf a) :
    (r.filterMap f).filterMap g = r.filterMap fun a => (f a).bind g := by
  rw [h.filterMap_of_keeps hf, Resolved.filterMap, Resolved.filterMap, h.requested_eq,
    List.filterMap_filterMap]

end Chained

/-- **Chains of changes keep one resource for each requested id.**

1. What was found first: the first occurrences of the requested ids are kept.
2. After any chain what was requested is unchanged. The resources have different ids, which are all
   requested, and missing are the requested ids that are not among them. So resources and missing
   ids are together as many as the requested ids.
3. One more change, whatever it does to ids: the first occurrences of the requested ids are kept of
   what it makes of the resources.
4. Two more changes are one, if the first of them keeps the ids of the resources. -/
theorem chained_keeps (requested : IdSet) :
    (∀ {α : Type} [Identified α] (resources : List α), (of requested resources).resources =
      firsts idOf (resources.filter (idOf · ∈ requested))) ∧
    ∀ {α : Type} [Identified α] {r : Resolved α}, Chained requested r →
      (r.requested = requested ∧ (r.resources.map idOf).Nodup ∧
        (∀ a ∈ r.resources, idOf a ∈ requested) ∧
        (∀ id, id ∈ r.missing ↔ id ∈ requested ∧ id ∉ r.resources.map idOf) ∧
        r.size + r.missing.size = requested.size) ∧
      (∀ {β : Type} [Identified β] (f : α → Option β), (r.filterMap f).resources =
        firsts idOf ((r.resources.filterMap f).filter (idOf · ∈ requested))) ∧
      ∀ {β γ : Type} [Identified β] [Identified γ] (f : α → Option β) (g : β → Option γ),
        (∀ a ∈ r.resources, ∀ b, f a = some b → idOf b = idOf a) →
        (r.filterMap f).filterMap g = r.filterMap fun a => (f a).bind g := by
  refine ⟨resources_of requested, fun {α _ r} h => ⟨⟨h.requested_eq, h.nodup, h.mem_requested,
    fun id => h.mem_missing_iff, h.size_add_missing⟩, fun {β _} f => ?_,
    fun {β γ _ _} f g hf => h.filterMap_filterMap hf⟩⟩
  rw [Resolved.filterMap, resources_of, h.requested_eq]

/-- A record of a programme. -/
def programme (id : Id) : Content := ⟨id, ⟨"bbc", "GB", "BBC"⟩, .item, Option.none, ⟨0, 0⟩, .null⟩

/-- The records 1 and 2 are found, and 9, which nobody asked for. Both are given the id 3, and the
first of them is kept. -/
theorem chained_keeps_of_renaming :
    have requested := IdSet.ofList [1, 2, 3]
    have r := (of requested [programme 1, programme 2, programme 9]).filterMap
      fun record => some { record with id := 3, title := some record.id.code }
    have f : Content → Option Content := fun record => some { record with title := Option.none }
    have g : Content → Option Content := fun record => some { record with id := 1 }
    Chained requested r ∧ r.resources = [{ programme 3 with title := some "1" }] ∧
      r.size + r.missing.size = 3 ∧
      (∀ a ∈ r.resources, ∀ b, f a = some b → idOf b = idOf a) ∧
      (r.filterMap f).filterMap g = r.filterMap fun a => (f a).bind g := by
  intro requested r f g
  have hchained : Chained requested r := .changed (.found _) _
  have hkeeps : ∀ a ∈ r.resources, ∀ b, f a = some b → idOf b = idOf a := by
    rintro a _ b hb
    cases hb
    rfl
  obtain ⟨_, hall⟩ := chained_keeps requested
  obtain ⟨⟨_, _, _, _, hsize⟩, _, hcompose⟩ := hall hchained
  refine ⟨hchained, by decide +kernel, ?_, hkeeps, hcompose f g hkeeps⟩
  rw [hsize]
  decide +kernel

end Resolved

end MediaCatalogue
