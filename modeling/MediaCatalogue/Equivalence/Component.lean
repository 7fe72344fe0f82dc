import MediaCatalogue.Equivalence.Edge
import MediaCatalogue.Fault

/-!
# Connected components

`component` is the set of all ids that can be reached from one id over edges, used in both
directions. It is found by a walk that visits the ids in the order in which they are found. Every
end of an edge is found at most once, so the walk ends: each step visits an id, and those that are
not found yet and those that wait to be visited are together one less after it.
-/

namespace MediaCatalogue

/-- A number that is not the column of a found id. -/
def isUnfound (found : IdSet) (x : Int) : Bool :=
  match Id.ofStored? x with
  | some id => !found.contains id
  | none => true

/-- The ids that share an edge with `id`, in ascending order. -/
def neighbourIds (links : Links) (id : Id) : Except Fault (List Id) :=
  (links.neighbours id.stored).mapM Id.ofStored

/-- Columns are those of the ids that are read from them. -/
theorem map_stored_of_mapM {columns : List Int} {ids : List Id}
    (h : columns.mapM Id.ofStored = .ok ids) : ids.map Id.stored = columns := by
  induction columns generalizing ids with
  | nil =>
    cases h
    rfl
  | cons x xs ih =>
    rw [List.mapM_cons] at h
    cases hx : Id.ofStored x with
    | error => rw [hx] at h; cases h
    | ok y =>
      cases hxs : xs.mapM Id.ofStored with
      | error => rw [hx, hxs] at h; cases h
      | ok ys =>
        rw [hx, hxs] at h
        cases h
        rw [List.map_cons, ih hxs]
        unfold Id.ofStored at hx
        split at hx
        · cases hx
          rename_i hy
          rw [Id.ofStored?_eq_some_iff.1 hy]
        · cases hx

theorem stored_mem_neighbours {links : Links} {id : Id} {next : List Id}
    (h : neighbourIds links id = .ok next) {other : Id} (ho : other ∈ next) :
    other.stored ∈ links.neighbours id.stored :=
  map_stored_of_mapM h ▸ List.mem_map_of_mem ho

/-- No neighbour is read twice. -/
theorem nodup_of_neighbourIds {links : Links} {id : Id} {next : List Id}
    (h : neighbourIds links id = .ok next) : next.Nodup := by
  have hdistinct : (links.neighbours id.stored).Nodup :=
    Std.ExtTreeSet.distinct_toList.imp fun hne heq => hne (by simp [heq])
  rw [← map_stored_of_mapM h] at hdistinct
  exact List.Pairwise.of_map Id.stored (fun _ _ hne heq => hne (congrArg Id.stored heq)) hdistinct

/-- How many ends of links are not found. -/
def unfound (links : Links) (found : IdSet) : Nat := links.ends.countP (isUnfound found)

theorem isUnfound_insert {found : IdSet} {id : Id} {x : Int}
    (h : isUnfound (found.insert id) x = true) : isUnfound found x = true := by
  unfold isUnfound at h ⊢
  split at h
  · simp only [Std.ExtTreeSet.contains_insert, Bool.not_or, Bool.and_eq_true] at h
    exact h.2
  · rfl

theorem countP_lt_countP {α : Type} {p q : α → Bool} {xs : List α} {x : α}
    (h : ∀ y, p y = true → q y = true) (hx : x ∈ xs) (hq : q x = true) (hp : p x = false) :
    xs.countP p < xs.countP q := by
  induction xs with
  | nil => cases hx
  | cons y ys ih =>
    have hys : ys.countP p ≤ ys.countP q := List.countP_mono_left fun z _ => h z
    rcases List.mem_cons.1 hx with rfl | hx
    · simp [hq, hp]
      omega
    · have := ih hx
      by_cases hy : p y = true
      · simp [hy, h y hy]
        omega
      · rw [List.countP_cons_of_neg hy, List.countP_cons]
        omega

theorem unfound_insert_lt {links : Links} {found : IdSet} {id : Id}
    (hend : id.stored ∈ links.ends) (hnew : found.contains id = false) :
    unfound links (found.insert id) < unfound links found := by
  refine countP_lt_countP (fun _ => isUnfound_insert) hend ?_ ?_
  · simp [isUnfound, hnew]
  · simp [isUnfound]

/-- Every new end that is found counts. -/
theorem unfound_insertMany_add_length_le {links : Links} {found : IdSet} {ids : List Id}
    (hdistinct : ids.Nodup) (hends : ∀ id ∈ ids, id.stored ∈ links.ends)
    (hnew : ∀ id ∈ ids, found.contains id = false) :
    unfound links (found.insertMany ids) + ids.length ≤ unfound links found := by
  induction ids generalizing found with
  | nil => simp
  | cons id ids ih =>
    obtain ⟨hid, hdistinct⟩ := List.nodup_cons.1 hdistinct
    obtain ⟨hend, hends⟩ := List.forall_mem_cons.1 hends
    obtain ⟨hfirst, hnew⟩ := List.forall_mem_cons.1 hnew
    have hlt := unfound_insert_lt hend hfirst
    have hleft : ∀ other ∈ ids, (found.insert id).contains other = false := by
      intro other hother
      have hne : other ≠ id := fun heq => hid (heq ▸ hother)
      simpa [Std.ExtTreeSet.contains_insert, hnew other hother] using hne.symm
    have hrest := ih hdistinct hends hleft
    rw [Std.ExtTreeSet.insertMany_cons, List.length_cons]
    omega

/-- Visits the ids of a queue, and all ids that are found on the way. -/
def walk (links : Links) (queue : List Id) (found : IdSet) : Except Fault IdSet :=
  match queue with
  | [] => .ok found
  | id :: queue =>
    match _h : neighbourIds links id with
    | .error fault => .error fault
    | .ok next =>
      match _hn : next.filter (!found.contains ·) with
      | [] => walk links queue found
      | other :: more => walk links (queue ++ other :: more) (found.insertMany (other :: more))
termination_by unfound links found + queue.length
decreasing_by
  · simp
  · have hmem : ∀ id ∈ other :: more, id ∈ next ∧ found.contains id = false := by
      intro id hid
      obtain ⟨hmem, hnew⟩ := List.mem_filter.1 (_hn ▸ hid)
      exact ⟨hmem, by simpa only [Bool.not_eq_true'] using hnew⟩
    have hdistinct : (other :: more).Nodup := _hn ▸ (nodup_of_neighbourIds _h).filter _
    have hle := unfound_insertMany_add_length_le hdistinct
      (fun id hid => Links.mem_ends_of_mem_neighbours (stored_mem_neighbours _h (hmem id hid).1))
      fun id hid => (hmem id hid).2
    simp only [List.length_append, List.length_cons] at hle ⊢
    omega

/-- All ids that can be reached from an id. -/
def component (links : Links) (id : Id) : Except Fault IdSet :=
  walk links [id] (IdSet.ofList [id])

end MediaCatalogue
