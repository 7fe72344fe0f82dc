import Mathlib.Logic.Relation
import MediaCatalogue.Equivalence.Component
import MediaCatalogue.Proofs.Sequences

/-!
# Connected ids

Two ids are linked if an edge joins them, in one direction or the other, and connected if a path of
links leads from one to the other.

**Main theorem** (`EdgeSet.component_eq_ok_iff`): the walk from an id finds exactly the ids that are
connected to it, and fails only if one of them shares an edge with a number that is no id. On edges
that hold ids it does not fail (`EdgeSet.HoldsIds.readableFrom`).

`EdgeSet.connected_of_untouched` is what makes requests local: an id that is connected to none of
the ids whose links changed is connected to the same ids as before.
-/

namespace MediaCatalogue

namespace EdgeSet

/-- Every edge joins two ids. -/
def HoldsIds (edges : EdgeSet) : Prop := ∀ e ∈ edges, ∃ a b : Id, e = ⟨a.stored, b.stored⟩

/-- An edge joins two ids. -/
def Linked (edges : EdgeSet) (a b : Id) : Prop :=
  (⟨a.stored, b.stored⟩ : Edge) ∈ edges ∨ (⟨b.stored, a.stored⟩ : Edge) ∈ edges

/-- A path of links leads from one id to another. -/
def Connected (edges : EdgeSet) : Id → Id → Prop := Relation.ReflTransGen edges.Linked

variable {edges : EdgeSet} {a b d : Id}

theorem Linked.symm (h : edges.Linked a b) : edges.Linked b a := Or.symm h

theorem Linked.connected (h : edges.Linked a b) : edges.Connected a b := .single h

@[refl]
theorem Connected.refl : edges.Connected a a := Relation.ReflTransGen.refl

theorem Connected.trans (hab : edges.Connected a b) (hbd : edges.Connected b d) :
    edges.Connected a d :=
  Relation.ReflTransGen.trans hab hbd

instance : Trans edges.Connected edges.Connected edges.Connected := ⟨Connected.trans⟩

theorem Connected.symm (h : edges.Connected a b) : edges.Connected b a := by
  induction h with
  | refl => rfl
  | tail _ hlast ih => exact hlast.symm.connected.trans ih

theorem Connected.congr (h : edges.Connected a b) : edges.Connected a d ↔ edges.Connected b d :=
  ⟨h.symm.trans, h.trans⟩

theorem Connected.kept {P : Id → Prop} (hlink : ∀ x y, edges.Linked x y → P x → P y) (ha : P a)
    (h : edges.Connected a b) : P b := by
  induction h with
  | refl => exact ha
  | tail _ hlast ih => exact hlink _ _ hlast ih

/-- An id that is connected to no touched id is connected to the same ids as before, if links that
have no touched end are the same as before. -/
theorem connected_of_untouched {edges' : EdgeSet} {touched : Id → Prop}
    (hsame : ∀ x y, ¬ touched x → (edges.Linked x y ↔ edges'.Linked x y))
    (huntouched : ∀ x, edges'.Connected a x → ¬ touched x) :
    edges.Connected a b ↔ edges'.Connected a b := by
  constructor
  · intro h
    -- The old path does not leave the ids that are connected now, and these are untouched.
    refine h.kept (P := edges'.Connected a) (fun x y hlink hx => ?_) .refl
    exact hx.trans ((hsame x y (huntouched x hx)).1 hlink).connected
  · intro h
    have hboth : edges.Connected a b ∧ edges'.Connected a b := by
      refine h.kept (P := fun x => edges.Connected a x ∧ edges'.Connected a x) ?_ ⟨.refl, .refl⟩
      rintro x y hlink ⟨hx, hx'⟩
      have hlink' := (hsame x y (huntouched x hx')).2 hlink
      exact ⟨hx.trans hlink'.connected, hx'.trans hlink.connected⟩
    exact hboth.1

/-! ### The walk -/

/-- Every number that shares an edge with the id is an id. -/
def Readable (edges : EdgeSet) (id : Id) : Prop :=
  ∀ column ∈ edges.links.neighbours id.stored, ∃ x : Id, column = x.stored

/-- All ids that are connected to `start` are readable. -/
def ReadableFrom (edges : EdgeSet) (start : Id) : Prop :=
  ∀ x, edges.Connected start x → edges.Readable x

theorem HoldsIds.readableFrom (h : edges.HoldsIds) (start : Id) : edges.ReadableFrom start := by
  intro x _ column hcolumn
  rcases mem_neighbours_links.1 hcolumn with he | he
  · obtain ⟨_, y, heq⟩ := h _ he
    exact ⟨y, (Edge.mk.inj heq).2⟩
  · obtain ⟨y, _, heq⟩ := h _ he
    exact ⟨y, (Edge.mk.inj heq).1⟩

theorem ReadableFrom.of_connected (h : edges.ReadableFrom a) (hab : edges.Connected a b) :
    edges.ReadableFrom b :=
  fun x hx => h x (hab.trans hx)

variable {start id x : Id} {queue next : List Id} {found members : IdSet}

theorem mem_of_neighbourIds (h : neighbourIds edges.links id = .ok next) :
    x ∈ next ↔ edges.Linked id x := by
  simp only [mem_of_mapM_eq_ok h, Id.ofStored_eq_ok_iff, exists_eq_right, mem_neighbours_links,
    Linked]

theorem exists_neighbourIds_iff :
    (∃ next, neighbourIds edges.links id = .ok next) ↔ edges.Readable id := by
  simp only [neighbourIds, exists_mapM_eq_ok_iff, Id.ofStored_eq_ok_iff, Readable]

theorem not_contains_iff : (!found.contains x) = true ↔ x ∉ found := by
  rw [Std.ExtTreeSet.mem_iff_contains, Bool.not_eq_true', Bool.not_eq_true]

/-- What a walk has done when some ids are found and those of a queue are still to be visited. -/
structure Walked (edges : EdgeSet) (start : Id) (queue : List Id) (found : IdSet) : Prop where
  start_mem : start ∈ found
  queue_mem : ∀ x ∈ queue, x ∈ found
  connected : ∀ x ∈ found, edges.Connected start x
  closed : ∀ x ∈ found, x ∉ queue → ∀ y, edges.Linked x y → y ∈ found
  readable : ∀ x ∈ found, x ∉ queue → edges.Readable x

theorem walked_start (start : Id) : edges.Walked start [start] (IdSet.ofList [start]) where
  start_mem := by simp
  queue_mem := by simp
  connected := by simp [Connected.refl]
  closed := by simp
  readable := by simp

theorem Walked.visit (h : edges.Walked start (id :: queue) found) (hread : edges.Readable id)
    (hnext : ∀ y, edges.Linked id y → y ∈ found) : edges.Walked start queue found where
  start_mem := h.start_mem
  queue_mem x hx := h.queue_mem x (List.mem_cons_of_mem _ hx)
  connected := h.connected
  closed x hx hqueue y hlink := by
    by_cases hid : x = id
    · exact hnext y (hid ▸ hlink)
    · exact h.closed x hx (by simp [hid, hqueue]) y hlink
  readable x hx hqueue := by
    by_cases hid : x = id
    · exact hid ▸ hread
    · exact h.readable x hx (by simp [hid, hqueue])

theorem Walked.find (h : edges.Walked start (id :: queue) found)
    (hnext : ∀ y ∈ next, edges.Linked id y) :
    edges.Walked start (id :: (queue ++ next)) (found.insertMany next) where
  start_mem := by simp [h.start_mem]
  queue_mem x hx := by
    have hmem := h.queue_mem x
    simp only [List.mem_cons, List.mem_append, Std.ExtTreeSet.mem_insertMany_list,
      List.contains_iff_mem] at hx hmem ⊢
    grind
  connected x hx := by
    rcases Std.ExtTreeSet.mem_insertMany_list.1 hx with hx | hx
    · exact h.connected x hx
    · have hid := h.connected id (h.queue_mem id List.mem_cons_self)
      exact hid.trans (hnext x (List.contains_iff_mem.1 hx)).connected
  closed x hx hqueue y hlink := by
    simp only [List.mem_cons, List.mem_append, not_or, Std.ExtTreeSet.mem_insertMany_list,
      List.contains_iff_mem] at hx hqueue ⊢
    have hold : x ∈ found := hx.resolve_right hqueue.2.2
    exact .inl (h.closed x hold (by simp [hqueue.1, hqueue.2.1]) y hlink)
  readable x hx hqueue := by
    simp only [List.mem_cons, List.mem_append, not_or, Std.ExtTreeSet.mem_insertMany_list,
      List.contains_iff_mem] at hx hqueue
    exact h.readable x (hx.resolve_right hqueue.2.2) (by simp [hqueue.1, hqueue.2.1])

/-- **One step of the walk.** An id leaves the queue, and its neighbours that were not found before
enter it. -/
theorem Walked.step (h : edges.Walked start (id :: queue) found)
    (hnext : neighbourIds edges.links id = .ok next) :
    edges.Walked start (queue ++ next.filter (!found.contains ·))
      (found.insertMany (next.filter (!found.contains ·))) := by
  have hlinked : ∀ y ∈ next.filter (!found.contains ·), edges.Linked id y :=
    fun y hy => (mem_of_neighbourIds hnext).1 (List.mem_of_mem_filter hy)
  refine (h.find hlinked).visit (exists_neighbourIds_iff.1 ⟨next, hnext⟩) fun y hlink => ?_
  rw [Std.ExtTreeSet.mem_insertMany_list, List.contains_iff_mem, List.mem_filter, not_contains_iff,
    mem_of_neighbourIds hnext]
  by_cases hy : y ∈ found
  · exact .inl hy
  · exact .inr ⟨hlink, hy⟩

/-- When nobody waits to be visited, the ids are found that are connected. -/
theorem Walked.mem_iff (h : edges.Walked start [] found) : x ∈ found ↔ edges.Connected start x := by
  refine ⟨h.connected x, fun hx => ?_⟩
  exact hx.kept (fun x y hlink hx => h.closed x hx List.not_mem_nil y hlink) h.start_mem

/-- A walk succeeds if it meets readable ids only, and then finds the connected ids. -/
theorem walk_spec (hwalked : edges.Walked start queue found) :
    match walk edges.links queue found with
    | .ok members => edges.ReadableFrom start ∧ ∀ x, x ∈ members ↔ edges.Connected start x
    | .error _ => ¬ edges.ReadableFrom start := by
  -- The induction follows the walk; `Walked` is its invariant.
  fun_induction walk edges.links queue found with
  | case1 found =>
    refine ⟨fun x hx => ?_, fun x => hwalked.mem_iff⟩
    exact hwalked.readable x (hwalked.mem_iff.2 hx) List.not_mem_nil
  | case2 found id queue fault hnext =>
    intro hread
    have hid := hwalked.connected id (hwalked.queue_mem id List.mem_cons_self)
    obtain ⟨next, hok⟩ := exists_neighbourIds_iff.2 (hread id hid)
    rw [hok] at hnext
    cases hnext
  | case3 found id queue next hnext hnone ih =>
    have hstep := hwalked.step hnext
    rw [hnone, List.append_nil, Std.ExtTreeSet.insertMany_nil] at hstep
    exact ih hstep
  | case4 found id queue next hnext other more hnew ih =>
    have hstep := hwalked.step hnext
    rw [hnew] at hstep
    exact ih hstep

theorem of_component (h : component edges.links start = .ok members) :
    edges.ReadableFrom start ∧ ∀ x, x ∈ members ↔ edges.Connected start x := by
  have hwalk := walk_spec (edges.walked_start start)
  rw [component] at h
  rw [h] at hwalk
  exact hwalk

theorem ReadableFrom.exists_component (hread : edges.ReadableFrom start) :
    ∃ members, component edges.links start = .ok members := by
  have hwalk := walk_spec (edges.walked_start start)
  cases h : component edges.links start with
  | ok members => exact ⟨members, rfl⟩
  | error fault =>
    rw [component] at h
    rw [h] at hwalk
    exact absurd hread hwalk

/-- **The walk finds the connected ids**, unless it meets a number that is no id. -/
theorem component_eq_ok_iff : component edges.links start = .ok members ↔
    edges.ReadableFrom start ∧ ∀ x, x ∈ members ↔ edges.Connected start x := by
  refine ⟨of_component, ?_⟩
  rintro ⟨hread, hmem⟩
  obtain ⟨found, hfound⟩ := hread.exists_component
  rw [hfound, Std.ExtTreeSet.ext_mem fun x => ((of_component hfound).2 x).trans (hmem x).symm]

end EdgeSet

end MediaCatalogue
