import Mathlib.Order.WellFounded
import MediaCatalogue.Equivalence.Refresh
import MediaCatalogue.Proofs.Connection
import MediaCatalogue.Proofs.Statements

/-!
# What bringing labels up to date does

An id is *labelled* by the lowest id that is connected to it, provided that it is not alone. The
table of labels is right at an id if its row says so (`Catalogue.RightAt`), and it is materialised
from the edges if it holds exactly the rows that it should (`Catalogue.Materialised`).

**Main theorem** (`Catalogue.refreshed_eq_ok_iff`): bringing the labels around an id up to date makes
the table right at every id that is connected to it, or to an id that had its label, and touches no
other row. This determines the tables afterwards. It fails only if it meets a number that is no id;
on columns that hold ids it does not (`Catalogue.refreshed_spec`).
-/

namespace MediaCatalogue

/-! ### Labels -/

namespace EdgeSet

/-- An id is not alone, and `lowest` is the lowest id that is connected to it. -/
structure Labelled (edges : EdgeSet) (id lowest : Id) : Prop where
  connected : edges.Connected id lowest
  le : ∀ x, edges.Connected id x → lowest.value ≤ x.value
  shared : ∃ x, edges.Connected id x ∧ x ≠ id

variable {edges : EdgeSet} {a b l l' : Id}

theorem Labelled.eq (h : edges.Labelled a l) (h' : edges.Labelled a l') : l = l' :=
  Id.ext (Nat.le_antisymm (h.le l' h'.connected) (h'.le l h.connected))

theorem Labelled.of_connected (h : edges.Labelled a l) (hab : edges.Connected a b) :
    edges.Labelled b l where
  connected := hab.symm.trans h.connected
  le x hx := h.le x (hab.trans hx)
  shared := by
    obtain ⟨x, hx, hne⟩ := h.shared
    by_cases hb : b = a
    · exact hb ▸ ⟨x, hx, hne⟩
    · exact ⟨a, hab.symm, fun h => hb h.symm⟩

theorem exists_labelled (h : edges.Connected a b) (hne : b ≠ a) : ∃ l, edges.Labelled a l := by
  have hwf := WellFounded.has_min (measure Id.value).wf {x | edges.Connected a x} ⟨a, .refl⟩
  obtain ⟨l, hl, hmin⟩ := hwf
  exact ⟨l, hl, fun x hx => Nat.not_lt.1 (hmin x hx), b, h, hne⟩

theorem Labelled.of_same {edges' : EdgeSet} (h : edges.Labelled a l)
    (hsame : ∀ x, edges.Connected a x ↔ edges'.Connected a x) : edges'.Labelled a l where
  connected := (hsame l).1 h.connected
  le x hx := h.le x ((hsame x).2 hx)
  shared := by
    obtain ⟨x, hx, hne⟩ := h.shared
    exact ⟨x, (hsame x).1 hx, hne⟩

theorem Labelled.congr {edges' : EdgeSet}
    (hsame : ∀ x, edges.Connected a x ↔ edges'.Connected a x) :
    edges.Labelled a l ↔ edges'.Labelled a l :=
  ⟨fun h => h.of_same hsame, fun h => h.of_same fun x => (hsame x).symm⟩

end EdgeSet

/-- A table of labels holds the ids of members and labels. -/
def Table.HoldsIds (sets : Table Int) : Prop :=
  ∀ column label, sets[column]? = some label →
    (∃ id : Id, column = id.stored) ∧ ∃ l : Id, label = l.stored

/-- Every row of a table of labels is that of an id. -/
def Table.KeyedByIds (sets : Table Int) : Prop :=
  ∀ column label, sets[column]? = some label → ∃ id : Id, column = id.stored

theorem Table.HoldsIds.keyedByIds {sets : Table Int} (h : sets.HoldsIds) : sets.KeyedByIds :=
  fun column label hrow => (h column label hrow).1

theorem Table.holdsIds_empty : Table.HoldsIds ∅ := by
  intro column label hrow
  rw [Std.ExtTreeMap.getElem?_empty] at hrow
  cases hrow

theorem Table.HoldsIds.insert {sets : Table Int} (h : sets.HoldsIds) (id l : Id) :
    Table.HoldsIds (Std.ExtTreeMap.insert sets id.stored l.stored) := by
  intro column label hrow
  rw [Std.ExtTreeMap.getElem?_insert] at hrow
  split at hrow
  · rename_i hcolumn
    cases Std.LawfulEqCmp.eq_of_compare hcolumn
    cases hrow
    exact ⟨⟨id, rfl⟩, l, rfl⟩
  · exact h column label hrow

namespace Catalogue

/-- The row of an id is its label, and an id that is alone has none. -/
def RightAt (c : Catalogue) (id : Id) : Prop :=
  ∀ label, c.sets[id.stored]? = some label ↔ ∃ l : Id, label = l.stored ∧ c.edges.Labelled id l

/-- The columns of edges and labels hold ids. -/
structure HoldsIds (c : Catalogue) : Prop where
  edges : c.edges.HoldsIds
  sets : c.sets.HoldsIds

/-- The table of labels holds the label of each id that is not alone, and nothing else. -/
def Materialised (c : Catalogue) : Prop :=
  ∀ column label, c.sets[column]? = some label ↔
    ∃ id l : Id, column = id.stored ∧ label = l.stored ∧ c.edges.Labelled id l

theorem materialised_of_rightAt {c : Catalogue} (hkeys : c.sets.KeyedByIds)
    (hright : ∀ id, c.RightAt id) : c.Materialised := by
  intro column label
  constructor
  · intro hrow
    obtain ⟨id, rfl⟩ := hkeys column label hrow
    obtain ⟨l, rfl, hl⟩ := (hright id label).1 hrow
    exact ⟨id, l, rfl, rfl, hl⟩
  · rintro ⟨id, l, rfl, rfl, hl⟩
    exact (hright id l.stored).2 ⟨l, rfl, hl⟩

theorem HoldsIds.materialised {c : Catalogue} (h : c.HoldsIds) (hright : ∀ id, c.RightAt id) :
    c.Materialised :=
  materialised_of_rightAt h.sets.keyedByIds hright

theorem Materialised.rightAt {c : Catalogue} (h : c.Materialised) (id : Id) : c.RightAt id := by
  intro label
  rw [h]
  constructor
  · rintro ⟨other, l, hother, rfl, hl⟩
    rw [Id.stored_injective hother]
    exact ⟨l, rfl, hl⟩
  · rintro ⟨l, rfl, hl⟩
    exact ⟨id, l, rfl, rfl, hl⟩

theorem Materialised.holdsIds {c : Catalogue} (h : c.Materialised) : c.sets.HoldsIds := by
  intro column label hrow
  obtain ⟨id, l, hid, hl, _⟩ := (h column label).1 hrow
  exact ⟨⟨id, hid⟩, l, hl⟩

/-- The table of labels is a function of the edges. -/
theorem Materialised.sets_eq {c c' : Catalogue} (h : c.Materialised) (h' : c'.Materialised)
    (hedges : c.edges = c'.edges) : c.sets = c'.sets := by
  refine Std.ExtTreeMap.ext_getElem? fun column => Option.ext fun label => ?_
  rw [h, h', hedges]

/-! ### One component -/

variable {c : Catalogue} {id : Id} {members : IdSet}

theorem getElem?_foldl_insert {ids : List Id} {label column : Int} {sets : Table Int} :
    (ids.foldl (fun sets id => sets.insert id.stored label) sets)[column]? =
      if column ∈ ids.map Id.stored then some label else sets[column]? := by
  induction ids generalizing sets with
  | nil => simp
  | cons id ids ih =>
    simp only [List.foldl_cons, ih, Std.ExtTreeMap.getElem?_insert,
      Std.LawfulEqCmp.compare_eq_iff_eq, List.map_cons, List.mem_cons]
    grind

theorem labelComponent_eq (members : IdSet) (c : Catalogue) :
    c.labelComponent members = { c with sets := (c.labelComponent members).sets } := by
  unfold labelComponent
  split <;> rfl

theorem getElem?_sets_labelComponent {column : Int} (h : ∀ x ∈ members, x.stored ≠ column) :
    (c.labelComponent members).sets[column]? = c.sets[column]? := by
  simp only [← Std.ExtTreeSet.mem_toList] at h
  unfold labelComponent
  split
  · rfl
  · rename_i x hx
    rw [hx] at h
    simp only [Std.ExtTreeMap.getElem?_erase, Std.LawfulEqCmp.compare_eq_iff_eq,
      h x List.mem_cons_self, if_false]
  · rename_i lowest others _ hx
    rw [hx] at h
    have hcolumn : column ∉ (lowest :: others).map Id.stored := by
      rw [List.mem_map]
      rintro ⟨x, hx, heq⟩
      exact h x hx heq
    simp only [getElem?_foldl_insert, hcolumn, if_false]

theorem value_lt_of_compare {a b : Id} (h : compare a b = .lt) : a.value < b.value :=
  Nat.compare_eq_lt.1 h

/-- The first one of several connected ids in ascending order is their label. -/
theorem labelled_of_ordered {edges : EdgeSet} {x lowest : Id} {others : List Id}
    (hordered : (lowest :: others).Pairwise fun a b => compare a b = .lt) (hothers : others ≠ [])
    (hmem : ∀ y, y ∈ lowest :: others ↔ edges.Connected x y) : edges.Labelled x lowest where
  connected := (hmem lowest).1 List.mem_cons_self
  le y hy := by
    rcases List.mem_cons.1 ((hmem y).2 hy) with rfl | hy
    · exact Nat.le_refl _
    · exact Nat.le_of_lt (value_lt_of_compare ((List.pairwise_cons.1 hordered).1 y hy))
  shared := by
    obtain ⟨other, more, rfl⟩ := List.exists_cons_of_ne_nil hothers
    have hlt := value_lt_of_compare ((List.pairwise_cons.1 hordered).1 other List.mem_cons_self)
    by_cases hx : x = lowest
    · refine ⟨other, (hmem other).1 (by simp), ?_⟩
      rintro rfl
      rw [hx] at hlt
      exact absurd hlt (Nat.lt_irrefl _)
    · exact ⟨lowest, (hmem lowest).1 List.mem_cons_self, fun h => hx h.symm⟩

theorem rightAt_labelComponent (hmembers : ∀ x, x ∈ members ↔ c.edges.Connected id x) {x : Id}
    (hx : x ∈ members) : (c.labelComponent members).RightAt x := by
  have hconnected : ∀ y, y ∈ members ↔ c.edges.Connected x y :=
    fun y => (hmembers y).trans ((hmembers x).1 hx).congr
  have hordered := members.ordered_toList
  simp only [← Std.ExtTreeSet.mem_toList] at hx hconnected
  intro label
  unfold labelComponent
  split
  · rename_i hnil
    rw [hnil] at hx
    cases hx
  · rename_i only honly
    rw [honly] at hx hconnected
    -- An id that is alone has no row, and it is in no component of two or more.
    cases List.mem_singleton.1 hx
    simp only [Std.ExtTreeMap.getElem?_erase_self, reduceCtorEq, false_iff]
    rintro ⟨l, _, hl⟩
    obtain ⟨y, hy, hne⟩ := hl.shared
    exact hne (List.mem_singleton.1 ((hconnected y).2 hy))
  · rename_i lowest others hothers hlist
    rw [hlist] at hx hconnected hordered
    have hcolumn : x.stored ∈ (lowest :: others).map Id.stored := List.mem_map_of_mem hx
    have hlabelled := labelled_of_ordered hordered hothers hconnected
    simp only [getElem?_foldl_insert, hcolumn, if_true, Option.some.injEq]
    constructor
    · rintro rfl
      exact ⟨lowest, rfl, hlabelled⟩
    · rintro ⟨l, rfl, hl⟩
      rw [hl.eq hlabelled]

/-! ### Several components -/

/-- What the labels are after those around some seeds were brought up to date. -/
structure Relabelled (c : Catalogue) (seed : Id → Prop) (c' : Catalogue) : Prop where
  eq : c' = { c with sets := c'.sets }
  right : ∀ s x, seed s → c.edges.Connected s x → c'.RightAt x
  kept : ∀ column, (∀ s x, seed s → c.edges.Connected s x → x.stored ≠ column) →
    c'.sets[column]? = c.sets[column]?

variable {seed : Id → Prop} {c' : Catalogue}

theorem Relabelled.edges_eq (h : c.Relabelled seed c') : c'.edges = c.edges := by rw [h.eq]

theorem Relabelled.pending_eq (h : c.Relabelled seed c') : c'.pending = c.pending := by rw [h.eq]

/-- What is not right afterwards was not right before, and is connected to no seed. -/
theorem Relabelled.of_not_rightAt (h : c.Relabelled seed c') {x : Id} (hx : ¬ c'.RightAt x) :
    ¬ c.RightAt x ∧ ∀ s, seed s → ¬ c.edges.Connected s x := by
  have hseed : ∀ s, seed s → ¬ c.edges.Connected s x := fun s hs hsx => hx (h.right s x hs hsx)
  refine ⟨fun hright => hx ?_, hseed⟩
  have hkept : c'.sets[x.stored]? = c.sets[x.stored]? := by
    refine h.kept x.stored fun s y hs hsy heq => ?_
    rw [Id.stored_injective heq] at hsy
    exact hseed s hs hsy
  intro label
  rw [hkept, h.edges_eq]
  exact hright label

/-- Every row was there before, or says that an id has another one as its label. -/
theorem Relabelled.row_of (h : c.Relabelled seed c') {column label : Int}
    (hrow : c'.sets[column]? = some label) :
    c.sets[column]? = some label ∨ (∃ x : Id, column = x.stored) ∧ ∃ l : Id, label = l.stored := by
  by_cases hcolumn : ∃ s x, seed s ∧ c.edges.Connected s x ∧ x.stored = column
  · obtain ⟨s, x, hs, hsx, rfl⟩ := hcolumn
    obtain ⟨l, rfl, _⟩ := (h.right s x hs hsx label).1 hrow
    exact .inr ⟨⟨x, rfl⟩, l, rfl⟩
  · rw [h.kept column fun s x hs hsx heq => hcolumn ⟨s, x, hs, hsx, heq⟩] at hrow
    exact .inl hrow

theorem Relabelled.holdsIds (h : c.Relabelled seed c') (hc : c.HoldsIds) : c'.HoldsIds where
  edges := h.edges_eq ▸ hc.edges
  sets column label hrow := (h.row_of hrow).elim (hc.sets column label) fun hids => hids

theorem Relabelled.keyedByIds (h : c.Relabelled seed c') (hc : c.sets.KeyedByIds) :
    c'.sets.KeyedByIds :=
  fun column label hrow => (h.row_of hrow).elim (hc column label) And.left

theorem RightAt.getElem?_eq {x : Id} (h : c.RightAt x) (h' : c'.RightAt x)
    (hedges : c.edges = c'.edges) : c.sets[x.stored]? = c'.sets[x.stored]? := by
  refine Option.ext fun label => ?_
  rw [h label, h' label, hedges]

/-- A row stays right while the ids that are connected to its id are the same. -/
theorem RightAt.of_same {x : Id} (h : c.RightAt x) (hsets : c'.sets = c.sets)
    (hsame : ∀ y, c.edges.Connected x y ↔ c'.edges.Connected x y) : c'.RightAt x := by
  intro label
  rw [hsets, h label]
  exact exists_congr fun l => and_congr_right fun _ => EdgeSet.Labelled.congr hsame

theorem Relabelled.unique {c'' : Catalogue} (h : c.Relabelled seed c')
    (h' : c.Relabelled seed c'') : c' = c'' := by
  have hsets : c'.sets = c''.sets := by
    refine Std.ExtTreeMap.ext_getElem? fun column => ?_
    by_cases hcolumn : ∃ s x, seed s ∧ c.edges.Connected s x ∧ x.stored = column
    · obtain ⟨s, x, hs, hsx, rfl⟩ := hcolumn
      exact (h.right s x hs hsx).getElem?_eq (h'.right s x hs hsx)
        (h.edges_eq.trans h'.edges_eq.symm)
    · rw [h.kept column fun s x hs hsx heq => hcolumn ⟨s, x, hs, hsx, heq⟩,
        h'.kept column fun s x hs hsx heq => hcolumn ⟨s, x, hs, hsx, heq⟩]
  rw [h.eq, h'.eq, hsets]

theorem relabelled_self (h : ∀ s x, seed s → c.edges.Connected s x → c.RightAt x) :
    c.Relabelled seed c :=
  ⟨rfl, h, fun _ _ => rfl⟩

theorem relabelled_labelComponent (hmembers : ∀ x, x ∈ members ↔ c.edges.Connected id x) :
    c.Relabelled (· = id) (c.labelComponent members) where
  eq := labelComponent_eq members c
  right := by
    rintro _ x rfl hx
    exact rightAt_labelComponent hmembers ((hmembers x).2 hx)
  kept column h := getElem?_sets_labelComponent fun x hx => h id x rfl ((hmembers x).1 hx)

theorem Relabelled.trans {seed' : Id → Prop} {c'' : Catalogue} (h : c.Relabelled seed c')
    (h' : c'.Relabelled seed' c'') : c.Relabelled (fun s => seed s ∨ seed' s) c'' where
  eq := by rw [h'.eq, h.eq]
  right := by
    -- The second step makes nothing wrong that the first one made right.
    intro s x hs hsx
    by_contra hx
    obtain ⟨hx', hseed'⟩ := h'.of_not_rightAt hx
    rcases hs with hs | hs
    · exact hx' (h.right s x hs hsx)
    · exact hseed' s hs (h.edges_eq ▸ hsx)
  kept column hcolumn := by
    rw [h'.kept column fun s x hs hsx => hcolumn s x (.inr hs) (h.edges_eq ▸ hsx)]
    exact h.kept column fun s x hs hsx => hcolumn s x (.inl hs) hsx

/-- A seed whose component is right already need not be visited. -/
theorem Relabelled.insert (h : c.Relabelled seed c')
    (hid : ∀ x, c.edges.Connected id x → c.RightAt x) :
    c.Relabelled (fun s => s = id ∨ seed s) c' where
  eq := h.eq
  right := by
    rintro s x (rfl | hs) hsx
    · by_contra hx
      exact (h.of_not_rightAt hx).1 (hid x hsx)
    · exact h.right s x hs hsx
  kept column hcolumn := h.kept column fun s x hs hsx => hcolumn s x (.inr hs) hsx

/-- What it can end in to label the components of some seeds: they are relabelled, or the walk from
one of them fails. -/
def Labelling (c : Catalogue) (seed : Id → Prop) : Except Fault Catalogue → Prop
  | .ok c' => (∀ s, seed s → c.edges.ReadableFrom s) ∧ c.Relabelled seed c'
  | .error _ => ∃ s, seed s ∧ ¬ c.edges.ReadableFrom s

variable {result : Except Fault Catalogue}

theorem Labelling.eq_ok_iff (h : c.Labelling seed result) :
    result = .ok c' ↔ (∀ s, seed s → c.edges.ReadableFrom s) ∧ c.Relabelled seed c' := by
  cases result with
  | error fault =>
    obtain ⟨s, hs, hunreadable⟩ := h
    exact ⟨nofun, fun hread => absurd (hread.1 s hs) hunreadable⟩
  | ok c'' =>
    constructor
    · rintro ⟨⟩
      exact h
    · intro h'
      rw [h.2.unique h'.2]

theorem Labelling.insert (h : c.Labelling seed result) (hread : c.edges.ReadableFrom id)
    (hright : ∀ x, c.edges.Connected id x → c.RightAt x) :
    c.Labelling (fun s => s = id ∨ seed s) result := by
  cases result with
  | error fault =>
    obtain ⟨s, hs, hunreadable⟩ := h
    exact ⟨s, .inr hs, hunreadable⟩
  | ok c'' => exact ⟨by rintro s (rfl | hs); exacts [hread, h.1 s hs], h.2.insert hright⟩

theorem Labelling.of_component (hcomponent : component c.edges.links id = .ok members)
    (h : (c.labelComponent members).Labelling seed result) :
    c.Labelling (fun s => s = id ∨ seed s) result := by
  obtain ⟨hread, hmembers⟩ := EdgeSet.of_component hcomponent
  have hone := relabelled_labelComponent hmembers
  cases result with
  | error fault =>
    obtain ⟨s, hs, hunreadable⟩ := h
    exact ⟨s, .inr hs, hone.edges_eq ▸ hunreadable⟩
  | ok c'' =>
    refine ⟨?_, hone.trans h.2⟩
    rintro s (rfl | hs)
    · exact hread
    · exact hone.edges_eq ▸ h.1 s hs

/-- Whole components were visited, without failure, and are right. -/
structure Settled (c : Catalogue) (visited : IdSet) : Prop where
  right : ∀ x ∈ visited, c.RightAt x
  readable : ∀ x ∈ visited, c.edges.ReadableFrom x
  closed : ∀ x ∈ visited, ∀ y, c.edges.Connected x y → y ∈ visited

variable {visited : IdSet} {seeds : List Id}

theorem settled_empty (c : Catalogue) : c.Settled ∅ := ⟨by simp, by simp, by simp⟩

theorem Settled.labelComponent (h : c.Settled visited)
    (hcomponent : component c.edges.links id = .ok members) :
    (c.labelComponent members).Settled (visited.insertMany members.toList) := by
  obtain ⟨hread, hmembers⟩ := EdgeSet.of_component hcomponent
  have hone := relabelled_labelComponent hmembers
  have hmem : ∀ x, x ∈ visited.insertMany members.toList ↔
      x ∈ visited ∨ c.edges.Connected id x := by
    simp [Std.ExtTreeSet.mem_insertMany_list, hmembers]
  constructor
  · intro x hx
    -- An id can become wrong only near the seed, and that is right now.
    by_contra hwrong
    obtain ⟨hwrong, hfar⟩ := hone.of_not_rightAt hwrong
    rcases (hmem x).1 hx with hx | hx
    · exact hwrong (h.right x hx)
    · exact hfar id rfl hx
  · intro x hx
    rw [hone.edges_eq]
    rcases (hmem x).1 hx with hx | hx
    · exact h.readable x hx
    · exact hread.of_connected hx
  · intro x hx y hxy
    rw [hone.edges_eq] at hxy
    rw [hmem] at hx ⊢
    rcases hx with hx | hx
    · exact .inl (h.closed x hx y hxy)
    · exact .inr (hx.trans hxy)

/-- All seeds are labelled. The visited set only saves work: a seed in it can be left out, because
whole components were visited. -/
theorem labelFrom_spec (h : c.Settled visited) :
    c.Labelling (· ∈ seeds) (labelFrom c.edges.links seeds visited c) := by
  induction seeds generalizing visited c with
  | nil => exact ⟨by simp, relabelled_self (by simp)⟩
  | cons seed rest ih =>
    unfold labelFrom
    simp only [List.mem_cons]
    by_cases hseed : seed ∈ visited
    · rw [if_pos (Std.ExtTreeSet.mem_iff_contains.1 hseed)]
      exact (ih h).insert (h.readable seed hseed) fun x hx => h.right x (h.closed seed hseed x hx)
    · rw [if_neg (by rwa [← Std.ExtTreeSet.mem_iff_contains])]
      cases hcomponent : component c.edges.links seed with
      | error fault =>
        refine ⟨seed, .inl rfl, fun hread => ?_⟩
        obtain ⟨members, hmembers⟩ := hread.exists_component
        rw [hmembers] at hcomponent
        cases hcomponent
      | ok members =>
        have hedges : (c.labelComponent members).edges = c.edges := by rw [labelComponent_eq]
        have hrest := ih (h.labelComponent hcomponent)
        rw [hedges] at hrest
        exact hrest.of_component hcomponent

/-- **Labelling the components of some seeds.** Neither the order of the seeds nor their repetitions
matter. -/
theorem labelFrom_eq_ok_iff : labelFrom c.edges.links seeds ∅ c = .ok c' ↔
    (∀ s ∈ seeds, c.edges.ReadableFrom s) ∧ c.Relabelled (· ∈ seeds) c' :=
  (labelFrom_spec c.settled_empty).eq_ok_iff

/-! ### The labels around an id -/

/-- `x` is `id`, or has the same label. -/
def SharesLabel (c : Catalogue) (id x : Id) : Prop :=
  x = id ∨ ∃ label, c.sets[id.stored]? = some label ∧ c.sets[x.stored]? = some label

/-- All rows that have the label of an id are those of ids. -/
def ReadableLabel (c : Catalogue) (id : Id) : Prop :=
  ∀ label, c.sets[id.stored]? = some label → ∀ column, c.sets[column]? = some label →
    ∃ x : Id, column = x.stored

theorem mem_labelledWith {label column : Int} :
    column ∈ c.labelledWith label ↔ c.sets[column]? = some label := by
  simp only [labelledWith, List.mem_map, List.mem_filter, decide_eq_true_eq, Prod.exists,
    Std.ExtTreeMap.mem_toList_iff_getElem?_eq_some]
  grind

theorem of_seeds {ids : IdSet} (h : c.seeds id = .ok ids) :
    c.ReadableLabel id ∧ ∀ x, x ∈ ids ↔ c.SharesLabel id x := by
  unfold seeds at h
  unfold ReadableLabel SharesLabel
  cases hlabel : c.sets[id.stored]? with
  | none =>
    simp only [hlabel] at h
    cases h
    simp
  | some label =>
    simp only [hlabel] at h
    obtain ⟨xs, hxs, heq⟩ := of_bind_eq_ok h
    cases heq
    have hcolumns := exists_mapM_eq_ok_iff.1 ⟨xs, hxs⟩
    simp only [Id.ofStored_eq_ok_iff, mem_labelledWith] at hcolumns
    refine ⟨fun _ hsame => Option.some.inj hsame ▸ hcolumns, fun x => ?_⟩
    simp [mem_of_mapM_eq_ok hxs, Id.ofStored_eq_ok_iff, mem_labelledWith]

theorem ReadableLabel.exists_seeds (h : c.ReadableLabel id) : ∃ ids, c.seeds id = .ok ids := by
  unfold seeds
  cases hlabel : c.sets[id.stored]? with
  | none => exact ⟨_, rfl⟩
  | some label =>
    simp only [exists_bind_pure_eq_ok_iff, exists_mapM_eq_ok_iff, Id.ofStored_eq_ok_iff,
      mem_labelledWith]
    exact h label hlabel

/-- Nothing but ids is met when the labels around an id are brought up to date. -/
structure ReadableAround (c : Catalogue) (id : Id) : Prop where
  label : c.ReadableLabel id
  readable : ∀ s, c.SharesLabel id s → c.edges.ReadableFrom s

theorem readableAround (hedges : c.edges.HoldsIds) (hkeys : c.sets.KeyedByIds) (id : Id) :
    c.ReadableAround id where
  label _ _ column hrow := hkeys column _ hrow
  readable s _ := hedges.readableFrom s

/-- **Bringing labels up to date.** It makes the table right at all ids that are connected to a seed,
and touches no other row. -/
theorem refreshed_eq_ok_iff : refreshed id c = .ok c' ↔
    c.ReadableAround id ∧ c.Relabelled (c.SharesLabel id) c' := by
  have hlabels : ∀ ids : IdSet, c.seeds id = .ok ids →
      (labelFrom c.edges.links ids.toList ∅ c = .ok c' ↔
        (∀ s, c.SharesLabel id s → c.edges.ReadableFrom s) ∧
          c.Relabelled (c.SharesLabel id) c') := by
    intro ids hids
    simp only [labelFrom_eq_ok_iff, Std.ExtTreeSet.mem_toList, (of_seeds hids).2]
  constructor
  · intro h
    obtain ⟨ids, hids, hlabel⟩ := of_bind_eq_ok h
    obtain ⟨hread, hrelabelled⟩ := (hlabels ids hids).1 hlabel
    exact ⟨⟨(of_seeds hids).1, hread⟩, hrelabelled⟩
  · rintro ⟨hread, hrelabelled⟩
    obtain ⟨ids, hids⟩ := hread.label.exists_seeds
    simp only [refreshed, hids]
    exact (hlabels ids hids).2 ⟨hread.readable, hrelabelled⟩

theorem ReadableAround.exists_refreshed (h : c.ReadableAround id) :
    ∃ c', refreshed id c = .ok c' := by
  obtain ⟨ids, hids⟩ := h.label.exists_seeds
  simp only [refreshed, hids]
  have hlabelling : c.Labelling (· ∈ ids.toList) (labelFrom c.edges.links ids.toList ∅ c) :=
    labelFrom_spec c.settled_empty
  cases hend : labelFrom c.edges.links ids.toList ∅ c with
  | ok c' => exact ⟨c', hend⟩
  | error fault =>
    rw [hend] at hlabelling
    obtain ⟨s, hs, hunreadable⟩ := hlabelling
    rw [Std.ExtTreeSet.mem_toList, (of_seeds hids).2] at hs
    exact absurd (h.readable s hs) hunreadable

theorem refreshed_spec (h : c.HoldsIds) (id : Id) :
    ∃ c', refreshed id c = .ok c' ∧ c.Relabelled (c.SharesLabel id) c' := by
  obtain ⟨c', hc'⟩ := (readableAround h.edges h.sets.keyedByIds id).exists_refreshed
  exact ⟨c', hc', (refreshed_eq_ok_iff.1 hc').2⟩

end Catalogue

open Statements

/-- A call that brings the labels around an id up to date does so, unless a statement does not work,
or an id cannot be read. -/
theorem ends_refreshed {c : Catalogue} (id : Id) {E : Fault → Prop} (hbroken : E .brokenStatement)
    (hfault : ∀ fault, Catalogue.refreshed id c = .error fault → E fault) :
    Ends (refresh id) c (fun _ c' => Catalogue.refreshed id c = .ok c') E := by
  unfold refresh
  refine ends_update_bind hbroken (ends_statement_bind hbroken ?_)
  refine ends_lift_bind hfault fun c' h => ?_
  exact ends_update_bind hbroken (ends_mark hbroken h)

theorem ends_refresh {c : Catalogue} (h : c.HoldsIds) (id : Id) {E : Fault → Prop}
    (hbroken : E .brokenStatement) :
    Ends (refresh id) c (fun _ c' => c.Relabelled (c.SharesLabel id) c') E := by
  obtain ⟨c', hc', hrelabelled⟩ := Catalogue.refreshed_spec h id
  have hends := ends_refreshed (c := c) id hbroken fun fault hfault => by
    rw [hc'] at hfault
    cases hfault
  refine hends.imp fun _ c'' hc'' => ?_
  rw [hc'] at hc''
  cases hc''
  exact hrelabelled

theorem takes_refresh {c c' : Catalogue} {id : Id} (h : Catalogue.refreshed id c = .ok c') :
    Takes (refresh id) c 4 () c' := by
  have hread : Takes (query (Catalogue.refreshed id)) c 1 (.ok c') c := h ▸ takes_statement
  have hwrite : Takes (update fun _ => c') c 1 () c' := takes_update
  exact takes_mark.bind (hread.bind (.lift_bind rfl (hwrite.bind takes_mark)))

end MediaCatalogue
