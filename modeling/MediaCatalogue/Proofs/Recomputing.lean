import MediaCatalogue.Proofs.Members
import MediaCatalogue.Proofs.Transactions

/-!
# What the set of an id is after it was brought up to date

Bringing the labels around an id up to date visits the ids that are connected to it, and the ids
that are connected to one that had its label. The label that it gets is the lowest id that is
connected to it, and an id that was not visited may carry this label from another time: a
*stranger* (`Catalogue.Stranger`).

**Main theorem** (`Transaction.refreshed_up_to_strangers`): after any transactions, the set of an id
that was just brought up to date is its component together with its strangers. So it is the
component iff there are no strangers; there can be some (`Transaction.stranger_after_refresh`).
-/

namespace MediaCatalogue

namespace EdgeSet

/-- `lowest` is the lowest id that is connected to `id`. -/
structure Lowest (edges : EdgeSet) (id lowest : Id) : Prop where
  connected : edges.Connected id lowest
  le : ∀ x, edges.Connected id x → lowest.value ≤ x.value

variable {edges : EdgeSet} {a b l l' : Id}

theorem Labelled.lowest (h : edges.Labelled a l) : edges.Lowest a l := ⟨h.connected, h.le⟩

theorem Lowest.eq (h : edges.Lowest a l) (h' : edges.Lowest a l') : l = l' :=
  Id.ext (Nat.le_antisymm (h.le l' h'.connected) (h'.le l h.connected))

theorem Lowest.of_connected (h : edges.Lowest a l) (hab : edges.Connected a b) :
    edges.Lowest b l where
  connected := hab.symm.trans h.connected
  le x hx := h.le x (hab.trans hx)

theorem Lowest.connected_of_lowest (h : edges.Lowest a l) (h' : edges.Lowest b l) :
    edges.Connected a b :=
  h.connected.trans h'.connected.symm

theorem lowest_self (h : ∀ x, edges.Connected a x → x = a) : edges.Lowest a a where
  connected := .refl
  le x hx := Nat.le_of_eq (congrArg Id.value (h x hx).symm)

theorem exists_lowest (edges : EdgeSet) (a : Id) : ∃ l, edges.Lowest a l := by
  by_cases halone : ∀ x, edges.Connected a x → x = a
  · exact ⟨a, lowest_self halone⟩
  · push Not at halone
    obtain ⟨x, hx, hne⟩ := halone
    exact (exists_labelled hx hne).imp fun _ => Labelled.lowest

end EdgeSet

namespace Catalogue

open Statements

variable {c c' : Catalogue} {q x l : Id}

/-- Where the table is right, the label of an id is the lowest id that is connected to it. -/
theorem RightAt.labelOf_eq (h : c.RightAt x) (hl : c.edges.Lowest x l) :
    c.labelOf x = .ok (x, l) := by
  rw [labelOf_eq_ok_iff]
  by_cases halone : ∀ y, c.edges.Connected x y → y = x
  · refine .inr ⟨?_, (EdgeSet.lowest_self halone).eq hl⟩
    refine Option.eq_none_iff_forall_ne_some.2 fun label hlabel => ?_
    obtain ⟨_, _, hlabelled⟩ := (h label).1 hlabel
    obtain ⟨y, hy, hne⟩ := hlabelled.shared
    exact hne (halone y hy)
  · push Not at halone
    obtain ⟨y, hy, hne⟩ := halone
    obtain ⟨l', hl'⟩ := EdgeSet.exists_labelled hy hne
    exact .inl ((h _).2 ⟨l, rfl, hl.eq hl'.lowest ▸ hl'⟩)

/-- The labels of the id are computed anew when those around `q` are: it is connected to an id that
has the label of `q`. -/
def Visited (c : Catalogue) (q x : Id) : Prop :=
  ∃ seed, c.SharesLabel q seed ∧ c.edges.Connected seed x

theorem visited_of_connected (h : c.edges.Connected q x) : c.Visited q x := ⟨q, .inl rfl, h⟩

/-- The id is not visited when the labels around `q` are brought up to date, and carries the label
that `q` gets. -/
def Stranger (c : Catalogue) (q x : Id) : Prop :=
  ¬ c.Visited q x ∧ ∃ l : Id, c.sets[x.stored]? = some l.stored ∧ c.edges.Lowest q l

theorem Stranger.not_connected (h : c.Stranger q x) : ¬ c.edges.Connected q x :=
  fun hconnected => h.1 (visited_of_connected hconnected)

theorem Relabelled.rightAt_of_visited (h : c.Relabelled (c.SharesLabel q) c')
    (hx : c.Visited q x) : c'.RightAt x := by
  obtain ⟨seed, hseed, hconnected⟩ := hx
  exact h.right seed x hseed hconnected

theorem Relabelled.getElem?_of_not_visited (h : c.Relabelled (c.SharesLabel q) c')
    (hx : ¬ c.Visited q x) : c'.sets[x.stored]? = c.sets[x.stored]? := by
  refine h.kept x.stored fun seed y hseed hconnected heq => hx ?_
  exact ⟨seed, hseed, Id.stored_injective heq ▸ hconnected⟩

theorem sameLabel_iff_of_labelOf (h : c.labelOf q = .ok (q, l)) :
    c.SameLabel q x ↔ c.labelOf x = .ok (x, l) := by
  simp [SameLabel, h]

/-- **The set of an id after its labels were brought up to date**: its component, and its
strangers. -/
theorem Relabelled.sameLabel_iff (h : c.Relabelled (c.SharesLabel q) c') :
    c'.SameLabel q x ↔ c'.edges.Connected q x ∨ c.Stranger q x := by
  obtain ⟨l, hl⟩ := c.edges.exists_lowest q
  have hq : c'.labelOf q = .ok (q, l) :=
    (h.rightAt_of_visited (visited_of_connected .refl)).labelOf_eq (h.edges_eq ▸ hl)
  rw [sameLabel_iff_of_labelOf hq, h.edges_eq]
  by_cases hx : c.Visited q x
  · -- Visited ids carry the lowest ids of their own components.
    obtain ⟨lx, hlx⟩ := c.edges.exists_lowest x
    have hlabel : c'.labelOf x = .ok (x, lx) :=
      (h.rightAt_of_visited hx).labelOf_eq (h.edges_eq ▸ hlx)
    rw [hlabel, or_iff_left fun hstranger => hstranger.1 hx]
    constructor
    · intro heq
      cases heq
      exact hl.connected_of_lowest hlx
    · intro hconnected
      rw [hlx.eq (hl.of_connected hconnected)]
  · -- All others carry what they carried before, and none of them is the lowest id itself.
    have hfar : ¬ c.edges.Connected q x := fun hconnected => hx (visited_of_connected hconnected)
    have hne : x ≠ l := fun heq => hfar (heq ▸ hl.connected)
    rw [labelOf_eq_ok_iff, h.getElem?_of_not_visited hx, or_iff_right hfar,
      or_iff_left fun hself => hne hself.2]
    constructor
    · exact fun hrow => ⟨hx, l, hrow, hl⟩
    · rintro ⟨_, l', hrow, hl'⟩
      rwa [hl.eq hl']

/-- Bringing the labels around an id up to date works, if all statements work. -/
theorem perform_refresh (h : c.HoldsIds) (q : Id) :
    ∃ c', (MediaCatalogue.refresh q).perform none c = (.ok (), c') ∧
      c.Relabelled (c.SharesLabel q) c' := by
  obtain ⟨c', hc', hrelabelled⟩ := refreshed_spec h q
  exact ⟨c', ((takes_refresh hc').perform none).trans (if_neg not_breaks_none), hrelabelled⟩

theorem exists_lookup_singleton (h : c.sets.HoldsIds) (q : Id) (enabled : PublisherSet) :
    ∃ sets, lookup (.still c) (IdSet.ofList [q]) enabled = .ok sets ∧
      ∀ x, sets.Lists q x ↔ c.StoredBy enabled x ∧ c.SameLabel q x := by
  obtain ⟨sets, hsets, _⟩ := lookup_changing (fun _ => h) (IdSet.ofList [q]) enabled
  rw [← Snapshots.still_eq_changing] at hsets
  refine ⟨sets, hsets, fun x => ?_⟩
  rw [← mem_setOf, IdMap.Lists]
  simp only [getElem?_of_lookup hsets, IdSet.mem_ofList, List.mem_singleton, true_and]
  constructor
  · rintro ⟨_, ⟨rfl, _⟩, hx⟩
    exact hx
  · exact fun hx => ⟨_, ⟨rfl, x, hx⟩, hx⟩

end Catalogue

namespace Transaction

/-- **What an id has in its set just after it was brought up to date.** Take any transactions from
the empty tables. Bringing the labels around `q` up to date then works, and the set of `q` is its
component together with its strangers: it is the component iff there are no strangers, and a lookup
for `q` finds what is stored of both. -/
theorem refreshed_up_to_strangers (transactions : List Transaction) (q : Id) :
    have c := Catalogue.empty.after transactions
    ∃ c', (MediaCatalogue.refresh q).perform none c = (.ok (), c') ∧
      (∀ x, c'.SameLabel q x ↔ c'.edges.Connected q x ∨ c.Stranger q x) ∧
        ((∀ x, c'.SameLabel q x ↔ c'.edges.Connected q x) ↔ ∀ x, ¬ c.Stranger q x) ∧
          ∀ enabled, ∃ sets, lookup (.still c') (IdSet.ofList [q]) enabled = .ok sets ∧
            ∀ x, sets.Lists q x ↔
              c'.StoredBy enabled x ∧ (c'.edges.Connected q x ∨ c.Stranger q x) := by
  intro c
  have hc : c.HoldsIds := (Catalogue.wellFormed_after transactions).holdsIds
  obtain ⟨c', hperform, hrelabelled⟩ := Catalogue.perform_refresh hc q
  have hset : ∀ x, c'.SameLabel q x ↔ c'.edges.Connected q x ∨ c.Stranger q x :=
    fun x => hrelabelled.sameLabel_iff
  refine ⟨c', hperform, hset, ?_, fun enabled => ?_⟩
  · simp only [hset, or_iff_left_iff_imp]
    refine forall_congr' fun x => ⟨fun himp hstranger => ?_, fun hno h => absurd h hno⟩
    exact hstranger.not_connected (hrelabelled.edges_eq ▸ himp hstranger)
  · obtain ⟨sets, hsets, hlists⟩ :=
      Catalogue.exists_lookup_singleton (hrelabelled.holdsIds hc).sets q enabled
    exact ⟨sets, hsets, fun x => by rw [hlists, hset]⟩

/-- A publisher with three records. -/
def archive : Publisher := ⟨"bbc", "GB", "BBC"⟩

/-- The publisher stores a record without details. -/
def archived (id : Id) : Transaction :=
  .write (.ofNanos 0) none (.content ⟨id, archive, .item, none, .ofNanos 0, .null⟩)

/-- The publisher asserts the equivalents of a record. -/
def asserted (subject : Id) (equivalents : IdSet) (nanos : Int) : Transaction :=
  .write (.ofNanos 0) none (.equivalence ⟨subject, equivalents, archive, .ofNanos nanos⟩)

/-- The set of 1 and 2 has the label 1 when 1 leaves it, and becomes equivalent to 3 instead. -/
def moving : List Transaction :=
  [archived 1, archived 2, archived 3, asserted 1 (IdSet.ofList [2]) 0, .refresh none 1,
   asserted 1 ∅ 1, asserted 3 (IdSet.ofList [1]) 0]

/-- The tables after the labels around 3 were brought up to date then. -/
def moved : Catalogue := (Transaction.refresh none 3).commit (Catalogue.empty.after moving)

theorem linked_moved {x y : Id} (h : moved.edges.Linked x y) : y = 1 ∨ y = 3 := by
  have hedges : moved.edges.toList = [⟨(3 : Id).stored, (1 : Id).stored⟩] := by decide +kernel
  simp only [EdgeSet.Linked, ← Std.ExtTreeSet.mem_toList, hedges, List.mem_singleton,
    Edge.mk.injEq] at h
  rcases h with ⟨_, hy⟩ | ⟨hy, _⟩
  · exact .inl (Id.stored_injective hy)
  · exact .inr (Id.stored_injective hy)

theorem lookup_moved :
    (lookup (.still moved) (IdSet.ofList [3]) (Std.ExtTreeSet.ofList [archive])).map
      (fun sets => (sets.getD 3 ∅).toList) = .ok [1, 2, 3] := by
  decide +kernel

/-- **A stranger in a set.** After 1 left the set of 2 for that of 3, the labels around 3 are
brought up to date. Then 2, which is not connected to 3, is in the set of 3, and a lookup finds it
there. -/
theorem stranger_after_refresh :
    have c := Catalogue.empty.after moving
    ∃ c', (MediaCatalogue.refresh 3).perform none c = (.ok (), c') ∧ c'.SameLabel 3 2 ∧
      ¬ c'.edges.Connected 3 2 ∧
        (lookup (.still c') (IdSet.ofList [3]) (Std.ExtTreeSet.ofList [archive])).map
          (fun sets => (sets.getD 3 ∅).toList) = .ok [1, 2, 3] := by
  intro c
  obtain ⟨c', hperform, _⟩ :=
    Catalogue.perform_refresh (Catalogue.wellFormed_after moving).holdsIds 3
  obtain rfl : moved = c' := congrArg Prod.snd hperform
  have hthree : moved.labelOf 3 = .ok (3, 1) := by decide +kernel
  have htwo : moved.labelOf 2 = .ok (2, 1) := by decide +kernel
  refine ⟨moved, hperform, ⟨1, hthree, htwo⟩, fun hconnected => ?_, lookup_moved⟩
  have hpart : (2 : Id) = 1 ∨ (2 : Id) = 3 :=
    hconnected.kept (fun _ _ hlink _ => linked_moved hlink) (.inr rfl)
  exact absurd hpart (by decide)

end Transaction

end MediaCatalogue
