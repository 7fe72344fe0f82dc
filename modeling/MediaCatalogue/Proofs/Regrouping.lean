import MediaCatalogue.Proofs.Counts
import MediaCatalogue.Proofs.Repairs

/-!
# Why the requests of an assertion suffice

An assertion replaces the edges of its subject. That may split the set of the subject, or join it to
others, or both at once; edges that others asserted stay, be they between the same ids. It requests
the labels around the subject, and around its earlier and its new equivalents.

* `EdgeSet.Regrouped` : an id has other ids in its set than before, or another lowest one;
* `EdgeSet.Regrouped.exists_touched` : then one of those now in its set lost or got a link;
* `EquivalenceUpdate.Written.regrouped` : so it is in the set of an id that was requested.

**Main theorem** (`EquivalenceUpdate.requests_suffice`): every id whose set an assertion changes is
connected to a requested one afterwards, and so are both parts of a set that it splits. Hence tables
that were right are right again when all requests were served.
-/

namespace MediaCatalogue

namespace EdgeSet

variable {edges edges' : EdgeSet} {a b x l : Id}

/-- With `edges'` other ids are connected to `x` than with `edges`, or another one is their
lowest. -/
def Regrouped (edges edges' : EdgeSet) (x : Id) : Prop :=
  (∃ y, ¬ (edges.Connected x y ↔ edges'.Connected x y)) ∨
    ∃ l l', edges.Lowest x l ∧ edges'.Lowest x l' ∧ l ≠ l'

theorem Lowest.of_same (h : edges.Lowest x l)
    (hsame : ∀ y, edges.Connected x y ↔ edges'.Connected x y) : edges'.Lowest x l where
  connected := (hsame l).1 h.connected
  le y hy := h.le y ((hsame y).2 hy)

/-- The lowest id does not change unless another one does. -/
theorem Regrouped.exists_connected (h : edges.Regrouped edges' x) :
    ∃ y, ¬ (edges.Connected x y ↔ edges'.Connected x y) := by
  by_contra hno
  have hsame : ∀ y, edges.Connected x y ↔ edges'.Connected x y := by
    simpa only [not_exists, not_not] using hno
  obtain hother | ⟨l, l', hl, hl', hne⟩ := h
  · exact hno hother
  · exact hne ((hl.of_same hsame).eq hl')

theorem Regrouped.exists_touched (h : edges.Regrouped edges' x) {touched : Id → Prop}
    (hlinks : ∀ a b, ¬ touched a → (edges.Linked a b ↔ edges'.Linked a b)) :
    ∃ id, touched id ∧ edges'.Connected x id := by
  by_contra hno
  obtain ⟨y, hy⟩ := h.exists_connected
  refine hy (connected_of_untouched hlinks fun id hid htouched => ?_)
  exact hno ⟨id, htouched, hid⟩

theorem regrouped_of_split (h : edges.Connected a b) (hsplit : ¬ edges'.Connected a b) :
    edges.Regrouped edges' a ∧ edges.Regrouped edges' b :=
  ⟨.inl ⟨b, fun hsame => hsplit (hsame.1 h)⟩, .inl ⟨a, fun hsame => hsplit (hsame.1 h.symm).symm⟩⟩

end EdgeSet

namespace EquivalenceUpdate

variable {now : Instant} {u : EquivalenceUpdate} {c c' : Catalogue} {previous : IdSet}

theorem Written.mem_affected_iff (h : u.Written now c (some previous) c') {id : Id} :
    id ∈ u.affected previous ↔
      id = u.subject ∨ (⟨u.subject.stored, id.stored⟩ : Edge) ∈ c.edges ∨ id ∈ u.equivalents := by
  cases h with
  | applied _ _ hprevious _ => rw [mem_affected, EdgeSet.mem_of_targetIds hprevious]

theorem Written.mem_edges_iff (h : u.Written now c (some previous) c') {e : Edge} :
    e ∈ c'.edges ↔
      (∃ id ∈ u.equivalents, id ≠ u.subject ∧ e = ⟨u.subject.stored, id.stored⟩) ∨
        e ∈ c.edges ∧ e.subject ≠ u.subject.stored := by
  cases h with
  | applied _ _ _ _ =>
    rw [Catalogue.edges_requested, store, EdgeSet.mem_replace]
    simp only [mem_targets, and_assoc]

theorem Written.sets_eq (h : u.Written now c (some previous) c') : c'.sets = c.sets := by
  cases h with
  | applied _ _ _ _ => exact Catalogue.sets_requested

theorem Written.holdsIds (h : u.Written now c (some previous) c') (hedges : c.edges.HoldsIds) :
    c'.edges.HoldsIds := by
  cases h with
  | applied _ _ _ _ =>
    rw [Catalogue.edges_requested]
    exact hedges.replace

theorem Written.requestedFor (h : u.Written now c (some previous) c') :
    c.RequestedFor now (u.affected previous) c' := by
  cases h with
  | applied _ _ _ ht => exact Catalogue.requestedFor_requested ht rfl

theorem Written.regrouped (h : u.Written now c (some previous) c') {x : Id}
    (hx : c.edges.Regrouped c'.edges x) :
    ∃ id ∈ u.affected previous, c'.edges.Connected x id := by
  cases h with
  | applied _ _ hprevious _ =>
    rw [Catalogue.edges_requested] at hx ⊢
    exact hx.exists_touched fun a b => linked_store_iff hprevious

/-- A row that was right is right again after the requests of an assertion were served: its set was
not changed, or is that of an id that was requested. -/
theorem Written.materialised (h : u.Written now c (some previous) c') (hedges : c.edges.HoldsIds)
    (hc : c.Materialised) :
    (c'.after ((u.affected previous).toList.map (Transaction.refresh none))).Materialised := by
  have hkeys : c'.sets.KeyedByIds := h.sets_eq ▸ hc.holdsIds.keyedByIds
  obtain ⟨_, hkeys', hright⟩ := Catalogue.rightAt_after_refreshes (h.holdsIds hedges) hkeys
    (u.affected previous).toList
  refine Catalogue.materialised_of_rightAt hkeys' fun x => hright x ?_
  by_cases hx : c.edges.Regrouped c'.edges x
  · obtain ⟨id, hid, hconnected⟩ := h.regrouped hx
    exact .inl ⟨id, Std.ExtTreeSet.mem_toList.2 hid, hconnected.symm⟩
  · have hsame : ∀ y, c.edges.Connected x y ↔ c'.edges.Connected x y :=
      fun y => not_not.1 (not_exists.1 (not_or.1 hx).1 y)
    exact .inr ((hc.rightAt x).of_same h.sets_eq hsame)

/-- **The requests of an assertion suffice.** Take any tables and any assertion.

1. If the edges join ids, the times can be stored and no newer assertion about the subject is stored,
   it can be stored.

Whenever it is stored:

2. The edges of the subject are replaced by those to the new equivalents; those of others stay.
3. Affected are the subject, its earlier equivalents and its new ones. All of them are requested, and
   nobody else is.
4. Whoever is connected to other ids than before, or has another lowest one, is connected to an
   affected id now.
5. If two ids are connected no more, each of them is connected to an affected id now, which is not
   that of the other.
6. If the labels were materialised from edges between ids, they are so again when those around all
   affected ids were brought up to date. -/
theorem requests_suffice (u : EquivalenceUpdate) (c : Catalogue) :
    (∀ now t nanos, now.nanos? = some t → u.timestamp.nanos? = some nanos → c.edges.HoldsIds →
      c.assertions.IsNewer AssertionRow.lastUpdated u.subject.stored ⟨u.source.key, nanos⟩ →
        ∃ previous c', (u.write now).perform none c = (.ok (some previous), c')) ∧
    ∀ now working previous c', (u.write now).perform working c = (.ok (some previous), c') →
      (∀ e, e ∈ c'.edges ↔
        (∃ id ∈ u.equivalents, id ≠ u.subject ∧ e = ⟨u.subject.stored, id.stored⟩) ∨
          e ∈ c.edges ∧ e.subject ≠ u.subject.stored) ∧
      ((∀ id, id ∈ u.affected previous ↔ id = u.subject ∨
          (⟨u.subject.stored, id.stored⟩ : Edge) ∈ c.edges ∨ id ∈ u.equivalents) ∧
        c.RequestedFor now (u.affected previous) c') ∧
      (∀ x, c.edges.Regrouped c'.edges x →
        ∃ id ∈ u.affected previous, c'.edges.Connected x id) ∧
      (∀ a b, c.edges.Connected a b → ¬ c'.edges.Connected a b →
        ∃ id ∈ u.affected previous, ∃ id' ∈ u.affected previous,
          c'.edges.Connected a id ∧ c'.edges.Connected b id' ∧ id ≠ id') ∧
      (c.edges.HoldsIds → c.Materialised →
        (c'.after ((u.affected previous).toList.map (Transaction.refresh none))).Materialised) := by
  refine ⟨fun now t nanos ht hnanos hedges hnewer => ?_, fun now working previous c' h => ?_⟩
  · obtain ⟨previous, c', hwritten⟩ := exists_written hedges ht hnanos hnewer
    exact ⟨previous, c', (hwritten.takes.perform none).trans (if_neg Statements.not_breaks_none)⟩
  · have hwritten := (u.ends_write now c).of_perform_ok h
    refine ⟨fun _ => hwritten.mem_edges_iff, ⟨fun _ => hwritten.mem_affected_iff,
      hwritten.requestedFor⟩, fun _ => hwritten.regrouped, fun a b hab hsplit => ?_,
      hwritten.materialised⟩
    -- Each part of a split has an affected id, and no id can be in both parts.
    obtain ⟨ha, hb⟩ := EdgeSet.regrouped_of_split hab hsplit
    obtain ⟨id, hid, hconnected⟩ := hwritten.regrouped ha
    obtain ⟨id', hid', hconnected'⟩ := hwritten.regrouped hb
    refine ⟨id, hid, id', hid', hconnected, hconnected', ?_⟩
    rintro rfl
    exact hsplit (hconnected.trans hconnected'.symm)

/-- 1 asserts 2 and 3, of which 3 asserts it as well, 4 asserts 2, and 5 asserts 3. -/
def chained : EdgeSet := .between [(1, 2), (1, 3), (3, 1), (4, 2), (5, 3)]

/-- These edges, and the right labels. -/
def chain : Catalogue :=
  { Catalogue.empty with edges := chained }.after ([1, 2, 3, 4, 5].map (Transaction.refresh none))

theorem chain_spec : chain.edges = chained ∧ chain.Materialised := by
  have hedges : chained.HoldsIds := EdgeSet.holdsIds_between _
  have hkeys : Table.KeyedByIds ∅ := Table.holdsIds_empty.keyedByIds
  refine ⟨(Catalogue.rightAt_after_refreshes hedges hkeys _).1,
    Catalogue.materialised_after_refreshes hedges hkeys ?_⟩
  rintro x (⟨y, hy⟩ | hrow)
  · simp only [chained, EdgeSet.linked_between, List.mem_cons, Prod.mk.injEq, List.not_mem_nil,
      or_false] at hy ⊢
    tauto
  · exact absurd hrow Std.ExtTreeMap.not_mem_empty

theorem connected_chain : chain.edges.Connected 4 5 := by
  have hlink : ∀ x y : Id, (x, y) ∈ [((1 : Id), (2 : Id)), (1, 3), (3, 1), (4, 2), (5, 3)] →
      chain.edges.Connected x y :=
    fun x y hxy => EdgeSet.Linked.connected (chain_spec.1 ▸ EdgeSet.linked_between.2 (.inl hxy))
  calc chain.edges.Connected 4 2 := hlink 4 2 (by decide)
    chain.edges.Connected 2 1 := (hlink 1 2 (by decide)).symm
    chain.edges.Connected 1 3 := hlink 1 3 (by decide)
    chain.edges.Connected 3 5 := (hlink 5 3 (by decide)).symm

/-- 1 asserts nothing any more. -/
def retraction : EquivalenceUpdate := ⟨1, ∅, Transaction.archive, .ofNanos 0⟩

/-- Without the edges of 1, nothing joins 2 or 4 to anybody else. -/
theorem not_connected_of_subject_ne {edges : EdgeSet}
    (h : ∀ e, e ∈ edges → e ∈ chained ∧ e.subject ≠ (1 : Id).stored) :
    ¬ edges.Connected 4 5 := by
  have hleft : ∀ x y : Id, (⟨x.stored, y.stored⟩ : Edge) ∈ edges →
      (x, y) ∈ [((3 : Id), (1 : Id)), (4, 2), (5, 3)] := by
    intro x y he
    obtain ⟨he, hsubject⟩ := h _ he
    have hx : x ≠ 1 := fun heq => hsubject (congrArg Id.stored heq)
    simpa only [chained, EdgeSet.mem_between, List.mem_cons, Prod.mk.injEq, hx, false_and,
      false_or] using he
  have hkept : ∀ pair ∈ [((3 : Id), (1 : Id)), (4, 2), (5, 3)],
      pair.1 ∈ [(2 : Id), 4] ↔ pair.2 ∈ [(2 : Id), 4] := by decide
  intro hconnected
  have hpart : (5 : Id) ∈ [(2 : Id), 4] := by
    refine hconnected.kept (P := (· ∈ [(2 : Id), 4])) (fun x y hlink hx => ?_) (by decide)
    rcases hlink with he | he
    · exact (hkept (x, y) (hleft x y he)).1 hx
    · exact (hkept (y, x) (hleft y x he)).2 hx
  exact absurd hpart (by decide)

/-- The retraction takes 4 and 2 from 5, 3 and 1, which 3 still asserts. Labels are requested around
2 and 3, and around 1. -/
theorem requests_suffice_of_chain :
    ∃ previous c', (retraction.write (.ofNanos 0)).perform none chain = (.ok (some previous), c') ∧
      (∀ id, id ∈ retraction.affected previous ↔ id = 1 ∨ id = 2 ∨ id = 3) ∧
      chain.edges.Connected 4 5 ∧ ¬ c'.edges.Connected 4 5 ∧
      (∃ id ∈ retraction.affected previous, ∃ id' ∈ retraction.affected previous,
        c'.edges.Connected 4 id ∧ c'.edges.Connected 5 id' ∧ id ≠ id') ∧
      (c'.after
        ((retraction.affected previous).toList.map (Transaction.refresh none))).Materialised := by
  obtain ⟨hsucceeds, hsuffice⟩ := requests_suffice retraction chain
  obtain ⟨hedges, hright⟩ := chain_spec
  have hids : chain.edges.HoldsIds := hedges ▸ EdgeSet.holdsIds_between _
  have hnone : chain.assertions.toList = [] := by decide +kernel
  obtain ⟨previous, c', hwrite⟩ := hsucceeds (.ofNanos 0) 0 0 (by decide) (by decide) hids <| by
    intro stored hstored
    rw [← Std.ExtTreeMap.mem_toList_iff_getElem?_eq_some, hnone] at hstored
    cases hstored
  obtain ⟨hreplaced, ⟨haffected, _⟩, _, hsplit, hserved⟩ := hsuffice _ _ _ _ hwrite
  have hnobody : ∀ id, id ∉ retraction.equivalents := fun _ => Std.ExtTreeSet.not_mem_empty
  have hafter : ¬ c'.edges.Connected 4 5 := by
    refine not_connected_of_subject_ne fun e he => ?_
    obtain ⟨id, hid, _⟩ | he := (hreplaced e).1 he
    · exact absurd hid (hnobody id)
    · exact hedges ▸ he
  refine ⟨previous, c', hwrite, fun id => ?_, connected_chain, hafter,
    hsplit 4 5 connected_chain hafter, hserved hids hright⟩
  rw [haffected, hedges, or_iff_left (hnobody id)]
  refine or_congr_right (EdgeSet.mem_between.trans ?_)
  simp +decide

end EquivalenceUpdate

end MediaCatalogue
