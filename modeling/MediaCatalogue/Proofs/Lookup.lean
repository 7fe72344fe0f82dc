import MediaCatalogue.Equivalence.Lookup
import MediaCatalogue.Proofs.Batches
import MediaCatalogue.Proofs.Labels

/-!
# What a lookup answers

The statements of a lookup are not one transaction, so each of them may see other tables. A lookup
reads the label of an id with one statement, and the ids that carry this label with two later ones;
`IsFound` says what these two find.

* `readLabels_changing`, `readMembers_changing` and `lists_collect` : what each part of a lookup
  gives;
* `lookup_changing` : the entry of an id are the ids that are found for it;
* `Catalogue.Materialised.answersExactly` : on labels that are materialised from the edges, and that
  do not change while they are read, the answer for an id are the ids that are connected to it, as
  far as they are stored with an enabled publisher.
-/

namespace MediaCatalogue

namespace Catalogue

variable {c : Catalogue}

/-! ### Stored ids -/

/-- The id has a record of one of the publishers. -/
def StoredBy (c : Catalogue) (publishers : PublisherSet) (id : Id) : Prop :=
  ∃ row, c.content[id.stored]? = some row ∧ ∃ p ∈ publishers, row.publisher = p.key

theorem isStoredBy_iff {publishers : PublisherSet} {id : Id} :
    c.isStoredBy (publishers.toList.map Publisher.key) id.stored = true ↔
      c.StoredBy publishers id := by
  unfold isStoredBy StoredBy
  cases c.content[id.stored]? with
  | none => simp
  | some row => simp [eq_comm]

/-! ### Labels -/

/-- The id that stands for an id: its label, or itself. -/
def representative (c : Catalogue) (id : Id) : Id :=
  match c.sets[id.stored]? with
  | none => id
  | some label => (Id.ofStored? label).getD id

theorem representative_of_none {id : Id} (h : c.sets[id.stored]? = none) :
    c.representative id = id := by
  rw [representative, h]

theorem representative_of_some {id l : Id} (h : c.sets[id.stored]? = some l.stored) :
    c.representative id = l := by
  rw [representative, h]
  simp only [Id.ofStored?_stored, Option.getD_some]

theorem labelOf_eq (h : c.sets.HoldsIds) (id : Id) :
    c.labelOf id = .ok (id, c.representative id) := by
  unfold labelOf
  cases hlabel : c.sets[id.stored]? with
  | none => rw [representative_of_none hlabel]
  | some label =>
    obtain ⟨_, l, rfl⟩ := h id.stored label hlabel
    simp only [representative_of_some hlabel, Id.ofStored_stored]
    rfl

/-! ### Members -/

theorem mem_of_membersOf {publishers : PublisherSet} {l : Id} {pairs : List (Id × Id)}
    (h : c.membersOf (publishers.toList.map Publisher.key) l = .ok pairs) {p : Id × Id} :
    p ∈ pairs ↔ p.1 = l ∧ c.StoredBy publishers p.2 ∧ c.sets[p.2.stored]? = some l.stored := by
  rw [mem_of_mapM_eq_ok h, ← isStoredBy_iff]
  simp only [List.mem_filter, Bool.and_eq_true, decide_eq_true_eq, Prod.exists,
    Std.ExtTreeMap.mem_toList_iff_getElem?_eq_some]
  constructor
  · rintro ⟨column, label, ⟨hget, rfl, hstored⟩, hp⟩
    obtain ⟨x, hx, heq⟩ := of_bind_eq_ok hp
    cases heq
    rw [Id.ofStored_eq_ok_iff.1 hx] at hget hstored
    exact ⟨rfl, hstored, hget⟩
  · rintro ⟨hl, hstored, hget⟩
    refine ⟨p.2.stored, l.stored, ⟨hget, rfl, hstored⟩, ?_⟩
    rw [Id.ofStored_stored, ← hl]
    rfl

theorem membersOf_spec (publishers : PublisherSet) (h : c.sets.HoldsIds) (l : Id) :
    ∃ pairs, c.membersOf (publishers.toList.map Publisher.key) l = .ok pairs ∧ ∀ p, p ∈ pairs ↔
      p.1 = l ∧ c.StoredBy publishers p.2 ∧ c.sets[p.2.stored]? = some l.stored := by
  obtain ⟨pairs, hpairs⟩ : ∃ pairs,
      c.membersOf (publishers.toList.map Publisher.key) l = .ok pairs := by
    refine exists_mapM_eq_ok fun row hrow => ?_
    have hget := Std.ExtTreeMap.mem_toList_iff_getElem?_eq_some.1 (List.mem_filter.1 hrow).1
    obtain ⟨x, hx⟩ := (h row.1 row.2 hget).1
    exact ⟨(l, x), by rw [hx, Id.ofStored_stored]; rfl⟩
  exact ⟨pairs, hpairs, fun p => mem_of_membersOf hpairs⟩

theorem isAlone_iff {publishers : PublisherSet} {id : Id} :
    c.isAlone (publishers.toList.map Publisher.key) id = true ↔
      c.StoredBy publishers id ∧ c.sets[id.stored]? = none := by
  rw [isAlone, Bool.and_eq_true, Bool.not_eq_true', Std.ExtTreeMap.contains_eq_isSome_getElem?,
    Option.isSome_eq_false_iff, Option.isNone_iff_eq_none, isStoredBy_iff]

end Catalogue

/-! ### The parts of a lookup -/

section

variable (states : Nat → Catalogue) (publishers : PublisherSet) (ids : IdSet)

/-- The statement that reads the label of an id. -/
def labelStatement (id : Id) : Nat := batchOf ids.toList id

/-- The label that is read for an id. -/
def labelRead (id : Id) : Id := (states (labelStatement ids id)).representative id

/-- All labels that are read. -/
def labelsRead : IdSet := IdSet.ofList (ids.toList.map (labelRead states ids))

/-- The first of the two statements that read the members of the label of an id. -/
def memberStatement (id : Id) : Nat :=
  (batches ids.toList).length + 2 * batchOf (labelsRead states ids).toList (labelRead states ids id)

/-- The id `x` is found for the label `l` by the statements `n` and `n + 1`: it carries that label
when the first one reads, or is that label and has none when the second one reads. -/
def FoundFrom (n : Nat) (l x : Id) : Prop :=
  ((states n).StoredBy publishers x ∧ (states n).sets[x.stored]? = some l.stored) ∨
    (x = l ∧ (states (n + 1)).StoredBy publishers x ∧ (states (n + 1)).sets[x.stored]? = none)

/-- The id `x` is found for the requested id `id`. -/
def IsFound (id x : Id) : Prop :=
  FoundFrom states publishers (memberStatement states ids id) (labelRead states ids id) x

end

section

variable {states : Nat → Catalogue}

theorem mem_labelsRead {ids : IdSet} {id : Id} (hid : id ∈ ids) :
    labelRead states ids id ∈ labelsRead states ids := by
  rw [labelsRead, IdSet.mem_ofList]
  exact List.mem_map_of_mem (Std.ExtTreeSet.mem_toList.2 hid)

theorem readLabels_changing (h : ∀ n, (states n).sets.HoldsIds) (ids : IdSet) :
    ∃ labels, readLabels (.changing states) ids = .ok labels ∧
      ∀ p, p ∈ labels ↔ p.1 ∈ ids ∧ p.2 = labelRead states ids p.1 := by
  refine (readBatches_spec (P := fun n id p => p = (id, (states n).representative id))
    (fun labels => labels) ids.nodup_toList fun q _ => ?_).imp
    fun labels hlabels => ⟨hlabels.1, fun p => ?_⟩
  · refine ⟨_, mapM_eq_ok_map fun id _ => (states q.2).labelOf_eq (h q.2) id, fun p => ?_⟩
    simp only [List.mem_map, eq_comm]
  · rw [hlabels.2]
    constructor
    · rintro ⟨id, hid, rfl⟩
      exact ⟨Std.ExtTreeSet.mem_toList.1 hid, rfl⟩
    · rintro ⟨hid, hlabel⟩
      exact ⟨p.1, Std.ExtTreeSet.mem_toList.2 hid, Prod.ext rfl hlabel⟩

theorem readMembers_changing (publishers : PublisherSet) (h : ∀ n, (states n).sets.HoldsIds)
    (start : Nat) (labels : IdSet) :
    ∃ pairs, readMembers (.changing states) start (publishers.toList.map Publisher.key) labels =
        .ok pairs ∧
      ∀ p, p ∈ pairs ↔ p.1 ∈ labels ∧
        FoundFrom states publishers (start + 2 * batchOf labels.toList p.1) p.1 p.2 := by
  unfold readMembers
  refine (readBatches_spec (P := fun n l p => p.1 = l ∧
    FoundFrom states publishers (start + 2 * n) l p.2) (fun pairs => pairs) labels.nodup_toList
    fun q _ => ?_).imp fun pairs hpairs => ⟨hpairs.1, fun p => ?_⟩
  · -- A batch takes two statements: the rows with its labels, then the labels that have no row.
    obtain ⟨labelled, hlabelled, hpairs⟩ := mapM_lists_spec fun l (_ : l ∈ q.1) =>
      (states (start + 2 * q.2)).membersOf_spec publishers (h _) l
    generalize hkeys : publishers.toList.map Publisher.key = keys at hlabelled
    refine ⟨labelled.flatten ++
      (q.1.filter ((states (start + 2 * q.2 + 1)).isAlone keys)).map fun id => (id, id), ?_, ?_⟩
    · show (do
        let labelled ← q.1.mapM ((states (start + 2 * q.2)).membersOf keys)
        return labelled.flatten ++
          (q.1.filter ((states (start + 2 * q.2 + 1)).isAlone keys)).map fun id => (id, id)) = _
      rw [hlabelled]
      rfl
    · intro p
      simp only [List.mem_append, hpairs, List.mem_map, List.mem_filter, ← hkeys,
        Catalogue.isAlone_iff]
      constructor
      · rintro (⟨l, hl, rfl, hfound⟩ | ⟨l, ⟨hl, hstored, hnone⟩, rfl⟩)
        · exact ⟨p.1, hl, rfl, .inl hfound⟩
        · exact ⟨l, hl, rfl, .inr ⟨rfl, hstored, hnone⟩⟩
      · rintro ⟨l, hl, rfl, hfound | ⟨heq, hfound⟩⟩
        · exact .inl ⟨p.1, hl, rfl, hfound⟩
        · exact .inr ⟨p.2, ⟨heq ▸ hl, hfound⟩, Prod.ext heq rfl⟩
  · rw [hpairs.2]
    constructor
    · rintro ⟨l, hl, rfl, hp⟩
      exact ⟨Std.ExtTreeSet.mem_toList.1 hl, hp⟩
    · rintro ⟨hl, hp⟩
      exact ⟨p.1, Std.ExtTreeSet.mem_toList.2 hl, rfl, hp⟩

end

/-! ### Sets -/

theorem mem_of_getElem?_ofList {β : Type} {pairs : List (Id × β)} {id : Id} {v : β}
    (h : (Std.ExtTreeMap.ofList pairs : IdMap β)[id]? = some v) : (id, v) ∈ pairs := by
  rw [Std.ExtTreeMap.ofList_eq_foldl] at h
  suffices hfold : ∀ sets : IdMap β,
      (pairs.foldl (fun sets p => sets.insert p.1 p.2) sets)[id]? = some v →
        (id, v) ∈ pairs ∨ sets[id]? = some v by
    rcases hfold ∅ h with hmem | hempty
    · exact hmem
    · simp at hempty
  clear h
  intro sets h
  induction pairs generalizing sets with
  | nil => exact .inr h
  | cons p pairs ih =>
    rcases ih _ h with hmem | hinsert
    · exact .inl (List.mem_cons_of_mem _ hmem)
    · simp only [Std.ExtTreeMap.getElem?_insert, Std.LawfulEqCmp.compare_eq_iff_eq] at hinsert
      split at hinsert
      · rename_i hkey
        cases hinsert
        exact .inl (hkey ▸ List.mem_cons_self)
      · exact .inr hinsert

theorem getElem?_ofList_iff {β : Type} {pairs : List (Id × β)}
    (h : ∀ id v v', (id, v) ∈ pairs → (id, v') ∈ pairs → v = v') {id : Id} {v : β} :
    (Std.ExtTreeMap.ofList pairs : IdMap β)[id]? = some v ↔ (id, v) ∈ pairs := by
  refine ⟨mem_of_getElem?_ofList, fun hmem => ?_⟩
  have hkey : id ∈ (Std.ExtTreeMap.ofList pairs : IdMap β) := by
    rw [Std.ExtTreeMap.mem_ofList, List.contains_iff_mem]
    exact List.mem_map_of_mem hmem
  rw [Std.ExtTreeMap.mem_iff_isSome_getElem?, Option.isSome_iff_exists] at hkey
  obtain ⟨v', hv'⟩ := hkey
  rw [hv', h id v v' hmem (mem_of_getElem?_ofList hv')]

theorem isEmpty_of_getElem?_eq_some {β : Type} {sets : IdMap β} {id : Id} {v : β}
    (h : sets[id]? = some v) : sets.isEmpty = false := by
  rw [← Bool.not_eq_true, Std.ExtTreeMap.isEmpty_iff]
  rintro rfl
  rw [Std.ExtTreeMap.getElem?_empty] at h
  cases h

theorem exists_getElem?_eq_some {β : Type} {sets : IdMap β} (h : sets.isEmpty = false) :
    ∃ (id : Id) (v : β), sets[id]? = some v := by
  by_contra hnone
  rw [← Bool.not_eq_true, Std.ExtTreeMap.isEmpty_iff] at h
  refine h (Std.ExtTreeMap.ext_getElem? fun id => ?_)
  rw [Std.ExtTreeMap.getElem?_empty, Option.eq_none_iff_forall_ne_some]
  exact fun v hv => hnone ⟨id, v, hv⟩

/-- The id `x` is in the entry of `id`. -/
def IdMap.Lists (sets : IdMap IdSet) (id x : Id) : Prop :=
  ∃ members, sets[id]? = some members ∧ x ∈ members

theorem IdMap.mem_getD_iff {sets : IdMap IdSet} {id x : Id} :
    x ∈ sets.getD id ∅ ↔ sets.Lists id x := by
  unfold Lists
  rw [Std.ExtTreeMap.getD_eq_getD_getElem?]
  cases sets[id]? with
  | none => simp
  | some members => simp

theorem IdMap.getElem?_eq_some_iff {sets : IdMap IdSet}
    (hne : ∀ (id : Id) (members : IdSet), sets[id]? = some members → ∃ x, x ∈ members) {id : Id}
    {members : IdSet} :
    sets[id]? = some members ↔ (∃ x, x ∈ members) ∧ ∀ x, x ∈ members ↔ sets.Lists id x := by
  constructor
  · intro h
    refine ⟨hne id members h, fun x => ?_⟩
    rw [← mem_getD_iff, Std.ExtTreeMap.getD_eq_getD_getElem?, h, Option.getD_some]
  · rintro ⟨⟨x, hx⟩, hmem⟩
    obtain ⟨found, hfound, _⟩ := (hmem x).1 hx
    rw [hfound]
    refine congrArg some (Std.ExtTreeSet.ext_mem fun y => ?_)
    rw [hmem, ← mem_getD_iff, Std.ExtTreeMap.getD_eq_getD_getElem?, hfound, Option.getD_some]

theorem lists_collect {pairs : List (Id × Id)} {l x : Id} :
    (collect pairs).Lists l x ↔ (l, x) ∈ pairs := by
  rw [← IdMap.mem_getD_iff]
  unfold collect
  suffices hfold : ∀ sets : IdMap IdSet,
      x ∈ (pairs.foldl (fun sets pair =>
        sets.insert pair.1 ((sets.getD pair.1 ∅).insert pair.2)) sets).getD l ∅ ↔
        (l, x) ∈ pairs ∨ x ∈ sets.getD l ∅ by
    simpa using hfold ∅
  intro sets
  induction pairs generalizing sets with
  | nil => simp
  | cons p pairs ih =>
    obtain ⟨key, value⟩ := p
    simp only [List.foldl_cons, ih, Std.ExtTreeMap.getD_insert, Std.LawfulEqCmp.compare_eq_iff_eq,
      List.mem_cons, Prod.mk.injEq]
    by_cases hl : key = l
    · subst hl
      simp only [if_true, Std.ExtTreeSet.mem_insert, Std.LawfulEqCmp.compare_eq_iff_eq, true_and]
      grind
    · simp only [hl, if_false]
      grind

theorem nonempty_of_getElem?_collect {pairs : List (Id × Id)} {l : Id} {members : IdSet}
    (h : (collect pairs)[l]? = some members) : ∃ x, x ∈ members := by
  unfold collect at h
  suffices hfold : ∀ sets : IdMap IdSet,
      (∀ (l : Id) (members : IdSet), sets[l]? = some members → ∃ x, x ∈ members) →
      (pairs.foldl (fun sets pair =>
        sets.insert pair.1 ((sets.getD pair.1 ∅).insert pair.2)) sets)[l]? = some members →
      ∃ x, x ∈ members by
    refine hfold ∅ (fun l members hget => ?_) h
    simp at hget
  clear h
  intro sets hsets
  induction pairs generalizing sets with
  | nil => exact hsets l members
  | cons p pairs ih =>
    refine ih _ fun l members hget => ?_
    rw [Std.ExtTreeMap.getElem?_insert] at hget
    split at hget
    · cases hget
      exact ⟨p.2, Std.ExtTreeSet.mem_insert_self⟩
    · exact hsets l members hget

/-! ### Answers -/

/-- **What a lookup answers.** It does not fail if labels are ids; the entry of an id that was asked
for is what was found for it, and there is none if nothing was found. -/
theorem lookup_changing {states : Nat → Catalogue} (h : ∀ n, (states n).sets.HoldsIds) (ids : IdSet)
    (enabled : PublisherSet) :
    ∃ sets, lookup (.changing states) ids enabled = .ok sets ∧
      (∀ id x, sets.Lists id x ↔ id ∈ ids ∧ IsFound states enabled ids id x) ∧
        ∀ (id : Id) (members : IdSet), sets[id]? = some members → ∃ x, x ∈ members := by
  unfold lookup
  by_cases hempty : (ids.isEmpty || enabled.isEmpty) = true
  · refine ⟨∅, if_pos hempty, fun id x => ?_, fun id members hget => by simp at hget⟩
    simp only [IdMap.Lists, Std.ExtTreeMap.getElem?_empty, reduceCtorEq, false_and, exists_false,
      false_iff]
    rintro ⟨hid, hx⟩
    simp only [Bool.or_eq_true, Std.ExtTreeSet.isEmpty_iff] at hempty
    rcases hempty with rfl | rfl
    · exact Std.ExtTreeSet.not_mem_empty hid
    · obtain ⟨⟨_, _, p, hp, _⟩, _⟩ | ⟨_, ⟨_, _, p, hp, _⟩, _⟩ := hx
      · exact Std.ExtTreeSet.not_mem_empty hp
      · exact Std.ExtTreeSet.not_mem_empty hp
  · obtain ⟨labels, hlabels, hlabels_mem⟩ := readLabels_changing h ids
    have hread : IdSet.ofList (labels.map Prod.snd) = labelsRead states ids := by
      refine Std.ExtTreeSet.ext_mem fun l => ?_
      simp only [labelsRead, IdSet.mem_ofList, List.mem_map, Std.ExtTreeSet.mem_toList,
        Prod.exists, hlabels_mem]
      grind
    -- Members are read by the statements that come after those for the labels.
    obtain ⟨pairs, hpairs, hpairs_mem⟩ := readMembers_changing enabled h
      (batches ids.toList).length (labelsRead states ids)
    rw [if_neg hempty, hlabels]
    simp only [bind, Except.bind, hread, hpairs]
    generalize hfound : List.filterMap _ labels = rows
    have hrows : ∀ id members, (id, members) ∈ rows ↔
        id ∈ ids ∧ (collect pairs)[labelRead states ids id]? = some members := by
      intro id members
      simp only [← hfound, List.mem_filterMap, Option.map_eq_some_iff, Prod.exists, hlabels_mem]
      grind
    -- An id has one label only, so no row takes the place of another.
    have hget : ∀ (id : Id) (members : IdSet),
        (Std.ExtTreeMap.ofList rows : IdMap IdSet)[id]? = some members ↔
          id ∈ ids ∧ (collect pairs)[labelRead states ids id]? = some members := by
      intro id members
      rw [getElem?_ofList_iff, hrows]
      intro id members members' hrow hrow'
      have hother := ((hrows id members').1 hrow').2
      rw [((hrows id members).1 hrow).2] at hother
      exact Option.some.inj hother
    refine ⟨_, rfl, fun id x => ?_, fun id members hrow => ?_⟩
    · simp only [IdMap.Lists, hget, and_assoc, exists_and_left]
      refine and_congr_right fun hid => ?_
      exact lists_collect.trans ((hpairs_mem _).trans (and_iff_right (mem_labelsRead hid)))
    · exact nonempty_of_getElem?_collect ((hget id members).1 hrow).2

namespace Catalogue

variable {c : Catalogue}

/-- The ids that are found for an id are those that are connected. -/
theorem Materialised.foundFrom_iff (h : c.Materialised) {publishers : PublisherSet} {n : Nat}
    {id x : Id} : FoundFrom (fun _ => c) publishers n (c.representative id) x ↔
      c.edges.Connected id x ∧ c.StoredBy publishers x := by
  have hid := h.rightAt id
  have hx := h.rightAt x
  unfold FoundFrom
  cases hlabel : c.sets[id.stored]? with
  | none =>
    -- An id without a label is alone, so that it stands for nobody else.
    have halone : ∀ y, c.edges.Connected id y → y = id := by
      intro y hy
      by_contra hne
      obtain ⟨l, hl⟩ := EdgeSet.exists_labelled hy hne
      rw [(hid l.stored).2 ⟨l, rfl, hl⟩] at hlabel
      cases hlabel
    rw [representative_of_none hlabel]
    constructor
    · rintro (⟨hstored, hrow⟩ | ⟨rfl, hstored, _⟩)
      · obtain ⟨l, hl, hlabelled⟩ := (hx _).1 hrow
        rw [Id.stored_injective hl]
        exact ⟨hlabelled.connected.symm, hstored⟩
      · exact ⟨.refl, hstored⟩
    · rintro ⟨hconnected, hstored⟩
      cases halone x hconnected
      exact .inr ⟨rfl, hstored, hlabel⟩
  | some label =>
    obtain ⟨l, rfl, hl⟩ := (hid label).1 hlabel
    rw [representative_of_some hlabel]
    constructor
    · rintro (⟨hstored, hrow⟩ | ⟨rfl, hstored, _⟩)
      · obtain ⟨l', hl', hlabelled⟩ := (hx _).1 hrow
        rw [Id.stored_injective hl'] at hl
        exact ⟨hl.connected.trans hlabelled.connected.symm, hstored⟩
      · exact ⟨hl.connected, hstored⟩
    · rintro ⟨hconnected, hstored⟩
      exact .inl ⟨hstored, (hx _).2 ⟨l, rfl, hl.of_connected hconnected⟩⟩

/-- A lookup does not fail; an id has an entry if it was asked for and some id is connected to it
and stored by an enabled publisher, and the entry are all these ids. -/
def AnswersExactly (c : Catalogue) : Prop :=
  ∀ (ids : IdSet) (enabled : PublisherSet), ∃ sets, lookup (.still c) ids enabled = .ok sets ∧
    ∀ id members, sets[id]? = some members ↔
      id ∈ ids ∧ (∃ x, x ∈ members) ∧
        ∀ x, x ∈ members ↔ c.edges.Connected id x ∧ c.StoredBy enabled x

/-- **Lookups answer with connected ids**, if the labels are materialised from the edges. -/
theorem Materialised.answersExactly (h : c.Materialised) : c.AnswersExactly := by
  intro ids enabled
  obtain ⟨sets, hsets, hmem, hne⟩ := lookup_changing (fun _ => h.holdsIds) ids enabled
  refine ⟨sets, by rw [Snapshots.still_eq_changing, hsets], fun id members => ?_⟩
  have hlists : ∀ x, sets.Lists id x ↔
      id ∈ ids ∧ c.edges.Connected id x ∧ c.StoredBy enabled x :=
    fun x => (hmem id x).trans (and_congr_right fun _ => h.foundFrom_iff)
  simp only [IdMap.getElem?_eq_some_iff hne, hlists]
  constructor
  · rintro ⟨⟨x, hx⟩, hall⟩
    have hid := ((hall x).1 hx).1
    exact ⟨hid, ⟨x, hx⟩, fun y => (hall y).trans (and_iff_right hid)⟩
  · rintro ⟨hid, hx, hall⟩
    exact ⟨hx, fun y => (hall y).trans (and_iff_right hid).symm⟩

end Catalogue

end MediaCatalogue
