import Mathlib.Data.List.ReduceOption
import MediaCatalogue.Proofs.Isolation

/-!
# What the tables hold for one id

A lookup serves many ids at once, and so does a call that reads records. Here the tables stand still
while they are read, and may hold anything.

* `Catalogue.setOf` is the equivalence set of one id, and `Catalogue.records` are all records;
* `Catalogue.exists_lookup_eq_ok_iff` : a lookup fails if the set of one of its ids cannot be read,
  and only then;
* `Catalogue.getElem?_of_lookup` : the entry of an id is its own set, whatever else was asked for;
* `Catalogue.exists_resolveContent_eq_ok_iff` and `Catalogue.getElem?_of_resolveContent` : the same
  for records;
* `Catalogue.resolveContent_eq_ok` : where every row is that of a record, the records of some ids are
  read in the order of the ids.
-/

namespace MediaCatalogue

namespace Catalogue

variable {c : Catalogue} {publishers : PublisherSet} {keys : List String} {id id' x l : Id}

/-! ### Labels -/

theorem labelOf_eq_ok_iff : c.labelOf id = .ok (id, l) ↔
    c.sets[id.stored]? = some l.stored ∨ (c.sets[id.stored]? = none ∧ id = l) := by
  unfold labelOf
  cases c.sets[id.stored]? with
  | none => simp
  | some label =>
    constructor
    · intro h
      obtain ⟨l', hl', heq⟩ := of_bind_eq_ok h
      cases heq
      exact .inl (congrArg some (Id.ofStored_eq_ok_iff.1 hl'))
    · rintro (h | ⟨h, _⟩)
      · cases h
        show (do return (id, ← Id.ofStored l.stored)) = Except.ok (id, l)
        rw [Id.ofStored_stored]
        rfl
      · cases h

theorem fst_of_labelOf {p : Id × Id} (h : c.labelOf id = .ok p) : p.1 = id := by
  unfold labelOf at h
  split at h
  · cases h
    rfl
  · obtain ⟨_, _, heq⟩ := of_bind_eq_ok h
    cases heq
    rfl

theorem labelOf_eq_of_eq_ok {p : Id × Id} (h : c.labelOf id = .ok p) :
    c.labelOf id = .ok (id, p.2) := by
  rw [h, ← fst_of_labelOf h]

/-- Both ids carry the same label. -/
def SameLabel (c : Catalogue) (id x : Id) : Prop :=
  ∃ l, c.labelOf id = .ok (id, l) ∧ c.labelOf x = .ok (x, l)

instance (c : Catalogue) (id x : Id) : Decidable (c.SameLabel id x) :=
  match hid : c.labelOf id with
  | .error _ => isFalse fun ⟨l, hl, _⟩ => by rw [hid] at hl; cases hl
  | .ok p => decidable_of_iff (c.labelOf x = .ok (x, p.2)) <| by
    constructor
    · exact fun hx => ⟨p.2, labelOf_eq_of_eq_ok hid, hx⟩
    · rintro ⟨l, hl, hx⟩
      have heq : p.2 = l := congrArg Prod.snd (Except.ok.inj (hid.symm.trans hl))
      rw [heq, hx]

/-- Ids whose labels are read with the same outcome share every label. -/
theorem sameLabel_congr (h : (c.labelOf id).map Prod.snd = (c.labelOf id').map Prod.snd) :
    c.SameLabel id x ↔ c.SameLabel id' x := by
  have hlabel : ∀ {id id' l : Id}, (c.labelOf id).map Prod.snd = (c.labelOf id').map Prod.snd →
      c.labelOf id = .ok (id, l) → c.labelOf id' = .ok (id', l) := by
    intro id id' l h hid
    rw [hid] at h
    cases hid' : c.labelOf id' with
    | error => rw [hid'] at h; cases h
    | ok p =>
      rw [hid'] at h
      have hl : l = p.2 := Except.ok.inj h
      rw [hl, ← fst_of_labelOf hid']
  unfold SameLabel
  exact exists_congr fun l => and_congr_left fun _ => ⟨hlabel h, hlabel h.symm⟩

/-! ### The set of an id -/

/-- The ids in the table of records. -/
def storedIds (c : Catalogue) : List Id := c.content.toList.filterMap fun row => Id.ofStored? row.1

theorem mem_storedIds : id ∈ c.storedIds ↔ ∃ row, c.content[id.stored]? = some row := by
  simp only [storedIds, List.mem_filterMap, Prod.exists, Id.ofStored?_eq_some_iff,
    Std.ExtTreeMap.mem_toList_iff_getElem?_eq_some]
  constructor
  · rintro ⟨column, row, hrow, rfl⟩
    exact ⟨row, hrow⟩
  · rintro ⟨row, hrow⟩
    exact ⟨id.stored, row, hrow, rfl⟩

instance (c : Catalogue) (publishers : PublisherSet) : DecidablePred (c.StoredBy publishers) :=
  fun _ => decidable_of_iff _ isStoredBy_iff

/-- The ids that are stored by one of the publishers and carry the label of an id. -/
def setOf (c : Catalogue) (publishers : PublisherSet) (id : Id) : IdSet :=
  IdSet.ofList (c.storedIds.filter fun x => c.StoredBy publishers x ∧ c.SameLabel id x)

theorem mem_setOf : x ∈ c.setOf publishers id ↔ c.StoredBy publishers x ∧ c.SameLabel id x := by
  simp only [setOf, IdSet.mem_ofList, List.mem_filter, decide_eq_true_eq, and_iff_right_iff_imp]
  rintro ⟨⟨row, hrow, _⟩, _⟩
  exact mem_storedIds.2 ⟨row, hrow⟩

theorem setOf_congr (h : (c.labelOf id).map Prod.snd = (c.labelOf id').map Prod.snd) :
    c.setOf publishers id = c.setOf publishers id' :=
  Std.ExtTreeSet.ext_mem fun x => by rw [mem_setOf, mem_setOf, sameLabel_congr h]

theorem setOf_eq_of_mem (h : x ∈ c.setOf publishers id) :
    c.setOf publishers x = c.setOf publishers id := by
  obtain ⟨l, hid, hx⟩ := (mem_setOf.1 h).2
  exact setOf_congr (by rw [hid, hx]; rfl)

/-! ### What a lookup finds -/

theorem exists_batchMembers_eq_ok_iff {labels : List Id} :
    (∃ pairs, c.batchMembers keys labels = .ok pairs) ↔
      ∀ l ∈ labels, ∃ pairs, c.membersOf keys l = .ok pairs := by
  unfold batchMembers
  rw [exists_bind_pure_eq_ok_iff, exists_mapM_eq_ok_iff]

theorem mem_of_batchMembers {labels : List Id} {pairs : List (Id × Id)}
    (h : c.batchMembers (publishers.toList.map Publisher.key) labels = .ok pairs) {p : Id × Id} :
    p ∈ pairs ↔ p.1 ∈ labels ∧ c.StoredBy publishers p.2 ∧ c.labelOf p.2 = .ok (p.2, p.1) := by
  obtain ⟨labelled, hlabelled, heq⟩ := of_bind_eq_ok h
  cases heq
  -- The first statement finds rows with a label, the second one labels without a row.
  have hflat : p ∈ labelled.flatten ↔
      p.1 ∈ labels ∧ c.StoredBy publishers p.2 ∧ c.sets[p.2.stored]? = some p.1.stored := by
    rw [List.mem_flatten]
    constructor
    · rintro ⟨members, hmembers, hp⟩
      obtain ⟨l, hl, hread⟩ := (mem_of_mapM_eq_ok hlabelled).1 hmembers
      obtain ⟨rfl, hrest⟩ := (mem_of_membersOf hread).1 hp
      exact ⟨hl, hrest⟩
    · rintro ⟨hl, hrest⟩
      obtain ⟨members, hread⟩ := exists_mapM_eq_ok_iff.1 ⟨_, hlabelled⟩ p.1 hl
      exact ⟨members, (mem_of_mapM_eq_ok hlabelled).2 ⟨p.1, hl, hread⟩,
        (mem_of_membersOf hread).2 ⟨rfl, hrest⟩⟩
  have halone : p ∈ (labels.filter (c.isAlone (publishers.toList.map Publisher.key))).map
      (fun id => (id, id)) ↔
      p.1 ∈ labels ∧ c.StoredBy publishers p.2 ∧ c.sets[p.2.stored]? = none ∧ p.2 = p.1 := by
    simp only [List.mem_map, List.mem_filter, isAlone_iff]
    constructor
    · rintro ⟨id, ⟨hid, hstored, hnone⟩, rfl⟩
      exact ⟨hid, hstored, hnone, rfl⟩
    · rintro ⟨hid, hstored, hnone, heq⟩
      exact ⟨p.2, ⟨heq ▸ hid, hstored, hnone⟩, Prod.ext heq rfl⟩
  rw [List.mem_append, hflat, halone, labelOf_eq_ok_iff, ← and_or_left, ← and_or_left]

/-- The set of an id can be read. -/
def Legible (c : Catalogue) (publishers : PublisherSet) (id : Id) : Prop :=
  ∃ l pairs, c.labelOf id = .ok (id, l) ∧
    c.membersOf (publishers.toList.map Publisher.key) l = .ok pairs

theorem readLabels_still_eq (c : Catalogue) (ids : IdSet) :
    readLabels (.still c) ids = ids.toList.mapM c.labelOf := by
  rw [readLabels_still]
  refine (readBatches_still c.labelOf (fun labels => labels) ids.toList).trans ?_
  cases ids.toList.mapM c.labelOf <;> rfl

theorem exists_readMembers_eq_ok_iff {start : Nat} {labels : IdSet} :
    (∃ pairs, readMembers (.still c) start keys labels = .ok pairs) ↔
      ∀ l ∈ labels, ∃ pairs, c.membersOf keys l = .ok pairs := by
  rw [readMembers_still, exists_bind_pure_eq_ok_iff, mapM_zipIdx_fst, exists_mapM_eq_ok_iff]
  simp only [exists_batchMembers_eq_ok_iff, ← Std.ExtTreeSet.mem_toList (t := labels)]
  rw [← List.forall_mem_flatten, flatten_batches]

theorem mem_of_readMembers {start : Nat} {labels : IdSet} {pairs : List (Id × Id)}
    (h : readMembers (.still c) start (publishers.toList.map Publisher.key) labels = .ok pairs)
    {p : Id × Id} :
    p ∈ pairs ↔ p.1 ∈ labels ∧ c.StoredBy publishers p.2 ∧ c.labelOf p.2 = .ok (p.2, p.1) := by
  rw [readMembers_still, mapM_zipIdx_fst] at h
  obtain ⟨found, hfound, heq⟩ := of_bind_eq_ok h
  cases heq
  rw [← Std.ExtTreeSet.mem_toList, ← flatten_batches labels.toList]
  simp only [List.mem_flatten]
  constructor
  · rintro ⟨pairs, hpairs, hp⟩
    obtain ⟨batch, hbatch, hread⟩ := (mem_of_mapM_eq_ok hfound).1 hpairs
    obtain ⟨hl, hrest⟩ := (mem_of_batchMembers hread).1 hp
    exact ⟨⟨batch, hbatch, hl⟩, hrest⟩
  · rintro ⟨⟨batch, hbatch, hl⟩, hrest⟩
    obtain ⟨pairs, hread⟩ := exists_mapM_eq_ok_iff.1 ⟨_, hfound⟩ batch hbatch
    exact ⟨pairs, (mem_of_mapM_eq_ok hfound).2 ⟨batch, hbatch, hread⟩,
      (mem_of_batchMembers hread).2 ⟨hl, hrest⟩⟩

section

variable {ids : IdSet}

theorem mem_of_readLabels {labels : List (Id × Id)} (h : readLabels (.still c) ids = .ok labels) :
    (id, l) ∈ labels ↔ id ∈ ids ∧ c.labelOf id = .ok (id, l) := by
  rw [readLabels_still_eq] at h
  rw [mem_of_mapM_eq_ok h]
  simp only [Std.ExtTreeSet.mem_toList]
  constructor
  · rintro ⟨id', hid, hread⟩
    cases fst_of_labelOf hread
    exact ⟨hid, hread⟩
  · exact fun hid => ⟨id, hid⟩

theorem exists_mem_of_readLabels {labels : List (Id × Id)}
    (h : readLabels (.still c) ids = .ok labels) (hid : id ∈ ids) : ∃ l, (id, l) ∈ labels := by
  have hread := h
  rw [readLabels_still_eq] at hread
  obtain ⟨p, hp⟩ := exists_mapM_eq_ok_iff.1 ⟨_, hread⟩ id (Std.ExtTreeSet.mem_toList.2 hid)
  exact ⟨p.2, (mem_of_readLabels h).2 ⟨hid, labelOf_eq_of_eq_ok hp⟩⟩

/-- **When a lookup fails.** It fails if the set of one of its ids cannot be read, and only then. -/
theorem exists_lookup_eq_ok_iff : (∃ sets, lookup (.still c) ids publishers = .ok sets) ↔
    publishers.isEmpty = true ∨ ∀ id ∈ ids, c.Legible publishers id := by
  unfold lookup
  by_cases hempty : (ids.isEmpty || publishers.isEmpty) = true
  · refine iff_of_true ⟨∅, if_pos hempty⟩ ?_
    rcases Bool.or_eq_true_iff.1 hempty with hids | hpublishers
    · rw [Std.ExtTreeSet.isEmpty_iff] at hids
      subst hids
      exact .inr fun id hid => absurd hid Std.ExtTreeSet.not_mem_empty
    · exact .inl hpublishers
  · have hpublishers : publishers.isEmpty ≠ true := fun h => hempty (by rw [h, Bool.or_true])
    rw [if_neg hempty, or_iff_right hpublishers]
    constructor
    · rintro ⟨sets, h⟩ id hid
      obtain ⟨labels, hlabels, h⟩ := of_bind_eq_ok h
      obtain ⟨pairs, hpairs, _⟩ := of_bind_eq_ok h
      -- Every label that was read is asked for, so the rows that carry it were read.
      obtain ⟨l, hl⟩ := exists_mem_of_readLabels hlabels hid
      have hmem : l ∈ IdSet.ofList (labels.map Prod.snd) :=
        IdSet.mem_ofList.2 (List.mem_map.2 ⟨(id, l), hl, rfl⟩)
      obtain ⟨members, hmembers⟩ := exists_readMembers_eq_ok_iff.1 ⟨_, hpairs⟩ l hmem
      exact ⟨l, members, ((mem_of_readLabels hlabels).1 hl).2, hmembers⟩
    · intro h
      obtain ⟨labels, hlabels⟩ : ∃ labels, readLabels (.still c) ids = .ok labels := by
        rw [readLabels_still_eq, exists_mapM_eq_ok_iff]
        intro id hid
        obtain ⟨l, _, hl, _⟩ := h id (Std.ExtTreeSet.mem_toList.1 hid)
        exact ⟨_, hl⟩
      obtain ⟨pairs, hpairs⟩ : ∃ pairs, readMembers (.still c) (batches ids.toList).length
          (publishers.toList.map Publisher.key) (IdSet.ofList (labels.map Prod.snd)) =
            .ok pairs := by
        rw [exists_readMembers_eq_ok_iff]
        intro l hl
        obtain ⟨⟨id, _⟩, hmem, rfl⟩ := List.mem_map.1 (IdSet.mem_ofList.1 hl)
        obtain ⟨hid, hread⟩ := (mem_of_readLabels hlabels).1 hmem
        obtain ⟨l', members, hl, hmembers⟩ := h id hid
        rw [hread] at hl
        cases hl
        exact ⟨members, hmembers⟩
      rw [hlabels]
      simp only [bind, Except.bind, hpairs]
      exact ⟨_, rfl⟩

theorem setOf_of_isEmpty (h : publishers.isEmpty = true) : x ∉ c.setOf publishers id := by
  rw [mem_setOf]
  rintro ⟨⟨_, _, p, hp, _⟩, _⟩
  rw [Std.ExtTreeSet.isEmpty_iff] at h
  subst h
  exact Std.ExtTreeSet.not_mem_empty hp

/-- The members that are collected for the label of an id are the set of this id. -/
theorem getElem?_collect_of_readMembers {start : Nat} {labels pairs : List (Id × Id)}
    (hlabels : readLabels (.still c) ids = .ok labels)
    (hpairs : readMembers (.still c) start (publishers.toList.map Publisher.key)
      (IdSet.ofList (labels.map Prod.snd)) = .ok pairs)
    (hl : (id, l) ∈ labels) {members : IdSet} :
    (collect pairs)[l]? = some members ↔
      members = c.setOf publishers id ∧ ∃ x, x ∈ members := by
  obtain ⟨hid, hread⟩ := (mem_of_readLabels hlabels).1 hl
  have hmem : l ∈ IdSet.ofList (labels.map Prod.snd) :=
    IdSet.mem_ofList.2 (List.mem_map.2 ⟨(id, l), hl, rfl⟩)
  have hlists : ∀ x, (collect pairs).Lists l x ↔ x ∈ c.setOf publishers id := by
    intro x
    rw [lists_collect, mem_of_readMembers hpairs, mem_setOf, SameLabel, and_iff_right hmem]
    simp [hread]
  rw [IdMap.getElem?_eq_some_iff fun _ _ => nonempty_of_getElem?_collect, and_comm]
  refine and_congr_left fun _ => ⟨fun h => ?_, ?_⟩
  · exact Std.ExtTreeSet.ext_mem fun x => (h x).trans (hlists x)
  · rintro rfl x
    exact (hlists x).symm

/-- **What a lookup finds** for an id is the set of this id, unless it is empty. -/
theorem getElem?_of_lookup {sets : IdMap IdSet} (h : lookup (.still c) ids publishers = .ok sets)
    {members : IdSet} : sets[id]? = some members ↔
      id ∈ ids ∧ members = c.setOf publishers id ∧ ∃ x, x ∈ members := by
  unfold lookup at h
  split at h
  · rename_i hempty
    cases h
    simp only [Std.ExtTreeMap.getElem?_empty, reduceCtorEq, false_iff]
    rintro ⟨hid, rfl, x, hx⟩
    rcases Bool.or_eq_true_iff.1 hempty with hids | hpublishers
    · rw [Std.ExtTreeSet.isEmpty_iff] at hids
      subst hids
      exact Std.ExtTreeSet.not_mem_empty hid
    · exact setOf_of_isEmpty hpublishers hx
  · obtain ⟨labels, hlabels, h⟩ := of_bind_eq_ok h
    obtain ⟨pairs, hpairs, h⟩ := of_bind_eq_ok h
    cases h
    generalize hrows : List.filterMap _ labels = rows
    have hrow : ∀ {id : Id} {members : IdSet}, (id, members) ∈ rows ↔
        id ∈ ids ∧ members = c.setOf publishers id ∧ ∃ x, x ∈ members := by
      intro id members
      simp only [← hrows, List.mem_filterMap, Option.map_eq_some_iff, Prod.exists, Prod.mk.injEq]
      constructor
      · rintro ⟨_, l, hl, _, hget, rfl, rfl⟩
        exact ⟨((mem_of_readLabels hlabels).1 hl).1,
          (getElem?_collect_of_readMembers hlabels hpairs hl).1 hget⟩
      · rintro ⟨hid, hmembers⟩
        obtain ⟨l, hl⟩ := exists_mem_of_readLabels hlabels hid
        have hget := (getElem?_collect_of_readMembers hlabels hpairs hl).2 hmembers
        exact ⟨id, l, hl, members, hget, rfl, rfl⟩
    -- Rows of one id agree, because each has the set of that id.
    rw [getElem?_ofList_iff, hrow]
    intro id members members' hmem hmem'
    rw [(hrow.1 hmem).2.1, (hrow.1 hmem').2.1]

end

/-! ### Records -/

/-- All records that can be read. -/
def records (c : Catalogue) (registry : Registry) : IdMap Content :=
  Std.ExtTreeMap.ofList <| c.storedIds.filterMap fun id =>
    match c.content? registry id with
    | .ok (some record) => some (id, record)
    | _ => none

variable {registry : Registry} {record : Content}

theorem getElem?_records :
    (c.records registry)[id]? = some record ↔ c.content? registry id = .ok (some record) := by
  have hmem : ∀ {id : Id} {record : Content}, (id, record) ∈ (c.storedIds.filterMap fun id =>
      match c.content? registry id with
      | .ok (some record) => some (id, record)
      | _ => none) ↔ c.content? registry id = .ok (some record) := by
    intro id record
    rw [List.mem_filterMap]
    constructor
    · rintro ⟨id', _, hrow⟩
      split at hrow
      · rename_i hread
        cases hrow
        exact hread
      · cases hrow
    · intro hread
      obtain ⟨_, row, hrow, _⟩ := content?_eq_some hread
      exact ⟨id, mem_storedIds.2 ⟨row, hrow⟩, by rw [hread]⟩
  rw [records, getElem?_ofList_iff, hmem]
  intro id record record' hrow hrow'
  have heq := (hmem.1 hrow).symm.trans (hmem.1 hrow')
  cases heq
  rfl

variable {ids : IdSet}

theorem resolveContent_still_eq (c : Catalogue) (registry : Registry) (ids : IdSet) :
    resolveContent registry (.still c) ids =
      (ids.toList.mapM (c.content? registry)).map fun found => .of ids found.reduceOption := by
  rw [resolveContent_still]
  exact readBatches_still _ (fun found => Resolved.of ids found.reduceOption) ids.toList

theorem exists_resolveContent_eq_ok_iff :
    (∃ r, resolveContent registry (.still c) ids = .ok r) ↔
      ∀ id ∈ ids, ∃ found, c.content? registry id = .ok found := by
  have hlist : (∃ found, ids.toList.mapM (c.content? registry) = .ok found) ↔
      ∀ id ∈ ids, ∃ found, c.content? registry id = .ok found := by
    rw [exists_mapM_eq_ok_iff]
    simp only [Std.ExtTreeSet.mem_toList]
  rw [resolveContent_still_eq, ← hlist]
  cases ids.toList.mapM (c.content? registry) <;> simp [Except.map]

/-- What is read for an id is its own record, whatever else is read. -/
theorem getElem?_of_resolveContent {r : Resolved Content}
    (h : resolveContent registry (.still c) ids = .ok r) :
    (recordsById r)[id]? = some record ↔ id ∈ ids ∧ (c.records registry)[id]? = some record := by
  rw [resolveContent_still_eq] at h
  obtain ⟨found, hfound, rfl⟩ := map_eq_ok_iff.1 h
  have hrecord : ∀ record, record ∈ found.reduceOption ↔
      record.id ∈ ids ∧ c.content? registry record.id = .ok (some record) := by
    intro record
    rw [List.reduceOption_mem_iff, mem_of_mapM_eq_ok hfound]
    simp only [Std.ExtTreeSet.mem_toList]
    constructor
    · rintro ⟨id, hid, hread⟩
      cases (content?_eq_some hread).1
      exact ⟨hid, hread⟩
    · exact fun hread => ⟨record.id, hread⟩
  rw [getElem?_records]
  exact getElem?_recordsById_of_reads (c.content? registry)
    (fun _ _ hread => (content?_eq_some hread).1) hrecord

theorem content?_eq_records (h : c.HoldsRecords) (registry : Registry) (id : Id) :
    c.content? registry id = .ok (c.records registry)[id]? := by
  obtain ⟨found, hfound⟩ := c.exists_content?_eq_ok h registry id
  have heq : found = (c.records registry)[id]? :=
    Option.ext fun record => by rw [getElem?_records, hfound, Except.ok.injEq]
  rw [hfound, heq]

theorem id_of_records (h : (c.records registry)[id]? = some record) : record.id = id :=
  (content?_eq_ok_some_iff.1 (getElem?_records.1 h)).1

/-- The records that can be read for some ids, in the order of the ids. -/
def recordsOf (c : Catalogue) (registry : Registry) (ids : IdSet) : List Content :=
  ids.toList.filterMap fun id => (c.records registry)[id]?

theorem mem_recordsOf : record ∈ c.recordsOf registry ids ↔
    record.id ∈ ids ∧ (c.records registry)[record.id]? = some record := by
  simp only [recordsOf, List.mem_filterMap, Std.ExtTreeSet.mem_toList]
  constructor
  · rintro ⟨id, hid, hrecord⟩
    cases id_of_records hrecord
    exact ⟨hid, hrecord⟩
  · exact fun h => ⟨record.id, h⟩

theorem nodup_recordsOf (c : Catalogue) (registry : Registry) (ids : IdSet) :
    ((c.recordsOf registry ids).map Content.id).Nodup := by
  rw [recordsOf, List.map_filterMap]
  refine ids.nodup_toList.filterMap fun id id' found hfound hfound' => ?_
  obtain ⟨record, hrecord, rfl⟩ := Option.map_eq_some_iff.1 hfound
  obtain ⟨record', hrecord', heq⟩ := Option.map_eq_some_iff.1 hfound'
  rw [← id_of_records hrecord, ← id_of_records hrecord', heq]

/-- **What is read for some ids** are their records, in the order of the ids. -/
theorem resolveContent_eq_ok (h : c.HoldsRecords) (registry : Registry) (ids : IdSet) :
    resolveContent registry (.still c) ids = .ok ⟨ids, c.recordsOf registry ids⟩ := by
  rw [resolveContent_still_eq, mapM_eq_ok_map fun id _ => content?_eq_records h registry id,
    Except.map, List.reduceOption, List.filterMap_map]
  exact congrArg Except.ok (Resolved.of_eq (c.nodup_recordsOf registry ids)
    fun _ hrecord => (mem_recordsOf.1 hrecord).1)

end Catalogue

end MediaCatalogue
