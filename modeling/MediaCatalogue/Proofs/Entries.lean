import MediaCatalogue.Proofs.Members

/-!
# Entries of a lookup

A lookup asks for labels and for members in batches, and finds ids with a label and ids without one
by different statements. Here the tables stand still, and may hold any labels, also some that are
out of date.

* `Catalogue.lookupAtOnce` asks for everything at once; `Catalogue.lookup_still_eq` says that
  batches make no difference, not even to the fault of a lookup that fails;
* `Catalogue.label` is what the column of labels says of an id.

**Main theorem** (`Catalogue.entries_by_label`): the entry of an id are the stored ids with the same
label. So entries are closed: each member has the same entry, and two entries are equal or have no
id in common.
-/

namespace MediaCatalogue

/-! ### Batches of fallible steps -/

theorem mapM_map_eq {ε α β γ : Type} (f : α → Except ε β) (g : α → β → γ) (xs : List α) :
    (xs.mapM fun x => (f x).map (g x)) = (xs.mapM f).map (List.zipWith g xs) := by
  induction xs with
  | nil => rfl
  | cons x xs ih =>
    rw [List.mapM_cons, List.mapM_cons, ih]
    cases f x with
    | error => rfl
    | ok y => cases xs.mapM f <;> rfl

theorem collect_congr {pairs pairs' : List (Id × Id)} (h : ∀ p, p ∈ pairs ↔ p ∈ pairs') :
    collect pairs = collect pairs' := by
  refine Std.ExtTreeMap.ext_getElem? fun l => Option.ext fun members => ?_
  rw [IdMap.getElem?_eq_some_iff fun _ _ => nonempty_of_getElem?_collect,
    IdMap.getElem?_eq_some_iff fun _ _ => nonempty_of_getElem?_collect]
  simp only [lists_collect, h]

namespace Catalogue

variable {c : Catalogue} {ids : IdSet} {enabled : PublisherSet} {x y l : Id}

/-! ### A lookup without batches -/

/-- The equivalence sets of some ids, found by one statement for all labels and two for all
members. -/
def lookupAtOnce (c : Catalogue) (ids : IdSet) (enabled : PublisherSet) :
    Except Fault (IdMap IdSet) :=
  if ids.isEmpty || enabled.isEmpty then .ok ∅
  else do
    let labels ← ids.toList.mapM c.labelOf
    let sets := collect (← c.batchMembers (enabled.toList.map Publisher.key)
      (IdSet.ofList (labels.map Prod.snd)).toList)
    return Std.ExtTreeMap.ofList
      (labels.filterMap fun (id, label) => (sets[label]?).map fun members => (id, members))

theorem batchMembers_eq_map (c : Catalogue) (keys : List String) (labels : List Id) :
    c.batchMembers keys labels = (labels.mapM (c.membersOf keys)).map fun labelled =>
      labelled.flatten ++ (labels.filter (c.isAlone keys)).map fun id => (id, id) := by
  unfold batchMembers
  cases labels.mapM (c.membersOf keys) <;> rfl

/-- Reading members in batches fails as reading them at once does. -/
theorem batchMembers_eq_error {start : Nat} {keys : List String} {labels : IdSet} {fault : Fault}
    (h : readMembers (.still c) start keys labels = .error fault) :
    c.batchMembers keys labels.toList = .error fault := by
  rw [readMembers_still, mapM_zipIdx_fst] at h
  simp only [funext (c.batchMembers_eq_map keys), mapM_map_eq] at h
  have hflat := flatten_mapM_mapM (f := c.membersOf keys) (batches labels.toList)
  rw [flatten_batches] at hflat
  rw [batchMembers_eq_map, ← hflat]
  cases hread :
    (batches labels.toList).mapM fun batch : List Id => batch.mapM (c.membersOf keys) with
  | error fault' =>
    rw [hread] at h
    cases h
    rfl
  | ok found =>
    rw [hread] at h
    cases h

theorem map_collect_readMembers (c : Catalogue) (start : Nat) (enabled : PublisherSet)
    (labels : IdSet) :
    (readMembers (.still c) start (enabled.toList.map Publisher.key) labels).map collect =
      (c.batchMembers (enabled.toList.map Publisher.key) labels.toList).map collect := by
  cases hpairs : readMembers (.still c) start (enabled.toList.map Publisher.key) labels with
  | error fault => rw [batchMembers_eq_error hpairs]
  | ok pairs =>
    have hlegible := exists_readMembers_eq_ok_iff.1 ⟨pairs, hpairs⟩
    obtain ⟨pairs', hpairs'⟩ := exists_batchMembers_eq_ok_iff.2 fun l hl =>
      hlegible l (Std.ExtTreeSet.mem_toList.1 hl)
    rw [hpairs']
    refine congrArg Except.ok (collect_congr fun p => ?_)
    rw [mem_of_readMembers hpairs, mem_of_batchMembers hpairs']
    simp only [Std.ExtTreeSet.mem_toList]

/-- **Batches make no difference** to a lookup. -/
theorem lookup_still_eq (c : Catalogue) (ids : IdSet) (enabled : PublisherSet) :
    lookup (.still c) ids enabled = c.lookupAtOnce ids enabled := by
  unfold lookup lookupAtOnce
  split
  · rfl
  rw [readLabels_still_eq]
  cases ids.toList.mapM c.labelOf with
  | error => rfl
  | ok labels =>
    have hcollect := map_collect_readMembers c (batches ids.toList).length enabled
      (IdSet.ofList (labels.map Prod.snd))
    simp only [bind, Except.bind]
    -- Batches list the pairs in another order, but they make the same sets.
    generalize readMembers _ _ _ _ = found at hcollect ⊢
    generalize c.batchMembers _ _ = found' at hcollect ⊢
    cases found with
    | error fault =>
      cases found' with
      | error fault' =>
        cases hcollect
        rfl
      | ok pairs' => cases hcollect
    | ok pairs =>
      cases found' with
      | error fault' => cases hcollect
      | ok pairs' =>
        have hsets : collect pairs = collect pairs' := Except.ok.inj hcollect
        simp only [hsets]

/-! ### Labels as columns -/

/-- What the column of labels says of an id; an id without a row labels itself. -/
def label (c : Catalogue) (id : Id) : Int := c.sets[id.stored]?.getD id.stored

theorem labelOf_eq_ok_iff_label : c.labelOf x = .ok (x, l) ↔ c.label x = l.stored := by
  rw [labelOf_eq_ok_iff, label]
  cases c.sets[x.stored]? with
  | none => simpa using ⟨congrArg Id.stored, Id.stored_injective⟩
  | some label => simp

theorem sameLabel_iff_label (h : c.labelOf x = .ok (x, l)) :
    c.SameLabel x y ↔ c.label y = c.label x := by
  have hl := labelOf_eq_ok_iff_label.1 h
  simp only [SameLabel, labelOf_eq_ok_iff_label, hl]
  constructor
  · rintro ⟨l', heq, hy⟩
    rw [heq, hy]
  · exact fun hy => ⟨l, rfl, hy⟩

/-! ### Entries -/

theorem exists_labelOf_of_lookup {sets : IdMap IdSet}
    (h : lookup (.still c) ids enabled = .ok sets) (hempty : enabled.isEmpty = false)
    (hx : x ∈ ids) : ∃ l, c.labelOf x = .ok (x, l) := by
  have hlegible := (exists_lookup_eq_ok_iff.1 ⟨sets, h⟩).resolve_left (by simp [hempty])
  obtain ⟨l, _, hl, _⟩ := hlegible x hx
  exact ⟨l, hl⟩

theorem mem_setOf_iff_label {sets : IdMap IdSet} (h : lookup (.still c) ids enabled = .ok sets)
    (hx : x ∈ ids) : y ∈ c.setOf enabled x ↔ c.StoredBy enabled y ∧ c.label y = c.label x := by
  rw [mem_setOf]
  refine and_congr_right fun ⟨_, _, p, hp, _⟩ => ?_
  have hempty : enabled.isEmpty = false := by
    rw [← Bool.not_eq_true, Std.ExtTreeSet.isEmpty_iff]
    rintro rfl
    exact Std.ExtTreeSet.not_mem_empty hp
  obtain ⟨l, hl⟩ := exists_labelOf_of_lookup h hempty hx
  exact sameLabel_iff_label hl

/-- A member of an entry can be looked up alone, and has the same entry. -/
theorem exists_lookup_of_member {sets : IdMap IdSet}
    (h : lookup (.still c) ids enabled = .ok sets) {members : IdSet}
    (hget : sets[x]? = some members) (hy : y ∈ members) :
    ∃ own, lookup (.still c) (IdSet.ofList [y]) enabled = .ok own ∧ own[y]? = some members := by
  obtain ⟨hx, rfl, _⟩ := (getElem?_of_lookup h).1 hget
  have hsame := (mem_setOf.1 hy).2
  have hset : c.setOf enabled x = c.setOf enabled y := (setOf_eq_of_mem hy).symm
  -- What was read for the label of `x` is all that is needed for that of `y`.
  have hown : enabled.isEmpty = true ∨ ∀ id ∈ IdSet.ofList [y], c.Legible enabled id := by
    refine (exists_lookup_eq_ok_iff.1 ⟨sets, h⟩).imp_right fun hlegible id hid => ?_
    obtain rfl : id = y := by simpa using hid
    obtain ⟨l, pairs, hxl, hpairs⟩ := hlegible x hx
    obtain ⟨l', hxl', hyl⟩ := hsame
    cases hxl.symm.trans hxl'
    exact ⟨l, pairs, hyl, hpairs⟩
  obtain ⟨own, hlookup⟩ := exists_lookup_eq_ok_iff.2 hown
  exact ⟨own, hlookup, (getElem?_of_lookup hlookup).2 ⟨by simp, hset, y, hy⟩⟩

/-- **Entries by labels.** A lookup in tables that stand still is one without batches, and does not
fail if labels are ids. When it answers,

* an id that was asked for has an entry iff some id with the same label is stored by an enabled
  publisher, and its entry are all these ids;
* each member of an entry has the same entry when it is looked up itself;
* two entries are equal, or have no id in common. -/
theorem entries_by_label (c : Catalogue) (ids : IdSet) (enabled : PublisherSet) :
    lookup (.still c) ids enabled = c.lookupAtOnce ids enabled ∧
    (c.sets.HoldsIds → ∃ sets, lookup (.still c) ids enabled = .ok sets) ∧
    ∀ sets, lookup (.still c) ids enabled = .ok sets →
      (∀ x, x ∈ sets ↔ x ∈ ids ∧ ∃ y, c.StoredBy enabled y ∧ c.label y = c.label x) ∧
      (∀ (x : Id) (members : IdSet), sets[x]? = some members →
        ∀ y, y ∈ members ↔ c.StoredBy enabled y ∧ c.label y = c.label x) ∧
      (∀ (x : Id) (members : IdSet), sets[x]? = some members → ∀ y ∈ members,
        ∃ own, lookup (.still c) (IdSet.ofList [y]) enabled = .ok own ∧
          own[y]? = some members) ∧
      ∀ (x x' : Id) (members members' : IdSet), sets[x]? = some members →
        sets[x']? = some members' → members = members' ∨ ∀ y ∈ members, y ∉ members' := by
  refine ⟨lookup_still_eq c ids enabled, fun hids => ?_, fun sets h => ?_⟩
  · obtain ⟨sets, hsets, _⟩ := lookup_changing (fun _ => hids) ids enabled
    exact ⟨sets, hsets⟩
  have hentry : ∀ {x : Id} {members : IdSet}, sets[x]? = some members ↔
      x ∈ ids ∧ members = c.setOf enabled x ∧ ∃ y, y ∈ members := getElem?_of_lookup h
  refine ⟨fun x => ?_, fun x members hget y => ?_, fun x members hget y hy => ?_, ?_⟩
  · rw [Std.ExtTreeMap.mem_iff_isSome_getElem?, Option.isSome_iff_exists]
    constructor
    · rintro ⟨members, hget⟩
      obtain ⟨hx, rfl, y, hy⟩ := hentry.1 hget
      exact ⟨hx, y, (mem_setOf_iff_label h hx).1 hy⟩
    · rintro ⟨hx, y, hy⟩
      exact ⟨_, hentry.2 ⟨hx, rfl, y, (mem_setOf_iff_label h hx).2 hy⟩⟩
  · obtain ⟨hx, rfl, _⟩ := hentry.1 hget
    exact mem_setOf_iff_label h hx
  · exact exists_lookup_of_member h hget hy
  · intro x x' members members' hget hget'
    refine or_iff_not_imp_right.2 fun hcommon => ?_
    push Not at hcommon
    obtain ⟨y, hy, hy'⟩ := hcommon
    -- Both entries are the one of the common member.
    obtain ⟨own, hown, hmembers⟩ := exists_lookup_of_member h hget hy
    obtain ⟨own', hown', hmembers'⟩ := exists_lookup_of_member h hget' hy'
    cases hown.symm.trans hown'
    exact Option.some.inj (hmembers.symm.trans hmembers')

/-- Labels that are out of date: 5 and 7 carry the label 9, but 9 carries the label 3. -/
def outdated : Catalogue :=
  Content.store { Deployment.shownRecord with id := 3 } 0 <|
    Content.store { Deployment.shownRecord with id := 9 } 0
      { Deployment.stage.catalogue with
        sets := (((∅ : Table Int).insert 5 9).insert 7 9).insert 9 3 }

theorem holdsIds_outdated : outdated.sets.HoldsIds :=
  ((Table.holdsIds_empty.insert 5 9).insert 7 9).insert 9 3

/-- More ids than fit into one batch. -/
def manyIds : List Id := (List.range 1000).map fun n => OfNat.ofNat n

/-- The set of 9 is the one of 3, and not the one that is labelled with 9. -/
theorem entries_by_outdated_label :
    have enabled := Deployment.restricted.sources.enabled
    outdated.sets.HoldsIds ∧
      ∃ sets, lookup (.still outdated) (IdSet.ofList manyIds) enabled = .ok sets ∧
        (∃ members, sets[(3 : Id)]? = some members ∧ sets[(9 : Id)]? = some members ∧
          9 ∈ members) ∧
        ∃ others, sets[(5 : Id)]? = some others ∧ 9 ∉ others := by
  intro enabled
  obtain ⟨_, hanswers, hentries⟩ := entries_by_label outdated (IdSet.ofList manyIds) enabled
  obtain ⟨sets, hsets⟩ := hanswers holdsIds_outdated
  obtain ⟨hkeys, hmembers, _, hdisjoint⟩ := hentries sets hsets
  have hstored : ∀ x ∈ ([3, 5, 9] : List Id), outdated.StoredBy enabled x := by decide +kernel
  have hlabels : outdated.label 3 = 3 ∧ outdated.label 5 = 9 ∧ outdated.label 9 = 3 := by
    decide +kernel
  have hentry : ∀ x ∈ ([3, 5, 9] : List Id), ∃ members, sets[x]? = some members := by
    intro x hx
    have hasked : x ∈ IdSet.ofList manyIds := by
      rw [IdSet.mem_ofList]
      revert x
      decide +kernel
    have hkey : x ∈ sets := (hkeys x).2 ⟨hasked, x, hstored x hx, rfl⟩
    rwa [Std.ExtTreeMap.mem_iff_isSome_getElem?, Option.isSome_iff_exists] at hkey
  obtain ⟨members, hthree⟩ := hentry 3 (by simp)
  obtain ⟨members', hnine⟩ := hentry 9 (by simp)
  obtain ⟨others, hfive⟩ := hentry 5 (by simp)
  have hmem : 9 ∈ members :=
    (hmembers 3 members hthree 9).2 ⟨hstored 9 (by simp), hlabels.2.2.trans hlabels.1.symm⟩
  have hmem' : 9 ∈ members' := (hmembers 9 members' hnine 9).2 ⟨hstored 9 (by simp), rfl⟩
  have heq : members = members' :=
    (hdisjoint 3 9 members members' hthree hnine).resolve_right fun h => h 9 hmem hmem'
  refine ⟨holdsIds_outdated, sets, hsets, ⟨members, hthree, heq ▸ hnine, hmem⟩, others, hfive, ?_⟩
  intro hother
  have hlabel := ((hmembers 5 others hfive 9).1 hother).2
  rw [hlabels.2.1, hlabels.2.2] at hlabel
  exact absurd hlabel (by decide)

end Catalogue

end MediaCatalogue
