import MediaCatalogue.Proofs.Lookup
import MediaCatalogue.Proofs.Rows
import MediaCatalogue.Query.Merge
import MediaCatalogue.Store.Resolve

/-!
# What reading records gives

* `Registry.Keyed` : a registry that was built from publishers lists each of them under its key;
* `Catalogue.content?_eq` : a row that a write call stored reads as a record of the publisher that
  the registry finds for it, and is skipped if there is none;
* `Resolved.mem_missing` : what is missing was asked for, and has no resource;
* `resolveContent_changing` : what is read for some ids, as a map, when the statement of each batch
  sees tables of its own.
-/

namespace MediaCatalogue

/-! ### Known publishers -/

namespace Registry

/-- Publishers are found by their own keys. -/
def Keyed (registry : Registry) : Prop :=
  ∀ key publisher, registry.find? key = some publisher → publisher.key = key

theorem keyed_empty : empty.Keyed := by
  intro key publisher h
  simp [find?, empty] at h

theorem Keyed.insert {registry : Registry} (h : registry.Keyed) (publisher : Publisher) :
    Keyed ⟨registry.byKey.insert publisher.key publisher⟩ := by
  intro key other hother
  simp only [find?, Std.ExtTreeMap.getElem?_insert, Std.LawfulEqCmp.compare_eq_iff_eq] at hother
  split at hother
  · rename_i hkey
    cases hother
    exact hkey
  · exact h key other hother

theorem keyed_ofList {publishers : List Publisher} {registry : Registry}
    (h : ofList publishers = .ok registry) : registry.Keyed := by
  unfold ofList at h
  suffices hfold : ∀ start : Registry, start.Keyed → publishers.foldlM add start = .ok registry →
      registry.Keyed from hfold empty keyed_empty h
  clear h
  intro start hstart h
  induction publishers generalizing start with
  | nil =>
    cases h
    exact hstart
  | cons publisher publishers ih =>
    rw [List.foldlM_cons] at h
    unfold add at h
    split at h
    · cases h
    · exact ih _ (hstart.insert publisher) h

theorem keyed_builtin : builtin.Keyed := by
  unfold builtin
  suffices hfold : ∀ (publishers : List Publisher) (start : Registry), start.Keyed →
      Keyed ⟨publishers.foldl (fun byKey p => byKey.insert p.key p) start.byKey⟩ from
    hfold builtinPublishers empty keyed_empty
  intro publishers start hstart
  induction publishers generalizing start with
  | nil => exact hstart
  | cons publisher publishers ih => exact ih _ (hstart.insert publisher)

end Registry

/-! ### Enabled publishers -/

namespace Sources

variable {sources : Sources}

theorem mem_enabled {p : Publisher} : p ∈ sources.enabled ↔ p ∈ sources.precedence := by
  simp [enabled, Std.ExtTreeSet.mem_ofList]

theorem isEnabled_iff {q : Publisher} :
    sources.isEnabled q = true ↔ ∃ p ∈ sources.precedence, p.key = q.key := by
  simp [isEnabled, rank?, List.findIdx?_isSome]

end Sources

/-! ### Resources by id -/

section

variable {α κ : Type} [DecidableEq κ] {key : α → κ}

theorem exists_mem_distinctFrom {seen : List κ} {xs : List α} {x : α} (hx : x ∈ xs)
    (hseen : key x ∉ seen) : ∃ y ∈ distinctFrom key seen xs, key y = key x := by
  fun_induction distinctFrom key seen xs with
  | case1 => cases hx
  | case2 seen y ys hy ih =>
    rcases List.mem_cons.1 hx with rfl | hx
    · exact absurd hy hseen
    · exact ih hx hseen
  | case3 seen y ys hy ih =>
    by_cases heq : key y = key x
    · exact ⟨y, List.mem_cons_self, heq⟩
    · rcases List.mem_cons.1 hx with rfl | hx
      · exact absurd rfl heq
      · have hseen' : key x ∉ key y :: seen := by
          rw [List.mem_cons, not_or]
          exact ⟨Ne.symm heq, hseen⟩
        obtain ⟨z, hz, hkey⟩ := ih hx hseen'
        exact ⟨z, List.mem_cons_of_mem _ hz, hkey⟩

theorem mem_distinct {xs : List κ} {x : κ} : x ∈ distinct xs ↔ x ∈ xs := by
  refine ⟨fun h => (mem_of_mem_distinctFrom h).1, fun h => ?_⟩
  obtain ⟨_, hmem, rfl⟩ : ∃ y ∈ distinctBy id xs, id y = id x :=
    exists_mem_distinctFrom h List.not_mem_nil
  exact hmem

theorem nodup_distinct (xs : List κ) : (distinct xs).Nodup := by
  rw [← List.map_id (distinct xs)]
  exact nodup_map_distinctFrom id [] xs

theorem distinctFrom_eq_self {seen : List κ} {xs : List α} (hnodup : (xs.map key).Nodup)
    (hseen : ∀ x ∈ xs, key x ∉ seen) : distinctFrom key seen xs = xs := by
  fun_induction distinctFrom key seen xs with
  | case1 => rfl
  | case2 seen x xs hx ih => exact absurd hx (hseen x List.mem_cons_self)
  | case3 seen x xs hx ih =>
    obtain ⟨hfirst, hothers⟩ := List.nodup_cons.1 hnodup
    rw [ih hothers fun y hy => ?_]
    rw [List.mem_cons, not_or]
    exact ⟨fun heq => hfirst (List.mem_map.2 ⟨y, hy, heq⟩), hseen y (List.mem_cons_of_mem _ hy)⟩

theorem sublist_distinctFrom (key : α → κ) (seen : List κ) (xs : List α) :
    (distinctFrom key seen xs).Sublist xs := by
  fun_induction distinctFrom key seen xs with
  | case1 => exact .slnil
  | case2 seen x xs _ ih => exact ih.cons x
  | case3 seen x xs _ ih => exact ih.cons_cons x

end

namespace Resolved

variable {α : Type} [Identified α] {requested : IdSet} {rs : List α} {r : α}

theorem mem_of_mem_resources (h : r ∈ (of requested rs).resources) :
    r ∈ rs ∧ idOf r ∈ requested := by
  have hr := (mem_of_mem_distinctFrom h).1
  simpa using hr

theorem exists_mem_resources (hr : r ∈ rs) (hid : idOf r ∈ requested) :
    ∃ r' ∈ (of requested rs).resources, idOf r' = idOf r :=
  exists_mem_distinctFrom (List.mem_filter.2 ⟨hr, by simpa using hid⟩) (by simp)

theorem sublist_resources (requested : IdSet) (rs : List α) :
    (of requested rs).resources.Sublist rs :=
  (sublist_distinctFrom _ _ _).trans List.filter_sublist

theorem of_eq (hnodup : (rs.map idOf).Nodup) (hrequested : ∀ r ∈ rs, idOf r ∈ requested) :
    of requested rs = ⟨requested, rs⟩ := by
  have hall : rs.filter (idOf · ∈ requested) = rs :=
    List.filter_eq_self.2 fun r hr => by simpa using hrequested r hr
  rw [of, hall, distinctBy, distinctFrom_eq_self hnodup fun _ _ => List.not_mem_nil]

theorem mem_resources_iff (hunique : ∀ a ∈ rs, ∀ b ∈ rs, idOf a = idOf b → a = b) :
    r ∈ (of requested rs).resources ↔ r ∈ rs ∧ idOf r ∈ requested := by
  constructor
  · exact mem_of_mem_resources
  · rintro ⟨hr, hid⟩
    obtain ⟨r', hr', heq⟩ := exists_mem_resources hr hid
    rwa [hunique r' (mem_of_mem_resources hr').1 r hr heq] at hr'

end Resolved

/-! ### Missing ids -/

theorem IdSet.eraseMany_eq_foldl (ids : IdSet) (xs : List Id) :
    ids.eraseMany xs = xs.foldl (fun ids x => ids.erase x) ids := by
  have hloop : ∀ t : Std.ExtDTreeMap Id (fun _ => Unit) compare,
      t.eraseMany xs = xs.foldl (fun t x => t.erase x) t := by
    intro t
    unfold Std.ExtDTreeMap.eraseMany
    -- The loop carries a proof about its state, which does not matter.
    generalize hstart : Subtype.mk t _ = acc
    have hacc : acc.1 = t := by rw [← hstart]
    conv => rhs; rw [← hacc]
    clear hstart hacc
    induction xs generalizing acc with
    | nil => rfl
    | cons x xs ih =>
      simp only [List.forIn_cons, List.foldl_cons]
      exact ih ⟨acc.1.erase x, fun P h h' => h' acc.1 x (acc.2 P h h')⟩
  have hwrap : ∀ t : Std.ExtDTreeMap Id (fun _ => Unit) compare,
      (⟨⟨xs.foldl (fun t x => t.erase x) t⟩⟩ : IdSet) =
        xs.foldl (fun ids x => ids.erase x) ⟨⟨t⟩⟩ := by
    intro t
    clear hloop
    induction xs generalizing t with
    | nil => rfl
    | cons x xs ih => exact ih (t.erase x)
  exact (congrArg (fun t => (⟨⟨t⟩⟩ : IdSet)) (hloop ids.inner.inner)).trans (hwrap _)

theorem IdSet.mem_eraseMany {ids : IdSet} {xs : List Id} {x : Id} :
    x ∈ ids.eraseMany xs ↔ x ∈ ids ∧ x ∉ xs := by
  rw [eraseMany_eq_foldl]
  induction xs generalizing ids with
  | nil => simp
  | cons y ys ih =>
    rw [List.foldl_cons, ih, Std.ExtTreeSet.mem_erase, ne_eq, Std.LawfulEqCmp.compare_eq_iff_eq,
      List.mem_cons, not_or, eq_comm, and_assoc, and_left_comm]

namespace Resolved

variable {α : Type} [Identified α] {r : Resolved α} {id : Id}

theorem mem_missing : id ∈ r.missing ↔ id ∈ r.requested ∧ ∀ m ∈ r.resources, idOf m ≠ id := by
  rw [missing, IdSet.mem_eraseMany, List.mem_map]
  simp

/-- If some resources are changed and others dropped, those are missing that were dropped. -/
theorem mem_missing_filterMap {f : α → Option α}
    (hrequested : ∀ a ∈ r.resources, idOf a ∈ r.requested)
    (hnodup : (r.resources.map idOf).Nodup) (hid : ∀ a b, f a = some b → idOf b = idOf a) :
    id ∈ missing ⟨r.requested, r.resources.filterMap f⟩ ↔
      id ∈ r.missing ∨ ∃ a ∈ r.resources, idOf a = id ∧ f a = Option.none := by
  rw [mem_missing, mem_missing]
  constructor
  · rintro ⟨hmem, hall⟩
    by_cases hfound : ∃ a ∈ r.resources, idOf a = id
    · obtain ⟨a, ha, rfl⟩ := hfound
      refine .inr ⟨a, ha, rfl, ?_⟩
      rw [Option.eq_none_iff_forall_ne_some]
      exact fun b hb => hall b (List.mem_filterMap.2 ⟨a, ha, hb⟩) (hid a b hb)
    · exact .inl ⟨hmem, fun a ha heq => hfound ⟨a, ha, heq⟩⟩
  · rintro (⟨hmem, hall⟩ | ⟨a, ha, rfl, hnone⟩)
    · refine ⟨hmem, fun b hb heq => ?_⟩
      obtain ⟨a, ha, hab⟩ := List.mem_filterMap.1 hb
      exact hall a ha ((hid a b hab).symm.trans heq)
    · refine ⟨hrequested a ha, fun b hb heq => ?_⟩
      obtain ⟨a', ha', hab⟩ := List.mem_filterMap.1 hb
      cases List.inj_on_of_nodup_map hnodup ha' ha ((hid a' b hab).symm.trans heq)
      rw [hnone] at hab
      cases hab

end Resolved

/-! ### Records by id -/

theorem getElem?_recordsById {requested : IdSet} {records : List Content} {id : Id}
    {record : Content} (hunique : ∀ a ∈ records, ∀ b ∈ records, a.id = b.id → a = b) :
    (recordsById (.of requested records))[id]? = some record ↔
      record ∈ records ∧ record.id = id ∧ id ∈ requested := by
  have hmem : ∀ r, r ∈ (Resolved.of requested records).resources ↔
      r ∈ records ∧ r.id ∈ requested :=
    fun r => Resolved.mem_resources_iff hunique
  unfold recordsById
  rw [getElem?_ofList_iff]
  · simp only [List.mem_map, hmem, Prod.mk.injEq]
    grind
  · simp only [List.mem_map, hmem, Prod.mk.injEq]
    grind

theorem getElem?_recordsById_of_reads (read : Id → Except Fault (Option Content)) {ids : IdSet}
    {records : List Content}
    (hread : ∀ id record, read id = .ok (some record) → record.id = id)
    (h : ∀ record, record ∈ records ↔ record.id ∈ ids ∧ read record.id = .ok (some record))
    {id : Id} {record : Content} :
    (recordsById (.of ids records))[id]? = some record ↔
      id ∈ ids ∧ read id = .ok (some record) := by
  rw [getElem?_recordsById, h]
  · constructor
    · rintro ⟨⟨_, hfound⟩, rfl, hid⟩
      exact ⟨hid, hfound⟩
    · rintro ⟨hid, hfound⟩
      cases hread id record hfound
      exact ⟨⟨hid, hfound⟩, rfl, hid⟩
  · intro a ha b hb heq
    have hfound := ((h a).1 ha).2
    rw [heq, ((h b).1 hb).2] at hfound
    cases hfound
    rfl

/-! ### Records of rows -/

theorem ContentKind.ofWord_word (kind : ContentKind) : ofWord kind.word = .ok kind := by
  cases kind <;> decide

theorem ContentKind.ofWord_eq_ok_iff {word : String} {kind : ContentKind} :
    ofWord word = .ok kind ↔ word = kind.word := by
  constructor
  · intro h
    unfold ofWord at h
    split at h
    · rename_i hlookup
      cases h
      obtain ⟨_, _, hwords, _⟩ := List.lookup_eq_some_iff.1 hlookup
      have hmem : (word, kind) ∈ words := by
        rw [hwords]
        exact List.mem_append_right _ List.mem_cons_self
      obtain ⟨_, _, heq⟩ := List.mem_map.1 hmem
      cases heq
      rfl
    · cases h
  · rintro rfl
    exact ofWord_word kind

namespace ContentRow

/-- The record is what the row says, for the publisher that the registry finds. -/
structure Holds (registry : Registry) (row : ContentRow) (record : Content) : Prop where
  publisher : registry.find? row.publisher = some record.publisher
  kind : row.kind = record.kind.word
  title : row.title = record.title
  lastUpdated : record.lastUpdated = Instant.ofNanos row.lastUpdated
  attributes : record.attributes = (Json.parseText row.attributes).getD .null

theorem content?_eq_ok_some_iff {registry : Registry} {id : Id} {row : ContentRow}
    {record : Content} :
    row.content? registry id = .ok (some record) ↔ record.id = id ∧ row.Holds registry record := by
  unfold content?
  constructor
  · intro h
    split at h
    · cases h
    · rename_i publisher hpublisher
      obtain ⟨kind, hkind, heq⟩ := of_bind_eq_ok h
      cases heq
      exact ⟨rfl, hpublisher, ContentKind.ofWord_eq_ok_iff.1 hkind, rfl, rfl, rfl⟩
  · rintro ⟨rfl, h⟩
    rw [h.publisher]
    simp only [ContentKind.ofWord_eq_ok_iff.2 h.kind, h.title, ← h.lastUpdated, ← h.attributes]
    rfl

end ContentRow

namespace Catalogue

/-- All rows of records are as the write call of a record stores them. -/
def HoldsRecords (c : Catalogue) : Prop :=
  ∀ column row, c.content[column]? = some row →
    ∃ (record : Content) (nanos : Int), column = record.id.stored ∧ row = record.row nanos

variable {c : Catalogue} {registry : Registry} {id : Id}

theorem StemsFrom.holdsRecords {offered : EntityUpdate → Int → Prop} (h : c.StemsFrom offered) :
    c.HoldsRecords := by
  intro column row hrow
  obtain ⟨record, nanos, _, hcolumn, heq⟩ := h.content column row hrow
  exact ⟨record, nanos, hcolumn, heq⟩

theorem HoldsRecords.store (h : c.HoldsRecords) {record : Content} {nanos : Int} :
    (record.store nanos c).HoldsRecords :=
  Table.forall_insert h ⟨record, nanos, rfl, rfl⟩

theorem content?_of_none (h : c.content[id.stored]? = none) :
    c.content? registry id = .ok none := by
  rw [content?, h]

theorem content?_eq (h : c.HoldsRecords) (registry : Registry) {row : ContentRow}
    (hrow : c.content[id.stored]? = some row) :
    ∃ build : Publisher → Content, (∀ p, (build p).id = id ∧ (build p).publisher = p) ∧
      c.content? registry id = .ok ((registry.find? row.publisher).map build) := by
  obtain ⟨record, nanos, _, rfl⟩ := h id.stored row hrow
  refine ⟨fun publisher =>
    { id, publisher, kind := record.kind, title := record.title
      lastUpdated := Instant.ofNanos nanos
      attributes := (Json.parseText record.attributes.render).getD .null },
    fun p => ⟨rfl, rfl⟩, ?_⟩
  rw [content?, hrow]
  simp only [ContentRow.content?, Content.row]
  cases registry.find? record.publisher.key with
  | none => rfl
  | some publisher =>
    rw [ContentKind.ofWord_word]
    rfl

theorem exists_content?_eq_ok (h : c.HoldsRecords) (registry : Registry) (id : Id) :
    ∃ found, c.content? registry id = .ok found := by
  cases hrow : c.content[id.stored]? with
  | none => exact ⟨none, content?_of_none hrow⟩
  | some row =>
    obtain ⟨build, _, hread⟩ := content?_eq h registry hrow
    exact ⟨_, hread⟩

theorem content?_eq_ok_some_iff {record : Content} :
    c.content? registry id = .ok (some record) ↔
      record.id = id ∧ ∃ row, c.content[id.stored]? = some row ∧ row.Holds registry record := by
  unfold content?
  cases c.content[id.stored]? with
  | none => simp
  | some row => simp [ContentRow.content?_eq_ok_some_iff]

theorem content?_eq_some {record : Content} (h : c.content? registry id = .ok (some record)) :
    record.id = id ∧ ∃ row, c.content[id.stored]? = some row ∧
      registry.find? row.publisher = some record.publisher := by
  obtain ⟨hid, row, hrow, hholds⟩ := content?_eq_ok_some_iff.1 h
  exact ⟨hid, row, hrow, hholds.publisher⟩

end Catalogue

/-- **What reading records gives**: for each id the record that the statement of its batch sees. -/
theorem resolveContent_changing {states : Nat → Catalogue} (h : ∀ n, (states n).HoldsRecords)
    (registry : Registry) (ids : IdSet) :
    ∃ r, resolveContent registry (.changing states) ids = .ok r ∧
      ∀ id record, (recordsById r)[id]? = some record ↔
        id ∈ ids ∧ (states (batchOf ids.toList id)).content? registry id = .ok (some record) := by
  have hbatch : ∀ q ∈ (batches ids.toList).zipIdx,
      ∃ found, q.1.mapM ((states q.2).content? registry) = .ok found ∧
        ∀ y, y ∈ found ↔ ∃ id ∈ q.1, (states q.2).content? registry id = .ok y := by
    intro q _
    obtain ⟨found, hfound⟩ := exists_mapM_eq_ok fun id (_ : id ∈ q.1) =>
      (states q.2).exists_content?_eq_ok (h q.2) registry id
    exact ⟨found, hfound, fun y => mem_of_mapM_eq_ok hfound⟩
  obtain ⟨found, hfound, hmem⟩ := readBatches_spec
    (P := fun n id y => (states n).content? registry id = .ok y)
    (fun found => Resolved.of ids (found.filterMap id)) ids.nodup_toList hbatch
  -- A row is read under its own id, so an id tells in which batch its record was read.
  have hrecord : ∀ r, r ∈ found.filterMap id ↔
      r.id ∈ ids ∧ (states (batchOf ids.toList r.id)).content? registry r.id = .ok (some r) := by
    intro r
    simp only [List.mem_filterMap, id_eq, exists_eq_right, hmem, Std.ExtTreeSet.mem_toList]
    constructor
    · rintro ⟨id, hid, hread⟩
      cases (Catalogue.content?_eq_some hread).1
      exact ⟨hid, hread⟩
    · rintro ⟨hid, hread⟩
      exact ⟨r.id, hid, hread⟩
  refine ⟨_, hfound, fun id record => ?_⟩
  exact getElem?_recordsById_of_reads
    (fun id => (states (batchOf ids.toList id)).content? registry id)
    (fun _ _ hread => (Catalogue.content?_eq_some hread).1) hrecord

/-- Whatever is read for some ids is a record that some statement sees. -/
theorem exists_content?_of_resolveContent {registry : Registry} {see : Snapshots} {ids : IdSet}
    {r : Resolved Content} (h : resolveContent registry see ids = .ok r) {record : Content}
    (hrecord : record ∈ r.resources) :
    ∃ n c, see n = .ok c ∧ c.content? registry record.id = .ok (some record) := by
  obtain ⟨found, hfound, heq⟩ := of_bind_eq_ok h
  cases heq
  have hmem := (Resolved.mem_of_mem_resources hrecord).1
  rw [List.mem_filterMap] at hmem
  obtain ⟨_, hmem, rfl⟩ := hmem
  obtain ⟨batch, hbatch, hmem⟩ := List.mem_flatten.1 hmem
  obtain ⟨q, _, hq⟩ := (mem_of_mapM_eq_ok hfound).1 hbatch
  obtain ⟨c, hc, hread⟩ := of_bind_eq_ok hq
  obtain ⟨id, _, hid⟩ := (mem_of_mapM_eq_ok hread).1 hmem
  cases (Catalogue.content?_eq_some hid).1
  exact ⟨q.2, c, hc, hid⟩

theorem mem_resources_of_recordsById {r : Resolved Content} {id : Id} {record : Content}
    (h : (recordsById r)[id]? = some record) : record ∈ r.resources := by
  obtain ⟨_, hmem, heq⟩ := List.mem_map.1 (mem_of_getElem?_ofList h)
  cases heq
  exact hmem

/-- Records are held under their own ids, whatever ids were asked for. -/
theorem id_of_recordsById {r : Resolved Content} {id : Id} {record : Content}
    (h : (recordsById r)[id]? = some record) : record.id = id := by
  obtain ⟨_, _, heq⟩ := List.mem_map.1 (mem_of_getElem?_ofList h)
  cases heq
  rfl

end MediaCatalogue
