import MediaCatalogue.Proofs.Updates

/-!
# What updates leave in the tables

Two views of the tables that every successful update keeps.

* `Catalogue.Reflects` : the row of an entity is at least as new as some time. Updates only make
  rows newer (`EntityUpdate.Written.reflects_of_reflects`), and an update that was applied or came
  too late is reflected (`EntityUpdate.Written.reflects`).
* `Catalogue.StemsFrom` : every row is that of one of the updates that were offered, and the edges
  of a subject are those of the update in its row (`EntityUpdate.Written.stemsFrom`).

**Main theorem** (`Catalogue.StemsFrom.agree`): if no two offered updates of one entity have the
same time, tables that stem from the offered updates and reflect all of them are determined, up to
labels and requests.
-/

namespace MediaCatalogue

/-! ### How new rows are -/

/-- The table has a row with that key that is at least as new as `nanos`. -/
def Table.HasSince {Row : Type} (time : Row → Int) (key nanos : Int) (table : Table Row) : Prop :=
  ∃ row, table[key]? = some row ∧ nanos ≤ time row

section

variable {Row : Type} {time : Row → Int} {key nanos : Int} {row : Row} {table : Table Row}

theorem Table.HasSince.insert {other : Int} (h : table.HasSince time other nanos)
    (hnewer : table.IsNewer time key row) :
    Table.HasSince time other nanos (table.insert key row) := by
  obtain ⟨stored, hstored, hle⟩ := h
  by_cases hkey : key = other
  · subst hkey
    have hlt := hnewer stored hstored
    exact ⟨row, Std.ExtTreeMap.getElem?_insert_self, by omega⟩
  · exact ⟨stored, by simp [Std.ExtTreeMap.getElem?_insert, hkey, hstored], hle⟩

theorem Table.hasSince_of_not_isNewer (h : ¬ table.IsNewer time key row) :
    table.HasSince time key (time row) :=
  Table.exists_of_not_isNewer h

end

namespace Catalogue

/-- The row of an entity is at least as new as `nanos`. -/
def Reflects (c : Catalogue) (type : EntityType) (id : Id) (nanos : Int) : Prop :=
  match type with
  | .content => c.content.HasSince ContentRow.lastUpdated id.stored nanos
  | .topic => c.topics.HasSince TopicRow.lastUpdated id.stored nanos
  | .equivalence => c.assertions.HasSince AssertionRow.lastUpdated id.stored nanos

/-- Only labels and requests differ. -/
structure SameRows (c c' : Catalogue) : Prop where
  content : c'.content = c.content
  topics : c'.topics = c.topics
  assertions : c'.assertions = c.assertions
  edges : c'.edges = c.edges

section

variable {c c' : Catalogue}

theorem SameRows.rfl : c.SameRows c := ⟨Eq.refl _, Eq.refl _, Eq.refl _, Eq.refl _⟩

theorem sameRows_requested {now : Int} {ids : IdSet} : c.SameRows (c.requested now ids) :=
  ⟨by simp, by simp, by simp, by simp⟩

theorem sameRows_withoutRequest {r : RefreshRequest} : c.SameRows (c.withoutRequest r).2 := by
  unfold withoutRequest
  split
  · split
    · exact ⟨Eq.refl _, Eq.refl _, Eq.refl _, Eq.refl _⟩
    · exact .rfl
  · exact .rfl

theorem eq_of_sameRows (h : c.SameRows c') (hsets : c.sets = c'.sets)
    (hpending : c.pending = c'.pending) : c = c' := by
  obtain ⟨hcontent, htopics, hassertions, hedges⟩ := h
  cases c
  cases c'
  cases hcontent
  cases htopics
  cases hassertions
  cases hedges
  cases hsets
  cases hpending
  rfl

theorem SameRows.reflects_iff (h : c.SameRows c') {type : EntityType} {id : Id} {nanos : Int} :
    c'.Reflects type id nanos ↔ c.Reflects type id nanos := by
  unfold Reflects
  rw [h.content, h.topics, h.assertions]

end

@[simp]
theorem reflects_requested {c : Catalogue} {now : Int} {ids : IdSet} {type : EntityType} {id : Id}
    {nanos : Int} : (c.requested now ids).Reflects type id nanos ↔ c.Reflects type id nanos :=
  sameRows_requested.reflects_iff

end Catalogue

theorem Content.reflects_store (record : Content) (nanos : Int) (c : Catalogue) :
    (record.store nanos c).Reflects .content record.id nanos :=
  ⟨record.row nanos, Std.ExtTreeMap.getElem?_insert_self, Int.le_refl nanos⟩

theorem Topic.reflects_store (tag : Topic) (nanos : Int) (c : Catalogue) :
    (tag.store nanos c).Reflects .topic tag.id nanos :=
  ⟨tag.row nanos, Std.ExtTreeMap.getElem?_insert_self, Int.le_refl nanos⟩

theorem EquivalenceUpdate.reflects_store (u : EquivalenceUpdate) (nanos : Int) (c : Catalogue) :
    (u.store nanos c).Reflects .equivalence u.subject nanos :=
  ⟨⟨u.source.key, nanos⟩, Std.ExtTreeMap.getElem?_insert_self, Int.le_refl nanos⟩

namespace EntityUpdate

variable {now : Instant} {c c' : Catalogue} {update : EntityUpdate} {outcome : Outcome}

theorem Written.reflects_of_reflects (h : update.Written now c outcome c') {type : EntityType}
    {id : Id} {nanos : Int} (hreflects : c.Reflects type id nanos) :
    c'.Reflects type id nanos := by
  -- Only the table of the update can change, and there a newer row replaces an older one.
  cases h with
  | content h =>
    cases h with
    | stale => exact hreflects
    | applied _ hnewer =>
      rw [Catalogue.reflects_requested]
      cases type with
      | content => exact Table.HasSince.insert hreflects hnewer
      | topic => exact hreflects
      | equivalence => exact hreflects
  | topic h =>
    cases h with
    | stale => exact hreflects
    | applied _ hnewer =>
      cases type with
      | content => exact hreflects
      | topic => exact Table.HasSince.insert hreflects hnewer
      | equivalence => exact hreflects
  | equivalence h =>
    cases h with
    | stale => exact hreflects
    | applied _ hnewer =>
      rw [Catalogue.reflects_requested]
      cases type with
      | content => exact hreflects
      | topic => exact hreflects
      | equivalence => exact Table.HasSince.insert hreflects hnewer

/-- An update that was applied, or that came too late, is reflected. -/
theorem Written.reflects (h : update.Written now c outcome c') {nanos : Int}
    (ht : update.timestamp.nanos? = some nanos) :
    c'.Reflects update.entityType update.entityId nanos := by
  cases h with
  | content h =>
    cases h with
    | applied hnanos =>
      cases hnanos.symm.trans ht
      rw [Catalogue.reflects_requested]
      exact Content.reflects_store _ nanos c
    | stale hnanos hstale =>
      cases hnanos.symm.trans ht
      exact Table.hasSince_of_not_isNewer hstale
  | topic h =>
    cases h with
    | applied hnanos =>
      cases hnanos.symm.trans ht
      exact Topic.reflects_store _ nanos c
    | stale hnanos hstale =>
      cases hnanos.symm.trans ht
      exact Table.hasSince_of_not_isNewer hstale
  | equivalence h =>
    cases h with
    | applied hnanos =>
      cases hnanos.symm.trans ht
      rw [Catalogue.reflects_requested]
      exact EquivalenceUpdate.reflects_store _ nanos c
    | stale hnanos hstale =>
      cases hnanos.symm.trans ht
      exact Table.hasSince_of_not_isNewer hstale

end EntityUpdate

/-! ### Where rows come from -/

/-- The row that stores a record which was offered. -/
def ContentRow.IsOffered (offered : EntityUpdate → Int → Prop) (column : Int) (row : ContentRow) :
    Prop :=
  ∃ record nanos, offered (.content record) nanos ∧ column = record.id.stored ∧
    row = record.row nanos

/-- The row that stores a tag which was offered. -/
def TopicRow.IsOffered (offered : EntityUpdate → Int → Prop) (column : Int) (row : TopicRow) :
    Prop :=
  ∃ tag nanos, offered (.topic tag) nanos ∧ column = tag.id.stored ∧ row = tag.row nanos

/-- The row that stores an assertion which was offered. -/
def AssertionRow.IsOffered (offered : EntityUpdate → Int → Prop) (column : Int)
    (row : AssertionRow) : Prop :=
  ∃ u nanos, offered (.equivalence u) nanos ∧ column = u.subject.stored ∧
    row = ⟨u.source.key, nanos⟩

/-- The edges of the subject of an assertion are those that it demands. -/
def EquivalenceUpdate.Demands (u : EquivalenceUpdate) (edges : EdgeSet) : Prop :=
  ∀ target, (⟨u.subject.stored, target⟩ : Edge) ∈ edges ↔ ∃ t ∈ u.targets, target = t.stored

namespace Catalogue

/-- Every row is that of an offered update, and every edge is demanded by the assertion in the row
of its subject. -/
structure StemsFrom (c : Catalogue) (offered : EntityUpdate → Int → Prop) : Prop where
  content : ∀ column row, c.content[column]? = some row → ContentRow.IsOffered offered column row
  topics : ∀ column row, c.topics[column]? = some row → TopicRow.IsOffered offered column row
  assertions : ∀ column row, c.assertions[column]? = some row →
    ∃ u nanos, offered (.equivalence u) nanos ∧ column = u.subject.stored ∧
      row = ⟨u.source.key, nanos⟩ ∧ u.Demands c.edges
  edges : ∀ e ∈ c.edges, ∃ row, c.assertions[e.subject]? = some row

variable {c c' : Catalogue} {offered : EntityUpdate → Int → Prop}

theorem stemsFrom_empty : empty.StemsFrom offered where
  content column row h := by simp [empty] at h
  topics column row h := by simp [empty] at h
  assertions column row h := by simp [empty] at h
  edges e he := by simp [empty] at he

theorem StemsFrom.mono {offered' : EntityUpdate → Int → Prop} (h : c.StemsFrom offered)
    (hsub : ∀ update nanos, offered update nanos → offered' update nanos) :
    c.StemsFrom offered' where
  content column row hrow := by
    obtain ⟨record, nanos, hoffered, hcolumn, rfl⟩ := h.content column row hrow
    exact ⟨record, nanos, hsub _ _ hoffered, hcolumn, rfl⟩
  topics column row hrow := by
    obtain ⟨tag, nanos, hoffered, hcolumn, rfl⟩ := h.topics column row hrow
    exact ⟨tag, nanos, hsub _ _ hoffered, hcolumn, rfl⟩
  assertions column row hrow := by
    obtain ⟨u, nanos, hoffered, hcolumn, hu⟩ := h.assertions column row hrow
    exact ⟨u, nanos, hsub _ _ hoffered, hcolumn, hu⟩
  edges := h.edges

theorem SameRows.stemsFrom (hsame : c.SameRows c') (h : c.StemsFrom offered) :
    c'.StemsFrom offered where
  content := hsame.content ▸ h.content
  topics := hsame.topics ▸ h.topics
  assertions := by
    rw [hsame.assertions, hsame.edges]
    exact h.assertions
  edges := by
    rw [hsame.assertions, hsame.edges]
    exact h.edges

end Catalogue

section

variable {Row : Type} {key : Int} {row : Row} {table : Table Row}

theorem Table.forall_insert {P : Int → Row → Prop}
    (h : ∀ column r, table[column]? = some r → P column r) (hrow : P key row) :
    ∀ column r, (table.insert key row)[column]? = some r → P column r := by
  intro column r hr
  rw [Std.ExtTreeMap.getElem?_insert] at hr
  split at hr
  · rename_i hkey
    cases Std.LawfulEqCmp.compare_eq_iff_eq.1 hkey
    cases hr
    exact hrow
  · exact h column r hr

end

theorem Content.stemsFrom_store {record : Content} {nanos : Int} {c : Catalogue}
    {offered : EntityUpdate → Int → Prop} (h : c.StemsFrom offered)
    (hoffered : offered (.content record) nanos) : (record.store nanos c).StemsFrom offered where
  content := Table.forall_insert h.content ⟨record, nanos, hoffered, rfl, rfl⟩
  topics := h.topics
  assertions := h.assertions
  edges := h.edges

theorem Topic.stemsFrom_store {tag : Topic} {nanos : Int} {c : Catalogue}
    {offered : EntityUpdate → Int → Prop} (h : c.StemsFrom offered)
    (hoffered : offered (.topic tag) nanos) : (tag.store nanos c).StemsFrom offered where
  content := h.content
  topics := Table.forall_insert h.topics ⟨tag, nanos, hoffered, rfl, rfl⟩
  assertions := h.assertions
  edges := h.edges

namespace EquivalenceUpdate

variable {u : EquivalenceUpdate} {nanos : Int} {c : Catalogue}

theorem demands_store : u.Demands (u.store nanos c).edges := by
  intro target
  simp only [store, EdgeSet.mem_replace, Edge.mk.injEq, true_and, ne_eq, not_true_eq_false,
    and_false, or_false]

/-- An assertion does not touch the edges of other subjects. -/
theorem Demands.store {other : EquivalenceUpdate} (h : other.Demands c.edges)
    (hsubject : other.subject.stored ≠ u.subject.stored) :
    other.Demands (u.store nanos c).edges := by
  intro target
  simp only [EquivalenceUpdate.store, EdgeSet.mem_replace, Edge.mk.injEq, hsubject, false_and,
    and_false, exists_false, false_or, ne_eq, not_false_eq_true, and_true]
  exact h target

theorem stemsFrom_store {offered : EntityUpdate → Int → Prop} (h : c.StemsFrom offered)
    (hoffered : offered (.equivalence u) nanos) : (u.store nanos c).StemsFrom offered where
  content := h.content
  topics := h.topics
  assertions column row hrow := by
    simp only [store, Std.ExtTreeMap.getElem?_insert, Std.LawfulEqCmp.compare_eq_iff_eq] at hrow
    split at hrow
    · rename_i hcolumn
      cases hrow
      exact ⟨u, nanos, hoffered, hcolumn.symm, rfl, demands_store⟩
    · rename_i hcolumn
      obtain ⟨other, n, hother, hstored, hrow, hdemands⟩ := h.assertions column row hrow
      have hsubject : other.subject.stored ≠ u.subject.stored := by
        intro heq
        exact hcolumn (by rw [hstored, heq])
      exact ⟨other, n, hother, hstored, hrow, hdemands.store hsubject⟩
  edges e he := by
    simp only [store, Std.ExtTreeMap.getElem?_insert, Std.LawfulEqCmp.compare_eq_iff_eq]
    by_cases hsubject : u.subject.stored = e.subject
    · exact ⟨_, if_pos hsubject⟩
    · rcases EdgeSet.mem_replace.1 he with ⟨target, _, rfl⟩ | ⟨he, _⟩
      · exact absurd rfl hsubject
      · obtain ⟨row, hrow⟩ := h.edges e he
        exact ⟨row, by rw [if_neg hsubject, hrow]⟩

end EquivalenceUpdate

theorem EntityUpdate.Written.stemsFrom {now : Instant} {c c' : Catalogue} {update : EntityUpdate}
    {outcome : Outcome} {offered : EntityUpdate → Int → Prop}
    (h : update.Written now c outcome c') (hc : c.StemsFrom offered)
    (hoffered : ∀ nanos, update.timestamp.nanos? = some nanos → offered update nanos) :
    c'.StemsFrom offered := by
  cases h with
  | content h =>
    cases h with
    | stale => exact hc
    | applied hnanos =>
      exact Catalogue.sameRows_requested.stemsFrom (Content.stemsFrom_store hc (hoffered _ hnanos))
  | topic h =>
    cases h with
    | stale => exact hc
    | applied hnanos => exact Topic.stemsFrom_store hc (hoffered _ hnanos)
  | equivalence h =>
    cases h with
    | stale => exact hc
    | applied hnanos =>
      exact Catalogue.sameRows_requested.stemsFrom
        (EquivalenceUpdate.stemsFrom_store hc (hoffered _ hnanos))

/-! ### Agreement -/

theorem Table.getElem?_of_since {Row : Type} (time : Row → Int) {P : Int → Row → Prop}
    {t t' : Table Row} (h : ∀ column row, t[column]? = some row → P column row)
    (h' : ∀ column row, t'[column]? = some row → P column row)
    (hsince : ∀ column row, P column row → t.HasSince time column (time row))
    (hsince' : ∀ column row, P column row → t'.HasSince time column (time row))
    (hunique : ∀ column row row', P column row → P column row' → time row = time row' →
      row = row') {column : Int} {row : Row} (hrow : t[column]? = some row) :
    t'[column]? = some row := by
  -- Each table is as new as the row of the other one, so both rows have the same time.
  obtain ⟨row', hrow', hle⟩ := hsince' column row (h column row hrow)
  obtain ⟨row'', hrow'', hle'⟩ := hsince column row' (h' column row' hrow')
  rw [hrow] at hrow''
  cases hrow''
  rw [hunique column row row' (h column row hrow) (h' column row' hrow') (by omega)]
  exact hrow'

/-- Tables whose rows were all offered, and that are as new as all rows that were offered, are equal
if no two rows of a key that were offered have the same time. -/
theorem Table.agree {Row : Type} (time : Row → Int) {P : Int → Row → Prop} {t t' : Table Row}
    (h : ∀ column row, t[column]? = some row → P column row)
    (h' : ∀ column row, t'[column]? = some row → P column row)
    (hsince : ∀ column row, P column row → t.HasSince time column (time row))
    (hsince' : ∀ column row, P column row → t'.HasSince time column (time row))
    (hunique : ∀ column row row', P column row → P column row' → time row = time row' →
      row = row') : t = t' := by
  refine Std.ExtTreeMap.ext_getElem? fun column => Option.ext fun row => ⟨?_, ?_⟩
  · exact Table.getElem?_of_since time h h' hsince hsince' hunique
  · exact Table.getElem?_of_since time h' h hsince' hsince hunique

/-- No two offered updates of one entity have the same time. -/
def OneAtATime (offered : EntityUpdate → Int → Prop) : Prop :=
  ∀ update update' nanos, offered update nanos → offered update' nanos →
    update.entityType = update'.entityType → update.entityId = update'.entityId →
      update = update'

/-- A table of updates of one type is determined by what was offered, if it is as new as all of
that. -/
theorem Table.agree_of_offered {Update Row : Type} (time : Row → Int)
    (wrap : Update → EntityUpdate) (make : Update → Int → Row)
    (hwrap : ∀ u u', wrap u = wrap u' → u = u')
    (htype : ∀ u u', (wrap u).entityType = (wrap u').entityType)
    (htime : ∀ u nanos, time (make u nanos) = nanos) {offered : EntityUpdate → Int → Prop}
    (hone : OneAtATime offered) {t t' : Table Row}
    (h : ∀ column row, t[column]? = some row → ∃ u nanos, offered (wrap u) nanos ∧
      column = (wrap u).entityId.stored ∧ row = make u nanos)
    (h' : ∀ column row, t'[column]? = some row → ∃ u nanos, offered (wrap u) nanos ∧
      column = (wrap u).entityId.stored ∧ row = make u nanos)
    (hall : ∀ u nanos, offered (wrap u) nanos → t.HasSince time (wrap u).entityId.stored nanos)
    (hall' : ∀ u nanos, offered (wrap u) nanos →
      t'.HasSince time (wrap u).entityId.stored nanos) : t = t' := by
  refine Table.agree time h h' ?_ ?_ ?_
  · rintro _ _ ⟨u, nanos, hoffered, rfl, rfl⟩
    rw [htime]
    exact hall u nanos hoffered
  · rintro _ _ ⟨u, nanos, hoffered, rfl, rfl⟩
    rw [htime]
    exact hall' u nanos hoffered
  · rintro column _ _ ⟨u, nanos, hoffered, hcolumn, rfl⟩ ⟨u', nanos', hoffered', hcolumn', rfl⟩ heq
    rw [htime, htime] at heq
    subst heq
    have hid := Id.stored_injective (hcolumn.symm.trans hcolumn')
    rw [hwrap u u' (hone _ _ _ hoffered hoffered' (htype u u') hid)]

namespace Catalogue

/-- The tables reflect all offered updates. -/
def ReflectsAll (c : Catalogue) (offered : EntityUpdate → Int → Prop) : Prop :=
  ∀ update nanos, offered update nanos → c.Reflects update.entityType update.entityId nanos

variable {c c' : Catalogue} {offered : EntityUpdate → Int → Prop}

theorem StemsFrom.content_eq (h : c.StemsFrom offered) (h' : c'.StemsFrom offered)
    (hall : c.ReflectsAll offered) (hall' : c'.ReflectsAll offered) (hone : OneAtATime offered) :
    c.content = c'.content :=
  Table.agree_of_offered ContentRow.lastUpdated .content Content.row
    (fun _ _ => EntityUpdate.content.inj) (fun _ _ => rfl) (fun _ _ => rfl) hone h.content
    h'.content (fun _ => hall _) fun _ => hall' _

theorem StemsFrom.topics_eq (h : c.StemsFrom offered) (h' : c'.StemsFrom offered)
    (hall : c.ReflectsAll offered) (hall' : c'.ReflectsAll offered) (hone : OneAtATime offered) :
    c.topics = c'.topics :=
  Table.agree_of_offered TopicRow.lastUpdated .topic Topic.row
    (fun _ _ => EntityUpdate.topic.inj) (fun _ _ => rfl) (fun _ _ => rfl) hone h.topics
    h'.topics (fun _ => hall _) fun _ => hall' _

theorem StemsFrom.assertion_isOffered (h : c.StemsFrom offered) (column : Int) (row : AssertionRow)
    (hrow : c.assertions[column]? = some row) : AssertionRow.IsOffered offered column row := by
  obtain ⟨u, nanos, hoffered, hcolumn, hrow, _⟩ := h.assertions column row hrow
  exact ⟨u, nanos, hoffered, hcolumn, hrow⟩

theorem StemsFrom.assertions_eq (h : c.StemsFrom offered) (h' : c'.StemsFrom offered)
    (hall : c.ReflectsAll offered) (hall' : c'.ReflectsAll offered) (hone : OneAtATime offered) :
    c.assertions = c'.assertions :=
  Table.agree_of_offered AssertionRow.lastUpdated .equivalence
    (fun u nanos => ⟨u.source.key, nanos⟩) (fun _ _ => EntityUpdate.equivalence.inj)
    (fun _ _ => rfl) (fun _ _ => rfl) hone h.assertion_isOffered h'.assertion_isOffered
    (fun _ => hall _) fun _ => hall' _

theorem StemsFrom.mem_edges (h : c.StemsFrom offered) (h' : c'.StemsFrom offered)
    (hassertions : c.assertions = c'.assertions) (hone : OneAtATime offered) {e : Edge}
    (he : e ∈ c.edges) : e ∈ c'.edges := by
  -- Both tables hold the same assertion about the subject, so its edges are demanded in both.
  obtain ⟨row, hrow⟩ := h.edges e he
  obtain ⟨u, nanos, hoffered, hcolumn, rfl, hdemands⟩ := h.assertions e.subject row hrow
  rw [hassertions] at hrow
  obtain ⟨u', nanos', hoffered', hcolumn', hrow', hdemands'⟩ := h'.assertions e.subject _ hrow
  obtain ⟨_, rfl⟩ := AssertionRow.mk.inj hrow'
  have hid : u.subject = u'.subject := Id.stored_injective (hcolumn.symm.trans hcolumn')
  cases hone _ _ _ hoffered hoffered' rfl hid
  obtain ⟨subject, target⟩ := e
  cases hcolumn
  exact (hdemands' target).2 ((hdemands target).1 he)

/-- **The rows are determined by what was offered**, if no two updates of one entity have the same
time. -/
theorem StemsFrom.agree (h : c.StemsFrom offered) (h' : c'.StemsFrom offered)
    (hall : c.ReflectsAll offered) (hall' : c'.ReflectsAll offered) (hone : OneAtATime offered) :
    c.SameRows c' where
  content := h'.content_eq h hall' hall hone
  topics := h'.topics_eq h hall' hall hone
  assertions := h'.assertions_eq h hall' hall hone
  edges := by
    have hassertions := h.assertions_eq h' hall hall' hone
    refine Std.ExtTreeSet.ext_mem fun e => ⟨fun he => ?_, fun he => ?_⟩
    · exact h'.mem_edges h hassertions.symm hone he
    · exact h.mem_edges h' hassertions hone he

end Catalogue

end MediaCatalogue
