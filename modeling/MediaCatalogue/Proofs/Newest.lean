import MediaCatalogue.Proofs.Counts
import Mathlib.Data.List.Induction

/-!
# The newest update of an entity

Rows are replaced by newer ones only. So of all updates of an entity that arrived, the one with the
latest time is stored, and the first one of several with that time.

* `EntityUpdate.IsNewest` : the update is this one of a sequence of updates. `isNewest_concat` says
  what one more update changes, and `IsNewest.of_same` that the order does not matter if no two
  updates of an entity have the same time;
* `RowFormat` : how updates of one type are stored. `Table.HoldsNewest` says that a table holds the
  newest updates of its format, and has one lemma for each thing that a write can do to a table;
* `Catalogue.HoldsNewest` : the same of all tables and of the edges.

**Main theorem** (`Catalogue.HoldsNewest.written`): tables that hold the newest of some updates hold
the newest of one more after it was written, or came too late.
-/

namespace MediaCatalogue

/-! ### The newest of some updates -/

namespace EntityUpdate

/-- Both updates are of the same entity. -/
def SameEntity (u w : EntityUpdate) : Prop :=
  u.entityType = w.entityType ∧ u.entityId = w.entityId

/-- The update is one of the updates, and its time is `nanos`. -/
def Stamped (updates : List EntityUpdate) (u : EntityUpdate) (nanos : Int) : Prop :=
  u ∈ updates ∧ u.timestamp.nanos? = some nanos

/-- Of all updates of its entity, the update is the first one with the latest time that can be
stored, `nanos`. -/
def IsNewest (updates : List EntityUpdate) (u : EntityUpdate) (nanos : Int) : Prop :=
  ∃ before after, updates = before ++ u :: after ∧ u.timestamp.nanos? = some nanos ∧
    (∀ w m, Stamped before w m → w.SameEntity u → m < nanos) ∧
    ∀ w m, Stamped after w m → w.SameEntity u → m ≤ nanos

variable {updates updates' : List EntityUpdate} {u w : EntityUpdate} {nanos n : Int}

theorem SameEntity.symm (h : u.SameEntity w) : w.SameEntity u := ⟨h.1.symm, h.2.symm⟩

theorem SameEntity.trans {x : EntityUpdate} (h : u.SameEntity w) (h' : w.SameEntity x) :
    u.SameEntity x :=
  ⟨h.1.trans h'.1, h.2.trans h'.2⟩

theorem stamped_append : Stamped (updates ++ updates') u nanos ↔
    Stamped updates u nanos ∨ Stamped updates' u nanos := by
  simp only [Stamped, List.mem_append, or_and_right]

theorem stamped_singleton : Stamped [w] u nanos ↔ u = w ∧ u.timestamp.nanos? = some nanos := by
  simp only [Stamped, List.mem_singleton]

theorem IsNewest.stamped (h : IsNewest updates u nanos) : Stamped updates u nanos := by
  obtain ⟨before, after, rfl, hnanos, _, _⟩ := h
  exact ⟨by simp, hnanos⟩

theorem IsNewest.le (h : IsNewest updates u nanos) (hw : Stamped updates w n)
    (hsame : w.SameEntity u) : n ≤ nanos := by
  obtain ⟨before, after, rfl, hnanos, hbefore, hafter⟩ := h
  rw [stamped_append, ← List.singleton_append, stamped_append, stamped_singleton] at hw
  rcases hw with hw | ⟨rfl, hn⟩ | hw
  · exact Int.le_of_lt (hbefore w n hw hsame)
  · rw [hnanos] at hn
    cases hn
    exact Int.le_refl _
  · exact hafter w n hw hsame

/-- **One more update.** Another update stays the newest one unless the last one is newer, and the
last one is the newest if it is newer than all others. -/
theorem isNewest_concat : IsNewest (updates ++ [u]) w n ↔
    (IsNewest updates w n ∧ ∀ m, u.timestamp.nanos? = some m → u.SameEntity w → m ≤ n) ∨
      (w = u ∧ u.timestamp.nanos? = some n ∧
        ∀ x m, Stamped updates x m → x.SameEntity u → m < n) := by
  constructor
  · rintro ⟨before, after, heq, hn, hbefore, hafter⟩
    rcases List.eq_nil_or_concat after with rfl | ⟨after, last, rfl⟩
    · obtain ⟨rfl, hlast⟩ := List.append_inj' heq rfl
      cases hlast
      exact .inr ⟨rfl, hn, hbefore⟩
    · rw [List.concat_eq_append] at heq hafter
      rw [← List.cons_append, ← List.append_assoc] at heq
      obtain ⟨rfl, hlast⟩ := List.append_inj' heq rfl
      cases hlast
      refine .inl ⟨⟨before, after, rfl, hn, hbefore, fun x m hx => ?_⟩, fun m hm => ?_⟩
      · exact hafter x m (stamped_append.2 (.inl hx))
      · exact hafter u m (stamped_append.2 (.inr (stamped_singleton.2 ⟨rfl, hm⟩)))
  · rintro (⟨⟨before, after, rfl, hn, hbefore, hafter⟩, hlast⟩ | ⟨rfl, hn, hbefore⟩)
    · refine ⟨before, after ++ [u], by simp, hn, hbefore, fun x m hx => ?_⟩
      rcases stamped_append.1 hx with hx | hx
      · exact hafter x m hx
      · obtain ⟨rfl, hm⟩ := stamped_singleton.1 hx
        exact hlast m hm
    · exact ⟨updates, [], rfl, hn, hbefore, by simp [Stamped]⟩

theorem isNewest_concat_of_ne (h : ¬ w.SameEntity u) :
    IsNewest (updates ++ [u]) w n ↔ IsNewest updates w n := by
  rw [isNewest_concat, or_iff_left, and_iff_left]
  · exact fun m _ hsame => absurd hsame.symm h
  · rintro ⟨rfl, _⟩
    exact h ⟨rfl, rfl⟩

theorem isNewest_concat_of_newer (hnanos : u.timestamp.nanos? = some nanos)
    (hnewer : ∀ x m, Stamped updates x m → x.SameEntity u → m < nanos) :
    IsNewest (updates ++ [u]) w n ↔
      (w = u ∧ n = nanos) ∨ (IsNewest updates w n ∧ ¬ w.SameEntity u) := by
  rw [isNewest_concat]
  constructor
  · rintro (⟨hw, hle⟩ | ⟨rfl, hn, _⟩)
    · refine .inr ⟨hw, fun hsame => ?_⟩
      have hlt := hnewer w n hw.stamped hsame
      have hge := hle nanos hnanos hsame.symm
      omega
    · exact .inl ⟨rfl, Option.some.inj (hn.symm.trans hnanos)⟩
  · rintro (⟨rfl, rfl⟩ | ⟨hw, hne⟩)
    · exact .inr ⟨rfl, hnanos, hnewer⟩
    · exact .inl ⟨hw, fun m _ hsame => absurd hsame.symm hne⟩

theorem exists_of_not_newer (h : ¬ ∀ x m, Stamped updates x m → x.SameEntity u → m < nanos) :
    ∃ x m, Stamped updates x m ∧ x.SameEntity u ∧ nanos ≤ m := by
  by_contra hno
  exact h fun x m hx hxu => Int.not_le.1 fun hle => hno ⟨x, m, hx, hxu, hle⟩

theorem isNewest_concat_of_older {x : EntityUpdate} {m : Int}
    (hnanos : u.timestamp.nanos? = some nanos) (hx : Stamped updates x m) (hsame : x.SameEntity u)
    (hle : nanos ≤ m) : IsNewest (updates ++ [u]) w n ↔ IsNewest updates w n := by
  rw [isNewest_concat, or_iff_left, and_iff_left_of_imp]
  · intro hw k hk huw
    cases hnanos.symm.trans hk
    exact Int.le_trans hle (hw.le hx (hsame.trans huw))
  · rintro ⟨_, hn, hlt⟩
    cases hnanos.symm.trans hn
    have := hlt x m hx hsame
    omega

theorem isNewest_concat_of_unstorable (hnanos : u.timestamp.nanos? = none) :
    IsNewest (updates ++ [u]) w n ↔ IsNewest updates w n := by
  rw [isNewest_concat, or_iff_left, and_iff_left]
  · exact fun m hm => absurd (hnanos.symm.trans hm) nofun
  · exact fun ⟨_, hn, _⟩ => absurd (hnanos.symm.trans hn) nofun

/-- The updates whose time can be stored. -/
def storable (updates : List EntityUpdate) : List EntityUpdate :=
  updates.filter (·.timestamp.nanos?.isSome)

theorem stamped_storable : Stamped (storable updates) u nanos ↔ Stamped updates u nanos := by
  simp only [Stamped, storable, List.mem_filter, and_assoc]
  exact and_congr_right fun _ => and_iff_right_of_imp fun h => by rw [h]; rfl

theorem isNewest_storable : IsNewest (storable updates) u nanos ↔ IsNewest updates u nanos := by
  induction updates using List.reverseRecOn generalizing u nanos with
  | nil => rfl
  | append_singleton updates last ih =>
    rw [storable, List.filter_append]
    change IsNewest (storable updates ++ _) u nanos ↔ _
    cases hlast : last.timestamp.nanos? with
    | none =>
      rw [isNewest_concat_of_unstorable hlast, ← ih]
      simp [hlast]
    | some m =>
      rw [List.filter_cons_of_pos (by rw [hlast]; rfl), List.filter_nil, isNewest_concat,
        isNewest_concat, ih]
      simp only [stamped_storable]

/-- Every entity with an update has a newest one. -/
theorem exists_isNewest (h : Stamped updates u nanos) :
    ∃ w n, IsNewest updates w n ∧ w.SameEntity u ∧ nanos ≤ n := by
  induction updates using List.reverseRecOn generalizing u nanos with
  | nil => exact absurd h.1 List.not_mem_nil
  | append_singleton updates last ih =>
    rcases stamped_append.1 h with hu | hu
    · obtain ⟨w, n, hw, hsame, hle⟩ := ih hu
      -- Either the last update is newer than the newest one so far, or it is not.
      by_cases hlast : ∀ m, last.timestamp.nanos? = some m → last.SameEntity w → m ≤ n
      · exact ⟨w, n, isNewest_concat.2 (.inl ⟨hw, hlast⟩), hsame, hle⟩
      · push Not at hlast
        obtain ⟨m, hm, hlw, hlt⟩ := hlast
        refine ⟨last, m, (isNewest_concat_of_newer hm fun x k hx hxl => ?_).2 (.inl ⟨rfl, rfl⟩),
          hlw.trans hsame, by omega⟩
        have := hw.le hx (hxl.trans hlw)
        omega
    · obtain ⟨rfl, hnanos⟩ := stamped_singleton.1 hu
      by_cases hnewer : ∀ x m, Stamped updates x m → x.SameEntity u → m < nanos
      · exact ⟨u, nanos, (isNewest_concat_of_newer hnanos hnewer).2 (.inl ⟨rfl, rfl⟩), ⟨rfl, rfl⟩,
          Int.le_refl _⟩
      · obtain ⟨x, m, hx, hxu, hle⟩ := exists_of_not_newer hnewer
        obtain ⟨w, n, hw, hwx, hmn⟩ := ih hx
        exact ⟨w, n, (isNewest_concat_of_older hnanos hx hxu hle).2 hw, hwx.trans hxu, by omega⟩

/-- **The order does not matter**, nor how often an update arrives, if no two updates of an entity
have the same time. -/
theorem IsNewest.of_same (h : IsNewest updates u nanos)
    (hsame : ∀ w n, Stamped updates w n ↔ Stamped updates' w n)
    (hone : OneAtATime (Stamped updates)) : IsNewest updates' u nanos := by
  obtain ⟨w, n, hw, hwu, hle⟩ := exists_isNewest ((hsame u nanos).1 h.stamped)
  have hstamped : Stamped updates w n := (hsame w n).2 hw.stamped
  obtain rfl : nanos = n := Int.le_antisymm hle (h.le hstamped hwu)
  rwa [hone u w nanos h.stamped hstamped hwu.1.symm hwu.2.symm]

theorem isNewest_congr (hsame : ∀ w n, Stamped updates w n ↔ Stamped updates' w n)
    (hone : OneAtATime (Stamped updates)) :
    IsNewest updates u nanos ↔ IsNewest updates' u nanos := by
  refine ⟨fun h => h.of_same hsame hone, fun h => h.of_same (fun w n => (hsame w n).symm) ?_⟩
  intro x y m hx hy
  exact hone x y m ((hsame x m).2 hx) ((hsame y m).2 hy)

end EntityUpdate

open EntityUpdate

/-! ### One table -/

/-- How updates of one type are stored as rows. -/
structure RowFormat (Row : Type) where
  /-- The type. -/
  type : EntityType
  /-- The row of an update of that type. -/
  row? : EntityUpdate → Int → Option Row
  /-- The time in a row. -/
  time : Row → Int
  /-- All updates of the type have rows, and no others. -/
  isSome_row? : ∀ u nanos, (row? u nanos).isSome ↔ u.entityType = type
  /-- A row holds the time of its update. -/
  time_eq : ∀ u nanos row, row? u nanos = some row → time row = nanos

namespace RowFormat

/-- Rows of records. -/
def records : RowFormat ContentRow where
  type := .content
  row?
    | .content record, nanos => some (record.row nanos)
    | _, _ => none
  time := ContentRow.lastUpdated
  isSome_row? u nanos := by cases u <;> simp [EntityUpdate.entityType]
  time_eq u nanos row h := by cases u <;> cases h; rfl

/-- Rows of tags. -/
def tags : RowFormat TopicRow where
  type := .topic
  row?
    | .topic tag, nanos => some (tag.row nanos)
    | _, _ => none
  time := TopicRow.lastUpdated
  isSome_row? u nanos := by cases u <;> simp [EntityUpdate.entityType]
  time_eq u nanos row h := by cases u <;> cases h; rfl

/-- Rows of assertions. -/
def assertions : RowFormat AssertionRow where
  type := .equivalence
  row?
    | .equivalence u, nanos => some ⟨u.source.key, nanos⟩
    | _, _ => none
  time := AssertionRow.lastUpdated
  isSome_row? u nanos := by cases u <;> simp [EntityUpdate.entityType]
  time_eq u nanos row h := by cases u <;> cases h; rfl

theorem records_row?_eq_some_iff (u : EntityUpdate) (nanos : Int) (row : ContentRow) :
    records.row? u nanos = some row ↔
      ∃ record, u = .content record ∧ row = record.row nanos := by
  cases u <;> simp [records, eq_comm]

theorem tags_row?_eq_some_iff (u : EntityUpdate) (nanos : Int) (row : TopicRow) :
    tags.row? u nanos = some row ↔ ∃ tag, u = .topic tag ∧ row = tag.row nanos := by
  cases u <;> simp [tags, eq_comm]

theorem assertions_row?_eq_some_iff (u : EntityUpdate) (nanos : Int) (row : AssertionRow) :
    assertions.row? u nanos = some row ↔
      ∃ w, u = .equivalence w ∧ row = ⟨w.source.key, nanos⟩ := by
  cases u <;> simp [assertions, eq_comm]

end RowFormat

/-- The rows of the table are those of the newest updates of its format. -/
def Table.HoldsNewest {Row : Type} (format : RowFormat Row) (updates : List EntityUpdate)
    (table : Table Row) : Prop :=
  ∀ column row, table[column]? = some row ↔
    ∃ u nanos, IsNewest updates u nanos ∧ column = u.entityId.stored ∧
      format.row? u nanos = some row

namespace Table.HoldsNewest

variable {Row : Type} {format : RowFormat Row} {updates : List EntityUpdate} {table : Table Row}
  {u : EntityUpdate} {nanos : Int} {row : Row}

theorem type_eq (h : format.row? u nanos = some row) : u.entityType = format.type :=
  (format.isSome_row? u nanos).1 (by rw [h]; rfl)

/-- A row is newer than the stored one iff its update is newer than all others of its entity. -/
theorem isNewer_iff (h : table.HoldsNewest format updates) (hrow : format.row? u nanos = some row) :
    table.IsNewer format.time u.entityId.stored row ↔
      ∀ x m, Stamped updates x m → x.SameEntity u → m < nanos := by
  have htime : format.time row = nanos := format.time_eq u nanos row hrow
  constructor
  · intro hnewer x m hx hxu
    -- The newest update of the entity is stored.
    obtain ⟨w, n, hw, hwx, hle⟩ := exists_isNewest hx
    have hwu := hwx.trans hxu
    obtain ⟨stored, hstored⟩ := Option.isSome_iff_exists.1
      ((format.isSome_row? w n).2 (hwu.1.trans (type_eq hrow)))
    have hlt := hnewer stored ((h _ _).2 ⟨w, n, hw, by rw [hwu.2], hstored⟩)
    rw [format.time_eq w n stored hstored, htime] at hlt
    omega
  · intro hnewer stored hstored
    obtain ⟨w, n, hw, hcolumn, hwrow⟩ := (h _ _).1 hstored
    rw [format.time_eq w n stored hwrow, htime]
    exact hnewer w n hw.stamped
      ⟨(type_eq hwrow).trans (type_eq hrow).symm, Id.stored_injective hcolumn.symm⟩

theorem insert (h : table.HoldsNewest format updates) (hrow : format.row? u nanos = some row)
    (hnanos : u.timestamp.nanos? = some nanos)
    (hnewer : table.IsNewer format.time u.entityId.stored row) :
    Table.HoldsNewest format (updates ++ [u]) (table.insert u.entityId.stored row) := by
  rw [h.isNewer_iff hrow] at hnewer
  intro column row'
  rw [Std.ExtTreeMap.getElem?_insert]
  simp only [Std.LawfulEqCmp.compare_eq_iff_eq, isNewest_concat_of_newer hnanos hnewer]
  -- Only in the column of the update another one is the newest now.
  by_cases hcolumn : u.entityId.stored = column
  · subst hcolumn
    rw [if_pos rfl, Option.some.injEq]
    constructor
    · rintro rfl
      exact ⟨u, nanos, .inl ⟨rfl, rfl⟩, rfl, hrow⟩
    · rintro ⟨w, n, ⟨rfl, rfl⟩ | ⟨_, hne⟩, hstored, hwrow⟩
      · exact Option.some.inj (hrow.symm.trans hwrow)
      · exact absurd ⟨(type_eq hwrow).trans (type_eq hrow).symm,
          (Id.stored_injective hstored).symm⟩ hne
  · rw [if_neg hcolumn, h]
    constructor
    · rintro ⟨w, n, hw, rfl, hwrow⟩
      refine ⟨w, n, .inr ⟨hw, fun hsame => hcolumn ?_⟩, rfl, hwrow⟩
      rw [hsame.2]
    · rintro ⟨w, n, ⟨rfl, rfl⟩ | ⟨hw, _⟩, rfl, hwrow⟩
      · exact absurd rfl hcolumn
      · exact ⟨w, n, hw, rfl, hwrow⟩

theorem keep (h : table.HoldsNewest format updates) (hrow : format.row? u nanos = some row)
    (hnanos : u.timestamp.nanos? = some nanos)
    (hstale : ¬ table.IsNewer format.time u.entityId.stored row) :
    table.HoldsNewest format (updates ++ [u]) := by
  rw [h.isNewer_iff hrow] at hstale
  obtain ⟨x, m, hx, hxu, hle⟩ := exists_of_not_newer hstale
  intro column row'
  simp only [isNewest_concat_of_older hnanos hx hxu hle, h column row']

theorem other (h : table.HoldsNewest format updates) (htype : u.entityType ≠ format.type) :
    table.HoldsNewest format (updates ++ [u]) := by
  intro column row
  rw [h]
  refine exists_congr fun w => exists_congr fun n => and_congr_left fun ⟨_, hwrow⟩ => ?_
  exact (isNewest_concat_of_ne fun hsame => htype (hsame.1.symm.trans (type_eq hwrow))).symm

/-- The rows of the table, if the format writes an `α` as a row. -/
theorem getElem?_eq_some_iff {α : Type} {of : α → EntityUpdate} {rowOf : α → Int → Row}
    (h : table.HoldsNewest format updates) (hformat : ∀ u nanos row,
      format.row? u nanos = some row ↔ ∃ a, u = of a ∧ row = rowOf a nanos)
    (column : Int) (row : Row) : table[column]? = some row ↔
      ∃ a nanos, IsNewest updates (of a) nanos ∧ column = (of a).entityId.stored ∧
        row = rowOf a nanos := by
  rw [h]
  simp only [hformat]
  constructor
  · rintro ⟨_, nanos, hnewest, hcolumn, a, rfl, hrow⟩
    exact ⟨a, nanos, hnewest, hcolumn, hrow⟩
  · rintro ⟨a, nanos, hnewest, hcolumn, hrow⟩
    exact ⟨_, nanos, hnewest, hcolumn, a, rfl, hrow⟩

theorem eq_of_same {updates' : List EntityUpdate} {table' : Table Row}
    (h : table.HoldsNewest format updates) (h' : table'.HoldsNewest format updates')
    (hsame : ∀ w n, IsNewest updates w n ↔ IsNewest updates' w n) : table = table' :=
  Std.ExtTreeMap.ext_getElem? fun column => Option.ext fun row => by rw [h, h']; simp only [hsame]

end Table.HoldsNewest

/-! ### All tables -/

namespace Catalogue

/-- The edges are the targets of the newest assertions. -/
def EdgesOfNewest (updates : List EntityUpdate) (edges : EdgeSet) : Prop :=
  ∀ e, e ∈ edges ↔ ∃ u nanos, IsNewest updates (.equivalence u) nanos ∧
    ∃ target ∈ u.targets, e = ⟨u.subject.stored, target.stored⟩

/-- The rows are those of the newest updates, and so are the edges. -/
structure HoldsNewest (c : Catalogue) (updates : List EntityUpdate) : Prop where
  content : c.content.HoldsNewest .records updates
  topics : c.topics.HoldsNewest .tags updates
  assertions : c.assertions.HoldsNewest .assertions updates
  edges : EdgesOfNewest updates c.edges

variable {c c' : Catalogue} {updates : List EntityUpdate}

theorem holdsNewest_empty : empty.HoldsNewest [] := by
  have hnone : ∀ u nanos, ¬ IsNewest [] u nanos := fun u nanos h => List.not_mem_nil h.stamped.1
  refine ⟨?_, ?_, ?_, ?_⟩ <;>
    simp [Table.HoldsNewest, EdgesOfNewest, hnone, empty]

theorem SameRows.holdsNewest (hsame : c.SameRows c') (h : c.HoldsNewest updates) :
    c'.HoldsNewest updates where
  content := hsame.content ▸ h.content
  topics := hsame.topics ▸ h.topics
  assertions := hsame.assertions ▸ h.assertions
  edges := hsame.edges ▸ h.edges

theorem EdgesOfNewest.other {edges : EdgeSet} (h : EdgesOfNewest updates edges) {u : EntityUpdate}
    (htype : u.entityType ≠ .equivalence) : EdgesOfNewest (updates ++ [u]) edges := by
  intro e
  rw [h]
  refine exists_congr fun w => exists_congr fun n => and_congr_left fun _ => ?_
  exact (isNewest_concat_of_ne fun hsame => htype hsame.1.symm).symm

/-- The newest assertion replaces the edges of its subject. -/
theorem EdgesOfNewest.replace {edges : EdgeSet} (h : EdgesOfNewest updates edges)
    {u : EquivalenceUpdate} {nanos : Int} (hnanos : u.timestamp.nanos? = some nanos)
    (hnewer : ∀ x m, Stamped updates x m → x.SameEntity (.equivalence u) → m < nanos) :
    EdgesOfNewest (updates ++ [.equivalence u]) (edges.replace u.subject u.targets) := by
  intro e
  have hconcat : ∀ (w : EquivalenceUpdate) n,
      IsNewest (updates ++ [.equivalence u]) (.equivalence w) n ↔
        (w = u ∧ n = nanos) ∨ (IsNewest updates (.equivalence w) n ∧ w.subject ≠ u.subject) := by
    intro w n
    rw [isNewest_concat_of_newer (u := .equivalence u) hnanos hnewer,
      EntityUpdate.equivalence.injEq]
    refine or_congr_right (and_congr_right fun _ => not_congr ?_)
    exact and_iff_right rfl
  rw [EdgeSet.mem_replace, h]
  simp only [hconcat]
  constructor
  · rintro (⟨target, htarget, rfl⟩ | ⟨⟨w, n, hw, target, htarget, rfl⟩, hne⟩)
    · exact ⟨u, nanos, .inl ⟨rfl, rfl⟩, target, htarget, rfl⟩
    · refine ⟨w, n, .inr ⟨hw, fun heq => hne ?_⟩, target, htarget, rfl⟩
      rw [heq]
  · rintro ⟨w, n, ⟨rfl, rfl⟩ | ⟨hw, hne⟩, target, htarget, rfl⟩
    · exact .inl ⟨target, htarget, rfl⟩
    · exact .inr ⟨⟨w, n, hw, target, htarget, rfl⟩, fun heq => hne (Id.stored_injective heq)⟩

theorem EdgesOfNewest.keep {edges : EdgeSet} (h : EdgesOfNewest updates edges)
    {u : EquivalenceUpdate} {nanos : Int} (hnanos : u.timestamp.nanos? = some nanos)
    (hstale : ¬ ∀ x m, Stamped updates x m → x.SameEntity (.equivalence u) → m < nanos) :
    EdgesOfNewest (updates ++ [.equivalence u]) edges := by
  obtain ⟨x, m, hx, hxu, hle⟩ := exists_of_not_newer hstale
  intro e
  simp only [isNewest_concat_of_older (u := .equivalence u) hnanos hx hxu hle, h e]

/-- **An update that is applied, or comes too late, is accounted for.** -/
theorem HoldsNewest.written (h : c.HoldsNewest updates) {now : Instant} {update : EntityUpdate}
    {outcome : Outcome} (hwritten : update.Written now c outcome c') :
    c'.HoldsNewest (updates ++ [update]) := by
  cases hwritten with
  | content hcontent =>
    cases hcontent with
    | applied hnanos hnewer =>
      exact sameRows_requested.holdsNewest (c := Content.store _ _ c)
        ⟨h.content.insert (u := .content _) rfl hnanos hnewer, h.topics.other nofun,
          h.assertions.other nofun, h.edges.other nofun⟩
    | stale hnanos hstale =>
      exact ⟨h.content.keep (u := .content _) rfl hnanos hstale, h.topics.other nofun,
        h.assertions.other nofun, h.edges.other nofun⟩
  | topic htopic =>
    cases htopic with
    | applied hnanos hnewer =>
      exact ⟨h.content.other nofun, h.topics.insert (u := .topic _) rfl hnanos hnewer,
        h.assertions.other nofun, h.edges.other nofun⟩
    | stale hnanos hstale =>
      exact ⟨h.content.other nofun, h.topics.keep (u := .topic _) rfl hnanos hstale,
        h.assertions.other nofun, h.edges.other nofun⟩
  | equivalence hequivalence =>
    cases hequivalence with
    | applied hnanos hnewer =>
      exact sameRows_requested.holdsNewest (c := EquivalenceUpdate.store _ _ c)
        ⟨h.content.other nofun, h.topics.other nofun,
          h.assertions.insert (u := .equivalence _) rfl hnanos hnewer,
          h.edges.replace hnanos ((h.assertions.isNewer_iff (u := .equivalence _) rfl).1 hnewer)⟩
    | stale hnanos hstale =>
      exact ⟨h.content.other nofun, h.topics.other nofun,
        h.assertions.keep (u := .equivalence _) rfl hnanos hstale,
        h.edges.keep hnanos fun hnewer =>
          hstale ((h.assertions.isNewer_iff (u := .equivalence _) rfl).2 hnewer)⟩

theorem HoldsNewest.sameRows {updates' : List EntityUpdate} (h : c.HoldsNewest updates)
    (h' : c'.HoldsNewest updates')
    (hsame : ∀ u nanos, IsNewest updates u nanos ↔ IsNewest updates' u nanos) : c.SameRows c' where
  content := (h.content.eq_of_same h'.content hsame).symm
  topics := (h.topics.eq_of_same h'.topics hsame).symm
  assertions := (h.assertions.eq_of_same h'.assertions hsame).symm
  edges := Std.ExtTreeSet.ext_mem fun e => by rw [h.edges, h'.edges]; simp only [hsame]

end Catalogue

end MediaCatalogue
