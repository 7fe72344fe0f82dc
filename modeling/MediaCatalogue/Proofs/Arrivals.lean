import MediaCatalogue.Proofs.Newest
import MediaCatalogue.Proofs.Transactions

/-!
# Arrivals

Transactions write updates, bring labels up to date and complete requests; any of them may fail.
The updates whose write does not fail arrive, in the order of their transactions
(`Catalogue.arrivals`), and the tables hold the newest of them (`Catalogue.HoldsNewest.commit`,
`Catalogue.HoldsNewest.after`). If no transaction is disturbed, all updates arrive whose time can be
stored (`Catalogue.arrivals_of_isUndisturbed`).

**Main theorem** (`Catalogue.newest_update_wins`): after any transactions from the empty tables, the
rows are those of the newest updates that arrived, the edges are the targets of the newest
assertions, and an assertion that is applied is told the targets of the newest one before it.
-/

namespace MediaCatalogue

open EntityUpdate

namespace Transaction

/-- The update that is to be written. -/
def update? : Transaction → Option EntityUpdate
  | write _ _ update => some update
  | _ => none

/-- The update that is written, or comes too late, unless the write fails. -/
def arrived (c : Catalogue) : Transaction → Option EntityUpdate
  | write now working update =>
    match (((Writers.stored now working).apply update).run c).1 with
    | .ok _ => some update
    | .error _ => none
  | _ => none

theorem update?_of_arrived {t : Transaction} {c : Catalogue} {u : EntityUpdate}
    (h : t.arrived c = some u) : t.update? = some u := by
  unfold arrived at h
  split at h
  · split at h
    · exact h
    · cases h
  · cases h

/-- Every statement of a write works, and so does its clock. -/
def IsUndisturbed : Transaction → Prop
  | write now working _ => working = none ∧ ∃ t, now.nanos? = some t
  | _ => True

end Transaction

namespace Catalogue

/-- The updates that arrive, in the order of their transactions. -/
def arrivals : List Transaction → Catalogue → List EntityUpdate
  | [], _ => []
  | t :: transactions, c => (t.arrived c).toList ++ arrivals transactions (t.commit c)

variable {c c' : Catalogue} {updates : List EntityUpdate}

theorem arrivals_subset (transactions : List Transaction) (c : Catalogue) :
    c.arrivals transactions ⊆ transactions.filterMap (·.update?) := by
  induction transactions generalizing c with
  | nil => exact List.nil_subset _
  | cons t transactions ih =>
    intro u hu
    rw [arrivals, List.mem_append, Option.mem_toList] at hu
    rw [List.filterMap_cons]
    rcases hu with hu | hu
    · rw [Transaction.update?_of_arrived hu]
      exact List.mem_cons_self
    · split
      · exact ih _ hu
      · exact List.mem_cons_of_mem _ (ih _ hu)

theorem sameRows_commit (hc : c.HoldsIds) {t : Transaction} (ht : t.update? = none) :
    c.SameRows (t.commit c) := by
  cases t with
  | write now working update => cases ht
  | refresh working id =>
    rcases commit_refresh hc working id with ⟨_, h⟩ | h
    · exact h.sameRows
    · rw [h]
      exact .rfl
  | complete working request =>
    rcases commit_complete (c := c) working request with h | h
    · rw [h]
      exact sameRows_withoutRequest
    · rw [h]
      exact .rfl

/-- **One transaction.** The rows are those of the newest updates again. -/
theorem HoldsNewest.commit (h : c.HoldsNewest updates) (hc : c.HoldsIds) (t : Transaction) :
    (t.commit c).HoldsNewest (updates ++ (t.arrived c).toList) := by
  have hnone : ∀ {c' : Catalogue}, c.SameRows c' → c'.HoldsNewest (updates ++ []) := by
    intro c' hsame
    rw [List.append_nil]
    exact hsame.holdsNewest h
  cases t with
  | write now working update =>
    rw [Transaction.arrived, Transaction.commit]
    rcases Writers.apply_stored now working update c with
      ⟨outcome, hok, hwritten⟩ | ⟨fault, herror, _, hsame⟩
    · rw [hok]
      exact h.written hwritten
    · rw [herror, hsame]
      exact hnone .rfl
  | refresh working id => exact hnone (sameRows_commit hc rfl)
  | complete working request => exact hnone (sameRows_commit hc rfl)

/-- **All transactions.** -/
theorem HoldsNewest.after (h : c.HoldsNewest updates) (hc : c.WellFormed)
    (transactions : List Transaction) :
    (c.after transactions).HoldsNewest (updates ++ c.arrivals transactions) := by
  induction transactions generalizing c updates with
  | nil => rwa [arrivals, List.append_nil]
  | cons t transactions ih =>
    rw [arrivals, ← List.append_assoc]
    exact ih (h.commit hc.holdsIds t) (hc.commit t)

theorem holdsNewest_after (transactions : List Transaction) :
    (empty.after transactions).HoldsNewest (empty.arrivals transactions) :=
  holdsNewest_empty.after wellFormed_empty transactions

/-- An update arrives, unless it is disturbed or its time cannot be stored. -/
theorem arrived_of_isUndisturbed (hedges : c.edges.HoldsIds) {t : Transaction}
    (ht : t.IsUndisturbed) : (t.arrived c).toList = storable t.update?.toList := by
  cases t with
  | write now working update =>
    obtain ⟨rfl, hnow⟩ := ht
    rw [Transaction.arrived]
    cases hnanos : update.timestamp.nanos? with
    | none =>
      rw [Writers.run_apply_of_unstorable hnanos]
      simp [Transaction.update?, storable, hnanos]
    | some nanos =>
      obtain ⟨outcome, c', hwritten⟩ := exists_written hedges hnow hnanos
      rw [Writers.run_apply_of_written hwritten, if_neg Statements.not_breaks_none]
      simp [Transaction.update?, storable, hnanos]
  | refresh working id => rfl
  | complete working request => rfl

theorem arrivals_of_isUndisturbed (hc : c.WellFormed) {transactions : List Transaction}
    (h : ∀ t ∈ transactions, t.IsUndisturbed) :
    c.arrivals transactions = storable (transactions.filterMap Transaction.update?) := by
  induction transactions generalizing c with
  | nil => rfl
  | cons t transactions ih =>
    have hrest := ih (hc.commit t) fun t' ht' => h t' (List.mem_cons_of_mem t ht')
    rw [arrivals, hrest, arrived_of_isUndisturbed hc.holdsIds.edges (h t List.mem_cons_self),
      storable, storable, storable, ← List.filter_append, List.filterMap_cons]
    cases t.update? <;> rfl

/-! ### Replies -/

theorem HoldsNewest.mem_reply (h : c.HoldsNewest updates) {now : Instant} {working : Option Nat}
    {u : EquivalenceUpdate} {previous : IdSet}
    (hreply : ((u.write now).perform working c).1 = .ok (some previous)) (id : Id) :
    id ∈ previous ↔ ∃ w nanos, IsNewest updates (.equivalence w) nanos ∧ w.subject = u.subject ∧
      id ∈ w.equivalents ∧ id ≠ w.subject := by
  obtain ⟨c', hperform⟩ : ∃ c', (u.write now).perform working c = (.ok (some previous), c') :=
    ⟨_, Prod.ext hreply rfl⟩
  cases (u.ends_write now c).of_perform_ok hperform with
  | applied _ _ hprevious =>
    rw [EdgeSet.mem_of_targetIds hprevious, h.edges]
    simp only [Edge.mk.injEq, EquivalenceUpdate.mem_targets]
    constructor
    · rintro ⟨w, nanos, hw, target, htarget, hsubject, hid⟩
      rw [Id.stored_injective hid]
      exact ⟨w, nanos, hw, (Id.stored_injective hsubject).symm, htarget⟩
    · rintro ⟨w, nanos, hw, hsubject, hid⟩
      exact ⟨w, nanos, hw, id, hid, by rw [hsubject], rfl⟩

/-- An undisturbed assertion is applied iff it is newer than all others of its subject. -/
theorem HoldsNewest.exists_reply (h : c.HoldsNewest updates) (hedges : c.edges.HoldsIds)
    {now : Instant} (hnow : ∃ t, now.nanos? = some t) {u : EquivalenceUpdate} {nanos : Int}
    (hnanos : u.timestamp.nanos? = some nanos) :
    ∃ reply, ((u.write now).perform none c).1 = .ok reply ∧
      (reply.isSome ↔ ∀ w m, Stamped updates (.equivalence w) m → w.subject = u.subject →
        m < nanos) := by
  -- Only assertions about the same subject count.
  have hnewer : (∀ w m, Stamped updates (.equivalence w) m → w.subject = u.subject → m < nanos) ↔
      c.assertions.IsNewer AssertionRow.lastUpdated u.subject.stored ⟨u.source.key, nanos⟩ := by
    refine Iff.trans ?_ (h.assertions.isNewer_iff (u := .equivalence u) rfl).symm
    constructor
    · intro hlt x m hx hxu
      cases x with
      | equivalence w => exact hlt w m hx hxu.2
      | content record => cases hxu.1
      | topic tag => cases hxu.1
    · exact fun hlt w m hw hsubject => hlt (.equivalence w) m hw ⟨rfl, hsubject⟩
  obtain ⟨_, c', hwritten⟩ : ∃ outcome c', (EntityUpdate.equivalence u).Written now c outcome c' :=
    exists_written hedges hnow hnanos
  rw [hnewer]
  cases hwritten with
  | @equivalence _ reply _ hu =>
    refine ⟨reply, ?_, ?_⟩
    · rw [hu.takes.perform, if_neg Statements.not_breaks_none]
    · cases hu with
      | applied hnanos' hnewer' =>
        cases hnanos.symm.trans hnanos'
        exact iff_of_true rfl hnewer'
      | stale hnanos' hstale =>
        cases hnanos.symm.trans hnanos'
        exact iff_of_false nofun hstale

/-- **The newest update wins.** After any transactions from the empty tables,

* every row is the one of the newest of the updates that arrived, which is the first one if several
  have the latest time; the edges of a subject are the targets of its newest assertion;
* an assertion that is applied is told the targets of the newest one of its subject so far;
  undisturbed, it is applied iff it is newer than all of them;
* the order in which updates arrive, and how often they do, makes no difference if no two of an
  entity have the same time;
* if no transaction is disturbed, the newest updates are those of all that were to be written. -/
theorem newest_update_wins (transactions : List Transaction) :
    have c := empty.after transactions
    have updates := empty.arrivals transactions
    (∀ column row, c.content[column]? = some row ↔
      ∃ record nanos, IsNewest updates (.content record) nanos ∧
        column = record.id.stored ∧ row = record.row nanos) ∧
    (∀ column row, c.topics[column]? = some row ↔
      ∃ tag nanos, IsNewest updates (.topic tag) nanos ∧
        column = tag.id.stored ∧ row = tag.row nanos) ∧
    (∀ column row, c.assertions[column]? = some row ↔
      ∃ u nanos, IsNewest updates (.equivalence u) nanos ∧
        column = u.subject.stored ∧ row = ⟨u.source.key, nanos⟩) ∧
    (∀ e, e ∈ c.edges ↔
      ∃ u nanos, IsNewest updates (.equivalence u) nanos ∧
        ∃ target, (target ∈ u.equivalents ∧ target ≠ u.subject) ∧
          e = ⟨u.subject.stored, target.stored⟩) ∧
    (∀ now working u previous, ((EquivalenceUpdate.write now u).perform working c).1 =
        .ok (some previous) → ∀ id, id ∈ previous ↔
      ∃ w nanos, IsNewest updates (.equivalence w) nanos ∧ w.subject = u.subject ∧
        id ∈ w.equivalents ∧ id ≠ w.subject) ∧
    (∀ (now : Instant) (u : EquivalenceUpdate) (nanos : Int), (∃ t, now.nanos? = some t) →
      u.timestamp.nanos? = some nanos → ∃ reply, ((u.write now).perform none c).1 = .ok reply ∧
        (reply.isSome ↔ ∀ w m, Stamped updates (.equivalence w) m → w.subject = u.subject →
          m < nanos)) ∧
    (∀ transactions', (∀ u nanos, Stamped updates u nanos ↔
        Stamped (empty.arrivals transactions') u nanos) → OneAtATime (Stamped updates) →
      c.SameRows (empty.after transactions')) ∧
    ((∀ t ∈ transactions, t.IsUndisturbed) → ∀ u nanos,
      (Stamped updates u nanos ↔ Stamped (transactions.filterMap (·.update?)) u nanos) ∧
      (IsNewest updates u nanos ↔ IsNewest (transactions.filterMap (·.update?)) u nanos)) := by
  intro c updates
  have h : c.HoldsNewest updates := holdsNewest_after transactions
  have hc : c.WellFormed := wellFormed_after transactions
  refine ⟨h.content.getElem?_eq_some_iff RowFormat.records_row?_eq_some_iff,
    h.topics.getElem?_eq_some_iff RowFormat.tags_row?_eq_some_iff,
    h.assertions.getElem?_eq_some_iff RowFormat.assertions_row?_eq_some_iff, fun e => ?_,
    fun now working u previous hreply => h.mem_reply hreply,
    fun now u nanos hnow hnanos => h.exists_reply hc.holdsIds.edges hnow hnanos,
    fun transactions' hsame hone => ?_, fun hundisturbed u nanos => ?_⟩
  · rw [h.edges]
    simp only [EquivalenceUpdate.mem_targets]
  · exact h.sameRows (holdsNewest_after transactions') fun u nanos => isNewest_congr hsame hone
  · have harrivals : updates = storable (transactions.filterMap (·.update?)) :=
      arrivals_of_isUndisturbed wellFormed_empty hundisturbed
    rw [harrivals]
    exact ⟨stamped_storable, isNewest_storable⟩

/-- A record as it was first. -/
def firstDraft : Content :=
  ⟨5, ⟨"bbc", "GB", "BBC"⟩, .item, some "first draft", .ofNanos 0, .null⟩

/-- The same record a nanosecond later. -/
def finalDraft : Content :=
  { firstDraft with title := some "final draft", lastUpdated := .ofNanos 1 }

/-- An assertion about the record. -/
def draftLink : EquivalenceUpdate :=
  ⟨5, IdSet.ofList [5, 7], firstDraft.publisher, .ofNanos 0⟩

/-- The updates are written one after the other. -/
def drafts : List Transaction :=
  [.content firstDraft, .content finalDraft, .equivalence draftLink].map
    (.write (.ofNanos 0) none)

/-- Written backwards and once more, the updates leave the same rows; the final draft is stored, and
the next assertion is told about the link. -/
theorem newest_update_wins_of_drafts :
    have c := empty.after drafts
    (∀ t ∈ drafts, t.IsUndisturbed) ∧ c.SameRows (empty.after (drafts.reverse ++ drafts)) ∧
      c.content[(5 : Int)]? = some (finalDraft.row 1) ∧
      ∃ previous, (({ draftLink with timestamp := .ofNanos 1 }.write (.ofNanos 0)).perform none
        c).1 = .ok (some previous) ∧ 7 ∈ previous := by
  intro c
  obtain ⟨hcontent, _, _, _, hreply, hanswers, hreorder, hall⟩ := newest_update_wins drafts
  obtain ⟨_, _, _, _, _, _, _, hall'⟩ := newest_update_wins (drafts.reverse ++ drafts)
  have hundisturbed : ∀ t ∈ drafts, t.IsUndisturbed := by
    simp only [drafts, List.forall_mem_map]
    exact fun _ _ => ⟨rfl, 0, by decide⟩
  have hundisturbed' : ∀ t ∈ drafts.reverse ++ drafts, t.IsUndisturbed := by
    simp only [List.mem_append, List.mem_reverse, or_self]
    exact hundisturbed
  have hstamped : ∀ u nanos, Stamped (empty.arrivals drafts) u nanos →
      u = .content firstDraft ∧ nanos = 0 ∨ u = .content finalDraft ∧ nanos = 1 ∨
        u = .equivalence draftLink ∧ nanos = 0 := by
    intro u nanos h
    obtain ⟨hmem, hnanos⟩ := (hall hundisturbed u nanos).1.1 h
    simp only [drafts, List.filterMap_map, List.mem_filterMap, List.mem_cons, List.not_mem_nil,
      or_false] at hmem
    obtain ⟨_, hmem, hu⟩ := hmem
    cases hu
    rcases hmem with rfl | rfl | rfl
    · exact .inl ⟨rfl, Option.some.inj (hnanos.symm.trans (by decide))⟩
    · exact .inr (.inl ⟨rfl, Option.some.inj (hnanos.symm.trans (by decide))⟩)
    · exact .inr (.inr ⟨rfl, Option.some.inj (hnanos.symm.trans (by decide))⟩)
  have hone : OneAtATime (Stamped (empty.arrivals drafts)) := by
    intro u u' nanos hu hu' htype _
    rcases hstamped u nanos hu with ⟨rfl, rfl⟩ | ⟨rfl, rfl⟩ | ⟨rfl, rfl⟩ <;>
      rcases hstamped u' _ hu' with ⟨rfl, h⟩ | ⟨rfl, h⟩ | ⟨rfl, h⟩ <;>
      first | rfl | exact absurd h (by decide) | exact absurd htype (by decide)
  have hsame : c.SameRows (empty.after (drafts.reverse ++ drafts)) := by
    refine hreorder _ (fun u nanos => ?_) hone
    rw [(hall hundisturbed u nanos).1, (hall' hundisturbed' u nanos).1]
    simp only [Stamped, List.mem_filterMap, List.mem_append, List.mem_reverse, or_self]
  have hfinal : IsNewest (empty.arrivals drafts) (.content finalDraft) 1 := by
    refine (hall hundisturbed _ _).2.2
      ⟨[.content firstDraft], [.equivalence draftLink], rfl, by decide, fun w m hw _ => ?_, ?_⟩
    · obtain ⟨rfl, hm⟩ := stamped_singleton.1 hw
      cases hm.symm.trans (show firstDraft.lastUpdated.nanos? = some 0 by decide)
      decide
    · rintro w m hw ⟨htype, _⟩
      obtain ⟨rfl, _⟩ := stamped_singleton.1 hw
      cases htype
  have hlink : IsNewest (empty.arrivals drafts) (.equivalence draftLink) 0 := by
    refine (hall hundisturbed _ _).2.2
      ⟨[.content firstDraft, .content finalDraft], [], rfl, by decide, ?_, by simp [Stamped]⟩
    rintro w m ⟨hw, _⟩ ⟨htype, _⟩
    simp only [List.mem_cons, List.not_mem_nil, or_false] at hw
    rcases hw with rfl | rfl <;> cases htype
  obtain ⟨reply, hok, hnewer⟩ :=
    hanswers (.ofNanos 0) { draftLink with timestamp := .ofNanos 1 } 1 ⟨0, by decide⟩ (by decide)
  have happlied : reply.isSome := by
    refine hnewer.2 fun w m hw _ => ?_
    rcases hstamped _ m hw with ⟨h, _⟩ | ⟨h, _⟩ | ⟨_, rfl⟩
    · cases h
    · cases h
    · decide
  obtain ⟨previous, rfl⟩ := Option.isSome_iff_exists.1 happlied
  exact ⟨hundisturbed, hsame, (hcontent 5 _).2 ⟨finalDraft, 1, hfinal, rfl, rfl⟩, previous, hok,
    (hreply _ _ _ _ hok 7).2 ⟨draftLink, 0, hlink, rfl, by simp [draftLink], by decide⟩⟩

end Catalogue

end MediaCatalogue
