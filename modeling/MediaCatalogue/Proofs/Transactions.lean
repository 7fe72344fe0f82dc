import MediaCatalogue.Proofs.Labels
import MediaCatalogue.Proofs.Rows

/-!
# Transactions

Every call that changes the tables is one transaction: an update is applied, the labels around an id
are brought up to date, or a request is completed. Statements of a call may fail, and then the call
as a whole changes nothing.

* `Catalogue.after` are the tables after some transactions, in whatever order they come;
* `Catalogue.WellFormed` says that the tables hold nothing but what such calls write. The empty
  tables are well-formed, and every transaction keeps this (`Catalogue.wellFormed_after`);
* `Transaction.tablesAt` are the tables that the statements of a read call see when transactions are
  committed between them.
-/

namespace MediaCatalogue

/-- A call that changes the tables, if enough of its statements work. -/
inductive Transaction where
  /-- An update is applied. -/
  | write (now : Instant) (working : Option Nat) (update : EntityUpdate)
  /-- The labels around an id are brought up to date. -/
  | refresh (working : Option Nat) (id : Id)
  /-- A request is completed. -/
  | complete (working : Option Nat) (request : RefreshRequest)

/-- The tables after a transaction. -/
def Transaction.commit (c : Catalogue) : Transaction → Catalogue
  | write now working update => (((Writers.stored now working).apply update).run c).2
  | refresh working id => ((MediaCatalogue.refresh id).perform working c).2
  | complete working request => ((completeRequest request).perform working c).2

/-- The tables after some transactions. -/
def Catalogue.after (transactions : List Transaction) (c : Catalogue) : Catalogue :=
  transactions.foldl Transaction.commit c

namespace Catalogue

/-- Edges and labels hold ids, and all rows are those of updates. -/
structure WellFormed (c : Catalogue) : Prop where
  holdsIds : c.HoldsIds
  written : c.StemsFrom fun _ _ => True

variable {c c' : Catalogue}

theorem wellFormed_empty : empty.WellFormed where
  holdsIds := ⟨fun e he => by simp [empty] at he, fun column label hrow => by simp [empty] at hrow⟩
  written := stemsFrom_empty

theorem holdsIds_requested (hedges : c.edges.HoldsIds) (hsets : c.sets.HoldsIds) {now : Int}
    {ids : IdSet} : (c.requested now ids).HoldsIds :=
  ⟨by simpa using hedges, by simpa using hsets⟩

theorem WellFormed.written_of (h : c.WellFormed) {now : Instant} {update : EntityUpdate}
    {outcome : Outcome} (hwritten : update.Written now c outcome c') : c'.WellFormed where
  written := hwritten.stemsFrom h.written fun _ _ => trivial
  holdsIds := by
    cases hwritten with
    | content hcontent =>
      cases hcontent with
      | applied =>
        exact holdsIds_requested (c := Content.store _ _ c) h.holdsIds.edges h.holdsIds.sets
      | stale => exact h.holdsIds
    | topic htopic =>
      cases htopic with
      | applied => exact ⟨h.holdsIds.edges, h.holdsIds.sets⟩
      | stale => exact h.holdsIds
    | equivalence hequivalence =>
      cases hequivalence with
      | applied =>
        exact holdsIds_requested (c := EquivalenceUpdate.store _ _ c) h.holdsIds.edges.replace
          h.holdsIds.sets
      | stale => exact h.holdsIds

theorem Relabelled.sameRows {seed : Id → Prop} (h : c.Relabelled seed c') : c.SameRows c' := by
  rw [h.eq]
  exact ⟨rfl, rfl, rfl, rfl⟩

theorem WellFormed.relabelled (h : c.WellFormed) {seed : Id → Prop} (hc : c.Relabelled seed c') :
    c'.WellFormed where
  holdsIds := hc.holdsIds h.holdsIds
  written := hc.sameRows.stemsFrom h.written

theorem WellFormed.withoutRequest (h : c.WellFormed) (r : RefreshRequest) :
    (c.withoutRequest r).2.WellFormed where
  written := sameRows_withoutRequest.stemsFrom h.written
  holdsIds := by
    have hsame : c.SameRows (c.withoutRequest r).2 := sameRows_withoutRequest
    have hsets : (c.withoutRequest r).2.sets = c.sets := by
      unfold Catalogue.withoutRequest
      split
      · split <;> rfl
      · rfl
    exact ⟨hsame.edges ▸ h.holdsIds.edges, hsets ▸ h.holdsIds.sets⟩

/-- What a transaction can do to the tables. -/
inductive Committed (c : Catalogue) : Catalogue → Prop
  /-- An update is written, or comes too late. -/
  | written {now : Instant} {update : EntityUpdate} {outcome : Outcome} {c' : Catalogue}
    (h : update.Written now c outcome c') : Committed c c'
  /-- Labels are brought up to date. -/
  | relabelled {seed : Id → Prop} {c' : Catalogue} (h : c.Relabelled seed c') : Committed c c'
  /-- A request is completed. -/
  | completed (r : RefreshRequest) : Committed c (c.withoutRequest r).2
  /-- The transaction fails. -/
  | failed : Committed c c

theorem commit_refresh (h : c.HoldsIds) (working : Option Nat) (id : Id) :
    (∃ seed, c.Relabelled seed ((Transaction.refresh working id).commit c)) ∨
      (Transaction.refresh working id).commit c = c := by
  rcases (ends_refresh h id (E := fun _ => True) trivial).perform working with
    ⟨_, _, hc⟩ | ⟨_, _, _, hc⟩
  · exact .inl ⟨_, hc⟩
  · exact .inr hc

theorem commit_complete (working : Option Nat) (request : RefreshRequest) :
    (Transaction.complete working request).commit c = (c.withoutRequest request).2 ∨
      (Transaction.complete working request).commit c = c := by
  rcases (Statements.ends_completeRequest (r := request) (E := fun _ => True) (c := c)
    trivial).perform working with ⟨_, _, hc⟩ | ⟨_, _, _, hc⟩
  · exact .inl (congrArg Prod.snd hc)
  · exact .inr hc

theorem committed_commit (h : c.HoldsIds) (t : Transaction) : c.Committed (t.commit c) := by
  cases t with
  | write now working update =>
    rcases Writers.apply_stored now working update c with
      ⟨_, _, hwritten⟩ | ⟨_, _, _, hsame⟩
    · exact .written hwritten
    · rw [Transaction.commit, hsame]
      exact .failed
  | refresh working id =>
    rcases commit_refresh h working id with ⟨_, hc⟩ | hc
    · exact .relabelled hc
    · rw [hc]
      exact .failed
  | complete working request =>
    rcases commit_complete (c := c) working request with hc | hc
    · rw [hc]
      exact .completed request
    · rw [hc]
      exact .failed

theorem Committed.wellFormed (hc : c.Committed c') (h : c.WellFormed) : c'.WellFormed := by
  cases hc with
  | written hwritten => exact h.written_of hwritten
  | relabelled hc => exact h.relabelled hc
  | completed r => exact h.withoutRequest r
  | failed => exact h

/-- Transactions only make rows newer. -/
theorem Committed.reflects (hc : c.Committed c') {type : EntityType} {id : Id} {nanos : Int}
    (h : c.Reflects type id nanos) : c'.Reflects type id nanos := by
  cases hc with
  | written hwritten => exact hwritten.reflects_of_reflects h
  | relabelled hc => exact hc.sameRows.reflects_iff.2 h
  | completed r => exact sameRows_withoutRequest.reflects_iff.2 h
  | failed => exact h

/-- **Every transaction keeps the tables well-formed.** -/
theorem WellFormed.commit (h : c.WellFormed) (t : Transaction) : (t.commit c).WellFormed :=
  (committed_commit h.holdsIds t).wellFormed h

theorem WellFormed.after (h : c.WellFormed) (transactions : List Transaction) :
    (c.after transactions).WellFormed := by
  induction transactions generalizing c with
  | nil => exact h
  | cons t transactions ih => exact ih (h.commit t)

theorem wellFormed_after (transactions : List Transaction) :
    (empty.after transactions).WellFormed :=
  wellFormed_empty.after transactions

theorem WellFormed.reflects_after (h : c.WellFormed) (transactions : List Transaction)
    {type : EntityType} {id : Id} {nanos : Int} (hreflects : c.Reflects type id nanos) :
    (c.after transactions).Reflects type id nanos := by
  induction transactions generalizing c with
  | nil => exact hreflects
  | cons t transactions ih =>
    exact ih (h.commit t) ((committed_commit h.holdsIds t).reflects hreflects)

end Catalogue

/-! ### Between the statements of a read call -/

/-- The tables that each statement of a read call sees, if the transactions `between n` are
committed before statement `n` and after the one before it. The first of these lists begins with the
empty tables. -/
def Transaction.tablesAt (between : Nat → List Transaction) : Nat → Catalogue
  | 0 => Catalogue.empty.after (between 0)
  | n + 1 => (tablesAt between n).after (between (n + 1))

theorem Transaction.wellFormed_tablesAt (between : Nat → List Transaction) (n : Nat) :
    (tablesAt between n).WellFormed := by
  induction n with
  | zero => exact Catalogue.wellFormed_after (between 0)
  | succ n ih => exact ih.after (between (n + 1))

end MediaCatalogue
