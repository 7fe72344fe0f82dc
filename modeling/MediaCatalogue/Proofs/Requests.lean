import Mathlib.Data.List.Nodup
import MediaCatalogue.Proofs.Sequences
import MediaCatalogue.Proofs.Statements
import MediaCatalogue.Store.RefreshQueue

/-!
# The table of requests

What making, reading and completing requests does to the row of each id.

* `Catalogue.requested` are the tables after requests for some ids; `getElem?_pending_requested`
  says what became of each row, `Statements.ends_requestAll` that this is what `requestAll` does;
* `Catalogue.RequestedFor` says the same of two tables, row by row: each id has one more request,
  and nobody else has;
* `Catalogue.oldestRequests_spec` : what is read are rows of different ids, with the generations
  that they have;
* `Catalogue.withoutRequest_eq_true_iff` : a request is removed if its row has its generation.
-/

namespace MediaCatalogue

/-- The row of an id after one more request at the time `now`. -/
def RequestRow.again (now : Int) : Option RequestRow → RequestRow
  | none => ⟨0, now⟩
  | some row => { row with generation := row.generation + 1 }

namespace Catalogue

variable {now : Int} {c : Catalogue}

theorem getElem?_pending_request {id : Id} {column : Int} :
    (c.request now id).pending[column]? =
      if id.stored = column then some (.again now c.pending[column]?) else c.pending[column]? := by
  simp only [request, Std.ExtTreeMap.getElem?_alter, Std.LawfulEqCmp.compare_eq_iff_eq]
  by_cases h : id.stored = column
  · subst h
    cases c.pending[id.stored]? <;> rfl
  · simp only [h, if_false]

/-- The tables after requests for some ids. -/
def requested (now : Int) (ids : IdSet) (c : Catalogue) : Catalogue :=
  ids.toList.foldl (fun c id => c.request now id) c

theorem foldl_request_eq (now : Int) (ids : List Id) (c : Catalogue) :
    ∃ pending, ids.foldl (fun c id => c.request now id) c = { c with pending } := by
  induction ids generalizing c with
  | nil => exact ⟨c.pending, rfl⟩
  | cons id ids ih =>
    obtain ⟨pending, h⟩ := ih (c.request now id)
    exact ⟨pending, h⟩

theorem requested_eq (now : Int) (ids : IdSet) (c : Catalogue) :
    c.requested now ids = { c with pending := (c.requested now ids).pending } := by
  obtain ⟨pending, h⟩ := foldl_request_eq now ids.toList c
  rw [requested, h]

theorem requested_empty (now : Int) (c : Catalogue) : c.requested now ∅ = c := by
  have hnil : (∅ : IdSet).toList = [] := Std.ExtTreeSet.toList_eq_nil_iff.2 rfl
  rw [requested, hnil]
  rfl

variable {ids : IdSet}

@[simp]
theorem content_requested : (c.requested now ids).content = c.content := by rw [requested_eq]

@[simp]
theorem topics_requested : (c.requested now ids).topics = c.topics := by rw [requested_eq]

@[simp]
theorem assertions_requested : (c.requested now ids).assertions = c.assertions := by
  rw [requested_eq]

@[simp]
theorem edges_requested : (c.requested now ids).edges = c.edges := by rw [requested_eq]

@[simp]
theorem sets_requested : (c.requested now ids).sets = c.sets := by rw [requested_eq]

theorem getElem?_pending_foldl {ids : List Id} (hnodup : ids.Nodup) {id : Id} :
    (ids.foldl (fun c id => c.request now id) c).pending[id.stored]? =
      if id ∈ ids then some (.again now c.pending[id.stored]?) else c.pending[id.stored]? := by
  induction ids generalizing c with
  | nil => simp
  | cons first ids ih =>
    obtain ⟨hfirst, hnodup⟩ := List.nodup_cons.1 hnodup
    rw [List.foldl_cons, ih hnodup, getElem?_pending_request]
    by_cases h : first = id
    · subst h
      simp [hfirst]
    · have hstored : first.stored ≠ id.stored := fun heq => h (Id.stored_injective heq)
      simp [hstored, Ne.symm h]

theorem getElem?_pending_requested {id : Id} :
    (c.requested now ids).pending[id.stored]? =
      if id ∈ ids then some (.again now c.pending[id.stored]?) else c.pending[id.stored]? := by
  simp only [requested, getElem?_pending_foldl ids.nodup_toList, Std.ExtTreeSet.mem_toList]

theorem getElem?_pending_requested_of_ne {column : Int} (h : ∀ id ∈ ids, id.stored ≠ column) :
    (c.requested now ids).pending[column]? = c.pending[column]? := by
  simp only [← Std.ExtTreeSet.mem_toList] at h
  unfold requested
  generalize ids.toList = list at h
  induction list generalizing c with
  | nil => rfl
  | cons first list ih =>
    rw [List.foldl_cons, ih fun id hid => h id (List.mem_cons_of_mem _ hid),
      getElem?_pending_request, if_neg (h first List.mem_cons_self)]

/-- Each of the ids has one more request in `c'` than in `c`, and all other rows are the same. -/
structure RequestedFor (now : Instant) (ids : IdSet) (c c' : Catalogue) : Prop where
  /-- A request that was not there is made now, in generation 0. -/
  made : ∀ id ∈ ids, c.pending[id.stored]? = none →
    ∃ t, now.nanos? = some t ∧ c'.pending[id.stored]? = some ⟨0, t⟩
  /-- A request that was there gets the next generation, and keeps its time. -/
  repeated : ∀ id ∈ ids, ∀ row, c.pending[id.stored]? = some row →
    c'.pending[id.stored]? = some ⟨row.generation + 1, row.requestedAt⟩
  kept : ∀ column, (∀ id ∈ ids, id.stored ≠ column) → c'.pending[column]? = c.pending[column]?

theorem requestedFor_requested {t : Instant} (ht : t.nanos? = some now) {base : Catalogue}
    (hpending : c.pending = base.pending) : base.RequestedFor t ids (c.requested now ids) where
  made id hid hnone := by
    refine ⟨now, ht, ?_⟩
    rw [getElem?_pending_requested, if_pos hid, hpending, hnone]
    rfl
  repeated id hid row hrow := by
    rw [getElem?_pending_requested, if_pos hid, hpending, hrow]
    rfl
  kept column hcolumn := by rw [getElem?_pending_requested_of_ne hcolumn, hpending]

/-! ### Reading -/

theorem requestOf_eq_ok {row : Int × RequestRow} {r : RefreshRequest}
    (h : requestOf row = .ok r) : row.1 = r.id.stored ∧ row.2.generation = r.generation := by
  obtain ⟨column, row⟩ := row
  unfold requestOf Id.ofStored at h
  cases hid : Id.ofStored? column with
  | none => rw [hid] at h; cases h
  | some id =>
    rw [hid] at h
    simp only [RequestRow.generation?] at h
    cases hfits : Word.fits row.generation with
    | false => rw [hfits] at h; cases h
    | true =>
      rw [hfits] at h
      cases h
      exact ⟨Id.ofStored?_eq_some_iff.1 hid, rfl⟩

theorem nodup_rows (table : Table RequestRow) : (table.toList.map Prod.fst).Nodup := by
  rw [List.nodup_iff_pairwise_ne, List.pairwise_map]
  exact table.distinct_keys_toList.imp fun h heq => h (Std.LawfulEqCmp.compare_eq_iff_eq.2 heq)

theorem map_fst_of_requestOf {rows : List (Int × RequestRow)} {batch : List RefreshRequest}
    (h : List.Forall₂ (fun row r => requestOf row = .ok r) rows batch) :
    rows.map Prod.fst = (batch.map RefreshRequest.id).map Id.stored := by
  induction h with
  | nil => rfl
  | cons hrow _ ih =>
    simp only [List.map_cons, ih, (requestOf_eq_ok hrow).1]

/-- What is read are rows of different ids, with the generations that they have. -/
theorem oldestRequests_spec {limit : Nat} {batch : List RefreshRequest}
    (h : c.oldestRequests limit = .ok batch) :
    (batch.map RefreshRequest.id).Nodup ∧
      ∀ r ∈ batch, ∃ row, c.pending[r.id.stored]? = some row ∧ row.generation = r.generation := by
  unfold oldestRequests at h
  have hsub : ∀ row ∈ (c.pending.toList.mergeSort byAge).take limit, row ∈ c.pending.toList :=
    fun row hrow => List.mem_mergeSort.1 (List.mem_of_mem_take hrow)
  -- Neither sorting nor cutting off lets a key occur twice.
  have hnodup : (((c.pending.toList.mergeSort byAge).take limit).map Prod.fst).Nodup := by
    refine List.Nodup.sublist ((List.take_sublist limit _).map Prod.fst) ?_
    exact ((List.mergeSort_perm _ _).map Prod.fst).nodup_iff.2 (nodup_rows c.pending)
  constructor
  · have hall := mapM_eq_ok_iff.1 h
    rw [map_fst_of_requestOf hall] at hnodup
    exact List.Nodup.of_map Id.stored hnodup
  · intro r hr
    obtain ⟨⟨column, row⟩, hrow, hof⟩ := (mem_of_mapM_eq_ok h).1 hr
    obtain ⟨rfl, hgeneration⟩ := requestOf_eq_ok hof
    exact ⟨row, Std.ExtTreeMap.mem_toList_iff_getElem?_eq_some.1 (hsub _ hrow), hgeneration⟩

/-- If nothing is read although something may be, there are no requests. -/
theorem pending_eq_empty_of_oldestRequests {limit : Nat} (h : c.oldestRequests limit = .ok [])
    (hlimit : 0 < limit) : c.pending = ∅ := by
  have hlength := (mapM_eq_ok_iff.1 h).length_eq
  rw [List.length_take, List.length_mergeSort, Std.ExtTreeMap.length_toList,
    List.length_nil] at hlength
  rw [Std.ExtTreeMap.eq_empty_iff_size_eq_zero]
  omega

/-! ### Completing -/

variable {r : RefreshRequest}

theorem withoutRequest_of_generation {row : RequestRow} (h : c.pending[r.id.stored]? = some row)
    (hgeneration : row.generation = r.generation) :
    c.withoutRequest r = (true, { c with pending := c.pending.erase r.id.stored }) := by
  simp only [withoutRequest, h, hgeneration, if_true]

theorem withoutRequest_of_no_generation
    (h : ∀ row, c.pending[r.id.stored]? = some row → row.generation ≠ r.generation) :
    c.withoutRequest r = (false, c) := by
  unfold withoutRequest
  split
  · rename_i row hrow
    rw [if_neg (h row hrow)]
  · rfl

theorem getElem?_pending_of_withoutRequest {column : Int} {row : RequestRow}
    (h : (c.withoutRequest r).2.pending[column]? = some row) : c.pending[column]? = some row := by
  unfold withoutRequest at h
  split at h
  · split at h
    · simp only [Std.ExtTreeMap.getElem?_erase] at h
      split at h
      · cases h
      · exact h
    · exact h
  · exact h

theorem withoutRequest_eq_true_iff :
    (c.withoutRequest r).1 = true ↔
      ∃ row, c.pending[r.id.stored]? = some row ∧ row.generation = r.generation := by
  constructor
  · intro h
    by_contra hno
    rw [withoutRequest_of_no_generation fun row hrow heq => hno ⟨row, hrow, heq⟩] at h
    cases h
  · rintro ⟨row, hrow, hgeneration⟩
    rw [withoutRequest_of_generation hrow hgeneration]

end Catalogue

/-! ### Calls -/

namespace Statements

variable {c : Catalogue} {E : Fault → Prop}

theorem storable_eq_ok {t : Instant} {nanos : Int} (h : t.storable = .ok nanos) :
    t.nanos? = some nanos := by
  unfold Instant.storable at h
  cases hn : t.nanos? with
  | none => rw [hn] at h; cases h
  | some n => rw [hn] at h; cases h; rfl

theorem storable_eq_error {t : Instant} {fault : Fault} (h : t.storable = .error fault) :
    t.nanos? = none ∧ fault = .invalidInput (.unstorable t) := by
  unfold Instant.storable at h
  cases hn : t.nanos? with
  | none => rw [hn] at h; cases h; exact ⟨rfl, rfl⟩
  | some n => rw [hn] at h; cases h

theorem ends_requestAll {now : Instant} {ids : IdSet} (hbroken : E .brokenStatement)
    (hnow : now.nanos? = none → E (.invalidInput (.unstorable now))) :
    Ends (requestAll now ids) c
      (fun _ c' => ∃ t, now.nanos? = some t ∧ c' = c.requested t ids) E := by
  unfold requestAll
  refine ends_lift_bind (fun fault h => ?_) fun t h => ?_
  · obtain ⟨hn, rfl⟩ := storable_eq_error h
    exact hnow hn
  · exact (ends_forM hbroken).imp fun _ c' hc => ⟨t, storable_eq_ok h, hc⟩

theorem ends_completeRequest {r : RefreshRequest} (hbroken : E .brokenStatement) :
    Ends (completeRequest r) c (fun removed c' => (removed, c') = c.withoutRequest r) E :=
  ends_statement hbroken rfl

end Statements

end MediaCatalogue
