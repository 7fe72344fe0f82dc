import MediaCatalogue.Proofs.Requests

/-!
# When a completion removes a request

Clients make, read and complete requests in any order, and may complete a request long after they
read it, or again. The history of an id are the requests made for it and the removals of its row.

**Main theorem** (`RequestCall.complete_eq_true_iff`): a completion removes the row of its id in
exactly two cases. Nothing happened to the row since the request was read; or the row was removed
since, and was requested anew exactly as often as makes its generation the same again.

The second case loses requests (`RequestCall.completion_drops_new_request`): generations start anew
when a row is removed. It needs a second completion; as long as nobody else removes the row, a
completion removes it only if it was not requested again (`RequestCall.complete_of_sole_client`).
-/

namespace MediaCatalogue

open Statements

/-- A call of a client. -/
inductive RequestCall where
  /-- Ids are requested, if enough statements work. -/
  | request (now : Instant) (ids : IdSet) (working : Option Nat)
  /-- Requests are read. -/
  | read (limit : Nat)
  /-- A request is completed, if enough statements work. -/
  | complete (r : RefreshRequest) (working : Option Nat)

/-- Something that happens to the row of an id. -/
inductive RowEvent where
  /-- The id is requested. -/
  | made
  /-- The row is removed. -/
  | removed
deriving DecidableEq, Repr

/-- What a call that requests some ids does to the row of one id, by its result. -/
def RowEvent.ofRequest (id : Id) (ids : IdSet) : Except Fault Unit → List RowEvent
  | .ok () => if id ∈ ids then [made] else []
  | .error _ => []

/-- What the completion of a request does to the row of an id, by its result. -/
def RowEvent.ofCompletion (id : Id) (r : RefreshRequest) : Except Fault Bool → List RowEvent
  | .ok true => if r.id = id then [removed] else []
  | _ => []

namespace RequestCall

/-- The tables after a call. -/
def run (c : Catalogue) : RequestCall → Catalogue
  | request now ids working => ((requestAll now ids).perform working c).2
  | read _ => c
  | complete r working => ((completeRequest r).perform working c).2

/-- What a call does to the row of an id. -/
def events (id : Id) (c : Catalogue) : RequestCall → List RowEvent
  | request now ids working => RowEvent.ofRequest id ids ((requestAll now ids).perform working c).1
  | read _ => []
  | complete r working => RowEvent.ofCompletion id r ((completeRequest r).perform working c).1

/-- What some calls do to the row of an id. -/
def history (id : Id) : Catalogue → List RequestCall → List RowEvent
  | _, [] => []
  | c, call :: calls => call.events id c ++ history id (call.run c) calls

end RequestCall

/-! ### Generations -/

namespace RowEvent

/-- The generation in a row after an event. -/
def generation : Option Int → RowEvent → Option Int
  | none, made => some 0
  | some g, made => some (g + 1)
  | _, removed => none

@[simp]
theorem generation_removed (g : Option Int) : generation g removed = none := by
  cases g <;> rfl

theorem foldl_made_some (n : Nat) (g : Int) :
    (List.replicate n made).foldl generation (some g) = some (g + n) := by
  induction n generalizing g with
  | zero => simp
  | succ n ih =>
    rw [List.replicate_succ, List.foldl_cons, generation, ih]
    exact congrArg some (by omega)

theorem foldl_made_none (n : Nat) :
    (List.replicate (n + 1) made).foldl generation none = some (n : Int) := by
  rw [List.replicate_succ, List.foldl_cons, generation, foldl_made_some, Int.zero_add]

theorem exists_last_removed (events : List RowEvent) :
    ∃ n, events = List.replicate n made ∨
      ∃ earlier, events = earlier ++ removed :: List.replicate n made := by
  induction events with
  | nil => exact ⟨0, .inl rfl⟩
  | cons event events ih =>
    obtain ⟨n, rfl | ⟨earlier, rfl⟩⟩ := ih
    · cases event with
      | made => exact ⟨n + 1, .inl rfl⟩
      | removed => exact ⟨n, .inr ⟨[], rfl⟩⟩
    · exact ⟨n, .inr ⟨event :: earlier, rfl⟩⟩

/-- A row has its old generation again if nothing happened to it, or if it was removed and then
requested once more than the generation counts. -/
theorem foldl_generation_eq_iff {events : List RowEvent} {g : Int} :
    events.foldl generation (some g) = some g ↔
      events = [] ∨ ∃ (earlier : List RowEvent) (n : Nat), (n : Int) = g ∧
        events = earlier ++ removed :: List.replicate (n + 1) made := by
  constructor
  · intro h
    -- Requests after the last removal count from zero, so only they matter.
    obtain ⟨n, rfl | ⟨earlier, rfl⟩⟩ := exists_last_removed events
    · rw [foldl_made_some] at h
      have hn : n = 0 := by
        have := Option.some.inj h
        omega
      exact .inl (by rw [hn]; rfl)
    · rw [List.foldl_append, List.foldl_cons, generation_removed] at h
      cases n with
      | zero => cases h
      | succ n =>
        rw [foldl_made_none] at h
        exact .inr ⟨earlier, n, Option.some.inj h, rfl⟩
  · rintro (rfl | ⟨earlier, n, rfl, rfl⟩)
    · rfl
    · rw [List.foldl_append, List.foldl_cons, generation_removed, foldl_made_none]

end RowEvent

/-! ### Runs -/

namespace Catalogue

/-- The generation in the row of an id. -/
def generationOf (c : Catalogue) (id : Id) : Option Int :=
  c.pending[id.stored]?.map RequestRow.generation

theorem generationOf_requested {now : Int} {ids : IdSet} {c : Catalogue} {id : Id} (h : id ∈ ids) :
    (c.requested now ids).generationOf id = RowEvent.generation (c.generationOf id) .made := by
  rw [generationOf, getElem?_pending_requested, if_pos h, generationOf]
  cases c.pending[id.stored]? <;> rfl

theorem generationOf_requested_of_not_mem {now : Int} {ids : IdSet} {c : Catalogue} {id : Id}
    (h : id ∉ ids) : (c.requested now ids).generationOf id = c.generationOf id := by
  rw [generationOf, getElem?_pending_requested, if_neg h, generationOf]

theorem withoutRequest_eq_true_iff_generationOf {r : RefreshRequest} {c : Catalogue} :
    (c.withoutRequest r).1 = true ↔ c.generationOf r.id = some r.generation := by
  rw [withoutRequest_eq_true_iff, generationOf, Option.map_eq_some_iff]

theorem generationOf_withoutRequest {r : RefreshRequest} {c : Catalogue} {id : Id}
    (h : (c.withoutRequest r).1 = true) :
    (c.withoutRequest r).2.generationOf id = if r.id = id then none else c.generationOf id := by
  obtain ⟨row, hrow, hgeneration⟩ := withoutRequest_eq_true_iff.1 h
  rw [withoutRequest_of_generation hrow hgeneration, generationOf, Std.ExtTreeMap.getElem?_erase]
  by_cases hid : r.id = id
  · subst hid
    simp
  · have hstored : r.id.stored ≠ id.stored := fun heq => hid (Id.stored_injective heq)
    simp [hid, hstored, generationOf]

theorem snd_withoutRequest_of_false {r : RefreshRequest} {c : Catalogue}
    (h : (c.withoutRequest r).1 = false) : (c.withoutRequest r).2 = c := by
  have hno : ∀ row, c.pending[r.id.stored]? = some row → row.generation ≠ r.generation := by
    intro row hrow hgeneration
    rw [withoutRequest_eq_true_iff.2 ⟨row, hrow, hgeneration⟩] at h
    cases h
  rw [withoutRequest_of_no_generation hno]

end Catalogue

namespace RequestCall

variable {c : Catalogue} {id : Id}

theorem generationOf_run (call : RequestCall) :
    (call.run c).generationOf id =
      (call.events id c).foldl RowEvent.generation (c.generationOf id) := by
  cases call with
  | read limit => rfl
  | request now ids working =>
    have hcall : Ends (requestAll now ids) c
        (fun _ c' => ∃ t, now.nanos? = some t ∧ c' = c.requested t ids) fun _ => True :=
      ends_requestAll trivial fun _ => trivial
    rcases hcall.perform working with ⟨_, hok, t, _, hc⟩ | ⟨fault, herror, _, hc⟩
    · rw [run, events, hok, hc, RowEvent.ofRequest]
      by_cases hid : id ∈ ids
      · rw [Catalogue.generationOf_requested hid]
        simp only [hid, if_true, List.foldl_cons, List.foldl_nil]
      · rw [Catalogue.generationOf_requested_of_not_mem hid]
        simp only [hid, if_false, List.foldl_nil]
    · rw [run, events, herror, hc]
      rfl
  | complete r working =>
    have hcall : Ends (completeRequest r) c (fun removed c' => (removed, c') = c.withoutRequest r)
        fun _ => True :=
      ends_completeRequest trivial
    rcases hcall.perform working with ⟨removed, hok, hc⟩ | ⟨fault, herror, _, hc⟩
    · rw [run, events, hok, congrArg Prod.snd hc]
      cases hremoved : removed with
      | true =>
        rw [Catalogue.generationOf_withoutRequest (by rw [← hc, hremoved])]
        by_cases hid : r.id = id <;> simp [RowEvent.ofCompletion, hid]
      | false =>
        rw [Catalogue.snd_withoutRequest_of_false (by rw [← hc, hremoved])]
        rfl
    · rw [run, events, herror, hc]
      rfl

theorem generationOf_foldl_run (calls : List RequestCall) (c : Catalogue) :
    (calls.foldl run c).generationOf id =
      (history id c calls).foldl RowEvent.generation (c.generationOf id) := by
  induction calls generalizing c with
  | nil => rfl
  | cons call calls ih => rw [List.foldl_cons, ih, history, List.foldl_append, generationOf_run]

theorem completeRequest_perform {r : RefreshRequest} (working : Option Nat) :
    ((completeRequest r).perform working c).1 = .ok true ↔
      working ≠ some 0 ∧ (c.withoutRequest r).1 = true := by
  have hok : ∀ working, working ≠ some 0 →
      ((completeRequest r).perform working c).1 = .ok (c.withoutRequest r).1 := by
    intro working hworking
    rcases working with _ | _ | n
    · rfl
    · exact absurd rfl hworking
    · rfl
  by_cases hworking : working = some 0
  · subst hworking
    constructor
    · intro h
      cases h
    · intro h
      exact absurd rfl h.1
  · rw [hok working hworking, Except.ok.injEq]
    exact ⟨fun h => ⟨hworking, h⟩, fun h => h.2⟩

/-- A completion removes a request if the events since it was read lead back to its generation. -/
theorem complete_iff_generation {limit : Nat} {batch : List RefreshRequest} {r : RefreshRequest}
    (hread : c.oldestRequests limit = .ok batch) (hr : r ∈ batch) (calls : List RequestCall)
    (working : Option Nat) :
    ((completeRequest r).perform working (calls.foldl run c)).1 = .ok true ↔
      working ≠ some 0 ∧
        (history r.id c calls).foldl RowEvent.generation (some r.generation) =
          some r.generation := by
  obtain ⟨row, hrow, hgeneration⟩ := (Catalogue.oldestRequests_spec hread).2 r hr
  have hstart : c.generationOf r.id = some r.generation := by
    rw [Catalogue.generationOf, hrow, ← hgeneration]
    rfl
  rw [completeRequest_perform, Catalogue.withoutRequest_eq_true_iff_generationOf,
    generationOf_foldl_run, hstart]

/-- **When a completion removes a request.** It was read, then other calls were made by anybody.
The completion removes the row of its id if nothing happened to the row, or if it was removed and
requested anew once more than the generation counts. -/
theorem complete_eq_true_iff {limit : Nat} {batch : List RefreshRequest} {r : RefreshRequest}
    (hread : c.oldestRequests limit = .ok batch) (hr : r ∈ batch) (calls : List RequestCall)
    (working : Option Nat) :
    ((completeRequest r).perform working (calls.foldl run c)).1 = .ok true ↔
      working ≠ some 0 ∧ (history r.id c calls = [] ∨ ∃ (earlier : List RowEvent) (n : Nat),
        (n : Int) = r.generation ∧
          history r.id c calls = earlier ++ .removed :: List.replicate (n + 1) .made) := by
  rw [complete_iff_generation hread hr, RowEvent.foldl_generation_eq_iff]

/-- As long as nobody else removes the row, a completion removes it only if the id was not requested
again. -/
theorem complete_of_sole_client {limit : Nat} {batch : List RefreshRequest} {r : RefreshRequest}
    (hread : c.oldestRequests limit = .ok batch) (hr : r ∈ batch) {calls : List RequestCall}
    (hsole : .removed ∉ history r.id c calls) (working : Option Nat) :
    ((completeRequest r).perform working (calls.foldl run c)).1 = .ok true ↔
      working ≠ some 0 ∧ .made ∉ history r.id c calls := by
  rw [complete_iff_generation hread hr, RowEvent.foldl_generation_eq_iff]
  refine and_congr_right fun _ => ?_
  constructor
  · rintro (hnil | ⟨earlier, n, _, heq⟩)
    · simp [hnil]
    · exact absurd (by simp [heq]) hsole
  · intro hmade
    refine .inl (List.eq_nil_iff_forall_not_mem.2 fun event hevent => ?_)
    cases event with
    | made => exact hmade hevent
    | removed => exact hsole hevent

/-! ### A request that is lost -/

/-- The request of an id that was requested once. -/
def firstRequest : RefreshRequest := ⟨5, 0⟩

/-- The tables with that request. -/
def requestedOnce : Catalogue :=
  run .empty (.request (.ofNanos 1) (IdSet.ofList [firstRequest.id]) none)

/-- The request is completed, and its id is requested again. -/
def completedAndRequested : List RequestCall :=
  [.complete firstRequest none, .request (.ofNanos 2) (IdSet.ofList [firstRequest.id]) none]

theorem oldestRequests_requestedOnce :
    requestedOnce.oldestRequests 10 = .ok [firstRequest] := by
  have hrows : requestedOnce.pending.toList = [(5, ⟨0, 1⟩)] := by decide +kernel
  rw [Catalogue.oldestRequests, hrows, List.mergeSort_singleton]
  rfl

theorem history_completedAndRequested :
    history firstRequest.id requestedOnce completedAndRequested = [.removed, .made] := by
  decide +kernel

theorem complete_eq_true_after_removal :
    requestedOnce.oldestRequests 10 = .ok [firstRequest] ∧ firstRequest ∈ [firstRequest] ∧
      (((completeRequest firstRequest).perform none
          (completedAndRequested.foldl run requestedOnce)).1 = .ok true ↔
        (none : Option Nat) ≠ some 0 ∧
          (history firstRequest.id requestedOnce completedAndRequested = [] ∨
            ∃ (earlier : List RowEvent) (n : Nat), (n : Int) = firstRequest.generation ∧
              history firstRequest.id requestedOnce completedAndRequested =
                earlier ++ .removed :: List.replicate (n + 1) .made)) :=
  ⟨oldestRequests_requestedOnce, List.mem_singleton_self _,
    complete_eq_true_iff oldestRequests_requestedOnce (List.mem_singleton_self _)
      completedAndRequested none⟩

/-- **A completion can remove a request that was made after its own was read.** -/
theorem completion_drops_new_request :
    ¬ ∀ (c : Catalogue) (limit : Nat) (batch : List RefreshRequest) (r : RefreshRequest)
      (calls : List RequestCall), c.oldestRequests limit = .ok batch → r ∈ batch →
      ((completeRequest r).perform none (calls.foldl run c)).1 = .ok true →
      .made ∉ history r.id c calls := by
  intro h
  have hdropped : ((completeRequest firstRequest).perform none
      (completedAndRequested.foldl run requestedOnce)).1 = .ok true := rfl
  refine h _ _ _ firstRequest completedAndRequested oldestRequests_requestedOnce
    (List.mem_singleton_self _) hdropped ?_
  rw [history_completedAndRequested]
  exact List.mem_cons_of_mem _ List.mem_cons_self

end RequestCall

end MediaCatalogue
