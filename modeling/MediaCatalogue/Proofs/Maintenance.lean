import MediaCatalogue.Proofs.Labels
import MediaCatalogue.Proofs.Updates

/-!
# Writers and a refresher

Writers store records, tags and assertions at any time, and leave requests. A refresher reads a
batch of requests and serves one after the other: it brings the labels around the id of a request up
to date, and later completes the request. Between any two of its calls there may be writes, each of
its calls may fail, and it may forget its batch and start anew.

`Maintenance` are the tables together with what the refresher remembers, `Maintenance.act` is one
step and `Maintenance.run` several ones.

**Main theorem** (`Maintenance.Sound.act`): every step keeps the invariant `Maintenance.Sound`. It
says that every wrong row is awaited: some id of the *current* component of its id has a request
that the refresher has not served yet, or that was made again after it served it. Hence all rows are
right when no request is left (`Maintenance.Sound.materialised`).
-/

namespace MediaCatalogue

deriving instance DecidableEq for Catalogue

/-- Where the refresher is in its batch. -/
inductive Progress where
  /-- The requests that it has still to serve. -/
  | waiting (batch : List RefreshRequest)
  /-- It brought the labels around the id of one request up to date, and has to complete it. -/
  | refreshed (request : RefreshRequest) (rest : List RefreshRequest)
deriving DecidableEq

/-- The requests that the refresher has not completed. -/
def Progress.requests : Progress → List RefreshRequest
  | waiting batch => batch
  | refreshed request rest => request :: rest

/-- The calls of a refresher. -/
inductive RefreshCall where
  /-- It reads a batch, and forgets the last one. -/
  | read (limit : Nat)
  /-- It brings the labels of the next request up to date, if enough statements work. -/
  | refresh (working : Option Nat)
  /-- It completes the request that it served, if enough statements work. -/
  | complete (working : Option Nat)
  /-- It stops, and starts anew. -/
  | restart

/-- The tables, and what the refresher remembers. -/
structure Maintenance where
  /-- The tables. -/
  catalogue : Catalogue
  /-- Where the refresher is. -/
  progress : Progress
deriving DecidableEq

namespace Maintenance

/-- Nothing is stored, and nothing is to be done. -/
def start : Maintenance := ⟨.empty, .waiting []⟩

/-- One call of the refresher. -/
def refresh (s : Maintenance) : RefreshCall → Maintenance
  | .read limit =>
    match s.catalogue.oldestRequests limit with
    | .ok batch => { s with progress := .waiting batch }
    | .error _ => s
  | .refresh working =>
    match s.progress with
    | .waiting (request :: rest) =>
      match (MediaCatalogue.refresh request.id).perform working s.catalogue with
      | (.ok (), c) => ⟨c, .refreshed request rest⟩
      | (.error _, c) => ⟨c, .waiting rest⟩
    | _ => s
  | .complete working =>
    match s.progress with
    | .refreshed request rest =>
      ⟨((completeRequest request).perform working s.catalogue).2, .waiting rest⟩
    | _ => s
  | .restart => { s with progress := .waiting [] }

/-- An update is applied at the time `now`, if enough statements work. -/
def write (s : Maintenance) (now : Instant) (working : Option Nat) (update : EntityUpdate) :
    Maintenance :=
  { s with catalogue := (((Writers.stored now working).apply update).run s.catalogue).2 }

/-- A step of a writer or of the refresher. -/
inductive Action where
  /-- An update is applied. -/
  | write (now : Instant) (working : Option Nat) (update : EntityUpdate)
  /-- The refresher makes a call. -/
  | refresh (call : RefreshCall)

/-- One step. -/
def act (s : Maintenance) : Action → Maintenance
  | .write now working update => s.write now working update
  | .refresh call => s.refresh call

/-- Several steps, one after the other. -/
def run (actions : List Action) (s : Maintenance) : Maintenance := actions.foldl act s

/-! ### The invariant -/

/-- The id has a request, and that is not one which the refresher has served already. -/
def Awaits (s : Maintenance) (id : Id) : Prop :=
  ∃ row, s.catalogue.pending[id.stored]? = some row ∧
    ∀ request rest, s.progress = .refreshed request rest → request.id = id →
      row.generation ≠ request.generation

/-- The tables hold ids, the refresher remembers requests for different ids that are still in the
table, and every wrong row is awaited by an id of its component. -/
structure Sound (s : Maintenance) : Prop where
  holdsIds : s.catalogue.HoldsIds
  nodup : (s.progress.requests.map RefreshRequest.id).Nodup
  rows : ∀ request ∈ s.progress.requests, ∃ row,
    s.catalogue.pending[request.id.stored]? = some row ∧ request.generation ≤ row.generation
  awaited : ∀ x, ¬ s.catalogue.RightAt x →
    ∃ id, s.catalogue.edges.Connected x id ∧ s.Awaits id

theorem Sound.materialised {s : Maintenance} (h : s.Sound) (hpending : s.catalogue.pending = ∅) :
    s.catalogue.Materialised := by
  refine h.holdsIds.materialised fun x => ?_
  by_contra hwrong
  obtain ⟨id, _, row, hrow, _⟩ := h.awaited x hwrong
  rw [hpending] at hrow
  simp at hrow

theorem sound_start : start.Sound where
  holdsIds := ⟨fun e he => by simp [start, Catalogue.empty] at he,
    fun column label hrow => by simp [start, Catalogue.empty] at hrow⟩
  nodup := List.nodup_nil
  rows request hrequest := by cases hrequest
  awaited x hwrong := by
    refine absurd (fun label => ?_) hwrong
    have halone : ∀ y, start.catalogue.edges.Connected x y → y = x := by
      refine fun y hy => hy.kept (P := (· = x)) (fun a b hlink _ => ?_) rfl
      simp [EdgeSet.Linked, start, Catalogue.empty] at hlink
    simp only [start, Catalogue.empty, Std.ExtTreeMap.getElem?_empty, reduceCtorEq, false_iff]
    rintro ⟨l, _, hl⟩
    obtain ⟨y, hy, hne⟩ := hl.shared
    exact hne (halone y hy)

/-! ### Writers -/

section

variable {s : Maintenance} {c : Catalogue} {ids : IdSet} {t : Int}

theorem Sound.awaits_of_mem (h : s.Sound) (hpending : c.pending = s.catalogue.pending) {id : Id}
    (hid : id ∈ ids) : Awaits { s with catalogue := c.requested t ids } id := by
  refine ⟨.again t s.catalogue.pending[id.stored]?, ?_, ?_⟩
  · rw [Catalogue.getElem?_pending_requested, if_pos hid, hpending]
  · intro request rest hprogress hrequest
    have hmem : request ∈ s.progress.requests := by
      rw [show s.progress = .refreshed request rest from hprogress]
      exact List.mem_cons_self
    obtain ⟨row, hrow, hle⟩ := h.rows request hmem
    rw [← hrequest, hrow]
    simp only [RequestRow.again]
    omega

theorem Awaits.of_not_mem (hpending : c.pending = s.catalogue.pending) {id : Id} (hid : id ∉ ids)
    (h : s.Awaits id) : Awaits { s with catalogue := c.requested t ids } id := by
  obtain ⟨row, hrow, hserved⟩ := h
  refine ⟨row, ?_, hserved⟩
  rw [Catalogue.getElem?_pending_requested, if_neg hid, hpending, hrow]

/-- A write that requests all ids whose links it changes keeps the invariant. -/
theorem Sound.touch (h : s.Sound) (hedges : c.edges.HoldsIds) (hsets : c.sets = s.catalogue.sets)
    (hpending : c.pending = s.catalogue.pending)
    (hlinks : ∀ x y, x ∉ ids → (s.catalogue.edges.Linked x y ↔ c.edges.Linked x y)) :
    Sound { s with catalogue := c.requested t ids } where
  holdsIds := by
    refine ⟨?_, ?_⟩
    · rw [Catalogue.edges_requested]
      exact hedges
    · rw [Catalogue.sets_requested, hsets]
      exact h.holdsIds.sets
  nodup := h.nodup
  rows request hrequest := by
    obtain ⟨row, hrow, hle⟩ := h.rows request hrequest
    rw [Catalogue.getElem?_pending_requested, hpending, hrow]
    split
    · exact ⟨_, rfl, by simp only [RequestRow.again]; omega⟩
    · exact ⟨row, rfl, hle⟩
  awaited x hwrong := by
    rw [Catalogue.requested_eq] at hwrong
    simp only [Catalogue.edges_requested]
    -- Either a requested id is connected now, or no link in the component of `x` has changed.
    by_cases hnear : ∃ id, c.edges.Connected x id ∧ id ∈ ids
    · obtain ⟨id, hconnected, hid⟩ := hnear
      exact ⟨id, hconnected, h.awaits_of_mem hpending hid⟩
    · have hfar : ∀ y, c.edges.Connected x y → y ∉ ids := fun y hy hid => hnear ⟨y, hy, hid⟩
      have hsame : ∀ y, s.catalogue.edges.Connected x y ↔ c.edges.Connected x y :=
        fun y => EdgeSet.connected_of_untouched hlinks hfar
      have hwrong' : ¬ s.catalogue.RightAt x := fun hright => hwrong (hright.of_same hsets hsame)
      obtain ⟨id, hconnected, hawaits⟩ := h.awaited x hwrong'
      have hconnected' := (hsame id).1 hconnected
      exact ⟨id, hconnected', hawaits.of_not_mem hpending (hfar id hconnected')⟩

end

theorem Sound.written {s : Maintenance} (h : s.Sound) {now : Instant} {update : EntityUpdate}
    {outcome : Outcome} {c : Catalogue} (hwritten : update.Written now s.catalogue outcome c) :
    Sound { s with catalogue := c } := by
  cases hwritten with
  | content hcontent =>
    cases hcontent with
    | applied => exact h.touch h.holdsIds.edges rfl rfl fun _ _ _ => Iff.rfl
    | stale => exact h
  | topic htopic =>
    cases htopic with
    | applied =>
      rw [← Catalogue.requested_empty 0 (Topic.store _ _ _)]
      exact h.touch h.holdsIds.edges rfl rfl fun _ _ _ => Iff.rfl
    | stale => exact h
  | equivalence hequivalence =>
    cases hequivalence with
    | applied hnanos hnewer hprevious ht =>
      exact h.touch h.holdsIds.edges.replace rfl rfl fun x y hx =>
        EquivalenceUpdate.linked_store_iff hprevious hx
    | stale => exact h

theorem Sound.write {s : Maintenance} (h : s.Sound) (now : Instant) (working : Option Nat)
    (update : EntityUpdate) : (s.write now working update).Sound := by
  unfold Maintenance.write
  rcases Writers.apply_stored now working update s.catalogue with
    ⟨outcome, _, hwritten⟩ | ⟨fault, _, _, hsame⟩
  · exact h.written hwritten
  · rw [hsame]
    exact h

/-! ### The refresher -/

/-- What a call of the refresher can do. -/
inductive Served (s : Maintenance) : Maintenance → Prop
  /-- Nothing. -/
  | idle : Served s s
  /-- It reads a batch. -/
  | read {limit : Nat} {batch : List RefreshRequest}
    (hbatch : s.catalogue.oldestRequests limit = .ok batch) :
    Served s { s with progress := .waiting batch }
  /-- It brings the labels around the id of its next request up to date. -/
  | refreshed {request : RefreshRequest} {rest : List RefreshRequest} {c : Catalogue}
    (hprogress : s.progress = .waiting (request :: rest))
    (hc : s.catalogue.Relabelled (s.catalogue.SharesLabel request.id) c) :
    Served s ⟨c, .refreshed request rest⟩
  /-- It completes the request that it served. -/
  | completed {request : RefreshRequest} {rest : List RefreshRequest}
    (hprogress : s.progress = .refreshed request rest) :
    Served s ⟨(s.catalogue.withoutRequest request).2, .waiting rest⟩
  /-- It goes on with some of its requests. -/
  | forgot {batch : List RefreshRequest} (hsub : batch.Sublist s.progress.requests) :
    Served s { s with progress := .waiting batch }

theorem Served.skipped {s : Maintenance} {request : RefreshRequest} {rest : List RefreshRequest}
    (hrequests : s.progress.requests = request :: rest) :
    s.Served { s with progress := .waiting rest } := by
  refine .forgot ?_
  rw [hrequests]
  exact List.sublist_cons_self request rest

theorem served_refresh {s : Maintenance} (h : s.catalogue.HoldsIds) (call : RefreshCall) :
    s.Served (s.refresh call) := by
  cases call with
  | read limit =>
    simp only [Maintenance.refresh]
    split
    · rename_i batch hbatch
      exact .read hbatch
    · exact .idle
  | refresh working =>
    simp only [Maintenance.refresh]
    split
    · rename_i request rest hprogress
      have hends := ends_refresh h request.id (E := fun _ => True) trivial
      split
      · rename_i c heq
        exact .refreshed hprogress (hends.of_perform_ok heq)
      · rename_i fault c heq
        -- A call that failed left the tables as they were.
        rw [(hends.of_perform_error heq).2]
        exact .skipped (by rw [hprogress]; rfl)
    · exact .idle
  | complete working =>
    simp only [Maintenance.refresh]
    split
    · rename_i request rest hprogress
      have hends := (Statements.ends_completeRequest (r := request) (E := fun _ => True)
        (c := s.catalogue) trivial).perform working
      obtain ⟨_, _, hc⟩ | ⟨_, _, _, hc⟩ := hends
      · rw [congrArg Prod.snd hc]
        exact .completed hprogress
      · rw [hc]
        exact .skipped (by rw [hprogress]; rfl)
    · exact .idle
  | restart => exact .forgot (List.nil_sublist _)

section

variable {s : Maintenance}

/-- Forgetting what was served, and all but some of the requests, keeps the invariant. -/
theorem Sound.forget (h : s.Sound) {batch : List RefreshRequest}
    (hsub : batch.Sublist s.progress.requests) : Sound { s with progress := .waiting batch } where
  holdsIds := h.holdsIds
  nodup := h.nodup.sublist (hsub.map RefreshRequest.id)
  rows request hrequest := h.rows request (hsub.subset hrequest)
  awaited x hwrong := by
    obtain ⟨id, hconnected, row, hrow, _⟩ := h.awaited x hwrong
    exact ⟨id, hconnected, row, hrow, fun _ _ hprogress => by cases hprogress⟩

theorem Sound.read (h : s.Sound) {limit : Nat} {batch : List RefreshRequest}
    (hbatch : s.catalogue.oldestRequests limit = .ok batch) :
    Sound { s with progress := .waiting batch } where
  holdsIds := h.holdsIds
  nodup := (Catalogue.oldestRequests_spec hbatch).1
  rows request hrequest := by
    obtain ⟨row, hrow, hgeneration⟩ := (Catalogue.oldestRequests_spec hbatch).2 request hrequest
    exact ⟨row, hrow, by omega⟩
  awaited x hwrong := by
    obtain ⟨id, hconnected, row, hrow, _⟩ := h.awaited x hwrong
    exact ⟨id, hconnected, row, hrow, fun _ _ hprogress => by cases hprogress⟩

/-- What is wrong after the labels around an id were brought up to date is awaited by another id. -/
theorem Sound.refreshed (h : s.Sound) {request : RefreshRequest} {rest : List RefreshRequest}
    (hprogress : s.progress = .waiting (request :: rest)) {c : Catalogue}
    (hc : s.catalogue.Relabelled (s.catalogue.SharesLabel request.id) c) :
    Sound ⟨c, .refreshed request rest⟩ where
  holdsIds := hc.holdsIds h.holdsIds
  nodup := by
    have hnodup := h.nodup
    rw [hprogress] at hnodup
    exact hnodup
  rows r hr := by
    have hrows := h.rows r
    rw [hprogress] at hrows
    rw [hc.pending_eq]
    exact hrows hr
  awaited x hwrong := by
    obtain ⟨hwrong, hfar⟩ := hc.of_not_rightAt hwrong
    obtain ⟨id, hconnected, row, hrow, _⟩ := h.awaited x hwrong
    refine ⟨id, hc.edges_eq ▸ hconnected, row, hc.pending_eq ▸ hrow, ?_⟩
    -- The id that was served is not connected to what is still wrong.
    intro r rest' hserved hid
    cases hserved
    refine absurd hconnected.symm ?_
    rw [← hid]
    exact hfar request.id (.inl rfl)

theorem Sound.completed (h : s.Sound) {request : RefreshRequest} {rest : List RefreshRequest}
    (hprogress : s.progress = .refreshed request rest) :
    Sound ⟨(s.catalogue.withoutRequest request).2, .waiting rest⟩ := by
  by_cases hremoved : ∃ row, s.catalogue.pending[request.id.stored]? = some row ∧
      row.generation = request.generation
  · obtain ⟨row, hrow, hgeneration⟩ := hremoved
    rw [Catalogue.withoutRequest_of_generation hrow hgeneration]
    have hnodup := h.nodup
    rw [hprogress] at hnodup
    obtain ⟨hfirst, hnodup⟩ := List.nodup_cons.1 hnodup
    refine ⟨⟨h.holdsIds.edges, h.holdsIds.sets⟩, hnodup, fun r hr => ?_, fun x hwrong => ?_⟩
    · have hrows := h.rows r (by rw [hprogress]; exact List.mem_cons_of_mem _ hr)
      have hne : request.id.stored ≠ r.id.stored := by
        intro heq
        rw [Id.stored_injective heq] at hfirst
        exact hfirst (List.mem_map_of_mem hr)
      simpa [Std.ExtTreeMap.getElem?_erase, hne] using hrows
    · obtain ⟨id, hconnected, row', hrow', hserved⟩ := h.awaited x hwrong
      -- Nobody awaits the request that is removed: it was served and not made again.
      have hne : request.id ≠ id := by
        rintro rfl
        rw [hrow] at hrow'
        cases hrow'
        exact hserved request rest hprogress rfl hgeneration
      have hstored : request.id.stored ≠ id.stored := fun heq => hne (Id.stored_injective heq)
      refine ⟨id, hconnected, row', ?_, fun _ _ hwaiting => by cases hwaiting⟩
      simpa [Std.ExtTreeMap.getElem?_erase, hstored] using hrow'
  · rw [Catalogue.withoutRequest_of_no_generation fun row hrow heq => hremoved ⟨row, hrow, heq⟩]
    refine h.forget ?_
    rw [hprogress]
    exact List.sublist_cons_self request rest

end

theorem Sound.refresh {s : Maintenance} (h : s.Sound) (call : RefreshCall) :
    (s.refresh call).Sound := by
  have hserved := served_refresh h.holdsIds call
  generalize s.refresh call = s' at hserved
  cases hserved with
  | idle => exact h
  | read hbatch => exact h.read hbatch
  | refreshed hprogress hc => exact h.refreshed hprogress hc
  | completed hprogress => exact h.completed hprogress
  | forgot hsub => exact h.forget hsub

/-- **Every step keeps the invariant.** -/
theorem Sound.act {s : Maintenance} (h : s.Sound) (action : Action) : (s.act action).Sound := by
  cases action with
  | write now working update => exact h.write now working update
  | refresh call => exact h.refresh call

theorem Sound.run {s : Maintenance} (h : s.Sound) (actions : List Action) :
    (run actions s).Sound := by
  induction actions generalizing s with
  | nil => exact h
  | cons action actions ih => exact ih (h.act action)

end Maintenance

end MediaCatalogue
