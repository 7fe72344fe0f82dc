import MediaCatalogue.Proofs.Passes
import MediaCatalogue.Proofs.Worker

/-!
# No wake-up is lost

Writers and a refresher share the tables. A writer first commits what it stores, requests included,
and only then wakes the refresher. The refresher reads a batch, brings the labels around the id of
each request up to date, completes the request, and parks when a batch was empty. Any of these calls
may fail, and between any two of them others may take their turns: `SharedProcess.act` is one turn.
A permit is all that the refresher keeps of the times it was woken. Nothing but the permit lets it
go on once it is parked.

**Main theorem** (`SharedProcess.no_lost_wakeup`): whenever the refresher is parked without a
permit, the writer that was the last one to request a row has not woken it yet. The invariant
(`SharedProcess.Watchful`) says this also of a refresher whose batch was empty and that is about to
park.

The turns of a refresher are the steps of `Refresher.step`, cut between the two calls for a request
(`SharedProcess.step_eq_advance`), and those of a writer are what a worker does with a message, cut
between the commit and the wake-up (`SharedProcess.turns_of_process`).
-/

namespace MediaCatalogue

open Statements

/-! ### A refresher on the tables -/

/-- Reads the oldest requests. -/
def readRequests (limit : Nat) : Statements (List RefreshRequest) := do
  let batch ← query (Catalogue.oldestRequests limit)
  batch

/-- The services of a refresher on the tables, if `working` statements of a call work. -/
def RefreshServices.stored (working : Option Nat) : RefreshServices Catalogue where
  pending limit := Writers.access working (readRequests limit)
  refresh id := Writers.access working (MediaCatalogue.refresh id)
  complete request := Writers.access working (completeRequest request)

theorem Statements.Ends.run_access {α : Type} {call : Statements α} {c : Catalogue}
    {Q : α → Catalogue → Prop} {E : Fault → Prop} (h : Ends call c Q E) (working : Option Nat) :
    (∃ a c', (Writers.access working call).run c = (.ok a, c') ∧ Q a c') ∨
      ∃ fault, (Writers.access working call).run c = (.error fault, c) ∧ E fault := by
  rw [Writers.run_access]
  rcases h.perform working with ⟨a, ha, hQ⟩ | ⟨fault, hfault, hE, hc⟩
  · exact .inl ⟨a, _, Prod.ext ha rfl, hQ⟩
  · exact .inr ⟨fault, Prod.ext hfault hc, hE⟩

namespace Catalogue

variable {c c' : Catalogue}

theorem pending_of_labelFrom {links : Links} {seeds : List Id} {visited : IdSet}
    (h : labelFrom links seeds visited c = .ok c') : c'.pending = c.pending := by
  induction seeds generalizing visited c with
  | nil =>
    cases h
    rfl
  | cons seed rest ih =>
    unfold labelFrom at h
    split at h
    · exact ih h
    · obtain ⟨members, _, hrest⟩ := of_bind_eq_ok h
      rw [ih hrest, labelComponent_eq]

theorem pending_of_refreshed {id : Id} (h : refreshed id c = .ok c') : c'.pending = c.pending := by
  obtain ⟨_, _, hlabel⟩ := of_bind_eq_ok h
  exact pending_of_labelFrom hlabel

theorem ends_readRequests (limit : Nat) :
    Ends (readRequests limit) c (fun batch c' => c' = c ∧ c.oldestRequests limit = .ok batch)
      fun _ => True := by
  unfold readRequests
  refine ends_statement_bind trivial ?_
  exact ends_lift (fun _ _ => trivial) fun batch h => ⟨rfl, h⟩

theorem ends_refresh_pending (id : Id) :
    Ends (MediaCatalogue.refresh id) c (fun _ c' => c'.pending = c.pending) fun _ => True := by
  unfold MediaCatalogue.refresh
  refine ends_update_bind trivial (ends_statement_bind trivial ?_)
  refine ends_lift_bind (fun _ _ => trivial) fun c' h => ?_
  exact ends_update_bind trivial (ends_mark trivial (pending_of_refreshed h))

end Catalogue

/-! ### Writers and a refresher in one process -/

/-- Requests that a writer committed. -/
structure Notice where
  /-- The ids that were requested. -/
  refresh : IdSet
  /-- The writer has woken the refresher since then. -/
  announced : Bool

/-- The requests that a writer has to announce. -/
def Outcome.notices : Outcome → List Notice
  | applied refresh => if refresh.isEmpty then [] else [⟨refresh, false⟩]
  | stale => []

/-- Writers and a refresher that share the tables. -/
structure SharedProcess where
  /-- The tables. -/
  catalogue : Catalogue
  /-- The refresher. -/
  refresher : Refresher.State
  /-- The labels around the id of the request that is being served are up to date. -/
  labelled : Bool
  /-- What writers committed so far, the last first. -/
  notices : List Notice

namespace SharedProcess

/-- The refresher starts on some tables, before any writer. -/
def start (settings : RefreshSettings) (c : Catalogue) : SharedProcess :=
  ⟨c, .initial settings, false, []⟩

/-- The writer that was the last one to request an id. Rows of requests are made and changed by
writers only, so if the id has a row, this writer made it or raised its generation. -/
def requester (s : SharedProcess) (id : Id) : Option Notice :=
  s.notices.find? (·.refresh.contains id)

/-- A writer applies an update at the time `now`, if enough statements work. -/
def store (now : Instant) (working : Option Nat) (update : EntityUpdate) (s : SharedProcess) :
    SharedProcess :=
  match ((Writers.stored now working).apply update).run s.catalogue with
  | (.ok outcome, catalogue) => { s with catalogue, notices := outcome.notices ++ s.notices }
  | (.error _, catalogue) => { s with catalogue }

/-- The writer of a notice wakes the refresher, unless it did so before. -/
def wake (n : Nat) (s : SharedProcess) : SharedProcess :=
  match s.notices[n]? with
  | some ⟨refresh, false⟩ =>
    { s with refresher := s.refresher.wake, notices := s.notices.set n ⟨refresh, true⟩ }
  | _ => s

/-- The refresher brings the labels around the id of its next request up to date, or skips the
request if that fails. -/
def relabel (working : Option Nat) (request : RefreshRequest) (rest : List RefreshRequest)
    (pass : Pass) (s : SharedProcess) : SharedProcess :=
  match ((RefreshServices.stored working).refresh request.id).run s.catalogue with
  | (.ok (), catalogue) => { s with catalogue, labelled := true }
  | (.error _, catalogue) =>
    { s with
      catalogue
      refresher := { s.refresher with phase := .serving rest (pass.count true) } }

/-- The refresher completes its next request after that, or ends the pass if this fails. -/
def complete (settings : RefreshSettings) (working : Option Nat) (request : RefreshRequest)
    (rest : List RefreshRequest) (pass : Pass) (s : SharedProcess) : SharedProcess :=
  match ((RefreshServices.stored working).complete request).run s.catalogue with
  | (.ok _, catalogue) =>
    { s with
      catalogue, labelled := false
      refresher := { s.refresher with phase := .serving rest pass } }
  | (.error fault, catalogue) =>
    { s with
      catalogue, labelled := false
      refresher := s.refresher.endPass settings (.error fault) }

/-- The refresher makes a whole step. -/
def step (settings : RefreshSettings) (working : Option Nat) (s : SharedProcess) : SharedProcess :=
  match (Refresher.step (.stored working) settings s.refresher).run s.catalogue with
  | (refresher, catalogue) => { s with catalogue, refresher }

/-- The refresher makes its next call, if enough statements work. It serves a request by two
calls. -/
def advance (settings : RefreshSettings) (working : Option Nat) (s : SharedProcess) :
    SharedProcess :=
  match s.refresher.phase with
  | .serving (request :: rest) pass =>
    if s.labelled then s.complete settings working request rest pass
    else s.relabel working request rest pass
  | _ => s.step settings working

/-- Whose turn it is. -/
inductive Turn where
  /-- A writer applies an update. -/
  | store (now : Instant) (working : Option Nat) (update : EntityUpdate)
  /-- The writer of a notice wakes the refresher. -/
  | wake (n : Nat)
  /-- The refresher makes a call. -/
  | advance (working : Option Nat)

/-- One turn. -/
def act (settings : RefreshSettings) (s : SharedProcess) : Turn → SharedProcess
  | .store now working update => s.store now working update
  | .wake n => s.wake n
  | .advance working => s.advance settings working

/-- Several turns, in any order. -/
def run (settings : RefreshSettings) (turns : List Turn) (s : SharedProcess) : SharedProcess :=
  turns.foldl (act settings) s

variable {settings : RefreshSettings} {s s' : SharedProcess}

/-! ### The program that takes the turns -/

/-- Serving a request is bringing labels up to date and, if that works, completing the request. -/
theorem step_eq_complete_relabel (working : Option Nat) (hlabelled : s.labelled = false)
    {request : RefreshRequest} {rest : List RefreshRequest} {pass : Pass}
    (hphase : s.refresher.phase = .serving (request :: rest) pass) :
    s.step settings working = s.relabel working request rest pass ∨
      ∃ c, s.relabel working request rest pass = { s with catalogue := c, labelled := true } ∧
        s.step settings working =
          (s.relabel working request rest pass).complete settings working request rest pass := by
  obtain ⟨tables, refresher, _, notices⟩ := s
  cases hlabelled
  -- The request is completed only if its labels were brought up to date.
  cases hrefresh : ((RefreshServices.stored working).refresh request.id).run tables with
  | mk result c =>
    cases result with
    | error fault =>
      left
      unfold step relabel
      rw [Refresher.run_step_serving hphase (Refresher.run_serve_of_error hrefresh), hrefresh]
    | ok =>
      right
      have hserve := Refresher.run_serve_of_ok hrefresh
      unfold relabel
      rw [hrefresh]
      refine ⟨c, rfl, ?_⟩
      unfold step complete
      rw [Refresher.run_step_serving hphase hserve]
      cases ((RefreshServices.stored working).complete request).run c with
      | mk result c' => cases result <;> rfl

/-- **A step of a refresher** is one call or two. -/
theorem step_eq_advance (settings : RefreshSettings) (working : Option Nat)
    (hlabelled : s.labelled = false) :
    s.step settings working = s.advance settings working ∨
      s.step settings working = (s.advance settings working).advance settings working := by
  by_cases hserving : ∃ request rest pass, s.refresher.phase = .serving (request :: rest) pass
  · obtain ⟨request, rest, pass, hphase⟩ := hserving
    have hfirst : s.advance settings working = s.relabel working request rest pass := by
      rw [advance, hphase]
      simp only [hlabelled, Bool.false_eq_true, if_false]
    -- If labels were brought up to date, the same request is still the first one.
    rw [hfirst]
    refine (step_eq_complete_relabel working hlabelled hphase).imp_right ?_
    rintro ⟨c, hrelabel, hstep⟩
    rw [hstep, hrelabel, advance, hphase]
    rfl
  · push Not at hserving
    left
    unfold advance
    split
    · rename_i request rest pass hphase
      exact absurd hphase (hserving request rest pass)
    · rfl

/-- An access to the tables that leaves the refresher alone. -/
def onTables {α : Type} (access : Access Catalogue α) : Access (Catalogue × Refresher.State) α :=
  ExceptT.mk fun (c, refresher) =>
    let (result, c) := access.run c
    (result, c, refresher)

/-- A worker that stores updates in the tables and wakes the refresher. -/
def worker (registry : Registry) (now : Instant) (working : Option Nat) :
    Worker (Catalogue × Refresher.State) where
  registry := registry
  writers :=
    have tables := Writers.stored now working
    { content := fun record => onTables (tables.content record)
      topic := fun tag => onTables (tables.topic tag)
      equivalence := fun update => onTables (tables.equivalence update) }
  wake := modify fun (c, refresher) => (c, refresher.wake)

theorem run_apply_worker (registry : Registry) (now : Instant) (working : Option Nat)
    (update : EntityUpdate) (c : Catalogue) (refresher : Refresher.State) :
    ((worker registry now working).writers.apply update).run (c, refresher) =
      ((((Writers.stored now working).apply update).run c).1,
        (((Writers.stored now working).apply update).run c).2, refresher) := by
  cases update with
  | content record =>
    rw [Writers.run_apply_content, Writers.run_apply_content]
    rfl
  | topic tag =>
    rw [Writers.run_apply_topic, Writers.run_apply_topic]
    rfl
  | equivalence u =>
    rw [Writers.run_apply_equivalence, Writers.run_apply_equivalence]
    rfl

theorem store_of_ok {now : Instant} {working : Option Nat} {update : EntityUpdate}
    {outcome : Outcome} {c : Catalogue}
    (h : ((Writers.stored now working).apply update).run s.catalogue = (.ok outcome, c)) :
    s.store now working update =
      { s with catalogue := c, notices := outcome.notices ++ s.notices } := by
  unfold store
  rw [h]

theorem store_of_error {now : Instant} {working : Option Nat} {update : EntityUpdate}
    {fault : Fault} {c : Catalogue}
    (h : ((Writers.stored now working).apply update).run s.catalogue = (.error fault, c)) :
    s.store now working update = { s with catalogue := c } := by
  unfold store
  rw [h]

theorem wake_zero {outcome : Outcome} (h : outcome.hasRequests = true) {c : Catalogue} :
    wake 0 { s with catalogue := c, notices := outcome.notices ++ s.notices } =
      { s with
        catalogue := c, refresher := s.refresher.wake
        notices := (outcome.notices ++ s.notices).modify 0 fun notice =>
          { notice with announced := true } } := by
  cases outcome with
  | applied refresh =>
    have hnotices : (Outcome.applied refresh).notices = [⟨refresh, false⟩] :=
      if_neg (by simpa [Outcome.hasRequests] using h)
    rw [hnotices]
    rfl
  | stale => cases h

/-- **What a worker does with a message** are turns of a writer: it applies the update that the
message asks for, if there is one, and then wakes the refresher if this left requests. -/
theorem turns_of_process (settings : RefreshSettings) (registry : Registry) (now : Instant)
    (working : Option Nat) (message : List UInt8) (s : SharedProcess) :
    ∃ turns, (turns = [] ∨ ∃ update, update.IsAsked registry message ∧
        (turns = [.store now working update] ∨ turns = [.store now working update, .wake 0])) ∧
      (((worker registry now working).process message).run (s.catalogue, s.refresher)).2 =
        ((s.run settings turns).catalogue, (s.run settings turns).refresher) := by
  cases hupdate : EntityUpdate.ofMessage registry message with
  | error error =>
    refine ⟨[], .inl rfl, ?_⟩
    rw [Worker.run_process_of_error (worker registry now working) hupdate]
    rfl
  | ok update =>
    have hasked := EntityUpdate.ofMessage_eq_ok_iff.1 hupdate
    have hworker := run_apply_worker registry now working update s.catalogue s.refresher
    cases happly : ((Writers.stored now working).apply update).run s.catalogue with
    | mk result c =>
      rw [happly] at hworker
      cases result with
      | error fault =>
        refine ⟨[.store now working update], .inr ⟨update, hasked, .inl rfl⟩, ?_⟩
        rw [Worker.run_process_of_fault (worker registry now working) hasked hworker]
        simp only [run, act, List.foldl_cons, List.foldl_nil, store_of_error happly]
      | ok outcome =>
        rw [Worker.run_process (worker registry now working) hasked hworker]
        -- The worker wakes the refresher only if the update left requests.
        cases hrequests : outcome.hasRequests with
        | false =>
          refine ⟨[.store now working update], .inr ⟨update, hasked, .inl rfl⟩, ?_⟩
          simp only [run, act, List.foldl_cons, List.foldl_nil, store_of_ok happly]
          rfl
        | true =>
          refine ⟨[.store now working update, .wake 0], .inr ⟨update, hasked, .inr rfl⟩, ?_⟩
          simp only [run, act, List.foldl_cons, List.foldl_nil, store_of_ok happly,
            wake_zero hrequests]
          rfl

/-! ### What a turn can do -/

/-- What a call of the refresher can do. -/
inductive Advanced (settings : RefreshSettings) (s : SharedProcess) : SharedProcess → Prop
  /-- It reads a batch. -/
  | read {batch : List RefreshRequest}
    (h : s.catalogue.oldestRequests settings.batchSize = .ok batch) :
    Advanced settings s
      { s with refresher := { s.refresher with phase := .serving batch ⟨batch.length, 0⟩ } }
  /-- It brings labels up to date. -/
  | labelled {c : Catalogue} (hpending : c.pending = s.catalogue.pending) :
    Advanced settings s { s with catalogue := c, labelled := true }
  /-- It completes a request. -/
  | completed {request : RefreshRequest} {rest : List RefreshRequest} {pass : Pass}
    (hphase : s.refresher.phase = .serving (request :: rest) pass) :
    Advanced settings s
      { s with
        catalogue := (s.catalogue.withoutRequest request).2, labelled := false
        refresher := { s.refresher with phase := .serving rest pass } }
  /-- It goes on with the next request. -/
  | skipped {request : RefreshRequest} {rest : List RefreshRequest} {pass : Pass}
    (hphase : s.refresher.phase = .serving (request :: rest) pass) :
    Advanced settings s
      { s with refresher := { s.refresher with phase := .serving rest (pass.count true) } }
  /-- It ends a pass after the last request. -/
  | ended {pass : Pass} (hphase : s.refresher.phase = .serving [] pass) :
    Advanced settings s { s with refresher := s.refresher.endPass settings (.ok pass) }
  /-- It ends a pass because a call failed. -/
  | broken (labelled : Bool) (fault : Fault) :
    Advanced settings s
      { s with labelled, refresher := s.refresher.endPass settings (.error fault) }
  /-- It begins the next pass. -/
  | resumed (permit : Bool) :
    Advanced settings s { s with refresher := { s.refresher with phase := .reading, permit } }
  /-- It stays parked. -/
  | stayed : Advanced settings s s

theorem advanced_relabel (working : Option Nat) {request : RefreshRequest}
    {rest : List RefreshRequest} {pass : Pass}
    (hphase : s.refresher.phase = .serving (request :: rest) pass) :
    Advanced settings s (s.relabel working request rest pass) := by
  unfold relabel RefreshServices.stored
  rcases (Catalogue.ends_refresh_pending request.id).run_access working with
    ⟨_, c, hrun, hpending⟩ | ⟨fault, hrun, _⟩
  · rw [hrun]
    exact .labelled hpending
  · rw [hrun]
    exact .skipped hphase

theorem advanced_complete (working : Option Nat) {request : RefreshRequest}
    {rest : List RefreshRequest} {pass : Pass}
    (hphase : s.refresher.phase = .serving (request :: rest) pass) :
    Advanced settings s (s.complete settings working request rest pass) := by
  have hends := ends_completeRequest (r := request) (c := s.catalogue) (E := fun _ => True) trivial
  unfold complete RefreshServices.stored
  rcases hends.run_access working with ⟨removed, c, hrun, hc⟩ | ⟨fault, hrun, _⟩
  · obtain rfl : c = (s.catalogue.withoutRequest request).2 := congrArg Prod.snd hc
    rw [hrun]
    exact .completed hphase
  · rw [hrun]
    exact .broken false fault

theorem advanced_step (working : Option Nat)
    (hphase : ∀ request rest pass, s.refresher.phase ≠ .serving (request :: rest) pass) :
    Advanced settings s (s.step settings working) := by
  unfold step
  cases hnow : s.refresher.phase with
  | reading =>
    rcases (Catalogue.ends_readRequests settings.batchSize).run_access working with
      ⟨batch, _, hrun, rfl, hbatch⟩ | ⟨fault, hrun, _⟩
    · rw [Refresher.run_step_reading hnow hrun]
      exact .read hbatch
    · rw [Refresher.run_step_reading hnow hrun]
      exact .broken s.labelled fault
  | serving rest pass =>
    cases rest with
    | nil =>
      rw [Refresher.run_step_served hnow]
      exact .ended hnow
    | cons request rest => exact absurd hnow (hphase request rest pass)
  | parked =>
    rw [Refresher.run_step_parked hnow]
    by_cases hpermit : s.refresher.permit = true
    · rw [if_pos hpermit]
      exact .resumed false
    · rw [if_neg hpermit]
      exact .stayed
  | waiting time =>
    rw [Refresher.run_step_waiting hnow]
    exact .resumed s.refresher.permit

/-- **A call of the refresher** does one of these things. -/
theorem advanced_advance (working : Option Nat) (s : SharedProcess) :
    Advanced settings s (s.advance settings working) := by
  unfold advance
  split
  · rename_i request rest pass hphase
    split
    · exact advanced_complete working hphase
    · exact advanced_relabel working hphase
  · rename_i hphase
    exact advanced_step working hphase

/-! ### The invariant -/

/-- The refresher found the queue empty: it is parked, or will be next. -/
def FoundEmpty (s : SharedProcess) : Prop :=
  match s.refresher.phase with
  | .parked => True
  | .serving _ pass => pass.taken = 0
  | _ => False

/-- The writer that was the last one to request the id of a row has not woken the refresher. -/
def AwaitsWakeup (s : SharedProcess) (column : Int) : Prop :=
  ∃ id notice, column = id.stored ∧ s.requester id = some notice ∧ notice.announced = false

/-- When the refresher found the queue empty and has no permit, all rows await a wake-up. -/
def Watchful (s : SharedProcess) : Prop :=
  s.FoundEmpty → s.refresher.permit = false →
    ∀ (column : Int) (row : RequestRow), s.catalogue.pending[column]? = some row →
      s.AwaitsWakeup column

theorem watchful_start (settings : RefreshSettings) (c : Catalogue) :
    (start settings c).Watchful := fun hempty => hempty.elim

theorem AwaitsWakeup.of_notices_eq {column : Int} (h : s.AwaitsWakeup column)
    (hnotices : s'.notices = s.notices) : s'.AwaitsWakeup column := by
  unfold AwaitsWakeup requester
  rw [hnotices]
  exact h

theorem Watchful.of_rows (h : s.Watchful) (hempty : s'.FoundEmpty → s.FoundEmpty)
    (hpermit : s'.refresher.permit = s.refresher.permit) (hnotices : s'.notices = s.notices)
    (hrows : ∀ (column : Int) (row : RequestRow), s'.catalogue.pending[column]? = some row →
      s.catalogue.pending[column]? = some row) : s'.Watchful := by
  intro hempty' hpermit' column row hrow
  have hbefore := h (hempty hempty') (hpermit ▸ hpermit') column row (hrows column row hrow)
  exact hbefore.of_notices_eq hnotices

/-! ### Turns of the refresher -/

@[simp]
theorem taken_count (pass : Pass) (failed : Bool) : (pass.count failed).taken = pass.taken := by
  cases failed <;> rfl

theorem foundEmpty_of_endPass {pass : Pass}
    (h : FoundEmpty { s with refresher := s.refresher.endPass settings (.ok pass) }) :
    pass.taken = 0 := by
  obtain ⟨_ | taken, failed⟩ := pass
  · rfl
  · cases failed with
    | zero => exact h.elim
    | succ failed => exact h.elim

theorem Watchful.advanced (h : s.Watchful) (hbatch : 0 < settings.batchSize)
    (hadvanced : Advanced settings s s') : s'.Watchful := by
  cases hadvanced with
  | @read batch hread =>
    intro hempty _ column row hrow
    -- An empty batch is the only one after which the refresher parks, and then there are no rows.
    obtain rfl : batch = [] := List.eq_nil_of_length_eq_zero hempty
    have hnone := Catalogue.pending_eq_empty_of_oldestRequests hread hbatch
    rw [hnone] at hrow
    cases hrow
  | labelled hpending => exact h.of_rows id rfl rfl fun column row hrow => hpending ▸ hrow
  | completed hphase =>
    refine h.of_rows (fun hempty => ?_) rfl rfl fun column row hrow =>
      Catalogue.getElem?_pending_of_withoutRequest hrow
    simpa only [FoundEmpty, hphase] using hempty
  | @skipped _ _ pass hphase =>
    refine h.of_rows (fun hempty => ?_) rfl rfl fun column row hrow => hrow
    simpa only [FoundEmpty, hphase, taken_count] using hempty
  | ended hphase =>
    refine h.of_rows (fun hempty => ?_) rfl rfl fun column row hrow => hrow
    simpa only [FoundEmpty, hphase] using foundEmpty_of_endPass hempty
  | broken labelled fault => exact fun hempty => hempty.elim
  | resumed permit => exact fun hempty => hempty.elim
  | stayed => exact h

/-! ### Turns of writers -/

theorem AwaitsWakeup.cons_of_mem {refresh : IdSet} {id : Id} (hid : id ∈ refresh)
    (hnotices : s'.notices = ⟨refresh, false⟩ :: s.notices) : s'.AwaitsWakeup id.stored := by
  refine ⟨id, ⟨refresh, false⟩, rfl, ?_, rfl⟩
  rw [requester, hnotices, List.find?_cons_of_pos]
  exact Std.ExtTreeSet.mem_iff_contains.1 hid

theorem AwaitsWakeup.cons_of_not_mem {notice : Notice} {column : Int} (h : s.AwaitsWakeup column)
    (hcolumn : ∀ id ∈ notice.refresh, id.stored ≠ column)
    (hnotices : s'.notices = notice :: s.notices) : s'.AwaitsWakeup column := by
  obtain ⟨id, earlier, rfl, hrequester, hannounced⟩ := h
  refine ⟨id, earlier, rfl, ?_, hannounced⟩
  rw [requester, hnotices, List.find?_cons_of_neg]
  · exact hrequester
  · exact fun hid => hcolumn id (Std.ExtTreeSet.mem_iff_contains.2 hid) rfl

/-- A writer that commits requests makes their rows await its wake-up. -/
theorem Watchful.commit (h : s.Watchful) {now : Instant} {refresh : IdSet} {c : Catalogue}
    (hrequested : s.catalogue.RequestedFor now refresh c) :
    Watchful { s with catalogue := c, notices := ⟨refresh, false⟩ :: s.notices } := by
  intro hempty hpermit column row hrow
  -- A row that is requested now gets another requester, who has not woken the refresher.
  by_cases hcolumn : ∃ id ∈ refresh, id.stored = column
  · obtain ⟨id, hid, rfl⟩ := hcolumn
    exact .cons_of_mem hid rfl
  · push Not at hcolumn
    rw [hrequested.kept column hcolumn] at hrow
    exact (h hempty hpermit column row hrow).cons_of_not_mem hcolumn rfl

theorem Watchful.written (h : s.Watchful) {now : Instant} {update : EntityUpdate}
    {outcome : Outcome} {c : Catalogue} (hwritten : update.Written now s.catalogue outcome c) :
    Watchful { s with catalogue := c, notices := outcome.notices ++ s.notices } := by
  have hrequests := Writers.requests_of_written hwritten
  cases outcome with
  | applied refresh =>
    -- A writer without requests will not wake the refresher, and has changed no row.
    by_cases hnone : refresh.isEmpty = true
    · have hnotices : (Outcome.applied refresh).notices = [] := if_pos hnone
      rw [hnotices]
      cases Std.ExtTreeSet.isEmpty_iff.1 hnone
      refine h.of_rows id rfl rfl fun column row hrow => ?_
      rwa [← hrequests.2.kept column fun id hid => absurd hid Std.ExtTreeSet.not_mem_empty]
    · have hnotices : (Outcome.applied refresh).notices = [⟨refresh, false⟩] := if_neg hnone
      rw [hnotices]
      exact h.commit hrequests.2
  | stale => exact h.of_rows id rfl rfl fun column row hrow => hrequests ▸ hrow

theorem Watchful.store (h : s.Watchful) (now : Instant) (working : Option Nat)
    (update : EntityUpdate) : (s.store now working update).Watchful := by
  rcases Writers.apply_stored now working update s.catalogue with
    ⟨outcome, hok, hwritten⟩ | ⟨fault, herror, _, hsame⟩
  · rw [store_of_ok (Prod.ext hok rfl)]
    exact h.written hwritten
  · rw [store_of_error (Prod.ext herror hsame)]
    exact h

/-- A permit is there after every wake-up. -/
theorem Watchful.wake (h : s.Watchful) (n : Nat) : (s.wake n).Watchful := by
  unfold SharedProcess.wake
  split
  · intro _ hpermit
    cases hpermit
  · exact h

/-! ### Runs -/

/-- **Every turn keeps the invariant.** -/
theorem Watchful.act (h : s.Watchful) (hbatch : 0 < settings.batchSize) (turn : Turn) :
    (s.act settings turn).Watchful := by
  cases turn with
  | store now working update => exact h.store now working update
  | wake n => exact h.wake n
  | advance working => exact h.advanced hbatch (advanced_advance working s)

theorem Watchful.run (h : s.Watchful) (hbatch : 0 < settings.batchSize) (turns : List Turn) :
    (s.run settings turns).Watchful := by
  induction turns generalizing s with
  | nil => exact h
  | cons turn turns ih => exact ih (h.act hbatch turn)

/-- **No wake-up is lost.** Writers and a refresher take turns in any order, from any tables, and
whichever of their calls fail. Whenever the refresher is parked without a permit, every row of the
queue was last requested by a writer that has not woken the refresher yet. If batches could hold no
request, an empty one would say nothing of the queue. -/
theorem no_lost_wakeup (settings : WorkingSettings) (c : Catalogue) (turns : List Turn) :
    have s := (start settings.toRefreshSettings c).run settings.toRefreshSettings turns
    s.refresher.isParked = true → ∀ (column : Int) (row : RequestRow),
      s.catalogue.pending[column]? = some row →
        ∃ id notice, column = id.stored ∧ s.requester id = some notice ∧
          notice.announced = false := by
  intro s hparked
  have hwatchful : s.Watchful := (watchful_start _ c).run settings.batchSize_pos turns
  have hempty : s.FoundEmpty ∧ s.refresher.permit = false := by
    unfold Refresher.State.isParked at hparked
    unfold FoundEmpty
    split at hparked
    · rename_i hphase
      rw [hphase]
      exact ⟨trivial, by simpa using hparked⟩
    · cases hparked
  exact hwatchful hempty.1 hempty.2

/-- A writer stores a record without details. -/
def storeRecord (id : Id) (nanos : Int) : Turn :=
  .store (.ofNanos nanos) none
    (.content ⟨id, ⟨"bbc", "GB", "BBC"⟩, .item, none, .ofNanos nanos, .null⟩)

/-- A writer wakes the refresher after it read an empty batch and before it parks. The request of
another one, for the same id, is made while that of the first one is served, and a third one commits
when a batch is empty again. -/
def race : List Turn :=
  [.advance none, storeRecord 5 1, .wake 0, .advance none, .advance none, .advance none,
   .advance none, storeRecord 5 2, .advance none, .advance none, .advance none, .advance none,
   .advance none, .advance none, .advance none, storeRecord 6 3, .advance none]

theorem isParked_race : ((start {} .empty).run {} race).refresher.isParked = true := by
  decide +kernel

theorem pending_race :
    ((start {} .empty).run {} race).catalogue.pending[(6 : Id).stored]? = some ⟨0, 3⟩ := by
  decide +kernel

/-- The refresher is parked, although it was not woken for the request of the last writer. -/
theorem no_lost_wakeup_of_race :
    have s := (start {} .empty).run {} race
    s.refresher.isParked = true ∧ s.catalogue.pending[(6 : Id).stored]? = some ⟨0, 3⟩ ∧
      ∃ notice, s.requester 6 = some notice ∧ notice.announced = false := by
  obtain ⟨id, notice, hid, hnotice⟩ :=
    no_lost_wakeup {} .empty race isParked_race _ _ pending_race
  cases Id.stored_injective hid
  exact ⟨isParked_race, pending_race, notice, hnotice⟩

end SharedProcess

end MediaCatalogue
