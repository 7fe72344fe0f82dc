import Mathlib.Logic.Relation
import MediaCatalogue.Deployment.State
import MediaCatalogue.Proofs.Accesses
import MediaCatalogue.Proofs.Maintenance

/-!
# Passes of the refresher

The refresher works with services, whatever stands behind them. `RefreshServices.WorkOn` says that
the services do to some tables what the calls of `Maintenance` do; they may fail at any time, and do
anything else besides.

**Main theorem** (`Refresher.calls_pass`): a pass over such services is a sequence of calls. So what
every call keeps, a pass keeps (`Refresher.sound_pass`), and the services of a deployment are such
services (`Deployment.refreshServices_workOn`).
-/

namespace MediaCatalogue

variable {σ : Type}

/-- What the services do to the tables that are seen in a state: what the refresher asks for, or as
much of it as works. -/
structure RefreshServices.WorkOn (services : RefreshServices σ) (tables : σ → Catalogue) :
    Prop where
  pending : ∀ limit s, tables ((services.pending limit).run s).2 = tables s ∧
    ∀ batch, ((services.pending limit).run s).1 = .ok batch →
      (tables s).oldestRequests limit = .ok batch
  refresh : ∀ id s, ∃ working, (MediaCatalogue.refresh id).perform working (tables s) =
    (((services.refresh id).run s).1, tables ((services.refresh id).run s).2)
  complete : ∀ request s, ∃ working, (completeRequest request).perform working (tables s) =
    (((services.complete request).run s).1, tables ((services.complete request).run s).2)

/-- Calls of the refresher, one after the other. -/
def Maintenance.Calls : Maintenance → Maintenance → Prop :=
  Relation.ReflTransGen fun s s' => ∃ call, s.refresh call = s'

namespace Maintenance

variable {s s' : Maintenance}

theorem Calls.of_refresh (call : RefreshCall) (h : s.refresh call = s') : s.Calls s' :=
  .single ⟨call, h⟩

theorem Sound.calls (h : s.Sound) (hcalls : s.Calls s') : s'.Sound := by
  induction hcalls with
  | refl => exact h
  | tail _ hlast ih =>
    obtain ⟨call, rfl⟩ := hlast
    exact ih.refresh call

end Maintenance

namespace Refresher

variable {services : RefreshServices σ} {tables : σ → Catalogue} {request : RefreshRequest}
  {s s' : σ}

/-! ### One request -/

theorem run_serve_of_error {fault : Fault}
    (h : (services.refresh request.id).run s = (.error fault, s')) :
    (serve services request).run s = (.ok true, s') := by
  unfold serve
  exact run_bind_ok (run_lift h)

theorem run_serve_of_ok (h : (services.refresh request.id).run s = (.ok (), s')) :
    (serve services request).run s =
      (((services.complete request).run s').1.map fun _ => false,
        ((services.complete request).run s').2) := by
  have htried : (ExceptT.lift (services.refresh request.id).run : Access σ _).run s =
      (.ok (.ok ()), s') := run_lift h
  unfold serve
  rw [run_bind_ok htried]
  exact run_bind_pure _

theorem calls_serve (hwork : services.WorkOn tables) (request : RefreshRequest)
    (rest : List RefreshRequest) (s : σ) :
    Maintenance.Calls ⟨tables s, .waiting (request :: rest)⟩
      ⟨tables ((serve services request).run s).2, .waiting rest⟩ := by
  obtain ⟨working, hrefresh⟩ := hwork.refresh request.id s
  cases h : (services.refresh request.id).run s with
  | mk result s' =>
    rw [h] at hrefresh
    cases result with
    | error fault =>
      rw [run_serve_of_error h]
      refine .of_refresh (.refresh working) ?_
      simp only [Maintenance.refresh, hrefresh]
    | ok =>
      obtain ⟨working', hcomplete⟩ := hwork.complete request s'
      rw [run_serve_of_ok h]
      have hfirst : Maintenance.Calls ⟨tables s, .waiting (request :: rest)⟩
          ⟨tables s', .refreshed request rest⟩ := by
        refine .of_refresh (.refresh working) ?_
        simp only [Maintenance.refresh, hrefresh]
      refine hfirst.trans (Maintenance.Calls.of_refresh (.complete working') ?_)
      simp only [Maintenance.refresh, hcomplete]

/-! ### Steps -/

section

variable {settings : RefreshSettings} {r : State} {rest : List RefreshRequest} {p : Pass}

theorem run_step_reading {result : Except Fault (List RefreshRequest)}
    (hphase : r.phase = .reading) :
    (services.pending settings.batchSize).run s = (result, s') →
      (step services settings r).run s =
        (match result with
          | .error fault => r.endPass settings (.error fault)
          | .ok batch => { r with phase := .serving batch ⟨batch.length, 0⟩ }, s') := by
  intro h
  unfold step
  rw [hphase]
  simp only [bind, StateT.bind, StateT.run, ExceptT.run,
    show services.pending settings.batchSize s = (result, s') from h]
  cases result <;> rfl

theorem run_step_serving {result : Except Fault Bool}
    (hphase : r.phase = .serving (request :: rest) p) :
    (serve services request).run s = (result, s') →
      (step services settings r).run s =
        (match result with
          | .error fault => r.endPass settings (.error fault)
          | .ok failed => { r with phase := .serving rest (p.count failed) }, s') := by
  intro h
  unfold step
  rw [hphase]
  simp only [bind, StateT.bind, StateT.run, ExceptT.run,
    show serve services request s = (result, s') from h]
  cases result <;> rfl

theorem run_step_served (hphase : r.phase = .serving [] p) :
    (step services settings r).run s = (r.endPass settings (.ok p), s) := by
  unfold step
  rw [hphase]
  rfl

theorem run_step_parked (hphase : r.phase = .parked) :
    (step services settings r).run s =
      (if r.permit then { r with phase := .reading, permit := false } else r, s) := by
  unfold step
  rw [hphase]
  rfl

theorem run_step_waiting {time : Duration} (hphase : r.phase = .waiting time) :
    (step services settings r).run s = ({ r with phase := .reading }, s) := by
  unfold step
  rw [hphase]
  rfl

end

/-! ### A batch -/

/-- The refresher serves its requests in order, and stops when completing one fails. -/
theorem calls_serveAll (hwork : services.WorkOn tables) (batch : List RefreshRequest) (p : Pass)
    (s : σ) :
    ∃ rest, Maintenance.Calls ⟨tables s, .waiting batch⟩
      ⟨tables ((serveAll services batch p).run s).2, .waiting rest⟩ := by
  induction batch generalizing p s with
  | nil => exact ⟨[], .refl⟩
  | cons request batch ih =>
    have hserve := calls_serve hwork request batch s
    unfold serveAll
    cases h : (serve services request).run s with
    | mk result s' =>
      rw [h] at hserve
      cases result with
      | error fault =>
        rw [run_bind_error h]
        exact ⟨batch, hserve⟩
      | ok failed =>
        rw [run_bind_ok h]
        obtain ⟨rest, hrest⟩ := ih (p.count failed) s'
        exact ⟨rest, hserve.trans hrest⟩

/-- **A pass is a sequence of calls**, whatever the refresher did before. -/
theorem calls_pass (hwork : services.WorkOn tables) (settings : RefreshSettings)
    (progress : Progress) (s : σ) :
    ∃ progress', Maintenance.Calls ⟨tables s, progress⟩
      ⟨tables ((pass services settings).run s).2, progress'⟩ := by
  obtain ⟨hsame, hbatch⟩ := hwork.pending settings.batchSize s
  unfold pass
  cases h : (services.pending settings.batchSize).run s with
  | mk result s' =>
    rw [h] at hsame hbatch
    cases result with
    | error fault =>
      rw [run_bind_error h, hsame]
      exact ⟨progress, .refl⟩
    | ok batch =>
      rw [run_bind_ok h]
      have hread : Maintenance.Calls ⟨tables s, progress⟩ ⟨tables s', .waiting batch⟩ := by
        refine .of_refresh (.read settings.batchSize) ?_
        simp only [Maintenance.refresh, hbatch batch rfl, hsame]
      obtain ⟨rest, hrest⟩ := calls_serveAll hwork batch ⟨batch.length, 0⟩ s'
      exact ⟨.waiting rest, hread.trans hrest⟩

/-- After a pass the refresher remembers nothing, and every wrong row is awaited as before. -/
theorem sound_pass (hwork : services.WorkOn tables) (settings : RefreshSettings) {s : σ}
    (h : Maintenance.Sound ⟨tables s, .waiting []⟩) :
    Maintenance.Sound ⟨tables ((pass services settings).run s).2, .waiting []⟩ := by
  obtain ⟨progress, hcalls⟩ := calls_pass hwork settings (.waiting []) s
  exact (h.calls hcalls).forget (List.nil_sublist _)

end Refresher

theorem Deployment.refreshServices_workOn : refreshServices.WorkOn Deployment.catalogue where
  pending limit d := by
    have hget : (get : Access Deployment Deployment).run d = (.ok d, d) := rfl
    simp only [refreshServices, requests, whileOpen]
    rw [run_bind_ok hget]
    cases d.isOpen with
    | false => exact ⟨rfl, fun batch hbatch => by cases hbatch⟩
    | true =>
      rw [if_pos rfl, run_bind_ok hget, run_liftM]
      exact ⟨rfl, fun batch hbatch => hbatch⟩
  refresh id d := ⟨if d.isOpen then none else some 0, rfl⟩
  complete request d := ⟨if d.isOpen then none else some 0, rfl⟩

end MediaCatalogue
