import MediaCatalogue.Proofs.Absence
import MediaCatalogue.Proofs.Oldest
import MediaCatalogue.Proofs.Passes
import MediaCatalogue.Proofs.Pools
import MediaCatalogue.Proofs.Recomputing

/-!
# Requests that fail again and again

A request that fails keeps its place, so that the next pass takes it again. While fewer requests
fail than a pass takes, each pass takes one of the others too, if there is one.

* `RefreshServices.FailOn` : services that fail for some ids and work for all others, while nobody
  else touches the table of requests;
* `RefreshServices.logged` : services that note for which ids sets are to be brought up to date;
* `Refresher.run_pass_logged` : what one pass does.

**Main theorem** (`Refresher.drains_around_failures`): passes leave the requests of the ids that
fail as they are, and serve each other request once.
-/

namespace MediaCatalogue

variable {σ α β : Type}

/-! ### Noting ids -/

/-- A program that has nothing to note. -/
def Access.silent (work : Access σ α) : Access (σ × List Id) α :=
  ExceptT.mk fun (s, ids) =>
    let (result, s) := work.run s
    (result, s, ids)

/-- Services that note, in their order, the ids whose sets are to be brought up to date. -/
def RefreshServices.logged (services : RefreshServices σ) : RefreshServices (σ × List Id) where
  pending limit := (services.pending limit).silent
  refresh id := ExceptT.mk fun (s, ids) =>
    let (result, s) := (services.refresh id).run s
    (result, s, ids ++ [id])
  complete request := (services.complete request).silent

/-- The second program does the same as the first one, and notes some ids. -/
def Access.NotedBy (work : Access σ α) (noted : Access (σ × List Id) α) : Prop :=
  ∀ s, ∃ made, ∀ ids, noted.run (s, ids) = ((work.run s).1, (work.run s).2, ids ++ made)

namespace Access

theorem notedBy_silent (work : Access σ α) : work.NotedBy work.silent :=
  fun s => ⟨[], fun ids => by rw [List.append_nil]; rfl⟩

theorem notedBy_pure (a : α) : NotedBy (pure a : Access σ α) (pure a) :=
  fun s => ⟨[], fun ids => by rw [List.append_nil]; rfl⟩

theorem NotedBy.lift {work : Access σ α} {noted : Access (σ × List Id) α} (h : work.NotedBy noted) :
    NotedBy (ExceptT.lift work.run : Access σ (Except Fault α)) (ExceptT.lift noted.run) := by
  intro s
  obtain ⟨made, hmade⟩ := h s
  have hlift : (ExceptT.lift work.run : Access σ (Except Fault α)).run s =
      (.ok (work.run s).1, (work.run s).2) := run_lift rfl
  refine ⟨made, fun ids => ?_⟩
  rw [hlift]
  exact run_lift (hmade ids)

theorem NotedBy.bind {work : Access σ α} {noted : Access (σ × List Id) α} {f : α → Access σ β}
    {g : α → Access (σ × List Id) β} (h : work.NotedBy noted) (hf : ∀ a, (f a).NotedBy (g a)) :
    (work >>= f).NotedBy (noted >>= g) := by
  intro s
  obtain ⟨made, hmade⟩ := h s
  cases hwork : work.run s with
  | mk result s' =>
    simp only [hwork] at hmade
    cases result with
    | error fault =>
      refine ⟨made, fun ids => ?_⟩
      rw [run_bind_error (hmade ids), run_bind_error hwork]
    | ok a =>
      obtain ⟨rest, hrest⟩ := hf a s'
      refine ⟨made ++ rest, fun ids => ?_⟩
      rw [run_bind_ok (hmade ids), run_bind_ok hwork, hrest, List.append_assoc]

end Access

namespace Refresher

open Access

variable {services : RefreshServices σ} {settings : RefreshSettings}

theorem notedBy_serve (request : RefreshRequest) :
    (serve services request).NotedBy (serve services.logged request) := by
  have hrefresh : (services.refresh request.id).NotedBy (services.logged.refresh request.id) :=
    fun s => ⟨[request.id], fun ids => rfl⟩
  unfold serve
  refine hrefresh.lift.bind fun result => ?_
  cases result with
  | error fault => exact notedBy_pure true
  | ok => exact (notedBy_silent _).bind fun _ => notedBy_pure false

theorem notedBy_serveAll (batch : List RefreshRequest) (p : Pass) :
    (serveAll services batch p).NotedBy (serveAll services.logged batch p) := by
  induction batch generalizing p with
  | nil => exact notedBy_pure p
  | cons request batch ih => exact (notedBy_serve request).bind fun failed => ih (p.count failed)

theorem notedBy_pass : (pass services settings).NotedBy (pass services.logged settings) :=
  (notedBy_silent _).bind fun batch => notedBy_serveAll batch _

/-- The state after `n` passes. -/
def afterPasses (services : RefreshServices σ) (settings : RefreshSettings) (n : Nat) (s : σ) : σ :=
  (fun s => ((pass services settings).run s).2)^[n] s

theorem afterPasses_succ (n : Nat) (s : σ) :
    afterPasses services settings (n + 1) s =
      ((pass services settings).run (afterPasses services settings n s)).2 :=
  Function.iterate_succ_apply' _ n s

theorem fst_afterPasses_logged (n : Nat) (s : σ) (ids : List Id) :
    (afterPasses services.logged settings n (s, ids)).1 = afterPasses services settings n s := by
  induction n with
  | zero => rfl
  | succ n ih =>
    rw [afterPasses_succ, afterPasses_succ]
    have hpass : (pass services settings).NotedBy (pass services.logged settings) := notedBy_pass
    obtain ⟨made, hmade⟩ := hpass (afterPasses services.logged settings n (s, ids)).1
    rw [← ih]
    exact congrArg (fun r => r.2.1) (hmade _)

end Refresher

/-! ### Services that fail for some ids -/

/-- The services work on the requests in the tables that are seen in a state, and nobody else does.
Sets are brought up to date unless it fails, which it does for the same ids again and again. All
this is so in some states, which the services do not leave. -/
structure RefreshServices.FailOn (services : RefreshServices σ) (tables : σ → Catalogue)
    (fails : Id → Bool) (Valid : σ → Prop) : Prop where
  pending : ∀ limit s, Valid s → ∃ s', Valid s' ∧ (tables s').pending = (tables s).pending ∧
    (services.pending limit).run s = ((tables s).oldestRequests limit, s')
  refresh : ∀ id s, Valid s → ∃ s' outcome, Valid s' ∧ (tables s').pending = (tables s).pending ∧
    (services.refresh id).run s = (outcome, s') ∧ (outcome = .ok () ↔ fails id = false)
  complete : ∀ request s, Valid s → ∃ s', Valid s' ∧
    (tables s').pending = ((tables s).withoutRequest request).2.pending ∧
    (services.complete request).run s = (.ok ((tables s).withoutRequest request).1, s')

namespace Refresher

variable {services : RefreshServices σ} {tables : σ → Catalogue} {fails : Id → Bool}
  {Valid : σ → Prop} {settings : RefreshSettings} {s : σ}

/-- What serving a request does: the id is noted, and its row is removed unless it fails. -/
theorem run_serve_logged (h : services.FailOn tables fails Valid) (hs : Valid s)
    {request : RefreshRequest} {row : RequestRow}
    (hrow : (tables s).pending[request.id.stored]? = some row)
    (hgeneration : row.generation = request.generation) (ids : List Id) :
    ∃ s', Valid s' ∧
      (serve services.logged request).run (s, ids) =
        (.ok (fails request.id), s', ids ++ [request.id]) ∧
      (tables s').pending = if fails request.id then (tables s).pending
        else (tables s).pending.erase request.id.stored := by
  obtain ⟨s₁, outcome, hs₁, hpending, hrefresh, houtcome⟩ := h.refresh request.id s hs
  have hnoted : (services.logged.refresh request.id).run (s, ids) =
      (outcome, s₁, ids ++ [request.id]) :=
    congrArg (fun r => (Prod.fst r, r.2, ids ++ [request.id])) hrefresh
  cases outcome with
  | error fault =>
    have hfails : fails request.id = true := by simpa using houtcome
    refine ⟨s₁, hs₁, ?_, by rw [hpending, if_pos hfails]⟩
    rw [run_serve_of_error hnoted, hfails]
  | ok =>
    have hfails : fails request.id = false := by simpa using houtcome
    obtain ⟨s₂, hs₂, hremoved, hcomplete⟩ := h.complete request s₁ hs₁
    rw [← hpending] at hrow
    rw [Catalogue.withoutRequest_of_generation hrow hgeneration] at hremoved
    refine ⟨s₂, hs₂, ?_, by rw [hremoved, hpending, hfails]; rfl⟩
    have hsilent : (services.logged.complete request).run (s₁, ids ++ [request.id]) =
        (.ok ((tables s₁).withoutRequest request).1, s₂, ids ++ [request.id]) :=
      congrArg (fun r => (Prod.fst r, r.2, ids ++ [request.id])) hcomplete
    rw [run_serve_of_ok hnoted, hsilent, hfails]
    rfl

/-- Serving a batch notes all ids, removes the rows of those that do not fail, and counts those that
do. -/
theorem run_serveAll_logged (h : services.FailOn tables fails Valid) (hs : Valid s)
    {batch : List RefreshRequest} (hnodup : (batch.map RefreshRequest.id).Nodup)
    (hrows : ∀ r ∈ batch, ∃ row, (tables s).pending[r.id.stored]? = some row ∧
      row.generation = r.generation) (p : Pass) (ids : List Id) :
    ∃ s', Valid s' ∧
      (serveAll services.logged batch p).run (s, ids) =
        (.ok { p with failed := p.failed + batch.countP fun r => fails r.id }, s',
          ids ++ batch.map RefreshRequest.id) ∧
      ∀ column row, (tables s').pending[column]? = some row ↔
        (tables s).pending[column]? = some row ∧
          ∀ r ∈ batch, r.id.stored = column → fails r.id = true := by
  induction batch generalizing s p ids with
  | nil => exact ⟨s, hs, by simp [serveAll]; rfl, by simp⟩
  | cons request batch ih =>
    obtain ⟨hrequest, hnodup⟩ := List.nodup_cons.1 hnodup
    obtain ⟨row, hrow, hgeneration⟩ := hrows request List.mem_cons_self
    obtain ⟨s₁, hs₁, hserve, hpending⟩ := run_serve_logged h hs hrow hgeneration ids
    -- Serving one request keeps the rows of all other ids.
    have hother : ∀ column row, (tables s₁).pending[column]? = some row ↔
        (tables s).pending[column]? = some row ∧
          (request.id.stored = column → fails request.id = true) := by
      intro column row
      rw [hpending]
      cases fails request.id with
      | true => simp
      | false =>
        simp only [Bool.false_eq_true, if_false, imp_false, Std.ExtTreeMap.getElem?_erase,
          Std.LawfulEqCmp.compare_eq_iff_eq]
        split <;> simp_all
    obtain ⟨s₂, hs₂, hrest, hkept⟩ := ih hs₁ hnodup (fun r hr => by
      obtain ⟨row, hrow, hgeneration⟩ := hrows r (List.mem_cons_of_mem _ hr)
      refine ⟨row, (hother _ _).2 ⟨hrow, fun heq => ?_⟩, hgeneration⟩
      exact absurd (List.mem_map.2 ⟨r, hr, (Id.stored_injective heq).symm⟩) hrequest)
      (p.count (fails request.id)) (ids ++ [request.id])
    refine ⟨s₂, hs₂, ?_, fun column row => ?_⟩
    · unfold serveAll
      rw [run_bind_ok hserve, hrest, List.append_assoc, List.countP_cons]
      cases fails request.id <;> simp [Pass.count, Nat.add_assoc, Nat.add_comm 1]
    · rw [hkept, hother, and_assoc, List.forall_mem_cons]

theorem run_pass_logged (h : services.FailOn tables fails Valid) (hs : Valid s)
    (hrequests : (tables s).HoldsRequests) (ids : List Id) :
    ∃ s' made, Valid s' ∧
      (pass services.logged settings).run (s, ids) =
        (.ok ⟨min settings.batchSize (tables s).pending.size,
          (tables s).pending.toList.countP fun row =>
            Catalogue.isOf fails row && decide ((tables s).AmongOldest settings.batchSize row)⟩,
          s', ids ++ made) ∧
      made.Nodup ∧
      (∀ id, id ∈ made ↔ ∃ row, (tables s).pending[id.stored]? = some row ∧
        (tables s).AmongOldest settings.batchSize (id.stored, row)) ∧
      ∀ column row, (tables s').pending[column]? = some row ↔
        (tables s).pending[column]? = some row ∧
          ((tables s).AmongOldest settings.batchSize (column, row) →
            Catalogue.isOf fails (column, row) = true) := by
  obtain ⟨batch, hbatch, hread⟩ := Catalogue.exists_oldestRequests hrequests settings.batchSize
  obtain ⟨hnodup, hrows⟩ := Catalogue.oldestRequests_spec hbatch
  obtain ⟨s₁, hs₁, hsame, hpending⟩ := h.pending settings.batchSize s hs
  rw [hbatch] at hpending
  have hsilent : (services.logged.pending settings.batchSize).run (s, ids) =
      (.ok batch, s₁, ids) :=
    congrArg (fun r => (Prod.fst r, r.2, ids)) hpending
  rw [← hsame] at hrows
  obtain ⟨s₂, hs₂, hserve, hkept⟩ := run_serveAll_logged h hs₁ hnodup hrows ⟨batch.length, 0⟩ ids
  refine ⟨s₂, batch.map RefreshRequest.id, hs₂, ?_, hnodup,
    fun id => Catalogue.mem_map_id_of_read hread, fun column row => ?_⟩
  · unfold pass
    rw [run_bind_ok hsilent, hserve, Catalogue.length_of_read hread,
      Catalogue.countP_of_read hread fails, Nat.zero_add]
  · -- A request is kept iff it was not read or could not be served.
    rw [hkept, hsame]
    refine and_congr_right fun hrow => ⟨fun hall hold => ?_, fun hall r hr hcolumn => ?_⟩
    · obtain ⟨r, hr⟩ := hrequests _ (Std.ExtTreeMap.mem_toList_iff_getElem?_eq_some.2 hrow)
      obtain ⟨rfl, _⟩ := Catalogue.requestOf_eq_ok hr
      obtain ⟨r', hr', hid⟩ :=
        List.mem_map.1 ((Catalogue.mem_map_id_of_read hread).2 ⟨row, hrow, hold⟩)
      rw [Catalogue.isOf_stored, ← hid]
      exact hall r' hr' (congrArg Id.stored hid)
    · subst hcolumn
      obtain ⟨row', hrow', hold⟩ :=
        (Catalogue.mem_map_id_of_read hread).1 (List.mem_map.2 ⟨r, hr, rfl⟩)
      cases hrow.symm.trans hrow'
      rw [← hall hold, Catalogue.isOf_stored]

/-! ### Passes, one after the other -/

/-- What passes have made of the table of requests, while they brought the sets of `ids` up to
date. -/
structure Drained (fails : Id → Bool) (c c' : Catalogue) (ids : List Id) (passes : Nat) : Prop where
  /-- No row is new. -/
  stored : ∀ (column : Int) (row : RequestRow),
    c'.pending[column]? = some row → c.pending[column]? = some row
  /-- The rows of ids that fail are there still. -/
  kept : ∀ (column : Int) (row : RequestRow), c.pending[column]? = some row →
    Catalogue.isOf fails (column, row) = true → c'.pending[column]? = some row
  /-- The others are there still, or were served. -/
  served : ∀ id, fails id = false →
    ids.count id + (c'.pending.contains id.stored).toNat = (c.pending.contains id.stored).toNat
  /-- Every pass serves one of the others, as long as there is one. -/
  fewer : c'.countOf (!fails ·) ≤ c.countOf (!fails ·) - passes

section

variable {c c' c'' : Catalogue} {ids made : List Id} {n limit : Nat}

theorem Drained.refl : Drained fails c c [] 0 :=
  ⟨fun _ _ h => h, fun _ _ h _ => h, fun id _ => by simp, Nat.le_refl _⟩

theorem isOf_not {row : Int × RequestRow} (h : c.HoldsRequests) (hrow : row ∈ c.pending.toList) :
    Catalogue.isOf (!fails ·) row = !Catalogue.isOf fails row := by
  obtain ⟨r, hr⟩ := h row hrow
  rw [Catalogue.isOf_of_requestOf hr, Catalogue.isOf_of_requestOf hr]

section

variable (hmade : ∀ id, id ∈ made ↔ ∃ row, c.pending[id.stored]? = some row ∧
    c.AmongOldest limit (id.stored, row))
  (hnext : ∀ column row, c'.pending[column]? = some row ↔ c.pending[column]? = some row ∧
    (c.AmongOldest limit (column, row) → Catalogue.isOf fails (column, row) = true))

include hnext

theorem countOf_lt_of_pass (hrequests : c.HoldsRequests) (hfew : c.countOf fails < limit)
    (hsome : 0 < c.countOf (!fails ·)) : c'.countOf (!fails ·) < c.countOf (!fails ·) := by
  obtain ⟨row, hrow, hother⟩ := List.countP_pos_iff.1 hsome
  rw [isOf_not hrequests hrow, Bool.not_eq_true'] at hother
  obtain ⟨served, hserved, hother, hold⟩ :=
    Catalogue.exists_amongOldest_of_few hfew ⟨row, hrow, hother⟩
  refine Catalogue.countOf_lt (fun column row hrow => ((hnext column row).1 hrow).1) hserved
    (fun hthere => ?_) (by rw [isOf_not hrequests hserved, hother]; rfl)
  rw [Std.ExtTreeMap.mem_toList_iff_getElem?_eq_some] at hthere
  rw [((hnext _ _).1 hthere).2 hold] at hother
  cases hother

include hmade

/-- An id that does not fail is served if its row is among the oldest, and then the row is gone. -/
theorem count_of_pass (hnodup : made.Nodup) {id : Id} (hfails : fails id = false) :
    made.count id + (c'.pending.contains id.stored).toNat =
      (c.pending.contains id.stored).toNat := by
  have hrest : ∀ row, c'.pending[id.stored]? = some row ↔ c.pending[id.stored]? = some row ∧
      ¬ c.AmongOldest limit (id.stored, row) := by
    intro row
    rw [hnext, Catalogue.isOf_stored, hfails]
    simp
  simp only [Std.ExtTreeMap.contains_eq_isSome_getElem?]
  -- A request that is read is served and removed, the others are kept and not served.
  cases hrow : c.pending[id.stored]? with
  | none =>
    have hnone : id ∉ made := fun hid => by simpa [hrow] using (hmade id).1 hid
    have hgone : c'.pending[id.stored]? = none :=
      Option.eq_none_iff_forall_ne_some.2 fun row h => by simpa [hrow] using (hrest row).1 h
    rw [List.count_eq_zero_of_not_mem hnone, hgone, Nat.zero_add]
  | some row =>
    by_cases hold : c.AmongOldest limit (id.stored, row)
    · have hgone : c'.pending[id.stored]? = none := by
        refine Option.eq_none_iff_forall_ne_some.2 fun row' h => ?_
        obtain ⟨hrow', hnot⟩ := (hrest row').1 h
        cases hrow.symm.trans hrow'
        exact hnot hold
      rw [List.count_eq_one_of_mem hnodup ((hmade id).2 ⟨row, hrow, hold⟩), hgone]
      rfl
    · have hnone : id ∉ made := by
        rintro hid
        obtain ⟨row', hrow', hold'⟩ := (hmade id).1 hid
        cases hrow.symm.trans hrow'
        exact hold hold'
      rw [List.count_eq_zero_of_not_mem hnone, (hrest row).2 ⟨hrow, hold⟩, Nat.zero_add]

end

theorem Drained.pass (h : Drained fails c c' ids n) (hrequests : c.HoldsRequests)
    (hfew : c.countOf fails < limit) (hnodup : made.Nodup)
    (hmade : ∀ id, id ∈ made ↔ ∃ row, c'.pending[id.stored]? = some row ∧
      c'.AmongOldest limit (id.stored, row))
    (hnext : ∀ column row, c''.pending[column]? = some row ↔ c'.pending[column]? = some row ∧
      (c'.AmongOldest limit (column, row) → Catalogue.isOf fails (column, row) = true)) :
    Drained fails c c'' (ids ++ made) (n + 1) where
  stored column row hrow := h.stored column row ((hnext column row).1 hrow).1
  kept column row hrow hfails :=
    (hnext column row).2 ⟨h.kept column row hrow hfails, fun _ => hfails⟩
  served id hfails := by
    rw [← h.served id hfails, List.count_append, Nat.add_assoc,
      count_of_pass hmade hnext hnodup hfails]
  fewer := by
    have hle : c''.countOf (!fails ·) ≤ c'.countOf (!fails ·) :=
      Catalogue.countOf_le fun column row hrow => ((hnext column row).1 hrow).1
    have hfew' : c'.countOf fails < limit := (Catalogue.countOf_le h.stored).trans_lt hfew
    have hlt := countOf_lt_of_pass hnext (hrequests.of_stored h.stored) hfew'
    have := h.fewer
    omega

end

/-- **What passes do.** -/
theorem drained_afterPasses (h : services.FailOn tables fails Valid) (hs : Valid s)
    (hrequests : (tables s).HoldsRequests)
    (hfew : (tables s).countOf fails < settings.batchSize) (n : Nat) :
    Valid (afterPasses services settings n s) ∧
      Drained fails (tables s) (tables (afterPasses services settings n s))
        (afterPasses services.logged settings n (s, [])).2 n := by
  induction n with
  | zero => exact ⟨hs, .refl⟩
  | succ n ih =>
    obtain ⟨hvalid, hdrained⟩ := ih
    rw [← fst_afterPasses_logged n s []] at hvalid hdrained
    rw [← fst_afterPasses_logged (n + 1) s [], afterPasses_succ]
    generalize afterPasses services.logged settings n (s, []) = state at hvalid hdrained ⊢
    obtain ⟨s', made, hs', hpass, hnodup, hmade, hnext⟩ :=
      run_pass_logged h hvalid (hrequests.of_stored hdrained.stored) state.2
    rw [hpass]
    exact ⟨hs', hdrained.pass hrequests hfew hnodup hmade hnext⟩

/-- **Passes drain the queue around failures.** Bringing sets up to date fails for some ids, again
and again, and works for all others, and nobody makes requests.

1. Each pass takes as many requests as there are, but not more than a batch, and of the oldest
   requests that make up the batch those fail that are of ids that fail.
2. Fewer requests fail than a batch has. Then, after as many passes as there are other requests or
   more, the rows of the ids that fail are left as they were, and no others. The set of each other
   id was brought up to date once if the id had a request, and else never. -/
theorem drains_around_failures (h : services.FailOn tables fails Valid) (settings : RefreshSettings)
    (hs : Valid s) (hrequests : (tables s).HoldsRequests)
    (hfew : (tables s).countOf fails < settings.batchSize) :
    have after := fun n => afterPasses services settings n s
    (∀ n, ((pass services settings).run (after n)).1 =
      .ok ⟨min settings.batchSize (tables (after n)).pending.size,
        (tables (after n)).pending.toList.countP fun row => Catalogue.isOf fails row &&
          decide ((tables (after n)).AmongOldest settings.batchSize row)⟩) ∧
    ∀ n, (tables s).countOf (!fails ·) ≤ n →
      (∀ (column : Int) (row : RequestRow), (tables (after n)).pending[column]? = some row ↔
        (tables s).pending[column]? = some row ∧ Catalogue.isOf fails (column, row) = true) ∧
      ∀ id, fails id = false → (afterPasses services.logged settings n (s, [])).2.count id =
        if (tables s).pending.contains id.stored then 1 else 0 := by
  intro after
  have hdrained := drained_afterPasses h hs hrequests hfew
  refine ⟨fun n => ?_, fun n hn => ?_⟩
  · obtain ⟨hvalid, hn⟩ := hdrained n
    obtain ⟨s', made, _, hpass, _⟩ := run_pass_logged h hvalid (hrequests.of_stored hn.stored) []
    obtain ⟨noted, hnoted⟩ := notedBy_pass (afterPasses services settings n s)
    exact congrArg Prod.fst ((hnoted []).symm.trans hpass)
  · obtain ⟨_, hn'⟩ := hdrained n
    -- A pass serves a request that does not fail, as long as there is one: none is left now.
    have hnone : (tables (after n)).countOf (!fails ·) = 0 := by
      have hfewer : (tables (after n)).countOf (!fails ·) ≤ _ := hn'.fewer
      omega
    have hfails : ∀ (column : Int) (row : RequestRow),
        (tables (after n)).pending[column]? = some row →
          Catalogue.isOf fails (column, row) = true := by
      intro column row hrow
      have hmem := Std.ExtTreeMap.mem_toList_iff_getElem?_eq_some.2 hrow
      have hnot := List.countP_eq_zero.1 hnone _ hmem
      rw [isOf_not (hrequests.of_stored hn'.stored) hmem] at hnot
      simpa using hnot
    refine ⟨fun column row => ⟨fun hrow => ⟨hn'.stored column row hrow, hfails column row hrow⟩,
      fun hrow => hn'.kept column row hrow.1 hrow.2⟩, fun id hid => ?_⟩
    have hgone : (tables (after n)).pending.contains id.stored = false := by
      rw [Std.ExtTreeMap.contains_eq_isSome_getElem?, Option.isSome_eq_false_iff,
        Option.isNone_iff_eq_none, Option.eq_none_iff_forall_ne_some]
      intro row hrow
      have hfail := hfails id.stored row hrow
      rw [Catalogue.isOf_stored, hid] at hfail
      cases hfail
    have hserved := hn'.served id hid
    rw [hgone] at hserved
    cases hthere : (tables s).pending.contains id.stored <;> simpa [hthere] using hserved

end Refresher

/-! ### A deployment -/

/-- Services for which bringing the sets of some ids up to date fails. -/
def RefreshServices.failing (services : RefreshServices σ) (fails : Id → Bool) (fault : Fault) :
    RefreshServices σ :=
  { services with refresh := fun id => if fails id then throw fault else services.refresh id }

namespace Deployment

/-- The services of a deployment that is in order fail for those ids alone for which they are made
to. -/
theorem failOn_failing (fails : Id → Bool) (fault : Fault) :
    (refreshServices.failing fails fault).FailOn Deployment.catalogue fails
      fun d => d.isOpen = true ∧ d.catalogue.WellFormed where
  pending limit d hd := by
    refine ⟨d, hd, rfl, ?_⟩
    show (whileOpen _).run d = _
    unfold whileOpen
    rw [run_bind_ok run_get, hd.1]
    exact (run_bind_ok run_get).trans (run_liftM _)
  refresh id d hd := by
    cases hfails : fails id with
    | true =>
      -- The services are not reached at all.
      refine ⟨d, .error fault, hd, rfl, ?_, by simp⟩
      show (if fails id then throw fault else _ : Access Deployment Unit).run d = _
      rw [hfails]
      rfl
    | false =>
      obtain ⟨c', hperform, hrelabelled⟩ :=
        Catalogue.perform_refresh hd.2.holdsIds id
      refine ⟨{ d.later 1 with catalogue := c' }, .ok (), ⟨hd.1, hd.2.relabelled hrelabelled⟩,
        ?_, ?_, by simp⟩
      · rw [hrelabelled.eq]
      · show (if fails id then throw fault else _ : Access Deployment Unit).run d = _
        rw [hfails, if_neg Bool.false_ne_true, refreshServices, run_write, working, if_pos hd.1,
          hperform]
  complete request d hd := by
    refine ⟨{ d.later 1 with catalogue := (d.catalogue.withoutRequest request).2 },
      ⟨hd.1, hd.2.withoutRequest request⟩, rfl, ?_⟩
    have hperform : (completeRequest request).perform none d.catalogue =
        (.ok (d.catalogue.withoutRequest request).1, (d.catalogue.withoutRequest request).2) :=
      (Statements.takes_statement.perform none).trans (if_neg Statements.not_breaks_none)
    show (write fun _ => completeRequest request).run d = _
    rw [run_write, working, if_pos hd.1, hperform]

open Transaction Refresher

/-- Three records were written, and the sets of their ids wait to be brought up to date. -/
def backlog : Deployment :=
  { registry := .builtin
    catalogue := Catalogue.empty.after
      [.write (.ofNanos 0) none (.content (plainRecord 1)),
       .write (.ofNanos 0) none (.content (plainRecord 2)),
       .write (.ofNanos 0) none (.content (plainRecord 3))]
    clock := 0 }

theorem toList_backlog :
    backlog.catalogue.pending.toList = [(1, ⟨0, 0⟩), (2, ⟨0, 0⟩), (3, ⟨0, 0⟩)] := by
  decide +kernel

/-- The first id fails, two requests are taken at a time: the second pass reaches the last id. -/
theorem drains_around_failures_of_backlog :
    have services := refreshServices.failing (· = 1) .closedDatabase
    have settings : RefreshSettings := { batchSize := 2 }
    ((pass services settings).run backlog).1 = .ok ⟨2, 1⟩ ∧
      (∀ (column : Int) (row : RequestRow),
        (afterPasses services settings 2 backlog).catalogue.pending[column]? = some row ↔
          backlog.catalogue.pending[column]? = some row ∧
            Catalogue.isOf (· = 1) (column, row) = true) ∧
      (afterPasses services.logged settings 2 (backlog, [])).2.count 3 = 1 := by
  intro services settings
  have hrequests : backlog.catalogue.HoldsRequests := by
    intro row hrow
    rw [toList_backlog] at hrow
    simp only [List.mem_cons, List.not_mem_nil, or_false] at hrow
    rcases hrow with rfl | rfl | rfl
    · exact ⟨⟨1, 0⟩, rfl⟩
    · exact ⟨⟨2, 0⟩, rfl⟩
    · exact ⟨⟨3, 0⟩, rfl⟩
  obtain ⟨hreport, hdrained⟩ := drains_around_failures (failOn_failing (· = 1) .closedDatabase)
    settings (s := backlog) ⟨rfl, Catalogue.wellFormed_after _⟩ hrequests (by decide +kernel)
  obtain ⟨hrows, hserved⟩ := hdrained 2 (by decide +kernel)
  refine ⟨(hreport 0).trans ?_, hrows, (hserved 3 (by decide)).trans ?_⟩
  · decide +kernel
  · decide +kernel

end Deployment

end MediaCatalogue
