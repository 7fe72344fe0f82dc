import MediaCatalogue.Proofs.Lookup
import MediaCatalogue.Proofs.Maintenance
import MediaCatalogue.Proofs.Oldest

/-!
# The index converges

**Main theorem** (`Maintenance.index_exact_of_idle`): whatever writers and a refresher did, in
whatever order, and whichever of their calls failed, once no request is left the labels are those
that the current edges demand, and lookups answer with connected ids.
-/

namespace MediaCatalogue

namespace Maintenance

/-- **The index converges.** After any run from the empty tables that leaves no request, the labels
are materialised from the edges, and lookups answer with all connected ids that are stored by an
enabled publisher. -/
theorem index_exact_of_idle (actions : List Action)
    (h : (run actions start).catalogue.pending = ∅) :
    (run actions start).catalogue.Materialised ∧
      (run actions start).catalogue.AnswersExactly := by
  have hsound : (run actions start).Sound := sound_start.run actions
  have hmaterialised := hsound.materialised h
  exact ⟨hmaterialised, hmaterialised.answersExactly⟩

/-- Two ids are linked, and released again while their labels are brought up to date; the request
that was made again meanwhile survives its completion and is served by a second batch. -/
def relinking : List Action :=
  have one : Id := ⟨1, by decide⟩
  have two : Id := ⟨2, by decide⟩
  have publisher : Publisher := ⟨"a.example", "all", "A"⟩
  [.write (.ofNanos 1) none (.equivalence ⟨one, IdSet.ofList [two], publisher, .ofNanos 5⟩),
   .refresh (.read 10), .refresh (.refresh none),
   .write (.ofNanos 2) none (.equivalence ⟨one, ∅, publisher, .ofNanos 6⟩),
   .refresh (.complete none), .refresh (.refresh (some 2)), .refresh (.read 10),
   .refresh (.refresh none), .refresh (.complete none), .refresh (.refresh none),
   .refresh (.complete none)]

theorem refresh_read (s : Maintenance) (limit : Nat) :
    s.refresh (.read limit) =
      match ((s.catalogue.pending.toList.insertionSort (Catalogue.byAge · · = true)).take limit).mapM
          Catalogue.requestOf with
      | .ok batch => { s with progress := .waiting batch }
      | .error _ => s := by
  rw [← Catalogue.oldestRequests_eq_insertionSort]
  rfl

theorem pending_run_relinking : (run relinking start).catalogue.pending = ∅ := by
  have hempty : (run relinking start).catalogue.pending.isEmpty = true := by
    simp only [run, relinking, List.foldl_cons, List.foldl_nil, act, refresh_read]
    decide +kernel
  exact Std.ExtTreeMap.isEmpty_iff.1 hempty

theorem index_exact_after_relinking :
    (run relinking start).catalogue.pending = ∅ ∧
      (run relinking start).catalogue.Materialised ∧
        (run relinking start).catalogue.AnswersExactly :=
  ⟨pending_run_relinking, index_exact_of_idle relinking pending_run_relinking⟩

end Maintenance

end MediaCatalogue
