import MediaCatalogue.Proofs.Merging
import MediaCatalogue.Proofs.Transactions

/-!
# Reading while others write

The statements of a lookup are not one transaction: labels may change after they were read, and then
the members of an old label are asked for.

**Main theorem** (`Transaction.found_iff_keepsLabel`): an id that is stored all the time is found
iff the label that was read for it is still its label when the members of that label are read
(`KeepsLabel`); a query for it has an answer then. An id that is relabelled in between is absent
(`Transaction.absent_while_relabelled`). One that is relabelled between the two statements that read
members is found.
-/

namespace MediaCatalogue

section

variable (states : Nat → Catalogue) (ids : IdSet) (id : Id)

/-- The label that was read for an id is still its label when members are read: the first statement
sees it in the row of the id, or the id is its own label and the second one sees no row. -/
def KeepsLabel : Prop :=
  (states (memberStatement states ids id)).sets[id.stored]? =
      some (labelRead states ids id).stored ∨
    (labelRead states ids id = id ∧
      (states (memberStatement states ids id + 1)).sets[id.stored]? = none)

end

section

variable {states : Nat → Catalogue} {ids : IdSet} {enabled : PublisherSet} {id : Id}

/-- **When a stored id is found.** A lookup finds an id that is stored all the time for itself if
the label that was read for it is still its label when members are read, and only then. -/
theorem lists_self_iff (hids : ∀ n, (states n).sets.HoldsIds) (hid : id ∈ ids)
    (hstored : ∀ n, (states n).StoredBy enabled id) :
    ∃ sets, lookup (.changing states) ids enabled = .ok sets ∧
      (sets.Lists id id ↔ KeepsLabel states ids id) := by
  obtain ⟨sets, hsets, hmem, _⟩ := lookup_changing hids ids enabled
  refine ⟨sets, hsets, ?_⟩
  rw [hmem, and_iff_right hid]
  simp only [IsFound, FoundFrom, KeepsLabel, hstored, true_and, eq_comm (a := id)]

end

/-! ### Queries -/

/-- What queries are answered with while tables change: the statements of a lookup see `states` from
the first one on, those that read records see them from number `later` on. -/
def changingServices (registry : Registry) (states : Nat → Catalogue) (later : Nat) :
    Services Unit :=
  { titles := none
    lookup := fun ids enabled => Deployment.outcome (lookup (.changing states) ids enabled)
    resolve := fun ids =>
      Deployment.outcome (resolveContent registry (.changing fun n => states (later + n)) ids) }

/-- The registry knows all publishers that an application may see. -/
def Sources.KnownTo (sources : Sources) (registry : Registry) : Prop :=
  ∀ p ∈ sources.precedence, ∃ q, registry.find? p.key = some q

theorem Catalogue.exists_eq_some_of_content? {c : Catalogue} {registry : Registry}
    {sources : Sources} {id : Id} {found : Option Content} (hkeyed : registry.Keyed)
    (hknown : sources.KnownTo registry) (hstored : c.StoredBy sources.enabled id)
    (h : c.content? registry id = .ok found) :
    ∃ record, found = some record ∧ sources.isEnabled record.publisher = true := by
  obtain ⟨row, hrow, p, hp, hkey⟩ := hstored
  rw [Sources.mem_enabled] at hp
  obtain ⟨q, hq⟩ := hknown p hp
  rw [← hkey] at hq
  cases found with
  | none =>
    rw [content?, hrow] at h
    simp only [ContentRow.content?, hq] at h
    obtain ⟨_, _, heq⟩ := of_bind_eq_ok h
    cases heq
  | some record =>
    obtain ⟨_, row', hrow', hfind⟩ := content?_eq_some h
    cases hrow.symm.trans hrow'
    refine ⟨record, rfl, Sources.isEnabled_iff.2 ⟨p, hp, ?_⟩⟩
    rw [← hkey, hkeyed _ _ hfind]

theorem Catalogue.exists_content?_enabled {c : Catalogue} {registry : Registry} {sources : Sources}
    {id : Id} (h : c.HoldsRecords) (hkeyed : registry.Keyed) (hknown : sources.KnownTo registry)
    (hstored : c.StoredBy sources.enabled id) :
    ∃ record, c.content? registry id = .ok (some record) ∧
      sources.isEnabled record.publisher = true := by
  obtain ⟨found, hfound⟩ := exists_content?_eq_ok h registry id
  obtain ⟨record, rfl, henabled⟩ := exists_eq_some_of_content? hkeyed hknown hstored hfound
  exact ⟨record, hfound, henabled⟩

theorem isEmpty_ofList_singleton (id : Id) : (IdSet.ofList [id]).isEmpty = false := by
  rw [← Bool.not_eq_true, Std.ExtTreeSet.isEmpty_iff]
  intro hempty
  have hmem : id ∈ IdSet.ofList [id] := by simp
  simp [hempty] at hmem

/-- A query for an id that the lookup finds for itself has an answer with that id. -/
theorem answer_of_lists {registry : Registry} {states : Nat → Catalogue} {context : QueryContext}
    {id : Id} {sets : IdMap IdSet} (later : Nat) (h : ∀ n, (states n).HoldsRecords)
    (hkeyed : registry.Keyed) (hknown : context.sources.KnownTo registry)
    (hstored : ∀ n, (states n).StoredBy context.sources.enabled id)
    (hlookup : lookup (.changing states) (IdSet.ofList [id]) context.sources.enabled = .ok sets)
    (hlists : sets.Lists id id) :
    ∃ answer, ((changingServices registry states later).answer (.single id) context).run () =
        (.ok answer, ()) ∧ ∃ m ∈ answer.resources, m.id = id := by
  obtain ⟨members, hget, hmember⟩ := hlists
  obtain ⟨r, hresolve, hrecords⟩ := resolveContent_changing (fun n => h (later + n)) registry
    (wantedIds sets)
  -- The record of the id itself is among those that are read, and it can be merged.
  obtain ⟨record, hread, henabled⟩ := Catalogue.exists_content?_enabled
    (h (later + batchOf (wantedIds sets).toList id)) hkeyed hknown (hstored _)
  have hrecord : (recordsById r)[id]? = some record :=
    (hrecords id record).2 ⟨mem_wantedIds.2 ⟨id, members, hget, hmember⟩, hread⟩
  obtain ⟨m, hm⟩ : ∃ m, merge context.sources context.details.retainsAll (recordsById r) id
      members = some m := exists_merge_eq_some hmember hrecord henabled
  have hidOf : idOf m = id := (merge_eq_some hm).1
  obtain ⟨m', hm', hid⟩ := Resolved.exists_mem_resources
    (mem_mergeSets.2 ⟨id, members, hget, hm⟩)
    (show idOf m ∈ IdSet.ofList [id] by simp [hidOf])
  -- So nothing stops the work on the query.
  have hsources : context.sources.isEmpty = false := by
    obtain ⟨_, _, p, hp, _⟩ := hstored 0
    rw [Sources.mem_enabled] at hp
    simp [Sources.isEmpty, List.ne_nil_of_mem hp]
  have hsets : sets.isEmpty = false := isEmpty_of_getElem?_eq_some hget
  have hlookup' : ((changingServices registry states later).lookup (IdSet.ofList [id])
      context.sources.enabled).run () = (.ok sets, ()) :=
    (Deployment.run_outcome _ _).trans (by rw [hlookup]; rfl)
  have hresolve' : ((changingServices registry states later).resolve (wantedIds sets)).run () =
      (.ok r, ()) :=
    (Deployment.run_outcome _ _).trans (by rw [hresolve]; rfl)
  have hmerged := Services.run_mergeIds (by rw [isEmpty_ofList_singleton, hsources]; rfl) hlookup'
    hsets hresolve'
  exact ⟨_, Services.run_answer_single hmerged hm', m', hm', hid.trans hidOf⟩

/-! ### Transactions between the statements -/

namespace Transaction

/-- **When a stored id is found.** Take any transactions that are committed before a lookup and
between its statements, and an id that is stored by an enabled publisher all the time.

* The lookup has an entry for the id, with the id in it, iff the label that was read for the id is
  still its label when the members of that label are read.
* Then a query for this id alone has an answer with it, under every registry that knows the enabled
  publishers. -/
theorem found_iff_keepsLabel (between : Nat → List Transaction) {context : QueryContext} {id : Id}
    (hstored : ∀ n, (tablesAt between n).StoredBy context.sources.enabled id) :
    (∀ ids : IdSet, id ∈ ids →
        ∃ sets, lookup (.changing (tablesAt between)) ids context.sources.enabled = .ok sets ∧
          ((∃ members, sets[id]? = some members ∧ id ∈ members) ↔
            KeepsLabel (tablesAt between) ids id)) ∧
      ∀ registry : Registry, registry.Keyed → context.sources.KnownTo registry →
        KeepsLabel (tablesAt between) (IdSet.ofList [id]) id → ∀ (later : Nat) (limit : Duration),
          have executor : Executor Unit :=
            ⟨changingServices registry (tablesAt between) later, limit⟩
          ∃ answer, ((executor.execute (.single id) context).run ()).1 = .ok answer ∧
            ∃ m ∈ answer.resources, m.id = id := by
  have hids : ∀ n, (tablesAt between n).sets.HoldsIds :=
    fun n => (wellFormed_tablesAt between n).holdsIds.sets
  refine ⟨fun ids hid => lists_self_iff hids hid hstored,
    fun registry hkeyed hknown hkeeps later limit => ?_⟩
  obtain ⟨sets, hsets, hlists⟩ := lists_self_iff hids (IdSet.mem_ofList.2 List.mem_cons_self)
    hstored
  obtain ⟨answer, hanswer, hm⟩ := answer_of_lists later
    (fun n => (wellFormed_tablesAt between n).written.holdsRecords) hkeyed hknown hstored hsets
    (hlists.2 hkeeps)
  refine ⟨answer, ?_, hm⟩
  rw [Executor.run_execute, hanswer]
  rfl

/-- The publisher of all records. -/
def broadcaster : Publisher := ⟨"bbc", "GB", "BBC"⟩

/-- An application that may see this publisher. -/
def viewer : QueryContext := ⟨⟨[broadcaster]⟩, ∅⟩

/-- A record without details. -/
def plainRecord (id : Id) : Content := ⟨id, broadcaster, .item, none, .ofNanos 0, .null⟩

/-- The record is stored, and is labelled with 5. -/
def labelling : List Transaction :=
  [.write (.ofNanos 0) none (.content (plainRecord 7)),
   .write (.ofNanos 0) none (.equivalence ⟨7, IdSet.ofList [5], broadcaster, .ofNanos 0⟩),
   .refresh none 7]

/-- Then 5 gets the equivalent 3, and the record is labelled with 3. -/
def relabelling : List Transaction :=
  [.write (.ofNanos 1) none (.equivalence ⟨5, IdSet.ofList [3], broadcaster, .ofNanos 0⟩),
   .refresh none 5]

/-- The record is labelled before a lookup, and relabelled before its statement number `n + 1`. -/
def relabellingBefore (n : Nat) : Nat → List Transaction
  | 0 => labelling
  | m + 1 => if m = n then relabelling else []

theorem tablesAt_relabellingBefore (n m : Nat) :
    tablesAt (relabellingBefore n) m =
      if n < m then (Catalogue.empty.after labelling).after relabelling
      else Catalogue.empty.after labelling := by
  induction m with
  | zero => rfl
  | succ m ih =>
    rw [tablesAt, ih, relabellingBefore]
    rcases Nat.lt_trichotomy n m with hlt | rfl | hlt
    · rw [if_neg (by omega : m ≠ n), if_pos hlt, if_pos (by omega)]
      rfl
    · rw [if_pos rfl, if_neg (Nat.lt_irrefl n), if_pos (Nat.lt_succ_self n)]
    · rw [if_neg (by omega : m ≠ n), if_neg (by omega), if_neg (by omega)]
      rfl

theorem storedBy_relabellingBefore (n m : Nat) :
    (tablesAt (relabellingBefore n) m).StoredBy viewer.sources.enabled 7 := by
  refine ⟨(plainRecord 7).row 0, ?_, broadcaster, ?_, rfl⟩
  · rw [tablesAt_relabellingBefore]
    split <;> decide +kernel
  · rw [Sources.mem_enabled]
    exact List.mem_singleton_self broadcaster

theorem knownTo_builtin : viewer.sources.KnownTo .builtin := by
  intro p hp
  cases List.mem_singleton.1 hp
  exact ⟨broadcaster, by decide +kernel⟩

/-- The record is relabelled between the two statements that read the members of its label. -/
theorem found_while_relabelled :
    (∃ sets members, lookup (.changing (tablesAt (relabellingBefore 1))) (IdSet.ofList [7])
        viewer.sources.enabled = .ok sets ∧ sets[(7 : Id)]? = some members ∧ 7 ∈ members) ∧
      ∃ answer, ((Executor.execute
          ⟨changingServices .builtin (tablesAt (relabellingBefore 1)) 3, .ofMillis 1⟩
          (.single 7) viewer).run ()).1 = .ok answer ∧ ∃ m ∈ answer.resources, m.id = 7 := by
  have hkeeps : KeepsLabel (tablesAt (relabellingBefore 1)) (IdSet.ofList [7]) 7 := by
    left
    decide +kernel
  obtain ⟨hfound, hanswer⟩ :=
    found_iff_keepsLabel (relabellingBefore 1) (storedBy_relabellingBefore 1)
  obtain ⟨sets, hsets, hiff⟩ := hfound _ (IdSet.mem_ofList.2 List.mem_cons_self)
  obtain ⟨members, hget, hmember⟩ := hiff.2 hkeeps
  exact ⟨⟨sets, members, hsets, hget, hmember⟩,
    hanswer .builtin Registry.keyed_builtin knownTo_builtin hkeeps 3 (.ofMillis 1)⟩

/-- **False absence.** The record is stored by an enabled publisher all the time. If it is
relabelled after its label was read, the lookup has no entry for it, and a query for it finds
nothing. If it is found, a query still finds nothing under a registry without its publisher. -/
theorem absent_while_relabelled :
    (∀ n m, (tablesAt (relabellingBefore n) m).StoredBy viewer.sources.enabled 7) ∧
      (lookup (.changing (tablesAt (relabellingBefore 0))) (IdSet.ofList [7])
          viewer.sources.enabled).map (·.contains 7) = .ok false ∧
        ((Executor.execute
            ⟨changingServices .builtin (tablesAt (relabellingBefore 0)) 3, .ofMillis 1⟩
            (.single 7) viewer).run ()).1.map (·.size) = .error (.notFound 7) ∧
          ((Executor.execute
              ⟨changingServices .empty (tablesAt (relabellingBefore 1)) 3, .ofMillis 1⟩
              (.single 7) viewer).run ()).1.map (·.size) = .error (.notFound 7) := by
  refine ⟨storedBy_relabellingBefore, ?_, ?_, ?_⟩
  · decide +kernel
  · decide +kernel
  · decide +kernel

end Transaction

end MediaCatalogue
