import MediaCatalogue.Proofs.Isolation

/-!
# Outcomes of queries under any services

A query is answered by calls of three services, whatever stands behind them: each call may give any
answer, what was not asked for included, and may give none. `ServiceCall` is a call together with
what it gave. Logged services (`Services.logged`) do what the services do and note each call, so
that `Executor.callsMade` are the calls that a query makes; noting them changes nothing else
(`Executor.run_execute_logged`).

* `MergeRun`, `SearchRun`, `SearchAnswerRun` and `AnswerRun` list what the parts of the work on a
  query can do: which calls they make, and what each of them leads to;
* `ServiceCall.StopsAt` is common to all of these: the work stops at the first call that gives no
  answer.

**Main theorem** (`Executor.outcome_of_calls`): a query fails iff a call failed or there is no title
index for a search, and the failure tells nothing of this; its time runs out iff a call never came
back; an answer has what callers may rely on (`Resolved.Answers`); and nothing is read after nothing
was found.
-/

namespace MediaCatalogue

variable {σ α β : Type}

/-! ### Calls and logs -/

/-- A call of a service, and what it gave. -/
inductive ServiceCall where
  /-- The title index was searched. -/
  | titles (query : TitleQuery) (result : Except Interruption (List Id))
  /-- Equivalence sets were looked up. -/
  | lookup (ids : IdSet) (enabled : PublisherSet) (result : Except Interruption (IdMap IdSet))
  /-- Records were read. -/
  | resolve (ids : IdSet) (result : Except Interruption (Resolved Content))

namespace ServiceCall

/-- Why the call gave no answer, if it did not. -/
def interruption? : ServiceCall → Option Interruption
  | titles _ (.error e) => some e
  | lookup _ _ (.error e) => some e
  | resolve _ (.error e) => some e
  | _ => none

/-- The call failed. -/
def Failed (call : ServiceCall) : Prop := ∃ fault, call.interruption? = some (.fault fault)

/-- The call never came back. -/
def NeverReturned (call : ServiceCall) : Prop := call.interruption? = some .never

/-- The title index found no ids, or there were no equivalence sets. -/
def FindsNothing : ServiceCall → Prop
  | titles _ (.ok ranked) => ranked.isEmpty = true
  | lookup _ _ (.ok sets) => sets.isEmpty = true
  | _ => False

/-- Records were read. -/
def IsRead : ServiceCall → Prop
  | resolve _ _ => True
  | _ => False

end ServiceCall

/-- A call that is noted. -/
def Call.logged (note : Except Interruption α → ServiceCall) (call : Call σ α) :
    Call (σ × List ServiceCall) α :=
  ExceptT.mk fun (s, calls) =>
    let (result, s) := call.run s
    (result, s, calls ++ [note result])

/-- Services all of whose calls are noted, in the order in which they are made. -/
def Services.logged (services : Services σ) : Services (σ × List ServiceCall) where
  titles := services.titles.map fun titles query => (titles query).logged (.titles query)
  lookup ids enabled := (services.lookup ids enabled).logged (.lookup ids enabled)
  resolve ids := (services.resolve ids).logged (.resolve ids)

namespace Step

/-- With logged services the work does the same, and the calls that are noted are such that `P`. -/
def Logs (work : Step σ α) (logged : Step (σ × List ServiceCall) α)
    (P : List ServiceCall → Except Stop α → Prop) : Prop :=
  ∀ s, ∃ made, P made (work.run s).1 ∧
    ∀ calls, logged.run (s, calls) = ((work.run s).1, (work.run s).2, calls ++ made)

variable {P : List ServiceCall → Except Stop α → Prop}
  {R : List ServiceCall → Except Stop β → Prop}

theorem logs_pure {a : α} (h : P [] (.ok a)) : Logs (pure a : Step σ α) (pure a) P :=
  fun s => ⟨[], h, fun calls => by rw [List.append_nil]; rfl⟩

theorem logs_throw {stop : Stop} (h : P [] (.error stop)) :
    Logs (throw stop : Step σ α) (throw stop) P :=
  fun s => ⟨[], h, fun calls => by rw [List.append_nil]; rfl⟩

theorem Logs.imp {work : Step σ α} {logged : Step (σ × List ServiceCall) α}
    {P' : List ServiceCall → Except Stop α → Prop} (h : Logs work logged P)
    (himp : ∀ made result, P made result → P' made result) : Logs work logged P' := by
  intro s
  obtain ⟨made, hmade, hrun⟩ := h s
  exact ⟨made, himp _ _ hmade, hrun⟩

/-- What comes first may stop; if it does not, the rest makes the calls that follow. -/
theorem Logs.bind {work : Step σ α} {logged : Step (σ × List ServiceCall) α} {f : α → Step σ β}
    {f' : α → Step (σ × List ServiceCall) β} (h : Logs work logged P)
    (hstop : ∀ made stop, P made (.error stop) → R made (.error stop))
    (hnext : ∀ made a, P made (.ok a) →
      Logs (f a) (f' a) fun rest result => R (made ++ rest) result) :
    Logs (work >>= f) (logged >>= f') R := by
  intro s
  obtain ⟨made, hmade, hlogged⟩ := h s
  cases hrun : work.run s with
  | mk result s' =>
    rw [hrun] at hmade hlogged
    cases result with
    | error stop =>
      rw [run_bind_error hrun]
      exact ⟨made, hstop made stop hmade, fun calls => run_bind_error (hlogged calls)⟩
    | ok a =>
      rw [run_bind_ok hrun]
      obtain ⟨rest, hrest, hnext⟩ := hnext made a hmade s'
      refine ⟨made ++ rest, hrest, fun calls => ?_⟩
      rw [run_bind_ok (hlogged calls), hnext, List.append_assoc]

theorem logs_step (note : Except Interruption α → ServiceCall) (call : Call σ α) :
    Logs call.step (call.logged note).step fun made result =>
      ∃ given, made = [note given] ∧ result = given.mapError Interruption.stop :=
  fun s => ⟨[note (call.run s).1], ⟨_, rfl, rfl⟩, fun _ => rfl⟩

theorem logs_step_bind {note : Except Interruption α → ServiceCall} {call : Call σ α}
    {f : α → Step σ β} {f' : α → Step (σ × List ServiceCall) β}
    (hstop : ∀ e, R [note (.error e)] (.error e.stop))
    (hnext : ∀ a, Logs (f a) (f' a) fun rest result => R (note (.ok a) :: rest) result) :
    Logs (call.step >>= f) ((call.logged note).step >>= f') R := by
  refine (logs_step note call).bind ?_ ?_
  · rintro _ _ ⟨_ | _, rfl, heq⟩
    · cases heq
      exact hstop _
    · cases heq
  · rintro _ a ⟨_ | _, rfl, heq⟩
    · cases heq
    · cases heq
      exact hnext a

end Step

open Step

/-! ### What the parts of the work can do -/

/-- What answering for some ids can do. -/
inductive MergeRun (context : QueryContext) (ids : IdSet) :
    List ServiceCall → Except Stop (Resolved Merged) → Prop
  /-- Nothing is asked for, or nothing may be seen. -/
  | skipped : MergeRun context ids [] (.ok (.none ids))
  /-- The lookup gives no answer. -/
  | unanswered (hids : ids.isEmpty = false) (e : Interruption) :
    MergeRun context ids [.lookup ids context.sources.enabled (.error e)] (.error e.stop)
  /-- There are no sets. -/
  | nothing (hids : ids.isEmpty = false) {sets : IdMap IdSet} (hsets : sets.isEmpty = true) :
    MergeRun context ids [.lookup ids context.sources.enabled (.ok sets)] (.ok (.none ids))
  /-- The records of the sets are not read. -/
  | unread (hids : ids.isEmpty = false) {sets : IdMap IdSet} (hsets : sets.isEmpty = false)
    (e : Interruption) :
    MergeRun context ids [.lookup ids context.sources.enabled (.ok sets),
      .resolve (wantedIds sets) (.error e)] (.error e.stop)
  /-- The records of the sets are merged. -/
  | merged (hids : ids.isEmpty = false) {sets : IdMap IdSet} (hsets : sets.isEmpty = false)
    (r : Resolved Content) :
    MergeRun context ids [.lookup ids context.sources.enabled (.ok sets),
        .resolve (wantedIds sets) (.ok r)]
      (.ok (.of ids (mergeSets context (recordsById r) sets)))

/-- What a search for titles can do, if there is a title index or not. -/
inductive SearchRun (canSearch : Bool) (query : TitleQuery) (sources : Sources) :
    List ServiceCall → Except Stop (List Content) → Prop
  /-- There is no title index. -/
  | unavailable (h : canSearch = false) :
    SearchRun canSearch query sources [] (.error (.failed .noTitleSearch))
  /-- The title index gives no answer. -/
  | unanswered (h : canSearch = true) (e : Interruption) :
    SearchRun canSearch query sources [.titles query (.error e)] (.error e.stop)
  /-- There are no hits. -/
  | nothing (h : canSearch = true) :
    SearchRun canSearch query sources [.titles query (.ok [])] (.ok [])
  /-- The records of the hits are not read. -/
  | unread (h : canSearch = true) {ranked : List Id} (hranked : ranked.isEmpty = false)
    (e : Interruption) :
    SearchRun canSearch query sources
      [.titles query (.ok ranked), .resolve (IdSet.ofList ranked) (.error e)] (.error e.stop)
  /-- The records of the hits are kept that may be seen. -/
  | found (h : canSearch = true) {ranked : List Id} (hranked : ranked.isEmpty = false)
    (r : Resolved Content) :
    SearchRun canSearch query sources
      [.titles query (.ok ranked), .resolve (IdSet.ofList ranked) (.ok r)]
      (.ok (keptHits sources ranked r))

/-- The merged records of hits in the order of the hits, without those that are represented by the
record of an earlier one. -/
def orderedHits (records : List Content) (merged : Resolved Merged) : List Merged :=
  have byId : IdMap Merged := Std.ExtTreeMap.ofList (merged.resources.map fun m => (m.id, m))
  distinctBy (·.primary.id) ((distinct (records.map Content.id)).filterMap (byId[·]?))

/-- What answering a search can do. -/
inductive SearchAnswerRun (canSearch : Bool) (query : TitleQuery) (context : QueryContext) :
    List ServiceCall → Except Stop (Resolved Merged) → Prop
  /-- The search stops. -/
  | stopped {made : List ServiceCall} {stop : Stop}
    (h : SearchRun canSearch query context.sources made (.error stop)) :
    SearchAnswerRun canSearch query context made (.error stop)
  /-- What was found is not merged. -/
  | alone {made : List ServiceCall} {records : List Content}
    (h : SearchRun canSearch query context.sources made (.ok records)) :
    SearchAnswerRun canSearch query context made
      (.ok (.of (IdSet.ofList (records.map Content.id)) (records.map Merged.alone)))
  /-- Merging stops. -/
  | unmerged {made rest : List ServiceCall} {records : List Content} {stop : Stop}
    (h : SearchRun canSearch query context.sources made (.ok records))
    (hrest : MergeRun context (IdSet.ofList (records.map Content.id)) rest (.error stop)) :
    SearchAnswerRun canSearch query context (made ++ rest) (.error stop)
  /-- What was found is merged. -/
  | merged {made rest : List ServiceCall} {records : List Content} {merged : Resolved Merged}
    (h : SearchRun canSearch query context.sources made (.ok records))
    (hrest : MergeRun context (IdSet.ofList (records.map Content.id)) rest (.ok merged)) :
    SearchAnswerRun canSearch query context (made ++ rest)
      (.ok (.of (IdSet.ofList (records.map Content.id)) (orderedHits records merged)))

/-- What answering a query can do. -/
inductive AnswerRun (canSearch : Bool) (context : QueryContext) :
    Query → List ServiceCall → Except Stop (Resolved Merged) → Prop
  /-- The work for a single record stops. -/
  | stopped {id : Id} {made : List ServiceCall} {stop : Stop}
    (h : MergeRun context (IdSet.ofList [id]) made (.error stop)) :
    AnswerRun canSearch context (.single id) made (.error stop)
  /-- There is no single record. -/
  | absent {id : Id} {made : List ServiceCall} {merged : Resolved Merged}
    (h : MergeRun context (IdSet.ofList [id]) made (.ok merged)) (hnone : merged.isEmpty = true) :
    AnswerRun canSearch context (.single id) made (.error (.notFound id))
  /-- There is a single record. -/
  | single {id : Id} {made : List ServiceCall} {merged : Resolved Merged}
    (h : MergeRun context (IdSet.ofList [id]) made (.ok merged)) (hsome : merged.isEmpty = false) :
    AnswerRun canSearch context (.single id) made (.ok merged)
  /-- Several records are asked for. -/
  | multiple {ids : List Id} {selection : Selection} {made : List ServiceCall}
    {result : Except Stop (Resolved Merged)}
    (h : MergeRun context (selection.selectIds ids) made result) :
    AnswerRun canSearch context (.multiple ids selection) made result
  /-- Titles are searched. -/
  | search {text : String} {selection : Selection} {made : List ServiceCall}
    {result : Except Stop (Resolved Merged)}
    (h : SearchAnswerRun canSearch (.forSources text selection context.sources) context made
      result) :
    AnswerRun canSearch context (.search text selection) made result

namespace Services

variable (services : Services σ) (context : QueryContext)

theorem logs_mergeIds (ids : IdSet) :
    Logs (services.mergeIds ids context) (services.logged.mergeIds ids context)
      (MergeRun context ids) := by
  unfold mergeIds
  split
  · exact logs_pure .skipped
  · rename_i hasked
    have hids : ids.isEmpty = false := (Bool.or_eq_false_iff.1 (Bool.eq_false_iff.2 hasked)).1
    refine logs_step_bind (.unanswered hids) fun sets => ?_
    split
    · rename_i hsets
      exact logs_pure (.nothing hids hsets)
    · rename_i hsets
      have hsets : sets.isEmpty = false := Bool.eq_false_iff.2 hsets
      exact logs_step_bind (.unread hids hsets) fun r => logs_pure (.merged hids hsets r)

theorem logs_searchTitles (query : TitleQuery) :
    Logs (services.searchTitles query context.sources)
      (services.logged.searchTitles query context.sources)
      (SearchRun services.titles.isSome query context.sources) := by
  unfold searchTitles logged
  cases services.titles with
  | none => exact logs_throw (.unavailable rfl)
  | some titles =>
    unfold searchWith
    refine logs_step_bind (.unanswered rfl) fun ranked => ?_
    split
    · rename_i hranked
      cases List.isEmpty_iff.1 hranked
      exact logs_pure (.nothing rfl)
    · rename_i hranked
      have hranked : ranked.isEmpty = false := Bool.eq_false_iff.2 hranked
      exact logs_step_bind (.unread rfl hranked) fun r => logs_pure (.found rfl hranked r)

theorem logs_answerSearch (text : String) (selection : Selection) :
    Logs (services.answerSearch text selection context)
      (services.logged.answerSearch text selection context)
      (SearchAnswerRun services.titles.isSome (.forSources text selection context.sources)
        context) := by
  unfold answerSearch
  refine (services.logs_searchTitles context _).bind (fun _ _ => .stopped) fun made records h => ?_
  split
  · refine logs_pure ?_
    rw [List.append_nil]
    exact .alone h
  · refine (services.logs_mergeIds context _).bind (fun _ _ => .unmerged h) ?_
    refine fun rest merged hrest => logs_pure ?_
    rw [List.append_nil]
    exact .merged h hrest

theorem logs_answer (query : Query) :
    Logs (services.answer query context) (services.logged.answer query context)
      (AnswerRun services.titles.isSome context query) := by
  cases query with
  | single id =>
    unfold answer
    refine (services.logs_mergeIds context _).bind (fun _ _ => .stopped) fun made merged h => ?_
    split
    · rename_i hnone
      refine logs_throw ?_
      rw [List.append_nil]
      exact .absent h hnone
    · rename_i hsome
      refine logs_pure ?_
      rw [List.append_nil]
      exact .single h (Bool.eq_false_iff.2 hsome)
  | multiple ids selection => exact (services.logs_mergeIds context _).imp fun _ _ => .multiple
  | search text selection =>
    exact (services.logs_answerSearch context text selection).imp fun _ _ => .search

end Services

/-! ### Where the work stops -/

theorem Interruption.stop_injective {e e' : Interruption} (h : e.stop = e'.stop) : e = e' := by
  cases e <;> cases e' <;> cases h <;> rfl

namespace ServiceCall

/-- The work stops at a call that gives no answer, and only there. -/
def StopsAt (made : List ServiceCall) (result : Except Stop α) : Prop :=
  ∀ e : Interruption, result = .error e.stop ↔ ∃ call ∈ made, call.interruption? = some e

theorem stopsAt_nil {a : α} : StopsAt [] (.ok a : Except Stop α) := by
  simp [StopsAt]

theorem stopsAt_nil_error {stop : Stop} (h : ∀ e : Interruption, stop ≠ e.stop) :
    StopsAt [] (.error stop : Except Stop α) := by
  simpa [StopsAt] using h

theorem stopsAt_interrupted {call : ServiceCall} {e : Interruption}
    (h : call.interruption? = some e) : StopsAt [call] (.error e.stop : Except Stop α) := by
  intro e'
  simp only [Except.error.injEq, List.mem_singleton, exists_eq_left, h, Option.some.injEq]
  exact ⟨Interruption.stop_injective, fun heq => heq ▸ rfl⟩

/-- Before the calls that follow, all calls gave answers. -/
theorem StopsAt.append {made rest : List ServiceCall} {a : β} {result : Except Stop α}
    (h : StopsAt made (.ok a : Except Stop β)) (hrest : StopsAt rest result) :
    StopsAt (made ++ rest) result := by
  intro e
  rw [hrest e]
  have hanswered : ¬ ∃ call ∈ made, call.interruption? = some e := by
    rw [← h e]
    exact fun heq => by cases heq
  simp only [List.mem_append]
  constructor
  · rintro ⟨call, hcall, he⟩
    exact ⟨call, .inr hcall, he⟩
  · rintro ⟨call, hcall | hcall, he⟩
    · exact absurd ⟨call, hcall, he⟩ hanswered
    · exact ⟨call, hcall, he⟩

theorem StopsAt.cons {call : ServiceCall} {rest : List ServiceCall} {result : Except Stop α}
    (h : call.interruption? = none) (hrest : StopsAt rest result) :
    StopsAt (call :: rest) result := by
  intro e
  rw [hrest e]
  simp [h]

theorem StopsAt.retype {made : List ServiceCall} {result : Except Stop α} {result' : Except Stop β}
    (h : StopsAt made result)
    (hsame : ∀ e : Interruption, result' = .error e.stop ↔ result = .error e.stop) :
    StopsAt made result' :=
  fun e => (hsame e).trans (h e)

end ServiceCall

open ServiceCall

section

variable {context : QueryContext} {ids : IdSet} {made : List ServiceCall} {canSearch : Bool}

theorem MergeRun.stopsAt {result : Except Stop (Resolved Merged)}
    (h : MergeRun context ids made result) : StopsAt made result := by
  cases h with
  | skipped => exact stopsAt_nil
  | unanswered _ e => exact stopsAt_interrupted rfl
  | nothing => exact stopsAt_nil.cons rfl
  | unread _ _ e => exact (stopsAt_interrupted rfl).cons rfl
  | merged => exact (stopsAt_nil.cons rfl).cons rfl

theorem SearchRun.stopsAt {query : TitleQuery} {sources : Sources}
    {result : Except Stop (List Content)} (h : SearchRun canSearch query sources made result) :
    StopsAt made result := by
  cases h with
  | unavailable => exact stopsAt_nil_error fun e => by cases e <;> simp [Interruption.stop]
  | unanswered _ e => exact stopsAt_interrupted rfl
  | nothing => exact stopsAt_nil.cons rfl
  | unread _ _ e => exact (stopsAt_interrupted rfl).cons rfl
  | found => exact (stopsAt_nil.cons rfl).cons rfl

theorem SearchAnswerRun.stopsAt {query : TitleQuery} {result : Except Stop (Resolved Merged)}
    (h : SearchAnswerRun canSearch query context made result) : StopsAt made result := by
  cases h with
  | stopped h => exact h.stopsAt.retype fun e => by simp
  | alone h => exact h.stopsAt.retype fun e => by simp
  | unmerged h hrest => exact h.stopsAt.append hrest.stopsAt
  | merged h hrest => exact h.stopsAt.append (hrest.stopsAt.retype fun e => by simp)

theorem AnswerRun.stopsAt {query : Query} {result : Except Stop (Resolved Merged)}
    (h : AnswerRun canSearch context query made result) : StopsAt made result := by
  cases h with
  | stopped h => exact h.stopsAt
  | absent h => exact h.stopsAt.retype fun e => by cases e <;> simp [Interruption.stop]
  | single h => exact h.stopsAt
  | multiple h => exact h.stopsAt
  | search h => exact h.stopsAt

theorem MergeRun.stop {stop : Stop} (h : MergeRun context ids made (.error stop)) :
    ∃ e : Interruption, stop = e.stop := by
  cases h with
  | unanswered _ e => exact ⟨e, rfl⟩
  | unread _ _ e => exact ⟨e, rfl⟩

theorem SearchRun.stop {query : TitleQuery} {sources : Sources} {stop : Stop}
    (h : SearchRun canSearch query sources made (.error stop)) :
    (∃ e : Interruption, stop = e.stop) ∨ canSearch = false ∧ stop = .failed .noTitleSearch := by
  cases h with
  | unavailable h => exact .inr ⟨h, rfl⟩
  | unanswered _ e => exact .inl ⟨e, rfl⟩
  | unread _ _ e => exact .inl ⟨e, rfl⟩

/-- Work stops at a call, or because there is no single record, or no title index. -/
theorem AnswerRun.stop {query : Query} {stop : Stop}
    (h : AnswerRun canSearch context query made (.error stop)) :
    (∃ e : Interruption, stop = e.stop) ∨ (∃ id, query = .single id ∧ stop = .notFound id) ∨
      (∃ text selection, query = .search text selection) ∧ canSearch = false ∧
        stop = .failed .noTitleSearch := by
  cases h with
  | stopped h => exact .inl h.stop
  | @absent id => exact .inr (.inl ⟨id, rfl, rfl⟩)
  | multiple h => exact .inl h.stop
  | @search text selection _ _ h =>
    cases h with
    | stopped h => exact h.stop.imp_right fun h => .inr ⟨⟨text, selection, rfl⟩, h⟩
    | unmerged _ hrest => exact .inl hrest.stop

theorem AnswerRun.eq_of_unavailable {text : String} {selection : Selection}
    {result : Except Stop (Resolved Merged)}
    (h : AnswerRun false context (.search text selection) made result) :
    result = .error (.failed .noTitleSearch) := by
  have hsearch : ∀ {query made result}, SearchRun false query context.sources made result →
      result = .error (.failed .noTitleSearch) := by
    intro query made result h
    cases h with
    | unavailable => rfl
    | unanswered h => cases h
    | nothing h => cases h
    | unread h => cases h
    | found h => cases h
  cases h with
  | search h =>
    cases h with
    | stopped h =>
      cases hsearch h
      rfl
    | alone h => cases hsearch h
    | unmerged h => cases hsearch h
    | merged h => cases hsearch h

/-! ### What is read -/

/-- Nothing is read after nothing was found. -/
def ServiceCall.ReadsWhatIsFound (made : List ServiceCall) : Prop :=
  made.Pairwise fun earlier later => earlier.FindsNothing → ¬ later.IsRead

theorem MergeRun.readsWhatIsFound {result : Except Stop (Resolved Merged)}
    (h : MergeRun context ids made result) : ReadsWhatIsFound made := by
  cases h <;> simp_all [ReadsWhatIsFound, FindsNothing, IsRead]

theorem SearchRun.readsWhatIsFound {query : TitleQuery} {sources : Sources}
    {result : Except Stop (List Content)} (h : SearchRun canSearch query sources made result) :
    ReadsWhatIsFound made := by
  cases h <;> simp_all [ReadsWhatIsFound, FindsNothing, IsRead]

theorem MergeRun.eq_nil {result : Except Stop (Resolved Merged)}
    (h : MergeRun context ids made result) (hids : ids.isEmpty = true) : made = [] := by
  cases h <;> simp_all

theorem SearchRun.eq_nil {query : TitleQuery} {sources : Sources} {records : List Content}
    (h : SearchRun canSearch query sources made (.ok records)) {call : ServiceCall}
    (hcall : call ∈ made) (hnothing : call.FindsNothing) : records = [] := by
  cases h with
  | nothing => rfl
  | found _ hranked r =>
    simp only [List.mem_cons, List.not_mem_nil, or_false] at hcall
    rcases hcall with rfl | rfl
    · rw [FindsNothing, hranked] at hnothing
      cases hnothing
    · cases hnothing

theorem SearchRun.readsWhatIsFound_append {query : TitleQuery} {sources : Sources}
    {records : List Content} {rest : List ServiceCall} {result : Except Stop (Resolved Merged)}
    (h : SearchRun canSearch query sources made (.ok records))
    (hrest : MergeRun context (IdSet.ofList (records.map Content.id)) rest result) :
    ReadsWhatIsFound (made ++ rest) := by
  refine List.pairwise_append.2 ⟨h.readsWhatIsFound, hrest.readsWhatIsFound, ?_⟩
  intro earlier hearlier later hlater hnothing
  -- Only a search that found no records finds nothing, and then the rest makes no calls.
  cases h.eq_nil hearlier hnothing
  cases hrest.eq_nil rfl
  cases hlater

theorem AnswerRun.readsWhatIsFound {query : Query} {result : Except Stop (Resolved Merged)}
    (h : AnswerRun canSearch context query made result) : ReadsWhatIsFound made := by
  cases h with
  | stopped h => exact h.readsWhatIsFound
  | absent h => exact h.readsWhatIsFound
  | single h => exact h.readsWhatIsFound
  | multiple h => exact h.readsWhatIsFound
  | search h =>
    cases h with
    | stopped h => exact h.readsWhatIsFound
    | alone h => exact h.readsWhatIsFound
    | unmerged h hrest => exact h.readsWhatIsFound_append hrest
    | merged h hrest => exact h.readsWhatIsFound_append hrest

end

/-! ### Answers -/

/-- All records that are shown are those of enabled publishers, and belong to the set. -/
def Merged.ShowsSet (sources : Sources) (m : Merged) : Prop :=
  ∀ record, record = m.primary ∨ record ∈ m.equivalents →
    sources.isEnabled record.publisher = true ∧ record.id ∈ m.equivalentIds

theorem Merged.showsSet_alone {sources : Sources} {record : Content}
    (h : sources.isEnabled record.publisher = true) : (alone record).ShowsSet sources := by
  rintro _ (rfl | hrecord)
  · exact ⟨h, by simp [alone]⟩
  · cases hrecord

theorem showsSet_of_mem_mergeSets {context : QueryContext} {r : Resolved Content}
    {sets : IdMap IdSet} {m : Merged} (h : m ∈ mergeSets context (recordsById r) sets) :
    m.ShowsSet context.sources := by
  obtain ⟨_, members, _, hmerge⟩ := mem_mergeSets.1 h
  obtain ⟨_, hset, hrecords⟩ := merge_eq_some hmerge
  intro record hrecord
  obtain ⟨henabled, x, hx, hread⟩ := hrecords record hrecord
  rw [hset, id_of_recordsById hread]
  exact ⟨henabled, hx⟩

/-- Each id has one resource at most and was requested, and all resources show their sets. -/
structure Resolved.IsSound (sources : Sources) (answer : Resolved Merged) : Prop where
  nodup : (answer.resources.map Merged.id).Nodup
  mem_requested : ∀ m ∈ answer.resources, m.id ∈ answer.requested
  showsSet : ∀ m ∈ answer.resources, m.ShowsSet sources

theorem Resolved.isSound_none {sources : Sources} {ids : IdSet} : (none ids).IsSound sources where
  nodup := List.nodup_nil
  mem_requested m hm := by cases hm
  showsSet m hm := by cases hm

theorem Resolved.isSound_of {sources : Sources} {ids : IdSet} {resources : List Merged}
    (h : ∀ m ∈ resources, m.ShowsSet sources) : (of ids resources).IsSound sources where
  nodup := nodup_map_distinctFrom _ _ _
  mem_requested _ hm := (mem_of_mem_resources hm).2
  showsSet m hm := h m (mem_of_mem_resources hm).1

section

variable {context : QueryContext} {ids : IdSet} {made : List ServiceCall} {canSearch : Bool}
  {answer : Resolved Merged}

theorem MergeRun.requested_eq (h : MergeRun context ids made (.ok answer)) :
    answer.requested = ids := by
  cases h <;> rfl

theorem MergeRun.isSound (h : MergeRun context ids made (.ok answer)) :
    answer.IsSound context.sources := by
  cases h with
  | skipped => exact Resolved.isSound_none
  | nothing => exact Resolved.isSound_none
  | merged => exact Resolved.isSound_of fun _ => showsSet_of_mem_mergeSets

theorem isEnabled_of_mem_keptHits {sources : Sources} {ranked : List Id} {r : Resolved Content}
    {record : Content} (h : record ∈ keptHits sources ranked r) :
    sources.isEnabled record.publisher = true :=
  (List.mem_filter.1 h).2

theorem mem_resources_of_mem_orderedHits {records : List Content} {merged : Resolved Merged}
    {m : Merged} (h : m ∈ orderedHits records merged) : m ∈ merged.resources := by
  obtain ⟨_, _, hget⟩ := List.mem_filterMap.1 (mem_of_mem_distinctFrom h).1
  obtain ⟨m', hm', heq⟩ := List.mem_map.1 (mem_of_getElem?_ofList hget)
  cases heq
  exact hm'

theorem SearchAnswerRun.isSound {query : TitleQuery}
    (h : SearchAnswerRun canSearch query context made (.ok answer)) :
    answer.IsSound context.sources := by
  cases h with
  | alone h =>
    refine Resolved.isSound_of fun m hm => ?_
    obtain ⟨record, hrecord, rfl⟩ := List.mem_map.1 hm
    cases h with
    | nothing => cases hrecord
    | found => exact Merged.showsSet_alone (isEnabled_of_mem_keptHits hrecord)
  | merged _ hrest =>
    exact Resolved.isSound_of fun m hm =>
      hrest.isSound.showsSet m (mem_resources_of_mem_orderedHits hm)

theorem AnswerRun.isSound {query : Query}
    (h : AnswerRun canSearch context query made (.ok answer)) :
    answer.IsSound context.sources := by
  cases h with
  | single h => exact h.isSound
  | multiple h => exact h.isSound
  | search h => exact h.isSound

theorem AnswerRun.resources_eq {id : Id}
    (h : AnswerRun canSearch context (.single id) made (.ok answer)) :
    ∃ m, answer.resources = [m] ∧ m.id = id := by
  cases h with
  | single h hsome =>
    have hrequested : ∀ m ∈ answer.resources, m.id = id := by
      intro m hm
      have hmem := h.isSound.mem_requested m hm
      rwa [h.requested_eq, IdSet.mem_ofList, List.mem_singleton] at hmem
    have hnodup := h.isSound.nodup
    cases hresources : answer.resources with
    | nil => simp [Resolved.isEmpty, hresources] at hsome
    | cons m others =>
      -- All resources have the one id that was requested, and no id has two.
      rw [hresources] at hrequested hnodup
      obtain ⟨hfirst, hothers⟩ := List.forall_mem_cons.1 hrequested
      have hnone : others = [] := by
        refine List.eq_nil_iff_forall_not_mem.2 fun m' hm' => ?_
        refine (List.nodup_cons.1 hnodup).1 (List.mem_map.2 ⟨m', hm', ?_⟩)
        rw [hothers m' hm', hfirst]
      exact ⟨m, by rw [hnone], hfirst⟩

end

/-- What callers may rely on in the answer to a query. -/
structure Resolved.Answers (answer : Resolved Merged) (query : Query) (context : QueryContext) :
    Prop where
  /-- Each id has one resource at most and was requested, and what is shown of it is enabled and in
  its set. -/
  sound : answer.IsSound context.sources
  /-- A single id has its resource, and there is no other. -/
  single : ∀ id, query = .single id → ∃ m, answer.resources = [m] ∧ m.id = id
  /-- The ids on the page are requested when several are asked for. -/
  multiple : ∀ ids selection, query = .multiple ids selection →
    answer.requested = selection.selectIds ids

theorem AnswerRun.answers {canSearch : Bool} {context : QueryContext} {query : Query}
    {made : List ServiceCall} {answer : Resolved Merged}
    (h : AnswerRun canSearch context query made (.ok answer)) : answer.Answers query context where
  sound := h.isSound
  single := by
    rintro id rfl
    exact h.resources_eq
  multiple := by
    rintro ids selection rfl
    cases h with
    | multiple h => exact h.requested_eq

theorem AnswerRun.query_eq_of_notFound {canSearch : Bool} {context : QueryContext} {query : Query}
    {made : List ServiceCall} {id : Id}
    (h : AnswerRun canSearch context query made (.error (.notFound id))) : query = .single id := by
  rcases h.stop with ⟨e, he⟩ | ⟨_, hquery, heq⟩ | ⟨_, _, heq⟩
  · cases e <;> cases he
  · cases heq
    exact hquery
  · cases heq

theorem AnswerRun.failed_iff {canSearch : Bool} {context : QueryContext} {query : Query}
    {made : List ServiceCall} {result : Except Stop (Resolved Merged)}
    (h : AnswerRun canSearch context query made result) :
    (∃ cause, result = .error (.failed cause)) ↔ (∃ call ∈ made, call.Failed) ∨
      (∃ text selection, query = .search text selection) ∧ canSearch = false := by
  have hstops : ∀ fault, result = .error (.failed (.fault fault)) ↔
      ∃ call ∈ made, call.interruption? = some (.fault fault) :=
    fun fault => h.stopsAt (.fault fault)
  constructor
  · rintro ⟨cause, rfl⟩
    -- Of the ways to stop, a missing record is no failure.
    rcases h.stop with ⟨e, he⟩ | ⟨_, _, heq⟩ | ⟨hsearch, hnone, _⟩
    · cases e with
      | fault fault =>
        cases he
        obtain ⟨call, hcall, hfault⟩ := (hstops fault).1 rfl
        exact .inl ⟨call, hcall, fault, hfault⟩
      | never => cases he
    · cases heq
    · exact .inr ⟨hsearch, hnone⟩
  · rintro (⟨call, hcall, fault, hfault⟩ | ⟨⟨text, selection, rfl⟩, rfl⟩)
    · exact ⟨_, (hstops fault).2 ⟨call, hcall, hfault⟩⟩
    · exact ⟨_, h.eq_of_unavailable⟩

/-! ### Outcomes -/

/-- The outcome of work that came to a result. -/
def outcomeOf (limit : Duration) (result : Except Stop (Resolved Merged)) :
    Except QueryError (Resolved Merged) :=
  result.mapError fun stop => (stop.error limit).hideWith .unresolved

section

variable {limit : Duration} {result : Except Stop (Resolved Merged)}

theorem outcomeOf_eq_ok_iff {answer : Resolved Merged} :
    outcomeOf limit result = .ok answer ↔ result = .ok answer := by
  cases result <;> simp [outcomeOf, Except.mapError]

theorem outcomeOf_eq_notFound_iff {id : Id} :
    outcomeOf limit result = .error (.notFound id) ↔ result = .error (.notFound id) := by
  rcases result with (_ | _ | _) | _ <;>
    simp [outcomeOf, Except.mapError, Stop.error, QueryError.hideWith]

theorem outcomeOf_eq_failed_iff {cause : QueryFailure} :
    outcomeOf limit result = .error (.failed cause) ↔
      cause = .unresolved ∧ ∃ failure, result = .error (.failed failure) := by
  rcases result with (_ | _ | _) | _ <;>
    simp [outcomeOf, Except.mapError, Stop.error, QueryError.hideWith, eq_comm]

theorem outcomeOf_eq_timedOut_iff {time : Duration} :
    outcomeOf limit result = .error (.timedOut time) ↔ time = limit ∧ result = .error .never := by
  rcases result with (_ | _ | _) | _ <;>
    simp [outcomeOf, Except.mapError, Stop.error, QueryError.hideWith, eq_comm]

end

namespace Executor

variable (executor : Executor σ) (query : Query) (context : QueryContext)

/-- The executor with logged services. -/
def logged : Executor (σ × List ServiceCall) := ⟨executor.services.logged, executor.limit⟩

/-- The calls that are made to answer a query, in order. -/
def callsMade (s : σ) : List ServiceCall :=
  ((executor.logged.execute query context).run (s, [])).2.2

/-- The work on a query is one of those that are listed, with the calls that are made. -/
theorem answerRun_callsMade (s : σ) :
    AnswerRun executor.canSearch context query (executor.callsMade query context s)
        ((executor.services.answer query context).run s).1 ∧
      ∀ calls, (executor.services.logged.answer query context).run (s, calls) =
        (((executor.services.answer query context).run s).1,
          ((executor.services.answer query context).run s).2,
          calls ++ executor.callsMade query context s) := by
  obtain ⟨made, hmade, hlogged⟩ := executor.services.logs_answer context query s
  have hcalls : executor.callsMade query context s = made := by
    rw [callsMade, run_execute, logged, hlogged, List.nil_append]
  rw [hcalls]
  exact ⟨hmade, hlogged⟩

/-- Noting calls changes neither the outcome nor what the calls do. -/
theorem run_execute_logged (s : σ) (calls : List ServiceCall) :
    (executor.logged.execute query context).run (s, calls) =
      (((executor.execute query context).run s).1, ((executor.execute query context).run s).2,
        calls ++ executor.callsMade query context s) := by
  rw [run_execute, run_execute, logged, (executor.answerRun_callsMade query context s).2]

/-- **Outcomes of queries.** The services may do anything. An answer is one to the query; only a
single record can be missing. The query fails iff a call failed, or it is a search and there is no
title index, and the failure tells nothing of this; its time runs out iff a call never came back. No
records are read after the title index found nothing, or there were no equivalence sets. -/
theorem outcome_of_calls (s : σ) :
    have outcome := ((executor.execute query context).run s).1
    have calls := executor.callsMade query context s
    (∀ answer, outcome = .ok answer → answer.Answers query context) ∧
      (∀ id, outcome = .error (.notFound id) → query = .single id) ∧
      ((∃ cause, outcome = .error (.failed cause)) ↔ (∃ call ∈ calls, call.Failed) ∨
        (∃ text selection, query = .search text selection) ∧ executor.canSearch = false) ∧
      (∀ cause, outcome = .error (.failed cause) → cause.message = "unable to resolve query") ∧
      ((∃ limit, outcome = .error (.timedOut limit)) ↔ ∃ call ∈ calls, call.NeverReturned) ∧
      calls.Pairwise fun earlier later => earlier.FindsNothing → ¬ later.IsRead := by
  intro outcome calls
  have hrun := (executor.answerRun_callsMade query context s).1
  have houtcome : outcome = outcomeOf executor.limit
      ((executor.services.answer query context).run s).1 :=
    congrArg Prod.fst (executor.run_execute query context s)
  -- Nothing else matters of the run: the calls stop where the result says.
  generalize ((executor.services.answer query context).run s).1 = result at hrun houtcome
  rw [houtcome]
  refine ⟨fun answer h => ?_, fun id h => ?_, ?_, fun cause h => ?_, ?_, hrun.readsWhatIsFound⟩
  · rw [outcomeOf_eq_ok_iff] at h
    subst h
    exact hrun.answers
  · rw [outcomeOf_eq_notFound_iff] at h
    subst h
    exact hrun.query_eq_of_notFound
  · simp only [outcomeOf_eq_failed_iff, exists_eq_left]
    exact hrun.failed_iff
  · rw [(outcomeOf_eq_failed_iff.1 h).1]
    rfl
  · simp only [outcomeOf_eq_timedOut_iff, exists_eq_left]
    exact hrun.stopsAt .never

open Deployment (shownRecord hiddenRecord restricted)

/-- Services that answer with what nobody asked for: the set of another id, records of no set, and
a record twice. -/
def oddServices : Services Unit where
  titles := none
  lookup _ _ :=
    return Std.ExtTreeMap.ofList
      [(shownRecord.id, IdSet.ofList [shownRecord.id, 6]), (8, IdSet.ofList [8])]
  resolve _ := return ⟨∅, [shownRecord, { shownRecord with id := 8 }, hiddenRecord, shownRecord]⟩

/-- The records cannot be read. -/
def brokenServices : Services Unit :=
  { oddServices with resolve := fun _ => throw (.fault .closedDatabase) }

/-- The outcome of a query for a single id. -/
def singleOutcome (services : Services Unit) : Except QueryError (Resolved Merged) :=
  ((execute ⟨services, .ofMillis 1⟩ (.single shownRecord.id) restricted).run ()).1

theorem size_odd : (singleOutcome oddServices).map Resolved.size = .ok 1 := by
  decide +kernel

theorem interruption_broken :
    (callsMade ⟨brokenServices, .ofMillis 1⟩ (.single shownRecord.id) restricted ())[1]?.bind
      ServiceCall.interruption? = some (.fault .closedDatabase) := by
  decide +kernel

/-- A query for one id has its resource, whatever else the services answer; it fails if they do. -/
theorem outcome_of_odd_services :
    (∃ answer, singleOutcome oddServices = .ok answer ∧
        ∃ m, answer.resources = [m] ∧ m.id = shownRecord.id) ∧
      ∃ cause, singleOutcome brokenServices = .error (.failed cause) ∧
        cause.message = "unable to resolve query" := by
  obtain ⟨hanswers, _⟩ :=
    outcome_of_calls ⟨oddServices, .ofMillis 1⟩ (.single shownRecord.id) restricted ()
  obtain ⟨_, _, hfailed, htold, _⟩ :=
    outcome_of_calls ⟨brokenServices, .ofMillis 1⟩ (.single shownRecord.id) restricted ()
  constructor
  · cases houtcome : singleOutcome oddServices with
    | error e =>
      have hsize := size_odd
      rw [houtcome] at hsize
      cases hsize
    | ok answer => exact ⟨answer, rfl, (hanswers answer houtcome).single _ rfl⟩
  · obtain ⟨call, hcall, hinterruption⟩ := Option.bind_eq_some_iff.1 interruption_broken
    obtain ⟨cause, hcause⟩ :=
      hfailed.2 (.inl ⟨call, List.mem_of_getElem? hcall, _, hinterruption⟩)
    exact ⟨cause, hcause, htold cause hcause⟩

end Executor

end MediaCatalogue
