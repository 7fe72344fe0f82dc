import MediaCatalogue.Query.Merge

/-!
# Answering queries

* `Services.searchTitles` : the records of the ids that the title index finds, in its order, as far
  as the application may see them;
* `Services.answer` : the answer to any query. Search results are merged if the context wants
  equivalence; then hits that are represented by the record of an earlier hit are left out;
* `Executor.execute` adds the limit on the time. Callers learn whether a single record does not
  exist and whether the time ran out, but not what else failed.
-/

namespace MediaCatalogue

variable {σ : Type}

namespace Services

/-- The records that a title index finds. -/
def searchWith (services : Services σ) (titles : TitleQuery → Call σ (List Id)) (query : TitleQuery)
    (sources : Sources) : Step σ (List Content) := do
  let ranked ← (titles query).step
  if ranked.isEmpty then return []
  let records := recordsById (← (services.resolve (IdSet.ofList ranked)).step)
  return ((distinct ranked).filterMap (records[·]?)).filter (sources.isEnabled ·.publisher)

/-- The records whose titles match. -/
def searchTitles (services : Services σ) (query : TitleQuery) (sources : Sources) :
    Step σ (List Content) :=
  match services.titles with
  | none => throw (.failed .noTitleSearch)
  | some titles => services.searchWith titles query sources

/-- The answer to a search. -/
def answerSearch (services : Services σ) (text : String) (selection : Selection)
    (context : QueryContext) : Step σ (Resolved Merged) := do
  let records ← services.searchTitles (.forSources text selection context.sources) context.sources
  let requested := IdSet.ofList (records.map Content.id)
  if !context.details.wantsEquivalence then return .of requested (records.map Merged.alone)
  let merged ← services.mergeIds requested context
  let byId : IdMap Merged := Std.ExtTreeMap.ofList (merged.resources.map fun m => (m.id, m))
  let ordered := (distinct (records.map Content.id)).filterMap (byId[·]?)
  return .of requested (distinctBy (·.primary.id) ordered)

/-- The answer to a query. -/
def answer (services : Services σ) (query : Query) (context : QueryContext) :
    Step σ (Resolved Merged) :=
  match query with
  | .single id => do
    let resolved ← services.mergeIds (IdSet.ofList [id]) context
    if resolved.isEmpty then throw (.notFound id)
    return resolved
  | .multiple ids selection => services.mergeIds (selection.selectIds ids) context
  | .search text selection => services.answerSearch text selection context

end Services

/-- Answers queries within a limit on the time. -/
structure Executor (σ : Type) where
  /-- What queries are answered with. -/
  services : Services σ
  /-- The limit. -/
  limit : Duration

namespace Executor

/-- Queries for titles can be answered. -/
def canSearch (executor : Executor σ) : Bool := executor.services.titles.isSome

/-- The outcome of a query. -/
def execute (executor : Executor σ) (query : Query) (context : QueryContext) :
    StateM σ (Except QueryError (Resolved Merged)) :=
  (executor.services.answer query context).within executor.limit .unresolved

end Executor

/-- The outcome of a search for titles, without merging. -/
def Services.search (services : Services σ) (query : TitleQuery) (sources : Sources)
    (limit : Duration) : StateM σ (Except QueryError (List Content)) :=
  (services.searchTitles query sources).within limit .searchFailed

end MediaCatalogue
