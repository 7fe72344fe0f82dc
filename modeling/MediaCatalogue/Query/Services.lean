import MediaCatalogue.Content
import MediaCatalogue.Query.Basic
import MediaCatalogue.Query.Error

/-!
# What queries are answered with

A query is answered with the help of a title index, an equivalence index and a store of records.
`Services` are these three, whatever stands behind them: each call may give any answer, may fail,
and may never come back. Calls may change a state `σ`, for instance one that counts them.

* `Call` is a call of a service, `Step` a part of the work on a query;
* `Step.within` turns the work on a query into its outcome: what failed is not told, and work that
  never comes back ends when the time is over.
-/

namespace MediaCatalogue

variable {σ α : Type}

/-- Why a call of a service gave no answer. -/
inductive Interruption where
  /-- The call failed. -/
  | fault (cause : Fault)
  /-- The call never comes back. -/
  | never
deriving DecidableEq, Repr

/-- A call of a service. -/
abbrev Call (σ α : Type) := ExceptT Interruption (StateM σ) α

/-- What the title index is asked for. -/
structure TitleQuery where
  /-- The text to search for. -/
  text : String
  /-- The page of the hits. -/
  selection : Selection
  /-- The keys of the publishers whose records are wanted; all publishers if there is none. -/
  publishers : List String
deriving DecidableEq, Repr

/-- The query restricted to the publishers that an application may see. -/
def TitleQuery.forSources (text : String) (selection : Selection) (sources : Sources) :
    TitleQuery :=
  ⟨text, selection, sources.keys⟩

/-- What queries are answered with. -/
structure Services (σ : Type) where
  /-- Ids with matching titles, the best first. There may be no title index. -/
  titles : Option (TitleQuery → Call σ (List Id))
  /-- The equivalence sets of some ids, restricted to some publishers. -/
  lookup : IdSet → PublisherSet → Call σ (IdMap IdSet)
  /-- The records of some ids. -/
  resolve : IdSet → Call σ (Resolved Content)

/-- Why the work on a query stopped. -/
inductive Stop where
  /-- There is no content that the application may see. -/
  | notFound (id : Id)
  /-- Something failed. -/
  | failed (cause : QueryFailure)
  /-- A call never comes back. -/
  | never
deriving DecidableEq, Repr

/-- Why work stops when a call gives no answer. -/
def Interruption.stop : Interruption → Stop
  | fault cause => .failed (.fault cause)
  | never => .never

/-- A part of the work on a query. -/
abbrev Step (σ α : Type) := ExceptT Stop (StateM σ) α

/-- The call of a service as a part of the work on a query. -/
def Call.step (call : Call σ α) : Step σ α := ExceptT.adapt Interruption.stop call

/-- The error of work that stopped, with a limit on its time. -/
def Stop.error (limit : Duration) : Stop → QueryError
  | notFound id => .notFound id
  | failed cause => .failed cause
  | never => .timedOut limit

/-- The error without the details of what failed. -/
def QueryError.hideWith (told : QueryFailure) : QueryError → QueryError
  | failed _ => failed told
  | other => other

/-- The outcome of work on a query with a limit on its time. Of what failed, callers are told no
more than `told`. -/
def Step.within (limit : Duration) (told : QueryFailure) (work : Step σ α) :
    StateM σ (Except QueryError α) := do
  return (← work.run).mapError fun stop => (stop.error limit).hideWith told

end MediaCatalogue
