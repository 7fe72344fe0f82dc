import MediaCatalogue.Fault
import MediaCatalogue.Time.Duration

/-!
# Failures of queries

A query that fails says whether its content does not exist, or its time ran out, or something else
went wrong.
-/

namespace MediaCatalogue

/-- Why a query failed, apart from time and absence. -/
inductive QueryFailure where
  /-- Something below failed. -/
  | fault (cause : Fault)
  /-- There is no title index. -/
  | noTitleSearch
  /-- Something failed while a query was answered. Callers are not told what. -/
  | unresolved
  /-- Something failed while titles were searched. Callers are not told what. -/
  | searchFailed
  /-- Anything else. -/
  | described (text : String)
deriving DecidableEq, Repr

/-- Why a query has no answer. -/
inductive QueryError where
  /-- There is no content that the application may see. -/
  | notFound (id : Id)
  /-- The time ran out. -/
  | timedOut (limit : Duration)
  /-- Something failed. -/
  | failed (cause : QueryFailure)
deriving DecidableEq, Repr

/-- The wording of a failure. -/
def QueryFailure.message : QueryFailure → String
  | fault cause => cause.message
  | noTitleSearch => "title search is not configured"
  | unresolved => "unable to resolve query"
  | searchFailed => "search failed"
  | described text => text

namespace QueryError

/-- The wording of an error. -/
def message : QueryError → String
  | notFound id => s!"Content not found: {id.code}"
  | timedOut limit => s!"Query timed out after {limit.text}"
  | failed cause => s!"Query failed: {cause.message}"

/-- Asking again may help. -/
def isRetryable : QueryError → Bool
  | notFound _ => false
  | _ => true

/-- The error that a fault means for a query. -/
def ofFault (fault : Fault) : QueryError := failed (.fault fault)

end QueryError

end MediaCatalogue
