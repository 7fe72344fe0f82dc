import MediaCatalogue.Store.Catalogue

/-!
# Write calls

A write call runs a few statements. Each of them may fail to work; then the whole call fails, and
leaves the tables as they were. `Statements` are the calls as programs, and `Statements.perform`
runs a call on the tables with a given number of statements that work.
-/

namespace MediaCatalogue

/-- The fault that a statement does not work. -/
def Fault.brokenStatement : Fault := .database "a statement failed"

/-- The fault that the database is closed. -/
def Fault.closedDatabase : Fault := .database "the database is closed"

/-- Tables in the middle of a call. -/
structure Session where
  /-- The tables as the call sees them. -/
  catalogue : Catalogue
  /-- How many of the next statements work; all of them if this is `none`. -/
  working : Option Nat

/-- The statements of a write call. -/
abbrev Statements (α : Type) := StateT Session (Except Fault) α

namespace Statements

variable {α : Type}

/-- One statement. -/
def statement (effect : Catalogue → α × Catalogue) : Statements α := fun session =>
  match session.working with
  | some 0 => .error .brokenStatement
  | working =>
    let (result, catalogue) := effect session.catalogue
    .ok (result, ⟨catalogue, working.map (· - 1)⟩)

/-- A statement that only reads. -/
def query (view : Catalogue → α) : Statements α := statement fun c => (view c, c)

/-- A statement that only writes. -/
def update (effect : Catalogue → Catalogue) : Statements Unit := statement fun c => ((), effect c)

/-- A statement that begins or ends a transaction. -/
def mark : Statements Unit := update id

/-- Performs a call on the tables: all of it, or nothing. -/
def perform (call : Statements α) (working : Option Nat) (c : Catalogue) :
    Except Fault α × Catalogue :=
  match call ⟨c, working⟩ with
  | .ok (result, session) => (.ok result, session.catalogue)
  | .error fault => (.error fault, c)

/-- A call that fails changes nothing. -/
theorem snd_perform_of_error {call : Statements α} {working : Option Nat} {c : Catalogue}
    {fault : Fault} (h : (call.perform working c).1 = .error fault) :
    (call.perform working c).2 = c := by
  unfold perform at h ⊢
  split at h
  · cases h
  · rfl

end Statements

end MediaCatalogue
