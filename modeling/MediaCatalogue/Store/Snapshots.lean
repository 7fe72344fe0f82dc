import MediaCatalogue.Store.Catalogue

/-!
# Read calls

A read call runs a few statements that are not one transaction, so each of them may see other
tables. `Snapshots` say what the statements of one call see, or that they fail. Long lists of ids
are asked for in batches.
-/

namespace MediaCatalogue

/-- What the statements of a read call see, by their numbers from 0. -/
abbrev Snapshots := Nat → Except Fault Catalogue

/-- All statements see the same tables. -/
def Snapshots.still (c : Catalogue) : Snapshots := fun _ => .ok c

/-- No statement works. -/
def Snapshots.failing (fault : Fault) : Snapshots := fun _ => .error fault

/-- How many ids one statement asks for at most. -/
def batchSize : Nat := 500

/-- Cuts a list into batches. -/
def batches {α : Type} : List α → List (List α)
  | [] => []
  | x :: xs => (x :: xs.take (batchSize - 1)) :: batches (xs.drop (batchSize - 1))
termination_by xs => xs.length
decreasing_by
  simp only [List.length_drop, List.length_cons]
  omega

@[simp]
theorem flatten_batches {α : Type} (xs : List α) : (batches xs).flatten = xs := by
  fun_induction batches xs with
  | case1 => rfl
  | case2 x xs ih => simp [ih]

end MediaCatalogue
