/-!
# First occurrences

`distinctBy key` keeps of all the items with one key the first one, and the order of what it keeps.
-/

namespace MediaCatalogue

variable {α κ : Type} [DecidableEq κ]

/-- The items whose keys are neither in `seen` nor those of earlier items. -/
def distinctFrom (key : α → κ) : List κ → List α → List α
  | _, [] => []
  | seen, x :: xs =>
    if key x ∈ seen then distinctFrom key seen xs else x :: distinctFrom key (key x :: seen) xs

/-- Of all items with one key the first one. -/
def distinctBy (key : α → κ) (xs : List α) : List α := distinctFrom key [] xs

/-- The first occurrence of every item. -/
def distinct (xs : List κ) : List κ := distinctBy id xs

theorem mem_of_mem_distinctFrom {key : α → κ} {seen : List κ} {xs : List α} {x : α}
    (h : x ∈ distinctFrom key seen xs) : x ∈ xs ∧ key x ∉ seen := by
  fun_induction distinctFrom key seen xs with
  | case1 => simp at h
  | case2 seen y ys hy ih => exact ⟨List.mem_cons_of_mem _ (ih h).1, (ih h).2⟩
  | case3 seen y ys hy ih =>
    rcases List.mem_cons.1 h with rfl | h
    · exact ⟨List.mem_cons_self, hy⟩
    · exact ⟨List.mem_cons_of_mem _ (ih h).1, fun hs => (ih h).2 (List.mem_cons_of_mem _ hs)⟩

/-- The keys that are kept occur once. -/
theorem nodup_map_distinctFrom (key : α → κ) (seen : List κ) (xs : List α) :
    ((distinctFrom key seen xs).map key).Nodup := by
  fun_induction distinctFrom key seen xs with
  | case1 => simp
  | case2 _ _ _ _ ih => exact ih
  | case3 seen y ys _ ih =>
    refine List.nodup_cons.2 ⟨fun h => ?_, ih⟩
    obtain ⟨x, hx, he⟩ := List.mem_map.1 h
    exact (mem_of_mem_distinctFrom hx).2 (he ▸ List.mem_cons_self)

end MediaCatalogue
