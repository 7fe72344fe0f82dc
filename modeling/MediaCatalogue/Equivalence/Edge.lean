import Std.Data.ExtTreeMap
import Std.Data.ExtTreeSet

/-!
# Edges between records

An `Edge` says that somebody asserted of the record `subject` that it denotes the same work as
`target`. An edge can be used in both directions: `EdgeSet.links` lists for each number the numbers
that share an edge with it.

Edges hold the numbers of storage columns, which are ids as far as they are not negative.
-/

namespace MediaCatalogue

/-- An assertion that two records denote the same work. -/
structure Edge where
  /-- The record that the assertion is about. -/
  subject : Int
  /-- The other record. -/
  target : Int
deriving DecidableEq, Repr

namespace Edge

/-- By subject, then target. -/
def order : Edge → Edge → Ordering := compareLex (compareOn subject) (compareOn target)

instance : Ord Edge := ⟨order⟩

instance : Std.TransOrd Edge :=
  inferInstanceAs (Std.TransCmp (compareLex (compareOn subject) (compareOn target)))

instance : Std.LawfulEqOrd Edge where
  eq_of_compare {a b} h := by
    have h : compareLex (compareOn subject) (compareOn target) a b = .eq := h
    rw [compareLex_eq_eq] at h
    have hs : compare a.subject b.subject = .eq := h.1
    have ht : compare a.target b.target = .eq := h.2
    cases a
    cases b
    cases Std.LawfulEqOrd.eq_of_compare hs
    cases Std.LawfulEqOrd.eq_of_compare ht
    rfl

end Edge

/-- Finite sets of edges. -/
abbrev EdgeSet := Std.ExtTreeSet Edge

/-- For each number the numbers that share an edge with it. -/
abbrev Links := Std.ExtTreeMap Int (Std.ExtTreeSet Int)

namespace Links

/-- The numbers that share an edge with `x`, in ascending order. -/
def neighbours (links : Links) (x : Int) : List Int := (links.getD x ∅).toList

/-- Adds one number to those that share an edge with `x`. -/
def add (links : Links) (x y : Int) : Links := links.insert x ((links.getD x ∅).insert y)

theorem mem_neighbours_add {links : Links} {x y a b : Int} :
    b ∈ (links.add x y).neighbours a ↔ (x = a ∧ y = b) ∨ b ∈ links.neighbours a := by
  simp only [neighbours, add, Std.ExtTreeSet.mem_toList, Std.ExtTreeMap.getD_insert]
  by_cases h : x = a
  · subst h
    simp [Std.ExtTreeSet.mem_insert]
  · simp [h]

/-- Adds both directions of an edge. -/
def addEdge (links : Links) (e : Edge) : Links :=
  (links.add e.subject e.target).add e.target e.subject

theorem mem_neighbours_foldl {edges : List Edge} {links : Links} {x y : Int} :
    y ∈ (edges.foldl addEdge links).neighbours x ↔
      ((⟨x, y⟩ : Edge) ∈ edges ∨ (⟨y, x⟩ : Edge) ∈ edges) ∨ y ∈ links.neighbours x := by
  induction edges generalizing links with
  | nil => simp
  | cons e edges ih =>
    obtain ⟨s, t⟩ := e
    simp only [List.foldl_cons, ih, addEdge, mem_neighbours_add, List.mem_cons, Edge.mk.injEq]
    grind

/-- All numbers that share an edge with some number. -/
def ends (links : Links) : List Int := links.toList.flatMap fun row => row.2.toList

theorem mem_ends_of_mem_neighbours {links : Links} {x y : Int} (h : y ∈ links.neighbours x) :
    y ∈ links.ends := by
  rw [neighbours, Std.ExtTreeMap.getD_eq_getD_getElem?] at h
  cases hx : links[x]? with
  | none => simp [hx] at h
  | some row =>
    rw [hx, Option.getD_some] at h
    exact List.mem_flatMap.2 ⟨(x, row), Std.ExtTreeMap.mem_toList_iff_getElem?_eq_some.2 hx, h⟩

end Links

/-- The links that the edges make. -/
def EdgeSet.links (edges : EdgeSet) : Links := edges.toList.foldl Links.addEdge ∅

theorem EdgeSet.mem_neighbours_links {edges : EdgeSet} {x y : Int} :
    y ∈ edges.links.neighbours x ↔ (⟨x, y⟩ : Edge) ∈ edges ∨ (⟨y, x⟩ : Edge) ∈ edges := by
  have hempty : y ∉ Links.neighbours ∅ x := by simp [Links.neighbours]
  simp [EdgeSet.links, Links.mem_neighbours_foldl, hempty]

end MediaCatalogue
