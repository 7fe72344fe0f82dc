import MediaCatalogue.Proofs.Connection

/-!
# How a walk goes

A walk takes the ids of its queue one by one, and puts those of their neighbours at its end that
were not found before. So every id that is connected to the first one enters the queue once, and
leaves it once.

* `Visits` : what some visits lead to;
* `Visits.walk_eq` : a walk goes on from wherever it came to;
* `exists_visits` : it ends when the queue is empty, or at an id that is not readable;
* `Visits.size_eq` : the ids that are found were visited, or wait in the queue.

**Main theorem** (`EdgeSet.walks_find_components`): on edges between ids, the walk from any id ends
after as many visits as its component has ids, and finds this component. Components are equal or
disjoint.
-/

namespace MediaCatalogue

/-- What `n` visits of a walk lead to, from a queue and the ids that are found to another queue and
more ids. -/
inductive Visits (links : Links) : Nat → List Id → IdSet → List Id → IdSet → Prop
  /-- Nobody is visited. -/
  | none {queue : List Id} {found : IdSet} : Visits links 0 queue found queue found
  /-- The first id of the queue is visited, and then others. -/
  | visit {n : Nat} {id : Id} {queue queue' next : List Id} {found found' : IdSet}
    (hnext : neighbourIds links id = .ok next)
    (h : Visits links n (queue ++ next.filter (!found.contains ·))
      (found.insertMany (next.filter (!found.contains ·))) queue' found') :
    Visits links (n + 1) (id :: queue) found queue' found'

variable {links : Links} {n : Nat} {id : Id} {queue queue' next : List Id}
  {found found' members : IdSet}

theorem walk_cons (hnext : neighbourIds links id = .ok next) : walk links (id :: queue) found =
    walk links (queue ++ next.filter (!found.contains ·))
      (found.insertMany (next.filter (!found.contains ·))) := by
  rw [walk]
  split
  · rename_i fault herror
    rw [herror] at hnext
    cases hnext
  · rename_i next' hnext'
    rw [hnext'] at hnext
    cases hnext
    split
    · rename_i hnone
      rw [hnone, List.append_nil, Std.ExtTreeSet.insertMany_nil]
    · rename_i other more hnew
      rw [hnew]

/-- A walk goes on from wherever it came to. -/
theorem Visits.walk_eq (h : Visits links n queue found queue' found') :
    walk links queue found = walk links queue' found' := by
  induction h with
  | none => rfl
  | visit hnext _ ih => rw [walk_cons hnext, ih]

/-- **Every walk ends**: nobody waits to be visited, or the neighbours of the next id cannot be
read. -/
theorem exists_visits (links : Links) (queue : List Id) (found : IdSet) :
    ∃ n queue' found', Visits links n queue found queue' found' ∧
      match walk links queue found with
      | .ok members => queue' = [] ∧ found' = members
      | .error fault => ∃ id rest, queue' = id :: rest ∧ neighbourIds links id = .error fault := by
  fun_induction walk links queue found with
  | case1 found => exact ⟨0, [], found, .none, rfl, rfl⟩
  | case2 found id queue fault hfault => exact ⟨0, id :: queue, found, .none, id, queue, rfl, hfault⟩
  | case3 found id queue next hnext hnone ih =>
    obtain ⟨n, queue', found', hvisits, hend⟩ := ih
    refine ⟨n + 1, queue', found', .visit hnext ?_, hend⟩
    rwa [hnone, List.append_nil, Std.ExtTreeSet.insertMany_nil]
  | case4 found id queue next hnext other more hnew ih =>
    obtain ⟨n, queue', found', hvisits, hend⟩ := ih
    refine ⟨n + 1, queue', found', .visit hnext ?_, hend⟩
    rwa [hnew]

theorem exists_visits_of_walk (h : walk links queue found = .ok members) :
    ∃ n, Visits links n queue found [] members := by
  obtain ⟨n, queue', found', hvisits, hend⟩ := exists_visits links queue found
  rw [h] at hend
  obtain ⟨rfl, rfl⟩ := hend
  exact ⟨n, hvisits⟩

/-- **Every id that is found is visited once**: it was visited, or waits to be visited. -/
theorem Visits.size_eq (h : Visits links n queue found queue' found') :
    n + queue'.length + found.size = queue.length + found'.size := by
  induction h with
  | none => omega
  | @visit n id queue queue' next found found' hnext _ ih =>
    have hdistinct : (next.filter (!found.contains ·)).Pairwise fun a b => ¬ compare a b = .eq := by
      refine ((nodup_of_neighbourIds hnext).filter _).imp fun hne heq => hne ?_
      exact Std.LawfulEqCmp.compare_eq_iff_eq.1 heq
    have hnew : ∀ x ∈ found, (next.filter (!found.contains ·)).contains x = false := by
      intro x hx
      simp [Std.ExtTreeSet.mem_iff_contains.1 hx]
    rw [Std.ExtTreeSet.size_insertMany_list hdistinct hnew, List.length_append] at ih
    rw [List.length_cons]
    omega

namespace EdgeSet

variable {edges : EdgeSet} {seed a b : Id}

/-- A walk ends when nobody waits to be visited, or at an id that is not readable. -/
theorem exists_visits_to_end (edges : EdgeSet) (seed : Id) :
    ∃ n queue found, Visits edges.links n [seed] (IdSet.ofList [seed]) queue found ∧
      (queue = [] ∨ ∃ id rest, queue = id :: rest ∧ ¬ edges.Readable id) := by
  obtain ⟨n, queue, found, hvisits, hend⟩ := exists_visits edges.links [seed] (IdSet.ofList [seed])
  refine ⟨n, queue, found, hvisits, ?_⟩
  split at hend
  · exact .inl hend.1
  · obtain ⟨id, rest, rfl, hfault⟩ := hend
    refine .inr ⟨id, rest, rfl, fun hread => ?_⟩
    obtain ⟨next, hnext⟩ := exists_neighbourIds_iff.2 hread
    rw [hnext] at hfault
    cases hfault

/-- A walk that succeeds makes as many visits as there are ids in the component. -/
theorem visits_of_component (h : component edges.links seed = .ok members)
    (hvisits : Visits edges.links n [seed] (IdSet.ofList [seed]) queue found) :
    n ≤ members.size ∧ Visits edges.links (members.size - n) queue found [] members := by
  rw [component, hvisits.walk_eq] at h
  obtain ⟨m, hrest⟩ := exists_visits_of_walk h
  have hone : (IdSet.ofList [seed]).size = 1 := Std.ExtTreeSet.size_ofList (by simp)
  have hsize := hvisits.size_eq
  have hsize' := hrest.size_eq
  rw [hone, List.length_singleton] at hsize
  rw [List.length_nil] at hsize'
  obtain rfl : m = members.size - n := by omega
  exact ⟨by omega, hrest⟩

theorem connected_iff_of_component (h : component edges.links a = .ok members) :
    edges.Connected a b ↔ component edges.links b = .ok members := by
  rw [component_eq_ok_iff] at h
  obtain ⟨hread, hmem⟩ := h
  constructor
  · intro hab
    exact component_eq_ok_iff.2 ⟨hread.of_connected hab, fun x => (hmem x).trans hab.congr⟩
  · intro hb
    exact (hmem b).1 (((component_eq_ok_iff.1 hb).2 b).2 .refl)

theorem component_eq_or_disjoint {members' : IdSet}
    (h : component edges.links a = .ok members) (h' : component edges.links b = .ok members') :
    members = members' ∨ ∀ x ∈ members, x ∉ members' := by
  by_cases hcommon : ∃ x ∈ members, x ∈ members'
  · obtain ⟨x, hx, hx'⟩ := hcommon
    have hax := (connected_iff_of_component h).1 (((component_eq_ok_iff.1 h).2 x).1 hx)
    have hbx := (connected_iff_of_component h').1 (((component_eq_ok_iff.1 h').2 x).1 hx')
    rw [hax] at hbx
    exact .inl (Except.ok.inj hbx)
  · exact .inr fun x hx hx' => hcommon ⟨x, hx, hx'⟩

/-- **Walks end, and find components.** Take any edges.

1. Every walk ends: nobody waits to be visited any more, or the next id is not readable.
2. If the edges join ids, every walk succeeds.
3. In any case a walk succeeds if and only if it meets readable ids only, and then finds the ids that
   are connected to the one it began with.
4. A walk that succeeds makes as many visits as it finds ids: wherever it came to, it ends after the
   visits that are left.
5. Two ids are connected if and only if the walks from them find the same ids.
6. What two walks find is equal or disjoint. -/
theorem walks_find_components (edges : EdgeSet) :
    (∀ seed, ∃ n queue found, Visits edges.links n [seed] (IdSet.ofList [seed]) queue found ∧
      (queue = [] ∨ ∃ id rest, queue = id :: rest ∧ ¬ edges.Readable id)) ∧
    (edges.HoldsIds → ∀ seed, ∃ members, component edges.links seed = .ok members) ∧
    (∀ seed members, component edges.links seed = .ok members ↔
      edges.ReadableFrom seed ∧ ∀ x, x ∈ members ↔ edges.Connected seed x) ∧
    (∀ seed members, component edges.links seed = .ok members → ∀ n queue found,
      Visits edges.links n [seed] (IdSet.ofList [seed]) queue found →
        n ≤ members.size ∧ Visits edges.links (members.size - n) queue found [] members) ∧
    (∀ a b members, component edges.links a = .ok members →
      (edges.Connected a b ↔ component edges.links b = .ok members)) ∧
    ∀ a b members members', component edges.links a = .ok members →
      component edges.links b = .ok members' →
        members = members' ∨ ∀ x ∈ members, x ∉ members' := by
  refine ⟨exists_visits_to_end edges, fun h seed => (h.readableFrom seed).exists_component,
    fun seed members => component_eq_ok_iff, fun seed members h n queue found hvisits => ?_,
    fun a b members h => connected_iff_of_component h, fun a b members members' h h' => ?_⟩
  · exact visits_of_component h hvisits
  · exact component_eq_or_disjoint h h'

/-- The edges from the first to the second ids of some pairs. -/
def between (pairs : List (Id × Id)) : EdgeSet :=
  Std.ExtTreeSet.ofList (pairs.map fun pair => Edge.mk pair.1.stored pair.2.stored)

theorem holdsIds_between (pairs : List (Id × Id)) : (between pairs).HoldsIds := by
  intro e he
  simp only [between, Std.ExtTreeSet.mem_ofList, List.contains_iff_mem, List.mem_map] at he
  obtain ⟨pair, _, rfl⟩ := he
  exact ⟨pair.1, pair.2, rfl⟩

theorem mem_between {pairs : List (Id × Id)} {a b : Id} :
    (⟨a.stored, b.stored⟩ : Edge) ∈ between pairs ↔ (a, b) ∈ pairs := by
  simp only [between, Std.ExtTreeSet.mem_ofList, List.contains_iff_mem, List.mem_map,
    Edge.mk.injEq]
  constructor
  · rintro ⟨pair, hpair, ha, hb⟩
    rwa [← Id.stored_injective ha, ← Id.stored_injective hb]
  · exact fun h => ⟨(a, b), h, rfl, rfl⟩

theorem linked_between {pairs : List (Id × Id)} {a b : Id} :
    (between pairs).Linked a b ↔ (a, b) ∈ pairs ∨ (b, a) ∈ pairs :=
  or_congr mem_between mem_between

/-- 1, 2 and 3 are in a ring, of which 1 and 2 assert each other, and 5 asserts 3; 4 asserts itself;
6 asserts 7. -/
def ring : EdgeSet := between [(1, 2), (2, 1), (2, 3), (3, 1), (5, 3), (4, 4), (6, 7)]

/-- The walks from 1 and from 5 find the same four ids, by four visits; that from 6 finds others. -/
theorem walks_find_components_of_ring :
    ring.HoldsIds ∧ ∃ members, component ring.links 1 = .ok members ∧
      members.toList = [1, 2, 3, 5] ∧ (∀ x, x ∈ members ↔ ring.Connected 1 x) ∧
      Visits ring.links 4 [1] (IdSet.ofList [1]) [] members ∧
      component ring.links 5 = .ok members ∧
      ∃ others, component ring.links 6 = .ok others ∧ ∀ x ∈ members, x ∉ others := by
  obtain ⟨_, hends, hexact, hvisits, hconnected, hdisjoint⟩ := walks_find_components ring
  have hring : ring.HoldsIds := holdsIds_between _
  obtain ⟨members, hmembers⟩ := hends hring 1
  obtain ⟨others, hothers⟩ := hends hring 6
  have hlist : (component ring.links 1).map (·.toList) = .ok [1, 2, 3, 5] := by decide +kernel
  have hlist' : (component ring.links 6).map (·.toList) = .ok [6, 7] := by decide +kernel
  rw [hmembers] at hlist
  rw [hothers] at hlist'
  have hlist : members.toList = [1, 2, 3, 5] := Except.ok.inj hlist
  have hlist' : others.toList = [6, 7] := Except.ok.inj hlist'
  have hmem := (hexact 1 members).1 hmembers
  have hfive : (5 : Id) ∈ members := by simp [← Std.ExtTreeSet.mem_toList, hlist]
  have hall := (hvisits 1 members hmembers 0 [1] (IdSet.ofList [1]) .none).2
  rw [← Std.ExtTreeSet.length_toList, hlist] at hall
  refine ⟨hring, members, hmembers, hlist, hmem.2, hall,
    (hconnected 1 5 members hmembers).1 ((hmem.2 5).1 hfive), others, hothers, ?_⟩
  refine (hdisjoint 1 6 members others hmembers hothers).resolve_left fun heq => ?_
  rw [heq, hlist'] at hlist
  exact absurd hlist (by decide)

end EdgeSet

end MediaCatalogue
