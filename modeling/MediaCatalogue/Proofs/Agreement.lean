import Mathlib.Data.Prod.Lex
import MediaCatalogue.Proofs.Answers

/-!
# Members of one set agree

Candidates are ordered by the place of their publisher, then the id that was asked for comes first,
then lower ids do. `Candidate.place` is the place of a candidate in this order, and
`exists_first_of_merge` says that the first candidate represents the set.

**Main theorem** (`Deployment.members_agree`): two ids that carry the same label are both missing
from an answer, or have resources with the same ids and with primaries of the same publisher. The
primaries differ only if one of the two ids has a record of this publisher.
-/

namespace MediaCatalogue

/-! ### The order of candidates -/

namespace Candidate

/-- The place of a candidate when `requested` was asked for. -/
def place (requested : Id) (c : Candidate) : ℕ ×ₗ ℕ ×ₗ ℕ :=
  toLex (c.rank, toLex (if c.record.id = requested then 0 else 1, c.record.id.value))

variable {requested : Id} {a b : Candidate}

theorem preferred_iff : preferred requested a b = true ↔ place requested a ≤ place requested b := by
  simp only [preferred, place, Prod.Lex.toLex_le_toLex]
  by_cases ha : a.record.id = requested <;> by_cases hb : b.record.id = requested <;>
    simp [ha, hb]

theorem preferred_trans (a b c : Candidate) (hab : preferred requested a b = true)
    (hbc : preferred requested b c = true) : preferred requested a c = true := by
  rw [preferred_iff] at *
  exact hab.trans hbc

theorem preferred_total (a b : Candidate) :
    (preferred requested a b || preferred requested b a) = true := by
  rw [Bool.or_eq_true, preferred_iff, preferred_iff]
  exact le_total _ _

theorem place_le_iff : place requested a ≤ place requested b ↔ a.rank < b.rank ∨
    a.rank = b.rank ∧ (a.record.id = requested ∨
      b.record.id ≠ requested ∧ a.record.id.value ≤ b.record.id.value) := by
  simp only [place, Prod.Lex.toLex_le_toLex]
  by_cases ha : a.record.id = requested <;> by_cases hb : b.record.id = requested <;>
    simp [ha, hb]

end Candidate

section

variable {sources : Sources} {retain : Bool} {records : IdMap Content} {requested : Id}
  {set : IdSet}

theorem pairwise_mergeSort_preferred (requested : Id) (cs : List Candidate) :
    (cs.mergeSort (Candidate.preferred requested)).Pairwise
      fun a b => a.place requested ≤ b.place requested := by
  simp only [← Candidate.preferred_iff]
  exact List.pairwise_mergeSort Candidate.preferred_trans Candidate.preferred_total cs

/-- Merging with candidates that are sorted by insertion. -/
theorem merge_eq_insertionSort :
    merge = fun sources retain records requested set =>
      match (candidates sources records set).insertionSort
          (Candidate.preferred requested · · = true) with
      | [] => none
      | first :: others =>
        some ⟨requested, first.record, if retain then others.map Candidate.record else [], set⟩ := by
  funext sources retain records requested set
  rw [← mergeSort_eq_insertionSort Candidate.preferred_trans Candidate.preferred_total]
  rfl

theorem merge_eq_none_iff :
    merge sources retain records requested set = none ↔ candidates sources records set = [] := by
  have hperm := List.mergeSort_perm (candidates sources records set) (Candidate.preferred requested)
  unfold merge
  split
  · rename_i hnil
    rw [hnil] at hperm
    exact iff_of_true rfl hperm.nil_eq.symm
  · rename_i hcons
    rw [hcons] at hperm
    refine iff_of_false nofun fun hnil => ?_
    rw [hnil] at hperm
    exact List.cons_ne_nil _ _ hperm.eq_nil

/-- **What represents a set**: the candidate with the first place. -/
theorem exists_first_of_merge {m : Merged}
    (h : merge sources retain records requested set = some m) :
    ∃ first others, (first :: others).Perm (candidates sources records set) ∧
      (∀ c ∈ candidates sources records set, first.place requested ≤ c.place requested) ∧
      m = ⟨requested, first.record, if retain then others.map Candidate.record else [], set⟩ := by
  have hperm := List.mergeSort_perm (candidates sources records set) (Candidate.preferred requested)
  have hsorted := pairwise_mergeSort_preferred requested (candidates sources records set)
  unfold merge at h
  split at h
  · cases h
  · rename_i first others hlist
    cases h
    rw [hlist] at hperm hsorted
    refine ⟨first, others, hperm, fun c hc => ?_, rfl⟩
    rcases List.mem_cons.1 (hperm.mem_iff.2 hc) with rfl | hc
    · exact le_rfl
    · exact List.rel_of_pairwise_cons hsorted hc

end

namespace Sources

variable {sources : Sources} {p q : Publisher} {rank : Nat}

theorem rank?_eq_some_iff_of_rank? (h : sources.rank? p = some rank) :
    sources.rank? q = some rank ↔ q.key = p.key := by
  constructor
  · intro hq
    obtain ⟨hlt, hp, _⟩ := List.findIdx?_eq_some_iff_getElem.1 h
    obtain ⟨_, hq, _⟩ := List.findIdx?_eq_some_iff_getElem.1 hq
    exact (of_decide_eq_true hq).symm.trans (of_decide_eq_true hp)
  · intro hkey
    rw [← h, rank?, rank?, hkey]

end Sources

namespace Deployment

/-- The id has a record in the set of `m`, of the publisher that represents this set. -/
def Contends (d : Deployment) (m : Merged) (id : Id) : Prop :=
  id ∈ m.equivalentIds ∧ ∃ record, d.catalogue.content? d.registry id = .ok (some record) ∧
    record.publisher.key = m.primary.publisher.key

/-- The set of `m` is represented by its first publisher, and by the record of this publisher that
was asked for, or else by the one with the lowest id. -/
structure Represented (d : Deployment) (context : QueryContext) (m : Merged) : Prop where
  read : d.catalogue.content? d.registry m.primary.id = .ok (some m.primary)
  member : m.primary.id ∈ m.equivalentIds
  ranked : ∃ rank, context.sources.rank? m.primary.publisher = some rank ∧
    ∀ id ∈ m.equivalentIds, ∀ record, d.catalogue.content? d.registry id = .ok (some record) →
      ∀ other, context.sources.rank? record.publisher = some other → rank ≤ other
  own : d.Contends m m.id → m.primary.id = m.id
  lowest : ¬ d.Contends m m.id → ∀ id, d.Contends m id → m.primary.id.value ≤ id.value

variable {d : Deployment} {context : QueryContext} {id : Id} {m m' : Merged}

theorem mem_candidates_iff {set : IdSet} {c : Candidate} :
    c ∈ candidates context.sources (d.catalogue.records d.registry) set ↔
      c.record.id ∈ set ∧ d.catalogue.content? d.registry c.record.id = .ok (some c.record) ∧
        context.sources.rank? c.record.publisher = some c.rank := by
  simp only [mem_candidates, Catalogue.getElem?_records]
  constructor
  · rintro ⟨id, hid, hread, hrank⟩
    cases (Catalogue.content?_eq_some hread).1
    exact ⟨hid, hread, hrank⟩
  · rintro ⟨hid, hread, hrank⟩
    exact ⟨_, hid, hread, hrank⟩

/-- Whoever contends is a candidate of the same rank. -/
theorem mem_candidates_of_contends {rank : Nat} (hrank : context.sources.rank? m.primary.publisher =
    some rank) (h : d.Contends m id) : ∃ record, record.id = id ∧ ⟨rank, record⟩ ∈
      candidates context.sources (d.catalogue.records d.registry) m.equivalentIds := by
  obtain ⟨hmember, record, hread, hkey⟩ := h
  have hid := (Catalogue.content?_eq_some hread).1
  refine ⟨record, hid, mem_candidates_iff.2 ⟨hid.symm ▸ hmember, hid.symm ▸ hread, ?_⟩⟩
  exact (Sources.rank?_eq_some_iff_of_rank? hrank).2 hkey

theorem represented_of_mergedFor (h : d.mergedFor context id = some m) :
    d.Represented context m := by
  obtain ⟨first, others, hperm, hfirst, rfl⟩ := exists_first_of_merge h
  obtain ⟨hmember, hread, hrank⟩ :=
    mem_candidates_iff.1 (hperm.mem_iff.1 (List.mem_cons_self (a := first)))
  refine ⟨hread, hmember, ⟨first.rank, hrank, fun x hx record hx' rank hrank' => ?_⟩, ?_, ?_⟩
  · have hid := (Catalogue.content?_eq_some hx').1
    have hle := hfirst ⟨rank, record⟩
      (mem_candidates_iff.2 ⟨hid.symm ▸ hx, hid.symm ▸ hx', hrank'⟩)
    rcases Candidate.place_le_iff.1 hle with hlt | ⟨heq, _⟩
    · exact hlt.le
    · exact heq.le
  · intro hcontends
    obtain ⟨record, hid, hcandidate⟩ := mem_candidates_of_contends hrank hcontends
    rcases Candidate.place_le_iff.1 (hfirst _ hcandidate) with hlt | ⟨_, hown | ⟨hother, _⟩⟩
    · exact absurd hlt (lt_irrefl _)
    · exact hown
    · exact absurd hid hother
  · intro hnot x hcontends
    obtain ⟨record, hid, hcandidate⟩ := mem_candidates_of_contends hrank hcontends
    rcases Candidate.place_le_iff.1 (hfirst _ hcandidate) with hlt | ⟨_, hown | ⟨_, hle⟩⟩
    · exact absurd hlt (lt_irrefl _)
    · -- The first candidate would contend for itself.
      refine absurd ⟨?_, first.record, ?_, rfl⟩ hnot
      · exact hown ▸ hmember
      · exact hown ▸ hread
    · rw [← hid]
      exact hle

theorem Represented.publisher_eq (h : d.Represented context m) (h' : d.Represented context m')
    (hset : m.equivalentIds = m'.equivalentIds) :
    m.primary.publisher.key = m'.primary.publisher.key := by
  obtain ⟨rank, hrank, hleast⟩ := h.ranked
  obtain ⟨rank', hrank', hleast'⟩ := h'.ranked
  have hle := hleast _ (hset ▸ h'.member) _ h'.read _ hrank'
  have hle' := hleast' _ (hset ▸ h.member) _ h.read _ hrank
  rw [le_antisymm hle hle'] at hrank
  exact (Sources.rank?_eq_some_iff_of_rank? hrank').1 hrank

/-- Without a contender among the ids that were asked for, the lowest one represents both. -/
theorem Represented.primary_eq (h : d.Represented context m) (h' : d.Represented context m')
    (hset : m.equivalentIds = m'.equivalentIds) (hid : ¬ d.Contends m m.id)
    (hid' : ¬ d.Contends m' m'.id) : m.primary = m'.primary := by
  have hkey := h.publisher_eq h' hset
  have hle := h.lowest hid m'.primary.id ⟨hset ▸ h'.member, m'.primary, h'.read, hkey.symm⟩
  have hle' := h'.lowest hid' m.primary.id ⟨hset ▸ h.member, m.primary, h.read, hkey⟩
  have hread := h.read
  rw [Id.ext (le_antisymm hle hle'), h'.read] at hread
  exact (Option.some.inj (Except.ok.inj hread)).symm

theorem Represented.publisher_eq_of_keyed (hkeyed : d.registry.Keyed)
    (h : d.Represented context m) (h' : d.Represented context m')
    (hkey : m.primary.publisher.key = m'.primary.publisher.key) :
    m.primary.publisher = m'.primary.publisher := by
  obtain ⟨_, row, _, hfind⟩ := Catalogue.content?_eq_some h.read
  obtain ⟨_, row', _, hfind'⟩ := Catalogue.content?_eq_some h'.read
  rw [← hkeyed _ _ hfind, hkey, hkeyed _ _ hfind', hfind'] at hfind
  exact (Option.some.inj hfind).symm

theorem perm_of_merge {sources : Sources} {records : IdMap Content} {x y : Id} {set : IdSet}
    (h : merge sources true records x set = some m)
    (h' : merge sources true records y set = some m') :
    (m.primary :: m.equivalents).Perm (m'.primary :: m'.equivalents) := by
  obtain ⟨first, others, hperm, _, rfl⟩ := exists_first_of_merge h
  obtain ⟨first', others', hperm', _, rfl⟩ := exists_first_of_merge h'
  exact (hperm.trans hperm'.symm).map Candidate.record

/-- **Members of one set agree.** Two ids of a query carry the same label. Where all is in order the
query has an answer, and in every answer both are missing, or both have a resource. These two
resources

* have the same set, and primaries of the same publisher, which has the first rank in the set;
* have the record of an id that was asked for as its primary if it is one of this publisher, and
  else that with the lowest id; so they have the same primary if neither is one of this publisher;
* have the same records in another order, if all of them are retained. -/
theorem members_agree (d : Deployment) (titles : Option (TitleQuery → Call Tally (List Id)))
    (context : QueryContext) (t : Tally) {ids : IdSet} {x y : Id} (hx : x ∈ ids) (hy : y ∈ ids)
    (hlabel : (d.catalogue.labelOf x).map Prod.snd = (d.catalogue.labelOf y).map Prod.snd) :
    have result := (((d.services .tables titles).mergeIds ids context).run t).1
    (d.isOpen = true → d.outages.content = false → d.catalogue.sets.HoldsIds →
      d.catalogue.HoldsRecords → ∃ answer, result = .ok answer) ∧
    ∀ answer, result = .ok answer →
      (x ∈ answer.missing ∧ y ∈ answer.missing) ∨
      ∃ m ∈ answer.resources, ∃ m' ∈ answer.resources, m.id = x ∧ m'.id = y ∧
        m.equivalentIds = m'.equivalentIds ∧
        m.primary.publisher.key = m'.primary.publisher.key ∧
        (d.registry.Keyed → m.primary.publisher = m'.primary.publisher) ∧
        d.Represented context m ∧ d.Represented context m' ∧
        (¬ d.Contends m x → ¬ d.Contends m' y → m.primary = m'.primary) ∧
        (context.details.retainsAll = true →
          (m.primary :: m.equivalents).Perm (m'.primary :: m'.equivalents)) := by
  intro result
  refine ⟨fun hopen hcontent hsets hrecords => ?_, fun answer hresult => ?_⟩
  · obtain ⟨answer, hanswer⟩ : ∃ answer, d.merged context ids = .ok answer :=
      exists_merged_eq_ok_iff.2 fun id _ => readable_of_holdsIds hopen hcontent hsets hrecords id
    exact ⟨answer, run_mergeIds_eq_ok_iff.2 hanswer⟩
  · have hanswer : d.merged context ids = .ok answer := run_mergeIds_eq_ok_iff.1 hresult
    -- Both ids have the same set, so either both have a result or none has.
    have hset : d.catalogue.setOf context.sources.enabled x =
        d.catalogue.setOf context.sources.enabled y := Catalogue.setOf_congr hlabel
    have hnone : d.mergedFor context x = none ↔ d.mergedFor context y = none := by
      rw [mergedFor, mergedFor, merge_eq_none_iff, merge_eq_none_iff, hset]
    cases hm : d.mergedFor context x with
    | none =>
      exact .inl ⟨(mem_missing_of_merged hanswer).2 ⟨hx, hm⟩,
        (mem_missing_of_merged hanswer).2 ⟨hy, hnone.1 hm⟩⟩
    | some m =>
      obtain ⟨m', hm'⟩ : ∃ m', d.mergedFor context y = some m' := by
        rw [← Option.ne_none_iff_exists', ne_eq, ← hnone, hm]
        exact Option.some_ne_none m
      obtain ⟨rfl, hmembers, _⟩ := merge_eq_some hm
      obtain ⟨rfl, hmembers', _⟩ := merge_eq_some hm'
      have hsame : m.equivalentIds = m'.equivalentIds := by rw [hmembers, hmembers', hset]
      have hfirst := represented_of_mergedFor hm
      have hsecond := represented_of_mergedFor hm'
      have hkey := hfirst.publisher_eq hsecond hsame
      refine .inr ⟨m, (mem_resources_of_merged hanswer).2 ⟨hx, hm⟩, m',
        (mem_resources_of_merged hanswer).2 ⟨hy, hm'⟩, rfl, rfl, hsame, hkey,
        fun hkeyed => hfirst.publisher_eq_of_keyed hkeyed hsecond hkey, hfirst, hsecond,
        hfirst.primary_eq hsecond hsame, fun hretain => ?_⟩
      rw [mergedFor, hretain, hset] at hm
      rw [mergedFor, hretain] at hm'
      exact perm_of_merge hm hm'

/-- Another record of the first publisher, in the same set. -/
def secondRecord : Content := { shownRecord with id := 6 }

/-- A catalogue with a set of three records, two of which are of one publisher. -/
def ensemble : Deployment :=
  { stage with
    catalogue := secondRecord.store 0
      { stage.catalogue with sets := stage.catalogue.sets.insert 6 5 } }

/-- The application may see both publishers. -/
def unrestricted : QueryContext :=
  ⟨⟨[shownRecord.publisher, hiddenRecord.publisher]⟩, restricted.details⟩

theorem holdsIds_ensemble : ensemble.catalogue.sets.HoldsIds := holdsIds_stage.insert 6 5

theorem holdsRecords_ensemble : ensemble.catalogue.HoldsRecords :=
  Catalogue.HoldsRecords.store holdsRecords_stage

theorem primaries_ensemble :
    (((ensemble.services .tables none).mergeIds (IdSet.ofList [secondRecord.id, hiddenRecord.id])
      unrestricted).run {}).1.map (fun answer =>
        (answer.missing.toList, answer.resources.map fun m => (m.id, m.primary.id))) =
      .ok ([], [(secondRecord.id, secondRecord.id), (hiddenRecord.id, shownRecord.id)]) := by
  rw [Services.mergeIds, merge_eq_insertionSort]
  decide +kernel

/-- The second record of the first publisher is its own primary; the record of the other publisher
gets the first one. -/
theorem members_agree_of_tie :
    have result := (((ensemble.services .tables none).mergeIds
      (IdSet.ofList [secondRecord.id, hiddenRecord.id]) unrestricted).run {}).1
    (ensemble.catalogue.labelOf secondRecord.id).map Prod.snd =
        (ensemble.catalogue.labelOf hiddenRecord.id).map Prod.snd ∧
      ∃ answer, result = .ok answer ∧ ∃ m ∈ answer.resources, ∃ m' ∈ answer.resources,
        m.primary.id = secondRecord.id ∧ m'.primary.id = shownRecord.id ∧
          m.primary.publisher = m'.primary.publisher ∧
          (m.primary :: m.equivalents).Perm (m'.primary :: m'.equivalents) := by
  intro result
  have hlabel : (ensemble.catalogue.labelOf secondRecord.id).map Prod.snd =
      (ensemble.catalogue.labelOf hiddenRecord.id).map Prod.snd := by decide +kernel
  have hx : secondRecord.id ∈ IdSet.ofList [secondRecord.id, hiddenRecord.id] := by simp
  have hy : hiddenRecord.id ∈ IdSet.ofList [secondRecord.id, hiddenRecord.id] := by simp
  obtain ⟨hanswered, hagree⟩ := members_agree ensemble none unrestricted {} hx hy hlabel
  obtain ⟨answer, hanswer⟩ := hanswered rfl rfl holdsIds_ensemble holdsRecords_ensemble
  have hshown : result.map (fun answer =>
      (answer.missing.toList, answer.resources.map fun m => (m.id, m.primary.id))) =
        .ok ([], [(secondRecord.id, secondRecord.id), (hiddenRecord.id, shownRecord.id)]) :=
    primaries_ensemble
  rw [show result = .ok answer from hanswer] at hshown
  obtain ⟨hmissing, hresources⟩ := Prod.mk.inj (Except.ok.inj hshown)
  have hprimary : ∀ m ∈ answer.resources, (m.id, m.primary.id) ∈
      [(secondRecord.id, secondRecord.id), (hiddenRecord.id, shownRecord.id)] := by
    intro m hm
    rw [← hresources]
    exact List.mem_map_of_mem hm
  rcases hagree answer hanswer with ⟨hx, _⟩ | ⟨m, hm, m', hm', hid, hid', _, _, hpublisher, hrest⟩
  · rw [← Std.ExtTreeSet.mem_toList, hmissing] at hx
    cases hx
  · obtain ⟨_, _, _, hperm⟩ := hrest
    have hpair := hprimary m hm
    have hpair' := hprimary m' hm'
    rw [hid] at hpair
    rw [hid'] at hpair'
    have hne : secondRecord.id ≠ hiddenRecord.id := by decide
    refine ⟨hlabel, answer, hanswer, m, hm, m', hm', ?_, ?_, hpublisher Registry.keyed_builtin,
      hperm (by decide +kernel)⟩
    · simpa [hne] using hpair
    · simpa [hne.symm] using hpair'

end Deployment

end MediaCatalogue
