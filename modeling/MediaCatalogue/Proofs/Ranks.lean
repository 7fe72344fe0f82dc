import MediaCatalogue.Proofs.Resources

/-!
# Ranks of publishers

An application names its publishers by keys, the preferred ones first. Of a key that is named again
the first place counts, so that the ranks number the publishers, and two publishers have one rank
only if they have one key.

* `Sources.ofKeys_eq_error_iff`, `Sources.ofKeys_eq_ok_iff` : the first unknown key is named, or all
  publishers are found;
* `Sources.keys_ofKeys` : the keys of the sources are those that were named, at their first places;
* `Sources.rank?_eq_some_iff` : the rank of a publisher is the place of its key.

**Main theorem** (`Sources.ranks_by_keys`): the sources that are made of keys of a registry, and the
ranks that they give. They stay the same if keys are named again, or if they are made anew from
their own publishers.
-/

namespace MediaCatalogue

/-! ### First occurrences -/

section

variable {α β κ : Type} [DecidableEq κ] {key : α → κ} {key' : β → κ} {seen : List κ} {xs : List α}
  {ys : List β}

theorem distinctFrom_eq_nil (h : ∀ x ∈ xs, key x ∈ seen) : distinctFrom key seen xs = [] := by
  refine List.eq_nil_iff_forall_not_mem.2 fun x hx => ?_
  obtain ⟨hmem, hnew⟩ := mem_of_mem_distinctFrom hx
  exact hnew (h x hmem)

theorem mem_firsts {ks : List κ} {k : κ} : k ∈ firsts id ks ↔ k ∈ ks := by
  rw [← distinctBy_eq_firsts]
  exact mem_distinct

/-- Lists whose items have the same keys keep the same places. -/
theorem forall₂_distinctFrom {R : α → β → Prop} (hkey : ∀ x y, R x y → key x = key' y)
    (h : List.Forall₂ R xs ys) :
    List.Forall₂ R (distinctFrom key seen xs) (distinctFrom key' seen ys) := by
  induction h generalizing seen with
  | nil => exact .nil
  | @cons x y xs ys hxy _ ih =>
    rw [distinctFrom, distinctFrom, ← hkey x y hxy]
    by_cases hseen : key x ∈ seen
    · rw [if_pos hseen, if_pos hseen]
      exact ih
    · rw [if_neg hseen, if_neg hseen]
      exact .cons hxy ih

end

namespace Sources

variable {registry : Registry} {key : String} {keys more : List String} {sources : Sources}
  {p q : Publisher} {i : Nat} {fault : Fault}

/-! ### Finding publishers -/

theorem findKey_eq_ok_iff : findKey registry key = .ok p ↔ registry.find? key = some p := by
  unfold findKey
  cases registry.find? key <;> simp

theorem findKey_eq_error_iff : findKey registry key = .error fault ↔
    registry.find? key = none ∧ fault = .configuration (.unknownPublisher key) := by
  unfold findKey
  cases registry.find? key <;> simp [eq_comm]

/-- The publishers of the keys are found, and the first one of each key is kept. -/
theorem ofKeys_eq_ok_iff : ofKeys registry keys = .ok sources ↔
    ∃ publishers, List.Forall₂ (fun key p => registry.find? key = some p) keys publishers ∧
      sources = ofPublishers publishers := by
  have hall : ∀ publishers, keys.mapM (findKey registry) = .ok publishers ↔
      List.Forall₂ (fun key p => registry.find? key = some p) keys publishers := by
    intro publishers
    simp only [mapM_eq_ok_iff, findKey_eq_ok_iff]
  constructor
  · intro h
    obtain ⟨publishers, hpublishers, heq⟩ := of_bind_eq_ok h
    cases heq
    exact ⟨publishers, (hall publishers).1 hpublishers, rfl⟩
  · rintro ⟨publishers, hpublishers, rfl⟩
    simp only [ofKeys, (hall publishers).2 hpublishers]
    rfl

theorem ofKeys_eq_error_iff : ofKeys registry keys = .error fault ↔
    ∃ before key after, keys = before ++ key :: after ∧
      (∀ k ∈ before, ∃ p, registry.find? k = some p) ∧ registry.find? key = none ∧
        fault = .configuration (.unknownPublisher key) := by
  have hbind : ofKeys registry keys = .error fault ↔
      keys.mapM (findKey registry) = .error fault := by
    unfold ofKeys
    cases keys.mapM (findKey registry) <;> simp [bind, Except.bind, pure, Except.pure]
  simp only [hbind, mapM_eq_error_iff, findKey_eq_ok_iff, findKey_eq_error_iff]

theorem exists_ofKeys_iff : (∃ sources, ofKeys registry keys = .ok sources) ↔
    ∀ key ∈ keys, ∃ p, registry.find? key = some p := by
  simp only [ofKeys, exists_bind_pure_eq_ok_iff, exists_mapM_eq_ok_iff, findKey_eq_ok_iff]

/-! ### Their keys -/

theorem nodup_keys_ofPublishers (publishers : List Publisher) :
    (ofPublishers publishers).keys.Nodup :=
  nodup_map_distinctFrom _ _ _

theorem ofPublishers_precedence (h : sources.keys.Nodup) :
    ofPublishers sources.precedence = sources := by
  rw [ofPublishers, distinctBy, distinctFrom_eq_self h fun _ _ => List.not_mem_nil]

theorem map_key_of_forall₂ (hkeyed : registry.Keyed) {publishers : List Publisher}
    (h : List.Forall₂ (fun key p => registry.find? key = some p) keys publishers) :
    publishers.map Publisher.key = keys := by
  have hall := h.imp fun key p hp => (hkeyed key p hp).symm
  rw [← List.forall₂_map_right_iff (f := Publisher.key), List.forall₂_eq_eq_eq] at hall
  exact hall.symm

theorem forall₂_firsts_precedence (hkeyed : registry.Keyed)
    (h : ofKeys registry keys = .ok sources) :
    List.Forall₂ (fun key p => registry.find? key = some p) (firsts id keys)
      sources.precedence := by
  obtain ⟨publishers, hpublishers, rfl⟩ := ofKeys_eq_ok_iff.1 h
  rw [← distinctBy_eq_firsts]
  exact forall₂_distinctFrom (fun key p hp => (hkeyed key p hp).symm) hpublishers

theorem keys_ofKeys (hkeyed : registry.Keyed) (h : ofKeys registry keys = .ok sources) :
    sources.keys = firsts id keys :=
  map_key_of_forall₂ hkeyed (forall₂_firsts_precedence hkeyed h)

theorem nodup_keys_of_ofKeys (h : ofKeys registry keys = .ok sources) : sources.keys.Nodup := by
  obtain ⟨publishers, _, rfl⟩ := ofKeys_eq_ok_iff.1 h
  exact nodup_keys_ofPublishers publishers

/-- Keys that are named again change nothing. -/
theorem ofKeys_append (hkeyed : registry.Keyed) (h : ofKeys registry keys = .ok sources)
    (hmore : ∀ key ∈ more, key ∈ keys) : ofKeys registry (keys ++ more) = .ok sources := by
  obtain ⟨again, hagain⟩ : ∃ again, ofKeys registry more = .ok again :=
    exists_ofKeys_iff.2 fun key hkey => exists_ofKeys_iff.1 ⟨sources, h⟩ key (hmore key hkey)
  obtain ⟨publishers, hpublishers, rfl⟩ := ofKeys_eq_ok_iff.1 h
  obtain ⟨publishers', hpublishers', -⟩ := ofKeys_eq_ok_iff.1 hagain
  refine ofKeys_eq_ok_iff.2 ⟨_, List.rel_append hpublishers hpublishers', ?_⟩
  have hseen : ∀ p ∈ publishers', p.key ∈ publishers.map Publisher.key := by
    intro p hp
    rw [map_key_of_forall₂ hkeyed hpublishers]
    refine hmore _ ?_
    rw [← map_key_of_forall₂ hkeyed hpublishers']
    exact List.mem_map_of_mem hp
  rw [ofPublishers, ofPublishers, distinctBy_append, distinctFrom_eq_nil hseen, List.append_nil]

/-! ### Ranks -/

theorem rank?_eq_some_iff (hnodup : sources.keys.Nodup) :
    sources.rank? p = some i ↔ ∃ q, sources.precedence[i]? = some q ∧ q.key = p.key := by
  simp only [rank?, List.findIdx?_eq_some_iff_getElem, decide_eq_true_eq]
  constructor
  · rintro ⟨hi, hkey, _⟩
    exact ⟨sources.precedence[i], List.getElem?_eq_getElem hi, hkey⟩
  · rintro ⟨q, hq, hkey⟩
    obtain ⟨hi, rfl⟩ := List.getElem?_eq_some_iff.1 hq
    refine ⟨hi, hkey, fun j hj heq => ?_⟩
    have hne := List.pairwise_iff_getElem.1 (List.pairwise_map.1 hnodup) j i (hj.trans hi) hi hj
    exact hne (heq.trans hkey.symm)

theorem key_eq_of_rank? (hp : sources.rank? p = some i) (hq : sources.rank? q = some i) :
    p.key = q.key := by
  simp only [rank?, List.findIdx?_eq_some_iff_getElem, decide_eq_true_eq] at hp hq
  obtain ⟨_, hp, _⟩ := hp
  obtain ⟨_, hq, _⟩ := hq
  exact hp.symm.trans hq

theorem exists_rank?_iff (hnodup : sources.keys.Nodup) :
    (∃ p, sources.rank? p = some i) ↔ i < sources.precedence.length := by
  simp only [rank?_eq_some_iff hnodup]
  constructor
  · rintro ⟨_, q, hq, _⟩
    exact (List.getElem?_eq_some_iff.1 hq).1
  · intro hi
    exact ⟨_, _, List.getElem?_eq_getElem hi, rfl⟩

theorem isEnabled_iff_mem_keys : sources.isEnabled p = true ↔ p.key ∈ sources.keys := by
  rw [isEnabled_iff, keys, List.mem_map]

theorem size_enabled (hnodup : sources.keys.Nodup) :
    sources.enabled.size = sources.precedence.length := by
  refine Std.ExtTreeSet.size_ofList ((List.pairwise_map.1 hnodup).imp fun hne heq => hne ?_)
  rw [Std.LawfulEqCmp.compare_eq_iff_eq.1 heq]

/-- **Sources and ranks.** Take any keys, and a registry.

1. There are no sources if and only if some key is not known; then the first such key is named.
2. There are sources if and only if all keys are known.

If they were made, and the registry finds publishers by their own keys, as all registries do that can
be built (`Registry.keyed_ofList`, `Registry.keyed_builtin`):

3. They list the publishers of the keys at their first places, in this order, and with different keys.
4. A publisher has the rank `i` if and only if the publisher at place `i` has its key. So publishers
   with one rank have one key, and the ranks are the places.
5. A publisher is enabled if and only if its key was named.
6. As a set the enabled publishers are as many.
7. The sources stay the same if any of the keys are named again.
8. They stay the same if they are made anew from their publishers. -/
theorem ranks_by_keys (registry : Registry) (keys : List String) :
    (∀ fault, ofKeys registry keys = .error fault ↔
      ∃ before key after, keys = before ++ key :: after ∧
        (∀ k ∈ before, ∃ p, registry.find? k = some p) ∧ registry.find? key = none ∧
          fault = .configuration (.unknownPublisher key)) ∧
    ((∃ sources, ofKeys registry keys = .ok sources) ↔
      ∀ key ∈ keys, ∃ p, registry.find? key = some p) ∧
    (registry.Keyed → ∀ sources, ofKeys registry keys = .ok sources →
      (List.Forall₂ (fun key p => registry.find? key = some p) (firsts id keys)
          sources.precedence ∧
        sources.keys = firsts id keys ∧ sources.keys.Nodup) ∧
      ((∀ p i, sources.rank? p = some i ↔
          ∃ q, sources.precedence[i]? = some q ∧ q.key = p.key) ∧
        (∀ p q i, sources.rank? p = some i → sources.rank? q = some i → p.key = q.key) ∧
        ∀ i, (∃ p, sources.rank? p = some i) ↔ i < sources.precedence.length) ∧
      (∀ p, sources.isEnabled p = true ↔ p.key ∈ keys) ∧
      ((∀ p, p ∈ sources.enabled ↔ p ∈ sources.precedence) ∧
        sources.enabled.size = sources.precedence.length) ∧
      (∀ more, (∀ key ∈ more, key ∈ keys) → ofKeys registry (keys ++ more) = .ok sources) ∧
      ofPublishers sources.precedence = sources) := by
  refine ⟨fun _ => ofKeys_eq_error_iff, exists_ofKeys_iff, fun hkeyed sources h => ?_⟩
  have hnodup := nodup_keys_of_ofKeys h
  have hkeys := keys_ofKeys hkeyed h
  refine ⟨⟨forall₂_firsts_precedence hkeyed h, hkeys, hnodup⟩,
    ⟨fun _ _ => rank?_eq_some_iff hnodup, fun _ _ _ => key_eq_of_rank?,
      fun _ => exists_rank?_iff hnodup⟩,
    fun p => ?_, ⟨fun _ => mem_enabled, size_enabled hnodup⟩,
    fun _ => ofKeys_append hkeyed h, ofPublishers_precedence hnodup⟩
  rw [isEnabled_iff_mem_keys, hkeys, mem_firsts]

/-- Three publishers, of which two are named twice. -/
theorem ranks_by_keys_of_builtin :
    have keys := ["itv", "bbc", "itv", "c4", "bbc"]
    have sources : Sources :=
      ⟨[⟨"itv", "GB", "ITV"⟩, ⟨"bbc", "GB", "BBC"⟩, ⟨"c4", "GB", "Channel 4"⟩]⟩
    ofKeys .builtin keys = .ok sources ∧ firsts id keys = ["itv", "bbc", "c4"] ∧
      sources.rank? ⟨"bbc", "IE", "BBC Two"⟩ = some 1 ∧ sources.enabled.size = 3 ∧
      ofKeys .builtin (keys ++ ["c4", "itv"]) = .ok sources ∧
      ofPublishers sources.precedence = sources ∧
      ofKeys .builtin ["bbc", "nobody", "itv", "noone"] =
        .error (.configuration (.unknownPublisher "nobody")) := by
  intro keys sources
  have hmade : ofKeys .builtin keys = .ok sources := by decide +kernel
  obtain ⟨_, _, hsources⟩ := ranks_by_keys .builtin keys
  obtain ⟨⟨_, hkeys, _⟩, ⟨hrank, _⟩, _, ⟨_, hsize⟩, hagain, hanew⟩ :=
    hsources Registry.keyed_builtin sources hmade
  obtain ⟨hunknown, _⟩ := ranks_by_keys .builtin ["bbc", "nobody", "itv", "noone"]
  refine ⟨hmade, hkeys.symm, (hrank _ 1).2 ⟨_, rfl, rfl⟩, hsize, hagain _ (by decide), hanew,
    (hunknown _).2 ⟨["bbc"], "nobody", ["itv", "noone"], rfl, ?_, by decide +kernel, rfl⟩⟩
  exact List.forall_mem_singleton.2 ⟨⟨"bbc", "GB", "BBC"⟩, by decide +kernel⟩

end Sources

end MediaCatalogue
