import MediaCatalogue.Proofs.Arrivals
import MediaCatalogue.Proofs.Decoding
import MediaCatalogue.Proofs.Draining
import MediaCatalogue.Proofs.Members

/-!
# Stored records read back

A row has the key of a publisher, the word of a kind, a number of nanoseconds and the text of the
attributes. Reading it turns each of these back, and all but the publisher without a registry. There
is one exception: attributes that are nested too deeply for a text are read as `null`. A message can
ask for such attributes, because the text in an embedded document is nested on its own.

* `Content.keptAttributes` : what is read of the attributes of a record;
* `Content.asRead?` : what is read of a record under a registry;
* `Content.under?` : what another registry makes of a record;
* `Catalogue.Faithful` : tables that have the newest of some updates, of known publishers, and with
  attributes that read back as far as their depth allows.

**Main theorem** (`Catalogue.stored_content_reads_back`): if messages asked for all updates that
were written, then the newest records are read back as they were written. Of their attributes only
the doubles could fail to read back, so it is assumed that these do.
-/

namespace MediaCatalogue

open EntityUpdate

/-! ### Rows -/

theorem EntityUpdate.IsAsked.find?_publisher {registry : Registry} {message : List UInt8}
    {record : Content} (h : (EntityUpdate.content record).IsAsked registry message)
    (hkeyed : registry.Keyed) :
    registry.find? record.publisher.key = some record.publisher := by
  obtain ⟨e, _, hupdate⟩ := h
  obtain ⟨publisher, hsource, hpayload⟩ := exists_publisher_of_ofEvent hupdate
  rw [(ofPayload_eq_ok_content hpayload).1, hkeyed _ _ hsource, hsource]

/-- What is read of the attributes of a record: those that are nested too deeply are lost. -/
def Content.keptAttributes (record : Content) : Json :=
  if record.attributes.depth ≤ Json.Node.maxDepth then record.attributes else .null

/-- What is read of a record: its publisher is looked up by its key, and its time is counted in
nanoseconds. -/
def Content.asRead? (registry : Registry) (record : Content) (nanos : Int) : Option Content :=
  (registry.find? record.publisher.key).map fun publisher =>
    { record with publisher, lastUpdated := .ofNanos nanos, attributes := record.keptAttributes }

theorem EntityUpdate.IsAsked.getD_parseText_render {registry : Registry} {message : List UInt8}
    {record : Content} (h : (EntityUpdate.content record).IsAsked registry message)
    (hdoubles : ∀ x, record.attributes.Contains (.double x) → (Json.Number.double x).ReadsBack) :
    (Json.parseText record.attributes.render).getD .null = record.keptAttributes := by
  rw [h.parseText_render_attributes hdoubles, Content.keptAttributes]
  split <;> rfl

theorem Content.content?_row {record : Content} {nanos : Int} (registry : Registry)
    (hattributes : (Json.parseText record.attributes.render).getD .null = record.keptAttributes) :
    (record.row nanos).content? registry record.id = .ok (record.asRead? registry nanos) := by
  unfold ContentRow.content? asRead? row
  cases registry.find? record.publisher.key with
  | none => rfl
  | some publisher =>
    simp only [ContentKind.ofWord_word, hattributes]
    rfl

/-- A record under another registry: only the country and the title of its publisher can change,
and there is none if the publisher is not registered. -/
def Content.under? (registry : Registry) (record : Content) : Option Content :=
  (registry.find? record.publisher.key).map fun publisher =>
    { record with publisher :=
      { record.publisher with country := publisher.country, title := publisher.title } }

theorem Content.id_of_under? {registry : Registry} {record found : Content}
    (h : record.under? registry = some found) : found.id = record.id := by
  obtain ⟨_, _, rfl⟩ := Option.map_eq_some_iff.1 h
  rfl

theorem Content.asRead?_of_find? {registry : Registry} {record : Content} {nanos : Int}
    (h : registry.find? record.publisher.key = some record.publisher) :
    record.asRead? registry nanos =
      some { record with lastUpdated := .ofNanos nanos, attributes := record.keptAttributes } := by
  rw [asRead?, h, Option.map_some]

/-- Another registry reads what this one reads, with its own publishers. -/
theorem Content.asRead?_eq_bind {registry registry' : Registry} {record : Content} {nanos : Int}
    (h : registry.find? record.publisher.key = some record.publisher) (hkeyed : registry'.Keyed) :
    record.asRead? registry' nanos = (record.asRead? registry nanos).bind (under? registry') := by
  rw [asRead?_of_find? h, Option.bind_some, asRead?, under?]
  cases hfound : registry'.find? record.publisher.key with
  | none => rfl
  | some publisher =>
    have hkey := hkeyed _ _ hfound
    simp only [Option.map_some, ← hkey]

/-! ### Tables that read back -/

namespace Catalogue

/-- The rows are those of the newest updates. The publishers of these updates are registered, and
their attributes read back as far as their depth allows. -/
structure Faithful (registry : Registry) (updates : List EntityUpdate) (c : Catalogue) : Prop where
  newest : c.HoldsNewest updates
  records : c.HoldsRecords
  publisher : ∀ {record nanos}, IsNewest updates (.content record) nanos →
    registry.find? record.publisher.key = some record.publisher
  attributes : ∀ {record nanos}, IsNewest updates (.content record) nanos →
    (Json.parseText record.attributes.render).getD .null = record.keptAttributes

namespace Faithful

variable {c : Catalogue} {updates : List EntityUpdate} {registry registry' : Registry} {id : Id}
  {ids : IdSet} {record : Content}

theorem getElem?_content_eq_some_iff (h : c.Faithful registry updates) {row : ContentRow} :
    c.content[id.stored]? = some row ↔ ∃ record nanos,
      IsNewest updates (.content record) nanos ∧ record.id = id ∧ row = record.row nanos := by
  rw [h.newest.content.getElem?_eq_some_iff RowFormat.records_row?_eq_some_iff]
  constructor
  · rintro ⟨record, nanos, hnewest, hid, hrow⟩
    exact ⟨record, nanos, hnewest, Id.stored_injective hid.symm, hrow⟩
  · rintro ⟨record, nanos, hnewest, rfl, hrow⟩
    exact ⟨record, nanos, hnewest, rfl, hrow⟩

theorem content?_eq (h : c.Faithful registry updates) {nanos : Int}
    (hnewest : IsNewest updates (.content record) nanos) (registry' : Registry) :
    c.content? registry' record.id = .ok (record.asRead? registry' nanos) := by
  rw [content?, h.getElem?_content_eq_some_iff.2 ⟨record, nanos, hnewest, rfl, rfl⟩]
  exact record.content?_row registry' (h.attributes hnewest)

theorem getElem?_records_iff (h : c.Faithful registry updates) {found : Content} :
    (c.records registry')[id]? = some found ↔ ∃ record nanos,
      IsNewest updates (.content record) nanos ∧ record.id = id ∧
        record.asRead? registry' nanos = some found := by
  rw [getElem?_records]
  constructor
  · intro hfound
    obtain ⟨_, row, hstored, _⟩ := content?_eq_ok_some_iff.1 hfound
    obtain ⟨record, nanos, hnewest, rfl, _⟩ := h.getElem?_content_eq_some_iff.1 hstored
    have hread := h.content?_eq hnewest registry'
    exact ⟨record, nanos, hnewest, rfl, Except.ok.inj (hread.symm.trans hfound)⟩
  · rintro ⟨record, nanos, hnewest, rfl, hfound⟩
    rw [h.content?_eq hnewest registry', hfound]

/-- **In their own registry** the newest records are read as they are. -/
theorem getElem?_records_own_iff (h : c.Faithful registry updates) :
    (c.records registry)[id]? = some record ↔ ∃ written nanos,
      IsNewest updates (.content written) nanos ∧ written.id = id ∧
        record = { written with lastUpdated := .ofNanos nanos
                                attributes := written.keptAttributes } := by
  rw [h.getElem?_records_iff]
  refine exists_congr fun written => exists_congr fun nanos => and_congr_right fun hnewest =>
    and_congr_right fun _ => ?_
  rw [Content.asRead?_of_find? (h.publisher hnewest), Option.some.injEq, eq_comm]

/-- **Another registry** changes publishers and drops records, and nothing else. -/
theorem recordsOf_eq_filterMap (h : c.Faithful registry updates) (hkeyed : registry'.Keyed)
    (ids : IdSet) :
    c.recordsOf registry' ids =
      (c.recordsOf registry ids).filterMap (Content.under? registry') := by
  rw [recordsOf, recordsOf, List.filterMap_filterMap]
  refine List.filterMap_congr fun id _ => Option.ext fun found => ?_
  rw [h.getElem?_records_iff, Option.bind_eq_some_iff]
  simp only [h.getElem?_records_iff]
  constructor
  · rintro ⟨record, nanos, hnewest, hid, hfound⟩
    rw [Content.asRead?_eq_bind (h.publisher hnewest) hkeyed, Option.bind_eq_some_iff] at hfound
    obtain ⟨own, hown, hunder⟩ := hfound
    exact ⟨own, ⟨record, nanos, hnewest, hid, hown⟩, hunder⟩
  · rintro ⟨own, ⟨record, nanos, hnewest, hid, hown⟩, hunder⟩
    refine ⟨record, nanos, hnewest, hid, ?_⟩
    rw [Content.asRead?_eq_bind (h.publisher hnewest) hkeyed, hown, Option.bind_some, hunder]

theorem mem_missing_iff (h : c.Faithful registry updates) :
    id ∈ Resolved.missing ⟨ids, c.recordsOf registry ids⟩ ↔
      id ∈ ids ∧ c.content[id.stored]? = none := by
  rw [Resolved.mem_missing]
  refine and_congr_right fun hid => ?_
  rw [Option.eq_none_iff_forall_ne_some]
  constructor
  · intro hnone row hrow
    obtain ⟨written, nanos, hnewest, rfl, _⟩ := h.getElem?_content_eq_some_iff.1 hrow
    have hread := h.getElem?_records_own_iff.2 ⟨written, nanos, hnewest, rfl, rfl⟩
    exact hnone
      { written with lastUpdated := .ofNanos nanos, attributes := written.keptAttributes }
      (mem_recordsOf.2 ⟨hid, hread⟩) rfl
  · rintro hnone record hrecord rfl
    obtain ⟨written, nanos, hnewest, hwritten, _⟩ :=
      h.getElem?_records_own_iff.1 (mem_recordsOf.1 hrecord).2
    exact hnone _ (h.getElem?_content_eq_some_iff.2 ⟨written, nanos, hnewest, hwritten, rfl⟩)

end Faithful

section

variable {registry : Registry} {transactions : List Transaction}

theorem faithful_after (hkeyed : registry.Keyed)
    (hasked : ∀ update ∈ transactions.filterMap (·.update?),
      ∃ message, update.IsAsked registry message)
    (hdoubles : ∀ record, .content record ∈ transactions.filterMap (·.update?) →
      ∀ x, record.attributes.Contains (.double x) → (Json.Number.double x).ReadsBack) :
    (empty.after transactions).Faithful registry (empty.arrivals transactions) where
  newest := holdsNewest_after transactions
  records := (wellFormed_after transactions).written.holdsRecords
  publisher := by
    intro record nanos hnewest
    obtain ⟨message, hrecord⟩ := hasked _ (arrivals_subset _ _ hnewest.stamped.1)
    exact hrecord.find?_publisher hkeyed
  attributes := by
    intro record nanos hnewest
    have hwritten := arrivals_subset _ _ hnewest.stamped.1
    obtain ⟨message, hrecord⟩ := hasked _ hwritten
    exact hrecord.getD_parseText_render (hdoubles record hwritten)

/-- **Stored records read back.** After any transactions whose updates messages asked for, reading
some ids does not fail:

* under the registry of the messages there is one record for each id that has a row, and it is that
  of the newest update, to the nanosecond, but for attributes that are nested too deeply; ids
  without a row are missing;
* under another registry those are missing too whose publisher it does not have, and nothing else
  changes but the country and the title of publishers. -/
theorem stored_content_reads_back (hkeyed : registry.Keyed) (transactions : List Transaction)
    (hasked : ∀ update ∈ transactions.filterMap (·.update?),
      ∃ message, update.IsAsked registry message)
    (hdoubles : ∀ record, .content record ∈ transactions.filterMap (·.update?) →
      ∀ x, record.attributes.Contains (.double x) → (Json.Number.double x).ReadsBack)
    (ids : IdSet) :
    have c := empty.after transactions
    have updates := empty.arrivals transactions
    ∃ r, resolveContent registry (.still c) ids = .ok r ∧ r.requested = ids ∧
      (r.resources.map Content.id).Nodup ∧
      (∀ record, record ∈ r.resources ↔ record.id ∈ ids ∧ ∃ written nanos,
        IsNewest updates (.content written) nanos ∧
          record = { written with lastUpdated := .ofNanos nanos
                                  attributes := written.keptAttributes } ∧
          record.lastUpdated.nanos? = written.lastUpdated.nanos?) ∧
      (∀ id, id ∈ r.missing ↔ id ∈ ids ∧ c.content[id.stored]? = none) ∧
      ∀ registry' : Registry, registry'.Keyed →
        ∃ r', resolveContent registry' (.still c) ids = .ok r' ∧ r'.requested = ids ∧
          r'.resources = r.resources.filterMap (Content.under? registry') ∧
          ∀ id, id ∈ r'.missing ↔ id ∈ r.missing ∨ ∃ record ∈ r.resources, record.id = id ∧
            registry'.find? record.publisher.key = none := by
  intro c updates
  have h : c.Faithful registry updates := faithful_after hkeyed hasked hdoubles
  refine ⟨_, resolveContent_eq_ok h.records registry ids, rfl, nodup_recordsOf _ _ _,
    fun record => ?_, fun id => h.mem_missing_iff, fun registry' hkeyed' =>
    ⟨_, resolveContent_eq_ok h.records registry' ids, rfl, h.recordsOf_eq_filterMap hkeyed' ids,
      fun id => ?_⟩⟩
  · rw [mem_recordsOf, h.getElem?_records_own_iff]
    refine and_congr_right fun _ => exists_congr fun written => exists_congr fun nanos =>
      and_congr_right fun hnewest => ?_
    have hnanos := hnewest.stamped.2
    constructor
    · rintro ⟨_, rfl⟩
      exact ⟨rfl, (Instant.nanos?_ofNanos_of_nanos? hnanos).trans hnanos.symm⟩
    · rintro ⟨rfl, _⟩
      exact ⟨rfl, rfl⟩
  · rw [h.recordsOf_eq_filterMap hkeyed' ids]
    refine (Resolved.mem_missing_filterMap (r := ⟨ids, c.recordsOf registry ids⟩)
      (fun record hrecord => (mem_recordsOf.1 hrecord).1) (nodup_recordsOf _ _ _)
      fun _ _ => Content.id_of_under?).trans ?_
    simp only [Content.under?, Option.map_eq_none_iff]
    rfl

end

/-- A message about a film. Its attributes hold a text, a double and a whole number. -/
def filmMessage : List UInt8 :=
  Text.Utf8.encode ("[null,\"6\",\"1970-01-01T00:00:01Z\",\"content\",\"bbc\"," ++
    "[\"film\",\"Nosferatu\",\x7b\"year\":1922,\"rating\":0.5,\"cast\":[\"Schreck\"]\x7d]]")

/-- The film in the message. -/
def film : Content where
  id := 6
  publisher := ⟨"bbc", "GB", "BBC"⟩
  kind := .film
  title := some "Nosferatu"
  lastUpdated := .ofNanos 1000000000
  attributes := .object [("cast", .array [.string "Schreck"]),
    ("rating", .number (.double Json.half)), ("year", .ofInt 1922)]

/-- An earlier message about the film, without a title. -/
def rumourMessage : List UInt8 :=
  Text.Utf8.encode "[null,\"6\",\"1970-01-01T00:00:00Z\",\"content\",\"bbc\",[\"film\"]]"

/-- What the earlier message says about the film. -/
def rumour : Content :=
  { film with title := none, lastUpdated := .ofNanos 0, attributes := .null }

/-- The earlier message arrives late. -/
def premiere : List Transaction :=
  [.write (.ofNanos 0) none (.content film), .write (.ofNanos 0) none (.content rumour)]

theorem isAsked_film : (EntityUpdate.content film).IsAsked .builtin filmMessage := by
  have hsource : Registry.builtin.find? "bbc" = some film.publisher := by decide +kernel
  exact ⟨⟨none, 6, .ofNanos 1000000000, .content, "bbc",
    .array [.string "film", .string "Nosferatu", film.attributes]⟩, by decide +kernel,
    ofEvent_of_ofPayload hsource rfl⟩

theorem isAsked_rumour : (EntityUpdate.content rumour).IsAsked .builtin rumourMessage := by
  have hsource : Registry.builtin.find? "bbc" = some rumour.publisher := by decide +kernel
  exact ⟨⟨none, 6, .ofNanos 0, .content, "bbc", .array [.string "film"]⟩, by decide +kernel,
    ofEvent_of_ofPayload hsource rfl⟩

theorem eq_half_of_contains {record : Content} (hrecord : record = film ∨ record = rumour)
    {x : Decimal.Binary64} (h : record.attributes.Contains (.double x)) : x = Json.half := by
  rcases hrecord with rfl | rfl
  · cases h with
    | field hfield hx =>
      simp only [List.mem_cons, List.not_mem_nil, or_false] at hfield
      rcases hfield with rfl | rfl | rfl
      · cases hx with
        | item hitem hx =>
          cases List.mem_singleton.1 hitem
          cases hx
      · cases hx
        rfl
      · cases hx
  · cases h

/-- The film reads back as its later message says. Nothing is stored about 7, and without publishers
nothing is read. -/
theorem stored_content_reads_back_of_film :
    ∃ r r', resolveContent .builtin (.still (empty.after premiere)) (IdSet.ofList [6, 7]) = .ok r ∧
      resolveContent .empty (.still (empty.after premiere)) (IdSet.ofList [6, 7]) = .ok r' ∧
      film ∈ r.resources ∧ 7 ∈ r.missing ∧ 6 ∈ r'.missing := by
  have hupdates : premiere.filterMap (·.update?) = [.content film, .content rumour] := rfl
  have hasked : ∀ update ∈ premiere.filterMap (·.update?),
      ∃ message, update.IsAsked .builtin message := by
    rw [hupdates]
    exact List.forall_mem_cons.2 ⟨⟨_, isAsked_film⟩,
      List.forall_mem_singleton.2 ⟨_, isAsked_rumour⟩⟩
  have hdoubles : ∀ record, .content record ∈ premiere.filterMap (·.update?) →
      ∀ x, record.attributes.Contains (.double x) → (Json.Number.double x).ReadsBack := by
    intro record hrecord x hx
    rw [hupdates] at hrecord
    rw [eq_half_of_contains (by simpa using hrecord) hx]
    exact Json.readsBack_half
  obtain ⟨r, hr, _, _, hmem, hmissing, hother⟩ := stored_content_reads_back Registry.keyed_builtin
    premiere hasked hdoubles (IdSet.ofList [6, 7])
  obtain ⟨r', hr', _, _, hmissing'⟩ := hother .empty Registry.keyed_empty
  have harrivals : empty.arrivals premiere = [.content film, .content rumour] := by
    rw [arrivals_of_isUndisturbed wellFormed_empty fun t ht => ?_, hupdates]
    · rfl
    · simp only [premiere, List.mem_cons, List.not_mem_nil, or_false] at ht
      rcases ht with rfl | rfl <;> exact ⟨rfl, 0, by decide⟩
  have hnewest : IsNewest (empty.arrivals premiere) (.content film) 1000000000 := by
    rw [harrivals]
    refine ⟨[], [.content rumour], rfl, by decide, fun w m hw _ => absurd hw.1 List.not_mem_nil,
      fun w m hw _ => ?_⟩
    obtain ⟨rfl, hm⟩ := stamped_singleton.1 hw
    cases hm.symm.trans (show rumour.lastUpdated.nanos? = some 0 by decide)
    decide
  have hfilm : film ∈ r.resources :=
    (hmem film).2 ⟨IdSet.mem_ofList.2 (by decide), film, _, hnewest, rfl, rfl⟩
  refine ⟨r, r', hr, hr', hfilm, ?_, ?_⟩
  · exact (hmissing 7).2 ⟨IdSet.mem_ofList.2 (by decide), by decide +kernel⟩
  · exact (hmissing' 6).2 (.inr ⟨film, hfilm, rfl, by simp [Registry.find?, Registry.empty]⟩)

/-- Arrays inside each other. -/
def nested : Nat → Json
  | 0 => .array []
  | depth + 1 => .array [nested depth]

theorem not_contains_nested {depth : Nat} {n : Json.Number} : ¬ (nested depth).Contains n := by
  induction depth with
  | zero =>
    intro h
    cases h with
    | item hitem => cases hitem
  | succ depth ih =>
    intro h
    cases h with
    | item hitem hn =>
      cases List.mem_singleton.1 hitem
      exact ih hn

/-- A message about a film. The arrays in its attributes end with the text of some more. -/
def deepMessage : List UInt8 :=
  Text.Utf8.encode "[null,\"6\",\"1970-01-01T00:00:00Z\",\"content\",\"bbc\",[\"film\",null," ++
    List.replicate 124 0x5b ++
    Text.Utf8.encode "\x7b\"$serde_json::private::RawValue\":\"[[[[]]]]\"\x7d" ++
    List.replicate 124 0x5d ++ Text.Utf8.encode "]]"

/-- The event in the message. -/
def deepEvent : ChangeEvent :=
  ⟨none, 6, .ofNanos 0, .content, "bbc", .array [.string "film", .null, nested 127]⟩

/-- The film in the message. -/
def deepFilm : Content :=
  { film with title := none, lastUpdated := .ofNanos 0, attributes := nested 127 }

theorem isAsked_deepFilm : (EntityUpdate.content deepFilm).IsAsked .builtin deepMessage := by
  have hsource : Registry.builtin.find? deepEvent.source = some deepFilm.publisher := by
    decide +kernel
  have hpayload : deepEvent.payloadAs ContentPayload.decoder = .ok ⟨.film, none, nested 127⟩ := by
    decide +kernel
  refine ⟨deepEvent, by decide +kernel, ofEvent_of_ofPayload hsource ?_⟩
  show (deepEvent.payloadAs ContentPayload.decoder >>= _) = _
  rw [hpayload]
  rfl

/-- **Attributes are lost.** A message asks for a record whose attributes are nested more deeply
than a text may be. It is stored, and read without them. -/
theorem attributes_lost_when_deep :
    (EntityUpdate.content deepFilm).IsAsked .builtin deepMessage ∧
      ∃ r, resolveContent .builtin
          (.still (empty.after [.write (.ofNanos 0) none (.content deepFilm)]))
          (IdSet.ofList [6]) = .ok r ∧
        { deepFilm with attributes := .null } ∈ r.resources ∧ deepFilm ∉ r.resources := by
  have hread : (empty.after [.write (.ofNanos 0) none (.content deepFilm)]).content? .builtin 6 =
      .ok (some { deepFilm with attributes := .null }) := by
    have hrow : (empty.after [.write (.ofNanos 0) none (.content deepFilm)]).content[
        (6 : Id).stored]? = some (deepFilm.row 0) := by decide +kernel
    have hkept : deepFilm.keptAttributes = .null := by decide +kernel
    have hpublisher : Registry.builtin.find? deepFilm.publisher.key = some deepFilm.publisher := by
      decide +kernel
    rw [content?, hrow]
    refine (deepFilm.content?_row .builtin (isAsked_deepFilm.getD_parseText_render
      fun x hx => absurd hx not_contains_nested)).trans ?_
    rw [Content.asRead?_of_find? hpublisher, hkept]
    rfl
  have hid : (6 : Id) ∈ IdSet.ofList [6] := IdSet.mem_ofList.2 List.mem_cons_self
  refine ⟨isAsked_deepFilm, _,
    resolveContent_eq_ok (wellFormed_after _).written.holdsRecords .builtin _,
    mem_recordsOf.2 ⟨hid, getElem?_records.2 hread⟩, fun hdeep => ?_⟩
  cases hread.symm.trans (getElem?_records.1 (mem_recordsOf.1 hdeep).2)

end Catalogue

end MediaCatalogue
