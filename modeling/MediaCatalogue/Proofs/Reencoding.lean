import MediaCatalogue.Proofs.Codes
import MediaCatalogue.Proofs.Decoding
import MediaCatalogue.Proofs.Timestamps

/-!
# Events that are written again

A message may spell an event in many ways, and an event has one text. What is decoded from any of
the spellings is `ChangeEvent.IsWritable`: its parts are such as their texts can denote. Each part
but the payload is read back from its text in any case. The payload need not be: the text of an
embedded document is nested on its own, so that the whole can be too deep, and an object that was
read with another name before that of embedded documents is written with the names in order.

* `Uuid.parse_text`, `Id.ofCode_code`, `Instant.parse_rfc3339` and `EntityType.lookupWord_word` read
  the other parts back, `Json.Decoder.value_ofJson_eq_ok_iff` the payload;
* `Json.Decoder.Puts` : the members of an object are those of a record, in their order, and
  `Json.Decoder.record_ofJson`, that the record is decoded from such an object;
* `ChangeEvent.isWritable_of_decode` : what is decoded can be written;
* `ChangeEvent.decode_encode_eq_ok_iff` : what can be written is decoded again iff its payload is,
  and nothing else is decoded from its text.

**Main theorem** (`ChangeEvent.survives_reencoding_iff`): an event that was decoded is decoded from
the message that writes it iff its payload is plain and not nested too deeply, and its payload says
the same there.
-/

namespace MediaCatalogue

/-! ### Hexadecimal digits -/

section

variable {α β : Type} {f : α → Option β} {xs : List α} {ys : List β}

theorem exists_of_mem_mapM (h : xs.mapM f = some ys) {y : β} (hy : y ∈ ys) :
    ∃ x ∈ xs, f x = some y := by
  induction xs generalizing ys with
  | nil =>
    cases h
    cases hy
  | cons x xs ih =>
    simp only [List.mapM_cons, Option.bind_eq_bind, Option.bind_eq_some_iff, Option.pure_def,
      Option.some.injEq] at h
    obtain ⟨first, hfirst, rest, hrest, rfl⟩ := h
    rcases List.mem_cons.1 hy with rfl | hy
    · exact ⟨x, List.mem_cons_self, hfirst⟩
    · obtain ⟨x', hx', hvalue⟩ := ih hrest hy
      exact ⟨x', List.mem_cons_of_mem _ hx', hvalue⟩

theorem length_of_mapM (h : xs.mapM f = some ys) : ys.length = xs.length := by
  induction xs generalizing ys with
  | nil =>
    cases h
    rfl
  | cons x xs ih =>
    simp only [List.mapM_cons, Option.bind_eq_bind, Option.bind_eq_some_iff, Option.pure_def,
      Option.some.injEq] at h
    obtain ⟨first, _, rest, hrest, rfl⟩ := h
    rw [List.length_cons, List.length_cons, ih hrest]

theorem mapM_map_eq_some {g : α → β} {f : β → Option α} (h : ∀ x ∈ xs, f (g x) = some x) :
    (xs.map g).mapM f = some xs := by
  induction xs with
  | nil => rfl
  | cons x xs ih =>
    rw [List.map_cons, List.mapM_cons, h x List.mem_cons_self,
      ih fun x' hx' => h x' (List.mem_cons_of_mem x hx')]
    rfl

end

namespace Text

theorem hexDigit?_digitChar : ∀ d < 16, hexDigit? (Nat.digitChar d) = some d := by decide

theorem lt_of_hexDigit? {c : Char} {d : Nat} (h : hexDigit? c = some d) : d < 16 := by
  unfold hexDigit? at h
  split at h
  · rename_i hdigit
    have hhigh : c.toNat ≤ 57 := (Char.isDigit_iff_toNat.1 hdigit).2
    cases h
    have hvalue : c.toNat - 48 ≤ 9 := by omega
    exact Nat.lt_of_le_of_lt hvalue (by decide)
  split at h
  · rename_i hletter
    have hhigh : c.toNat ≤ 102 := hletter.2
    cases h
    have hvalue : c.toNat - 97 ≤ 5 := by omega
    exact Nat.add_lt_add_right (Nat.lt_of_le_of_lt hvalue (by decide)) 10
  split at h
  · rename_i hletter
    have hhigh : c.toNat ≤ 70 := hletter.2
    cases h
    have hvalue : c.toNat - 65 ≤ 5 := by omega
    exact Nat.add_lt_add_right (Nat.lt_of_le_of_lt hvalue (by decide)) 10
  · cases h

end Text

/-! ### Identifiers -/

namespace Uuid

variable {u : Uuid} {cs : List Char}

/-- The identifier has 32 hexadecimal digits. -/
structure IsWritable (u : Uuid) : Prop where
  length : u.digits.length = 32
  digits : ∀ d ∈ u.digits, d < 16

theorem isWritable_of_parsePlain (h : parsePlain cs = some u) : u.IsWritable := by
  unfold parsePlain at h
  split at h
  · rename_i hlength
    obtain ⟨ds, hds, rfl⟩ := Option.map_eq_some_iff.1 h
    refine ⟨(length_of_mapM hds).trans hlength, fun d hd => ?_⟩
    obtain ⟨c, _, hc⟩ := exists_of_mem_mapM hds hd
    exact Text.lt_of_hexDigit? hc
  · cases h

/-- **Only identifiers that can be written are read.** -/
theorem isWritable_of_parse {text : String} (h : parse text = some u) : u.IsWritable := by
  have hhyphenated : ∀ cs, parseHyphenated cs = some u → u.IsWritable := fun cs h =>
    have ⟨_, _, hplain⟩ := Option.bind_eq_some_iff.1 h
    isWritable_of_parsePlain hplain
  unfold parse at h
  dsimp only at h
  split at h
  · split at h
    · exact hhyphenated _ h
    · cases h
  · split at h
    · exact hhyphenated _ h
    split at h
    · exact isWritable_of_parsePlain h
    · exact hhyphenated _ h

theorem splitGroups_joinGroups {sizes : List Nat} (hne : sizes ≠ []) (h : cs.length = sizes.sum) :
    splitGroups sizes (joinGroups sizes cs) = some cs := by
  induction sizes generalizing cs with
  | nil => exact absurd rfl hne
  | cons size sizes ih =>
    cases sizes with
    | nil =>
      rw [List.sum_singleton] at h
      rw [joinGroups, splitGroups, if_pos h]
    | cons next sizes =>
      rw [List.sum_cons] at h
      have htake : (cs.take size).length = size := List.length_take_of_le (by omega)
      have hhead : (cs.take size ++ '-' :: joinGroups (next :: sizes) (cs.drop size)).drop size =
          '-' :: joinGroups (next :: sizes) (cs.drop size) := List.drop_left' htake
      have hrest : (cs.take size ++ '-' :: joinGroups (next :: sizes) (cs.drop size)).drop
          (size + 1) = joinGroups (next :: sizes) (cs.drop size) := by
        rw [← List.drop_drop, hhead, List.drop_one, List.tail_cons]
      have hfirst : (cs.take size ++ '-' :: joinGroups (next :: sizes) (cs.drop size)).take size =
          cs.take size := List.take_left' htake
      have hlength : (cs.drop size).length = (next :: sizes).sum := by
        rw [List.length_drop]
        omega
      have hsplit := ih (List.cons_ne_nil _ _) hlength
      simp only [joinGroups, splitGroups, hhead, hrest, hfirst, List.head?_cons, if_true, hsplit,
        Option.map_some, List.take_append_drop]

theorem digitChar_ne : ∀ d < 16, Nat.digitChar d ≠ '{' ∧ (Nat.digitChar d).toLower ≠ 'u' := by
  decide

/-- **An identifier is read back** from its text. -/
theorem parse_text (h : u.IsWritable) : parse u.text = some u := by
  obtain ⟨cs, hcs⟩ : ∃ cs, cs = u.digits.map Nat.digitChar := ⟨_, rfl⟩
  have hlength : cs.length = 32 := by rw [hcs, List.length_map, h.length]
  have hplain : parsePlain cs = some u := by
    rw [parsePlain, if_pos hlength, hcs,
      mapM_map_eq_some fun d hd => Text.hexDigit?_digitChar d (h.digits d hd)]
    rfl
  have hhyphenated : parseHyphenated (joinGroups groups cs) = some u := by
    rw [parseHyphenated, splitGroups_joinGroups (by decide) (hlength.trans (by decide)),
      Option.bind_some, hplain]
  have hjoined : (joinGroups groups cs).length ≠ 32 := by
    simp [groups, joinGroups, hlength]
  -- The first digit tells that the text is neither in braces nor a name.
  obtain ⟨d, ds, hds⟩ : ∃ d ds, u.digits = d :: ds :=
    List.exists_cons_of_length_eq_add_one h.length
  obtain ⟨hbrace, hletter⟩ := digitChar_ne d (h.digits d (hds ▸ List.mem_cons_self))
  obtain ⟨rest, hrest⟩ : ∃ rest, joinGroups groups cs = Nat.digitChar d :: rest := by
    rw [hcs, hds]
    exact ⟨_, rfl⟩
  have hname : isName (joinGroups groups cs) = false := by
    rw [hrest, isName, List.map_cons]
    exact Bool.and_eq_false_iff.2 (.inl (beq_eq_false_iff_ne.2 hletter.symm))
  unfold parse text
  rw [String.toList_ofList, ← hcs]
  dsimp only
  split
  · rename_i hfirst
    exact absurd (List.cons.inj (hrest.symm.trans hfirst)).1 hbrace
  · rw [hname, if_neg hjoined, hhyphenated]
    rfl

end Uuid

/-! ### Documents of events -/

theorem EntityType.lookupWord_word (type : EntityType) :
    Json.Decoder.lookupWord EntityType.words type.word = .ok type := by
  cases type
  · rfl
  · rfl
  · rfl

namespace Json.Decoder

variable {α β : Type} {fields : List (Field α)} {origin : Origin} {members : List (String × Json)}
  {r r' : α}

/-- The members of an object are those of the fields of a record, in their order: each is put into
the record, and only members that may be missing are left out. -/
inductive Puts (origin : Origin) : List (Field α) → List (String × Json) → α → α → Prop
  | nil (r : α) : Puts origin [] [] r r
  | skip {field : Field α} {fields : List (Field α)} {members : List (String × Json)} {r r' : α}
    (hmiss : field.mayMiss = true) (hrest : Puts origin fields members r r') :
    Puts origin (field :: fields) members r r'
  | cons {field : Field α} {v : Json} {fields : List (Field α)} {members : List (String × Json)}
    {r r' r'' : α} (hput : field.put origin (.ofJson v) r = .ok r')
    (hrest : Puts origin fields members r' r'') :
    Puts origin (field :: fields) ((field.name, v) :: members) r r''

theorem putWith_of_ok {decoder : Decoder β} {set : β → α → α} {node : Node} {x : β}
    (h : decoder origin node = .ok x) : putWith decoder set origin node r = .ok (set x r) := by
  rw [putWith, h]
  rfl

theorem Puts.required {name : String} {decoder : Decoder β} {set : β → α → α} {v : Json} {x : β}
    (h : decoder origin (.ofJson v) = .ok x) (hrest : Puts origin fields members (set x r) r') :
    Puts origin (required name decoder set :: fields) ((name, v) :: members) r r' :=
  .cons (putWith_of_ok h) hrest

theorem Puts.defaulted {name : String} {decoder : Decoder β} {set : β → α → α} {v : Json} {x : β}
    (h : decoder origin (.ofJson v) = .ok x) (hrest : Puts origin fields members (set x r) r') :
    Puts origin (defaulted name decoder set :: fields) ((name, v) :: members) r r' :=
  .cons (putWith_of_ok h) hrest

theorem find?_name (hnames : (fields.map (·.name)).Nodup) {field : Field α}
    (h : field ∈ fields) : fields.find? (·.name = field.name) = some field := by
  induction fields with
  | nil => cases h
  | cons first fields ih =>
    obtain ⟨hfirst, hnames⟩ := List.nodup_cons.1 hnames
    rcases List.mem_cons.1 h with rfl | h
    · rw [List.find?_cons_of_pos (by simp)]
    · have hne : first.name ≠ field.name := fun heq => hfirst (List.mem_map.2 ⟨field, h, heq.symm⟩)
      rw [List.find?_cons_of_neg (by simpa using hne), ih hnames h]

/-- The members are read in order, after others with different names. -/
theorem readFields_of_puts {all : List (Field α)} (h : Puts origin fields members r r')
    (hfind : ∀ field ∈ fields, all.find? (·.name = field.name) = some field)
    (hnames : (fields.map (·.name)).Nodup) {seen : List String}
    (hseen : ∀ field ∈ fields, field.name ∉ seen) :
    ∃ seen', readFields all origin (Node.ofFields members) seen r = .ok (seen', r') ∧
      seen ⊆ seen' ∧ ∀ field ∈ fields, field.mayMiss = false → field.name ∈ seen' := by
  induction h generalizing seen with
  | nil r => exact ⟨seen, rfl, List.Subset.refl _, by simp⟩
  | skip hmiss _ ih =>
    obtain ⟨_, hnames⟩ := List.nodup_cons.1 hnames
    obtain ⟨seen', hread, hkept, hall⟩ := ih (List.forall_mem_cons.1 hfind).2 hnames
      (List.forall_mem_cons.1 hseen).2
    refine ⟨seen', hread, hkept, List.forall_mem_cons.2 ⟨fun hmust => ?_, hall⟩⟩
    cases hmiss.symm.trans hmust
  | @cons field v fields members r r' r'' hput _ ih =>
    obtain ⟨hname, hnames⟩ := List.nodup_cons.1 hnames
    obtain ⟨hfirst, hfind⟩ := List.forall_mem_cons.1 hfind
    obtain ⟨hnew, hseen⟩ := List.forall_mem_cons.1 hseen
    have hseen' : ∀ other ∈ fields, other.name ∉ field.name :: seen := fun other hother hmem => by
      rcases List.mem_cons.1 hmem with heq | hmem
      · exact hname (List.mem_map.2 ⟨other, hother, heq⟩)
      · exact hseen other hother hmem
    obtain ⟨seen', hread, hkept, hall⟩ := ih hfind hnames hseen'
    obtain ⟨hfield, hkept⟩ := List.cons_subset.1 hkept
    refine ⟨seen', ?_, hkept, List.forall_mem_cons.2 ⟨fun _ => hfield, hall⟩⟩
    rw [Node.ofFields, readFields, hfirst]
    dsimp only
    rw [List.contains_eq_mem, decide_eq_false hnew, if_neg Bool.false_ne_true, hput]
    exact hread

/-- **A record is decoded** from an object with its fields. -/
theorem record_ofJson {name : String} (hnames : (fields.map (·.name)).Nodup)
    (h : Puts origin fields members r r') :
    record name fields r origin (.ofJson (.object members)) = .ok r' := by
  obtain ⟨seen, hread, _, hall⟩ := readFields_of_puts h (fun _ => find?_name hnames) hnames
    fun _ _ => List.not_mem_nil
  have hmissing : fields.find? (fun field => !field.mayMiss && !seen.contains field.name) =
      none := by
    rw [List.find?_eq_none]
    intro field hfield
    cases hmiss : field.mayMiss with
    | true => simp
    | false => simpa using hall field hfield hmiss
  rw [Node.ofJson, record]
  simp only [hread, checkMissing, hmissing, bind, Except.bind]
  rfl

/-- **A record that was decoded** has put all the members that have a field. -/
theorem put_of_readFields {all : List (Option String × Node)} {seen seen' : List String}
    (h : readFields fields origin all seen r = .ok (seen', r')) {name : String} {node : Node}
    (hmem : (some name, node) ∈ all) {field : Field α}
    (hfield : fields.find? (·.name = name) = some field) :
    ∃ before after, field.put origin node before = .ok after := by
  induction all generalizing seen r with
  | nil => cases hmem
  | cons first all ih =>
    obtain ⟨other, content⟩ := first
    cases other with
    | none => cases h
    | some other =>
      rw [readFields] at h
      split at h
      · rename_i hnone
        rcases List.mem_cons.1 hmem with heq | hmem
        · cases heq
          cases hnone.symm.trans hfield
        · exact ih h hmem
      · rename_i found hfound
        split at h
        · cases h
        · obtain ⟨next, hput, hrest⟩ := of_bind_eq_ok h
          rcases List.mem_cons.1 hmem with heq | hmem
          · cases heq
            cases hfound.symm.trans hfield
            exact ⟨r, next, hput⟩
          · exact ih hrest hmem

end Json.Decoder

namespace ChangeEvent

open Json Json.Decoder

variable {e : ChangeEvent} {message : List UInt8} {origin : Origin} {node : Node}

/-- The event can be written: its parts are such as their texts can denote. -/
structure IsWritable (e : ChangeEvent) : Prop where
  eventId : ∀ u, e.eventId = some u → u.IsWritable
  timestamp : e.timestamp.IsWritable
  payload : e.payload.IsNormal Number.IsWritten

theorem isWritable_of_uuid {u : Option Uuid} (h : Json.Decoder.optional uuid origin node = .ok u) :
    ∀ v, u = some v → v.IsWritable := by
  rintro v rfl
  unfold Json.Decoder.optional at h
  split at h
  · cases h
  · obtain ⟨v', hu, heq⟩ := map_eq_ok_iff.1 h
    cases heq
    obtain ⟨text, _, hu⟩ := of_bind_eq_ok hu
    split at hu
    · rename_i hparse
      cases hu
      exact Uuid.isWritable_of_parse hparse
    · cases hu

theorem isWritable_of_instant {t : Instant} (h : instant origin node = .ok t) : t.IsWritable := by
  obtain ⟨text, _, h⟩ := of_bind_eq_ok h
  split at h
  · rename_i hparse
    cases h
    exact Instant.isWritable_of_parse hparse
  · cases h

/-- **What is decoded can be written**, whatever its spelling. -/
theorem isWritable_of_decode (h : decode message = .ok e) : e.IsWritable := by
  obtain ⟨node, hread, hdecode⟩ := of_decode h
  have hblank : (∀ u, (default : ChangeEvent).eventId = some u → u.IsWritable) ∧
      (default : ChangeEvent).timestamp.IsWritable :=
    ⟨fun u hu => (by cases hu), rfl, .inl (by decide)⟩
  obtain ⟨heventId, htimestamp⟩ : (∀ u, e.eventId = some u → u.IsWritable) ∧
      e.timestamp.IsWritable := by
    refine record_keeps (I := fun e : ChangeEvent =>
      (∀ u, e.eventId = some u → u.IsWritable) ∧ e.timestamp.IsWritable) ?_
      hblank (Reader.within_of_read hread).inside hdecode
    simp only [List.forall_mem_cons]
    refine ⟨keeps_of_put ?_, keeps_of_put ?_, keeps_of_put ?_, keeps_of_put ?_, keeps_of_put ?_,
      keeps_of_put ?_, by simp⟩
    all_goals intro origin node x e hnode hx he
    case refine_1 => exact ⟨isWritable_of_uuid hx, he.2⟩
    case refine_3 => exact ⟨he.1, isWritable_of_instant hx⟩
    all_goals exact he
  exact ⟨heventId, htimestamp, isNormal_payload h⟩

/-! ### Decoding what was written -/

theorem uuid_text {u : Uuid} (h : u.IsWritable) :
    Json.Decoder.optional uuid origin (.ofJson (.string u.text)) = .ok (some u) := by
  have huuid : uuid origin (.ofJson (.string u.text)) = .ok u := by
    simp only [Node.ofJson, uuid, textAs, bind, Except.bind, Uuid.parse_text h]
  exact congrArg (Except.map some) huuid

theorem id_code (id : Id) : Decoder.id origin (.ofJson (.string id.code)) = .ok id := by
  simp only [Node.ofJson, Decoder.id, text, textAs, bind, Except.bind, Id.ofCode_code]

theorem instant_rfc3339 {t : Instant} (h : t.IsWritable) :
    instant origin (.ofJson (.string t.rfc3339)) = .ok t := by
  simp only [Node.ofJson, instant, textAs, bind, Except.bind, Instant.parse_rfc3339 h]

theorem entityType_word (type : EntityType) :
    EntityType.decoder origin (.ofJson (.string type.word)) = .ok type := by
  rw [Node.ofJson, EntityType.decoder, choice, EntityType.lookupWord_word]

theorem decoder_ofJson (h : e.IsWritable)
    (hpayload : value 1 .text (.ofJson e.payload) = .ok e.payload) :
    decoder .text (.ofJson e.toJson) = .ok e := by
  obtain ⟨eventId, entityId, timestamp, entityType, source, payload⟩ := e
  refine record_ofJson (by decide) ?_
  cases eventId
  case' none => refine .skip rfl ?_
  case' some u => refine .defaulted (uuid_text (h.eventId u rfl)) ?_
  -- The other fields are there in any case.
  all_goals
    refine .required (id_code entityId) ?_
    refine .required (instant_rfc3339 h.timestamp) ?_
    refine .required (entityType_word entityType) ?_
    refine .required rfl ?_
    refine .defaulted hpayload ?_
    exact .nil _

/-- If the document of an event is decoded at all, its payload is. -/
theorem value_of_decoder_ofJson {e' : ChangeEvent}
    (h : decoder .text (.ofJson e.toJson) = .ok e') :
    ∃ v, value 1 .text (.ofJson e.payload) = .ok v := by
  obtain ⟨fields, hfields⟩ : ∃ fields, e.toJson = .object fields := ⟨_, rfl⟩
  have hpayload : ("payload", e.payload) ∈ fields := by
    cases hfields
    simp
  rw [hfields, Node.ofJson, Node.ofFields_eq_map] at h
  obtain ⟨⟨seen, r⟩, hread, _⟩ := of_bind_eq_ok h
  have hmem := List.mem_map_of_mem (f := fun field => (some field.1, Node.ofJson field.2)) hpayload
  -- The payload is among the members, and all of them were put.
  obtain ⟨before, after, hput⟩ := put_of_readFields hread hmem rfl
  obtain ⟨v, hv, _⟩ := map_eq_ok_iff.1 hput
  exact ⟨v, hv⟩

theorem read_encode (h : e.IsWritable)
    (hdoubles : ∀ x, e.payload.Contains (.double x) → (Number.double x).ReadsBack) :
    read e.encode = some (.ofJson e.toJson) := by
  refine (Reader.readsValue_object fun field hfield => ?_).read_render
  rcases List.mem_append.1 hfield with hfield | hfield
  · obtain ⟨u, _, rfl⟩ := Option.map_eq_some_iff.1 (Option.mem_toList.1 hfield)
    exact Reader.readsValue_string _
  · simp only [List.mem_cons, List.not_mem_nil, or_false] at hfield
    rcases hfield with rfl | rfl | rfl | rfl | rfl
    · exact Reader.readsValue_string _
    · exact Reader.readsValue_string _
    · exact Reader.readsValue_string _
    · exact Reader.readsValue_string _
    · exact Reader.readsValue (h.payload.readsBack hdoubles)

/-- **What can be written is decoded again** iff its payload is plain and not nested too deeply, if
the doubles in it read back. Nothing else is decoded from its text. -/
theorem decode_encode_eq_ok_iff (h : e.IsWritable)
    (hdoubles : ∀ x, e.payload.Contains (.double x) → (Number.double x).ReadsBack)
    {e' : ChangeEvent} : decode e.encode = .ok e' ↔
      (e.payload.isPlain = true ∧ e.payload.depth < Node.maxDepth) ∧ e' = e := by
  have hread := read_encode h hdoubles
  have hvalue : ∀ v, value 1 .text (.ofJson e.payload) = .ok v ↔
      (e.payload.isPlain = true ∧ e.payload.depth < Node.maxDepth) ∧ v = e.payload := fun v =>
    (value_ofJson_eq_ok_iff h.payload).trans
      ⟨fun ⟨hdepth, hplain, hv⟩ => ⟨⟨hplain, Nat.lt_succ_of_le hdepth⟩, hv⟩,
        fun ⟨⟨hplain, hdepth⟩, hv⟩ => ⟨Nat.le_of_lt_succ hdepth, hplain, hv⟩⟩
  have hdecode : (e.payload.isPlain = true ∧ e.payload.depth < Node.maxDepth) →
      decode e.encode = .ok e := by
    intro hpayload
    simp only [decode, run, hread, decoder_ofJson h ((hvalue _).2 ⟨hpayload, rfl⟩)]
    rfl
  constructor
  · intro h'
    obtain ⟨node, hread', hdecoder⟩ := of_decode h'
    cases hread.symm.trans hread'
    obtain ⟨v, hv⟩ := value_of_decoder_ofJson hdecoder
    have hpayload := ((hvalue v).1 hv).1
    cases (hdecode hpayload).symm.trans h'
    exact ⟨hpayload, rfl⟩
  · rintro ⟨hpayload, rfl⟩
    exact hdecode hpayload

/-- **When events survive re-encoding.** An event was decoded from a message, however it is spelled
there. If the doubles in its payload read back, then

1. the message that writes the event is decoded as the event iff no object in the payload would be
   taken for an embedded document, and the payload is nested less deeply than a text may be;
2. only the event can be decoded from that message, with the payload of the event for every decoder,
   and it asks for the same update. -/
theorem survives_reencoding_iff (h : decode message = .ok e)
    (hdoubles : ∀ x, e.payload.Contains (.double x) → (Number.double x).ReadsBack) :
    (decode e.encode = .ok e ↔
        e.payload.isPlain = true ∧ e.payload.depth < Node.maxDepth) ∧
      ∀ e', decode e.encode = .ok e' → e' = e ∧
        (∀ (α : Type) (decoder : Json.Decoder α), e'.payloadAs decoder = e.payloadAs decoder) ∧
        ∀ registry, EntityUpdate.ofEvent registry e' = EntityUpdate.ofEvent registry e := by
  have hwritable := isWritable_of_decode h
  refine ⟨(decode_encode_eq_ok_iff hwritable hdoubles).trans (and_iff_left rfl), fun e' h' => ?_⟩
  obtain ⟨_, rfl⟩ := (decode_encode_eq_ok_iff hwritable hdoubles).1 h'
  exact ⟨rfl, fun α decoder => rfl, fun registry => rfl⟩

/-- A message in an unusual spelling: a list, an identifier in braces, a code with zeros, a leap
second before the year zero with an offset, and a payload with a double. -/
def unusualMessage : List UInt8 :=
  Text.Utf8.encode ("[\"\x7b67E55044-10B1-426F-9247-BB680E5FE0C8\x7d\",\"00b1\"," ++
    "\"-0005-3-1t00:59:60.5+01:00\",\"content\",\"bbc\",[\"film\",null,0.5]]")

/-- The event in the message. -/
def unusual : ChangeEvent where
  eventId := some ⟨[6, 7, 14, 5, 5, 0, 4, 4, 1, 0, 11, 1, 4, 2, 6, 15, 9, 2, 4, 7, 11, 11, 6, 8, 0,
    14, 5, 15, 14, 0, 12, 8]⟩
  entityId := 301
  timestamp := ⟨-62319888001, 1500000000⟩
  entityType := .content
  source := "bbc"
  payload := .array [.string "film", .null, .number (.double Json.half)]

/-- An event in an unusual spelling is decoded from the usual one too. -/
theorem survives_reencoding_of_unusual :
    decode unusualMessage = .ok unusual ∧ decode unusual.encode = .ok unusual := by
  have hdecode : decode unusualMessage = .ok unusual := by decide +kernel
  have hdoubles : ∀ x, unusual.payload.Contains (.double x) → (Number.double x).ReadsBack := by
    intro x hx
    cases hx with
    | item hitem hx =>
      simp only [List.mem_cons, List.not_mem_nil, or_false] at hitem
      rcases hitem with rfl | rfl | rfl
      · cases hx
      · cases hx
      · cases hx
        exact readsBack_half
  exact ⟨hdecode, (survives_reencoding_iff hdecode hdoubles).1.2 (by decide)⟩

/-- A message whose payload has a field with the name of embedded documents, but not in front. -/
def facedMessage : List UInt8 :=
  Text.Utf8.encode ("[null,\"6\",\"1970-01-01T00:00:00Z\",\"content\",\"bbc\"," ++
    "\x7b\"a\":1,\"$serde_json::private::RawValue\":\"x\"\x7d]")

/-- The event in the message. -/
def faced : ChangeEvent :=
  ⟨none, 6, ⟨0, 0⟩, .content, "bbc",
    .object [(Node.embeddedName, .string "x"), ("a", .ofInt 1)]⟩

/-- **An event is lost.** It is decoded, but not from the message that writes it, where the names in
its payload are in order. -/
theorem not_decoded_when_reencoded :
    decode facedMessage = .ok faced ∧ (decode faced.encode).isOk = false := by
  constructor
  · decide +kernel
  · decide +kernel

end ChangeEvent

end MediaCatalogue
