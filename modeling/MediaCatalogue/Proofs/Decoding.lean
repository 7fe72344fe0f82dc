import MediaCatalogue.Proofs.Reading
import MediaCatalogue.Proofs.Worker

/-!
# Values that were decoded

A record that is decoded keeps what each of its fields keeps (`Json.Decoder.record_keeps`). An event
is decoded twice, first as a whole and then its payload: the payload of an event is normal, and the
attributes in it are plain besides, because they were read again.

**Main theorem** (`EntityUpdate.IsAsked.parseText_render_attributes`): the attributes of a record
that a message asks for read back from their text, if the doubles in them do, unless they are nested
too deeply.
-/

namespace MediaCatalogue

namespace Json

/-- **The numbers of a value that was decoded read back** if its doubles do. -/
theorem IsNormal.readsBack {v : Json} (h : v.IsNormal Number.IsWritten)
    (hdoubles : ∀ x, v.Contains (.double x) → (Number.double x).ReadsBack) :
    v.IsNormal Number.ReadsBack := by
  refine h.imp fun n hn hwritten => ?_
  cases n with
  | integer value => exact Reader.readsBack_integer hwritten.inRange
  | double x => exact hdoubles x hn

/-! ### Records that were decoded -/

/-- The documents in a document have a property. -/
def Node.Inside (D : Node → Prop) : Node → Prop
  | .array items => ∀ item ∈ items, D item
  | .object fields => ∀ field ∈ fields, D field.2
  | _ => True

theorem Node.Made.inside {P : Number → Prop} {Q : String → Prop} {node : Node}
    (h : node.Made P Q) : node.Inside (Node.Made P Q) := by
  cases h with
  | array h => exact h
  | object h => exact h
  | _ => exact trivial

/-- The document writes a normal value. -/
def Node.IsOfNormal (P : Number → Prop) (node : Node) : Prop :=
  ∃ v : Json, v.IsNormal P ∧ node = .ofJson v

theorem IsNormal.inside_ofJson {P : Number → Prop} {v : Json} (h : v.IsNormal P) :
    (Node.ofJson v).Inside (Node.IsOfNormal P) := by
  cases h with
  | array hitems =>
    rw [Node.ofJson, Node.ofItems_eq_map]
    exact List.forall_mem_map.2 fun item hitem => ⟨item, hitems item hitem, rfl⟩
  | object _ _ hfields =>
    rw [Node.ofJson, Node.ofFields_eq_map]
    exact List.forall_mem_map.2 fun field hfield => ⟨field.2, hfields field hfield, rfl⟩
  | _ => exact trivial

namespace Decoder

variable {α β : Type} {D : Node → Prop} {I : α → Prop} {origin : Origin}
  {fields : List (Field α)} {r r' : α}

/-- The field keeps a property of records, if its document has another one. -/
def Field.Keeps (D : Node → Prop) (I : α → Prop) (field : Field α) : Prop :=
  ∀ (origin : Origin) (node : Node) (r r' : α), D node → I r →
    field.put origin node r = .ok r' → I r'

theorem keeps_of_put {name : String} {mayMiss mayMissInList : Bool} {decoder : Decoder β}
    {set : β → α → α} (h : ∀ (origin : Origin) (node : Node) (x : β) (r : α), D node →
      decoder origin node = .ok x → I r → I (set x r)) :
    Field.Keeps D I ⟨name, mayMiss, mayMissInList, putWith decoder set⟩ := by
  intro origin node r r' hnode hr hput
  obtain ⟨x, hx, rfl⟩ := map_eq_ok_iff.1 hput
  exact h origin node x r hnode hx hr

theorem readFields_keeps (hfields : ∀ field ∈ fields, field.Keeps D I)
    {members : List (Option String × Node)} (hmembers : ∀ m ∈ members, D m.2)
    {seen seen' : List String} (hr : I r)
    (h : readFields fields origin members seen r = .ok (seen', r')) : I r' := by
  induction members generalizing seen r with
  | nil =>
    cases h
    exact hr
  | cons m members ih =>
    obtain ⟨hm, hrest⟩ := List.forall_mem_cons.1 hmembers
    obtain ⟨name, node⟩ := m
    cases name with
    | none => cases h
    | some name =>
      rw [readFields] at h
      split at h
      · exact ih hrest hr h
      · rename_i field hfield
        split at h
        · cases h
        · obtain ⟨next, hput, h⟩ := of_bind_eq_ok h
          exact ih hrest (hfields field (List.mem_of_find?_eq_some hfield) _ _ _ _ hm hr hput) h

theorem readItems_keeps (hfields : ∀ field ∈ fields, field.Keeps D I) {want : String}
    {items rest : List Node} (hitems : ∀ item ∈ items, D item) {index : Nat} (hr : I r)
    (h : readItems want origin fields items index r = .ok (r', rest)) : I r' := by
  induction fields generalizing items index r with
  | nil =>
    cases h
    exact hr
  | cons field fields ih =>
    obtain ⟨hfield, hfields⟩ := List.forall_mem_cons.1 hfields
    cases items with
    | nil =>
      rw [readItems] at h
      split at h
      · exact ih hfields hitems hr h
      · cases h
    | cons item items =>
      obtain ⟨hitem, hitems⟩ := List.forall_mem_cons.1 hitems
      rw [readItems] at h
      obtain ⟨next, hput, hrest⟩ := of_bind_eq_ok h
      exact ih hfields hitems (hfield _ _ _ _ hitem hr hput) hrest

/-- **A record has what its fields keep**, if the blank record has it. -/
theorem record_keeps {name : String} {blank : α} (hfields : ∀ field ∈ fields, field.Keeps D I)
    (hblank : I blank) {node : Node} (hnode : node.Inside D)
    (h : record name fields blank origin node = .ok r) : I r := by
  cases node with
  | object members =>
    obtain ⟨⟨seen, r'⟩, hread, h⟩ := of_bind_eq_ok h
    obtain ⟨_, _, h⟩ := of_bind_eq_ok h
    cases h
    exact readFields_keeps hfields hnode hblank hread
  | array items =>
    obtain ⟨⟨r', rest⟩, hread, h⟩ := of_bind_eq_ok h
    have hr' : I r' := readItems_keeps hfields hnode hblank hread
    dsimp only at h
    split at h
    · cases h
      exact hr'
    · cases h
    · cases h
  | _ => cases h

theorem of_run_eq_ok {decoder : Decoder α} {bytes : List UInt8} (h : run decoder bytes = .ok r) :
    ∃ node, read bytes = some node ∧ decoder .text node = .ok r := by
  unfold run at h
  split at h
  · cases h
  · rename_i node hread
    split at h
    · rename_i hdecode
      cases h
      exact ⟨node, hread, hdecode⟩
    · split at h <;> cases h

theorem value_of_value {level : Nat} {node : Node} {v : Json}
    (h : value level origin node = .ok v) : node.value parseText = .ok v := by
  cases origin with
  | text =>
    unfold value at h
    dsimp only at h
    split at h
    · rename_i hvalue
      cases h
      exact Node.value_of_valueIn? hvalue
    · cases h
  | value => exact h

/-- A value that was read is read again from its document iff it is plain, and in a text not nested
too deeply. -/
theorem value_ofJson_eq_ok_iff {level : Nat} {P : Number → Prop} {v w : Json} (h : v.IsNormal P) :
    value level .text (.ofJson v) = .ok w ↔
      v.depth ≤ Node.maxDepth - level ∧ v.isPlain = true ∧ w = v := by
  rw [← Node.valueIn?_ofJson_eq_some_iff h, value]
  split
  · rename_i hvalue
    rw [hvalue, Option.some.injEq, Except.ok.injEq]
  · rename_i hvalue
    simp [hvalue]

end Decoder

end Json

/-! ### Attributes -/

section

open Json Json.Decoder

variable {e : ChangeEvent}

theorem ChangeEvent.of_decode {message : List UInt8} (h : ChangeEvent.decode message = .ok e) :
    ∃ node, read message = some node ∧ ChangeEvent.decoder .text node = .ok e := by
  exact of_run_eq_ok (mapError_eq_ok_iff.1 h)

theorem ChangeEvent.isNormal_payload {message : List UInt8}
    (h : ChangeEvent.decode message = .ok e) : e.payload.IsNormal Number.IsWritten := by
  obtain ⟨node, hread, hdecode⟩ := of_decode h
  refine record_keeps (I := fun e : ChangeEvent => e.payload.IsNormal _) ?_ .null
    (Reader.within_of_read hread).inside hdecode
  simp only [List.forall_mem_cons]
  refine ⟨keeps_of_put ?_, keeps_of_put ?_, keeps_of_put ?_, keeps_of_put ?_, keeps_of_put ?_,
    keeps_of_put ?_, by simp⟩
  -- Only the last field puts a payload.
  all_goals intro origin node x e hnode hx he
  case refine_6 => exact hnode.isNormal (fun _ _ _ => isNormal_of_parseText) (value_of_value hx)
  all_goals exact he

/-- The attributes in a payload are normal and plain: they were read again from a value. -/
theorem ContentPayload.isNormal_attributes {payload : ContentPayload} {P : Number → Prop}
    (he : e.payload.IsNormal P) (h : e.payloadAs ContentPayload.decoder = .ok payload) :
    payload.attributes.IsNormal P ∧ payload.attributes.isPlain = true := by
  refine record_keeps (I := fun p : ContentPayload =>
    p.attributes.IsNormal P ∧ p.attributes.isPlain = true) ?_ ⟨.null, rfl⟩ he.inside_ofJson
    (mapError_eq_ok_iff.1 h)
  simp only [List.forall_mem_cons]
  refine ⟨keeps_of_put ?_, keeps_of_put ?_, keeps_of_put ?_, by simp⟩
  -- Only the last field puts attributes.
  all_goals intro origin node x p hnode hx hp
  case refine_3 =>
    obtain ⟨v, hv, rfl⟩ := hnode
    obtain ⟨hplain, rfl⟩ := (Node.value_ofJson_eq_ok_iff hv).1 (value_of_value hx)
    exact ⟨hv, hplain⟩
  all_goals exact hp

end

namespace EntityUpdate

variable {registry : Registry} {message : List UInt8} {record : Content} {e : ChangeEvent}

theorem ofPayload_eq_ok_content {publisher : Publisher}
    (h : ofPayload e publisher = .ok (.content record)) : record.publisher = publisher ∧
      ∃ payload, e.payloadAs ContentPayload.decoder = .ok payload ∧
        record.attributes = payload.attributes := by
  unfold ofPayload at h
  split at h
  · obtain ⟨payload, hpayload, heq⟩ := of_bind_eq_ok h
    cases heq
    exact ⟨rfl, payload, hpayload, rfl⟩
  · obtain ⟨_, _, heq⟩ := of_bind_eq_ok h
    cases heq
  · obtain ⟨_, _, heq⟩ := of_bind_eq_ok h
    cases heq

theorem IsAsked.isNormal_attributes (h : (content record).IsAsked registry message) :
    record.attributes.IsNormal Json.Number.IsWritten ∧ record.attributes.isPlain = true := by
  obtain ⟨e, hdecode, hupdate⟩ := h
  obtain ⟨publisher, _, hofPayload⟩ := exists_publisher_of_ofEvent hupdate
  obtain ⟨_, payload, hpayload, heq⟩ := ofPayload_eq_ok_content hofPayload
  rw [heq]
  exact ContentPayload.isNormal_attributes (ChangeEvent.isNormal_payload hdecode) hpayload

/-- **The attributes of a record read back** if the doubles in them do, unless they are nested too
deeply. -/
theorem IsAsked.parseText_render_attributes (h : (content record).IsAsked registry message)
    (hdoubles : ∀ x, record.attributes.Contains (.double x) → (Json.Number.double x).ReadsBack) :
    Json.parseText record.attributes.render =
      if record.attributes.depth ≤ Json.Node.maxDepth then some record.attributes else none := by
  obtain ⟨hnormal, hplain⟩ := h.isNormal_attributes
  refine Option.ext fun w => ?_
  rw [Json.parseText_render_eq_some_iff (hnormal.readsBack hdoubles), and_iff_right hplain]
  split
  · rename_i hdepth
    rw [and_iff_right hdepth, Option.some.injEq, eq_comm]
  · rename_i hdepth
    simp [hdepth]

end EntityUpdate

end MediaCatalogue
