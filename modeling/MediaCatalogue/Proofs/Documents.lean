import MediaCatalogue.Proofs.Numerals
import MediaCatalogue.Proofs.Sequences

/-!
# Values read back

* `Json.IsNormal` : a value is such as can be read: the names in its objects ascend, no object
  consists of an embedded document alone, and its numbers have a property;
* `Json.depth` and `Json.isPlain` say whether it can be read again: an object whose least name is
  that of embedded documents can be read with another name before it, but not the way it is written;
* `Json.Node.value_ofJson_eq_ok_iff` : the document that writes a normal value has that value, iff
  it is plain;
* `Json.Reader.ReadsValue` : the text of a value is read as the document that writes it, inside of
  anything. There is one lemma for each kind of value. Only numbers need the byte after them to be
  complete (`Json.Reader.Ends`), and the bytes that come after values never belong to a number
  (`Json.Reader.Ends.step_eq`).

**Main theorem** (`Json.parseText_render_eq_some_iff`): a value whose numbers read back is read back
from its text, iff it is plain and not nested too deeply.
-/

namespace MediaCatalogue.Json

/-! ### Normal values -/

/-- A value contains a number. -/
inductive Contains : Json → Number → Prop
  /-- It is the number. -/
  | number (n : Number) : Contains (.number n) n
  /-- It has an item that contains the number. -/
  | item {items : List Json} {item : Json} {n : Number} (hitem : item ∈ items)
    (hn : Contains item n) : Contains (.array items) n
  /-- It has a field that contains the number. -/
  | field {fields : List (String × Json)} {field : String × Json} {n : Number}
    (hfield : field ∈ fields) (hn : Contains field.2 n) : Contains (.object fields) n

/-- The names of every object in a value ascend, no object consists of an embedded document alone,
and all numbers have a property. -/
inductive IsNormal (P : Number → Prop) : Json → Prop
  | null : IsNormal P .null
  | bool (value : Bool) : IsNormal P (.bool value)
  | number {n : Number} (hn : P n) : IsNormal P (.number n)
  | string (text : String) : IsNormal P (.string text)
  | array {items : List Json} (hitems : ∀ item ∈ items, IsNormal P item) : IsNormal P (.array items)
  | object {fields : List (String × Json)} (hnames : fields.Pairwise (·.1 < ·.1))
    (halone : ∀ content, fields ≠ [(Node.embeddedName, content)])
    (hfields : ∀ field ∈ fields, IsNormal P field.2) : IsNormal P (.object fields)

theorem IsNormal.imp {P Q : Number → Prop} {v : Json} (h : v.IsNormal P)
    (himp : ∀ n, v.Contains n → P n → Q n) : v.IsNormal Q := by
  induction h with
  | null => exact .null
  | bool value => exact .bool value
  | number hn => exact .number (himp _ (.number _) hn)
  | string text => exact .string text
  | array _ ih => exact .array fun item hitem => ih item hitem fun n hn => himp n (.item hitem hn)
  | object hnames halone _ ih =>
    exact .object hnames halone fun field hfield =>
      ih field hfield fun n hn => himp n (.field hfield hn)

/-! ### What can be read again -/

mutual

/-- How many arrays and objects lie inside each other. -/
def depth : Json → Nat
  | null | bool _ | number _ | string _ => 0
  | array items => depthOfItems items + 1
  | object fields => depthOfFields fields + 1

/-- The greatest depth of the items of an array. -/
def depthOfItems : List Json → Nat
  | [] => 0
  | item :: items => max (depth item) (depthOfItems items)

/-- The greatest depth of the fields of an object. -/
def depthOfFields : List (String × Json) → Nat
  | [] => 0
  | (_, value) :: fields => max (depth value) (depthOfFields fields)

end

/-- The first of the fields would be taken for an embedded document. -/
def startsEmbedded : List (String × Json) → Bool
  | (name, _) :: _ => name = Node.embeddedName
  | [] => false

mutual

/-- No object in the value would be taken for an embedded document. -/
def isPlain : Json → Bool
  | null | bool _ | number _ | string _ => true
  | array items => itemsPlain items
  | object fields => !startsEmbedded fields && fieldsPlain fields

/-- The items of an array are plain. -/
def itemsPlain : List Json → Bool
  | [] => true
  | item :: items => isPlain item && itemsPlain items

/-- The fields of an object are plain. -/
def fieldsPlain : List (String × Json) → Bool
  | [] => true
  | (_, value) :: fields => isPlain value && fieldsPlain fields

end

theorem depthOfItems_le_iff {items : List Json} {n : Nat} :
    depthOfItems items ≤ n ↔ ∀ item ∈ items, item.depth ≤ n := by
  induction items with
  | nil => simp [depthOfItems]
  | cons item items ih => rw [depthOfItems, Nat.max_le, ih, List.forall_mem_cons]

theorem depthOfFields_le_iff {fields : List (String × Json)} {n : Nat} :
    depthOfFields fields ≤ n ↔ ∀ field ∈ fields, field.2.depth ≤ n := by
  induction fields with
  | nil => simp [depthOfFields]
  | cons field fields ih => rw [depthOfFields, Nat.max_le, ih, List.forall_mem_cons]

theorem itemsPlain_iff {items : List Json} :
    itemsPlain items = true ↔ ∀ item ∈ items, item.isPlain = true := by
  induction items with
  | nil => simp [itemsPlain]
  | cons item items ih => rw [itemsPlain, Bool.and_eq_true, ih, List.forall_mem_cons]

theorem fieldsPlain_iff {fields : List (String × Json)} :
    fieldsPlain fields = true ↔ ∀ field ∈ fields, field.2.isPlain = true := by
  induction fields with
  | nil => simp [fieldsPlain]
  | cons field fields ih => rw [fieldsPlain, Bool.and_eq_true, ih, List.forall_mem_cons]

/-! ### Documents of values -/

/-- A field whose name comes after all others is put at the end. -/
theorem insertField_of_lt {name : String} {value : Json} {fields : List (String × Json)}
    (h : ∀ field ∈ fields, field.1 < name) :
    insertField name value fields = fields ++ [(name, value)] := by
  induction fields with
  | nil => rfl
  | cons field fields ih =>
    obtain ⟨other, kept⟩ := field
    have hlt : other < name := h _ List.mem_cons_self
    have hne : name ≠ other := fun heq => String.lt_irrefl name (heq ▸ hlt)
    rw [insertField, if_neg (String.lt_asymm hlt), if_neg hne,
      ih fun field hfield => h field (List.mem_cons_of_mem _ hfield), List.cons_append]

theorem foldl_insertField {fields kept : List (String × Json)}
    (h : (kept ++ fields).Pairwise (·.1 < ·.1)) :
    fields.foldl (fun sorted field => insertField field.1 field.2 sorted) kept =
      kept ++ fields := by
  induction fields generalizing kept with
  | nil => simp
  | cons field fields ih =>
    have hlast : ∀ other ∈ kept, other.1 < field.1 := fun other hother =>
      (List.pairwise_append.1 h).2.2 other hother field List.mem_cons_self
    rw [List.foldl_cons, insertField_of_lt hlast, ih (by simpa using h)]
    simp

theorem ofFields_of_pairwise {fields : List (String × Json)} (h : fields.Pairwise (·.1 < ·.1)) :
    ofFields fields = .object fields := by
  rw [ofFields, foldl_insertField (by simpa using h), List.nil_append]

namespace Node

theorem ofItems_eq_map (items : List Json) : ofItems items = items.map ofJson := by
  induction items with
  | nil => rfl
  | cons item items ih => rw [ofItems, ih, List.map_cons]

theorem ofFields_eq_map (fields : List (String × Json)) :
    ofFields fields = fields.map fun field => (some field.1, ofJson field.2) := by
  induction fields with
  | nil => rfl
  | cons field fields ih => rw [ofFields, ih, List.map_cons]

variable {P : Number → Prop} {v w : Json} {fields : List (String × Json)}
  {parse : String → Option Json}

theorem itemValues_eq_mapM (items : List Node) :
    itemValues parse items = items.mapM (value parse) := by
  induction items with
  | nil => rfl
  | cons item items ih => rw [itemValues, ih, List.mapM_cons]

/-- The name and the value of a field. -/
def fieldValue (parse : String → Option Json) (field : Option String × Node) :
    Except DecodeError (String × Json) :=
  match field with
  | (none, _) => .error .notADocument
  | (some name, content) => (value parse content).map (name, ·)

theorem fieldValues_eq_mapM (fields : List (Option String × Node)) :
    fieldValues parse fields = fields.mapM (fieldValue parse) := by
  induction fields with
  | nil => rfl
  | cons field fields ih =>
    obtain ⟨name, content⟩ := field
    rw [List.mapM_cons, ← ih]
    cases name with
    | none => rw [fieldValues]; rfl
    | some name =>
      rw [fieldValues, fieldValue]
      cases value parse content <;> rfl

theorem fits_ofJson (h : v.IsNormal P) {n : Nat} : (ofJson v).fits n = true ↔ v.depth ≤ n := by
  induction h generalizing n with
  | null | bool | number | string => cases n <;> simp [ofJson, fits, depth]
  | array _ ih =>
    rw [ofJson, ofItems_eq_map, depth]
    cases n with
    | zero => simp [fits]
    | succ n =>
      rw [fits, List.all_map, List.all_eq_true, Nat.add_le_add_iff_right, depthOfItems_le_iff]
      exact forall₂_congr fun item hitem => ih item hitem
  | object _ _ _ ih =>
    rw [ofJson, ofFields_eq_map, depth]
    cases n with
    | zero => simp [fits]
    | succ n =>
      rw [fits, List.all_map, List.all_eq_true, Nat.add_le_add_iff_right, depthOfFields_le_iff]
      exact forall₂_congr fun field hfield => ih field hfield

/-- An embedded document is a text that writes a value, and it must stand alone. -/
theorem embeddedValue_eq_ok_iff {content : Node} {others : Nat} :
    embeddedValue parse content others = .ok v ↔
      others = 0 ∧ ∃ text, content = .string (some text) ∧ parse text = some v := by
  unfold embeddedValue
  split
  · rename_i text
    cases hread : parse text with
    | none => simp [hread]
    | some w =>
      by_cases hothers : others = 0
      · simp [hothers, hread]
      · simp [hothers]
  · simp
  · rename_i hstring _
    simp only [reduceCtorEq, false_iff, not_and, not_exists]
    exact fun _ text heq => absurd heq (hstring text)

theorem embedded?_eq_some_iff {members : List (Option String × Node)}
    {result : Except DecodeError Json} :
    embedded? parse members = some result ↔ ∃ content others,
      members = (some embeddedName, content) :: others ∧
        embeddedValue parse content others.length = result := by
  unfold embedded?
  split
  · rename_i name content others
    by_cases hname : name = embeddedName
    · simp [hname]
    · simp [hname]
  · rename_i hother
    simp only [reduceCtorEq, false_iff, not_exists, not_and]
    exact fun content others heq => absurd heq (hother _ content others)

theorem embedded?_ofFields (h : startsEmbedded fields = false) :
    embedded? parse (ofFields fields) = none := by
  cases fields with
  | nil => rfl
  | cons field fields =>
    obtain ⟨name, content⟩ := field
    exact if_neg (of_decide_eq_false h)

theorem forall₂_eq_iff {α : Type} {R : α → α → Prop} {p : α → Prop} {xs : List α}
    (h : ∀ x ∈ xs, ∀ y, R x y ↔ p x ∧ y = x) (ys : List α) :
    List.Forall₂ R xs ys ↔ (∀ x ∈ xs, p x) ∧ ys = xs := by
  induction xs generalizing ys with
  | nil => simp
  | cons x xs ih =>
    obtain ⟨hx, hxs⟩ := List.forall_mem_cons.1 h
    simp only [List.forall₂_cons_left_iff, hx, ih hxs, List.forall_mem_cons]
    constructor
    · rintro ⟨_, _, ⟨hp, rfl⟩, ⟨hps, rfl⟩, rfl⟩
      exact ⟨⟨hp, hps⟩, rfl⟩
    · rintro ⟨⟨hp, hps⟩, rfl⟩
      exact ⟨x, xs, ⟨hp, rfl⟩, ⟨hps, rfl⟩, rfl⟩

/-- **The document that writes a value** has that value if it is plain, and none otherwise. -/
theorem value_ofJson_eq_ok_iff (h : v.IsNormal P) :
    (ofJson v).value parse = .ok w ↔ v.isPlain = true ∧ w = v := by
  induction h generalizing w with
  | null | bool | number | string => simp [ofJson, value, isPlain, eq_comm]
  | array _ ih =>
    have hitems := forall₂_eq_iff ih
    simp only [ofJson, ofItems_eq_map, value, map_eq_ok_iff, itemValues_eq_mapM, mapM_eq_ok_iff,
      List.forall₂_map_left_iff, hitems, isPlain, itemsPlain_iff]
    constructor
    · rintro ⟨_, ⟨hplain, rfl⟩, rfl⟩
      exact ⟨hplain, rfl⟩
    · rintro ⟨hplain, rfl⟩
      exact ⟨_, ⟨hplain, rfl⟩, rfl⟩
  | @object fields hnames halone _ ih =>
    rw [isPlain]
    cases hstart : startsEmbedded fields with
    | true =>
      match fields with
      | (name, content) :: others =>
        cases of_decide_eq_true hstart
        -- It would be taken for an embedded document, but it has other fields besides.
        have hothers : (ofFields others).length ≠ 0 := by
          rw [ofFields_eq_map, List.length_map]
          exact fun hnone => halone content (by rw [List.eq_nil_of_length_eq_zero hnone])
        simp [ofJson, ofFields, value, embedded?, embeddedValue_eq_ok_iff, hothers]
    | false =>
      have hfield : ∀ field ∈ fields, ∀ other,
          fieldValue parse (some field.1, ofJson field.2) = .ok other ↔
            field.2.isPlain = true ∧ other = field := by
        intro field hfield other
        rw [fieldValue, map_eq_ok_iff]
        simp only [ih field hfield]
        constructor
        · rintro ⟨_, ⟨hplain, rfl⟩, rfl⟩
          exact ⟨hplain, rfl⟩
        · rintro ⟨hplain, rfl⟩
          exact ⟨_, ⟨hplain, rfl⟩, rfl⟩
      have hfields := forall₂_eq_iff hfield
      rw [ofJson, value, embedded?_ofFields hstart]
      simp only [ofFields_eq_map, map_eq_ok_iff, fieldValues_eq_mapM, mapM_eq_ok_iff,
        List.forall₂_map_left_iff, hfields, fieldsPlain_iff, Bool.not_false, Bool.true_and]
      constructor
      · rintro ⟨_, ⟨hplain, rfl⟩, rfl⟩
        exact ⟨hplain, ofFields_of_pairwise hnames⟩
      · rintro ⟨hplain, rfl⟩
        exact ⟨_, ⟨hplain, rfl⟩, ofFields_of_pairwise hnames⟩

theorem value_of_valueIn? {node : Node} {n : Nat} (h : node.valueIn? parse n = some v) :
    node.value parse = .ok v := by
  unfold valueIn? at h
  split at h
  · cases hvalue : node.value parse with
    | error cause =>
      rw [hvalue] at h
      cases h
    | ok w =>
      rw [hvalue] at h
      cases h
      rfl
  · cases h

theorem valueIn?_ofJson_eq_some_iff (h : v.IsNormal P) {n : Nat} :
    (ofJson v).valueIn? parse n = some w ↔ v.depth ≤ n ∧ v.isPlain = true ∧ w = v := by
  rw [valueIn?, ← value_ofJson_eq_ok_iff h, ← fits_ofJson h]
  split
  · rename_i hfits
    rw [and_iff_right hfits]
    cases (ofJson v).value parse <;> simp [Except.toOption]
  · rename_i hfits
    simp [hfits]

end Node

namespace Reader

variable {stack : List Frame} {s s' : State} {node : Node}

/-- The reader has read a value: it is complete, or it is a number that may end. -/
inductive Ends (stack : List Frame) (node : Node) : State → Prop
  /-- The value is complete. -/
  | complete {s : State} (h : complete stack node = some s) : Ends stack node s
  /-- The next byte will end the number. -/
  | number {d : Draft} {n : Number} (hd : d.Writes n) (hnode : node = .number (some n)) :
    Ends stack node ⟨stack, .number d⟩

theorem Ends.finish (h : Ends [] node s) : finish s = some node := by
  cases h with
  | complete h =>
    cases h
    rfl
  | number hd hnode => rw [finish_number.2 hd, hnode]

theorem complete_eq_afterValue (h : Reader.complete stack node = some s) (b : UInt8) :
    step s b = afterValue s b := by
  unfold Reader.complete at h
  split at h <;> cases h <;> rfl

/-- A byte that closes a value: a comma or the end of an array or object. -/
def Closes (b : UInt8) : Prop := b = 0x2c ∨ b = 0x5d ∨ b = 0x7d

theorem digit?_of_closes {b : UInt8} (hb : Closes b) : digit? b = none := by
  rcases hb with rfl | rfl | rfl <;> rfl

theorem extend_of_closes {d : Draft} (hd : d.part.complete = true) {b : UInt8} (hb : Closes b) :
    d.extend b = none := by
  have hdigit := digit?_of_closes hb
  cases hpart : d.part with
  | zero | whole | fraction | exponent =>
    rcases hb with rfl | rfl | rfl <;> simp [Draft.extend, hpart, hdigit]
  | sign | point | mark | markSign =>
    rw [hpart] at hd
    cases hd

/-- After a value that was read, a closing byte does what it does after a complete value. -/
theorem Ends.step_eq (h : Ends stack node s) (hs : Reader.complete stack node = some s') {b : UInt8}
    (hb : Closes b) : step s b = afterValue s' b := by
  cases h with
  | complete h =>
    cases h.symm.trans hs
    exact complete_eq_afterValue h b
  | @number d n hd hnode =>
    subst hnode
    have hdigit := digit?_of_closes hb
    have hextend := extend_of_closes hd.complete hb
    simp [step, stepNumber, hextend, hdigit, endNumber, hd.complete, hd.value, hs]

/-! ### Values inside of anything -/

/-- The value is read, inside of anything that takes a value. -/
def ReadsValue (v : Json) : Prop :=
  ∀ (phase : Phase) (stack : List Frame) (s' : State), phase.AwaitsValue →
    Reader.complete stack (.ofJson v) = some s' →
    ∃ s, Reads ⟨stack, phase⟩ (chars v) s ∧ Ends stack (.ofJson v) s

theorem readsValue_null : ReadsValue .null := by
  intro phase stack s' hphase hs
  refine ⟨s', ?_, .complete hs⟩
  have hstart : Reads ⟨stack, phase⟩ ['n', 'u', 'l'] ⟨stack, .word [0x6c] .null⟩ := by
    rcases hphase with rfl | rfl <;> rfl
  exact hstart.append (reads_singleton (c := 'l') (by decide) hs)

theorem readsValue_bool (value : Bool) : ReadsValue (.bool value) := by
  intro phase stack s' hphase hs
  refine ⟨s', ?_, .complete hs⟩
  cases value with
  | true =>
    have hstart : Reads ⟨stack, phase⟩ ['t', 'r', 'u'] ⟨stack, .word [0x65] (.bool true)⟩ := by
      rcases hphase with rfl | rfl <;> rfl
    exact hstart.append (reads_singleton (c := 'e') (by decide) hs)
  | false =>
    have hstart : Reads ⟨stack, phase⟩ ['f', 'a', 'l', 's']
        ⟨stack, .word [0x65] (.bool false)⟩ := by
      rcases hphase with rfl | rfl <;> rfl
    exact hstart.append (reads_singleton (c := 'e') (by decide) hs)

theorem readsValue_number {n : Number} (hn : n.ReadsBack) : ReadsValue (.number n) := by
  intro phase stack s' hphase hs
  obtain ⟨d, hd, hreads⟩ := reads_number hn hphase stack
  exact ⟨_, hreads, .number hd rfl⟩

theorem readsValue_string (text : String) : ReadsValue (.string text) := by
  intro phase stack s' hphase hs
  have hstart : step ⟨stack, phase⟩ 0x22 = some ⟨stack, .text false .character []⟩ := by
    rcases hphase with rfl | rfl <;> rfl
  refine ⟨s', reads_textLiteral hstart fun pieces hpieces => ?_, .complete hs⟩
  simpa [endText, hpieces, Node.ofJson] using hs

theorem reads_itemChars {items : List Json} (h : ∀ item ∈ items, ReadsValue item)
    (hne : items ≠ []) {phase : Phase} (hphase : phase.AwaitsValue) (done : List Node)
    (hs : Reader.complete stack (.array (done.reverse ++ items.map .ofJson)) = some s') :
    Reads ⟨.array done :: stack, phase⟩ (itemChars items ++ [']']) s' := by
  induction items generalizing phase done with
  | nil => exact absurd rfl hne
  | cons item items ih =>
    obtain ⟨s, hreads, hends⟩ :=
      h item List.mem_cons_self phase (.array done :: stack) _ hphase rfl
    cases items with
    | nil =>
      rw [List.map_singleton, ← List.reverse_cons] at hs
      exact hreads.append (reads_singleton (by decide)
        ((hends.step_eq rfl (.inr (.inl rfl))).trans hs))
    | cons next items =>
      have hcomma : Reads s [','] ⟨.array (.ofJson item :: done) :: stack, .value⟩ :=
        reads_singleton (by decide) (hends.step_eq rfl (.inl rfl))
      have hrest := ih (fun item' hitem' => h item' (List.mem_cons_of_mem _ hitem'))
        (List.cons_ne_nil _ _) (.inl rfl) (.ofJson item :: done) (by simpa using hs)
      rw [itemChars, List.append_assoc]
      · exact hreads.append (hcomma.append hrest)
      · exact List.cons_ne_nil next _

theorem readsValue_array {items : List Json} (h : ∀ item ∈ items, ReadsValue item) :
    ReadsValue (.array items) := by
  intro phase stack s' hphase hs
  refine ⟨s', ?_, .complete hs⟩
  rw [Node.ofJson, Node.ofItems_eq_map] at hs
  have hopen : Reads ⟨stack, phase⟩ ['['] ⟨.array [] :: stack, .firstItem⟩ := by
    rcases hphase with rfl | rfl <;> rfl
  cases items with
  | nil => exact hopen.append (reads_singleton (c := ']') (by decide) hs)
  | cons item items =>
    exact hopen.append (reads_itemChars h (List.cons_ne_nil _ _) (.inr rfl) [] hs)

theorem reads_fieldChars {fields : List (String × Json)} (h : ∀ field ∈ fields, ReadsValue field.2)
    (hne : fields ≠ []) {phase : Phase} (hphase : phase = .name ∨ phase = .firstName)
    (done : List (Option String × Node))
    (hs : Reader.complete stack (.object (done.reverse ++
      fields.map fun field => (some field.1, .ofJson field.2))) = some s') :
    Reads ⟨.object done :: stack, phase⟩ (fieldChars fields ++ ['}']) s' := by
  induction fields generalizing phase done with
  | nil => exact absurd rfl hne
  | cons field fields ih =>
    obtain ⟨name, value⟩ := field
    have hquote : step ⟨.object done :: stack, phase⟩ 0x22 =
        some ⟨.object done :: stack, .text true .character []⟩ := by
      rcases hphase with rfl | rfl <;> rfl
    have hname : Reads ⟨.object done :: stack, phase⟩ (textLiteral name)
        ⟨.field done (some name) :: stack, .colon⟩ :=
      reads_textLiteral hquote fun pieces hpieces => by simp [endText, hpieces]
    have hcolon : Reads ⟨.field done (some name) :: stack, .colon⟩ [':']
      ⟨.field done (some name) :: stack, .value⟩ := rfl
    obtain ⟨s, hreads, hends⟩ :=
      h _ List.mem_cons_self .value (.field done (some name) :: stack) _ (.inl rfl) rfl
    -- A value is ended by the brace, or by the comma before the next name.
    cases fields with
    | nil =>
      rw [List.map_singleton, ← List.reverse_cons] at hs
      have hclose := reads_singleton (c := '}') (by decide)
        ((hends.step_eq rfl (.inr (.inr rfl))).trans hs)
      rw [fieldChars, List.append_assoc, List.cons_append]
      exact hname.append (hcolon.append (hreads.append hclose))
    | cons next fields =>
      have hcomma : Reads s [','] ⟨.object ((some name, .ofJson value) :: done) :: stack, .name⟩ :=
        reads_singleton (by decide) (hends.step_eq rfl (.inl rfl))
      have hrest := ih (fun field' hfield' => h field' (List.mem_cons_of_mem _ hfield'))
        (List.cons_ne_nil _ _) (.inl rfl) ((some name, .ofJson value) :: done) (by simpa using hs)
      rw [fieldChars, List.append_assoc, List.append_assoc, List.cons_append]
      · exact hname.append (hcolon.append (hreads.append (hcomma.append hrest)))
      · exact List.cons_ne_nil next _

theorem readsValue_object {fields : List (String × Json)}
    (h : ∀ field ∈ fields, ReadsValue field.2) : ReadsValue (.object fields) := by
  intro phase stack s' hphase hs
  refine ⟨s', ?_, .complete hs⟩
  rw [Node.ofJson, Node.ofFields_eq_map] at hs
  have hopen : Reads ⟨stack, phase⟩ ['{'] ⟨.object [] :: stack, .firstName⟩ := by
    rcases hphase with rfl | rfl <;> rfl
  cases fields with
  | nil => exact hopen.append (reads_singleton (c := '}') (by decide) hs)
  | cons field fields =>
    exact hopen.append (reads_fieldChars h (List.cons_ne_nil _ _) (.inr rfl) [] hs)

/-- **A value is read**, inside of anything. -/
theorem readsValue {v : Json} (h : v.IsNormal Number.ReadsBack) : ReadsValue v := by
  induction h with
  | null => exact readsValue_null
  | bool value => exact readsValue_bool value
  | number hn => exact readsValue_number hn
  | string text => exact readsValue_string text
  | array _ ih => exact readsValue_array ih
  | object _ _ _ ih => exact readsValue_object ih

theorem ReadsValue.read_render {v : Json} (h : ReadsValue v) :
    read (Text.Utf8.encode v.render) = some (.ofJson v) := by
  obtain ⟨s, hreads, hends⟩ := h .value [] _ (.inl rfl) rfl
  rw [read, Text.Utf8.encode, render, String.toList_ofList]
  exact Option.bind_eq_some_iff.2 ⟨s, hreads, hends.finish⟩

end Reader

/-- **Values read back** from their texts, if they are not nested too deeply and nothing in them
would be taken for an embedded document. -/
theorem parseText_render_eq_some_iff {v w : Json} (h : v.IsNormal Number.ReadsBack) :
    parseText v.render = some w ↔ v.depth ≤ Node.maxDepth ∧ v.isPlain = true ∧ w = v := by
  rw [parseText, parse, (Reader.readsValue h).read_render]
  exact Node.valueIn?_ofJson_eq_some_iff h

end MediaCatalogue.Json
