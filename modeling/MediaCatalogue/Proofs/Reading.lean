import MediaCatalogue.Proofs.Documents

/-!
# Documents that were read

What the reader makes of bytes has written numbers only, and texts that are shorter than the bytes
(`Json.Reader.within_of_read`): every step keeps this (`Json.Reader.State.Sound.step`).

* So embedded documents are parsed like any others (`Json.parse_eq`): the condition on their length,
  which makes `Json.parse` end, is always met.
* The value of a document is normal, if the values of the documents in its texts are
  (`Json.Node.Made.isNormal`).

**Main theorem** (`Json.isNormal_of_parse`): a value that was parsed is normal.
-/

namespace MediaCatalogue

namespace Json

/-! ### Numbers in documents -/

/-- The number is the value of a written one. -/
def Number.IsWritten (n : Number) : Prop := ∃ numeral : Numeral, numeral.value? = some n

theorem Number.IsWritten.inRange {value : Int} (h : (Number.integer value).IsWritten) :
    Number.InRange value := by
  obtain ⟨numeral, hvalue⟩ := h
  unfold Numeral.value? at hvalue
  split at hvalue
  · rename_i hinteger
    cases hvalue
    exact inRange_of_integer? hinteger
  · obtain ⟨_, _, heq⟩ := Option.map_eq_some_iff.1 hvalue
    cases heq

/-- All numbers and texts in a document have some properties. The names of fields are not meant. -/
inductive Node.Made (P : Number → Prop) (Q : String → Prop) : Node → Prop
  | null : Made P Q .null
  | bool (value : Bool) : Made P Q (.bool value)
  | number {value : Option Number} (h : ∀ n, value = some n → P n) : Made P Q (.number value)
  | string {value : Option String} (h : ∀ text, value = some text → Q text) :
    Made P Q (.string value)
  | array {items : List Node} (h : ∀ item ∈ items, Made P Q item) : Made P Q (.array items)
  | object {fields : List (Option String × Node)} (h : ∀ field ∈ fields, Made P Q field.2) :
    Made P Q (.object fields)

/-! ### Normal values of documents -/

section

variable {name : String} {value : Json} {fields : List (String × Json)}

theorem mem_insertField {field : String × Json} (h : field ∈ insertField name value fields) :
    field = (name, value) ∨ field ∈ fields := by
  induction fields with
  | nil => exact .inl (List.mem_singleton.1 h)
  | cons first fields ih =>
    obtain ⟨other, kept⟩ := first
    rw [insertField] at h
    split at h
    · exact List.mem_cons.1 h
    split at h
    · exact (List.mem_cons.1 h).imp_right (List.mem_cons_of_mem _)
    · rcases List.mem_cons.1 h with rfl | h
      · exact .inr List.mem_cons_self
      · exact (ih h).imp_right (List.mem_cons_of_mem _)

theorem mem_names_insertField {other : String} :
    other ∈ (insertField name value fields).map (·.1) ↔
      other = name ∨ other ∈ fields.map (·.1) := by
  induction fields with
  | nil => simp [insertField]
  | cons first fields ih =>
    rw [insertField]
    split
    · rw [List.map_cons, List.mem_cons]
    split
    · rename_i heq
      subst heq
      simp
    · rw [List.map_cons, List.mem_cons, ih, List.map_cons, List.mem_cons, or_left_comm]

theorem pairwise_insertField (h : fields.Pairwise (·.1 < ·.1)) :
    (insertField name value fields).Pairwise (·.1 < ·.1) := by
  induction fields with
  | nil => exact List.pairwise_singleton _ _
  | cons first fields ih =>
    obtain ⟨other, kept⟩ := first
    obtain ⟨hfirst, hothers⟩ := List.pairwise_cons.1 h
    rw [insertField]
    split
    · rename_i hlt
      refine List.pairwise_cons.2 ⟨fun field hfield => ?_, h⟩
      rcases List.mem_cons.1 hfield with rfl | hfield
      · exact hlt
      · exact String.lt_trans hlt (hfirst field hfield)
    · rename_i hnlt
      split
      · rename_i heq
        subst heq
        exact List.pairwise_cons.2 ⟨hfirst, hothers⟩
      · rename_i hne
        refine List.pairwise_cons.2 ⟨fun field hfield => ?_, ih hothers⟩
        rcases mem_insertField hfield with rfl | hfield
        · exact String.not_le.1 fun hle => hne (String.le_antisymm hle (String.not_lt.1 hnlt))
        · exact hfirst field hfield

theorem pairwise_foldl {kept : List (String × Json)} (h : kept.Pairwise (·.1 < ·.1)) :
    (fields.foldl (fun sorted field => insertField field.1 field.2 sorted) kept).Pairwise
      (·.1 < ·.1) := by
  induction fields generalizing kept with
  | nil => exact h
  | cons field fields ih => exact ih (pairwise_insertField h)

theorem mem_foldl {kept : List (String × Json)} {field : String × Json}
    (h : field ∈ fields.foldl (fun sorted field => insertField field.1 field.2 sorted) kept) :
    field ∈ kept ∨ field ∈ fields := by
  induction fields generalizing kept with
  | nil => exact .inl h
  | cons first fields ih =>
    rcases ih h with hkept | hfields
    · rcases mem_insertField hkept with rfl | hkept
      · exact .inr List.mem_cons_self
      · exact .inl hkept
    · exact .inr (List.mem_cons_of_mem _ hfields)

theorem mem_names_foldl (kept : List (String × Json)) {other : String}
    (h : other ∈ kept.map (·.1) ∨ other ∈ fields.map (·.1)) :
    other ∈ (fields.foldl (fun sorted field => insertField field.1 field.2 sorted) kept).map
      (·.1) := by
  induction fields generalizing kept with
  | nil => exact h.resolve_right List.not_mem_nil
  | cons field fields ih =>
    refine ih _ ?_
    rcases h with hkept | hfields
    · exact .inl (mem_names_insertField.2 (.inr hkept))
    · rcases List.mem_cons.1 hfields with rfl | hfields
      · exact .inl (mem_names_insertField.2 (.inl rfl))
      · exact .inr hfields

variable {P : Number → Prop} {Q : String → Prop} {parse : String → Option Json} {v : Json}

/-- Fields of which the first is no embedded document make a normal object. -/
theorem isNormal_ofFields (h : ∀ field ∈ fields, field.2.IsNormal P)
    (hstart : startsEmbedded fields = false) : (ofFields fields).IsNormal P := by
  refine .object (pairwise_foldl .nil) (fun content halone => ?_) fun field hfield =>
    h field ((mem_foldl hfield).resolve_left List.not_mem_nil)
  -- If no other name is left, all fields had this one, the first one too.
  have hkept : ∀ other, other ∈ fields.map (·.1) → other = Node.embeddedName := by
    intro other hother
    have hmem := mem_names_foldl [] (.inr hother)
    rwa [halone, List.map_singleton, List.mem_singleton] at hmem
  cases fields with
  | nil => cases halone
  | cons field fields =>
    exact of_decide_eq_false hstart (hkept field.1 List.mem_cons_self)

theorem Node.isNormal_of_embedded? {members : List (Option String × Node)}
    (h : ∀ member ∈ members, member.2.Made P Q)
    (hparse : ∀ text w, Q text → parse text = some w → w.IsNormal P)
    (hv : embedded? parse members = some (.ok v)) : v.IsNormal P := by
  obtain ⟨content, others, rfl, hvalue⟩ := embedded?_eq_some_iff.1 hv
  obtain ⟨_, text, rfl, hread⟩ := embeddedValue_eq_ok_iff.1 hvalue
  cases h _ List.mem_cons_self with
  | string htext => exact hparse _ _ (htext _ rfl) hread

theorem Node.startsEmbedded_of_mapM {members : List (Option String × Node)}
    (h : embedded? parse members = none) (hvalues : members.mapM (fieldValue parse) = .ok fields) :
    startsEmbedded fields = false := by
  cases mapM_eq_ok_iff.1 hvalues with
  | nil => rfl
  | @cons member field _ _ hfield _ =>
    obtain ⟨name, content⟩ := member
    cases name with
    | none => cases hfield
    | some name =>
      rw [fieldValue, map_eq_ok_iff] at hfield
      obtain ⟨_, _, rfl⟩ := hfield
      refine decide_eq_false fun heq => ?_
      subst heq
      rw [embedded?_eq_some_iff.2 ⟨content, _, rfl, rfl⟩] at h
      cases h

/-- **The value of a document is normal** if the values of embedded texts are. -/
theorem Node.Made.isNormal {node : Node} (h : node.Made P Q)
    (hparse : ∀ text w, Q text → parse text = some w → w.IsNormal P)
    (hv : node.value parse = .ok v) : v.IsNormal P := by
  induction h generalizing v with
  | null =>
    cases hv
    exact .null
  | bool value =>
    cases hv
    exact .bool value
  | @number value h =>
    cases value with
    | none => cases hv
    | some n =>
      cases hv
      exact .number (h n rfl)
  | @string value _ =>
    cases value with
    | none => cases hv
    | some text =>
      cases hv
      exact .string text
  | array _ ih =>
    rw [value, map_eq_ok_iff, itemValues_eq_mapM] at hv
    obtain ⟨values, hvalues, rfl⟩ := hv
    refine .array fun value hvalue => ?_
    obtain ⟨item, hitem, hread⟩ := (mem_of_mapM_eq_ok hvalues).1 hvalue
    exact ih item hitem hread
  | @object fields h ih =>
    rw [value] at hv
    split at hv
    · rename_i hembedded
      -- The object is an embedded document, and its value that of a text.
      exact isNormal_of_embedded? h hparse (hembedded.trans (congrArg some hv))
    · rename_i hembedded
      rw [map_eq_ok_iff, fieldValues_eq_mapM] at hv
      obtain ⟨values, hvalues, rfl⟩ := hv
      refine isNormal_ofFields (fun value hvalue => ?_) (startsEmbedded_of_mapM hembedded hvalues)
      obtain ⟨⟨name, content⟩, hfield, hread⟩ := (mem_of_mapM_eq_ok hvalues).1 hvalue
      cases name with
      | none => cases hread
      | some name =>
        rw [fieldValue, map_eq_ok_iff] at hread
        obtain ⟨w, hw, rfl⟩ := hread
        exact ih _ hfield hw

end

/-! ### The sizes of pieces -/

/-- How many bytes a piece can stand for at most. -/
def Piece.size : Piece → Nat
  | .byte _ => 1
  | .unit _ => 4

/-- How many bytes the pieces can stand for at most. -/
def sizeOfPieces : List Piece → Nat
  | [] => 0
  | piece :: pieces => piece.size + sizeOfPieces pieces

theorem sizeOfPieces_append (ps qs : List Piece) :
    sizeOfPieces (ps ++ qs) = sizeOfPieces ps + sizeOfPieces qs := by
  induction ps with
  | nil => exact (Nat.zero_add _).symm
  | cons p ps ih => rw [List.cons_append, sizeOfPieces, sizeOfPieces, ih, Nat.add_assoc]

theorem sizeOfPieces_reverse (pieces : List Piece) :
    sizeOfPieces pieces.reverse = sizeOfPieces pieces := by
  induction pieces with
  | nil => rfl
  | cons piece pieces ih =>
    rw [List.reverse_cons, sizeOfPieces_append, ih, sizeOfPieces, sizeOfPieces, sizeOfPieces,
      Nat.add_zero, Nat.add_comm]

theorem length_pieceBytes_le {pieces : List Piece} {bytes : List UInt8}
    (h : pieceBytes pieces = some bytes) : bytes.length ≤ sizeOfPieces pieces := by
  have hunit : ∀ code, (String.utf8EncodeChar (Char.ofNat code)).length ≤ 4 := fun code =>
    Text.Utf8.length_utf8EncodeChar_le (.inr (.inr (.inr (Nat.le_refl 4))))
  fun_induction pieceBytes pieces generalizing bytes
  case case1 =>
    cases h
    exact Nat.le_refl _
  case case2 value pieces ih =>
    obtain ⟨others, hothers, rfl⟩ := Option.map_eq_some_iff.1 h
    have hle := ih hothers
    rw [sizeOfPieces, List.length_cons, Piece.size]
    omega
  case case3 high low pieces _ _ code ih =>
    obtain ⟨others, hothers, rfl⟩ := Option.map_eq_some_iff.1 h
    have hle := ih hothers
    -- Two halves make one character, and each of them counts four bytes.
    have hcode := hunit code
    rw [sizeOfPieces, sizeOfPieces, List.length_append, Piece.size, Piece.size]
    omega
  case case6 high low pieces _ _ ih =>
    obtain ⟨others, hothers, rfl⟩ := Option.map_eq_some_iff.1 h
    rw [sizeOfPieces, List.length_append]
    exact Nat.add_le_add (hunit high) (ih hothers)
  case case8 value pieces _ _ ih =>
    obtain ⟨others, hothers, rfl⟩ := Option.map_eq_some_iff.1 h
    rw [sizeOfPieces, List.length_append]
    exact Nat.add_le_add (hunit value) (ih hothers)
  all_goals cases h

theorem length_encode_pieceText_le {pieces : List Piece} {text : String}
    (h : pieceText pieces = some text) :
    (Text.Utf8.encode text).length ≤ sizeOfPieces pieces := by
  obtain ⟨bytes, hbytes, htext⟩ := Option.bind_eq_some_iff.1 h
  exact Nat.le_trans (Text.Utf8.length_encode_le htext) (length_pieceBytes_le hbytes)

/-! ### Documents that were read -/

/-- The numbers in a document are written ones, and its texts are shorter than so many bytes. -/
abbrev Node.Within (bound : Nat) (node : Node) : Prop :=
  node.Made Number.IsWritten fun text => (Text.Utf8.encode text).length < bound

namespace Reader

/-- How many bytes were taken since the last piece of a text was complete. -/
def TextPart.taken : TextPart → Nat
  | .character => 0
  | .escape => 1
  | .unit digits _ => digits + 2

/-- The documents in a frame are sound. -/
def Frame.Sound (bound : Nat) : Frame → Prop
  | .array items => ∀ item ∈ items, item.Within bound
  | .object fields | .field fields _ => ∀ field ∈ fields, field.2.Within bound

/-- A document that is waited for, or complete, is sound, and a text has fewer bytes than were
taken. -/
def Phase.Sound (bound taken : Nat) : Phase → Prop
  | .word _ node | .done node => node.Within bound
  | .text _ part pieces => sizeOfPieces pieces + part.taken < taken
  | _ => True

/-- All documents that were read are sound, after so many bytes were taken. -/
structure State.Sound (bound taken : Nat) (s : State) : Prop where
  stack : ∀ frame ∈ s.stack, frame.Sound bound
  phase : s.phase.Sound bound taken

variable {stack : List Frame} {s s' : State} {node : Node} {b : UInt8} {bound taken : Nat}

theorem sound_start : start.Sound bound 0 := ⟨by simp [start], trivial⟩

theorem Phase.Sound.succ {phase : Phase} (h : phase.Sound bound taken) :
    phase.Sound bound (taken + 1) := by
  cases phase with
  | text => exact Nat.lt_succ_of_lt h
  | _ => exact h

theorem sound_of_complete (h : complete stack node = some s)
    (hstack : ∀ frame ∈ stack, frame.Sound bound) (hnode : node.Within bound) :
    s.Sound bound taken := by
  unfold complete at h
  split at h
  · cases h
    exact ⟨hstack, hnode⟩
  · cases h
    obtain ⟨hitems, hstack⟩ := List.forall_mem_cons.1 hstack
    exact ⟨List.forall_mem_cons.2 ⟨List.forall_mem_cons.2 ⟨hnode, hitems⟩, hstack⟩, trivial⟩
  · cases h
    obtain ⟨hfields, hstack⟩ := List.forall_mem_cons.1 hstack
    exact ⟨List.forall_mem_cons.2 ⟨List.forall_mem_cons.2 ⟨hnode, hfields⟩, hstack⟩, trivial⟩
  · cases h

theorem sound_of_eq {phase : Phase} (h : some ⟨stack, phase⟩ = some s)
    (hstack : ∀ frame ∈ stack, frame.Sound bound) (hphase : phase.Sound bound taken) :
    s.Sound bound taken := by
  cases h
  exact ⟨hstack, hphase⟩

theorem sound_text (isName : Bool) :
    (Phase.text isName .character []).Sound bound (taken + 1) := Nat.succ_pos taken

theorem sound_of_beginValue (h : beginValue stack b = some s)
    (hstack : ∀ frame ∈ stack, frame.Sound bound) : s.Sound bound (taken + 1) := by
  have harray : ∀ frame ∈ .array [] :: stack, frame.Sound bound :=
    List.forall_mem_cons.2 ⟨by simp [Frame.Sound], hstack⟩
  have hobject : ∀ frame ∈ .object [] :: stack, frame.Sound bound :=
    List.forall_mem_cons.2 ⟨by simp [Frame.Sound], hstack⟩
  unfold beginValue at h
  repeat' split at h
  · exact sound_of_eq h hstack trivial
  · exact sound_of_eq h hstack (sound_text false)
  · exact sound_of_eq h harray trivial
  · exact sound_of_eq h hobject trivial
  · exact sound_of_eq h hstack trivial
  · exact sound_of_eq h hstack trivial
  · exact sound_of_eq h hstack .null
  · exact sound_of_eq h hstack (.bool true)
  · exact sound_of_eq h hstack (.bool false)
  · obtain ⟨_, _, rfl⟩ := Option.map_eq_some_iff.1 h
    exact ⟨hstack, trivial⟩

theorem sound_of_beginName {phase : Phase} (h : beginName stack phase b = some s)
    (hstack : ∀ frame ∈ stack, frame.Sound bound) (hphase : phase.Sound bound (taken + 1)) :
    s.Sound bound (taken + 1) := by
  unfold beginName at h
  repeat' split at h
  · exact sound_of_eq h hstack hphase
  · exact sound_of_eq h hstack (sound_text true)
  · cases h

theorem sound_of_separate (h : separate stack b = some s)
    (hstack : ∀ frame ∈ stack, frame.Sound bound) : s.Sound bound taken := by
  unfold separate at h
  repeat' split at h
  · exact sound_of_eq h hstack trivial
  · exact sound_of_eq h hstack trivial
  · obtain ⟨hitems, houter⟩ := List.forall_mem_cons.1 hstack
    exact sound_of_complete h houter
      (.array fun item hitem => hitems item (List.mem_reverse.1 hitem))
  · cases h
  · exact sound_of_eq h hstack trivial
  · obtain ⟨hfields, houter⟩ := List.forall_mem_cons.1 hstack
    exact sound_of_complete h houter
      (.object fun field hfield => hfields field (List.mem_reverse.1 hfield))
  · cases h
  · cases h

theorem State.Sound.afterValue (hs : s.Sound bound taken) (h : afterValue s b = some s') :
    s'.Sound bound (taken + 1) := by
  unfold Reader.afterValue at h
  split at h
  · exact sound_of_separate h hs.stack
  · split at h
    · cases h
      exact ⟨hs.stack, hs.phase.succ⟩
    · cases h
  · cases h

/-- Only here a number gets into a document. -/
theorem sound_of_stepNumber {d : Draft} (h : stepNumber stack d b = some s)
    (hstack : ∀ frame ∈ stack, frame.Sound bound) : s.Sound bound (taken + 1) := by
  unfold stepNumber at h
  split at h
  · cases h
    exact ⟨hstack, trivial⟩
  split at h
  · cases h
  · obtain ⟨s', hend, hafter⟩ := Option.bind_eq_some_iff.1 h
    unfold endNumber at hend
    split at hend
    · have hs' : s'.Sound bound taken :=
        sound_of_complete hend hstack (.number fun n hn => ⟨_, hn⟩)
      exact hs'.afterValue hafter
    · cases hend

/-- Only here a text gets into a document. -/
theorem sound_of_endText {isName : Bool} {pieces : List Piece}
    (h : endText stack isName pieces = some s) (hstack : ∀ frame ∈ stack, frame.Sound bound)
    (hpieces : sizeOfPieces pieces < bound) : s.Sound bound taken := by
  unfold endText at h
  dsimp only at h
  repeat' split at h
  · obtain ⟨hfields, houter⟩ := List.forall_mem_cons.1 hstack
    exact sound_of_eq h (List.forall_mem_cons.2 ⟨hfields, houter⟩) trivial
  · cases h
  · refine sound_of_complete h hstack (.string fun text htext => ?_)
    have hle := length_encode_pieceText_le htext
    rw [sizeOfPieces_reverse] at hle
    exact Nat.lt_of_le_of_lt hle hpieces

theorem sound_of_stepText {isName : Bool} {part : TextPart} {pieces : List Piece}
    (h : stepText stack isName part pieces b = some s) (hstack : ∀ frame ∈ stack, frame.Sound bound)
    (hphase : sizeOfPieces pieces + part.taken < taken) (htaken : taken ≤ bound) :
    s.Sound bound (taken + 1) := by
  unfold stepText at h
  repeat' split at h
  · exact sound_of_endText h hstack (Nat.lt_of_lt_of_le hphase htaken)
  · exact sound_of_eq h hstack (Nat.succ_lt_succ hphase)
  · cases h
  · refine sound_of_eq h hstack ?_
    simp only [Phase.Sound, sizeOfPieces, Piece.size, TextPart.taken] at hphase ⊢
    omega
  · refine sound_of_eq h hstack ?_
    simp only [Phase.Sound, TextPart.taken] at hphase ⊢
    omega
  · obtain ⟨_, _, rfl⟩ := Option.map_eq_some_iff.1 h
    refine ⟨hstack, ?_⟩
    simp only [Phase.Sound, sizeOfPieces, Piece.size, TextPart.taken] at hphase ⊢
    omega
  · obtain ⟨_, _, rfl⟩ := Option.map_eq_some_iff.1 h
    refine ⟨hstack, ?_⟩
    -- The unit is complete: it counts four bytes, and six were taken for it.
    simp only [Phase.Sound, sizeOfPieces, Piece.size, TextPart.taken] at hphase ⊢
    omega
  · obtain ⟨_, _, rfl⟩ := Option.map_eq_some_iff.1 h
    refine ⟨hstack, ?_⟩
    simp only [Phase.Sound, TextPart.taken] at hphase ⊢
    omega

theorem sound_of_empty {frame : Frame} (hs : s.Sound bound taken)
    (hstack : s.stack = frame :: stack) (h : complete stack node = some s')
    (hnode : node.Within bound) : s'.Sound bound (taken + 1) := by
  have hframes := hs.stack
  rw [hstack] at hframes
  exact sound_of_complete h (List.forall_mem_cons.1 hframes).2 hnode

/-- **One byte.** -/
theorem State.Sound.step (hs : s.Sound bound taken) (htaken : taken ≤ bound)
    (h : step s b = some s') : s'.Sound bound (taken + 1) := by
  unfold Reader.step at h
  split at h
  case h_1 => exact sound_of_beginValue h hs.stack
  case h_2 =>
    repeat' split at h
    · exact sound_of_eq h hs.stack hs.phase.succ
    · rename_i hstack
      exact sound_of_empty hs hstack h (.array (by simp))
    · cases h
    · exact sound_of_beginValue h hs.stack
  case h_3 =>
    repeat' split at h
    · rename_i hstack
      exact sound_of_empty hs hstack h (.object (by simp))
    · cases h
    · exact sound_of_beginName h hs.stack trivial
  case h_4 => exact sound_of_beginName h hs.stack trivial
  case h_5 =>
    repeat' split at h
    · exact sound_of_eq h hs.stack hs.phase.succ
    · exact sound_of_eq h hs.stack trivial
    · cases h
  case h_6 => exact hs.afterValue h
  case h_7 => exact hs.afterValue h
  -- A word has its document from its first byte on.
  case h_8 rest node hphase =>
    have hnode : node.Within bound := by
      have hphase' := hs.phase
      rwa [hphase] at hphase'
    repeat' split at h
    · cases h
    · exact sound_of_complete h hs.stack hnode
    · exact sound_of_eq h hs.stack hnode
    · cases h
  case h_9 => exact sound_of_stepNumber h hs.stack
  case h_10 isName part pieces hphase =>
    have hpieces := hs.phase
    rw [hphase] at hpieces
    exact sound_of_stepText h hs.stack hpieces htaken

theorem State.Sound.foldlM {bytes : List UInt8} (hs : s.Sound bound taken)
    (hbound : taken + bytes.length ≤ bound) (h : bytes.foldlM Reader.step s = some s') :
    s'.Sound bound (taken + bytes.length) := by
  induction bytes generalizing s taken with
  | nil =>
    cases h
    exact hs
  | cons b bytes ih =>
    rw [List.foldlM_cons] at h
    obtain ⟨next, hnext, hrest⟩ := Option.bind_eq_some_iff.1 h
    rw [List.length_cons, Nat.add_comm bytes.length, ← Nat.add_assoc] at hbound ⊢
    exact ih (hs.step (by omega) hnext) hbound hrest

theorem within_of_finish (hs : s.Sound bound taken) (h : finish s = some node) :
    node.Within bound := by
  unfold finish at h
  split at h
  · rename_i hdone
    have hphase := hs.phase
    rw [hdone] at hphase
    cases h
    exact hphase
  · split at h
    · rename_i hend
      cases h
      unfold endNumber at hend
      split at hend
      · have hs' : State.Sound bound taken _ :=
          sound_of_complete hend hs.stack (.number fun n hn => ⟨_, hn⟩)
        exact hs'.phase
      · cases hend
    · cases h
  · cases h

/-- **A document that was read** has written numbers only, and its texts are shorter than the bytes
it was read from. -/
theorem within_of_read {bytes : List UInt8} (h : read bytes = some node) :
    node.Within bytes.length := by
  obtain ⟨s, hbytes, hfinish⟩ := Option.bind_eq_some_iff.1 h
  have hs := sound_start.foldlM (Nat.le_of_eq (Nat.zero_add bytes.length)) hbytes
  exact within_of_finish hs hfinish

end Reader

/-! ### Embedded documents -/

/-- What embedded texts are worth matters only as far as they occur. -/
theorem Node.Made.value_congr {P : Number → Prop} {Q : String → Prop} {node : Node}
    {parse parse' : String → Option Json} (h : node.Made P Q)
    (hparse : ∀ text, Q text → parse text = parse' text) :
    node.value parse = node.value parse' := by
  induction h with
  | null | bool => rfl
  | @number value => cases value <;> rfl
  | @string value => cases value <;> rfl
  | array _ ih =>
    rw [value, value, itemValues_eq_mapM, itemValues_eq_mapM, mapM_congr ih]
  | @object fields hmade ih =>
    -- The text of an embedded document is one of those on which the readings agree.
    have hembedded : embedded? parse fields = embedded? parse' fields := by
      cases fields with
      | nil => rfl
      | cons field others =>
        obtain ⟨name, content⟩ := field
        cases name with
        | none => rfl
        | some name =>
          have hcontent := hmade _ List.mem_cons_self
          cases hcontent with
          | @string text htext =>
            cases text with
            | none => rfl
            | some text =>
              rw [embedded?, embedded?, embeddedValue, embeddedValue, hparse _ (htext _ rfl)]
          | _ => rfl
    have hfields : fields.mapM (fieldValue parse) = fields.mapM (fieldValue parse') := by
      refine mapM_congr fun field hfield => ?_
      obtain ⟨name, content⟩ := field
      cases name with
      | none => rfl
      | some name => rw [fieldValue, fieldValue, ih _ hfield]
    rw [value, value, hembedded, fieldValues_eq_mapM, fieldValues_eq_mapM, hfields]

/-- **Embedded texts are parsed like any others**: they are always shorter than the bytes that they
are read from. -/
theorem parse_eq (bytes : List UInt8) :
    parse bytes = (read bytes).bind fun node => node.valueIn? parseText Node.maxDepth := by
  rw [parse]
  refine Option.bind_congr fun node hnode => ?_
  rw [Node.valueIn?, Node.valueIn?, (Reader.within_of_read hnode).value_congr]
  exact fun text htext => dif_pos htext

/-- **A value that was parsed is normal**, with all that was embedded in it. -/
theorem isNormal_of_parse {bytes : List UInt8} {v : Json} (h : parse bytes = some v) :
    v.IsNormal Number.IsWritten := by
  -- Embedded texts are shorter than the bytes that hold them.
  induction hlength : bytes.length using Nat.strongRecOn generalizing bytes v with
  | ind length ih =>
    rw [parse_eq, Option.bind_eq_some_iff] at h
    obtain ⟨node, hread, hvalue⟩ := h
    refine (Reader.within_of_read hread).isNormal (fun text w htext hw => ?_)
      (Node.value_of_valueIn? hvalue)
    exact ih _ (hlength ▸ htext) hw rfl

theorem isNormal_of_parseText {text : String} {v : Json} (h : parseText text = some v) :
    v.IsNormal Number.IsWritten :=
  isNormal_of_parse h

end Json

end MediaCatalogue
