import Mathlib.Data.List.DropRight
import MediaCatalogue.Proofs.Sequences
import MediaCatalogue.Query.Detail

/-!
# Lists of details

A list of details is the keys of details with commas between them. There may be white space around
each key, and there may be blank entries. The entries of two lists with a comma between them are
those of the one, and then those of the other, so that reading is a homomorphism.

* `Text.Splits`, `Text.Trims` say what splitting and trimming do, without doing it; every text is
  split in one way (`Text.splits_iff`), and every part is trimmed in one way (`Text.trims_iff`);
* `Detail.entries_append` : the entries of two lists with a comma between them;
* `Detail.parseList_eq_ok_iff`, `Detail.parseList_eq_error_iff` : what is read, and what is a fault.

**Main theorem** (`Detail.lists_are_read`): which texts are lists of details, and of which ones.
-/

namespace MediaCatalogue

namespace Text

variable {c : Char} {cs ds part word : List Char} {parts : List (List Char)} {text : String}

/-! ### Parts -/

theorem separated_eq_splitOn (c : Char) (cs : List Char) : separated c cs = cs.splitOn c := by
  induction cs with
  | nil => rfl
  | cons d cs ih =>
    obtain ⟨part, parts, hparts⟩ := List.exists_cons_of_ne_nil (separated_ne_nil c cs)
    rw [hparts, List.splitOn] at ih
    rw [List.splitOn, List.splitOnP_cons_eq_if_modifyHead, ← ih, separated, hparts]
    simp only [beq_iff_eq]
    rfl

theorem separated_append : separated c (cs ++ c :: ds) = separated c cs ++ separated c ds := by
  simp only [separated_eq_splitOn, List.splitOn]
  exact List.splitOnP_append_cons cs ds (beq_self_eq_true c)

theorem not_mem_of_mem_separated : ∀ part ∈ separated c cs, c ∉ part := by
  induction cs with
  | nil => simp [separated]
  | cons d ds ih =>
    obtain ⟨part, parts, hparts⟩ := List.exists_cons_of_ne_nil (separated_ne_nil c ds)
    rw [hparts, List.forall_mem_cons] at ih
    rw [separated, hparts]
    split
    · rw [List.forall_mem_cons, List.forall_mem_cons]
      exact ⟨List.not_mem_nil, ih⟩
    · rename_i hd
      rw [List.forall_mem_cons, List.mem_cons, not_or]
      exact ⟨⟨Ne.symm hd, ih.1⟩, ih.2⟩

/-- The parts are those of the text between its commas. -/
structure Splits (text : String) (parts : List (List Char)) : Prop where
  nonempty : parts ≠ []
  joined : text.toList = [','].intercalate parts
  commaFree : ∀ part ∈ parts, ',' ∉ part

/-- **A text is split in one way.** -/
theorem splits_iff : Splits text parts ↔ parts = separated ',' text.toList := by
  constructor
  · rintro ⟨hnonempty, hjoined, hcommaFree⟩
    rw [hjoined, separated_eq_splitOn, List.splitOn_intercalate ',' hcommaFree hnonempty]
  · rintro rfl
    refine ⟨separated_ne_nil _ _, ?_, not_mem_of_mem_separated⟩
    rw [separated_eq_splitOn, List.intercalate_splitOn]

/-! ### White space -/

/-- The word is the part without the white space around it. -/
structure Trims (part word : List Char) : Prop where
  around : ∃ before after, part = before ++ word ++ after ∧
    (∀ c ∈ before, isBlank c = true) ∧ ∀ c ∈ after, isBlank c = true
  first : ∀ c ∈ word.head?, isBlank c = false
  last : ∀ c ∈ word.getLast?, isBlank c = false

theorem dropWhile_of_head? {p : Char → Bool} (h : ∀ c ∈ cs.head?, p c = false) :
    cs.dropWhile p = cs := by
  cases cs with
  | nil => rfl
  | cons c cs => exact List.dropWhile_cons_of_neg (by simp [h c rfl])

theorem of_mem_head?_dropWhile {p : Char → Bool} : ∀ c ∈ (cs.dropWhile p).head?, p c = false := by
  intro c hc
  have h := List.head?_dropWhile_not p cs
  rwa [Option.mem_def.1 hc] at h

theorem trims_trim (part : List Char) : Trims part (trim part) where
  around := by
    refine ⟨part.takeWhile isBlank, (trimStart part).rtakeWhile isBlank, ?_,
      List.all_eq_true.1 List.all_takeWhile, fun c => List.mem_rtakeWhile_imp⟩
    calc part = part.takeWhile isBlank ++ trimStart part := List.takeWhile_append_dropWhile.symm
      _ = part.takeWhile isBlank ++ (trim part ++ (trimStart part).rtakeWhile isBlank) :=
        congrArg _ List.rdropWhile_append_rtakeWhile.symm
      _ = _ := (List.append_assoc ..).symm
  first := by
    intro c hc
    obtain ⟨after, hafter⟩ := List.rdropWhile_prefix isBlank (trimStart part)
    have hword : (trimStart part).head? = some c := by
      change trim part ++ after = trimStart part at hafter
      rw [← hafter, List.head?_append, Option.mem_def.1 hc, Option.some_or]
    exact of_mem_head?_dropWhile c hword
  last := by
    intro c hc
    rw [trim, trimEnd, List.getLast?_reverse] at hc
    exact of_mem_head?_dropWhile c hc

theorem Trims.trim_eq (h : Trims part word) : trim part = word := by
  obtain ⟨⟨before, after, rfl, hbefore, hafter⟩, hfirst, hlast⟩ := h
  rw [trim, trimStart, List.append_assoc, List.dropWhile_append_of_pos hbefore]
  cases word with
  | nil =>
    rw [List.nil_append, List.dropWhile_eq_nil_iff.2 hafter]
    rfl
  | cons c cs =>
    have hafter' : ∀ c ∈ after.reverse, isBlank c = true :=
      fun c hc => hafter c (List.mem_reverse.1 hc)
    have hlast' : ∀ d ∈ (c :: cs).reverse.head?, isBlank d = false := by
      rwa [List.head?_reverse]
    have hstart : (c :: cs ++ after).dropWhile isBlank = c :: cs ++ after :=
      dropWhile_of_head? hfirst
    rw [hstart, trimEnd, List.reverse_append, List.dropWhile_append_of_pos hafter',
      dropWhile_of_head? hlast', List.reverse_reverse]

/-- **A part is trimmed in one way.** -/
theorem trims_iff : Trims part word ↔ trim part = word :=
  ⟨Trims.trim_eq, fun h => h ▸ trims_trim part⟩

end Text

/-! ### Keys -/

namespace Detail

open Text

variable {d : Detail} {part : List Char} {parts : List (List Char)} {word text text' : String}
  {details : DetailSet} {fault : Fault}

/-- The word is the key of a detail. -/
def IsKey (word : String) : Prop := ∃ d : Detail, word = d.key

theorem key_injective {a b : Detail} (h : a.key = b.key) : a = b := by
  revert h
  cases a <;> cases b <;> decide

theorem ofKey_key (d : Detail) : ofKey d.key = .ok d := by
  cases d <;> decide

theorem ofKey_of_not_isKey (h : ¬ IsKey word) :
    ofKey word = .error (.invalidInput (.unknownDetail word)) := by
  have hlookup : words.lookup word = none := by
    rw [List.lookup_eq_none_iff]
    intro entry hentry
    obtain ⟨d, _, rfl⟩ := List.mem_map.1 hentry
    exact bne_iff_ne.2 fun heq => h ⟨d, heq⟩
  rw [ofKey, hlookup]

theorem message_unknownDetail (word : String) :
    (Fault.invalidInput (.unknownDetail word)).message =
      "Invalid input: unknown annotation: " ++ word := by
  have hheading : "Invalid input: unknown annotation: " =
      "Invalid input: " ++ "unknown annotation: " := by decide
  rw [hheading, String.append_assoc]
  rfl

theorem ofKey_eq_ok_iff : ofKey word = .ok d ↔ word = d.key := by
  constructor
  · intro h
    by_cases hword : IsKey word
    · obtain ⟨d', rfl⟩ := hword
      rw [ofKey_key] at h
      cases h
      rfl
    · rw [ofKey_of_not_isKey hword] at h
      cases h
  · rintro rfl
    exact ofKey_key d

theorem ofKey_eq_error_iff :
    ofKey word = .error fault ↔ ¬ IsKey word ∧ fault = .invalidInput (.unknownDetail word) := by
  constructor
  · intro h
    by_cases hword : IsKey word
    · obtain ⟨d, rfl⟩ := hword
      rw [ofKey_key] at h
      cases h
    · rw [ofKey_of_not_isKey hword] at h
      cases h
      exact ⟨hword, rfl⟩
  · rintro ⟨hword, rfl⟩
    exact ofKey_of_not_isKey hword

theorem trims_key (d : Detail) : Trims d.key.toList d.key.toList :=
  trims_iff.2 (by cases d <;> decide)

/-! ### Entries -/

/-- The entry that a part is, unless it is blank. -/
def wordOf? (part : List Char) : Option String :=
  if trim part = [] then none else some (String.ofList (trim part))

theorem wordOf?_eq_none_iff : wordOf? part = none ↔ Trims part [] := by
  rw [wordOf?, trims_iff]
  simp

theorem wordOf?_eq_some_iff : wordOf? part = some word ↔ word ≠ "" ∧ Trims part word.toList := by
  rw [wordOf?, trims_iff, Option.ite_none_left_eq_some, Option.some.injEq]
  constructor
  · rintro ⟨hne, rfl⟩
    rw [String.toList_ofList]
    exact ⟨fun h => hne (String.ofList_eq_empty_iff.1 h), rfl⟩
  · rintro ⟨hne, h⟩
    rw [h, String.ofList_toList]
    exact ⟨mt String.toList_eq_nil_iff.1 hne, rfl⟩

theorem entries_eq_filterMap (text : String) :
    entries text = (separated ',' text.toList).filterMap wordOf? := by
  rw [entries]
  induction separated ',' text.toList with
  | nil => rfl
  | cons part parts ih =>
    rw [List.map_cons, List.filterMap_cons, ← ih, wordOf?]
    by_cases h : trim part = []
    · rw [List.filter_cons_of_neg (by simp [h]), if_pos h]
    · rw [List.filter_cons_of_pos (by simp [h]), if_neg h, List.map_cons]

/-- **The entries of two lists** are those of the first, and then those of the second. -/
theorem entries_append (s t : String) : entries (s ++ "," ++ t) = entries s ++ entries t := by
  have hjoined : (s ++ "," ++ t).toList = s.toList ++ ',' :: t.toList := by
    simp
  rw [entries_eq_filterMap, hjoined, separated_append, List.filterMap_append,
    entries_eq_filterMap, entries_eq_filterMap]

/-! ### Reading -/

theorem ofList_append (xs ys : List Detail) : (Std.ExtTreeSet.ofList (xs ++ ys) : DetailSet) =
    Std.ExtTreeSet.ofList xs ∪ Std.ExtTreeSet.ofList ys := by
  ext d
  simp [Std.ExtTreeSet.mem_ofList, Std.ExtTreeSet.mem_union_iff]

/-- **Reading two lists** with a comma between them. -/
theorem parseList_append (s t : String) : parseList (s ++ "," ++ t) =
    do return (← parseList s) ∪ (← parseList t) := by
  rw [parseList, entries_append, List.mapM_append, parseList, parseList]
  cases (entries s).mapM ofKey with
  | error => rfl
  | ok xs =>
    cases (entries t).mapM ofKey with
    | error => rfl
    | ok ys => exact congrArg Except.ok (ofList_append xs ys)

theorem parseList_eq_ok_iff : parseList text = .ok details ↔
    (∀ word ∈ entries text, IsKey word) ∧ ∀ d, d ∈ details ↔ d.key ∈ entries text := by
  have hmem : ∀ {xs}, (entries text).mapM ofKey = .ok xs →
      ∀ d, d ∈ (Std.ExtTreeSet.ofList xs : DetailSet) ↔ d.key ∈ entries text := by
    intro xs hxs d
    simp [Std.ExtTreeSet.mem_ofList, mem_of_mapM_eq_ok hxs, ofKey_eq_ok_iff]
  constructor
  · intro h
    obtain ⟨xs, hxs, heq⟩ := of_bind_eq_ok h
    cases heq
    refine ⟨fun word hword => ?_, hmem hxs⟩
    obtain ⟨d, hd⟩ := exists_mapM_eq_ok_iff.1 ⟨xs, hxs⟩ word hword
    exact ⟨d, ofKey_eq_ok_iff.1 hd⟩
  · rintro ⟨hkeys, hdetails⟩
    obtain ⟨xs, hxs⟩ : ∃ xs, (entries text).mapM ofKey = .ok xs :=
      exists_mapM_eq_ok fun word hword => (hkeys word hword).imp fun d => ofKey_eq_ok_iff.2
    rw [parseList, hxs]
    refine congrArg Except.ok (Std.ExtTreeSet.ext_mem fun d => ?_)
    rw [hmem hxs, hdetails]

theorem exists_parseList_eq_ok_iff :
    (∃ details, parseList text = .ok details) ↔ ∀ word ∈ entries text, IsKey word := by
  rw [parseList, exists_bind_pure_eq_ok_iff, exists_mapM_eq_ok_iff]
  simp only [ofKey_eq_ok_iff, IsKey]

/-- A list that is not read has a first entry that is no key. -/
theorem parseList_eq_error_iff : parseList text = .error fault ↔
    ∃ before word after, entries text = before ++ word :: after ∧ (∀ word ∈ before, IsKey word) ∧
      ¬ IsKey word ∧ fault = .invalidInput (.unknownDetail word) := by
  have hread : parseList text = .error fault ↔ (entries text).mapM ofKey = .error fault := by
    rw [parseList]
    cases (entries text).mapM ofKey with
    | error => simp [bind, Except.bind]
    | ok => simp [bind, Except.bind, pure, Except.pure]
  rw [hread, mapM_eq_error_iff]
  simp only [ofKey_eq_ok_iff, ofKey_eq_error_iff, IsKey]

/-! ### Lists of parts -/

/-- The part is blank, or a key with white space around it. -/
def IsEntry (part : List Char) : Prop := Trims part [] ∨ ∃ d : Detail, Trims part d.key.toList

theorem isEntry_iff : IsEntry part ↔ ∀ word, wordOf? part = some word → IsKey word := by
  constructor
  · rintro (hblank | ⟨d, hkey⟩) word hword
    · rw [wordOf?_eq_none_iff.2 hblank] at hword
      cases hword
    · obtain ⟨_, htrims⟩ := wordOf?_eq_some_iff.1 hword
      exact ⟨d, String.toList_inj.1 (htrims.trim_eq.symm.trans hkey.trim_eq)⟩
  · intro h
    cases hentry : wordOf? part with
    | none => exact .inl (wordOf?_eq_none_iff.1 hentry)
    | some word =>
      obtain ⟨d, rfl⟩ := h word hentry
      exact .inr ⟨d, (wordOf?_eq_some_iff.1 hentry).2⟩

theorem mem_entries_iff (h : Splits text parts) :
    word ∈ entries text ↔ word ≠ "" ∧ ∃ part ∈ parts, Trims part word.toList := by
  rw [entries_eq_filterMap, ← splits_iff.1 h, List.mem_filterMap]
  simp only [wordOf?_eq_some_iff]
  exact ⟨fun ⟨part, hpart, hne, htrims⟩ => ⟨hne, part, hpart, htrims⟩,
    fun ⟨hne, part, hpart, htrims⟩ => ⟨part, hpart, hne, htrims⟩⟩

theorem key_mem_entries_iff (h : Splits text parts) :
    d.key ∈ entries text ↔ ∃ part ∈ parts, Trims part d.key.toList := by
  rw [mem_entries_iff h, and_iff_right]
  cases d <;> decide

theorem forall_entries_iff (h : Splits text parts) :
    (∀ word ∈ entries text, IsKey word) ↔ ∀ part ∈ parts, IsEntry part := by
  rw [entries_eq_filterMap, ← splits_iff.1 h]
  simp only [isEntry_iff, List.mem_filterMap]
  exact ⟨fun hall part hpart word hword => hall word ⟨part, hpart, hword⟩,
    fun hall word ⟨part, hpart, hword⟩ => hall part hpart word hword⟩

/-- The first entry that is no key is that of the first part that is no entry. -/
theorem first_unknown_iff (h : Splits text parts) :
    (∃ before after, entries text = before ++ word :: after ∧
      (∀ word ∈ before, IsKey word) ∧ ¬ IsKey word) ↔
    ∃ before part after, parts = before ++ part :: after ∧ (∀ part ∈ before, IsEntry part) ∧
      ¬ IsEntry part ∧ Trims part word.toList := by
  rw [entries_eq_filterMap, ← splits_iff.1 h]
  constructor
  · rintro ⟨before, after, heq, hbefore, hword⟩
    obtain ⟨known, others, rfl, rfl, hothers⟩ := List.filterMap_eq_append_iff.1 heq
    obtain ⟨blank, part, rest, rfl, hblank, hpart, _⟩ := List.filterMap_eq_cons_iff.1 hothers
    -- Blank parts may stand between the known entries and the unknown one.
    refine ⟨known ++ blank, part, rest, (List.append_assoc ..).symm, ?_,
      fun hentry => hword (isEntry_iff.1 hentry word hpart), (wordOf?_eq_some_iff.1 hpart).2⟩
    rw [List.forall_mem_append]
    constructor
    · exact fun p hp => isEntry_iff.2 fun w hw => hbefore w (List.mem_filterMap.2 ⟨p, hp, hw⟩)
    · exact fun p hp => .inl (wordOf?_eq_none_iff.1 (hblank p hp))
  · rintro ⟨before, part, after, rfl, hbefore, hpart, htrims⟩
    have hentry : wordOf? part = some word := by
      refine wordOf?_eq_some_iff.2 ⟨?_, htrims⟩
      rintro rfl
      exact hpart (.inl htrims)
    refine ⟨before.filterMap wordOf?, after.filterMap wordOf?, ?_, fun w hw => ?_, ?_⟩
    · rw [List.filterMap_append, List.filterMap_cons_some hentry]
    · obtain ⟨p, hp, hpw⟩ := List.mem_filterMap.1 hw
      exact isEntry_iff.1 (hbefore p hp) w hpw
    · rintro ⟨d, rfl⟩
      exact hpart (.inr ⟨d, htrims⟩)

theorem splits_intercalate {ds : List Detail} (h : ds ≠ []) :
    Splits (",".intercalate (ds.map key)) (ds.map (·.key.toList)) where
  nonempty := by simpa using h
  joined := by
    rw [String.toList_intercalate, List.map_map]
    rfl
  commaFree := by
    intro part hpart
    obtain ⟨d, _, rfl⟩ := List.mem_map.1 hpart
    cases d <;> decide

theorem entries_intercalate (ds : List Detail) :
    entries (",".intercalate (ds.map key)) = ds.map key := by
  have hkey : ∀ d : Detail, wordOf? d.key.toList = some d.key :=
    fun d => wordOf?_eq_some_iff.2 ⟨by cases d <;> decide, trims_key d⟩
  cases ds with
  | nil => rfl
  | cons d ds =>
    rw [entries_eq_filterMap, ← splits_iff.1 (splits_intercalate (List.cons_ne_nil d ds)),
      List.filterMap_map]
    exact List.filterMap_eq_map_iff_forall_eq_some.2 fun d _ => hkey d

/-- **Lists of details.**

1. Two lists with a comma between them are read as the union of what they are read as. If the first
   one is a fault, it is this fault; else it is the fault of the second one.
2. A text has parts in one way. It is read if each part is blank, or a key with white space around
   it, and then as the details of these keys.
3. Else it is the fault that the first other part is unknown, without the white space around it.
4. Texts whose parts are the same, up to their order, repetitions, blank parts and white space
   around the parts, are read as the same details, if at all.
5. The keys of some details in any order, with commas between them, are read as those details.
6. The wording of the fault ends with the unknown part. -/
theorem lists_are_read :
    (∀ s t : String, parseList (s ++ "," ++ t) = do return (← parseList s) ∪ (← parseList t)) ∧
    (∀ text, ∃! parts, Splits text parts) ∧
    (∀ text parts, Splits text parts →
      ((∃ details, parseList text = .ok details) ↔ ∀ part ∈ parts, IsEntry part) ∧
      (∀ details, parseList text = .ok details → ∀ d, d ∈ details ↔
        ∃ part ∈ parts, Trims part d.key.toList) ∧
      (∀ fault, parseList text = .error fault ↔ ∃ before part after word,
        parts = before ++ part :: after ∧ (∀ part ∈ before, IsEntry part) ∧ ¬ IsEntry part ∧
          Trims part (String.toList word) ∧ fault = .invalidInput (.unknownDetail word)) ∧
      ∀ text' parts', Splits text' parts' →
        (∀ word, word ≠ [] →
          ((∃ part ∈ parts, Trims part word) ↔ ∃ part ∈ parts', Trims part word)) →
        ∀ details, parseList text = .ok details ↔ parseList text' = .ok details) ∧
    (∀ (details : DetailSet) (ds : List Detail), (∀ d, d ∈ details ↔ d ∈ ds) →
      parseList (",".intercalate (ds.map key)) = .ok details) ∧
    ∀ word : String, (Fault.invalidInput (.unknownDetail word)).message =
      "Invalid input: unknown annotation: " ++ word := by
  refine ⟨parseList_append, fun text => ⟨_, splits_iff.2 rfl, fun parts => splits_iff.1⟩,
    fun text parts h => ⟨?_, fun details hread d => ?_, fun fault => ?_,
      fun text' parts' h' hsame details => ?_⟩, fun details ds hds => ?_, message_unknownDetail⟩
  · rw [exists_parseList_eq_ok_iff, forall_entries_iff h]
  · rw [(parseList_eq_ok_iff.1 hread).2 d, key_mem_entries_iff h]
  · rw [parseList_eq_error_iff]
    constructor
    · rintro ⟨before, word, after, heq, hbefore, hword, rfl⟩
      obtain ⟨before', part, after', hparts⟩ :=
        (first_unknown_iff h).1 ⟨before, after, heq, hbefore, hword⟩
      exact ⟨before', part, after', word, hparts.1, hparts.2.1, hparts.2.2.1, hparts.2.2.2, rfl⟩
    · rintro ⟨before, part, after, word, heq, hbefore, hpart, htrims, rfl⟩
      obtain ⟨before', after', hentries⟩ :=
        (first_unknown_iff h).2 ⟨before, part, after, heq, hbefore, hpart, htrims⟩
      exact ⟨before', word, after', hentries.1, hentries.2.1, hentries.2.2, rfl⟩
  · -- Reading depends on the entries only, and blanks are no entries.
    have hentries : ∀ word, word ∈ entries text ↔ word ∈ entries text' := by
      intro word
      rw [mem_entries_iff h, mem_entries_iff h']
      exact and_congr_right fun hne => hsame _ (mt String.toList_eq_nil_iff.1 hne)
    simp only [parseList_eq_ok_iff, hentries]
  · rw [parseList_eq_ok_iff, entries_intercalate]
    refine ⟨fun word hword => ?_, fun d => ?_⟩
    · obtain ⟨d, _, rfl⟩ := List.mem_map.1 hword
      exact ⟨d, rfl⟩
    · rw [List.mem_map_of_injective fun _ _ => key_injective, hds]

/-- Repetitions, blank entries and white space do not matter; an unknown entry is named without the
white space around it. -/
theorem lists_are_read_of_blanks :
    have details : DetailSet := Std.ExtTreeSet.ofList ([.images, .topics] : List Detail)
    Splits "topics,images" ["topics".toList, "images".toList] ∧
      Splits " images,, topics\t,images"
        [" images".toList, [], " topics\t".toList, "images".toList] ∧
      parseList "topics,images" = .ok details ∧
      parseList " images,, topics\t,images" = .ok details ∧
      Splits "images, title ,x" ["images".toList, " title ".toList, "x".toList] ∧
      parseList "images, title ,x" = .error (.invalidInput (.unknownDetail "title")) := by
  intro details
  obtain ⟨_, _, hlists, hkeys, _⟩ := lists_are_read
  have hplain : Splits "topics,images" ["topics".toList, "images".toList] :=
    splits_iff.2 (by decide)
  have hblanks : Splits " images,, topics\t,images"
      [" images".toList, [], " topics\t".toList, "images".toList] :=
    splits_iff.2 (by decide)
  have hunknown : Splits "images, title ,x" ["images".toList, " title ".toList, "x".toList] :=
    splits_iff.2 (by decide)
  have hread : parseList "topics,images" = .ok details := by
    refine hkeys details [.topics, .images] fun d => ?_
    rw [Std.ExtTreeSet.mem_ofList]
    cases d <;> decide
  refine ⟨hplain, hblanks, hread, ?_, hunknown, ?_⟩
  · refine ((hlists _ _ hplain).2.2.2 _ _ hblanks (fun word hword => ?_) details).1 hread
    have himages : trim " images".toList = "images".toList := by decide
    have htopics : trim " topics\t".toList = "topics".toList := by decide
    have hblank : trim [] = [] := rfl
    have himages' : trim "images".toList = "images".toList := by decide
    have htopics' : trim "topics".toList = "topics".toList := by decide
    simp only [trims_iff, List.mem_cons, List.not_mem_nil, or_false, exists_eq_or_imp,
      exists_eq_left, himages, htopics, hblank, himages', htopics', Ne.symm hword, false_or]
    exact ⟨.inr, fun h => h.elim .inr fun h => h⟩
  · have hfirst : ∀ part ∈ ["images".toList], IsEntry part :=
      List.forall_mem_singleton.2 (.inr ⟨.images, trims_key .images⟩)
    have htitle : Trims " title ".toList "title".toList := trims_iff.2 (by decide)
    have hother : ¬ IsEntry " title ".toList := by
      rintro (hblank | ⟨d, hkey⟩)
      · exact absurd (htitle.trim_eq.symm.trans hblank.trim_eq) (by decide)
      · have heq := htitle.trim_eq.symm.trans hkey.trim_eq
        revert heq
        cases d <;> decide
    exact ((hlists _ _ hunknown).2.2.1 _).2
      ⟨["images".toList], _, ["x".toList], "title", rfl, hfirst, hother, htitle, rfl⟩

end Detail

end MediaCatalogue
