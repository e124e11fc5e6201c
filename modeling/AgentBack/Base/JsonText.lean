import AgentBack.Base.Json
import Mathlib.Algebra.GroupWithZero.Nat

/-!
# What JSON text says

What is written of a value depends on its strings only by what stands between their quotes
(`write_congr`, `ink_write`). What is written of a value whose keys are distinct is read back
(`loads_dumps`). Whatever text is read as a value has distinct keys and at least as many characters,
blanks apart, as what would be written of it (`scanned_of_loads`): no text of a value is shorter than
that.
-/

namespace AgentBack.Json

/-! ## Writing -/

def ink (cs : List Char) : Nat := cs.countP fun c => decide (c ≠ ' ')

theorem ink_nil : ink [] = 0 := rfl

theorem ink_cons (c : Char) (cs : List Char) : ink (c :: cs) = ink [c] + ink cs := by
  unfold ink
  rw [← List.countP_append]
  rfl

theorem ink_append (cs ds : List Char) : ink (cs ++ ds) = ink cs + ink ds := List.countP_append

theorem ink_le_length (cs : List Char) : ink cs ≤ cs.length := List.countP_le_length

theorem ink_mark {c : Char} (hc : c ≠ ' ') (cs : List Char) : ink (c :: cs) = ink cs + 1 :=
  List.countP_cons_of_pos (decide_eq_true hc)

theorem ink_blank (cs : List Char) : ink (' ' :: cs) = ink cs :=
  List.countP_cons_of_neg (by decide)

mutual
theorem write_congr {quote quote' : List Char → List Char} : ∀ v : Value,
    (∀ s ∈ v.texts, quote s = quote' s) → write quote v = write quote' v
  | .null, _ | .bool true, _ | .bool false, _ | .num n, _ => by rw [write, write]
  | .str s, h => by
    rw [write, write, h s (by rw [Value.texts]; exact List.mem_singleton_self s)]
  | .arr [], _ => by rw [write, write]
  | .arr (v :: rest), h => by
    rw [Value.texts, Value.textsItems] at h
    rw [write, write, write_congr v fun s hs => h s (List.mem_append_left _ hs),
      writeItems_congr rest fun s hs => h s (List.mem_append_right _ hs)]
  | .obj [], _ => by rw [write, write]
  | .obj ((key, v) :: rest), h => by
    rw [Value.texts, Value.textsFields] at h
    rw [write, write, h key (.head _),
      write_congr v fun s hs => h s (.tail _ (List.mem_append_left _ hs)),
      writeFields_congr rest fun s hs =>
        h s (.tail _ (List.mem_append_right _ hs))]

theorem writeItems_congr {quote quote' : List Char → List Char} : ∀ items : List Value,
    (∀ s ∈ Value.textsItems items, quote s = quote' s) →
      writeItems quote items = writeItems quote' items
  | [], _ => by rw [writeItems, writeItems]
  | v :: rest, h => by
    rw [Value.textsItems] at h
    rw [writeItems, writeItems, write_congr v fun s hs => h s (List.mem_append_left _ hs),
      writeItems_congr rest fun s hs => h s (List.mem_append_right _ hs)]

theorem writeFields_congr {quote quote' : List Char → List Char} :
    ∀ fields : List (List Char × Value), (∀ s ∈ Value.textsFields fields, quote s = quote' s) →
      writeFields quote fields = writeFields quote' fields
  | [], _ => by rw [writeFields, writeFields]
  | (key, v) :: rest, h => by
    rw [Value.textsFields] at h
    rw [writeFields, writeFields, h key (.head _),
      write_congr v fun s hs => h s (.tail _ (List.mem_append_left _ hs)),
      writeFields_congr rest fun s hs =>
        h s (.tail _ (List.mem_append_right _ hs))]
end

mutual
theorem write_mapTexts (quote f : List Char → List Char) : ∀ v : Value,
    write quote (v.mapTexts f) = write (fun s => quote (f s)) v
  | .null | .bool true | .bool false | .num n | .str s => by rw [Value.mapTexts, write, write]
  | .arr [] => by rw [Value.mapTexts, Value.mapItems, write, write]
  | .arr (v :: rest) => by
    rw [Value.mapTexts, Value.mapItems, write, write, write_mapTexts, writeItems_mapItems]
  | .obj [] => by rw [Value.mapTexts, Value.mapFields, write, write]
  | .obj ((key, v) :: rest) => by
    rw [Value.mapTexts, Value.mapFields, write, write, write_mapTexts, writeFields_mapFields]

theorem writeItems_mapItems (quote f : List Char → List Char) : ∀ items : List Value,
    writeItems quote (Value.mapItems f items) = writeItems (fun s => quote (f s)) items
  | [] => by rw [Value.mapItems, writeItems, writeItems]
  | v :: rest => by
    rw [Value.mapItems, writeItems, writeItems, write_mapTexts, writeItems_mapItems]

theorem writeFields_mapFields (quote f : List Char → List Char) :
    ∀ fields : List (List Char × Value),
      writeFields quote (Value.mapFields f fields) = writeFields (fun s => quote (f s)) fields
  | [] => by rw [Value.mapFields, writeFields, writeFields]
  | (key, v) :: rest => by
    rw [Value.mapFields, writeFields, writeFields, write_mapTexts, writeFields_mapFields]
end

section
variable {quote quote' : List Char → List Char} {gap : List Char → Nat}

mutual
/-- Two ways to write the strings differ in the whole text by what they differ in each string. -/
theorem ink_write (h : ∀ s, ink (quote s) + gap s = ink (quote' s)) : ∀ v : Value,
    ink (write quote v) + (v.texts.map gap).sum = ink (write quote' v)
  | .null | .bool true | .bool false | .num n => rfl
  | .str s => by
    have hs := h s
    rw [write, write, Value.texts, List.map_singleton, List.sum_singleton, ink_mark (by decide),
      ink_mark (by decide), ink_append, ink_append]
    omega
  | .arr [] => rfl
  | .arr (v :: rest) => by
    have hv := ink_write h v
    have hrest := ink_writeItems h rest
    rw [write, write, Value.texts, Value.textsItems, List.map_append, List.sum_append]
    simp (disch := decide) only [ink_mark, ink_append]
    omega
  | .obj [] => rfl
  | .obj ((key, v) :: rest) => by
    have hkey := h key
    have hv := ink_write h v
    have hrest := ink_writeFields h rest
    rw [write, write, Value.texts, Value.textsFields, List.map_cons, List.sum_cons,
      List.map_append, List.sum_append]
    simp (disch := decide) only [ink_mark, ink_blank, ink_append]
    omega

theorem ink_writeItems (h : ∀ s, ink (quote s) + gap s = ink (quote' s)) : ∀ items : List Value,
    ink (writeItems quote items) + ((Value.textsItems items).map gap).sum =
      ink (writeItems quote' items)
  | [] => rfl
  | v :: rest => by
    have hv := ink_write h v
    have hrest := ink_writeItems h rest
    rw [writeItems, writeItems, Value.textsItems, List.map_append, List.sum_append]
    simp (disch := decide) only [ink_mark, ink_blank, ink_append]
    omega

theorem ink_writeFields (h : ∀ s, ink (quote s) + gap s = ink (quote' s)) :
    ∀ fields : List (List Char × Value),
      ink (writeFields quote fields) + ((Value.textsFields fields).map gap).sum =
        ink (writeFields quote' fields)
  | [] => rfl
  | (key, v) :: rest => by
    have hkey := h key
    have hv := ink_write h v
    have hrest := ink_writeFields h rest
    rw [writeFields, writeFields, Value.textsFields, List.map_cons, List.sum_cons,
      List.map_append, List.sum_append]
    simp (disch := decide) only [ink_mark, ink_blank, ink_append]
    omega
end

end

def fieldInk (field : List Char × Value) : Nat := ink (escape field.1) + 3 + ink (dumps field.2)

theorem ink_writeFields_eq (fields : List (List Char × Value)) :
    ink (writeFields escape fields) = (fields.map fun field => fieldInk field + 1).sum := by
  induction fields with
  | nil => rfl
  | cons field rest ih =>
    obtain ⟨key, v⟩ := field
    have hfield : fieldInk (key, v) = ink (escape key) + 3 + ink (write escape v) := rfl
    rw [writeFields, List.map_cons, List.sum_cons, hfield]
    simp (disch := decide) only [ink_mark, ink_blank, ink_append]
    omega

theorem ink_dumps_obj {fields : List (List Char × Value)} (hne : fields ≠ []) :
    ink (dumps (.obj fields)) = (fields.map fun field => fieldInk field + 1).sum + 1 := by
  obtain ⟨⟨key, v⟩, rest, rfl⟩ := List.exists_cons_of_ne_nil hne
  have hfield : fieldInk (key, v) = ink (escape key) + 3 + ink (write escape v) := rfl
  unfold dumps
  rw [write, List.map_cons, List.sum_cons, hfield, ← ink_writeFields_eq]
  simp (disch := decide) only [ink_mark, ink_blank, ink_append, ink_nil]
  omega

/-! ## What was read -/

theorem ink_skipSpace_le (cs : List Char) : ink (skipSpace cs) ≤ ink cs :=
  (List.dropWhile_sublist isJsonSpace).countP_le

theorem length_escapeChar_le (c : Char) : (escapeChar c).length ≤ 6 := by
  unfold escapeChar
  split_ifs <;> simp only [List.length_cons, List.length_nil] <;> omega

theorem ink_of_hexValue {c : Char} {n : Nat} (h : hexValue c = some n) (cs : List Char) :
    ink (c :: cs) = ink cs + 1 := by
  apply ink_mark
  rintro rfl
  revert h
  exact fun h => by cases h

theorem ink_scanUnit {cs rest : List Char} {n : Nat} (h : scanUnit cs = some (n, rest)) :
    ink cs = ink rest + 4 := by
  unfold scanUnit at h
  split at h
  · split at h
    · next ha hb hc hd =>
      cases h
      rw [ink_of_hexValue ha, ink_of_hexValue hb, ink_of_hexValue hc, ink_of_hexValue hd]
    · cases h
  · cases h

theorem ink_scanUnicode {cs rest : List Char} {c : Char} (h : scanUnicode cs = some (c, rest)) :
    ink rest + 4 ≤ ink cs := by
  unfold scanUnicode at h
  split at h
  · cases h
  · next high tail hhigh =>
    rw [ink_scanUnit hhigh]
    split at h
    · split at h
      · split at h
        · cases h
        · next low tail' hlow =>
          split at h
          · have hrest := (Prod.mk.inj (Option.some.inj h)).2
            simp (disch := decide) only [ink_mark, ink_scanUnit hlow, hrest]
            omega
          · cases h
      · cases h
    · split at h
      · cases h
      · cases h
        exact Nat.le_refl _

/-- An escape has no fewer characters than the one that is written for its character. -/
theorem ink_unescape {cs rest : List Char} {c : Char} (h : unescape cs = some (c, rest)) :
    ink (escapeChar c) + ink rest ≤ ink cs + 1 := by
  have hshort : ∀ d e : Char, e ≠ ' ' → ink (escapeChar d) ≤ 2 → ∀ tail : List Char,
      ink (escapeChar d) + ink tail ≤ ink (e :: tail) + 1 := by
    intro d e he hle tail
    rw [ink_mark he]
    omega
  unfold unescape at h
  split at h
  case h_9 tail =>
    have hlong := ink_scanUnicode h
    have hle := Nat.le_trans (ink_le_length _) (length_escapeChar_le c)
    rw [ink_mark (by decide)]
    omega
  case h_10 => cases h
  all_goals
    cases h
    exact hshort _ _ (by decide) (by decide) _

theorem ink_escape_cons (c : Char) (s : List Char) :
    ink (escape (c :: s)) = ink (escapeChar c) + ink (escape s) := by
  unfold escape
  rw [List.flatMap_cons, ink_append]

variable {fuel : Nat}

theorem ink_scanString {cs s rest : List Char} (h : scanString fuel cs = some (s, rest)) :
    ink (escape s) + ink rest + 1 ≤ ink cs := by
  induction fuel generalizing cs s with
  | zero => cases h
  | succ fuel ih =>
    cases cs with
    | nil => cases h
    | cons c cs =>
      rw [scanString] at h
      split at h
      · next hquote =>
        cases h
        have hnone : ink (escape []) = 0 := rfl
        have hscanned : ink (escape []) + ink rest + 1 = ink (c :: rest) := by
          rw [hquote, ink_mark (by decide), hnone, Nat.zero_add]
        exact Nat.le_of_eq hscanned
      next hquote =>
      split at h
      · next hslash =>
        split at h
        · cases h
        · next d tail hunescape =>
          obtain ⟨⟨s', rest'⟩, hfound, heq⟩ := Option.map_eq_some_iff.mp h
          simp only [Prod.mk.injEq] at heq
          obtain ⟨rfl, rfl⟩ := heq
          have htail := ih hfound
          have hchar := ink_unescape hunescape
          rw [ink_escape_cons, hslash, ink_mark (by decide)]
          omega
      next hslash =>
      split at h
      · cases h
      · next hcontrol =>
        obtain ⟨⟨s', rest'⟩, hfound, heq⟩ := Option.map_eq_some_iff.mp h
        simp only [Prod.mk.injEq] at heq
        obtain ⟨rfl, rfl⟩ := heq
        have htail := ih hfound
        have hplain : ink (escapeChar c) = ink [c] := by
          have hlow : ∀ d : Char, d.toNat < 0x20 → c ≠ d := by
            rintro d hd rfl
            exact hcontrol hd
          unfold escapeChar
          rw [if_neg hquote, if_neg hslash, if_neg (hlow _ (by decide)),
            if_neg (hlow _ (by decide)), if_neg (hlow _ (by decide)), if_neg (hlow _ (by decide)),
            if_neg (hlow _ (by decide)), if_neg hcontrol]
        rw [ink_escape_cons, hplain, ink_cons c cs]
        omega

theorem ink_scanNumber {cs rest : List Char} {n : Number} (h : scanNumber cs = some (n, rest)) :
    ink n.text + ink rest ≤ ink cs := by
  unfold scanNumber at h
  split at h
  · cases h
    apply Nat.le_of_eq
    rw [← ink_append, List.takeWhile_append_dropWhile]
  · cases h

/-- A value with distinct keys, read off the front of a text that is no shorter than what would be
written of it. -/
structure Scanned (v : Value) (cs rest : List Char) : Prop where
  distinct : v.distinct = true
  ink_le : ink (dumps v) + ink rest ≤ ink cs

structure ScannedItems (items : List Value) (cs rest : List Char) : Prop where
  distinct : Value.distinctItems items = true
  ink_le : ink (writeItems escape items) + ink rest + 1 ≤ ink cs

structure ScannedField (field : List Char × Value) (cs rest : List Char) : Prop where
  distinct : field.2.distinct = true
  ink_le : fieldInk field + ink rest ≤ ink cs

structure ScannedFields (fields : List (List Char × Value)) (cs rest : List Char) : Prop where
  distinct : Value.distinctFields fields = true
  ink_le : (fields.map fun field => fieldInk field + 1).sum + ink rest + 1 ≤ ink cs

theorem distinctFields_iff (fields : List (List Char × Value)) :
    Value.distinctFields fields = true ↔ ∀ field ∈ fields, field.2.distinct = true := by
  induction fields with
  | nil => exact iff_of_true rfl fun field hmem => by cases hmem
  | cons field rest ih =>
    obtain ⟨key, v⟩ := field
    rw [Value.distinctFields, Bool.and_eq_true, ih, List.forall_mem_cons]

/-- The dictionary of the fields is no larger than the fields. -/
theorem sum_ofList_le (weight : List Char × Value → Nat) (fields : List (List Char × Value)) :
    ((Dict.ofList fields).items.map weight).sum ≤ (fields.map weight).sum := by
  have hassign : ∀ (key : List Char) (v : Value) (items : List (List Char × Value)),
      ((Dict.assign key v items).map weight).sum ≤ (items.map weight).sum + weight (key, v) := by
    intro key v items
    induction items with
    | nil =>
      rw [Dict.assign, List.map_singleton, List.sum_singleton]
      exact Nat.le_add_left _ _
    | cons item rest ih =>
      obtain ⟨key', v'⟩ := item
      rw [Dict.assign]
      split
      · rw [List.map_cons, List.sum_cons, List.map_cons, List.sum_cons]
        omega
      · rw [List.map_cons, List.sum_cons, List.map_cons, List.sum_cons]
        omega
  induction fields using List.reverseRecOn with
  | nil => exact Nat.le_refl _
  | append_singleton fields field ih =>
    obtain ⟨key, v⟩ := field
    have hset := hassign key v (Dict.ofList fields).items
    have hitems : (Dict.ofList (fields ++ [(key, v)])).items =
        Dict.assign key v (Dict.ofList fields).items := by
      unfold Dict.ofList
      rw [List.foldl_append]
      rfl
    rw [hitems, List.map_append, List.sum_append, List.map_singleton, List.sum_singleton]
    omega

theorem scanned_obj {fields : List (List Char × Value)} (hne : fields ≠ []) {cs rest : List Char}
    (hdistinct : Value.distinctFields fields = true)
    (hink : (fields.map fun field => fieldInk field + 1).sum + ink rest + 1 ≤ ink cs) :
    Scanned (.obj (Dict.ofList fields).items) cs rest where
  distinct := by
    rw [Value.distinct, Bool.and_eq_true, decide_eq_true_eq, distinctFields_iff]
    refine ⟨(Dict.ofList fields).nodup, fun field hmem => ?_⟩
    exact (distinctFields_iff fields).mp hdistinct field
      (Dict.mem_of_get?_ofList (Dict.get?_eq_some_iff.mpr hmem))
  ink_le := by
    have hitems : (Dict.ofList fields).items ≠ [] := by
      obtain ⟨field, tail, rfl⟩ := List.exists_cons_of_ne_nil hne
      have hsome : ((Dict.ofList (field :: tail)).get? field.1).isSome :=
        Dict.isSome_get?_ofList (.head _)
      obtain ⟨v, hv⟩ := Option.isSome_iff_exists.mp hsome
      exact List.ne_nil_of_mem (Dict.get?_eq_some_iff.mp hv)
    have hsum := sum_ofList_le (fun field => fieldInk field + 1) fields
    rw [ink_dumps_obj hitems]
    omega

/-- What `fuel` steps of the reader return. -/
structure Scans (fuel : Nat) : Prop where
  value : ∀ {cs v rest}, scanValue fuel cs = some (v, rest) → Scanned v cs rest
  items : ∀ {cs items rest}, scanItems fuel cs = some (items, rest) → ScannedItems items cs rest
  field : ∀ {cs field rest}, scanField fuel cs = some (field, rest) → ScannedField field cs rest
  fields : ∀ {cs fields rest}, scanFields fuel cs = some (fields, rest) →
    ScannedFields fields cs rest

theorem scanned_value (ih : Scans fuel) {cs rest : List Char} {v : Value}
    (h : scanValue (fuel + 1) cs = some (v, rest)) : Scanned v cs rest := by
  unfold scanValue at h
  split at h
  case h_1 tail =>
    obtain ⟨⟨s, rest'⟩, hfound, heq⟩ := Option.map_eq_some_iff.mp h
    cases heq
    refine ⟨rfl, ?_⟩
    have hink := ink_scanString hfound
    have hdumps : dumps (.str s) = '"' :: (escape s ++ ['"']) := rfl
    rw [hdumps]
    simp (disch := decide) only [ink_mark, ink_append, ink_nil]
    omega
  case h_2 tail =>
    have hspace := ink_skipSpace_le tail
    split at h
    · next tail' hbracket =>
      cases h
      have hdumps : ink (dumps (.arr [])) = 2 := by decide
      rw [hbracket, ink_mark (by decide)] at hspace
      refine ⟨rfl, ?_⟩
      rw [ink_mark (by decide), hdumps]
      omega
    · split at h
      · cases h
      · next v' tail' hvalue =>
        obtain ⟨⟨items, rest'⟩, hfound, heq⟩ := Option.map_eq_some_iff.mp h
        cases heq
        obtain ⟨hfirst, hfirst_ink⟩ := ih.value hvalue
        obtain ⟨hitems, hitems_ink⟩ := ih.items hfound
        have hdumps : dumps (.arr (v' :: items)) =
            '[' :: (dumps v' ++ (writeItems escape items ++ [']'])) := rfl
        refine ⟨?_, ?_⟩
        · rw [Value.distinct, Value.distinctItems, hfirst, hitems]
          rfl
        · rw [hdumps]
          simp (disch := decide) only [ink_mark, ink_append, ink_nil]
          omega
  case h_3 tail =>
    have hspace := ink_skipSpace_le tail
    split at h
    · next tail' hbrace =>
      cases h
      have hdumps : ink (dumps (.obj [])) = 2 := by decide
      rw [hbrace, ink_mark (by decide)] at hspace
      refine ⟨rfl, ?_⟩
      rw [ink_mark (by decide), hdumps]
      omega
    · split at h
      · cases h
      · next field tail' hfield =>
        obtain ⟨⟨fields, rest'⟩, hfound, heq⟩ := Option.map_eq_some_iff.mp h
        simp only [Prod.mk.injEq] at heq
        obtain ⟨rfl, rfl⟩ := heq
        obtain ⟨hfirst, hfirst_ink⟩ := ih.field hfield
        obtain ⟨hfields, hfields_ink⟩ := ih.fields hfound
        obtain ⟨key, v'⟩ := field
        apply scanned_obj (List.cons_ne_nil _ _)
        · rw [Value.distinctFields, hfields, hfirst]
          rfl
        · rw [List.map_cons, List.sum_cons, ink_mark (by decide)]
          omega
  case h_4 | h_5 | h_6 =>
    cases h
    refine ⟨rfl, ?_⟩
    simp (disch := decide) only [dumps, write, ink_mark, ink_nil]
    omega
  case h_7 =>
    obtain ⟨⟨n, rest'⟩, hfound, heq⟩ := Option.map_eq_some_iff.mp h
    cases heq
    exact ⟨rfl, ink_scanNumber hfound⟩

theorem scanned_items (ih : Scans fuel) {cs rest : List Char} {items : List Value}
    (h : scanItems (fuel + 1) cs = some (items, rest)) : ScannedItems items cs rest := by
  have hspace := ink_skipSpace_le cs
  unfold scanItems at h
  split at h
  · next tail hbracket =>
    cases h
    rw [hbracket, ink_mark (by decide)] at hspace
    exact ⟨rfl, by rw [writeItems, ink_nil]; omega⟩
  · next tail hcomma =>
    rw [hcomma, ink_mark (by decide)] at hspace
    have hblank := ink_skipSpace_le tail
    split at h
    · cases h
    · next v tail' hvalue =>
      obtain ⟨⟨items', rest'⟩, hfound, heq⟩ := Option.map_eq_some_iff.mp h
      cases heq
      obtain ⟨hfirst, hfirst_ink⟩ := ih.value hvalue
      obtain ⟨hitems, hitems_ink⟩ := ih.items hfound
      have hwrite : writeItems escape (v :: items') =
          ',' :: ' ' :: (dumps v ++ writeItems escape items') := rfl
      refine ⟨?_, ?_⟩
      · rw [Value.distinctItems, hfirst, hitems]
        rfl
      · rw [hwrite]
        simp (disch := decide) only [ink_mark, ink_blank, ink_append]
        omega
  · cases h

theorem scanned_field (ih : Scans fuel) {cs rest : List Char} {field : List Char × Value}
    (h : scanField (fuel + 1) cs = some (field, rest)) :
    ScannedField field cs rest := by
  unfold scanField at h
  split at h
  · next tail =>
    split at h
    · cases h
    · next key tail' hkey =>
      have hkey_ink := ink_scanString hkey
      have hspace := ink_skipSpace_le tail'
      split at h
      · next tail'' hcolon =>
        rw [hcolon, ink_mark (by decide)] at hspace
        have hblank := ink_skipSpace_le tail''
        obtain ⟨⟨v, rest'⟩, hfound, heq⟩ := Option.map_eq_some_iff.mp h
        cases heq
        obtain ⟨hvalue, hvalue_ink⟩ := ih.value hfound
        refine ⟨hvalue, ?_⟩
        unfold fieldInk
        rw [ink_mark (by decide)]
        simp only
        omega
      · cases h
  · cases h

theorem scanned_fields (ih : Scans fuel) {cs rest : List Char} {fields : List (List Char × Value)}
    (h : scanFields (fuel + 1) cs = some (fields, rest)) :
    ScannedFields fields cs rest := by
  have hspace := ink_skipSpace_le cs
  unfold scanFields at h
  split at h
  · next tail hbrace =>
    cases h
    rw [hbrace, ink_mark (by decide)] at hspace
    exact ⟨rfl, by rw [List.map_nil, List.sum_nil]; omega⟩
  · next tail hcomma =>
    rw [hcomma, ink_mark (by decide)] at hspace
    have hblank := ink_skipSpace_le tail
    split at h
    · cases h
    · next field tail' hfield =>
      obtain ⟨⟨fields', rest'⟩, hfound, heq⟩ := Option.map_eq_some_iff.mp h
      simp only [Prod.mk.injEq] at heq
      obtain ⟨rfl, rfl⟩ := heq
      obtain ⟨hfirst, hfirst_ink⟩ := ih.field hfield
      obtain ⟨hfields, hfields_ink⟩ := ih.fields hfound
      obtain ⟨key, v⟩ := field
      refine ⟨?_, ?_⟩
      · rw [Value.distinctFields, hfields, hfirst]
        rfl
      · rw [List.map_cons, List.sum_cons]
        omega
  · cases h

theorem scans (fuel : Nat) : Scans fuel := by
  induction fuel with
  | zero =>
    constructor
    all_goals
      intro _ _ _ h
      cases h
  | succ fuel ih => exact ⟨scanned_value ih, scanned_items ih, scanned_field ih, scanned_fields ih⟩

/-- **No text of a value is shorter.** What is read has distinct keys, and its text has at least as
many characters, blanks apart, as what is written of it. -/
theorem scanned_of_loads {text : List Char} {v : Value} (h : loads text = some v) :
    v.distinct = true ∧ ink (dumps v) ≤ ink text := by
  unfold loads at h
  split at h
  · next found rest hscan =>
    split at h
    · cases h
      obtain ⟨hdistinct, hink⟩ := (scans _).value hscan
      have hspace := ink_skipSpace_le text
      exact ⟨hdistinct, by omega⟩
    · cases h
  · cases h

/-! ## What was written is read back -/

theorem skipSpace_of_not {c : Char} (hc : isJsonSpace c = false) (cs : List Char) :
    skipSpace (c :: cs) = c :: cs :=
  List.dropWhile_cons_of_neg (by rw [hc]; decide)

theorem skipSpace_blank (cs : List Char) : skipSpace (' ' :: cs) = skipSpace cs :=
  List.dropWhile_cons_of_pos (by decide)

theorem scanUnit_control {n : Nat} (hn : n < 32) (tail : List Char) :
    scanUnit ('0' :: '0' :: hexDigit (n / 16) :: hexDigit (n % 16) :: tail) = some (n, tail) := by
  have hdigits : ∀ n < 32, hexValue (hexDigit (n / 16)) = some (n / 16) ∧
      hexValue (hexDigit (n % 16)) = some (n % 16) := by decide
  have hzero : hexValue '0' = some 0 := by decide
  obtain ⟨hhigh, hlow⟩ := hdigits n hn
  unfold scanUnit
  simp only
  rw [hzero, hhigh, hlow]
  simp only [Option.some.injEq, Prod.mk.injEq, and_true]
  omega

theorem scanUnicode_control {c : Char} (hc : c.toNat < 32) (tail : List Char) :
    scanUnicode ('0' :: '0' :: hexDigit (c.toNat / 16) :: hexDigit (c.toNat % 16) :: tail) =
      some (c, tail) := by
  unfold scanUnicode
  rw [scanUnit_control hc]
  simp only
  rw [if_neg (by omega), if_neg (by omega), Char.ofNat_toNat]

/-- The reader takes back what is written for a character. -/
theorem scanString_escapeChar (fuel : Nat) (c : Char) (tail : List Char) :
    scanString (fuel + 1) (escapeChar c ++ tail) =
      (scanString fuel tail).map fun found => (c :: found.1, found.2) := by
  have hescape : ∀ cs, unescape cs = some (c, tail) → scanString (fuel + 1) ('\\' :: cs) =
      (scanString fuel tail).map fun found => (c :: found.1, found.2) := by
    intro cs h
    rw [scanString, if_neg (by decide), if_pos rfl, h]
  unfold escapeChar
  split
  · next h => exact hescape _ (by rw [h]; rfl)
  split
  · next h => exact hescape _ (by rw [h]; rfl)
  split
  · next h => exact hescape _ (by rw [h]; rfl)
  split
  · next h => exact hescape _ (by rw [h]; rfl)
  split
  · next h => exact hescape _ (by rw [h]; rfl)
  split
  · next h => exact hescape _ (by rw [h]; rfl)
  split
  · next h => exact hescape _ (by rw [h]; rfl)
  split
  · next hcontrol => exact hescape _ (scanUnicode_control hcontrol tail)
  · next hquote hslash _ _ _ _ _ hcontrol =>
    rw [List.singleton_append, scanString, if_neg hquote, if_neg hslash, if_neg hcontrol]

theorem length_le_escape (s : List Char) : s.length ≤ (escape s).length := by
  induction s with
  | nil => exact Nat.zero_le _
  | cons c s ih =>
    have hc : 1 ≤ (escapeChar c).length := by
      unfold escapeChar
      split_ifs <;> simp only [List.length_cons, List.length_nil] <;> omega
    have hcons : escape (c :: s) = escapeChar c ++ escape s := List.flatMap_cons
    rw [hcons, List.length_append, List.length_cons]
    omega

theorem scanString_escape {s : List Char} (hfuel : s.length < fuel) (tail : List Char) :
    scanString fuel (escape s ++ '"' :: tail) = some (s, tail) := by
  induction s generalizing fuel with
  | nil =>
    cases fuel with
    | zero => cases hfuel
    | succ fuel =>
      have hnil : escape [] = [] := rfl
      rw [hnil, List.nil_append, scanString, if_pos rfl]
  | cons c s ih =>
    cases fuel with
    | zero => cases hfuel
    | succ fuel =>
      have hcons : escape (c :: s) = escapeChar c ++ escape s := List.flatMap_cons
      rw [hcons, List.append_assoc, scanString_escapeChar, ih (Nat.lt_of_succ_lt_succ hfuel)]
      rfl

theorem scanString_front (s tail : List Char) :
    scanString (escape s ++ '"' :: tail).length (escape s ++ '"' :: tail) = some (s, tail) := by
  apply scanString_escape
  have hle := length_le_escape s
  rw [List.length_append, List.length_cons]
  omega

/-- What may stand behind a number. -/
def Follows (rest : List Char) : Prop := ∀ c, rest.head? = some c → isNumberChar c = false

theorem follows_cons {c : Char} (hc : isNumberChar c = false) (rest : List Char) :
    Follows (c :: rest) := by
  intro d hd
  cases hd
  exact hc

theorem follows_writeItems (items : List Value) (rest : List Char) :
    Follows (writeItems escape items ++ ']' :: rest) := by
  cases items with
  | nil | cons v items => exact follows_cons (by decide) _

theorem follows_writeFields (fields : List (List Char × Value)) (rest : List Char) :
    Follows (writeFields escape fields ++ '}' :: rest) := by
  cases fields with
  | nil | cons field fields => exact follows_cons (by decide) _

theorem Number.all_text (n : Number) : ∀ c ∈ n.text, isNumberChar c = true := by
  have hvalid := n.valid
  unfold isNumber at hvalid
  rw [Bool.and_eq_true] at hvalid
  exact List.all_eq_true.mp hvalid.1

theorem Number.text_ne_nil (n : Number) : n.text ≠ [] := by
  intro hnil
  have hvalid := n.valid
  rw [hnil] at hvalid
  cases hvalid

theorem scanNumber_text (n : Number) {rest : List Char} (h : Follows rest) :
    scanNumber (n.text ++ rest) = some (n, rest) := by
  have htake : rest.takeWhile isNumberChar = [] := by
    cases rest with
    | nil => rfl
    | cons c rest => exact List.takeWhile_cons_of_neg (by rw [h c rfl]; decide)
  have hdrop : rest.dropWhile isNumberChar = rest := by
    cases rest with
    | nil => rfl
    | cons c rest => exact List.dropWhile_cons_of_neg (by rw [h c rfl]; decide)
  have htext : (n.text ++ rest).takeWhile isNumberChar = n.text := by
    rw [List.takeWhile_append_of_pos n.all_text, htake, List.append_nil]
  have hrest : (n.text ++ rest).dropWhile isNumberChar = rest := by
    rw [List.dropWhile_append_of_pos n.all_text, hdrop]
  obtain ⟨text, valid⟩ := n
  simp only at htext hrest
  unfold scanNumber
  simp only [htext, hrest]
  exact dif_pos valid

theorem scanValue_number {c : Char} (hc : isNumberChar c = true) (fuel : Nat) (cs : List Char) :
    scanValue (fuel + 1) (c :: cs) =
      (scanNumber (c :: cs)).map fun found => (.num found.1, found.2) := by
  unfold scanValue
  split
  case h_7 => rfl
  all_goals
    next heq =>
    rw [(List.cons.inj heq).1] at hc
    exact absurd hc (by decide)

theorem head_write (v : Value) : ∃ c cs, dumps v = c :: cs ∧ isJsonSpace c = false ∧ c ≠ ']' := by
  cases v with
  | null => exact ⟨_, _, rfl, by decide, by decide⟩
  | bool b => cases b <;> exact ⟨_, _, rfl, by decide, by decide⟩
  | num n =>
    obtain ⟨c, cs, htext⟩ := List.exists_cons_of_ne_nil n.text_ne_nil
    have hc : isNumberChar c = true := n.all_text c (by rw [htext]; exact .head _)
    refine ⟨c, cs, htext, ?_, ?_⟩
    · apply Bool.eq_false_iff.mpr
      intro hspace
      unfold isJsonSpace at hspace
      rcases of_decide_eq_true hspace with rfl | rfl | rfl | rfl <;> exact absurd hc (by decide)
    · rintro rfl
      exact absurd hc (by decide)
  | str s => exact ⟨_, _, rfl, by decide, by decide⟩
  | arr items => cases items <;> exact ⟨_, _, rfl, by decide, by decide⟩
  | obj fields => cases fields <;> exact ⟨_, _, rfl, by decide, by decide⟩

theorem skipSpace_dumps (v : Value) (rest : List Char) :
    skipSpace (dumps v ++ rest) = dumps v ++ rest := by
  obtain ⟨c, cs, heq, hspace, -⟩ := head_write v
  rw [heq, List.cons_append, skipSpace_of_not hspace]

/-- A field is read back when its value is. -/
theorem scanField_front (key : List Char) {v : Value} {rest : List Char}
    (hvalue : scanValue fuel (dumps v ++ rest) = some (v, rest)) :
    scanField (fuel + 1) ('"' :: (escape key ++ '"' :: ':' :: ' ' :: (dumps v ++ rest))) =
      some ((key, v), rest) := by
  unfold scanField
  simp only
  rw [scanString_front]
  simp only
  rw [skipSpace_of_not (by decide)]
  simp only
  rw [skipSpace_blank, skipSpace_dumps, hvalue]
  rfl

mutual
theorem scanValue_dumps : ∀ v : Value, v.distinct = true → ∀ {fuel : Nat} {rest : List Char},
    (dumps v).length ≤ fuel → Follows rest → scanValue fuel (dumps v ++ rest) = some (v, rest)
  | .null, _, fuel, rest, hfuel, _ => by
    cases fuel with
    | zero => cases hfuel
    | succ fuel => rfl
  | .bool true, _, fuel, rest, hfuel, _ | .bool false, _, fuel, rest, hfuel, _ => by
    cases fuel with
    | zero => cases hfuel
    | succ fuel => rfl
  | .num n, _, fuel, rest, hfuel, hrest => by
    have hdumps : dumps (.num n) = n.text := rfl
    obtain ⟨c, cs, htext⟩ := List.exists_cons_of_ne_nil n.text_ne_nil
    have hc : isNumberChar c = true := n.all_text c (by rw [htext]; exact .head _)
    rw [hdumps] at hfuel ⊢
    cases fuel with
    | zero =>
      rw [htext] at hfuel
      cases hfuel
    | succ fuel =>
      have hscan := scanNumber_text n hrest
      rw [htext, List.cons_append] at hscan ⊢
      rw [scanValue_number hc, hscan]
      rfl
  | .str s, _, fuel, rest, hfuel, _ => by
    have hdumps : dumps (.str s) ++ rest = '"' :: (escape s ++ '"' :: rest) := by
      unfold dumps
      rw [write, List.cons_append, List.append_assoc]
      rfl
    cases fuel with
    | zero => cases hfuel
    | succ fuel =>
      rw [hdumps, scanValue, scanString_front]
      rfl
  | .arr [], _, fuel, rest, hfuel, _ => by
    cases fuel with
    | zero => cases hfuel
    | succ fuel => rfl
  | .arr (v :: items), hdistinct, fuel, rest, hfuel, _ => by
    rw [Value.distinct, Value.distinctItems, Bool.and_eq_true] at hdistinct
    have hdumps : dumps (.arr (v :: items)) =
        '[' :: (dumps v ++ (writeItems escape items ++ [']'])) := rfl
    rw [hdumps, List.length_cons, List.length_append, List.length_append, List.length_singleton]
      at hfuel
    have hfollows := follows_writeItems items rest
    cases fuel with
    | zero => cases hfuel
    | succ fuel =>
      have hvalue : scanValue fuel _ = _ := scanValue_dumps v hdistinct.1 (by omega) hfollows
      have hitems : scanItems fuel (writeItems escape items ++ ']' :: rest) = _ :=
        scanItems_write items hdistinct.2 (by omega)
      obtain ⟨c, cs, hhead, -, hne⟩ := head_write v
      have htext : dumps (.arr (v :: items)) ++ rest =
          '[' :: (dumps v ++ (writeItems escape items ++ ']' :: rest)) := by
        rw [hdumps, List.cons_append, List.append_assoc, List.append_assoc]
        rfl
      rw [htext, scanValue, skipSpace_dumps]
      split
      · next tail heq =>
        rw [hhead] at heq
        exact absurd (List.cons.inj heq).1 hne
      · rw [hvalue]
        simp only
        rw [hitems]
        rfl
  | .obj [], _, fuel, rest, hfuel, _ => by
    cases fuel with
    | zero => cases hfuel
    | succ fuel => rfl
  | .obj ((key, v) :: fields), hdistinct, fuel, rest, hfuel, _ => by
    rw [Value.distinct, Value.distinctFields, Bool.and_eq_true, Bool.and_eq_true,
      decide_eq_true_eq] at hdistinct
    have hdumps : dumps (.obj ((key, v) :: fields)) = '{' :: '"' :: (escape key ++
        '"' :: ':' :: ' ' :: (dumps v ++ (writeFields escape fields ++ ['}']))) := rfl
    rw [hdumps] at hfuel
    simp only [List.length_cons, List.length_append, List.length_nil] at hfuel
    have hfollows := follows_writeFields fields rest
    cases fuel with
    | zero => cases hfuel
    | succ fuel =>
    cases fuel with
    | zero => omega
    | succ fuel =>
      have hvalue : scanValue fuel _ = _ := scanValue_dumps v hdistinct.2.1 (by omega) hfollows
      have hfields : scanFields (fuel + 1) (writeFields escape fields ++ '}' :: rest) = _ :=
        scanFields_write fields hdistinct.2.2 (by omega)
      have htext : dumps (.obj ((key, v) :: fields)) ++ rest = '{' :: '"' :: (escape key ++
          '"' :: ':' :: ' ' :: (dumps v ++ (writeFields escape fields ++ '}' :: rest))) := by
        rw [hdumps]
        simp only [List.cons_append, List.append_assoc, List.nil_append]
      rw [htext, scanValue, skipSpace_of_not (by decide)]
      show (match scanField (fuel + 1) _ with | none => none | some (field, rest) => _) = _
      rw [scanField_front key hvalue]
      simp only
      rw [hfields]
      simp only [Option.map_some]
      rw [Dict.items_ofList_of_nodup hdistinct.1]

theorem scanItems_write : ∀ items : List Value, Value.distinctItems items = true →
    ∀ {fuel : Nat} {rest : List Char}, (writeItems escape items).length < fuel →
      scanItems fuel (writeItems escape items ++ ']' :: rest) = some (items, rest)
  | [], _, fuel, rest, hfuel => by
    cases fuel with
    | zero => cases hfuel
    | succ fuel => rfl
  | v :: items, hdistinct, fuel, rest, hfuel => by
    rw [Value.distinctItems, Bool.and_eq_true] at hdistinct
    have hwrite : writeItems escape (v :: items) =
        ',' :: ' ' :: (dumps v ++ writeItems escape items) := rfl
    rw [hwrite] at hfuel
    simp only [List.length_cons, List.length_append] at hfuel
    have hfollows := follows_writeItems items rest
    cases fuel with
    | zero => cases hfuel
    | succ fuel =>
      have hvalue : scanValue fuel _ = _ := scanValue_dumps v hdistinct.1 (by omega) hfollows
      have hitems : scanItems fuel (writeItems escape items ++ ']' :: rest) = _ :=
        scanItems_write items hdistinct.2 (by omega)
      have htext : writeItems escape (v :: items) ++ ']' :: rest =
          ',' :: ' ' :: (dumps v ++ (writeItems escape items ++ ']' :: rest)) := by
        rw [hwrite, List.cons_append, List.cons_append, List.append_assoc]
      rw [htext, scanItems, skipSpace_of_not (by decide)]
      simp only
      rw [skipSpace_blank, skipSpace_dumps, hvalue]
      simp only
      rw [hitems]
      rfl

theorem scanFields_write : ∀ fields : List (List Char × Value),
    Value.distinctFields fields = true → ∀ {fuel : Nat} {rest : List Char},
      (writeFields escape fields).length < fuel →
        scanFields fuel (writeFields escape fields ++ '}' :: rest) = some (fields, rest)
  | [], _, fuel, rest, hfuel => by
    cases fuel with
    | zero => cases hfuel
    | succ fuel => rfl
  | (key, v) :: fields, hdistinct, fuel, rest, hfuel => by
    rw [Value.distinctFields, Bool.and_eq_true] at hdistinct
    have hwrite : writeFields escape ((key, v) :: fields) = ',' :: ' ' :: '"' :: (escape key ++
        '"' :: ':' :: ' ' :: (dumps v ++ writeFields escape fields)) := rfl
    rw [hwrite] at hfuel
    simp only [List.length_cons, List.length_append] at hfuel
    have hfollows := follows_writeFields fields rest
    cases fuel with
    | zero => cases hfuel
    | succ fuel =>
    cases fuel with
    | zero => omega
    | succ fuel =>
      have hvalue : scanValue fuel _ = _ := scanValue_dumps v hdistinct.1 (by omega) hfollows
      have hfields : scanFields (fuel + 1) (writeFields escape fields ++ '}' :: rest) = _ :=
        scanFields_write fields hdistinct.2 (by omega)
      have htext : writeFields escape ((key, v) :: fields) ++ '}' :: rest =
          ',' :: ' ' :: '"' :: (escape key ++
            '"' :: ':' :: ' ' :: (dumps v ++ (writeFields escape fields ++ '}' :: rest))) := by
        rw [hwrite]
        simp only [List.cons_append, List.append_assoc]
      rw [htext, scanFields, skipSpace_of_not (by decide)]
      simp only
      rw [skipSpace_blank, skipSpace_of_not (by decide), scanField_front key hvalue]
      simp only
      rw [hfields]
      rfl
end

/-- **Round trip.** A value with distinct keys is read back from what is written of it. -/
theorem loads_dumps {v : Value} (h : v.distinct = true) : loads (dumps v) = some v := by
  have hnil : Follows [] := fun c hc => by cases hc
  have hscan := scanValue_dumps v h (Nat.le_refl _) hnil
  have hspace := skipSpace_dumps v []
  rw [List.append_nil] at hscan hspace
  unfold loads
  rw [hspace, hscan]
  rfl

end AgentBack.Json
