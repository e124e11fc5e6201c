import Mathlib.Data.List.DropRight
import Mathlib.Data.List.Infix

/-!
# Text keys

What Python's `str` does to the keys that programs compare: `strip` takes the white space off both
ends, and `lower` and `casefold` map the case away. `strip` is written out here. The case mappings
are tables of the Unicode standard and stay parameters; `LawfulLower` is what a program may rely on
when it lowers a stripped key, and `lawful_toLower` shows that the mapping of the ASCII letters
satisfies it.
-/

namespace AgentBack.Text

def SpaceCode (n : Nat) : Prop :=
  (9 ≤ n ∧ n ≤ 13) ∨ (28 ≤ n ∧ n ≤ 32) ∨ n = 0x85 ∨ n = 0xa0 ∨ n = 0x1680 ∨
    (0x2000 ≤ n ∧ n ≤ 0x200a) ∨ n = 0x2028 ∨ n = 0x2029 ∨ n = 0x202f ∨ n = 0x205f ∨ n = 0x3000

instance (n : Nat) : Decidable (SpaceCode n) := inferInstanceAs (Decidable (_ ∨ _))

/-- `c.isspace()`, as `strip` asks it. -/
def isSpace (c : Char) : Bool := decide (SpaceCode c.toNat)

/-- `strip` on the characters of a string. -/
def stripChars (cs : List Char) : List Char := (cs.dropWhile isSpace).rdropWhile isSpace

/-- `s.strip()`. -/
def strip (s : String) : String := String.ofList (stripChars s.toList)

/-- `part in s`. -/
def contains (part s : String) : Bool := decide (part.toList <:+: s.toList)

/-- What lowering the case keeps: a lowered key is lowered already, a stripped key stays stripped,
and no key becomes empty. -/
structure LawfulLower (lower : String → String) : Prop where
  idem : ∀ s, lower (lower s) = lower s
  stripped : ∀ s, strip (lower (strip s)) = lower (strip s)
  ne_empty : ∀ s, s ≠ "" → lower s ≠ ""

/-- `s.strip().lower()`. -/
def normalize (lower : String → String) (s : String) : String := lower (strip s)

private theorem stripChars_stripChars (cs : List Char) :
    stripChars (stripChars cs) = stripChars cs := by
  unfold stripChars
  have hhead : ((cs.dropWhile isSpace).rdropWhile isSpace).dropWhile isSpace =
      (cs.dropWhile isSpace).rdropWhile isSpace := by
    rw [List.dropWhile_eq_self_iff]
    intro hlen
    -- the first character left by `rdropWhile` is the first one left by `dropWhile`
    have hpre := List.rdropWhile_prefix isSpace (cs.dropWhile isSpace)
    have hpos : 0 < (cs.dropWhile isSpace).length := lt_of_lt_of_le hlen hpre.length_le
    rw [hpre.getElem hlen]
    exact List.dropWhile_get_zero_not isSpace cs hpos
  rw [hhead, List.rdropWhile_idempotent]

theorem strip_strip (s : String) : strip (strip s) = strip s := by
  unfold strip
  rw [String.toList_ofList, stripChars_stripChars]

theorem normalize_normalize {lower : String → String} (h : LawfulLower lower) (s : String) :
    normalize lower (normalize lower s) = normalize lower s := by
  unfold normalize
  rw [h.stripped, h.idem]

theorem normalize_strip (lower : String → String) (s : String) :
    normalize lower (strip s) = normalize lower s := by
  unfold normalize
  rw [strip_strip]

/-- Lowering an ASCII letter: the code moves up by 32, inside the letters. -/
theorem toNat_toLower (c : Char) :
    c.toLower.toNat = if 65 ≤ c.toNat ∧ c.toNat ≤ 90 then c.toNat + 32 else c.toNat := by
  unfold Char.toLower
  have hiff : (c.val ≥ 'A'.val ∧ c.val ≤ 'Z'.val) ↔ (65 ≤ c.toNat ∧ c.toNat ≤ 90) := Iff.rfl
  by_cases h : c.val ≥ 'A'.val ∧ c.val ≤ 'Z'.val
  · rw [dif_pos h, if_pos (hiff.mp h)]
    show (c.val + ('a'.val - 'A'.val)).toNat = c.toNat + 32
    have hle := (hiff.mp h).2
    rw [UInt32.toNat_add]
    show (c.toNat + 32) % 2 ^ 32 = c.toNat + 32
    omega
  · rw [dif_neg h, if_neg (fun hc => h (hiff.mpr hc))]

private theorem isSpace_toLower (c : Char) : isSpace c.toLower = isSpace c := by
  unfold isSpace
  rw [toNat_toLower]
  split
  · next h =>
    have hupper : ¬ SpaceCode c.toNat := by
      unfold SpaceCode
      omega
    have hlower : ¬ SpaceCode (c.toNat + 32) := by
      unfold SpaceCode
      omega
    rw [decide_eq_false hlower, decide_eq_false hupper]
  · rfl

private theorem toLower_toLower (c : Char) : c.toLower.toLower = c.toLower := by
  have h : c.toLower.toLower.toNat = c.toLower.toNat := by
    rw [toNat_toLower, toNat_toLower]
    by_cases h : 65 ≤ c.toNat ∧ c.toNat ≤ 90
    · rw [if_pos h, if_neg (by omega)]
    · rw [if_neg h, if_neg h]
  exact Char.toNat_inj.mp h

private theorem stripChars_map_toLower (cs : List Char) :
    stripChars (cs.map Char.toLower) = (stripChars cs).map Char.toLower := by
  have hcomp : isSpace ∘ Char.toLower = isSpace := funext isSpace_toLower
  unfold stripChars List.rdropWhile
  rw [List.dropWhile_map, ← List.map_reverse, List.dropWhile_map, List.map_reverse, hcomp]

private theorem toList_toLower (s : String) : s.toLower.toList = s.toList.map Char.toLower :=
  String.toList_map

theorem lawful_toLower : LawfulLower String.toLower where
  idem s := by
    apply String.toList_inj.mp
    simp only [toList_toLower, List.map_map]
    congr 1
    exact funext toLower_toLower
  stripped s := by
    apply String.toList_inj.mp
    simp only [strip, toList_toLower, String.toList_ofList, stripChars_map_toLower,
      stripChars_stripChars]
  ne_empty s h hs := by
    apply h
    apply String.toList_inj.mp
    have hmap := congrArg String.toList hs
    rw [toList_toLower] at hmap
    exact List.map_eq_nil_iff.mp hmap

end AgentBack.Text

/-!
# The words of a text

`text.split()` cuts a text at its white space; `" ".join(text.split())` leaves one space between the
words. `lowerRu` is the case mapping of the ASCII and the Russian letters, the part of `str.lower`
that a run on a text of these letters shows.
-/

namespace AgentBack.Text

/-- `text.split()`, on the characters. -/
def wordsChars (cs : List Char) : List (List Char) :=
  (cs.splitOnP isSpace).filter fun word => !word.isEmpty

/-- `" ".join(text.split())`. -/
def collapse (s : String) : String := String.ofList ([' '].intercalate (wordsChars s.toList))

theorem isSpace_of_mem_word {cs word : List Char} (hword : word ∈ wordsChars cs) {c : Char}
    (hc : c ∈ word) : isSpace c = false := by
  have hpieces : ∀ cs : List Char, ∀ piece ∈ cs.splitOnP isSpace, ∀ c ∈ piece,
      isSpace c = false := by
    intro cs
    induction cs with
    | nil =>
      intro piece hpiece c hc
      rw [List.splitOnP_nil, List.mem_singleton] at hpiece
      rw [hpiece] at hc
      cases hc
    | cons d cs ih =>
      intro piece hpiece c hc
      rw [List.splitOnP_cons_eq_if_modifyHead] at hpiece
      split at hpiece
      · rcases List.mem_cons.mp hpiece with rfl | hpiece
        · cases hc
        · exact ih piece hpiece c hc
      · next hd =>
        obtain ⟨first, rest, hsplit⟩ := List.exists_cons_of_ne_nil (List.splitOnP_ne_nil isSpace cs)
        rw [hsplit] at hpiece ih
        rw [List.modifyHead_cons] at hpiece
        rcases List.mem_cons.mp hpiece with rfl | hpiece
        · rcases List.mem_cons.mp hc with rfl | hc
          · exact Bool.eq_false_iff.mpr hd
          · exact ih first (.head _) c hc
        · exact ih piece (.tail _ hpiece) c hc
  exact hpieces cs word (List.mem_of_mem_filter hword) c hc

/-- A collapsed text has no white space but blanks. -/
theorem mem_collapse {s : String} {c : Char} (hc : c ∈ (collapse s).toList) :
    isSpace c = false ∨ c = ' ' := by
  have hjoin : ∀ words : List (List Char), c ∈ [' '].intercalate words →
      (∃ word ∈ words, c ∈ word) ∨ c = ' ' := by
    intro words
    induction words with
    | nil =>
      intro h
      cases h
    | cons word words ih =>
      intro h
      cases words with
      | nil =>
        rw [List.intercalate_singleton] at h
        exact .inl ⟨word, .head _, h⟩
      | cons next words =>
        rw [List.intercalate_cons_cons, List.mem_append, List.mem_append] at h
        rcases h with (h | h) | h
        · exact .inl ⟨word, .head _, h⟩
        · exact .inr (List.mem_singleton.mp h)
        · obtain ⟨found, hfound, hmem⟩ | hspace := ih h
          · exact .inl ⟨found, .tail _ hfound, hmem⟩
          · exact .inr hspace
  unfold collapse at hc
  rw [String.toList_ofList] at hc
  obtain ⟨word, hword, hmem⟩ | hspace := hjoin _ hc
  · exact .inl (isSpace_of_mem_word hword hmem)
  · exact .inr hspace

/-- `c.lower()` of an ASCII or a Russian letter. -/
def lowerRuChar (c : Char) : Char :=
  if 0x410 ≤ c.toNat ∧ c.toNat ≤ 0x42f then Char.ofNat (c.toNat + 32)
  else if c = 'Ё' then 'ё'
  else c.toLower

/-- `s.lower()` of a text of ASCII and Russian letters. -/
def lowerRu (s : String) : String := String.ofList (s.toList.map lowerRuChar)

end AgentBack.Text
