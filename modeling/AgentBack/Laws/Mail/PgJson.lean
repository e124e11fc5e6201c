import AgentBack.Base.JsonText
import AgentBack.Mail.PgJson
import Mathlib.Algebra.Order.BigOperators.Group.List
import Mathlib.Algebra.Order.Group.Nat

/-!
# NUL taken out of JSON text

The replacement finds `\u0000` in the text without asking whether its backslash is itself escaped. A
NUL is written so, and goes; but a backslash before the characters `u0000` is written `\\u0000`, and
loses them together with its second half. The text is then shorter, blanks apart, than any text of
the value it should be, so that nothing else in it can make up for that (`preserved_iff`).
-/

namespace AgentBack.Mail.PgJson

open Json (Value dumps escape escapeChar hexDigit ink loads write writeFields writeItems)

/-! ## The replacement, character by character -/

theorem eraseNulEscape_cons {c : Char} (hc : c ≠ '\\') (cs : List Char) :
    eraseNulEscape (c :: cs) = c :: eraseNulEscape cs := by
  conv_lhs => unfold eraseNulEscape
  split
  · next heq => exact absurd (List.cons.inj heq).1 hc
  · next heq =>
    cases heq
    rfl
  · next heq => cases heq

/-- A backslash that no `u0000` follows. -/
theorem eraseNulEscape_slash {cs : List Char}
    (h : ∀ rest, cs ≠ 'u' :: '0' :: '0' :: '0' :: '0' :: rest) :
    eraseNulEscape ('\\' :: cs) = '\\' :: eraseNulEscape cs := by
  conv_lhs => unfold eraseNulEscape
  split
  · next heq => exact absurd (List.cons.inj heq).2 (h _)
  · next heq =>
    cases heq
    rfl
  · next heq => cases heq

theorem eraseNulEscape_nul (cs : List Char) :
    eraseNulEscape ('\\' :: 'u' :: '0' :: '0' :: '0' :: '0' :: cs) = eraseNulEscape cs := by
  rw [eraseNulEscape]

theorem escape_cons (c : Char) (s : List Char) : escape (c :: s) = escapeChar c ++ escape s :=
  List.flatMap_cons

/-- How a character is written: short, as a number that is not zero, or as it is. -/
theorem escapeChar_cases {c : Char} (hnul : c ≠ '\x00') :
    (∃ d, d ≠ 'u' ∧ (c ≠ '\\' → d ≠ '\\') ∧ escapeChar c = ['\\', d]) ∨
      (∃ x y, (x ≠ '0' ∨ y ≠ '0') ∧ x ≠ '\\' ∧ y ≠ '\\' ∧
        escapeChar c = ['\\', 'u', '0', '0', x, y]) ∨ c ≠ '\\' ∧ escapeChar c = [c] := by
  unfold escapeChar
  split
  · exact .inl ⟨_, by decide, fun _ => by decide, rfl⟩
  split
  · next hslash => exact .inl ⟨_, by decide, fun hne => absurd hslash hne, rfl⟩
  split
  · exact .inl ⟨_, by decide, fun _ => by decide, rfl⟩
  split
  · exact .inl ⟨_, by decide, fun _ => by decide, rfl⟩
  split
  · exact .inl ⟨_, by decide, fun _ => by decide, rfl⟩
  split
  · exact .inl ⟨_, by decide, fun _ => by decide, rfl⟩
  split
  · exact .inl ⟨_, by decide, fun _ => by decide, rfl⟩
  split
  · next hcontrol =>
    have hdigits : ∀ n < 32, (n ≠ 0 → hexDigit (n / 16) ≠ '0' ∨ hexDigit (n % 16) ≠ '0') ∧
        hexDigit (n / 16) ≠ '\\' ∧ hexDigit (n % 16) ≠ '\\' := by decide
    obtain ⟨hnot, hhigh, hlow⟩ := hdigits c.toNat hcontrol
    exact .inr (.inl ⟨_, _, hnot fun heq => hnul (Char.toNat_inj.mp heq), hhigh, hlow, rfl⟩)
  · next _ hslash _ _ _ _ _ _ => exact .inr (.inr ⟨hslash, rfl⟩)

/-- Only the characters that stand for themselves are written without a backslash. -/
theorem escape_eq_cons {c : Char} (hc : c ≠ '\\') {s rest : List Char}
    (h : escape s = c :: rest) : ∃ s', s = c :: s' ∧ escape s' = rest := by
  cases s with
  | nil => cases h
  | cons d s =>
    by_cases hnul : d = '\x00'
    · rw [hnul] at h
      exact absurd (List.cons.inj h).1 hc.symm
    rw [escape_cons] at h
    rcases escapeChar_cases hnul with ⟨_, _, _, heq⟩ | ⟨_, _, _, _, _, heq⟩ | ⟨-, heq⟩
    · rw [heq] at h
      exact absurd (List.cons.inj h).1 hc.symm
    · rw [heq] at h
      exact absurd (List.cons.inj h).1 hc.symm
    · rw [heq] at h
      obtain ⟨rfl, htail⟩ := List.cons.inj h
      exact ⟨s, rfl, htail⟩

/-- The characters of a backslash and `u0000`. -/
def nulText : List Char := ['\\', 'u', '0', '0', '0', '0']

/-- How often a backslash stands before `u0000`. -/
def breaks : List Char → Nat
  | '\\' :: 'u' :: '0' :: '0' :: '0' :: '0' :: rest => breaks rest + 1
  | _ :: rest => breaks rest
  | [] => 0

def strikeNul (s : List Char) : List Char := s.filter fun c => decide (c ≠ '\x00')

theorem escape_u0000 {s rest : List Char}
    (h : escape s = 'u' :: '0' :: '0' :: '0' :: '0' :: rest) :
    ∃ s', s = 'u' :: '0' :: '0' :: '0' :: '0' :: s' := by
  obtain ⟨s1, rfl, h1⟩ := escape_eq_cons (by decide) h
  obtain ⟨s2, rfl, h2⟩ := escape_eq_cons (by decide) h1
  obtain ⟨s3, rfl, h3⟩ := escape_eq_cons (by decide) h2
  obtain ⟨s4, rfl, h4⟩ := escape_eq_cons (by decide) h3
  obtain ⟨s5, rfl, h5⟩ := escape_eq_cons (by decide) h4
  exact ⟨s5, rfl⟩

/-- Every other character is written as it was. -/
theorem eraseNulEscape_escapeChar {c : Char} (hnul : c ≠ '\x00') (hslash : c ≠ '\\')
    (tail : List Char) :
    eraseNulEscape (escapeChar c ++ tail) = escapeChar c ++ eraseNulEscape tail := by
  rcases escapeChar_cases hnul with ⟨d, hu, hd, heq⟩ | ⟨x, y, hnot, hhigh, hlow, heq⟩ | ⟨-, heq⟩
  · rw [heq, List.cons_append, List.singleton_append,
      eraseNulEscape_slash fun rest heq => hu (List.cons.inj heq).1, eraseNulEscape_cons (hd hslash)]
    rfl
  · rw [heq]
    simp only [List.cons_append, List.nil_append]
    rw [eraseNulEscape_slash, eraseNulEscape_cons (by decide), eraseNulEscape_cons (by decide),
      eraseNulEscape_cons (by decide), eraseNulEscape_cons hhigh, eraseNulEscape_cons hlow]
    intro rest heq
    simp only [List.cons.injEq, true_and] at heq
    exact hnot.elim (fun hne => hne heq.1) fun hne => hne heq.2.1
  · rw [heq, List.singleton_append, eraseNulEscape_cons hslash]
    rfl

theorem escapeChar_nul : escapeChar '\x00' = ['\\', 'u', '0', '0', '0', '0'] := by decide

theorem escapeChar_slash : escapeChar '\\' = ['\\', '\\'] := by decide

/-- A backslash that is written stays whole, unless `u0000` follows it. -/
theorem eraseNulEscape_escape_slash {s : List Char}
    (h : ∀ s', s ≠ 'u' :: '0' :: '0' :: '0' :: '0' :: s') :
    eraseNulEscape (escape ('\\' :: s)) = '\\' :: '\\' :: eraseNulEscape (escape s) := by
  rw [escape_cons, escapeChar_slash]
  simp only [List.cons_append, List.nil_append]
  rw [eraseNulEscape_slash fun rest heq => absurd (List.cons.inj heq).1 (by decide),
    eraseNulEscape_slash]
  intro rest heq
  obtain ⟨s', hs⟩ := escape_u0000 heq
  exact h s' hs

/-- **A string.** The replacement takes the NULs out of what is written of a string, and six
characters for every backslash before `u0000`. -/
theorem eraseNulEscape_escape (s : List Char) :
    ink (eraseNulEscape (escape s)) + 6 * breaks s = ink (escape (strikeNul s)) ∧
      (breaks s = 0 → eraseNulEscape (escape s) = escape (strikeNul s)) := by
  fun_induction breaks s with
  | case1 s ih =>
    -- the second half of the backslash goes with `u0000`
    have hwritten : eraseNulEscape (escape ('\\' :: 'u' :: '0' :: '0' :: '0' :: '0' :: s)) =
        '\\' :: eraseNulEscape (escape s) := by
      have hchars : escape ('\\' :: 'u' :: '0' :: '0' :: '0' :: '0' :: s) =
          '\\' :: '\\' :: 'u' :: '0' :: '0' :: '0' :: '0' :: escape s := rfl
      rw [hchars, eraseNulEscape_slash fun rest heq => absurd (List.cons.inj heq).1 (by decide),
        eraseNulEscape_nul]
    have hkept : escape (strikeNul ('\\' :: 'u' :: '0' :: '0' :: '0' :: '0' :: s)) =
        '\\' :: '\\' :: 'u' :: '0' :: '0' :: '0' :: '0' :: escape (strikeNul s) := rfl
    refine ⟨?_, fun hzero => absurd hzero (Nat.succ_ne_zero _)⟩
    rw [hwritten, hkept]
    simp (disch := decide) only [Json.ink_mark]
    have hink := ih.1
    omega
  | case2 c s hnot ih =>
    by_cases hnul : c = '\x00'
    · have hwritten : eraseNulEscape (escape (c :: s)) = eraseNulEscape (escape s) := by
        rw [escape_cons, hnul, escapeChar_nul]
        exact eraseNulEscape_nul _
      have hkept : strikeNul (c :: s) = strikeNul s :=
        List.filter_cons_of_neg (by rw [hnul]; decide)
      rw [hwritten, hkept]
      exact ih
    have hkept : strikeNul (c :: s) = c :: strikeNul s :=
      List.filter_cons_of_pos (decide_eq_true hnul)
    have hwritten : eraseNulEscape (escape (c :: s)) =
        escapeChar c ++ eraseNulEscape (escape s) := by
      by_cases hslash : c = '\\'
      · rw [hslash, eraseNulEscape_escape_slash, escapeChar_slash]
        · rfl
        · rintro s' rfl
          exact hnot s' hslash rfl
      · rw [escape_cons, eraseNulEscape_escapeChar hnul hslash]
    rw [hwritten, hkept, escape_cons, Json.ink_append, Json.ink_append]
    refine ⟨?_, fun hzero => by rw [ih.2 hzero]⟩
    have hink := ih.1
    omega
  | case3 => exact ⟨rfl, fun _ => rfl⟩

theorem breaks_eq_zero_iff (s : List Char) : breaks s = 0 ↔ ¬ nulText <:+: s := by
  fun_induction breaks s with
  | case1 s ih =>
    refine iff_of_false (Nat.succ_ne_zero _) ?_
    rw [not_not]
    exact (List.prefix_append nulText s).isInfix
  | case2 c s hnot ih =>
    rw [ih, List.infix_cons_iff, not_or]
    refine (and_iff_right ?_).symm
    rintro ⟨tail, heq⟩
    have hslash := (List.cons.inj heq).1
    exact hnot tail hslash.symm (List.cons.inj heq).2.symm
  | case3 =>
    refine iff_of_true rfl ?_
    rw [List.infix_nil]
    exact List.cons_ne_nil _ _

/-! ## The replacement in a whole text -/

theorem eraseNulEscape_quote (cs rest : List Char) :
    eraseNulEscape (cs ++ '"' :: rest) = eraseNulEscape cs ++ '"' :: eraseNulEscape rest := by
  fun_induction eraseNulEscape cs with
  | case1 cs ih =>
    simp only [List.cons_append]
    rw [eraseNulEscape_nul, ih]
  | case2 c cs hnot ih =>
    rw [List.cons_append, List.cons_append, ← ih]
    by_cases hslash : c = '\\'
    · rw [hslash]
      apply eraseNulEscape_slash
      intro tail heq
      have happend : cs ++ '"' :: rest = ['u', '0', '0', '0', '0'] ++ tail := heq
      rcases List.append_eq_append_iff.mp happend with ⟨extra, hextra, hquote⟩ | ⟨back, hback, -⟩
      · cases extra with
        | nil =>
          rw [List.append_nil] at hextra
          exact hnot [] hslash hextra.symm
        | cons d extra =>
          obtain ⟨rfl, -⟩ := List.cons.inj hquote
          have hmem : '"' ∈ ['u', '0', '0', '0', '0'] := by
            rw [hextra]
            exact List.mem_append_right _ (.head _)
          exact absurd hmem (by decide)
      · exact hnot back hslash hback
    · exact eraseNulEscape_cons hslash _
  | case3 => exact eraseNulEscape_cons (by decide) rest

/-- A character that JSON text has outside its strings. -/
def isPlain (c : Char) : Bool := decide (c ≠ '\\' ∧ c ≠ '\x00')

theorem isPlain_of_isNumberChar {c : Char} (h : Json.isNumberChar c = true) : isPlain c = true := by
  apply decide_eq_true
  constructor
  · rintro rfl
    exact absurd h (by decide)
  · rintro rfl
    exact absurd h (by decide)

section
variable {change quote : List Char → List Char}
  (hplain : ∀ c, isPlain c = true → ∀ cs, change (c :: cs) = c :: change cs)
  (hquote : ∀ s rest, change (escape s ++ '"' :: rest) = quote s ++ '"' :: change rest)
include hplain

theorem change_append {front : List Char} (hfront : ∀ c ∈ front, isPlain c = true)
    (rest : List Char) : change (front ++ rest) = front ++ change rest := by
  induction front with
  | nil => rfl
  | cons c front ih =>
    rw [List.cons_append, hplain c (hfront c (.head _)),
      ih fun d hd => hfront d (.tail _ hd), List.cons_append]

include hquote

mutual
/-- A change of the text that leaves what is outside the strings alone. -/
theorem change_write :
    ∀ (v : Value) (rest : List Char), change (dumps v ++ rest) = write quote v ++ change rest
  | .null, rest | .bool true, rest | .bool false, rest =>
    change_append hplain (List.all_eq_true.mp (by decide)) rest
  | .num n, rest =>
    change_append hplain (fun c hc => isPlain_of_isNumberChar (n.all_text c hc)) rest
  | .str s, rest => by
    have htext : dumps (.str s) ++ rest = '"' :: (escape s ++ '"' :: rest) := by
      unfold dumps
      rw [write, List.cons_append, List.append_assoc]
      rfl
    rw [htext, hplain _ (by decide), hquote, write, List.cons_append, List.append_assoc]
    rfl
  | .arr [], rest => change_append hplain (List.all_eq_true.mp (by decide)) rest
  | .arr (v :: items), rest => by
    have htext : dumps (.arr (v :: items)) ++ rest =
        '[' :: (dumps v ++ (writeItems escape items ++ ']' :: rest)) := by
      unfold dumps
      rw [write, List.cons_append, List.append_assoc, List.append_assoc]
      rfl
    rw [htext, hplain _ (by decide), change_write v,
      change_writeItems items, hplain _ (by decide), write]
    simp only [List.cons_append, List.append_assoc, List.nil_append]
  | .obj [], rest => change_append hplain (List.all_eq_true.mp (by decide)) rest
  | .obj ((key, v) :: fields), rest => by
    have htext : dumps (.obj ((key, v) :: fields)) ++ rest = '{' :: '"' :: (escape key ++
        '"' :: ':' :: ' ' :: (dumps v ++ (writeFields escape fields ++ '}' :: rest))) := by
      unfold dumps
      rw [write]
      simp only [List.cons_append, List.append_assoc, List.nil_append]
    rw [htext, hplain _ (by decide), hplain _ (by decide), hquote, hplain _ (by decide),
      hplain _ (by decide), change_write v, change_writeFields fields,
      hplain _ (by decide), write]
    simp only [List.cons_append, List.append_assoc, List.nil_append]

theorem change_writeItems :
    ∀ (items : List Value) (rest : List Char),
      change (writeItems escape items ++ rest) = writeItems quote items ++ change rest
  | [], _ => rfl
  | v :: items, rest => by
    have htext : writeItems escape (v :: items) ++ rest =
        ',' :: ' ' :: (dumps v ++ (writeItems escape items ++ rest)) := by
      rw [writeItems, List.cons_append, List.cons_append, List.append_assoc]
      rfl
    rw [htext, hplain _ (by decide), hplain _ (by decide), change_write v,
      change_writeItems items, writeItems]
    simp only [List.cons_append, List.append_assoc]

theorem change_writeFields :
    ∀ (fields : List (List Char × Value)) (rest : List Char),
      change (writeFields escape fields ++ rest) = writeFields quote fields ++ change rest
  | [], _ => rfl
  | (key, v) :: fields, rest => by
    have htext : writeFields escape ((key, v) :: fields) ++ rest = ',' :: ' ' :: '"' ::
        (escape key ++ '"' :: ':' :: ' ' :: (dumps v ++ (writeFields escape fields ++ rest))) := by
      rw [writeFields]
      simp only [List.cons_append, List.append_assoc]
      rfl
    rw [htext, hplain _ (by decide), hplain _ (by decide), hplain _ (by decide), hquote,
      hplain _ (by decide), hplain _ (by decide), change_write v,
      change_writeFields fields, writeFields]
    simp only [List.cons_append, List.append_assoc]
end

end

theorem not_mem_escape (s : List Char) : '\x00' ∉ escape s := by
  intro hmem
  obtain ⟨c, -, hc⟩ := List.mem_flatMap.mp hmem
  revert hc
  unfold escapeChar
  have hdigits : ∀ n < 32, hexDigit (n / 16) ≠ '\x00' ∧ hexDigit (n % 16) ≠ '\x00' := by decide
  split
  · decide
  split
  · decide
  split
  · decide
  split
  · decide
  split
  · decide
  split
  · decide
  split
  · decide
  split
  · next hcontrol =>
    obtain ⟨hhigh, hlow⟩ := hdigits c.toNat hcontrol
    simp only [List.mem_cons, List.not_mem_nil, or_false, hhigh.symm, hlow.symm]
    decide
  · next hcontrol =>
    intro hc
    rw [← List.mem_singleton.mp hc] at hcontrol
    exact hcontrol (by decide)

/-- The text has no NUL to begin with: NUL is written as an escape. -/
theorem strikeNul_dumps (p : Value) : strikeNul (dumps p) = dumps p := by
  have hplain : ∀ c, isPlain c = true → ∀ cs, strikeNul (c :: cs) = c :: strikeNul cs := by
    intro c hc cs
    exact List.filter_cons_of_pos (decide_eq_true (of_decide_eq_true hc).2)
  have hquote : ∀ s rest, strikeNul (escape s ++ '"' :: rest) = escape s ++ '"' :: strikeNul rest := by
    intro s rest
    unfold strikeNul
    rw [List.filter_append, List.filter_cons_of_pos (by decide), List.filter_eq_self.mpr]
    intro c hc
    exact decide_eq_true fun heq => not_mem_escape s (heq ▸ hc)
  have hwrite := change_write hplain hquote p []
  have hnil : strikeNul [] = [] := rfl
  rw [List.append_nil, hnil, List.append_nil] at hwrite
  exact hwrite

theorem sanitizeJsonTextForPg_dumps (p : Value) :
    sanitizeJsonTextForPg (dumps p) = write (fun s => eraseNulEscape (escape s)) p := by
  have hplain : ∀ c, isPlain c = true → ∀ cs, eraseNulEscape (c :: cs) = c :: eraseNulEscape cs :=
    fun c hc cs => eraseNulEscape_cons (of_decide_eq_true hc).1 cs
  have hwrite := change_write hplain (fun s rest => eraseNulEscape_quote (escape s) rest) p []
  have hnil : eraseNulEscape [] = [] := by rw [eraseNulEscape]
  have hne : dumps p ≠ [] := by
    obtain ⟨c, cs, heq, -, -⟩ := Json.head_write p
    rw [heq]
    exact List.cons_ne_nil _ _
  rw [List.append_nil, hnil, List.append_nil] at hwrite
  unfold sanitizeJsonTextForPg
  rw [if_neg hne]
  exact (congrArg eraseNulEscape (strikeNul_dumps p)).trans hwrite

/-! ## NUL escapes -/

/-- The text without its NUL escapes, read as JSON is: a backslash takes the next character with
it. -/
def strikeEscapes : List Char → List Char
  | '\\' :: 'u' :: '0' :: '0' :: '0' :: '0' :: rest => strikeEscapes rest
  | '\\' :: c :: rest => '\\' :: c :: strikeEscapes rest
  | c :: rest => c :: strikeEscapes rest
  | [] => []

theorem strikeEscapes_cons {c : Char} (hc : c ≠ '\\') (cs : List Char) :
    strikeEscapes (c :: cs) = c :: strikeEscapes cs := by
  conv_lhs => unfold strikeEscapes
  split
  · next heq => exact absurd (List.cons.inj heq).1 hc
  · next heq => exact absurd (List.cons.inj heq).1 hc
  · next heq =>
    cases heq
    rfl
  · next heq => cases heq

theorem strikeEscapes_slash {c : Char} {cs : List Char}
    (h : ∀ rest, c :: cs ≠ 'u' :: '0' :: '0' :: '0' :: '0' :: rest) :
    strikeEscapes ('\\' :: c :: cs) = '\\' :: c :: strikeEscapes cs := by
  conv_lhs => unfold strikeEscapes
  split
  · next heq => exact absurd (List.cons.inj heq).2 (h _)
  · next heq =>
    cases heq
    rfl
  · next hslash heq =>
    cases heq
    exact absurd rfl (hslash c cs rfl)
  · next heq => cases heq

theorem strikeEscapes_escapeChar {c : Char} (hnul : c ≠ '\x00') (tail : List Char) :
    strikeEscapes (escapeChar c ++ tail) = escapeChar c ++ strikeEscapes tail := by
  rcases escapeChar_cases hnul with ⟨d, hu, -, heq⟩ | ⟨x, y, hnot, hhigh, hlow, heq⟩ | ⟨hslash, heq⟩
  · rw [heq]
    simp only [List.cons_append, List.nil_append]
    exact strikeEscapes_slash fun rest heq => hu (List.cons.inj heq).1
  · rw [heq]
    simp only [List.cons_append, List.nil_append]
    rw [strikeEscapes_slash, strikeEscapes_cons (by decide), strikeEscapes_cons (by decide),
      strikeEscapes_cons hhigh, strikeEscapes_cons hlow]
    intro rest heq
    simp only [List.cons.injEq, true_and] at heq
    exact hnot.elim (fun hne => hne heq.1) fun hne => hne heq.2.1
  · rw [heq, List.singleton_append, strikeEscapes_cons hslash]
    rfl

def withoutNul (p : Value) : Value := p.mapTexts strikeNul

theorem dumps_withoutNul (p : Value) :
    dumps (withoutNul p) = write (fun s => escape (strikeNul s)) p :=
  Json.write_mapTexts escape strikeNul p

/-- What the replacement should do: take out the escapes, and what is left is the text of the value
without NUL. -/
theorem strikeEscapes_dumps (p : Value) : strikeEscapes (dumps p) = dumps (withoutNul p) := by
  have hplain : ∀ c, isPlain c = true → ∀ cs, strikeEscapes (c :: cs) = c :: strikeEscapes cs :=
    fun c hc cs => strikeEscapes_cons (of_decide_eq_true hc).1 cs
  have hquote : ∀ s rest, strikeEscapes (escape s ++ '"' :: rest) =
      escape (strikeNul s) ++ '"' :: strikeEscapes rest := by
    intro s rest
    induction s with
    | nil => exact strikeEscapes_cons (by decide) rest
    | cons c s ih =>
      rw [escape_cons, List.append_assoc]
      by_cases hnul : c = '\x00'
      · have hkept : strikeNul (c :: s) = strikeNul s :=
          List.filter_cons_of_neg (by rw [hnul]; decide)
        rw [hkept, ← ih, hnul, escapeChar_nul]
        simp only [List.cons_append, List.nil_append]
        rw [strikeEscapes]
      · have hkept : strikeNul (c :: s) = c :: strikeNul s :=
          List.filter_cons_of_pos (decide_eq_true hnul)
        rw [strikeEscapes_escapeChar hnul, ih, hkept, escape_cons, List.append_assoc]
  have hwrite := change_write hplain hquote p []
  have hnil : strikeEscapes [] = [] := by rw [strikeEscapes]
  rw [List.append_nil, hnil, List.append_nil] at hwrite
  rw [hwrite, dumps_withoutNul]

theorem withoutNul_withoutNul_dumps (p : Value) :
    dumps (withoutNul (withoutNul p)) = dumps (withoutNul p) := by
  have htwice : write (fun s => escape (strikeNul s)) (p.mapTexts strikeNul) =
      write (fun s => escape (strikeNul (strikeNul s))) p := Json.write_mapTexts _ strikeNul p
  rw [dumps_withoutNul (withoutNul p), dumps_withoutNul, withoutNul, htwice]
  apply Json.write_congr
  intro s _
  unfold strikeNul
  rw [List.filter_filter]
  simp only [Bool.and_self]

/-! ## The law -/

/-- **NUL is taken out and nothing else.** The text is read as the value without NUL in its strings and
keys, it has no NUL escape, and the database takes the same text. -/
structure Preserved (p : Value) : Prop where
  decoded : loads (sanitizeJsonTextForPg (dumps p)) = some (withoutNul p)
  unescaped : strikeEscapes (sanitizeJsonTextForPg (dumps p)) = sanitizeJsonTextForPg (dumps p)
  database : ∀ (α : Type) (castJsonb : List Char → α),
    safePayloadJsonb castJsonb (dumps p) = castJsonb (sanitizeJsonTextForPg (dumps p))

/-- **The condition.** No string and no key has a backslash before `u0000`, and no two keys of an
object differ in NULs alone. -/
structure Harmless (p : Value) : Prop where
  texts : ∀ s ∈ p.texts, ¬ nulText <:+: s
  keys : (withoutNul p).distinct = true

theorem removeAll_nulEscape {fuel : Nat} {cs : List Char} (hfuel : cs.length ≤ fuel) :
    Routing.removeAll nulEscape fuel cs = eraseNulEscape cs := by
  induction fuel generalizing cs with
  | zero =>
    rw [List.length_eq_zero_iff.mp (Nat.le_zero.mp hfuel)]
    rw [Routing.removeAll, eraseNulEscape]
  | succ fuel ih =>
    cases cs with
    | nil => rfl
    | cons c cs =>
      rw [Routing.removeAll]
      split
      · next rest hmatch =>
        unfold nulEscape at hmatch
        split at hmatch
        · next tail heq =>
          cases hmatch
          rw [heq] at hfuel
          simp only [List.length_cons] at hfuel
          rw [heq, eraseNulEscape_nul, ih (by omega)]
        · cases hmatch
      · next hmatch =>
        rw [ih (Nat.le_of_succ_le_succ hfuel)]
        by_cases hslash : c = '\\'
        · rw [hslash, eraseNulEscape_slash]
          rintro rest rfl
          rw [hslash] at hmatch
          cases hmatch
        · rw [eraseNulEscape_cons hslash]

theorem safePayloadJsonb_dumps {α : Type} (castJsonb : List Char → α) (p : Value) :
    safePayloadJsonb castJsonb (dumps p) = castJsonb (sanitizeJsonTextForPg (dumps p)) := by
  have hne : dumps p ≠ [] := by
    obtain ⟨c, cs, heq, -, -⟩ := Json.head_write p
    rw [heq]
    exact List.cons_ne_nil _ _
  have hsanitize : sanitizeJsonTextForPg (dumps p) = eraseNulEscape (dumps p) := by
    unfold sanitizeJsonTextForPg
    rw [if_neg hne]
    exact congrArg eraseNulEscape (strikeNul_dumps p)
  unfold safePayloadJsonb
  rw [removeAll_nulEscape (Nat.le_refl _), hsanitize]

/-- Without a backslash before `u0000` the text is that of the value without NUL. -/
theorem sanitizeJsonTextForPg_of_texts {p : Value} (h : ∀ s ∈ p.texts, ¬ nulText <:+: s) :
    sanitizeJsonTextForPg (dumps p) = dumps (withoutNul p) := by
  rw [sanitizeJsonTextForPg_dumps, dumps_withoutNul]
  apply Json.write_congr
  intro s hs
  exact (eraseNulEscape_escape s).2 ((breaks_eq_zero_iff s).mpr (h s hs))

/-- A text that is read as the value without NUL lost no backslash. -/
theorem texts_of_loads {p : Value}
    (h : loads (sanitizeJsonTextForPg (dumps p)) = some (withoutNul p)) :
    ∀ s ∈ p.texts, ¬ nulText <:+: s := by
  obtain ⟨-, hle⟩ := Json.scanned_of_loads h
  have hink := Json.ink_write (fun s => (eraseNulEscape_escape s).1) p
  rw [← sanitizeJsonTextForPg_dumps, ← dumps_withoutNul] at hink
  have hzero : (p.texts.map fun s => 6 * breaks s).sum = 0 := by omega
  intro s hs
  apply (breaks_eq_zero_iff s).mp
  have hmem := List.mem_map_of_mem (f := fun s => 6 * breaks s) hs
  have hle := List.single_le_sum (fun _ _ => Nat.zero_le _) _ hmem
  omega

/-- **When NUL sanitising preserves the document.** -/
theorem preserved_iff (p : Value) : Preserved p ↔ Harmless p := by
  constructor
  · intro h
    exact ⟨texts_of_loads h.decoded, (Json.scanned_of_loads h.decoded).1⟩
  · rintro ⟨htexts, hkeys⟩
    have hsanitize := sanitizeJsonTextForPg_of_texts htexts
    refine ⟨?_, ?_, fun α castJsonb => safePayloadJsonb_dumps castJsonb p⟩
    · rw [hsanitize]
      exact Json.loads_dumps hkeys
    · rw [hsanitize, strikeEscapes_dumps, withoutNul_withoutNul_dumps]

/-- A letter that writes about the escape: its text is refused. -/
theorem not_preserved_escape : ¬ ∀ p : Value, p.distinct = true → Preserved p := by
  intro h
  have htext := (h (.str "NUL is \\u0000 in JSON".toList) rfl).decoded
  have hread : (loads (sanitizeJsonTextForPg
      (dumps (.str "NUL is \\u0000 in JSON".toList)))).isSome = true := by
    rw [htext]
    rfl
  exact absurd hread (by decide)

end AgentBack.Mail.PgJson
