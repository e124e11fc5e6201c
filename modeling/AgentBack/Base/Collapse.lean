import AgentBack.Base.Trim
import Mathlib.Data.List.Chain

/-!
# Collapsed white space

Collapsing follows the characters: white space at the front goes, and behind a character of a word
either the word goes on or one blank stands before the next word (`collapseChars_cons`). A text is
left as it is exactly when its white space is single blanks and none stands at its ends.
-/

namespace AgentBack.Text

variable (cs : List Char)

/-- `" ".join(text.split())`, on the characters. -/
def collapseChars : List Char := [' '].intercalate (wordsChars cs)

theorem toList_collapse (s : String) : (collapse s).toList = collapseChars s.toList :=
  String.toList_ofList

theorem wordsChars_space {c : Char} (hc : isSpace c = true) (cs : List Char) :
    wordsChars (c :: cs) = wordsChars cs := by
  unfold wordsChars
  rw [List.splitOnP_cons_eq_if_modifyHead, if_pos hc]
  rfl

theorem collapseChars_space {c : Char} (hc : isSpace c = true) (cs : List Char) :
    collapseChars (c :: cs) = collapseChars cs := by
  unfold collapseChars
  rw [wordsChars_space hc]

theorem wordsChars_last {c : Char} (hc : isSpace c = false) {cs : List Char}
    (hcs : ∀ d, cs.head? = some d → isSpace d = true) :
    wordsChars (c :: cs) = [c] :: wordsChars cs := by
  unfold wordsChars
  rw [List.splitOnP_cons_eq_if_modifyHead, if_neg (by rw [hc]; decide)]
  cases cs with
  | nil => rfl
  | cons d cs =>
    rw [List.splitOnP_cons_eq_if_modifyHead, if_pos (hcs d rfl)]
    rfl

theorem wordsChars_cons {c d : Char} (hc : isSpace c = false) (hd : isSpace d = false)
    (cs : List Char) : ∃ word words, wordsChars (d :: cs) = word :: words ∧
      wordsChars (c :: d :: cs) = (c :: word) :: words := by
  obtain ⟨first, pieces, hsplit⟩ := List.exists_cons_of_ne_nil (List.splitOnP_ne_nil isSpace cs)
  refine ⟨d :: first, pieces.filter fun word => !word.isEmpty, ?_, ?_⟩
  · unfold wordsChars
    rw [List.splitOnP_cons_eq_if_modifyHead, if_neg (by rw [hd]; decide), hsplit]
    rfl
  · unfold wordsChars
    rw [List.splitOnP_cons_eq_if_modifyHead, if_neg (by rw [hc]; decide),
      List.splitOnP_cons_eq_if_modifyHead, if_neg (by rw [hd]; decide), hsplit]
    rfl

theorem collapseChars_eq_nil_iff : collapseChars cs = [] ↔ wordsChars cs = [] := by
  unfold collapseChars
  cases hwords : wordsChars cs with
  | nil => exact iff_of_true rfl rfl
  | cons word words =>
    apply iff_of_false _ (List.cons_ne_nil _ _)
    have hmem : word ∈ wordsChars cs := by
      rw [hwords]
      exact .head _
    have hword := (List.mem_filter.mp hmem).2
    intro hnil
    cases words with
    | nil =>
      rw [List.intercalate_singleton] at hnil
      rw [hnil] at hword
      cases hword
    | cons next words =>
      rw [List.intercalate_cons_cons, List.append_eq_nil_iff, List.append_eq_nil_iff] at hnil
      cases hnil.1.2

/-- A blank before a text, where there is one. -/
def lead : List Char := if cs = [] then [] else ' ' :: cs

/-- What a collapsed text has behind a character of a word. -/
def behind : List Char → List Char
  | [] => []
  | c :: cs => if isSpace c then lead (collapseChars cs) else collapseChars (c :: cs)

theorem behind_space {c : Char} (hc : isSpace c = true) (cs : List Char) :
    behind (c :: cs) = lead (collapseChars cs) := by
  rw [behind, if_pos hc]

theorem behind_of_head {cs : List Char} (hcs : ∀ d, cs.head? = some d → isSpace d = false) :
    behind cs = collapseChars cs := by
  cases cs with
  | nil => rfl
  | cons c cs => rw [behind, if_neg (by rw [hcs c rfl]; decide)]

/-- Behind a character of a word the word goes on, or one blank stands before the next word. -/
theorem behind_cases : behind cs = collapseChars cs ∨
    (collapseChars cs ≠ [] ∧ behind cs = ' ' :: collapseChars cs) := by
  cases cs with
  | nil => exact .inl rfl
  | cons c cs =>
    by_cases hc : isSpace c = true
    · rw [behind_space hc, collapseChars_space hc]
      unfold lead
      split
      · next hnil => exact .inl hnil.symm
      · next hne => exact .inr ⟨hne, rfl⟩
    · exact .inl (behind_of_head fun d hd => by
        cases hd
        exact Bool.eq_false_iff.mpr hc)

theorem collapseChars_cons {c : Char} (hc : isSpace c = false) (cs : List Char) :
    collapseChars (c :: cs) = c :: behind cs := by
  have hlast : ∀ words : List (List Char), [' '].intercalate ([c] :: words) =
      c :: (if words = [] then [] else ' ' :: [' '].intercalate words) := by
    intro words
    cases words with
    | nil => rfl
    | cons word words =>
      rw [if_neg (List.cons_ne_nil _ _), List.intercalate_cons_cons]
      rfl
  have hmore : ∀ (word : List Char) (words : List (List Char)),
      [' '].intercalate ((c :: word) :: words) = c :: [' '].intercalate (word :: words) := by
    intro word words
    cases words with
    | nil => rfl
    | cons next words =>
      rw [List.intercalate_cons_cons, List.intercalate_cons_cons]
      rfl
  cases cs with
  | nil =>
    unfold collapseChars
    rw [wordsChars_last hc (fun d hd => by cases hd), hlast]
    rfl
  | cons d cs =>
    by_cases hd : isSpace d = true
    · rw [behind_space hd]
      unfold lead
      simp only [collapseChars_eq_nil_iff]
      unfold collapseChars
      rw [wordsChars_last hc (fun e he => by cases he; exact hd), hlast, wordsChars_space hd]
    · have hd : isSpace d = false := Bool.eq_false_iff.mpr hd
      obtain ⟨word, words, htail, hall⟩ := wordsChars_cons hc hd cs
      rw [behind_of_head fun e he => by cases he; exact hd]
      unfold collapseChars
      rw [hall, htail, hmore]

theorem collapseChars_eq_nil_iff_forall :
    collapseChars cs = [] ↔ ∀ c ∈ cs, isSpace c = true := by
  induction cs with
  | nil => exact iff_of_true rfl fun c hc => by cases hc
  | cons c cs ih =>
    rw [List.forall_mem_cons]
    by_cases hc : isSpace c = true
    · rw [collapseChars_space hc, ih]
      exact (and_iff_right hc).symm
    · rw [collapseChars_cons (Bool.eq_false_iff.mpr hc)]
      exact iff_of_false (List.cons_ne_nil _ _) fun h => hc h.1

theorem length_lead_le : cs.length ≤ (lead cs).length := by
  unfold lead
  split
  · next hnil => rw [hnil]
  · exact Nat.le_succ _

theorem mem_collapseChars {cs : List Char} {c : Char} (hc : c ∈ collapseChars cs) :
    c ∈ cs ∨ c = ' ' := by
  induction cs with
  | nil => cases hc
  | cons d cs ih =>
    have htail : c ∈ collapseChars cs → c ∈ d :: cs ∨ c = ' ' :=
      fun h => (ih h).imp_left (List.mem_cons_of_mem d)
    by_cases hd : isSpace d = true
    · rw [collapseChars_space hd] at hc
      exact htail hc
    · rw [collapseChars_cons (Bool.eq_false_iff.mpr hd)] at hc
      rcases List.mem_cons.mp hc with rfl | hc
      · exact .inl (.head _)
      · rcases behind_cases cs with h | ⟨-, h⟩
        · exact htail (h ▸ hc)
        · rw [h] at hc
          rcases List.mem_cons.mp hc with rfl | hc
          · exact .inr rfl
          · exact htail hc

/-! ## Blanks -/

def Blank : Prop := ∀ c ∈ cs, isSpace c = true → c = ' '

theorem Blank.sublist {cs ds : List Char} (h : Blank ds) (hsub : cs.Sublist ds) : Blank cs :=
  fun c hc => h c (hsub.subset hc)

/-- All white space is blanks, no two together. -/
structure Spaced (cs : List Char) : Prop where
  blank : Blank cs
  apart : cs.IsChain fun c d => isSpace c = true → isSpace d = false

theorem spaced_nil : Spaced [] where
  blank _ hc := by cases hc
  apart := .nil

theorem spaced_word {c : Char} (hc : isSpace c = false) {cs : List Char} (h : Spaced cs) :
    Spaced (c :: cs) where
  blank d hd hspace := by
    rcases List.mem_cons.mp hd with rfl | hd
    · rw [hc] at hspace
      cases hspace
    · exact h.blank d hd hspace
  apart := by
    rw [List.isChain_cons]
    refine ⟨fun d _ hspace => ?_, h.apart⟩
    rw [hc] at hspace
    cases hspace

theorem spaced_blank {cs : List Char} (h : Spaced cs)
    (hcs : ∀ d, cs.head? = some d → isSpace d = false) : Spaced (' ' :: cs) where
  blank d hd hspace := by
    rcases List.mem_cons.mp hd with rfl | hd
    · rfl
    · exact h.blank d hd hspace
  apart := by
    rw [List.isChain_cons]
    exact ⟨fun d hd _ => hcs d hd, h.apart⟩

theorem Spaced.tail {c : Char} {cs : List Char} (h : Spaced (c :: cs)) : Spaced cs where
  blank d hd := h.blank d (.tail _ hd)
  apart := (List.isChain_cons.mp h.apart).2

theorem Spaced.of_isInfix {cs ds : List Char} (h : Spaced ds) (hin : cs <:+: ds) : Spaced cs where
  blank := h.blank.sublist hin.sublist
  apart := by
    obtain ⟨front, back, rfl⟩ := hin
    exact h.apart.left_of_append.right_of_append

theorem head_collapseChars :
    ∀ c, (collapseChars cs).head? = some c → isSpace c = false := by
  induction cs with
  | nil =>
    intro c hc
    cases hc
  | cons d cs ih =>
    by_cases hd : isSpace d = true
    · rw [collapseChars_space hd]
      exact ih
    · have hd : isSpace d = false := Bool.eq_false_iff.mpr hd
      intro c hc
      rw [collapseChars_cons hd] at hc
      cases hc
      exact hd

theorem spaced_collapseChars : Spaced (collapseChars cs) := by
  induction cs with
  | nil => exact spaced_nil
  | cons d cs ih =>
    by_cases hd : isSpace d = true
    · rw [collapseChars_space hd]
      exact ih
    · have hd : isSpace d = false := Bool.eq_false_iff.mpr hd
      rw [collapseChars_cons hd]
      rcases behind_cases cs with h | ⟨-, h⟩
      · rw [h]
        exact spaced_word hd ih
      · rw [h]
        exact spaced_word hd (spaced_blank ih (head_collapseChars cs))

theorem last_collapseChars :
    ∀ c, (collapseChars cs).getLast? = some c → isSpace c = false := by
  induction cs with
  | nil =>
    intro c hc
    cases hc
  | cons d cs ih =>
    by_cases hd : isSpace d = true
    · rw [collapseChars_space hd]
      exact ih
    · have hd : isSpace d = false := Bool.eq_false_iff.mpr hd
      intro c hc
      rw [collapseChars_cons hd] at hc
      cases hbehind : behind cs with
      | nil =>
        rw [hbehind] at hc
        cases hc
        exact hd
      | cons e es =>
        rw [hbehind, List.getLast?_cons_cons, ← hbehind] at hc
        rcases behind_cases cs with h | ⟨hne, h⟩
        · rw [h] at hc
          exact ih c hc
        · obtain ⟨f, fs, hcons⟩ := List.exists_cons_of_ne_nil hne
          rw [h, hcons, List.getLast?_cons_cons, ← hcons] at hc
          exact ih c hc

theorem tight_collapseChars : Tight (collapseChars cs) where
  head := head_collapseChars cs
  last := last_collapseChars cs

/-- Collapsing blanks takes characters out. -/
theorem behind_sublist {cs : List Char} (h : Blank cs) : (behind cs).Sublist cs := by
  induction cs with
  | nil => exact List.Sublist.refl _
  | cons c cs ih =>
    have hcs : Blank cs := fun d hd => h d (.tail _ hd)
    by_cases hc : isSpace c = true
    · rw [behind_space hc, h c (.head _) hc]
      have htail : (collapseChars cs).Sublist cs := by
        rcases behind_cases cs with hb | ⟨-, hb⟩
        · exact hb ▸ ih hcs
        · exact (List.sublist_cons_self _ _).trans (hb ▸ ih hcs)
      unfold lead
      split
      · exact List.nil_sublist _
      · exact htail.cons_cons _
    · have hc : isSpace c = false := Bool.eq_false_iff.mpr hc
      rw [behind_of_head fun d hd => by cases hd; exact hc, collapseChars_cons hc]
      exact (ih hcs).cons_cons _

theorem collapseChars_sublist {cs : List Char} (h : Blank cs) : (collapseChars cs).Sublist cs := by
  rcases behind_cases cs with hb | ⟨-, hb⟩
  · exact hb ▸ behind_sublist h
  · exact (List.sublist_cons_self _ _).trans (hb ▸ behind_sublist h)

theorem behind_of_spaced {cs : List Char} (h : Spaced cs)
    (hlast : ∀ c, cs.getLast? = some c → isSpace c = false) : behind cs = cs := by
  induction cs with
  | nil => rfl
  | cons c cs ih =>
    have hcs : ∀ d, cs.getLast? = some d → isSpace d = false := by
      intro d hd
      cases cs with
      | nil => cases hd
      | cons e es => exact hlast d (by rw [List.getLast?_cons_cons]; exact hd)
    by_cases hc : isSpace c = true
    · have hne : cs ≠ [] := by
        rintro rfl
        rw [hlast c rfl] at hc
        cases hc
      have hhead : ∀ d, cs.head? = some d → isSpace d = false := fun d hd =>
        (List.isChain_cons.mp h.apart).1 d hd hc
      rw [behind_space hc, ← behind_of_head hhead, ih h.tail hcs, lead, if_neg hne,
        h.blank c (.head _) hc]
    · have hc : isSpace c = false := Bool.eq_false_iff.mpr hc
      rw [behind_of_head fun d hd => by cases hd; exact hc, collapseChars_cons hc, ih h.tail hcs]

/-- A text with single blanks between its words is left as it is. -/
theorem collapseChars_of_spaced {cs : List Char} (h : Spaced cs) (htight : Tight cs) :
    collapseChars cs = cs := by
  rw [← behind_of_head htight.head]
  exact behind_of_spaced h htight.last

theorem behind_of_word {cs : List Char}
    (hlast : ∀ c, cs.getLast? = some c → isSpace c = false) (h : ' ' ∉ behind cs) :
    behind cs = cs := by
  induction cs with
  | nil => rfl
  | cons c cs ih =>
    by_cases hc : isSpace c = true
    · rw [behind_space hc] at h
      have hnil : collapseChars cs = [] := by
        by_contra hne
        rw [lead, if_neg hne] at h
        exact h (.head _)
      -- then the text ends in white space
      have hall : ∀ d ∈ c :: cs, isSpace d = true := List.forall_mem_cons.mpr
        ⟨hc, (collapseChars_eq_nil_iff_forall cs).mp hnil⟩
      have hend := hlast _ (List.getLast?_eq_some_getLast (List.cons_ne_nil c cs))
      rw [hall _ (List.getLast_mem _)] at hend
      cases hend
    · have hc : isSpace c = false := Bool.eq_false_iff.mpr hc
      have hhead : ∀ d, (c :: cs).head? = some d → isSpace d = false := by
        intro d hd
        cases hd
        exact hc
      rw [behind_of_head hhead, collapseChars_cons hc] at h ⊢
      rw [ih _ fun hmem => h (.tail _ hmem)]
      intro d hd
      cases cs with
      | nil => cases hd
      | cons e es => exact hlast d (by rw [List.getLast?_cons_cons]; exact hd)

theorem collapseChars_of_word {cs : List Char} (htight : Tight cs) (h : ' ' ∉ collapseChars cs) :
    collapseChars cs = cs := by
  rw [← behind_of_head htight.head] at h ⊢
  exact behind_of_word htight.last h

/-- A text collapses by itself when a word goes on behind it. -/
theorem collapseChars_append {cs : List Char}
    (hlast : ∀ c, cs.getLast? = some c → isSpace c = false) {d : Char} (hd : isSpace d = false)
    (ds : List Char) :
    collapseChars (cs ++ d :: ds) = collapseChars cs ++ collapseChars (d :: ds) := by
  have hdne : collapseChars (d :: ds) ≠ [] := by
    rw [collapseChars_cons hd]
    exact List.cons_ne_nil _ _
  induction cs with
  | nil => rfl
  | cons c cs ih =>
    cases cs with
    | nil =>
      have hc := hlast c rfl
      rw [List.cons_append, List.nil_append, collapseChars_cons hc, collapseChars_cons hc,
        behind_of_head fun e he => by cases he; exact hd]
      rfl
    | cons e es =>
      have ih := ih fun c hc => hlast c (by rw [List.getLast?_cons_cons]; exact hc)
      by_cases hc : isSpace c = true
      · rw [List.cons_append, collapseChars_space hc, collapseChars_space hc]
        exact ih
      · have hc : isSpace c = false := Bool.eq_false_iff.mpr hc
        rw [List.cons_append, List.cons_append, collapseChars_cons hc, collapseChars_cons hc,
          List.cons_append]
        rw [List.cons_append] at ih
        congr 1
        by_cases he : isSpace e = true
        · rw [behind_space he, behind_space he]
          rw [collapseChars_space he, collapseChars_space he] at ih
          have hes : collapseChars es ≠ [] := by
            -- the text ends in a character of a word
            intro hnil
            have hall : ∀ f ∈ e :: es, isSpace f = true := List.forall_mem_cons.mpr
              ⟨he, (collapseChars_eq_nil_iff_forall es).mp hnil⟩
            have hend := hlast _ (List.getLast?_eq_some_getLast (List.cons_ne_nil c (e :: es)))
            rw [List.getLast_cons (List.cons_ne_nil e es), hall _ (List.getLast_mem _)] at hend
            cases hend
          unfold lead
          rw [if_neg hes, if_neg (by rw [ih]; exact List.append_ne_nil_of_left_ne_nil hes _), ih]
          rfl
        · have he : isSpace e = false := Bool.eq_false_iff.mpr he
          rw [behind_of_head fun f hf => by cases hf; exact he, ih,
            behind_of_head fun f hf => by cases hf; exact he]

end AgentBack.Text
