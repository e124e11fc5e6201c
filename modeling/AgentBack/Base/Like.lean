import Mathlib.Data.List.Infix

/-!
# Finding a text in a text

`like` is SQL's `LIKE` with its wildcards and the escape `\`; a pattern `%text%` without them asks
whether the text occurs (`like_contains`). A text that is free of a delimiter occurs in a join at it
exactly when it occurs in a part (`infix_intercalate_iff`).
-/

namespace AgentBack

universe u

/-- `text` begins with a character that a pattern allows, and its rest is as the pattern goes on. -/
def likeHead (allows : Char → Bool) (goesOn : List Char → Bool) : List Char → Bool
  | [] => false
  | c :: rest => allows c && goesOn rest

/-- `text LIKE pattern`. -/
def like : List Char → List Char → Bool
  | [], text => text.isEmpty
  | c :: pattern, text =>
    if c = '%' then text.tails.any fun rest => like pattern rest
    else if c = '_' then likeHead (fun _ => true) (fun rest => like pattern rest) text
    else if c = '\\' then
      match pattern with
      | [] => false
      | escaped :: pattern => likeHead (· == escaped) (fun rest => like pattern rest) text
    else likeHead (· == c) (fun rest => like pattern rest) text

/-- A character that stands for itself in a pattern. -/
def Literal (c : Char) : Prop := c ≠ '%' ∧ c ≠ '_' ∧ c ≠ '\\'

instance (c : Char) : Decidable (Literal c) := inferInstanceAs (Decidable (_ ∧ _))

theorem like_cons_literal {c : Char} (h : Literal c) (pattern text : List Char) :
    like (c :: pattern) text = true ↔ ∃ rest, text = c :: rest ∧ like pattern rest = true := by
  obtain ⟨hpercent, hunderscore, hescape⟩ := h
  rw [like.eq_def]
  dsimp only
  rw [if_neg hpercent, if_neg hunderscore, if_neg hescape]
  cases text with
  | nil =>
    constructor
    · intro h
      cases h
    · rintro ⟨rest, htext, -⟩
      cases htext
  | cons d rest =>
    rw [likeHead, Bool.and_eq_true, beq_iff_eq]
    constructor
    · rintro ⟨rfl, hrest⟩
      exact ⟨rest, rfl, hrest⟩
    · rintro ⟨rest', htext, hrest⟩
      cases htext
      exact ⟨rfl, hrest⟩

/-- A pattern that begins with a plain text asks for this text at the beginning. -/
theorem like_append_literal {part : List Char} (h : ∀ c ∈ part, Literal c)
    (pattern text : List Char) :
    like (part ++ pattern) text = true ↔ ∃ rest, text = part ++ rest ∧ like pattern rest = true := by
  induction part generalizing text with
  | nil => simp
  | cons c part ih =>
    have htail := ih fun d hd => h d (List.mem_cons_of_mem c hd)
    rw [List.cons_append, like_cons_literal (h c (.head _))]
    constructor
    · rintro ⟨rest, rfl, hrest⟩
      obtain ⟨rest', rfl, hlike⟩ := (htail rest).mp hrest
      exact ⟨rest', rfl, hlike⟩
    · rintro ⟨rest, rfl, hlike⟩
      exact ⟨part ++ rest, rfl, (htail _).mpr ⟨rest, rfl, hlike⟩⟩

theorem like_percent (pattern text : List Char) :
    like ('%' :: pattern) text = true ↔ ∃ rest, rest <:+ text ∧ like pattern rest = true := by
  rw [like.eq_def]
  dsimp only
  rw [if_pos rfl, List.any_eq_true]
  exact exists_congr fun rest => and_congr_left fun _ => List.mem_tails rest text

/-- The pattern `%part%` of a plain text asks whether it occurs. -/
theorem like_contains {part : List Char} (h : ∀ c ∈ part, Literal c) (text : List Char) :
    like ('%' :: part ++ ['%']) text = true ↔ part <:+: text := by
  rw [List.cons_append, like_percent]
  constructor
  · rintro ⟨rest, hsuffix, hlike⟩
    obtain ⟨tail, rfl, -⟩ := (like_append_literal h _ _).mp hlike
    exact (List.prefix_append part tail).isInfix.trans hsuffix.isInfix
  · rintro ⟨front, back, rfl⟩
    refine ⟨part ++ back, ?_, (like_append_literal h _ _).mpr ⟨back, rfl, ?_⟩⟩
    · rw [List.append_assoc]
      exact List.suffix_append _ _
    · rw [like_percent]
      exact ⟨[], List.nil_suffix, rfl⟩

section Joins

variable {α : Type u} {part : List α}

theorem prefix_of_prefix_append_cons {d : α} (h : d ∉ part) (front : List α) {back : List α}
    (hpre : part <+: front ++ d :: back) : part <+: front := by
  rcases List.prefix_or_prefix_of_prefix hpre (List.prefix_append front _) with
    hfront | ⟨rest, rfl⟩
  · exact hfront
  · rcases List.prefix_cons_iff.mp ((List.prefix_append_right_inj front).mp hpre) with
      rfl | ⟨rest, rfl, -⟩
    · rw [List.append_nil]
    · exact absurd (List.mem_append_right front (.head _)) h

/-- A text without a delimiter occurs on one side of it. -/
theorem infix_append_cons_iff {d : α} (h : d ∉ part) {front back : List α} :
    part <:+: front ++ d :: back ↔ part <:+: front ∨ part <:+: back := by
  constructor
  · intro hinfix
    induction front with
    | nil =>
      rcases List.infix_cons_iff.mp hinfix with hpre | hback
      · have hnil := List.prefix_nil.mp (prefix_of_prefix_append_cons h [] hpre)
        rw [hnil]
        exact .inl List.nil_infix
      · exact .inr hback
    | cons a front ih =>
      rcases List.infix_cons_iff.mp hinfix with hpre | hrest
      · exact .inl (prefix_of_prefix_append_cons h (a :: front) hpre).isInfix
      · exact (ih hrest).imp_left fun hfront => List.infix_cons_iff.mpr (.inr hfront)
  · rintro (hfront | hback)
    · exact hfront.trans (List.prefix_append _ _).isInfix
    · exact hback.trans ((List.suffix_cons d back).trans (List.suffix_append _ _)).isInfix

variable {sep : List α} (hsep : sep ≠ []) (h : ∀ d ∈ sep, d ∉ part)
include hsep h

theorem infix_append_append_iff {front back : List α} :
    part <:+: front ++ (sep ++ back) ↔ part <:+: front ∨ part <:+: back := by
  induction sep generalizing front with
  | nil => exact absurd rfl hsep
  | cons d sep ih =>
    have hrest : ∀ d ∈ sep, d ∉ part := fun d hd => h d (.tail _ hd)
    rw [List.cons_append, infix_append_cons_iff (h d (.head _))]
    by_cases hnil : sep = []
    · rw [hnil, List.nil_append]
    · refine or_congr_right ?_
      have hback : part <:+: [] ++ (sep ++ back) ↔ part <:+: [] ∨ part <:+: back := ih hnil hrest
      rw [List.nil_append] at hback
      rw [hback]
      constructor
      · rintro (hempty | hback)
        · rw [List.infix_nil.mp hempty]
          exact List.nil_infix
        · exact hback
      · exact .inr

/-- A text without the delimiter occurs in a join exactly when it occurs in a part. -/
theorem infix_intercalate_iff (hpart : part ≠ []) (parts : List (List α)) :
    part <:+: sep.intercalate parts ↔ ∃ piece ∈ parts, part <:+: piece := by
  induction parts with
  | nil => simp [hpart]
  | cons piece rest ih =>
    cases rest with
    | nil => simp
    | cons next rest =>
      rw [List.intercalate_cons_cons, List.append_assoc, infix_append_append_iff hsep h, ih]
      simp

end Joins

end AgentBack
