import AgentBack.Base.Collapse
import AgentBack.Laws.Mail.Routing.ReadBack

/-!
# A theme cleaned again

Cleaning takes characters out: tags, white space, one reply prefix, and the end of a long text. A
second pass leaves the theme as it is exactly when it finds none of these (`cleaned_eq_self_iff`).
The first pass can leave all three: a tag that its own removal put together, the second of two reply
prefixes, and a blank where the text was cut.
-/

namespace AgentBack.Mail.Routing

open Text (Blank Spaced Tight behind collapse collapseChars isSpace lead strip stripChars)

/-- A match begins with `<` and leaves what stands behind it. -/
def Opens (matchAt : List Char → Option (List Char)) : Prop :=
  ∀ cs rest, matchAt cs = some rest → ∃ inner, cs = '<' :: inner ∧ rest <:+ inner

section
variable {matchAt : List Char → Option (List Char)}

theorem Opens.length_lt (hopens : Opens matchAt) {cs rest : List Char}
    (h : matchAt cs = some rest) : rest.length < cs.length := by
  obtain ⟨inner, rfl, hsuffix⟩ := hopens cs rest h
  exact Nat.lt_succ_of_le hsuffix.length_le

theorem Opens.eq_none (hopens : Opens matchAt) {c : Char} (hc : c ≠ '<') (cs : List Char) :
    matchAt (c :: cs) = none := by
  cases hmatch : matchAt (c :: cs) with
  | none => rfl
  | some rest =>
    obtain ⟨inner, heq, -⟩ := hopens _ _ hmatch
    exact absurd (List.cons.inj heq).1 hc

theorem removeAll_sublist (hopens : Opens matchAt) (fuel : Nat) (cs : List Char) :
    (removeAll matchAt fuel cs).Sublist cs := by
  induction fuel generalizing cs with
  | zero => exact List.Sublist.refl _
  | succ fuel ih =>
    cases cs with
    | nil => exact List.Sublist.refl _
    | cons c cs =>
      rw [removeAll]
      split
      · next rest hmatch =>
        obtain ⟨inner, heq, hsuffix⟩ := hopens _ _ hmatch
        rw [heq]
        exact (ih rest).trans (hsuffix.sublist.trans (List.sublist_cons_self _ _))
      · exact (ih cs).cons_cons c

theorem removeAll_of_none (fuel : Nat) {cs : List Char}
    (h : ∀ tail, tail <:+ cs → matchAt tail = none) : removeAll matchAt fuel cs = cs := by
  induction fuel generalizing cs with
  | zero => rfl
  | succ fuel ih =>
    cases cs with
    | nil => rfl
    | cons c cs =>
      rw [removeAll, h _ (List.suffix_refl _)]
      simp only
      rw [ih fun tail htail => h tail (htail.trans (List.suffix_cons c cs))]

/-- Where nothing was taken out nothing matched. -/
theorem none_of_removeAll (hopens : Opens matchAt) {fuel : Nat} {cs : List Char}
    (hfuel : cs.length ≤ fuel) (h : removeAll matchAt fuel cs = cs) :
    ∀ tail, tail <:+ cs → matchAt tail = none := by
  have hnil : matchAt [] = none := by
    cases hmatch : matchAt [] with
    | none => rfl
    | some rest => exact absurd (hopens.length_lt hmatch) (Nat.not_lt_zero _)
  induction fuel generalizing cs with
  | zero =>
    intro tail htail
    rw [List.length_eq_zero_iff.mp (Nat.le_zero.mp hfuel), List.suffix_nil] at htail
    exact htail ▸ hnil
  | succ fuel ih =>
    intro tail htail
    cases cs with
    | nil =>
      rw [List.suffix_nil] at htail
      exact htail ▸ hnil
    | cons c cs =>
      rw [removeAll] at h
      split at h
      · next rest hmatch =>
        -- what is left is shorter than the text
        have hshort := hopens.length_lt hmatch
        have hleft := (removeAll_sublist hopens fuel rest).length_le
        rw [h] at hleft
        omega
      · next hmatch =>
        rcases List.suffix_cons_iff.mp htail with heq | htail
        · exact heq ▸ hmatch
        · exact ih (Nat.le_of_succ_le_succ hfuel) (List.cons.inj h).2 tail htail

/-- A text without `<` stays before the rest. -/
theorem removeAll_append (hopens : Opens matchAt) {front : List Char} (hfront : '<' ∉ front)
    (rest : List Char) (fuel : Nat) :
    removeAll matchAt (front.length + fuel) (front ++ rest) =
      front ++ removeAll matchAt fuel rest := by
  induction front with
  | nil => rw [List.length_nil, Nat.zero_add, List.nil_append, List.nil_append]
  | cons c front ih =>
    have hc : c ≠ '<' := fun heq => hfront (heq ▸ List.mem_cons_self)
    rw [List.length_cons, Nat.add_right_comm, List.cons_append, removeAll, hopens.eq_none hc]
    simp only
    rw [ih fun hmem => hfront (.tail _ hmem), List.cons_append]

end

/-! ## Tags -/

variable {cs rest : List Char}

theorem afterTag_suffix (h : afterTag cs = some rest) : rest <:+ cs := by
  unfold afterTag at h
  split at h
  · next c tail heq =>
    rw [Option.some.inj h] at heq
    exact (List.suffix_cons c rest).trans (heq ▸ List.dropWhile_suffix _)
  · cases h

theorem reasoningTag_suffix (h : reasoningTag cs = some rest) : rest <:+ cs := by
  unfold reasoningTag at h
  split at h
  · exact afterTag_suffix h
  · cases h

theorem closingTag_suffix (h : closingTag cs = some rest) : rest <:+ cs := by
  unfold closingTag at h
  split at h
  · next inner =>
    obtain ⟨name, -, hname⟩ := List.exists_of_findSome?_eq_some h
    split at hname
    · next tail heq =>
      cases hname
      have htail : rest <:+ inner := (List.suffix_cons _ _).trans (dropWord_suffix heq)
      exact htail.trans ((List.suffix_cons _ _).trans (List.suffix_cons _ _))
    · cases hname
  · cases h

theorem afterClosing_suffix (h : afterClosing cs = some rest) : rest <:+ cs := by
  induction cs with
  | nil => cases h
  | cons c cs ih =>
    rw [afterClosing] at h
    split at h
    · next found hclosing =>
      cases h
      exact closingTag_suffix hclosing
    · exact (ih h).trans (List.suffix_cons c cs)

theorem opens_forbiddenTag : Opens forbiddenTag := by
  intro cs rest h
  unfold forbiddenTag at h
  split at h
  · exact ⟨_, rfl, (reasoningTag_suffix h).trans (List.suffix_cons _ _)⟩
  · exact ⟨_, rfl, reasoningTag_suffix h⟩
  · cases h

theorem opens_reasoningBlock : Opens reasoningBlock := by
  intro cs rest h
  unfold reasoningBlock at h
  split at h
  · obtain ⟨behind, htag, hclosing⟩ := Option.bind_eq_some_iff.mp h
    exact ⟨_, rfl, (afterClosing_suffix hclosing).trans (reasoningTag_suffix htag)⟩
  · cases h

theorem reasoningTag_slash (cs : List Char) : reasoningTag ('/' :: cs) = none := by
  unfold reasoningTag
  apply if_neg
  rw [List.any_eq_true]
  rintro ⟨name, hname, hsome⟩
  have hslash : foldCase '/' = '/' := by decide
  have hall : ∀ name ∈ reasoningNames, name.head?.any fun c => decide (c ≠ '/') := by decide
  have hhead := hall name hname
  cases name with
  | nil => cases hhead
  | cons p word =>
    have hp : '/' ≠ p := fun heq => of_decide_eq_true hhead heq.symm
    rw [dropWord, hslash, if_neg hp] at hsome
    cases hsome

theorem reasoningBlock_of_forbiddenTag (h : forbiddenTag cs = none) : reasoningBlock cs = none := by
  unfold forbiddenTag at h
  split at h
  · unfold reasoningBlock
    simp only
    rw [reasoningTag_slash]
    rfl
  · unfold reasoningBlock
    simp only
    rw [h]
    rfl
  · next hnot =>
    unfold reasoningBlock
    split
    · exact absurd rfl (hnot _)
    · rfl

/-! ## The steps of cleaning -/

def removeTags (cs : List Char) : List Char :=
  let blocks := removeAll reasoningBlock cs.length cs
  removeAll forbiddenTag blocks.length blocks

/-- The text that a reader sees: no tags, and single blanks between the words. -/
def visible (cs : List Char) : List Char := collapseChars (removeTags cs)

/-- The text that a reader sees, without a reply prefix. -/
def plainText (cs : List Char) : List Char := dropReply (visible cs)

/-- `sanitize_theme`, on the characters. -/
def cleaned (cs : List Char) : List Char :=
  if plainText cs = [] then noTheme.toList else (plainText cs).take themeMaxLen

theorem removeTags_sublist (cs : List Char) : (removeTags cs).Sublist cs :=
  (removeAll_sublist opens_forbiddenTag _ _).trans (removeAll_sublist opens_reasoningBlock _ _)

theorem toList_sanitizeTheme (theme : String) :
    (sanitizeTheme theme themeMaxLen).toList = cleaned theme.toList := by
  have hblank : strip theme = "" → plainText theme.toList = [] := by
    intro hstrip
    have hchars : stripChars theme.toList = [] := by
      have := congrArg String.toList hstrip
      unfold strip at this
      rw [String.toList_ofList] at this
      exact this
    obtain ⟨left, right, heq, hleft, hright⟩ := Text.exists_tight theme.toList
    rw [hchars, List.nil_append] at heq
    have hvisible : visible theme.toList = [] := by
      apply (Text.collapseChars_eq_nil_iff_forall _).mpr
      intro c hc
      have hmem := (removeTags_sublist _).subset hc
      rw [heq] at hmem
      rcases List.mem_append.mp hmem with hc | hc
      · exact hleft c hc
      · exact hright c hc
    unfold plainText
    rw [hvisible]
    rfl
  have hsteps : dropReply (collapse (stripForbiddenTags (String.ofList
      (removeAll reasoningBlock theme.toList.length theme.toList)))).toList =
      plainText theme.toList := by
    unfold plainText visible removeTags stripForbiddenTags
    rw [Text.toList_collapse, String.toList_ofList, String.toList_ofList]
  unfold sanitizeTheme cleaned
  by_cases hstrip : strip theme = ""
  · rw [if_pos hstrip, if_pos (hblank hstrip)]
  · rw [if_neg hstrip]
    simp only
    rw [hsteps]
    split
    · rfl
    · exact String.toList_ofList

theorem visible_sublist (h : Blank cs) : (visible cs).Sublist cs :=
  (Text.collapseChars_sublist (h.sublist (removeTags_sublist cs))).trans (removeTags_sublist cs)

theorem plainText_suffix (cs : List Char) : plainText cs <:+ visible cs := dropReply_suffix _

theorem plainText_sublist (h : Blank cs) : (plainText cs).Sublist cs :=
  (plainText_suffix cs).sublist.trans (visible_sublist h)

theorem blank_visible (cs : List Char) : Blank (visible cs) :=
  (Text.spaced_collapseChars _).blank

theorem cleaned_sublist (h : Blank cs) (hne : cleaned cs ≠ noTheme.toList) :
    (cleaned cs).Sublist cs := by
  unfold cleaned at hne ⊢
  split
  · next hnil => exact absurd (if_pos hnil) hne
  · exact (List.take_sublist _ _).trans (plainText_sublist h)

theorem head_dropReply (h : ∀ c, cs.head? = some c → isSpace c = false) :
    ∀ c, (dropReply cs).head? = some c → isSpace c = false := by
  unfold dropReply
  simp only
  split
  · next rest _ =>
    intro c hc
    have hne : rest.dropWhile isSpace ≠ [] := by
      intro hnil
      rw [hnil] at hc
      cases hc
    have hhead := List.head_dropWhile_not isSpace hne
    rw [List.head?_eq_some_head hne] at hc
    cases hc
    exact hhead
  · exact h

theorem spaced_cleaned (cs : List Char) : Spaced (cleaned cs) := by
  unfold cleaned
  split
  · have hnone : collapseChars noTheme.toList = noTheme.toList := by decide
    exact hnone ▸ Text.spaced_collapseChars _
  · exact (Text.spaced_collapseChars (removeTags cs)).of_isInfix
      ((List.take_prefix _ _).isInfix.trans (plainText_suffix cs).isInfix)

theorem head_cleaned (cs : List Char) : ∀ c, (cleaned cs).head? = some c → isSpace c = false := by
  unfold cleaned
  split
  · intro c hc
    rw [← Option.some.inj hc]
    rfl
  · intro c hc
    rw [List.head?_take, if_neg (by decide)] at hc
    exact head_dropReply (Text.head_collapseChars _) c hc

theorem cleaned_ne_nil (cs : List Char) : cleaned cs ≠ [] := by
  unfold cleaned
  split
  · decide
  · next hne =>
    rw [Ne, List.take_eq_nil_iff]
    rintro (h | h)
    · exact absurd h (by decide)
    · exact hne h

theorem length_cleaned_le (cs : List Char) : (cleaned cs).length ≤ themeMaxLen := by
  unfold cleaned
  split
  · decide
  · exact List.length_take_le _ _

/-! ## The second pass -/

/-- A text in which cleaning finds nothing to take out. -/
structure Untouched (cs : List Char) : Prop where
  untagged : ∀ tail, tail <:+ cs → forbiddenTag tail = none
  unprefixed : dropReply cs = cs
  uncut : ∀ c, cs.getLast? = some c → isSpace c = false

theorem Untouched.removeTags_eq (h : Untouched cs) : removeTags cs = cs := by
  unfold removeTags
  simp only
  rw [removeAll_of_none _ fun tail htail => reasoningBlock_of_forbiddenTag (h.untagged tail htail)]
  exact removeAll_of_none _ h.untagged

theorem Untouched.tight (h : Untouched cs)
    (hhead : ∀ c, cs.head? = some c → isSpace c = false) : Tight cs where
  head := hhead
  last := h.uncut

theorem Untouched.visible_eq (h : Untouched cs) (hspaced : Spaced cs)
    (hhead : ∀ c, cs.head? = some c → isSpace c = false) : visible cs = cs := by
  unfold visible
  rw [h.removeTags_eq]
  exact Text.collapseChars_of_spaced hspaced (h.tight hhead)

theorem untouched_of_plainText (hblank : Blank cs) (h : plainText cs = cs) : Untouched cs := by
  have hlength : ∀ ds : List Char, cs.Sublist ds → ds.Sublist cs → ds = cs :=
    fun ds hle hge => (hle.antisymm hge).symm
  have hplain : cs.Sublist (visible cs) := by
    have := (plainText_suffix cs).sublist
    rw [h] at this
    exact this
  have hvisible : visible cs = cs := hlength _ hplain (visible_sublist hblank)
  have htags : removeTags cs = cs := by
    apply hlength _ _ (removeTags_sublist cs)
    have := Text.collapseChars_sublist (hblank.sublist (removeTags_sublist cs))
    rw [show collapseChars (removeTags cs) = cs from hvisible] at this
    exact this
  have hblocks : removeAll reasoningBlock cs.length cs = cs := by
    apply hlength _ _ (removeAll_sublist opens_reasoningBlock _ _)
    have := removeAll_sublist opens_forbiddenTag
      (removeAll reasoningBlock cs.length cs).length (removeAll reasoningBlock cs.length cs)
    rw [show removeAll forbiddenTag _ _ = cs from htags] at this
    exact this
  refine ⟨?_, ?_, ?_⟩
  · apply none_of_removeAll opens_forbiddenTag (le_refl _)
    unfold removeTags at htags
    simp only at htags
    rw [hblocks] at htags
    exact htags
  · unfold plainText at h
    rw [hvisible] at h
    exact h
  · rw [← hvisible]
    exact Text.last_collapseChars _

/-- **A second pass.** Of a text whose white space is single blanks, cleaning changes nothing exactly
when it finds nothing to take out. -/
theorem cleaned_eq_self_iff (hne : cs ≠ []) (hspaced : Spaced cs)
    (hhead : ∀ c, cs.head? = some c → isSpace c = false) (hlength : cs.length ≤ themeMaxLen) :
    cleaned cs = cs ↔ Untouched cs := by
  constructor
  · intro h
    have hplain : plainText cs ≠ [] := by
      intro hnil
      unfold cleaned at h
      rw [if_pos hnil] at h
      have hnone : plainText noTheme.toList ≠ [] := by decide
      rw [h] at hnone
      exact hnone hnil
    apply untouched_of_plainText hspaced.blank
    have hsub := plainText_sublist hspaced.blank
    unfold cleaned at h
    rw [if_neg hplain, List.take_of_length_le (hsub.length_le.trans hlength)] at h
    exact h
  · intro h
    have hplain : plainText cs = cs := by
      unfold plainText
      rw [h.visible_eq hspaced hhead, h.unprefixed]
    unfold cleaned
    rw [hplain, if_neg hne, List.take_of_length_le hlength]

theorem cleaned_cleaned_iff (cs : List Char) :
    cleaned (cleaned cs) = cleaned cs ↔ Untouched (cleaned cs) :=
  cleaned_eq_self_iff (cleaned_ne_nil cs) (spaced_cleaned cs) (head_cleaned cs)
    (length_cleaned_le cs)

theorem untouched_nil : Untouched [] where
  untagged tail htail := by
    rw [List.suffix_nil.mp htail]
    rfl
  unprefixed := rfl
  uncut c hc := by cases hc

theorem untouched_noTheme : Untouched noTheme.toList := by
  have hcleaned : cleaned [] = noTheme.toList := by decide
  rw [← hcleaned]
  exact (cleaned_cleaned_iff []).mp (by decide)

/-- **The condition of the claim on `sanitize_theme`.** What a reader sees of the theme, up to the
length of a theme, holds no tag, no second reply prefix and no blank at its end. -/
theorem sanitizeTheme_sanitizeTheme_iff (theme : String) :
    sanitizeTheme (sanitizeTheme theme themeMaxLen) themeMaxLen = sanitizeTheme theme themeMaxLen ↔
      Untouched ((plainText theme.toList).take themeMaxLen) := by
  rw [← String.toList_inj, toList_sanitizeTheme, toList_sanitizeTheme, cleaned_cleaned_iff]
  unfold cleaned
  split
  · next hnil =>
    rw [hnil, List.take_nil]
    exact iff_of_true untouched_noTheme untouched_nil
  · exact Iff.rfl

end AgentBack.Mail.Routing
