import AgentBack.Base.Split
import AgentBack.Laws.Mail.Routing.Cleaning

/-!
# The label of a theme

A theme `action: subject` is read at its first colon. Cleaning leaves the label as it stands, with
single blanks between its words, unless the label is a reply prefix; and it cleans what stands behind
the colon by itself.
-/

namespace AgentBack.Mail.Routing

open Text (behind collapseChars isSpace lead)

/-- What stands before the colon of a reply prefix. -/
def replyWord (word : List Char) : Bool :=
  decide (word.map foldCase ∈ ["re".toList, "fw".toList, "fwd".toList])

theorem foldCase_ne_colon {c : Char} (hc : c ≠ ':') : foldCase c ≠ ':' := by
  unfold foldCase
  split
  · decide
  split
  · decide
  split
  · decide
  · intro heq
    apply hc
    have hcode := congrArg Char.toNat heq
    rw [Text.toNat_toLower] at hcode
    have hcolon : ':'.toNat = 58 := rfl
    rw [hcolon] at hcode
    split at hcode
    · omega
    · exact Char.toNat_inj.mp (hcode.trans hcolon.symm)

variable {front action : List Char}

theorem dropWord_colon {word : List Char} (hword : ':' ∉ word) (hfront : ':' ∉ front)
    (rest : List Char) : dropWord (word ++ [':']) (front ++ ':' :: rest) =
      if front.map foldCase = word then some rest else none := by
  have hcolon : foldCase ':' = ':' := by decide
  induction word generalizing front with
  | nil =>
    cases front with
    | nil =>
      rw [List.nil_append, List.nil_append, dropWord, if_pos hcolon, List.map_nil, if_pos rfl,
        dropWord]
    | cons c front =>
      have hc : c ≠ ':' := fun heq => hfront (heq ▸ List.mem_cons_self)
      rw [List.nil_append, List.cons_append, dropWord, if_neg (foldCase_ne_colon hc),
        List.map_cons, if_neg (List.cons_ne_nil _ _)]
  | cons p word ih =>
    have hp : foldCase ':' ≠ p := by
      rw [hcolon]
      exact fun heq => hword (heq ▸ List.mem_cons_self)
    cases front with
    | nil =>
      rw [List.nil_append, List.cons_append, dropWord, if_neg hp, List.map_nil,
        if_neg (List.cons_ne_nil _ _).symm]
    | cons c front =>
      rw [List.cons_append, List.cons_append, dropWord, List.map_cons,
        ih (fun hmem => hword (.tail _ hmem))
          (fun hmem => hfront (.tail _ hmem))]
      by_cases hc : foldCase c = p
      · rw [if_pos hc, hc]
        by_cases hmap : front.map foldCase = word
        · rw [if_pos hmap, if_pos (by rw [hmap])]
        · rw [if_neg hmap, if_neg fun heq => hmap (List.cons.inj heq).2]
      · rw [if_neg hc, if_neg fun heq => hc (List.cons.inj heq).1]

theorem dropReply_colon (hfront : ':' ∉ front) (rest : List Char) :
    dropReply (front ++ ':' :: rest) =
      if replyWord front then rest.dropWhile isSpace else front ++ ':' :: rest := by
  have hwords : (["re:".toList, "fw:".toList, "fwd:".toList] : List (List Char)) =
      ["re", "fw", "fwd"].map fun word => word.toList ++ [':'] := by decide
  have hre : ':' ∉ "re".toList := by decide
  have hfw : ':' ∉ "fw".toList := by decide
  have hfwd : ':' ∉ "fwd".toList := by decide
  unfold dropReply replyWord
  rw [hwords]
  simp only [List.map_cons, List.map_nil, List.findSome?_cons, List.findSome?_nil,
    dropWord_colon hre hfront, dropWord_colon hfw hfront, dropWord_colon hfwd hfront,
    List.mem_cons, List.not_mem_nil, or_false, decide_eq_true_eq]
  by_cases h1 : front.map foldCase = "re".toList
  · rw [if_pos h1, if_pos (Or.inl h1)]
  by_cases h2 : front.map foldCase = "fw".toList
  · rw [if_neg h1, if_pos h2, if_pos (Or.inr (Or.inl h2))]
  by_cases h3 : front.map foldCase = "fwd".toList
  · rw [if_neg h1, if_neg h2, if_pos h3, if_pos (Or.inr (Or.inr h3))]
  · rw [if_neg h1, if_neg h2, if_neg h3, if_neg (not_or.mpr ⟨h1, not_or.mpr ⟨h2, h3⟩⟩)]

/-! ## Themes with a label -/

/-- The first group of `_ACTION_THEME_RE`. -/
def isLabel : List Char → Bool
  | [] => false
  | c :: run => isThemeLetter c && (run.all fun c => isThemeLetter c || isSpace c) &&
      decide (run.length ≤ 30)

/-- The second group of `_ACTION_THEME_RE`, of what stands behind the colon. -/
def labelText (tail : List Char) : List Char :=
  match tail.dropWhile isSpace, tail.getLast? with
  | [], some last => [last]
  | text, _ => text

theorem isThemeLetter_colon : isThemeLetter ':' = false := by decide

theorem isSpace_colon : isSpace ':' = false := by decide

theorem colon_notMem_of_isLabel (h : isLabel front = true) : ':' ∉ front := by
  cases front with
  | nil => cases h
  | cons c run =>
    unfold isLabel at h
    rw [Bool.and_eq_true, Bool.and_eq_true] at h
    intro hmem
    rcases List.mem_cons.mp hmem with rfl | hmem
    · rw [isThemeLetter_colon] at h
      cases h.1.1
    · have := List.all_eq_true.mp h.1.2 ':' hmem
      rw [isThemeLetter_colon, isSpace_colon] at this
      cases this

theorem matchActionTheme_colon {tail : List Char} (hfront : isLabel front = true)
    (htail : tail ≠ []) : matchActionTheme (String.ofList (front ++ ':' :: tail)) =
      some (String.ofList front, String.ofList (labelText tail)) := by
  cases front with
  | nil => cases hfront
  | cons c run =>
    unfold isLabel at hfront
    rw [Bool.and_eq_true, Bool.and_eq_true] at hfront
    obtain ⟨⟨hc, hrun⟩, hlength⟩ := hfront
    have hcolon : ¬ (isThemeLetter ':' || isSpace ':') = true := by decide
    have hrun := List.all_eq_true.mp hrun
    have htake : (':' :: tail).takeWhile (fun c => isThemeLetter c || isSpace c) = [] :=
      List.takeWhile_cons_of_neg hcolon
    have hdrop : (':' :: tail).dropWhile (fun c => isThemeLetter c || isSpace c) = ':' :: tail :=
      List.dropWhile_cons_of_neg hcolon
    unfold matchActionTheme
    rw [String.toList_ofList, List.cons_append]
    simp only
    rw [List.takeWhile_append_of_pos hrun, List.dropWhile_append_of_pos hrun, htake, hdrop,
      List.append_nil]
    simp only
    rw [hc, hlength, Bool.true_and, if_pos rfl, List.getLast?_eq_some_getLast htail]
    unfold labelText
    rw [List.getLast?_eq_some_getLast htail]
    cases tail.dropWhile isSpace with
    | nil => rfl
    | cons d text => rfl

theorem matchActionTheme_eq_some {theme front back : String}
    (h : matchActionTheme theme = some (front, back)) : ∃ tail,
      theme.toList = front.toList ++ ':' :: tail ∧ isLabel front.toList = true ∧ tail ≠ [] ∧
        back.toList = labelText tail := by
  unfold matchActionTheme at h
  split at h
  · cases h
  · next c rest heq =>
    simp only at h
    split at h
    · next tail hdrop =>
      split at h
      · next hlabel =>
        rw [Bool.and_eq_true] at hlabel
        have hrest := List.takeWhile_append_dropWhile
          (p := fun c => isThemeLetter c || isSpace c) (l := rest)
        rw [hdrop] at hrest
        have hall : (rest.takeWhile fun c => isThemeLetter c || isSpace c).all
            (fun c => isThemeLetter c || isSpace c) = true := List.all_takeWhile
        have hfront : isLabel (c :: rest.takeWhile fun c => isThemeLetter c || isSpace c) =
            true := by
          unfold isLabel
          simp only
          rw [hlabel.1, hall, hlabel.2]
          rfl
        split at h
        · cases h
        · next last hspaces hlast =>
          cases h
          refine ⟨tail, ?_, ?_, ?_, ?_⟩
          · rw [heq, String.toList_ofList, List.cons_append, hrest]
          · rw [String.toList_ofList]
            exact hfront
          · rintro rfl
            cases hlast
          · rw [String.toList_ofList, labelText, hspaces, hlast]
        · next last hlast hne =>
          cases h
          refine ⟨tail, ?_, ?_, ?_, ?_⟩
          · rw [heq, String.toList_ofList, List.cons_append, hrest]
          · rw [String.toList_ofList]
            exact hfront
          · rintro rfl
            cases hlast
          · rw [String.toList_ofList, labelText, hlast]
            split
            · next hspaces _ => exact (hne hspaces).elim
            · rfl
      · cases h
    · cases h

theorem labelText_suffix (tail : List Char) : labelText tail <:+ tail := by
  unfold labelText
  split
  · next last _ hlast =>
    obtain ⟨front, hfront⟩ := List.getLast?_eq_some_iff.mp hlast
    exact ⟨front, hfront.symm⟩
  · exact List.dropWhile_suffix _

theorem labelText_blank {cs : List Char} (hne : cs ≠ [])
    (hhead : ∀ c, cs.head? = some c → isSpace c = false) : labelText (' ' :: cs) = cs := by
  have hdrop : (' ' :: cs).dropWhile isSpace = cs := by
    rw [List.dropWhile_cons_of_pos (by decide)]
    cases cs with
    | nil => rfl
    | cons c cs => exact List.dropWhile_cons_of_neg (by rw [hhead c rfl]; decide)
  unfold labelText
  rw [hdrop]
  split
  · exact absurd rfl hne
  · rfl

/-! ## A label put before a text -/

theorem removeTags_append (hfront : '<' ∉ front) (rest : List Char) :
    removeTags (front ++ rest) = front ++ removeTags rest := by
  unfold removeTags
  simp only
  rw [List.length_append, removeAll_append opens_reasoningBlock hfront, List.length_append,
    removeAll_append opens_forbiddenTag hfront]

theorem removeTags_cons {c : Char} (hc : c ≠ '<') (rest : List Char) :
    removeTags (c :: rest) = c :: removeTags rest := by
  have hfront : '<' ∉ [c] := fun hmem => hc (List.mem_singleton.mp hmem).symm
  exact removeTags_append hfront rest

/-- The characters of an action: what `format_action_theme` puts before the colon. -/
structure IsAction (action : List Char) : Prop where
  uncoloned : ':' ∉ action
  untagged : '<' ∉ action
  last : ∀ c, action.getLast? = some c → isSpace c = false

theorem IsAction.colon_notMem (h : IsAction action) : ':' ∉ collapseChars action := by
  intro hmem
  rcases Text.mem_collapseChars hmem with hmem | heq
  · exact h.uncoloned hmem
  · exact absurd heq (by decide)

theorem IsAction.visible_cons (h : IsAction action) (rest : List Char) :
    visible (action ++ ':' :: rest) =
      collapseChars action ++ ':' :: behind (removeTags rest) := by
  unfold visible
  rw [removeTags_append h.untagged, removeTags_cons (by decide),
    Text.collapseChars_append h.last isSpace_colon, Text.collapseChars_cons isSpace_colon]

theorem behind_removeTags_blank (text : List Char) :
    behind (removeTags (' ' :: text)) = lead (visible text) := by
  rw [removeTags_cons (by decide), Text.behind_space (by decide)]
  rfl

theorem head_visible (cs : List Char) : ∀ c, (visible cs).head? = some c → isSpace c = false :=
  Text.head_collapseChars _

theorem dropWhile_lead {cs : List Char} (hhead : ∀ c, cs.head? = some c → isSpace c = false) :
    (lead cs).dropWhile isSpace = cs := by
  unfold lead
  split
  · next hnil => rw [hnil, List.dropWhile_nil]
  · next hne =>
    obtain ⟨c, rest, rfl⟩ := List.exists_cons_of_ne_nil hne
    rw [List.dropWhile_cons_of_pos (by decide),
      List.dropWhile_cons_of_neg (by rw [hhead c rfl]; decide)]

section

variable (h : IsAction action) (hreply : replyWord (collapseChars action) = false)
include h hreply

/-- A label that is no reply prefix stays, up to the length of a theme. -/
theorem IsAction.cleaned_colon (rest : List Char) :
    cleaned (action ++ ':' :: rest) =
      (collapseChars action ++ ':' :: behind (removeTags rest)).take themeMaxLen := by
  have hplain : plainText (action ++ ':' :: rest) =
      collapseChars action ++ ':' :: behind (removeTags rest) := by
    unfold plainText
    rw [h.visible_cons, dropReply_colon h.colon_notMem, hreply, if_neg Bool.false_ne_true]
  unfold cleaned
  rw [hplain, if_neg (List.append_ne_nil_of_right_ne_nil _ (List.cons_ne_nil _ _))]

theorem IsAction.cleaned_blank (text : List Char) :
    cleaned (action ++ ':' :: ' ' :: text) =
      (collapseChars action ++ ':' :: lead (visible text)).take themeMaxLen := by
  rw [h.cleaned_colon hreply, behind_removeTags_blank]

end

theorem IsAction.cleaned_reply (h : IsAction action)
    (hreply : replyWord (collapseChars action) = true) (text : List Char) :
    cleaned (action ++ ':' :: ' ' :: text) = if visible text = [] then noTheme.toList
      else (visible text).take themeMaxLen := by
  have hplain : plainText (action ++ ':' :: ' ' :: text) = visible text := by
    unfold plainText
    rw [h.visible_cons, behind_removeTags_blank, dropReply_colon h.colon_notMem, hreply,
      if_pos rfl, dropWhile_lead (head_visible text)]
  unfold cleaned
  rw [hplain]

end AgentBack.Mail.Routing

/-!
# The theme that is kept

A theme that was formatted is kept when its text is the whole cleaned subject: nothing is left in the
subject to clean, it has no label of its own, and with the action before it it is not cut. Comparing
the two without their case decides no more than comparing them, since the text of the theme is what
is left of the subject.
-/

namespace AgentBack.Mail.Routing

open Text (Blank behind collapse collapseChars isSpace lead lowerRu strip)

/-- An ASCII or a Russian letter, or another ASCII character. -/
def isRussian (c : Char) : Bool :=
  decide (c.toNat < 128 ∨ (0x410 ≤ c.toNat ∧ c.toNat ≤ 0x44f) ∨ c = 'Ё' ∨ c = 'ё')

/-- What the comparison of themes relies on of `str.lower`: every character is lowered to a number of
characters of its own, one or more, and the ASCII and the Russian letters to their small letters. -/
structure LowersThemes (lower : String → String) : Prop where
  width : ∃ width : Char → Nat, (∀ c, 0 < width c) ∧
    ∀ s, (lower s).length = (s.toList.map width).sum
  russian : ∀ s, (s.toList.all isRussian) = true → lower s = lowerRu s

theorem lowersThemes_lowerRu : LowersThemes lowerRu where
  width := by
    refine ⟨fun _ => 1, fun _ => Nat.one_pos, fun s => ?_⟩
    unfold lowerRu
    rw [String.length_ofList, List.length_map, List.map_const', List.sum_replicate_nat,
      Nat.mul_one]
  russian _ _ := rfl

theorem width_le_of_sublist (width : Char → Nat) {cs ds : List Char} (hsub : cs.Sublist ds) :
    (cs.map width).sum ≤ (ds.map width).sum := by
  induction hsub with
  | slnil => exact le_refl _
  | cons d _ ih =>
    rw [List.map_cons, List.sum_cons]
    exact ih.trans (Nat.le_add_left _ _)
  | cons_cons d _ ih =>
    rw [List.map_cons, List.map_cons, List.sum_cons, List.sum_cons]
    exact Nat.add_le_add_left ih _

theorem eq_of_sublist_of_width {width : Char → Nat} (hpos : ∀ c, 0 < width c) {cs ds : List Char}
    (hsub : cs.Sublist ds) (h : (ds.map width).sum ≤ (cs.map width).sum) : cs = ds := by
  induction hsub with
  | slnil => rfl
  | @cons cs ds d hsub ih =>
    have hle := width_le_of_sublist width hsub
    have hd := hpos d
    rw [List.map_cons, List.sum_cons] at h
    omega
  | @cons_cons cs ds d hsub ih =>
    rw [List.map_cons, List.map_cons, List.sum_cons, List.sum_cons] at h
    rw [ih (Nat.le_of_add_le_add_left h)]

/-- A text that lost characters is not lowered to the same. -/
theorem LowersThemes.eq_of_sublist {lower : String → String} (hlower : LowersThemes lower)
    {s t : String} (hsub : s.toList.Sublist t.toList) (h : lower s = lower t) : s = t := by
  obtain ⟨width, hpos, hlength⟩ := hlower.width
  apply String.toList_inj.mp
  apply eq_of_sublist_of_width hpos hsub
  rw [← hlength, ← hlength, h]

/-! ## The theme as it is formatted -/

structure ActionWord (action : String) : Prop where
  uncoloned : ':' ∉ action.toList
  untagged : '<' ∉ action.toList

/-- The action that is put before the subject. -/
def required (action : String) : String := strip (if action = "" then "Запрос" else action)

theorem ActionWord.isAction {action : String} (h : ActionWord action) :
    IsAction (required action).toList := by
  have hword : ActionWord (if action = "" then "Запрос" else action) := by
    split
    · exact ⟨by decide, by decide⟩
    · exact h
  have hsub : ∀ text : String, ∀ c ∈ (strip text).toList, c ∈ text.toList := by
    intro text c hc
    unfold strip at hc
    rw [String.toList_ofList] at hc
    obtain ⟨left, right, heq, -, -⟩ := Text.exists_tight text.toList
    rw [heq]
    exact List.mem_append_right _ (List.mem_append_left _ hc)
  refine ⟨fun hmem => hword.uncoloned (hsub _ _ hmem), fun hmem => hword.untagged (hsub _ _ hmem),
    ?_⟩
  unfold required strip
  rw [String.toList_ofList]
  exact (Text.tight_stripChars _).last

section
variable (lower : String → String)

/-- The subject has the action for its own label. -/
def Fronted (action subject : String) : Prop :=
  ∃ front back, matchActionTheme (sanitizeTheme subject themeMaxLen) = some (front, back) ∧
    lower (strip front) = lower (required action)

/-- What the action is put before: the subject, or its text behind a label. -/
def themeText (subject : String) : String :=
  match matchActionTheme (sanitizeTheme subject themeMaxLen) with
  | some (_, back) => strip back
  | none => sanitizeTheme subject themeMaxLen

theorem formatActionTheme_untitled {subject : String}
    (h : sanitizeTheme subject themeMaxLen = noTheme) (action : String) :
    formatActionTheme lower action subject = noTheme := by
  unfold formatActionTheme
  simp only
  rw [if_pos h, h]

variable {lower}

variable {action subject : String} (hne : sanitizeTheme subject themeMaxLen ≠ noTheme)
include hne

theorem formatActionTheme_fronted (h : Fronted lower action subject) :
    formatActionTheme lower action subject =
      sanitizeTheme (sanitizeTheme subject themeMaxLen) themeMaxLen := by
  obtain ⟨front, back, hmatch, hfront⟩ := h
  unfold formatActionTheme
  simp only
  rw [if_neg hne, hmatch]
  exact if_pos hfront

theorem formatActionTheme_other (h : ¬ Fronted lower action subject) :
    formatActionTheme lower action subject =
      sanitizeTheme (required action ++ ": " ++ themeText subject) themeMaxLen := by
  unfold formatActionTheme themeText
  simp only
  rw [if_neg hne]
  cases hmatch : matchActionTheme (sanitizeTheme subject themeMaxLen) with
  | none => rfl
  | some found =>
    obtain ⟨front, back⟩ := found
    exact if_neg fun hfront => h ⟨front, back, hmatch, hfront⟩

end

theorem strip_sublist (text : String) : (strip text).toList.Sublist text.toList := by
  unfold strip
  rw [String.toList_ofList]
  obtain ⟨left, right, heq, -, -⟩ := Text.exists_tight text.toList
  conv_rhs => rw [heq]
  exact (List.sublist_append_left _ _).trans (List.sublist_append_right _ _)

/-- The text is the whole subject, or shorter than it by a label. -/
theorem themeText_cases (subject : String) :
    (matchActionTheme (sanitizeTheme subject themeMaxLen) = none ∧
      themeText subject = sanitizeTheme subject themeMaxLen) ∨
    ∃ front tail, (sanitizeTheme subject themeMaxLen).toList = front ++ ':' :: tail ∧
      isLabel front = true ∧ (themeText subject).toList.Sublist tail := by
  unfold themeText
  cases hmatch : matchActionTheme (sanitizeTheme subject themeMaxLen) with
  | none => exact .inl ⟨rfl, rfl⟩
  | some found =>
    obtain ⟨front, back⟩ := found
    obtain ⟨tail, htheme, hlabel, -, hback⟩ := matchActionTheme_eq_some hmatch
    refine .inr ⟨front.toList, tail, htheme, hlabel, (strip_sublist back).trans ?_⟩
    rw [hback]
    exact (labelText_suffix tail).sublist

/-! ## A theme that is kept -/

section
variable {lower : String → String}

/-- `resolve_document_theme` returns the explicit theme. -/
def keeps (lower : String → String) (subject explicit : String) : Bool :=
  if explicit ≠ noTheme ∧ isCorruptedTheme explicit subject = false then
    match matchActionTheme explicit with
    | some (_, back) => subjectMatchesThemePart lower back subject
    | none => false
  else false

theorem resolveDocumentTheme_eq (subject theme combinedText processType : String) (claim : Bool) :
    resolveDocumentTheme lower subject theme combinedText processType claim =
      if keeps lower subject (sanitizeTheme theme themeMaxLen) then sanitizeTheme theme themeMaxLen
      else buildActionXmlTheme lower subject combinedText processType claim "" := by
  unfold resolveDocumentTheme keeps
  generalize buildActionXmlTheme lower subject combinedText processType claim "" = rebuilt
  generalize sanitizeTheme theme themeMaxLen = explicit
  rfl

/-- The text of a kept theme is found in the subject. -/
structure Found (subject theme front tail : List Char) : Prop where
  theme_eq : theme = front ++ ':' :: tail
  label : isLabel front = true
  nonempty : tail ≠ []
  titled : cleaned (labelText tail) ≠ noTheme.toList
  same : (cleaned (labelText tail)).Sublist subject → cleaned (labelText tail) = subject

theorem found_of_keeps (hlower : LowersThemes lower) {subject explicit : String}
    (h : keeps lower subject explicit = true) : explicit ≠ noTheme ∧
      ∃ front tail, Found (cleaned subject.toList) explicit.toList front tail := by
  unfold keeps at h
  split at h
  · next hexplicit =>
    split at h
    · next front back hmatch =>
      obtain ⟨tail, htheme, hlabel, htail, hback⟩ := matchActionTheme_eq_some hmatch
      unfold subjectMatchesThemePart at h
      simp only at h
      split at h
      · cases h
      · next hnone =>
        obtain ⟨htitled, -⟩ := not_or.mp hnone
        refine ⟨hexplicit.1, front.toList, tail, htheme, hlabel, htail, ?_, ?_⟩
        · rw [← hback, ← toList_sanitizeTheme]
          exact fun heq => htitled (String.toList_inj.mp heq)
        · rw [← hback, ← toList_sanitizeTheme, ← toList_sanitizeTheme]
          exact fun hsub => congrArg String.toList
            (hlower.eq_of_sublist hsub (of_decide_eq_true h))
    · cases h
  · cases h

section

variable {subject theme front tail : List Char} (h : Found subject theme front tail)
  (hblank : Blank theme)
include h hblank

theorem Found.text_sublist :
    (cleaned (labelText tail)).Sublist (labelText tail) := by
  apply cleaned_sublist _ h.titled
  have htail : tail <:+ theme := by
    rw [h.theme_eq]
    exact (List.suffix_cons _ _).trans (List.suffix_append _ _)
  exact hblank.sublist ((labelText_suffix tail).sublist.trans htail.sublist)

/-- A part of the subject does not hold the whole subject behind a label. -/
theorem Found.not_sublist : ¬ theme.Sublist subject := by
  intro hsub
  have htail : tail.Sublist theme := by
    rw [h.theme_eq]
    exact (List.sublist_cons_self _ _).trans (List.sublist_append_right _ _)
  have htext := (h.text_sublist hblank).trans (labelText_suffix tail).sublist
  have heq := h.same (htext.trans (htail.trans hsub))
  have hle := htext.length_le
  have htheme := hsub.length_le
  rw [h.theme_eq, List.length_append, List.length_cons] at htheme
  rw [heq] at hle
  omega

end

theorem not_keeps_of_sublist (hlower : LowersThemes lower) {subject theme : String}
    (hblank : Blank theme.toList)
    (h : theme.toList = noTheme.toList ∨ theme.toList.Sublist (cleaned subject.toList)) :
    keeps lower subject (sanitizeTheme theme themeMaxLen) = false := by
  apply Bool.eq_false_iff.mpr
  intro hkeeps
  obtain ⟨hne, front, tail, hfound⟩ := found_of_keeps hlower hkeeps
  rw [toList_sanitizeTheme] at hfound
  have htitled : cleaned theme.toList ≠ noTheme.toList := by
    rw [← toList_sanitizeTheme]
    exact fun heq => hne (String.toList_inj.mp heq)
  rcases h with h | h
  · apply htitled
    rw [h]
    decide
  · exact hfound.not_sublist (spaced_cleaned _).blank
      ((cleaned_sublist hblank htitled).trans h)

theorem take_lead (cs : List Char) (n : Nat) : (lead cs).take n = [] ∨
    ∃ m, n = m + 1 ∧ cs ≠ [] ∧ (lead cs).take n = ' ' :: cs.take m := by
  unfold lead
  split
  · exact .inl List.take_nil
  · next hne =>
    cases n with
    | zero => exact .inl rfl
    | succ m => exact .inr ⟨m, rfl, hne, rfl⟩

theorem IsAction.collapse {action : List Char} (h : IsAction action) :
    IsAction (collapseChars action) ∧ collapseChars (collapseChars action) =
      collapseChars action := by
  refine ⟨⟨h.colon_notMem, ?_, Text.last_collapseChars _⟩,
    Text.collapseChars_of_spaced (Text.spaced_collapseChars _) (Text.tight_collapseChars _)⟩
  intro hmem
  rcases Text.mem_collapseChars hmem with hmem | heq
  · exact h.untagged hmem
  · exact absurd heq (by decide)

/-- The text of a theme is found again when it is the whole subject, nothing is left in it to clean,
and it was not cut. -/
theorem Found.labelled {subject action text front tail : List Char} (haction : IsAction action)
    (hreply : replyWord (collapseChars action) = false) (hblank : Blank text)
    (hsub : text.Sublist subject)
    (h : Found subject (cleaned (cleaned (action ++ ':' :: ' ' :: text))) front tail) :
    text = subject ∧ isLabel (collapseChars action) = true ∧ cleaned subject = subject ∧
      (collapseChars action).length + 2 + subject.length ≤ themeMaxLen := by
  obtain ⟨hcollapse, htwice⟩ := haction.collapse
  have hfront := colon_notMem_of_isLabel h.label
  have htheme := h.theme_eq
  generalize hlabel : collapseChars action = label at hcollapse htwice hreply
  have hinner := haction.cleaned_blank (by rw [hlabel]; exact hreply) text
  rw [hlabel] at hinner
  -- the colon of the second pass is the one of the first
  obtain ⟨hlt, hlabel_lt⟩ : label.length < themeMaxLen ∧
      cleaned (action ++ ':' :: ' ' :: text) =
        label ++ ':' :: (lead (visible text)).take (themeMaxLen - label.length - 1) := by
    by_cases hlt : label.length < themeMaxLen
    · exact ⟨hlt, by rw [hinner, take_append_delimiter hlt]⟩
    · exfalso
      rw [List.take_append_of_le_length (Nat.not_lt.mp hlt)] at hinner
      have hne : cleaned (cleaned (action ++ ':' :: ' ' :: text)) ≠ noTheme.toList := by
        intro heq
        have hcolon : ':' ∉ noTheme.toList := by decide
        rw [← heq, htheme] at hcolon
        exact hcolon (List.mem_append_right _ (.head _))
      have hmem : ':' ∈ cleaned (cleaned (action ++ ':' :: ' ' :: text)) := by
        rw [htheme]
        exact List.mem_append_right _ (.head _)
      have hmem := (cleaned_sublist (spaced_cleaned _).blank hne).subset hmem
      rw [hinner] at hmem
      exact hcollapse.uncoloned (List.mem_of_mem_take hmem)
  rw [hlabel_lt, hcollapse.cleaned_colon (by rw [htwice]; exact hreply), htwice] at htheme
  obtain ⟨-, hlabel_eq, htail⟩ := take_append_delimiter_inj hcollapse.uncoloned hfront htheme
  generalize hn : themeMaxLen - label.length - 1 = n at htail
  have hnonempty := h.nonempty
  rcases take_lead (visible text) n with hnil | ⟨m, hm, -, htake⟩
  · rw [htail, hnil] at hnonempty
    exact absurd List.take_nil hnonempty
  rw [htake, behind_removeTags_blank] at htail
  rcases take_lead (visible ((visible text).take m)) n with hnil | ⟨m', hm', -, htake⟩
  · rw [htail] at hnonempty
    exact absurd hnil hnonempty
  rw [htake, Nat.succ.inj (hm'.symm.trans hm)] at htail
  have hvisible := blank_visible text
  have hleft : ((visible ((visible text).take m)).take m).Sublist ((visible text).take m) :=
    (List.take_sublist _ _).trans (visible_sublist (hvisible.sublist (List.take_sublist _ _)))
  have htext : labelText tail = (visible ((visible text).take m)).take m := by
    rw [htail]
    refine labelText_blank ?_ fun c hc => ?_
    · intro hnil
      have htitled := h.titled
      rw [htail, hnil] at htitled
      exact htitled (by decide)
    · rw [List.head?_take] at hc
      split at hc
      · cases hc
      · exact head_visible _ c hc
  -- every step from the subject to the text of the theme takes characters out
  have hall : (cleaned (labelText tail)).Sublist ((visible ((visible text).take m)).take m) := by
    rw [← htext]
    exact h.text_sublist (spaced_cleaned _).blank
  have hdown := hleft.trans ((List.take_sublist _ _).trans (visible_sublist hblank))
  have hsame := h.same (hall.trans (hdown.trans hsub))
  rw [hsame] at hall
  have heq : (visible ((visible text).take m)).take m = subject :=
    (hdown.trans hsub).antisymm hall
  refine ⟨hsub.antisymm (heq ▸ hdown), hlabel_eq ▸ h.label, ?_, ?_⟩
  · rw [htext, heq] at hsame
    exact hsame
  · have hlength := congrArg List.length heq
    rw [List.length_take] at hlength
    omega

/-- The label of a theme: the action with single blanks between its words. -/
def label (action : String) : List Char := collapseChars (required action).toList

/-- The theme shows the whole text behind a label that the pattern of themes reads. -/
structure Labelled (action : String) (text : List Char) : Prop where
  unlabelled : matchActionTheme (String.ofList text) = none
  word : isLabel (label action) = true
  unprefixed : replyWord (label action) = false
  fits : (label action).length + 2 + text.length ≤ themeMaxLen

theorem toList_labelled (action text : String) :
    (action ++ ": " ++ text).toList = action.toList ++ ':' :: ' ' :: text.toList := by
  rw [String.toList_append, String.toList_append, List.append_assoc]
  rfl

theorem themeText_sublist (subject : String) :
    (themeText subject).toList.Sublist (cleaned subject.toList) := by
  rcases themeText_cases subject with ⟨-, heq⟩ | ⟨front, tail, heq, -, hsub⟩
  · rw [heq, toList_sanitizeTheme]
  · rw [toList_sanitizeTheme] at heq
    rw [heq]
    exact hsub.trans ((List.sublist_cons_self _ _).trans (List.sublist_append_right _ _))

theorem matchActionTheme_of_themeText {subject : String}
    (h : (themeText subject).toList = cleaned subject.toList) :
    matchActionTheme (sanitizeTheme subject themeMaxLen) = none := by
  rcases themeText_cases subject with ⟨hnone, -⟩ | ⟨front, tail, heq, -, hsub⟩
  · exact hnone
  · have hle := hsub.length_le
    rw [toList_sanitizeTheme] at heq
    rw [h, heq, List.length_append, List.length_cons] at hle
    omega

theorem blank_themeText (subject : String) : Blank (themeText subject).toList :=
  (spaced_cleaned _).blank.sublist (themeText_sublist subject)

/-- A theme that is kept shows the whole subject. -/
theorem labelled_of_keeps (hlower : LowersThemes lower) {action subject : String}
    (haction : ActionWord action) (hne : sanitizeTheme subject themeMaxLen ≠ noTheme)
    (h : keeps lower subject
      (sanitizeTheme (formatActionTheme lower action subject) themeMaxLen) = true) :
    Labelled action (cleaned subject.toList) ∧
      cleaned (cleaned subject.toList) = cleaned subject.toList := by
  have hnot : ∀ theme : String, keeps lower subject (sanitizeTheme theme themeMaxLen) = true →
      Blank theme.toList → theme.toList ≠ noTheme.toList ∧
        ¬ theme.toList.Sublist (cleaned subject.toList) := by
    intro theme hkeeps hblank
    rw [← not_or]
    intro hor
    rw [not_keeps_of_sublist hlower hblank hor] at hkeeps
    cases hkeeps
  by_cases hfronted : Fronted lower action subject
  · rw [formatActionTheme_fronted hne hfronted] at h
    obtain ⟨htitled, hsub⟩ := hnot _ h (by
      rw [toList_sanitizeTheme]
      exact (spaced_cleaned _).blank)
    rw [toList_sanitizeTheme, toList_sanitizeTheme] at htitled hsub
    exact absurd (cleaned_sublist (spaced_cleaned _).blank htitled) hsub
  · rw [formatActionTheme_other hne hfronted] at h
    have hchars : (sanitizeTheme (required action ++ ": " ++ themeText subject)
        themeMaxLen).toList =
        cleaned ((required action).toList ++ ':' :: ' ' :: (themeText subject).toList) := by
      rw [toList_sanitizeTheme, toList_labelled]
    have hsub := themeText_sublist subject
    cases hreply : replyWord (label action) with
    | true =>
      obtain ⟨htitled, hnotsub⟩ := hnot _ h (by
        rw [hchars]
        exact (spaced_cleaned _).blank)
      rw [hchars, haction.isAction.cleaned_reply hreply] at htitled hnotsub
      split at hnotsub
      · next hnil => exact absurd (if_pos hnil) htitled
      · exact absurd ((List.take_sublist _ _).trans
          ((visible_sublist (blank_themeText subject)).trans hsub)) hnotsub
    | false =>
      obtain ⟨-, front, tail, hfound⟩ := found_of_keeps hlower h
      rw [toList_sanitizeTheme, hchars] at hfound
      obtain ⟨htext, hword, hclean, hfits⟩ :=
        hfound.labelled haction.isAction hreply (blank_themeText subject) hsub
      refine ⟨⟨?_, hword, hreply, hfits⟩, hclean⟩
      rw [← toList_sanitizeTheme, String.ofList_toList]
      exact matchActionTheme_of_themeText htext

variable {action subject : String} (haction : ActionWord action)
  (hne : sanitizeTheme subject themeMaxLen ≠ noTheme) (h : Labelled action (cleaned subject.toList))
  (hclean : cleaned (cleaned subject.toList) = cleaned subject.toList)
include haction hne h hclean

theorem toList_formatActionTheme_of_labelled :
    (formatActionTheme lower action subject).toList =
        label action ++ ':' :: ' ' :: cleaned subject.toList ∧
      cleaned (label action ++ ':' :: ' ' :: cleaned subject.toList) =
        label action ++ ':' :: ' ' :: cleaned subject.toList := by
  have hnone : matchActionTheme (sanitizeTheme subject themeMaxLen) = none := by
    have := h.unlabelled
    rw [← toList_sanitizeTheme, String.ofList_toList] at this
    exact this
  have hfronted : ¬ Fronted lower action subject := by
    rintro ⟨front, back, hmatch, -⟩
    rw [hnone] at hmatch
    cases hmatch
  have htext : (themeText subject).toList = cleaned subject.toList := by
    unfold themeText
    rw [hnone]
    exact toList_sanitizeTheme subject
  have huntouched := (cleaned_cleaned_iff _).mp hclean
  have hvisible := huntouched.visible_eq (spaced_cleaned _) (head_cleaned subject.toList)
  have hlead : lead (cleaned subject.toList) = ' ' :: cleaned subject.toList :=
    if_neg (cleaned_ne_nil _)
  have hfits := h.fits
  have hwhole : (label action ++ ':' :: ' ' :: cleaned subject.toList).take themeMaxLen =
      label action ++ ':' :: ' ' :: cleaned subject.toList := by
    apply List.take_of_length_le
    rw [List.length_append, List.length_cons, List.length_cons]
    omega
  obtain ⟨hcollapse, htwice⟩ := haction.isAction.collapse
  constructor
  · rw [formatActionTheme_other hne hfronted, toList_sanitizeTheme, toList_labelled, htext,
      haction.isAction.cleaned_blank h.unprefixed, hvisible, hlead]
    exact hwhole
  · have hblank := hcollapse.cleaned_blank (by rw [htwice]; exact h.unprefixed)
      (cleaned subject.toList)
    rw [htwice, hvisible, hlead] at hblank
    exact hblank.trans hwhole

theorem keeps_of_labelled :
    sanitizeTheme (formatActionTheme lower action subject) themeMaxLen =
        formatActionTheme lower action subject ∧
      keeps lower subject (formatActionTheme lower action subject) = true := by
  obtain ⟨hchars, hagain⟩ : (formatActionTheme lower action subject).toList = _ ∧ _ :=
    toList_formatActionTheme_of_labelled haction hne h hclean
  generalize formatActionTheme lower action subject = theme at hchars
  have hsame : sanitizeTheme theme themeMaxLen = theme := by
    apply String.toList_inj.mp
    rw [toList_sanitizeTheme, hchars, hagain]
  have htitled : theme ≠ noTheme := by
    rintro rfl
    have hcolon : ':' ∉ noTheme.toList := by decide
    rw [hchars] at hcolon
    exact hcolon (List.mem_append_right _ (.head _))
  have hmatch : matchActionTheme theme =
      some (String.ofList (label action), sanitizeTheme subject themeMaxLen) := by
    have := matchActionTheme_colon h.word (List.cons_ne_nil ' ' (cleaned subject.toList))
    rw [← hchars, String.ofList_toList,
      labelText_blank (cleaned_ne_nil _) (head_cleaned subject.toList), ← toList_sanitizeTheme,
      String.ofList_toList] at this
    exact this
  have htwice : sanitizeTheme (sanitizeTheme subject themeMaxLen) themeMaxLen =
      sanitizeTheme subject themeMaxLen := by
    apply String.toList_inj.mp
    rw [toList_sanitizeTheme, toList_sanitizeTheme, hclean]
  have hsound : isCorruptedTheme theme subject = false := by
    unfold isCorruptedTheme
    simp only
    rw [hsame, if_neg (not_or.mpr ⟨htitled, hne⟩), hmatch]
    have hle := (strip_sublist (sanitizeTheme subject themeMaxLen)).length_le
    rw [String.length_toList, String.length_toList] at hle
    apply if_neg
    rintro ⟨-, hlonger⟩
    simp only at hlonger
    omega
  refine ⟨hsame, ?_⟩
  unfold keeps
  rw [if_pos ⟨htitled, hsound⟩, hmatch]
  unfold subjectMatchesThemePart
  simp only
  rw [htwice, if_neg (not_or.mpr ⟨hne, hne⟩)]
  exact decide_eq_true rfl

end

end AgentBack.Mail.Routing
