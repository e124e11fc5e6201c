import AgentBack.Laws.Mail.Routing.Kept

/-!
# The theme of a letter, resolved again

A theme that is not kept is built anew, with the action that is inferred without the key phrase: a
claim for a letter that may be about one, and otherwise what the subject and the process say. It is
the same theme only when the letter is about a claim in any case and the theme said so before. So
the action is lost where the subject has a label or a second reply prefix, where the theme was cut,
and where the action is no word for the pattern of themes.
-/

namespace AgentBack.Mail.Routing

open Text (Blank collapse collapseChars contains isSpace lead lowerRu strip)

section
variable {lower : String → String}

/-! ## A theme that is built anew -/

/-- The action of a letter about a claim. -/
def solve : String := "Решить"

theorem actionWord_solve : ActionWord solve where
  uncoloned := by decide
  untagged := by decide

theorem required_solve : required solve = solve := by decide

theorem label_solve : label solve = solve.toList := by decide

variable {action subject : String}

theorem formatActionTheme_congr {action' : String} (h : required action = required action')
    (subject : String) :
    formatActionTheme lower action subject = formatActionTheme lower action' subject := by
  unfold required at h
  unfold formatActionTheme
  simp only
  rw [h]

/-- An action that is written as one word is that word. -/
theorem required_eq_of_label {word : String} (hword : ' ' ∉ word.toList)
    (h : label action = word.toList) : required action = word := by
  have htight : Text.Tight (required action).toList := by
    unfold required strip
    rw [String.toList_ofList]
    exact Text.tight_stripChars _
  unfold label at h
  rw [← h] at hword
  rw [Text.collapseChars_of_word htight hword] at h
  exact String.toList_inj.mp h

theorem isRussian_of_isLabel {front : List Char} (h : isLabel front = true) (hblank : Blank front) :
    front.all isRussian = true := by
  have hletter : ∀ c, isThemeLetter c = true → isRussian c = true := by
    intro c hc
    unfold isThemeLetter at hc
    unfold isRussian
    rw [Bool.or_eq_true, decide_eq_true_eq] at hc
    rw [decide_eq_true_eq]
    rcases hc with hc | hc
    · left
      unfold Char.isAlpha Char.isUpper Char.isLower at hc
      simp only [Bool.or_eq_true, Bool.and_eq_true, decide_eq_true_eq] at hc
      rcases hc with ⟨-, hc⟩ | ⟨-, hc⟩
      · exact Nat.lt_of_le_of_lt hc (by decide)
      · exact Nat.lt_of_le_of_lt hc (by decide)
    · exact .inr (.inl hc)
  apply List.all_eq_true.mpr
  intro c hmem
  cases front with
  | nil => cases hmem
  | cons d run =>
    unfold isLabel at h
    rw [Bool.and_eq_true, Bool.and_eq_true] at h
    rcases List.mem_cons.mp hmem with rfl | hrun
    · exact hletter c h.1.1
    · have hc := List.all_eq_true.mp h.1.2 c hrun
      rw [Bool.or_eq_true] at hc
      rcases hc with hc | hc
      · exact hletter c hc
      · rw [hblank c hmem hc]
        decide

theorem blank_notMem_of_lower (hlower : LowersThemes lower) {front : String}
    (hlabel : isLabel front.toList = true) (hblank : Blank front.toList)
    (h : lower front = lower solve) : ' ' ∉ front.toList := by
  rw [hlower.russian front (isRussian_of_isLabel hlabel hblank),
    hlower.russian solve (by decide)] at h
  intro hmem
  have hchars := congrArg String.toList h
  unfold lowerRu at hchars
  rw [String.toList_ofList, String.toList_ofList] at hchars
  have hspace : Text.lowerRuChar ' ' ∈ front.toList.map Text.lowerRuChar :=
    List.mem_map_of_mem hmem
  rw [hchars] at hspace
  exact absurd hspace (by decide)

theorem toList_formatActionTheme_other (haction : ActionWord action)
    (hne : sanitizeTheme subject themeMaxLen ≠ noTheme) (h : ¬ Fronted lower action subject) :
    (formatActionTheme lower action subject).toList =
      if replyWord (label action) then
        if visible (themeText subject).toList = [] then noTheme.toList
        else (visible (themeText subject).toList).take themeMaxLen
      else (label action ++ ':' :: lead (visible (themeText subject).toList)).take themeMaxLen := by
  rw [formatActionTheme_other hne h, toList_sanitizeTheme, toList_labelled]
  split
  · next hreply => rw [haction.isAction.cleaned_reply hreply]
  · next hreply =>
    rw [haction.isAction.cleaned_blank (Bool.eq_false_iff.mpr hreply)]
    rfl

theorem visible_themeText_sublist (subject : String) :
    (visible (themeText subject).toList).Sublist (themeText subject).toList :=
  visible_sublist (blank_themeText subject)

/-- A subject with a label that is not taken off is its own theme. -/
theorem toList_formatActionTheme_fronted (hne : sanitizeTheme subject themeMaxLen ≠ noTheme)
    (hclean : cleaned (cleaned subject.toList) = cleaned subject.toList)
    (h : Fronted lower action subject) :
    (formatActionTheme lower action subject).toList = cleaned subject.toList := by
  rw [formatActionTheme_fronted hne h, toList_sanitizeTheme, toList_sanitizeTheme, hclean]

theorem noTheme_ne_colon (front tail : List Char) : noTheme.toList ≠ front ++ ':' :: tail := by
  intro heq
  have hcolon : ':' ∉ noTheme.toList := by decide
  rw [heq] at hcolon
  exact hcolon (List.mem_append_right _ (.head _))

theorem fronted_label (h : Fronted lower action subject) :
    ∃ front : String, ∃ tail, cleaned subject.toList = front.toList ++ ':' :: tail ∧
      isLabel front.toList = true ∧ (themeText subject).toList.Sublist tail ∧
      Blank front.toList ∧ lower (strip front) = lower (required action) := by
  obtain ⟨front, back, hmatch, hlower⟩ := h
  obtain ⟨tail, htheme, hlabel, -, -⟩ := matchActionTheme_eq_some hmatch
  rw [toList_sanitizeTheme] at htheme
  refine ⟨front, tail, htheme, hlabel, ?_, ?_, hlower⟩
  · rcases themeText_cases subject with ⟨hnone, -⟩ | ⟨front', tail', htheme', hlabel', hsub⟩
    · rw [hmatch] at hnone
      cases hnone
    · rw [toList_sanitizeTheme, htheme] at htheme'
      obtain ⟨-, htail⟩ := append_delimiter_inj_front (colon_notMem_of_isLabel hlabel)
        (colon_notMem_of_isLabel hlabel') htheme'
      rw [htail]
      exact hsub
  · apply (spaced_cleaned subject.toList).blank.sublist
    rw [htheme]
    exact List.sublist_append_left _ _

/-- The subject with a claim for its own label, taken for another action: only an action that is
lowered to the same leaves it. -/
theorem formatActionTheme_eq_solve_of_fronted (hlower : LowersThemes lower) (haction : ActionWord action)
    (hne : sanitizeTheme subject themeMaxLen ≠ noTheme)
    (hclean : cleaned (cleaned subject.toList) = cleaned subject.toList)
    (hsolve : Fronted lower solve subject)
    (h : formatActionTheme lower action subject = formatActionTheme lower solve subject) :
    lower (required action) = lower solve := by
  obtain ⟨front, tail, htheme, hlabel, hsub, hblank, hfront⟩ := fronted_label hsolve
  rw [required_solve] at hfront
  by_cases hfronted : Fronted lower action subject
  · obtain ⟨front', back', hmatch', hfront'⟩ := hfronted
    obtain ⟨front'', back'', hmatch'', hfront''⟩ := hsolve
    rw [hmatch'] at hmatch''
    cases hmatch''
    rw [← hfront', hfront'', required_solve]
  have hchars := congrArg String.toList h
  rw [toList_formatActionTheme_fronted hne hclean hsolve,
    toList_formatActionTheme_other haction hne hfronted, htheme] at hchars
  split at hchars
  · -- a reply prefix leaves the text alone
    split at hchars
    · exact absurd hchars (noTheme_ne_colon _ _)
    · have hle := (List.take_sublist themeMaxLen _).trans
        ((visible_themeText_sublist subject).trans hsub) |>.length_le
      rw [hchars, List.length_append, List.length_cons] at hle
      omega
  · -- another label would be the label of the subject
    obtain ⟨-, heq, -⟩ := take_append_delimiter_inj haction.isAction.colon_notMem
      (colon_notMem_of_isLabel hlabel) hchars
    have htight : Text.Tight front.toList := by
      rw [← heq]
      exact Text.tight_collapseChars _
    have hstrip : strip front = front := by
      unfold strip
      rw [htight.stripChars_eq, String.ofList_toList]
    rw [hstrip] at hfront
    have hword := blank_notMem_of_lower hlower hlabel hblank hfront
    rw [required_eq_of_label hword heq, hfront]

/-- A subject without that label: only that action leaves the theme of a claim. -/
theorem formatActionTheme_eq_solve_of_not_fronted
    (haction : ActionWord action) (hne : sanitizeTheme subject themeMaxLen ≠ noTheme)
    (hclean : cleaned (cleaned subject.toList) = cleaned subject.toList)
    (hsolve : ¬ Fronted lower solve subject)
    (h : formatActionTheme lower action subject = formatActionTheme lower solve subject) :
    required action = solve := by
  have hcolon : ':' ∉ solve.toList := by decide
  have hlt : solve.toList.length < themeMaxLen := by decide
  have hreply : replyWord (label solve) = false := by decide
  have hchars := congrArg String.toList h
  rw [toList_formatActionTheme_other actionWord_solve hne hsolve, hreply,
    if_neg Bool.false_ne_true, label_solve, take_append_delimiter hlt] at hchars
  by_cases hfronted : Fronted lower action subject
  · -- then the label of the subject would be that of a claim
    rw [toList_formatActionTheme_fronted hne hclean hfronted] at hchars
    obtain ⟨front, tail, htheme, hlabel, -, -, -⟩ := fronted_label hfronted
    obtain ⟨front', back', hmatch, -⟩ := hfronted
    refine absurd ⟨front', back', hmatch, ?_⟩ hsolve
    obtain ⟨tail', htheme', hlabel', -, -⟩ := matchActionTheme_eq_some hmatch
    rw [toList_sanitizeTheme, hchars] at htheme'
    obtain ⟨heq, -⟩ := append_delimiter_inj_front hcolon (colon_notMem_of_isLabel hlabel') htheme'
    have hstrip : strip solve = required solve := by decide
    rw [← String.toList_inj.mp heq, hstrip]
  rw [toList_formatActionTheme_other haction hne hfronted] at hchars
  split at hchars
  · split at hchars
    · exact absurd hchars (noTheme_ne_colon _ _)
    · exfalso
      -- only a text that was cut could begin with a label before itself
      have hsub := (visible_themeText_sublist subject).trans (themeText_sublist subject)
      have hlead := Text.length_lead_le (visible (themeText subject).toList)
      have hmax : themeMaxLen = 200 := rfl
      have hsolve_length : solve.toList.length = 6 := by decide
      have hlength := congrArg List.length hchars
      rw [List.length_append, List.length_cons, List.length_take, List.length_take] at hlength
      have hvisible : visible (themeText subject).toList = cleaned subject.toList := by
        apply hsub.eq_of_length_le
        have := length_cleaned_le subject.toList
        omega
      have htext : (themeText subject).toList = cleaned subject.toList :=
        ((themeText_sublist subject).antisymm (hvisible ▸ visible_themeText_sublist subject))
      have hnone := matchActionTheme_of_themeText htext
      have hword : isLabel solve.toList = true := by decide
      have hspace : lead (cleaned subject.toList) = ' ' :: cleaned subject.toList :=
        if_neg (cleaned_ne_nil _)
      rw [hvisible, List.take_of_length_le (length_cleaned_le _), hspace] at hchars
      have hsome := matchActionTheme_colon hword
        (List.cons_ne_nil ' ' ((cleaned subject.toList).take 192))
      have heq : cleaned subject.toList =
          solve.toList ++ ':' :: ' ' :: (cleaned subject.toList).take 192 := hchars
      rw [← heq, ← toList_sanitizeTheme, String.ofList_toList, hnone] at hsome
      cases hsome
  · obtain ⟨-, heq, -⟩ := take_append_delimiter_inj haction.isAction.colon_notMem hcolon hchars
    exact required_eq_of_label (by decide) heq

/-- The letter is taken for one about a claim, whatever its process. -/
def aboutClaim (lower : String → String) (subject : String) : Bool :=
  let combined := lower (subject ++ " " ++ "")
  contains "претенз" combined ||
    (contains "иск" combined && !contains "риск" combined && !contains "исключ" combined)

/-- The actions that `infer_theme_action` chooses from without a key phrase. -/
def themeActions : List String :=
  [solve, "Проверить", "Согласовать", "Оплатить", "Ознакомиться", "Отправить в просчёт",
    "Рассмотреть", "Запрос"]

theorem actionWord_of_mem (h : action ∈ themeActions) : ActionWord action := by
  have hall : ∀ action ∈ themeActions, ':' ∉ action.toList ∧ '<' ∉ action.toList := by decide
  obtain ⟨hcolon, htag⟩ := hall action h
  exact ⟨hcolon, htag⟩

theorem eq_solve_of_lower (hlower : LowersThemes lower)
    (h : action ∈ themeActions) (heq : lower (required action) = lower solve) : action = solve := by
  have hall : ∀ action ∈ themeActions, (required action).toList.all isRussian = true ∧
      (lowerRu (required action) = lowerRu solve → action = solve) := by decide
  obtain ⟨hrussian, hinj⟩ := hall action h
  rw [hlower.russian _ hrussian, hlower.russian solve (by decide)] at heq
  exact hinj heq

theorem inferThemeAction_cases (hlower : LowersThemes lower) (subject processType : String)
    (claim : Bool) :
    inferThemeAction lower subject "" processType claim "" ∈ themeActions ∧
      (inferThemeAction lower subject "" processType claim "" = solve ↔
        claim = true ∨ aboutClaim lower subject = true) := by
  have hempty : lower (strip "") = "" := by
    have hstrip : strip "" = "" := by decide
    rw [hstrip, hlower.russian "" (by decide)]
    decide
  have hkey : keyPhraseToAction lower "" = none := by
    unfold keyPhraseToAction
    simp only
    rw [hempty, if_pos rfl]
  unfold inferThemeAction aboutClaim
  simp only
  rw [hkey, hempty]
  simp only
  rw [if_neg (by decide)]
  generalize lower (subject ++ " " ++ "") = combined
  cases hclaim : claim || contains "претенз" combined with
  | true =>
    rw [if_pos rfl]
    rw [Bool.or_eq_true] at hclaim
    refine ⟨by decide, iff_of_true rfl (hclaim.imp_right fun h => ?_)⟩
    rw [h]
    rfl
  | false =>
    obtain ⟨rfl, hnone⟩ := Bool.or_eq_false_iff.mp hclaim
    rw [if_neg Bool.false_ne_true, hnone, Bool.false_or]
    cases hsuit : contains "иск" combined && !contains "риск" combined &&
      !contains "исключ" combined with
    | true =>
      rw [if_pos rfl]
      exact ⟨by decide, iff_of_true rfl (.inr rfl)⟩
    | false =>
      rw [if_neg Bool.false_ne_true]
      -- none of the other answers is the action of a claim
      have hother : ∀ action : String, action ∈ themeActions ∧ action ≠ solve →
          action ∈ themeActions ∧ (action = solve ↔ false = true ∨ false = true) := by
        rintro action ⟨hmem, hne⟩
        refine ⟨hmem, iff_of_false hne ?_⟩
        rintro (h | h) <;> cases h
      apply hother
      rw [if_neg Bool.false_ne_true]
      split_ifs <;> decide

/-! ## The law -/

/-- **Themes are stable.** The theme that was formatted for a letter is what resolving it again
returns, for any process and either answer on claims, and a cleaned subject is clean. -/
structure ThemeStable (lower : String → String) (action subject : String) : Prop where
  resolved : ∀ processType claim,
    resolveDocumentTheme lower subject (formatActionTheme lower action subject) "" processType
      claim = formatActionTheme lower action subject
  idempotent : sanitizeTheme (sanitizeTheme subject themeMaxLen) themeMaxLen =
    sanitizeTheme subject themeMaxLen

/-- The theme shows the claim that is inferred from the letter, before the text or as the label that
the text has. -/
structure ShowsClaim (lower : String → String) (action subject : String) (text : List Char) : Prop
    where
  about : aboutClaim lower subject = true
  shown : required action = solve ∨ (lower (required action) = lower solve ∧
    ∃ front back, matchActionTheme (String.ofList (text.take themeMaxLen)) = some (front, back) ∧
      lower (strip front) = lower solve)

/-- **The condition.** Once is enough to clean the subject; and it is empty, or the whole of it stands
behind the action in the theme, or the letter is about a claim and the theme says so. -/
structure Lasting (lower : String → String) (action subject : String) : Prop where
  untouched : Untouched ((plainText subject.toList).take themeMaxLen)
  lasts : plainText subject.toList = [] ∨ plainText subject.toList = noTheme.toList ∨
    Labelled action (plainText subject.toList) ∨
    ShowsClaim lower action subject (plainText subject.toList)

theorem resolved_untitled (h : sanitizeTheme subject themeMaxLen = noTheme)
    (action processType : String) (claim : Bool) :
    resolveDocumentTheme lower subject (formatActionTheme lower action subject) "" processType
      claim = formatActionTheme lower action subject := by
  have hnone : sanitizeTheme noTheme themeMaxLen = noTheme := by decide
  have hkeeps : keeps lower subject noTheme = false := if_neg fun hand => hand.1 rfl
  rw [formatActionTheme_untitled lower h, resolveDocumentTheme_eq, hnone, hkeeps,
    if_neg Bool.false_ne_true]
  exact formatActionTheme_untitled lower h _

theorem resolved_of_not_keeps (h : keeps lower subject
      (sanitizeTheme (formatActionTheme lower action subject) themeMaxLen) = false)
    (processType : String) (claim : Bool) :
    resolveDocumentTheme lower subject (formatActionTheme lower action subject) "" processType
      claim = formatActionTheme lower
        (inferThemeAction lower subject "" processType claim "") subject := by
  rw [resolveDocumentTheme_eq, h, if_neg Bool.false_ne_true]
  rfl

theorem resolved_of_labelled (haction : ActionWord action)
    (hne : sanitizeTheme subject themeMaxLen ≠ noTheme)
    (h : Labelled action (cleaned subject.toList))
    (hclean : cleaned (cleaned subject.toList) = cleaned subject.toList) (processType : String)
    (claim : Bool) :
    resolveDocumentTheme lower subject (formatActionTheme lower action subject) "" processType
      claim = formatActionTheme lower action subject := by
  obtain ⟨hsame, hkeeps⟩ : _ ∧ keeps lower subject _ = true :=
    keeps_of_labelled haction hne h hclean
  rw [resolveDocumentTheme_eq, hsame, hkeeps, if_pos rfl]

section

variable (hlower : LowersThemes lower) (haction : ActionWord action)
  (hne : sanitizeTheme subject themeMaxLen ≠ noTheme)
  (hclean : cleaned (cleaned subject.toList) = cleaned subject.toList)
include hlower haction hne hclean

theorem formatActionTheme_eq_solve_iff :
    formatActionTheme lower action subject = formatActionTheme lower solve subject ↔
      required action = solve ∨
        (lower (required action) = lower solve ∧ Fronted lower solve subject) := by
  constructor
  · intro h
    by_cases hsolve : Fronted lower solve subject
    · exact .inr ⟨formatActionTheme_eq_solve_of_fronted hlower haction hne hclean hsolve h, hsolve⟩
    · exact .inl (formatActionTheme_eq_solve_of_not_fronted haction hne hclean hsolve h)
  · rintro (h | ⟨hsame, hsolve⟩)
    · exact formatActionTheme_congr (h.trans required_solve.symm) subject
    · have haction_fronted : Fronted lower action subject := by
        obtain ⟨front, back, hmatch, hfront⟩ := hsolve
        exact ⟨front, back, hmatch, hfront.trans (by rw [hsame, required_solve])⟩
      rw [formatActionTheme_fronted hne hsolve, formatActionTheme_fronted hne haction_fronted]

/-- **The theme of a letter with a subject.** It is resolved to itself exactly when it is kept, or
when it is the one that is built anew. -/
theorem resolved_iff :
    (∀ processType claim,
      resolveDocumentTheme lower subject (formatActionTheme lower action subject) "" processType
        claim = formatActionTheme lower action subject) ↔
      Labelled action (cleaned subject.toList) ∨ (aboutClaim lower subject = true ∧
        (required action = solve ∨
          (lower (required action) = lower solve ∧ Fronted lower solve subject))) := by
  constructor
  · intro h
    cases hkeeps : keeps lower subject
        (sanitizeTheme (formatActionTheme lower action subject) themeMaxLen) with
    | true => exact .inl (labelled_of_keeps hlower haction hne hkeeps).1
    | false =>
      right
      have hclaim := h "" true
      have hother := h "" false
      rw [resolved_of_not_keeps hkeeps] at hclaim hother
      obtain ⟨-, hsolve⟩ := inferThemeAction_cases hlower subject "" true
      obtain ⟨hmem, habout⟩ := inferThemeAction_cases hlower subject "" false
      rw [hsolve.mpr (.inl rfl)] at hclaim
      rw [← hclaim] at hother
      refine ⟨?_, (formatActionTheme_eq_solve_iff hlower haction hne hclean).mp hclaim.symm⟩
      -- the action inferred without a claim is the same
      have hword := actionWord_of_mem hmem
      have hinferred : inferThemeAction lower subject "" "" false "" = solve := by
        apply eq_solve_of_lower hlower hmem
        rcases (formatActionTheme_eq_solve_iff hlower hword hne hclean).mp hother with heq | heq
        · rw [heq]
        · exact heq.1
      rcases habout.mp hinferred with hfalse | habout
      · cases hfalse
      · exact habout
  · rintro (h | ⟨habout, hsame⟩) processType claim
    · exact resolved_of_labelled haction hne h hclean processType claim
    · cases hkeeps : keeps lower subject
          (sanitizeTheme (formatActionTheme lower action subject) themeMaxLen) with
      | true =>
        have hlabelled := (labelled_of_keeps hlower haction hne hkeeps).1
        exact resolved_of_labelled haction hne hlabelled hclean processType claim
      | false =>
        obtain ⟨-, hsolve⟩ := inferThemeAction_cases hlower subject processType claim
        rw [resolved_of_not_keeps hkeeps, hsolve.mpr (.inr habout)]
        exact ((formatActionTheme_eq_solve_iff hlower haction hne hclean).mpr hsame).symm

end

/-- **When themes are stable.** -/
theorem themeStable_iff (hlower : LowersThemes lower) {action : String}
    (haction : ActionWord action) (subject : String) :
    ThemeStable lower action subject ↔ Lasting lower action subject := by
  have hwhole : ∀ text : List Char, text.length < themeMaxLen → text.take themeMaxLen = text :=
    fun text h => List.take_of_length_le (Nat.le_of_lt h)
  have hlasts : Untouched ((plainText subject.toList).take themeMaxLen) →
      ((∀ processType claim, resolveDocumentTheme lower subject
        (formatActionTheme lower action subject) "" processType claim =
          formatActionTheme lower action subject) ↔
      plainText subject.toList = [] ∨ plainText subject.toList = noTheme.toList ∨
        Labelled action (plainText subject.toList) ∨
        ShowsClaim lower action subject (plainText subject.toList)) := by
    intro huntouched
    have hclean : cleaned (cleaned subject.toList) = cleaned subject.toList := by
      rw [← toList_sanitizeTheme subject, ← toList_sanitizeTheme,
        (sanitizeTheme_sanitizeTheme_iff subject).mpr huntouched]
    by_cases hnone : sanitizeTheme subject themeMaxLen = noTheme
    · refine iff_of_true (resolved_untitled hnone action) ?_
      have hchars := congrArg String.toList hnone
      rw [toList_sanitizeTheme] at hchars
      unfold cleaned at hchars
      split at hchars
      · next hnil => exact .inl hnil
      · have hlength : (plainText subject.toList).length < themeMaxLen := by
          have hcut := congrArg List.length hchars
          have hmax : themeMaxLen = 200 := rfl
          have hlength : noTheme.toList.length = 8 := by decide
          rw [List.length_take] at hcut
          omega
        rw [hwhole _ hlength] at hchars
        exact .inr (.inl hchars)
    · have htitled : cleaned subject.toList ≠ noTheme.toList := by
        rw [← toList_sanitizeTheme]
        exact fun heq => hnone (String.toList_inj.mp heq)
      have hplain : plainText subject.toList ≠ [] := fun hnil => htitled (if_pos hnil)
      have hcleaned : cleaned subject.toList = (plainText subject.toList).take themeMaxLen :=
        if_neg hplain
      have hnotitle : plainText subject.toList ≠ noTheme.toList := by
        intro heq
        rw [hcleaned, heq] at htitled
        exact htitled (by decide)
      rw [resolved_iff hlower haction hnone hclean, or_iff_right hplain, or_iff_right hnotitle]
      apply or_congr
      · -- a theme that fits shows a subject that was not cut
        have hfits : ∀ text : List Char, Labelled action text → text.length < themeMaxLen := by
          intro text h
          have := h.fits
          omega
        constructor
        · intro h
          have hshort := hfits _ h
          rw [hcleaned, List.length_take] at hshort
          rw [hcleaned, hwhole _ (by omega)] at h
          exact h
        · intro h
          rw [hcleaned, hwhole _ (hfits _ h)]
          exact h
      · have htheme : String.ofList ((plainText subject.toList).take themeMaxLen) =
            sanitizeTheme subject themeMaxLen := by
          rw [← hcleaned, ← toList_sanitizeTheme, String.ofList_toList]
        constructor
        · rintro ⟨habout, hshown⟩
          refine ⟨habout, hshown.imp_right fun h => ⟨h.1, ?_⟩⟩
          rw [htheme]
          obtain ⟨front, back, hmatch, hfront⟩ := h.2
          exact ⟨front, back, hmatch, hfront.trans (by rw [required_solve])⟩
        · rintro ⟨habout, hshown⟩
          refine ⟨habout, hshown.imp_right fun h => ⟨h.1, ?_⟩⟩
          rw [htheme] at h
          obtain ⟨front, back, hmatch, hfront⟩ := h.2
          exact ⟨front, back, hmatch, hfront.trans (by rw [required_solve])⟩
  constructor
  · rintro ⟨hresolved, hidempotent⟩
    have huntouched := (sanitizeTheme_sanitizeTheme_iff subject).mp hidempotent
    exact ⟨huntouched, (hlasts huntouched).mp hresolved⟩
  · rintro ⟨huntouched, hcases⟩
    exact ⟨(hlasts huntouched).mpr hcases, (sanitizeTheme_sanitizeTheme_iff subject).mpr huntouched⟩

end

/-- A subject without a label of its own keeps the action. -/
theorem themeStable_account : ThemeStable lowerRu "Оплатить" "Re: Счет" :=
  (themeStable_iff lowersThemes_lowerRu ⟨by decide, by decide⟩ "Re: Счет").mpr
    { untouched := (sanitizeTheme_sanitizeTheme_iff "Re: Счет").mp (by decide +kernel)
      lasts := .inr (.inr (.inl
        { unlabelled := by decide +kernel
          word := by decide +kernel
          unprefixed := by decide +kernel
          fits := by decide +kernel })) }

/-- A letter answered twice: the payment that was asked for becomes a request. -/
theorem not_themeStable_answered : ¬ ∀ lower : String → String, LowersThemes lower →
    ∀ action, ActionWord action → ∀ subject, ThemeStable lower action subject := by
  intro h
  have hstable := h lowerRu lowersThemes_lowerRu "Оплатить" ⟨by decide, by decide⟩
    "Re: Re: Счет"
  have hchanged : resolveDocumentTheme lowerRu "Re: Re: Счет"
      (formatActionTheme lowerRu "Оплатить" "Re: Re: Счет") "" "исполнение" false ≠
        formatActionTheme lowerRu "Оплатить" "Re: Re: Счет" := by decide +kernel
  exact hchanged (hstable.resolved "исполнение" false)

end AgentBack.Mail.Routing
