import AgentBack.Base.Text
import AgentBack.Base.Xml

/-!
# Stripped text and its line ends

A text is white space, then a core that neither begins nor ends with white space, then white space;
the core is what stripping leaves. The normalisation of line ends keeps this shape, so that it
commutes with stripping.
-/

namespace AgentBack.Text

open Xml (newlines)

structure Tight (cs : List Char) : Prop where
  head : ∀ c, cs.head? = some c → isSpace c = false
  last : ∀ c, cs.getLast? = some c → isSpace c = false

theorem tight_nil : Tight [] where
  head c hc := by cases hc
  last c hc := by cases hc

theorem rdropWhile_of_tight {core right : List Char} (hcore : Tight core)
    (hright : ∀ c ∈ right, isSpace c = true) : (core ++ right).rdropWhile isSpace = core := by
  induction right using List.reverseRecOn with
  | nil =>
    rw [List.append_nil, List.rdropWhile_eq_self_iff]
    intro hne
    rw [hcore.last _ (List.getLast?_eq_some_getLast hne)]
    decide
  | append_singleton right d ih =>
    have hd : isSpace d = true := hright d (List.mem_append_right _ (List.mem_singleton.mpr rfl))
    rw [← List.append_assoc, List.rdropWhile_concat_pos _ _ _ hd]
    exact ih fun c hc => hright c (List.mem_append_left _ hc)

theorem stripChars_of_tight {left core right : List Char} (hleft : ∀ c ∈ left, isSpace c = true)
    (hcore : Tight core) (hright : ∀ c ∈ right, isSpace c = true) :
    stripChars (left ++ (core ++ right)) = core := by
  unfold stripChars
  rw [List.dropWhile_append_of_pos hleft]
  cases hcases : core with
  | nil =>
    rw [List.nil_append, List.dropWhile_eq_nil_iff.mpr hright]
    rfl
  | cons c rest =>
    have hhead : ¬ isSpace c = true := by
      rw [hcore.head c (by rw [hcases]; rfl)]
      decide
    rw [List.cons_append, List.dropWhile_cons_of_neg hhead, ← List.cons_append, ← hcases]
    exact rdropWhile_of_tight hcore hright

theorem Tight.stripChars_eq {cs : List Char} (h : Tight cs) : stripChars cs = cs := by
  unfold stripChars
  rw [List.dropWhile_eq_self_iff.mpr, List.rdropWhile_eq_self_iff.mpr]
  · intro hne
    rw [h.last _ (List.getLast?_eq_some_getLast hne)]
    decide
  · intro hlen
    rw [h.head _ (by rw [List.head?_eq_getElem?, List.getElem?_eq_getElem hlen])]
    decide

theorem tight_stripChars (cs : List Char) : Tight (stripChars cs) where
  head c hc := by
    have hpre : stripChars cs <+: cs.dropWhile isSpace := List.rdropWhile_prefix _ _
    obtain ⟨tail, htail⟩ := hpre
    have hdrop : (cs.dropWhile isSpace).head? = some c := by
      rw [← htail, List.head?_append, hc]
      rfl
    have hnot := List.head?_dropWhile_not isSpace cs
    rw [hdrop] at hnot
    simpa using hnot
  last c hc := by
    have hne : stripChars cs ≠ [] := by
      intro hnil
      rw [hnil] at hc
      cases hc
    have hlast : ¬ isSpace ((stripChars cs).getLast hne) = true :=
      List.rdropWhile_last_not isSpace (cs.dropWhile isSpace) hne
    have heq : (stripChars cs).getLast hne = c :=
      Option.some.inj ((List.getLast?_eq_some_getLast hne).symm.trans hc)
    rw [← heq]
    exact Bool.eq_false_iff.mpr hlast

theorem exists_tight (cs : List Char) : ∃ left right, cs = left ++ (stripChars cs ++ right) ∧
    (∀ c ∈ left, isSpace c = true) ∧ (∀ c ∈ right, isSpace c = true) := by
  refine ⟨cs.takeWhile isSpace, (cs.dropWhile isSpace).rtakeWhile isSpace, ?_, ?_, ?_⟩
  · unfold stripChars
    rw [List.rdropWhile_append_rtakeWhile, List.takeWhile_append_dropWhile]
  · intro c hc
    exact List.mem_takeWhile_imp hc
  · intro c hc
    exact List.mem_rtakeWhile_imp hc

theorem isSpace_newlines {cs : List Char} (h : ∀ c ∈ cs, isSpace c = true) :
    ∀ c ∈ newlines cs, isSpace c = true := by
  intro c hc
  rcases Xml.mem_newlines hc with hmem | rfl
  · exact h c hmem
  · decide

theorem tight_newlines {cs : List Char} (h : Tight cs) : Tight (newlines cs) where
  head c hc := by
    cases cs with
    | nil => cases hc
    | cons d cs =>
      have hd : isSpace d = false := h.head d rfl
      have hreturn : d ≠ '\r' := by
        rintro rfl
        revert hd
        decide
      rw [Xml.newlines_cons hreturn] at hc
      cases hc
      exact hd
  last c hc := by
    induction cs using List.reverseRecOn with
    | nil => cases hc
    | append_singleton cs d =>
      have hd : isSpace d = false := h.last d List.getLast?_concat
      have hreturn : d ≠ '\r' := by
        rintro rfl
        revert hd
        decide
      have hline : [d].head? ≠ some '\n' := by
        rintro heq
        cases heq
        revert hd
        decide
      have hone : newlines [d] = [d] := Xml.newlines_cons hreturn []
      rw [Xml.newlines_append (fun _ => hline), hone, List.getLast?_concat] at hc
      cases hc
      exact hd

/-- Line ends are normalised before or after stripping. -/
theorem stripChars_newlines (cs : List Char) :
    stripChars (newlines cs) = newlines (stripChars cs) := by
  obtain ⟨left, right, hcs, hleft, hright⟩ := exists_tight cs
  have htight := tight_stripChars cs
  generalize stripChars cs = core at hcs htight
  subst hcs
  have hreturn : core.getLast? ≠ some '\r' := by
    intro heq
    have hfalse := htight.last _ heq
    revert hfalse
    decide
  have hparts : newlines (core ++ right) = newlines core ++ newlines right :=
    Xml.newlines_append fun heq => absurd heq hreturn
  cases hcase : core with
  | nil =>
    have hspaces : ∀ c ∈ left ++ right, isSpace c = true := by
      intro c hc
      rcases List.mem_append.mp hc with hc | hc
      · exact hleft c hc
      · exact hright c hc
    have hall := stripChars_of_tight (isSpace_newlines hspaces) tight_nil
      (fun c (hc : c ∈ []) => absurd hc List.not_mem_nil)
    rw [List.append_nil, List.append_nil] at hall
    rw [List.nil_append]
    exact hall
  | cons d rest =>
    have hhead : (core ++ right).head? ≠ some '\n' := by
      rw [hcase, List.cons_append, List.head?_cons]
      rintro heq
      cases heq
      have hfalse := htight.head '\n' (by rw [hcase]; rfl)
      revert hfalse
      decide
    rw [← hcase, Xml.newlines_append (fun _ => hhead), hparts]
    exact stripChars_of_tight (isSpace_newlines hleft) (tight_newlines htight)
      (isSpace_newlines hright)

/-- A stripped text comes back from the parser when no return stands inside it. -/
theorem strip_newlines_eq_iff (s : String) :
    strip (String.ofList (newlines s.toList)) = strip s ↔ '\r' ∉ (strip s).toList := by
  have heq : strip (String.ofList (newlines s.toList)) = String.ofList (newlines (strip s).toList) := by
    unfold strip
    rw [String.toList_ofList, stripChars_newlines, String.toList_ofList]
  rw [heq, ← String.toList_inj, String.toList_ofList, Xml.newlines_eq_self_iff]

end AgentBack.Text
