import AgentBack.Mail.Routing.Document
import Mathlib.Tactic.IntervalCases

/-!
# The document read back

What the builder writes is the text of a tree (`toList_buildXmlDocument`), so that the round trip of
XML text applies to it: no tag of the tree is one that the tag stripper takes out, the validator
finds what it asks for, and the parser gives the texts that were put in. A text comes back when its
characters are XML characters and no return stands inside it.
-/

namespace AgentBack.Mail.Routing

open Text (contains isSpace strip)
open Xml (Element)

/-! ## The tree of a document -/

theorem toList_tagged (tag content : String) :
    (tagged tag content).toList =
      '<' :: (tag.toList ++ '>' :: (content.toList ++ '<' :: '/' :: (tag.toList ++ ['>']))) := by
  unfold tagged
  simp [String.toList_append]

theorem toList_tagged_esc (tag value : String) (valid : Xml.isName tag.toList = true) :
    (tagged tag (esc value)).toList = Xml.print (leaf (name tag valid) value) := by
  rw [toList_tagged, leaf, Xml.print, Xml.printAll, esc, String.toList_ofList, List.nil_append]
  rfl

theorem toList_tagged_plain (tag value : String) (valid : Xml.isName tag.toList = true)
    (h : Xml.escape value.toList = value.toList) :
    (tagged tag value).toList = Xml.print (leaf (name tag valid) value) := by
  rw [← toList_tagged_esc, esc, h, String.ofList_toList]

theorem escape_of_all {cs : List Char} (h : ∀ c ∈ cs, c ≠ '&' ∧ c ≠ '<' ∧ c ≠ '>') :
    Xml.escape cs = cs := by
  induction cs with
  | nil => rfl
  | cons c cs ih =>
    obtain ⟨hamp, hlt, hgt⟩ := h c (.head _)
    have hchar : Xml.escapeChar c = [c] := by
      unfold Xml.escapeChar
      rw [if_neg hamp, if_neg hlt, if_neg hgt]
    rw [Xml.escape_cons, hchar, ih (fun d hd => h d (.tail _ hd))]
    rfl

theorem formatMailDatetime_chars (moment : Nat × Nat × Nat × Nat × Nat × Nat) {c : Char}
    (h : c ∈ (formatMailDatetimeForXml moment).toList) :
    c.isDigit = true ∨ c = '-' ∨ c = ' ' ∨ c = ':' := by
  have hyear : ∀ n : Nat, ∀ d ∈ (toString n).toList, d.isDigit = true := by
    intro n d hd
    rw [Nat.toString_eq_repr, Nat.toList_repr] at hd
    exact Nat.isDigit_of_mem_toDigits (by decide) (by decide) hd
  have hdigit : ∀ n : Nat, (Nat.digitChar (n % 10)).isDigit = true := by
    intro n
    have hlt : n % 10 < 10 := Nat.mod_lt n (by decide)
    generalize n % 10 = m at hlt
    interval_cases m <;> decide
  have htwo : ∀ n : Nat, ∀ d ∈ (twoDigits n).toList, d.isDigit = true := by
    intro n d hd
    unfold twoDigits at hd
    rw [String.toList_ofList, List.mem_cons, List.mem_singleton] at hd
    rcases hd with rfl | rfl
    · exact hdigit _
    · exact hdigit _
  obtain ⟨year, month, day, hour, minute, second⟩ := moment
  unfold formatMailDatetimeForXml at h
  simp only [String.toList_append, List.mem_append] at h
  rcases h with (((((((((h | h) | h) | h) | h) | h) | h) | h) | h) | h) | h
  · exact .inl (hyear _ c h)
  · exact .inr (.inl (by simpa using h))
  · exact .inl (htwo _ c h)
  · exact .inr (.inl (by simpa using h))
  · exact .inl (htwo _ c h)
  · exact .inr (.inr (.inl (by simpa using h)))
  · exact .inl (htwo _ c h)
  · exact .inr (.inr (.inr (by simpa using h)))
  · exact .inl (htwo _ c h)
  · exact .inr (.inr (.inr (by simpa using h)))
  · exact .inl (htwo _ c h)

theorem escape_mailDatetime (moment : Nat × Nat × Nat × Nat × Nat × Nat) :
    Xml.escape (formatMailDatetimeForXml moment).toList =
      (formatMailDatetimeForXml moment).toList := by
  apply escape_of_all
  intro c hc
  rcases formatMailDatetime_chars moment hc with h | rfl | rfl | rfl
  · refine ⟨?_, ?_, ?_⟩
    · rintro rfl
      cases h
    · rintro rfl
      cases h
    · rintro rfl
      cases h
  · decide
  · decide
  · decide

theorem printAll_append (es es' : List Element) :
    Xml.printAll (es ++ es') = Xml.printAll es ++ Xml.printAll es' := by
  induction es with
  | nil => rfl
  | cons e es ih => rw [List.cons_append, Xml.printAll, Xml.printAll, ih, List.append_assoc]

theorem print_of_children {tag : String} (valid : Xml.isName tag.toList = true) {content : String}
    {children : List Element} (h : content.toList = Xml.printAll children) :
    (tagged tag content).toList = Xml.print (.mk (name tag valid) [] children) := by
  rw [toList_tagged, h, Xml.print]
  rfl

theorem toList_titleBlock (code departmentName : String) :
    (serviceTitleBlock code departmentName).toList =
      Xml.printAll (titleLeaves code departmentName) := by
  unfold serviceTitleBlock titleLeaves
  simp only
  split
  · rfl
  · rw [toList_tagged_esc, Xml.printAll, Xml.printAll, List.append_nil]

theorem toList_serviceBlock (isSpam : Bool) (reasoning : String) (svc : ServiceRoute) :
    (serviceBlock isSpam reasoning svc).toList =
      Xml.print (serviceElement isSpam reasoning svc) := by
  unfold serviceBlock serviceElement
  apply print_of_children
  simp only [String.toList_append, toList_titleBlock, Xml.printAll, printAll_append,
    List.append_assoc, List.append_nil]
  rw [toList_tagged_esc, toList_tagged_esc, toList_tagged_esc]

theorem toList_services (isSpam : Bool) (reasoning : String) (services : List ServiceRoute) :
    (String.join (services.map (serviceBlock isSpam reasoning))).toList =
      Xml.printAll (services.map (serviceElement isSpam reasoning)) := by
  rw [String.toList_join]
  induction services with
  | nil => rfl
  | cons svc services ih =>
    rw [List.map_cons, List.flatMap_cons, ih, toList_serviceBlock, List.map_cons, Xml.printAll]

theorem toList_dialogBlock (decision : RoutingDecision) :
    (dialogBlock decision).toList = Xml.printAll (dialogLeaves decision) := by
  unfold dialogBlock dialogLeaves
  cases decision.dialogMode with
  | none => rfl
  | some mode =>
    simp only
    split
    · rfl
    · rw [toList_tagged_esc, Xml.printAll, Xml.printAll, List.append_nil]

/-- The builder writes the text of the tree. -/
theorem toList_buildXmlDocument (lower : String → String) (email : EmailMessage)
    (recipient : String) (decision : RoutingDecision) (isSpam : Bool) :
    (buildXmlDocument lower email recipient decision isSpam).toList =
      Xml.print (documentElement lower email recipient decision isSpam) := by
  have hclaim : Xml.escape (if decision.claim then "true" else "false").toList =
      (if decision.claim then "true" else "false").toList := by
    split <;> rfl
  unfold buildXmlDocument documentElement
  apply print_of_children
  simp only [String.toList_append, Xml.printAll, List.append_assoc]
  rw [toList_tagged_esc, toList_tagged_esc, toList_tagged_esc,
    toList_tagged_plain "claim" _ (by decide) hclaim, toList_tagged_esc,
    print_of_children (by decide) (toList_services _ _ _), toList_tagged_esc, toList_tagged_esc,
    toList_tagged_plain "mail_datetime" _ (by decide) (escape_mailDatetime _), toList_tagged_esc,
    toList_dialogBlock]

/-! ## No tag is taken out -/

/-- The tag stripper finds nothing in the text. -/
def Clean (cs : List Char) : Prop := ∀ fuel, removeAll forbiddenTag fuel cs = cs

theorem clean_nil : Clean [] := by
  intro fuel
  cases fuel <;> rfl

theorem clean_cons {c : Char} {cs : List Char} (hc : forbiddenTag (c :: cs) = none)
    (h : Clean cs) : Clean (c :: cs) := by
  intro fuel
  cases fuel with
  | zero => rfl
  | succ fuel =>
    rw [removeAll, hc]
    simp only
    rw [h fuel]

theorem clean_append {cs rest : List Char} (hcs : '<' ∉ cs) (h : Clean rest) :
    Clean (cs ++ rest) := by
  induction cs with
  | nil => exact h
  | cons c cs ih =>
    have hc : c ≠ '<' := fun heq => hcs (heq ▸ List.mem_cons_self)
    rw [List.cons_append]
    apply clean_cons
    · unfold forbiddenTag
      split
      · next heq => exact absurd (List.cons.inj heq).1 hc
      · next heq => exact absurd (List.cons.inj heq).1 hc
      · rfl
    · exact ih fun hmem => hcs (.tail _ hmem)

/-- The name is none of a model's reasoning. -/
def unreserved (tag : Xml.Name) : Bool :=
  reasoningNames.all fun word => (dropWord word (tag.chars ++ ['>'])).isNone

theorem dropWord_append {word : List Char} (hword : '>' ∉ word) {cs : List Char}
    (h : dropWord word (cs ++ ['>']) = none) (rest : List Char) :
    dropWord word (cs ++ '>' :: rest) = none := by
  induction word generalizing cs with
  | nil =>
    unfold dropWord at h
    cases h
  | cons p word ih =>
    have hp : foldCase '>' ≠ p := by
      intro heq
      exact hword (heq ▸ List.mem_cons_self)
    cases cs with
    | nil =>
      rw [List.nil_append, dropWord, if_neg hp]
    | cons c cs =>
      rw [List.cons_append, dropWord] at h ⊢
      split
      · next hc =>
        rw [if_pos hc] at h
        exact ih (fun hmem => hword (.tail _ hmem)) h
      · rfl

theorem reasoningTag_unreserved {tag : Xml.Name} (h : unreserved tag = true) (rest : List Char) :
    reasoningTag (tag.chars ++ '>' :: rest) = none := by
  unfold reasoningTag
  apply if_neg
  rw [List.any_eq_true]
  rintro ⟨word, hword, hsome⟩
  have hnone := List.all_eq_true.mp h word hword
  have hclose : '>' ∉ word := by
    have hall : reasoningNames.all fun word => !word.contains '>' := by decide
    simpa using List.all_eq_true.mp hall word hword
  rw [Option.isNone_iff_eq_none] at hnone
  rw [dropWord_append hclose hnone rest] at hsome
  cases hsome

section

variable {tag : Xml.Name} (htag : unreserved tag = true) {rest : List Char} (h : Clean rest)
include htag h

theorem clean_open : Clean ('<' :: (tag.chars ++ '>' :: rest)) := by
  have hlt : '<' ∉ tag.chars := tag.not_mem (by decide)
  apply clean_cons
  · unfold forbiddenTag
    split
    · next heq =>
      -- a name does not begin with a slash
      have hslash : '/' ∉ tag.chars := tag.not_mem (by decide)
      have htail := (List.cons.inj heq).2
      cases hchars : tag.chars with
      | nil =>
        rw [hchars, List.nil_append] at htail
        cases htail
      | cons c cs =>
        rw [hchars, List.cons_append] at htail
        rw [hchars] at hslash
        exact absurd ((List.cons.inj htail).1 ▸ List.mem_cons_self) hslash
    · next heq =>
      rw [← (List.cons.inj heq).2]
      exact reasoningTag_unreserved htag rest
    · rfl
  · apply clean_append hlt
    exact @clean_append ['>'] rest (by decide) h

theorem clean_close : Clean ('<' :: '/' :: (tag.chars ++ '>' :: rest)) := by
  have hlt : '<' ∉ tag.chars := tag.not_mem (by decide)
  have hnone : forbiddenTag ('<' :: '/' :: (tag.chars ++ '>' :: rest)) = none :=
    reasoningTag_unreserved htag rest
  apply clean_cons hnone
  apply @clean_append ['/'] _ (by decide)
  apply clean_append hlt
  exact @clean_append ['>'] rest (by decide) h

end

theorem not_mem_escape (text : List Char) : '<' ∉ Xml.escape text := by
  induction text with
  | nil => exact List.not_mem_nil
  | cons c text ih =>
    rw [Xml.escape_cons, List.mem_append, not_or]
    refine ⟨?_, ih⟩
    unfold Xml.escapeChar
    split
    · decide
    · split
      · decide
      · next hlt =>
        split
        · decide
        · rw [List.mem_singleton]
          exact Ne.symm hlt

mutual
theorem clean_print : ∀ (e : Element), e.allTags unreserved = true → ∀ {rest : List Char},
    Clean rest → Clean (Xml.print e ++ rest)
  | .mk tag text children, htags, rest, h => by
    rw [Element.allTags, Bool.and_eq_true] at htags
    have hsplit : Xml.print (.mk tag text children) ++ rest =
        '<' :: (tag.chars ++ '>' :: (Xml.escape text ++ (Xml.printAll children ++
          '<' :: '/' :: (tag.chars ++ '>' :: rest)))) := by
      rw [Xml.print]
      simp
    rw [hsplit]
    apply clean_open htags.1
    apply clean_append (not_mem_escape text)
    apply clean_printAll children htags.2
    exact clean_close htags.1 h

theorem clean_printAll : ∀ (es : List Element), Element.allTagsIn unreserved es = true →
    ∀ {rest : List Char}, Clean rest → Clean (Xml.printAll es ++ rest)
  | [], _, _, h => h
  | e :: es, htags, _, h => by
    rw [Element.allTagsIn, Bool.and_eq_true] at htags
    rw [Xml.printAll, List.append_assoc]
    apply clean_print e htags.1
    exact clean_printAll es htags.2 h
end

theorem allTagsIn_append (p : Xml.Name → Bool) (es es' : List Element) :
    Element.allTagsIn p (es ++ es') = (Element.allTagsIn p es && Element.allTagsIn p es') := by
  induction es with
  | nil => rfl
  | cons e es ih => rw [List.cons_append, Element.allTagsIn, Element.allTagsIn, ih, Bool.and_assoc]

theorem allTags_leaf (p : Xml.Name → Bool) (tag : Xml.Name) (text : String) :
    (leaf tag text).allTags p = p tag := by
  rw [leaf, Element.allTags, Element.allTagsIn, Bool.and_true]

theorem allTags_serviceElement (isSpam : Bool) (reasoning : String) (svc : ServiceRoute) :
    (serviceElement isSpam reasoning svc).allTags unreserved = true := by
  have htags : unreserved (name "service") = true ∧ unreserved (name "name") = true ∧
      unreserved (name "title") = true ∧ unreserved (name "process") = true ∧
        unreserved (name "reasoning") = true := by
    decide
  obtain ⟨hservice, hname, htitle, hprocess, hreasoning⟩ := htags
  have hleaves : ∀ code, Element.allTagsIn unreserved (titleLeaves code svc.name) = true := by
    intro code
    unfold titleLeaves
    simp only
    split
    · rfl
    · rw [Element.allTagsIn, Element.allTagsIn, allTags_leaf, htitle, Bool.and_true]
  simp only [serviceElement, Element.allTags, Element.allTagsIn, allTagsIn_append, allTags_leaf,
    hleaves, hservice, hname, hprocess, hreasoning, Bool.and_true]

theorem allTags_documentElement (lower : String → String) (email : EmailMessage)
    (recipient : String) (decision : RoutingDecision) (isSpam : Bool) :
    (documentElement lower email recipient decision isSpam).allTags unreserved = true := by
  have hservices : ∀ services : List ServiceRoute, Element.allTagsIn unreserved
      (services.map (serviceElement isSpam (serviceReasoning email decision))) = true := by
    intro services
    induction services with
    | nil => rfl
    | cons svc services ih =>
      rw [List.map_cons, Element.allTagsIn, allTags_serviceElement, ih, Bool.and_true]
  have hdialog : Element.allTagsIn unreserved (dialogLeaves decision) = true := by
    have htag : unreserved (name "dialog_mode") = true := by decide
    unfold dialogLeaves
    cases decision.dialogMode with
    | none => rfl
    | some mode =>
      simp only
      split
      · rfl
      · rw [Element.allTagsIn, Element.allTagsIn, allTags_leaf, htag, Bool.and_true]
  have htags : unreserved (name "document") = true ∧ unreserved (name "organization") = true ∧
      unreserved (name "theme") = true ∧ unreserved (name "направление") = true ∧
      unreserved (name "claim") = true ∧ unreserved (name "partner") = true ∧
      unreserved (name "services") = true ∧ unreserved (name "email_sender") = true ∧
      unreserved (name "email_recipient") = true ∧ unreserved (name "mail_datetime") = true ∧
      unreserved (name "process") = true := by
    decide
  obtain ⟨h1, h2, h3, h4, h5, h6, h7, h8, h9, h10, h11⟩ := htags
  simp only [documentElement, Element.allTags, Element.allTagsIn, allTags_leaf, hservices, hdialog,
    h1, h2, h3, h4, h5, h6, h7, h8, h9, h10, h11, Bool.and_true]

theorem stripForbiddenTags_document (lower : String → String) (email : EmailMessage)
    (recipient : String) (decision : RoutingDecision) (isSpam : Bool) :
    stripForbiddenTags (buildXmlDocument lower email recipient decision isSpam) =
      buildXmlDocument lower email recipient decision isSpam := by
  have hclean := clean_print (documentElement lower email recipient decision isSpam)
    (allTags_documentElement lower email recipient decision isSpam) clean_nil
  rw [List.append_nil] at hclean
  unfold stripForbiddenTags
  rw [toList_buildXmlDocument, hclean, ← toList_buildXmlDocument, String.ofList_toList]

/-- A text that begins and ends with a tag has no white space around it. -/
theorem strip_tagged (tag content : String) : strip (tagged tag content) = tagged tag content := by
  have hsplit : (tagged tag content).toList =
      '<' :: ((tag.toList ++ '>' :: (content.toList ++ '<' :: '/' :: tag.toList)) ++ ['>']) := by
    rw [toList_tagged]
    simp only [List.append_assoc, List.cons_append]
  unfold strip Text.stripChars
  rw [hsplit]
  generalize tag.toList ++ '>' :: (content.toList ++ '<' :: '/' :: tag.toList) = middle at hsplit
  rw [List.dropWhile_cons_of_neg (by decide), ← List.cons_append,
    List.rdropWhile_concat_neg _ _ _ (by decide), List.cons_append, ← hsplit, String.ofList_toList]

theorem fromstring_document (lower : String → String) (email : EmailMessage) (recipient : String)
    (decision : RoutingDecision) (isSpam : Bool) :
    fromstring (buildXmlDocument lower email recipient decision isSpam) =
      if (documentElement lower email recipient decision isSpam).legal then
        some (documentElement lower email recipient decision isSpam).normal
      else none := by
  have hstrip : strip (buildXmlDocument lower email recipient decision isSpam) =
      buildXmlDocument lower email recipient decision isSpam := strip_tagged _ _
  unfold fromstring
  rw [hstrip, toList_buildXmlDocument, Xml.parse_print]

end AgentBack.Mail.Routing
