import Mathlib.Data.List.Nodup
import AgentBack.Mail.Filters

/-!
# Where the filters of the list and the predicates of a row agree

The predicates take the white space off the texts and pass blank addresses over, the filters do
neither; the filters read the wildcards of a query and look for it in each address, the predicates
look for it in the joined addresses. On tidy rows both see the same lists, and what is left is a
repeated address, the empty object and what a query may contain.
-/

namespace AgentBack.Mail

open Text (contains strip)

variable {lower : String → String} {db : Postgres}

/-! ## Tidy rows -/

/-- A text without white space around it, whose case the database lowers as Python does. -/
structure PlainText (lower : String → String) (db : Postgres) (text : String) : Prop where
  stripped : strip text = text
  lowered : strip (lower text) = lower text
  same : db.lower text = lower text

/-- A row whose payload the database reads back as it is, with lists of plain addresses and a plain
mailbox and routing recipient. -/
structure Tidy (lower : String → String) (db : Postgres) (mailbox : String) (payload : Payload) :
    Prop where
  cast : db.castPayload payload = some payload
  to_ne_null : payload.to_ ≠ .null
  cc_ne_null : payload.cc ≠ .null
  to_plain : ∀ addr ∈ payload.to_.items, addr ≠ "" ∧ PlainText lower db addr
  cc_plain : ∀ addr ∈ payload.cc.items, addr ≠ "" ∧ PlainText lower db addr
  routing_plain : PlainText lower db payload.routingRecipient.text
  mailbox_plain : PlainText lower db mailbox

/-- What the agreement relies on of `str.lower`: only the empty text becomes empty, and a join of
lowered texts is lowered. -/
structure LowersTexts (lower : String → String) : Prop where
  empty : ∀ text, lower text = "" ↔ text = ""
  joined : ∀ texts : List String, lower (", ".intercalate (texts.map lower)) =
    ", ".intercalate (texts.map lower)

def lowered (lower : String → String) (field : JsonField (List String)) : List String :=
  field.items.map lower

theorem sqlItems_eq {field : JsonField (List String)} (h : field ≠ .null) :
    sqlItems field = some field.items := by
  cases field with
  | missing => rfl
  | null => exact absurd rfl h
  | value items => rfl

theorem recipientList_eq {field : JsonField (List String)}
    (h : ∀ addr ∈ field.items, addr ≠ "" ∧ PlainText lower db addr) :
    recipientList lower field = lowered lower field := by
  have hall : field.items.filter (fun item => strip item ≠ "") = field.items := by
    apply List.filter_eq_self.mpr
    intro addr hmem
    obtain ⟨hne, hplain⟩ := h addr hmem
    rw [hplain.stripped, decide_eq_true_eq]
    exact hne
  unfold recipientList lowered
  rw [hall]
  exact List.map_congr_left fun addr hmem => (h addr hmem).2.lowered

variable {payload : Payload} {mailbox : String}

theorem routingOf_eq (hlower : LowersTexts lower)
    (h : PlainText lower db payload.routingRecipient.text) :
    routingOf lower payload = lower payload.routingRecipient.text := by
  unfold routingOf
  split
  · rename_i hempty
    rw [hempty, (hlower.empty "").mpr rfl]
  · exact h.lowered

theorem jsonbContainsEmail_eq {items : List String} (email : String)
    (h : ∀ addr ∈ items, addr ≠ "" ∧ PlainText lower db addr) :
    jsonbContainsEmail db items email = decide (email ∈ items.map lower) := by
  rw [Bool.eq_iff_iff, jsonbContainsEmail, List.any_eq_true, decide_eq_true_eq, List.mem_map]
  constructor
  · rintro ⟨addr, hmem, heq⟩
    rw [decide_eq_true_eq, (h addr hmem).2.same] at heq
    exact ⟨addr, hmem, heq⟩
  · rintro ⟨addr, hmem, heq⟩
    refine ⟨addr, hmem, ?_⟩
    rw [decide_eq_true_eq, (h addr hmem).2.same]
    exact heq

/-! ## Only the info mailbox -/

/-- What both say of a tidy row, over its lowered texts. -/
def OnlyInfo (toList ccList : List String) (routing mailbox : String) : Prop :=
  ccList = [] ∧ (∀ addr ∈ toList, addr = infoMailbox) ∧
    (routing = infoMailbox ∨
      routing = "" ∧ (infoMailbox ∈ toList ∨ toList = [] ∧ mailbox = infoMailbox))

theorem eq_singleton_iff {α : Type} {a : α} {items : List α} (hnodup : items.Nodup)
    (hall : ∀ b ∈ items, b = a) : items = [a] ↔ a ∈ items := by
  constructor
  · rintro rfl
    exact List.mem_singleton_self a
  · intro hmem
    cases items with
    | nil => cases hmem
    | cons b rest =>
      have hb := hall b (.head _)
      have hrest : rest = [] := by
        apply List.eq_nil_iff_forall_not_mem.mpr
        intro c hc
        have hcb := (hall c (List.mem_cons_of_mem b hc)).trans hb.symm
        exact (List.nodup_cons.mp hnodup).1 (hcb ▸ hc)
      rw [hb, hrest]

theorem filter_ne_nil_iff {items : List String} {a : String} :
    items.filter (fun b => b ≠ a) = [] ↔ ∀ b ∈ items, b = a := by
  rw [List.filter_eq_nil_iff]
  apply forall₂_congr
  intro b _
  rw [decide_eq_true_eq, not_not]

theorem isOnlyInfoTo_iff (hlower : LowersTexts lower)
    (h : Tidy lower db mailbox payload) (hkeys : payload.isEmpty = false)
    (hnodup : payload.routingRecipient.text = "" → (lowered lower payload.to_).Nodup) :
    isOnlyInfoTo lower mailbox (some payload) = true ↔
      OnlyInfo (lowered lower payload.to_) (lowered lower payload.cc)
        (lower payload.routingRecipient.text) (lower mailbox) := by
  unfold isOnlyInfoTo OnlyInfo
  dsimp only
  rw [hkeys, if_neg Bool.false_ne_true, recipientList_eq h.to_plain, recipientList_eq h.cc_plain,
    routingOf_eq hlower h.routing_plain, normalizeEmailAddress, h.mailbox_plain.lowered]
  by_cases hcc : lowered lower payload.cc = []
  · rw [if_neg (not_not.mpr hcc)]
    by_cases hall : ∀ addr ∈ lowered lower payload.to_, addr = infoMailbox
    · rw [if_neg (not_not.mpr (filter_ne_nil_iff.mpr hall))]
      by_cases hrouting : lower payload.routingRecipient.text = ""
      · have hsingle := eq_singleton_iff (hnodup ((hlower.empty _).mp hrouting)) hall
        rw [if_neg (not_not.mpr hrouting), hrouting]
        constructor
        · intro h
          refine ⟨hcc, hall, .inr ⟨rfl, ?_⟩⟩
          split at h
          · rename_i hinfo
            exact .inl (hsingle.mp hinfo)
          · exact .inr (of_decide_eq_true h)
        · rintro ⟨-, -, hempty | ⟨-, hinfo | hmailbox⟩⟩
          · exact absurd hempty (by decide)
          · rw [if_pos (hsingle.mpr hinfo)]
          · split
            · rfl
            · exact decide_eq_true hmailbox
      · rw [if_pos hrouting, decide_eq_true_eq]
        constructor
        · exact fun h => ⟨hcc, hall, .inl h⟩
        · rintro ⟨-, -, h | ⟨hempty, -⟩⟩
          · exact h
          · exact absurd hempty hrouting
    · rw [if_pos (mt filter_ne_nil_iff.mp hall)]
      simp only [Bool.false_eq_true, hall, false_and, and_false]
  · rw [if_pos hcc]
    simp only [Bool.false_eq_true, hcc, false_and]

theorem noForeign_iff {items : List String}
    (h : ∀ addr ∈ items, addr ≠ "" ∧ PlainText lower db addr) :
    (!items.any fun item => db.lower item ≠ infoMailbox) = true ↔
      ∀ addr ∈ items.map lower, addr = infoMailbox := by
  rw [Bool.not_eq_true', List.any_eq_false, List.forall_mem_map]
  apply forall₂_congr
  intro addr hmem
  rw [decide_eq_true_eq, not_not, (h addr hmem).2.same]

theorem length_items_iff (lower : String → String) {field : JsonField (List String)} :
    field.items.length = 0 ↔ lowered lower field = [] := by
  rw [List.length_eq_zero_iff, lowered, List.map_eq_nil_iff]

theorem onlyInfoToSqlFilter_iff (h : Tidy lower db mailbox payload) :
    onlyInfoToSqlFilter db mailbox (some payload) = some true ↔
      OnlyInfo (lowered lower payload.to_) (lowered lower payload.cc)
        (lower payload.routingRecipient.text) (lower mailbox) := by
  unfold onlyInfoToSqlFilter
  simp only [safePayloadJsonb, h.cast, sqlItems_eq h.to_ne_null, sqlItems_eq h.cc_ne_null,
    Option.bind_eq_bind, Option.bind_some, jsonbContainsEmail_eq infoMailbox h.to_plain,
    h.routing_plain.same, h.mailbox_plain.same]
  simp only [pure, Option.some.injEq, Option.isSome_some, Bool.true_and, Bool.and_eq_true,
    Bool.or_eq_true, decide_eq_true_eq, noForeign_iff h.to_plain]
  rw [length_items_iff lower, length_items_iff lower]
  unfold OnlyInfo
  constructor
  · rintro ⟨hcc, ⟨hinfo, hall⟩ | ⟨hempty, ⟨hmem, hall⟩ | ⟨hto, hmailbox⟩⟩⟩
    · exact ⟨hcc, hall, .inl hinfo⟩
    · exact ⟨hcc, hall, .inr ⟨hempty, .inl hmem⟩⟩
    · refine ⟨hcc, ?_, .inr ⟨hempty, .inr ⟨hto, hmailbox⟩⟩⟩
      rw [hto]
      exact fun addr hmem => absurd hmem List.not_mem_nil
  · rintro ⟨hcc, hall, hinfo | ⟨hempty, hmem | ⟨hto, hmailbox⟩⟩⟩
    · exact ⟨hcc, .inl ⟨hinfo, hall⟩⟩
    · exact ⟨hcc, .inr ⟨hempty, .inl ⟨hmem, hall⟩⟩⟩
    · exact ⟨hcc, .inr ⟨hempty, .inr ⟨hto, hmailbox⟩⟩⟩

/-- What both say of a tidy row, over its lowered texts. -/
def InfoToTestIi (toList ccList : List String) (routing mailbox : String) : Prop :=
  routing = testIiMailbox ∧
    (infoMailbox ∈ toList ∨ infoMailbox ∈ ccList ∨
      toList = [] ∧ ccList = [] ∧ mailbox = testIiMailbox)

theorem isInfoToTestIiRouting_iff (hlower : LowersTexts lower) (h : Tidy lower db mailbox payload) :
    isInfoToTestIiRouting lower mailbox (some payload) = true ↔
      InfoToTestIi (lowered lower payload.to_) (lowered lower payload.cc)
        (lower payload.routingRecipient.text) (lower mailbox) := by
  unfold isInfoToTestIiRouting InfoToTestIi
  dsimp only
  rw [recipientList_eq h.to_plain, recipientList_eq h.cc_plain, routingOf_eq hlower h.routing_plain,
    normalizeEmailAddress, h.mailbox_plain.lowered]
  by_cases hrouting : lower payload.routingRecipient.text = testIiMailbox
  · have hkeys : payload.isEmpty = false := by
      by_contra hempty
      rw [Bool.not_eq_false, Payload.isEmpty, decide_eq_true_eq] at hempty
      have htext : payload.routingRecipient.text = "" := by
        rw [hempty.2.2.1]
        rfl
      rw [htext, (hlower.empty "").mpr rfl] at hrouting
      exact absurd hrouting (by decide)
    rw [hkeys, if_neg Bool.false_ne_true, if_neg (not_not.mpr hrouting)]
    by_cases hinfo : infoMailbox ∈ lowered lower payload.to_ ∨ infoMailbox ∈ lowered lower payload.cc
    · rw [decide_eq_true hinfo, if_neg fun h => Bool.false_ne_true h.2.symm, if_pos rfl]
      exact iff_of_true rfl ⟨hrouting, hinfo.imp_right .inl⟩
    · rw [decide_eq_false hinfo, if_neg Bool.false_ne_true]
      have hnone : (infoMailbox ∈ lowered lower payload.to_ ∨ infoMailbox ∈ lowered lower payload.cc ∨
          lowered lower payload.to_ = [] ∧ lowered lower payload.cc = [] ∧
            lower mailbox = testIiMailbox) ↔
          lowered lower payload.to_ = [] ∧ lowered lower payload.cc = [] ∧
            lower mailbox = testIiMailbox := by
        rw [← or_assoc, or_iff_right hinfo]
      rw [hnone, and_iff_right hrouting]
      by_cases hto : testIiMailbox ∈ lowered lower payload.to_
      · rw [if_pos ⟨hto, rfl⟩]
        apply iff_of_false Bool.false_ne_true
        intro hempty
        rw [hempty.1] at hto
        cases hto
      · rw [if_neg fun h => hto h.1, ← and_assoc]
        split
        · rename_i hempty
          rw [decide_eq_true_eq, and_iff_right hempty]
        · rename_i hempty
          exact iff_of_false Bool.false_ne_true fun h => hempty h.1
  · rw [if_pos hrouting]
    split <;> exact iff_of_false Bool.false_ne_true fun h => hrouting h.1

theorem infoToTestIiSqlFilter_iff (h : Tidy lower db mailbox payload) :
    infoToTestIiSqlFilter db mailbox (some payload) = some true ↔
      InfoToTestIi (lowered lower payload.to_) (lowered lower payload.cc)
        (lower payload.routingRecipient.text) (lower mailbox) := by
  unfold infoToTestIiSqlFilter
  simp only [safePayloadJsonb, h.cast, sqlItems_eq h.to_ne_null, sqlItems_eq h.cc_ne_null,
    Option.bind_eq_bind, Option.bind_some, jsonbContainsEmail_eq infoMailbox h.to_plain,
    jsonbContainsEmail_eq infoMailbox h.cc_plain, jsonbContainsEmail_eq testIiMailbox h.to_plain,
    h.routing_plain.same, h.mailbox_plain.same]
  simp only [pure, Option.some.injEq, Option.isSome_some, Bool.and_true, Bool.and_eq_true,
    Bool.or_eq_true, decide_eq_true_eq, Bool.not_eq_true', decide_eq_false_iff_not]
  rw [length_items_iff lower, length_items_iff lower]
  unfold InfoToTestIi
  constructor
  · rintro ⟨⟨hrouting, (hinfo | hinfo) | ⟨⟨hto, hcc⟩, hmailbox⟩⟩, -⟩
    · exact ⟨hrouting, .inl hinfo⟩
    · exact ⟨hrouting, .inr (.inl hinfo)⟩
    · exact ⟨hrouting, .inr (.inr ⟨hto, hcc, hmailbox⟩)⟩
  · rintro ⟨hrouting, hinfo | hinfo | ⟨hto, hcc, hmailbox⟩⟩
    · exact ⟨⟨hrouting, .inl (.inl hinfo)⟩, .inl (.inl hinfo)⟩
    · exact ⟨⟨hrouting, .inl (.inr hinfo)⟩, .inl (.inr hinfo)⟩
    · refine ⟨⟨hrouting, .inr ⟨⟨hto, hcc⟩, hmailbox⟩⟩, .inr ?_⟩
      show testIiMailbox ∉ lowered lower payload.to_
      rw [hto]
      exact List.not_mem_nil

/-! ## The query for a recipient -/

/-- What a query may contain: no wildcards, and no part of the delimiter when there are several
addresses to look in. -/
structure PlainQuery (lower : String → String) (payload : Payload) (query : String) : Prop where
  literal : ∀ c ∈ (lower (strip query)).toList, Literal c
  undelimited : payload.routingRecipient.text ≠ "" ∨ payload.to_.items.length ≤ 1 ∨
    (',' ∉ (lower (strip query)).toList ∧ ' ' ∉ (lower (strip query)).toList)

/-- What both say of a tidy row, over its lowered texts. -/
def RecipientMatches (needle : String) (toList : List String) (routing mailbox : String) : Prop :=
  routing ≠ "" ∧ contains needle routing = true ∨
    routing = "" ∧ ((∃ addr ∈ toList, contains needle addr = true) ∨
      toList = [] ∧ contains needle mailbox = true)

theorem likeAround_eq {needle : String} (h : ∀ c ∈ needle.toList, Literal c) (text : String) :
    likeAround needle text = contains needle text := by
  rw [Bool.eq_iff_iff, likeAround, contains, decide_eq_true_eq]
  exact like_contains h text.toList

theorem contains_empty (text : String) : contains "" text = true :=
  decide_eq_true List.nil_infix

/-- A needle without the delimiter is found in the joined addresses exactly when in one of them. -/
theorem contains_joined_iff {needle : String} (hne : needle ≠ "") {addrs : List String}
    (h : addrs.length ≤ 1 ∨ (',' ∉ needle.toList ∧ ' ' ∉ needle.toList)) :
    contains needle (", ".intercalate addrs) = true ↔
      ∃ addr ∈ addrs, contains needle addr = true := by
  have hnil : needle.toList ≠ [] := fun h => hne (String.toList_eq_nil_iff.mp h)
  unfold contains
  simp only [decide_eq_true_eq, String.toList_intercalate]
  rcases h with hone | ⟨hcomma, hspace⟩
  · match addrs, hone with
    | [], _ => simp [hnil]
    | [addr], _ => simp
  · have hsep : ∀ d ∈ (", " : String).toList, d ∉ needle.toList := by
      intro d hd
      have hcases : d = ',' ∨ d = ' ' := by simpa using hd
      rcases hcases with rfl | rfl
      · exact hcomma
      · exact hspace
    rw [infix_intercalate_iff (by decide) hsep hnil]
    simp only [List.mem_map, exists_exists_and_eq_and]

theorem intercalate_eq_empty_iff {addrs : List String} (h : ∀ addr ∈ addrs, addr ≠ "") :
    ", ".intercalate addrs = "" ↔ addrs = [] := by
  cases addrs with
  | nil => simp
  | cons addr rest =>
    have haddr := h addr (.head _)
    refine iff_of_false (fun hempty => ?_) (List.cons_ne_nil addr rest)
    cases rest with
    | nil => exact haddr (String.intercalate_singleton.symm.trans hempty)
    | cons next rest =>
      rw [String.intercalate_cons_cons, String.append_assoc, String.append_eq_empty_iff] at hempty
      exact haddr hempty.1

section

variable (hlower : LowersTexts lower) {query : String} (h : Tidy lower db mailbox payload)
include hlower h

theorem matchesRecipientQ_iff (hkeys : payload.isEmpty = false)
    (hquery : PlainQuery lower payload query) :
    matchesRecipientQ lower mailbox (some payload) query = true ↔
      RecipientMatches (lower (strip query)) (lowered lower payload.to_)
        (lower payload.routingRecipient.text) (lower mailbox) := by
  have hrouting := hlower.empty payload.routingRecipient.text
  have haddrs : ∀ addr ∈ lowered lower payload.to_, addr ≠ "" := by
    intro addr hmem
    obtain ⟨item, hitem, rfl⟩ := List.mem_map.mp hmem
    exact mt (hlower.empty item).mp (h.to_plain item hitem).1
  unfold matchesRecipientQ recipientDisplayValue RecipientMatches
  dsimp only
  rw [Option.all_some, hkeys, recipientList_eq h.to_plain, h.routing_plain.stripped,
    normalizeEmailAddress, h.mailbox_plain.lowered]
  by_cases hneedle : lower (strip query) = ""
  · rw [if_pos hneedle, hneedle]
    refine iff_of_true rfl ?_
    by_cases hempty : lower payload.routingRecipient.text = ""
    · refine .inr ⟨hempty, ?_⟩
      cases lowered lower payload.to_ with
      | nil => exact .inr ⟨rfl, contains_empty _⟩
      | cons addr rest => exact .inl ⟨addr, .head _, contains_empty addr⟩
    · exact .inl ⟨hempty, contains_empty _⟩
  · rw [if_neg hneedle, if_neg Bool.false_ne_true, if_neg Bool.false_ne_true]
    by_cases hempty : payload.routingRecipient.text = ""
    · rw [if_neg (not_not.mpr hempty), lowered, hlower.joined, ← lowered]
      have hundelimited : (lowered lower payload.to_).length ≤ 1 ∨
          (',' ∉ (lower (strip query)).toList ∧ ' ' ∉ (lower (strip query)).toList) := by
        rw [lowered, List.length_map]
        exact hquery.undelimited.resolve_left (not_not.mpr hempty)
      by_cases hnil : lowered lower payload.to_ = []
      · rw [if_neg (not_not.mpr ((intercalate_eq_empty_iff haddrs).mpr hnil))]
        constructor
        · exact fun h => .inr ⟨hrouting.mpr hempty, .inr ⟨hnil, h⟩⟩
        · rintro (⟨hne, -⟩ | ⟨-, ⟨addr, hmem, -⟩ | ⟨-, h⟩⟩)
          · exact absurd (hrouting.mpr hempty) hne
          · rw [hnil] at hmem
            cases hmem
          · exact h
      · rw [if_pos (mt (intercalate_eq_empty_iff haddrs).mp hnil),
          contains_joined_iff hneedle hundelimited]
        constructor
        · exact fun h => .inr ⟨hrouting.mpr hempty, .inl h⟩
        · rintro (⟨hne, -⟩ | ⟨-, h | ⟨h, -⟩⟩)
          · exact absurd (hrouting.mpr hempty) hne
          · exact h
          · exact absurd h hnil
    · rw [if_pos hempty, if_pos (mt hrouting.mp hempty)]
      constructor
      · exact fun h => .inl ⟨mt hrouting.mp hempty, h⟩
      · rintro (⟨-, h⟩ | ⟨h, -⟩)
        · exact h
        · exact absurd (hrouting.mp h) hempty

theorem recipientQSqlFilter_iff (hquery : PlainQuery lower payload query) :
    recipientQSqlFilter lower db mailbox (some payload) query = some true ↔
      RecipientMatches (lower (strip query)) (lowered lower payload.to_)
        (lower payload.routingRecipient.text) (lower mailbox) := by
  unfold recipientQSqlFilter
  simp only [safePayloadJsonb, h.cast, sqlItems_eq h.to_ne_null, Option.bind_eq_bind,
    Option.bind_some, likeAround_eq hquery.literal, h.routing_plain.same, h.mailbox_plain.same]
  simp only [pure, Option.some.injEq, Option.isSome_some, Bool.true_and, Bool.and_eq_true,
    Bool.or_eq_true, decide_eq_true_eq, List.any_eq_true]
  rw [length_items_iff lower]
  unfold RecipientMatches
  have hany : (∃ item ∈ payload.to_.items,
      contains (lower (strip query)) (db.lower item) = true) ↔
      ∃ addr ∈ lowered lower payload.to_, contains (lower (strip query)) addr = true := by
    simp only [lowered, List.mem_map, exists_exists_and_eq_and]
    exact exists_congr fun item => and_congr_right fun hmem => by
      rw [(h.to_plain item hmem).2.same]
  rw [hany, ne_eq, ← hlower.empty payload.routingRecipient.text]
  constructor
  · rintro ((hrouting | ⟨hempty, haddr⟩) | ⟨⟨hempty, hnil⟩, hmailbox⟩)
    · exact .inl hrouting
    · exact .inr ⟨hempty, .inl haddr⟩
    · exact .inr ⟨hempty, .inr ⟨hnil, hmailbox⟩⟩
  · rintro (hrouting | ⟨hempty, haddr | ⟨hnil, hmailbox⟩⟩)
    · exact .inl (.inl hrouting)
    · exact .inl (.inr ⟨hempty, haddr⟩)
    · exact .inr ⟨⟨hempty, hnil⟩, hmailbox⟩

end

/-- On tidy rows the filters and the predicates agree: always for the chain to test_ii; for the info
mailbox when the payload is not the empty object and no address is repeated (or there is a routing
recipient); for a query when the payload is not the empty object and the query is plain, and not
blank for a row without payload. -/
theorem list_filters_agree (lower : String → String) (hlower : LowersTexts lower) (db : Postgres)
    (mailbox : String) (payload : Option Payload)
    (htidy : ∀ stored ∈ payload, Tidy lower db mailbox stored) :
    ((∀ stored ∈ payload, stored.isEmpty = false ∧
        (stored.routingRecipient.text = "" → (lowered lower stored.to_).Nodup)) →
      (onlyInfoToSqlFilter db mailbox payload = some true ↔
        isOnlyInfoTo lower mailbox payload = true)) ∧
    (infoToTestIiSqlFilter db mailbox payload = some true ↔
      isInfoToTestIiRouting lower mailbox payload = true) ∧
    ∀ query : String, (payload = none → lower (strip query) ≠ "") →
      (∀ stored ∈ payload, stored.isEmpty = false ∧ PlainQuery lower stored query) →
        (recipientQSqlFilter lower db mailbox payload query = some true ↔
          matchesRecipientQ lower mailbox payload query = true) := by
  cases payload with
  | none =>
    refine ⟨fun _ => ?_, ?_, fun query hblank _ => ?_⟩
    · simp [onlyInfoToSqlFilter, isOnlyInfoTo, safePayloadJsonb, sqlItems]
    · simp [infoToTestIiSqlFilter, isInfoToTestIiRouting, safePayloadJsonb, sqlItems]
    · simp [recipientQSqlFilter, matchesRecipientQ, safePayloadJsonb, sqlItems, hblank rfl]
  | some stored =>
    have h := htidy stored rfl
    refine ⟨fun hstored => ?_, ?_, fun query _ hstored => ?_⟩
    · obtain ⟨hkeys, hnodup⟩ := hstored stored rfl
      exact (onlyInfoToSqlFilter_iff h).trans (isOnlyInfoTo_iff hlower h hkeys hnodup).symm
    · exact (infoToTestIiSqlFilter_iff h).trans (isInfoToTestIiRouting_iff hlower h).symm
    · obtain ⟨hkeys, hquery⟩ := hstored stored rfl
      exact (recipientQSqlFilter_iff hlower h hquery).trans
        (matchesRecipientQ_iff hlower h hkeys hquery).symm

/-- A database that reads every payload back and whose `lower` keeps every text. -/
def plainDb : Postgres := { lower := id, castPayload := some }

/-- A stored payload with these addresses and this routing recipient. -/
def payloadOf (to_ : List String) (routingRecipient : JsonField String) : Payload :=
  { to_ := .value to_, cc := .value [], routingRecipient := routingRecipient, hasOtherKeys := true }

theorem lowersTexts_id : LowersTexts id where
  empty _ := Iff.rfl
  joined texts := by rw [List.map_id, id_eq]

theorem list_filters_agree_info :
    onlyInfoToSqlFilter plainDb "box@a" (some (payloadOf ["info@turbo-don.ru"] .null)) = some true ∧
      matchesRecipientQ id "box@a" (some (payloadOf ["info@turbo-don.ru"] .null)) "info" = true := by
  have htidy : Tidy id plainDb "box@a" (payloadOf ["info@turbo-don.ru"] .null) :=
    { cast := rfl
      to_ne_null := by decide
      cc_ne_null := by decide
      to_plain := by
        intro addr hmem
        rw [List.mem_singleton.mp hmem]
        exact ⟨by decide, by decide +kernel, by decide +kernel, rfl⟩
      cc_plain := fun _ hmem => absurd hmem List.not_mem_nil
      routing_plain := ⟨by decide +kernel, by decide +kernel, rfl⟩
      mailbox_plain := ⟨by decide +kernel, by decide +kernel, rfl⟩ }
  have hagree := list_filters_agree id lowersTexts_id plainDb "box@a"
    (some (payloadOf ["info@turbo-don.ru"] .null)) fun stored hstored => by
      rw [← Option.some.inj hstored]
      exact htidy
  constructor
  · refine (hagree.1 fun stored hstored => ?_).mpr (by decide +kernel)
    rw [← Option.some.inj hstored]
    exact ⟨by decide, fun _ => by decide⟩
  · refine (hagree.2.2 "info" (fun h => by cases h) fun stored hstored => ?_).mp (by decide +kernel)
    rw [← Option.some.inj hstored]
    have hplain : (strip "info").toList.all (fun c => decide (Literal c)) = true := by
      decide +kernel
    refine ⟨by decide, fun c hmem => ?_, .inr (.inl (by decide))⟩
    exact of_decide_eq_true (List.all_eq_true.mp hplain c hmem)

def emptyPayload : Payload :=
  { to_ := .missing, cc := .missing, routingRecipient := .missing, hasOtherKeys := false }

/-- They differ on an address that is listed twice and on the empty object, on white space around the
routing recipient, and on a wildcard, on the delimiter of two addresses and on a blank query for a
row without payload. -/
theorem list_filters_differ :
    (onlyInfoToSqlFilter plainDb "box@a"
        (some (payloadOf ["info@turbo-don.ru", "info@turbo-don.ru"] .null)) = some true ∧
      isOnlyInfoTo id "box@a"
        (some (payloadOf ["info@turbo-don.ru", "info@turbo-don.ru"] .null)) = false) ∧
    (onlyInfoToSqlFilter plainDb "info@turbo-don.ru" (some emptyPayload) = some true ∧
      isOnlyInfoTo id "info@turbo-don.ru" (some emptyPayload) = false) ∧
    (infoToTestIiSqlFilter plainDb "box@a"
        (some (payloadOf ["info@turbo-don.ru"] (.value " test_ii@turbo-don.ru"))) = some false ∧
      isInfoToTestIiRouting id "box@a"
        (some (payloadOf ["info@turbo-don.ru"] (.value " test_ii@turbo-don.ru"))) = true) ∧
    (recipientQSqlFilter id plainDb "box@a" (some (payloadOf ["c@d"] .null)) "_" = some true ∧
      matchesRecipientQ id "box@a" (some (payloadOf ["c@d"] .null)) "_" = false) ∧
    (recipientQSqlFilter id plainDb "box@a" (some (payloadOf ["c@d", "e@f"] .null)) "d, e" =
        some false ∧
      matchesRecipientQ id "box@a" (some (payloadOf ["c@d", "e@f"] .null)) "d, e" = true) ∧
    recipientQSqlFilter id plainDb "box@a" none " " = some false ∧
      matchesRecipientQ id "box@a" none " " = true := by
  decide +kernel

end AgentBack.Mail
