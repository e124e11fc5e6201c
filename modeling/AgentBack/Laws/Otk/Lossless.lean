import AgentBack.Laws.Otk.Edits

/-!
# Runs that lose no edit

What the transactions write, from what they have read: an edit replaces one card, a cycle builds the
cards of a case or leaves them. From this, what the end of a careful transaction does to the stored
cases (`saved_cases`), and by it the invariant of the runs.
-/

namespace AgentBack.Otk

open Py (Value textOf)

variable (py : Quality.Reading)

/-! ## What an edit writes -/

structure EditWrites (edit : Edit) (presentationId : String) (row row' : ProcurementCase) where
  card : PresentationCard
  card' : PresentationCard
  before : List PresentationCard
  after : List PresentationCard
  found : firstOf PresentationCard.id row.cards presentationId = some card
  applied : edit.apply card = some card'
  split : row.cards = before ++ card :: after
  split' : row'.cards = before ++ card' :: after
  self : firstOf PresentationCard.id row'.cards presentationId = some card'
  others : ∀ id, id ≠ presentationId →
    firstOf PresentationCard.id row'.cards id = firstOf PresentationCard.id row.cards id

variable {edit : Edit} {row row' : ProcurementCase}

theorem filter_eq_some {card card' : PresentationCard}
    (h : (edit.apply card).filter enrichCard = some card') : edit.apply card = some card' :=
  (Option.filter_eq_some_iff.mp h).1

theorem write_spec {presentationId : String} {rows : List ProcurementCase} (h : edit.write presentationId rows = some (row, row')) :
    row ∈ rows ∧ row' = row.saveCards row'.cards ∧
      Nonempty (EditWrites edit presentationId row row') := by
  obtain ⟨found, hload, hsave⟩ := Option.bind_eq_some_iff.mp h
  obtain ⟨cards, hcards, hrow⟩ := Option.map_eq_some_iff.mp hsave
  cases hrow
  have hkey : ∀ a a', (edit.apply a).filter enrichCard = some a' → a'.id = a.id :=
    fun a a' ha => id_apply (filter_eq_some ha)
  obtain ⟨before, card, card', after, hsplit, hbefore, hid, hcard, hsplit'⟩ :=
    changeFirst_eq_some_iff.mp hcards
  have happly := filter_eq_some hcard
  refine ⟨List.mem_of_find?_eq_some hload, rfl, ⟨card, card', before, after, ?_, happly, hsplit,
    hsplit', ?_, fun id hne => firstOf_changeFirst_ne hcards hkey hne⟩⟩
  · rw [hsplit]
    exact firstOf_split hbefore hid
  · change firstOf PresentationCard.id cards presentationId = some card'
    rw [hsplit']
    exact firstOf_split hbefore ((id_apply happly).trans hid)

theorem EditWrites.ids {presentationId : String} (w : EditWrites edit presentationId row row') :
    row'.cards.map PresentationCard.id = row.cards.map PresentationCard.id := by
  rw [w.split, w.split', List.map_append, List.map_append, List.map_cons, List.map_cons,
    id_apply w.applied]

/-- The ids of the lines after an edit: those before without some, or with one new id. -/
theorem lineIds_apply {card card' : PresentationCard} (h : edit.apply card = some card') :
    List.Sublist (card'.lines.map ShipmentLine.id) (card.lines.map ShipmentLine.id) ∨
      ∃ payload uuid, edit = .addLine payload uuid ∧
        card'.lines.map ShipmentLine.id = card.lines.map ShipmentLine.id ++ [newLineId uuid] := by
  cases edit with
  | updatePresentation patch =>
    cases h
    exact Or.inl (List.Sublist.refl _)
  | addLine payload uuid =>
    cases h
    exact Or.inr ⟨payload, uuid, rfl, by simp⟩
  | updateLine lineId patch =>
    obtain ⟨lines, hlines, rfl⟩ := Option.map_eq_some_iff.mp h
    left
    rw [map_changeFirst hlines]
    intro line line' hline
    cases hline
    rfl
  | deleteLine lineId =>
    simp only [Edit.apply] at h
    split at h
    · cases h
    · cases h
      exact Or.inl (List.filter_sublist.map _)

theorem EditWrites.lineIds {presentationId : String}
    (w : EditWrites edit presentationId row row') (h : row.lineIds.Nodup)
    (hfresh : ∀ payload uuid, edit = .addLine payload uuid → newLineId uuid ∉ row.lineIds) :
    row'.lineIds.Nodup := by
  have hrow : row.lineIds = w.before.flatMap (fun card => card.lines.map ShipmentLine.id) ++
      (w.card.lines.map ShipmentLine.id ++
        w.after.flatMap fun card => card.lines.map ShipmentLine.id) := by
    rw [ProcurementCase.lineIds, w.split, List.flatMap_append, List.flatMap_cons]
  have hrow' : row'.lineIds = w.before.flatMap (fun card => card.lines.map ShipmentLine.id) ++
      (w.card'.lines.map ShipmentLine.id ++
        w.after.flatMap fun card => card.lines.map ShipmentLine.id) := by
    rw [ProcurementCase.lineIds, w.split', List.flatMap_append, List.flatMap_cons]
  rcases lineIds_apply w.applied with hsub | ⟨payload, uuid, hedit, hlines⟩
  · rw [hrow']
    rw [hrow] at h
    exact h.sublist ((List.Sublist.refl _).append (hsub.append (List.Sublist.refl _)))
  · have hperm : List.Perm row'.lineIds (newLineId uuid :: row.lineIds) := by
      rw [hrow', hrow, hlines, List.append_assoc, List.singleton_append, ← List.append_assoc,
        ← List.append_assoc]
      exact List.perm_middle
    exact hperm.nodup_iff.mpr (List.nodup_cons.mpr ⟨hfresh payload uuid hedit, h⟩)

theorem cards_applyCase (enqueueCase : Bool) (journal : Dict String Value)
    (row : ProcurementCase) :
    (applyCase py enqueueCase journal row).cards =
      if (tmcCoverage py row journal).status = .none then row.cards
      else buildOtkPresentationsForCase py row journal := by
  by_cases hnone : (tmcCoverage py row journal).status = .none
  · simp only [applyCase, if_pos hnone]
  · simp only [applyCase, if_neg hnone]
    split
    · rfl
    split
    · rfl
    split
    · rfl
    · rfl

theorem mem_reconcile {enqueueCase : Bool} {answers : Answers} {rows : List ProcurementCase} :
    (row, row') ∈ reconcile py enqueueCase answers rows ↔
      row ∈ rows ∧ eligible row = true ∧ ∃ journal, journalFor py answers row = some journal ∧
        row' = applyCase py enqueueCase journal row := by
  unfold reconcile
  rw [List.mem_filterMap]
  constructor
  · rintro ⟨r, hr, hwrite⟩
    obtain ⟨journal, hjournal, heq⟩ := Option.map_eq_some_iff.mp hwrite
    cases heq
    exact ⟨(List.mem_filter.mp hr).1, (List.mem_filter.mp hr).2, journal, hjournal, rfl⟩
  · rintro ⟨hrow, heligible, journal, hjournal, heq⟩
    refine ⟨row, List.mem_filter.mpr ⟨hrow, heligible⟩, ?_⟩
    rw [hjournal, Option.map_some]
    exact congrArg some (Prod.ext rfl heq.symm)

theorem mem_rebuiltCases {enqueueCase : Bool} {answers : Answers} {read : List ProcurementCase} {journal : Dict String Value} :
    (row, journal) ∈ rebuiltCases py (.cycle enqueueCase answers) read ↔
      row ∈ read ∧ eligible row = true ∧ journalFor py answers row = some journal ∧
        (tmcCoverage py row journal).status ≠ .none := by
  simp only [rebuiltCases, List.mem_filterMap, List.mem_filter, Option.map_eq_some_iff,
    Option.filter_eq_some_iff, decide_eq_true_eq]
  constructor
  · rintro ⟨r, ⟨hr, heligible⟩, j, ⟨hj, hstatus⟩, heq⟩
    cases heq
    exact ⟨hr, heligible, hj, hstatus⟩
  · rintro ⟨hr, heligible, hj, hstatus⟩
    exact ⟨row, ⟨hr, heligible⟩, journal, ⟨hj, hstatus⟩, rfl⟩

/-! ## The ids of built lines -/

/-- Two texts with one mark before parts that do not have it: the parts are the same. -/
theorem append_mark_inj {α : Type} {x : α} {a a' d d' : List α} (hd : x ∉ d) (hd' : x ∉ d')
    (h : a ++ x :: d = a' ++ x :: d') : a = a' ∧ d = d' := by
  rcases List.append_eq_append_iff.mp h with ⟨c, ha, hc⟩ | ⟨c, ha, hc⟩
  · cases c with
    | nil =>
      cases hc
      exact ⟨by simpa using ha.symm, rfl⟩
    | cons y c =>
      cases hc
      exact absurd (List.mem_append_right c (.head _)) hd
  · cases c with
    | nil =>
      cases hc
      exact ⟨by simpa using ha, rfl⟩
    | cons y c =>
      cases hc
      exact absurd (List.mem_append_right c (.head _)) hd'

theorem not_mem_toDigits (n : Nat) : 'l' ∉ Nat.toDigits 10 n := by
  intro h
  exact absurd (Nat.isDigit_of_mem_toDigits (by decide) (by decide) h) (by decide)

theorem journalLineId_inj {ref ref' : String} {index index' : Nat}
    (h : journalLineId ref index = journalLineId ref' index') : ref = ref' ∧ index = index' := by
  have htext : ∀ (r : String) (n : Nat), (journalLineId r n).toList =
      (r.toList ++ ['-']) ++ 'l' :: Nat.toDigits 10 (n + 1) := by
    intro r n
    simp [journalLineId, String.toList_append]
  have hlist := congrArg String.toList h
  rw [htext, htext] at hlist
  obtain ⟨href, hdigits⟩ :=
    append_mark_inj (not_mem_toDigits _) (not_mem_toDigits _) hlist
  have hnum := congrArg (fun cs => Nat.ofDigitChars 10 cs 0) hdigits
  simp only [Nat.ofDigitChars_toDigits (by decide : 1 < 10) (by decide : 10 ≤ 10)] at hnum
  exact ⟨String.toList_inj.mp (List.append_cancel_right href), by omega⟩

/-- Lines with the ids of places of their own have ids of their own. -/
theorem nodup_journalLineIds {α : Type} (ref : String) {items : List (α × Nat)}
    (h : (items.map Prod.snd).Nodup) :
    (items.map fun item => journalLineId ref item.2).Nodup := by
  have hmap : (items.map fun item => journalLineId ref item.2) =
      (items.map Prod.snd).map (journalLineId ref) := by
    rw [List.map_map]
    rfl
  rw [hmap]
  exact h.map fun _ _ heq => (journalLineId_inj heq).2

/-- The lines of a card have the ids of their places in the document. -/
theorem lineIds_builtLines (names : Dict String String) (journalRef : String) (journal : Value)
    (link : SupplierOrderLink) :
    ((builtLines py names journalRef journal link).map ShipmentLine.id).Nodup ∧
      ∀ line ∈ builtLines py names journalRef journal link,
        ∃ index, line.id = journalLineId journalRef index := by
  have hplaces : ∀ {α : Type} (items : List α), (items.zipIdx.map Prod.snd).Nodup := by
    intro α items
    rw [List.zipIdx_map_snd]
    exact List.nodup_range'
  unfold builtLines
  dsimp only
  split
  · refine ⟨?_, ?_⟩
    · rw [List.map_map]
      exact nodup_journalLineIds journalRef (hplaces link.lines)
    · intro line hline
      obtain ⟨item, _, rfl⟩ := List.mem_map.mp hline
      exact ⟨item.2, rfl⟩
  · refine ⟨?_, ?_⟩
    · rw [List.map_map]
      exact nodup_journalLineIds journalRef
        ((hplaces _).sublist (List.filter_sublist.map Prod.snd))
    · intro line hline
      obtain ⟨item, _, rfl⟩ := List.mem_map.mp hline
      exact ⟨item.2, rfl⟩

def journalStep (journal : Dict String Value) (item : Value) : Dict String Value :=
  if rowOrderRef py item = "" then journal
  else match journal.get? (rowOrderRef py item) with
    | none => journal.set (rowOrderRef py item) item
    | some previous =>
      if textOf py.toReading (item.get "date") < textOf py.toReading (previous.get "date")
      then journal
      else journal.set (rowOrderRef py item) item

theorem get?_journalByOrder_empty (presentations : List Value) :
    (journalByOrder py presentations).get? "" = none := by
  have hloop : ∀ (items : List Value) (journal : Dict String Value), journal.get? "" = none →
      (items.foldl (journalStep py) journal).get? "" = none := by
    intro items
    induction items with
    | nil => exact fun journal h => h
    | cons item rest ih =>
      intro journal h
      refine ih _ ?_
      unfold journalStep
      split
      · exact h
      · next hne =>
        have hset : (journal.set (rowOrderRef py item) item).get? "" = none := by
          rw [Dict.get?_set, if_neg hne]
          exact h
        split
        · exact hset
        · split
          · exact h
          · exact hset
  exact hloop presentations ∅ rfl

/-- The id of a card is the reference that its lines are numbered under. -/
theorem cardIdOf_eq {journal : Dict String Value} (hjournal : journal.get? "" = none) {link : SupplierOrderLink} {item : Value}
    (hitem : journal.get? (link.orderRef py) = some item) :
    cardIdOf py row link item = journalRefOf py (link.orderRef py) item := by
  have horder : link.orderRef py ≠ "" := by
    intro h
    rw [h, hjournal] at hitem
    cases hitem
  have href : journalRefOf py (link.orderRef py) item ≠ "" := by
    unfold journalRefOf
    split
    · exact horder
    · next h => exact h
  simp only [cardIdOf, if_neg href]

theorem ids_buildOtkPresentationsForCase (row : ProcurementCase) (journal : Dict String Value) :
    (buildOtkPresentationsForCase py row journal).map PresentationCard.id =
      presentationRefs py row journal := by
  unfold buildOtkPresentationsForCase presentationRefs
  rw [List.map_filterMap]
  congr 1
  funext link
  rw [Option.map_map]
  rfl

/-- Cards with ids of their own have lines with ids of their own. -/
theorem lineIds_build {journal : Dict String Value}
    (hjournal : journal.get? "" = none) (h : (presentationRefs py row journal).Nodup) :
    ((buildOtkPresentationsForCase py row journal).flatMap
      fun card => card.lines.map ShipmentLine.id).Nodup := by
  have hcard : ∀ card ∈ buildOtkPresentationsForCase py row journal,
      (card.lines.map ShipmentLine.id).Nodup ∧
        ∀ line ∈ card.lines, ∃ index, line.id = journalLineId card.id index := by
    intro card hmem
    obtain ⟨link, _, hbuilt⟩ := List.mem_filterMap.mp hmem
    obtain ⟨item, hitem, rfl⟩ := Option.map_eq_some_iff.mp hbuilt
    have hid : (builtCard py row link item).id = journalRefOf py (link.orderRef py) item :=
      cardIdOf_eq py hjournal hitem
    rw [hid]
    exact lineIds_builtLines py _ _ item link
  rw [← ids_buildOtkPresentationsForCase] at h
  refine List.nodup_flatMap.mpr ⟨fun card hmem => (hcard card hmem).1, ?_⟩
  refine (List.pairwise_map.mp h).imp_of_mem ?_
  intro card card' hmem hmem' hne
  rw [Function.onFun, List.disjoint_left]
  intro id hid hid'
  obtain ⟨line, hline, rfl⟩ := List.mem_map.mp hid
  obtain ⟨line', hline', heq⟩ := List.mem_map.mp hid'
  obtain ⟨index, hindex⟩ := (hcard card hmem).2 line hline
  obtain ⟨index', hindex'⟩ := (hcard card' hmem').2 line' hline'
  exact hne (journalLineId_inj (hindex.symm.trans (heq.symm.trans hindex'))).1

theorem column_self {τ : Type} [DecidableEq τ] (read written : τ) :
    column read read written = written := by
  unfold column
  split
  · next h => exact h.symm
  · rfl

/-- What a transaction writes of a case that is as it was read is stored as it is written. -/
theorem update_of_write {request : Request} {read : List ProcurementCase}
    {write : ProcurementCase × ProcurementCase} (h : write ∈ request.writes py read) :
    write.1.update write.1 write.2 = write.2 ∧ write.2.id = write.1.id := by
  simp only [ProcurementCase.update, column_self]
  cases request with
  | edit presentationId edit =>
    obtain ⟨row, row'⟩ := write
    obtain ⟨_, hsave, _⟩ := write_spec (Option.mem_toList.mp h)
    rw [hsave]
    exact ⟨rfl, rfl⟩
  | cycle enqueueCase answers =>
    obtain ⟨row, row'⟩ := write
    obtain ⟨_, _, journal, _, rfl⟩ := (mem_reconcile py).mp h
    unfold applyCase
    dsimp only
    split
    · exact ⟨rfl, rfl⟩
    split
    · exact ⟨rfl, rfl⟩
    split
    · exact ⟨rfl, rfl⟩
    split
    · exact ⟨rfl, rfl⟩
    · exact ⟨rfl, rfl⟩

@[simp] theorem id_saved (writes : List (ProcurementCase × ProcurementCase))
    (row : ProcurementCase) : (saved writes row).id = row.id := by
  unfold saved
  split <;> rfl

section Commit

variable {rows : List ProcurementCase} {session : Session}
  (hids : (rows.map ProcurementCase.id).Nodup)
  (hundisturbed : ∀ write ∈ session.request.writes py session.read,
    firstOf ProcurementCase.id rows write.1.id = some write.1)

include hids hundisturbed

/-- What is written under the id of a stored case is written of that case. -/
theorem read_eq {write : ProcurementCase × ProcurementCase}
    (hwrite : write ∈ session.request.writes py session.read) {row : ProcurementCase}
    (hrow : row ∈ rows) (hid : write.1.id = row.id) : write.1 = row := by
  have hfound := hundisturbed write hwrite
  rw [hid, firstOf_of_nodup hids hrow] at hfound
  exact (Option.some.inj hfound).symm

/-- A stored case stays, or it becomes what the transaction writes of it. -/
theorem saved_cases {row : ProcurementCase} (hrow : row ∈ rows) :
    ((∀ write ∈ session.request.writes py session.read, write.1 ≠ row) ∧
        saved (session.request.writes py session.read) row = row) ∨
      ∃ row', (row, row') ∈ session.request.writes py session.read ∧
        saved (session.request.writes py session.read) row = row' := by
  unfold saved
  cases hfind : (session.request.writes py session.read).find?
      fun write => write.1.id = row.id with
  | none =>
    refine Or.inl ⟨fun write hwrite heq => ?_, rfl⟩
    have hne := List.find?_eq_none.mp hfind write hwrite
    simp [heq] at hne
  | some write =>
    have hwrite := List.mem_of_find?_eq_some hfind
    have hid : write.1.id = row.id := by simpa using List.find?_some hfind
    have hread := read_eq py hids hundisturbed hwrite hrow hid
    refine Or.inr ⟨write.2, hread ▸ hwrite, ?_⟩
    rw [← hread]
    exact (update_of_write py hwrite).1

/-- The cards of a stored case after the transaction: those that a cycle builds when it builds the
cards of the case. -/
theorem cards_saved_cycle {enqueueCase : Bool} {answers : Answers}
    (hrequest : session.request = .cycle enqueueCase answers) {row : ProcurementCase}
    (hrow : row ∈ rows) :
    (rebuilt py session.request session.read row.id = none ∧
        (saved (session.request.writes py session.read) row).cards = row.cards) ∨
      ∃ journal, rebuilt py session.request session.read row.id = some (row, journal) ∧
        journalFor py answers row = some journal ∧
        (saved (session.request.writes py session.read) row).cards =
          buildOtkPresentationsForCase py row journal := by
  have hmem : ∀ {r : ProcurementCase} {journal : Dict String Value},
      (r, journal) ∈ rebuiltCases py session.request session.read →
        (r, applyCase py enqueueCase journal r) ∈ session.request.writes py session.read ∧
          journalFor py answers r = some journal ∧
          (tmcCoverage py r journal).status ≠ .none := by
    intro r journal h
    rw [hrequest] at h ⊢
    obtain ⟨hr, heligible, hjournal, hstatus⟩ := (mem_rebuiltCases py).mp h
    exact ⟨(mem_reconcile py).mpr ⟨hr, heligible, journal, hjournal, rfl⟩, hjournal, hstatus⟩
  cases hrebuilt : rebuilt py session.request session.read row.id with
  | none =>
    refine Or.inl ⟨rfl, ?_⟩
    rcases saved_cases py hids hundisturbed hrow with ⟨_, hsaved⟩ | ⟨row', hwrite, hsaved⟩
    · rw [hsaved]
    · rw [hsaved]
      have hwrite' := hwrite
      rw [hrequest] at hwrite'
      obtain ⟨hr, heligible, journal, hjournal, rfl⟩ := (mem_reconcile py).mp hwrite'
      rw [cards_applyCase]
      by_cases hstatus : (tmcCoverage py row journal).status = .none
      · exact if_pos hstatus
      · have hin : (row, journal) ∈ rebuiltCases py session.request session.read := by
          rw [hrequest]
          exact (mem_rebuiltCases py).mpr ⟨hr, heligible, hjournal, hstatus⟩
        have hnot := List.find?_eq_none.mp hrebuilt _ hin
        simp at hnot
  | some built =>
    obtain ⟨r, journal⟩ := built
    have hid : r.id = row.id := by simpa using List.find?_some hrebuilt
    obtain ⟨hwrite, hjournal, hstatus⟩ := hmem (List.mem_of_find?_eq_some hrebuilt)
    have hread : r = row := read_eq py hids hundisturbed hwrite hrow hid
    subst hread
    refine Or.inr ⟨journal, rfl, hjournal, ?_⟩
    rcases saved_cases py hids hundisturbed hrow with ⟨hnot, _⟩ | ⟨row', hwrite', hsaved⟩
    · exact absurd rfl (hnot _ hwrite)
    · rw [hrequest] at hwrite'
      obtain ⟨_, _, journal', hjournal', heq⟩ := (mem_reconcile py).mp hwrite'
      have hsame : journal' = journal := Option.some.inj (hjournal'.symm.trans hjournal)
      rw [hsaved, heq, hsame, cards_applyCase, if_neg hstatus]

end Commit

/-! ## The invariant -/

/-- What the runs keep: the ids of the cases, of all cards and of the lines of a case are their own,
and every mark shows. -/
structure Inv (ledger : Ledger) : Prop where
  ids : (ledger.world.rows.map ProcurementCase.id).Nodup
  cards : (ledger.world.rows.flatMap fun row => row.cards.map PresentationCard.id).Nodup
  lines : ∀ row ∈ ledger.world.rows, row.lineIds.Nodup
  kept : ∀ mark ∈ ledger.marks, mark.holds ledger.world.rows

theorem inv_of_idle {ledger : Ledger} (h : Idle ledger) : Inv ledger where
  ids := h.ids
  cards := by
    have hnil : ledger.world.rows.flatMap (fun row => row.cards.map PresentationCard.id) = [] := by
      rw [List.flatMap_eq_nil_iff]
      intro row hrow
      rw [h.cards row hrow]
      rfl
    rw [hnil]
    exact List.nodup_nil
  lines row hrow := by
    rw [ProcurementCase.lineIds, h.cards row hrow]
    exact List.nodup_nil
  kept := by
    rw [h.marks]
    exact fun mark hmark => absurd hmark List.not_mem_nil

/-- A card whose id no other card has is the one that its id loads. -/
theorem loadMutable_of_nodup {rows : List ProcurementCase}
    (h : (rows.flatMap fun row => row.cards.map PresentationCard.id).Nodup)
    {row : ProcurementCase} (hrow : row ∈ rows) {card : PresentationCard} (hcard : card ∈ row.cards) :
    loadMutable card.id rows = some row := by
  obtain ⟨before, after, rfl⟩ := List.append_of_mem hrow
  unfold loadMutable
  refine List.find?_eq_some_iff_append.mpr ⟨?_, before, after, rfl, fun other hother => ?_⟩
  · simp only [List.any_eq_true, decide_eq_true_eq]
    exact ⟨card, hcard, rfl⟩
  · have hany : other.cards.any (fun c => decide (c.id = card.id)) = false := by
      rw [List.any_eq_false]
      intro c hc heq
      have hid : c.id = card.id := of_decide_eq_true heq
      rw [List.flatMap_append, List.flatMap_cons] at h
      have hleft : c.id ∈ before.flatMap fun row => row.cards.map PresentationCard.id :=
        List.mem_flatMap.mpr ⟨other, hother, List.mem_map_of_mem hc⟩
      exact (List.nodup_append.mp h).2.2 c.id hleft card.id
        (List.mem_append_left _ (List.mem_map_of_mem hcard)) hid
    rw [hany]
    rfl

theorem lossless_of_inv {ledger : Ledger} (h : Inv ledger) : Lossless ledger where
  kept := h.kept
  cards row hrow := (List.nodup_flatMap.mp h.cards).1 row hrow
  lines := h.lines
  loads row hrow card hcard :=
    ⟨loadMutable_of_nodup h.cards hrow hcard,
      firstOf_of_nodup ((List.nodup_flatMap.mp h.cards).1 row hrow) hcard⟩

theorem firstOf_saved (writes : List (ProcurementCase × ProcurementCase))
    (rows : List ProcurementCase) (caseId : String) :
    firstOf ProcurementCase.id (rows.map (saved writes)) caseId =
      (firstOf ProcurementCase.id rows caseId).map (saved writes) :=
  firstOf_map (id_saved writes) rows caseId

theorem rebuilt_edit (presentationId : String) (edit : Edit) (read : List ProcurementCase)
    (caseId : String) : rebuilt py (.edit presentationId edit) read caseId = none := rfl

section Step

variable {ledger : Ledger} {session : Session} (h : Inv ledger)
  (hcareful : Careful py ledger session)

include h hcareful

theorem cards_saved {row : ProcurementCase} (hrow : row ∈ ledger.world.rows) :
    (saved (session.request.writes py session.read) row).cards.map PresentationCard.id =
      nextIds py session row := by
  unfold nextIds
  cases hrequest : session.request with
  | edit presentationId edit =>
    rw [rebuilt_edit, ← hrequest]
    rcases saved_cases py h.ids hcareful.undisturbed hrow with ⟨_, hsaved⟩ | ⟨row', hwrite, hsaved⟩
    · rw [hsaved]
    · rw [hsaved]
      rw [hrequest] at hwrite
      obtain ⟨_, _, ⟨w⟩⟩ := write_spec (Option.mem_toList.mp hwrite)
      exact w.ids
  | cycle enqueueCase answers =>
    rw [← hrequest]
    rcases cards_saved_cycle py h.ids hcareful.undisturbed hrequest hrow with
      ⟨hnone, hcards⟩ | ⟨journal, hsome, _, hcards⟩
    · rw [hnone, hcards]
    · rw [hsome, hcards]
      exact ids_buildOtkPresentationsForCase py row journal

theorem lines_saved (hfresh : FreshId ledger session.request) {row : ProcurementCase}
    (hrow : row ∈ ledger.world.rows) :
    (saved (session.request.writes py session.read) row).lineIds.Nodup := by
  cases hrequest : session.request with
  | edit presentationId edit =>
    rw [← hrequest]
    rcases saved_cases py h.ids hcareful.undisturbed hrow with ⟨_, hsaved⟩ | ⟨row', hwrite, hsaved⟩
    · rw [hsaved]
      exact h.lines row hrow
    · rw [hsaved]
      rw [hrequest] at hwrite hfresh
      obtain ⟨_, _, ⟨w⟩⟩ := write_spec (Option.mem_toList.mp hwrite)
      refine w.lineIds (h.lines row hrow) ?_
      rintro payload uuid rfl
      exact hfresh row hrow
  | cycle enqueueCase answers =>
    rw [← hrequest]
    rcases cards_saved_cycle py h.ids hcareful.undisturbed hrequest hrow with
      ⟨_, hcards⟩ | ⟨journal, hsome, hjournal, hcards⟩
    · rw [ProcurementCase.lineIds, hcards]
      exact h.lines row hrow
    · rw [ProcurementCase.lineIds, hcards]
      have hempty : journal.get? "" = none := by
        obtain ⟨raw, _, rfl⟩ := Option.map_eq_some_iff.mp hjournal
        exact get?_journalByOrder_empty py _
      refine lineIds_build py hempty ?_
      have hnext : nextIds py session row = presentationRefs py row journal := by
        rw [nextIds, hsome]
      rw [← hnext]
      exact (List.nodup_flatMap.mp hcareful.distinct).1 row hrow

/-- A cycle leaves the marks as they were. -/
theorem holds_saved_cycle {enqueueCase : Bool} {answers : Answers}
    (hrequest : session.request = .cycle enqueueCase answers) {mark : Mark}
    (hmark : mark ∈ ledger.marks) :
    mark.holds (ledger.world.rows.map (saved (session.request.writes py session.read))) := by
  obtain ⟨row, hrow, card, hcard, hholds⟩ := h.kept mark hmark
  obtain ⟨hid, hmem⟩ := of_firstOf_eq_some ProcurementCase.id hrow
  refine ⟨saved (session.request.writes py session.read) row, ?_, card, ?_, hholds⟩
  · rw [firstOf_saved, hrow]
    rfl
  · rcases cards_saved_cycle py h.ids hcareful.undisturbed hrequest hmem with
      ⟨_, hcards⟩ | ⟨journal, hsome, _, _⟩
    · rw [hcards]
      exact hcard
    · rw [hid, hcareful.untouched mark hmark] at hsome
      cases hsome

/-- After an edit the marks are those that it sets and those that it leaves. -/
theorem holds_saved_edit (hfresh : FreshId ledger session.request) {presentationId : String}
    {edit : Edit} (hrequest : session.request = .edit presentationId edit) {mark : Mark}
    (hmark : mark ∈ session.marks ledger.marks) :
    mark.holds (ledger.world.rows.map (saved (session.request.writes py session.read))) := by
  simp only [Session.marks, hrequest] at hmark
  cases hwrite : edit.write presentationId session.read with
  | none =>
    have hsame : saved (session.request.writes py session.read) = id := by
      funext row
      simp [saved, hrequest, Request.writes, hwrite]
    rw [hsame, List.map_id]
    rw [hwrite] at hmark
    exact h.kept mark hmark
  | some write =>
    obtain ⟨row, row'⟩ := write
    obtain ⟨_, hsave, ⟨w⟩⟩ := write_spec hwrite
    have hwrites : session.request.writes py session.read = [(row, row')] := by
      simp [hrequest, Request.writes, hwrite]
    have hin : (row, row') ∈ session.request.writes py session.read := by
      rw [hwrites]
      exact List.mem_singleton_self _
    have hstored := hcareful.undisturbed _ hin
    have hrow : row ∈ ledger.world.rows := (of_firstOf_eq_some ProcurementCase.id hstored).2
    have hsaved : saved (session.request.writes py session.read) row = row' := by
      rcases saved_cases py h.ids hcareful.undisturbed hrow with ⟨hnot, _⟩ | ⟨r, hr, hsaved⟩
      · exact absurd rfl (hnot _ hin)
      · rw [hwrites] at hr
        cases List.mem_singleton.mp hr
        exact hsaved
    have hafter : firstOf ProcurementCase.id
        (ledger.world.rows.map (saved (session.request.writes py session.read))) row.id =
          some row' := by
      rw [firstOf_saved, hstored, Option.map_some, hsaved]
    rw [hwrite] at hmark
    rcases List.mem_append.mp hmark with hold | hnew
    · obtain ⟨hmem, hunchanged⟩ := List.mem_filter.mp hold
      obtain ⟨r, hr, card, hcard, hholds⟩ := h.kept mark hmem
      by_cases hcase : mark.caseId = row.id
      · rw [hcase, hstored] at hr
        cases hr
        rw [Mark.holds, hcase]
        by_cases hpres : mark.presentationId = presentationId
        · rw [hpres] at hcard ⊢
          rw [w.found] at hcard
          cases hcard
          have hleft : edit.changes mark.fact = false := by
            simpa [Mark.changedBy, hcase, hpres] using hunchanged
          exact ⟨row', hafter, w.card', w.self, keeps_apply w.applied hleft hholds⟩
        · exact ⟨row', hafter, card, (w.others _ hpres).trans hcard, hholds⟩
      · obtain ⟨hid, hrmem⟩ := of_firstOf_eq_some ProcurementCase.id hr
        refine ⟨saved (session.request.writes py session.read) r, ?_, card, ?_, hholds⟩
        · rw [firstOf_saved, hr]
          rfl
        · rcases saved_cases py h.ids hcareful.undisturbed hrmem with ⟨_, heq⟩ | ⟨r', hr', _⟩
          · rw [heq]
            exact hcard
          · rw [hwrites] at hr'
            cases List.mem_singleton.mp hr'
            exact absurd hid.symm hcase
    · obtain ⟨fact, hfact, rfl⟩ := List.mem_map.mp hnew
      refine ⟨row', hafter, w.card', w.self, holds_apply w.applied ?_ fact hfact⟩
      rintro payload uuid rfl hline
      rw [hrequest] at hfresh
      refine hfresh row hrow (List.mem_flatMap.mpr ⟨w.card, ?_, hline⟩)
      rw [w.split]
      exact List.mem_append_right _ (.head _)

end Step

/-- A careful event keeps the invariant. -/
theorem inv_step (event : Event) (ledger : Ledger) (h : Inv ledger)
    (hguard : AtCommit (fun ledger session => FreshId ledger session.request ∧
      Careful py ledger session) event ledger) : Inv (ledger.step py event) := by
  cases event with
  | read request => exact ⟨h.ids, h.cards, h.lines, h.kept⟩
  | commit index =>
    cases hsession : ledger.world.sessions[index]? with
    | none =>
      have hsame : ledger.step py (.commit index) = ledger := by
        simp only [Ledger.step, World.step, hsession]
      rw [hsame]
      exact h
    | some session =>
      obtain ⟨hfresh, hcareful⟩ := hguard session hsession
      have hrows : (ledger.step py (.commit index)).world.rows =
          ledger.world.rows.map (saved (session.request.writes py session.read)) := by
        simp only [Ledger.step, World.step, hsession]
      have hmarks : (ledger.step py (.commit index)).marks = session.marks ledger.marks := by
        simp only [Ledger.step, hsession]
      refine ⟨?_, ?_, ?_, ?_⟩
      · rw [hrows, List.map_map]
        have hid : ProcurementCase.id ∘ saved (session.request.writes py session.read) =
            ProcurementCase.id := by
          funext row
          exact id_saved _ row
        rw [hid]
        exact h.ids
      · rw [hrows, List.flatMap_map]
        have hnext : ledger.world.rows.flatMap (fun row =>
            (saved (session.request.writes py session.read) row).cards.map PresentationCard.id) =
              ledger.world.rows.flatMap (nextIds py session) :=
          List.flatMap_congr fun row hrow => cards_saved py h hcareful hrow
        rw [hnext]
        exact hcareful.distinct
      · rw [hrows]
        intro row' hrow'
        obtain ⟨row, hrow, rfl⟩ := List.mem_map.mp hrow'
        exact lines_saved py h hcareful hfresh hrow
      · rw [hrows, hmarks]
        intro mark hmark
        cases hrequest : session.request with
        | edit presentationId edit =>
          rw [← hrequest]
          exact holds_saved_edit py h hcareful hfresh hrequest hmark
        | cycle enqueueCase answers =>
          rw [← hrequest]
          rw [Session.marks, hrequest] at hmark
          exact holds_saved_cycle py h hcareful hrequest hmark

/-- **No edit is lost in a run of careful transactions.** When every transaction that ends finds the
cases that it writes as it has read them, and every cycle builds cards only of cases in which nothing
is set, from orders of which no two lie in one row of the journal, then in every state that is
reached the cards show what was set last, and every id names one card or line. -/
theorem edits_kept {start : Ledger} {events : List Event} (hstart : Idle start)
    (hrun : Guarded (Ledger.step py) (AtCommit fun ledger session =>
      FreshId ledger session.request ∧ Careful py ledger session) events start) :
    Lossless (events.foldl (Ledger.step py) start) :=
  lossless_of_inv (hrun.invariant (inv_step py) (inv_of_idle hstart))

/-- A transaction that ends before any other does is not disturbed. -/
theorem undisturbed_of_alone {rows : List ProcurementCase} (h : (rows.map ProcurementCase.id).Nodup)
    (request : Request) : ∀ write ∈ request.writes py rows,
      firstOf ProcurementCase.id rows write.1.id = some write.1 := by
  rintro ⟨row, row'⟩ hwrite
  refine firstOf_of_nodup h ?_
  cases request with
  | edit presentationId edit => exact (write_spec (Option.mem_toList.mp hwrite)).1
  | cycle enqueueCase answers => exact ((mem_reconcile py).mp hwrite).1

/-- A run in which a transaction ends before the next one reads. -/
theorem guarded_alone {guard : Ledger → Session → Prop} {ledger : Ledger} {request : Request}
    {rest : List Event} (hopen : ledger.world.sessions = [])
    (hguard : guard (ledger.step py (.read request)) ⟨ledger.world.rows, request⟩)
    (hrest : Guarded (Ledger.step py) (AtCommit guard) rest
      ((ledger.step py (.read request)).step py (.commit 0))) :
    Guarded (Ledger.step py) (AtCommit guard) (.read request :: .commit 0 :: rest) ledger := by
  refine ⟨trivial, fun session hsession => ?_, hrest⟩
  have hread : (ledger.step py (.read request)).world.sessions =
      [⟨ledger.world.rows, request⟩] := by
    simp [Ledger.step, World.step, hopen]
  rw [hread] at hsession
  cases hsession
  exact hguard

/-! ## Two runs -/

def plainReading : Quality.Reading where
  lower := Text.lowerRu
  casefold := Text.lowerRu
  decimal := fun _ => none
  repr := fun _ => ""
  float := fun _ => none
  floatText := fun _ => ""

def twoOrders : Ledger where
  world :=
    { rows := [{
        id := "case-1"
        sourceType := .productionMaterialOrder
        sourceDatabase := none
        sourceNumber := "НП00-001083"
        source1cRef := "1111"
        positions := []
        supplierOrderLinks :=
          [⟨"order-1", some "НП00-003046", []⟩, ⟨"order-2", some "НП00-004066", []⟩]
        supplierOrderCoverage := .null
        status := .ordered
        assignedAgents := [Orchestrator.purchaseManager]
        currentAgentId := some Orchestrator.purchaseManager
        metadata := ⟨true, false, false, none, []⟩ }]
      sessions := [] }
  marks := []

def journalRow (ref order : String) : Value :=
  .dict [("ref", .str ref), ("supplierOrderRef", .str order),
    ("lines", .list [.dict [("nomenclatureRef", .str "nom-1"), ("quantity", .num 10 "10")]])]

def firstOrderOnly : Request := .cycle true fun _ => some [journalRow "pres-1" "order-1"]

def bothOrders : Request :=
  .cycle true fun _ => some [journalRow "pres-1" "order-1", journalRow "pres-2" "order-2"]

def takeCard : Request :=
  .edit "pres-1" (.updatePresentation
    (.ofList [(.status, .text "in_progress"), (.executorId, .text "worker-1")]))

/-- A worker counts the first line of the first card. -/
def countLine : Request :=
  .edit "pres-1" (.updateLine "pres-1-l1" (.ofList [(.qtyFact, .num (.finite 9))]))

theorem idle_twoOrders : Idle twoOrders := by
  refine ⟨by decide, ?_, rfl, rfl⟩
  intro row hrow
  rw [List.mem_singleton.mp hrow]

/-- The worker edits the cards of a case that has been handed over, and a cycle comes after. -/
theorem edits_kept_handedOver :
    Lossless ([.read bothOrders, .commit 0, .read takeCard, .commit 0, .read countLine, .commit 0,
      .read bothOrders, .commit 0].foldl (Ledger.step plainReading) twoOrders) := by
  refine edits_kept plainReading idle_twoOrders ?_
  refine guarded_alone _ rfl ⟨trivial, ?_, ?_, ?_⟩ ?_
  · exact undisturbed_of_alone _ (by decide +kernel) _
  · exact fun mark hmark => absurd hmark List.not_mem_nil
  · decide +kernel
  refine guarded_alone _ rfl ⟨trivial, ?_, fun _ _ => rfl, ?_⟩ ?_
  · exact undisturbed_of_alone _ (by decide +kernel) _
  · decide +kernel
  refine guarded_alone _ rfl ⟨trivial, ?_, fun _ _ => rfl, ?_⟩ ?_
  · exact undisturbed_of_alone _ (by decide +kernel) _
  · decide +kernel
  refine guarded_alone _ rfl ⟨trivial, ?_, ?_, ?_⟩ trivial
  · exact undisturbed_of_alone _ (by decide +kernel) _
  · intro mark hmark
    apply Option.isNone_iff_eq_none.mp
    revert mark
    decide +kernel
  · decide +kernel

/-- The journal has the first of two orders; a worker takes its card, and the next cycle puts the
card back into the queue without an executor. -/
theorem keepsEdits_halfCovered_fails : ¬ KeepsEdits plainReading := by
  intro hclaim
  have hrun := hclaim twoOrders [.read firstOrderOnly, .commit 0, .read takeCard, .commit 0,
    .read firstOrderOnly, .commit 0] idle_twoOrders
    (guarded_alone _ rfl ⟨trivial, fun mark hmark => absurd hmark List.not_mem_nil⟩
      (guarded_alone _ rfl ⟨trivial, trivial⟩
        (guarded_alone _ rfl ⟨trivial, by
          simp only [JournalKeeps, firstOrderOnly]
          decide +kernel⟩ trivial)))
  obtain ⟨row, hrow, card, hcard, hvalue⟩ := hrun.kept
    ⟨"case-1", "pres-1", .cardField .status (.text "in_progress")⟩
    (List.mem_append_right _ (.head _))
  have hshown : ((firstOf ProcurementCase.id ([.read firstOrderOnly, .commit 0, .read takeCard,
      .commit 0, .read firstOrderOnly, .commit 0].foldl (Ledger.step plainReading)
        twoOrders).world.rows "case-1").bind fun row =>
      (firstOf PresentationCard.id row.cards "pres-1").bind fun card =>
        card.values.get? .status) = some (.text "queued") := by
    decide +kernel
  rw [hrow, Option.bind_some, hcard, Option.bind_some, hvalue] at hshown
  exact absurd hshown (by decide)

end AgentBack.Otk
