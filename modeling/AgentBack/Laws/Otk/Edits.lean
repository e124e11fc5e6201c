import AgentBack.Base.Guarded
import AgentBack.Otk.Reconcile

/-!
# Edits of the cards of presented goods

What a worker sets in a card is to stay until the worker changes it, and the ids of the cards and
lines are to name one each. A ledger keeps what has been set (`Ledger.note`). An edit writes what it
sets and leaves the other marks of the ledger alone (`holds_apply`); a cycle that builds the cards of
a case anew loses the marks of that case, and builds cards of equal ids when two orders lie in one
row of the journal.
-/

namespace AgentBack.Otk

open Py (Value)

variable (py : Quality.Reading)

/-! ## The ledger -/

inductive Fact where
  | cardField (field : CardField) (value : FieldValue)
  | lineField (lineId : String) (field : LineField) (value : FieldValue)
  | added (lineId : String)
  | deleted (lineId : String)

def Fact.holds (card : PresentationCard) : Fact → Prop
  | .cardField field value => card.values.get? field = some value
  | .lineField lineId field value =>
    ∃ line, firstOf ShipmentLine.id card.lines lineId = some line ∧
      line.values.get? field = some value
  | .added lineId => lineId ∈ card.lines.map ShipmentLine.id
  | .deleted lineId => lineId ∉ card.lines.map ShipmentLine.id

def Edit.facts : Edit → List Fact
  | .updatePresentation patch => patch.items.map fun item => .cardField item.1 item.2
  | .addLine payload uuid =>
    .added (newLineId uuid) :: payload.items.map fun item => .lineField (newLineId uuid) item.1 item.2
  | .updateLine lineId patch => patch.items.map fun item => .lineField lineId item.1 item.2
  | .deleteLine lineId => [.deleted lineId]

def Edit.changes : Edit → Fact → Bool
  | .updatePresentation patch, .cardField field _ => (patch.get? field).isSome
  | .addLine _ uuid, .lineField lineId _ _ => decide (lineId = newLineId uuid)
  | .addLine _ uuid, .deleted lineId => decide (lineId = newLineId uuid)
  | .updateLine lineId patch, .lineField lineId' field _ =>
    decide (lineId' = lineId) && (patch.get? field).isSome
  | .deleteLine lineId, .lineField lineId' _ _ => decide (lineId' = lineId)
  | .deleteLine lineId, .added lineId' => decide (lineId' = lineId)
  | _, _ => false

structure Mark where
  caseId : String
  presentationId : String
  fact : Fact

def Mark.holds (rows : List ProcurementCase) (mark : Mark) : Prop :=
  ∃ row, firstOf ProcurementCase.id rows mark.caseId = some row ∧
    ∃ card, firstOf PresentationCard.id row.cards mark.presentationId = some card ∧
      mark.fact.holds card

def Mark.changedBy (caseId presentationId : String) (edit : Edit) (mark : Mark) : Bool :=
  decide (mark.caseId = caseId) && decide (mark.presentationId = presentationId) &&
    edit.changes mark.fact

/-- The marks after an edit of a card. -/
def note (caseId presentationId : String) (edit : Edit) (marks : List Mark) : List Mark :=
  (marks.filter fun mark => !mark.changedBy caseId presentationId edit) ++
    edit.facts.map fun fact => ⟨caseId, presentationId, fact⟩

/-- The world with the marks of what the workers have set. -/
structure Ledger where
  world : World
  marks : List Mark

def Session.marks (session : Session) (marks : List Mark) : List Mark :=
  match session.request with
  | .cycle _ _ => marks
  | .edit presentationId edit =>
    match edit.write presentationId session.read with
    | none => marks
    | some (row, _) => note row.id presentationId edit marks

/-- The world and the marks after the event. -/
def Ledger.step (ledger : Ledger) (event : Event) : Ledger where
  world := ledger.world.step py event
  marks :=
    match event with
    | .read _ => ledger.marks
    | .commit index =>
      match ledger.world.sessions[index]? with
      | none => ledger.marks
      | some session => session.marks ledger.marks

/-! ## The law -/

def ProcurementCase.lineIds (row : ProcurementCase) : List String :=
  row.cards.flatMap fun card => card.lines.map ShipmentLine.id

/-- Every mark shows, the cards and the lines of a case have ids of their own, and the id of a card
loads the card. -/
structure Lossless (ledger : Ledger) : Prop where
  kept : ∀ mark ∈ ledger.marks, mark.holds ledger.world.rows
  cards : ∀ row ∈ ledger.world.rows, (row.cards.map PresentationCard.id).Nodup
  lines : ∀ row ∈ ledger.world.rows, row.lineIds.Nodup
  loads : ∀ row ∈ ledger.world.rows, ∀ card ∈ row.cards,
    loadMutable card.id ledger.world.rows = some row ∧
      firstOf PresentationCard.id row.cards card.id = some card

/-- No card is built, and no transaction is open. -/
structure Idle (ledger : Ledger) : Prop where
  ids : (ledger.world.rows.map ProcurementCase.id).Nodup
  cards : ∀ row ∈ ledger.world.rows, row.cards = []
  sessions : ledger.world.sessions = []
  marks : ledger.marks = []

/-- The references of the rows of the journal that the orders of a case lie in. -/
def presentationRefs (row : ProcurementCase) (journal : Dict String Value) : List String :=
  row.supplierOrderLinks.filterMap fun link =>
    (journal.get? (link.orderRef py)).map (cardIdOf py row link)

/-- `uuid4` gives a new line an id that no line of a stored case has. -/
def FreshId (ledger : Ledger) : Request → Prop
  | .edit _ (.addLine _ uuid) => ∀ row ∈ ledger.world.rows, newLineId uuid ∉ row.lineIds
  | _ => True

/-- The journal that is read for a case has a row for each card in which something is set. -/
def JournalKeeps (ledger : Ledger) : Request → Prop
  | .cycle _ answers => ∀ mark ∈ ledger.marks, ∀ row ∈ ledger.world.rows, row.id = mark.caseId →
      ∀ journal ∈ journalFor py answers row, mark.presentationId ∈ presentationRefs py row journal
  | _ => True

/-- A guard on the transactions, when they end. -/
def AtCommit (guard : Ledger → Session → Prop) (event : Event) (ledger : Ledger) : Prop :=
  match event with
  | .read _ => True
  | .commit index => ∀ session, ledger.world.sessions[index]? = some session → guard ledger session

/-- No edit is lost and no two ids are equal, in every run in which the journal goes on to have the
cards. -/
def KeepsEdits : Prop :=
  ∀ start events, Idle start →
    Guarded (Ledger.step py) (AtCommit fun ledger session =>
      FreshId ledger session.request ∧ JournalKeeps py ledger session.request) events start →
    Lossless (events.foldl (Ledger.step py) start)

/-- The cases that a transaction has read and builds the cards of, with the journal. -/
def rebuiltCases (request : Request) (read : List ProcurementCase) :
    List (ProcurementCase × Dict String Value) :=
  match request with
  | .edit _ _ => []
  | .cycle _ answers => (read.filter eligible).filterMap fun row =>
      ((journalFor py answers row).filter fun journal =>
        (tmcCoverage py row journal).status ≠ .none).map fun journal => (row, journal)

/-- A stored case that a transaction builds the cards of. -/
def rebuilt (request : Request) (read : List ProcurementCase) (caseId : String) :
    Option (ProcurementCase × Dict String Value) :=
  (rebuiltCases py request read).find? fun built => built.1.id = caseId

/-- The ids that name a card of a stored case once the transaction has ended. -/
def nextIds (session : Session) (stored : ProcurementCase) : List String :=
  match rebuilt py session.request session.read stored.id with
  | none => stored.cards.map PresentationCard.id
  | some (row, journal) => presentationRefs py row journal

/-- A transaction that loses nothing: the cases that it writes are as it has read them, it builds no
cards of a case in which something is set, and no two orders lie in one row of the journal. -/
structure Careful (ledger : Ledger) (session : Session) : Prop where
  undisturbed : ∀ write ∈ session.request.writes py session.read,
    firstOf ProcurementCase.id ledger.world.rows write.1.id = some write.1
  untouched : ∀ mark ∈ ledger.marks,
    rebuilt py session.request session.read mark.caseId = none
  distinct : (ledger.world.rows.flatMap (nextIds py session)).Nodup

/-! ## One edit -/

private theorem get?_foldl_set {κ : Type} [DecidableEq κ] (items : List (κ × FieldValue))
    (h : (items.map Prod.fst).Nodup) (old : Dict κ FieldValue) (k : κ) :
    (items.foldl (fun values item => values.set item.1 item.2) old).get? k =
      (Dict.find k items).or (old.get? k) := by
  induction items generalizing old with
  | nil => simp [Dict.find]
  | cons item rest ih =>
    obtain ⟨hnot, hrest⟩ := List.nodup_cons.mp (List.map_cons ▸ h)
    rw [List.foldl_cons, ih hrest, Dict.get?_set]
    by_cases hk : item.1 = k
    · have hnone : Dict.find k rest = none := by
        cases hfind : Dict.find k rest with
        | none => rfl
        | some v =>
          have hmem := (Dict.get?_eq_some_iff (d := ⟨rest, hrest⟩)).mp hfind
          exact absurd (List.mem_map_of_mem (f := Prod.fst) hmem) (hk ▸ hnot)
      simp [Dict.find, hk, hnone]
    · simp [Dict.find, hk]

/-- A merged dictionary has the new values, and the old ones of the other keys. -/
theorem get?_merge {κ : Type} [DecidableEq κ] (old new : Dict κ FieldValue) (k : κ) :
    (merge old new).get? k = (new.get? k).or (old.get? k) :=
  get?_foldl_set new.items new.nodup old k

theorem get?_merge_of_mem {κ : Type} [DecidableEq κ] (old : Dict κ FieldValue)
    {new : Dict κ FieldValue} {item : κ × FieldValue} (h : item ∈ new.items) :
    (merge old new).get? item.1 = some item.2 := by
  rw [get?_merge, Dict.get?_eq_some_iff.mpr h]
  rfl

theorem get?_merge_of_none {κ : Type} [DecidableEq κ] (old : Dict κ FieldValue)
    {new : Dict κ FieldValue} {k : κ} (h : (new.get? k).isSome = false) :
    (merge old new).get? k = old.get? k := by
  rw [get?_merge, Option.isSome_eq_false_iff.mp h |> Option.isNone_iff_eq_none.mp]
  rfl

/-- Under the other ids the lines without those of one id are found as before. -/
theorem firstOf_filter_ne (lines : List ShipmentLine) {lineId lineId' : String}
    (h : lineId' ≠ lineId) :
    firstOf ShipmentLine.id (lines.filter fun line => line.id ≠ lineId) lineId' =
      firstOf ShipmentLine.id lines lineId' := by
  unfold firstOf
  rw [List.find?_filter]
  congr 1
  funext line
  by_cases hl : line.id = lineId'
  · simp [hl, h]
  · simp [hl]

/-- The edit does what it is to do: the card shows what it sets. -/
theorem holds_apply {edit : Edit} {card card' : PresentationCard} (h : edit.apply card = some card')
    (hfresh : ∀ payload uuid, edit = .addLine payload uuid →
      newLineId uuid ∉ card.lines.map ShipmentLine.id) :
    ∀ fact ∈ edit.facts, fact.holds card' := by
  intro fact hfact
  cases edit with
  | updatePresentation patch =>
    cases h
    obtain ⟨item, hitem, rfl⟩ := List.mem_map.mp hfact
    exact get?_merge_of_mem card.values hitem
  | addLine payload uuid =>
    cases h
    have hnone := (firstOf_eq_none_iff ShipmentLine.id).mpr (hfresh payload uuid rfl)
    rcases List.mem_cons.mp hfact with rfl | hfact
    · simp [Fact.holds]
    · obtain ⟨item, hitem, rfl⟩ := List.mem_map.mp hfact
      refine ⟨⟨newLineId uuid, payload⟩, ?_, Dict.get?_eq_some_iff.mpr hitem⟩
      rw [firstOf_append_singleton, hnone, if_pos rfl]
      rfl
  | updateLine lineId patch =>
    obtain ⟨lines, hlines, rfl⟩ := Option.map_eq_some_iff.mp h
    obtain ⟨item, hitem, rfl⟩ := List.mem_map.mp hfact
    obtain ⟨line, line', hline, hline', hfound⟩ := firstOf_changeFirst_self hlines
    cases hline'
    have hid := (of_firstOf_eq_some ShipmentLine.id hline).1
    exact ⟨_, hfound hid, get?_merge_of_mem line.values hitem⟩
  | deleteLine lineId =>
    simp only [Edit.apply] at h
    split at h
    · cases h
    · cases h
      rw [List.mem_singleton.mp hfact]
      simp [Fact.holds]

/-- The edit leaves what it does not change as it was. -/
theorem keeps_apply {edit : Edit} {card card' : PresentationCard} {fact : Fact}
    (h : edit.apply card = some card') (hchanges : edit.changes fact = false)
    (hholds : fact.holds card) : fact.holds card' := by
  cases edit with
  | updatePresentation patch =>
    cases h
    cases fact with
    | cardField field value => exact (get?_merge_of_none card.values hchanges).trans hholds
    | lineField lineId field value | added lineId | deleted lineId => exact hholds
  | addLine payload uuid =>
    cases h
    cases fact with
    | cardField field value => exact hholds
    | lineField lineId field value =>
      obtain ⟨line, hline, hvalue⟩ := hholds
      refine ⟨line, ?_, hvalue⟩
      rw [firstOf_append_singleton, hline]
      rfl
    | added lineId =>
      simp only [Fact.holds, List.map_append, List.mem_append] at hholds ⊢
      exact Or.inl hholds
    | deleted lineId =>
      have hne : lineId ≠ newLineId uuid := of_decide_eq_false hchanges
      simp only [Fact.holds, List.map_append, List.map_cons, List.map_nil, List.mem_append,
        List.mem_singleton, not_or] at hholds ⊢
      exact ⟨hholds, hne⟩
  | updateLine lineId patch =>
    obtain ⟨lines, hlines, rfl⟩ := Option.map_eq_some_iff.mp h
    have hkey : ∀ line line' : ShipmentLine,
        some { line with values := merge line.values patch } = some line' → line'.id = line.id := by
      intro line line' hline
      cases hline
      rfl
    cases fact with
    | cardField field value => exact hholds
    | lineField lineId' field value =>
      obtain ⟨line, hline, hvalue⟩ := hholds
      by_cases hid : lineId' = lineId
      · subst hid
        obtain ⟨found, found', hfound, hchanged, hthere⟩ := firstOf_changeFirst_self hlines
        cases hchanged
        have heq : found = line := Option.some.inj (hfound.symm.trans hline)
        have hnone : (patch.get? field).isSome = false := by
          simpa [Edit.changes] using hchanges
        refine ⟨_, hthere (of_firstOf_eq_some ShipmentLine.id hfound).1, ?_⟩
        rw [get?_merge_of_none _ hnone, heq]
        exact hvalue
      · exact ⟨line, (firstOf_changeFirst_ne hlines hkey hid).trans hline, hvalue⟩
    | added lineId' | deleted lineId' =>
      simp only [Fact.holds, map_changeFirst hlines hkey]
      exact hholds
  | deleteLine lineId =>
    simp only [Edit.apply] at h
    split at h
    · cases h
    · cases h
      cases fact with
      | cardField field value => exact hholds
      | lineField lineId' field value =>
        have hne : lineId' ≠ lineId := of_decide_eq_false hchanges
        obtain ⟨line, hline, hvalue⟩ := hholds
        exact ⟨line, (firstOf_filter_ne card.lines hne).trans hline, hvalue⟩
      | added lineId' =>
        have hne : lineId' ≠ lineId := of_decide_eq_false hchanges
        obtain ⟨line, hline, hid⟩ := List.mem_map.mp hholds
        refine List.mem_map.mpr ⟨line, List.mem_filter.mpr ⟨hline, ?_⟩, hid⟩
        exact decide_eq_true (hid ▸ hne)
      | deleted lineId' =>
        intro hmem
        obtain ⟨line, hline, hid⟩ := List.mem_map.mp hmem
        exact hholds (List.mem_map.mpr ⟨line, (List.mem_filter.mp hline).1, hid⟩)

theorem id_apply {edit : Edit} {card card' : PresentationCard} (h : edit.apply card = some card') :
    card'.id = card.id := by
  cases edit with
  | updatePresentation patch | addLine payload uuid =>
    cases h
    rfl
  | updateLine lineId patch =>
    obtain ⟨lines, _, rfl⟩ := Option.map_eq_some_iff.mp h
    rfl
  | deleteLine lineId =>
    simp only [Edit.apply] at h
    split at h
    · cases h
    · cases h
      rfl

end AgentBack.Otk
