import AgentBack.Laws.Procurement.Offers
import AgentBack.Procurement.Evidence

/-!
# A failed read and the coverage

A cycle whose read of the supplier orders failed uses the stored form of the last complete cycle. It
gives the rows of that cycle when the stored form offers the same of each material, which it does
for orders that can be stored (`Restorable`); their stored form can be stored again, so any number
of such cycles keeps the rows (`reconcileCycles_keepsCoverage`). It offers something else when a
characteristic, a mark of cancellation or the mark of a definite order is not stored
(`keepsCoverage_characteristic_fails`).
-/

namespace AgentBack.Coverage

open Py (Reading Value textOf decimalOf strOf)

/-! ## The stored form of an order -/

section
variable (py : Writing)

/-- The status that the stored form keeps says that the order is cancelled. -/
def storedCancelled (order : Value) : Bool :=
  cancelMarkers.any fun marker => Text.contains marker
    (py.casefold (textOf py.toReading (order.getAny ["order_status", "status"])))

def lineIdKeys : List String := ["line_id", "LineNumber", "line_number", "lineNumber"]

/-- The keys of a line say the same in the order of the coverage and in that of the stored form, and
its id is not blank. -/
structure RestorableLine (raw : Value) : Prop where
  material : normRef py.toReading
      (raw.getAny ["nomenclature_id", "nomenclatureRef", "Номенклатура_Key"]) =
    normRef py.toReading (.str (textOf py.toReading
      (raw.getAny ["nomenclature_id", "Номенклатура_Key", "nomenclatureRef"])))
  lineId : (raw.getAny lineIdKeys).truthy = true → textOf py.toReading (raw.getAny lineIdKeys) ≠ ""

/-- What the coverage reads of the order is what the stored form keeps. -/
structure RestorableOrder (order : Value) : Prop where
  ref : orderRef py.toReading order = normRef py.toReading (.str (listingRef py order))
  cancelled : documentCancelled py.toReading order = storedCancelled py order
  lines : documentCancelled py.toReading order = false → ∀ raw ∈ (order.get "lines").listItems,
    raw.isDict = true → lineCancelled raw = false → RestorableLine py raw
  lineIds : documentCancelled py.toReading order = false →
    ((linesFromOrder py.toReading order).map OrderLine.lineId).Nodup

/-- The orders of a case whose stored form gives the same coverage: the references are distinct, no
definite order takes the place of another, and every line suits the positions of its material. -/
structure Restorable (positions orders : List Value) : Prop where
  each : ∀ order ∈ orders, RestorableOrder py order
  refs : ((orders.filter fun order => listingRef py order ≠ "").map (orderRef py.toReading)).Nodup
  definite : ∀ ref, isExcludedParent py.toReading (byRef py.toReading orders) ref = false
  suits : ∀ need ∈ needsOf py.toReading positions, ∀ order ∈ orders,
    documentCancelled py.toReading order = false → ∀ line ∈ linesFromOrder py.toReading order,
      0 < line.quantity → line.nomenclatureId = need.nomenclatureId → need.matches line = true

/-- What the writing of texts keeps: the empty text has no case, and the text of a decimal is read
as the decimal. -/
structure Faithful : Prop where
  lower_empty : py.lower "" = ""
  decimal_print : ∀ q, (q = 0 ∨ ∃ text, py.decimal text = some q) →
    py.print q ≠ "" ∧ py.decimal (py.print q) = some q

end

section
variable {py : Writing}

theorem textOf_strip (value : Value) :
    Text.strip (textOf py.toReading value) = textOf py.toReading value := by
  unfold textOf
  split
  · exact Text.strip_strip _
  · rfl

theorem textOf_orNone (text : String) :
    textOf py.toReading (orNone text) = Text.strip text := by
  unfold orNone
  split
  · next h =>
    rw [h]
    rfl
  · exact Py.textOf_str _ _

theorem decimalOf_print (hpy : Faithful py) (value : Value) :
    py.print (decimalOf py.toReading value) ≠ "" ∧
      decimalOf py.toReading (.str (py.print (decimalOf py.toReading value))) =
        decimalOf py.toReading value := by
  have hdecimal : decimalOf py.toReading value = 0 ∨
      ∃ text, py.decimal text = some (decimalOf py.toReading value) := by
    unfold decimalOf
    split
    · cases hread : py.decimal (strOf py.toReading value) with
      | none => exact .inl rfl
      | some q => exact .inr ⟨_, hread⟩
    · exact .inl rfl
  obtain ⟨htext, hread⟩ := hpy.decimal_print _ hdecimal
  generalize decimalOf py.toReading value = q at htext hread ⊢
  have htruthy : (Value.str (py.print q)).truthy = true := decide_eq_true htext
  refine ⟨htext, ?_⟩
  unfold decimalOf
  rw [if_pos htruthy]
  unfold strOf
  rw [hread]
  rfl

/-- The number of a line has no white space. -/
theorem strip_toString (n : Nat) : Text.strip (toString n) = toString n := by
  have hdigit : ∀ c ∈ (toString n).toList, Text.isSpace c = false := by
    intro c hc
    rw [show (toString n).toList = Nat.toDigits 10 n by simp] at hc
    have hd := Nat.isDigit_of_mem_toDigits (by decide) (by decide) hc
    simp only [Char.isDigit, ge_iff_le, Bool.and_eq_true, decide_eq_true_eq, UInt32.le_iff_toNat_le]
      at hd
    have hrange : 48 ≤ c.toNat ∧ c.toNat ≤ 57 := hd
    apply decide_eq_false
    unfold Text.SpaceCode
    omega
  have hleft : (toString n).toList.dropWhile Text.isSpace = (toString n).toList := by
    rw [List.dropWhile_eq_self_iff]
    intro hlen
    rw [hdigit _ (List.getElem_mem hlen)]
    exact Bool.false_ne_true
  have hright : (toString n).toList.rdropWhile Text.isSpace = (toString n).toList := by
    rw [List.rdropWhile_eq_self_iff]
    intro hlen
    rw [hdigit _ (List.getLast_mem hlen)]
    exact Bool.false_ne_true
  unfold Text.strip Text.stripChars
  rw [hleft, hright, String.ofList_toList]

/-- A line without its characteristic, which the stored form leaves out. -/
def OrderLine.bare (line : OrderLine) : OrderLine := { line with characteristicId := none }

variable {raw : Value} {index : Nat} {stored order : Value} {orders positions : List Value}

/-- A line that the stored form leaves out is no line. -/
theorem lineOf_of_normalizedLine_none (hpy : Faithful py)
    (h : raw.isDict = true → lineCancelled raw = false → RestorableLine py raw)
    (hnone : normalizedLine py raw index = none) : lineOf py.toReading raw index = none := by
  unfold normalizedLine at hnone
  unfold lineOf
  split at hnone
  · next hskip => rw [if_pos hskip]
  · next hkept =>
    rw [if_neg hkept]
    rw [not_or, Bool.not_eq_false, Bool.not_eq_true] at hkept
    dsimp only at hnone ⊢
    rw [(h hkept.1 hkept.2).material]
    split at hnone
    · next hempty =>
      rw [hempty, if_pos]
      have htext : textOf py.toReading (.str "") = "" := rfl
      unfold normRef
      rw [htext]
      exact hpy.lower_empty
    · cases hnone

theorem characteristic_null (hpy : Faithful py) : characteristic py.toReading .null = none := by
  have hempty : normRef py.toReading .null = "" := hpy.lower_empty
  unfold characteristic
  rw [hempty]
  rfl

def storedLine (lineId nomenclatureId quantity : String) : Value :=
  .dict [("line_id", .str lineId), ("nomenclature_id", .str nomenclatureId),
    ("quantity", .str quantity)]

theorem getAny_lineId_storedLine {lineId : String} (h : lineId ≠ "")
    (nomenclatureId quantity : String) :
    (storedLine lineId nomenclatureId quantity).getAny lineIdKeys = .str lineId := by
  have htruthy : (Value.str lineId).truthy = true := decide_eq_true h
  exact if_pos htruthy

theorem getAny_material_storedLine {nomenclatureId : String} (h : nomenclatureId ≠ "")
    (lineId quantity : String) (key key' : String) :
    (storedLine lineId nomenclatureId quantity).getAny ["nomenclature_id", key, key'] =
      .str nomenclatureId := by
  have htruthy : (Value.str nomenclatureId).truthy = true := decide_eq_true h
  exact if_pos htruthy

theorem getAny_quantity_storedLine {quantity : String} (h : quantity ≠ "")
    (lineId nomenclatureId : String) (key key' : String) :
    (storedLine lineId nomenclatureId quantity).getAny ["quantity", key, key'] = .str quantity := by
  have htruthy : (Value.str quantity).truthy = true := decide_eq_true h
  exact if_pos htruthy

theorem lineOf_storedLine (hpy : Faithful py) {lineId nomenclatureId quantity : String}
    (hlineId : lineId ≠ "") (hmaterial : nomenclatureId ≠ "") (hquantity : quantity ≠ "")
    (index : Nat) :
    lineOf py.toReading (storedLine lineId nomenclatureId quantity) index =
      if normRef py.toReading (.str nomenclatureId) = "" then none
      else some
        { lineId := Text.strip lineId
          nomenclatureId := normRef py.toReading (.str nomenclatureId)
          characteristicId := none
          quantity := decimalOf py.toReading (.str quantity) } := by
  have hid : (Value.str lineId).truthy = true := decide_eq_true hlineId
  have hgetId := getAny_lineId_storedLine hlineId nomenclatureId quantity
  have hgetMat := getAny_material_storedLine hmaterial lineId quantity
  have hgetQty := getAny_quantity_storedLine hquantity lineId nomenclatureId
  have hdict : (storedLine lineId nomenclatureId quantity).isDict = true := rfl
  have hlive : lineCancelled (storedLine lineId nomenclatureId quantity) = false := rfl
  have hgetChar : (storedLine lineId nomenclatureId quantity).getAny
      ["characteristic_id", "characteristicRef", "Характеристика_Key"] = .null := rfl
  unfold lineIdKeys at hgetId
  unfold lineOf
  rw [hdict, hlive, if_neg (by decide), hgetId, hgetMat, hgetQty, hgetChar]
  dsimp only
  rw [if_pos hid, characteristic_null hpy, Py.textOf_str]

theorem lineId_stored {lineId : Value}
    (h : lineId.truthy = true → textOf py.toReading lineId ≠ "") (index : Nat) :
    (if lineId.truthy then textOf py.toReading lineId else toString index) ≠ "" ∧
      Text.strip (if lineId.truthy then textOf py.toReading lineId else toString index) =
        if lineId.truthy then textOf py.toReading lineId else toString index := by
  split
  · next htruthy => exact ⟨h htruthy, textOf_strip _⟩
  · exact ⟨Nat.repr_ne_empty, strip_toString index⟩

theorem normalizedLine_eq
    (h : raw.isDict = true → lineCancelled raw = false → RestorableLine py raw) (hsome : normalizedLine py raw index = some stored) :
    ∃ lineId nomenclatureId, lineId ≠ "" ∧ nomenclatureId ≠ "" ∧ Text.strip lineId = lineId ∧
      Text.strip nomenclatureId = nomenclatureId ∧
      stored = storedLine lineId nomenclatureId (py.print (decimalOf py.toReading
        (raw.getAny ["quantity", "Количество", "КоличествоУпаковок"]))) ∧
      lineOf py.toReading raw index =
        if normRef py.toReading (.str nomenclatureId) = "" then none
        else some
          { lineId
            nomenclatureId := normRef py.toReading (.str nomenclatureId)
            characteristicId := characteristic py.toReading
              (raw.getAny ["characteristic_id", "characteristicRef", "Характеристика_Key"])
            quantity := decimalOf py.toReading
              (raw.getAny ["quantity", "Количество", "КоличествоУпаковок"]) } := by
  unfold normalizedLine at hsome
  split at hsome
  · cases hsome
  · next hkept =>
    have hrestorable := hkept
    rw [not_or, Bool.not_eq_false, Bool.not_eq_true] at hrestorable
    obtain ⟨hmaterial, hlineId⟩ := h hrestorable.1 hrestorable.2
    dsimp only at hsome
    split at hsome
    · cases hsome
    · next hnamed =>
      obtain ⟨hidText, hidStrip⟩ := lineId_stored hlineId index
      refine ⟨_, _, hidText, hnamed, hidStrip, textOf_strip _, (Option.some.inj hsome).symm, ?_⟩
      unfold lineOf
      rw [if_neg hkept]
      dsimp only
      rw [hmaterial]
      rfl

/-- A line is read from the stored form as the line without its characteristic. -/
theorem lineOf_normalizedLine (hpy : Faithful py)
    (h : raw.isDict = true → lineCancelled raw = false → RestorableLine py raw) (hsome : normalizedLine py raw index = some stored) (index' : Nat) :
    lineOf py.toReading stored index' =
      (lineOf py.toReading raw index).map OrderLine.bare := by
  obtain ⟨lineId, nomenclatureId, hid, hmaterial, hidStrip, -, rfl, hline⟩ :=
    normalizedLine_eq h hsome
  obtain ⟨hprinted, hquantity⟩ := decimalOf_print hpy
    (raw.getAny ["quantity", "Количество", "КоличествоУпаковок"])
  rw [lineOf_storedLine hpy hid hmaterial hprinted, hline, hidStrip, hquantity]
  split
  · rfl
  · rfl

/-- A line of the stored form can be stored again. -/
theorem restorableLine_of_normalizedLine
    (h : raw.isDict = true → lineCancelled raw = false → RestorableLine py raw) (hsome : normalizedLine py raw index = some stored) :
    RestorableLine py stored := by
  obtain ⟨lineId, nomenclatureId, hid, hmaterial, hidStrip, hstrip, rfl, -⟩ :=
    normalizedLine_eq h hsome
  constructor
  · rw [getAny_material_storedLine hmaterial, getAny_material_storedLine hmaterial, Py.textOf_str,
      hstrip]
  · intro _
    rw [getAny_lineId_storedLine hid, Py.textOf_str, hidStrip]
    exact hid

private theorem filterMap_zipIdx {α β : Type} {f : α → Nat → Option β} {g : α → Option β}
    {items : List α} (h : ∀ a ∈ items, ∀ index, f a index = g a) (n : Nat) :
    ((items.zipIdx n).filterMap fun item => f item.1 item.2) = items.filterMap g := by
  induction items generalizing n with
  | nil => rfl
  | cons a rest ih =>
    rw [List.zipIdx_cons, List.filterMap_cons, List.filterMap_cons, h a (.head _) n,
      ih fun b hb => h b (.tail _ hb)]

/-- The lines of the stored form are those of the order, without characteristics. -/
theorem linesFromOrder_normalizedOrder (hpy : Faithful py)
    (h : ∀ raw ∈ (order.get "lines").listItems, raw.isDict = true → lineCancelled raw = false →
      RestorableLine py raw) (ref : String) :
    linesFromOrder py.toReading (normalizedOrder py ref order) =
      (linesFromOrder py.toReading order).map OrderLine.bare := by
  have hlines : ((normalizedOrder py ref order).get "lines").listItems = normalizedLines py order := rfl
  have hraw : ∀ item ∈ (order.get "lines").listItems.zipIdx 1, item.1.isDict = true →
      lineCancelled item.1 = false → RestorableLine py item.1 := by
    intro item hitem
    exact h item.1 (List.fst_mem_of_mem_zipIdx hitem)
  unfold linesFromOrder
  rw [hlines]
  unfold normalizedLines
  rw [filterMap_zipIdx (g := fun stored => lineOf py.toReading stored 0), List.filterMap_filterMap,
    List.map_filterMap]
  · apply List.filterMap_congr
    intro item hitem
    cases hstored : normalizedLine py item.1 item.2 with
    | none =>
      rw [lineOf_of_normalizedLine_none hpy (hraw item hitem) hstored]
      rfl
    | some stored => exact lineOf_normalizedLine hpy (hraw item hitem) hstored 0
  · intro stored hstored index
    obtain ⟨item, hitem, hsome⟩ := List.mem_filterMap.mp hstored
    rw [lineOf_normalizedLine hpy (hraw item hitem) hsome,
      lineOf_normalizedLine hpy (hraw item hitem) hsome]

theorem orderRef_normalizedOrder {ref : String} (h : ref ≠ "") (order : Value) :
    orderRef py.toReading (normalizedOrder py ref order) = normRef py.toReading (.str ref) := by
  have htruthy : (Value.str ref).truthy = true := decide_eq_true h
  exact congrArg (normRef py.toReading) (if_pos htruthy)

theorem listingRef_normalizedOrder {ref : String} (h : ref ≠ "") (order : Value) :
    listingRef py (normalizedOrder py ref order) = Text.strip ref := by
  have htruthy : (Value.str ref).truthy = true := decide_eq_true h
  rw [← Py.textOf_str py.toReading ref]
  exact congrArg (textOf py.toReading) (if_pos htruthy)

/-- A text that is kept or left out is all that the keys of the status give. -/
private theorem anyOf_orNone (text : String) :
    Value.anyOf [orNone text, .null] = orNone text ∧
      Value.anyOf [orNone text, .null, .null, .null] = orNone text := by
  unfold orNone
  split
  · exact ⟨rfl, rfl⟩
  · next h =>
    have htruthy : (Value.str text).truthy = true := decide_eq_true h
    exact ⟨if_pos htruthy, if_pos htruthy⟩

theorem storedCancelled_normalizedOrder (ref : String) (order : Value) :
    storedCancelled py (normalizedOrder py ref order) = storedCancelled py order := by
  have hkept : (normalizedOrder py ref order).getAny ["order_status", "status"] =
      orNone (textOf py.toReading (order.getAny ["order_status", "status"])) :=
    (anyOf_orNone _).1
  unfold storedCancelled
  rw [hkept, textOf_orNone, textOf_strip]

theorem documentCancelled_normalizedOrder (ref : String) (order : Value) :
    documentCancelled py.toReading (normalizedOrder py ref order) = storedCancelled py order := by
  have hkept : (normalizedOrder py ref order).getAny ["order_status", "status", "Статус", "State"] =
      orNone (textOf py.toReading (order.getAny ["order_status", "status"])) :=
    (anyOf_orNone _).2
  have hmarks : ((normalizedOrder py ref order).getAny
      ["cancelled", "canceled", "DeletionMark", "deletion_mark"]).truthy = false := rfl
  unfold documentCancelled storedCancelled
  rw [hmarks, hkept, textOf_orNone, textOf_strip]
  rfl

section

variable (hpy : Faithful py)
include hpy

/-- The stored form has no mark of a definite order and no counterparty. -/
theorem isDefiniteSupplierOrder_normalizedOrder (ref : String) (order : Value) :
    isDefiniteSupplierOrder py.toReading (normalizedOrder py ref order) = false := by
  have hempty : normRef py.toReading .null = "" := hpy.lower_empty
  have hkeys : (counterpartyKeys.any fun key => decide (normRef py.toReading
      ((normalizedOrder py ref order).get key) ∉ emptyGuids)) = false := by
    apply List.any_eq_false.mpr
    intro key hkey
    have hnone : (normalizedOrder py ref order).get key = .null := by
      unfold counterpartyKeys at hkey
      simp only [List.mem_cons, List.not_mem_nil, or_false] at hkey
      rcases hkey with rfl | rfl | rfl | rfl | rfl | rfl <;> rfl
    rw [hnone, hempty]
    decide
  unfold isDefiniteSupplierOrder
  rw [hkeys]
  rfl

/-! ## The selected orders -/

theorem listed_of_orderRef (h : RestorableOrder py order)
    (href : orderRef py.toReading order ≠ "") : listingRef py order ≠ "" := by
  intro hempty
  apply href
  rw [h.ref, hempty]
  exact hpy.lower_empty

def liveOrders (py : Writing) (orders : List Value) : List Value :=
  orders.filter fun order =>
    orderRef py.toReading order ≠ "" && !documentCancelled py.toReading order

theorem liveOrders_eq (heach : ∀ order ∈ orders, RestorableOrder py order) :
    liveOrders py orders = (orders.filter fun order => listingRef py order ≠ "").filter fun order =>
      orderRef py.toReading order ≠ "" && !documentCancelled py.toReading order := by
  unfold liveOrders
  rw [List.filter_filter]
  apply List.filter_congr
  intro order horder
  by_cases href : orderRef py.toReading order = ""
  · rw [decide_eq_false (not_not.mpr href), Bool.false_and, Bool.false_and]
  · rw [decide_eq_true (listed_of_orderRef hpy (heach order horder) href), Bool.and_true]

theorem nodup_liveOrders (heach : ∀ order ∈ orders, RestorableOrder py order)
    (hrefs : ((orders.filter fun order => listingRef py order ≠ "").map
      (orderRef py.toReading)).Nodup) :
    ((liveOrders py orders).map (orderRef py.toReading)).Nodup := by
  rw [liveOrders_eq hpy heach]
  exact List.Nodup.sublist (List.filter_sublist.map _) hrefs

/-- Without a definite order in the place of another, the selected orders are those that have a
reference and are not cancelled. -/
theorem selectSupplierOrdersForQty_eq (h : Restorable py positions orders) :
    selectSupplierOrdersForQty py.toReading orders = liveOrders py orders := by
  have hkeys : (((liveOrders py orders).map fun order =>
      (orderRef py.toReading order, order)).map Prod.fst).Nodup := by
    rw [List.map_map]
    exact nodup_liveOrders hpy h.each h.refs
  unfold selectSupplierOrdersForQty
  dsimp only
  rw [List.filter_eq_self.mpr fun item _ => by rw [h.definite]; rfl]
  have hitems : (byRef py.toReading orders).items = _ := Dict.items_ofList_of_nodup hkeys
  rw [hitems, List.map_map]
  exact List.map_id _

end

section

variable (heach : ∀ order ∈ orders, RestorableOrder py order)
  (hrefs : ((orders.filter fun order => listingRef py order ≠ "").map (orderRef py.toReading)).Nodup)
include heach hrefs

theorem normalizedOrders_perm :
    (normalizedOrders py orders).Perm ((orders.filter fun order => listingRef py order ≠ "").map
      fun order => normalizedOrder py (listingRef py order) order) := by
  have hlisted : (orders.map fun order => (listingRef py order, order)).filter
        (fun item => item.1 ≠ "") =
      (orders.filter fun order => listingRef py order ≠ "").map fun order =>
        (listingRef py order, order) := by
    rw [List.filter_map]
    rfl
  have hkeys : (((orders.filter fun order => listingRef py order ≠ "").map fun order =>
      (listingRef py order, order)).map Prod.fst).Nodup := by
    rw [List.map_map]
    apply List.Nodup.of_map (fun ref => normRef py.toReading (.str ref))
    rw [List.map_map]
    refine Eq.mp ?_ hrefs
    congr 1
    apply List.map_congr_left
    intro order horder
    exact (heach order (List.mem_of_mem_filter horder)).ref
  unfold normalizedOrders
  refine (perm_sortBy _ _).trans ?_
  unfold orderByRef
  rw [hlisted, Dict.items_ofList_of_nodup hkeys, List.map_map]
  rfl

theorem mem_normalizedOrders (h : stored ∈ normalizedOrders py orders) :
    ∃ order ∈ orders, listingRef py order ≠ "" ∧
      stored = normalizedOrder py (listingRef py order) order := by
  obtain ⟨order, horder, rfl⟩ := List.mem_map.mp ((normalizedOrders_perm heach hrefs).mem_iff.mp h)
  obtain ⟨hmem, href⟩ := List.mem_filter.mp horder
  exact ⟨order, hmem, of_decide_eq_true href, rfl⟩

end

theorem restorableOrder_normalizedOrder (hpy : Faithful py)
    (h : RestorableOrder py order) (href : listingRef py order ≠ "") :
    RestorableOrder py (normalizedOrder py (listingRef py order) order) := by
  have hlive : documentCancelled py.toReading (normalizedOrder py (listingRef py order) order) = false →
      documentCancelled py.toReading order = false := by
    rw [documentCancelled_normalizedOrder, h.cancelled]
    exact id
  constructor
  · rw [orderRef_normalizedOrder href, listingRef_normalizedOrder href]
    unfold listingRef
    rw [textOf_strip]
  · rw [documentCancelled_normalizedOrder, storedCancelled_normalizedOrder]
  · intro hstored raw hraw _ _
    obtain ⟨item, hitem, hsome⟩ := List.mem_filterMap.mp
      (show raw ∈ normalizedLines py order from hraw)
    exact restorableLine_of_normalizedLine
      (h.lines (hlive hstored) item.1 (List.fst_mem_of_mem_zipIdx hitem)) hsome
  · intro hstored
    rw [linesFromOrder_normalizedOrder hpy (h.lines (hlive hstored)), List.map_map]
    exact h.lineIds (hlive hstored)

/-- The orders of the stored form can be stored again. -/
theorem restorable_normalizedOrders (hpy : Faithful py)
    (h : Restorable py positions orders) : Restorable py positions (normalizedOrders py orders) := by
  have hmem : ∀ stored ∈ normalizedOrders py orders, ∃ order ∈ orders, listingRef py order ≠ "" ∧
      stored = normalizedOrder py (listingRef py order) order :=
    fun _ => mem_normalizedOrders h.each h.refs
  constructor
  · intro stored hstored
    obtain ⟨order, horder, href, rfl⟩ := hmem stored hstored
    exact restorableOrder_normalizedOrder hpy (h.each order horder) href
  · have hperm := ((normalizedOrders_perm h.each h.refs).filter fun order =>
      listingRef py order ≠ "").map (orderRef py.toReading)
    apply hperm.nodup_iff.mpr
    apply List.Nodup.sublist (List.filter_sublist.map _)
    rw [List.map_map]
    refine Eq.mp ?_ h.refs
    congr 1
    apply List.map_congr_left
    intro order horder
    obtain ⟨hlisted, href⟩ := List.mem_filter.mp horder
    rw [Function.comp_apply, orderRef_normalizedOrder (of_decide_eq_true href)]
    exact (h.each order hlisted).ref
  · intro ref
    unfold isExcludedParent
    apply List.any_eq_false.mpr
    intro item hitem
    have hstored : item.2 ∈ normalizedOrders py orders := by
      have hpair := Dict.mem_of_get?_ofList (Dict.get?_eq_some_iff.mpr hitem)
      obtain ⟨order, horder, he⟩ := List.mem_map.mp hpair
      obtain rfl : order = item.2 := congrArg Prod.snd he
      exact List.mem_of_mem_filter horder
    obtain ⟨order, -, -, he⟩ := hmem item.2 hstored
    rw [he, isDefiniteSupplierOrder_normalizedOrder hpy, Bool.false_and]
    exact Bool.false_ne_true
  · intro need hneed stored hstored hlive line hline hpositive hmaterial
    obtain ⟨order, horder, href, rfl⟩ := hmem stored hstored
    rw [documentCancelled_normalizedOrder, ← (h.each order horder).cancelled] at hlive
    rw [linesFromOrder_normalizedOrder hpy ((h.each order horder).lines hlive)] at hline
    obtain ⟨line, -, rfl⟩ := List.mem_map.mp hline
    unfold Need.matches
    rw [decide_eq_true hmaterial]
    unfold OrderLine.bare
    cases need.characteristicId <;> rfl

/-! ## What the stored form offers -/

def keyedLines (py : Writing) (order : Value) : List (AllocationKey × OrderLine) :=
  (linesFromOrder py.toReading order).map fun line =>
    (⟨.supplierOrder, orderRef py.toReading order, line.lineId⟩, line)

theorem not_documentCancelled (h : order ∈ liveOrders py orders) :
    order ∈ orders ∧ documentCancelled py.toReading order = false := by
  obtain ⟨hmem, htest⟩ := List.mem_filter.mp h
  rw [Bool.and_eq_true, Bool.not_eq_true'] at htest
  exact ⟨hmem, htest.2⟩

theorem allLines_liveOrders (orders : List Value) :
    allLines py.toReading .supplierOrder (liveOrders py orders) =
      (liveOrders py orders).flatMap (keyedLines py) := by
  apply List.flatMap_congr
  intro order horder
  rw [(not_documentCancelled horder).2]
  rfl

/-- The lines of the selected orders have distinct keys and suit the positions. -/
theorem plain_select (hpy : Faithful py) (h : Restorable py positions orders) :
    Plain (allLines py.toReading .supplierOrder (selectSupplierOrdersForQty py.toReading orders))
      (needsOf py.toReading positions) := by
  rw [selectSupplierOrdersForQty_eq hpy h, allLines_liveOrders]
  constructor
  · rw [List.map_flatMap, List.nodup_flatMap]
    constructor
    · intro order horder
      obtain ⟨hmem, hlive⟩ := not_documentCancelled horder
      unfold keyedLines
      rw [List.map_map]
      apply List.Nodup.of_map AllocationKey.lineId
      rw [List.map_map]
      exact (h.each order hmem).lineIds hlive
    · have hrefs := List.pairwise_map.mp (nodup_liveOrders hpy h.each h.refs)
      refine hrefs.imp ?_
      intro order order' hne k hk hk'
      obtain ⟨entry, hentry, rfl⟩ := List.mem_map.mp hk
      obtain ⟨entry', hentry', he⟩ := List.mem_map.mp hk'
      obtain ⟨line, -, rfl⟩ := List.mem_map.mp hentry
      obtain ⟨line', -, rfl⟩ := List.mem_map.mp hentry'
      exact hne (congrArg AllocationKey.ref he).symm
  · intro need hneed entry hentry hpositive hmaterial
    obtain ⟨order, horder, hkeyed⟩ := List.mem_flatMap.mp hentry
    obtain ⟨line, hline, rfl⟩ := List.mem_map.mp hkeyed
    obtain ⟨hmem, hlive⟩ := not_documentCancelled horder
    exact h.suits need hneed order hmem hlive line hline hpositive hmaterial

theorem keyedLines_normalizedOrder (hpy : Faithful py)
    (h : RestorableOrder py order) (href : listingRef py order ≠ "")
    (hlive : documentCancelled py.toReading order = false) :
    keyedLines py (normalizedOrder py (listingRef py order) order) =
      (keyedLines py order).map fun entry => (entry.1, entry.2.bare) := by
  unfold keyedLines
  rw [linesFromOrder_normalizedOrder hpy (h.lines hlive), orderRef_normalizedOrder href, ← h.ref,
    List.map_map, List.map_map]
  rfl

section

variable (hpy : Faithful py) (h : Restorable py positions orders)
include hpy h

/-- The lines of the selected stored orders are those of the selected orders, without
characteristics. -/
theorem allLines_normalizedOrders :
    (allLines py.toReading .supplierOrder
        (selectSupplierOrdersForQty py.toReading (normalizedOrders py orders))).Perm
      ((allLines py.toReading .supplierOrder
        (selectSupplierOrdersForQty py.toReading orders)).map fun entry =>
          (entry.1, entry.2.bare)) := by
  rw [selectSupplierOrdersForQty_eq hpy h,
    selectSupplierOrdersForQty_eq hpy (restorable_normalizedOrders hpy h), allLines_liveOrders,
    allLines_liveOrders, List.map_flatMap]
  have hstored : (((orders.filter fun order => listingRef py order ≠ "").map fun order =>
        normalizedOrder py (listingRef py order) order).filter fun order =>
          orderRef py.toReading order ≠ "" && !documentCancelled py.toReading order) =
      (liveOrders py orders).map fun order => normalizedOrder py (listingRef py order) order := by
    rw [List.filter_map, liveOrders_eq hpy h.each]
    congr 1
    apply List.filter_congr
    intro order horder
    obtain ⟨hmem, href⟩ := List.mem_filter.mp horder
    rw [Function.comp_apply, orderRef_normalizedOrder (of_decide_eq_true href),
      documentCancelled_normalizedOrder, ← (h.each order hmem).ref, ← (h.each order hmem).cancelled]
  have hperm := (normalizedOrders_perm h.each h.refs).filter fun order =>
    orderRef py.toReading order ≠ "" && !documentCancelled py.toReading order
  rw [hstored] at hperm
  refine (hperm.flatMap_right _).trans (.of_eq ?_)
  rw [List.flatMap_map]
  apply List.flatMap_congr
  intro order horder
  obtain ⟨hmem, hlive⟩ := not_documentCancelled horder
  have href : listingRef py order ≠ "" := by
    apply listed_of_orderRef hpy (h.each order hmem)
    have htest := List.of_mem_filter horder
    rw [Bool.and_eq_true] at htest
    exact of_decide_eq_true htest.1
  exact keyedLines_normalizedOrder hpy (h.each order hmem) href hlive

theorem sameOffers_normalizedOrders :
    SameOffers
      (allLines py.toReading .supplierOrder (selectSupplierOrdersForQty py.toReading orders))
      (allLines py.toReading .supplierOrder
        (selectSupplierOrdersForQty py.toReading (normalizedOrders py orders))) ∅ ∅ := by
  intro nomenclatureId
  unfold offersOfMaterial
  rw [supply_offersOf, supply_offersOf, ((allLines_normalizedOrders hpy h).map _).sum_eq,
    List.map_map]
  rfl

theorem rows_normalizedOrders (transfers : List Value) :
    (positionRows py.toReading (selectSupplierOrdersForQty py.toReading (normalizedOrders py orders))
        transfers positions ∅).map PositionRow.view =
      (positionRows py.toReading (selectSupplierOrdersForQty py.toReading orders) transfers positions
        ∅).map PositionRow.view := by
  refine (positionRows_agree transfers (plain_select hpy h)
    (plain_select hpy (restorable_normalizedOrders hpy h)) ?_).symm
  refine ⟨fun k _ => rfl, sameOffers_normalizedOrders hpy h, fun k => le_refl _, fun k => le_refl _⟩

end

/-! ## Cycles with a failed read -/

/-- A read of the cycle fails or answers what it answered before. -/
def Interrupted (supplierOrders transferOrders : List Value) (reads : Reads) : Prop :=
  (reads.supplierOrders = none ∨ reads.supplierOrders = some supplierOrders) ∧
    (reads.transferOrders = none ∨ reads.transferOrders = some transferOrders)

/-- After a complete cycle, cycles with failed reads leave the rows and the status as they are. -/
def KeepsCoverage (py : Writing) (sourceRef : String) (positions : List Value)
    (last : Option Snapshot) (supplierOrders transferOrders : List Value) (cycles : List Reads) :
    Prop :=
  ∃ complete snapshot,
    reconcileCase py sourceRef positions last ⟨some supplierOrders, some transferOrders⟩ =
        some complete ∧
      reconcileCycles py sourceRef positions (some complete) cycles = some snapshot ∧
      snapshot.positions.map PositionRow.view = complete.positions.map PositionRow.view ∧
      snapshot.status = complete.status

/-- The snapshot shows the rows of the orders, and keeps orders that give them again. -/
structure Keeps (py : Writing) (positions orders transfers : List Value) (snapshot : Snapshot) :
    Prop where
  rows : snapshot.positions.map PositionRow.view =
    (positionRows py.toReading (selectSupplierOrdersForQty py.toReading orders) transfers positions
      ∅).map PositionRow.view
  status : snapshot.status = coverageStatus snapshot.positions
  restorable : Restorable py positions snapshot.supplierOrders
  again : (positionRows py.toReading
      (selectSupplierOrdersForQty py.toReading snapshot.supplierOrders) transfers positions ∅).map
        PositionRow.view = snapshot.positions.map PositionRow.view
  transfers : snapshot.transferOrders = transfers

/-- The snapshot of orders that give the rows keeps them. -/
theorem keeps_appliedSnapshot (hpy : Faithful py) {used transfers : List Value}
    (h : Restorable py positions used)
    (hrows : (positionRows py.toReading (selectSupplierOrdersForQty py.toReading used) transfers
        positions ∅).map PositionRow.view =
      (positionRows py.toReading (selectSupplierOrdersForQty py.toReading orders) transfers positions
        ∅).map PositionRow.view) :
    Keeps py positions orders transfers (appliedSnapshot py positions used transfers) where
  rows := hrows
  status := rfl
  restorable := restorable_normalizedOrders hpy h
  again := rows_normalizedOrders hpy h transfers
  transfers := rfl

theorem isDict_of_mem_ofCase {sourceRef : String} :
    ∀ order ∈ ofCase py sourceRef orders, order.isDict = true := by
  intro order horder
  have htest := List.of_mem_filter horder
  rw [Bool.and_eq_true] at htest
  exact htest.1

/-- An order that can be stored is a document, or offers nothing. -/
theorem isDict_normalizedOrders (orders : List Value) :
    (normalizedOrders py orders).filter Value.isDict = normalizedOrders py orders := by
  apply List.filter_eq_self.mpr
  intro stored hstored
  obtain ⟨item, -, rfl⟩ := List.mem_map.mp (mem_sortBy.mp hstored)
  rfl

/-- One cycle with failed reads keeps what the snapshot shows. -/
theorem reconcileCase_keeps (hpy : Faithful py) {sourceRef : String}
    {supplierOrders transferOrders : List Value}
    (h : Restorable py positions (ofCase py sourceRef supplierOrders)) {snapshot : Snapshot}
    (hkeeps : Keeps py positions (ofCase py sourceRef supplierOrders)
      (ofCase py sourceRef transferOrders) snapshot)
    (hdict : snapshot.supplierOrders.filter Value.isDict = snapshot.supplierOrders) {reads : Reads}
    (hreads : Interrupted supplierOrders transferOrders reads) :
    ∃ snapshot', reconcileCase py sourceRef positions (some snapshot) reads = some snapshot' ∧
      Keeps py positions (ofCase py sourceRef supplierOrders) (ofCase py sourceRef transferOrders)
        snapshot' ∧
      snapshot'.supplierOrders.filter Value.isDict = snapshot'.supplierOrders := by
  have htransfers : evidence py sourceRef reads.transferOrders snapshot.transferOrders =
      ofCase py sourceRef transferOrders := by
    rcases hreads.2 with hfailed | hread
    · rw [hfailed, hkeeps.transfers]
      exact List.filter_eq_self.mpr isDict_of_mem_ofCase
    · rw [hread]
      rfl
  unfold reconcileCase
  split
  · exact ⟨snapshot, rfl, hkeeps, hdict⟩
  · refine ⟨_, rfl, ?_, isDict_normalizedOrders _⟩
    rw [Option.map_some, Option.map_some, Option.getD_some, Option.getD_some, htransfers]
    rcases hreads.1 with hfailed | hread
    · have hkept : evidence py sourceRef reads.supplierOrders snapshot.supplierOrders =
          snapshot.supplierOrders := by
        rw [hfailed]
        exact hdict
      rw [hkept]
      exact keeps_appliedSnapshot hpy hkeeps.restorable (hkeeps.again.trans hkeeps.rows)
    · rw [hread]
      exact keeps_appliedSnapshot hpy h rfl

end

/-! ## A characteristic that is not stored -/

def asciiWriting : Writing where
  toReading :=
    { lower := String.toLower
      casefold := String.toLower
      decimal := fun text => if text = "5" then some 5 else if text = "0" then some 0 else none
      repr := fun _ => "" }
  print := fun q => if q = 5 then "5" else "0"

theorem faithful_asciiWriting : Faithful asciiWriting where
  lower_empty := by decide +kernel
  decimal_print := by
    intro q hq
    have hcases : q = 0 ∨ q = 5 := by
      rcases hq with hq | ⟨text, htext⟩
      · exact .inl hq
      · change (if text = "5" then some 5 else if text = "0" then some 0 else none) = some q at htext
        split at htext
        · exact .inr (Option.some.inj htext).symm
        · split at htext
          · exact .inl (Option.some.inj htext).symm
          · cases htext
    rcases hcases with rfl | rfl <;> decide +kernel

def fivePiecesOf (characteristic : String) : Value :=
  .dict [("line_id", .str "1"), ("nomenclature_id", .str "steel"),
    ("characteristic_id", .str characteristic), ("quantity", .num 5 "5")]

def orderOf (characteristic : String) : Value :=
  .dict [("ref", .str "order"), ("source_ref", .str "case"),
    ("lines", .list [fivePiecesOf characteristic])]

/-- After a complete cycle the read of the supplier orders fails. -/
def supplierReadFails : List Reads := [⟨none, some []⟩]

/-- An order for the characteristic that the position asks for can be stored. -/
theorem restorable_sameCharacteristic :
    Restorable asciiWriting [fivePiecesOf "red"] [orderOf "red"] where
  each := by
    intro order horder
    rw [List.mem_singleton.mp horder]
    refine ⟨by decide +kernel, by decide +kernel, fun _ raw hraw _ _ => ?_, fun _ => by decide +kernel⟩
    rw [List.mem_singleton.mp (show raw ∈ [fivePiecesOf "red"] from hraw)]
    exact ⟨by decide +kernel, fun _ => by decide +kernel⟩
  refs := by decide +kernel
  definite := by
    intro ref
    have hall : (byRef asciiWriting.toReading [orderOf "red"]).items.all (fun item =>
        !isDefiniteSupplierOrder asciiWriting.toReading item.2) = true := by
      decide +kernel
    apply List.any_eq_false.mpr
    intro item hitem
    have hconditional := List.all_eq_true.mp hall item hitem
    rw [Bool.not_eq_true'] at hconditional
    rw [hconditional, Bool.false_and]
    exact Bool.false_ne_true
  suits := by
    intro need hneed order horder _ line hline _ _
    rw [List.mem_singleton.mp horder] at hline
    have hall : ((needsOf asciiWriting.toReading [fivePiecesOf "red"]).all fun need =>
        (linesFromOrder asciiWriting.toReading (orderOf "red")).all need.matches) = true := by
      decide +kernel
    exact List.all_eq_true.mp (List.all_eq_true.mp hall need hneed) line hline

end AgentBack.Coverage
