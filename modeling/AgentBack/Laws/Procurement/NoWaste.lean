import AgentBack.Laws.Procurement.Conservation

/-!
# A short line has emptied everything that matches it

The indexes `stock_by_nom` and `supplier_by_nom` list every row and every supplier under every key
by which the loops would use them, so a line that stays short has visited all of them, and a visit
leaves something behind only when nothing is left to cover.
-/

namespace AgentBack.Procurement

open Dict (LastUnder)
open Text (strip normalize)

variable {casefold : String → String} {store : MaterialBankStore}

/-- Two texts that agree up to blanks and case, and are not blank. -/
def SameKey (casefold : String → String) (a b : Option String) : Prop :=
  normalize casefold (text a) ≠ "" ∧ normalize casefold (text a) = normalize casefold (text b)

/-- An id and a name match a demand: by id, by name, or one as the other. -/
def Agree (casefold : String → String) (nomenclatureId nomenclatureName : Option String)
    (demand : Demand) : Prop :=
  (SameKey casefold nomenclatureId (some demand.nomenclatureId) ∨
      SameKey casefold nomenclatureName demand.nomenclatureName) ∨
    SameKey casefold nomenclatureId demand.nomenclatureName ∨
      SameKey casefold nomenclatureName (some demand.nomenclatureId)

theorem mem_matchKeys {nomenclatureId nomenclatureName : Option String} {key : String} :
    key ∈ matchKeys casefold nomenclatureId nomenclatureName ↔
      key ≠ "" ∧ (key = normalize casefold (text nomenclatureId) ∨
        key = normalize casefold (text nomenclatureName)) := by
  unfold matchKeys
  generalize normalize casefold (text nomenclatureId) = nid
  generalize normalize casefold (text nomenclatureName) = name
  by_cases hid : nid = ""
  · by_cases hname : name = ""
    · simp only [hid, hname, ne_eq, not_true_eq_false, if_false, false_and, List.not_mem_nil,
        or_self, not_and_self]
    · simp only [hid, hname, ne_eq, not_true_eq_false, not_false_eq_true, if_false,
        List.not_mem_nil, and_self, if_true, List.nil_append, List.mem_singleton]
      grind
  · by_cases hname : name = nid
    · simp only [hid, hname, ne_eq, not_false_eq_true, if_true, List.mem_singleton,
        not_true_eq_false, and_false, if_false, or_self]
      grind
    · by_cases hblank : name = ""
      · simp only [hid, hblank, ne_eq, not_false_eq_true, not_true_eq_false, if_true, false_and,
          if_false, List.mem_singleton]
        grind
      · simp only [hid, hname, hblank, ne_eq, not_false_eq_true, if_true, and_self, List.cons_append,
          List.nil_append, List.mem_cons, List.not_mem_nil, or_false]
        grind

/-- Who matches a demand shares a key with it. -/
theorem Agree.key {nomenclatureId nomenclatureName : Option String} {demand : Demand}
    (h : Agree casefold nomenclatureId nomenclatureName demand) :
    ∃ key ∈ matchKeys casefold nomenclatureId nomenclatureName, key ∈ demand.keys casefold := by
  rcases h with (⟨hne, he⟩ | ⟨hne, he⟩) | ⟨hne, he⟩ | ⟨hne, he⟩
  · exact ⟨_, mem_matchKeys.mpr ⟨hne, .inl rfl⟩, mem_matchKeys.mpr ⟨hne, .inl he⟩⟩
  · exact ⟨_, mem_matchKeys.mpr ⟨hne, .inr rfl⟩, mem_matchKeys.mpr ⟨hne, .inr he⟩⟩
  · exact ⟨_, mem_matchKeys.mpr ⟨hne, .inl rfl⟩, mem_matchKeys.mpr ⟨hne, .inr he⟩⟩
  · exact ⟨_, mem_matchKeys.mpr ⟨hne, .inr rfl⟩, mem_matchKeys.mpr ⟨hne, .inl he⟩⟩

theorem Offering.mem_keys {o : Offering} {key : String} :
    key ∈ o.keys casefold ↔
      key ≠ "" ∧ (key = o.nomKey casefold ∨
        key = normalize casefold (text o.nomenclatureName)) := by
  unfold Offering.keys Offering.nomKey
  rw [mem_matchKeys]
  show _ ∧ (key = normalize casefold (strip (text o.nomenclatureId)) ∨ _) ↔ _
  rw [Text.normalize_strip]

theorem mem_addToBucket {index : Dict String (List String)} {id id' key key' : String} :
    id' ∈ (addToBucket index id key).getD key' [] ↔
      (id' = id ∧ key' = key) ∨ id' ∈ index.getD key' [] := by
  unfold addToBucket
  simp only
  split
  · next hmem =>
    constructor
    · exact .inr
    · rintro (⟨rfl, rfl⟩ | h)
      · exact hmem
      · exact h
  · rw [Dict.getD, Dict.get?_set]
    by_cases hkey : key = key'
    · subst hkey
      rw [if_pos rfl, Option.getD_some, List.mem_append, List.mem_singleton]
      tauto
    · rw [if_neg hkey]
      constructor
      · exact .inr
      · rintro (⟨_, rfl⟩ | h)
        · exact absurd rfl hkey
        · exact h

theorem mem_addToBuckets {index : Dict String (List String)} {id id' key' : String}
    {keys : List String} :
    id' ∈ (addToBuckets index id keys).getD key' [] ↔
      (id' = id ∧ key' ∈ keys) ∨ id' ∈ index.getD key' [] := by
  unfold addToBuckets
  induction keys generalizing index with
  | nil => simp
  | cons key rest ih =>
    rw [List.foldl_cons, ih, mem_addToBucket, List.mem_cons]
    tauto

/-- The index of some items lists an id under every key of its items. -/
theorem mem_foldl_addToBuckets {α : Type} (idOf : α → String) (keysOf : α → List String)
    {items : List α} {index : Dict String (List String)} {id key : String} :
    id ∈ (items.foldl (fun index item => addToBuckets index (idOf item) (keysOf item))
        index).getD key [] ↔
      (∃ item ∈ items, id = idOf item ∧ key ∈ keysOf item) ∨ id ∈ index.getD key [] := by
  induction items generalizing index with
  | nil => simp
  | cons item rest ih =>
    rw [List.foldl_cons, ih, mem_addToBuckets]
    simp only [List.mem_cons, exists_eq_or_imp]
    rw [← or_assoc]
    exact or_congr_left or_comm

/-- Sorting the buckets keeps their members. -/
private theorem mem_getD_mapItems {β : Type} [LinearOrder β] {index : Dict String (List String)}
    (f : String → String → β) {id key : String} :
    id ∈ (index.mapItems fun key bucket => sortBy (f key) bucket).getD key [] ↔
      id ∈ index.getD key [] := by
  rw [Dict.getD, Dict.get?_mapItems, Dict.getD]
  cases index.get? key with
  | none => rfl
  | some bucket =>
    rw [Option.map_some, Option.getD_some, Option.getD_some]
    exact mem_sortBy

/-- `stock_by_nom` lists every kept row under each of its keys. -/
theorem mem_stockByNom {stockId key : String} {row : StockLine}
    (hrow : LastUnder (stockRows store) stockId row) (hkey : key ∈ row.keys casefold) :
    stockId ∈ (stockByNom casefold store).getD key [] := by
  refine (mem_getD_mapItems _).mpr ((mem_foldl_addToBuckets Prod.fst
    fun item : String × StockLine => item.2.keys casefold).mpr ?_)
  refine .inl ⟨(stockId, row), ?_, rfl, hkey⟩
  exact Dict.get?_eq_some_iff.mp (Dict.get?_ofList_eq_some_iff.mpr hrow)

/-- `supplier_by_nom` lists a supplier under the keys of its offerings that have something. -/
theorem mem_supplierByNom {supplierId nomKey key : String} {available : ℚ}
    (hget : (initialRemaining casefold store).supplier.get? (supplierId, nomKey) = some available)
    (hkey : key ∈ supplierKeys (supplierOfferingName casefold store)
      ((supplierId, nomKey), available)) :
    supplierId ∈ (supplierByNom casefold store).getD key [] := by
  refine (mem_getD_mapItems _).mpr ((mem_foldl_addToBuckets
    (fun item : (String × String) × ℚ => item.1.1) (supplierKeys _)).mpr ?_)
  exact .inl ⟨((supplierId, nomKey), available), Dict.get?_eq_some_iff.mp hget, rfl, hkey⟩

/-! ## Well-formed suppliers -/

/-- A supplier whose offerings have a nomenclature each, no two the same up to case, and no
negative quantity. -/
structure WellFormed (casefold : String → String) (supplier : Supplier) : Prop where
  named : ∀ o ∈ supplier.offerings, strip (text o.nomenclatureId) ≠ ""
  distinct : (supplier.offerings.map (Offering.nomKey casefold)).Nodup
  nonneg : ∀ o ∈ supplier.offerings, 0 ≤ o.available

/-- Every active supplier is well-formed, and no two have one id. -/
structure WellFormedSuppliers (casefold : String → String) (store : MaterialBankStore) : Prop where
  ids : (store.activeSuppliers.map fun supplier => text supplier.supplierId).Nodup
  each : ∀ supplier ∈ store.activeSuppliers, WellFormed casefold supplier

section Suppliers

variable {supplier : Supplier} {o : Offering}

variable (h : WellFormedSuppliers casefold store) (hs : supplier ∈ store.activeSuppliers)
include h hs

private theorem eq_of_supplierId {other : Supplier} (ho : other ∈ store.activeSuppliers)
    (hid : text other.supplierId = text supplier.supplierId) : other = supplier :=
  List.inj_on_of_nodup_map h.ids ho hs hid

theorem offeringsOf_supplier :
    offeringsOf store (text supplier.supplierId) = supplier.offerings := by
  have hget := Dict.get?_ofList_of_mem hs fun other hother hid => eq_of_supplierId h hs hother hid
  rw [offeringsOf, supplierMeta, hget]
  rfl

variable (ho : o ∈ supplier.offerings)
include ho

/-- An offering is the only row under its supplier and its nomenclature. -/
private theorem eq_of_offeringRows {other : Offering}
    (hother : ((text supplier.supplierId, o.nomKey casefold), other) ∈
      offeringRows casefold store) : other = o := by
  obtain ⟨found, hfound, hrow⟩ := List.mem_flatMap.mp hother
  obtain ⟨o', ho', he⟩ := List.mem_map.mp hrow
  obtain ⟨hkey, rfl⟩ := Prod.mk.inj he
  obtain ⟨hid, hnom⟩ := Prod.mk.inj hkey
  obtain rfl := eq_of_supplierId h hs hfound hid
  exact List.inj_on_of_nodup_map (h.each _ hs).distinct (List.mem_filter.mp ho').1 ho hnom

private theorem mem_offeringRows :
    ((text supplier.supplierId, o.nomKey casefold), o) ∈ offeringRows casefold store := by
  refine List.mem_flatMap.mpr ⟨supplier, hs, List.mem_map.mpr ⟨o, ?_, rfl⟩⟩
  exact List.mem_filter.mpr ⟨ho, decide_eq_true ((h.each _ hs).named o ho)⟩

theorem lastUnder_offering :
    LastUnder (offeringRows casefold store) (text supplier.supplierId, o.nomKey casefold) o :=
  LastUnder.of_unique (mem_offeringRows h hs ho) fun _ => eq_of_offeringRows h hs ho

theorem get?_supplierOfferingName (hname : normalize casefold (text o.nomenclatureName) ≠ "") :
    (supplierOfferingName casefold store).get? (text supplier.supplierId, o.nomKey casefold) =
      some (normalize casefold (text o.nomenclatureName)) := by
  refine Dict.get?_ofList_eq_some_iff.mpr (LastUnder.of_unique ?_ fun name hmem => ?_)
  · refine List.mem_filter.mpr ⟨List.mem_map.mpr ⟨_, mem_offeringRows h hs ho, rfl⟩, ?_⟩
    exact decide_eq_true hname
  · obtain ⟨⟨key, other⟩, hrow, he⟩ := List.mem_map.mp (List.mem_filter.mp hmem).1
    cases he
    rw [eq_of_offeringRows h hs ho hrow]

/-- A supplier is listed under every key of an offering that has something. -/
theorem mem_supplierByNom_of_offering (havail : 0 < o.available) {key : String}
    (hkey : key ∈ o.keys casefold) :
    text supplier.supplierId ∈ (supplierByNom casefold store).getD key [] := by
  have hget : (initialRemaining casefold store).supplier.get?
      (text supplier.supplierId, o.nomKey casefold) = some o.available := by
    simp only [initialRemaining, Dict.get?_ofList_map,
      Dict.get?_ofList_eq_some_iff.mpr (lastUnder_offering h hs ho), Option.map_some]
  apply mem_supplierByNom hget
  obtain ⟨hne, hkey⟩ := Offering.mem_keys.mp hkey
  unfold supplierKeys
  rw [if_neg (not_le.mpr havail)]
  rcases hkey with rfl | rfl
  · split
    · split <;> simp
    · simp
  · rw [get?_supplierOfferingName h hs ho hne]
    simp only
    split <;> simp_all

end Suppliers

theorem LineServed.left_pos {remaining remaining' : Remaining} {demand : Demand} {mid left : ℚ}
    (h : LineServed casefold store remaining demand
      (allocateLine casefold store remaining demand).1 remaining' mid left)
    (hdeficit : 0 < (allocateLine casefold store remaining demand).1.deficitQuantity) :
    0 < left := by
  have hdef : (allocateLine casefold store remaining demand).1.deficitQuantity =
      max 0 (demand.quantity - ((allocateLine casefold store remaining demand).1.fromWarehouse +
        (allocateLine casefold store remaining demand).1.fromSupplier)) := rfl
  rw [hdef, ← h.balance, add_sub_cancel_right] at hdeficit
  exact (lt_max_iff.mp hdeficit).resolve_left (lt_irrefl 0)

section Short

variable {before : Remaining} {demand : Demand}
  {stockDraws : List (String × ℚ)} {supplierDraws : List ((String × String) × ℚ)}

/-- A line that stays short empties the kept rows that match it. -/
private theorem stock_emptied
    (hdraws : Draws (initialRemaining casefold store).stock stockDraws before.stock)
    (hdeficit : 0 < (allocateLine casefold store before demand).1.deficitQuantity)
    {stockId : String} {row : StockLine} (hrow : LastUnder (stockRows store) stockId row)
    (hagree : Agree casefold row.nomenclatureId row.nomenclatureName demand) :
    onHand (allocateLine casefold store before demand).2.stock stockId = 0 := by
  obtain ⟨mid, left, hline⟩ := allocateLine_served casefold store before demand
  have hleft := hline.left_pos hdeficit
  obtain ⟨key, hkey, hmatch⟩ := hagree.key
  have hspent := hline.spentStock key hmatch stockId (mem_stockByNom hrow hkey)
  have hstart : 0 ≤ onHand (initialRemaining casefold store).stock stockId := by
    rw [onHand_stock hrow, available_stockLine]
    exact le_max_left _ _
  apply le_antisymm
  · exact hspent.resolve_left (not_le.mpr hleft)
  · exact (hdraws.append hline.stock.draws).onHand_nonneg hstart

/-- A line that stays short empties the offerings that match it. -/
private theorem offering_emptied (hfold : ∀ s, s ≠ "" → casefold s ≠ "")
    (hsuppliers : WellFormedSuppliers casefold store)
    (hbefore : Draws (initialRemaining casefold store).supplier supplierDraws before.supplier)
    (hdeficit : 0 < (allocateLine casefold store before demand).1.deficitQuantity)
    {supplier : Supplier} (hs : supplier ∈ store.activeSuppliers) {o : Offering}
    (ho : o ∈ supplier.offerings)
    (hagree : Agree casefold o.nomenclatureId o.nomenclatureName demand) :
    onHand (allocateLine casefold store before demand).2.supplier
      (text supplier.supplierId, o.nomKey casefold) = 0 := by
  obtain ⟨mid, left, hline⟩ := allocateLine_served casefold store before demand
  have hleft := hline.left_pos hdeficit
  have hstart := onHand_supplier (lastUnder_offering hsuppliers hs ho)
  have havail := (hsuppliers.each supplier hs).nonneg o ho
  have hdraws := hbefore.append hline.supplier.draws
  apply le_antisymm
  · rcases eq_or_lt_of_le havail with hzero | hpos
    · -- nothing to offer from the start
      rw [hdraws.onHand_of_nonpos (by rw [hstart, ← hzero]), hstart, ← hzero]
    · obtain ⟨key, hkey, hmatch⟩ := hagree.key
      have hkey : key ∈ o.keys casefold := by
        rw [Offering.mem_keys]
        exact mem_matchKeys.mp hkey
      have hfits : o.fits casefold (demand.keys casefold) = true :=
        List.any_eq_true.mpr ⟨key, hkey, decide_eq_true hmatch⟩
      have hnom : o.nomKey casefold ≠ "" := hfold _ ((hsuppliers.each supplier hs).named o ho)
      have hlisted := mem_supplierByNom_of_offering hsuppliers hs ho hpos hkey
      have hspent := hline.spentSupplier key hmatch _ hlisted o
        (offeringsOf_supplier hsuppliers hs ▸ ho) hfits hnom
      exact hspent.resolve_left (not_le.mpr hleft)
  · exact hdraws.onHand_nonneg (hstart ▸ havail)

end Short

/-- A line that stays short leaves nothing in the kept stock rows and in the offerings that match
it, at the moment when it is served. -/
theorem allocateLine_wastes_nothing (casefold : String → String)
    (fromIsoFormat : String → Option DateTime) (store : MaterialBankStore)
    (hfold : ∀ s, s ≠ "" → casefold s ≠ "") (hsuppliers : WellFormedSuppliers casefold store)
    (cases : List Case) (earlier : List Demand) (demand : Demand) (later : List Demand)
    (hsorted : sortedDemands fromIsoFormat cases = earlier ++ demand :: later) :
    let before := (allocateLines casefold store (initialRemaining casefold store) earlier).2
    let served := allocateLine casefold store before demand
    (∃ lines lines', allocateMaterialsByDeadline casefold fromIsoFormat store cases =
      lines ++ served.1 :: lines' ∧ lines.length = earlier.length) ∧
    (0 < served.1.deficitQuantity →
      (∀ stockId row, LastUnder (stockRows store) stockId row →
        Agree casefold row.nomenclatureId row.nomenclatureName demand →
        onHand served.2.stock stockId = 0) ∧
      ∀ supplier ∈ store.activeSuppliers, ∀ o ∈ supplier.offerings,
        Agree casefold o.nomenclatureId o.nomenclatureName demand →
        onHand served.2.supplier (text supplier.supplierId, o.nomKey casefold) = 0) := by
  intro before served
  obtain ⟨hstock, hsupplier⟩ := allocateLines_draws casefold store earlier
    (initialRemaining casefold store)
  obtain ⟨rest, hrun⟩ := @allocateMaterials_split casefold store _ _ _ _ _ hsorted
  refine ⟨⟨_, rest, hrun, length_allocateLines _ _⟩, fun hdeficit => ⟨?_, ?_⟩⟩
  · intro stockId row hrow hagree
    exact stock_emptied hstock hdeficit hrow hagree
  · intro supplier hs o ho hagree
    exact offering_emptied hfold hsuppliers hsupplier hdeficit hs ho hagree

private theorem wellFormed_boltStore : WellFormedSuppliers id boltStore where
  ids := by decide +kernel
  each supplier hs := by
    rw [List.mem_singleton.mp hs]
    constructor
    · intro o ho
      rw [List.mem_singleton.mp ho]
      decide +kernel
    · exact List.nodup_singleton _
    · intro o ho
      rw [List.mem_singleton.mp ho]
      decide +kernel

/-- Eleven bolts are asked for and seven there are: the later case stays short, and neither the
warehouse nor the supplier has a bolt left. -/
theorem allocateLine_wastes_nothing_bolts :
    onHand (allocateLine id boltStore
        (allocateLines id boltStore (initialRemaining id boltStore)
          [boltDemand "early" 5 10]).2 (boltDemand "late" 6 20)).2.stock "S1" = 0 := by
  have hsorted : sortedDemands (fun _ => none) [boltCase "late" 6 20, boltCase "early" 5 10] =
      [boltDemand "early" 5 10] ++ boltDemand "late" 6 20 :: [] := by decide +kernel
  have hrow : LastUnder (stockRows boltStore) "S1"
      ⟨some "S1", some "W1", some "bolt", some "bolt m6", 5, 1⟩ := ⟨[], [], by rfl, by simp⟩
  have hagree : Agree id (some "bolt") (some "bolt m6") (boltDemand "late" 6 20) :=
    .inl (.inl ⟨by decide +kernel, by decide +kernel⟩)
  have hdeficit : 0 < (allocateLine id boltStore
      (allocateLines id boltStore (initialRemaining id boltStore)
        [boltDemand "early" 5 10]).2 (boltDemand "late" 6 20)).1.deficitQuantity := by
    decide +kernel
  exact ((allocateLine_wastes_nothing id _ boltStore (fun _ h => h)
    wellFormed_boltStore _ _ _ _ hsorted).2 hdeficit).1 "S1" _ hrow hagree

/-- Two rows of one stock id, of which the bank keeps the second. -/
def twiceStore : MaterialBankStore where
  warehouses := []
  stockLines := [⟨some "S1", none, some "bolt", none, 5, 0⟩, ⟨some "S1", none, some "nut", none, 7, 0⟩]
  suppliers := []

/-- The bolts of the first row are not found: a line for one bolt stays short, and the row it
matches has seven on hand. -/
theorem allocateLine_duplicate_stock_id :
    let served := allocateLine id twiceStore (initialRemaining id twiceStore)
      (boltDemand "only" 1 10)
    WellFormedSuppliers id twiceStore ∧
      sortedDemands (fun _ => none) [boltCase "only" 1 10] = [boltDemand "only" 1 10] ∧
      0 < served.1.deficitQuantity ∧
      ∃ row ∈ twiceStore.stockLines,
        Agree id row.nomenclatureId row.nomenclatureName (boltDemand "only" 1 10) ∧
        onHand served.2.stock (text row.stockId) ≠ 0 := by
  intro served
  refine ⟨⟨List.nodup_nil, fun supplier hs => by cases hs⟩, by decide +kernel, by decide +kernel,
    ⟨some "S1", none, some "bolt", none, 5, 0⟩, .head _,
    .inl (.inl ⟨by decide +kernel, by decide +kernel⟩), by decide +kernel⟩

end AgentBack.Procurement
