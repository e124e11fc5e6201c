import AgentBack.Base.Guarded
import AgentBack.Knowledge.Departments
import Mathlib.Algebra.Order.BigOperators.Group.List
import Mathlib.Algebra.Order.Ring.Nat

/-!
# The walk up the departments

The loop goes up from parent to parent and keeps no record of where it was, so it ends for every
department exactly when depths can be given that fall from each department to its parent
(`ends_iff`). An operation keeps that exactly when its own parents allow it (`ends_step_iff`): an
update that does not put a department below itself, a report whose parent keys go around in no
circle. So the walk always ends in exactly the runs of such operations (`ends_throughout_iff`). After
a report the rows of 1C are what it says of them (`upsertDepartments_mirrors`).
-/

namespace AgentBack.Departments

/-- What lies on the way up from a department, itself included. -/
def Above (table : Table) : ℕ → ℕ → Prop :=
  Relation.ReflTransGen fun child parent => parentOf table child = some parent

/-- **Every walk ends**, with the department and all that lies above it. -/
def Ends (table : Table) : Prop :=
  ∀ id, ∃ passes scope, departmentScope table passes id = some scope ∧
    ∀ other, other ∈ scope ↔ Above table id other

def Falls (table : Table) (depth : ℕ → ℕ) : Prop :=
  ∀ id parent, parentOf table id = some parent → depth parent < depth id

/-- **The parents go around in no circle.** A new parent does not lie below the department, nor is
it the department; the keys of a report can be numbered from the top. -/
def Sound : Operation → Table → Prop
  | .create _ _, _ => True
  | .update id parentId, table => (table.get? id).isSome → admits table parentId → ∀ parent,
      parentId = some parent → ¬ Above table parent id
  | .sync newId rows, table => upsertDepartments table newId rows ≠ table → ∃ rank : String → ℕ,
      ∀ key parent, rows.get? key = some (some parent) → (rows.get? parent).isSome →
        rank parent < rank key

section Loop

variable {table : Table}

theorem exists_scope {depth : ℕ → ℕ} (falls : Falls table depth) {passes : ℕ} :
    ∀ {id : ℕ}, depth id < passes → ∃ scope, departmentScope table passes id = some scope ∧
      ∀ other, other ∈ scope ↔ Above table id other := by
  induction passes with
  | zero => exact fun h => absurd h (Nat.not_lt_zero _)
  | succ passes ih =>
    intro id h
    rw [departmentScope]
    cases hparent : parentOf table id with
    | none =>
      refine ⟨[id], rfl, fun other => ⟨fun hmem => ?_, fun habove => ?_⟩⟩
      · rw [List.mem_singleton.mp hmem]
        exact .refl
      · rcases habove.cases_head with rfl | ⟨parent, hedge, -⟩
        · exact List.mem_singleton_self _
        · rw [hparent] at hedge
          cases hedge
    | some parent =>
      have hfall := falls id parent hparent
      obtain ⟨scope, hscope, hmem⟩ := ih (show depth parent < passes by omega)
      refine ⟨id :: scope, by simp only [hscope, Option.map_some], fun other => ?_⟩
      rw [List.mem_cons, hmem]
      constructor
      · rintro (rfl | habove)
        · exact .refl
        · exact .head hparent habove
      · intro habove
        rcases habove.cases_head with rfl | ⟨next, hedge, hrest⟩
        · exact .inl rfl
        · rw [hparent] at hedge
          cases hedge
          exact .inr hrest

theorem departmentScope_unique {passes passes' id : ℕ} {scope scope' : List ℕ}
    (h : departmentScope table passes id = some scope)
    (h' : departmentScope table passes' id = some scope') : scope = scope' := by
  induction passes generalizing passes' id scope scope' with
  | zero => cases h
  | succ passes ih =>
    cases passes' with
    | zero => cases h'
    | succ passes' =>
      rw [departmentScope] at h h'
      cases hparent : parentOf table id with
      | none =>
        rw [hparent] at h h'
        cases h
        cases h'
        rfl
      | some parent =>
        rw [hparent] at h h'
        obtain ⟨rest, hrest, rfl⟩ := Option.map_eq_some_iff.mp h
        obtain ⟨rest', hrest', rfl⟩ := Option.map_eq_some_iff.mp h'
        rw [ih hrest hrest']

theorem ends_iff : Ends table ↔ ∃ depth, Falls table depth := by
  constructor
  · intro ends
    choose passes scope hscope _ using ends
    refine ⟨fun id => (scope id).length, fun id parent hparent => ?_⟩
    have walk := hscope id
    cases hpasses : passes id with
    | zero => rw [hpasses] at walk; cases walk
    | succ left =>
      rw [hpasses, departmentScope, hparent] at walk
      obtain ⟨rest, hrest, hcons⟩ := Option.map_eq_some_iff.mp walk
      change (scope parent).length < (scope id).length
      rw [← hcons, departmentScope_unique (hscope parent) hrest, List.length_cons]
      exact Nat.lt_succ_self _
  · rintro ⟨depth, falls⟩ id
    exact ⟨depth id + 1, exists_scope falls (Nat.lt_succ_self _)⟩

end Loop

section Parent

variable {table : Table}

/-- Every parent that the table stores is one of its departments. -/
def Stored (table : Table) : Prop :=
  ∀ id parent, parentOf table id = some parent → (table.get? parent).isSome

theorem parentOf_set (id : ℕ) (department : Department) (other : ℕ) :
    parentOf (table.set id department) other =
      if id = other then department.parentId else parentOf table other := by
  rw [parentOf, Dict.get?_set]
  split_ifs <;> rfl

theorem admits_some {parent : ℕ} (h : admits table (some parent) = true) :
    (table.get? parent).isSome := h

/-- What lies below a department keeps a depth above it when only its own parent changes. -/
theorem ends_set_iff (ends : Ends table) (id : ℕ) (department : Department) :
    Ends (table.set id department) ↔
      ∀ parent, department.parentId = some parent → ¬ Above table parent id := by
  rw [ends_iff] at ends ⊢
  obtain ⟨depth, falls⟩ := ends
  constructor
  · rintro ⟨depth', falls'⟩ parent hparent habove
    have hbelow : ∀ other, Above table other id → depth' id ≤ depth' other := by
      intro other habove
      induction habove using Relation.ReflTransGen.head_induction_on with
      | refl => exact le_rfl
      | @head child next hedge _ ih =>
        by_cases hid : id = child
        · rw [hid]
        · exact ih.trans (falls' child next (by rw [parentOf_set, if_neg hid]; exact hedge)).le
    have hfall := falls' id parent (by rw [parentOf_set, if_pos rfl]; exact hparent)
    exact absurd (hbelow parent habove) (Nat.not_le.mpr hfall)
  · intro h
    classical
    let lift := (department.parentId.elim 0 depth) + 1
    refine ⟨fun other => depth other + if Above table other id then lift else 0,
      fun child parent hedge => ?_⟩
    rw [parentOf_set] at hedge
    by_cases hid : id = child
    · subst hid
      rw [if_pos rfl] at hedge
      simp only [if_neg (h parent hedge), if_pos (show Above table id id from .refl), lift, hedge,
        Option.elim_some]
      omega
    · rw [if_neg hid] at hedge
      have hfall := falls child parent hedge
      by_cases habove : Above table parent id
      · simp only [if_pos habove, if_pos (show Above table child id from .head hedge habove)]
        omega
      · simp only [if_neg habove]
        omega

/-- Nothing lies below a department that is not in the table. -/
theorem not_above_new (stored : Stored table) {id other : ℕ} (hnew : table.get? id = none)
    (hother : (table.get? other).isSome) : ¬ Above table other id := by
  intro habove
  rcases habove.cases_tail with rfl | ⟨child, -, hedge⟩
  · rw [hnew] at hother
    cases hother
  · have := stored child id hedge
    rw [hnew] at this
    cases this

theorem stored_set (stored : Stored table) (id : ℕ) {department : Department}
    (h : admits table department.parentId = true) : Stored (table.set id department) := by
  intro child parent hedge
  rw [parentOf_set] at hedge
  rw [Dict.get?_set]
  by_cases hparent : id = parent
  · rw [if_pos hparent]
    rfl
  · rw [if_neg hparent]
    by_cases hid : id = child
    · rw [if_pos hid] at hedge
      exact admits_some (hedge ▸ h)
    · rw [if_neg hid] at hedge
      exact stored child parent hedge

end Parent

/-! ## A report -/

section Report

variable {table : Table} {newId : String → ℕ} {rows : Dict String (Option String)}

theorem idOf_some {key : String} {id : ℕ} (h : idOf table key = some id) :
    ∃ department, table.get? id = some department ∧ department.externalId = some key := by
  obtain ⟨⟨id', department⟩, hitem, hmap⟩ := List.mem_filterMap.mp (Dict.mem_of_get?_ofList h)
  obtain ⟨key', hkey, he⟩ := Option.map_eq_some_iff.mp hmap
  cases he
  exact ⟨department, Dict.get?_eq_some_iff.mpr hitem, hkey⟩

theorem idOf_unique {key key' : String} {id : ℕ} (h : idOf table key = some id)
    (h' : idOf table key' = some id) : key = key' := by
  obtain ⟨department, hget, hkey⟩ := idOf_some h
  obtain ⟨department', hget', hkey'⟩ := idOf_some h'
  rw [hget] at hget'
  cases hget'
  exact Option.some.inj (hkey ▸ hkey')

theorem isSome_idOf {key : String} {id : ℕ} {department : Department}
    (hget : table.get? id = some department) (hkey : department.externalId = some key) :
    (idOf table key).isSome := by
  refine Dict.isSome_get?_ofList (List.mem_map.mpr ⟨(key, id), ?_, rfl⟩)
  refine List.mem_filterMap.mpr ⟨(id, department), Dict.get?_eq_some_iff.mp hget, ?_⟩
  simp only [hkey, Option.map_some]

/-- The first loop leaves the other departments and adds each key that it names. -/
theorem get?_add (keys : List String) (hnodup : (keys.map newId).Nodup) (id : ℕ) :
    (∀ key ∈ keys, newId key = id → (keys.foldl (fun table key =>
      table.set (newId key) ⟨some key, none⟩) table).get? id = some ⟨some key, none⟩) ∧
    (id ∉ keys.map newId → (keys.foldl (fun table key =>
      table.set (newId key) ⟨some key, none⟩) table).get? id = table.get? id) := by
  induction keys generalizing table with
  | nil => exact ⟨fun _ h => absurd h List.not_mem_nil, fun _ => rfl⟩
  | cons first keys ih =>
    obtain ⟨hfirst, hkeys⟩ := List.nodup_cons.mp (List.map_cons ▸ hnodup)
    rw [List.foldl_cons]
    obtain ⟨hnamed, hother⟩ := @ih (table.set (newId first) ⟨some first, none⟩) hkeys
    constructor
    · intro key hkey hid
      rcases List.mem_cons.mp hkey with rfl | hkey
      · rw [hother (hid ▸ hfirst), hid, Dict.get?_set_self]
      · exact hnamed key hkey hid
    · intro hid
      rw [List.map_cons, List.mem_cons, not_or] at hid
      rw [hother hid.2, Dict.get?_set_ne _ (Ne.symm hid.1)]

theorem parentOf_setParents_row {key : String} {parent : Option String} {id : ℕ}
    (hrow : rows.get? key = some parent) (hid : idOf table key = some id) :
    parentOf (setParents table rows) id = parentIn table rows parent := by
  obtain ⟨department, hget, -⟩ := idOf_some hid
  rw [parentOf, setParents, Dict.get?_mapItems, hget]
  cases hfind : rows.items.find? fun row => idOf table row.1 = some id with
  | none =>
    have hnot := List.find?_eq_none.mp hfind (key, parent) (Dict.get?_eq_some_iff.mp hrow)
    exact absurd (decide_eq_true hid) hnot
  | some row =>
    obtain ⟨key', parent'⟩ := row
    have hfound := List.find?_some hfind
    have hkey : key' = key := idOf_unique (of_decide_eq_true hfound) hid
    have hrow' := Dict.get?_eq_some_iff.mpr (List.mem_of_find?_eq_some hfind)
    rw [hkey, hrow] at hrow'
    cases hrow'
    rfl

theorem parentOf_setParents_other {id : ℕ}
    (h : ∀ key, (rows.get? key).isSome → idOf table key ≠ some id) :
    parentOf (setParents table rows) id = parentOf table id := by
  rw [parentOf, setParents, Dict.get?_mapItems, parentOf]
  cases table.get? id with
  | none => rfl
  | some department =>
    cases hfind : rows.items.find? fun row => idOf table row.1 = some id with
    | none => rfl
    | some row =>
      have hrow := Dict.get?_eq_some_iff.mpr (List.mem_of_find?_eq_some hfind)
      have hfound := List.find?_some hfind
      exact absurd (of_decide_eq_true hfound)
        (h row.1 (Option.isSome_iff_exists.mpr ⟨_, hrow⟩))

theorem parentIn_some {parent : Option String} {id : ℕ}
    (h : parentIn table rows parent = some id) :
    ∃ key, parent = some key ∧ (rows.get? key).isSome ∧ idOf table key = some id := by
  obtain ⟨key, hkey, hid⟩ := Option.bind_eq_some_iff.mp h
  split at hid
  · next hrow => exact ⟨key, hkey, hrow, hid⟩
  · cases hid

/-- With every key in the table, the walks end after the second loop exactly when the keys can be
numbered from the top. -/
theorem ends_setParents_iff (ends : Ends table)
    (hkeys : ∀ key, (rows.get? key).isSome → (idOf table key).isSome) :
    Ends (setParents table rows) ↔ ∃ rank : String → ℕ, ∀ key parent,
      rows.get? key = some (some parent) → (rows.get? parent).isSome →
        rank parent < rank key := by
  rw [ends_iff] at ends ⊢
  constructor
  · rintro ⟨depth, falls⟩
    refine ⟨fun key => (idOf table key).elim 0 depth, fun key parent hrow hparent => ?_⟩
    obtain ⟨id, hid⟩ := Option.isSome_iff_exists.mp
      (hkeys key (Option.isSome_iff_exists.mpr ⟨_, hrow⟩))
    obtain ⟨above, habove⟩ := Option.isSome_iff_exists.mp (hkeys parent hparent)
    simp only [hid, habove, Option.elim_some]
    refine falls id above ?_
    rw [parentOf_setParents_row hrow hid, parentIn, Option.bind_some, if_pos hparent, habove]
  · rintro ⟨rank, hrank⟩
    obtain ⟨depth, falls⟩ := ends
    classical
    let keyOf (id : ℕ) := ((table.get? id).bind (·.externalId)).getD ""
    have hkeyOf : ∀ {key id}, idOf table key = some id → keyOf id = key := by
      intro key id hid
      obtain ⟨department, hget, hkey⟩ := idOf_some hid
      simp only [keyOf, hget, Option.bind_some, hkey, Option.getD_some]
    let Reported (id : ℕ) := ∃ key, (rows.get? key).isSome ∧ idOf table key = some id
    -- What the report leaves out is put below all that it names.
    let bottom := (rows.keys.map rank).sum + 1
    have hbottom : ∀ key, (rows.get? key).isSome → rank key < bottom := by
      intro key hkey
      obtain ⟨parent, hrow⟩ := Option.isSome_iff_exists.mp hkey
      have hmem : key ∈ rows.keys :=
        List.mem_map.mpr ⟨(key, parent), Dict.get?_eq_some_iff.mp hrow, rfl⟩
      exact Nat.lt_succ_of_le (List.single_le_sum (fun _ _ => Nat.zero_le _) _
        (List.mem_map_of_mem hmem))
    refine ⟨fun id => if Reported id then rank (keyOf id) else depth id + bottom,
      fun child parent hedge => ?_⟩
    by_cases hchild : Reported child
    · obtain ⟨key, hrow, hid⟩ := hchild
      obtain ⟨above, hrow'⟩ := Option.isSome_iff_exists.mp hrow
      rw [parentOf_setParents_row hrow' hid] at hedge
      obtain ⟨key', rfl, hparent, hid'⟩ := parentIn_some hedge
      simp only [if_pos (show Reported child from ⟨key, hrow, hid⟩),
        if_pos (show Reported parent from ⟨key', hparent, hid'⟩), hkeyOf hid, hkeyOf hid']
      exact hrank key key' hrow' hparent
    · rw [parentOf_setParents_other fun key hkey hid => hchild ⟨key, hkey, hid⟩] at hedge
      have hfall := falls child parent hedge
      simp only [if_neg hchild]
      by_cases hparent : Reported parent
      · obtain ⟨key, hrow, hid⟩ := id hparent
        have := hbottom key hrow
        simp only [if_pos hparent, hkeyOf hid]
        omega
      · simp only [if_neg hparent]
        omega

/-- Each key of the report is in the table after the first loop. -/
theorem isSome_idOf_add (hnodup : ((missing table rows).map newId).Nodup)
    (hnew : ∀ key ∈ missing table rows, (table.get? (newId key)).isNone) {key : String}
    (hkey : (rows.get? key).isSome) : (idOf (addMissing table newId rows) key).isSome := by
  cases hid : idOf table key with
  | none =>
    obtain ⟨parent, hrow⟩ := Option.isSome_iff_exists.mp hkey
    have hmem : key ∈ missing table rows := by
      refine List.mem_filter.mpr ⟨?_, by rw [hid]; rfl⟩
      exact List.mem_map.mpr ⟨(key, parent), Dict.get?_eq_some_iff.mp hrow, rfl⟩
    exact isSome_idOf ((get?_add _ hnodup (newId key)).1 key hmem rfl) rfl
  | some id =>
    obtain ⟨department, hget, hkey⟩ := idOf_some hid
    have hid' : id ∉ (missing table rows).map newId := by
      intro hmem
      obtain ⟨other, hother, rfl⟩ := List.mem_map.mp hmem
      have := hnew other hother
      rw [hget] at this
      cases this
    have hkept : (addMissing table newId rows).get? id = some department :=
      ((get?_add _ hnodup id).2 hid').trans hget
    exact isSome_idOf hkept hkey

theorem parentOf_add (hnodup : ((missing table rows).map newId).Nodup) {id parent : ℕ}
    (hedge : parentOf (addMissing table newId rows) id = some parent) :
    parentOf table id = some parent := by
  rw [parentOf] at hedge
  by_cases hmem : id ∈ (missing table rows).map newId
  · obtain ⟨key, hkey, rfl⟩ := List.mem_map.mp hmem
    rw [addMissing, (get?_add _ hnodup _).1 key hkey rfl] at hedge
    cases hedge
  · rw [addMissing, (get?_add _ hnodup id).2 hmem] at hedge
    exact hedge

theorem ends_upsert_iff (ends : Ends table) :
    Ends (upsertDepartments table newId rows) ↔ Sound (.sync newId rows) table := by
  by_cases hsame : upsertDepartments table newId rows = table
  · exact iff_of_true (by rw [hsame]; exact ends) fun h => absurd hsame h
  · have hopen : ((missing table rows).map newId).Nodup ∧
        ∀ key ∈ missing table rows, (table.get? (newId key)).isNone := by
      by_contra hopen
      exact hsame (if_neg hopen)
    refine Iff.trans ?_ (forall_prop_of_true hsame).symm
    rw [upsertDepartments, if_pos hopen]
    refine ends_setParents_iff ?_ fun key => isSome_idOf_add hopen.1 hopen.2
    obtain ⟨depth, falls⟩ := ends_iff.mp ends
    exact ends_iff.mpr ⟨depth, fun id parent hedge => falls id parent (parentOf_add hopen.1 hedge)⟩

theorem stored_upsert (stored : Stored table) :
    Stored (upsertDepartments table newId rows) := by
  unfold upsertDepartments
  split
  · next hopen =>
    intro id parent hedge
    rw [setParents, Dict.get?_mapItems, Option.isSome_map]
    by_cases hrow : ∃ key, (rows.get? key).isSome ∧
        idOf (addMissing table newId rows) key = some id
    · obtain ⟨key, hrow, hid⟩ := hrow
      obtain ⟨above, hrow⟩ := Option.isSome_iff_exists.mp hrow
      rw [parentOf_setParents_row hrow hid] at hedge
      obtain ⟨key', -, -, hid'⟩ := parentIn_some hedge
      obtain ⟨department, hget, -⟩ := idOf_some hid'
      rw [hget]
      rfl
    · rw [parentOf_setParents_other fun key hkey hid => hrow ⟨key, hkey, hid⟩] at hedge
      have hparent := stored id parent (parentOf_add hopen.1 hedge)
      rw [addMissing, (get?_add _ hopen.1 parent).2]
      · exact hparent
      · intro hmem
        obtain ⟨other, hother, rfl⟩ := List.mem_map.mp hmem
        rw [Option.isNone_iff_eq_none.mp (hopen.2 other hother)] at hparent
        cases hparent
  · exact stored

end Report
/-! ## The tree after a report -/

section Mirror

variable {table : Table} {newId : String → ℕ} {rows : Dict String (Option String)}

@[simp] theorem idOf_setParents (key : String) :
    idOf (setParents table rows) key = idOf table key := by
  unfold idOf setParents Dict.mapItems
  rw [List.filterMap_map]
  congr 3
  funext ⟨id, department⟩
  simp only [Function.comp]
  split <;> rfl

/-- The second loop finds its own parents again. -/
theorem setParents_setParents : setParents (setParents table rows) rows = setParents table rows := by
  have parents : parentIn (setParents table rows) rows = parentIn table rows := by
    funext parent
    simp only [parentIn, idOf_setParents]
  rw [setParents, parents]
  simp only [idOf_setParents]
  unfold setParents Dict.mapItems
  simp only [List.map_map, Dict.mk.injEq]
  refine List.map_congr_left fun item _ => ?_
  simp only [Function.comp]
  split <;> simp_all

theorem upsertDepartments_of_known (h : ∀ key, (rows.get? key).isSome → (idOf table key).isSome) :
    upsertDepartments table newId rows = setParents table rows := by
  have none : missing table rows = [] := by
    refine List.filter_eq_nil_iff.mpr fun key hkey => ?_
    obtain ⟨row, hrow, rfl⟩ := List.mem_map.mp hkey
    rw [Option.isNone_iff_eq_none, ← Ne, Option.ne_none_iff_isSome]
    exact h _ (Option.isSome_iff_exists.mpr ⟨_, Dict.get?_eq_some_iff.mpr hrow⟩)
  simp [upsertDepartments, addMissing, none]

/-- **A report is mirrored**, where its new departments get free ids: each department that it names
stands below the parent that it names, the others stay below theirs, and the same report changes
nothing any more. -/
theorem upsertDepartments_mirrors (hnodup : ((missing table rows).map newId).Nodup)
    (hnew : ∀ key ∈ missing table rows, (table.get? (newId key)).isNone) (nextId : String → ℕ) :
    let after := upsertDepartments table newId rows
    (∀ key parent, rows.get? key = some parent → ∃ id, idOf after key = some id ∧
      parentOf after id = parentIn after rows parent) ∧
    (∀ id, (∀ key, (rows.get? key).isSome → idOf after key ≠ some id) →
      parentOf after id = parentOf table id) ∧
    upsertDepartments after nextId rows = after := by
  have known := fun key => @isSome_idOf_add table newId rows hnodup hnew key
  simp only [upsertDepartments.eq_def table, if_pos (And.intro hnodup hnew), idOf_setParents]
  refine ⟨fun key parent hrow => ?_, fun id hother => ?_, ?_⟩
  · obtain ⟨id, hid⟩ := Option.isSome_iff_exists.mp
      (known key (Option.isSome_iff_exists.mpr ⟨_, hrow⟩))
    refine ⟨id, hid, ?_⟩
    simp only [parentOf_setParents_row hrow hid, parentIn, idOf_setParents]
  · rw [parentOf_setParents_other hother, parentOf, parentOf]
    by_cases hmem : id ∈ (missing table rows).map newId
    · obtain ⟨key, hkey, rfl⟩ := List.mem_map.mp hmem
      rw [addMissing, (get?_add _ hnodup _).1 key hkey rfl,
        Option.isNone_iff_eq_none.mp (hnew key hkey)]
      rfl
    · rw [addMissing, (get?_add _ hnodup id).2 hmem]
  · rw [upsertDepartments_of_known fun key hkey => by rw [idOf_setParents]; exact known key hkey,
      setParents_setParents]

theorem upsertDepartments_mirrors_below :
    upsertDepartments (upsertDepartments ∅ String.length (.ofList [("11", some "1"), ("1", none)]))
        String.length (.ofList [("11", some "1"), ("1", none)]) =
      upsertDepartments ∅ String.length (.ofList [("11", some "1"), ("1", none)]) :=
  (upsertDepartments_mirrors (by decide) (by decide) String.length).2.2

end Mirror

section Run

variable {table : Table}

theorem ends_step_iff (ends : Ends table) (stored : Stored table) (operation : Operation) :
    Ends (step table operation) ↔ Sound operation table := by
  cases operation with
  | create id parentId =>
    refine iff_of_true ?_ trivial
    change Ends (create table id parentId)
    unfold create
    split
    · exact ends
    · next hopen =>
      rw [Bool.or_eq_true, not_or, Bool.not_eq_true, Option.isSome_eq_false_iff,
        Option.isNone_iff_eq_none, Bool.not_eq_true', Bool.not_eq_false] at hopen
      refine (ends_set_iff ends id _).mpr fun parent hparent => ?_
      cases hparent
      exact not_above_new stored hopen.1 (admits_some hopen.2)
  | update id parentId =>
    change Ends (update table id parentId) ↔ _
    unfold update
    cases hget : table.get? id with
    | none =>
      refine iff_of_true ends fun hid => ?_
      rw [hget] at hid
      cases hid
    | some department =>
      have hid : (table.get? id).isSome := Option.isSome_iff_exists.mpr ⟨_, hget⟩
      by_cases hadmits : admits table parentId = true
      · simp only [if_pos hadmits]
        rw [ends_set_iff ends]
        exact ⟨fun h _ _ => h, fun h => h hid hadmits⟩
      · simp only [if_neg hadmits]
        exact iff_of_true ends fun _ h => absurd h hadmits
  | sync newId rows => exact ends_upsert_iff ends

theorem stored_step (stored : Stored table) (operation : Operation) :
    Stored (step table operation) := by
  cases operation with
  | create id parentId =>
    change Stored (create table id parentId)
    unfold create
    split
    · exact stored
    · next hopen =>
      rw [Bool.or_eq_true, not_or, Bool.not_eq_true', Bool.not_eq_false] at hopen
      exact stored_set stored id hopen.2
  | update id parentId =>
    change Stored (update table id parentId)
    unfold update
    split
    · exact stored
    · split
      · next hadmits => exact stored_set stored id hadmits
      · exact stored
  | sync newId rows => exact stored_upsert stored

theorem guarded_stored (operations : List Operation) (stored : Stored table) :
    Guarded step (fun _ => Stored) operations table := by
  induction operations generalizing table with
  | nil => exact trivial
  | cons operation rest ih => exact ⟨stored, ih (stored_step stored operation)⟩

theorem ends_throughout_iff (operations : List Operation) :
    (∀ front, front <+: operations → Ends (front.foldl step ∅)) ↔
      Guarded step Sound operations ∅ := by
  refine Guarded.throughout_iff (fun operation table ends stored =>
    ends_step_iff ends stored operation) ?_ (guarded_stored operations ?_)
  · exact ends_iff.mpr ⟨fun _ => 0, fun _ _ hedge => by cases hedge⟩
  · intro id parent hedge
    cases hedge

end Run

theorem own_parent_hangs :
    ¬ ∀ operations front : List Operation, front <+: operations → Ends (front.foldl step ∅) := by
  intro h
  have ends := h [.create 1 none, .update 1 (some 1)] _ List.prefix_rfl
  obtain ⟨depth, falls⟩ := ends_iff.mp ends
  exact (falls 1 1 rfl).false

end AgentBack.Departments
