import AgentBack.Base.Dict

/-!
# Departments (`services/user_service.py`, `services/department_sync_service.py`)

The table of departments with the operations that write a parent, and the walk up the tree by which
`services/knowledge_base_access_service.py` finds what a user may see. A key that is taken or a parent
that does not exist fails the transaction and changes nothing.
-/

namespace AgentBack.Departments

/-- `Department`, as far as the tree goes. The external id is that of a department of 1C. -/
structure Department where
  externalId : Option String
  parentId : Option ℕ

abbrev Table := Dict ℕ Department

variable (table : Table)

/-- The foreign key of `parent_id`. -/
def admits : Option ℕ → Bool
  | none => true
  | some parent => (table.get? parent).isSome

/-- `DepartmentService.create`, with the id that the row gets. -/
def create (id : ℕ) (parentId : Option ℕ) : Table :=
  if (table.get? id).isSome || !admits table parentId then table
  else table.set id ⟨none, parentId⟩

/-- `DepartmentService.update` with a `parent_id`. -/
def update (id : ℕ) (parentId : Option ℕ) : Table :=
  match table.get? id with
  | none => table
  | some department =>
    if admits table parentId then table.set id { department with parentId := parentId } else table

/-- `existing_by_external_id.get(external_id)`. -/
def idOf (externalId : String) : Option ℕ :=
  (Dict.ofList (table.items.filterMap fun (id, department) =>
    department.externalId.map fun key => (key, id))).get? externalId

/-- The departments of the report that are not in the table yet. -/
def missing (rows : Dict String (Option String)) : List String :=
  rows.keys.filter fun externalId => (idOf table externalId).isNone

/-- The first loop of `_upsert_departments`. -/
def addMissing (newId : String → ℕ) (rows : Dict String (Option String)) : Table :=
  (missing table rows).foldl (fun table externalId =>
    table.set (newId externalId) ⟨some externalId, none⟩) table

/-- `by_external_id.get(parent_external_id)`. -/
def parentIn (rows : Dict String (Option String)) (parent : Option String) :
    Option ℕ :=
  parent.bind fun key => if (rows.get? key).isSome then idOf table key else none

/-- The second loop of `_upsert_departments`: each department of the report gets its parent. -/
def setParents (rows : Dict String (Option String)) : Table :=
  table.mapItems fun id department =>
    match rows.items.find? fun row => idOf table row.1 = some id with
    | some row => { department with parentId := parentIn table rows row.2 }
    | none => department

/-- `_upsert_departments` on the keys and parent keys of a report (`none` for a missing or empty
one), with the ids that new rows get. -/
def upsertDepartments (newId : String → ℕ) (rows : Dict String (Option String)) :
    Table :=
  if ((missing table rows).map newId).Nodup ∧
      ∀ externalId ∈ missing table rows, (table.get? (newId externalId)).isNone then
    setParents (addMissing table newId rows) rows
  else table

inductive Operation where
  | create (id : ℕ) (parentId : Option ℕ)
  | update (id : ℕ) (parentId : Option ℕ)
  | sync (newId : String → ℕ) (rows : Dict String (Option String))

def step : Operation → Table
  | .create id parentId => create table id parentId
  | .update id parentId => update table id parentId
  | .sync newId rows => upsertDepartments table newId rows

/-- `parents.get(current)`. -/
def parentOf (current : ℕ) : Option ℕ :=
  (table.get? current).bind (·.parentId)

/-- The loop of `_department_scope`, without a result when it goes on for longer. -/
def departmentScope (table : Table) : ℕ → ℕ → Option (List ℕ)
  | 0, _ => none
  | passes + 1, current =>
    match parentOf table current with
    | some parent => (departmentScope table passes parent).map (current :: ·)
    | none => some [current]

end AgentBack.Departments
