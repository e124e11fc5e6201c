import AgentBack.Base.Guarded
import Mathlib.Data.Int.Notation

/-!
# Synchronisation with 1C (`services/employee_sync_service.py`, `services/department_sync_service.py`)

Each service has a row that says when it may be called again. The synchronisation of the employees
synchronises the departments first, inside its own `try`, and what that raises it raises.
-/

namespace AgentBack.SyncSchedule

inductive SyncStatus where
  | never | success | failed

/-- `IntegrationSyncState`, with times in microseconds. The status `running` is overwritten before a
call ends. -/
structure IntegrationSyncState where
  lastSyncedAt : Option ℤ
  nextAllowedAt : Option ℤ
  status : SyncStatus
  itemsCount : ℕ
  errorMessage : Option String

structure Tables where
  departments : IntegrationSyncState
  employees : IntegrationSyncState

/-- The rows that `status` adds. -/
def Tables.new : Tables := ⟨⟨none, none, .never, 0, none⟩, ⟨none, none, .never, 0, none⟩⟩

inductive SyncError where
  | departmentCooldown (nextAllowedAt : ℤ)
  | employeeCooldown (nextAllowedAt : ℤ)
  | failure (message : String)

/-- `str(exc)`. -/
def SyncError.text : SyncError → String
  | .departmentCooldown _ => "Обновлять базу подразделений можно не чаще одного раза в неделю"
  | .employeeCooldown _ => "Обновлять сотрудников из 1С можно не чаще одного раза в сутки"
  | .failure message => message

def days (n : ℤ) : ℤ := n * (24 * 60 * 60 * 1000000)

/-- `COOLDOWN` of `DepartmentSyncService`. -/
def departmentCooldown : ℤ := days 7

/-- `COOLDOWN` of `EmployeeSyncService`. -/
def employeeCooldown : ℤ := days 1

/-- `next_allowed_at`, when a call that is not forced is refused. -/
def IntegrationSyncState.refuses (state : IntegrationSyncState) (now : ℤ) (force : Bool) :
    Option ℤ :=
  if force then none else state.nextAllowedAt.filter (now < ·)

/-- The row after the `try`: the count of what was synchronised, or what was raised. -/
def IntegrationSyncState.finish (state : IntegrationSyncState) (now cooldown : ℤ) :
    Except SyncError ℕ → IntegrationSyncState
  | .ok count => ⟨some now, some (now + cooldown), .success, count, none⟩
  | .error error => { state with status := .failed, errorMessage := some error.text }

/-- A call of `DepartmentSyncService.sync_from_1c`, with what becomes of the rows of 1C: how many were
synchronised, or the error. -/
structure DepartmentCall where
  now : ℤ
  force : Bool
  rows : Except String ℕ

/-- A call of `EmployeeSyncService.sync_from_1c`. The clock is read again for the departments. -/
structure EmployeeCall where
  now : ℤ
  force : Bool
  syncDepartments : Bool
  departmentsNow : ℤ
  departments : Except String ℕ
  rows : Except String ℕ

/-- `DepartmentSyncService.sync_from_1c`. -/
def syncDepartments (tables : Tables) (call : DepartmentCall) : Except SyncError ℕ × Tables :=
  match tables.departments.refuses call.now call.force with
  | some nextAllowedAt => (.error (.departmentCooldown nextAllowedAt), tables)
  | none =>
    let result := call.rows.mapError .failure
    (result, { tables with
      departments := tables.departments.finish call.now departmentCooldown result })

/-- `EmployeeSyncService.sync_from_1c`. -/
def syncEmployees (tables : Tables) (call : EmployeeCall) : Except SyncError ℕ × Tables :=
  match tables.employees.refuses call.now call.force with
  | some nextAllowedAt => (.error (.employeeCooldown nextAllowedAt), tables)
  | none =>
    let (departments, tables) :=
      if call.syncDepartments then
        syncDepartments tables ⟨call.departmentsNow, call.force, call.departments⟩
      else (.ok 0, tables)
    let result := departments.bind fun _ => call.rows.mapError .failure
    (result, { tables with
      employees := tables.employees.finish call.now employeeCooldown result })

/-- A call, and whether its caller rolls back when it raises. -/
inductive Call where
  | departments (call : DepartmentCall) (rollsBack : Bool)
  | employees (call : EmployeeCall) (rollsBack : Bool)

def settle (tables : Tables) (rollsBack : Bool) : Except SyncError ℕ × Tables → Tables
  | (.ok _, after) => after
  | (.error _, after) => if rollsBack then tables else after

def step (tables : Tables) : Call → Tables
  | .departments call rollsBack => settle tables rollsBack (syncDepartments tables call)
  | .employees call rollsBack => settle tables rollsBack (syncEmployees tables call)

end AgentBack.SyncSchedule
