import AgentBack.Knowledge.SyncSchedule

/-!
# The schedule of the employees

The employees may be synchronised once a day, and the departments once a week. A call for the
employees is refused by the departments' row too, so the employees keep to their own schedule in
exactly the runs in which no call that their own row lets through comes within a week of the last
synchronisation of the departments (`guarded_obeys_iff`). The departments keep to their week in every
run (`weekly_run`).
-/

namespace AgentBack.SyncSchedule

/-- The call ends with a cooldown error, of either service. -/
def Refused : Except SyncError ℕ → Prop
  | .error (.failure _) => False
  | .error _ => True
  | .ok _ => False

def IntegrationSyncState.times (state : IntegrationSyncState) : Option ℤ × Option ℤ :=
  (state.lastSyncedAt, state.nextAllowedAt)

/-- **The employees obey their own schedule**: a call that is not forced is refused exactly when their
own time has not come. A call that raises moves no time of its own row. -/
def Obeys : Call → Tables → Prop
  | .departments call rollsBack, tables =>
    (∃ error, (syncDepartments tables call).1 = .error error) →
      (step tables (.departments call rollsBack)).departments.times = tables.departments.times
  | .employees call rollsBack, tables =>
    (call.force = false → (Refused (syncEmployees tables call).1 ↔
      ∃ nextAllowedAt, tables.employees.nextAllowedAt = some nextAllowedAt ∧
        call.now < nextAllowedAt)) ∧
    ((∃ error, (syncEmployees tables call).1 = .error error) →
      (step tables (.employees call rollsBack)).employees.times = tables.employees.times)

/-- **A week has passed** since the departments were synchronised, when a call that is not forced gets
to them. -/
def Spaced : Call → Tables → Prop
  | .departments _ _, _ => True
  | .employees call _, tables => call.force = false → call.syncDepartments = true →
      (∀ nextAllowedAt, tables.employees.nextAllowedAt = some nextAllowedAt →
        nextAllowedAt ≤ call.now) →
      ∀ lastSyncedAt, tables.departments.lastSyncedAt = some lastSyncedAt →
        lastSyncedAt + departmentCooldown ≤ call.departmentsNow

/-- The departments may be synchronised a week after they were. -/
def Paced (tables : Tables) : Prop :=
  tables.departments.nextAllowedAt = tables.departments.lastSyncedAt.map (· + departmentCooldown)

/-! ## One call -/

section Step

variable {tables : Tables}

theorem isSome_refuses_iff {state : IntegrationSyncState} {now : ℤ} {force : Bool} :
    (state.refuses now force).isSome ↔
      force = false ∧ ∃ nextAllowedAt, state.nextAllowedAt = some nextAllowedAt ∧
        now < nextAllowedAt := by
  unfold IntegrationSyncState.refuses
  cases force
  · cases state.nextAllowedAt <;> simp [Option.filter]
  · simp

/-- Only a call that goes through moves the times. -/
theorem times_finish (state : IntegrationSyncState) (now cooldown : ℤ)
    {result : Except SyncError ℕ} (h : ∃ error, result = .error error) :
    (state.finish now cooldown result).times = state.times := by
  obtain ⟨error, rfl⟩ := h
  rfl

theorem not_refused_mapError (rows : Except String ℕ) : ¬ Refused (rows.mapError .failure) := by
  cases rows <;> exact id

theorem refused_syncDepartments_iff (call : DepartmentCall) :
    Refused (syncDepartments tables call).1 ↔
      (tables.departments.refuses call.now call.force).isSome := by
  unfold syncDepartments
  cases tables.departments.refuses call.now call.force with
  | some nextAllowedAt => exact iff_of_true trivial rfl
  | none => exact iff_of_false (not_refused_mapError _) Bool.false_ne_true

theorem refused_syncEmployees_iff (call : EmployeeCall) :
    Refused (syncEmployees tables call).1 ↔
      (tables.employees.refuses call.now call.force).isSome ∨ call.syncDepartments = true ∧
        (tables.departments.refuses call.departmentsNow call.force).isSome := by
  unfold syncEmployees
  cases tables.employees.refuses call.now call.force with
  | some nextAllowedAt => exact iff_of_true trivial (.inl rfl)
  | none =>
    cases call.syncDepartments with
    | false => exact iff_of_false (not_refused_mapError _) (by simp)
    | true =>
      have inner : Refused (syncDepartments tables _).1 ↔ _ := refused_syncDepartments_iff
        ⟨call.departmentsNow, call.force, call.departments⟩
      simp only [if_true, Option.isSome_none, Bool.false_eq_true, false_or, true_and]
      rw [← inner]
      cases (syncDepartments tables ⟨call.departmentsNow, call.force, call.departments⟩).1 with
      | ok count => exact iff_of_false (not_refused_mapError _) id
      | error error => exact Iff.rfl

theorem times_settle {rollsBack : Bool} {outcome : Except SyncError ℕ × Tables}
    (row : Tables → IntegrationSyncState) (h : (row outcome.2).times = (row tables).times)
    (hraises : ∃ error, outcome.1 = .error error) :
    (row (settle tables rollsBack outcome)).times = (row tables).times := by
  obtain ⟨result, after⟩ := outcome
  obtain ⟨error, rfl⟩ := hraises
  cases rollsBack
  · exact h
  · rfl

theorem times_syncDepartments (call : DepartmentCall)
    (h : ∃ error, (syncDepartments tables call).1 = .error error) :
    (syncDepartments tables call).2.departments.times = tables.departments.times := by
  unfold syncDepartments at h ⊢
  split at h
  · rfl
  · exact times_finish _ _ _ h

theorem times_syncEmployees (call : EmployeeCall)
    (h : ∃ error, (syncEmployees tables call).1 = .error error) :
    (syncEmployees tables call).2.employees.times = tables.employees.times := by
  have inner : ∀ call, (syncDepartments tables call).2.employees = tables.employees := by
    intro call
    unfold syncDepartments
    split <;> rfl
  unfold syncEmployees at h ⊢
  split at h
  · rfl
  · refine (times_finish _ _ _ h).trans (congrArg IntegrationSyncState.times ?_)
    split
    · exact inner _
    · rfl

variable (paced : Paced tables)
include paced

theorem obeys_iff (call : Call) : Obeys call tables ↔ Spaced call tables := by
  cases call with
  | departments call rollsBack =>
    refine iff_of_true (fun h => ?_) trivial
    exact times_settle Tables.departments (times_syncDepartments call h) h
  | employees call rollsBack =>
    refine (and_iff_left fun h => times_settle Tables.employees (times_syncEmployees call h) h).trans ?_
    rw [refused_syncEmployees_iff, isSome_refuses_iff, isSome_refuses_iff, paced]
    simp only [Spaced, Option.map_eq_some_iff]
    grind

theorem paced_syncDepartments (call : DepartmentCall) :
    Paced (syncDepartments tables call).2 := by
  unfold syncDepartments
  split
  · exact paced
  · cases call.rows with
    | ok count => rfl
    | error message => exact paced

theorem paced_syncEmployees (call : EmployeeCall) :
    Paced (syncEmployees tables call).2 := by
  unfold syncEmployees
  split
  · exact paced
  · cases call.syncDepartments with
    | false => exact paced
    | true => exact paced_syncDepartments paced ⟨call.departmentsNow, call.force, call.departments⟩

theorem paced_settle (rollsBack : Bool) {outcome : Except SyncError ℕ × Tables}
    (h : Paced outcome.2) :
    Paced (settle tables rollsBack outcome) := by
  unfold settle
  split
  · exact h
  · split
    · exact paced
    · exact h

theorem paced_step (call : Call) : Paced (step tables call) := by
  cases call with
  | departments call rollsBack => exact paced_settle paced _ (paced_syncDepartments paced call)
  | employees call rollsBack => exact paced_settle paced _ (paced_syncEmployees paced call)

end Step

theorem paced_new : Paced .new := rfl

theorem guarded_obeys_iff (calls : List Call) {tables : Tables} (paced : Paced tables) :
    Guarded step Obeys calls tables ↔ Guarded step Spaced calls tables := by
  induction calls generalizing tables with
  | nil => exact Iff.rfl
  | cons call rest ih => exact and_congr (obeys_iff paced call) (ih (paced_step paced call))

/-- **The employees obey their own schedule exactly when their calls are a week apart from the last
synchronisation of the departments.** -/
theorem schedule_iff (calls : List Call) :
    Guarded step Obeys calls .new ↔ Guarded step Spaced calls .new :=
  guarded_obeys_iff calls paced_new

/-- **The departments are left alone for a week.** When a call that is not forced gets through to
them, by either service, the last synchronisation is a week ago. -/
def Weekly : Call → Tables → Prop
  | .departments call _, tables => call.force = false → ¬ Refused (syncDepartments tables call).1 →
      ∀ lastSyncedAt, tables.departments.lastSyncedAt = some lastSyncedAt →
        lastSyncedAt + departmentCooldown ≤ call.now
  | .employees call _, tables => call.force = false → call.syncDepartments = true →
      ¬ Refused (syncEmployees tables call).1 →
        ∀ lastSyncedAt, tables.departments.lastSyncedAt = some lastSyncedAt →
          lastSyncedAt + departmentCooldown ≤ call.departmentsNow

theorem weekly_of_paced {tables : Tables} (paced : Paced tables) (call : Call) :
    Weekly call tables := by
  have waits : ∀ {now}, ¬ (tables.departments.refuses now false).isSome → ∀ lastSyncedAt,
      tables.departments.lastSyncedAt = some lastSyncedAt →
        lastSyncedAt + departmentCooldown ≤ now := by
    intro now passes lastSyncedAt last
    by_contra early
    refine passes (isSome_refuses_iff.mpr ⟨rfl, _, ?_, Int.not_le.mp early⟩)
    rw [paced, last]
    rfl
  cases call with
  | departments call rollsBack =>
    intro unforced through
    rw [refused_syncDepartments_iff, unforced] at through
    exact waits through
  | employees call rollsBack =>
    intro unforced inside through
    rw [refused_syncEmployees_iff, unforced] at through
    exact waits fun refused => through (.inr ⟨inside, refused⟩)

theorem weekly_run (calls : List Call) : Guarded step Weekly calls .new := by
  suffices ∀ tables, Paced tables → Guarded step Weekly calls tables from this .new paced_new
  induction calls with
  | nil => exact fun _ _ => trivial
  | cons call rest ih =>
    exact fun tables paced => ⟨weekly_of_paced paced call, ih _ (paced_step paced call)⟩

theorem next_day_refused : ¬ ∀ calls : List Call, Guarded step Obeys calls .new := by
  intro h
  let call (now : ℤ) := Call.employees ⟨now, false, true, now, .ok 1, .ok 1⟩ true
  have spaced := ((guarded_obeys_iff _ paced_new).mp (h [call 0, call (days 1)])).2.1
  have own : ∀ nextAllowedAt, some (0 + employeeCooldown) = some nextAllowedAt →
      nextAllowedAt ≤ days 1 := fun _ same => (Option.some.inj same) ▸ by decide
  exact absurd (spaced rfl rfl own 0 rfl) (by decide)

end AgentBack.SyncSchedule
