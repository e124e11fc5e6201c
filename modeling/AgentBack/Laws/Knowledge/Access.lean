import AgentBack.Knowledge.Access

/-!
# Denials win and grants add up

What an exception denies is refused, whatever else the user is granted; more grants never take
access away, and more denials never give any; and the role of the user's own row counts as the roles
of `user_roles` do. The check takes the denied types out of the granted ones one by one and compares
ranks afterwards, so that a stronger grant passes over a denial, and it does not read the role of
the user's row. `accessLaw_iff` says for which inputs the law holds all the same.
-/

namespace AgentBack.Knowledge

variable (db : Db) (now : Moment) (user : User) (knowledgeBase : KnowledgeBase) (demand : Demand)

def DepartmentTree.Above (tree : DepartmentTree) : Nat → Nat → Prop :=
  Relation.ReflTransGen fun child parent => tree.parentOf child = some parent

inductive GrantCovers (roleIds : List Nat) (grant : Grant) : Prop
  | user (htype : grant.granteeType = .user) (hid : grant.granteeId = some user.id)
  | organization (htype : grant.granteeType = .organization)
  | department (htype : grant.granteeType = .department) (hid : grant.granteeId = user.departmentId)
  | childDepartment (own above : Nat) (htype : grant.granteeType = .department)
      (hchildren : grant.includeChildDepartments = true) (hown : user.departmentId = some own)
      (habove : db.departments.Above own above) (hid : grant.granteeId = some above)
  | role (roleId : Nat) (htype : grant.granteeType = .role) (hid : grant.granteeId = some roleId)
      (hrole : roleId ∈ roleIds)

inductive ExceptionConcerns (roleIds : List Nat) (exception : AccessException) : Prop
  | user (htype : exception.granteeType = .user) (hid : exception.granteeId = user.id)
  | organization (htype : exception.granteeType = .organization)
  | department (htype : exception.granteeType = .department)
      (hid : user.departmentId = some exception.granteeId)
  | role (htype : exception.granteeType = .role) (hrole : exception.granteeId ∈ roleIds)

/-- An exception that has not expired denies the user the access. -/
def Forbidden (roleIds : List Nat) (access : AccessType) : Prop :=
  ∃ exception ∈ activeExceptions db now knowledgeBase.id,
    exception.isDeny = true ∧ ExceptionConcerns user roleIds exception ∧ exception.accessType = access

/-- **Denials win, access is monotone, and roles count alike.** -/
structure AccessLaw : Prop where
  denialsWin : Forbidden db now user knowledgeBase (userRoleIdsQuery db user) demand.requiredAccess →
    (canAccessKnowledgeBase db now user knowledgeBase demand).allowed = false
  monotone : ∀ grants exceptions, grants ⊆ db.grants → db.exceptions ⊆ exceptions →
    (canAccessKnowledgeBase { db with grants, exceptions } now user knowledgeBase demand).allowed
      = true →
    (canAccessKnowledgeBase db now user knowledgeBase demand).allowed = true
  rolesAlike : ∀ grants exceptions roleId, user.roleId = some roleId →
    canAccessKnowledgeBase { db with grants, exceptions } now user knowledgeBase demand =
      canAccessKnowledgeBase
        { db with grants, exceptions, userRoles := (user.id, roleId) :: db.userRoles }
        now user knowledgeBase demand

/-- The knowledge base is not open to the request. -/
def Closed : Prop :=
  (knowledgeBase.deletedAt.isSome ∨ knowledgeBase.status = .archived) ∨
    knowledgeBase.status ≠ .ready ∧ demand.allowNonReadyForAdmin = false

/-- The request is for an agent that may not use the knowledge base. -/
def AgentRefused : Prop :=
  ∃ agentId, demand.agentId = some agentId ∧
    (canAgentUseKnowledgeBase db now knowledgeBase agentId demand.requiredAgentMode).allowed = false

/-- What is denied is refused on other grounds too, or every grant that is strong enough is itself
denied, type by type, to the roles of `user_roles`. -/
def DenialsReach : Prop :=
  Forbidden db now user knowledgeBase (userRoleIdsQuery db user) demand.requiredAccess →
    Closed knowledgeBase demand ∨ AgentRefused db now knowledgeBase demand ∨
      ∀ grant ∈ activeGrants db now knowledgeBase.id,
        GrantCovers db user (userRoleIds db user.id) grant →
        accessRank demand.requiredAccess ≤ accessRank grant.accessType →
        Forbidden db now user knowledgeBase (userRoleIds db user.id) grant.accessType

/-- The role of the user's row is in `user_roles` as well, where it matters. -/
def RoleRecorded : Prop :=
  Closed knowledgeBase demand ∨
    ∀ roleId, user.roleId = some roleId → roleId ∈ userRoleIds db user.id

section Departments

variable (tree : DepartmentTree)

theorem depth_parentOf {current parent : Nat} (h : tree.parentOf current = some parent) :
    tree.depth parent < tree.depth current := by
  have hget := Dict.mem_of_get?_ofList (Option.join_eq_some_iff.mp h)
  obtain ⟨row, hrow, hpair⟩ := List.mem_map.mp hget
  obtain ⟨rfl, hparent⟩ := Prod.mk.inj hpair
  exact tree.descends row hrow parent hparent

/-- The loop over the parents ends at the top, with all that lies above on its way. -/
theorem mem_climb {fuel current above : Nat} (hfuel : tree.depth current ≤ fuel) :
    above ∈ tree.climb fuel current ↔ tree.Above current above := by
  induction fuel generalizing current with
  | zero =>
    have htop : tree.parentOf current = none := by
      cases hparent : tree.parentOf current with
      | none => rfl
      | some parent =>
        have := depth_parentOf tree hparent
        omega
    unfold DepartmentTree.climb
    rw [List.mem_singleton]
    constructor
    · rintro rfl
      exact .refl
    · intro habove
      rcases habove.cases_head with rfl | ⟨parent, hparent, -⟩
      · rfl
      · rw [htop] at hparent
        cases hparent
  | succ fuel ih =>
    unfold DepartmentTree.climb
    rw [List.mem_cons]
    cases hparent : tree.parentOf current with
    | none =>
      constructor
      · rintro (rfl | habove)
        · exact .refl
        · cases habove
      · intro habove
        rcases habove.cases_head with rfl | ⟨parent, hedge, -⟩
        · exact .inl rfl
        · rw [hparent] at hedge
          cases hedge
    | some parent =>
      have hdepth := depth_parentOf tree hparent
      have hrest : above ∈ tree.climb fuel parent ↔ tree.Above parent above := ih (by omega)
      constructor
      · rintro (rfl | habove)
        · exact .refl
        · exact .head hparent (hrest.mp habove)
      · intro habove
        rcases habove.cases_head with rfl | ⟨next, hedge, hnext⟩
        · exact .inl rfl
        · rw [hparent] at hedge
          cases hedge
          exact .inr (hrest.mpr hnext)

end Departments

theorem matchesUser_exception {roleIds : List Nat} {exception : AccessException} :
    matchesUser user (departmentScope db user.departmentId) roleIds exception.item = true ↔
      ExceptionConcerns user roleIds exception := by
  unfold matchesUser AccessException.item
  constructor
  · intro h
    cases htype : exception.granteeType <;> simp only [htype] at h
    case user => exact .user htype (Option.some.inj (of_decide_eq_true h))
    case organization => exact .organization htype
    case department =>
      rw [Bool.false_and, Bool.or_false] at h
      exact .department htype (of_decide_eq_true h).symm
    case role => exact .role htype (List.contains_iff_mem.mp h)
    all_goals cases h
  · rintro (⟨htype, hid⟩ | ⟨htype⟩ | ⟨htype, hid⟩ | ⟨htype, hrole⟩)
    · simp only [htype, hid, decide_true]
    · simp only [htype]
    · simp only [htype, hid, decide_true, Bool.true_or]
    · simp only [htype]
      exact List.contains_iff_mem.mpr hrole

theorem matchesUser_grant {roleIds : List Nat} {grant : Grant} :
    matchesUser user (departmentScope db user.departmentId) roleIds grant.item = true ↔
      GrantCovers db user roleIds grant := by
  unfold matchesUser Grant.item
  constructor
  · intro h
    cases htype : grant.granteeType <;> simp only [htype] at h
    case user => exact .user htype (of_decide_eq_true h)
    case organization => exact .organization htype
    case department =>
      rcases Bool.or_eq_true_iff.mp h with hid | habove
      · exact .department htype (of_decide_eq_true hid)
      · obtain ⟨hchildren, hany⟩ := Bool.and_eq_true_iff.mp habove
        obtain ⟨above, hid, hcontains⟩ := (Option.any_eq_true _ _).mp hany
        have hmem := List.contains_iff_mem.mp hcontains
        cases hown : user.departmentId with
        | none =>
          rw [hown] at hmem
          cases hmem
        | some own =>
          rw [hown] at hmem
          exact .childDepartment own above htype hchildren hown
            ((mem_climb _ le_rfl).mp hmem) hid
    case role =>
      obtain ⟨roleId, hid, hcontains⟩ := (Option.any_eq_true _ _).mp h
      exact .role roleId htype hid (List.contains_iff_mem.mp hcontains)
    all_goals cases h
  · rintro (⟨htype, hid⟩ | ⟨htype⟩ | ⟨htype, hid⟩ |
      ⟨own, above, htype, hchildren, hown, habove, hid⟩ | ⟨roleId, htype, hid, hrole⟩)
    · simp only [htype, hid, decide_true]
    · simp only [htype]
    · simp only [htype, hid, decide_true, Bool.true_or]
    · have hmem : above ∈ departmentScope db user.departmentId := by
        rw [hown]
        exact (mem_climb _ le_rfl).mpr habove
      simp only [htype, hid, hchildren, Option.any_some, List.contains_iff_mem.mpr hmem,
        Bool.and_self, Bool.or_true]
    · simp only [htype, hid, Option.any_some, List.contains_iff_mem.mpr hrole]

/-- The denied types of access are those that an exception forbids to the roles of `user_roles`. -/
theorem mem_denied {access : AccessType} :
    access ∈ matchingAccessTypes db user
        ((activeExceptions db now knowledgeBase.id).map AccessException.item) true ↔
      Forbidden db now user knowledgeBase (userRoleIds db user.id) access := by
  unfold matchingAccessTypes Forbidden
  simp only [List.mem_map, List.mem_filter, Bool.true_and, Bool.and_eq_true, Bool.not_eq_true',
    Bool.not_eq_false']
  constructor
  · rintro ⟨_, ⟨⟨exception, hmem, rfl⟩, hdeny, hmatches⟩, rfl⟩
    exact ⟨exception, hmem, hdeny, (matchesUser_exception db user).mp hmatches, rfl⟩
  · rintro ⟨exception, hmem, hdeny, hconcerns, rfl⟩
    exact ⟨_, ⟨⟨exception, hmem, rfl⟩, hdeny, (matchesUser_exception db user).mpr hconcerns⟩, rfl⟩

/-- The granted types of access are those of the grants that cover the roles of `user_roles`. -/
theorem mem_granted {access : AccessType} :
    access ∈ matchingAccessTypes db user
        ((activeGrants db now knowledgeBase.id).map Grant.item) false ↔
      ∃ grant ∈ activeGrants db now knowledgeBase.id,
        GrantCovers db user (userRoleIds db user.id) grant ∧ grant.accessType = access := by
  unfold matchingAccessTypes
  simp only [List.mem_map, List.mem_filter, Bool.false_and, Bool.not_false, Bool.true_and]
  constructor
  · rintro ⟨_, ⟨⟨grant, hmem, rfl⟩, hmatches⟩, rfl⟩
    exact ⟨grant, hmem, (matchesUser_grant db user).mp hmatches, rfl⟩
  · rintro ⟨grant, hmem, hcovers, rfl⟩
    exact ⟨_, ⟨⟨grant, hmem, rfl⟩, (matchesUser_grant db user).mpr hcovers⟩, rfl⟩

def Granted (access : AccessType) : Prop :=
  ∃ grant ∈ activeGrants db now knowledgeBase.id,
    GrantCovers db user (userRoleIds db user.id) grant ∧
      accessRank access ≤ accessRank grant.accessType ∧
      ¬ Forbidden db now user knowledgeBase (userRoleIds db user.id) grant.accessType

theorem bestUserAccess_reaches {access : AccessType} :
    (∃ best, bestUserAccess db now user knowledgeBase.id = some best ∧
        accessRank access ≤ accessRank best) ↔
      Granted db now user knowledgeBase access := by
  unfold bestUserAccess
  dsimp only
  constructor
  · rintro ⟨best, hbest, hrank⟩
    obtain ⟨hgranted, hdenied⟩ := List.mem_filter.mp (List.argmax_mem (Option.mem_def.mpr hbest))
    obtain ⟨grant, hmem, hcovers, rfl⟩ := (mem_granted db now user knowledgeBase).mp hgranted
    refine ⟨grant, hmem, hcovers, hrank, fun hforbidden => ?_⟩
    exact of_decide_eq_true hdenied ((mem_denied db now user knowledgeBase).mpr hforbidden)
  · rintro ⟨grant, hmem, hcovers, hrank, hallowed⟩
    have hfree : grant.accessType ∉ matchingAccessTypes db user
        ((activeExceptions db now knowledgeBase.id).map AccessException.item) true :=
      fun hdenied => hallowed ((mem_denied db now user knowledgeBase).mp hdenied)
    have hgranted := (mem_granted db now user knowledgeBase).mpr ⟨grant, hmem, hcovers, rfl⟩
    have heffective : grant.accessType ∈ (matchingAccessTypes db user
        ((activeGrants db now knowledgeBase.id).map Grant.item) false).filter
          fun access => access ∉ matchingAccessTypes db user
            ((activeExceptions db now knowledgeBase.id).map AccessException.item) true :=
      List.mem_filter.mpr ⟨hgranted, decide_eq_true hfree⟩
    generalize List.filter _ _ = effective at heffective ⊢
    cases hbest : effective.argmax accessRank with
    | none => exact absurd (List.argmax_eq_none.mp hbest) (List.ne_nil_of_mem heffective)
    | some best => exact ⟨best, rfl, hrank.trans (List.le_of_mem_argmax heffective hbest)⟩

theorem canAccess_allowed_iff (hsuper : user.isSuperuser = false) :
    (canAccessKnowledgeBase db now user knowledgeBase demand).allowed = true ↔
      ¬ Closed knowledgeBase demand ∧ ¬ AgentRefused db now knowledgeBase demand ∧
        Granted db now user knowledgeBase demand.requiredAccess := by
  rw [← bestUserAccess_reaches]
  unfold canAccessKnowledgeBase Closed AgentRefused
  rw [hsuper, if_neg Bool.false_ne_true]
  by_cases harchived : knowledgeBase.deletedAt.isSome ∨ knowledgeBase.status = .archived
  · rw [if_pos harchived]
    exact ⟨(fun h => by cases h), fun h => absurd (.inl harchived) h.1⟩
  rw [if_neg harchived]
  by_cases hready : knowledgeBase.status ≠ .ready ∧ demand.allowNonReadyForAdmin = false
  · rw [if_pos hready]
    exact ⟨(fun h => by cases h), fun h => absurd (.inr hready) h.1⟩
  rw [if_neg hready]
  have hopen : ¬ ((knowledgeBase.deletedAt.isSome ∨ knowledgeBase.status = .archived) ∨
      knowledgeBase.status ≠ .ready ∧ demand.allowNonReadyForAdmin = false) :=
    fun h => h.elim harchived hready
  cases hbest : bestUserAccess db now user knowledgeBase.id with
  | none =>
    refine ⟨(fun h => by cases h), ?_⟩
    rintro ⟨-, -, best, hsome, -⟩
    cases hsome
  | some best =>
    by_cases hrank : accessRank best < accessRank demand.requiredAccess
    · simp only [if_pos hrank]
      refine ⟨(fun h => by cases h), ?_⟩
      rintro ⟨-, -, best', hsome, hrank'⟩
      cases hsome
      omega
    · simp only [if_neg hrank]
      cases hagent : demand.agentId with
      | none =>
        refine ⟨fun _ => ⟨hopen, ?_, best, rfl, by omega⟩, fun _ => rfl⟩
        rintro ⟨agentId, hsome, -⟩
        cases hsome
      | some agentId =>
        simp only
        cases hallowed : (canAgentUseKnowledgeBase db now knowledgeBase agentId
            demand.requiredAgentMode).allowed with
        | false =>
          refine ⟨fun h => ?_, fun h => absurd ⟨agentId, rfl, hallowed⟩ h.2.1⟩
          rw [Bool.not_false, if_pos rfl, hallowed] at h
          cases h
        | true =>
          refine ⟨fun _ => ⟨hopen, ?_, best, rfl, by omega⟩, fun _ => ?_⟩
          · rintro ⟨agentId', hsome, hrefused⟩
            cases hsome
            rw [hallowed] at hrefused
            cases hrefused
          · rw [Bool.not_true, if_neg Bool.false_ne_true]

/-- A check that is closed answers whatever the grants, the exceptions and the roles are. -/
theorem canAccess_of_closed (hclosed : Closed knowledgeBase demand) (db' : Db) :
    canAccessKnowledgeBase db now user knowledgeBase demand =
      canAccessKnowledgeBase db' now user knowledgeBase demand := by
  unfold canAccessKnowledgeBase
  split
  · rfl
  · split
    · rfl
    · next harchived => rw [if_pos (hclosed.resolve_left harchived),
        if_pos (hclosed.resolve_left harchived)]

/-! ## The parts of the law -/

theorem denialsWin_iff (hsuper : user.isSuperuser = false) :
    (Forbidden db now user knowledgeBase (userRoleIdsQuery db user) demand.requiredAccess →
        (canAccessKnowledgeBase db now user knowledgeBase demand).allowed = false) ↔
      DenialsReach db now user knowledgeBase demand := by
  unfold DenialsReach
  refine imp_congr_right fun _ => ?_
  rw [← Bool.not_eq_true, canAccess_allowed_iff db now user knowledgeBase demand hsuper]
  unfold Granted
  constructor
  · intro h
    by_cases hclosed : Closed knowledgeBase demand
    · exact .inl hclosed
    by_cases hagent : AgentRefused db now knowledgeBase demand
    · exact .inr (.inl hagent)
    refine .inr (.inr fun grant hmem hcovers hrank => ?_)
    by_contra hallowed
    exact h ⟨hclosed, hagent, grant, hmem, hcovers, hrank, hallowed⟩
  · rintro h ⟨hopen, hagent, grant, hmem, hcovers, hrank, hallowed⟩
    rcases h with h | h | h
    · exact hopen h
    · exact hagent h
    · exact hallowed (h grant hmem hcovers hrank)

/-- Fewer grants and more exceptions let less through. -/
theorem canAccess_mono (hsuper : user.isSuperuser = false) {grants : List Grant}
    {exceptions : List AccessException} (hgrants : grants ⊆ db.grants)
    (hexceptions : db.exceptions ⊆ exceptions)
    (h : (canAccessKnowledgeBase { db with grants, exceptions } now user knowledgeBase demand).allowed
      = true) :
    (canAccessKnowledgeBase db now user knowledgeBase demand).allowed = true := by
  rw [canAccess_allowed_iff _ _ _ _ _ hsuper] at h ⊢
  obtain ⟨hopen, hagent, grant, hmem, hcovers, hrank, hallowed⟩ := h
  refine ⟨hopen, hagent, grant, ?_, ?_, hrank, ?_⟩
  · obtain ⟨hin, hactive⟩ := List.mem_filter.mp hmem
    exact List.mem_filter.mpr ⟨hgrants hin, hactive⟩
  · exact (matchesUser_grant db user).mp
      ((matchesUser_grant { db with grants, exceptions } user).mpr hcovers)
  · rintro ⟨exception, hin, hdeny⟩
    obtain ⟨hexception, hactive⟩ := List.mem_filter.mp hin
    exact hallowed ⟨exception, List.mem_filter.mpr ⟨hexceptions hexception, hactive⟩, hdeny⟩

/-- One more row of `user_roles`. -/
theorem mem_userRoleIds_cons {roleId other : Nat} :
    other ∈ userRoleIds { db with userRoles := (user.id, roleId) :: db.userRoles } user.id ↔
      other = roleId ∨ other ∈ userRoleIds db user.id := by
  unfold userRoleIds
  rw [List.filter_cons_of_pos (by simp), List.map_cons, List.mem_cons]

/-- The decision rests on which roles there are, not on how often. -/
theorem canAccess_congr_roles {userRoles : List (Nat × Nat)}
    (h : ∀ roleId, roleId ∈ userRoleIds { db with userRoles } user.id ↔
      roleId ∈ userRoleIds db user.id) :
    canAccessKnowledgeBase { db with userRoles } now user knowledgeBase demand =
      canAccessKnowledgeBase db now user knowledgeBase demand := by
  have hcontains : (fun id => (userRoleIds { db with userRoles } user.id).contains id) =
      fun id => (userRoleIds db user.id).contains id := by
    funext id
    rw [Bool.eq_iff_iff, List.contains_iff_mem, List.contains_iff_mem]
    exact h id
  have hmatches : ∀ item, matchesUser user (departmentScope db user.departmentId)
      (userRoleIds { db with userRoles } user.id) item =
      matchesUser user (departmentScope db user.departmentId) (userRoleIds db user.id) item := by
    intro item
    unfold matchesUser
    rw [hcontains]
  have htypes : ∀ items denyOnly, matchingAccessTypes { db with userRoles } user items denyOnly =
      matchingAccessTypes db user items denyOnly := by
    intro items denyOnly
    unfold matchingAccessTypes
    simp only [← hmatches]
    rfl
  have hbest : bestUserAccess { db with userRoles } now user knowledgeBase.id =
      bestUserAccess db now user knowledgeBase.id := by
    unfold bestUserAccess
    simp only [htypes]
    rfl
  unfold canAccessKnowledgeBase
  rw [hbest]
  rfl

theorem reason_canAgentUse (agentId : Nat) (mode : AgentMode) :
    (canAgentUseKnowledgeBase db now knowledgeBase agentId mode).reason ≠
      "no_knowledge_base_grant" := by
  unfold canAgentUseKnowledgeBase
  dsimp only
  split
  · simp
  · split
    · simp
    · split
      · simp
      · split
        · simp
        · split <;> simp

/-- The answer that there is no grant is given only when there is none. -/
theorem reason_of_best {best : AccessType} (hsuper : user.isSuperuser = false)
    (hopen : ¬ Closed knowledgeBase demand)
    (hbest : bestUserAccess db now user knowledgeBase.id = some best) :
    (canAccessKnowledgeBase db now user knowledgeBase demand).reason ≠ "no_knowledge_base_grant" := by
  unfold canAccessKnowledgeBase
  rw [hsuper, if_neg Bool.false_ne_true, if_neg fun h => hopen (.inl h),
    if_neg fun h => hopen (.inr h), hbest]
  simp only
  split
  · simp
  · cases demand.agentId with
    | none => simp
    | some agentId =>
      simp only
      split
      · exact reason_canAgentUse db now knowledgeBase agentId demand.requiredAgentMode
      · simp

theorem rolesAlike_iff (hsuper : user.isSuperuser = false) :
    (∀ grants exceptions roleId, user.roleId = some roleId →
        canAccessKnowledgeBase { db with grants, exceptions } now user knowledgeBase demand =
          canAccessKnowledgeBase
            { db with grants, exceptions, userRoles := (user.id, roleId) :: db.userRoles }
            now user knowledgeBase demand) ↔
      RoleRecorded db user knowledgeBase demand := by
  constructor
  · intro h
    by_cases hclosed : Closed knowledgeBase demand
    · exact .inl hclosed
    refine .inr fun roleId hrole => ?_
    by_contra hmissing
    -- the one grant is to the role of the user's row
    have hsame := h [⟨knowledgeBase.id, .role, some roleId, .read, false, none⟩] [] roleId hrole
    have hnone : bestUserAccess
        { db with grants := [⟨knowledgeBase.id, .role, some roleId, .read, false, none⟩],
                  exceptions := [] } now user knowledgeBase.id = none := by
      by_contra hsome
      obtain ⟨best, hbest⟩ := Option.ne_none_iff_exists'.mp hsome
      obtain ⟨grant, hmem, hcovers, -⟩ :=
        (bestUserAccess_reaches _ now user knowledgeBase).mp ⟨best, hbest, le_rfl⟩
      obtain rfl := List.mem_singleton.mp (List.mem_filter.mp hmem).1
      cases hcovers with
      | role id htype hid hin =>
        cases hid
        exact hmissing hin
      | user htype | organization htype | department htype | childDepartment _ _ htype =>
        cases htype
    have hgranted : Granted
        { db with grants := [⟨knowledgeBase.id, .role, some roleId, .read, false, none⟩],
                  exceptions := [], userRoles := (user.id, roleId) :: db.userRoles }
        now user knowledgeBase .read := by
      refine ⟨_, List.mem_filter.mpr ⟨List.mem_singleton.mpr rfl, by simp [isActive]⟩,
        .role roleId rfl rfl ((mem_userRoleIds_cons db user).mpr (.inl rfl)), le_rfl, ?_⟩
      rintro ⟨exception, hin, -⟩
      cases hin
    obtain ⟨best, hbest, -⟩ := (bestUserAccess_reaches _ now user knowledgeBase).mpr hgranted
    refine reason_of_best _ now user knowledgeBase demand hsuper hclosed hbest ?_
    rw [← hsame]
    unfold canAccessKnowledgeBase
    rw [hsuper, if_neg Bool.false_ne_true, if_neg fun h => hclosed (.inl h),
      if_neg fun h => hclosed (.inr h), hnone]
  · rintro (hclosed | hrecorded) grants exceptions roleId hrole
    · exact canAccess_of_closed _ now user knowledgeBase demand hclosed _
    · refine (canAccess_congr_roles { db with grants, exceptions } now user knowledgeBase demand
        fun other => ?_).symm
      refine (mem_userRoleIds_cons { db with grants, exceptions } user).trans ?_
      constructor
      · rintro (rfl | h)
        · exact hrecorded _ hrole
        · exact h
      · exact .inr

/-- The law holds for exactly the requests on which a denial reaches as far as the grants do, of users
whose own role is recorded. -/
theorem accessLaw_iff (hsuper : user.isSuperuser = false) :
    AccessLaw db now user knowledgeBase demand ↔
      DenialsReach db now user knowledgeBase demand ∧
        RoleRecorded db user knowledgeBase demand := by
  rw [← denialsWin_iff db now user knowledgeBase demand hsuper,
    ← rolesAlike_iff db now user knowledgeBase demand hsuper]
  constructor
  · exact fun h => ⟨h.denialsWin, h.rolesAlike⟩
  · exact fun h => ⟨h.1, fun _ _ hgrants hexceptions =>
      canAccess_mono db now user knowledgeBase demand hsuper hgrants hexceptions, h.2⟩

def readyBase : KnowledgeBase := { id := 1, status := .ready }

/-- An employee of a department with a role that is recorded twice. -/
def employee : User := { id := 7, departmentId := some 20, roleId := some 5 }

/-- A department below another one, with a grant to the upper one and its children. -/
def officeDb : Db where
  departments :=
    { rows := [⟨10, none⟩, ⟨20, some 10⟩]
      depth := fun id => if id = 20 then 1 else 0
      descends := by
        intro row hrow parent hparent
        rcases List.mem_cons.mp hrow with rfl | hrow
        · cases hparent
        · obtain rfl := List.mem_singleton.mp hrow
          cases hparent
          decide }
  userRoles := [(7, 5)]
  grants := [⟨1, .department, some 10, .search, true, none⟩]

theorem accessLaw_office : AccessLaw officeDb 0 employee readyBase {} := by
  refine (accessLaw_iff officeDb 0 employee readyBase {} rfl).mpr ⟨?_, .inr ?_⟩
  · rintro ⟨exception, hin, -⟩
    cases hin
  · rintro roleId ⟨⟩
    decide

/-- The employee is an administrator too, and is denied reading. -/
def deniedDb : Db :=
  { officeDb with
    grants := [⟨1, .user, some 7, .admin, false, none⟩]
    exceptions := [⟨1, .user, 7, .read, true, none⟩] }

theorem accessLaw_deniedAdministrator_fails : ¬ AccessLaw deniedDb 0 employee readyBase {} := by
  intro h
  have hallowed : (canAccessKnowledgeBase deniedDb 0 employee readyBase {}).allowed = true := by
    decide +kernel
  have hrefused := h.denialsWin
    ⟨_, List.mem_singleton.mpr rfl, rfl, .user rfl rfl, rfl⟩
  rw [hallowed] at hrefused
  cases hrefused

end AgentBack.Knowledge
