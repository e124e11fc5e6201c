import AgentBack.Base.Dict
import AgentBack.Base.PyValue
import Mathlib.Data.List.MinMax

/-!
# Access to a knowledge base (`services/knowledge_base_access_service.py`)

Who may do what with a knowledge base follows from the grants that match the user, less the types of
access that a matching exception denies. A grant is to a user, to a department (with its children,
when it says so), to a role or to the organization. An agent needs a binding of its own.
-/

namespace AgentBack.Knowledge

open Py (Value strOf)

/-- Seconds on the server's clock. -/
abbrev Moment := Int

/-- `KnowledgeBaseAccessType`. -/
inductive AccessType where
  | read
  | search
  | useViaAgent
  | manageSources
  | reindex
  | manageAccess
  | admin
  deriving DecidableEq

def accessRank : AccessType → Nat
  | .read => 10
  | .search => 20
  | .useViaAgent => 30
  | .manageSources => 40
  | .reindex => 50
  | .manageAccess => 60
  | .admin => 70

/-- `KnowledgeBaseAgentAccessMode`. -/
inductive AgentMode where
  | searchOnly
  | searchAndCite
  | decision
  | autoAction
  deriving DecidableEq

def agentModeRank : AgentMode → Nat
  | .searchOnly => 10
  | .searchAndCite => 20
  | .decision => 30
  | .autoAction => 40

/-- `KnowledgeBaseGrantType`. -/
inductive GrantType where
  | user
  | department
  | role
  | organization
  | agent
  | adminOnly
  deriving DecidableEq

/-- `KnowledgeBaseStatus`. -/
inductive Status where
  | draft
  | processing
  | needsReview
  | ready
  | updating
  | error
  | archived
  deriving DecidableEq

inductive AgentStatus where
  | draft
  | testing
  | ope
  | refinement
  | active
  | suspended
  | archived
  deriving DecidableEq

/-! ## The rows -/

/-- A row of `users`. -/
structure User where
  id : Nat
  isSuperuser : Bool := false
  departmentId : Option Nat := none
  roleId : Option Nat := none
  deriving DecidableEq

/-- A row of `knowledge_bases`. -/
structure KnowledgeBase where
  id : Nat
  status : Status := .draft
  deletedAt : Option Moment := none
  ownerUserId : Option Nat := none
  responsibleUserId : Option Nat := none
  deriving DecidableEq

/-- A row of `departments`. -/
structure Department where
  id : Nat
  parentId : Option Nat := none
  deriving DecidableEq

/-- The departments, of which none is above itself: a parent lies less deep than its children. -/
structure DepartmentTree where
  rows : List Department
  depth : Nat → Nat
  descends : ∀ row ∈ rows, ∀ parent, row.parentId = some parent → depth parent < depth row.id

/-- Without departments there is nothing to descend. -/
theorem descends_nil : ∀ row ∈ ([] : List Department), ∀ parent, row.parentId = some parent →
    id parent < id row.id := by
  intro row hrow
  cases hrow

/-- A row of `knowledge_base_access_grants`. -/
structure Grant where
  knowledgeBaseId : Nat
  granteeType : GrantType
  granteeId : Option Nat := none
  accessType : AccessType
  includeChildDepartments : Bool := false
  expiresAt : Option Moment := none
  deriving DecidableEq

/-- A row of `knowledge_base_access_exceptions`. -/
structure AccessException where
  knowledgeBaseId : Nat
  granteeType : GrantType
  granteeId : Nat
  accessType : AccessType
  isDeny : Bool := true
  expiresAt : Option Moment := none
  deriving DecidableEq

/-- A row of `knowledge_base_agent_bindings`. -/
structure AgentBinding where
  knowledgeBaseId : Nat
  agentId : Nat
  accessMode : AgentMode := .searchOnly
  expiresAt : Option Moment := none
  isEnabled : Bool := true
  deriving DecidableEq

/-- A row of `agents`. -/
structure Agent where
  id : Nat
  status : AgentStatus
  deriving DecidableEq

/-- A row of `documents`. -/
structure Document where
  id : Nat
  title : String := ""
  processingStatus : String := "uploaded"
  uploadedByUserId : Option Nat := none
  departmentId : Option Nat := none
  metadata : Value := .null

structure Db where
  departments : DepartmentTree
  userRoles : List (Nat × Nat) := []
  grants : List Grant := []
  exceptions : List AccessException := []
  bindings : List AgentBinding := []
  agents : List Agent := []
  documents : List Document := []

/-! ## What matches a user -/

structure AccessItem where
  granteeType : GrantType
  granteeId : Option Nat
  accessType : AccessType
  includeChildDepartments : Bool
  isDeny : Bool
  deriving DecidableEq

/-- A grant has no `is_deny`. -/
def Grant.item (grant : Grant) : AccessItem :=
  ⟨grant.granteeType, grant.granteeId, grant.accessType, grant.includeChildDepartments, false⟩

/-- An exception has no `include_child_departments`. -/
def AccessException.item (exception : AccessException) : AccessItem :=
  ⟨exception.granteeType, some exception.granteeId, exception.accessType, false, exception.isDeny⟩

/-- `expires_at is None or expires_at > now`. -/
def isActive (now : Moment) (expiresAt : Option Moment) : Bool :=
  expiresAt.all fun moment => decide (now < moment)

variable (db : Db)

def userRoleIds (userId : Nat) : List Nat :=
  (db.userRoles.filter fun row => row.1 = userId).map Prod.snd

/-- `parents.get(current)` in `_department_scope`. -/
def DepartmentTree.parentOf (tree : DepartmentTree) (current : Nat) : Option Nat :=
  ((Dict.ofList (tree.rows.map fun row => (row.id, row.parentId))).get? current).join

/-- The loop of `_department_scope`; a department has at most as many above it as it lies deep. -/
def DepartmentTree.climb (tree : DepartmentTree) : Nat → Nat → List Nat
  | 0, current => [current]
  | fuel + 1, current =>
    current :: match tree.parentOf current with
      | some parent => tree.climb fuel parent
      | none => []

def departmentScope : Option Nat → List Nat
  | none => []
  | some id => db.departments.climb (db.departments.depth id) id

/-- The tests of `_matching_access_types` on an item. -/
def matchesUser (user : User) (departmentIds roleIds : List Nat) (item : AccessItem) : Bool :=
  match item.granteeType with
  | .user => item.granteeId = some user.id
  | .organization => true
  | .department =>
    item.granteeId = user.departmentId ||
      item.includeChildDepartments && item.granteeId.any fun id => departmentIds.contains id
  | .role => item.granteeId.any fun id => roleIds.contains id
  | .adminOnly => false
  | .agent => false

def matchingAccessTypes (user : User) (items : List AccessItem) (denyOnly : Bool) :
    List AccessType :=
  let departmentIds := departmentScope db user.departmentId
  let roleIds := userRoleIds db user.id
  (items.filter fun item =>
    !(denyOnly && !item.isDeny) && matchesUser user departmentIds roleIds item).map (·.accessType)

def activeGrants (now : Moment) (knowledgeBaseId : Nat) : List Grant :=
  db.grants.filter fun grant =>
    grant.knowledgeBaseId = knowledgeBaseId && isActive now grant.expiresAt

def activeExceptions (now : Moment) (knowledgeBaseId : Nat) : List AccessException :=
  db.exceptions.filter fun exception =>
    exception.knowledgeBaseId = knowledgeBaseId && isActive now exception.expiresAt

def bestUserAccess (now : Moment) (user : User) (knowledgeBaseId : Nat) :
    Option AccessType :=
  let denied := matchingAccessTypes db user
    ((activeExceptions db now knowledgeBaseId).map AccessException.item) true
  let allowed := matchingAccessTypes db user
    ((activeGrants db now knowledgeBaseId).map Grant.item) false
  (allowed.filter fun access => access ∉ denied).argmax accessRank

/-- `EffectiveKnowledgeBaseAccess`. -/
structure EffectiveAccess where
  allowed : Bool
  reason : String
  accessType : Option AccessType := none
  agentMode : Option AgentMode := none
  deriving DecidableEq

def canAgentUseKnowledgeBase (now : Moment) (knowledgeBase : KnowledgeBase) (agentId : Nat)
    (requiredMode : AgentMode) : EffectiveAccess :=
  let binding := db.bindings.find? fun binding =>
    binding.knowledgeBaseId = knowledgeBase.id && binding.agentId = agentId && binding.isEnabled
  match binding with
  | none => { allowed := false, reason := "agent_not_bound" }
  | some binding =>
    if !isActive now binding.expiresAt then
      { allowed := false, reason := "agent_binding_expired" }
    else if agentModeRank binding.accessMode < agentModeRank requiredMode then
      { allowed := false, reason := "insufficient_agent_mode", agentMode := binding.accessMode }
    else
      match db.agents.find? fun agent => agent.id = agentId with
      | none => { allowed := false, reason := "agent_not_active", agentMode := binding.accessMode }
      | some agent =>
        if agent.status ∉ [.active, .ope, .testing] then
          { allowed := false, reason := "agent_not_active", agentMode := binding.accessMode }
        else { allowed := true, reason := "allowed", agentMode := binding.accessMode }

/-- What is asked of `can_access_knowledge_base` beside the user and the knowledge base. -/
structure Demand where
  requiredAccess : AccessType := .read
  agentId : Option Nat := none
  requiredAgentMode : AgentMode := .searchOnly
  allowNonReadyForAdmin : Bool := true
  deriving DecidableEq

def canAccessKnowledgeBase (now : Moment) (user : User) (knowledgeBase : KnowledgeBase)
    (demand : Demand) : EffectiveAccess :=
  if user.isSuperuser then
    { allowed := true, reason := "superuser", accessType := some .admin }
  else if knowledgeBase.deletedAt.isSome ∨ knowledgeBase.status = .archived then
    { allowed := false, reason := "knowledge_base_archived" }
  else if knowledgeBase.status ≠ .ready ∧ demand.allowNonReadyForAdmin = false then
    { allowed := false, reason := "knowledge_base_not_ready" }
  else
    match bestUserAccess db now user knowledgeBase.id with
    | none => { allowed := false, reason := "no_knowledge_base_grant" }
    | some accessType =>
      if accessRank accessType < accessRank demand.requiredAccess then
        { allowed := false, reason := "insufficient_knowledge_base_grant", accessType := accessType }
      else
        match demand.agentId with
        | none => { allowed := true, reason := "allowed", accessType := accessType }
        | some agentId =>
          let agentAccess :=
            canAgentUseKnowledgeBase db now knowledgeBase agentId demand.requiredAgentMode
          if !agentAccess.allowed then agentAccess
          else { agentAccess with reason := "allowed", accessType := accessType }

def publicDocumentAccessScopes : List String := ["public", "global", "all", "company"]

def canAccessDocumentRecord (py : Py.Reading) (user : User) (document : Document) : Bool :=
  if user.isSuperuser then true
  else if document.uploadedByUserId = some user.id then true
  else if user.departmentId.isSome ∧ document.departmentId = user.departmentId then true
  else
    let accessScope := Value.anyOf
      [document.metadata.get "access_scope", document.metadata.get "access", .str ""]
    py.lower (strOf py accessScope) ∈ publicDocumentAccessScopes

def canAccessDocument (py : Py.Reading) (db : Db) (user : User) (documentId : Nat) : Bool :=
  if user.isSuperuser then true
  else
    match db.documents.find? fun document => document.id = documentId with
    | none => false
    | some document => canAccessDocumentRecord py user document

/-- `can_use_chunk`; of the fragment only whether it is excluded from the search is read. -/
def canUseChunk (py : Py.Reading) (db : Db) (now : Moment) (user : User)
    (knowledgeBase : KnowledgeBase) (isExcludedFromSearch : Bool) (document : Option Document)
    (agentId : Option Nat) (requiredAccess : AccessType) (requiredAgentMode : AgentMode) :
    EffectiveAccess :=
  let kbAccess := canAccessKnowledgeBase db now user knowledgeBase
    { requiredAccess, agentId, requiredAgentMode, allowNonReadyForAdmin := false }
  let refused := fun reason => { kbAccess with allowed := false, reason := reason }
  if !kbAccess.allowed then kbAccess
  else if isExcludedFromSearch then refused "chunk_excluded"
  else
    match document with
    | none => refused "source_document_missing"
    | some document =>
      if document.processingStatus = "archived" then refused "source_document_archived"
      else if !canAccessDocument py db user document.id then refused "source_document_denied"
      else { kbAccess with allowed := true, reason := "allowed" }

/-- `PermissionService._user_role_ids_query`: the role of the user's own row counts too. -/
def userRoleIdsQuery (user : User) : List Nat :=
  user.roleId.toList ++ userRoleIds db user.id

end AgentBack.Knowledge
