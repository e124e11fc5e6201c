import AgentBack.Base.Guarded
import AgentBack.Meetings.ProtocolDraft

/-!
# One protocol for a meeting

Several sessions work on one entry of the registry at the same time. The law is that 1C never holds
two protocols of the entry, that the entry names the one it holds, that the stage of an entry that is
not cancelled tells whether there is a protocol, and that a session which read the entry before it was
cancelled leaves it cancelled.

The guards of the code are read before 1C is called and not again after it, and a repeated invitation
puts back the stage of an entry and keeps its protocol. So the law holds of the runs in which every
write finds what it relies on (`World.kept`, `run_oneProtocol`) and fails for two runs that create at
once, for a repeated invitation, and for a protocol that is created while the meeting is cancelled
(`oneProtocol_fails`).
-/

namespace AgentBack.Meetings

def ProtocolRow.Agrees (row : ProtocolRow) : Prop :=
  row.stage ≠ .cancelled →
    (stageIndex .protocolCreated ≤ stageIndex row.stage ↔ row.hasProtocol = true)

/-- **At most one protocol, which the entry names.** Between the answer of 1C and the commit the
session that created the protocol names it. -/
structure OneProtocol (world : World) : Prop where
  at_most_one : world.protocols.length ≤ 1
  named : ∀ refKey ∈ world.protocols, world.row.protocolRefKey = some refKey ∨
    ∃ id loaded, world.sessions.get? id = some ⟨loaded, .created refKey⟩
  agrees : world.row.Agrees

/-- **A session that read the entry before it was cancelled leaves it cancelled.** -/
def StaysCancelled (casefold : String → String) (world : World) (event : Event) : Prop :=
  ∀ session, world.sessions.get? event.id = some session → session.loaded.stage ≠ .cancelled →
    world.row.stage = .cancelled → (world.after casefold event).row.stage = .cancelled

namespace World

variable (casefold : String → String) (world : World)

/-- The row is still as the session may write it. -/
def finds (loaded : ProtocolRow) (status : Option String) : Phase → Bool
  | .created _ => world.row.stage ≠ .cancelled
  | .inviting =>
    if loaded.stage = .cancelled then world.row.protocolRefKey = loaded.protocolRefKey
    else loaded.stage = .invitationsSent ∨
      (world.row.stage ≠ .cancelled ∧ world.row.hasProtocol = false)
  | .rescheduling =>
    if loaded.stage = .invitationsSent then
      world.row.stage ≠ .protocolConducted ∧ world.row.stage ≠ .meetingCompleted
    else loaded.stage = .cancelled ∨ world.row.stage ≠ .cancelled
  | .syncing =>
    stageForProtocolStatus casefold status = none ∨
      (world.row.stage ≠ .cancelled ∧ world.row.hasProtocol = true)
  | _ => true

/-- What a step relies on: that 1C is asked for a protocol while the row has none and no other session
has one, and leaves no document when it fails; that a write finds what it relies on; and that no
session ends between the answer of 1C and its commit. -/
def kept : Event → Bool
  | .post _ (.made _) => world.row.hasProtocol = false ∧ world.recording = false
  | .post _ (.failed left) => left = none
  | .write id status =>
    match world.sessions.get? id with
    | none => true
    | some session => world.finds casefold session.loaded status session.phase
  | .stop id =>
    match world.sessions.get? id with
    | none => true
    | some session => session.isCreated = false
  | _ => true

end World

/-! ## Rows -/

namespace ProtocolRow

variable {row loaded view current : ProtocolRow}

theorem hasProtocol_eq_true :
    row.hasProtocol = true ↔ ∃ refKey, row.protocolRefKey = some refKey ∧ refKey ≠ "" := by
  unfold hasProtocol
  cases row.protocolRefKey with
  | none => simp
  | some refKey => simp

/-- A row without a protocol that the stage does not promise. -/
theorem Agrees.of_none (hprotocol : row.hasProtocol = false)
    (hstage : row.stage = .scheduled ∨ row.stage = .invitationsSent ∨ row.stage = .cancelled) :
    row.Agrees := by
  intro hlive
  rw [hprotocol]
  obtain hstage | hstage | hstage := hstage
  · simp [hstage, stageIndex]
  · simp [hstage, stageIndex]
  · exact absurd hstage hlive

theorem Agrees.stage_of_none (agrees : row.Agrees) (hprotocol : row.hasProtocol = false) :
    row.stage = .scheduled ∨ row.stage = .invitationsSent ∨ row.stage = .cancelled := by
  by_cases hlive : row.stage = .cancelled
  · exact .inr (.inr hlive)
  · have hstage := (agrees hlive).not.mpr (by simp [hprotocol])
    cases h : row.stage with
    | scheduled => exact .inl rfl
    | invitationsSent => exact .inr (.inl rfl)
    | cancelled => exact absurd h hlive
    | protocolCreated | protocolConducted | meetingCompleted => simp [h, stageIndex] at hstage

/-- A flush that only has a new stage leaves the protocol. -/
@[simp] theorem flushed_protocolRefKey (stage : RegistryStage) :
    (loaded.flushed { loaded with stage := stage } current).protocolRefKey =
      current.protocolRefKey := by
  unfold flushed
  exact if_pos rfl

@[simp] theorem flushed_hasProtocol (stage : RegistryStage) :
    (loaded.flushed { loaded with stage := stage } current).hasProtocol = current.hasProtocol := by
  unfold hasProtocol
  rw [flushed_protocolRefKey]

theorem flushed_stage_of_eq (h : view.stage = loaded.stage) :
    (loaded.flushed view current).stage = current.stage := by
  unfold flushed
  exact if_pos h

theorem flushed_stage_of_ne (h : view.stage ≠ loaded.stage) :
    (loaded.flushed view current).stage = view.stage := by
  unfold flushed
  exact if_neg h

theorem flushed_stage (loaded view current : ProtocolRow) :
    (loaded.flushed view current).stage = view.stage ∨
      (loaded.flushed view current).stage = current.stage := by
  by_cases h : view.stage = loaded.stage
  · exact .inr (flushed_stage_of_eq h)
  · exact .inl (flushed_stage_of_ne h)

theorem recreateOnReschedule_of_none (h : row.hasProtocol = false) :
    row.recreateOnReschedule = (none, row) := by
  unfold recreateOnReschedule
  rw [if_neg (by simp [h])]

theorem recreateOnReschedule_of_some (h : row.hasProtocol = true) :
    row.recreateOnReschedule =
      (row.protocolRefKey,
        { stage := if row.stage = .protocolCreated then .invitationsSent else row.stage
          protocolRefKey := none }) := by
  unfold recreateOnReschedule
  rw [if_pos h]

theorem recreateOnReschedule_stage (h : row.stage = .cancelled) :
    row.recreateOnReschedule.2.stage = .cancelled := by
  unfold recreateOnReschedule
  split
  · simp only [h]
    rfl
  · exact h

end ProtocolRow

theorem stageForProtocolStatus_eq_some {casefold : String → String} {status : Option String}
    {target : RegistryStage} (h : stageForProtocolStatus casefold status = some target) :
    target = .meetingCompleted := by
  unfold stageForProtocolStatus at h
  split at h
  · cases h
  · split at h
    · cases h
      rfl
    · cases h

/-! ## The invariant -/

/-- The row that a session leaves after it has deleted the protocol. -/
structure Cleared (loaded row next : ProtocolRow) : Prop where
  agrees : next.Agrees
  hasProtocol : next.hasProtocol = false
  stays : loaded.stage ≠ .cancelled → row.stage = .cancelled → next.stage = .cancelled

/-- What is known of a session in a state of the row, the protocols and the lock. -/
def Session.Fair (row : ProtocolRow) (protocols : List String) (writer : Option Nat) (id : Nat)
    (session : Session) : Prop :=
  session.loaded.Agrees ∧
    match session.phase with
    | .creating => session.loaded.stage ≠ .cancelled ∧ session.loaded.hasProtocol = false
    | .created refKey =>
      session.loaded.stage ≠ .cancelled ∧ session.loaded.hasProtocol = false ∧ refKey ≠ "" ∧
        protocols = [refKey] ∧ row.hasProtocol = false
    | .deleting refKey next =>
      writer = some id ∧ row.protocolRefKey = some refKey ∧ refKey ≠ "" ∧
        Cleared session.loaded row next
    | .committing next =>
      writer = some id ∧ (∀ refKey ∈ protocols, row.protocolRefKey ≠ some refKey) ∧
        Cleared session.loaded row next
    | _ => True

/-- **The invariant of the sessions.** -/
structure Sound (world : World) : Prop extends OneProtocol world where
  nonblank : "" ∉ world.protocols
  fair : ∀ id session, world.sessions.get? id = some session →
    session.Fair world.row world.protocols world.writer id
  one_created : ∀ id id' session session', world.sessions.get? id = some session →
    world.sessions.get? id' = some session' → session.isCreated = true →
      session'.isCreated = true → id = id'

namespace Session

variable {row row' : ProtocolRow} {protocols protocols' : List String} {writer writer' : Option Nat}
  {id : Nat} {session : Session}

theorem Fair.loaded (fair : session.Fair row protocols writer id) : session.loaded.Agrees := fair.1

theorem Fair.created (fair : session.Fair row protocols writer id)
    (hcreated : session.isCreated = true) : row.hasProtocol = false := by
  obtain ⟨loaded, phase⟩ := session
  cases phase with
  | created refKey => exact fair.2.2.2.2.2
  | _ => cases hcreated

/-- A session that has neither a protocol of its own nor the lock is fair in every state. -/
theorem Fair.elsewhere (fair : session.Fair row protocols writer id)
    (hcreated : session.isCreated = false) (hwriter : writer ≠ some id) :
    session.Fair row' protocols' writer' id := by
  obtain ⟨loaded, phase⟩ := session
  refine ⟨fair.1, ?_⟩
  cases phase with
  | creating => exact fair.2
  | created refKey => cases hcreated
  | deleting refKey next | committing next => exact absurd fair.2.1 hwriter
  | _ => trivial

/-- A session that has a protocol of its own is fair while the row has none. -/
theorem Fair.recorded (fair : session.Fair row protocols writer id)
    (hcreated : session.isCreated = true) (hrow : row'.hasProtocol = false) :
    session.Fair row' protocols writer' id := by
  obtain ⟨loaded, phase⟩ := session
  cases phase with
  | created refKey =>
    obtain ⟨agrees, hlive, hnone, hblank, hprotocols, -⟩ := fair
    exact ⟨agrees, hlive, hnone, hblank, hprotocols, hrow⟩
  | _ => cases hcreated

/-- Protocols that go, and a lock that another session gives back, leave a session fair. -/
theorem Fair.fewer (fair : session.Fair row protocols writer id)
    (hsub : protocols' ⊆ protocols) (hkeep : session.isCreated = true → protocols' = protocols)
    (hwriter : writer = some id → writer' = some id) :
    session.Fair row protocols' writer' id := by
  obtain ⟨loaded, phase⟩ := session
  refine ⟨fair.1, ?_⟩
  cases phase with
  | creating => exact fair.2
  | created refKey =>
    obtain ⟨-, hlive, hnone, hblank, hprotocols, hrow⟩ := fair
    exact ⟨hlive, hnone, hblank, (hkeep rfl).trans hprotocols, hrow⟩
  | deleting refKey next =>
    obtain ⟨-, hholds, hrest⟩ := fair
    exact ⟨hwriter hholds, hrest⟩
  | committing next =>
    obtain ⟨-, hholds, hgone, hcleared⟩ := fair
    exact ⟨hwriter hholds, fun refKey h => hgone refKey (hsub h), hcleared⟩
  | _ => trivial

/-- The first protocol of a row without one leaves the other sessions fair. -/
theorem Fair.arrived (fair : session.Fair row protocols writer id)
    (hcreated : session.isCreated = false) (hrow : row.hasProtocol = false) {refKey : String}
    (hblank : refKey ≠ "") : session.Fair row [refKey] writer id := by
  have hunnamed : ∀ key, key ≠ "" → row.protocolRefKey ≠ some key := by
    intro key hkey hnames
    rw [ProtocolRow.hasProtocol_eq_true.mpr ⟨key, hnames, hkey⟩] at hrow
    cases hrow
  obtain ⟨loaded, phase⟩ := session
  refine ⟨fair.1, ?_⟩
  cases phase with
  | creating => exact fair.2
  | created key => cases hcreated
  | deleting key next => exact absurd fair.2.2.1 (hunnamed key fair.2.2.2.1)
  | committing next =>
    obtain ⟨-, hholds, -, hcleared⟩ := fair
    refine ⟨hholds, fun key hmem => ?_, hcleared⟩
    rw [List.mem_singleton.mp hmem]
    exact hunnamed refKey hblank
  | _ => trivial

end Session

namespace World

variable {world : World} {id id' : Nat}

theorem get?_drop (world : World) (id id' : Nat) :
    (world.drop id).sessions.get? id' = if id = id' then none else world.sessions.get? id' :=
  Dict.get?_erase world.sessions id id'

theorem get?_of_drop {session : Session} (h : (world.drop id).sessions.get? id' = some session) :
    id ≠ id' ∧ world.sessions.get? id' = some session := by
  rw [get?_drop] at h
  split at h
  · cases h
  · rename_i hne
    exact ⟨hne, h⟩

theorem not_recording (h : world.recording = false) {session : Session}
    (hsession : world.sessions.get? id = some session) : session.isCreated = false := by
  unfold recording at h
  rw [List.any_eq_false] at h
  exact Bool.eq_false_iff.mpr (h session (Dict.mem_values_iff.mpr ⟨id, hsession⟩))

end World

/-! ## What a step does to the invariant -/

namespace Sound

variable {world : World} {id : Nat} {session : Session}

/-- A session with a protocol of its own is not the one that another phase shows. -/
theorem other_of_created
    (hcreated : ∀ session, world.sessions.get? id = some session → session.isCreated = false)
    {id' : Nat} {loaded : ProtocolRow} {refKey : String}
    (h : world.sessions.get? id' = some ⟨loaded, .created refKey⟩) : id ≠ id' := by
  rintro rfl
  cases hcreated _ h

theorem not_created_of_get? (hsession : world.sessions.get? id = some session)
    (hcreated : session.isCreated = false) :
    ∀ session, world.sessions.get? id = some session → session.isCreated = false := by
  intro session' h
  cases hsession.symm.trans h
  exact hcreated

theorem fresh {stage : RegistryStage} (h : stage = .scheduled ∨ stage = .invitationsSent) :
    Sound (World.fresh stage) where
  at_most_one := Nat.zero_le 1
  named := by
    intro refKey hmem
    cases hmem
  agrees := .of_none rfl (h.imp_right .inl)
  nonblank := by
    intro hmem
    cases hmem
  fair := by
    intro id session hsession
    cases hsession
  one_created := by
    intro id id' session session' hsession
    cases hsession

section

variable (sound : Sound world)
include sound

section

variable (hcreated : ∀ session, world.sessions.get? id = some session → session.isCreated = false)
include hcreated

/-- A session ends, and 1C may have lost protocols that the row names. -/
theorem drop_with {protocols : List String} (hsub : protocols.Sublist world.protocols)
    (hkeep : world.row.hasProtocol = true ∨ protocols = world.protocols) :
    Sound { world.drop id with protocols := protocols } where
  at_most_one := hsub.length_le.trans sound.at_most_one
  named := by
    intro refKey hmem
    obtain hrow | ⟨id', loaded, hother⟩ := sound.named refKey (hsub.subset hmem)
    · exact .inl hrow
    · refine .inr ⟨id', loaded, ?_⟩
      change (world.drop id).sessions.get? id' = _
      rw [World.get?_drop, if_neg (other_of_created hcreated hother)]
      exact hother
  agrees := sound.agrees
  nonblank := fun hmem => sound.nonblank (hsub.subset hmem)
  fair := by
    intro id' session' h
    obtain ⟨hne, h⟩ := World.get?_of_drop h
    have fair := sound.fair id' session' h
    refine fair.fewer hsub.subset (fun hcreated' => ?_) fun hwriter => ?_
    · obtain hrow | hsame := hkeep
      · rw [fair.created hcreated'] at hrow
        cases hrow
      · exact hsame
    · change (if world.writer = some id then none else world.writer) = some id'
      rw [hwriter, if_neg fun hid => hne (Option.some.inj hid).symm]
  one_created := by
    intro id₁ id₂ session₁ session₂ h₁ h₂
    exact sound.one_created id₁ id₂ session₁ session₂ (World.get?_of_drop h₁).2
      (World.get?_of_drop h₂).2

theorem drop :
    Sound (world.drop id) :=
  sound.drop_with hcreated (List.Sublist.refl _) (.inr rfl)

end

theorem commit (hwriter : world.writer = none ∨ world.writer = some id) {next : ProtocolRow}
    (agrees : next.Agrees) (hnamed : ∀ refKey ∈ world.protocols, next.protocolRefKey = some refKey ∨
      ∃ id' loaded, id ≠ id' ∧ world.sessions.get? id' = some ⟨loaded, .created refKey⟩)
    (hcreated : ∀ id' session, id ≠ id' → world.sessions.get? id' = some session →
      session.isCreated = true → next.hasProtocol = false) :
    Sound (world.commit id next) where
  at_most_one := sound.at_most_one
  named := by
    intro refKey hmem
    obtain hrow | ⟨id', loaded, hne, hother⟩ := hnamed refKey hmem
    · exact .inl hrow
    · refine .inr ⟨id', loaded, ?_⟩
      change (world.drop id).sessions.get? id' = _
      rw [World.get?_drop, if_neg hne]
      exact hother
  agrees := agrees
  nonblank := sound.nonblank
  fair := by
    intro id' session' h
    obtain ⟨hne, h⟩ := World.get?_of_drop h
    have fair := sound.fair id' session' h
    cases hcreated' : session'.isCreated with
    | true => exact fair.recorded hcreated' (hcreated id' session' hne h hcreated')
    | false =>
      refine fair.elsewhere hcreated' ?_
      obtain hfree | hmine := hwriter
      · rw [hfree]
        exact Option.some_ne_none id' |>.symm
      · rw [hmine]
        exact fun hid => hne (Option.some.inj hid)
  one_created := by
    intro id₁ id₂ session₁ session₂ h₁ h₂
    exact sound.one_created id₁ id₂ session₁ session₂ (World.get?_of_drop h₁).2
      (World.get?_of_drop h₂).2

theorem commit_same (hsession : world.sessions.get? id = some session)
    (hcreated : session.isCreated = false) (hwriter : world.writer = none ∨ world.writer = some id)
    {next : ProtocolRow} (agrees : next.Agrees)
    (hkey : next.protocolRefKey = world.row.protocolRefKey) :
    Sound (world.commit id next) := by
  apply sound.commit hwriter agrees
  · intro refKey hmem
    obtain hrow | ⟨id', loaded, hother⟩ := sound.named refKey hmem
    · exact .inl (hkey.trans hrow)
    · exact .inr ⟨id', loaded, other_of_created (not_created_of_get? hsession hcreated) hother,
        hother⟩
  · intro id' session' _ h hcreated'
    have hrow := (sound.fair id' session' h).created hcreated'
    unfold ProtocolRow.hasProtocol at hrow ⊢
    rw [hkey]
    exact hrow

/-- A session goes on to another phase, or begins. -/
theorem set {session' : Session} {protocols : List String} {writer : Option Nat}
    (few : protocols.length ≤ 1) (nonblank : "" ∉ protocols)
    (named : ∀ refKey ∈ protocols, world.row.protocolRefKey = some refKey ∨
      session'.phase = .created refKey ∨
      ∃ id' loaded, id ≠ id' ∧ world.sessions.get? id' = some ⟨loaded, .created refKey⟩)
    (mine : session'.Fair world.row protocols writer id)
    (others : ∀ id' session, id ≠ id' → world.sessions.get? id' = some session →
      session.Fair world.row protocols writer id')
    (one : session'.isCreated = true → ∀ id' session, world.sessions.get? id' = some session →
      session.isCreated = false) :
    Sound { world with
      protocols := protocols
      sessions := world.sessions.set id session'
      writer := writer } where
  at_most_one := few
  named := by
    intro refKey hmem
    obtain hrow | hphase | ⟨id', loaded, hne, hother⟩ := named refKey hmem
    · exact .inl hrow
    · refine .inr ⟨id, session'.loaded, ?_⟩
      rw [Dict.get?_set_self, ← hphase]
    · refine .inr ⟨id', loaded, ?_⟩
      rw [Dict.get?_set_ne _ hne]
      exact hother
  agrees := sound.agrees
  nonblank := nonblank
  fair := by
    intro id' session h
    rw [Dict.get?_set] at h
    split at h
    · rename_i hid
      cases h
      exact hid ▸ mine
    · rename_i hne
      exact others id' session hne h
  one_created := by
    intro id₁ id₂ session₁ session₂ h₁ h₂ hcreated₁ hcreated₂
    rw [Dict.get?_set] at h₁ h₂
    split at h₁ <;> split at h₂
    · rename_i hid₁ hid₂
      exact hid₁.symm.trans hid₂
    · cases h₁
      rw [one hcreated₁ id₂ session₂ h₂] at hcreated₂
      cases hcreated₂
    · cases h₂
      rw [one hcreated₂ id₁ session₁ h₁] at hcreated₁
      cases hcreated₁
    · exact sound.one_created id₁ id₂ session₁ session₂ h₁ h₂ hcreated₁ hcreated₂

/-- While the row has a protocol, no session has one that the row does not name. -/
theorem none_created (hrow : world.row.hasProtocol = true) {id' : Nat} {session : Session}
    (h : world.sessions.get? id' = some session) :
    session.isCreated = false := by
  cases hcreated : session.isCreated with
  | false => rfl
  | true =>
    rw [(sound.fair id' session h).created hcreated] at hrow
    cases hrow

/-- A session takes the lock and turns to 1C to delete the protocol that the row names. -/
theorem hold (hwriter : world.writer = none ∨ world.writer = some id) {loaded next : ProtocolRow}
    {refKey : String} (hloaded : loaded.Agrees) (hrow : world.row.protocolRefKey = some refKey)
    (hblank : refKey ≠ "") (cleared : Cleared loaded world.row next) :
    Sound { world with
      sessions := world.sessions.set id ⟨loaded, .deleting refKey next⟩
      writer := some id } := by
  have hprotocol : world.row.hasProtocol = true :=
    ProtocolRow.hasProtocol_eq_true.mpr ⟨refKey, hrow, hblank⟩
  apply sound.set sound.at_most_one sound.nonblank
  · intro key hmem
    obtain hnames | ⟨id', loaded', hother⟩ := sound.named key hmem
    · exact .inl hnames
    · cases sound.none_created hprotocol hother
  · exact ⟨hloaded, rfl, hrow, hblank, cleared⟩
  · intro id' session' hne h
    refine (sound.fair id' session' h).elsewhere (sound.none_created hprotocol h) ?_
    obtain hfree | hmine := hwriter
    · rw [hfree]
      exact (Option.some_ne_none id').symm
    · rw [hmine]
      exact fun hid => hne (Option.some.inj hid)
  · intro hcreated
    cases hcreated

theorem load (id : Nat) (operation : Operation) :
    Sound (world.load id operation) := by
  unfold World.load
  split
  · rename_i phase hfree hopened
    have hplain : (⟨world.row, phase⟩ : Session).isCreated = false ∧
        (⟨world.row, phase⟩ : Session).Fair world.row world.protocols world.writer id := by
      unfold World.opened at hopened
      split at hopened
      · split at hopened
        · cases hopened
        · split at hopened
          · cases hopened
          · rename_i hlive hprotocol
            split at hopened
            · cases hopened
              exact ⟨rfl, sound.agrees, hlive, by simpa using hprotocol⟩
            · cases hopened
      · cases hopened
        exact ⟨rfl, sound.agrees, trivial⟩
      · cases hopened
        exact ⟨rfl, sound.agrees, trivial⟩
      · split at hopened
        · cases hopened
        · cases hopened
          exact ⟨rfl, sound.agrees, trivial⟩
      · split at hopened
        · cases hopened
        · split at hopened
          · cases hopened
            exact ⟨rfl, sound.agrees, trivial⟩
          · cases hopened
    apply sound.set sound.at_most_one sound.nonblank _ hplain.2
    · exact fun id' session _ h => sound.fair id' session h
    · intro hcreated
      rw [hplain.1] at hcreated
      cases hcreated
    · intro refKey hmem
      obtain hrow | ⟨id', loaded, hother⟩ := sound.named refKey hmem
      · exact .inl hrow
      · refine .inr (.inr ⟨id', loaded, ?_, hother⟩)
        rintro rfl
        rw [hfree] at hother
        cases hother
  · exact sound

theorem post {casefold : String → String} {id : Nat} {answer : PostAnswer}
    (kept : world.kept casefold (.post id answer) = true) : Sound (world.post id answer) := by
  unfold World.post
  split
  · rename_i loaded hsession
    have fair := sound.fair id _ hsession
    cases answer with
    | made refKey =>
      obtain ⟨hrow, hrecording⟩ : world.row.hasProtocol = false ∧ world.recording = false := by
        simpa [World.kept] using kept
      have hempty : world.protocols = [] := by
        rw [List.eq_nil_iff_forall_not_mem]
        intro key hmem
        obtain hnames | ⟨id', loaded', hother⟩ := sound.named key hmem
        · have hprotocol := ProtocolRow.hasProtocol_eq_true.mpr
            ⟨key, hnames, fun hblank => sound.nonblank (hblank ▸ hmem)⟩
          rw [hrow] at hprotocol
          cases hprotocol
        · cases World.not_recording hrecording hother
      simp only
      split
      · exact sound
      · rename_i hblank
        rw [hempty]
        apply sound.set (show [refKey].length ≤ 1 from Nat.le_refl 1)
        · simpa using Ne.symm hblank
        · intro key hmem
          cases List.mem_singleton.mp hmem
          exact .inr (.inl rfl)
        · exact ⟨fair.1, fair.2.1, fair.2.2, hblank, rfl, hrow⟩
        · intro id' session' _ h
          exact (sound.fair id' session' h).arrived (World.not_recording hrecording h) hrow hblank
        · exact fun _ id' session' h => World.not_recording hrecording h
    | failed left =>
      have hleft : left = none := by simpa [World.kept] using kept
      subst hleft
      simp only [Option.toList_none, List.append_nil]
      exact sound.drop (not_created_of_get? hsession rfl)
  · exact sound

theorem delete (id : Nat) (answer : DeleteAnswer) :
    Sound (world.delete id answer) := by
  unfold World.delete
  split
  · rename_i loaded refKey next hsession
    obtain ⟨hloaded, hholds, hrow, hblank, cleared⟩ := sound.fair id _ hsession
    have hprotocol : world.row.hasProtocol = true :=
      ProtocolRow.hasProtocol_eq_true.mpr ⟨refKey, hrow, hblank⟩
    have hsub : (world.protocols.filter (· ≠ refKey)).Sublist world.protocols :=
      List.filter_sublist
    cases answer with
    | done =>
      simp only
      split
      · apply sound.set (hsub.length_le.trans sound.at_most_one)
          (fun hmem => sound.nonblank (hsub.subset hmem))
        · intro key hmem
          obtain hnames | ⟨id', loaded', hother⟩ := sound.named key (hsub.subset hmem)
          · exact .inl hnames
          · cases sound.none_created hprotocol hother
        · refine ⟨hloaded, hholds, fun key hmem hnames => ?_, cleared⟩
          cases hrow.symm.trans hnames
          simp at hmem
        · intro id' session' hne h
          refine (sound.fair id' session' h).elsewhere (sound.none_created hprotocol h) ?_
          rw [hholds]
          exact fun hid => hne (Option.some.inj hid)
        · intro hcreated
          cases hcreated
      · exact sound
    | failed gone =>
      apply sound.drop_with (not_created_of_get? hsession rfl) _ (.inl hprotocol)
      split
      · exact hsub
      · exact List.Sublist.refl _
  · exact sound

theorem flush_created {loaded : ProtocolRow} {refKey : String}
    (hsession : world.sessions.get? id = some ⟨loaded, .created refKey⟩)
    (hwriter : world.writer = none ∨ world.writer = some id) :
    Sound (world.commit id (loaded.flushed ⟨.protocolCreated, some refKey⟩ world.row)) := by
  obtain ⟨hloaded, hlive, hnone, hblank, hprotocols, hrow⟩ := sound.fair id _ hsession
  have hstage : (RegistryStage.protocolCreated) ≠ loaded.stage := by
    intro hstage
    rcases hloaded.stage_of_none hnone with h | h | h <;> rw [h] at hstage <;> cases hstage
  have hkey : some refKey ≠ loaded.protocolRefKey := by
    intro hkey
    rw [ProtocolRow.hasProtocol_eq_true.mpr ⟨refKey, hkey.symm, hblank⟩] at hnone
    cases hnone
  have hnext : loaded.flushed ⟨.protocolCreated, some refKey⟩ world.row =
      ⟨.protocolCreated, some refKey⟩ := by
    unfold ProtocolRow.flushed
    rw [if_neg hstage, if_neg hkey]
  rw [hnext]
  apply sound.commit hwriter
  · intro _
    simp [ProtocolRow.hasProtocol, hblank]
  · intro key hmem
    rw [hprotocols] at hmem
    cases List.mem_singleton.mp hmem
    exact .inl rfl
  · intro id' session' hne h hcreated
    exact absurd (sound.one_created id id' _ session' hsession h rfl hcreated) hne

/-- A commit of a new stage, which agrees with the protocol of the row. -/
theorem commit_stage (hsession : world.sessions.get? id = some session)
    (hcreated : session.isCreated = false) (hwriter : world.writer = none ∨ world.writer = some id)
    {loaded : ProtocolRow} {stage : RegistryStage}
    (agrees : stage ≠ loaded.stage → (⟨stage, world.row.protocolRefKey⟩ : ProtocolRow).Agrees) :
    Sound (world.commit id (loaded.flushed { loaded with stage := stage } world.row)) := by
  refine sound.commit_same hsession hcreated hwriter ?_ (ProtocolRow.flushed_protocolRefKey stage)
  unfold ProtocolRow.flushed
  by_cases h : stage = loaded.stage
  · simp only [if_pos h, if_true]
    exact sound.agrees
  · simp only [if_neg h, if_true]
    exact agrees h

end

variable {casefold : String → String} {status : Option String}

variable (sound : Sound world)
include sound

/-- An invitation; to a cancelled entry it deletes the old protocol. -/
theorem flush_inviting {loaded : ProtocolRow}
    (hsession : world.sessions.get? id = some ⟨loaded, .inviting⟩)
    (hwriter : world.writer = none ∨ world.writer = some id)
    (finds : world.finds casefold loaded status .inviting = true) :
    Sound (world.flush casefold id loaded status .inviting) := by
  have hloaded := (sound.fair id _ hsession).loaded
  unfold World.finds at finds
  unfold World.flush
  by_cases hcancelled : loaded.stage = .cancelled
  · simp only [hcancelled, if_true, decide_eq_true_eq] at finds
    simp only [if_pos hcancelled]
    have hne : RegistryStage.invitationsSent ≠ loaded.stage := by
      rw [hcancelled]
      decide
    cases hprotocol : ({ loaded with stage := .invitationsSent } : ProtocolRow).hasProtocol with
    | true =>
      rw [ProtocolRow.recreateOnReschedule_of_some hprotocol]
      obtain ⟨refKey, hkey, hblank⟩ := ProtocolRow.hasProtocol_eq_true.mp hprotocol
      change loaded.protocolRefKey = some refKey at hkey
      have hnext : loaded.flushed ⟨.invitationsSent, none⟩ world.row = ⟨.invitationsSent, none⟩ := by
        unfold ProtocolRow.flushed
        rw [if_neg hne, if_neg (by rw [hkey]; exact (Option.some_ne_none refKey).symm)]
      simp only [if_neg (show RegistryStage.invitationsSent ≠ .protocolCreated by decide), hnext,
        hkey]
      apply sound.hold hwriter hloaded (finds.trans hkey) hblank
      exact ⟨.of_none rfl (.inr (.inl rfl)), rfl, fun hlive _ => absurd hcancelled hlive⟩
    | false =>
      rw [ProtocolRow.recreateOnReschedule_of_none hprotocol]
      apply sound.commit_stage hsession rfl hwriter
      intro _
      refine .of_none ?_ (.inr (.inl rfl))
      unfold ProtocolRow.hasProtocol at hprotocol ⊢
      rw [finds]
      exact hprotocol
  · simp only [if_neg hcancelled, decide_eq_true_eq] at finds
    simp only [if_neg hcancelled]
    apply sound.commit_stage hsession rfl hwriter
    intro hne
    obtain hsent | ⟨-, hnone⟩ := finds
    · exact absurd hsent.symm hne
    · exact .of_none hnone (.inr (.inl rfl))

theorem flush_rescheduling {loaded : ProtocolRow}
    (hsession : world.sessions.get? id = some ⟨loaded, .rescheduling⟩)
    (hwriter : world.writer = none ∨ world.writer = some id)
    (finds : world.finds casefold loaded status .rescheduling = true) :
    Sound (world.flush casefold id loaded status .rescheduling) := by
  have hloaded := (sound.fair id _ hsession).loaded
  unfold World.finds at finds
  unfold World.flush
  simp only
  cases hprotocol : world.row.hasProtocol with
  | false =>
    rw [ProtocolRow.recreateOnReschedule_of_none (by simpa using hprotocol)]
    exact sound.commit_stage hsession rfl hwriter fun _ => .of_none hprotocol (.inr (.inl rfl))
  | true =>
    obtain ⟨refKey, hkey, hblank⟩ := ProtocolRow.hasProtocol_eq_true.mp hprotocol
    have hentry : (loaded.flushed { loaded with stage := .invitationsSent } world.row).hasProtocol =
        true := (ProtocolRow.flushed_hasProtocol .invitationsSent).trans hprotocol
    simp only [ProtocolRow.recreateOnReschedule_of_some hentry,
      ProtocolRow.flushed_protocolRefKey, hkey]
    apply sound.hold hwriter hloaded hkey hblank
    by_cases hsent : loaded.stage = .invitationsSent
    · simp only [if_pos hsent, decide_eq_true_eq] at finds
      rw [ProtocolRow.flushed_stage_of_eq hsent.symm]
      refine ⟨.of_none rfl ?_, rfl, fun _ hcancelled => ?_⟩
      · cases hstage : world.row.stage with
        | protocolConducted => exact absurd hstage finds.1
        | meetingCompleted => exact absurd hstage finds.2
        | _ => simp
      · rw [if_neg (by rw [hcancelled]; decide)]
        exact hcancelled
    · simp only [if_neg hsent, decide_eq_true_eq] at finds
      rw [ProtocolRow.flushed_stage_of_ne (Ne.symm hsent)]
      refine ⟨.of_none rfl (.inr (.inl rfl)), rfl, fun hlive hcancelled => ?_⟩
      obtain h | h := finds
      · exact absurd h hlive
      · exact absurd hcancelled h

theorem flush (hsession : world.sessions.get? id = some session)
    (hwriter : world.writer = none ∨ world.writer = some id)
    (finds : world.finds casefold session.loaded status session.phase = true) :
    Sound (world.flush casefold id session.loaded status session.phase) := by
  obtain ⟨loaded, phase⟩ := session
  cases phase with
  | creating => exact sound
  | created refKey => exact sound.flush_created hsession hwriter
  | inviting => exact sound.flush_inviting hsession hwriter finds
  | rescheduling => exact sound.flush_rescheduling hsession hwriter finds
  | cancelling => exact sound.commit_stage hsession rfl hwriter fun _ hlive => absurd rfl hlive
  | syncing =>
    unfold World.finds at finds
    simp only [decide_eq_true_eq] at finds
    unfold World.flush
    cases htarget : stageForProtocolStatus casefold status with
    | none => exact sound.drop (not_created_of_get? hsession rfl)
    | some target =>
      simp only
      split
      · exact sound.drop (not_created_of_get? hsession rfl)
      · obtain hnone | ⟨-, hprotocol⟩ := finds
        · rw [htarget] at hnone
          cases hnone
        · cases stageForProtocolStatus_eq_some htarget
          apply sound.commit_stage hsession rfl hwriter
          intro _ _
          exact ⟨fun _ => hprotocol, fun _ => show stageIndex .protocolCreated ≤ 4 by decide⟩
  | deleting refKey next => exact sound
  | committing next =>
    obtain ⟨-, hholds, hgone, cleared⟩ := sound.fair id _ hsession
    apply sound.commit hwriter cleared.agrees
    · intro refKey hmem
      obtain hnames | ⟨id', loaded', hother⟩ := sound.named refKey hmem
      · exact absurd hnames (hgone refKey hmem)
      · exact .inr ⟨id', loaded', other_of_created (not_created_of_get? hsession rfl) hother,
          hother⟩
    · exact fun _ _ _ _ _ => cleared.hasProtocol

/-- A step that keeps to what it relies on keeps the invariant. -/
theorem after (event : Event) (kept : world.kept casefold event = true) :
    Sound (world.after casefold event) := by
  cases event with
  | load id operation => exact sound.load id operation
  | post id answer => exact sound.post kept
  | delete id answer => exact sound.delete id answer
  | write id status =>
    change Sound (world.write casefold id status)
    unfold World.write
    cases hsession : world.sessions.get? id with
    | none => exact sound
    | some session =>
      simp only [World.kept, hsession] at kept
      simp only
      split
      · rename_i hwriter
        exact sound.flush hsession hwriter kept
      · exact sound
  | stop id =>
    apply sound.drop
    intro session hsession
    simpa only [World.kept, hsession, decide_eq_true_eq] using kept

end Sound

/-! ## Cancelled entries -/

namespace World

variable {world : World} {casefold : String → String} {status : Option String} {id : Nat}

theorem load_row (operation : Operation) : (world.load id operation).row = world.row := by
  unfold load
  split <;> rfl

theorem post_row (answer : PostAnswer) : (world.post id answer).row = world.row := by
  unfold post
  split
  · cases answer with
    | made refKey =>
      simp only
      split <;> rfl
    | failed left => rfl
  · rfl

theorem delete_row (answer : DeleteAnswer) : (world.delete id answer).row = world.row := by
  unfold delete
  split
  · cases answer with
    | done =>
      simp only
      split <;> rfl
    | failed gone => rfl
  · rfl

/-- A row that is cancelled stays so when the row that the session leaves is. -/
theorem settle_stage {loaded next : ProtocolRow} (target : Option String)
    (hrow : world.row.stage = .cancelled) (hnext : next.stage = .cancelled) :
    (world.settle id loaded target next).row.stage = .cancelled := by
  cases target with
  | none => exact hnext
  | some refKey => exact hrow

/-- A write that finds what it relies on leaves a cancelled entry cancelled. -/
theorem flush_stage (sound : Sound world) {session : Session}
    (hsession : world.sessions.get? id = some session)
    (finds : world.finds casefold session.loaded status session.phase = true)
    (hlive : session.loaded.stage ≠ .cancelled) (hrow : world.row.stage = .cancelled) :
    (world.flush casefold id session.loaded status session.phase).row.stage = .cancelled := by
  obtain ⟨loaded, phase⟩ := session
  change loaded.stage ≠ .cancelled at hlive
  cases phase with
  | creating => exact hrow
  | created refKey =>
    simp only [World.finds, decide_eq_true_eq] at finds
    exact absurd hrow finds
  | inviting =>
    simp only [World.finds, if_neg hlive, hrow, decide_eq_true_eq] at finds
    obtain hsent | ⟨hne, -⟩ := finds
    · unfold flush
      simp only [if_neg hlive]
      exact (ProtocolRow.flushed_stage_of_eq hsent.symm).trans hrow
    · exact absurd rfl hne
  | rescheduling =>
    by_cases hsent : loaded.stage = .invitationsSent
    · exact settle_stage _ hrow (ProtocolRow.recreateOnReschedule_stage
        ((ProtocolRow.flushed_stage_of_eq hsent.symm).trans hrow))
    · simp only [World.finds, if_neg hsent, hrow, decide_eq_true_eq] at finds
      obtain h | h := finds
      · exact absurd h hlive
      · exact absurd rfl h
  | cancelling =>
    obtain h | h := ProtocolRow.flushed_stage loaded { loaded with stage := .cancelled } world.row
    · exact h
    · exact h.trans hrow
  | syncing =>
    simp only [World.finds, hrow, decide_eq_true_eq] at finds
    obtain hnone | ⟨hne, -⟩ := finds
    · unfold flush
      simp only [hnone]
      exact hrow
    · exact absurd rfl hne
  | deleting refKey next => exact hrow
  | committing next => exact (sound.fair id _ hsession).2.2.2.stays hlive hrow

end World

theorem Sound.staysCancelled {world : World} (sound : Sound world) {casefold : String → String}
    {event : Event} (kept : world.kept casefold event = true) :
    StaysCancelled casefold world event := by
  intro session hsession hlive hrow
  cases event with
  | load id operation => exact (congrArg ProtocolRow.stage (World.load_row operation)).trans hrow
  | post id answer => exact (congrArg ProtocolRow.stage (World.post_row answer)).trans hrow
  | delete id answer => exact (congrArg ProtocolRow.stage (World.delete_row answer)).trans hrow
  | write id status =>
    change world.sessions.get? id = some session at hsession
    change (world.write casefold id status).row.stage = .cancelled
    simp only [World.kept, hsession] at kept
    unfold World.write
    simp only [hsession]
    split
    · exact World.flush_stage sound hsession kept hlive hrow
    · exact hrow
  | stop id => exact hrow

/-- The world after a run of sessions on a new entry. -/
def World.run (casefold : String → String) (stage : RegistryStage) (events : List Event) : World :=
  events.foldl (fun world event => world.after casefold event) (World.fresh stage)

/-- Every step of the run keeps to what it relies on. -/
def KeptRun (casefold : String → String) (stage : RegistryStage) (events : List Event) : Prop :=
  Guarded (fun world event => world.after casefold event)
    (fun event world => world.kept casefold event = true) events (World.fresh stage)

variable {casefold : String → String} {stage : RegistryStage}

theorem KeptRun.sound (hstage : stage = .scheduled ∨ stage = .invitationsSent)
    {events : List Event} (kept : KeptRun casefold stage events) :
    Sound (World.run casefold stage events) :=
  Guarded.invariant (fun event _ sound hkept => sound.after event hkept) kept (Sound.fresh hstage)

/-- **In every interleaving whose steps keep to what they rely on, a new entry has one protocol at
most, in every state, and a session that read it before it was cancelled leaves it cancelled.** -/
theorem run_oneProtocol (casefold : String → String) {stage : RegistryStage}
    (hstage : stage = .scheduled ∨ stage = .invitationsSent) {events : List Event}
    (kept : KeptRun casefold stage events) :
    (∀ before rest, events = before ++ rest → OneProtocol (World.run casefold stage before)) ∧
    (∀ before event rest, events = before ++ event :: rest →
      StaysCancelled casefold (World.run casefold stage before) event) := by
  constructor
  · rintro before rest rfl
    exact (KeptRun.sound hstage (guarded_append.mp kept).1).toOneProtocol
  · rintro before event rest rfl
    obtain ⟨hbefore, hevent, -⟩ := guarded_append.mp kept
    exact (KeptRun.sound hstage hbefore).staysCancelled hevent

/-- A Celery run that is delivered twice, a cancellation and a new invitation, one after the other. -/
def oneAfterAnother : List Event :=
  [.load 0 (.create false true), .post 0 (.made "p1"), .write 0 none,
    .load 1 (.create false true),
    .load 2 .cancel, .write 2 none,
    .load 3 .invite, .write 3 none, .delete 3 .done, .write 3 none]

theorem run_oneProtocol_restored :
    OneProtocol (World.run id .invitationsSent oneAfterAnother) ∧
      (World.run id .invitationsSent oneAfterAnother).row = ⟨.invitationsSent, none⟩ := by
  have kept : KeptRun id .invitationsSent oneAfterAnother := by
    refine ⟨?_, ?_, ?_, ?_, ?_, ?_, ?_, ?_, ?_, ?_, trivial⟩ <;> rfl
  exact ⟨(run_oneProtocol id (.inr rfl) kept).1 oneAfterAnother [] (List.append_nil _).symm, by decide⟩

/-- **Two runs that create at once leave two protocols, a repeated invitation takes the stage back
under a protocol, and a protocol that is created while the meeting is cancelled revives it.** -/
theorem oneProtocol_fails :
    ¬ OneProtocol (World.run id .invitationsSent
      [.load 0 (.create false true), .load 1 (.create true false), .post 0 (.made "p1"),
        .post 1 (.made "p2"), .write 0 none, .write 1 none]) ∧
    ¬ OneProtocol (World.run id .invitationsSent
      [.load 0 (.create false true), .post 0 (.made "p1"), .write 0 none,
        .load 1 .invite, .write 1 none]) ∧
    ¬ StaysCancelled id (World.run id .invitationsSent
      [.load 0 (.create false true), .load 1 .cancel, .write 1 none, .post 0 (.made "p1")])
      (.write 0 none) := by
  refine ⟨fun one => ?_, fun one => ?_, fun stays => ?_⟩
  · exact absurd one.at_most_one (by decide)
  · have hstage := (one.agrees (by decide)).mpr (by decide)
    exact absurd hstage (by decide)
  · exact absurd (stays _ rfl (by decide) (by decide)) (by decide)

end AgentBack.Meetings
