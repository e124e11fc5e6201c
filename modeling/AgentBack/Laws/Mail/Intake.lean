import AgentBack.Mail.Intake

/-!
# What the rows say of a letter

The task that processes a letter keeps the keys of all rows and writes the row of a recipient that
its loop reaches (`mem_keys_processRecipients`), unless the key itself reads like a demo letter's; and
a letter that does not go to the queue again has a row.
-/

namespace AgentBack.Mail

variable {host : Host}

def keys (rows : List EmailMessageRow) : List String := rows.map (·.messageId)

/-- Whether some row is a letter's: its key is of the Message-ID and a recipient, or of what
normalising leaves of the Message-ID. -/
def HasRow (lower : String → String) (rows : List EmailMessageRow) (messageId : String) : Prop :=
  ∃ recipient, routingMessageId lower messageId recipient ∈ keys rows ∨
    routingMessageId lower (parseRoutingMessageId lower messageId).1 recipient ∈ keys rows

variable {rows : List EmailMessageRow} {key : String} {email : EmailMessage} {now : Int}
    {graph : String → GraphRun}

theorem HasRow.mono {lower : String → String} {rows' : List EmailMessageRow} {messageId : String}
    (h : HasRow lower rows messageId) (hsub : ∀ key ∈ keys rows, key ∈ keys rows') :
    HasRow lower rows' messageId := by
  obtain ⟨recipient, hkey⟩ := h
  exact ⟨recipient, hkey.imp (hsub _) (hsub _)⟩

theorem mem_keys_setRow {row : EmailMessageRow} :
    key ∈ keys (setRow rows row) ↔ key ∈ keys rows ∨ key = row.messageId := by
  unfold keys setRow
  rw [List.map_append, List.mem_append, List.map_singleton, List.mem_singleton]
  constructor
  · rintro (hold | hnew)
    · obtain ⟨old, hmem, rfl⟩ := List.mem_map.mp hold
      exact .inl (List.mem_map_of_mem (List.mem_of_mem_filter hmem))
    · exact .inr hnew
  · rintro (hold | hnew)
    · obtain ⟨old, hmem, rfl⟩ := List.mem_map.mp hold
      by_cases hkey : old.messageId = row.messageId
      · exact .inr hkey
      · refine .inl (List.mem_map_of_mem (List.mem_filter.mpr ⟨hmem, ?_⟩))
        simpa only [decide_eq_true_eq, ne_eq] using hkey
    · exact .inr hnew

theorem mem_keys_persist {status : ProcessingStatus} {startedAt : Option Int} :
    key ∈ keys (persist host rows email status startedAt) ↔
      key ∈ keys rows ∨ (isDemoEmail host.lower email = false ∧ key = email.messageId) := by
  unfold persist
  by_cases hdemo : isDemoEmail host.lower email
  · rw [if_pos hdemo]
    simp only [hdemo, Bool.true_eq_false, false_and, or_false]
  · rw [if_neg hdemo, mem_keys_setRow]
    simp only [Bool.not_eq_true] at hdemo
    simp only [hdemo, true_and]

@[simp] theorem keys_failReprocessing (rows : List EmailMessageRow) (messageId : String) :
    keys (failReprocessing rows messageId) = keys rows := by
  unfold keys failReprocessing
  rw [List.map_map]
  apply List.map_congr_left
  intro row _
  show EmailMessageRow.messageId (if _ then _ else _) = _
  split <;> rfl

/-! ## The task -/

theorem keys_processRecipients_mono {recipients : List String} (h : key ∈ keys rows) :
    key ∈ keys (processRecipients host now graph email recipients rows) := by
  induction recipients generalizing rows with
  | nil => exact h
  | cons recipient rest ih =>
    have hstart {status : ProcessingStatus} {startedAt : Option Int} :
        key ∈ keys (persist host rows (attemptEmail host.lower email recipient) status startedAt) :=
      mem_keys_persist.mpr (.inl h)
    rw [processRecipients]
    split
    · exact ih h
    · cases graph recipient with
      | raised exhausted =>
        cases exhausted with
        | false => exact hstart
        | true =>
          show key ∈ keys (failReprocessing _ _)
          rw [keys_failReprocessing]
          exact hstart
      | finished status =>
        cases status with
        | none => exact ih hstart
        | some status => exact ih (mem_keys_persist.mpr (.inl hstart))

/-- Whether the loop stops at a recipient with an exception. -/
def GraphRun.isRaised : GraphRun → Bool
  | .finished _ => false
  | .raised _ => true

theorem mem_keys_of_isTerminalInDb {messageId : String}
    (h : isTerminalInDb rows messageId) : messageId ∈ keys rows := by
  obtain ⟨row, hfind, -⟩ := (Option.any_eq_true _ _).mp h
  have hkey := List.find?_some hfind
  rw [decide_eq_true_eq] at hkey
  rw [← hkey]
  exact List.mem_map_of_mem (List.mem_of_find?_eq_some hfind)

/-- The task leaves a row for a recipient that it reaches, unless the key is a demo letter's. -/
theorem mem_keys_processRecipients {before after : List String} {recipient : String}
    (hbefore : ∀ earlier ∈ before, (graph earlier).isRaised = false)
    (hdemo : isDemoEmail host.lower (attemptEmail host.lower email recipient) = false)
    (rows : List EmailMessageRow) :
    routingMessageId host.lower email.messageId recipient ∈
      keys (processRecipients host now graph email (before ++ recipient :: after) rows) := by
  induction before generalizing rows with
  | nil =>
    have hstart {status : ProcessingStatus} {startedAt : Option Int} :
        routingMessageId host.lower email.messageId recipient ∈
          keys (persist host rows (attemptEmail host.lower email recipient) status startedAt) :=
      mem_keys_persist.mpr (.inr ⟨hdemo, rfl⟩)
    rw [List.nil_append, processRecipients]
    split
    · rename_i hterminal
      exact keys_processRecipients_mono (mem_keys_of_isTerminalInDb hterminal)
    · cases graph recipient with
      | raised exhausted =>
        cases exhausted with
        | false => exact hstart
        | true =>
          show _ ∈ keys (failReprocessing _ _)
          rw [keys_failReprocessing]
          exact hstart
      | finished status =>
        cases status with
        | none => exact keys_processRecipients_mono hstart
        | some status => exact keys_processRecipients_mono (mem_keys_persist.mpr (.inl hstart))
  | cons earlier before ih =>
    have hrest := ih fun other hother => hbefore other (.tail _ hother)
    have hgraph := hbefore earlier (.head _)
    rw [List.cons_append, processRecipients]
    split
    · exact hrest rows
    · cases hearlier : graph earlier with
      | raised exhausted =>
        rw [hearlier] at hgraph
        cases hgraph
      | finished status =>
        cases status with
        | none | some status => exact hrest _

theorem keys_processEmail_mono {queued : EmailMessage} (h : key ∈ keys rows) :
    key ∈ keys (processEmail host now graph rows queued) := by
  unfold processEmail
  dsimp only
  split
  · exact h
  · exact keys_processRecipients_mono h

theorem messageId_normalizeRoutingEmail (lower : String → String) (email : EmailMessage) :
    (normalizeRoutingEmail lower email).messageId =
      (parseRoutingMessageId lower email.messageId).1 := by
  unfold normalizeRoutingEmail
  split
  · rename_i hparse
    have hnone : (parseRoutingMessageId lower email.messageId).2 = none := by rw [hparse]
    unfold parseRoutingMessageId at hnone ⊢
    split
    · rfl
    · rename_i hsome
      rw [hsome] at hnone
      cases hnone
  · rename_i hparse
    rw [hparse]

/-- The task comes to a recipient whose row it keeps. -/
def WritesRow (host : Host) (graph : String → GraphRun) (queued : EmailMessage) : Prop :=
  let email := normalizeRoutingEmail host.lower queued
  isDemoEmail host.lower email = false ∧
    ∃ before recipient after,
      splitRoutingRecipients host.lower email = before ++ recipient :: after ∧
        (∀ earlier ∈ before, (graph earlier).isRaised = false) ∧
        isDemoEmail host.lower (attemptEmail host.lower email recipient) = false

theorem hasRow_processEmail {queued : EmailMessage}
    (h : WritesRow host graph queued) (rows : List EmailMessageRow) :
    HasRow host.lower (processEmail host now graph rows queued) queued.messageId := by
  obtain ⟨hdemo, before, recipient, after, hsplit, hbefore, hkept⟩ := h
  refine ⟨recipient, .inr ?_⟩
  unfold processEmail
  dsimp only
  rw [hdemo, if_neg Bool.false_ne_true, hsplit, ← messageId_normalizeRoutingEmail]
  exact mem_keys_processRecipients hbefore hkept rows

theorem splitRoutingRecipients_ne_nil (lower : String → String) (email : EmailMessage) :
    splitRoutingRecipients lower email ≠ [] := by
  unfold splitRoutingRecipients
  dsimp only
  split_ifs with hrouted hat
  · exact hrouted
  · exact List.cons_ne_nil _ _
  · exact List.cons_ne_nil _ _

theorem mem_keys_of_shouldSkip {messageId : String}
    (h : shouldSkipImapEnqueue now rows messageId) : messageId ∈ keys rows := by
  unfold shouldSkipImapEnqueue at h
  split at h
  · rename_i hterminal
    exact mem_keys_of_isTerminalInDb hterminal
  · split at h
    · cases h
    · rename_i row hfind
      have hkey := List.find?_some hfind
      rw [decide_eq_true_eq] at hkey
      rw [← hkey]
      exact List.mem_map_of_mem (List.mem_of_find?_eq_some hfind)

theorem hasRow_of_not_shouldEnqueue (h : shouldEnqueueEmail host now rows email = false) :
    HasRow host.lower rows email.messageId := by
  obtain ⟨recipient, rest, hsplit⟩ :=
    List.exists_cons_of_ne_nil (splitRoutingRecipients_ne_nil host.lower email)
  have hskip := List.any_eq_false.mp h recipient (by rw [hsplit]; exact .head _)
  rw [Bool.not_eq_true, Bool.not_eq_false'] at hskip
  exact ⟨recipient, .inl (mem_keys_of_shouldSkip hskip)⟩

end AgentBack.Mail
