import AgentBack.Meetings.Registry

/-!
# What the operations on a registry entry keep of its payload

`_operational_payload` takes over the preserved keys of the old payload and nothing else
(`get?_operationalPayload`). So a pending change of one kind is gone when a change of the other kind
is saved, a removal that is saved puts its own attendees in the place of those that were invited, and
a cancelled entry, whose payload is built from no old one, has lost its series and its topic. Along
operations that meet none of this, a change that is cleared leaves the payload as it was
(`run_undoes`), and the series and the topic survive (`run_keepsSeries`).
-/

namespace AgentBack.Meetings

open Py (Value)

theorem get?_foldl_preserveKey (preserveFrom : Payload) (keys : List String) (payload : Payload)
    (key : String) :
    (keys.foldl (preserveKey preserveFrom) payload).get? key =
      (payload.get? key).or (if key ∈ keys then preserveFrom.get? key else none) := by
  induction keys generalizing payload with
  | nil => simp
  | cons first rest ih =>
    rw [List.foldl_cons, ih]
    unfold preserveKey
    cases hfrom : preserveFrom.get? first with
    | none =>
      by_cases hkey : key = first
      · subst hkey
        simp only [hfrom, List.mem_cons, true_or, if_true, ite_self]
      · simp only [List.mem_cons, hkey, false_or]
    | some value =>
      by_cases hkey : key = first
      · subst hkey
        cases hhave : payload.get? key with
        | none => simp [hfrom]
        | some old => simp [hhave]
      · simp only [List.mem_cons, hkey, false_or]
        split
        · rfl
        · rw [Dict.get?_set_ne _ (Ne.symm hkey)]

theorem get?_setIfTrue (payload : Payload) (key key' : String) (value : Value) :
    (setIfTrue payload key value).get? key' =
      if key = key' ∧ value.truthy = true then some value else payload.get? key' := by
  unfold setIfTrue
  by_cases htrue : value.truthy = true
  · simp only [htrue, if_true, and_true, Dict.get?_set]
  · simp only [htrue, and_false, if_false, Bool.false_eq_true]

theorem get?_operationalPayload (attendees : List Value)
    (sentPayload pendingRemoval pendingAdd : Value) (preserveFrom : Payload) (key : String) :
    (operationalPayload attendees sentPayload pendingRemoval pendingAdd preserveFrom).get? key =
      if key = "attendees" then some (.list attendees)
      else if key = "sent_payload" then
        some (if sentPayload.truthy then sentPayload else .dict [])
      else if key = "pending_removal" then
        if pendingRemoval.truthy then some pendingRemoval else none
      else if key = "pending_add" then if pendingAdd.truthy then some pendingAdd else none
      else if key ∈ preservedPayloadKeys then preserveFrom.get? key
      else none := by
  unfold operationalPayload
  simp only [get?_foldl_preserveKey, get?_setIfTrue, Dict.get?_set, Dict.get?_empty]
  by_cases hattendees : key = "attendees"
  · subst hattendees
    simp
  by_cases hsent : key = "sent_payload"
  · subst hsent
    simp
  by_cases hremoval : key = "pending_removal"
  · subst hremoval
    simp [preservedPayloadKeys]
  by_cases hadd : key = "pending_add"
  · subst hadd
    simp [preservedPayloadKeys]
  simp [hattendees, hsent, hremoval, hadd, Ne.symm hattendees, Ne.symm hsent, Ne.symm hremoval,
    Ne.symm hadd]

/-! ## Operations and runs -/

inductive EntryOp where
  | savePendingAdd (participants attendees added removed : List String) (keepCurrentSlot : Bool)
  | savePendingRemoval (participants attendees removed : List String)
  | clearPendingAdd
  | clearPendingRemoval
  | markCancelled
  | applyReschedule (invitation : Invitation)
  | upsertFromInvite (invitation : Invitation) (meetingTopic : List (String × Value))
      (resolvedAt : Value)

variable (casefold : String → String)

def EntryOp.apply (entry : MeetingEntry) : EntryOp → Option MeetingEntry
  | .savePendingAdd participants attendees added removed keepCurrentSlot =>
    entry.savePendingAdd casefold participants attendees added removed keepCurrentSlot
  | .savePendingRemoval participants attendees removed =>
    some (entry.savePendingRemoval casefold participants attendees removed)
  | .clearPendingAdd => some entry.clearPendingAdd
  | .clearPendingRemoval => some entry.clearPendingRemoval
  | .markCancelled => entry.markCancelled
  | .applyReschedule invitation => some (entry.applyReschedule invitation)
  | .upsertFromInvite invitation meetingTopic resolvedAt =>
    some (entry.upsertFromInvite invitation meetingTopic resolvedAt)

def MeetingEntry.after (entry : MeetingEntry) (op : EntryOp) : MeetingEntry :=
  (op.apply casefold entry).getD entry

def MeetingEntry.run (entry : MeetingEntry) (ops : List EntryOp) : MeetingEntry :=
  ops.foldl (MeetingEntry.after casefold) entry

/-- Every operation meets a condition on the entry that it finds. -/
def EveryStep (condition : EntryOp → MeetingEntry → Prop) (entry : MeetingEntry)
    (ops : List EntryOp) : Prop :=
  ∀ before op after, ops = before ++ op :: after → condition op (entry.run casefold before)

variable {casefold}

theorem everyStep_nil {condition : EntryOp → MeetingEntry → Prop} {entry : MeetingEntry} :
    EveryStep casefold condition entry [] := fun before op after h =>
  absurd h.symm (List.append_ne_nil_of_right_ne_nil before (List.cons_ne_nil op after))

theorem everyStep_cons {condition : EntryOp → MeetingEntry → Prop} {entry : MeetingEntry}
    {op : EntryOp} {ops : List EntryOp} (hop : condition op entry)
    (hrest : EveryStep casefold condition (entry.after casefold op) ops) :
    EveryStep casefold condition entry (op :: ops) := by
  intro before op' after h
  cases before with
  | nil =>
    cases h
    exact hop
  | cons first rest =>
    obtain ⟨rfl, hops⟩ := List.cons.inj h
    exact hrest rest op' after hops

theorem run_keeps (invariant : MeetingEntry → Prop) {condition : EntryOp → MeetingEntry → Prop}
    (hstep : ∀ entry op, invariant entry → condition op entry →
      invariant (entry.after casefold op)) {entry : MeetingEntry} {ops : List EntryOp}
    (hstart : invariant entry) (hall : EveryStep casefold condition entry ops) :
    invariant (entry.run casefold ops) := by
  induction ops using List.reverseRecOn with
  | nil => exact hstart
  | append_singleton ops op ih =>
    have hbefore := ih fun before op' after heq =>
      hall before op' (after ++ [op]) (by rw [heq, List.append_assoc, List.cons_append])
    unfold MeetingEntry.run at hbefore ⊢
    rw [List.foldl_append, List.foldl_cons, List.foldl_nil]
    exact hstep _ op hbefore (hall ops op [] rfl)

/-! ## Changes that can be undone -/

def EntryOp.IsPending : EntryOp → Prop
  | .savePendingAdd .. => True
  | .savePendingRemoval .. => True
  | .clearPendingAdd => True
  | .clearPendingRemoval => True
  | _ => False

/-- The attendees and the preserved keys are as they were. -/
structure SamePayload (before after : Payload) : Prop where
  attendees : listOf (valueAt after "attendees") = listOf (valueAt before "attendees")
  preserved : ∀ key ∈ preservedPayloadKeys, valueAt after key = valueAt before key

structure Remembers (base payload : Payload) : Prop where
  attendees : ∀ items, (valueAt payload "pending_add").isDict = true →
    (valueAt payload "pending_add").get "previous_attendees" = .list items →
    listOf (valueAt base "attendees") = some items
  occurrence : (valueAt payload "pending_add").isDict = true →
    (valueAt payload "pending_add").get "previous_occurrence_participant_names" =
      valueAt base "occurrence_participant_names"

/-- **Pending changes can be undone.** Once none is left the payload is as it was, and a change that
is saved leaves one of the other kind in its place. -/
structure Undone (casefold : String → String) (entry : MeetingEntry) (ops : List EntryOp) : Prop where
  restored : (entry.run casefold ops).current.get? "pending_add" = none →
    (entry.run casefold ops).current.get? "pending_removal" = none →
    SamePayload entry.current (entry.run casefold ops).current
  removalKept : ∀ before after participants attendees added removed keepCurrentSlot,
    ops = before ++ .savePendingAdd participants attendees added removed keepCurrentSlot :: after →
    ((entry.run casefold before).after casefold
        (.savePendingAdd participants attendees added removed keepCurrentSlot)).current.get?
        "pending_removal" =
      (entry.run casefold before).current.get? "pending_removal"
  addKept : ∀ before after participants attendees removed,
    ops = before ++ .savePendingRemoval participants attendees removed :: after →
    ((entry.run casefold before).after casefold
        (.savePendingRemoval participants attendees removed)).current.get? "pending_add" =
      (entry.run casefold before).current.get? "pending_add"

/-- An operation on pending changes that finds none of the other kind, that takes away no attendee when
it saves a removal, and that has something to clear when it clears an addition. -/
def EntryOp.Undoes (op : EntryOp) (entry : MeetingEntry) : Prop :=
  match op with
  | .savePendingAdd .. => entry.current.get? "pending_removal" = none
  | .savePendingRemoval _ attendees _ => entry.current.get? "pending_add" = none ∧
      listOf (valueAt entry.current "attendees") = some (attendees.map .str)
  | .clearPendingAdd => (valueAt entry.current "pending_add").isDict = true ∨
      isLongerThan (valueAt entry.current "occurrence_participant_names")
        entry.participants.length = false
  | .clearPendingRemoval => True
  | _ => False

section Built

variable {attendees : List Value} {sentPayload pendingRemoval pendingAdd : Value}
  {preserveFrom : Payload}

theorem valueAt_preserved {key : String} (hkey : key ∈ preservedPayloadKeys) :
    valueAt (operationalPayload attendees sentPayload pendingRemoval pendingAdd preserveFrom) key =
      valueAt preserveFrom key := by
  unfold valueAt Dict.getD
  rw [get?_operationalPayload]
  simp only [preservedPayloadKeys, List.mem_cons, List.not_mem_nil, or_false] at hkey
  rcases hkey with rfl | rfl | rfl | rfl | rfl | rfl <;> simp [preservedPayloadKeys]

theorem valueAt_attendees :
    valueAt (operationalPayload attendees sentPayload pendingRemoval pendingAdd preserveFrom)
      "attendees" = .list attendees := by
  unfold valueAt Dict.getD
  rw [get?_operationalPayload, if_pos rfl, Option.getD_some]

theorem get?_pendingRemoval :
    (operationalPayload attendees sentPayload pendingRemoval pendingAdd preserveFrom).get?
      "pending_removal" = if pendingRemoval.truthy then some pendingRemoval else none := by
  rw [get?_operationalPayload]
  simp

theorem get?_pendingAdd :
    (operationalPayload attendees sentPayload pendingRemoval pendingAdd preserveFrom).get?
      "pending_add" = if pendingAdd.truthy then some pendingAdd else none := by
  rw [get?_operationalPayload]
  simp

end Built

theorem listOf_list (items : List Value) : listOf (.list items) = some items := by
  cases items <;> rfl

theorem valueAt_set (payload : Payload) (key key' : String) (value : Value) :
    valueAt (payload.set key value) key' = if key = key' then value else valueAt payload key' := by
  unfold valueAt Dict.getD
  rw [Dict.get?_set]
  split <;> rfl

theorem valueAt_erase (payload : Payload) (key key' : String) :
    valueAt (payload.erase key) key' = if key = key' then .null else valueAt payload key' := by
  unfold valueAt Dict.getD
  rw [Dict.get?_erase]
  split <;> rfl

/-- What a run over pending changes keeps. -/
structure Holding (base payload : Payload) : Prop where
  same : SamePayload base payload
  remembers : Remembers base payload

variable {key : String} {base : Payload} {entry : MeetingEntry} {topic : Value}

theorem Holding.of_no_add {payload : Payload} (h : SamePayload base payload)
    (hnone : payload.get? "pending_add" = none) : Holding base payload := by
  have hvalue : valueAt payload "pending_add" = .null := by
    rw [valueAt, Dict.getD, hnone, Option.getD_none]
  refine ⟨h, ⟨fun items hdict => ?_, fun hdict => ?_⟩⟩
  · rw [hvalue] at hdict
    cases hdict
  · rw [hvalue] at hdict
    cases hdict

section

variable (h : Holding base entry.current)
include h

theorem Holding.savePendingAdd (participants attendees added removed : List String)
    (keepCurrentSlot : Bool) :
    Holding base (entry.after casefold
      (.savePendingAdd participants attendees added removed keepCurrentSlot)).current := by
  unfold MeetingEntry.after EntryOp.apply MeetingEntry.savePendingAdd
  cases hlist : listOf (valueAt entry.current "attendees") with
  | none => exact h
  | some previous =>
    have hbase := h.same.attendees
    rw [hlist] at hbase
    have hadd : valueAt (operationalPayload previous (valueAt entry.current "sent_payload") .null
        (pendingAddOf casefold participants attendees added removed keepCurrentSlot previous
          (valueAt entry.current "occurrence_participant_names")) entry.current) "pending_add" =
        pendingAddOf casefold participants attendees added removed keepCurrentSlot previous
          (valueAt entry.current "occurrence_participant_names") := by
      rw [valueAt, Dict.getD, get?_pendingAdd]
      rfl
    change Holding base (operationalPayload previous _ _ _ _)
    refine ⟨⟨?_, fun key hkey => ?_⟩, ⟨fun items _ hitems => ?_, fun _ => ?_⟩⟩
    · rw [valueAt_attendees, listOf_list, hbase]
    · rw [valueAt_preserved hkey, h.same.preserved key hkey]
    · rw [hadd] at hitems
      rw [← hbase]
      exact congrArg some (Value.list.inj hitems)
    · rw [hadd]
      exact h.same.preserved "occurrence_participant_names" (by decide)

theorem Holding.savePendingRemoval {attendees : List String}
    (hattendees : listOf (valueAt entry.current "attendees") = some (attendees.map .str))
    (participants removed : List String) :
    Holding base (entry.savePendingRemoval casefold participants attendees removed).current := by
  change Holding base (operationalPayload (attendees.map .str) _ _ _ _)
  refine Holding.of_no_add ⟨?_, fun key hkey => ?_⟩ get?_pendingAdd
  · rw [valueAt_attendees, listOf_list, ← hattendees, h.same.attendees]
  · rw [valueAt_preserved hkey, h.same.preserved key hkey]

theorem Holding.clearPendingRemoval : Holding base entry.clearPendingRemoval.current := by
  have hother : ∀ key, "pending_removal" ≠ key →
      valueAt entry.clearPendingRemoval.current key = valueAt entry.current key := by
    intro key hkey
    change valueAt (entry.current.erase "pending_removal") key = _
    rw [valueAt_erase, if_neg hkey]
  refine ⟨⟨?_, fun key hkey => ?_⟩, ?_⟩
  · rw [hother _ (by decide), h.same.attendees]
  · rw [hother key (by rintro rfl; revert hkey; decide), h.same.preserved key hkey]
  · obtain ⟨hattendees, hoccurrence⟩ := h.remembers
    constructor
    · rw [hother _ (by decide)]
      exact hattendees
    · rw [hother _ (by decide)]
      exact hoccurrence

end

/-- What `clear_pending_add` puts back under a key. -/
theorem get?_restoreAttendees (pending : Value) (payload : Payload) (hkey : "attendees" ≠ key) :
    (restoreAttendees pending payload).get? key = payload.get? key := by
  unfold restoreAttendees
  split
  · exact Dict.get?_set_ne _ hkey _
  · rfl

theorem get?_restoreOccurrence (pending : Value) (payload : Payload)
    (hkey : "occurrence_participant_names" ≠ key) :
    (restoreOccurrence pending payload).get? key = payload.get? key := by
  unfold restoreOccurrence
  split
  · rw [Dict.get?_erase, if_neg hkey]
  · exact Dict.get?_set_ne _ hkey _

theorem valueAt_restoreOccurrence (pending : Value) (payload : Payload) :
    valueAt (restoreOccurrence pending payload) "occurrence_participant_names" =
      pending.get "previous_occurrence_participant_names" := by
  unfold restoreOccurrence
  split
  · next hnull => rw [valueAt_erase, if_pos rfl, hnull]
  · rw [valueAt_set, if_pos rfl]

theorem Holding.clearPendingAdd
    (h : Holding base entry.current) (hclear : EntryOp.clearPendingAdd.Undoes entry) :
    Holding base entry.clearPendingAdd.current := by
  obtain ⟨⟨hattendees, hpreserved⟩, hremembered, hoccurrence⟩ := h
  have hpopped : ∀ key, "pending_add" ≠ key →
      valueAt (entry.current.erase "pending_add") key = valueAt entry.current key := fun key hkey => by
    rw [valueAt_erase, if_neg hkey]
  have hnone : (entry.current.erase "pending_add").get? "pending_add" = none := by
    rw [Dict.get?_erase, if_pos rfl]
  by_cases hdict : (valueAt entry.current "pending_add").isDict = true
  · have hcurrent : entry.clearPendingAdd.current =
        restoreOccurrence (valueAt entry.current "pending_add")
          (restoreAttendees (valueAt entry.current "pending_add")
            (entry.current.erase "pending_add")) := by
      unfold MeetingEntry.clearPendingAdd
      simp only [hdict, if_true]
      rfl
    rw [hcurrent]
    refine Holding.of_no_add ⟨?_, fun key hkey => ?_⟩ ?_
    · rw [valueAt, Dict.getD, get?_restoreOccurrence _ _ (by decide)]
      unfold restoreAttendees
      split
      · next items heq =>
        rw [hremembered items hdict heq, Dict.get?_set_self, Option.getD_some, listOf_list]
      · rw [← hattendees, ← hpopped "attendees" (by decide)]
        rfl
    · by_cases hnames : "occurrence_participant_names" = key
      · rw [← hnames, valueAt_restoreOccurrence, hoccurrence hdict]
      · have hother : "attendees" ≠ key ∧ "pending_add" ≠ key := by
          constructor <;> (rintro rfl; revert hkey; decide)
        rw [← hpreserved key hkey, ← hpopped key hother.2, valueAt, Dict.getD,
          get?_restoreOccurrence _ _ hnames, get?_restoreAttendees _ _ hother.1]
        rfl
    · rw [get?_restoreOccurrence _ _ (by decide), get?_restoreAttendees _ _ (by decide), hnone]
  · have hshort := hclear.resolve_left hdict
    rw [← hpopped _ (by decide)] at hshort
    have hcurrent : entry.clearPendingAdd.current = entry.current.erase "pending_add" := by
      unfold MeetingEntry.clearPendingAdd
      simp only [if_neg hdict, hshort, Bool.false_eq_true, if_false]
      rfl
    rw [hcurrent]
    refine Holding.of_no_add ⟨?_, fun key hkey => ?_⟩ hnone
    · rw [hpopped _ (by decide), hattendees]
    · rw [hpopped key (by rintro rfl; revert hkey; decide), hpreserved key hkey]

/-- One operation keeps what a run keeps. -/
theorem Holding.after (h : Holding base entry.current) {op : EntryOp} (hop : op.Undoes entry) :
    Holding base (entry.after casefold op).current := by
  cases op with
  | savePendingAdd participants attendees added removed keepCurrentSlot =>
    exact h.savePendingAdd participants attendees added removed keepCurrentSlot
  | savePendingRemoval participants attendees removed =>
    exact h.savePendingRemoval hop.2 participants removed
  | clearPendingAdd => exact h.clearPendingAdd hop
  | clearPendingRemoval => exact h.clearPendingRemoval
  | markCancelled => exact hop.elim
  | applyReschedule invitation | upsertFromInvite invitation meetingTopic resolvedAt =>
    exact hop.elim

/-- **Pending changes can be undone along operations that find no other change.** -/
theorem run_undone (casefold : String → String) (entry : MeetingEntry) (ops : List EntryOp)
    (hremembers : Remembers entry.current entry.current)
    (hall : EveryStep casefold EntryOp.Undoes entry ops) : Undone casefold entry ops := by
  have hstart : Holding entry.current entry.current := ⟨⟨rfl, fun _ _ => rfl⟩, hremembers⟩
  have hrun := run_keeps (fun state => Holding entry.current state.current)
    (fun state op h hop => h.after hop) hstart hall
  refine ⟨fun _ _ => hrun.same, ?_, ?_⟩
  · rintro before after participants attendees added removed keepCurrentSlot rfl
    have hnone : (entry.run casefold before).current.get? "pending_removal" = none :=
      hall before _ after rfl
    rw [hnone]
    unfold MeetingEntry.after EntryOp.apply MeetingEntry.savePendingAdd
    cases listOf (valueAt (entry.run casefold before).current "attendees") with
    | none => exact hnone
    | some previous => exact get?_pendingRemoval
  · rintro before after participants attendees removed rfl
    have hnone : (entry.run casefold before).current.get? "pending_add" = none :=
      (hall before _ after rfl).1
    rw [hnone]
    exact get?_pendingAdd

/-! ## The series and the topic -/

/-- The keys that the closing date of a topic is written under. -/
def closingKeys : List String := ["closed_date", "closed_date_synced_at"]

def SameTopic (before after : Value) : Prop :=
  ∀ key, key ∉ closingKeys → after.get key = before.get key

/-- The topic that an entry has after an operation: the one an invitation brings, or the old one. -/
def EntryOp.topicAfter (topic : Value) : EntryOp → Value
  | .upsertFromInvite _ meetingTopic resolvedAt =>
    if meetingTopic = [] then topic else .dict (Dict.assign "resolved_at" resolvedAt meetingTopic)
  | _ => topic

/-- The link to the series is there, and so is the topic. -/
structure KeepsSeries (base : Payload) (topic : Value) (payload : Payload) : Prop where
  meeting : valueAt payload "scheduled_meeting_id" = valueAt base "scheduled_meeting_id"
  label : valueAt payload "series_recurrence_label" = valueAt base "series_recurrence_label"
  topic : SameTopic topic (valueAt payload "meeting_topic")

/-- An operation that does not cancel an entry with a series or a topic. -/
def EntryOp.SparesSeries (op : EntryOp) (entry : MeetingEntry) : Prop :=
  match op with
  | .markCancelled => entry.stage = .cancelled ∨
      (valueAt entry.current "scheduled_meeting_id" = .null ∧
        valueAt entry.current "series_recurrence_label" = .null ∧
        SameTopic (valueAt entry.current "meeting_topic") .null)
  | _ => True

theorem SameTopic.trans {first second third : Value} (h : SameTopic first second)
    (h' : SameTopic second third) : SameTopic first third := fun key hkey =>
  (h' key hkey).trans (h key hkey)

theorem get_assign (key key' : String) (value : Value) (fields : List (String × Value)) :
    (Value.dict (Dict.assign key value fields)).get key' =
      if key = key' then value else (Value.dict fields).get key' := by
  have hget : ∀ fields : List (String × Value), (Value.dict fields).get key' =
      (Dict.find key' fields).getD .null := by
    intro fields
    induction fields with
    | nil => rfl
    | cons field rest ih =>
      obtain ⟨name, content⟩ := field
      by_cases hname : name = key'
      · simp [Value.get, Dict.find, hname]
      · rw [Dict.find, if_neg hname, ← ih]
        simp [Value.get, hname]
  rw [hget, hget, Dict.find_assign]
  split <;> rfl

/-- The closing date is written beside what the topic has. -/
theorem sameTopic_sync (payload : Payload) (topic : List (String × Value))
    {fields : List (String × Value)} (hfields : fields ≠ [])
    (htopic : valueAt payload "meeting_topic" = .dict fields) (closed : Option (Value × Value)) :
    SameTopic (.dict fields)
      (valueAt (syncNewTopicClosedDate payload topic closed) "meeting_topic") := by
  unfold syncNewTopicClosedDate
  cases closed with
  | none => exact fun key _ => by rw [htopic]
  | some stamps =>
    obtain ⟨closedDate, syncedAt⟩ := stamps
    intro key hkey
    simp only [closingKeys, List.mem_cons, List.not_mem_nil, or_false, not_or] at hkey
    cases fields with
    | nil => exact absurd rfl hfields
    | cons field rest =>
      simp only [htopic, valueAt_set, if_true]
      rw [get_assign, if_neg (Ne.symm hkey.2), get_assign, if_neg (Ne.symm hkey.1)]

theorem valueAt_sync (payload : Payload) (topic : List (String × Value))
    (closed : Option (Value × Value)) (hkey : "meeting_topic" ≠ key) :
    valueAt (syncNewTopicClosedDate payload topic closed) key = valueAt payload key := by
  unfold syncNewTopicClosedDate
  split
  · rfl
  · rw [valueAt_set, if_neg hkey]

theorem KeepsSeries.of_eq {payload payload' : Payload} (h : KeepsSeries base topic payload)
    (hsame : ∀ key ∈ ["scheduled_meeting_id", "series_recurrence_label", "meeting_topic"],
      valueAt payload' key = valueAt payload key) : KeepsSeries base topic payload' where
  meeting := by rw [hsame _ (by decide), h.meeting]
  label := by rw [hsame _ (by decide), h.label]
  topic := by rw [hsame _ (by decide)]; exact h.topic

/-- Every payload that is built from the old one has its series and topic. -/
theorem KeepsSeries.built {payload : Payload}
    (h : KeepsSeries base topic payload) {attendees : List Value}
    {sentPayload pendingRemoval pendingAdd : Value} :
    KeepsSeries base topic
      (operationalPayload attendees sentPayload pendingRemoval pendingAdd payload) :=
  h.of_eq fun key hkey => valueAt_preserved (by
    simp only [preservedPayloadKeys, List.mem_cons, List.not_mem_nil, or_false] at hkey ⊢
    tauto)

/-- What `clear_pending_add` leaves alone. -/
theorem valueAt_clearPendingAdd (entry : MeetingEntry)
    (hkey : key ∉ ["pending_add", "attendees", "occurrence_participant_names"]) :
    valueAt entry.clearPendingAdd.current key = valueAt entry.current key := by
  simp only [List.mem_cons, List.not_mem_nil, or_false, not_or] at hkey
  obtain ⟨hadd, hattendees, hnames⟩ := hkey
  have hpopped : (entry.current.erase "pending_add").get? key = entry.current.get? key := by
    rw [Dict.get?_erase, if_neg (Ne.symm hadd)]
  unfold MeetingEntry.clearPendingAdd valueAt Dict.getD
  simp only
  change Option.getD (Dict.get? (ite _ _ _) key) _ = _
  split
  · rw [get?_restoreOccurrence _ _ (Ne.symm hnames), get?_restoreAttendees _ _ (Ne.symm hattendees),
      hpopped]
  · split
    · rw [Dict.get?_erase, if_neg (Ne.symm hnames), hpopped]
    · rw [hpopped]

section

variable (h : KeepsSeries base topic entry.current)
include h

theorem KeepsSeries.markCancelled (hop : EntryOp.markCancelled.SparesSeries entry) :
    KeepsSeries base topic (entry.after casefold .markCancelled).current := by
  unfold MeetingEntry.after EntryOp.apply MeetingEntry.markCancelled
  by_cases hstage : entry.stage = .cancelled
  · rw [if_pos hstage]
    exact h
  · rw [if_neg hstage]
    cases listOf (valueAt entry.current "attendees") with
    | none => exact h
    | some attendees =>
      obtain ⟨hmeeting, hlabel, htopic⟩ := hop.resolve_left hstage
      change KeepsSeries base topic (operationalPayload attendees _ _ _ ∅)
      refine ⟨?_, ?_, ?_⟩
      · rw [valueAt_preserved (by decide), ← h.meeting, hmeeting]
        rfl
      · rw [valueAt_preserved (by decide), ← h.label, hlabel]
        rfl
      · rw [valueAt_preserved (by decide)]
        exact h.topic.trans htopic

theorem KeepsSeries.applyReschedule (invitation : Invitation) :
    KeepsSeries base topic (entry.applyReschedule invitation).current := by
  have hbuilt : KeepsSeries base topic (operationalPayload (invitation.attendees.map .str)
    invitation.sentPayload .null .null entry.current) := h.built
  unfold MeetingEntry.applyReschedule
  generalize operationalPayload (invitation.attendees.map .str) invitation.sentPayload .null .null
    entry.current = payload at hbuilt ⊢
  cases htopic : valueAt payload "meeting_topic" with
  | dict fields =>
    cases fields with
    | nil =>
      simp only [htopic]
      exact hbuilt
    | cons field rest =>
      simp only [htopic]
      change KeepsSeries base topic (syncNewTopicClosedDate payload (field :: rest) invitation.closed)
      refine ⟨?_, ?_, ?_⟩
      · rw [valueAt_sync _ _ _ (by decide), hbuilt.meeting]
      · rw [valueAt_sync _ _ _ (by decide), hbuilt.label]
      · have hold := hbuilt.topic
        rw [htopic] at hold
        exact hold.trans
          (sameTopic_sync payload _ (List.cons_ne_nil _ _) htopic invitation.closed)
  | _ =>
    simp only [htopic]
    exact hbuilt

theorem KeepsSeries.upsertFromInvite (invitation : Invitation)
    (meetingTopic : List (String × Value)) (resolvedAt : Value) :
    KeepsSeries base
      ((EntryOp.upsertFromInvite invitation meetingTopic resolvedAt).topicAfter topic)
      (entry.upsertFromInvite invitation meetingTopic resolvedAt).current := by
  have hbuilt : KeepsSeries base topic (operationalPayload (invitation.attendees.map .str)
    invitation.sentPayload .null .null entry.current) := h.built
  unfold MeetingEntry.upsertFromInvite EntryOp.topicAfter
  generalize operationalPayload (invitation.attendees.map .str) invitation.sentPayload .null .null
    entry.current = payload at hbuilt ⊢
  by_cases hbrings : meetingTopic = []
  · simp only [if_pos hbrings]
    exact hbuilt
  · simp only [if_neg hbrings]
    have hfields : Dict.assign "resolved_at" resolvedAt meetingTopic ≠ [] := by
      obtain ⟨field, rest, rfl⟩ := List.exists_cons_of_ne_nil hbrings
      rw [Dict.assign]
      split <;> exact List.cons_ne_nil _ _
    have hother : ∀ key, "meeting_topic" ≠ key →
        valueAt (syncNewTopicClosedDate (payload.set "meeting_topic"
          (.dict (Dict.assign "resolved_at" resolvedAt meetingTopic))) meetingTopic
          invitation.closed) key = valueAt payload key := fun key hkey => by
      rw [valueAt_sync _ _ _ hkey, valueAt_set, if_neg hkey]
    change KeepsSeries base _ (syncNewTopicClosedDate _ _ _)
    refine ⟨?_, ?_, sameTopic_sync _ _ hfields (by rw [valueAt_set, if_pos rfl]) _⟩
    · rw [hother _ (by decide), hbuilt.meeting]
    · rw [hother _ (by decide), hbuilt.label]

theorem KeepsSeries.after {op : EntryOp} (hop : op.SparesSeries entry) :
    KeepsSeries base (op.topicAfter topic) (entry.after casefold op).current := by
  cases op with
  | savePendingAdd participants attendees added removed keepCurrentSlot =>
    unfold MeetingEntry.after EntryOp.apply MeetingEntry.savePendingAdd
    cases listOf (valueAt entry.current "attendees") with
    | none => exact h
    | some previous => exact h.built
  | savePendingRemoval participants attendees removed => exact h.built
  | clearPendingAdd =>
    exact h.of_eq fun key hkey => valueAt_clearPendingAdd entry (by
      simp only [List.mem_cons, List.not_mem_nil, or_false] at hkey
      rcases hkey with rfl | rfl | rfl <;> decide)
  | clearPendingRemoval =>
    refine h.of_eq fun key hkey => ?_
    change valueAt (entry.current.erase "pending_removal") key = _
    rw [valueAt_erase, if_neg (by rintro rfl; revert hkey; decide)]
  | markCancelled => exact h.markCancelled hop
  | applyReschedule invitation => exact h.applyReschedule invitation
  | upsertFromInvite invitation meetingTopic resolvedAt =>
    exact h.upsertFromInvite invitation meetingTopic resolvedAt

end

def topicAfterAll (topic : Value) (ops : List EntryOp) : Value :=
  ops.foldl EntryOp.topicAfter topic

/-- **The series and the topic survive operations that cancel no entry with one.** -/
theorem keepsSeries_run (entry : MeetingEntry) (ops : List EntryOp)
    (hall : EveryStep casefold EntryOp.SparesSeries entry ops) :
    KeepsSeries entry.current (topicAfterAll (valueAt entry.current "meeting_topic") ops)
      (entry.run casefold ops).current := by
  induction ops using List.reverseRecOn with
  | nil => exact ⟨rfl, rfl, fun _ _ => rfl⟩
  | append_singleton ops op ih =>
    have hbefore := ih fun before op' after heq =>
      hall before op' (after ++ [op]) (by rw [heq, List.append_assoc, List.cons_append])
    unfold topicAfterAll MeetingEntry.run at hbefore ⊢
    rw [List.foldl_append, List.foldl_cons, List.foldl_nil, List.foldl_append, List.foldl_cons,
      List.foldl_nil]
    exact hbefore.after (hall ops op [] rfl)

/-- **Pending changes can be undone, and the series and the topic survive**: the first along operations
on pending changes, the second along all operations. -/
structure PayloadSurvives (casefold : String → String) (entry : MeetingEntry)
    (ops : List EntryOp) : Prop where
  undone : (∀ op ∈ ops, op.IsPending) → Remembers entry.current entry.current →
    Undone casefold entry ops
  series : KeepsSeries entry.current (topicAfterAll (valueAt entry.current "meeting_topic") ops)
    (entry.run casefold ops).current

/-- An operation that loses nothing of the entry it finds. -/
def EntryOp.Harmless (op : EntryOp) (entry : MeetingEntry) : Prop :=
  (op.IsPending → op.Undoes entry) ∧ op.SparesSeries entry

/-- **Along operations that lose nothing of the entry they find, nothing is lost.** -/
theorem run_payloadSurvives (casefold : String → String) (entry : MeetingEntry) (ops : List EntryOp)
    (hall : EveryStep casefold EntryOp.Harmless entry ops) :
    PayloadSurvives casefold entry ops := by
  refine ⟨fun hpending hremembers => run_undone casefold entry ops hremembers ?_,
    keepsSeries_run entry ops fun before op after heq => (hall before op after heq).2⟩
  rintro before op after rfl
  exact (hall before op after rfl).1
    (hpending op (List.mem_append_right _ (.head _)))

/-- An invited entry with two attendees, a series and a topic. -/
def plannedMeeting : MeetingEntry where
  stage := .invitationsSent
  participants := ["Anna", "Boris"]
  payload := some (Dict.ofList
    [("attendees", texts ["anna@plant", "boris@plant"]), ("sent_payload", .dict []),
      ("scheduled_meeting_id", .str "S1"), ("series_recurrence_label", .str "weekly"),
      ("meeting_topic", .dict [("ref_key", .str "T1")])])

def nextInvitation : Invitation where
  attendees := ["anna@plant", "boris@plant"]
  sentPayload := .dict []
  names := ["Anna", "Boris"]
  closed := none

/-- A third participant is added, and it is taken back; the meeting is moved. -/
theorem run_payloadSurvives_added :
    PayloadSurvives id plannedMeeting
      [.savePendingAdd ["Anna", "Boris", "Clara"] ["anna@plant", "boris@plant", "clara@plant"] ["Clara"]
        [] true, .clearPendingAdd, .applyReschedule nextInvitation] :=
  run_payloadSurvives id plannedMeeting _
    (everyStep_cons ⟨fun _ => by rfl, trivial⟩
      (everyStep_cons ⟨fun _ => .inl (by rfl), trivial⟩
        (everyStep_cons ⟨fun h => h.elim, trivial⟩ everyStep_nil)))

/-- A removal that is taken back has lost the second attendee, and a meeting that is cancelled and
moved has lost its series. -/
theorem payloadSurvives_fails :
    ¬ PayloadSurvives id plannedMeeting
        [.savePendingRemoval ["Anna"] ["anna@plant"] ["Boris"], .clearPendingRemoval] ∧
      ¬ PayloadSurvives id plannedMeeting [.markCancelled, .applyReschedule nextInvitation] := by
  constructor
  · intro h
    have hundone := h.undone (by intro op hop; simp at hop; rcases hop with rfl | rfl <;> trivial)
      ⟨fun items hdict => (by cases hdict), fun hdict => by cases hdict⟩
    have hlost : some [Value.str "anna@plant"] =
        some [Value.str "anna@plant", .str "boris@plant"] :=
      (hundone.restored (by rfl) (by rfl)).attendees
    simp at hlost
  · intro h
    have hlost : Value.null = .str "S1" := h.series.meeting
    cases hlost

end AgentBack.Meetings
