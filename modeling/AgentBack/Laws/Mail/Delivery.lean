import AgentBack.Mail.Poller
import AgentBack.Laws.Mail.Intake

/-!
# What a poll does

The loops of a poll in closed form: of the letters that the fetches bring, those that are due go to
the queue in their order until the limit is reached (`queued_pollMailboxes`); on the server a poll
changes nothing but the flag of the letters that its fetches mark (`letters_pollMailboxes`).
-/

namespace AgentBack.Mail

variable {host : Host} {settings : PollSettings} {context : PollContext}

/-- The letters that the fetches bring, in the order in which the poll comes to them. -/
def brought (settings : PollSettings) (context : PollContext) :
    List (String × Outcome) → List Letter → List EmailMessage
  | [], _ => []
  | (mailbox, outcome) :: rest, letters =>
    (fetchMailbox settings context outcome letters mailbox).1 ++
      brought settings context rest (markSeen settings outcome.unseen letters mailbox)

def flagged (settings : PollSettings) : List (String × Outcome) → List Letter → List Letter
  | [], _ => []
  | (mailbox, outcome) :: rest, letters =>
    letters.filter (fun letter => isFlagged settings outcome.unseen letters mailbox letter) ++
      flagged settings rest (markSeen settings outcome.unseen letters mailbox)

/-- A letter that a poll puts in the queue when there is room. -/
def isDue (host : Host) (context : PollContext) (email : EmailMessage) : Bool :=
  !isDemoEmail host.lower email && shouldEnqueueEmail host context.now context.rows email

/-- The letters for the queue: the first due ones, as many as there is room for. -/
def dueFirst (host : Host) (settings : PollSettings) (context : PollContext)
    (emails : List EmailMessage) (enqueued : Nat) : List EmailMessage :=
  (emails.filter (isDue host context)).take ((maxEnqueue settings context.rows).toNat - enqueued)

/-! ## The queue -/

/-- Both counts of the queue after a part of a poll. -/
def Queues (host : Host) (settings : PollSettings) (context : PollContext)
    (emails : List EmailMessage) (poll poll' : Poll) : Prop :=
  poll'.queued = poll.queued ++ dueFirst host settings context emails poll.enqueued ∧
    poll'.enqueued = poll.enqueued + (dueFirst host settings context emails poll.enqueued).length

theorem Queues.trans {emails emails' : List EmailMessage} {poll poll' poll'' : Poll}
    (h : Queues host settings context emails poll poll')
    (h' : Queues host settings context emails' poll' poll'') :
    Queues host settings context (emails ++ emails') poll poll'' := by
  obtain ⟨hqueued, hcount⟩ := h
  obtain ⟨hqueued', hcount'⟩ := h'
  have hsplit : dueFirst host settings context (emails ++ emails') poll.enqueued =
      dueFirst host settings context emails poll.enqueued ++
        dueFirst host settings context emails' poll'.enqueued := by
    unfold dueFirst at hcount ⊢
    rw [List.length_take] at hcount
    rw [List.filter_append, List.take_append]
    congr 2
    omega
  constructor
  · rw [hqueued', hqueued, hsplit, List.append_assoc]
  · rw [hsplit, List.length_append]
    omega

theorem Queues.refl (poll : Poll) : Queues host settings context [] poll poll := by
  unfold Queues dueFirst
  simp only [List.filter_nil, List.take_nil, List.append_nil, List.length_nil, Nat.add_zero,
    and_self]

theorem queues_visitEmail (poll : Poll) (email : EmailMessage) :
    Queues host settings context [email] poll (visitEmail host settings context poll email) := by
  unfold Queues dueFirst visitEmail
  by_cases hfull : maxEnqueue settings context.rows ≤ poll.enqueued
  · have hroom : (maxEnqueue settings context.rows).toNat - poll.enqueued = 0 := by omega
    rw [if_pos hfull, hroom, List.take_zero]
    simp only [List.append_nil, List.length_nil, Nat.add_zero, and_self]
  · obtain ⟨room, hroom⟩ : ∃ room,
        (maxEnqueue settings context.rows).toNat - poll.enqueued = room + 1 :=
      ⟨(maxEnqueue settings context.rows).toNat - poll.enqueued - 1, by omega⟩
    rw [if_neg hfull, hroom]
    cases hdemo : isDemoEmail host.lower email <;>
      cases hdue : shouldEnqueueEmail host context.now context.rows email <;>
        simp [isDue, hdemo, hdue]

theorem queues_visitEmails (emails : List EmailMessage) (poll : Poll) :
    Queues host settings context emails poll
      (emails.foldl (visitEmail host settings context) poll) := by
  induction emails generalizing poll with
  | nil => exact Queues.refl poll
  | cons email rest ih =>
    rw [List.foldl_cons]
    exact (queues_visitEmail poll email).trans (ih _)

theorem letters_visitEmails (emails : List EmailMessage) (poll : Poll) :
    (emails.foldl (visitEmail host settings context) poll).letters = poll.letters := by
  induction emails generalizing poll with
  | nil => rfl
  | cons email rest ih =>
    rw [List.foldl_cons, ih]
    unfold visitEmail
    split_ifs <;> rfl

theorem letters_pollMailbox (poll : Poll) (mailbox : String × Outcome) :
    (pollMailbox host settings context poll mailbox).letters =
      markSeen settings mailbox.2.unseen poll.letters mailbox.1 := by
  unfold pollMailbox
  exact letters_visitEmails _ _

theorem queues_visits (visits : List (String × Outcome)) (poll : Poll) :
    Queues host settings context (brought settings context visits poll.letters) poll
      (visits.foldl (pollMailbox host settings context) poll) := by
  induction visits generalizing poll with
  | nil => exact Queues.refl poll
  | cons mailbox rest ih =>
    have hrest := ih (pollMailbox host settings context poll mailbox)
    rw [letters_pollMailbox] at hrest
    have hfirst : Queues host settings context
        (fetchMailbox settings context mailbox.2 poll.letters mailbox.1).1 poll
        (pollMailbox host settings context poll mailbox) :=
      queues_visitEmails _ { poll with
        letters := markSeen settings mailbox.2.unseen poll.letters mailbox.1
        errors := poll.errors ++ (fetchMailbox settings context mailbox.2 poll.letters mailbox.1).2 }
    rw [List.foldl_cons]
    exact hfirst.trans hrest

/-- A poll puts the first due letters in the queue, as many as `max_enqueue`. -/
theorem queued_pollMailboxes (outcomes : Nat → Outcome) (letters : List Letter) :
    (pollMailboxes host settings context outcomes letters).queued =
      dueFirst host settings context (brought settings context (visits settings outcomes) letters)
        0 := by
  have hqueues : Queues host settings context
      (brought settings context (visits settings outcomes) letters) { letters := letters }
      (pollMailboxes host settings context outcomes letters) :=
    queues_visits (visits settings outcomes) { letters := letters }
  rw [hqueues.1, List.nil_append]

/-- A letter on the server after the fetches was there before as it is now, or they mark it. -/
theorem mem_letters_visits {visits : List (String × Outcome)} {poll : Poll} {letter : Letter}
    (h : letter ∈ (visits.foldl (pollMailbox host settings context) poll).letters) :
    letter ∈ poll.letters ∨
      ∃ marked ∈ flagged settings visits poll.letters, marked.email = letter.email := by
  induction visits generalizing poll with
  | nil => exact .inl h
  | cons mailbox rest ih =>
    rw [List.foldl_cons] at h
    rcases ih h with hmem | ⟨marked, hmarked, hemail⟩
    · rw [letters_pollMailbox] at hmem
      obtain ⟨old, hold, rfl⟩ := List.mem_map.mp hmem
      split
      · rename_i hflag
        refine .inr ⟨old, List.mem_append_left _ ?_, rfl⟩
        exact List.mem_filter.mpr ⟨hold, decide_eq_true hflag⟩
      · exact .inl hold
    · rw [letters_pollMailbox] at hmarked
      exact .inr ⟨marked, List.mem_append_right _ hmarked, hemail⟩

theorem letters_pollMailboxes {outcomes : Nat → Outcome} {letters : List Letter} {letter : Letter}
    (h : letter ∈ (pollMailboxes host settings context outcomes letters).letters) :
    letter ∈ letters ∨
      ∃ marked ∈ flagged settings (visits settings outcomes) letters,
        marked.email = letter.email :=
  mem_letters_visits h

end AgentBack.Mail

/-!
# Letters that are lost

A poll sets the flag of the letters that it fetches before it knows whether there is room for them in
the queue, and the window of the catch-up moves on with the rows of the letters that are processed.
Where every letter that a poll flags finds room, and every task writes a row, no letter is lost.
-/

namespace AgentBack.Mail

variable {host : Host} {settings : PollSettings}

/-- Every letter is in the queue or has a row, or a later poll still gets it: it has no flag, or it
is in the window of the catch-up and its Message-ID is not passed over. -/
def NoMailLost (host : Host) (settings : PollSettings) (today : Int) (state : Delivery) : Prop :=
  ∀ letter ∈ state.letters, letter.email.mailbox ∈ settings.mailboxList →
    isDemoEmail host.lower letter.email = false →
      letter.email.messageId ∈ state.queue.map (·.messageId) ∨
        HasRow host.lower state.rows letter.email.messageId ∨
        letter.seen = false ∨
        (catchupSinceDate settings today (lastReceivedAt state.rows letter.email.mailbox) ≤
            letter.date ∧
          isExcluded (knownBases state.rows letter.email.mailbox) letter = false)

/-- A poll that finds room for every letter that it flags: each due one is among the first due ones
that it comes to, or is in the queue already. -/
def PollKeeps (host : Host) (settings : PollSettings) (context : PollContext)
    (outcomes : Nat → Outcome) (state : Delivery) : Prop :=
  ∀ letter ∈ flagged settings (visits settings outcomes) state.letters,
    isDue host context letter.email →
      letter.email.messageId ∈ (state.queue ++ dueFirst host settings context
        (brought settings context (visits settings outcomes) state.letters) 0).map (·.messageId)

/-- The condition under which an event loses no letter. -/
def Keeps (host : Host) (settings : PollSettings) (state : Delivery) : Event → Prop
  | .arrive _ => True
  | .poll now today outcomes =>
    PollKeeps host settings { now := now, today := today, rows := state.rows } outcomes state
  | .work place _ graph => ∀ email ∈ state.queue[place]?, WritesRow host graph email

/-- Every letter that is no demo letter still has no flag, or is in the queue or has a row. -/
def Kept (host : Host) (state : Delivery) : Prop :=
  ∀ letter ∈ state.letters, isDemoEmail host.lower letter.email = false →
    letter.seen = false ∨
      letter.email.messageId ∈ state.queue.map (·.messageId) ∨
      HasRow host.lower state.rows letter.email.messageId

theorem Kept.arrive {state : Delivery} {letter : Letter} (h : Kept host state)
    (hseen : letter.seen = false) :
    Kept host { state with letters := state.letters ++ [letter] } := by
  intro other hmem hdemo
  rcases List.mem_append.mp hmem with hold | hnew
  · exact h other hold hdemo
  · rw [List.mem_singleton.mp hnew]
    exact .inl hseen

theorem Kept.poll {state : Delivery} {context : PollContext} {outcomes : Nat → Outcome}
    (h : Kept host state) (hrows : context.rows = state.rows)
    (hkeeps : PollKeeps host settings context outcomes state) :
    Kept host { state with
      letters := (pollMailboxes host settings context outcomes state.letters).letters
      queue := state.queue ++ (pollMailboxes host settings context outcomes state.letters).queued } :=
    by
  intro letter hmem hdemo
  rw [queued_pollMailboxes]
  rcases letters_pollMailboxes hmem with hold | ⟨marked, hmarked, hemail⟩
  · rcases h letter hold hdemo with hunseen | hqueued | hrow
    · exact .inl hunseen
    · refine .inr (.inl ?_)
      rw [List.map_append]
      exact List.mem_append_left _ hqueued
    · exact .inr (.inr hrow)
  · refine .inr ?_
    rw [← hemail] at hdemo ⊢
    by_cases hdue : shouldEnqueueEmail host context.now context.rows marked.email
    · refine .inl (hkeeps marked hmarked ?_)
      rw [isDue, hdemo, hdue]
      rfl
    · refine .inr ?_
      rw [← hrows]
      exact hasRow_of_not_shouldEnqueue (Bool.eq_false_iff.mpr hdue)

theorem Kept.work {state : Delivery} {place : Nat} {now : Int} {graph : String → GraphRun}
    {email : EmailMessage} (h : Kept host state) (hplace : state.queue[place]? = some email)
    (hwrites : WritesRow host graph email) :
    Kept host { state with
      rows := processEmail host now graph state.rows email
      queue := state.queue.eraseIdx place } := by
  intro letter hmem hdemo
  rcases h letter hmem hdemo with hunseen | hqueued | hrow
  · exact .inl hunseen
  · obtain ⟨queued, hqueue, hid⟩ := List.mem_map.mp hqueued
    obtain ⟨other, hother⟩ := List.mem_iff_getElem?.mp hqueue
    by_cases hsame : other = place
    · rw [hsame, hplace] at hother
      rw [← hid, ← Option.some.inj hother]
      exact .inr (.inr (hasRow_processEmail hwrites state.rows))
    · have hrest : queued ∈ state.queue.eraseIdx place :=
        List.mem_eraseIdx_iff_getElem?.mpr ⟨other, hsame, hother⟩
      exact .inr (.inl (List.mem_map.mpr ⟨queued, hrest, hid⟩))
  · exact .inr (.inr (hrow.mono fun key hkey => keys_processEmail_mono hkey))

theorem Kept.step {state state' : Delivery} {event : Event} (h : Kept host state)
    (hkeeps : Keeps host settings state event)
    (hstep : state.step host settings event = some state') : Kept host state' := by
  cases event with
  | arrive letter =>
    rw [Delivery.step] at hstep
    split at hstep
    · rename_i hnew
      cases hstep
      exact h.arrive hnew.1
    · cases hstep
  | poll now today outcomes =>
    cases hstep
    exact h.poll rfl hkeeps
  | work place now graph =>
    rw [Delivery.step] at hstep
    split at hstep
    · cases hstep
    · rename_i email hplace
      cases hstep
      exact h.work hplace (hkeeps email hplace)

theorem Kept.noMailLost {state : Delivery} (h : Kept host state) (today : Int) :
    NoMailLost host settings today state := by
  intro letter hmem _ hdemo
  rcases h letter hmem hdemo with hunseen | hqueued | hrow
  · exact .inr (.inr (.inl hunseen))
  · exact .inl hqueued
  · exact .inr (.inl hrow)

def wallHost : Host := { lower := id, stored := (·.wall) }

def infoSettings : PollSettings := { mailboxList := ["info@b"] }

def letterOf (uid : Nat) (day : Int) (seen : Bool) : Letter :=
  { uid := uid
    date := day
    headerId := "<" ++ toString uid ++ "@a>"
    email :=
      { messageId := "<" ++ toString uid ++ "@a>"
        mailbox := "info@b"
        senderEmail := "c@d"
        receivedAt := { wall := day * 86400000000, utcOffset := none }
        to_ := ["info@b"] }
    seen := seen }

def doneRow (uid : Nat) (day : Int) : EmailMessageRow :=
  { messageId := "<" ++ toString uid ++ "@a>#info@b"
    mailbox := "info@b"
    receivedAt := day * 86400000000
    status := .done
    startedAt := none }

def whole : Outcome :=
  let fetch : Fetch := { sends := fun _ => true, parsed := 1000, raised := none }
  { unseen := fetch, catchup := fetch }

def workDone (place : Nat) : Event := .work place 0 fun _ => .finished (some .done)

/-- Six letters gather; the poll flags all of them and puts the five newest in the queue, and with
their rows the window of the catch-up moves past the first. -/
def crowd : List Event :=
  [.arrive (letterOf 0 1 false), .arrive (letterOf 1 5 false), .arrive (letterOf 2 5 false),
    .arrive (letterOf 3 5 false), .arrive (letterOf 4 5 false), .arrive (letterOf 5 5 false),
    .poll 0 5 (fun _ => whole), workDone 0, workDone 0, workDone 0, workDone 0, workDone 0]

def crowded : Delivery :=
  { letters := letterOf 0 1 true :: [1, 2, 3, 4, 5].map fun uid => letterOf uid 5 true
    rows := [5, 4, 3, 2, 1].map fun uid => doneRow uid 5
    queue := [] }

/-- Every event sequence that can occur is a run. -/
theorem Delivery.Reaches.run (events : List Event) {state state' : Delivery}
    (h : Delivery.Reaches host settings (fun _ _ => True) state)
    (hrun : events.foldlM (Delivery.step host settings) state = some state') :
    Delivery.Reaches host settings (fun _ _ => True) state' := by
  induction events generalizing state with
  | nil =>
    cases hrun
    exact h
  | cons event rest ih =>
    rw [List.foldlM_cons] at hrun
    obtain ⟨next, hnext, hrest⟩ := Option.bind_eq_some_iff.mp hrun
    exact ih (h.step trivial hnext) hrest

theorem toList_prefix_routingMessageId (lower : String → String) (base recipient : String) :
    base.toList <+: (routingMessageId lower base recipient).toList := by
  unfold routingMessageId
  split
  · exact List.prefix_refl _
  · rw [String.toList_append, String.toList_append, List.append_assoc]
    exact List.prefix_append _ _

end AgentBack.Mail
