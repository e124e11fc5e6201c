import AgentBack.Outlook.Search

/-!
# Quorum search (`find_quorum_slots` in `slot_search/search.py`)

The search walks the candidate slots, divides the attendees into free and busy ones at each, ranks
the slots and verifies the first few against the calendar. The scores of `slot_search/scoring.py`
are floating-point numbers; here they are the `Scoring` of the search, a coverage ratio and the
three orders that the function sorts by. The conflict records of a candidate are left out.
-/

namespace AgentBack.Outlook

/-- One entry of `scored` and `scored_fallback`. -/
structure QuorumItem where
  slotStart : Int
  slotEnd : Int
  freeAttendees : List String
  busyAttendees : List String
  requiredOk : Bool
  deriving DecidableEq

/-- One entry of `candidates`. -/
structure QuorumCandidate where
  slotStart : Int
  slotEnd : Int
  freeAttendees : List String
  busyAttendees : List String
  requiredOk : Bool
  verified : Bool

/-- The scores: the ratio that is compared with `min_coverage_ratio`, and the orders of
`_quorum_pool_sort_key`, of the reschedule pool and of `_quorum_candidate_sort_key`. -/
structure Scoring where
  scoreRatio : List String → List String → Rat
  poolBefore : Int → QuorumItem → QuorumItem → Bool
  rescheduleBefore : Int → QuorumItem → QuorumItem → Bool
  candidateBefore : Int → QuorumCandidate → QuorumCandidate → Bool

def quorumRankShortlistMultiplier : Nat := 5

/-- What the caller passes to `find_quorum_slots`. -/
structure QuorumRequest where
  attendees : List String
  preferred : Int
  duration : Int
  maxDays : Int
  step : Int
  maxItems : Int
  source : AvailabilitySource
  requiredAttendees : Option (List String)
  minCoverageRatio : Rat
  maxResults : Nat
  verifyTopN : Nat
  verifyCalendar : Bool
  latestAllowed : Option Int
  raiseIfEmpty : Bool

/-- `required`: the required ones among the attendees, and all of them when there are none. -/
def QuorumRequest.required (request : QuorumRequest) : List String :=
  let required := match request.requiredAttendees with
    | some (email :: rest) => (email :: rest).filter (· ∈ request.attendees)
    | _ => request.attendees
  if required = [] then request.attendees else required

def QuorumRequest.earliestAllowed (request : QuorumRequest) (now : Int) : Int :=
  quorumSearchStart request.preferred now

def QuorumRequest.searchEnd (request : QuorumRequest) (now : Int) : Int :=
  let searchEnd := request.earliestAllowed now + request.maxDays * day
  match request.latestAllowed with
  | none => searchEnd
  | some latest => min searchEnd (dropSeconds latest)

/-- The division of the attendees at one candidate; nothing is recorded when nobody is free. -/
def quorumItem (request : QuorumRequest) (busyByAttendee : BusyMap) (candidate : Int) :
    Option QuorumItem :=
  if request.latestAllowed.any fun latest => decide (candidate ≥ dropSeconds latest) then none
  else
    let (freeAttendees, busyAttendees) :=
      partitionAttendeesAtSlot candidate request.duration request.attendees busyByAttendee
    if freeAttendees = [] then none
    else some {
      slotStart := candidate
      slotEnd := candidate + request.duration
      freeAttendees, busyAttendees
      requiredOk := request.required.all (· ∈ freeAttendees) }

/-- The walk of `find_quorum_slots`: the number of checked candidates and `scored_fallback`, the
recorded ones in order. -/
def scanQuorumSlots (fuel : Nat) (now : Int) (request : QuorumRequest) (busyByAttendee : BusyMap) :
    Option (Nat × List QuorumItem) :=
  (iterateSlotCandidates fuel (request.earliestAllowed now) (request.searchEnd now)
      request.duration request.step).map fun candidates =>
    (candidates.length, candidates.filterMap (quorumItem request busyByAttendee))

/-- `append_candidate`: the first `verifyCount` items are divided again by the calendar. -/
def appendCandidate (exchange : Exchange) (request : QuorumRequest) (verifyCount : Nat)
    (allowRequiredFailures : Bool) (candidates : List QuorumCandidate)
    (indexed : QuorumItem × Nat) : Except String (List QuorumCandidate) :=
  let (item, index) := indexed
  if index < verifyCount then do
    let (calendarOk, calendarBusy) ←
      verifySlotWithCalendar exchange request.attendees item.slotStart request.duration
    let (freeAttendees, busyAttendees) := partitionAttendeesAtSlot item.slotStart request.duration
      request.attendees calendarBusy
    let requiredOk := request.required.all (· ∈ freeAttendees)
    if ¬ allowRequiredFailures ∧ ¬ requiredOk then return candidates
    else if freeAttendees = [] then return candidates
    else return candidates ++ [{
      slotStart := item.slotStart, slotEnd := item.slotEnd, freeAttendees, busyAttendees,
      requiredOk, verified := calendarOk }]
  else
    return candidates ++ [{
      slotStart := item.slotStart, slotEnd := item.slotEnd, freeAttendees := item.freeAttendees,
      busyAttendees := item.busyAttendees, requiredOk := item.requiredOk, verified := false }]

inductive SearchMode where
  | quorum
  | quorumFallback
  | rescheduleAssisted
  | empty
  deriving DecidableEq

/-- What `find_quorum_slots` returns. -/
structure QuorumResult where
  preferred : Int
  earliestAllowed : Int
  searchUntil : Int
  minCoverageRatio : Rat
  requiredAttendees : List String
  attendees : List String
  checkedCandidates : Nat
  availabilitySource : AvailabilitySource
  searchMode : SearchMode
  partialFallback : Bool
  candidates : List QuorumCandidate
  availabilitySnapshot : BusyMap

/-- What `find_quorum_slots` does with the recorded candidates: rank them, verify the first ones
and keep the best. -/
def rankQuorumSlots (exchange : Exchange) (scoring : Scoring) (now : Int)
    (request : QuorumRequest) (busyByAttendee : BusyMap) (checked : Nat)
    (scoredFallback : List QuorumItem) : Except SearchError QuorumResult :=
  let requested := dropSeconds request.preferred
  let scored := scoredFallback.filter fun item => item.requiredOk &&
    decide (request.minCoverageRatio ≤ scoring.scoreRatio item.freeAttendees request.attendees)
  let useFallback := scored.isEmpty
  let pool := (if useFallback then scoredFallback else scored).mergeSort
    (scoring.poolBefore requested)
  -- the fallback pool is sorted in place
  let scoredFallback := if useFallback then pool else scoredFallback
  let shortlistSize :=
    min pool.length (max (request.maxResults * quorumRankShortlistMultiplier)
      (request.maxResults + 10))
  let verifyCount := if request.verifyCalendar then request.verifyTopN else 0
  let append := fun (allow : Bool) (items : List QuorumItem) =>
    items.zipIdx.foldlM (appendCandidate exchange request verifyCount allow) []
  let found : Except String (List QuorumCandidate × Bool) := do
    let candidates ← append useFallback (pool.take (max shortlistSize 1))
    if candidates.isEmpty && !scoredFallback.isEmpty then
      let reschedulePool := scoredFallback.mergeSort (scoring.rescheduleBefore requested)
      let candidates ← append true (reschedulePool.take (max shortlistSize 1))
      return (candidates, !candidates.isEmpty)
    else return (candidates, false)
  match found with
  | .error fault => .error (.exchangeError fault)
  | .ok (candidates, rescheduleAssisted) =>
    let useFallback := useFallback || rescheduleAssisted
    let candidates := (candidates.mergeSort (scoring.candidateBefore requested)).take
      (max request.maxResults 1)
    if candidates.isEmpty && request.raiseIfEmpty then
      .error (.quorumNotFound request.minCoverageRatio request.required.length request.maxDays)
    else .ok {
      preferred := requested
      earliestAllowed := request.earliestAllowed now
      searchUntil := request.searchEnd now
      minCoverageRatio := request.minCoverageRatio
      requiredAttendees := request.required
      attendees := request.attendees
      checkedCandidates := checked
      availabilitySource := request.source
      searchMode :=
        if candidates.isEmpty then .empty
        else if rescheduleAssisted then .rescheduleAssisted
        else if useFallback then .quorumFallback
        else .quorum
      partialFallback := useFallback
      candidates
      availabilitySnapshot := busyByAttendee }

def findQuorumSlots (fuel : Nat) (lower : String → String) (exchange : Exchange)
    (scoring : Scoring) (now : Int) (request : QuorumRequest) (prefetched : Option BusyMap) :
    Option (Except SearchError QuorumResult) :=
  if request.attendees = [] then
    some (.error (.valueError "Укажите хотя бы одного участника (--attendee)."))
  else if request.duration ≤ 0 then
    some (.error (.valueError "Длительность должна быть больше 0."))
  else if request.maxDays < 1 then
    some (.error (.valueError "--max-days должно быть >= 1."))
  else if ¬ (0 < request.minCoverageRatio ∧ request.minCoverageRatio ≤ 1) then
    some (.error (.valueError "min_coverage_ratio должно быть в диапазоне (0, 1]."))
  else
    match busyForWindow lower exchange request.attendees (request.earliestAllowed now)
      (request.searchEnd now) request.source request.maxItems prefetched with
    | .error fault => some (.error (.exchangeError fault))
    | .ok busyByAttendee =>
      (scanQuorumSlots fuel now request busyByAttendee).map fun (checked, scoredFallback) =>
        rankQuorumSlots exchange scoring now request busyByAttendee checked scoredFallback

end AgentBack.Outlook
