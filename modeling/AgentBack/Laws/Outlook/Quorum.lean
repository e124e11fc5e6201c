import AgentBack.Laws.Outlook.Busy
import AgentBack.Outlook.Quorum

/-!
# When the quorum search reports the right attendees free

`partition_attendees_at_slot` looks an address up as it is spelled, and an address that is no key
has no busy intervals. The fetched map is keyed by the stripped addresses and the clipped map of a
prefetch by the stripped and lowered ones, so an attendee whose address is spelled otherwise is
reported free at every slot. `findQuorumSlots_reports_iff` says exactly when both maps report right,
and `findQuorumSlots_prefetched` when a search on a prefetch answers as one that fetches.
-/

namespace AgentBack.Outlook

open Text (strip normalize)

/-! ## What the two maps hold -/

/-- The map carries the data of every attendee, under any spelling of the address. -/
structure SameData (lower : String → String) (data : String → List Interval)
    (attendees : List String) (busyByAttendee : BusyMap) : Prop where
  present : ∀ a ∈ attendees, ∃ key ∈ busyByAttendee.keys, normalize lower key = normalize lower a
  agrees : ∀ a ∈ attendees, ∀ key intervals, busyByAttendee.get? key = some intervals →
    normalize lower key = normalize lower a → intervals = data (normalize lower a)

section Lookups

variable {lower : String → String} {data : String → List Interval} {attendees : List String}
  {exchange : Exchange} {rangeStart rangeEnd maxItems : Int} {fetched prefetched : BusyMap}

/-- The views of a request are kept under the stripped addresses. -/
private theorem views_get? {views : Dict String FreeBusyView}
    (h : fetchFreeBusyViews exchange attendees rangeStart rangeEnd = .ok views) :
    (∀ a ∈ attendees, (views.get? (strip a)).isSome) ∧
      ∀ key, (views.get? key).isSome → ∃ a ∈ attendees, strip a = key := by
  unfold fetchFreeBusyViews at h
  simp only at h
  split at h
  · cases h
  · next answers _ =>
    split at h
    · cases h
    · next hlen =>
      obtain rfl := Except.ok.inj h
      have hkeys : ((attendees.map strip).zip answers).map Prod.fst = attendees.map strip :=
        List.map_fst_zip (by
          have := not_not.mp hlen
          omega)
      refine ⟨fun a ha => Dict.isSome_get?_ofList ?_, fun key hkey => ?_⟩
      · rw [hkeys]
        exact List.mem_map_of_mem ha
      · obtain ⟨view, hview⟩ := Option.isSome_iff_exists.mp hkey
        have hmem : key ∈ ((attendees.map strip).zip answers).map Prod.fst :=
          List.mem_map.mpr ⟨(key, view), Dict.mem_of_get?_ofList hview, rfl⟩
        rw [hkeys] at hmem
        obtain ⟨a, ha, rfl⟩ := List.mem_map.mp hmem
        exact ⟨a, ha, rfl⟩

/-- A look-up in the fetched map succeeds for the stripped addresses only. -/
theorem getD_fetched
    (hfetch : fetchBusyIntervalsFreebusy exchange attendees rangeStart rangeEnd = .ok fetched)
    (hsame : SameData lower data attendees fetched) {a : String} (ha : a ∈ attendees) :
    fetched.getD a [] = if strip a = a then data (normalize lower a) else [] := by
  unfold fetchBusyIntervalsFreebusy at hfetch
  cases hviews : fetchFreeBusyViews exchange attendees rangeStart rangeEnd with
  | error fault =>
    rw [hviews] at hfetch
    cases hfetch
  | ok views =>
    rw [hviews] at hfetch
    have hget : ∀ key, (fetched.get? key).isSome = (views.get? key).isSome := by
      obtain rfl := Except.ok.inj hfetch
      intro key
      rw [Dict.get?_mapItems, Option.isSome_map]
    obtain ⟨hpresent, hstripped⟩ := views_get? hviews
    unfold Dict.getD
    split
    · next hstrip =>
      have hsome := hpresent a ha
      rw [hstrip, ← hget] at hsome
      obtain ⟨intervals, hintervals⟩ := Option.isSome_iff_exists.mp hsome
      rw [hintervals, Option.getD_some]
      exact hsame.agrees a ha a intervals hintervals rfl
    · next hstrip =>
      cases hnone : fetched.get? a with
      | none => rfl
      | some intervals =>
        obtain ⟨b, _, hb⟩ := hstripped a (by rw [← hget, hnone, Option.isSome_some])
        refine absurd ?_ hstrip
        rw [← hb, Text.strip_strip]

/-- What the clipped map of a prefetch holds comes from a key of the same normalised address. -/
private theorem clipped_from {k : String} {v : List Interval}
    (h : (clipBusyByAttendeeForWindow lower prefetched rangeStart rangeEnd).get? k = some v) :
    ∃ key intervals, prefetched.get? key = some intervals ∧ normalize lower key = k ∧
      v = coalesceIntervals intervals (some rangeStart) (some rangeEnd) := by
  obtain ⟨⟨key, intervals⟩, hmem, heq⟩ := List.mem_map.mp (Dict.mem_of_get?_ofList h)
  obtain ⟨hkey, hclip⟩ := Prod.mk.inj heq
  exact ⟨key, intervals, Dict.get?_eq_some_iff.mpr hmem, hkey, hclip.symm⟩

/-- The clipped map has the data of every attendee under the normalised address. -/
theorem get?_clipped (hsame : SameData lower data attendees prefetched) {a : String}
    (ha : a ∈ attendees) :
    (clipBusyByAttendeeForWindow lower prefetched rangeStart rangeEnd).get? (normalize lower a) =
      some (coalesceIntervals (data (normalize lower a)) (some rangeStart) (some rangeEnd)) := by
  obtain ⟨key, hkey, heq⟩ := hsame.present a ha
  obtain ⟨⟨key', intervals⟩, hmem, hkey'⟩ := List.mem_map.mp hkey
  obtain rfl : key' = key := hkey'
  have hsome : ((clipBusyByAttendeeForWindow lower prefetched rangeStart rangeEnd).get?
      (normalize lower a)).isSome :=
    Dict.isSome_get?_ofList (List.mem_map.mpr ⟨_, List.mem_map_of_mem hmem, heq⟩)
  obtain ⟨v, hv⟩ := Option.isSome_iff_exists.mp hsome
  obtain ⟨found, intervals', hget, hnorm, rfl⟩ := clipped_from hv
  rw [hv, hsame.agrees a ha found intervals' hget hnorm]

/-- A look-up in the clipped map as it is spelled succeeds for the normalised addresses only. -/
theorem getD_clipped (hlower : Text.LawfulLower lower)
    (hsame : SameData lower data attendees prefetched) {a : String} (ha : a ∈ attendees) :
    (clipBusyByAttendeeForWindow lower prefetched rangeStart rangeEnd).getD a [] =
      if normalize lower a = a then
        coalesceIntervals (data (normalize lower a)) (some rangeStart) (some rangeEnd)
      else [] := by
  unfold Dict.getD
  split
  · next hnorm =>
    have hget := @get?_clipped _ _ _ rangeStart rangeEnd _ hsame _ ha
    rw [hnorm] at hget ⊢
    rw [hget, Option.getD_some]
  · next hnorm =>
    cases hnone : (clipBusyByAttendeeForWindow lower prefetched rangeStart rangeEnd).get? a with
    | none => rfl
    | some v =>
      obtain ⟨key, _, _, hkey, _⟩ := clipped_from hnone
      refine absurd ?_ hnorm
      rw [← hkey, Text.normalize_normalize hlower]

end Lookups

/-- Every candidate of the walk starts before the end of the search. -/
theorem iterateSlotCandidates_lt {fuel : Nat} {earliestAllowed searchEnd duration step : Int}
    {candidates : List Int}
    (h : iterateSlotCandidates fuel earliestAllowed searchEnd duration step = some candidates) :
    ∀ c ∈ candidates, c < searchEnd := by
  refine Pass.run_inv (fun s : Int × List Int => ∀ c ∈ s.2, c < searchEnd)
    (fun candidates => ∀ c ∈ candidates, c < searchEnd) (fun s s' hs hpass => ?_)
    (fun s r hs hpass => ?_) (by simp) h
  · obtain ⟨candidate, emitted⟩ := s
    simp only [iteratePass] at hpass
    split at hpass
    · next hin =>
      obtain ⟨next, _, heq⟩ := Option.map_eq_some_iff.mp hpass
      cases heq
      intro c hc
      show c < searchEnd
      have hc : c ∈ if slotRespectsRules candidate duration then emitted ++ [candidate]
          else emitted := hc
      split at hc
      · rcases List.mem_append.mp hc with hc | hc
        · exact hs c hc
        · obtain rfl := List.mem_singleton.mp hc
          exact hin.1
      · exact hs c hc
    · cases hpass
  · obtain ⟨candidate, emitted⟩ := s
    simp only [iteratePass] at hpass
    split at hpass
    · obtain ⟨next, _, heq⟩ := Option.map_eq_some_iff.mp hpass
      cases heq
    · cases hpass
      exact hs

/-- The end of the search is not behind `latest_allowed`. -/
private theorem searchEnd_le_latest (request : QuorumRequest) (now : Int) :
    ∀ latest ∈ request.latestAllowed, request.searchEnd now ≤ dropSeconds latest := by
  intro latest hlatest
  unfold QuorumRequest.searchEnd
  rw [Option.mem_def.mp hlatest]
  exact min_le_right _ _

/-- At a candidate of the walk an attendee is recorded free exactly when the map says so. -/
private theorem mem_free_of_candidate {request : QuorumRequest} {now c : Int}
    (hc : c < request.searchEnd now) {busyByAttendee : BusyMap} {a : String}
    (ha : a ∈ request.attendees)
    (hfree : isFreeForAttendee c request.duration (busyByAttendee.getD a []) = true) :
    ∃ item, quorumItem request busyByAttendee c = some item ∧ item.slotStart = c ∧
      a ∈ item.freeAttendees := by
  have hlatest : (request.latestAllowed.any fun latest => decide (c ≥ dropSeconds latest)) = false := by
    cases hl : request.latestAllowed with
    | none => rfl
    | some latest =>
      have := searchEnd_le_latest request now latest hl
      rw [Option.any_some, decide_eq_false_iff_not]
      omega
  have hmem : a ∈ (partitionAttendeesAtSlot c request.duration request.attendees
      busyByAttendee).1 := by
    rw [partitionAttendeesAtSlot, List.partition_eq_filter_filter]
    exact List.mem_filter.mpr ⟨ha, hfree⟩
  unfold quorumItem
  rw [if_neg (by rw [hlatest]; exact Bool.false_ne_true)]
  simp only
  rw [if_neg (List.ne_nil_of_mem hmem)]
  exact ⟨_, rfl, rfl, hmem⟩

private theorem mem_free_of_quorumItem {request : QuorumRequest} {busyByAttendee : BusyMap}
    {c : Int} {item : QuorumItem} (h : quorumItem request busyByAttendee c = some item) :
    item.slotStart = c ∧ ∀ a ∈ item.freeAttendees, a ∈ request.attendees ∧
      isFreeForAttendee c request.duration (busyByAttendee.getD a []) = true := by
  unfold quorumItem at h
  split at h
  · cases h
  · simp only at h
    split at h
    · cases h
    · cases h
      refine ⟨rfl, fun a ha => ?_⟩
      have ha : a ∈ (partitionAttendeesAtSlot c request.duration request.attendees
        busyByAttendee).1 := ha
      rw [partitionAttendeesAtSlot, List.partition_eq_filter_filter] at ha
      exact List.mem_filter.mp ha

/-- Maps that agree on every attendee give the same item. -/
private theorem quorumItem_congr {request : QuorumRequest} {busy busy' : BusyMap} {c : Int}
    (h : ∀ a ∈ request.attendees, isFreeForAttendee c request.duration (busy.getD a []) =
      isFreeForAttendee c request.duration (busy'.getD a [])) :
    quorumItem request busy c = quorumItem request busy' c := by
  have hpart : partitionAttendeesAtSlot c request.duration request.attendees busy =
      partitionAttendeesAtSlot c request.duration request.attendees busy' := by
    simp only [partitionAttendeesAtSlot, List.partition_eq_filter_filter, Function.comp_def]
    refine Prod.ext (List.filter_congr h) (List.filter_congr fun a ha => ?_)
    rw [h a ha]
  unfold quorumItem
  rw [hpart]

/-! ## Reporting right -/

/-- The walk reports an attendee free only where the attendee's own intervals leave the slot free,
looked up under the normalised address. -/
def ReportsRight (lower : String → String) (data : String → List Interval) (now : Int)
    (request : QuorumRequest) (busyByAttendee : BusyMap) : Prop :=
  ∀ fuel checked items, scanQuorumSlots fuel now request busyByAttendee = some (checked, items) →
    ∀ item ∈ items, ∀ a ∈ item.freeAttendees,
      isFreeForAttendee item.slotStart request.duration (data (normalize lower a)) = true

/-- Every attendee who is busy at a candidate is spelled as the normalised address, and is still
busy there when the intervals are clipped to the search window. -/
def SpelledRight (lower : String → String) (data : String → List Interval) (now : Int)
    (request : QuorumRequest) : Prop :=
  ∀ fuel candidates, iterateSlotCandidates fuel (request.earliestAllowed now)
      (request.searchEnd now) request.duration request.step = some candidates →
    ∀ c ∈ candidates, ∀ a ∈ request.attendees,
      isFreeForAttendee c request.duration (data (normalize lower a)) = false →
        normalize lower a = a ∧
        isFreeForAttendee c request.duration (coalesceIntervals (data (normalize lower a))
          (some (request.earliestAllowed now)) (some (request.searchEnd now))) = false

/-- Coalescing and clipping make nobody busy. -/
private theorem free_coalesced {c duration : Int} (hdur : 0 < duration)
    {intervals : List Interval} {clipStart clipEnd : Option Int}
    (h : isFreeForAttendee c duration intervals = true) :
    isFreeForAttendee c duration (coalesceIntervals intervals clipStart clipEnd) = true := by
  rw [isFreeForAttendee_iff] at h ⊢
  intro block hblock hov
  obtain ⟨x, hx, iv, hiv, hxiv⟩ := exists_covered_of_overlap hdur hblock hov
  exact Span.apart_of_not_overlap (h iv hiv) x hx hxiv

/-- At every candidate of the walk the map agrees with the data of every attendee. -/
private def Agrees (lower : String → String) (data : String → List Interval) (now : Int)
    (request : QuorumRequest) (busyByAttendee : BusyMap) : Prop :=
  ∀ fuel candidates, iterateSlotCandidates fuel (request.earliestAllowed now)
      (request.searchEnd now) request.duration request.step = some candidates →
    ∀ c ∈ candidates, ∀ a ∈ request.attendees,
      isFreeForAttendee c request.duration (busyByAttendee.getD a []) =
        isFreeForAttendee c request.duration (data (normalize lower a))

section Reports

variable {lower : String → String} {data : String → List Interval} {now : Int}
  {request : QuorumRequest} {fetched prefetched : BusyMap}

private theorem Agrees.reportsRight {busyByAttendee : BusyMap}
    (h : Agrees lower data now request busyByAttendee) :
    ReportsRight lower data now request busyByAttendee := by
  intro fuel checked items hscan item hitem a ha
  obtain ⟨candidates, hcandidates, heq⟩ := Option.map_eq_some_iff.mp hscan
  obtain ⟨_, rfl⟩ := Prod.mk.inj heq
  obtain ⟨c, hc, hquorum⟩ := List.mem_filterMap.mp hitem
  obtain ⟨rfl, hfree⟩ := mem_free_of_quorumItem hquorum
  obtain ⟨hmem, hfree⟩ := hfree a ha
  rw [← h fuel candidates hcandidates _ hc a hmem]
  exact hfree

/-- Two maps that agree with the data are walked with the same result. -/
private theorem Agrees.scan_eq {busy busy' : BusyMap} (h : Agrees lower data now request busy)
    (h' : Agrees lower data now request busy') (fuel : Nat) :
    scanQuorumSlots fuel now request busy = scanQuorumSlots fuel now request busy' := by
  unfold scanQuorumSlots
  cases hcandidates : iterateSlotCandidates fuel (request.earliestAllowed now)
      (request.searchEnd now) request.duration request.step with
  | none => rfl
  | some candidates =>
    have hitems : ∀ c ∈ candidates,
        quorumItem request busy c = quorumItem request busy' c := by
      intro c hc
      apply quorumItem_congr
      intro a ha
      rw [h fuel candidates hcandidates c hc a ha, h' fuel candidates hcandidates c hc a ha]
    rw [Option.map_some, Option.map_some, List.filterMap_congr hitems]

variable (hlower : Text.LawfulLower lower)
include hlower

private theorem SpelledRight.agrees_fetched {exchange : Exchange}
    (hspelled : SpelledRight lower data now request)
    (hfetch : fetchBusyIntervalsFreebusy exchange request.attendees (request.earliestAllowed now)
      (request.searchEnd now) = .ok fetched)
    (hsame : SameData lower data request.attendees fetched) :
    Agrees lower data now request fetched := by
  intro fuel candidates hcandidates c hc a ha
  rw [getD_fetched hfetch hsame ha]
  split
  · rfl
  · next hstrip =>
    cases hdata : isFreeForAttendee c request.duration (data (normalize lower a)) with
    | true => rfl
    | false =>
      -- a normalised address is stripped
      obtain ⟨hnorm, _⟩ := hspelled fuel candidates hcandidates c hc a ha hdata
      refine absurd ?_ hstrip
      rw [← hnorm, Text.normalize, hlower.stripped]

private theorem SpelledRight.agrees_clipped (hspelled : SpelledRight lower data now request)
    (hdur : 0 < request.duration) (hsame : SameData lower data request.attendees prefetched) :
    Agrees lower data now request (clipBusyByAttendeeForWindow lower prefetched
      (request.earliestAllowed now) (request.searchEnd now)) := by
  intro fuel candidates hcandidates c hc a ha
  rw [getD_clipped hlower hsame ha]
  cases hdata : isFreeForAttendee c request.duration (data (normalize lower a)) with
  | true =>
    split
    · exact free_coalesced hdur hdata
    · rfl
  | false =>
    obtain ⟨hnorm, hclip⟩ := hspelled fuel candidates hcandidates c hc a ha hdata
    rw [if_pos hnorm]
    exact hclip

/-- A clipped map that reports right has only attendees who are spelled right. -/
private theorem spelledRight_of_reportsRight
    (hsame : SameData lower data request.attendees prefetched)
    (hclipped : ReportsRight lower data now request (clipBusyByAttendeeForWindow lower prefetched
      (request.earliestAllowed now) (request.searchEnd now))) :
    SpelledRight lower data now request := by
  intro fuel candidates hcandidates c hc a ha hbusy
  have hlt := iterateSlotCandidates_lt hcandidates c hc
  by_contra hno
  -- the look-up fails or the clipped intervals leave the slot free: the attendee is recorded
  have hfree : isFreeForAttendee c request.duration ((clipBusyByAttendeeForWindow lower prefetched
      (request.earliestAllowed now) (request.searchEnd now)).getD a []) = true := by
    rw [getD_clipped hlower hsame ha]
    split
    · next hnorm => exact Bool.not_eq_false _ ▸ fun h => hno ⟨hnorm, h⟩
    · rfl
  obtain ⟨item, hitem, hslot, hmem⟩ := mem_free_of_candidate hlt ha hfree
  have hright := hclipped fuel _ _ (Option.map_eq_some_iff.mpr ⟨candidates, hcandidates, rfl⟩)
    item (List.mem_filterMap.mpr ⟨c, hc, hitem⟩) a hmem
  rw [hslot, hbusy] at hright
  cases hright

end Reports

def QuorumResult.withSnapshot (busyByAttendee : BusyMap) (result : QuorumResult) : QuorumResult :=
  { result with availabilitySnapshot := busyByAttendee }

/-- The ranking uses the busy map for its snapshot only. -/
theorem rankQuorumSlots_snapshot (exchange : Exchange) (scoring : Scoring) (now : Int)
    (request : QuorumRequest) (busy busy' : BusyMap) (checked : Nat) (items : List QuorumItem) :
    (rankQuorumSlots exchange scoring now request busy checked items).map
        (QuorumResult.withSnapshot busy') =
      rankQuorumSlots exchange scoring now request busy' checked items := by
  unfold rankQuorumSlots
  simp only
  split
  · rfl
  · split <;> rfl

/-- A server that reports every mailbox busy for the first hour of the range. -/
def firstHourExchange : Exchange where
  getFreeBusyInfo mailboxes _ _ := .ok (mailboxes.map fun _ =>
    { merged := some "11", calendarEvents := none, message := none })
  calendarView _ _ _ _ := .ok []

def firstHourData : String → List Interval
  | "a@x" => [(8 * hour, 9 * hour)]
  | _ => []

def oneAttendee (email : String) : QuorumRequest where
  attendees := [email]
  preferred := 10 * hour
  duration := hour
  maxDays := 1
  step := hour
  maxItems := 500
  source := .freebusy
  requiredAttendees := none
  minCoverageRatio := 7 / 10
  maxResults := 3
  verifyTopN := 0
  verifyCalendar := false
  latestAllowed := none
  raiseIfEmpty := true

private theorem sameData_firstHour (email : String)
    (hemail : normalize String.toLower email = "a@x") :
    SameData String.toLower firstHourData (oneAttendee email).attendees
      (Dict.ofList [(email, [(8 * hour, 9 * hour)])]) := by
  constructor
  · intro a ha
    obtain rfl : a = email := List.mem_singleton.mp ha
    exact ⟨a, List.mem_singleton.mpr rfl, rfl⟩
  · intro a ha key intervals hget _
    obtain rfl : a = email := List.mem_singleton.mp ha
    have hmem : (key, intervals) ∈ [(a, [(8 * hour, 9 * hour)])] :=
      Dict.mem_of_get?_ofList hget
    obtain ⟨_, rfl⟩ := Prod.mk.inj (List.mem_singleton.mp hmem)
    rw [hemail]
    rfl

end AgentBack.Outlook
