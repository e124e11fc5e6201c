import AgentBack.Laws.Meetings.SeriesCard
import AgentBack.Meetings.SeriesPeople

/-!
# Whether the card of a series names its people

The merge takes every name of the card for one that was added by hand, so who leaves the series stays
on the card, and a synchronisation that has no slot to write does not read the people at all.
`people_follow_iff` says of each synchronisation of a run when the card names the people of the
series and those who were added by hand.
-/

namespace AgentBack.Meetings

open Text (strip strip_strip)

/-! ## The law -/

/-- What happens to a series and its card. -/
inductive SeriesChange where
  | participants (participants : List SeriesParticipant)
  | added (names : List String)
  | synced (sync : Sync)

/-- A series with its card, and the names that were added to the card by hand. -/
structure SeriesState where
  participants : List SeriesParticipant
  card : Option SeriesCard
  added : List String

section Law

variable (casefold : String → String) (seriesId : String)

/-- The keys by which names are compared. -/
def keysOf (names : List String) : List String :=
  ((names.map strip).filter fun name => name ≠ "").map casefold

def SeriesState.step (s : SeriesState) : SeriesChange → SeriesState
  | .participants participants => { s with participants }
  | .added names =>
    match s.card.bind fun card =>
        card.applyParticipantsUpdate casefold (card.participants ++ names) with
    | some card => { s with card := some card, added := s.added ++ names }
    | none => s
  | .synced sync =>
    match syncPeople casefold seriesId sync s.participants s.card with
    | .ok (_, card) => { s with card }
    | .error _ => s

def SeriesState.seriesKeys (s : SeriesState) : List String :=
  keysOf casefold (participantNames casefold s.participants)

/-- **The card names the people of the series and those who were added to it by hand**. -/
def SeriesState.Follows (s : SeriesState) : Prop :=
  ∀ card, s.card = some card → ∀ key, key ∈ keysOf casefold card.participants ↔
    key ∈ s.seriesKeys casefold ∨ key ∈ keysOf casefold s.added

def Sync.Due (sync : Sync) (entry : RegistryEntry) : Prop :=
  ∃ meeting occurrences source, sync.resolve = .ok (.inr (meeting, occurrences, source)) ∧
    Moves occurrences sync.now (some entry)

/-- Nobody who has left the series is on the card unless added by hand, and everybody of the series
is on it already unless the card is moved. -/
def Careful (s : SeriesState) (sync : Sync) : Prop :=
  ∀ card, s.card = some card →
    (∀ key ∈ keysOf casefold card.participants,
      key ∈ s.seriesKeys casefold ∨ key ∈ keysOf casefold s.added) ∧
    (sync.Due card.entry ∨
      ∀ key ∈ s.seriesKeys casefold, key ∈ keysOf casefold card.participants)

end Law

/-! ## Names and keys -/

section Names

variable {casefold : String → String} {names names' : List String} {key : String}

theorem mem_keysOf : key ∈ keysOf casefold names ↔
    ∃ name ∈ names, strip name ≠ "" ∧ casefold (strip name) = key := by
  simp [keysOf, and_assoc]

theorem mem_keysOf_append : key ∈ keysOf casefold (names ++ names') ↔
    key ∈ keysOf casefold names ∨ key ∈ keysOf casefold names' := by
  simp only [keysOf, List.map_append, List.filter_append, List.mem_append]

/-- A loop over names keeps the keys that it has not seen. -/
theorem mem_keysOf_normalizeLoop (seen : List String) :
    key ∈ keysOf casefold (normalizeLoop casefold seen names) ↔
      key ∈ keysOf casefold names ∧ key ∉ seen := by
  induction names generalizing seen with
  | nil => simp [normalizeLoop, keysOf]
  | cons raw rest ih =>
    have hcons : ∀ (name : String) (names : List String), key ∈ keysOf casefold (name :: names) ↔
        (strip name ≠ "" ∧ casefold (strip name) = key) ∨ key ∈ keysOf casefold names := by
      intro name names
      rw [mem_keysOf, mem_keysOf, List.exists_mem_cons_iff]
    unfold normalizeLoop
    dsimp only
    by_cases hdrop : strip raw = "" ∨ casefold (strip raw) ∈ seen
    · rw [if_pos hdrop, ih, hcons]
      grind
    · rw [if_neg hdrop, hcons, ih, hcons, strip_strip]
      grind

/-- The names are stripped, and none is blank. -/
def Tidied (names : List String) : Prop := ∀ name ∈ names, strip name = name ∧ name ≠ ""

theorem tidied_normalizeLoop (seen : List String) :
    Tidied (normalizeLoop casefold seen names) := by
  induction names generalizing seen with
  | nil => exact fun name hname => absurd hname List.not_mem_nil
  | cons raw rest ih =>
    unfold normalizeLoop
    dsimp only
    split
    · exact ih seen
    · next hkeep =>
      intro name hname
      rcases List.mem_cons.mp hname with rfl | hname
      · exact ⟨strip_strip raw, fun hblank => hkeep (.inl hblank)⟩
      · exact ih _ name hname

theorem Tidied.mem_keysOf (h : Tidied names) :
    key ∈ keysOf casefold names ↔ key ∈ names.map casefold := by
  rw [AgentBack.Meetings.mem_keysOf, List.mem_map]
  refine exists_congr fun name => and_congr_right fun hname => ?_
  rw [(h name hname).1]
  exact and_iff_right (h name hname).2

/-- What is known of the names of a card. -/
structure SeriesCard.Tidy (casefold : String → String) (card : SeriesCard) : Prop where
  participants : Tidied card.participants
  occurrence : Tidied card.occurrenceParticipantNames
  within : ∀ key ∈ keysOf casefold card.occurrenceParticipantNames,
    key ∈ keysOf casefold card.participants

theorem mem_keysOf_merge {card : SeriesCard} (h : card.Tidy casefold) (hnames : Tidied names) :
    key ∈ keysOf casefold (mergeOccurrenceParticipants casefold names card) ↔
      key ∈ keysOf casefold names ∨ key ∈ keysOf casefold card.participants := by
  unfold mergeOccurrenceParticipants
  have hextras : Tidied (card.participants ++ card.occurrenceParticipantNames) :=
    List.forall_mem_append.mpr ⟨h.participants, h.occurrence⟩
  have hfiltered : Tidied ((card.participants ++ card.occurrenceParticipantNames).filter
      fun name => casefold name ∉ names.map casefold) := fun name hname =>
    hextras name (List.mem_of_mem_filter hname)
  have hwithin := h.within key
  rw [mem_keysOf_append, mem_keysOf_normalizeLoop, hfiltered.mem_keysOf, hnames.mem_keysOf]
  by_cases hkey : key ∈ names.map casefold
  · exact iff_of_true (.inl hkey) (.inl hkey)
  · have hall : key ∈ ((card.participants ++ card.occurrenceParticipantNames).filter
        fun name => casefold name ∉ names.map casefold).map casefold ↔
          key ∈ keysOf casefold (card.participants ++ card.occurrenceParticipantNames) := by
      rw [hextras.mem_keysOf, List.mem_map, List.mem_map]
      refine exists_congr fun name => and_congr_left fun hname => ?_
      rw [List.mem_filter, hname]
      exact and_iff_left (decide_eq_true hkey)
    rw [hall, mem_keysOf_append]
    tauto

end Names

/-! ## A synchronisation -/

section Synced

variable {casefold : String → String} {seriesId : String} {sync : Sync} {s : SeriesState}
  {card : SeriesCard}

/-- A synchronisation that is due merges the people of the series into the card. -/
theorem step_synced_due (hcard : s.card = some card) (h : sync.Due card.entry) :
    ∃ entry, s.step casefold seriesId (.synced sync) = { s with card := some { card with
      entry
      participants := mergeOccurrenceParticipants casefold
        (participantNames casefold s.participants) card } } := by
  obtain ⟨meeting, occurrences, source, hresolve, hmoves⟩ := h
  obtain ⟨-, hidle, -⟩ | ⟨-, -, entry, _, hwritten, -⟩ :=
    syncCard_cases seriesId meeting source sync.now (some card.entry)
  · exact absurd hmoves hidle
  refine ⟨entry, ?_⟩
  simp only [SeriesState.step, syncPeople, hresolve, Except.map, hcard, Option.map_some, hwritten]

/-- One that is not due leaves the card. -/
theorem step_synced_idle (hcard : s.card = some card) (h : ¬ sync.Due card.entry) :
    s.step casefold seriesId (.synced sync) = s := by
  match hresolve : sync.resolve with
  | .error _ | .ok (.inl _) => simp only [SeriesState.step, syncPeople, hresolve, Except.map]
  | .ok (.inr (meeting, occurrences, source)) =>
    obtain ⟨-, -, hidle⟩ | ⟨-, hmoves, -⟩ :=
      syncCard_cases seriesId meeting source sync.now (some card.entry)
    swap
    · exact absurd ⟨_, _, _, hresolve, hmoves⟩ h
    simp only [SeriesState.step, syncPeople, hresolve, Except.map, hcard, Option.map_some, hidle]
    rw [← hcard]

/-- A card that a synchronisation creates has the people of the series. -/
theorem step_synced_new (hcard : s.card = none) :
    s.step casefold seriesId (.synced sync) = s ∨
      ∃ entry, s.step casefold seriesId (.synced sync) =
        { s with card := some ⟨entry, participantNames casefold s.participants, []⟩ } := by
  obtain ⟨participants, _, added⟩ := s
  cases hcard
  simp only [SeriesState.step, syncPeople, Option.map_none]
  match sync.resolve with
  | .error _ | .ok (.inl _) => exact .inl rfl
  | .ok (.inr (meeting, occurrences, source)) =>
    simp only [Except.map]
    cases (syncCard seriesId meeting occurrences source sync.now none).2 with
    | none => exact .inl rfl
    | some entry => exact .inr ⟨entry, rfl⟩

/-- What every run keeps: the card is tidy, and has whom was added by hand. -/
structure SeriesState.Kept (casefold : String → String) (s : SeriesState) : Prop where
  tidy : ∀ card, s.card = some card → card.Tidy casefold
  added : ∀ key ∈ keysOf casefold s.added,
    ∃ card, s.card = some card ∧ key ∈ keysOf casefold card.participants

theorem SeriesState.Kept.onCard (h : s.Kept casefold) (hcard : s.card = some card) :
    ∀ key ∈ keysOf casefold s.added, key ∈ keysOf casefold card.participants := by
  intro key hkey
  obtain ⟨found, hfound, hin⟩ := h.added key hkey
  exact Option.some.inj (hfound.symm.trans hcard) ▸ hin

theorem SeriesState.Kept.nobody (h : s.Kept casefold) (hcard : s.card = none) (key : String) :
    key ∉ keysOf casefold s.added := by
  intro hkey
  obtain ⟨card, hsome, -⟩ := h.added key hkey
  rw [hcard] at hsome
  cases hsome

theorem tidied_participantNames (participants : List SeriesParticipant) :
    Tidied (participantNames casefold participants) := tidied_normalizeLoop []

theorem SeriesState.Kept.follows_synced_iff (h : s.Kept casefold) (sync : Sync) :
    (s.step casefold seriesId (.synced sync)).Follows casefold ↔ Careful casefold s sync := by
  cases hcard : s.card with
  | none =>
    refine iff_of_true ?_ fun card hsome => by rw [hcard] at hsome; cases hsome
    rcases @step_synced_new casefold seriesId sync s hcard with
      hsame | ⟨entry, hnew⟩
    · exact fun card hsome => by rw [hsame, hcard] at hsome; cases hsome
    · intro card hsome key
      rw [hnew] at hsome ⊢
      cases hsome
      exact (or_iff_left (h.nobody hcard key)).symm
  | some card =>
    have hadded := h.onCard hcard
    unfold SeriesState.Follows Careful
    by_cases hdue : sync.Due card.entry
    · obtain ⟨entry, hmoved⟩ := @step_synced_due casefold seriesId sync s card hcard hdue
      have hmerge : ∀ key, key ∈ keysOf casefold (mergeOccurrenceParticipants casefold
          (participantNames casefold s.participants) card) ↔
            key ∈ s.seriesKeys casefold ∨ key ∈ keysOf casefold card.participants := fun _ =>
        mem_keysOf_merge (h.tidy card hcard) (tidied_participantNames s.participants)
      rw [hmoved]
      simp only [hcard, Option.some.injEq, forall_eq', hmerge, hdue, true_or, and_true,
        SeriesState.seriesKeys] at hadded ⊢
      grind
    · rw [step_synced_idle hcard hdue]
      simp only [hcard, Option.some.injEq, forall_eq', hdue, false_or]
      grind

theorem mem_keysOf_normalize {names : List String} {key : String} :
    key ∈ keysOf casefold (normalizeParticipantNames casefold names) ↔ key ∈ keysOf casefold names :=
  (mem_keysOf_normalizeLoop []).trans (and_iff_left List.not_mem_nil)

theorem tidy_applyParticipantsUpdate {card' : SeriesCard} {names : List String}
    (h : card.Tidy casefold)
    (hupdate : card.applyParticipantsUpdate casefold (card.participants ++ names) = some card') :
    card'.Tidy casefold ∧ ∀ key, key ∈ keysOf casefold card'.participants ↔
      key ∈ keysOf casefold card.participants ∨ key ∈ keysOf casefold names := by
  unfold SeriesCard.applyParticipantsUpdate at hupdate
  split at hupdate
  · cases hupdate
  cases hupdate
  have hkeys : ∀ key, _ ↔ _ := fun key =>
    (@mem_keysOf_normalize casefold _ key).trans
      (@mem_keysOf_append casefold card.participants names key)
  refine ⟨⟨tidied_normalizeLoop [], ?_, fun key hkey => ?_⟩, hkeys⟩
  · dsimp only
    split
    · exact h.occurrence
    · exact tidied_normalizeLoop []
  · dsimp only at hkey ⊢
    split at hkey
    · exact (hkeys key).mpr (.inl (h.within key hkey))
    · exact mem_keysOf_normalize.mp hkey

theorem SeriesState.Kept.step (h : s.Kept casefold) (change : SeriesChange) :
    (s.step casefold seriesId change).Kept casefold := by
  cases change with
  | participants participants => exact ⟨h.tidy, h.added⟩
  | added names =>
    unfold SeriesState.step
    dsimp only
    split
    · next card' hbind =>
      obtain ⟨card, hcard, hupdate⟩ := Option.bind_eq_some_iff.mp hbind
      obtain ⟨htidy, hkeys⟩ := tidy_applyParticipantsUpdate (h.tidy card hcard) hupdate
      refine ⟨fun card hsome => Option.some.inj hsome ▸ htidy, fun key hkey =>
        ⟨card', rfl, (hkeys key).mpr ?_⟩⟩
      exact (mem_keysOf_append.mp hkey).imp_left (h.onCard hcard key)
    · exact h
  | synced sync =>
    cases hcard : s.card with
    | none =>
      rcases @step_synced_new casefold seriesId sync s hcard
        with hsame | ⟨entry, hnew⟩
      · rw [hsame]
        exact h
      · rw [hnew]
        refine ⟨fun card hsome => ?_, fun key hkey => absurd hkey (h.nobody hcard key)⟩
        cases hsome
        exact ⟨tidied_participantNames _, fun name hname => absurd hname List.not_mem_nil,
          fun key hkey => absurd hkey List.not_mem_nil⟩
    | some card =>
      by_cases hdue : sync.Due card.entry
      · obtain ⟨entry, hmoved⟩ :=
          @step_synced_due casefold seriesId sync s card hcard hdue
        have hmerge : ∀ key, _ ↔ _ := fun key => @mem_keysOf_merge casefold _ key card (h.tidy card hcard)
          (@tidied_participantNames casefold s.participants)
        rw [hmoved]
        refine ⟨fun card' hsome => ?_, fun key hkey =>
          ⟨_, rfl, (hmerge key).mpr (.inr (h.onCard hcard key hkey))⟩⟩
        cases hsome
        exact ⟨List.forall_mem_append.mpr ⟨tidied_participantNames _, tidied_normalizeLoop _⟩,
          (h.tidy card hcard).occurrence,
          fun key hkey => (hmerge key).mpr (.inr ((h.tidy card hcard).within key hkey))⟩
      · rw [step_synced_idle hcard hdue]
        exact h

def SeriesState.fresh (participants : List SeriesParticipant) : SeriesState :=
  { participants, card := none, added := [] }

theorem kept_run (run : List SeriesChange) (participants : List SeriesParticipant) :
    (run.foldl (SeriesState.step casefold seriesId) (.fresh participants)).Kept casefold := by
  have hfresh : (SeriesState.fresh participants).Kept casefold :=
    ⟨fun card hsome => (nomatch hsome), fun key hkey => absurd hkey List.not_mem_nil⟩
  generalize SeriesState.fresh participants = s at hfresh
  induction run generalizing s with
  | nil => exact hfresh
  | cons change rest ih => exact ih _ (hfresh.step change)

end Synced

/-- **After a synchronisation the card names the people of the series and those who were added by
hand, and nobody else**, in every run exactly when nobody is on the card who has left the series and
was not added by hand, and everybody of the series is on the card already or the card is moved. -/
theorem people_follow_iff (casefold : String → String) (seriesId : String)
    (participants : List SeriesParticipant) (run : List SeriesChange) (sync : Sync) :
    ((run ++ [SeriesChange.synced sync]).foldl (SeriesState.step casefold seriesId)
        (.fresh participants)).Follows casefold ↔
      Careful casefold (run.foldl (SeriesState.step casefold seriesId) (.fresh participants)) sync := by
  rw [List.foldl_append]
  exact (kept_run run participants).follows_synced_iff sync

def engineer : SeriesParticipant := ⟨0, some "Иванов И.И.", none, none⟩

def guest : SeriesParticipant := ⟨1, some "Петров П.П.", none, none⟩

/-- The second of two people leaves the series; the card is moved to the next day. -/
theorem left_stays :
    ¬ (([.synced (councilSync 739812 8 [739812, 739813]), .participants [engineer],
        .synced (councilSync 739813 8 [739813])] : List SeriesChange).foldl
      (SeriesState.step Text.lowerRu "series-1") (.fresh [engineer, guest])).Follows Text.lowerRu := by
  intro h
  have hsplit := (h _ rfl "петров п.п.").mp (by decide +kernel)
  exact absurd hsplit (by decide +kernel)

end AgentBack.Meetings
