import AgentBack.Base.FirstWins
import AgentBack.Knowledge.Search

/-!
# What a search lets out about restricted texts

The response does not depend on the texts and the metadata of fragments that the user may not use.
The hit of such a fragment shows a placeholder for its text, but its metadata have the metadata of the
fragment, the text that was embedded, and what the retriever put into the payload.
`nonInterfering_iff` says for which searches nothing gets out: no hit that is shown is of a restricted
fragment, or carries one in its payload.
-/

namespace AgentBack.Knowledge

open Py (Value)

variable (env : SearchEnv) (db : SearchDb) (request : SearchRequest) (retrieved : List RawHit)

/-- Two fragments that differ in their texts and metadata at most. -/
structure SameShell (chunk chunk' : DocumentChunk) : Prop where
  id : chunk'.id = chunk.id
  documentId : chunk'.documentId = chunk.documentId
  documentVersionId : chunk'.documentVersionId = chunk.documentVersionId
  pageNumber : chunk'.pageNumber = chunk.pageNumber
  sectionTitle : chunk'.sectionTitle = chunk.sectionTitle
  chunkIndex : chunk'.chunkIndex = chunk.chunkIndex
  isIndexed : chunk'.isIndexed = chunk.isIndexed

def SearchDb.withTexts (f : DocumentChunk → DocumentChunk) : SearchDb :=
  { db with documentChunks := db.documentChunks.map f }

def documentOf (chunkId : Nat) : Option Document :=
  ((db.documentChunks.find? fun chunk => chunk.id = chunkId).bind (·.documentId)).bind
    fun documentId => db.access.documents.find? fun document => document.id = documentId

/-- The fragment is in the knowledge base, and the user may not use it. -/
def Restricted (chunkId : Nat) : Prop :=
  (∃ kbChunk ∈ db.kbChunks, kbChunk.documentChunkId = chunkId) ∧
    ∀ kbChunk ∈ db.kbChunks, kbChunk.documentChunkId = chunkId →
      (effectiveAccess env db request kbChunk (documentOf db chunkId)).allowed = false

/-- **Non-interference**: the response is the same for all texts and metadata of the fragments that
the user may not use. -/
def NonInterfering : Prop :=
  ∀ f : DocumentChunk → DocumentChunk, (∀ chunk, SameShell chunk (f chunk)) →
    (∀ chunk ∈ db.documentChunks, ¬ Restricted env db request chunk.id → f chunk = chunk) →
    search env (db.withTexts f) request retrieved = search env db request retrieved

/-- A retrieved hit passes the tests of the loop. -/
def passes (raw : RawHit) : Bool :=
  match rowOf env db raw with
  | none => false
  | some (kbChunk, _, document) =>
    !kbChunk.isExcludedFromSearch &&
      ((effectiveAccess env db request kbChunk document).allowed || request.includeInaccessible) &&
      !decide (0 < env.minScore ∧ relevanceScore raw < env.minScore)

/-- The retrieved hits that are shown: the first ones that pass. -/
def shownHits : List RawHit := (retrieved.filter (passes env db request)).take request.normalizedTopK

/-- The metadata of the hit's own fragment have the key. -/
def hasKey (chunk : DocumentChunk) (key : String) : Prop :=
  (((chunkMetadata chunk).getD Dict.empty).get? key).isSome = true

/-- A hit shows nothing restricted: its own fragment is not, and one that its payload names is not
either, or is hidden by the metadata of its own. -/
def Discreet (raw : RawHit) : Prop :=
  ∀ kbChunk chunk document, rowOf env db raw = some (kbChunk, chunk, document) →
    ¬ Restricted env db request chunk.id ∧
      ∀ attached, raw.attached env db = some attached → Restricted env db request attached.id →
        hasKey chunk "content" ∧ hasKey chunk "metadata"

theorem get?_foldl_set (items : List (String × Value)) (hnodup : (items.map Prod.fst).Nodup)
    (base : Dict String Value) (key : String) :
    (items.foldl (fun dict item => dict.set item.1 item.2) base).get? key =
      (Dict.find key items).or (base.get? key) := by
  induction items generalizing base with
  | nil => rfl
  | cons item rest ih =>
    obtain ⟨hnot, hrest⟩ := List.nodup_cons.mp (List.map_cons ▸ hnodup)
    rw [List.foldl_cons, ih hrest, Dict.get?_set]
    by_cases hkey : item.1 = key
    · have hmissing : Dict.find key rest = none := by
        cases hfind : Dict.find key rest with
        | none => rfl
        | some value =>
          have hmem := (Dict.get?_eq_some_iff (d := ⟨rest, hrest⟩)).mp hfind
          exact absurd (List.mem_map.mpr ⟨(key, value), hmem, hkey.symm⟩) hnot
      rw [hmissing, if_pos hkey, Option.none_or]
      simp only [Dict.find, if_pos hkey, Option.some_or]
    · rw [if_neg hkey]
      simp only [Dict.find, if_neg hkey]

theorem get?_merged (base more : Dict String Value) (key : String) :
    (merged base more).get? key = (more.get? key).or (base.get? key) :=
  get?_foldl_set more.items more.nodup base key

section Loop

variable (canView : Bool)

/-- Without the inaccessible ones, every hit is accessible. -/
theorem accessible_of_hitOf {raw : RawHit} {hit : SearchHit}
    (hinclude : request.includeInaccessible = false)
    (h : hitOf env db request canView raw = some hit) : hit.accessible = true := by
  unfold hitOf at h
  split at h
  · cases h
  · split at h
    · cases h
    · split at h
      · cases h
      · next hallowed =>
        split at h
        · cases h
        · cases h
          rw [hinclude, Bool.not_false, Bool.and_true, Bool.not_eq_true'] at hallowed
          exact Bool.not_eq_false _ ▸ hallowed

theorem collectHits_eq (raws : List RawHit) (hits : List SearchHit)
    (hlength : hits.length < request.normalizedTopK)
    (haccessible : request.includeInaccessible = false → ∀ hit ∈ hits, hit.accessible = true) :
    collectHits env db request canView raws hits =
      hits ++ (raws.filterMap (hitOf env db request canView)).take
        (request.normalizedTopK - hits.length) := by
  induction raws generalizing hits with
  | nil =>
    rw [List.filterMap_nil, List.take_nil, List.append_nil]
    rfl
  | cons raw rest ih =>
    unfold collectHits
    cases hhit : hitOf env db request canView raw with
    | none =>
      rw [List.filterMap_cons_none hhit]
      exact ih hits hlength haccessible
    | some hit =>
      rw [List.filterMap_cons_some hhit]
      have haccessible' : request.includeInaccessible = false →
          ∀ other ∈ hits ++ [hit], other.accessible = true := by
        intro hinclude other hother
        rcases List.mem_append.mp hother with hold | hnew
        · exact haccessible hinclude other hold
        · obtain rfl := List.mem_singleton.mp hnew
          exact accessible_of_hitOf env db request canView hinclude hhit
      have henough : (if request.includeInaccessible = true then (hits ++ [hit]).length
          else ((hits ++ [hit]).filter fun hit => hit.accessible).length) = hits.length + 1 := by
        cases hinclude : request.includeInaccessible with
        | true => rw [if_pos rfl, List.length_append, List.length_singleton]
        | false =>
          rw [if_neg Bool.false_ne_true, List.filter_eq_self.mpr (haccessible' hinclude),
            List.length_append, List.length_singleton]
      dsimp only
      rw [henough]
      split
      · next hfull =>
        obtain ⟨n, hn⟩ : ∃ n, request.normalizedTopK - hits.length = n + 1 := ⟨0, by omega⟩
        rw [hn, List.take_succ_cons]
        have hzero : n = 0 := by omega
        rw [hzero, List.take_zero]
      · next hroom =>
        rw [ih (hits ++ [hit]) (by rw [List.length_append, List.length_singleton]; omega)
          haccessible', List.append_assoc, List.length_append, List.length_singleton]
        obtain ⟨n, hn⟩ : ∃ n, request.normalizedTopK - hits.length = n + 1 :=
          ⟨request.normalizedTopK - hits.length - 1, by omega⟩
        have hrest : request.normalizedTopK - (hits.length + 1) = n := by omega
        rw [hn, hrest, List.take_succ_cons]
        rfl

theorem normalizedTopK_pos : 0 < request.normalizedTopK := by
  unfold SearchRequest.normalizedTopK
  omega

end Loop

/-! ## The payloads -/

section Payloads

variable (raw : RawHit)

theorem get?_enrich_ne {key : String} (hcontent : key ≠ "content") (hmetadata : key ≠ "metadata") :
    (raw.enrich env db).payload.get? key = raw.payload.get? key := by
  unfold RawHit.enrich
  split
  · rfl
  · rw [Dict.get?_set_ne _ hmetadata.symm, Dict.get?_set_ne _ hcontent.symm]

theorem rowOf_enrich (db' : SearchDb) : rowOf env db' (raw.enrich env db) = rowOf env db' raw := by
  have hid : (raw.enrich env db).id = raw.id := by
    unfold RawHit.enrich
    split <;> rfl
  unfold rowOf
  rw [get?_enrich_ne env db raw (by decide) (by decide), hid]

theorem relevanceScore_enrich : relevanceScore (raw.enrich env db) = relevanceScore raw := by
  unfold RawHit.enrich
  split <;> rfl

/-- A hit passes when its row is there and is shown. -/
theorem isSome_hitOf_enrich (canView : Bool) :
    (hitOf env db request canView (raw.enrich env db)).isSome = passes env db request raw := by
  unfold hitOf passes
  rw [rowOf_enrich, relevanceScore_enrich]
  cases hrow : rowOf env db raw with
  | none => rfl
  | some row =>
    obtain ⟨kbChunk, chunk, document⟩ := row
    dsimp only
    cases kbChunk.isExcludedFromSearch with
    | true => rfl
    | false =>
      rw [if_neg Bool.false_ne_true, Bool.not_false, Bool.true_and]
      cases (effectiveAccess env db request kbChunk document).allowed <;>
        cases request.includeInaccessible <;>
        by_cases hscore : 0 < env.minScore ∧ relevanceScore raw < env.minScore <;>
        simp [hscore]

/-- Some id of a fragment can be read, and some cannot. -/
def unreadable : Bool :=
  !(retrieved.filterMap fun hit =>
      if hit.chunkId.truthy then env.uuid hit.chunkId else none).isEmpty &&
    retrieved.any fun hit => hit.chunkId.truthy && (env.uuid hit.chunkId).isNone

/-- The texts are attached, unless an id cannot be read. -/
theorem attachChunks_eq : attachChunks env db retrieved =
    if unreadable env retrieved then none else some (retrieved.map (RawHit.enrich env db)) := by
  unfold attachChunks unreadable
  dsimp only
  cases hids : retrieved.filterMap fun hit =>
      if hit.chunkId.truthy then env.uuid hit.chunkId else none with
  | nil =>
    have hsame : retrieved.map (RawHit.enrich env db) = retrieved := by
      refine (List.map_congr_left fun hit hin => ?_).trans (List.map_id' retrieved)
      have hnone := List.filterMap_eq_nil_iff.mp hids hit hin
      have hattached : hit.attached env db = none := by
        unfold RawHit.attached
        split
        · next htruthy =>
          rw [if_pos htruthy] at hnone
          rw [hnone]
          rfl
        · rfl
      unfold RawHit.enrich
      rw [hattached]
    rw [hsame]
    rfl
  | cons id ids => rfl

end Payloads

theorem take_filterMap {α β : Type*} (g : α → Option β) (p : α → Bool)
    (hp : ∀ a, (g a).isSome = p a) (l : List α) (n : Nat) :
    (l.filterMap g).take n = ((l.filter p).take n).filterMap g := by
  induction l generalizing n with
  | nil =>
    rw [List.filterMap_nil, List.take_nil, List.filter_nil, List.take_nil, List.filterMap_nil]
  | cons a rest ih =>
    cases hg : g a with
    | none =>
      rw [List.filterMap_cons_none hg, List.filter_cons_of_neg (by rw [← hp a, hg]; exact
        Bool.false_ne_true)]
      exact ih n
    | some b =>
      rw [List.filterMap_cons_some hg, List.filter_cons_of_pos (by rw [← hp a, hg]; rfl)]
      cases n with
      | zero => rfl
      | succ n =>
        rw [List.take_succ_cons, List.take_succ_cons, List.filterMap_cons_some hg, ih n]

def responseHits : List SearchHit :=
  (shownHits env db request retrieved).filterMap fun raw =>
    hitOf env db request (showsRestricted env db request) (raw.enrich env db)

theorem search_eq : search env db request retrieved =
    if unreadable env retrieved then none
    else some (respond env request (responseHits env db request retrieved)) := by
  unfold search
  rw [attachChunks_eq]
  split
  · rfl
  · rw [Option.map_some, collectHits_eq env db request _ _ [] (normalizedTopK_pos request)
      (fun _ hit hin => by cases hin), List.nil_append, List.length_nil, Nat.sub_zero,
      List.filterMap_map]
    rw [take_filterMap (hitOf env db request (showsRestricted env db request) ∘ RawHit.enrich env db)
      (passes env db request) (fun raw => isSome_hitOf_enrich env db request raw _)]
    rfl

theorem hits_respond : (respond env request (responseHits env db request retrieved)).hits =
    responseHits env db request retrieved := by
  have hlength : (responseHits env db request retrieved).length ≤ request.normalizedTopK :=
    (List.length_filterMap_le _ _).trans (List.length_take_le _ _)
  unfold respond
  dsimp only
  split
  · exact List.take_of_length_le hlength
  · next hinclude =>
    have hall : (responseHits env db request retrieved).filter (fun hit => hit.accessible) =
        responseHits env db request retrieved := by
      refine List.filter_eq_self.mpr fun hit hin => ?_
      obtain ⟨raw, -, hhit⟩ := List.mem_filterMap.mp hin
      exact accessible_of_hitOf env db request _ (Bool.not_eq_true _ ▸ hinclude) hhit
    rw [hall]
    exact List.take_of_length_le hlength

/-! ## Other texts -/

section Texts

variable {f : DocumentChunk → DocumentChunk} (hshell : ∀ chunk, SameShell chunk (f chunk))

include hshell

theorem find_withTexts (id : Nat) :
    ((db.withTexts f).documentChunks.find? fun chunk => chunk.id = id) =
      (db.documentChunks.find? fun chunk => chunk.id = id).map f :=
  firstOf_map (fun chunk => (hshell chunk).id) db.documentChunks id

theorem rowOf_withTexts (raw : RawHit) : rowOf env (db.withTexts f) raw =
    (rowOf env db raw).map fun row => (row.1, f row.2.1, row.2.2) := by
  unfold rowOf
  dsimp only
  rw [Option.map_bind]
  congr 1
  funext id
  rw [Function.comp_apply, Option.map_bind]
  congr 1
  funext kbChunk
  rw [Function.comp_apply, find_withTexts db hshell, Option.map_map, Option.map_map]
  congr 1
  funext chunk
  simp only [Function.comp_apply, (hshell chunk).documentId]
  rfl

theorem attached_withTexts (raw : RawHit) :
    raw.attached env (db.withTexts f) = (raw.attached env db).map f := by
  unfold RawHit.attached
  split
  · rw [Option.map_bind]
    congr 1
    funext id
    exact find_withTexts db hshell id
  · rfl

theorem passes_withTexts (raw : RawHit) :
    passes env (db.withTexts f) request raw = passes env db request raw := by
  unfold passes
  rw [rowOf_withTexts env db hshell]
  cases rowOf env db raw with
  | none => rfl
  | some row => rfl

theorem shownHits_withTexts :
    shownHits env (db.withTexts f) request retrieved = shownHits env db request retrieved := by
  unfold shownHits
  have hpasses : passes env (db.withTexts f) request = passes env db request :=
    funext fun raw => passes_withTexts env db request hshell raw
  rw [hpasses]

end Texts

theorem hitOf_of_passes {raw : RawHit} (canView : Bool) (h : passes env db request raw = true) :
    ∃ kbChunk chunk document, rowOf env db raw = some (kbChunk, chunk, document) ∧
      ((effectiveAccess env db request kbChunk document).allowed = true ∨
        request.includeInaccessible = true) ∧
      hitOf env db request canView (raw.enrich env db) =
        some (makeHit env db request canView (raw.enrich env db) kbChunk chunk document) := by
  have hsome := isSome_hitOf_enrich env db request raw canView
  rw [h] at hsome
  unfold passes at h
  cases hrow : rowOf env db raw with
  | none =>
    rw [hrow] at h
    cases h
  | some row =>
    obtain ⟨kbChunk, chunk, document⟩ := row
    rw [hrow] at h
    obtain ⟨hrest, -⟩ := Bool.and_eq_true_iff.mp h
    obtain ⟨-, haccess⟩ := Bool.and_eq_true_iff.mp hrest
    refine ⟨kbChunk, chunk, document, rfl, Bool.or_eq_true_iff.mp haccess, ?_⟩
    unfold hitOf at hsome ⊢
    rw [rowOf_enrich, hrow] at hsome ⊢
    dsimp only at hsome ⊢
    split at hsome
    · cases hsome
    · next hexcluded =>
      rw [if_neg hexcluded]
      split at hsome
      · cases hsome
      · next hrefused =>
        rw [if_neg hrefused]
        split at hsome
        · cases hsome
        · next hscore => rw [if_neg hscore]

theorem keys_assign {κ ν : Type*} [DecidableEq κ] (k : κ) (v v' : ν)
    {items items' : List (κ × ν)} (h : items.map Prod.fst = items'.map Prod.fst) :
    (Dict.assign k v items).map Prod.fst = (Dict.assign k v' items').map Prod.fst := by
  induction items generalizing items' with
  | nil =>
    obtain rfl := List.map_eq_nil_iff.mp h.symm
    rfl
  | cons item rest ih =>
    cases items' with
    | nil => cases h
    | cons item' rest' =>
      obtain ⟨hkey, hrest⟩ := List.cons.inj (List.map_cons ▸ List.map_cons ▸ h)
      simp only [Dict.assign, hkey]
      split
      · rw [List.map_cons, List.map_cons, hrest]
      · rw [List.map_cons, List.map_cons, ih hrest]

theorem keys_merged {base base' : Dict String Value} (more : Dict String Value)
    (h : base.keys = base'.keys) : (merged base more).keys = (merged base' more).keys := by
  unfold merged
  induction more.items generalizing base base' with
  | nil => exact h
  | cons item rest ih =>
    rw [List.foldl_cons, List.foldl_cons]
    exact ih (keys_assign item.1 item.2 item.2 h)

/-- Dictionaries with the same keys in the same order, and the same values. -/
theorem dict_eq_of_keys {d d' : Dict String Value} (hkeys : d.keys = d'.keys)
    (hget : ∀ key, d.get? key = d'.get? key) : d = d' := by
  obtain ⟨items, hnodup⟩ := d
  obtain ⟨items', hnodup'⟩ := d'
  have hitems : items = items' := by
    refine List.ext_getElem ?_ fun i hi hi' => ?_
    · have := congrArg List.length hkeys
      rwa [Dict.keys, Dict.keys, List.length_map, List.length_map] at this
    · have hkey : items[i].1 = items'[i].1 := by
        have := List.getElem_of_eq hkeys (i := i) (by rw [Dict.keys, List.length_map]; exact hi)
        simpa [Dict.keys] using this
      have hmem : (⟨items, hnodup⟩ : Dict String Value).get? items[i].1 = some items[i].2 :=
        Dict.get?_eq_some_iff.mpr (List.getElem_mem hi)
      have hmem' : (⟨items', hnodup'⟩ : Dict String Value).get? items'[i].1 = some items'[i].2 :=
        Dict.get?_eq_some_iff.mpr (List.getElem_mem hi')
      rw [hget, hkey, hmem'] at hmem
      exact Prod.ext hkey (Option.some.inj hmem).symm
  subst hitems
  rfl

/-- What was assigned to keys of the second dictionary is not in the merged one. -/
theorem merged_hides (base more : Dict String Value) (v w v' w' : Value)
    (hcontent : (more.get? "content").isSome = true)
    (hmetadata : (more.get? "metadata").isSome = true) :
    merged ((base.set "content" v).set "metadata" w) more =
      merged ((base.set "content" v').set "metadata" w') more := by
  refine dict_eq_of_keys (keys_merged more (keys_assign _ w w' (keys_assign _ v v' rfl)))
    fun key => ?_
  rw [get?_merged, get?_merged]
  by_cases hc : key = "content"
  · subst hc
    obtain ⟨value, hvalue⟩ := Option.isSome_iff_exists.mp hcontent
    rw [hvalue, Option.some_or, Option.some_or]
  · by_cases hm : key = "metadata"
    · subst hm
      obtain ⟨value, hvalue⟩ := Option.isSome_iff_exists.mp hmetadata
      rw [hvalue, Option.some_or, Option.some_or]
    · rw [Dict.get?_set_ne _ (Ne.symm hm), Dict.get?_set_ne _ (Ne.symm hc),
        Dict.get?_set_ne _ (Ne.symm hm), Dict.get?_set_ne _ (Ne.symm hc)]

theorem mem_of_rowOf {raw : RawHit} {kbChunk : KbChunk} {chunk : DocumentChunk}
    {document : Option Document} (h : rowOf env db raw = some (kbChunk, chunk, document)) :
    chunk ∈ db.documentChunks := by
  unfold rowOf at h
  obtain ⟨id, -, hid⟩ := Option.bind_eq_some_iff.mp h
  obtain ⟨row, -, hrow⟩ := Option.bind_eq_some_iff.mp hid
  obtain ⟨found, hfound, heq⟩ := Option.map_eq_some_iff.mp hrow
  cases heq
  exact List.mem_of_find?_eq_some hfound

theorem mem_of_attached {raw : RawHit} {chunk : DocumentChunk}
    (h : raw.attached env db = some chunk) : chunk ∈ db.documentChunks := by
  unfold RawHit.attached at h
  split at h
  · obtain ⟨id, -, hid⟩ := Option.bind_eq_some_iff.mp h
    exact List.mem_of_find?_eq_some hid
  · cases h

theorem hitOf_withTexts_of_discreet {f : DocumentChunk → DocumentChunk}
    (hshell : ∀ chunk, SameShell chunk (f chunk))
    (hkeep : ∀ chunk ∈ db.documentChunks, ¬ Restricted env db request chunk.id → f chunk = chunk)
    {raw : RawHit} (canView : Bool) (hpasses : passes env db request raw = true)
    (hdiscreet : Discreet env db request raw) :
    hitOf env (db.withTexts f) request canView (raw.enrich env (db.withTexts f)) =
      hitOf env db request canView (raw.enrich env db) := by
  obtain ⟨kbChunk, chunk, document, hrow, -, hhit⟩ :=
    hitOf_of_passes env db request canView hpasses
  obtain ⟨hown, hattached⟩ := hdiscreet kbChunk chunk document hrow
  have hsame : f chunk = chunk := hkeep chunk (mem_of_rowOf env db hrow) hown
  have hrow' : rowOf env (db.withTexts f) raw = some (kbChunk, chunk, document) := by
    rw [rowOf_withTexts env db hshell, hrow, Option.map_some, hsame]
  have hpasses' : passes env (db.withTexts f) request raw = true := by
    rw [passes_withTexts env db request hshell, hpasses]
  obtain ⟨kbChunk', chunk', document', hfound, -, hhit'⟩ :=
    hitOf_of_passes env (db.withTexts f) request canView hpasses'
  rw [hrow'] at hfound
  cases hfound
  rw [hhit, hhit']
  congr 1
  have hpayload : merged (raw.enrich env (db.withTexts f)).payload
        ((chunkMetadata chunk).getD Dict.empty) =
      merged (raw.enrich env db).payload ((chunkMetadata chunk).getD Dict.empty) := by
    unfold RawHit.enrich
    rw [attached_withTexts env db hshell]
    cases hfind : raw.attached env db with
    | none => rfl
    | some attached =>
      by_cases hrestricted : Restricted env db request attached.id
      · obtain ⟨hcontent, hmetadata⟩ := hattached attached hfind hrestricted
        exact merged_hides _ _ _ _ _ _ hcontent hmetadata
      · rw [Option.map_some, hkeep attached (mem_of_attached env db hfind) hrestricted]
  unfold makeHit
  dsimp only
  rw [hpayload, relevanceScore_enrich, relevanceScore_enrich,
    get?_enrich_ne env (db.withTexts f) raw (by decide) (by decide),
    get?_enrich_ne env db raw (by decide) (by decide)]
  rfl

/-! ## Searches that let nothing out -/

theorem filterMap_inj {α β : Type*} {g g' : α → Option β} {l : List α}
    (hg : ∀ a ∈ l, (g a).isSome = true) (hg' : ∀ a ∈ l, (g' a).isSome = true)
    (h : l.filterMap g = l.filterMap g') : ∀ a ∈ l, g a = g' a := by
  induction l with
  | nil => exact fun a hin => by cases hin
  | cons a rest ih =>
    obtain ⟨b, hb⟩ := Option.isSome_iff_exists.mp (hg a (.head _))
    obtain ⟨b', hb'⟩ := Option.isSome_iff_exists.mp (hg' a (.head _))
    rw [List.filterMap_cons_some hb, List.filterMap_cons_some hb'] at h
    obtain ⟨hhead, hrest⟩ := List.cons.inj h
    intro other hother
    rcases List.mem_cons.mp hother with rfl | hother
    · rw [hb, hb', hhead]
    · exact ih (fun c hc => hg c (List.mem_cons_of_mem a hc))
        (fun c hc => hg' c (List.mem_cons_of_mem a hc)) hrest other hother

theorem passes_of_shown {raw : RawHit} (h : raw ∈ shownHits env db request retrieved) :
    passes env db request raw = true :=
  (List.mem_filter.mp (List.mem_of_mem_take h)).2

section Leaks

variable {env db request retrieved}

/-- Without a leak, the hit of a row that is shown is the same on other texts. -/
theorem NonInterfering.hitOf_eq (h : NonInterfering env db request retrieved)
    (hreadable : unreadable env retrieved = false) {raw : RawHit}
    (hraw : raw ∈ shownHits env db request retrieved) {f : DocumentChunk → DocumentChunk}
    (hshell : ∀ chunk, SameShell chunk (f chunk))
    (hkeep : ∀ chunk ∈ db.documentChunks, ¬ Restricted env db request chunk.id → f chunk = chunk) :
    hitOf env (db.withTexts f) request (showsRestricted env db request)
        (raw.enrich env (db.withTexts f)) =
      hitOf env db request (showsRestricted env db request) (raw.enrich env db) := by
  have hsearch := h f hshell hkeep
  rw [search_eq, search_eq, hreadable, if_neg Bool.false_ne_true, if_neg Bool.false_ne_true]
    at hsearch
  have hhits := congrArg SearchResponse.hits (Option.some.inj hsearch)
  rw [hits_respond, hits_respond] at hhits
  unfold responseHits at hhits
  rw [shownHits_withTexts env db request retrieved hshell] at hhits
  refine filterMap_inj (fun other hother => ?_) (fun other hother => ?_) hhits raw hraw
  · rw [isSome_hitOf_enrich, passes_withTexts env db request hshell]
    exact passes_of_shown env db request retrieved hother
  · rw [isSome_hitOf_enrich]
    exact passes_of_shown env db request retrieved hother

def changeAt (id : Nat) (g : DocumentChunk → DocumentChunk) (chunk : DocumentChunk) :
    DocumentChunk :=
  if chunk.id = id then g chunk else chunk

theorem sameShell_changeAt {g : DocumentChunk → DocumentChunk}
    (hg : ∀ chunk, SameShell chunk (g chunk)) (id : Nat) (chunk : DocumentChunk) :
    SameShell chunk (changeAt id g chunk) := by
  unfold changeAt
  split
  · exact hg chunk
  · exact ⟨rfl, rfl, rfl, rfl, rfl, rfl, rfl⟩

/-- Without a leak, the metadata of a hit that is shown are the same on other texts of a restricted
fragment. -/
theorem NonInterfering.merged_eq (h : NonInterfering env db request retrieved)
    (hreadable : unreadable env retrieved = false) {raw : RawHit}
    (hraw : raw ∈ shownHits env db request retrieved) {id : Nat}
    (hid : Restricted env db request id) {g : DocumentChunk → DocumentChunk}
    (hg : ∀ chunk, SameShell chunk (g chunk)) {kbChunk : KbChunk} {chunk : DocumentChunk}
    {document : Option Document} (hrow : rowOf env db raw = some (kbChunk, chunk, document))
    (key : String) (hquality : key ≠ "quality_status") (hembedding : key ≠ "embedding_text") :
    (merged (raw.enrich env (db.withTexts (changeAt id g))).payload
        ((chunkMetadata (changeAt id g chunk)).getD Dict.empty)).get? key =
      (merged (raw.enrich env db).payload ((chunkMetadata chunk).getD Dict.empty)).get? key := by
  have hshell := sameShell_changeAt hg id
  have hkeep : ∀ chunk ∈ db.documentChunks, ¬ Restricted env db request chunk.id →
      changeAt id g chunk = chunk := by
    intro other _ hother
    unfold changeAt
    exact if_neg fun heq : other.id = id => hother (heq ▸ hid)
  have hpasses := passes_of_shown env db request retrieved hraw
  obtain ⟨kbChunk₁, chunk₁, document₁, hrow₁, -, hhit⟩ :=
    hitOf_of_passes env db request (showsRestricted env db request) hpasses
  obtain ⟨kbChunk₂, chunk₂, document₂, hrow₂, -, hhit'⟩ :=
    hitOf_of_passes env (db.withTexts (changeAt id g)) request (showsRestricted env db request)
      ((passes_withTexts env db request hshell raw).trans hpasses)
  rw [hrow] at hrow₁
  cases hrow₁
  rw [rowOf_withTexts env db hshell, hrow] at hrow₂
  cases hrow₂
  have heq := h.hitOf_eq hreadable hraw hshell hkeep
  rw [hhit, hhit'] at heq
  have hmetadata := congrArg (fun hit => hit.metadata.get? key) (Option.some.inj heq)
  unfold makeHit at hmetadata
  dsimp only at hmetadata
  rwa [Dict.get?_set_ne _ hembedding.symm, Dict.get?_set_ne _ hquality.symm,
    Dict.get?_set_ne _ hembedding.symm, Dict.get?_set_ne _ hquality.symm] at hmetadata

def withMetadata (secret : String) (chunk : DocumentChunk) : DocumentChunk :=
  { chunk with metadata := some (Dict.ofList [("secret", .str secret)]) }

def withContent (secret : String) (chunk : DocumentChunk) : DocumentChunk :=
  { chunk with content := secret }

theorem sameShell_withMetadata (secret : String) (chunk : DocumentChunk) :
    SameShell chunk (withMetadata secret chunk) := ⟨rfl, rfl, rfl, rfl, rfl, rfl, rfl⟩

theorem sameShell_withContent (secret : String) (chunk : DocumentChunk) :
    SameShell chunk (withContent secret chunk) := ⟨rfl, rfl, rfl, rfl, rfl, rfl, rfl⟩

variable (h : NonInterfering env db request retrieved)
  (hreadable : unreadable env retrieved = false) {raw : RawHit}
  (hraw : raw ∈ shownHits env db request retrieved)
include h hreadable hraw

/-- What the text of a restricted fragment decides is under no other key. -/
theorem NonInterfering.silent {id : Nat} (hid : Restricted env db request id)
    {g : String → DocumentChunk → DocumentChunk}
    (hg : ∀ secret chunk, SameShell chunk (g secret chunk)) {kbChunk : KbChunk}
    {chunk : DocumentChunk} {document : Option Document}
    (hrow : rowOf env db raw = some (kbChunk, chunk, document)) (key : String)
    (hquality : key ≠ "quality_status") (hembedding : key ≠ "embedding_text") {v : String → Value}
    (hv : v "a" ≠ v "b") :
    ¬ ∀ secret, secret ≠ "" →
      (merged (raw.enrich env (db.withTexts (changeAt id (g secret)))).payload
        ((chunkMetadata (changeAt id (g secret) chunk)).getD Dict.empty)).get? key =
          some (v secret) := by
  intro hshown
  have hleak (secret : String) :=
    h.merged_eq hreadable hraw hid (hg secret) hrow key hquality hembedding
  have hboth := (hshown "a" (by decide)).symm.trans ((hleak "a").trans
    ((hleak "b").symm.trans (hshown "b" (by decide))))
  exact hv (Option.some.inj hboth)

variable {kbChunk : KbChunk} {chunk : DocumentChunk} {document : Option Document}
  (hrow : rowOf env db raw = some (kbChunk, chunk, document))
include hrow

/-- The metadata of a restricted fragment would get out. -/
theorem NonInterfering.own :
    ¬ Restricted env db request chunk.id := by
  intro hrestricted
  refine h.silent hreadable hraw hrestricted sameShell_withMetadata hrow "secret" (by decide)
    (by decide) (v := .str) (by simp) fun secret _ => ?_
  unfold changeAt
  rw [if_pos rfl, get?_merged]
  rfl

/-- The text of a restricted fragment in the payload would get out. -/
theorem NonInterfering.attached {attached : DocumentChunk}
    (hattached : raw.attached env db = some attached)
    (hrestricted : Restricted env db request attached.id) :
    hasKey chunk "content" ∧ hasKey chunk "metadata" := by
  have hother : chunk.id ≠ attached.id := by
    intro heq
    exact h.own hreadable hraw hrow (heq ▸ hrestricted)
  have hshown (g : DocumentChunk → DocumentChunk) {key : String} (hmissing : ¬ hasKey chunk key) :
      (merged (raw.enrich env (db.withTexts (changeAt attached.id g))).payload
        ((chunkMetadata (changeAt attached.id g chunk)).getD Dict.empty)).get? key =
      (raw.enrich env (db.withTexts (changeAt attached.id g))).payload.get? key := by
    have hnone := Option.not_isSome_iff_eq_none.mp hmissing
    unfold changeAt
    rw [if_neg hother, get?_merged, hnone, Option.none_or]
  have hpayload {g : DocumentChunk → DocumentChunk} (hg : ∀ chunk, SameShell chunk (g chunk)) :
      raw.attached env (db.withTexts (changeAt attached.id g)) = some (g attached) := by
    rw [attached_withTexts env db (sameShell_changeAt hg attached.id), hattached, Option.map_some]
    unfold changeAt
    rw [if_pos rfl]
  constructor
  · by_contra hmissing
    refine h.silent hreadable hraw hrestricted sameShell_withContent hrow "content" (by decide)
      (by decide) (v := .str) (by simp) fun secret hsecret => ?_
    rw [hshown (withContent secret) hmissing]
    unfold RawHit.enrich
    rw [hpayload (sameShell_withContent secret)]
    dsimp only
    rw [Dict.get?_set_ne _ (by decide), Dict.get?_set_self]
    exact congrArg some (if_pos hsecret)
  · by_contra hmissing
    refine h.silent hreadable hraw hrestricted sameShell_withMetadata hrow "metadata" (by decide)
      (by decide) (v := fun secret => .dict [("secret", .str secret)]) (by simp) fun secret _ => ?_
    rw [hshown (withMetadata secret) hmissing]
    unfold RawHit.enrich
    rw [hpayload (sameShell_withMetadata secret)]
    dsimp only
    rw [Dict.get?_set_self]
    rfl

end Leaks

/-- Nothing gets out exactly where no hit that is shown is of a restricted fragment, or carries one
that the metadata of its own do not hide. -/
theorem nonInterfering_iff : NonInterfering env db request retrieved ↔
    (unreadable env retrieved = true ∨
      ∀ raw ∈ shownHits env db request retrieved, Discreet env db request raw) := by
  constructor
  · intro h
    cases hreadable : unreadable env retrieved with
    | true => exact .inl rfl
    | false =>
      refine .inr fun raw hraw kbChunk chunk document hrow =>
        ⟨h.own hreadable hraw hrow, fun attached hattached hrestricted => ?_⟩
      exact h.attached hreadable hraw hrow hattached hrestricted
  · intro h f hshell hkeep
    rw [search_eq, search_eq]
    rcases h with hunreadable | hdiscreet
    · rw [if_pos hunreadable, if_pos hunreadable]
    · have hhits : responseHits env (db.withTexts f) request retrieved =
          responseHits env db request retrieved := by
        unfold responseHits
        rw [shownHits_withTexts env db request retrieved hshell]
        refine List.filterMap_congr fun raw hraw => ?_
        exact hitOf_withTexts_of_discreet env db request hshell hkeep _
          (passes_of_shown env db request retrieved hraw) (hdiscreet raw hraw)
      rw [hhits]

def smallIds : SearchEnv where
  py := { lower := id, casefold := id, decimal := fun _ => none, repr := fun _ => "" }
  uuid
    | .str text => [("1", 1), ("2", 2)].lookup text
    | _ => none
  isAlpha := Char.isAlpha
  groundedAnswer := fun _ _ => none
  minScore := 0
  now := 0

def tableDb : SearchDb where
  access := { departments := ⟨[], id, descends_nil⟩ }
  kbChunks := [{ id := 1, knowledgeBaseId := 1, sourceId := 1, documentChunkId := 2 }]
  documentChunks :=
    [{ id := 2
       documentId := none
       documentVersionId := 1
       text := none
       metadata := some (Dict.ofList [("row", .str "Оклад: 100")])
       content := "Оклад: 100"
       chunkMetadata := none }]

/-- The search that the worker runs for an employee whose grant is gone. -/
def lateRequest : SearchRequest :=
  { knowledgeBase := { id := 1, status := .ready }
    query := "оклад"
    user := { id := 7 }
    includeInaccessible := true
    testMode := true
    viewer := some { id := 7 } }

def tableHit : RawHit :=
  { id := .str "1", score := 1, payload := Dict.ofList [("knowledge_base_chunk_id", .str "1")] }

theorem nonInterfering_lateRequest_fails :
    showsRestricted smallIds tableDb lateRequest = false ∧
      ¬ NonInterfering smallIds tableDb lateRequest [tableHit] := by
  refine ⟨by decide +kernel, fun h => ?_⟩
  have hrestricted : Restricted smallIds tableDb lateRequest 2 := by
    refine ⟨⟨_, List.mem_singleton.mpr rfl, rfl⟩, fun kbChunk hin _ => ?_⟩
    obtain rfl := List.mem_singleton.mp hin
    decide +kernel
  have hraw : tableHit ∈ shownHits smallIds tableDb lateRequest [tableHit] := by
    have hpasses : passes smallIds tableDb lateRequest tableHit = true := by decide +kernel
    unfold shownHits
    rw [List.filter_cons_of_pos hpasses]
    exact .head _
  exact h.own (by decide +kernel) hraw rfl hrestricted

end AgentBack.Knowledge
