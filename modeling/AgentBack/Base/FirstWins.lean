import AgentBack.Base.Dict
import Mathlib.Algebra.Order.BigOperators.Group.Finset

/-!
# The first item of a key counts

A list of items in which the first item of a key counts and the later ones of that key do not.
`firstTotal` sums a value over the distinct keys. A loop that collects the items in a dictionary and
leaves a key that it has met alone (`keepFirst`) ends with the first item of each key, and the sum
over its values is `firstTotal` (`get?_keepFirst`, `sum_values_keepFirst`).
-/

namespace AgentBack

universe u v w

variable {α : Type u} {κ : Type v} {Q : Type w} [DecidableEq κ]

def firstOf (key : α → κ) (items : List α) (k : κ) : Option α := items.find? fun a => key a = k

/-- The value summed over the distinct keys, at the first item of each. -/
def firstTotal [AddCommMonoid Q] (key : α → κ) (value : α → Q) (items : List α) : Q :=
  ∑ k ∈ (items.map key).toFinset, ((firstOf key items k).map value).getD 0

variable (key : α → κ) (value : α → Q)

theorem firstOf_append_singleton (items : List α) (a : α) (k : κ) :
    firstOf key (items ++ [a]) k =
      (firstOf key items k).or (if key a = k then some a else none) := by
  unfold firstOf
  rw [List.find?_append, List.find?_singleton]
  simp only [decide_eq_true_eq]

theorem firstOf_eq_none_iff {items : List α} {k : κ} :
    firstOf key items k = none ↔ k ∉ items.map key := by
  simp [firstOf]

/-- What the first item of a key is: of that key, and one of the items. -/
theorem of_firstOf_eq_some {items : List α} {k : κ} {a : α} (h : firstOf key items k = some a) :
    key a = k ∧ a ∈ items :=
  ⟨by simpa using List.find?_some h, List.mem_of_find?_eq_some h⟩

section Total

variable [AddCommMonoid Q]

theorem firstTotal_nil : firstTotal key value [] = 0 := by
  simp [firstTotal]

/-- An item of a new key adds its value. -/
theorem firstTotal_append_new {items : List α} {a : α} (h : firstOf key items (key a) = none) :
    firstTotal key value (items ++ [a]) = firstTotal key value items + value a := by
  have hnot : key a ∉ (items.map key).toFinset := by
    rw [List.mem_toFinset]
    exact (firstOf_eq_none_iff key).mp h
  have hkeys : ((items ++ [a]).map key).toFinset = insert (key a) (items.map key).toFinset := by
    ext k
    simp
  unfold firstTotal
  rw [hkeys, Finset.sum_insert hnot, add_comm]
  congr 1
  · refine Finset.sum_congr rfl fun k hk => ?_
    have hne : key a ≠ k := fun he => hnot (he ▸ hk)
    rw [firstOf_append_singleton, if_neg hne, Option.or_none]
  · rw [firstOf_append_singleton, h, if_pos rfl]
    rfl

/-- An item of a key that was met adds nothing. -/
theorem firstTotal_append_old {items : List α} {a b : α}
    (h : firstOf key items (key a) = some b) :
    firstTotal key value (items ++ [a]) = firstTotal key value items := by
  have hmem : key a ∈ items.map key := by
    by_contra hnot
    rw [(firstOf_eq_none_iff key).mpr hnot] at h
    cases h
  have hkeys : ((items ++ [a]).map key).toFinset = (items.map key).toFinset := by
    ext k
    simp only [List.map_append, List.map_singleton, List.mem_toFinset, List.mem_append,
      List.mem_singleton]
    constructor
    · rintro (hk | rfl)
      · exact hk
      · exact hmem
    · exact .inl
  unfold firstTotal
  rw [hkeys]
  refine Finset.sum_congr rfl fun k _ => ?_
  rw [firstOf_append_singleton]
  by_cases hk : key a = k
  · rw [← hk, h]
    rfl
  · rw [if_neg hk, Option.or_none]

end Total

def keepFirst (kept : Dict κ α) (a : α) : Dict κ α :=
  match kept.get? (key a) with
  | some _ => kept
  | none => kept.set (key a) a

theorem keepFirst_of_some {kept : Dict κ α} {a b : α} (h : kept.get? (key a) = some b) :
    keepFirst key kept a = kept := by
  unfold keepFirst
  rw [h]

theorem keepFirst_of_none {kept : Dict κ α} {a : α} (h : kept.get? (key a) = none) :
    keepFirst key kept a = kept.set (key a) a := by
  unfold keepFirst
  rw [h]

theorem get?_keepFirst (items : List α) (k : κ) :
    (items.foldl (keepFirst key) ∅).get? k = firstOf key items k := by
  induction items using List.reverseRecOn generalizing k with
  | nil => rfl
  | append_singleton items a ih =>
    rw [List.foldl_append, firstOf_append_singleton, List.foldl_cons, List.foldl_nil]
    cases hfirst : firstOf key items (key a) with
    | some b =>
      rw [keepFirst_of_some key ((ih _).trans hfirst), ih]
      by_cases hk : key a = k
      · rw [← hk, hfirst]
        rfl
      · rw [if_neg hk, Option.or_none]
    | none =>
      rw [keepFirst_of_none key ((ih _).trans hfirst), Dict.get?_set, ih]
      by_cases hk : key a = k
      · rw [if_pos hk, if_pos hk, ← hk, hfirst]
        rfl
      · rw [if_neg hk, if_neg hk, Option.or_none]

theorem sum_values_keepFirst [AddCommMonoid Q] (items : List α) :
    ((items.foldl (keepFirst key) ∅).values.map value).sum = firstTotal key value items := by
  induction items using List.reverseRecOn with
  | nil =>
    rw [firstTotal_nil]
    rfl
  | append_singleton items a ih =>
    have hget := get?_keepFirst key items (key a)
    rw [List.foldl_append, List.foldl_cons, List.foldl_nil]
    cases hfirst : firstOf key items (key a) with
    | some b =>
      rw [keepFirst_of_some key (hget.trans hfirst), ih, firstTotal_append_old key value hfirst]
    | none =>
      rw [keepFirst_of_none key (hget.trans hfirst), Dict.sum_values_set_new _ (hget.trans hfirst),
        ih, firstTotal_append_new key value hfirst]

end AgentBack

/-!
# Lists of records that are found by a key

A record of a list is found by its key, and where several have the key the first one is
(`firstOf`). `changeFirst` changes the record that is found. A change that keeps the keys leaves
what is found under another key alone (`firstOf_changeFirst_ne`), and the keys of the list
(`map_changeFirst`).
-/

namespace AgentBack

universe u v

variable {α : Type u} {κ : Type v} [DecidableEq κ] (key : α → κ)

/-- Change the first record of a key. There is no value when no record has it or when the change
has none. -/
def changeFirst (k : κ) (f : α → Option α) : List α → Option (List α)
  | [] => none
  | a :: rest =>
    if key a = k then (f a).map (· :: rest) else (changeFirst k f rest).map (a :: ·)

variable {key}

/-- What a change does: one record, the first of its key, is replaced. -/
theorem changeFirst_eq_some_iff {k : κ} {f : α → Option α} {l l' : List α} :
    changeFirst key k f l = some l' ↔
      ∃ before a a' after, l = before ++ a :: after ∧ (∀ b ∈ before, key b ≠ k) ∧ key a = k ∧
        f a = some a' ∧ l' = before ++ a' :: after := by
  induction l generalizing l' with
  | nil =>
    constructor
    · intro h
      cases h
    · rintro ⟨before, a, a', after, hl, _⟩
      cases before <;> cases hl
  | cons b rest ih =>
    by_cases hb : key b = k
    · simp only [changeFirst, if_pos hb, Option.map_eq_some_iff]
      constructor
      · rintro ⟨a', ha', rfl⟩
        exact ⟨[], b, a', rest, rfl, by simp, hb, ha', rfl⟩
      · rintro ⟨before, a, a', after, hl, hbefore, ha, hf, rfl⟩
        cases before with
        | nil =>
          cases hl
          exact ⟨a', hf, rfl⟩
        | cons c before =>
          cases hl
          exact absurd hb (hbefore b (.head _))
    · simp only [changeFirst, if_neg hb, Option.map_eq_some_iff]
      constructor
      · rintro ⟨rest', hrest, rfl⟩
        obtain ⟨before, a, a', after, rfl, hbefore, ha, hf, rfl⟩ := ih.mp hrest
        refine ⟨b :: before, a, a', after, rfl, ?_, ha, hf, rfl⟩
        intro c hc
        rcases List.mem_cons.mp hc with rfl | hc
        · exact hb
        · exact hbefore c hc
      · rintro ⟨before, a, a', after, hl, hbefore, ha, hf, rfl⟩
        cases before with
        | nil =>
          cases hl
          exact absurd ha hb
        | cons c before =>
          cases hl
          exact ⟨before ++ a' :: after, ih.mpr ⟨before, a, a', after, rfl,
            fun d hd => hbefore d (.tail _ hd), ha, hf, rfl⟩, rfl⟩

/-- The first record of a key, between those before it, which are of other keys, and the rest. -/
theorem firstOf_split {before after : List α} {a : α} {k : κ} (hbefore : ∀ b ∈ before, key b ≠ k)
    (ha : key a = k) : firstOf key (before ++ a :: after) k = some a := by
  have hnone : before.find? (fun b => decide (key b = k)) = none := by
    simpa using hbefore
  unfold firstOf
  rw [List.find?_append, hnone, List.find?_cons_of_pos (by simpa using ha)]
  rfl

/-- The record that is changed is the one that is found, and its change is found in its place. -/
theorem firstOf_changeFirst_self {k : κ} {f : α → Option α} {l l' : List α}
    (h : changeFirst key k f l = some l') :
    ∃ a a', firstOf key l k = some a ∧ f a = some a' ∧
      (key a' = k → firstOf key l' k = some a') := by
  obtain ⟨before, a, a', after, rfl, hbefore, ha, hf, rfl⟩ := changeFirst_eq_some_iff.mp h
  exact ⟨a, a', firstOf_split hbefore ha, hf, firstOf_split hbefore⟩

theorem firstOf_changeFirst_ne {k k' : κ} {f : α → Option α} {l l' : List α}
    (h : changeFirst key k f l = some l') (hkey : ∀ a a', f a = some a' → key a' = key a)
    (hne : k' ≠ k) : firstOf key l' k' = firstOf key l k' := by
  obtain ⟨before, a, a', after, rfl, hbefore, ha, hf, rfl⟩ := changeFirst_eq_some_iff.mp h
  have hthis : ∀ b, key b = k → firstOf key (before ++ b :: after) k' =
      firstOf key (before ++ after) k' := by
    intro b hb
    have hnot : ¬ key b = k' := fun h => hne (h.symm.trans hb)
    simp only [firstOf, List.find?_append, List.find?_cons, hnot, decide_false]
  rw [hthis a ha, hthis a' ((hkey a a' hf).trans ha)]

theorem map_changeFirst {k : κ} {f : α → Option α} {l l' : List α}
    (h : changeFirst key k f l = some l') (hkey : ∀ a a', f a = some a' → key a' = key a) :
    l'.map key = l.map key := by
  obtain ⟨before, a, a', after, rfl, _, _, hf, rfl⟩ := changeFirst_eq_some_iff.mp h
  simp only [List.map_append, List.map_cons, hkey a a' hf]

/-- A change that every record has fails only where no record has the key. -/
theorem firstOf_of_changeFirst_eq_none {k : κ} {f : α → Option α} {l : List α}
    (hf : ∀ a, f a ≠ none) (h : changeFirst key k f l = none) : firstOf key l k = none := by
  induction l with
  | nil => rfl
  | cons a rest ih =>
    by_cases ha : key a = k
    · simp only [changeFirst, if_pos ha, Option.map_eq_none_iff] at h
      exact absurd h (hf a)
    · simp only [changeFirst, if_neg ha, Option.map_eq_none_iff] at h
      unfold firstOf
      rw [List.find?_cons_of_neg (by simpa using ha)]
      exact ih h

/-- In a list without two records of one key every record is the one that its key finds. -/
theorem firstOf_of_nodup {l : List α} (h : (l.map key).Nodup) {a : α} (ha : a ∈ l) :
    firstOf key l (key a) = some a := by
  obtain ⟨before, after, rfl⟩ := List.append_of_mem ha
  refine firstOf_split (fun b hb heq => ?_) rfl
  rw [List.map_append, List.map_cons] at h
  exact (List.nodup_append.mp h).2.2 (key b) (List.mem_map_of_mem hb) (key a)
    List.mem_cons_self heq

/-- A change of every record that keeps the keys is found under the key of what it changes. -/
theorem firstOf_map {f : α → α} (hf : ∀ a, key (f a) = key a) (l : List α) (k : κ) :
    firstOf key (l.map f) k = (firstOf key l k).map f := by
  simp only [firstOf, List.find?_map, Function.comp_def, hf]

end AgentBack
