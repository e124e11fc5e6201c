import Mathlib.Algebra.BigOperators.Group.List.Basic
import Mathlib.Data.List.Induction
import Mathlib.Data.List.Nodup

/-!
# Dictionaries in insertion order

A Python `dict` as the list of its items. Assigning to a present key keeps its place, assigning to
a new one appends it, and no key occurs twice, which the structure carries as a field. The lemmas
say what a lookup sees after an assignment, after `ofList` (a dict comprehension or `dict(pairs)`,
where the last pair of a key wins) and after a change of all values.
-/

namespace AgentBack

universe u v w

/-- A dictionary: its items in insertion order, each key once. -/
structure Dict (κ : Type u) (ν : Type v) where
  items : List (κ × ν)
  nodup : (items.map Prod.fst).Nodup

namespace Dict

variable {κ : Type u} {ν : Type v} {μ : Type w}

def empty : Dict κ ν := ⟨[], List.nodup_nil⟩

instance : EmptyCollection (Dict κ ν) := ⟨empty⟩

def keys (d : Dict κ ν) : List κ := d.items.map Prod.fst

def values (d : Dict κ ν) : List ν := d.items.map Prod.snd

/-- The last pair that gives a value to the key. -/
def LastUnder (pairs : List (κ × ν)) (k : κ) (v : ν) : Prop :=
  ∃ before after, pairs = before ++ (k, v) :: after ∧ ∀ p ∈ after, p.1 ≠ k

theorem LastUnder.mem {pairs : List (κ × ν)} {k : κ} {v : ν} (h : LastUnder pairs k v) :
    (k, v) ∈ pairs := by
  obtain ⟨before, after, rfl, _⟩ := h
  exact List.mem_append_right _ (.head _)

variable [DecidableEq κ]

/-- The value at a key of a list of items, from the first item that carries it. -/
def find (k : κ) : List (κ × ν) → Option ν
  | [] => none
  | (k', v) :: rest => if k' = k then some v else find k rest

variable (d : Dict κ ν)

/-- `d.get(k)`. -/
def get? (k : κ) : Option ν := find k d.items

/-- `d.get(k, default)`. -/
def getD (k : κ) (default : ν) : ν := (d.get? k).getD default

/-- Assign in a list of items: in place when the key is there, at the end when it is not. -/
def assign (k : κ) (v : ν) : List (κ × ν) → List (κ × ν)
  | [] => [(k, v)]
  | (k', v') :: rest => if k' = k then (k, v) :: rest else (k', v') :: assign k v rest

theorem find_assign (k k' : κ) (v : ν) (items : List (κ × ν)) :
    find k' (assign k v items) = if k = k' then some v else find k' items := by
  induction items with
  | nil => rfl
  | cons item rest ih =>
    obtain ⟨k₀, v₀⟩ := item
    by_cases h₀ : k₀ = k
    · subst h₀
      by_cases h : k₀ = k'
      · simp only [assign, if_true, find, if_pos h]
      · simp only [assign, if_true, find, if_neg h]
    · simp only [assign, if_neg h₀, find, ih]
      by_cases h : k = k'
      · subst h
        simp only [if_neg h₀, if_true]
      · simp only [if_neg h]

theorem mem_keys_assign {k k' : κ} {v : ν} {items : List (κ × ν)} :
    k' ∈ (assign k v items).map Prod.fst ↔ k' = k ∨ k' ∈ items.map Prod.fst := by
  induction items with
  | nil => simp [assign]
  | cons item rest ih =>
    obtain ⟨k₀, v₀⟩ := item
    by_cases h₀ : k₀ = k
    · subst h₀
      simp [assign]
    · simp only [assign, if_neg h₀, List.map_cons, List.mem_cons, ih]
      tauto

theorem nodup_assign {k : κ} {v : ν} {items : List (κ × ν)} (h : (items.map Prod.fst).Nodup) :
    ((assign k v items).map Prod.fst).Nodup := by
  induction items with
  | nil => simp [assign]
  | cons item rest ih =>
    obtain ⟨k₀, v₀⟩ := item
    obtain ⟨hnot, hrest⟩ := List.nodup_cons.mp (List.map_cons ▸ h)
    by_cases h₀ : k₀ = k
    · subst h₀
      simp only [assign, if_true, List.map_cons] at h ⊢
      exact h
    · simp only [assign, if_neg h₀, List.map_cons]
      refine List.nodup_cons.mpr ⟨fun hmem => ?_, ih hrest⟩
      rcases mem_keys_assign.mp hmem with he | hmem
      · exact h₀ he
      · exact hnot hmem

/-- `d[k] = v`. -/
def set (k : κ) (v : ν) : Dict κ ν := ⟨assign k v d.items, nodup_assign d.nodup⟩

@[simp] theorem get?_empty (k : κ) : (∅ : Dict κ ν).get? k = none := rfl

theorem get?_set (k k' : κ) (v : ν) :
    (d.set k v).get? k' = if k = k' then some v else d.get? k' :=
  find_assign k k' v d.items

@[simp] theorem get?_set_self (k : κ) (v : ν) : (d.set k v).get? k = some v := by
  rw [get?_set, if_pos rfl]

theorem get?_set_ne {k k' : κ} (h : k ≠ k') (v : ν) :
    (d.set k v).get? k' = d.get? k' := by
  rw [get?_set, if_neg h]

/-- `d.pop(k, None)`. -/
def erase (k : κ) : Dict κ ν where
  items := d.items.filter fun item => item.1 ≠ k
  nodup := d.nodup.sublist ((List.filter_sublist).map Prod.fst)

theorem get?_erase (k k' : κ) :
    (d.erase k).get? k' = if k = k' then none else d.get? k' := by
  have key : ∀ items : List (κ × ν), find k' (items.filter fun item => item.1 ≠ k) =
      if k = k' then none else find k' items := by
    intro items
    induction items with
    | nil => simp [find]
    | cons item rest ih =>
      obtain ⟨k₀, v₀⟩ := item
      by_cases h₀ : k₀ = k
      · subst h₀
        rw [List.filter_cons_of_neg (by simp), ih]
        by_cases h : k₀ = k'
        · rw [if_pos h, if_pos h]
        · simp only [if_neg h, find]
      · rw [List.filter_cons_of_pos (by simpa using h₀), find, find, ih]
        by_cases h : k = k'
        · subst h
          simp only [if_neg h₀, if_true]
        · simp only [if_neg h]
  exact key d.items

private theorem find_eq_some_iff {k : κ} {v : ν} {items : List (κ × ν)}
    (h : (items.map Prod.fst).Nodup) : find k items = some v ↔ (k, v) ∈ items := by
  induction items with
  | nil => simp [find]
  | cons item rest ih =>
    obtain ⟨k₀, v₀⟩ := item
    obtain ⟨hnot, hrest⟩ := List.nodup_cons.mp (List.map_cons ▸ h)
    by_cases h₀ : k₀ = k
    · subst h₀
      have hne : (k₀, v) ∉ rest := fun hm => hnot (List.mem_map.mpr ⟨(k₀, v), hm, rfl⟩)
      simp only [find, if_true, Option.some.injEq, List.mem_cons, Prod.mk.injEq, true_and, hne,
        or_false]
      exact eq_comm
    · simp only [find, if_neg h₀, List.mem_cons, Prod.mk.injEq]
      rw [ih hrest]
      constructor
      · exact .inr
      · rintro (⟨rfl, _⟩ | hm)
        · exact absurd rfl h₀
        · exact hm

/-- A lookup answers an item of the dictionary, and every item answers its lookup. -/
theorem get?_eq_some_iff {d : Dict κ ν} {k : κ} {v : ν} :
    d.get? k = some v ↔ (k, v) ∈ d.items :=
  find_eq_some_iff d.nodup

theorem mem_values_iff {d : Dict κ ν} {v : ν} : v ∈ d.values ↔ ∃ k, d.get? k = some v := by
  simp only [values, List.mem_map, get?_eq_some_iff, Prod.exists, exists_eq_right]

/-! ## Building a dictionary from pairs -/

/-- `dict(pairs)`: assign the pairs in turn, so that the last pair of a key wins. -/
def ofList (pairs : List (κ × ν)) : Dict κ ν := pairs.foldl (fun d p => d.set p.1 p.2) ∅

/-- The last value that the pairs give to a key. -/
def findLast (k : κ) (pairs : List (κ × ν)) : Option ν :=
  pairs.foldl (fun found p => if p.1 = k then some p.2 else found) none

private theorem get?_foldl_set (pairs : List (κ × ν)) (d : Dict κ ν) (k : κ) :
    (pairs.foldl (fun d p => d.set p.1 p.2) d).get? k =
      pairs.foldl (fun found p => if p.1 = k then some p.2 else found) (d.get? k) := by
  induction pairs generalizing d with
  | nil => rfl
  | cons p rest ih => rw [List.foldl_cons, List.foldl_cons, ih, get?_set]

theorem get?_ofList (pairs : List (κ × ν)) (k : κ) : (ofList pairs).get? k = findLast k pairs :=
  get?_foldl_set pairs ∅ k

private theorem isSome_foldl {k : κ} (pairs : List (κ × ν)) (found : Option ν)
    (h : found.isSome ∨ k ∈ pairs.map Prod.fst) :
    (pairs.foldl (fun found p => if p.1 = k then some p.2 else found) found).isSome := by
  induction pairs generalizing found with
  | nil =>
    rcases h with h | h
    · exact h
    · cases h
  | cons p rest ih =>
    rw [List.foldl_cons]
    apply ih
    by_cases hk : p.1 = k
    · exact .inl (by rw [if_pos hk]; rfl)
    · rw [if_neg hk]
      rcases h with h | h
      · exact .inl h
      · rw [List.map_cons, List.mem_cons] at h
        exact .inr (h.resolve_left fun he => hk he.symm)

variable {pairs : List (κ × ν)}

/-- `dict(pairs)` has a value at every key of the pairs. -/
theorem isSome_get?_ofList {k : κ} (h : k ∈ pairs.map Prod.fst) :
    ((ofList pairs).get? k).isSome := by
  rw [get?_ofList]
  exact isSome_foldl pairs none (.inr h)

private theorem findLast_append_singleton (k : κ) (pairs : List (κ × ν)) (p : κ × ν) :
    findLast k (pairs ++ [p]) = if p.1 = k then some p.2 else findLast k pairs := by
  simp only [findLast, List.foldl_append, List.foldl_cons, List.foldl_nil]

/-- `dict(pairs)` holds the last value of a key. -/
theorem get?_ofList_eq_some_iff {k : κ} {v : ν} :
    (ofList pairs).get? k = some v ↔ LastUnder pairs k v := by
  rw [get?_ofList]
  constructor
  · intro h
    induction pairs using List.reverseRecOn with
    | nil => cases h
    | append_singleton pairs p ih =>
      rw [findLast_append_singleton] at h
      split at h
      · next hk =>
        refine ⟨pairs, [], ?_, by simp⟩
        rw [← hk, ← Option.some.inj h]
      · next hk =>
        obtain ⟨before, after, rfl, hafter⟩ := ih h
        refine ⟨before, after ++ [p], by simp, fun q hq => ?_⟩
        rcases List.mem_append.mp hq with hq | hq
        · exact hafter q hq
        · exact List.mem_singleton.mp hq ▸ hk
  · rintro ⟨before, after, rfl, hafter⟩
    induction after using List.reverseRecOn with
    | nil => rw [findLast_append_singleton, if_pos rfl]
    | append_singleton after p ih =>
      rw [← List.cons_append, ← List.append_assoc, findLast_append_singleton,
        if_neg (hafter p (by simp))]
      exact ih fun q hq => hafter q (List.mem_append_left _ hq)

/-- What `dict(pairs)` holds at a key is one of the pairs. -/
theorem mem_of_get?_ofList {k : κ} {v : ν} (h : (ofList pairs).get? k = some v) : (k, v) ∈ pairs :=
  (get?_ofList_eq_some_iff.mp h).mem

theorem LastUnder.of_unique {k : κ} {v : ν} (hmem : (k, v) ∈ pairs)
    (hunique : ∀ v', (k, v') ∈ pairs → v' = v) : LastUnder pairs k v := by
  obtain ⟨v', hget⟩ := Option.isSome_iff_exists.mp
    (isSome_get?_ofList (List.mem_map.mpr ⟨(k, v), hmem, rfl⟩))
  have hlast := get?_ofList_eq_some_iff.mp hget
  exact hunique v' hlast.mem ▸ hlast

/-- `{key(x): value(x) for x in items}` has the value of an item under its key when all items of that
key have it. -/
theorem get?_ofList_of_mem {ι : Type w} {items : List ι} {key : ι → κ} {value : ι → ν} {item : ι}
    (hmem : item ∈ items)
    (hsame : ∀ other ∈ items, key other = key item → value other = value item) :
    (ofList (items.map fun x => (key x, value x))).get? (key item) = some (value item) := by
  refine get?_ofList_eq_some_iff.mpr (LastUnder.of_unique (List.mem_map.mpr ⟨item, hmem, rfl⟩) ?_)
  intro v hpair
  obtain ⟨other, hother, he⟩ := List.mem_map.mp hpair
  obtain ⟨hkey, rfl⟩ := Prod.mk.inj he
  exact hsame other hother hkey

/-- Changing the values of the pairs changes the values of the dictionary. -/
theorem get?_ofList_map {μ : Type w} (pairs : List (κ × ν)) (f : ν → μ) (k : κ) :
    (ofList (pairs.map fun p => (p.1, f p.2))).get? k = ((ofList pairs).get? k).map f := by
  rw [get?_ofList, get?_ofList]
  induction pairs using List.reverseRecOn with
  | nil => rfl
  | append_singleton pairs p ih =>
    rw [List.map_append, List.map_singleton, findLast_append_singleton,
      findLast_append_singleton, ih]
    split <;> rfl

private theorem assign_of_not_mem {k : κ} (v : ν) {items : List (κ × ν)}
    (h : k ∉ items.map Prod.fst) : assign k v items = items ++ [(k, v)] := by
  induction items with
  | nil => rfl
  | cons item rest ih =>
    rw [List.map_cons, List.mem_cons, not_or] at h
    simp only [assign, if_neg (Ne.symm h.1), ih h.2, List.cons_append]

/-- Pairs with distinct keys are the items of their dictionary. -/
theorem items_ofList_of_nodup (h : (pairs.map Prod.fst).Nodup) :
    (ofList pairs).items = pairs := by
  induction pairs using List.reverseRecOn with
  | nil => rfl
  | append_singleton pairs p ih =>
    rw [List.map_append, List.nodup_append] at h
    have hitems := ih h.1
    have hfresh : p.1 ∉ pairs.map Prod.fst := by
      intro hmem
      exact h.2.2 p.1 hmem p.1 (.head _) rfl
    unfold ofList at hitems ⊢
    rw [List.foldl_append]
    change assign p.1 p.2 _ = _
    rw [hitems, assign_of_not_mem p.2 hfresh]

/-- `{k: f(k, v) for k, v in d.items()}`. -/
def mapItems (f : κ → ν → μ) : Dict κ μ where
  items := d.items.map fun p => (p.1, f p.1 p.2)
  nodup := by
    rw [List.map_map]
    exact d.nodup

theorem get?_mapItems (f : κ → ν → μ) (k : κ) :
    (d.mapItems f).get? k = (d.get? k).map (f k) := by
  have key : ∀ items : List (κ × ν),
      find k (items.map fun p => (p.1, f p.1 p.2)) = (find k items).map (f k) := by
    intro items
    induction items with
    | nil => rfl
    | cons item rest ih =>
      by_cases h : item.1 = k
      · subst h
        simp only [List.map_cons, find, if_true, Option.map_some]
      · simp only [List.map_cons, find, if_neg h, ih]
  exact key d.items

private theorem sum_assign {Q : Type*} [AddCommMonoid Q] (k : κ) (v : ν) (f : ν → Q)
    (items : List (κ × ν)) :
    (((assign k v items).map Prod.snd).map f).sum + ((find k items).map f).getD 0 =
      ((items.map Prod.snd).map f).sum + f v := by
  induction items with
  | nil => simp [assign, find]
  | cons item rest ih =>
    by_cases h : item.1 = k
    · simp only [assign, find, if_pos h, List.map_cons, List.sum_cons, Option.map_some,
        Option.getD_some]
      ac_rfl
    · simp only [assign, find, if_neg h, List.map_cons, List.sum_cons]
      rw [add_assoc, ih, add_assoc]

/-- Assigning a value changes a sum over the values by the difference to what was there. -/
theorem sum_values_set {Q : Type*} [AddCommMonoid Q] (d : Dict κ ν) (k : κ) (v : ν) (f : ν → Q)
    (default : ν) (hdefault : f default = 0) :
    ((d.set k v).values.map f).sum + f (d.getD k default) = (d.values.map f).sum + f v := by
  have hthere : f (d.getD k default) = ((find k d.items).map f).getD 0 := by
    unfold getD get?
    cases find k d.items with
    | none => exact hdefault
    | some old => rfl
  rw [hthere]
  exact sum_assign k v f d.items

theorem sum_values_set_some {Q : Type*} [AddCommMonoid Q] (d : Dict κ ν) {k : κ} {old : ν}
    (h : d.get? k = some old) (v : ν) (f : ν → Q) :
    ((d.set k v).values.map f).sum + f old = (d.values.map f).sum + f v := by
  have hsum := sum_assign k v f d.items
  have hfind : find k d.items = some old := h
  rw [hfind] at hsum
  exact hsum

/-- A value under a new key adds to a sum over the values. -/
theorem sum_values_set_new {Q : Type*} [AddCommMonoid Q] (d : Dict κ ν) {k : κ} {v : ν}
    (h : d.get? k = none) (f : ν → Q) :
    ((d.set k v).values.map f).sum = (d.values.map f).sum + f v := by
  have hnot : k ∉ d.items.map Prod.fst := by
    intro hmem
    obtain ⟨⟨k', v'⟩, hitem, rfl⟩ := List.mem_map.mp hmem
    rw [get?_eq_some_iff.mpr hitem] at h
    cases h
  change ((((assign k v d.items).map Prod.snd).map f)).sum = _
  rw [assign_of_not_mem v hnot, List.map_append, List.map_append, List.sum_append]
  simp [values]

/-- `mapItems` where computing a value may fail: the first failure is the answer. -/
def mapItemsM {ε : Type w} {ν' : Type v} (d : Dict κ ν) (f : κ → ν → Except ε ν') :
    Except ε (Dict κ ν') :=
  d.items.foldlM (fun built p => (f p.1 p.2).map (built.set p.1)) ∅

end Dict

end AgentBack
