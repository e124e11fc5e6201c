import Mathlib.Data.List.Sort
import Mathlib.Data.Prod.Lex
import Mathlib.Data.String.Basic

/-!
# Sorting by a key

Python's `sorted(items, key=f)`: in ascending order of the key, and items of one key keep their
order. `sortBy` is Mathlib's insertion sort for the comparison of keys. Three laws say how the place
of an item depends on the others: what comes before it depends on the items that do not sort after
it and on nothing else (`sortBy_append_cons`), with distinct keys the order of the list does not
matter at all (`sortBy_eq_of_perm`), and the pairs of the sorted list are those of the list, turned
where the keys say so (`pairwise_sortBy_iff`).
-/

namespace AgentBack

universe u v

variable {α : Type u} {β : Type v} [LinearOrder β]

/-- `sorted(items, key=f)`. -/
def sortBy (f : α → β) (items : List α) : List α := items.insertionSort fun a b => f a ≤ f b

variable {f : α → β}

theorem sortBy_cons (a : α) (items : List α) :
    sortBy f (a :: items) = (sortBy f items).orderedInsert (fun a b => f a ≤ f b) a :=
  rfl

@[simp] theorem sortBy_singleton (a : α) : sortBy f [a] = [a] := rfl

theorem perm_sortBy (f : α → β) (items : List α) : (sortBy f items).Perm items :=
  List.perm_insertionSort _ items

@[simp] theorem mem_sortBy {items : List α} {a : α} : a ∈ sortBy f items ↔ a ∈ items :=
  (perm_sortBy f items).mem_iff

@[simp] theorem sortBy_eq_nil {items : List α} : sortBy f items = [] ↔ items = [] := by
  rw [← List.perm_nil, ← List.perm_nil]
  exact ⟨(perm_sortBy f items).symm.trans, (perm_sortBy f items).trans⟩

theorem pairwise_sortBy (f : α → β) (items : List α) :
    (sortBy f items).Pairwise fun a b => f a ≤ f b := by
  have : Std.Total fun a b : α => f a ≤ f b := ⟨fun a b => le_total (f a) (f b)⟩
  have : IsTrans α fun a b => f a ≤ f b := ⟨fun _ _ _ => le_trans⟩
  exact List.pairwise_insertionSort _ items

/-- Sorting the images by a key is sorting by the key of the image. -/
theorem sortBy_map {γ : Type*} (f : α → β) (g : γ → α) (items : List γ) :
    sortBy f (items.map g) = (sortBy (fun c => f (g c)) items).map g :=
  (List.map_insertionSort _ _ g items fun _ _ _ _ => Iff.rfl).symm

/-- A sorted arrangement is the sorted list, where an item is known by its key. -/
theorem sortBy_eq_of_sorted {items sorted : List α} (hperm : sorted.Perm items)
    (hsorted : sorted.Pairwise fun a b => f a ≤ f b)
    (hkeys : ∀ a ∈ items, ∀ b ∈ items, f a = f b → a = b) : sortBy f items = sorted := by
  refine List.Perm.eq_of_pairwise (fun a b ha hb hab hba => ?_) (pairwise_sortBy f items) hsorted
    ((perm_sortBy f items).trans hperm.symm)
  exact hkeys a (mem_sortBy.mp ha) b (hperm.mem_iff.mp hb) (le_antisymm hab hba)

/-- With distinct keys the sorted list depends on the items alone, not on their order. -/
theorem sortBy_eq_of_perm {items items' : List α} (hperm : items.Perm items')
    (hkeys : items.Pairwise fun a b => f a ≠ f b) : sortBy f items = sortBy f items' := by
  refine sortBy_eq_of_sorted ((perm_sortBy f items').trans hperm.symm) (pairwise_sortBy f items') ?_
  have hnodup : (items.map f).Nodup := List.pairwise_map.mpr hkeys
  exact fun a ha b hb => List.inj_on_of_nodup_map hnodup ha hb

/-- The first of the sorted list has a least key, and is the first of the list that does. -/
theorem head?_sortBy {items : List α} {a : α} (h : (sortBy f items).head? = some a) :
    ∃ before after, items = before ++ a :: after ∧ (∀ b ∈ before, f a < f b) ∧
      ∀ b ∈ after, f a ≤ f b := by
  induction items generalizing a with
  | nil => cases h
  | cons first rest ih =>
    rw [sortBy_cons] at h
    cases hsorted : sortBy f rest with
    | nil =>
      rw [hsorted] at h
      cases h
      rw [sortBy_eq_nil.mp hsorted]
      exact ⟨[], [], rfl, fun _ hb => absurd hb List.not_mem_nil,
        fun _ hb => absurd hb List.not_mem_nil⟩
    | cons least others =>
      obtain ⟨before, after, rfl, hbefore, hafter⟩ := ih (by rw [hsorted]; rfl)
      rw [hsorted, List.orderedInsert_cons] at h
      split at h
      · next hle =>
        cases h
        refine ⟨[], _, rfl, fun _ hb => absurd hb List.not_mem_nil, fun b hb => hle.trans ?_⟩
        rcases List.mem_append.mp hb with hb | hb
        · exact (hbefore b hb).le
        · rcases List.mem_cons.mp hb with rfl | hb
          · exact le_rfl
          · exact hafter b hb
      · next hlt =>
        cases h
        refine ⟨first :: before, after, rfl, fun b hb => ?_, hafter⟩
        rcases List.mem_cons.mp hb with rfl | hb
        · exact not_le.mp hlt
        · exact hbefore b hb

private theorem pairwise_orderedInsert_iff {R : α → α → Prop} (a : α) {items : List α}
    (hsorted : items.Pairwise fun b c => f b ≤ f c) :
    (items.orderedInsert (fun b c => f b ≤ f c) a).Pairwise R ↔
      (∀ b ∈ items, (f a ≤ f b → R a b) ∧ (f b < f a → R b a)) ∧ items.Pairwise R := by
  induction items with
  | nil => simp
  | cons b rest ih =>
    obtain ⟨hb, hrest⟩ := List.pairwise_cons.mp hsorted
    rw [List.orderedInsert_cons]
    by_cases hab : f a ≤ f b
    · rw [if_pos hab, List.pairwise_cons]
      refine and_congr_left fun _ => forall₂_congr fun c hc => ?_
      have hac : f a ≤ f c := by
        rcases List.mem_cons.mp hc with rfl | hc
        · exact hab
        · exact hab.trans (hb c hc)
      exact ⟨fun h => ⟨fun _ => h, fun hlt => absurd hac (not_le.mpr hlt)⟩, fun h => h.1 hac⟩
    · have hfirst : ((f a ≤ f b → R a b) ∧ (f b < f a → R b a)) ↔ R b a :=
        ⟨fun h => h.2 (not_le.mp hab), fun h => ⟨fun hle => absurd hle hab, fun _ => h⟩⟩
      rw [if_neg hab, List.pairwise_cons, ih hrest, List.pairwise_cons, List.forall_mem_cons, hfirst]
      simp only [List.mem_orderedInsert, forall_eq_or_imp]
      tauto

/-- Of two items the one with the smaller key comes first, and of one key the one listed first. -/
theorem pairwise_sortBy_iff {R : α → α → Prop} (items : List α) :
    (sortBy f items).Pairwise R ↔
      items.Pairwise fun a b => (f a ≤ f b → R a b) ∧ (f b < f a → R b a) := by
  induction items with
  | nil => exact ⟨fun _ => .nil, fun _ => .nil⟩
  | cons a rest ih =>
    rw [sortBy_cons, pairwise_orderedInsert_iff a (pairwise_sortBy f rest), List.pairwise_cons, ih]
    simp only [mem_sortBy]

/-- An item goes to the front part when nothing behind has a smaller key. -/
private theorem orderedInsert_append_left {a : α} (front back : List α)
    (h : ∀ b ∈ back, f a ≤ f b) :
    (front ++ back).orderedInsert (fun a b => f a ≤ f b) a =
      front.orderedInsert (fun a b => f a ≤ f b) a ++ back := by
  induction front with
  | nil =>
    cases back with
    | nil => rfl
    | cons b back =>
      rw [List.nil_append, List.orderedInsert_cons, if_pos (h b (.head _))]
      rfl
  | cons b front ih =>
    rw [List.cons_append, List.orderedInsert_cons, List.orderedInsert_cons, ih]
    split <;> rfl

/-- An item goes to the back part when everything in front has a smaller key. -/
private theorem orderedInsert_append_right {a : α} (front back : List α)
    (h : ∀ b ∈ front, f b < f a) :
    (front ++ back).orderedInsert (fun a b => f a ≤ f b) a =
      front ++ back.orderedInsert (fun a b => f a ≤ f b) a := by
  induction front with
  | nil => rfl
  | cons b front ih =>
    rw [List.cons_append, List.orderedInsert_cons, if_neg (not_le.mpr (h b (.head _))),
      ih fun c hc => h c (.tail _ hc), List.cons_append]

/-- Sorting sorts the keys below a bound and the others apart. -/
private theorem sortBy_split (bound : β) (items : List α) :
    sortBy f items = sortBy f (items.filter fun a => f a < bound) ++
      sortBy f (items.filter fun a => bound ≤ f a) := by
  induction items with
  | nil => rfl
  | cons a items ih =>
    rw [sortBy_cons, ih]
    by_cases ha : f a < bound
    · rw [List.filter_cons_of_pos (by simpa using ha),
        List.filter_cons_of_neg (by simpa using ha), sortBy_cons]
      apply orderedInsert_append_left
      intro b hb
      have hb := (List.mem_filter.mp (mem_sortBy.mp hb)).2
      exact le_trans (le_of_lt ha) (by simpa using hb)
    · rw [List.filter_cons_of_neg (by simpa using ha),
        List.filter_cons_of_pos (by simpa using ha), sortBy_cons]
      apply orderedInsert_append_right
      intro b hb
      have hb := (List.mem_filter.mp (mem_sortBy.mp hb)).2
      exact lt_of_lt_of_le (by simpa using hb) (not_lt.mp ha)

/-- Before an item come, sorted, those listed before it whose keys are not larger and those listed
after it whose keys are smaller. -/
theorem sortBy_append_cons (before : List α) (x : α) (after : List α) :
    ∃ later, sortBy f (before ++ x :: after) =
        sortBy f ((before.filter fun a => f a ≤ f x) ++ after.filter fun a => f a < f x) ++
          x :: later ∧ ∀ b ∈ later, f x ≤ f b := by
  induction before with
  | nil =>
    refine ⟨sortBy f (after.filter fun a => f x ≤ f a), ?_, fun b hb => ?_⟩
    · have hfront : ∀ b ∈ sortBy f (after.filter fun a => f a < f x), f b < f x := by
        intro b hb
        simpa using (List.mem_filter.mp (mem_sortBy.mp hb)).2
      have hback : ∀ b ∈ sortBy f (after.filter fun a => f x ≤ f a), f x ≤ f b := by
        intro b hb
        simpa using (List.mem_filter.mp (mem_sortBy.mp hb)).2
      rw [List.nil_append, List.filter_nil, List.nil_append, sortBy_cons, sortBy_split (f x) after,
        orderedInsert_append_right _ _ hfront]
      have hnil := orderedInsert_append_left [] _ hback
      rw [List.nil_append, List.orderedInsert_nil] at hnil
      rw [hnil, List.singleton_append]
    · simpa using (List.mem_filter.mp (mem_sortBy.mp hb)).2
  | cons a before ih =>
    obtain ⟨later, hsort, hlater⟩ := ih
    rw [List.cons_append, sortBy_cons, hsort]
    by_cases ha : f a ≤ f x
    · refine ⟨later, ?_, hlater⟩
      rw [List.filter_cons_of_pos (by simpa using ha), List.cons_append, sortBy_cons]
      apply orderedInsert_append_left
      intro b hb
      rcases List.mem_cons.mp hb with rfl | hb
      · exact ha
      · exact le_trans ha (hlater b hb)
    · have hlt := not_le.mp ha
      refine ⟨later.orderedInsert (fun a b => f a ≤ f b) a, ?_, fun b hb => ?_⟩
      · rw [List.filter_cons_of_neg (by simpa using ha), orderedInsert_append_right,
          List.orderedInsert_cons, if_neg ha]
        intro b hb
        rcases List.mem_append.mp (mem_sortBy.mp hb) with hb | hb
        · exact lt_of_le_of_lt (by simpa using (List.mem_filter.mp hb).2) hlt
        · exact lt_trans (by simpa using (List.mem_filter.mp hb).2) hlt
      · rcases (List.mem_orderedInsert _).mp hb with rfl | hb
        · exact le_of_lt hlt
        · exact hlater b hb

end AgentBack
