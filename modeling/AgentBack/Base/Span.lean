import Mathlib.Data.List.Sort
import Mathlib.Order.MinMax

/-!
# Half-open spans and their coalescing

A span is a pair `(start, stop)` that holds the points `start ≤ x < stop`. `coalesce` sorts a list
of spans by start and joins the ones that meet, and `Normal` is the form it produces: proper spans,
in order, with a gap between any two neighbours.

Three facts connect a list with its coalescing: both cover the same points (`covers_coalesce`), every
span of the list lies inside one block (`inside_coalesce`), and the ends of a block are ends of spans
of the list (`ends_coalesce`). A normal list is determined by the points that it covers
(`Normal.ext`).
-/

namespace AgentBack.Span

universe u

variable {α : Type u} [LinearOrder α]

/-- The span holds the point `x`. -/
def Holds (iv : α × α) (x : α) : Prop := iv.1 ≤ x ∧ x < iv.2

/-- Some span of the list holds the point `x`. -/
def Covers (ivs : List (α × α)) (x : α) : Prop := ∃ iv ∈ ivs, Holds iv x

/-- The comparison a program makes: each span starts before the other one stops. -/
def Overlap (a b : α × α) : Prop := a.1 < b.2 ∧ b.1 < a.2

instance (a b : α × α) : Decidable (Overlap a b) := inferInstanceAs (Decidable (_ ∧ _))

/-- No point lies in both spans. -/
def Apart (a b : α × α) : Prop := ∀ x, Holds a x → ¬ Holds b x

theorem covers_append {as bs : List (α × α)} {x : α} :
    Covers (as ++ bs) x ↔ Covers as x ∨ Covers bs x := by
  simp only [Covers, List.mem_append, or_and_right, exists_or]

theorem Apart.symm {a b : α × α} (h : Apart a b) : Apart b a := fun x hb ha => h x ha hb

/-- Spans that do not overlap share no point, whether they are proper or not. -/
theorem apart_of_not_overlap {a b : α × α} (h : ¬ Overlap a b) : Apart a b :=
  fun _ ha hb => h ⟨lt_of_le_of_lt ha.1 hb.2, lt_of_le_of_lt hb.1 ha.2⟩

/-- Proper spans that overlap share a point: the later of the two starts. -/
theorem exists_holds_of_overlap {a b : α × α} (ha : a.1 < a.2) (hb : b.1 < b.2)
    (h : Overlap a b) : ∃ x, Holds a x ∧ Holds b x :=
  ⟨max a.1 b.1, ⟨le_max_left _ _, max_lt ha h.2⟩, ⟨le_max_right _ _, max_lt h.1 hb⟩⟩

theorem not_overlap_of_apart {a b : α × α} (ha : a.1 < a.2) (hb : b.1 < b.2)
    (h : Apart a b) : ¬ Overlap a b := by
  intro hab
  obtain ⟨x, hxa, hxb⟩ := exists_holds_of_overlap ha hb hab
  exact h x hxa hxb

/-! ## Coalescing -/

/-- Join the spans that meet the open block `last`; close it at the first one that does not. -/
def mergeFrom (last : α × α) : List (α × α) → List (α × α)
  | [] => [last]
  | iv :: rest =>
    if iv.1 ≤ last.2 then mergeFrom (last.1, max last.2 iv.2) rest
    else last :: mergeFrom iv rest

/-- Sort by start, keeping the order of equal starts, and join the spans that meet. -/
def coalesce (ivs : List (α × α)) : List (α × α) :=
  match ivs.insertionSort (fun a b => a.1 ≤ b.1) with
  | [] => []
  | iv :: rest => mergeFrom iv rest

/-- Proper spans in order, no two of which meet. -/
structure Normal (ivs : List (α × α)) : Prop where
  proper : ∀ iv ∈ ivs, iv.1 < iv.2
  separated : ivs.Pairwise fun a b => a.2 < b.1

theorem Normal.nil : Normal ([] : List (α × α)) := ⟨by simp, List.Pairwise.nil⟩

section

variable {iv : α × α} {rest : List (α × α)} (h : Normal (iv :: rest))
include h

theorem Normal.tail :
    Normal rest :=
  ⟨fun b hb => h.proper b (.tail _ hb), (List.pairwise_cons.mp h.separated).2⟩

/-- In a normal list everything after the head starts after the head has stopped. -/
theorem Normal.head_lt :
    ∀ b ∈ rest, iv.2 < b.1 :=
  (List.pairwise_cons.mp h.separated).1

end

/-- What the merge may assume of the spans still to come: in order, and none starts before the
open block. -/
private structure Ahead (last : α × α) (rest : List (α × α)) : Prop where
  lastProper : last.1 < last.2
  proper : ∀ iv ∈ rest, iv.1 < iv.2
  later : ∀ iv ∈ rest, last.1 ≤ iv.1
  sorted : rest.Pairwise fun a b => a.1 ≤ b.1

section

variable {last iv : α × α} {rest : List (α × α)} (h : Ahead last (iv :: rest))
include h

private theorem Ahead.join : Ahead (last.1, max last.2 iv.2) rest where
  lastProper := lt_max_of_lt_left h.lastProper
  proper b hb := h.proper b (.tail _ hb)
  later b hb := h.later b (.tail _ hb)
  sorted := (List.pairwise_cons.mp h.sorted).2

private theorem Ahead.close : Ahead iv rest where
  lastProper := h.proper iv (.head _)
  proper b hb := h.proper b (.tail _ hb)
  later b hb := (List.pairwise_cons.mp h.sorted).1 b hb
  sorted := (List.pairwise_cons.mp h.sorted).2

end

variable (last : α × α)

variable (rest : List (α × α))

private theorem mergeFrom_start_le (h : Ahead last rest) :
    ∀ b ∈ mergeFrom last rest, last.1 ≤ b.1 := by
  induction rest generalizing last with
  | nil =>
    intro b hb
    simp only [mergeFrom, List.mem_singleton] at hb
    exact hb ▸ le_refl _
  | cons iv rest ih =>
    intro b hb
    simp only [mergeFrom] at hb
    split at hb
    · exact ih _ h.join b hb
    · rcases List.mem_cons.mp hb with rfl | hb
      · exact le_refl _
      · exact le_trans (h.later iv (.head _)) (ih _ h.close b hb)

private theorem mergeFrom_normal (h : Ahead last rest) : Normal (mergeFrom last rest) := by
  induction rest generalizing last with
  | nil => exact ⟨by simpa [mergeFrom] using h.lastProper, List.pairwise_singleton _ _⟩
  | cons iv rest ih =>
    simp only [mergeFrom]
    split
    · exact ih _ h.join
    · next hgap =>
      have hrest := ih _ h.close
      refine ⟨?_, List.pairwise_cons.mpr ⟨fun b hb => ?_, hrest.separated⟩⟩
      · intro b hb
        rcases List.mem_cons.mp hb with rfl | hb
        · exact h.lastProper
        · exact hrest.proper b hb
      · exact lt_of_lt_of_le (not_le.mp hgap) (mergeFrom_start_le iv rest h.close b hb)

/-- Joining two spans that meet covers the points of both and no others. -/
private theorem holds_join {last iv : α × α} (hle : last.1 ≤ iv.1) (hmeet : iv.1 ≤ last.2)
    (x : α) : Holds (last.1, max last.2 iv.2) x ↔ Holds last x ∨ Holds iv x := by
  constructor
  · rintro ⟨h₁, h₂⟩
    rcases lt_or_ge x last.2 with hx | hx
    · exact .inl ⟨h₁, hx⟩
    · refine .inr ⟨le_trans hmeet hx, ?_⟩
      rcases lt_max_iff.mp h₂ with h | h
      · exact absurd h (not_lt.mpr hx)
      · exact h
  · rintro (⟨h₁, h₂⟩ | ⟨h₁, h₂⟩)
    · exact ⟨h₁, lt_max_of_lt_left h₂⟩
    · exact ⟨le_trans hle h₁, lt_max_of_lt_right h₂⟩

private theorem covers_mergeFrom (h : Ahead last rest) (x : α) :
    Covers (mergeFrom last rest) x ↔ Holds last x ∨ Covers rest x := by
  induction rest generalizing last with
  | nil => simp [mergeFrom, Covers]
  | cons iv rest ih =>
    have hcons : Covers (iv :: rest) x ↔ Holds iv x ∨ Covers rest x := by simp [Covers]
    simp only [mergeFrom]
    split
    · next hmeet =>
      rw [ih _ h.join, holds_join (h.later iv (.head _)) hmeet, hcons, or_assoc]
    · have hlast : Covers (last :: mergeFrom iv rest) x ↔
          Holds last x ∨ Covers (mergeFrom iv rest) x := by simp [Covers]
      rw [hlast, ih _ h.close, hcons]

private theorem inside_mergeFrom :
    ∀ iv ∈ last :: rest, Ahead last rest →
      ∃ b ∈ mergeFrom last rest, b.1 ≤ iv.1 ∧ iv.2 ≤ b.2 := by
  induction rest generalizing last with
  | nil =>
    intro iv hiv _
    obtain rfl : iv = last := by simpa using hiv
    exact ⟨iv, by simp [mergeFrom], le_refl _, le_refl _⟩
  | cons next rest ih =>
    intro iv hiv h
    simp only [mergeFrom]
    split
    · obtain ⟨b, hb, hb₁, hb₂⟩ := ih _ (last.1, max last.2 next.2) (.head _) h.join
      rcases List.mem_cons.mp hiv with rfl | hiv
      · exact ⟨b, hb, hb₁, le_trans (le_max_left _ _) hb₂⟩
      · rcases List.mem_cons.mp hiv with rfl | hiv
        · exact ⟨b, hb, le_trans hb₁ (h.later iv (.head _)),
            le_trans (le_max_right _ _) hb₂⟩
        · exact ih _ iv (.tail _ hiv) h.join
    · rcases List.mem_cons.mp hiv with rfl | hiv
      · exact ⟨iv, .head _, le_refl _, le_refl _⟩
      · obtain ⟨b, hb, hins⟩ := ih next iv hiv h.close
        exact ⟨b, .tail _ hb, hins⟩

private theorem ends_mergeFrom :
    ∀ b ∈ mergeFrom last rest,
      (∃ iv ∈ last :: rest, iv.1 = b.1) ∧ ∃ iv ∈ last :: rest, iv.2 = b.2 := by
  induction rest generalizing last with
  | nil =>
    intro b hb
    obtain rfl : b = last := by simpa [mergeFrom] using hb
    exact ⟨⟨b, by simp, rfl⟩, ⟨b, by simp, rfl⟩⟩
  | cons next rest ih =>
    intro b hb
    simp only [mergeFrom] at hb
    split at hb
    · obtain ⟨⟨s, hs, hsb⟩, e, he, heb⟩ := ih _ b hb
      constructor
      · rcases List.mem_cons.mp hs with rfl | hs
        · exact ⟨last, by simp, hsb⟩
        · exact ⟨s, by simp [hs], hsb⟩
      · rcases List.mem_cons.mp he with rfl | he
        · rcases max_choice last.2 next.2 with hmax | hmax
          · exact ⟨last, by simp, by rw [← heb]; exact hmax.symm⟩
          · exact ⟨next, by simp, by rw [← heb]; exact hmax.symm⟩
        · exact ⟨e, by simp [he], heb⟩
    · rcases List.mem_cons.mp hb with rfl | hb
      · exact ⟨⟨b, by simp, rfl⟩, ⟨b, by simp, rfl⟩⟩
      · obtain ⟨⟨s, hs, hsb⟩, e, he, heb⟩ := ih next b hb
        exact ⟨⟨s, .tail _ hs, hsb⟩, ⟨e, .tail _ he, heb⟩⟩

private theorem ahead_of_sort {ivs rest : List (α × α)} {iv : α × α}
    (hproper : ∀ b ∈ ivs, b.1 < b.2)
    (hsort : ivs.insertionSort (fun a b => a.1 ≤ b.1) = iv :: rest) : Ahead iv rest := by
  have hmem : ∀ b ∈ iv :: rest, b ∈ ivs := fun b hb =>
    (List.mem_insertionSort (fun a b : α × α => a.1 ≤ b.1)).mp (hsort ▸ hb)
  have hord : (iv :: rest).Pairwise fun a b => a.1 ≤ b.1 := by
    have : Std.Total fun a b : α × α => a.1 ≤ b.1 := ⟨fun a b => le_total a.1 b.1⟩
    have : IsTrans (α × α) fun a b => a.1 ≤ b.1 := ⟨fun _ _ _ => le_trans⟩
    exact hsort ▸ List.pairwise_insertionSort (fun a b : α × α => a.1 ≤ b.1) ivs
  obtain ⟨hlater, hsorted⟩ := List.pairwise_cons.mp hord
  exact ⟨hproper iv (hmem iv (.head _)),
    fun b hb => hproper b (hmem b (.tail _ hb)), hlater, hsorted⟩

variable {ivs : List (α × α)}

section

variable (hproper : ∀ iv ∈ ivs, iv.1 < iv.2)
include hproper

/-- Coalescing proper spans leaves them in normal form. -/
theorem coalesce_normal :
    Normal (coalesce ivs) := by
  unfold coalesce
  split
  · exact Normal.nil
  · next hsort => exact mergeFrom_normal _ _ (ahead_of_sort hproper hsort)

/-- A list of proper spans and its coalescing cover the same points. -/
theorem covers_coalesce (x : α) :
    Covers (coalesce ivs) x ↔ Covers ivs x := by
  have hperm : Covers (ivs.insertionSort fun a b => a.1 ≤ b.1) x ↔ Covers ivs x := by
    simp only [Covers, List.mem_insertionSort]
  rw [← hperm]
  unfold coalesce
  split
  · next hsort => rw [hsort]
  · next iv rest hsort =>
    rw [hsort, covers_mergeFrom _ _ (ahead_of_sort hproper hsort)]
    simp [Covers]

/-- Every span of a list of proper spans lies inside one block of its coalescing. -/
theorem inside_coalesce {iv : α × α} (hiv : iv ∈ ivs) :
    ∃ b ∈ coalesce ivs, b.1 ≤ iv.1 ∧ iv.2 ≤ b.2 := by
  have hiv' : iv ∈ ivs.insertionSort fun a b => a.1 ≤ b.1 :=
    (List.mem_insertionSort (fun a b : α × α => a.1 ≤ b.1)).mpr hiv
  unfold coalesce
  split
  · next hsort => rw [hsort] at hiv'; cases hiv'
  · next hsort => exact inside_mergeFrom _ _ iv (hsort ▸ hiv') (ahead_of_sort hproper hsort)

end

theorem ends_coalesce {b : α × α} (hb : b ∈ coalesce ivs) :
    (∃ iv ∈ ivs, iv.1 = b.1) ∧ ∃ iv ∈ ivs, iv.2 = b.2 := by
  unfold coalesce at hb
  split at hb
  · cases hb
  · next hsort =>
    have hmem : ∀ iv, iv ∈ ivs.insertionSort (fun a b => a.1 ≤ b.1) → iv ∈ ivs := fun iv h =>
      (List.mem_insertionSort (fun a b : α × α => a.1 ≤ b.1)).mp h
    rw [hsort] at hmem
    obtain ⟨⟨s, hs, hsb⟩, e, he, heb⟩ := ends_mergeFrom _ _ b hb
    exact ⟨⟨s, hmem s hs, hsb⟩, ⟨e, hmem e he, heb⟩⟩

theorem Normal.coalesce_eq (h : Normal ivs) : coalesce ivs = ivs := by
  have hmerge : ∀ (rest : List (α × α)) (iv : α × α), Normal (iv :: rest) →
      mergeFrom iv rest = iv :: rest := by
    intro rest
    induction rest with
    | nil => intro iv _; rfl
    | cons next rest ih =>
      intro iv h
      have hgap : ¬ next.1 ≤ iv.2 := not_le.mpr (h.head_lt next (.head _))
      rw [mergeFrom, if_neg hgap, ih next h.tail]
  have hord : ivs.Pairwise fun a b => a.1 ≤ b.1 := by
    refine List.Pairwise.imp_of_mem ?_ h.separated
    intro a b ha _ hab
    exact le_of_lt (lt_trans (h.proper a ha) hab)
  unfold coalesce
  rw [hord.insertionSort_eq]
  cases ivs with
  | nil => rfl
  | cons iv rest => exact hmerge rest iv h

section

variable {iv : α × α} {rest : List (α × α)} (h : Normal (iv :: rest)) {x : α}
include h

/-- Nothing is covered before the first span of a normal list. -/
theorem Normal.start_le (hx : Covers (iv :: rest) x) : iv.1 ≤ x := by
  obtain ⟨b, hb, hbx⟩ := hx
  rcases List.mem_cons.mp hb with rfl | hb
  · exact hbx.1
  · have hlt := lt_trans (h.proper iv (.head _)) (h.head_lt b hb)
    exact le_trans (le_of_lt hlt) hbx.1

/-- The spans after the first cover what is covered from its stop on. -/
theorem Normal.covers_tail :
    Covers rest x ↔ Covers (iv :: rest) x ∧ iv.2 ≤ x := by
  constructor
  · rintro ⟨b, hb, hbx⟩
    exact ⟨⟨b, .tail _ hb, hbx⟩, le_of_lt (lt_of_lt_of_le (h.head_lt b hb) hbx.1)⟩
  · rintro ⟨⟨b, hb, hbx⟩, hx⟩
    rcases List.mem_cons.mp hb with rfl | hb
    · exact absurd hbx.2 (not_lt.mpr hx)
    · exact ⟨b, hb, hbx⟩

end

/-- Of two normal lists that start together, the one that covers more does not stop earlier. -/
private theorem Normal.stop_le {a b : α × α} {as bs : List (α × α)} (ha : Normal (a :: as))
    (hb : Normal (b :: bs)) (hstart : a.1 = b.1)
    (h : ∀ x, Covers (b :: bs) x → Covers (a :: as) x) : b.2 ≤ a.2 := by
  by_contra hlt
  have hheld : Holds b a.2 :=
    ⟨hstart ▸ le_of_lt (ha.proper a (.head _)), not_le.mp hlt⟩
  obtain ⟨c, hc, hcx⟩ := h a.2 ⟨b, .head _, hheld⟩
  rcases List.mem_cons.mp hc with rfl | hc
  · exact lt_irrefl _ hcx.2
  · exact absurd hcx.1 (not_le.mpr (ha.head_lt c hc))

/-- Normal lists that cover the same points are equal. -/
theorem Normal.ext {as bs : List (α × α)} (ha : Normal as) (hb : Normal bs)
    (h : ∀ x, Covers as x ↔ Covers bs x) : as = bs := by
  induction as generalizing bs with
  | nil =>
    cases bs with
    | nil => rfl
    | cons b bs =>
      have hheld : Holds b b.1 := ⟨le_refl _, hb.proper b (.head _)⟩
      obtain ⟨c, hc, -⟩ := (h b.1).mpr ⟨b, .head _, hheld⟩
      cases hc
  | cons a as ih =>
    have hheld : Holds a a.1 := ⟨le_refl _, ha.proper a (.head _)⟩
    have hcovered := (h a.1).mp ⟨a, .head _, hheld⟩
    cases bs with
    | nil =>
      obtain ⟨c, hc, -⟩ := hcovered
      cases hc
    | cons b bs =>
      have hstart : a.1 = b.1 := by
        have hheld' : Holds b b.1 := ⟨le_refl _, hb.proper b (.head _)⟩
        refine le_antisymm (ha.start_le ((h b.1).mpr ⟨b, .head _, hheld'⟩)) ?_
        exact hb.start_le hcovered
      have hstop : a.2 = b.2 :=
        le_antisymm (hb.stop_le ha hstart.symm fun x => (h x).mp)
          (ha.stop_le hb hstart fun x => (h x).mpr)
      obtain rfl := Prod.ext hstart hstop
      rw [ih ha.tail hb.tail fun x => ?_]
      rw [ha.covers_tail, hb.covers_tail, h x]

end AgentBack.Span
