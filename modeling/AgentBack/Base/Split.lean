import Mathlib.Data.List.TakeWhile

/-!
# Cutting a list at a delimiter

What Python's `split(d, 1)` and `rsplit(d, 1)` do: `beforeFirst` is what stands before the first
delimiter, or everything, and `splitLast` cuts at the last one. A list with a delimiter has one cut
whose back is free of it.
-/

namespace AgentBack

universe u

variable {α : Type u} [DecidableEq α] {d : α} {items front back : List α}

/-- `items.split(d, 1)[0]`. -/
def beforeFirst (d : α) (items : List α) : List α := items.takeWhile (· ≠ d)

/-- `items.rsplit(d, 1)`, when the delimiter occurs. -/
def splitLast (d : α) : List α → Option (List α × List α)
  | [] => none
  | a :: rest =>
    match splitLast d rest with
    | some (front, back) => some (a :: front, back)
    | none => if a = d then some ([], rest) else none

theorem beforeFirst_append (h : d ∉ front) (back : List α) :
    beforeFirst d (front ++ d :: back) = front := by
  induction front with
  | nil => simp [beforeFirst]
  | cons a rest ih =>
    have ha : a ≠ d := by
      rintro rfl
      exact h (.head _)
    rw [List.cons_append, beforeFirst, List.takeWhile_cons, if_pos (decide_eq_true ha)]
    exact congrArg (a :: ·) (ih fun hd => h (List.mem_cons_of_mem a hd))

theorem not_mem_beforeFirst (d : α) (items : List α) : d ∉ beforeFirst d items := by
  intro h
  unfold beforeFirst at h
  have hd := List.mem_takeWhile_imp h
  simp at hd

theorem splitLast_eq_none : splitLast d items = none ↔ d ∉ items := by
  induction items with
  | nil => simp [splitLast]
  | cons a rest ih =>
    unfold splitLast
    cases hrest : splitLast d rest with
    | some cut =>
      have hmem : d ∈ rest := by
        by_contra hnot
        rw [ih.mpr hnot] at hrest
        cases hrest
      simp [hmem]
    | none =>
      have hnot := ih.mp hrest
      by_cases ha : a = d
      · simp [ha]
      · simp [ha, hnot, Ne.symm ha]

theorem splitLast_append (h : d ∉ back) (front : List α) :
    splitLast d (front ++ d :: back) = some (front, back) := by
  induction front with
  | nil => simp [splitLast, splitLast_eq_none.mpr h]
  | cons a rest ih => simp [splitLast, ih]

theorem splitLast_eq_some :
    splitLast d items = some (front, back) ↔ items = front ++ d :: back ∧ d ∉ back := by
  constructor
  · intro h
    induction items generalizing front with
    | nil => cases h
    | cons a rest ih =>
      unfold splitLast at h
      cases hrest : splitLast d rest with
      | some cut =>
        rw [hrest] at h
        cases h
        obtain ⟨hsplit, hnot⟩ := ih hrest
        exact ⟨by rw [List.cons_append, ← hsplit], hnot⟩
      | none =>
        rw [hrest] at h
        simp only at h
        split at h
        · next ha =>
          cases h
          exact ⟨by rw [ha, List.nil_append], splitLast_eq_none.mp hrest⟩
        · cases h
  · rintro ⟨rfl, hnot⟩
    exact splitLast_append hnot front

theorem length_splitLast (h : splitLast d items = some (front, back)) :
    front.length < items.length := by
  rw [(splitLast_eq_some.mp h).1, List.length_append, List.length_cons]
  exact Nat.lt_add_of_pos_right (Nat.succ_pos _)

/-- Where the backs are free of the delimiter, the fronts and the backs agree. -/
theorem append_delimiter_inj {front' back' : List α} (h : d ∉ back) (h' : d ∉ back')
    (he : front ++ d :: back = front' ++ d :: back') : front = front' ∧ back = back' := by
  have hcut := splitLast_append h front
  rw [he, splitLast_append h' front'] at hcut
  obtain ⟨hfront, hback⟩ := Prod.mk.inj (Option.some.inj hcut)
  exact ⟨hfront.symm, hback.symm⟩

/-- Where the fronts are free of the delimiter, the fronts and the backs agree. -/
theorem append_delimiter_inj_front {front' back' : List α} (h : d ∉ front) (h' : d ∉ front')
    (he : front ++ d :: back = front' ++ d :: back') : front = front' ∧ back = back' := by
  have hfront : front = front' := by
    rw [← beforeFirst_append h back, he, beforeFirst_append h']
  rw [hfront] at he
  exact ⟨hfront, (List.cons.inj (List.append_cancel_left he)).2⟩

omit [DecidableEq α] in
/-- A list cut behind its delimiter is cut in the back. -/
theorem take_append_delimiter {n : Nat} (h : front.length < n) (d : α) (back : List α) :
    (front ++ d :: back).take n = front ++ d :: back.take (n - front.length - 1) := by
  obtain ⟨k, hk⟩ : ∃ k, n - front.length = k + 1 := ⟨n - front.length - 1, by omega⟩
  rw [List.take_append, List.take_of_length_le (Nat.le_of_lt h), hk, List.take_succ_cons,
    Nat.add_sub_cancel]

/-- Where a list cut short still has its delimiter, the front is whole. -/
theorem take_append_delimiter_inj {n : Nat} {front' back' : List α} (h : d ∉ front)
    (h' : d ∉ front') (he : (front ++ d :: back).take n = front' ++ d :: back') :
    front.length < n ∧ front = front' ∧ back' = back.take (n - front.length - 1) := by
  have hlt : front.length < n := by
    by_contra hge
    rw [List.take_append_of_le_length (Nat.not_lt.mp hge)] at he
    have hmem : d ∈ front.take n := by
      rw [he]
      exact List.mem_append_right _ (.head _)
    exact h (List.mem_of_mem_take hmem)
  rw [take_append_delimiter hlt] at he
  obtain ⟨hfront, hback⟩ := append_delimiter_inj_front h h' he
  exact ⟨hlt, hfront, hback.symm⟩

end AgentBack
