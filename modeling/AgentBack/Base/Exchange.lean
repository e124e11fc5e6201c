import Mathlib.Algebra.BigOperators.Ring.List
import Mathlib.Algebra.Order.BigOperators.Group.List
import Mathlib.Algebra.Order.Field.Basic
import Mathlib.Tactic.Linarith
import Mathlib.Tactic.Ring

/-!
# Drawing in order, and assignments

Demands come one after another, and each draws from the sources that match it, in the order of the
sources, as much as it still needs and as the source still has (`drain`, `serve`). Two questions are
answered about what stays uncovered.

Where to match is to be of one group, the order does not matter: a group lacks what its demands ask
for beyond what its sources have (`lack_eq`). Where a source may match one demand and not another,
drawing in order can lose to a cleverer assignment. It does not where the matching is
*exchangeable*: a demand that may take from an earlier and from a later source leaves, to every
demand after it that may take from the earlier source, the right to take from the later one
(`serve_covers`). The proof moves the shares of an assignment, source by source, to what is drawn.
-/

namespace AgentBack.Exchange

universe u v w

variable {ι : Type u} {κ : Type v} {Q : Type w} [DecidableEq κ] [Field Q] [LinearOrder Q]

/-! ## One demand -/

/-- A demand draws from the sources in their order: what it lacks then, and what they have then. -/
def drain (matched : κ → Bool) : List κ → Q → (κ → Q) → Q × (κ → Q)
  | [], left, stock => (left, stock)
  | k :: ks, left, stock =>
    if matched k then
      drain matched ks (left - min left (stock k))
        (Function.update stock k (stock k - min left (stock k)))
    else drain matched ks left stock

/-- The demands draw one after another: what each lacks. -/
def serve (matched : ι → κ → Bool) (keys : List κ) : List (ι × Q) → (κ → Q) → List (ι × Q)
  | [], _ => []
  | d :: ds, stock =>
    let drawn := drain (matched d.1) keys d.2 stock
    (d.1, drawn.1) :: serve matched keys ds drawn.2

def has (matched : κ → Bool) (keys : List κ) (stock : κ → Q) : Q :=
  ((keys.filter matched).map stock).sum

section Has

variable {matched : κ → Bool} {stock : κ → Q} {k : κ} {ks : List κ}

omit [DecidableEq κ] [LinearOrder Q] in
theorem has_cons_of_pos (hk : matched k = true) :
    has matched (k :: ks) stock = stock k + has matched ks stock := by
  unfold has
  rw [List.filter_cons_of_pos hk, List.map_cons, List.sum_cons]

omit [DecidableEq κ] [LinearOrder Q] in
theorem has_cons_of_neg (hk : ¬ matched k = true) :
    has matched (k :: ks) stock = has matched ks stock := by
  unfold has
  rw [List.filter_cons_of_neg hk]

omit [DecidableEq κ] [LinearOrder Q] in
theorem has_congr {stock' : κ → Q} (h : ∀ k ∈ ks, matched k = true → stock k = stock' k) :
    has matched ks stock = has matched ks stock' := by
  unfold has
  congr 1
  apply List.map_congr_left
  intro k hk
  obtain ⟨hmem, hmatched⟩ := List.mem_filter.mp hk
  exact h k hmem hmatched

omit [LinearOrder Q] in
theorem has_update (hfresh : k ∉ ks) (q : Q) :
    has matched ks (Function.update stock k q) = has matched ks stock := by
  apply has_congr
  intro k' hk' _
  apply Function.update_of_ne
  rintro rfl
  exact hfresh hk'

omit [DecidableEq κ] [LinearOrder Q] in
theorem has_matched_congr {matched' : κ → Bool} (h : ∀ k ∈ ks, matched k = matched' k)
    (stock : κ → Q) : has matched ks stock = has matched' ks stock := by
  unfold has
  rw [List.filter_congr h]

theorem update_nonneg (hstock : ∀ k, 0 ≤ stock k) {q : Q} (hq : 0 ≤ q) (k' : κ) :
    0 ≤ Function.update stock k q k' := by
  by_cases he : k' = k
  · rw [he, Function.update_self]
    exact hq
  · rw [Function.update_of_ne he]
    exact hstock k'

omit [DecidableEq κ] in
theorem has_nonneg [IsStrictOrderedRing Q] (hstock : ∀ k, 0 ≤ stock k) : 0 ≤ has matched ks stock := by
  apply List.sum_nonneg
  intro q hq
  obtain ⟨k, -, rfl⟩ := List.mem_map.mp hq
  exact hstock k

end Has

section Draw

variable {matched : κ → Bool} {keys : List κ} {left : Q} {stock stock' : κ → Q}

theorem drain_cons_of_pos {k : κ} (hk : matched k = true) (ks : List κ) (left : Q) (stock : κ → Q) :
    drain matched (k :: ks) left stock = drain matched ks (left - min left (stock k))
      (Function.update stock k (stock k - min left (stock k))) := by
  rw [drain, if_pos hk]

theorem drain_cons_of_neg {k : κ} (hk : ¬ matched k = true) (ks : List κ) (left : Q)
    (stock : κ → Q) : drain matched (k :: ks) left stock = drain matched ks left stock := by
  rw [drain, if_neg hk]

/-- A draw reads the sources of its list only. -/
theorem drain_congr (matched : κ → Bool) {all : List κ} (hsub : ∀ k ∈ keys, k ∈ all)
    (h : ∀ k ∈ all, stock k = stock' k) (left : Q) :
    (drain matched keys left stock).1 = (drain matched keys left stock').1 ∧
      ∀ k ∈ all, (drain matched keys left stock).2 k = (drain matched keys left stock').2 k := by
  induction keys generalizing left stock stock' with
  | nil => exact ⟨rfl, h⟩
  | cons k ks ih =>
    have hks : ∀ k' ∈ ks, k' ∈ all := fun k' hk' => hsub k' (.tail _ hk')
    by_cases hk : matched k = true
    · rw [drain_cons_of_pos hk, drain_cons_of_pos hk, h k (hsub k (.head _))]
      apply ih hks
      intro k' hk'
      by_cases he : k' = k
      · rw [he, Function.update_self, Function.update_self]
      · rw [Function.update_of_ne he, Function.update_of_ne he, h k' hk']
    · rw [drain_cons_of_neg hk, drain_cons_of_neg hk]
      exact ih hks h left

theorem drain_append (ks ks' : List κ) (left : Q) (stock : κ → Q) :
    drain matched (ks ++ ks') left stock =
      drain matched ks' (drain matched ks left stock).1 (drain matched ks left stock).2 := by
  induction ks generalizing left stock with
  | nil => rfl
  | cons k ks ih =>
    rw [List.cons_append]
    by_cases hk : matched k = true
    · rw [drain_cons_of_pos hk, drain_cons_of_pos hk, ih]
    · rw [drain_cons_of_neg hk, drain_cons_of_neg hk, ih]

/-- A source that is not of the list, or does not match, keeps what it has. -/
theorem drain_frame {k : κ} (hk : k ∉ keys ∨ ¬ matched k = true) (left : Q) (stock : κ → Q) :
    (drain matched keys left stock).2 k = stock k := by
  induction keys generalizing left stock with
  | nil => rfl
  | cons k' ks ih =>
    have hks : k ∉ ks ∨ ¬ matched k = true := hk.imp_left fun h h' => h (.tail _ h')
    by_cases hk' : matched k' = true
    · have hne : k ≠ k' := by
        rintro rfl
        rcases hk with h | h
        · exact h (.head _)
        · exact h hk'
      rw [drain_cons_of_pos hk', ih hks, Function.update_of_ne hne]
    · rw [drain_cons_of_neg hk', ih hks]

theorem serve_congr {matched : ι → κ → Bool} {stock stock' : κ → Q}
    (h : ∀ k ∈ keys, stock k = stock' k) (demands : List (ι × Q)) :
    serve matched keys demands stock = serve matched keys demands stock' := by
  induction demands generalizing stock stock' with
  | nil => rfl
  | cons d ds ih =>
    obtain ⟨hleft, hstock⟩ := drain_congr (matched d.1) (fun _ hk => hk) h d.2
    rw [serve, serve, hleft, ih hstock]

/-- A demand that needs nothing draws nothing. -/
theorem drain_zero (matched : κ → Bool) (keys : List κ) (hstock : ∀ k, 0 ≤ stock k) : drain matched keys 0 stock = (0, stock) := by
  induction keys with
  | nil => rfl
  | cons k ks ih =>
    by_cases hk : matched k = true
    · rw [drain_cons_of_pos hk, min_eq_left (hstock k), sub_zero, sub_zero, Function.update_eq_self, ih]
    · rw [drain_cons_of_neg hk, ih]

variable [IsStrictOrderedRing Q]

theorem drain_nonneg (matched : κ → Bool) (keys : List κ) (hleft : 0 ≤ left) (hstock : ∀ k, 0 ≤ stock k) :
    0 ≤ (drain matched keys left stock).1 ∧ ∀ k, 0 ≤ (drain matched keys left stock).2 k := by
  induction keys generalizing left stock with
  | nil => exact ⟨hleft, hstock⟩
  | cons k ks ih =>
    by_cases hk : matched k = true
    · rw [drain_cons_of_pos hk]
      exact ih (sub_nonneg.mpr (min_le_left _ _))
        (update_nonneg hstock (sub_nonneg.mpr (min_le_right _ _)))
    · rw [drain_cons_of_neg hk]
      exact ih hleft hstock

theorem drain_le (hleft : 0 ≤ left) (hstock : ∀ k, 0 ≤ stock k) (k : κ) :
    (drain matched keys left stock).2 k ≤ stock k := by
  induction keys generalizing left stock with
  | nil => exact le_refl _
  | cons k' ks ih =>
    by_cases hk : matched k' = true
    · rw [drain_cons_of_pos hk]
      have htake : 0 ≤ min left (stock k') := le_min hleft (hstock k')
      apply (ih (sub_nonneg.mpr (min_le_left _ _))
        (update_nonneg hstock (sub_nonneg.mpr (min_le_right _ _)))).trans
      by_cases he : k = k'
      · rw [he, Function.update_self]
        exact sub_le_self _ htake
      · rw [Function.update_of_ne he]
    · rw [drain_cons_of_neg hk]
      exact ih hleft hstock

theorem drain_left_le (hleft : 0 ≤ left) (hstock : ∀ k, 0 ≤ stock k) :
    (drain matched keys left stock).1 ≤ left := by
  induction keys generalizing left stock with
  | nil => exact le_refl _
  | cons k ks ih =>
    by_cases hk : matched k = true
    · rw [drain_cons_of_pos hk]
      exact (ih (sub_nonneg.mpr (min_le_left _ _))
        (update_nonneg hstock (sub_nonneg.mpr (min_le_right _ _)))).trans
        (sub_le_self _ (le_min hleft (hstock k)))
    · rw [drain_cons_of_neg hk]
      exact ih hleft hstock

/-- A demand lacks what it needs beyond what the sources that match have. -/
theorem drain_left (hnodup : keys.Nodup) (hleft : 0 ≤ left) (hstock : ∀ k, 0 ≤ stock k) :
    (drain matched keys left stock).1 = left - min left (has matched keys stock) := by
  induction keys generalizing left stock with
  | nil => rw [drain, has, List.filter_nil, List.map_nil, List.sum_nil, min_eq_right hleft, sub_zero]
  | cons k ks ih =>
    obtain ⟨hfresh, hnodup⟩ := List.nodup_cons.mp hnodup
    by_cases hk : matched k = true
    · rw [drain_cons_of_pos hk, ih hnodup (sub_nonneg.mpr (min_le_left _ _))
        (update_nonneg hstock (sub_nonneg.mpr (min_le_right _ _))), has_update hfresh,
        has_cons_of_pos hk]
      have hrest : 0 ≤ has matched ks stock := has_nonneg hstock
      rcases le_total left (stock k) with h | h
      · rw [min_eq_left h, sub_self, min_eq_left hrest, min_eq_left (by linarith), sub_zero, sub_self]
      · rw [min_eq_right h, sub_sub, ← min_add_add_left, add_sub_cancel]
    · rw [drain_cons_of_neg hk, ih hnodup hleft hstock, has_cons_of_neg hk]

omit [IsStrictOrderedRing Q] in
/-- What a demand no longer lacks is what its sources no longer have. -/
theorem has_drain (matched : κ → Bool) (hnodup : keys.Nodup) (left : Q) (stock : κ → Q) :
    has matched keys (drain matched keys left stock).2 + (left - (drain matched keys left stock).1) =
      has matched keys stock := by
  induction keys generalizing left stock with
  | nil => rw [drain, sub_self, add_zero]
  | cons k ks ih =>
    obtain ⟨hfresh, hnodup⟩ := List.nodup_cons.mp hnodup
    by_cases hk : matched k = true
    · have hrest := ih hnodup (left - min left (stock k))
        (Function.update stock k (stock k - min left (stock k)))
      rw [has_update hfresh] at hrest
      rw [drain_cons_of_pos hk, has_cons_of_pos hk, has_cons_of_pos hk, drain_frame (.inl hfresh),
        Function.update_self, ← hrest]
      ring
    · rw [drain_cons_of_neg hk, has_cons_of_neg hk, has_cons_of_neg hk]
      exact ih hnodup left stock

omit [IsStrictOrderedRing Q] in
theorem sum_drawn (hnodup : keys.Nodup) (left : Q) (stock : κ → Q) :
    (keys.map fun k => stock k - (drain matched keys left stock).2 k).sum =
      left - (drain matched keys left stock).1 := by
  induction keys generalizing left stock with
  | nil => rw [drain, sub_self, List.map_nil, List.sum_nil]
  | cons k ks ih =>
    obtain ⟨hfresh, hnodup⟩ := List.nodup_cons.mp hnodup
    rw [List.map_cons, List.sum_cons]
    by_cases hk : matched k = true
    · have hrest := ih hnodup (left - min left (stock k))
        (Function.update stock k (stock k - min left (stock k)))
      have hsame : (ks.map fun k' => stock k' - (drain matched ks (left - min left (stock k))
          (Function.update stock k (stock k - min left (stock k)))).2 k') =
          ks.map fun k' => Function.update stock k (stock k - min left (stock k)) k' -
            (drain matched ks (left - min left (stock k))
              (Function.update stock k (stock k - min left (stock k)))).2 k' := by
        apply List.map_congr_left
        intro k' hk'
        rw [Function.update_of_ne]
        rintro rfl
        exact hfresh hk'
      rw [drain_cons_of_pos hk, hsame, hrest, drain_frame (.inl hfresh), Function.update_self]
      ring
    · rw [drain_cons_of_neg hk, ih hnodup, drain_frame (.inl hfresh)]
      ring

end Draw

section Groups

variable {γ : Type*} [DecidableEq γ] {matched : ι → κ → Bool} {keys : List κ} {group : ι → γ}
  {kind : κ → γ}

/-- What the demands of a group need, or lack. -/
def total (group : ι → γ) (g : γ) (demands : List (ι × Q)) : Q :=
  ((demands.filter fun d => group d.1 = g).map Prod.snd).sum

omit [LinearOrder Q] in
theorem total_cons (g : γ) (d : ι × Q) (demands : List (ι × Q)) :
    total group g (d :: demands) = (if group d.1 = g then d.2 else 0) + total group g demands := by
  unfold total
  by_cases h : group d.1 = g
  · rw [List.filter_cons_of_pos (by simpa using h), List.map_cons, List.sum_cons, if_pos h]
  · rw [List.filter_cons_of_neg (by simpa using h), if_neg h, zero_add]

variable [IsStrictOrderedRing Q]

theorem total_nonneg (group : ι → γ) {demands : List (ι × Q)} (hneed : ∀ d ∈ demands, 0 ≤ d.2) (g : γ) :
    0 ≤ total group g demands := by
  apply List.sum_nonneg
  intro q hq
  obtain ⟨d, hd, rfl⟩ := List.mem_map.mp hq
  exact hneed d (List.mem_filter.mp hd).1

/-- **The order does not matter where to match is to be of one group.** A group lacks what its
demands need beyond what its sources have. -/
theorem total_serve (hnodup : keys.Nodup) {demands : List (ι × Q)}
    (hneed : ∀ d ∈ demands, 0 ≤ d.2)
    (hgroup : ∀ d ∈ demands, ∀ k ∈ keys, matched d.1 k = true ↔ group d.1 = kind k)
    {stock : κ → Q} (hstock : ∀ k, 0 ≤ stock k) (g : γ) :
    total group g (serve matched keys demands stock) =
      max 0 (total group g demands - has (fun k => decide (kind k = g)) keys stock) := by
  induction demands generalizing stock with
  | nil =>
    have hnone : total group g ([] : List (ι × Q)) = 0 := rfl
    rw [serve, hnone, max_eq_left]
    exact sub_nonpos.mpr (has_nonneg hstock)
  | cons d ds ih =>
    have hd := hneed d (.head _)
    have hds : ∀ d' ∈ ds, 0 ≤ d'.2 := fun d' hd' => hneed d' (List.mem_cons_of_mem d hd')
    have hsame : ∀ k ∈ keys, matched d.1 k = true ↔ group d.1 = kind k :=
      hgroup d (.head _)
    rw [serve, total_cons, total_cons,
      ih hds (fun d' hd' => hgroup d' (List.mem_cons_of_mem d hd')) (drain_nonneg _ _ hd hstock).2]
    have hrest := total_nonneg group hds g
    by_cases hg : group d.1 = g
    · have hmatched : ∀ stock' : κ → Q,
          has (fun k => decide (kind k = g)) keys stock' = has (matched d.1) keys stock' := by
        apply has_matched_congr
        intro k hk
        rw [Bool.eq_iff_iff, hsame k hk, decide_eq_true_iff, hg, eq_comm]
      have hlaw := has_drain (matched d.1) hnodup d.2 stock
      have hhas : 0 ≤ has (matched d.1) keys stock := has_nonneg hstock
      rw [if_pos hg, if_pos hg, hmatched, hmatched]
      rw [drain_left hnodup hd hstock] at hlaw ⊢
      rcases le_total d.2 (has (matched d.1) keys stock) with h | h
      · rw [min_eq_left h, sub_self, zero_add]
        rw [min_eq_left h] at hlaw
        congr 1
        linarith
      · rw [min_eq_right h] at hlaw ⊢
        rw [max_eq_right (by linarith), max_eq_right (by linarith)]
        linarith
    · rw [if_neg hg, if_neg hg, zero_add, zero_add]
      congr 2
      apply has_congr
      intro k hk hkind
      apply drain_frame
      right
      rw [hsame k hk, of_decide_eq_true hkind]
      exact hg

end Groups

/-! ## Assignments -/

section Assignments

variable {matched : ι → κ → Bool} {keys : List κ} {stock : κ → Q}

/-- Every demand is given shares of sources that match it, within what the sources have. -/
structure Assignment (matched : ι → κ → Bool) (keys : List κ) (stock : κ → Q)
    (shares : List (ι × (κ → Q))) : Prop where
  share : ∀ s ∈ shares, ∀ k ∈ keys, 0 ≤ s.2 k ∧ (s.2 k ≠ 0 → matched s.1 k = true)
  within : ∀ k ∈ keys, (shares.map fun s => s.2 k).sum ≤ stock k

def given (keys : List κ) (s : ι × (κ → Q)) : ι × Q := (s.1, (keys.map s.2).sum)

/-- Some assignment gives every demand what it needs. -/
def Coverable (matched : ι → κ → Bool) (keys : List κ) (stock : κ → Q)
    (demands : List (ι × Q)) : Prop :=
  ∃ shares, Assignment matched keys stock shares ∧ shares.map (given keys) = demands

/-- A demand that may take from an earlier and from a later source leaves to every demand after it,
that may take from the earlier source, the right to take from the later one. -/
def Exchangeable (matched : ι → κ → Bool) (keys : List κ) (demands : List ι) : Prop :=
  demands.Pairwise fun i i' => keys.Pairwise fun k k' =>
    matched i k = true → matched i k' = true → matched i' k = true → matched i' k' = true

/-- The shares of a demand are moved between the sources of a list. -/
structure Moved (keys : List κ) (s s' : ι × (κ → Q)) : Prop where
  fst : s'.1 = s.1
  frame : ∀ k ∉ keys, s'.2 k = s.2 k
  sum : (keys.map s'.2).sum = (keys.map s.2).sum

omit [DecidableEq κ] [LinearOrder Q] in
theorem Moved.refl (keys : List κ) (s : ι × (κ → Q)) : Moved keys s s := ⟨rfl, fun _ _ => rfl, rfl⟩

omit [DecidableEq κ] [LinearOrder Q] in
theorem Moved.cons {k : κ} {ks : List κ} (hfresh : k ∉ ks) {s s' : ι × (κ → Q)}
    (h : Moved ks s s') : Moved (k :: ks) s s' where
  fst := h.fst
  frame j hj := h.frame j fun hmem => hj (List.mem_cons_of_mem k hmem)
  sum := by rw [List.map_cons, List.map_cons, List.sum_cons, List.sum_cons, h.sum, h.frame k hfresh]

omit [DecidableEq κ] [LinearOrder Q] in
theorem Moved.trans {s s' s'' : ι × (κ → Q)} (h : Moved keys s s') (h' : Moved keys s' s'') :
    Moved keys s s'' where
  fst := h'.fst.trans h.fst
  frame j hj := (h'.frame j hj).trans (h.frame j hj)
  sum := h'.sum.trans h.sum

omit [DecidableEq κ] [LinearOrder Q] in
/-- A source outside of the list gives as much as before. -/
theorem column_moved {shares shares' : List (ι × (κ → Q))}
    (h : List.Forall₂ (Moved keys) shares shares') {k : κ} (hk : k ∉ keys) :
    (shares'.map fun s => s.2 k).sum = (shares.map fun s => s.2 k).sum := by
  induction h with
  | nil => rfl
  | cons hmoved _ ih => rw [List.map_cons, List.map_cons, List.sum_cons, List.sum_cons, ih,
      hmoved.frame k hk]

omit [DecidableEq κ] [LinearOrder Q] in
theorem given_moved {shares shares' : List (ι × (κ → Q))}
    (h : List.Forall₂ (Moved keys) shares shares') :
    shares'.map (given keys) = shares.map (given keys) := by
  induction h with
  | nil => rfl
  | cons hmoved _ ih =>
    rw [List.map_cons, List.map_cons, ih, given, given, hmoved.fst, hmoved.sum]

/-! ### The exchange -/

/-- The shares give up a fraction of the first source, and get it back from the sources of `ks` in
the proportions `y`. -/
def reshare (k : κ) (ks : List κ) (y : κ → Q) (fraction : Q) (s : ι × (κ → Q)) : ι × (κ → Q) :=
  (s.1, fun j => if j = k then s.2 k * (1 - fraction)
    else if j ∈ ks then s.2 j + s.2 k * fraction * y j else s.2 j)

section Reshare

variable {k : κ} {ks : List κ} {y : κ → Q} {fraction : Q}

omit [LinearOrder Q] in
theorem reshare_self (s : ι × (κ → Q)) :
    (reshare k ks y fraction s).2 k = s.2 k * (1 - fraction) := if_pos rfl

omit [LinearOrder Q] in
theorem reshare_of_mem (hfresh : k ∉ ks) {j : κ} (hj : j ∈ ks) (s : ι × (κ → Q)) :
    (reshare k ks y fraction s).2 j = s.2 j + s.2 k * fraction * y j := by
  have hne : j ≠ k := by
    rintro rfl
    exact hfresh hj
  unfold reshare
  dsimp only
  rw [if_neg hne, if_pos hj]

omit [LinearOrder Q] in
theorem moved_reshare (hfresh : k ∉ ks) (hy : (ks.map y).sum = 1) (s : ι × (κ → Q)) :
    Moved (k :: ks) s (reshare k ks y fraction s) where
  fst := rfl
  frame j hj := by
    obtain ⟨hne, hj⟩ := not_or.mp (fun h => hj (List.mem_cons.mpr h))
    unfold reshare
    dsimp only
    rw [if_neg hne, if_neg hj]
  sum := by
    have hrest : ks.map (reshare k ks y fraction s).2 =
        ks.map fun j => s.2 j + s.2 k * fraction * y j :=
      List.map_congr_left fun j hj => reshare_of_mem hfresh hj s
    rw [List.map_cons, List.map_cons, List.sum_cons, List.sum_cons, hrest, List.sum_map_add,
      List.sum_map_mul_left, hy, reshare_self]
    ring

omit [LinearOrder Q] in
theorem column_reshare_self (shares : List (ι × (κ → Q))) :
    ((shares.map (reshare k ks y fraction)).map fun s => s.2 k).sum =
      (shares.map fun s => s.2 k).sum * (1 - fraction) := by
  rw [List.map_map, ← List.sum_map_mul_right]
  congr 1
  apply List.map_congr_left
  intro s _
  exact reshare_self s

omit [LinearOrder Q] in
theorem column_reshare_of_mem (hfresh : k ∉ ks) {j : κ} (hj : j ∈ ks)
    (shares : List (ι × (κ → Q))) :
    ((shares.map (reshare k ks y fraction)).map fun s => s.2 j).sum =
      (shares.map fun s => s.2 j).sum + (shares.map fun s => s.2 k).sum * fraction * y j := by
  have hcolumn : (shares.map (reshare k ks y fraction)).map (fun s => s.2 j) =
      shares.map fun s => s.2 j + s.2 k * fraction * y j := by
    rw [List.map_map]
    exact List.map_congr_left fun s _ => reshare_of_mem hfresh hj s
  rw [hcolumn, List.sum_map_add]
  congr 1
  rw [← List.sum_map_mul_right, ← List.sum_map_mul_right]

end Reshare

variable [IsStrictOrderedRing Q]

omit [DecidableEq κ] in
/-- A fraction of `used` can be given up that is no more than what is freed and leaves no more than
there is room for. -/
theorem exists_fraction {used freed room : Q} (hused : 0 ≤ used) (hfreed : 0 ≤ freed)
    (hroom : 0 ≤ room) (h : used ≤ freed + room) :
    ∃ fraction, 0 ≤ fraction ∧ fraction ≤ 1 ∧ used * fraction ≤ freed ∧
      used * (1 - fraction) ≤ room := by
  rcases le_total used freed with hle | hle
  · refine ⟨1, zero_le_one, le_refl 1, ?_, ?_⟩
    · rw [mul_one]
      exact hle
    · rw [sub_self, mul_zero]
      exact hroom
  · rcases hused.eq_or_lt with hzero | hpos
    · refine ⟨0, le_refl 0, zero_le_one, ?_, ?_⟩
      · rw [mul_zero]
        exact hfreed
      · rw [← hzero, zero_mul]
        exact hroom
    · refine ⟨freed / used, div_nonneg hfreed hused, (div_le_one hpos).mpr hle, ?_, ?_⟩
      · rw [mul_div_cancel₀ _ hpos.ne']
      · rw [mul_sub, mul_one, mul_div_cancel₀ _ hpos.ne']
        linarith

/-- The shares of one demand and those of the demands after it. -/
structure Shared (matched : ι → κ → Bool) (keys : List κ) (stock : κ → Q) (p : ι) (x : κ → Q)
    (shares : List (ι × (κ → Q))) : Prop where
  own : ∀ k ∈ keys, 0 ≤ x k ∧ (x k ≠ 0 → matched p k = true)
  share : ∀ s ∈ shares, ∀ k ∈ keys, 0 ≤ s.2 k ∧ (s.2 k ≠ 0 → matched s.1 k = true)
  within : ∀ k ∈ keys, x k + (shares.map fun s => s.2 k).sum ≤ stock k

/-- **The exchange.** A demand can be given more of the first source: what it gives up of the later
ones goes to the demands that give up the first. -/
theorem Shared.exchange {p : ι} {k : κ} {ks : List κ} (hfresh : k ∉ ks) {x : κ → Q}
    {shares : List (ι × (κ → Q))} (h : Shared matched (k :: ks) stock p x shares)
    (hexchange : ∀ k' ∈ ks, matched p k' = true → ∀ s ∈ shares, matched s.1 k = true →
      matched s.1 k' = true) {take : Q} (hle : x k ≤ take) (hstock : take ≤ stock k)
    (hneed : take ≤ x k + (ks.map x).sum) :
    ∃ x' shares', Shared matched ks stock p x' shares' ∧
      (ks.map x').sum = x k + (ks.map x).sum - take ∧
      List.Forall₂ (Moved (k :: ks)) shares shares' ∧
      (∀ s ∈ shares', 0 ≤ s.2 k ∧ (s.2 k ≠ 0 → matched s.1 k = true)) ∧
      (shares'.map fun s => s.2 k).sum ≤ stock k - take := by
  have hk : k ∈ k :: ks := List.mem_cons_self
  rcases hle.eq_or_lt with hsame | hmore
  · -- nothing is to be exchanged
    refine ⟨x, shares, ⟨?_, ?_, ?_⟩, ?_, ?_, fun s hs => h.share s hs k hk, ?_⟩
    · exact fun j hj => h.own j (List.mem_cons_of_mem k hj)
    · exact fun s hs j hj => h.share s hs j (List.mem_cons_of_mem k hj)
    · exact fun j hj => h.within j (List.mem_cons_of_mem k hj)
    · rw [← hsame, add_sub_cancel_left]
    · exact List.forall₂_same.mpr fun s _ => Moved.refl _ s
    · have hwithin := h.within k hk
      rw [← hsame]
      linarith
  -- the sources that the demand has shares of, in their proportions
  have hsum : 0 < (ks.map x).sum := by linarith
  have hy : (ks.map fun j => x j / (ks.map x).sum).sum = 1 := by
    simp only [div_eq_mul_inv]
    rw [List.sum_map_mul_right, mul_inv_cancel₀ hsum.ne']
  have hynonneg : ∀ j ∈ ks, 0 ≤ x j / (ks.map x).sum := fun j hj =>
    div_nonneg (h.own j (List.mem_cons_of_mem k hj)).1 hsum.le
  have hused : 0 ≤ (shares.map fun s => s.2 k).sum := by
    apply List.sum_nonneg
    intro q hq
    obtain ⟨s, hs, rfl⟩ := List.mem_map.mp hq
    exact (h.share s hs k hk).1
  have hfirst := h.within k hk
  obtain ⟨fraction, hfraction, hone, hfreed, hroom⟩ :=
    exists_fraction hused (sub_nonneg.mpr hmore.le) (sub_nonneg.mpr hstock)
      (show (shares.map fun s => s.2 k).sum ≤ (take - x k) + (stock k - take) by linarith)
  generalize hyy : (fun j => x j / (ks.map x).sum) = y at hy
  have hyj : ∀ j, y j = x j / (ks.map x).sum := fun j => (congrFun hyy j).symm
  refine ⟨fun j => x j - (take - x k) * y j, shares.map (reshare k ks y fraction),
    ⟨?_, ?_, ?_⟩, ?_, ?_, ?_, ?_⟩
  · intro j hj
    have hown := h.own j (List.mem_cons_of_mem k hj)
    refine ⟨?_, ?_⟩
    · have hshare : (take - x k) * y j ≤ (ks.map x).sum * y j := by
        apply mul_le_mul_of_nonneg_right _ (hyj j ▸ hynonneg j hj)
        linarith
      rw [hyj, mul_div_cancel₀ _ hsum.ne', ← hyj] at hshare
      exact sub_nonneg.mpr hshare
    · intro hne
      apply hown.2
      rintro hzero
      apply hne
      rw [hyj, hzero, zero_div, mul_zero, sub_zero]
  · intro s hs j hj
    obtain ⟨s, hmem, rfl⟩ := List.mem_map.mp hs
    obtain ⟨hnonneg, hmatched⟩ := h.share s hmem j (List.mem_cons_of_mem k hj)
    obtain ⟨hnonneg', hmatched'⟩ := h.share s hmem k hk
    rw [reshare_of_mem hfresh hj]
    have hback : 0 ≤ s.2 k * fraction * y j :=
      mul_nonneg (mul_nonneg hnonneg' hfraction) (hyj j ▸ hynonneg j hj)
    refine ⟨add_nonneg hnonneg hback, ?_⟩
    intro hne
    by_cases hzero : s.2 j = 0
    · rw [hzero, zero_add] at hne
      have hyne : x j ≠ 0 := by
        intro hx
        apply hne
        rw [hyj, hx, zero_div, mul_zero]
      have hsne : s.2 k ≠ 0 := by
        intro hs
        apply hne
        rw [hs, zero_mul, zero_mul]
      exact hexchange j hj ((h.own j (List.mem_cons_of_mem k hj)).2 hyne) s hmem (hmatched' hsne)
    · exact hmatched hzero
  · intro j hj
    have hwithin := h.within j (List.mem_cons_of_mem k hj)
    rw [column_reshare_of_mem hfresh hj]
    have hback : (shares.map fun s => s.2 k).sum * fraction * y j ≤ (take - x k) * y j :=
      mul_le_mul_of_nonneg_right hfreed (hyj j ▸ hynonneg j hj)
    linarith
  · have hback : (ks.map fun j => x j - (take - x k) * y j).sum + (take - x k) * (ks.map y).sum =
        (ks.map x).sum := by
      rw [← List.sum_map_mul_left, ← List.sum_map_add]
      simp only [sub_add_cancel]
    rw [hy] at hback
    linarith
  · rw [List.forall₂_map_right_iff]
    exact List.forall₂_same.mpr fun s _ => moved_reshare hfresh hy s
  · intro s hs
    obtain ⟨s, hmem, rfl⟩ := List.mem_map.mp hs
    obtain ⟨hnonneg, hmatched⟩ := h.share s hmem k hk
    rw [reshare_self]
    refine ⟨mul_nonneg hnonneg (sub_nonneg.mpr hone), ?_⟩
    intro hne
    exact hmatched (left_ne_zero_of_mul hne)
  · rw [column_reshare_self]
    exact hroom

omit [DecidableEq κ] [LinearOrder Q] [IsStrictOrderedRing Q] in
/-- Shares that are moved are those of the same demands. -/
theorem exists_of_moved {shares shares' : List (ι × (κ → Q))}
    (h : List.Forall₂ (Moved keys) shares shares') {s' : ι × (κ → Q)} (hs' : s' ∈ shares') :
    ∃ s ∈ shares, Moved keys s s' := by
  induction h with
  | nil => cases hs'
  | cons hmoved _ ih =>
    rcases List.mem_cons.mp hs' with rfl | hs'
    · exact ⟨_, .head _, hmoved⟩
    · obtain ⟨s, hs, hmoved'⟩ := ih hs'
      exact ⟨s, .tail _ hs, hmoved'⟩

omit [DecidableEq κ] [LinearOrder Q] [IsStrictOrderedRing Q] in
theorem moved_trans {k : κ} {ks : List κ} (hfresh : k ∉ ks)
    {shares shares' shares'' : List (ι × (κ → Q))}
    (h : List.Forall₂ (Moved (k :: ks)) shares shares')
    (h' : List.Forall₂ (Moved ks) shares' shares'') :
    List.Forall₂ (Moved (k :: ks)) shares shares'' := by
  induction h generalizing shares'' with
  | nil =>
    cases h'
    exact .nil
  | cons hmoved _ ih =>
    cases h' with
    | cons hmoved' hrest => exact .cons (hmoved.trans (hmoved'.cons hfresh)) (ih hrest)

omit [DecidableEq κ] [IsStrictOrderedRing Q] in
/-- An assignment of the later sources, with what the first one gives. -/
theorem Assignment.cons {k : κ} {ks : List κ} (hfresh : k ∉ ks) {shares shares' : List (ι × (κ → Q))}
    (hmoved : List.Forall₂ (Moved ks) shares shares') (h : Assignment matched ks stock shares')
    (hown : ∀ s ∈ shares, 0 ≤ s.2 k ∧ (s.2 k ≠ 0 → matched s.1 k = true))
    (hfirst : (shares.map fun s => s.2 k).sum ≤ stock k) :
    Assignment matched (k :: ks) stock shares' where
  share s' hs' j hj := by
    rcases List.mem_cons.mp hj with rfl | hj
    · obtain ⟨s, hs, hmoved'⟩ := exists_of_moved hmoved hs'
      rw [hmoved'.frame j hfresh, hmoved'.fst]
      exact hown s hs
    · exact h.share s' hs' j hj
  within j hj := by
    rcases List.mem_cons.mp hj with rfl | hj
    · rw [column_moved hmoved hfresh]
      exact hfirst
    · exact h.within j hj

/-- The first demand draws what it needs, and what is left can be assigned to the others. -/
theorem Shared.drawn {p : ι} (hnodup : keys.Nodup) {x : κ → Q} {shares : List (ι × (κ → Q))}
    (h : Shared matched keys stock p x shares)
    (hexchange : keys.Pairwise fun k k' => matched p k = true → matched p k' = true →
      ∀ s ∈ shares, matched s.1 k = true → matched s.1 k' = true) :
    (drain (matched p) keys (keys.map x).sum stock).1 = 0 ∧
      ∃ shares', List.Forall₂ (Moved keys) shares shares' ∧
        Assignment matched keys (drain (matched p) keys (keys.map x).sum stock).2 shares' := by
  induction keys generalizing x shares stock with
  | nil =>
    refine ⟨rfl, shares, List.forall₂_same.mpr fun s _ => Moved.refl _ s, ?_, ?_⟩
    · intro s _ k hk
      cases hk
    · intro k hk
      cases hk
  | cons k ks ih =>
    obtain ⟨hfresh, hnodup⟩ := List.nodup_cons.mp hnodup
    obtain ⟨hfirst, hrest⟩ := List.pairwise_cons.mp hexchange
    have hk : k ∈ k :: ks := List.mem_cons_self
    rw [List.map_cons, List.sum_cons]
    by_cases hmatched : matched p k = true
    · -- the demand draws from the first source, and the shares are exchanged for that
      have hsum : 0 ≤ (ks.map x).sum := by
        apply List.sum_nonneg
        intro q hq
        obtain ⟨j, hj, rfl⟩ := List.mem_map.mp hq
        exact (h.own j (List.mem_cons_of_mem k hj)).1
      have hcolumn : 0 ≤ (shares.map fun s => s.2 k).sum := by
        apply List.sum_nonneg
        intro q hq
        obtain ⟨s, hs, rfl⟩ := List.mem_map.mp hq
        exact (h.share s hs k hk).1
      have hwithin := h.within k hk
      have htake : x k ≤ min (x k + (ks.map x).sum) (stock k) :=
        le_min (le_add_of_nonneg_right hsum) (by linarith)
      obtain ⟨x', shares', hshared, hsum', hmoved, hown, hleft⟩ :=
        h.exchange hfresh (fun k' hk' => hfirst k' hk' hmatched) htake (min_le_right _ _)
          (min_le_left _ _)
      rw [drain_cons_of_pos hmatched, ← hsum']
      generalize min (x k + (ks.map x).sum) (stock k) = take at hleft
      have hshared' : Shared matched ks (Function.update stock k (stock k - take)) p x' shares' := by
        refine ⟨hshared.own, hshared.share, ?_⟩
        intro j hj
        rw [Function.update_of_ne]
        · exact hshared.within j hj
        · rintro rfl
          exact hfresh hj
      have hrest' : ks.Pairwise fun k k' => matched p k = true → matched p k' = true →
          ∀ s ∈ shares', matched s.1 k = true → matched s.1 k' = true := by
        apply hrest.imp
        intro k k' hkk hp hp' s' hs' hs
        obtain ⟨s, hmem, hmoved'⟩ := exists_of_moved hmoved hs'
        rw [hmoved'.fst] at hs ⊢
        exact hkk hp hp' s hmem hs
      obtain ⟨hnone, shares'', hmoved', hassign⟩ := ih hnodup hshared' hrest'
      refine ⟨hnone, shares'', moved_trans hfresh hmoved hmoved',
        hassign.cons hfresh hmoved' hown ?_⟩
      rw [drain_frame (.inl hfresh), Function.update_self]
      exact hleft
    · -- the demand has no share of the first source
      have hzero : x k = 0 := by
        by_contra hne
        exact hmatched ((h.own k hk).2 hne)
      have hshared : Shared matched ks stock p x shares :=
        ⟨fun j hj => h.own j (List.mem_cons_of_mem k hj),
          fun s hs j hj => h.share s hs j (List.mem_cons_of_mem k hj),
          fun j hj => h.within j (List.mem_cons_of_mem k hj)⟩
      obtain ⟨hnone, shares', hmoved, hassign⟩ := ih hnodup hshared hrest
      rw [drain_cons_of_neg hmatched, hzero, zero_add]
      refine ⟨hnone, shares', hmoved.imp fun _ _ => Moved.cons hfresh,
        hassign.cons hfresh hmoved (fun s hs => h.share s hs k hk) ?_⟩
      have hwithin := h.within k hk
      rw [hzero, zero_add] at hwithin
      rw [drain_frame (.inl hfresh)]
      exact hwithin

/-- **Drawing in order covers what can be covered**, where the matching is exchangeable. -/
theorem serve_covers (hnodup : keys.Nodup) {demands : List (ι × Q)}
    (hexchange : Exchangeable matched keys (demands.map Prod.fst))
    (h : Coverable matched keys stock demands) :
    ∀ d ∈ serve matched keys demands stock, d.2 = 0 := by
  induction demands generalizing stock with
  | nil =>
    intro d hd
    cases hd
  | cons d ds ih =>
    obtain ⟨shares, hassign, hgiven⟩ := h
    obtain ⟨s, shares, rfl, rfl, rfl⟩ := List.map_eq_cons_iff.mp hgiven
    rw [List.map_cons] at hexchange
    obtain ⟨hfirst, hrest⟩ := List.pairwise_cons.mp hexchange
    have hshared : Shared matched keys stock s.1 s.2 shares := by
      refine ⟨hassign.share s (.head _),
        fun s' hs' => hassign.share s' (List.mem_cons_of_mem s hs'), ?_⟩
      intro k hk
      have hwithin := hassign.within k hk
      rw [List.map_cons, List.sum_cons] at hwithin
      exact hwithin
    have hfirst' : keys.Pairwise fun k k' => matched s.1 k = true → matched s.1 k' = true →
        ∀ s' ∈ shares, matched s'.1 k = true → matched s'.1 k' = true := by
      rw [List.pairwise_iff_forall_sublist]
      intro k k' hsub hk hk' s' hs' hk''
      have hlabel : (given keys s').1 ∈ (shares.map (given keys)).map Prod.fst :=
        List.mem_map_of_mem (List.mem_map_of_mem hs')
      exact List.pairwise_iff_forall_sublist.mp (hfirst _ hlabel) hsub hk hk' hk''
    obtain ⟨hnone, shares', hmoved, hassign'⟩ := hshared.drawn hnodup hfirst'
    intro d hd
    rw [serve] at hd
    rcases List.mem_cons.mp hd with rfl | hd
    · exact hnone
    · exact ih hrest ⟨shares', hassign', given_moved hmoved⟩ d hd

/-- What is drawn is an assignment: where nothing is lacking, the demands can be covered. -/
theorem coverable_of_serve (hnodup : keys.Nodup) (hstock : ∀ k, 0 ≤ stock k)
    {demands : List (ι × Q)} (hneed : ∀ d ∈ demands, 0 ≤ d.2)
    (h : ∀ d ∈ serve matched keys demands stock, d.2 = 0) :
    Coverable matched keys stock demands := by
  induction demands generalizing stock with
  | nil =>
    refine ⟨[], ⟨?_, ?_⟩, rfl⟩
    · intro s hs
      cases hs
    · intro k _
      exact hstock k
  | cons d ds ih =>
    rw [serve] at h
    have hd := hneed d (.head _)
    have hnone := h _ (.head _)
    have hleft := drain_nonneg (matched d.1) keys hd hstock
    obtain ⟨shares, hassign, hgiven⟩ := ih hleft.2
      (fun d' hd' => hneed d' (List.mem_cons_of_mem d hd'))
      fun d' hd' => h d' (.tail _ hd')
    refine ⟨(d.1, fun k => stock k - (drain (matched d.1) keys d.2 stock).2 k) :: shares,
      ⟨?_, ?_⟩, ?_⟩
    · intro s hs k hk
      rcases List.mem_cons.mp hs with rfl | hs
      · refine ⟨sub_nonneg.mpr (drain_le hd hstock k), ?_⟩
        intro hne
        by_contra hmatched
        apply hne
        dsimp only at hmatched ⊢
        rw [drain_frame (.inr hmatched), sub_self]
      · exact hassign.share s hs k hk
    · intro k hk
      have hwithin := hassign.within k hk
      rw [List.map_cons, List.sum_cons]
      dsimp only
      linarith
    · rw [List.map_cons, hgiven, given]
      dsimp only at hnone ⊢
      rw [sum_drawn hnodup, hnone, sub_zero]

end Assignments

end AgentBack.Exchange
