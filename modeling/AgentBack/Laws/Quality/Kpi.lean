import AgentBack.Quality.Kpi

/-!
# What the tone of a metric says

A metric counts the records whose flag is `True` and puts the count, or its share, against a target.
A share is rounded to hundredths of a percent, so that a deviation in a large sample is rounded
away, and the common metrics take a record whose flag is missing for one that was measured. The tone
is right exactly apart from these (`tones_sound_iff`). That a deviating record does not improve a
tone rests on the order of the rounded shares (`share_mono`, `share_antitone`), for a metric where
less is better on that of two samples (`not_drops`).
-/

namespace AgentBack.Quality.Kpi

open Py (Value)
open Significant (nearest)

/-! ## The law -/

def Tone.better : Tone → Tone → Bool
  | .ok, .warn => true
  | .ok, .bad => true
  | .warn, .bad => true
  | _, _ => false

/-- What a metric measures: a flag, and whether it is to be `True`. -/
structure Gauge where
  id : String
  flag : String
  target : ℚ
  higherIsBetter : Bool
  asCount : Bool

namespace Gauge

variable (g : Gauge)

def Strict : Prop := g.target = 0 ∨ g.target = 100

instance : Decidable g.Strict := inferInstanceAs (Decidable (_ ∨ _))

def measured (record : Value) : Bool := isSet (record.get g.flag)

def deviates (record : Value) : Bool :=
  g.measured record && (isTrue (record.get g.flag) != g.higherIsBetter)

end Gauge

/-- **A sound tone** of a metric, over the records that it takes: a strict target is met when
something was measured and nothing of it deviates, nothing measured is `unknown`, and one more
deviating record, wherever it stands, does not improve the tone. -/
structure Sound (g : Gauge) (taken : Value → Bool) (toneOf : List Value → Option Tone)
    (records : List Value) : Prop where
  strict : g.Strict → (toneOf records = some .ok ↔
    (∃ record ∈ records, taken record ∧ g.measured record) ∧
      ∀ record ∈ records, taken record → g.measured record → ¬ g.deviates record)
  unmeasured : (∀ record ∈ records, taken record → ¬ g.measured record) →
    toneOf records = some .unknown
  steady : ∀ before after record, records = before ++ after → taken record → g.deviates record →
    ∀ old new, toneOf records = some old → toneOf (before ++ record :: after) = some new →
      ¬ new.better old

/-- The share stays below 100 when it is rounded to hundredths. -/
def Shows (hits sample : ℕ) : Prop := quotient hits sample < 99995 / 1000

/-- One more record, and the rounded share falls to a limit that it was above. -/
def Drops (target : ℚ) (hits sample : ℕ) : Prop :=
  ∃ limit ∈ [target, float (target + warnBandPp)],
    limit < round2 (quotient hits sample) ∧ round2 (quotient (hits + 1) (sample + 1)) ≤ limit

/-- **A fine sample**: of `sample` records `known` were measured, and `hits` of them are `True`. If
there are records then some were measured, the rounded share shows a deviation exactly when there
is one, and where less is better the share does not fall when a deviating record comes in. -/
structure Fine (g : Gauge) (sample hits known : ℕ) : Prop where
  seen : sample = 0 ∨ 0 < known
  shown : g.asCount = false → g.Strict → sample = 0 ∨ (Shows hits sample ↔ hits < known)
  rising : g.asCount = false → g.higherIsBetter = false → sample = 0 ∨ ¬ Drops g.target hits sample

/-! ## Floats -/

section Float

theorem float_mono {x y : ℚ} (hx : 0 ≤ x) (h : x ≤ y) : float x ≤ float y :=
  Significant.nearest_mono (by decide) (by decide) hx h

theorem float_nonneg {x : ℚ} (hx : 0 ≤ x) : 0 ≤ float x :=
  Significant.nearest_nonneg (by decide) hx

theorem float_natCast {n : ℕ} (h : n < 2 ^ 53) : float n = n :=
  Significant.nearest_natCast (by decide) h

theorem float_natCast_pos {n : ℕ} (h : 0 < n) : 0 < float n := by
  have one : float (1 : ℕ) = (1 : ℕ) := float_natCast (by norm_num)
  have below : float (1 : ℕ) ≤ float n := float_mono (by positivity) (by exact_mod_cast h)
  rw [one] at below
  exact lt_of_lt_of_le (by norm_num) below

@[simp] theorem float_zero : float 0 = 0 := Significant.nearest_zero

theorem round2_mono {x y : ℚ} (hx : 0 ≤ x) (h : x ≤ y) : round2 x ≤ round2 y := by
  have whole := Floating.roundHalfEven_nonneg (mul_nonneg hx (by norm_num : (0 : ℚ) ≤ 100))
  have kept := Floating.roundHalfEven_mono (mul_le_mul_of_nonneg_right h (by norm_num :
    (0 : ℚ) ≤ 100))
  refine float_mono (div_nonneg (by exact_mod_cast whole) (by norm_num)) ?_
  exact div_le_div_of_nonneg_right (by exact_mod_cast kept) (by norm_num)

theorem quotient_nonneg (hits sample : ℕ) : 0 ≤ quotient hits sample := by
  have above := float_nonneg (Nat.cast_nonneg hits)
  have below := float_nonneg (Nat.cast_nonneg sample)
  exact float_nonneg (div_nonneg (float_nonneg (mul_nonneg (by norm_num) above)) below)

theorem pct_eq {hits sample : ℕ} (h : 0 < sample) :
    pct hits sample = some (round2 (quotient hits sample)) :=
  if_neg (not_le.mpr (float_natCast_pos h))

/-- More records beside the same hits: a smaller share. -/
theorem share_antitone (hits : ℕ) {sample : ℕ} (h : 0 < sample) :
    round2 (quotient hits (sample + 1)) ≤ round2 (quotient hits sample) := by
  have above : 0 ≤ float (100 * float hits) :=
    float_nonneg (mul_nonneg (by norm_num) (float_nonneg (Nat.cast_nonneg hits)))
  have grown : float sample ≤ float (sample + 1 : ℕ) :=
    float_mono (Nat.cast_nonneg sample) (by push_cast; linarith)
  refine round2_mono (quotient_nonneg _ _) (float_mono ?_ ?_)
  · exact div_nonneg above (float_nonneg (Nat.cast_nonneg _))
  · exact div_le_div_of_nonneg_left above (float_natCast_pos h) grown

/-- **Where nothing is rounded** on the way to the share, a hit more does not make it fall. -/
theorem share_mono {hits sample : ℕ} (h : hits ≤ sample) (pos : 0 < sample)
    (small : sample < 2 ^ 46) :
    round2 (quotient hits sample) ≤ round2 (quotient (hits + 1) (sample + 1)) := by
  refine round2_mono (quotient_nonneg _ _) ?_
  have exact_quotient : ∀ {a b : ℕ}, a ≤ 2 ^ 46 → b ≤ 2 ^ 46 →
      quotient a b = float (100 * a / b) := by
    intro a b ha hb
    rw [quotient, float_natCast (by omega), float_natCast (by omega)]
    have whole : (100 : ℚ) * a = (100 * a : ℕ) := by push_cast; rfl
    rw [whole, float_natCast (by omega)]
  rw [exact_quotient (by omega) (by omega), exact_quotient (by omega) (by omega)]
  have le : (hits : ℚ) ≤ sample := by exact_mod_cast h
  have pos' : (0 : ℚ) < sample := by exact_mod_cast pos
  refine float_mono (by positivity) ?_
  rw [div_le_div_iff₀ pos' (by positivity)]
  push_cast
  nlinarith

theorem not_drops {target : ℚ} {hits sample : ℕ} (h : hits ≤ sample) (pos : 0 < sample)
    (small : sample < 2 ^ 46) : ¬ Drops target hits sample := by
  rintro ⟨limit, -, above, below⟩
  exact absurd (above.trans_le' below) (not_lt.mpr (share_mono h pos small))

theorem le_roundHalfEven_iff {q : ℚ} : 10000 ≤ Floating.roundHalfEven q ↔ 19999 / 2 ≤ q := by
  constructor
  · intro h
    have near := (abs_le.mp (Floating.roundHalfEven_near q)).2
    have cast : (10000 : ℚ) ≤ Floating.roundHalfEven q := by exact_mod_cast h
    linarith
  · intro h
    have tie : Floating.roundHalfEven (19999 / 2) = 10000 := by decide +kernel
    rw [← tie]
    exact Floating.roundHalfEven_mono h

theorem hundred_le_round2_iff {x : ℚ} (hx : 0 ≤ x) : 100 ≤ round2 x ↔ 99995 / 1000 ≤ x := by
  have whole := Floating.roundHalfEven_nonneg (mul_nonneg hx (by norm_num : (0 : ℚ) ≤ 100))
  have top : float (10000 / 100) = 100 := by decide +kernel
  have next : float (9999 / 100) < 100 := by decide +kernel
  have rounded : 100 ≤ round2 x ↔ 10000 ≤ Floating.roundHalfEven (x * 100) := by
    constructor
    · intro h
      by_contra hlt
      have below : (Floating.roundHalfEven (x * 100) : ℚ) ≤ 9999 := by
        exact_mod_cast (by omega : Floating.roundHalfEven (x * 100) ≤ 9999)
      have kept := float_mono (div_nonneg (by exact_mod_cast whole) (by norm_num))
        (div_le_div_of_nonneg_right below (by norm_num : (0 : ℚ) ≤ 100))
      exact absurd (h.trans kept) (not_le.mpr next)
    · intro h
      rw [← top]
      have above : (10000 : ℚ) ≤ Floating.roundHalfEven (x * 100) := by exact_mod_cast h
      exact float_mono (by norm_num) (div_le_div_of_nonneg_right above (by norm_num))
  rw [rounded, le_roundHalfEven_iff]
  constructor <;> intro h <;> linarith

theorem hundred_le_share_iff {hits sample : ℕ} :
    100 ≤ round2 (quotient hits sample) ↔ ¬ Shows hits sample := by
  rw [hundred_le_round2_iff (quotient_nonneg _ _), Shows, not_lt]

/-- **More than one in 20000** shows, in a sample of less than 2³⁸. -/
theorem shows_iff {hits sample : ℕ} (h : hits ≤ sample) (pos : 0 < sample)
    (small : sample < 2 ^ 38) : Shows hits sample ↔ sample < 20000 * (sample - hits) := by
  have le : (hits : ℚ) ≤ sample := by exact_mod_cast h
  have pos' : (0 : ℚ) < sample := by exact_mod_cast pos
  have share : quotient hits sample = float (100 * hits / sample) := by
    rw [quotient, float_natCast (by omega), float_natCast (by omega)]
    have whole : (100 : ℚ) * hits = (100 * hits : ℕ) := by push_cast; rfl
    rw [whole, float_natCast (by omega)]
  -- The floats on the two sides of 99.995, and the gap below it.
  have above : 99995 / 1000 ≤ float (99995 / 1000) := by decide +kernel
  have below : float (99995 / 1000 - 1 / (200 * 2 ^ 38)) < 99995 / 1000 := by decide +kernel
  rw [Shows, share]
  constructor
  · intro shows
    by_contra hle
    have few : (20000 : ℚ) * (sample - hits) ≤ sample := by
      have nat : 20000 * (sample - hits) ≤ sample := by omega
      have cast : ((20000 * (sample - hits) : ℕ) : ℚ) ≤ sample := by exact_mod_cast nat
      rwa [Nat.cast_mul, Nat.cast_sub h] at cast
    have reached : (99995 / 1000 : ℚ) ≤ 100 * hits / sample := by
      rw [le_div_iff₀ pos']
      linarith
    exact absurd (above.trans (float_mono (by norm_num) reached)) (not_le.mpr shows)
  · intro many
    have more : (sample : ℚ) + 1 ≤ 20000 * (sample - hits) := by
      have nat : sample + 1 ≤ 20000 * (sample - hits) := many
      have cast : ((sample + 1 : ℕ) : ℚ) ≤ (20000 * (sample - hits) : ℕ) := by exact_mod_cast nat
      rwa [Nat.cast_mul, Nat.cast_sub h, Nat.cast_add, Nat.cast_one] at cast
    have short : (100 * hits / sample : ℚ) ≤ 99995 / 1000 - 1 / (200 * 2 ^ 38) := by
      have room : (sample : ℚ) ≤ 2 ^ 38 := by exact_mod_cast small.le
      have part : (sample : ℚ) * (1 / (200 * 2 ^ 38)) ≤ 1 / 200 := by
        calc (sample : ℚ) * (1 / (200 * 2 ^ 38)) ≤ 2 ^ 38 * (1 / (200 * 2 ^ 38)) :=
              mul_le_mul_of_nonneg_right room (by norm_num)
          _ = 1 / 200 := by norm_num
      rw [div_le_iff₀ pos']
      linarith
    exact (float_mono (by positivity) short).trans_lt below

end Float

namespace Gauge

/-- The tone of `hits` among `sample` records. -/
def reading (g : Gauge) (sample hits : ℕ) : Tone :=
  if sample = 0 then .unknown
  else tone (some (if g.asCount then float hits else round2 (quotient hits sample))) g.target
    g.higherIsBetter sample

/-- How the metrics of the source are set up: a count is to stay at 0, a strict share is to reach
100. -/
structure WellFormed (g : Gauge) : Prop where
  count : g.asCount = true → g.higherIsBetter = false ∧ g.target = 0
  share : g.asCount = false → g.Strict → g.higherIsBetter = true ∧ g.target = 100
  band : g.target ≤ float (g.target + warnBandPp)
  flag : g.flag ≠ "checked"

instance (g : Gauge) : Decidable g.WellFormed :=
  decidable_of_iff ((g.asCount = true → g.higherIsBetter = false ∧ g.target = 0) ∧
      (g.asCount = false → g.Strict → g.higherIsBetter = true ∧ g.target = 100) ∧
      g.target ≤ float (g.target + warnBandPp) ∧ g.flag ≠ "checked")
    ⟨fun ⟨count, share, band, flag⟩ => ⟨count, share, band, flag⟩,
      fun h => ⟨h.count, h.share, h.band, h.flag⟩⟩

end Gauge

theorem tone_of_further (target : ℚ) (higher : Bool) (sample sample' : ℕ) {value value' : ℚ}
    (further : if higher then value' ≤ value else value ≤ value') :
    (tone (some value') target higher sample').better (tone (some value) target higher sample) =
      false := by
  cases higher <;> simp only [Bool.false_eq_true, if_false, if_true] at further <;>
    simp only [tone, Bool.false_eq_true, if_false, if_true] <;> split_ifs <;>
    first | rfl | (exfalso; grind)

section Sample

variable {hits sample : ℕ} (h : hits ≤ sample) (pos : 0 < sample)
include h pos

/-- **A strict share is met** exactly when no more than one record in 20000 deviates. -/
theorem tone_pct_ok_iff (small : sample < 2 ^ 38) :
    tone (pct hits sample) 100 true sample = .ok ↔ 20000 * (sample - hits) ≤ sample := by
  have shown : 100 ≤ round2 (quotient hits sample) ↔ 20000 * (sample - hits) ≤ sample := by
    rw [hundred_le_share_iff, shows_iff h pos small, not_lt]
  rw [pct_eq pos, ← shown]
  simp [tone, pos.ne']

/-- **One more deviating record** does not improve the tone of a share, whatever its target. -/
theorem tone_pct_steady (target : ℚ) (higher : Bool) (small : sample < 2 ^ 46) :
    (tone (pct (if higher then hits else hits + 1) (sample + 1)) target higher (sample + 1)).better
      (tone (pct hits sample) target higher sample) = false := by
  rw [pct_eq pos, pct_eq sample.succ_pos]
  refine tone_of_further target higher sample (sample + 1) ?_
  cases higher with
  | false => exact share_mono h pos small
  | true => exact share_antitone hits pos

end Sample

theorem tone_pct_ok_iff_shown : tone (pct 19999 20000) 100 true 20000 = .ok :=
  (tone_pct_ok_iff (by decide) (by decide) (by norm_num)).mpr (by decide)

theorem tone_pct_steady_rework :
    (tone (pct 2 11) 10 false 11).better (tone (pct 1 10) 10 false 10) = false :=
  tone_pct_steady (by decide) (by decide) 10 false (by norm_num)

namespace Gauge

variable {g : Gauge}

/-- A strict target is met when no deviation shows. -/
theorem reading_ok_iff (wf : g.WellFormed) (strict : g.Strict) (sample hits : ℕ) :
    g.reading sample hits = .ok ↔
      0 < sample ∧ if g.asCount then hits = 0 else ¬ Shows hits sample := by
  rcases Nat.eq_zero_or_pos sample with rfl | pos
  · simp [reading]
  have ne : sample ≠ 0 := pos.ne'
  cases hcount : g.asCount
  · obtain ⟨higher, target⟩ := wf.share hcount strict
    simp only [reading, tone, hcount, higher, target, ne, Bool.false_eq_true, if_false, if_true,
      ← hundred_le_share_iff, pos, true_and]
    split_ifs <;> simp_all
  · obtain ⟨lower, target⟩ := wf.count hcount
    have zero : float (hits : ℚ) ≤ 0 ↔ hits = 0 := by
      constructor
      · intro h
        by_contra hne
        exact absurd h (not_le.mpr (float_natCast_pos (Nat.pos_of_ne_zero hne)))
      · rintro rfl
        simp
    simp only [reading, tone, hcount, lower, target, ne, Bool.false_eq_true, if_false, if_true,
      zero, pos, true_and]
    split_ifs <;> simp_all

/-- One more deviating record improves the tone only where the share drops. -/
theorem better_reading_iff (wf : g.WellFormed) {sample hits : ℕ} (pos : 0 < sample) :
    (g.reading (sample + 1) (if g.higherIsBetter then hits else hits + 1)).better
        (g.reading sample hits) = true ↔
      g.asCount = false ∧ g.higherIsBetter = false ∧ Drops g.target hits sample := by
  have ne : sample ≠ 0 := pos.ne'
  cases hcount : g.asCount
  · cases hhigher : g.higherIsBetter
    · have open_ended : ¬ g.Strict := fun strict => by
        simpa [hhigher] using (wf.share hcount strict).1
      have band := wf.band
      rw [Gauge.Strict] at open_ended
      simp only [reading, tone, hcount, hhigher, ne, open_ended, Drops, Nat.succ_ne_zero,
        Bool.false_eq_true, if_false, not_false_eq_true, true_and, List.mem_cons,
        List.not_mem_nil, or_false, exists_eq_or_imp, exists_eq_left]
      split_ifs <;> simp only [Tone.better, Bool.false_eq_true, true_iff, false_iff] <;> grind
    · have further := share_antitone hits pos
      have kept := tone_of_further g.target true sample (sample + 1) further
      simp [reading, hcount, hhigher, ne, kept]
  · obtain ⟨lower, -⟩ := wf.count hcount
    have grown : float hits ≤ float (hits + 1 : ℕ) :=
      float_mono (Nat.cast_nonneg hits) (by push_cast; linarith)
    have kept := tone_of_further g.target false sample (sample + 1) grown
    simpa [reading, hcount, lower, ne] using kept

end Gauge

/-! ## The counts of a list -/

section Counts

variable (flag : String)

theorem isSet_of_isTrue {value : Value} (h : isTrue value = true) : isSet value = true := by
  cases value <;> first | rfl | cases h

theorem hits_known (records : List Value) : hits flag (known flag records) = hits flag records := by
  rw [hits, known, List.countP_filter]
  refine List.countP_congr fun record _ => ?_
  simp only [Bool.and_eq_true, and_iff_left_iff_imp]
  exact isSet_of_isTrue

theorem hits_le_known (records : List Value) : hits flag records ≤ (known flag records).length := by
  rw [← hits_known]
  exact List.countP_le_length

end Counts

namespace Gauge

variable (g : Gauge) (taken : Value → Bool) (wide : Bool)

/-- How many records the share is of: all that are taken, or those that were measured. -/
def base (records : List Value) : ℕ :=
  if wide then (records.filter taken).length else (known g.flag (records.filter taken)).length

section

variable {before after : List Value} {record : Value} (htaken : taken record = true)
include htaken

theorem base_insert (hmeasured : g.measured record = true) :
    g.base taken wide (before ++ record :: after) = g.base taken wide (before ++ after) + 1 := by
  unfold base known
  simp only [List.filter_append, List.filter_cons, htaken, if_true, List.length_append]
  rw [measured] at hmeasured
  cases wide <;> simp [hmeasured] <;> omega

theorem hits_insert (hdeviates : g.deviates record = true) :
    hits g.flag ((before ++ record :: after).filter taken) =
      if g.higherIsBetter then hits g.flag ((before ++ after).filter taken)
      else hits g.flag ((before ++ after).filter taken) + 1 := by
  obtain ⟨-, value⟩ := Bool.and_eq_true_iff.mp hdeviates
  simp only [List.filter_append, List.filter_cons, htaken, if_true, hits, List.countP_append,
    List.countP_cons]
  cases hhigher : g.higherIsBetter <;> simp only [hhigher, bne_iff_ne, ne_eq] at value <;>
    simp [value]
  omega

end

theorem known_pos_iff (records : List Value) :
    (∃ record ∈ records, taken record = true ∧ g.measured record = true) ↔
      0 < (known g.flag (records.filter taken)).length := by
  simp only [known, List.length_pos_iff_exists_mem, List.mem_filter, measured, and_assoc]

theorem none_deviates_iff (records : List Value) :
    (∀ record ∈ records, taken record = true → g.measured record = true →
      ¬ g.deviates record = true) ↔
      hits g.flag (records.filter taken) =
        if g.higherIsBetter then (known g.flag (records.filter taken)).length else 0 := by
  rw [← hits_known, hits]
  cases hhigher : g.higherIsBetter
  · simp only [Bool.false_eq_true, if_false, List.countP_eq_zero, known, List.mem_filter, deviates,
      measured, hhigher]
    grind
  · simp only [if_true, List.countP_eq_length, known, List.mem_filter, deviates, measured, hhigher]
    grind

variable {g taken wide}

/-- **A metric is sound on exactly the fine samples.** -/
theorem sound_iff (wf : g.WellFormed) {toneOf : List Value → Option Tone}
    (read : ∀ records, toneOf records =
      some (g.reading (g.base taken wide records) (hits g.flag (records.filter taken))))
    (other : ∃ record, taken record = true ∧ g.deviates record = true) (records : List Value) :
    Sound g taken toneOf records ↔ Fine g (g.base taken wide records)
      (hits g.flag (records.filter taken)) (known g.flag (records.filter taken)).length := by
  have le := hits_le_known g.flag (records.filter taken)
  have room : (known g.flag (records.filter taken)).length ≤ g.base taken wide records := by
    cases wide
    · exact le_rfl
    · exact List.length_filter_le _ _
  have grown : ∀ {before after record}, records = before ++ after → taken record = true →
      g.deviates record = true → toneOf (before ++ record :: after) =
        some (g.reading (g.base taken wide records + 1)
          (if g.higherIsBetter then hits g.flag (records.filter taken)
            else hits g.flag (records.filter taken) + 1)) := by
    rintro before after record rfl htaken hdeviates
    have hmeasured : g.measured record = true := (Bool.and_eq_true_iff.mp hdeviates).1
    rw [read, base_insert g taken wide htaken hmeasured, hits_insert g taken htaken hdeviates]
  have ok_iff (strict : g.Strict) := reading_ok_iff wf strict (g.base taken wide records)
    (hits g.flag (records.filter taken))
  generalize hn : g.base taken wide records = n at *
  generalize hh : hits g.flag (records.filter taken) = h at *
  generalize hm : (known g.flag (records.filter taken)).length = m at *
  constructor
  · intro sound
    have seen : n = 0 ∨ 0 < m := by
      by_contra hnot
      have missing := sound.unmeasured fun record hmem htaken hmeasured =>
        hnot (.inr (hm ▸ (g.known_pos_iff taken records).mp ⟨record, hmem, htaken, hmeasured⟩))
      rw [read, hn, reading, if_neg fun h => hnot (.inl h)] at missing
      rw [tone] at missing
      split_ifs at missing <;> simp_all
    refine ⟨seen, fun hcount strict => ?_, fun hcount hlower => ?_⟩
    · have higher := (wf.share hcount strict).1
      have same := sound.strict strict
      rw [read, hn, hh, Option.some_inj, ok_iff strict, g.known_pos_iff, g.none_deviates_iff, hh, hm,
        higher, hcount] at same
      grind
    · refine or_iff_not_imp_left.mpr fun pos drops => ?_
      obtain ⟨record, htaken, hdeviates⟩ := other
      have new := grown (List.append_nil records).symm htaken hdeviates
      refine sound.steady records [] record (by simp) htaken hdeviates _ _ (read records) new ?_
      rw [hn, hh]
      exact (better_reading_iff wf (Nat.pos_of_ne_zero pos)).mpr ⟨hcount, hlower, drops⟩
  · intro fine
    refine ⟨fun strict => ?_, fun missing => ?_, fun before after record split htaken hdeviates
      old new hold hnew hbetter => ?_⟩
    · rw [read, hn, hh, Option.some_inj, ok_iff strict, g.known_pos_iff, g.none_deviates_iff, hh, hm]
      have seen := fine.seen
      cases hcount : g.asCount
      · have shown := fine.shown hcount strict
        rw [(wf.share hcount strict).1]
        grind
      · rw [(wf.count hcount).1]
        grind
    · have zero : m = 0 := by
        by_contra hne
        obtain ⟨record, hmem, htaken, hmeasured⟩ :=
          (g.known_pos_iff taken records).mpr (hm ▸ Nat.pos_of_ne_zero hne)
        exact missing record hmem htaken hmeasured
      have empty : n = 0 := fine.seen.resolve_right (by omega)
      rw [read, hn, reading, if_pos empty]
    · rw [grown split htaken hdeviates, Option.some_inj] at hnew
      rw [read, hn, hh, Option.some_inj] at hold
      rw [← hnew, ← hold] at hbetter
      rcases Nat.eq_zero_or_pos n with rfl | pos
      · have unknown : g.reading 0 h = .unknown := rfl
        rw [unknown] at hbetter
        revert hbetter
        cases g.reading (0 + 1) _ <;> nofun
      · obtain ⟨hcount, hlower, drops⟩ := (better_reading_iff wf pos).mp hbetter
        exact (fine.rising hcount hlower).elim pos.ne' (· drops)

end Gauge

/-! ## The metrics of the source -/

def commonGauges : List Gauge :=
  [ ⟨"accuracy", "confirmed_without_material_error", targetAccuracy, true, false⟩,
    ⟨"completeness", "completeness_ok", targetCompleteness, true, false⟩,
    ⟨"timeliness", "sla_met", targetTimeliness, true, false⟩,
    ⟨"rework", "substantially_reworked", targetReworkPilot, false, false⟩,
    ⟨"traceability", "traceability_ok", targetTraceability, true, false⟩,
    ⟨"critical", "critical_unauthorized", targetCritical, false, true⟩ ]

def Spec.gauge (spec : Spec) : Gauge :=
  ⟨spec.id, spec.flag, spec.target, spec.higherIsBetter, spec.asCount⟩

def specialGauges (agentId : String) : List Gauge := (specsOf agentId).map Spec.gauge

def systemGauges : List Gauge :=
  [ ⟨"mandatory_data", "mandatory_data_ok", targetMandatoryData, true, false⟩,
    ⟨"purchases_without_basis", "purchase_without_basis", 0, false, true⟩,
    ⟨"procurement_sla", "procurement_sla_met", targetProcurementSla, true, false⟩,
    ⟨"receipt_sla", "receipt_sla_met", targetReceiptSla, true, false⟩,
    ⟨"hx_ai_actions", "hx_action_by_ai", 0, false, true⟩,
    ⟨"incoming_control_sla", "incoming_control_sla_met", targetIncomingSla, true, false⟩,
    ⟨"lots_without_releasing_status", "available_without_releasing_status",
      targetLotsWithoutStatus, false, true⟩,
    ⟨"control_traceability", "control_traceability_ok", targetControlTraceability, true, false⟩ ]

def isChecked (task : Value) : Bool := (task.get "checked").truthy

theorem wellFormed_common : ∀ g ∈ commonGauges, g.WellFormed := by decide +kernel

theorem wellFormed_system : ∀ g ∈ systemGauges, g.WellFormed := by decide +kernel

theorem wellFormed_special (agentId : String) : ∀ g ∈ specialGauges agentId, g.WellFormed := by
  have all : ∀ row ∈ specialKpiSpecs, ∀ spec ∈ row.2, spec.gauge.WellFormed := by decide +kernel
  intro g hg
  obtain ⟨spec, hspec, rfl⟩ := List.mem_map.mp hg
  rw [specsOf] at hspec
  cases hfind : specialKpiSpecs.find? fun row => row.1 = agentId with
  | none => simp [hfind] at hspec
  | some row =>
    rw [hfind] at hspec
    exact all row (List.mem_of_find?_eq_some hfind) spec hspec

theorem exists_deviating {g : Gauge} (wf : g.WellFormed) :
    ∃ record, isChecked record = true ∧ g.deviates record = true := by
  refine ⟨.dict [("checked", .bool true), (g.flag, .bool !g.higherIsBetter)], rfl, ?_⟩
  have apart : ¬ "checked" = g.flag := fun h => wf.flag h.symm
  have value : (Value.dict [("checked", .bool true), (g.flag, .bool !g.higherIsBetter)]).get
      g.flag = .bool !g.higherIsBetter := by
    simp [Value.get, apart]
  rw [Gauge.deviates, Gauge.measured, value]
  cases g.higherIsBetter <;> rfl

section

variable (id flag : String) (target : ℚ) (higher : Bool) (sample hits : ℕ)
include higher

theorem reading_share :
    Gauge.reading ⟨id, flag, target, higher, false⟩ sample hits =
      tone (if sample = 0 then none else pct hits sample) target higher sample := by
  rcases Nat.eq_zero_or_pos sample with rfl | pos
  · rfl
  · rw [if_neg pos.ne', pct_eq pos, Gauge.reading, if_neg pos.ne', if_neg Bool.false_ne_true]

theorem reading_count :
    Gauge.reading ⟨id, flag, target, higher, true⟩ sample hits =
      tone (if sample = 0 then none else some (float hits)) target higher sample := by
  rcases Nat.eq_zero_or_pos sample with rfl | pos
  · rfl
  · rw [if_neg pos.ne', Gauge.reading, if_neg pos.ne', if_pos rfl]

end

theorem tone_sample (value : Option ℚ) (target : ℚ) (higher : Bool) {sample sample' : ℕ}
    (h : value ≠ none → 0 < sample ∧ 0 < sample') :
    tone value target higher sample = tone value target higher sample' := by
  cases value with
  | none => rfl
  | some value =>
    obtain ⟨pos, pos'⟩ := h (by simp)
    simp only [tone, if_neg pos.ne', if_neg pos'.ne']

theorem checked_eq (tasks : List Value) : checked tasks = tasks.filter isChecked := rfl

theorem tones_common (tasks : List Value) :
    (computeCommonKpis tasks).map Metric.tone = commonGauges.map fun g =>
      g.reading (g.base isChecked true tasks) (hits g.flag (tasks.filter isChecked)) := by
  simp only [computeCommonKpis, metric, commonGauges, List.map_cons, List.map_nil, Gauge.base,
    if_true, ← checked_eq]
  simp only [reading_share, reading_count]

theorem tones_system (cases : List Value) :
    (computeSystemQualityKpis cases).map Metric.tone = systemGauges.map fun g =>
      g.reading (g.base (fun _ => true) false cases)
        (hits g.flag (cases.filter fun _ => true)) := by
  simp only [computeSystemQualityKpis, metric, systemGauges, List.map_cons, List.map_nil,
    Gauge.base, Bool.false_eq_true, if_false, List.filter_true, caseFlagRatio, caseFlagCount,
    hits_known, reading_share, reading_count]

/-- A special count is over all checked tasks, a special share over those that were measured. -/
theorem tones_special (agentId : String) (tasks : List Value) :
    (computeSpecialKpis agentId tasks).map Metric.tone = (specialGauges agentId).map fun g =>
      g.reading (g.base isChecked g.asCount tasks) (hits g.flag (tasks.filter isChecked)) := by
  simp only [computeSpecialKpis, specialGauges, List.map_map]
  refine List.map_congr_left fun spec _ => ?_
  obtain ⟨id, title, target, label, flag, higher, asCount⟩ := spec
  simp only [Function.comp_apply, metric, Spec.gauge, Gauge.base, specialValue, ← checked_eq]
  have within : (known flag (checked tasks)).length ≤ (checked tasks).length :=
    List.length_filter_le _ _
  cases asCount
  · simp only [Bool.false_eq_true, if_false, reading_share, hits_known]
    have value : (if (checked tasks).length = 0 then none
        else if (known flag (checked tasks)).length = 0 then none
        else pct (hits flag (checked tasks)) (known flag (checked tasks)).length) =
        if (known flag (checked tasks)).length = 0 then none
        else pct (hits flag (checked tasks)) (known flag (checked tasks)).length := by
      split_ifs <;> first | rfl | omega
    rw [value]
    refine tone_sample _ _ _ fun hsome => ?_
    have pos : (known flag (checked tasks)).length ≠ 0 := fun h => hsome (if_pos h)
    omega
  · simp only [if_true, reading_count]

/-- **Every tone is sound**: each metric of a list, over the records that it takes. -/
def AllSound (gauges : List Gauge) (taken : Value → Bool) (compute : List Value → List Metric)
    (records : List Value) : Prop :=
  ∀ (i : ℕ) g, gauges[i]? = some g →
    Sound g taken (fun records => (compute records)[i]?.map Metric.tone) records

def AllFine (gauges : List Gauge) (taken : Value → Bool) (wide : Gauge → Bool)
    (records : List Value) : Prop :=
  ∀ g ∈ gauges, Fine g (g.base taken (wide g) records) (hits g.flag (records.filter taken))
    (known g.flag (records.filter taken)).length

theorem allSound_iff {gauges : List Gauge} {taken : Value → Bool} {wide : Gauge → Bool}
    {compute : List Value → List Metric} (wf : ∀ g ∈ gauges, g.WellFormed)
    (other : ∀ g ∈ gauges, ∃ record, taken record = true ∧ g.deviates record = true)
    (tones : ∀ records, (compute records).map Metric.tone = gauges.map fun g =>
      g.reading (g.base taken (wide g) records) (hits g.flag (records.filter taken)))
    (records : List Value) :
    AllSound gauges taken compute records ↔ AllFine gauges taken wide records := by
  have each : ∀ (i : ℕ) g, gauges[i]? = some g →
      (Sound g taken (fun records => (compute records)[i]?.map Metric.tone) records ↔
        Fine g (g.base taken (wide g) records) (hits g.flag (records.filter taken))
          (known g.flag (records.filter taken)).length) := by
    intro i g hg
    have hmem := List.mem_of_getElem? hg
    refine Gauge.sound_iff (wf g hmem) (fun records => ?_) (other g hmem) records
    rw [← List.getElem?_map, tones, List.getElem?_map, hg]
    rfl
  constructor
  · intro sound g hg
    obtain ⟨i, hi⟩ := List.mem_iff_getElem?.mp hg
    exact (each i g hi).mp (sound i g hi)
  · intro fine i g hg
    exact (each i g hg).mpr (fine g (List.mem_of_getElem? hg))

/-- **Tones are sound exactly over fine samples**: the common metrics and the special counts over
all checked tasks, the special shares over the checked ones whose flag is set, those of the system
over the cases whose flag is set. -/
theorem tones_sound_iff (agentId : String) (tasks cases : List Value) :
    (AllSound commonGauges isChecked computeCommonKpis tasks ↔
      AllFine commonGauges isChecked (fun _ => true) tasks) ∧
    (AllSound (specialGauges agentId) isChecked (computeSpecialKpis agentId) tasks ↔
      AllFine (specialGauges agentId) isChecked Gauge.asCount tasks) ∧
    (AllSound systemGauges (fun _ => true) computeSystemQualityKpis cases ↔
      AllFine systemGauges (fun _ => true) (fun _ => false) cases) := by
  refine ⟨?_, ?_, ?_⟩
  · exact allSound_iff wellFormed_common (fun g hg => exists_deviating (wellFormed_common g hg))
      tones_common tasks
  · exact allSound_iff (wellFormed_special agentId)
      (fun g hg => exists_deviating (wellFormed_special agentId g hg)) (tones_special agentId) tasks
  · refine allSound_iff wellFormed_system (fun g hg => ?_) tones_system cases
    obtain ⟨record, -, hdeviates⟩ := exists_deviating (wellFormed_system g hg)
    exact ⟨record, rfl, hdeviates⟩

/-- A checked task of which nothing was measured has no critical action. -/
theorem critical_unmeasured : ¬ AllSound commonGauges isChecked computeCommonKpis
    [.dict [("checked", .bool true)]] := by
  intro sound
  have unknown := (sound 5 _ rfl).unmeasured (by decide)
  exact absurd unknown (by decide +kernel)

end AgentBack.Quality.Kpi
