import Mathlib.Data.String.Basic
import Mathlib.Tactic.IntervalCases
import Mathlib.Tactic.Ring

/-!
# The text of a moment

`datetime.isoformat()` of a moment in UTC. Its fields have fixed widths and are written from the
greatest unit to the smallest, so that texts compare as the moments do (`isoformat_lt`); the one
exception is a moment without microseconds, which ends where the point would stand.
-/

namespace AgentBack

/-- A moment of `datetime.now(timezone.utc)`. -/
structure Moment where
  year : Nat
  month : Nat
  day : Nat
  hour : Nat
  minute : Nat
  second : Nat
  microsecond : Nat
  year_lt : year < 10000
  month_lt : month < 100
  day_lt : day < 100
  hour_lt : hour < 100
  minute_lt : minute < 100
  second_lt : second < 100
  microsecond_lt : microsecond < 1000000
  deriving DecidableEq

namespace Moment

/-- The fields down to the second, each with the number of its digits. -/
def fields (m : Moment) : List Nat := [m.year, m.month, m.day, m.hour, m.minute, m.second]

def Before (a b : Moment) : Prop := a.fields ++ [a.microsecond] < b.fields ++ [b.microsecond]

end Moment

def digitChar (n : Nat) : Char := Char.ofNat (48 + n)

/-- `f"{n:0{width}d}"` of a number that fits the width. -/
def padded : Nat → Nat → List Char
  | 0, _ => []
  | width + 1, n => padded width (n / 10) ++ [digitChar (n % 10)]

/-- `m.isoformat()`. -/
def Moment.isoformat (m : Moment) : String :=
  String.ofList (padded 4 m.year ++ '-' :: (padded 2 m.month ++ '-' :: (padded 2 m.day ++ 'T' ::
    (padded 2 m.hour ++ ':' :: (padded 2 m.minute ++ ':' :: (padded 2 m.second ++
      ((if m.microsecond = 0 then [] else '.' :: padded 6 m.microsecond) ++
        "+00:00".toList)))))))

theorem length_padded (width n : Nat) : (padded width n).length = width := by
  induction width generalizing n with
  | zero => rfl
  | succ width ih => rw [padded, List.length_append, ih, List.length_singleton]

/-- Lists of one length compare before what follows them. -/
theorem append_lt_of_lt {α : Type} [LinearOrder α] {front front' : List α}
    (hlength : front.length = front'.length) (h : front < front') (back back' : List α) :
    front ++ back < front' ++ back' := by
  induction front generalizing front' with
  | nil =>
    rw [List.length_nil, eq_comm, List.length_eq_zero_iff] at hlength
    rw [hlength] at h
    exact absurd h (List.not_lt_nil [])
  | cons a front ih =>
    cases front' with
    | nil => cases hlength
    | cons a' front' =>
      rw [List.cons_append, List.cons_append, List.cons_lt_cons_iff]
      rcases List.cons_lt_cons_iff.mp h with hhead | ⟨hhead, htail⟩
      · exact .inl hhead
      · exact .inr ⟨hhead, ih (Nat.succ.inj hlength) htail⟩

theorem digitChar_lt {a b : Nat} (h : a < b) (hb : b < 10) : digitChar a < digitChar b := by
  interval_cases b <;> interval_cases a <;> decide

theorem padded_lt {width a b : Nat} (h : a < b) (hb : b < 10 ^ width) :
    padded width a < padded width b := by
  induction width generalizing a b with
  | zero => omega
  | succ width ih =>
    have hdiv : b / 10 < 10 ^ width := by
      rw [pow_succ] at hb
      omega
    rw [padded, padded]
    rcases Nat.lt_or_ge (a / 10) (b / 10) with hlt | hge
    · exact append_lt_of_lt (by rw [length_padded, length_padded]) (ih hlt hdiv) _ _
    · have heq : a / 10 = b / 10 := by omega
      have hlast : a % 10 < b % 10 := by omega
      rw [heq]
      apply List.append_left_lt
      rw [List.cons_lt_cons_iff]
      exact .inl (digitChar_lt hlast (Nat.mod_lt b (by decide)))

/-- A field of a fixed width: the moments differ in it, or it is the same and the rest decides. -/
theorem padded_append_lt (width : Nat) {a b : Nat} {as bs : List Nat} {back back' : List Char}
    (h : a :: as < b :: bs) (hb : b < 10 ^ width) (hback : as < bs → back < back') :
    padded width a ++ back < padded width b ++ back' := by
  rcases List.cons_lt_cons_iff.mp h with hhead | ⟨rfl, htail⟩
  · exact append_lt_of_lt (by rw [length_padded, length_padded]) (padded_lt hhead hb) _ _
  · exact List.append_left_lt (hback htail)

/-- The texts compare as the moments do. -/
theorem isoformat_lt {a b : Moment} (h : a.Before b) : a.isoformat < b.isoformat := by
  have hcons {c : Char} {back back' : List Char} (h : back < back') : c :: back < c :: back' :=
    List.cons_lt_cons_iff.mpr (.inr ⟨rfl, h⟩)
  unfold Moment.Before Moment.fields at h
  simp only [List.cons_append, List.nil_append] at h
  rw [String.lt_iff_toList_lt, Moment.isoformat, Moment.isoformat]
  simp only [String.toList_ofList]
  apply padded_append_lt 4 h b.year_lt
  intro h
  apply hcons
  apply padded_append_lt 2 h b.month_lt
  intro h
  apply hcons
  apply padded_append_lt 2 h b.day_lt
  intro h
  apply hcons
  apply padded_append_lt 2 h b.hour_lt
  intro h
  apply hcons
  apply padded_append_lt 2 h b.minute_lt
  intro h
  apply hcons
  apply padded_append_lt 2 h b.second_lt
  intro h
  have hmicro : a.microsecond < b.microsecond := by
    rcases List.cons_lt_cons_iff.mp h with hlt | ⟨-, hnil⟩
    · exact hlt
    · exact absurd hnil (List.not_lt_nil [])
  have hb : b.microsecond ≠ 0 := by omega
  rw [if_neg hb]
  split
  · -- a moment without microseconds ends with the sign of the zone, which is before the point
    rw [List.nil_append, List.cons_append]
    exact List.cons_lt_cons_iff.mpr (.inl (by decide))
  · rw [List.cons_append, List.cons_append]
    apply hcons
    have hlength : (padded 6 a.microsecond).length = (padded 6 b.microsecond).length := by
      rw [length_padded, length_padded]
    exact append_lt_of_lt hlength (padded_lt hmicro b.microsecond_lt) _ _

end AgentBack
