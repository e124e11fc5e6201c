import AgentBack.Base.Dict

/-!
# A cache and where its values come from

A cache holds one value under a key and is overwritten by the next. Beside it stands, as a ghost, the
request that each value was made for. When every value was made for its request, a reader of the
cache may reason about that request instead of the history of the cache.
-/

namespace AgentBack

universe u v w

/-- A cache, with the request behind each of its values. -/
structure Memo (κ : Type u) (ρ : Type v) (ν : Type w) [DecidableEq κ] where
  cache : Dict κ ν
  origins : Dict κ ρ

namespace Memo

variable {κ : Type u} {ρ : Type v} {ν : Type w} [DecidableEq κ]

/-- The cache before the first request. -/
def empty : Memo κ ρ ν := ⟨∅, ∅⟩

/-- The value made for a request replaces the one under its key. -/
def store (memo : Memo κ ρ ν) (key : κ) (request : ρ) (value : ν) : Memo κ ρ ν where
  cache := memo.cache.set key value
  origins := memo.origins.set key request

/-- The value under a key runs out. -/
def expire (memo : Memo κ ρ ν) (key : κ) : Memo κ ρ ν where
  cache := memo.cache.erase key
  origins := memo.origins.erase key

/-- Every value was made for its request. -/
def Honest (Made : ρ → ν → Prop) (memo : Memo κ ρ ν) : Prop :=
  ∀ key value, memo.cache.get? key = some value →
    ∃ request, memo.origins.get? key = some request ∧ Made request value

variable {Made : ρ → ν → Prop} {memo : Memo κ ρ ν}

theorem honest_empty : Honest Made (empty : Memo κ ρ ν) := by
  intro key value h
  cases h

theorem Honest.store (honest : memo.Honest Made) {key : κ} {request : ρ} {value : ν}
    (made : Made request value) : (memo.store key request value).Honest Made := by
  intro key' value' h
  unfold Memo.store at h ⊢
  rw [Dict.get?_set] at h ⊢
  split at h
  · rename_i hkey
    cases h
    rw [if_pos hkey]
    exact ⟨request, rfl, made⟩
  · rename_i hkey
    rw [if_neg hkey]
    exact honest key' value' h

theorem Honest.expire (honest : memo.Honest Made) (key : κ) : (memo.expire key).Honest Made := by
  intro key' value' h
  unfold Memo.expire at h ⊢
  rw [Dict.get?_erase] at h ⊢
  split at h
  · cases h
  · rename_i hkey
    rw [if_neg hkey]
    exact honest key' value' h

end Memo

end AgentBack
