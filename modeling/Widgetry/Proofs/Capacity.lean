import Mathlib.Algebra.Order.Ring.Nat
import Mathlib.Data.Nat.Find
import Mathlib.Order.Bounds.Basic
import Widgetry.Gpu.Capacity

/-!
# Growing to the end of a word

Capacities are doubled in machine words. `Doubling` is that loop without a bound on its turns; the
64 doublings of `grownCapacity` are never what ends it. It ends at the first doubling that is large
enough, if that still is a word, and fails otherwise.
-/

namespace Widgetry.Gpu

/-- The doubling loop from a capacity on and what comes of it: it stops where there is room enough,
fails where the doubled capacity would not be a word, and takes another turn elsewhere. -/
inductive Doubling (needed : Nat) : Nat → Option Nat → Prop where
  | enough {capacity : Nat} (hroom : needed ≤ capacity) : Doubling needed capacity (some capacity)
  | overflow {capacity : Nat} (hroom : capacity < needed) (hword : wordLimit ≤ 2 * capacity) :
      Doubling needed capacity none
  | turn {capacity : Nat} {o : Option Nat} (hroom : capacity < needed)
      (hword : 2 * capacity < wordLimit) (hrest : Doubling needed (2 * capacity) o) :
      Doubling needed capacity o

theorem two_mul_mul_pow (capacity k : Nat) : 2 * capacity * 2 ^ k = capacity * 2 ^ (k + 1) := by
  rw [pow_succ, Nat.mul_comm 2 capacity, Nat.mul_assoc, Nat.mul_comm 2]

/-- The loop ends within any number of turns that would take it beyond a word. -/
theorem doubled_doubling {times capacity needed : Nat} (hneeded : needed < wordLimit)
    (hturns : wordLimit ≤ capacity * 2 ^ times) :
    Doubling needed capacity (doubled times capacity needed) := by
  induction times generalizing capacity with
  | zero =>
    have hroom : needed ≤ capacity := by
      rw [pow_zero, Nat.mul_one] at hturns
      exact Nat.le_of_lt (Nat.lt_of_lt_of_le hneeded hturns)
    rw [doubled, if_pos hroom]
    exact .enough hroom
  | succ times ih =>
    rw [doubled]
    split
    case isTrue hroom => exact .enough hroom
    case isFalse hroom =>
      have hlt : capacity < needed := Nat.lt_of_not_le hroom
      split
      case isTrue hword =>
        refine .turn hlt hword (ih ?_)
        rw [two_mul_mul_pow]
        exact hturns
      case isFalse hword => exact .overflow hlt (Nat.le_of_not_lt hword)

section

variable {needed capacity k : Nat}

/-- The number of doublings after which a capacity is large enough. -/
def Turns (needed capacity k : Nat) : Prop := IsLeast {k | needed ≤ capacity * 2 ^ k} k

theorem exists_turns (needed : Nat) (hpos : 0 < capacity) : ∃ k, Turns needed capacity k := by
  have hreach : ∃ k, needed ≤ capacity * 2 ^ k :=
    ⟨needed, Nat.le_trans (Nat.le_of_lt Nat.lt_two_pow_self) (Nat.le_mul_of_pos_left _ hpos)⟩
  exact ⟨Nat.find hreach, Nat.find_spec hreach, fun _ hj => Nat.find_min' hreach hj⟩

theorem Turns.zero (h : Turns needed capacity k) (hroom : needed ≤ capacity) : k = 0 :=
  Nat.le_zero.mp (h.2 (by simpa using hroom))

theorem Turns.pos (h : Turns needed capacity k) (hroom : capacity < needed) : 0 < k := by
  apply Nat.pos_of_ne_zero
  intro hk
  have hle : needed ≤ capacity * 2 ^ k := h.1
  rw [hk, pow_zero, Nat.mul_one] at hle
  omega

/-- One turn fewer is too few. -/
theorem Turns.pred (h : Turns needed capacity (k + 1)) : capacity * 2 ^ k < needed := by
  apply Nat.lt_of_not_le
  intro hle
  exact Nat.not_succ_le_self k (h.2 hle)

theorem Turns.double (h : Turns needed capacity (k + 1)) : Turns needed (2 * capacity) k := by
  have hturns (j : Nat) : needed ≤ 2 * capacity * 2 ^ j ↔ needed ≤ capacity * 2 ^ (j + 1) := by
    rw [two_mul_mul_pow]
  exact ⟨(hturns k).mpr h.1, fun j hj => Nat.le_of_succ_le_succ (h.2 ((hturns j).mp hj))⟩

/-- The loop gives the first doubling that is large enough, if it is a word. -/
theorem Doubling.exact {o : Option Nat} (h : Doubling needed capacity o)
    (hword : capacity < wordLimit) (hk : Turns needed capacity k) :
    o = if capacity * 2 ^ k < wordLimit then some (capacity * 2 ^ k) else none := by
  induction h generalizing k with
  | enough hroom => rw [hk.zero hroom, pow_zero, Nat.mul_one, if_pos hword]
  | @overflow capacity hroom hfull =>
    obtain ⟨k, rfl⟩ := Nat.exists_eq_add_one.mpr (hk.pos hroom)
    have hle : 2 * capacity ≤ capacity * 2 ^ (k + 1) := by
      rw [← two_mul_mul_pow]
      exact Nat.le_mul_of_pos_right _ (Nat.two_pow_pos k)
    rw [if_neg (Nat.not_lt_of_le (Nat.le_trans hfull hle))]
  | turn hroom hnext _ ih =>
    obtain ⟨k, rfl⟩ := Nat.exists_eq_add_one.mpr (hk.pos hroom)
    have hrest := ih hnext hk.double
    rw [two_mul_mul_pow] at hrest
    exact hrest

/-- A capacity that had to grow is less than twice what is needed. -/
theorem Turns.tight (h : Turns needed capacity k) :
    capacity * 2 ^ k = capacity ∨ capacity * 2 ^ k < 2 * needed := by
  cases k with
  | zero => exact .inl (by rw [pow_zero, Nat.mul_one])
  | succ k =>
    have hpred := h.pred
    rw [pow_succ, ← Nat.mul_assoc]
    omega

end

section

variable {current needed : Nat}

theorem grownCapacity_doubling (hneeded : needed < wordLimit) :
    Doubling needed (max current 1) (grownCapacity current needed) :=
  doubled_doubling hneeded (Nat.le_mul_of_pos_left _ (by omega))

/-- Growing gives the first doubling that is large enough, if it is a word. -/
theorem grownCapacity_eq (hcurrent : current < wordLimit) (hneeded : needed < wordLimit) :
    ∃ k, Turns needed (max current 1) k ∧
      grownCapacity current needed =
        if max current 1 * 2 ^ k < wordLimit then some (max current 1 * 2 ^ k) else none := by
  have hword : max current 1 < wordLimit := Nat.max_lt.mpr ⟨hcurrent, by decide⟩
  obtain ⟨k, hk⟩ := exists_turns needed (Nat.le_max_right current 1)
  exact ⟨k, hk, (grownCapacity_doubling hneeded).exact hword hk⟩

/-- A capacity that comes of growing is the first doubling that is large enough. -/
theorem grownCapacity_some {c : Nat} (h : grownCapacity current needed = some c)
    (hcurrent : current < wordLimit) (hneeded : needed < wordLimit) :
    ∃ k, Turns needed (max current 1) k ∧ c = max current 1 * 2 ^ k := by
  obtain ⟨k, hk, heq⟩ := grownCapacity_eq hcurrent hneeded
  rw [heq, Option.ite_none_right_eq_some] at h
  exact ⟨k, hk, (Option.some.inj h.2).symm⟩

/-- Up to half of the words, growing does not fail. -/
theorem grownCapacity_half (hcurrent : current < wordLimit) (hneeded : 2 * needed ≤ wordLimit) :
    ∃ k, Turns needed (max current 1) k ∧
      grownCapacity current needed = some (max current 1 * 2 ^ k) := by
  have hpos : 0 < wordLimit := by decide
  have hword : max current 1 < wordLimit := Nat.max_lt.mpr ⟨hcurrent, by decide⟩
  obtain ⟨k, hk, heq⟩ := grownCapacity_eq hcurrent (show needed < wordLimit by omega)
  have htight := hk.tight
  exact ⟨k, hk, heq.trans (if_pos (by omega))⟩

end

/-- For machine words, the loop ends. With `k` the least number of doublings that make the current
capacity (at least one) large enough, it gives exactly that doubling, or fails if this is no word
any more. What it gives is never smaller than the current capacity or than what is needed, is less
than twice what is needed if it had to grow, and is there whenever half of the words are enough. -/
theorem grownCapacity_is_exact (current needed : UInt64) :
    Doubling needed.toNat (max current.toNat 1) (grownCapacity current.toNat needed.toNat) ∧
      (∃ k, IsLeast {k | needed.toNat ≤ max current.toNat 1 * 2 ^ k} k ∧
        grownCapacity current.toNat needed.toNat =
          if max current.toNat 1 * 2 ^ k < 2 ^ 64 then some (max current.toNat 1 * 2 ^ k)
          else none) ∧
      (∀ c, grownCapacity current.toNat needed.toNat = some c →
        current.toNat ≤ c ∧ needed.toNat ≤ c ∧
          (max current.toNat 1 < c → c < 2 * needed.toNat)) ∧
      (needed.toNat ≤ 2 ^ 63 → ∃ c, grownCapacity current.toNat needed.toNat = some c) := by
  have hcurrent : current.toNat < wordLimit := current.toNat_lt
  have hneeded : needed.toNat < wordLimit := needed.toNat_lt
  have hle : current.toNat ≤ max current.toNat 1 := Nat.le_max_left _ _
  refine ⟨grownCapacity_doubling hneeded, grownCapacity_eq hcurrent hneeded, ?_, ?_⟩
  · intro c hc
    obtain ⟨k, hk, rfl⟩ := grownCapacity_some hc hcurrent hneeded
    have hgrow : max current.toNat 1 ≤ max current.toNat 1 * 2 ^ k :=
      Nat.le_mul_of_pos_right _ (Nat.two_pow_pos k)
    exact ⟨Nat.le_trans hle hgrow, hk.1, fun hlt => hk.tight.resolve_left (by omega)⟩
  · intro hhalf
    obtain ⟨k, _, heq⟩ := grownCapacity_half hcurrent (Nat.mul_le_mul_left 2 hhalf)
    exact ⟨_, heq⟩

end Widgetry.Gpu
