import Widgetry.Proofs.Narrowing
import Widgetry.Proofs.Separation

/-!
# What the shortest decimal is

The search for the shortest decimal of a number stops at the first power of ten with a multiple in
the number's interval, so the decimal has few digits. It is the multiple nearest to the number:
it can only come close to an end of the interval if the power of ten is about as large as the
interval, and then it keeps its distance from the end or is the end.
-/

namespace Widgetry.Number

theorem ratio_le (a b : ℕ) (s k : ℤ) :
    a * (ratio s k).den ≤ b * (ratio s k).num ↔ (a : ℚ) * 2 ^ s ≤ b * 10 ^ k := by
  obtain ⟨c, hc, hnum, hden⟩ := ratio_eq s k
  rw [← Nat.cast_le (α := ℚ), Nat.cast_mul, Nat.cast_mul, hnum, hden, ← mul_assoc, ← mul_assoc,
    mul_le_mul_iff_left₀ hc]

theorem le_ratio (a b : ℕ) (s k : ℤ) :
    b * (ratio s k).num ≤ a * (ratio s k).den ↔ (b : ℚ) * 10 ^ k ≤ a * 2 ^ s := by
  obtain ⟨c, hc, hnum, hden⟩ := ratio_eq s k
  rw [← Nat.cast_le (α := ℚ), Nat.cast_mul, Nat.cast_mul, hnum, hden, ← mul_assoc, ← mul_assoc,
    mul_le_mul_iff_left₀ hc]

theorem ratio_lt (a b : ℕ) (s k : ℤ) :
    a * (ratio s k).den < b * (ratio s k).num ↔ (a : ℚ) * 2 ^ s < b * 10 ^ k := by
  rw [← not_le, le_ratio, not_le]

theorem lt_ratio (a b : ℕ) (s k : ℤ) :
    b * (ratio s k).num < a * (ratio s k).den ↔ (b : ℚ) * 10 ^ k < a * 2 ^ s := by
  rw [← not_le, ratio_le, not_le]

namespace Interval

theorem commonScale_eq (i : Interval) (k : ℤ) :
    i.commonScale k = ((ratio i.scale k).den, (ratio i.scale k).num) := rfl

theorem holds_iff {i : Interval} (hbelow : i.below ≤ i.centre) (d : ℕ) (k : ℤ) :
    i.holds d k = true ↔ i.Contains (d * 10 ^ k) := by
  have hlow : i.low = ((i.centre - i.below : ℕ) : ℚ) * 2 ^ i.scale := by
    rw [low, Nat.cast_sub hbelow]
  have hhigh : i.high = ((i.centre + i.above : ℕ) : ℚ) * 2 ^ i.scale := by
    rw [high, Nat.cast_add]
  rw [holds, Contains, commonScale_eq, hlow, hhigh]
  dsimp only
  split
  · rw [Bool.and_eq_true, decide_eq_true_eq, decide_eq_true_eq, ratio_le, le_ratio]
  · rw [Bool.and_eq_true, decide_eq_true_eq, decide_eq_true_eq, ratio_lt, lt_ratio]

theorem floorAt_le (i : Interval) (k : ℤ) : (i.floorAt k : ℚ) * 10 ^ k ≤ i.value := by
  rw [value, ← le_ratio, floorAt, commonScale_eq]
  exact Nat.div_mul_le_self _ _

theorem lt_floorAt (i : Interval) (k : ℤ) : i.value < ((i.floorAt k + 1 : ℕ) : ℚ) * 10 ^ k := by
  have hnum : 0 < (ratio i.scale k).num := by rw [ratio]; positivity
  rw [value, ← ratio_lt, floorAt, commonScale_eq]
  exact Nat.lt_mul_of_div_lt (Nat.lt_succ_self _) hnum

theorem low_le_value (i : Interval) : i.low ≤ i.value := by
  have hexp : (0 : ℚ) < 2 ^ i.scale := by positivity
  have hbelow : (0 : ℚ) ≤ i.below := by positivity
  rw [low, value, mul_le_mul_iff_left₀ hexp]
  linarith

theorem value_lt_high {i : Interval} (habove : 0 < i.above) : i.value < i.high := by
  have hexp : (0 : ℚ) < 2 ^ i.scale := by positivity
  have habove : (0 : ℚ) < i.above := by exact_mod_cast habove
  rw [high, value, mul_lt_mul_iff_left₀ hexp]
  linarith

theorem lowerIsNearer_true {i : Interval} {d : ℕ} {k : ℤ} (h : i.lowerIsNearer d k = true) :
    2 * i.value ≤ (2 * d + 1) * 10 ^ k := by
  have hle : 2 * i.centre * (ratio i.scale k).den ≤ (2 * d + 1) * (ratio i.scale k).num := by
    rw [lowerIsNearer, commonScale_eq] at h
    dsimp only at h
    rw [Bool.or_eq_true, Bool.and_eq_true, decide_eq_true_eq, beq_iff_eq] at h
    rw [mul_assoc]
    omega
  rw [ratio_le] at hle
  push_cast at hle
  rw [value, ← mul_assoc]
  exact hle

theorem lowerIsNearer_false {i : Interval} {d : ℕ} {k : ℤ} (h : i.lowerIsNearer d k = false) :
    (2 * d + 1) * 10 ^ k ≤ 2 * i.value := by
  have hle : (2 * d + 1) * (ratio i.scale k).num ≤ 2 * i.centre * (ratio i.scale k).den := by
    rw [lowerIsNearer, commonScale_eq] at h
    dsimp only at h
    rw [Bool.or_eq_false_iff, decide_eq_false_iff_not] at h
    rw [mul_assoc]
    omega
  rw [le_ratio] at hle
  push_cast at hle
  rw [value, ← mul_assoc]
  exact hle

/-- A point of a grid next to the value; the one on the other side of the value is not nearer if it
is in the interval. -/
def Centred (i : Interval) (v step : ℚ) : Prop :=
  (v ≤ i.value ∧ i.value < v + step ∧ (i.Contains (v + step) → 2 * i.value ≤ 2 * v + step)) ∨
    (i.value < v ∧ v - step ≤ i.value ∧ (i.Contains (v - step) → 2 * v - step ≤ 2 * i.value))

theorem hit?_eq_some {i : Interval} (hbelow : i.below ≤ i.centre) {d : ℕ} {k : ℤ}
    (h : i.hit? k = some d) : i.Contains (d * 10 ^ k) ∧ i.Centred (d * 10 ^ k) (10 ^ k) := by
  have hfloor := i.floorAt_le k
  have hceil := i.lt_floorAt k
  have hnext : ((i.floorAt k + 1 : ℕ) : ℚ) * 10 ^ k = i.floorAt k * 10 ^ k + 10 ^ k := by
    push_cast
    ring
  rw [hit?] at h
  generalize i.floorAt k = f at *
  have hf := holds_iff hbelow f k
  have hs := holds_iff hbelow (f + 1) k
  rw [hnext] at hceil hs
  -- The lower multiple is `f`, the upper one `f + 1`; which of them hold decides the result.
  cases hlow : i.holds f k <;> cases hhigh : i.holds (f + 1) k <;> rw [hlow, hhigh] at h <;>
    simp only [hlow, hhigh, true_iff, Bool.false_eq_true, false_iff] at hf hs
  · cases h
  · cases h
    rw [Centred, hnext]
    refine ⟨hs, .inr ⟨hceil, by linarith, fun h => absurd ?_ hf⟩⟩
    rwa [add_sub_cancel_right] at h
  · cases h
    exact ⟨hf, .inl ⟨hfloor, hceil, fun h => absurd h hs⟩⟩
  · cases hnearer : i.lowerIsNearer f k <;>
      simp only [hnearer, Bool.false_eq_true, if_true, if_false, Option.some.injEq] at h <;> subst h
    · have := lowerIsNearer_false hnearer
      rw [Centred, hnext]
      exact ⟨hs, .inr ⟨hceil, by linarith, fun _ => by linarith⟩⟩
    · have := lowerIsNearer_true hnearer
      exact ⟨hf, .inl ⟨hfloor, hceil, fun _ => by linarith⟩⟩

/-- Without a hit the interval fits between two multiples. -/
theorem hit?_eq_none {i : Interval} (hbelow : i.below ≤ i.centre) (habove : 0 < i.above) {k : ℤ}
    (h : i.hit? k = none) : i.high - i.low ≤ 10 ^ k := by
  have hfloor := i.floorAt_le k
  have hceil := i.lt_floorAt k
  have hlow := i.low_le_value
  have hhigh := value_lt_high habove
  have hnext : ((i.floorAt k + 1 : ℕ) : ℚ) * 10 ^ k = i.floorAt k * 10 ^ k + 10 ^ k := by
    push_cast
    ring
  rw [hit?] at h
  generalize i.floorAt k = f at *
  have hf : ¬ i.Contains (f * 10 ^ k) := by
    rw [← holds_iff hbelow f k]
    intro hf
    rw [hf] at h
    cases hs : i.holds (f + 1) k <;> rw [hs] at h <;> cases h
  have hs : ¬ i.Contains ((f + 1 : ℕ) * 10 ^ k) := by
    rw [← holds_iff hbelow (f + 1) k]
    intro hs
    rw [hs] at h
    cases hf : i.holds f k <;> rw [hf] at h <;> cases h
  have hf' : (f : ℚ) * 10 ^ k ≤ i.low := by
    by_contra hlt
    exact hf (contains_of_between (by linarith) (by linarith))
  have hs' : i.high ≤ (f + 1 : ℕ) * 10 ^ k := by
    by_contra hlt
    exact hs (contains_of_between (by linarith) (by linarith))
  linarith

/-- Near an end of the interval there is a multiple next to the value only if the multiples are
about as far apart as the interval is wide. -/
theorem Centred.grid {i : Interval} {v step : ℚ} (h : i.Centred v step) {g t : ℚ}
    (hlow : i.low + g / 2 ≤ i.value) (hhigh : i.value + g / 2 ≤ i.high) (ht : 2 * t < g)
    (ht' : 0 ≤ t) (hnear : v ≤ i.low + t ∨ i.high ≤ v + t) : g - 2 * t ≤ step := by
  rcases h with ⟨hle, hlt, hother⟩ | ⟨hlt, hle, hother⟩
  · have hnear : v ≤ i.low + t := hnear.resolve_right (by linarith)
    by_cases hc : i.Contains (v + step)
    · have := hother hc
      linarith
    · have : i.high ≤ v + step := by
        by_contra hh
        exact hc (contains_of_between (by linarith) (by linarith))
      linarith
  · have hnear : i.high ≤ v + t := hnear.resolve_left (by linarith)
    by_cases hc : i.Contains (v - step)
    · have := hother hc
      linarith
    · have : v - step ≤ i.low := by
        by_contra hh
        exact hc (contains_of_between (by linarith) (by linarith))
      linarith

/-! ## The search -/

theorem search_eq_some {i : Interval} :
    ∀ {fuel : ℕ} {k j : ℤ} {d : ℕ}, i.search fuel k = some ⟨d, j⟩ →
      i.hit? j = some d ∧ (j = k ∨ i.hit? (j + 1) = none)
  | 0, _, _, _, h => by cases h
  | fuel + 1, k, j, d, h => by
    rw [search] at h
    cases hhit : i.hit? k with
    | some d =>
      rw [hhit] at h
      cases h
      exact ⟨hhit, .inl rfl⟩
    | none =>
      rw [hhit] at h
      obtain ⟨hr, hstart⟩ := search_eq_some h
      refine ⟨hr, .inr ?_⟩
      rcases hstart with heq | hnone
      · rwa [heq, sub_add_cancel]
      · exact hnone

theorem search_isSome {i : Interval} : ∀ {fuel j : ℕ} {k : ℤ}, j < fuel → i.hit? (k - j) ≠ none →
    ∃ r, i.search fuel k = some r
  | fuel + 1, j, k, hj, h => by
    rw [search]
    cases hhit : i.hit? k with
    | some d => exact ⟨_, rfl⟩
    | none =>
      cases j with
      | zero => exact absurd hhit (by simpa using h)
      | succ j =>
        refine search_isSome (j := j) (by omega) ?_
        rwa [(by push_cast; ring : k - 1 - (j : ℤ) = k - (j + 1 : ℕ))]

end Interval

/-! ## Single precision -/

theorem two_pow_le_ten_pow (t : ℕ) : (2 : ℚ) ^ t ≤ 10 ^ (t * 31 / 100 + 1) := by
  refine le_of_pow_le_pow_left₀ (by norm_num : 100 ≠ 0) (by positivity) ?_
  calc ((2 : ℚ) ^ t) ^ 100 = (2 ^ 100) ^ t := by rw [← pow_mul, ← pow_mul, mul_comm]
    _ ≤ (10 ^ 31) ^ t := pow_le_pow_left₀ (by positivity) (by norm_num) t
    _ = 10 ^ (31 * t) := by rw [← pow_mul]
    _ ≤ 10 ^ ((t * 31 / 100 + 1) * 100) := pow_le_pow_right₀ (by norm_num) (by omega)
    _ = (10 ^ (t * 31 / 100 + 1)) ^ 100 := by rw [← pow_mul]

/-- Where the search ends the grid is finer than the interval. -/
theorem ten_pow_fine (e : ℤ) : (10 : ℚ) ^ (-(e.natAbs : ℤ) - 2) < 3 / 4 * 2 ^ e := by
  have hten : (10 : ℚ) ^ (-(e.natAbs : ℤ)) ≤ 2 ^ e := by
    calc (10 : ℚ) ^ (-(e.natAbs : ℤ)) ≤ 2 ^ (-(e.natAbs : ℤ)) := by
          rw [zpow_neg, zpow_neg, zpow_natCast, zpow_natCast]
          exact inv_anti₀ (by positivity) (pow_le_pow_left₀ (by norm_num) (by norm_num) _)
      _ ≤ 2 ^ e := zpow_le_zpow_right₀ (by norm_num) (by omega)
  have hexp : (0 : ℚ) < 2 ^ e := by positivity
  rw [zpow_sub₀ (by norm_num), (by norm_num : (10 : ℚ) ^ (2 : ℤ) = 100), div_lt_iff₀ (by norm_num)]
  linarith

theorem Canonical.below_le {m : ℕ} {e : ℤ} (hc : Canonical m e) :
    (binary32.interval m e).below ≤ (binary32.interval m e).centre := by
  have hm := hc.pos
  have : (binary32.interval m e).centre = 4 * m := rfl
  rcases interval_below m e with hb | ⟨hb, _⟩ <;> omega

theorem no_hit {m : ℕ} {e k : ℤ} (hc : Canonical m e)
    (h : (binary32.interval m e).hit? k = none) : (3 / 4 : ℚ) * 2 ^ e ≤ 10 ^ k := by
  have hwide := Interval.hit?_eq_none hc.below_le Nat.two_pos h
  have hexp : (0 : ℚ) < 2 ^ e := by positivity
  rw [interval_high, interval_low] at hwide
  rcases interval_below m e with hb | ⟨hb, _⟩ <;> rw [hb] at hwide <;> push_cast at hwide <;>
    linarith

/-- What is known of the shortest decimal: it is found in the interval, and the next larger power of
ten was too coarse unless the search began there. -/
theorem shortest_found {m : ℕ} {e : ℤ} (hc : Canonical m e) :
    ∃ d k, binary32.shortest m e = ⟨d, k⟩ ∧ (binary32.interval m e).Contains (d * 10 ^ k) ∧
      (binary32.interval m e).Centred (d * 10 ^ k) (10 ^ k) ∧
      (d < 2 ∨ (3 / 4 : ℚ) * 2 ^ e ≤ 10 ^ (k + 1)) := by
  set t := ((m.log2 + 1 : ℕ) + e).toNat with ht
  obtain ⟨⟨d, k⟩, hr⟩ : ∃ r, (binary32.interval m e).search (t * 31 / 100 + 1 + e.natAbs + 3)
      (t * 31 / 100 + 1 : ℕ) = some r := by
    refine Interval.search_isSome (j := t * 31 / 100 + 1 + e.natAbs + 2) (by omega) fun hnone => ?_
    have hle := no_hit hc hnone
    have hlt : (10 : ℚ) ^ (((t * 31 / 100 + 1 : ℕ) : ℤ) - (t * 31 / 100 + 1 + e.natAbs + 2 : ℕ)) <
        3 / 4 * 2 ^ e := by
      rw [(by push_cast; ring : ((t * 31 / 100 + 1 : ℕ) : ℤ) -
        (t * 31 / 100 + 1 + e.natAbs + 2 : ℕ) = -e.natAbs - 2)]
      exact ten_pow_fine e
    linarith
  obtain ⟨hhit, hstart⟩ := Interval.search_eq_some hr
  obtain ⟨hcontains, hcentred⟩ := Interval.hit?_eq_some hc.below_le hhit
  refine ⟨d, k, ?_, hcontains, hcentred, hstart.imp (fun hk => ?_) (no_hit hc)⟩
  · show ((binary32.interval m e).search (t * 31 / 100 + 1 + e.natAbs + 3)
      (t * 31 / 100 + 1 : ℕ)).getD _ = _
    rw [hr, Option.getD_some]
  · have hvalue : (binary32.interval m e).value < 10 ^ k := by
      rw [interval_value, hk, zpow_natCast]
      refine lt_of_lt_of_le (scaled_bounds hc.pos.ne' e).2 (le_trans ?_ (two_pow_le_ten_pow t))
      rw [← zpow_natCast]
      exact zpow_le_zpow_right₀ (by norm_num) (by omega)
    have hten : (0 : ℚ) < 10 ^ k := by positivity
    have hlt : (d : ℚ) * 10 ^ k < 2 * 10 ^ k := by
      rcases hcentred with ⟨hle, -, -⟩ | ⟨-, hle, -⟩ <;> linarith
    exact_mod_cast (mul_lt_mul_iff_left₀ hten).mp hlt

theorem scaled_pow_bounds {m : ℕ} {e : ℤ} (hc : Canonical m e) {v : ℚ}
    (h : (binary32.interval m e).Contains v) : (2 : ℚ) ^ (e - 1) ≤ v ∧ v ≤ 2 ^ 24 * 2 ^ e := by
  obtain ⟨hlow, hhigh⟩ := Interval.contains_bounds h
  have hle := le_interval_low m e
  have hexp : (0 : ℚ) < 2 ^ e := by positivity
  have hpos : (1 : ℚ) ≤ m := by exact_mod_cast hc.pos
  have hlt : (m + 1 : ℚ) ≤ 2 ^ 24 := by exact_mod_cast hc.lt
  rw [interval_high] at hhigh
  constructor
  · rw [zpow_sub_one₀ (by norm_num)]
    have : (1 / 2 : ℚ) * 2 ^ e ≤ (m - 1 / 2) * 2 ^ e :=
      mul_le_mul_of_nonneg_right (by linarith) hexp.le
    linarith
  · have : (m + 1 / 2 : ℚ) * 2 ^ e ≤ 2 ^ 24 * 2 ^ e :=
      mul_le_mul_of_nonneg_right (by linarith) hexp.le
    linarith

/-- The shortest decimal of a number has at most nine digits and a small exponent. -/
theorem shortest_spec {m : ℕ} {e : ℤ} (hc : Canonical m e) :
    ∃ d k, binary32.shortest m e = ⟨d, k⟩ ∧ (binary32.interval m e).Contains (d * 10 ^ k) ∧
      (binary32.interval m e).Centred (d * 10 ^ k) (10 ^ k) ∧ 0 < d ∧ d < 2 ^ 28 ∧ -45 ≤ k ∧
      k ≤ 38 := by
  obtain ⟨d, k, heq, hcontains, hcentred, hcoarse⟩ := shortest_found hc
  obtain ⟨hlow, hhigh⟩ := scaled_pow_bounds hc hcontains
  have hten : (0 : ℚ) < 10 ^ k := by positivity
  have hexp : (0 : ℚ) < 2 ^ e := by positivity
  have hnext : (10 : ℚ) ^ (k + 1) = 10 ^ k * 10 := zpow_add_one₀ (by norm_num) k
  have hsmallest : (2 : ℚ) ^ (-149 : ℤ) ≤ 2 ^ e := zpow_le_zpow_right₀ (by norm_num) hc.low
  have hlargest : (2 : ℚ) ^ e ≤ 2 ^ (104 : ℤ) := zpow_le_zpow_right₀ (by norm_num) hc.high
  have hpos : 0 < d := by
    refine Nat.pos_of_ne_zero ?_
    rintro rfl
    have : (0 : ℚ) < 2 ^ (e - 1) := by positivity
    rw [Nat.cast_zero, zero_mul] at hlow
    linarith
  have hlt : d < 2 ^ 28 := by
    rcases hcoarse with hd | hgrid
    · omega
    · rw [hnext] at hgrid
      have hlt : (d : ℚ) * 10 ^ k < 2 ^ 28 * 10 ^ k := by linarith
      exact_mod_cast (mul_lt_mul_iff_left₀ hten).mp hlt
  have hkhigh : k ≤ 38 := by
    have hd : (1 : ℚ) ≤ d := by exact_mod_cast hpos
    have hle : (10 : ℚ) ^ k ≤ d * 10 ^ k := le_mul_of_one_le_left hten.le hd
    have : (10 : ℚ) ^ k < 10 ^ (39 : ℤ) := by
      refine lt_of_le_of_lt (hle.trans (hhigh.trans (mul_le_mul_of_nonneg_left hlargest ?_))) ?_ <;>
        norm_num
    have := (zpow_lt_zpow_iff_right₀ (by norm_num)).mp this
    omega
  have hklow : -45 ≤ k := by
    have hd : (d : ℚ) < 2 ∨ (3 / 4 : ℚ) * 2 ^ e ≤ 10 ^ (k + 1) := by exact_mod_cast hcoarse
    have : (10 : ℚ) ^ (-46 : ℤ) < 10 ^ k := by
      norm_num at hsmallest ⊢
      rcases hd with hd | hgrid
      · have := mul_lt_mul_of_pos_right hd hten
        rw [zpow_sub_one₀ (by norm_num)] at hlow
        linarith
      · rw [hnext] at hgrid
        linarith
    have := (zpow_lt_zpow_iff_right₀ (by norm_num)).mp this
    omega
  exact ⟨d, k, heq, hcontains, hcentred, hpos, hlt, hklow, hkhigh⟩

/-! ## Near the ends of an interval -/

/-- The ends of an interval as multiples of half a digit, where a power of two has its digit from
below it. -/
structure Ends (m : ℕ) (e : ℤ) (digit : ℤ) (a b : ℕ) : Prop where
  digit_low : -149 ≤ digit
  digit_high : digit ≤ 104
  low : (binary32.interval m e).low = a * 2 ^ (digit - 1)
  high : (binary32.interval m e).high = b * 2 ^ (digit - 1)
  le : a ≤ b
  bound : b ≤ 2 ^ 25 + 2
  below : (binary32.interval m e).low + 2 ^ digit / 2 ≤ (binary32.interval m e).value
  above : (binary32.interval m e).value + 2 ^ digit / 2 ≤ (binary32.interval m e).high
  odd : digit = e ∧ a + 1 = 2 * m ∧ b = 2 * m + 1 ∨ a = 2 ^ 25 - 1 ∧ b = 2 ^ 25 + 2

theorem Canonical.ends {m : ℕ} {e : ℤ} (hc : Canonical m e) : ∃ digit a b, Ends m e digit a b := by
  have hpos := hc.pos
  have hlt := hc.lt
  have hlow := interval_low m e
  have hhigh := interval_high m e
  have hvalue : (binary32.interval m e).value = m * 2 ^ e := interval_value m e
  have hhalf : (2 : ℚ) ^ e = 2 * 2 ^ (e - 1) := by
    rw [zpow_sub_one₀ (by norm_num)]
    ring
  have hquarter : (2 : ℚ) ^ (e - 1) = 2 * 2 ^ (e - 1 - 1) := by
    rw [zpow_sub_one₀ (by norm_num) (e - 1)]
    ring
  have hexp : (0 : ℚ) < 2 ^ (e - 1 - 1) := by positivity
  rcases interval_below m e with hb | ⟨hb, hm, he⟩
  · have hcast : ((2 * m - 1 : ℕ) : ℚ) = 2 * m - 1 := by
      rw [Nat.cast_sub (by omega)]
      push_cast
      rfl
    rw [hb] at hlow
    refine ⟨e, 2 * m - 1, 2 * m + 1, hc.low, hc.high, ?_, ?_, by omega, by omega, ?_, ?_,
      .inl ⟨rfl, by omega, rfl⟩⟩
    · rw [hlow, hcast, hhalf]
      push_cast
      ring
    · rw [hhigh, hhalf]
      push_cast
      ring
    · rw [hlow, hvalue]
      push_cast
      linarith
    · rw [hhigh, hvalue]
      linarith
  · have hcast : (m : ℚ) = 2 ^ 23 := by exact_mod_cast hm
    rw [hb, hcast, hhalf, hquarter] at hlow
    rw [hcast, hhalf, hquarter] at hhigh hvalue
    refine ⟨e - 1, 2 ^ 25 - 1, 2 ^ 25 + 2, by omega, by linarith [hc.high], ?_, ?_, by omega,
      le_rfl, ?_, ?_, .inr ⟨rfl, rfl⟩⟩
    · rw [hlow]
      push_cast
      ring
    · rw [hhigh]
      push_cast
      ring
    · rw [hlow, hvalue, hquarter]
      push_cast
      linarith
    · rw [hhigh, hvalue, hquarter]
      linarith

/-- The significands on both sides of the midpoint that has a decimal too close to it. -/
def BesideClosest (m : ℕ) (e : ℤ) : Prop :=
  e = -107 ∧ (m = 11420669 ∨ m = 11420670)

/-- The shortest decimal keeps its distance from the ends of the interval, or is an end that is read
without error. -/
theorem midpoint_of_near {m d n : ℕ} {e k digit : ℤ} {a b : ℕ} (hends : Ends m e digit a b)
    (hn : n = a ∨ n = b) (hd : 0 < d) (hgrid : (1 - 1 / 2 ^ 26) * 2 ^ digit ≤ (10 : ℚ) ^ k)
    (hnear : |(d : ℚ) * 10 ^ k - n * 2 ^ (digit - 1)| ≤ d * 10 ^ k * 5 / 2 ^ 54) :
    ((d : ℚ) * 10 ^ k = scaled n (digit - 1) ∧ -22 ≤ k ∧ k ≤ 22) ∨ BesideClosest m e := by
  have hnb : n ≤ 2 ^ 25 + 2 := by
    have := hends.le
    have := hends.bound
    omega
  rcases midpoint_separated hends.digit_low hends.digit_high hd hnb hgrid hnear with
    ⟨heq, hsmall⟩ | ⟨hnum, -, he, -⟩
  · refine .inl ⟨heq, ?_, ?_⟩
    · have hle : (2 : ℚ) ^ (-40 : ℤ) ≤ 2 ^ digit := zpow_le_zpow_right₀ (by norm_num) (by omega)
      have hlt : (10 : ℚ) ^ (-13 : ℤ) < 10 ^ k := by
        norm_num at hle hgrid ⊢
        linarith
      have := (zpow_lt_zpow_iff_right₀ (by norm_num)).mp hlt
      omega
    · have hle : (2 : ℚ) ^ (digit - 1) ≤ 2 ^ (39 : ℤ) :=
        zpow_le_zpow_right₀ (by norm_num) (by omega)
      have hten : (0 : ℚ) < 10 ^ k := by positivity
      have hd : (1 : ℚ) ≤ d := by exact_mod_cast hd
      have hone : (10 : ℚ) ^ k ≤ d * 10 ^ k := le_mul_of_one_le_left hten.le hd
      have hnq : (n : ℚ) ≤ 2 ^ 26 := by exact_mod_cast hnb.trans (by norm_num)
      have hlt : (10 : ℚ) ^ k < 10 ^ (23 : ℤ) := by
        have : (n : ℚ) * 2 ^ (digit - 1) ≤ 2 ^ 26 * 2 ^ (39 : ℤ) :=
          mul_le_mul hnq hle (by positivity) (by positivity)
        norm_num at this ⊢
        linarith
      have := (zpow_lt_zpow_iff_right₀ (by norm_num)).mp hlt
      omega
  · refine .inr ?_
    have hodd := hends.odd
    rw [hnum] at hn
    simp only [closest] at hn
    rw [BesideClosest]
    omega

/-- Whatever is as close to the shortest decimal as doubles come lies in the interval as well. -/
theorem contains_of_close {m d : ℕ} {e k : ℤ} (hc : Canonical m e) (hd : 0 < d)
    (hcontains : (binary32.interval m e).Contains (d * 10 ^ k))
    (hcentred : (binary32.interval m e).Centred (d * 10 ^ k) (10 ^ k)) {y : ℚ}
    (hclose : |y - d * 10 ^ k| ≤ d * 10 ^ k * 5 / 2 ^ 54)
    (hexact : -22 ≤ k → k ≤ 22 → ∀ n j, n < 2 ^ 53 → (d : ℚ) * 10 ^ k = scaled n j →
      y = d * 10 ^ k) :
    (binary32.interval m e).Contains y ∨ BesideClosest m e := by
  obtain ⟨digit, a, b, hends⟩ := hc.ends
  obtain ⟨hlow, hhigh⟩ := Interval.contains_bounds hcontains
  obtain ⟨hylow, hyhigh⟩ := abs_le.mp hclose
  have hb : (b : ℚ) ≤ 2 ^ 25 + 2 := by exact_mod_cast hends.bound
  have hexp : (0 : ℚ) < 2 ^ digit := by positivity
  -- The error is small against the digit, so near an end the grid is coarse.
  have ht : 2 * (d * 10 ^ k * 5 / 2 ^ 54 : ℚ) ≤ 2 ^ digit / 2 ^ 26 := by
    have hle := mul_le_mul_of_nonneg_right hb hexp.le
    have := hends.high
    rw [zpow_sub_one₀ (by norm_num)] at this
    linarith
  have ht0 : (0 : ℚ) ≤ d * 10 ^ k * 5 / 2 ^ 54 := by positivity
  have hgrid := fun hnear => hcentred.grid hends.below hends.above (by linarith) ht0 hnear
  -- An end that is met is in the interval, since the decimal is.
  have hmet : ∀ n, n = a ∨ n = b →
      |(d : ℚ) * 10 ^ k - n * 2 ^ (digit - 1)| ≤ d * 10 ^ k * 5 / 2 ^ 54 →
      (1 - 1 / 2 ^ 26) * 2 ^ digit ≤ (10 : ℚ) ^ k →
      (binary32.interval m e).Contains y ∨ BesideClosest m e := by
    intro n hn hnear hcoarse
    have hn53 : n < 2 ^ 53 := by
      have := hends.le
      have := hends.bound
      omega
    refine (midpoint_of_near hends hn hd hcoarse hnear).imp_left fun ⟨heq, hklow, hkhigh⟩ => ?_
    rw [hexact hklow hkhigh n _ hn53 heq]
    exact hcontains
  by_cases hnearlow : (d : ℚ) * 10 ^ k ≤ (binary32.interval m e).low + d * 10 ^ k * 5 / 2 ^ 54
  · have hcoarse := hgrid (.inl hnearlow)
    refine hmet a (.inl rfl) ?_ (by linarith)
    rw [← hends.low, abs_le]
    constructor <;> linarith
  · by_cases hnearhigh : (binary32.interval m e).high ≤ d * 10 ^ k + d * 10 ^ k * 5 / 2 ^ 54
    · have hcoarse := hgrid (.inr hnearhigh)
      refine hmet b (.inr rfl) ?_ (by linarith)
      rw [← hends.high, abs_le]
      constructor <;> linarith
    · exact .inl (Interval.contains_of_between (by linarith) (by linarith))

end Widgetry.Number
