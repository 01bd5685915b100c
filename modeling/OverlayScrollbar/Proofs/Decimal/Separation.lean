import Mathlib.Algebra.Order.Ring.Abs
import Mathlib.Tactic.Linarith
import Mathlib.Tactic.LinearCombination
import Mathlib.Tactic.Ring
import OverlayScrollbar.Decimal.Shortest

/-!
# Decimals near the boundaries of single precision

Between two neighbours of single precision lies a boundary, at an odd multiple of half a step. A
decimal of a coarse enough grid is either the boundary itself or keeps a distance from it, which is a
question about a multiple of one number modulo another. For each length of a step a multiplier settles
it: one that brings the multiples close to zero while an odd multiple of the modulus remains odd.

- `coarse`           : the finest grid with steps no shorter than those of single precision
- `Apart`            : what is asked of a grid
- `apart_of_multiplier` : how a multiplier settles it
- `apart_or_hit`     : all grids, with the one decimal that comes close to a boundary

Main statement: `apart_or_hit`.
-/

namespace OverlayScrollbar

namespace Separation

/-! ## Grids -/

/-- The first power of ten that is not below a step of `2 ^ k` units. -/
def coarse (k : Nat) : Int :=
  -((149 - (k : Int)) * 30103 / 100000)

/-- The power of ten of a grid is `stepNum exponent / stepDen exponent k` steps of `2 ^ k` units. -/
def stepNum (exponent : Int) : Nat :=
  10 ^ exponent.toNat * 2 ^ 149

def stepDen (exponent : Int) (k : Nat) : Nat :=
  10 ^ (-exponent).toNat * 2 ^ k

theorem stepNum_pos (exponent : Int) : 0 < stepNum exponent :=
  Nat.mul_pos (Nat.pow_pos (by decide)) (Nat.two_pow_pos _)

theorem stepDen_pos (exponent : Int) (k : Nat) : 0 < stepDen exponent k :=
  Nat.mul_pos (Nat.pow_pos (by decide)) (Nat.two_pow_pos _)

/-- The lengths of three grids: the coarse one, the one below it, which is clearly finer, and the one
below that. -/
theorem coarse_spec : ∀ k < 254, stepDen (coarse k) k ≤ stepNum (coarse k) ∧
    2 ^ 27 * stepNum (coarse k - 1) ≤ (2 ^ 27 - 1) * stepDen (coarse k - 1) k ∧
    4 * stepNum (coarse k - 2) < 3 * stepDen (coarse k - 2) k ∧
    stepDen (coarse k - 2) k ≤ 100 * stepNum (coarse k - 2) ∧
    -46 ≤ coarse k - 2 ∧ coarse k ≤ 39 := by
  decide +kernel

/-! ## Multipliers -/

/-- A multiple of a grid's step is at some number of quarter steps of single precision, or at least the
`2 ^ 28`th part of a step away. -/
def Apart (num den f quarters : Int) : Prop :=
  4 * f * num = quarters * den ∨ den ≤ 2 ^ 26 * |4 * f * num - quarters * den|

/-- What a multiplier must fulfil for the multiples from `lo` to `hi`. -/
def Settles (num den lo hi s t : Int) : Prop :=
  let p := (2 * s * num + den) / (2 * den)
  let r := 2 * s * num - 2 * p * den
  0 < s ∧ (t - s) % 2 = 0 ∧ 2 ^ 27 * (t * den) ≤ -(s * den) - 2 ^ 27 * max (lo * r) (hi * r) ∧
    s * den - 2 ^ 27 * min (lo * r) (hi * r) ≤ 2 ^ 27 * ((t + 2) * den)

instance (num den lo hi s t : Int) : Decidable (Settles num den lo hi s t) :=
  inferInstanceAs (Decidable (_ ∧ _))

theorem mul_mem_of_mem {f lo hi : Int} (hlo : lo ≤ f) (hhi : f ≤ hi) (r : Int) :
    min (lo * r) (hi * r) ≤ f * r ∧ f * r ≤ max (lo * r) (hi * r) := by
  rcases le_total 0 r with hr | hr
  · exact ⟨min_le_of_left_le (mul_le_mul_of_nonneg_right hlo hr),
      le_max_of_le_right (mul_le_mul_of_nonneg_right hhi hr)⟩
  · exact ⟨min_le_of_right_le (mul_le_mul_of_nonpos_right hhi hr),
      le_max_of_le_left (mul_le_mul_of_nonpos_right hlo hr)⟩

/-- The multiplier turns the distance into a multiple of the modulus that has its own parity, and that
is strictly between two such multiples. -/
theorem apart_of_multiplier {num den lo hi s t f quarters : Int} (hden : 0 < den)
    (hs : Settles num den lo hi s t) (hlo : lo ≤ f) (hhi : f ≤ hi) (hodd : quarters % 4 = 2) :
    Apart num den f quarters := by
  obtain ⟨half, rfl⟩ : ∃ half, quarters = 2 * (2 * half + 1) := ⟨quarters / 4, by omega⟩
  unfold Settles at hs
  dsimp only at hs
  generalize (2 * s * num + den) / (2 * den) = p at hs
  obtain ⟨r, hr⟩ : ∃ r, r = 2 * s * num - 2 * p * den := ⟨_, rfl⟩
  rw [← hr] at hs
  rcases hs with ⟨hpos, hparity, hbelow, habove⟩
  rcases mul_mem_of_mem hlo hhi r with ⟨hmin, hmax⟩
  right
  by_contra hclose
  rw [not_le] at hclose
  obtain ⟨w, hw⟩ : ∃ w, w = 2 * f * num - (2 * half + 1) * den := ⟨_, rfl⟩
  have hdouble : 4 * f * num - 2 * (2 * half + 1) * den = 2 * w := by
    rw [hw]
    ring
  rw [hdouble] at hclose
  have hproduct : s * w - f * r = (2 * f * p - s * (2 * half + 1)) * den := by
    rw [hw, hr]
    ring
  have hsmall : |2 ^ 27 * (s * w)| < s * den := by
    calc
      |2 ^ 27 * (s * w)| = s * (2 ^ 26 * |2 * w|) := by
        rw [abs_mul, abs_mul, abs_mul, abs_of_pos hpos, abs_of_pos (by norm_num : (0 : Int) < 2 ^ 27),
          abs_of_pos (by norm_num : (0 : Int) < 2)]
        ring
      _ < s * den := mul_lt_mul_of_pos_left hclose hpos
  rcases abs_lt.1 hsmall with ⟨hleft, hright⟩
  -- The multiplied distance is a multiple of the modulus and a small rest; the multiple is pinned
  -- down to lie between two others of its parity.
  obtain ⟨j, hj⟩ : ∃ j, j = 2 * f * p - s * (2 * half + 1) := ⟨_, rfl⟩
  rw [← hj] at hproduct
  have hlower : t * den < j * den := by
    rw [← hproduct]
    linarith
  have hupper : j * den < (t + 2) * den := by
    rw [← hproduct]
    linarith
  have htj := lt_of_mul_lt_mul_right hlower hden.le
  have hjt := lt_of_mul_lt_mul_right hupper hden.le
  have hsame : j - s = 2 * (f * p - s * half - s) := by
    rw [hj]
    ring
  omega

/-- A grid on which half a step has a small denominator. -/
theorem apart_of_dvd {num den : Int} (h : den ∣ 2 ^ 28 * num) (f quarters : Int) :
    Apart num den f quarters := by
  rcases eq_or_ne (4 * f * num) (quarters * den) with heq | hne
  · exact Or.inl heq
  · right
    have hdvd : den ∣ 2 ^ 26 * (4 * f * num - quarters * den) := by
      have hsplit : 2 ^ 26 * (4 * f * num - quarters * den) =
          f * (2 ^ 28 * num) - 2 ^ 26 * quarters * den := by
        ring
      rw [hsplit]
      exact dvd_sub (dvd_mul_of_dvd_right h f) (dvd_mul_left den _)
    have hle := Int.le_of_dvd (abs_pos.2 (mul_ne_zero (by norm_num) (sub_ne_zero.2 hne)))
      ((dvd_abs _ _).2 hdvd)
    rwa [abs_mul, abs_of_pos (by norm_num : (0 : Int) < 2 ^ 26)] at hle

/-- Around a multiple that comes close to a boundary no other one does. -/
theorem apart_of_hit {num den f quarters s p : Int} (f' quarters' : Int) (hden : 0 < den)
    (hhit : 2 ^ 26 * |4 * f' * num - quarters' * den| < den) (hodd' : quarters' % 4 = 2)
    (hcoprime : s.gcd p = 1) {reach : Int} (hs : reach < s)
    (hsettles : s * den + 2 ^ 27 * (reach * |s * num - p * den|) ≤ 2 ^ 27 * den)
    (hreach : |f - f'| ≤ reach) (hodd : quarters % 4 = 2) :
    f = f' ∨ Apart num den f quarters := by
  by_contra hnot
  rcases not_or.1 hnot with ⟨hne, hclose⟩
  replace hclose := not_le.1 (not_or.1 hclose).2
  obtain ⟨n, hn⟩ : ∃ n, quarters - quarters' = 4 * n := ⟨(quarters - quarters') / 4, by omega⟩
  obtain ⟨d, hd⟩ : ∃ d, d = f - f' := ⟨_, rfl⟩
  obtain ⟨x, hx⟩ : ∃ x, x = d * num - n * den := ⟨_, rfl⟩
  obtain ⟨r, hr⟩ : ∃ r, r = s * num - p * den := ⟨_, rfl⟩
  have hpos : 0 < s := lt_of_le_of_lt ((abs_nonneg _).trans hreach) hs
  -- Two close multiples differ by a small one.
  have hdiff : 4 * x = (4 * f * num - quarters * den) - (4 * f' * num - quarters' * den) := by
    rw [hx, hd]
    linear_combination den * hn
  have hsmall : 2 ^ 27 * |x| < den := by
    have habs := abs_sub (4 * f * num - quarters * den) (4 * f' * num - quarters' * den)
    rw [← hdiff, abs_mul, abs_of_pos (by norm_num : (0 : Int) < 4)] at habs
    linarith
  have hproduct : (d * p - s * n) * den = s * x - d * r := by
    rw [hx, hr]
    ring
  have hfactor : |d * p - s * n| < 1 := by
    apply lt_of_mul_lt_mul_right _ (mul_pos (by norm_num : (0 : Int) < 2 ^ 27) hden).le
    calc
      |d * p - s * n| * (2 ^ 27 * den) = 2 ^ 27 * |s * x - d * r| := by
        rw [← hproduct, abs_mul, abs_of_pos hden]
        ring
      _ ≤ 2 ^ 27 * (|s * x| + |d * r|) := by
        linarith [abs_sub (s * x) (d * r)]
      _ = s * (2 ^ 27 * |x|) + 2 ^ 27 * (|d| * |r|) := by
        rw [abs_mul, abs_mul, abs_of_pos hpos]
        ring
      _ < s * den + 2 ^ 27 * (reach * |r|) := by
        have hfirst := mul_lt_mul_of_pos_left hsmall hpos
        have hsecond := mul_le_mul_of_nonneg_right (hd ▸ hreach) (abs_nonneg r)
        linarith
      _ ≤ 1 * (2 ^ 27 * den) := by
        rw [one_mul, hr]
        exact hsettles
  -- A whole number below one in size is zero, and a common factor of the multiplier is none.
  have hzero : d * p = s * n := by
    have hnone := Int.abs_lt_one_iff.1 hfactor
    linarith
  have hdvd : s ∣ d := Int.dvd_of_dvd_mul_left_of_gcd_one ⟨n, hzero⟩ hcoprime
  have hnone := Int.eq_zero_of_abs_lt_dvd hdvd (lt_of_le_of_lt (hd ▸ hreach) hs)
  omega

/-! ## All grids -/

/-- The multipliers of the coarse grids for steps of `2 ^ k` units; zero stands where none is
needed. -/
def multipliers : List Int :=
  [16568001, 16568001, 24540977, 474907, 474907, 474907, 474907, 474907, 14226947, 14226947,
    645063, 12936821, 12936821, 1039213, 1039213, 8278143, 76581713, 5382571, 5382571, 5382571,
    3556401, 5382571, 5382571, 999763, 5382571, 13225841, 23990983, 3813917, 10088533, 17716367,
    393845, 6594407, 6594407, 2303161, 2618237, 11200729, 11200729, 8019793, 8019793, 12791197,
    1285865, 7038531, 0, 5495493, 5495493, 5495493, 5495493, 4943203, 5495493, 5495493, 4169997,
    4169997, 4169997, 1187465, 4169997, 4169997, 2270053, 2270053, 2270053, 13669717, 305967,
    305967, 305967, 305967, 4427599, 4427599, 151199, 1375067, 1375067, 1375067, 1375067, 1375067,
    9559279, 1361829, 4111963, 6835621, 277661, 277661, 14504225, 15059547, 1234879, 9257857,
    20861237, 2295829, 2295829, 2295829, 2295829, 5090579, 5090579, 5090579, 5090579, 5090579,
    14033779, 3301939, 3301939, 10456499, 4732851, 4732851, 4732851, 6714445, 1342889, 10808591,
    13494369, 3773185, 5947999, 13494369, 4438725, 4438725, 10475821, 10475821, 6924841, 6924841,
    6924841, 6924841, 9765625, 9765625, 1953125, 1953125, 1953125, 1953125, 390625, 390625,
    390625, 78125, 78125, 78125, 15625, 15625, 15625, 15625, 3125, 3125, 3125, 625, 625, 625, 125,
    125, 125, 125, 25, 25, 25, 5, 5, 5, 0, 0, 0, 0, 0, 0, 0, 0, 0, 0, 0, 0, 0, 0, 0, 0, 0, 0, 0,
    0, 0, 0, 0, 0, 0, 0, 0, 0, 0, 0, 0, 0, 0, 0, 0, 0, 0, 0, 0, 0, 0, 0, 0, 0, 0, 702971,
    23739545, 1936025, 1936025, 1936025, 387205, 9108613, 9108613, 9108613, 9418377, 9418377,
    9418377, 1388053, 1388053, 11896489, 2934519, 2934519, 2934519, 2934519, 7503019, 7503019,
    19241095, 3848219, 26550695, 34247133, 1311217, 1311217, 1311217, 1311217, 1311217, 1311217,
    1311217, 1311217, 4155885, 4155885, 831177, 831177, 831177, 831177, 7606819, 7606819,
    41358803, 5229033, 20442671, 20442671, 4467303, 8461145, 8461145, 1692229, 2639151, 2639151,
    31205429, 825953, 14363785, 16015691, 1220851, 4524663, 16015691, 1393273, 1393273, 36211201,
    3898385, 3898385]

/-- The least and the largest multiple of the coarse grid among the numbers with steps of `2 ^ k`
units. -/
def least (k : Nat) : Int :=
  if k = 0 then 0 else (2 ^ 25 - 2) * stepDen (coarse k) k / (4 * stepNum (coarse k))

def largest (k : Nat) : Int :=
  2 ^ 24 * stepDen (coarse k) k / stepNum (coarse k)

theorem settled : ∀ k < 254, k = 42 ∨
    (stepDen (coarse k) k : Int) ∣ 2 ^ 28 * stepNum (coarse k) ∨
    ∃ t ∈ [-1, 1], Settles (stepNum (coarse k)) (stepDen (coarse k) k) (least k) (largest k)
      (multipliers.getD k 0) t := by
  decide +kernel

/-- The coarse grid of one length of steps has one multiple close to a boundary. -/
theorem apart_of_hit_coarse {f quarters : Int} (hlo : least 42 ≤ f) (hhi : f ≤ largest 42)
    (hodd : quarters % 4 = 2) :
    f = 7038531 ∨ Apart (stepNum (coarse 42)) (stepDen (coarse 42) 42) f quarters := by
  have hleast : least 42 = 5169878 := by decide +kernel
  have hlargest : largest 42 = 10339757 := by decide +kernel
  have hcoprime : (3790142 : Int).gcd 6149857 = 1 := by decide +kernel
  exact apart_of_hit 7038531 (2 * 22841339) (by decide +kernel) (by decide +kernel) (by decide)
    hcoprime (show (3301226 : Int) < _ by decide) (by decide +kernel) (abs_le.2 (by omega)) hodd

/-- Apart from one decimal, all of the coarse grids keep their distance from the boundaries. -/
theorem apart_or_hit {k : Nat} (hk : k < 254) {f : Int} (hlo : least k ≤ f) (hhi : f ≤ largest k) :
    k = 42 ∧ f = 7038531 ∨ ∀ quarters : Int, quarters % 4 = 2 →
      Apart (stepNum (coarse k)) (stepDen (coarse k) k) f quarters := by
  have hden : (0 : Int) < stepDen (coarse k) k := Int.natCast_pos.2 (stepDen_pos _ _)
  rcases settled k hk with rfl | hdvd | ⟨t, _, hsettles⟩
  · rcases eq_or_ne f 7038531 with hit | hne
    · exact Or.inl ⟨rfl, hit⟩
    · exact Or.inr fun quarters hodd => (apart_of_hit_coarse hlo hhi hodd).resolve_left hne
  · exact Or.inr fun quarters _ => apart_of_dvd hdvd f quarters
  · exact Or.inr fun quarters hodd => apart_of_multiplier hden hsettles hlo hhi hodd

/-! ## Powers of two -/

/-- All multiples of a step keep a distance from a boundary, or one of them is on it. -/
def Far (step bound den : Int) : Prop :=
  (bound % step = 0 ∨ den ≤ 2 ^ 26 * (bound % step)) ∧ den ≤ 2 ^ 26 * (step - bound % step)

instance (step bound den : Int) : Decidable (Far step bound den) :=
  inferInstanceAs (Decidable (_ ∧ _))

theorem apart_of_far {num den quarters : Int} (hnum : 0 < num)
    (h : Far (4 * num) (quarters * den) den) (f : Int) : Apart num den f quarters := by
  have hstep : 0 < 4 * num := by linarith
  have hsplit := Int.emod_add_mul_ediv (quarters * den) (4 * num)
  have hrest := Int.emod_nonneg (quarters * den) hstep.ne'
  have hless := Int.emod_lt_of_pos (quarters * den) hstep
  unfold Far at h
  unfold Apart
  generalize quarters * den / (4 * num) = below at *
  generalize quarters * den % (4 * num) = rest at *
  rw [← hsplit]
  have hdist : 4 * f * num - (rest + 4 * num * below) = 4 * num * (f - below) - rest := by ring
  rw [hdist]
  -- The nearest multiples are the last one below the boundary and the one after it.
  rcases lt_trichotomy f below with hless | rfl | hmore
  · right
    have hmul := mul_le_mul_of_nonneg_left (show f - below ≤ -1 by omega) hstep.le
    rw [abs_of_nonpos (by linarith)]
    linarith [h.2]
  · rcases h.1 with hnone | hfar
    · left
      rw [hnone]
      ring
    · right
      rw [sub_self, mul_zero, zero_sub, abs_neg, abs_of_nonneg hrest]
      exact hfar
  · right
    have hmul := mul_le_mul_of_nonneg_left (show 1 ≤ f - below by omega) hstep.le
    rw [abs_of_nonneg (by linarith)]
    linarith [h.2]

/-- The boundaries above and below a power of two, on a grid that is finer than the coarse one. -/
theorem far_power : ∀ k < 254, ∀ quarters ∈ [2 ^ 25 + 2, 2 ^ 25 - 1],
    Far (4 * stepNum (coarse k - 2)) (quarters * stepDen (coarse k - 2) k)
      (stepDen (coarse k - 2) k) := by
  decide +kernel

end Separation

end OverlayScrollbar
