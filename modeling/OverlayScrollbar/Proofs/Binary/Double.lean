import Mathlib.Tactic.Linarith
import Mathlib.Tactic.Ring
import OverlayScrollbar.Json.Numeral
import OverlayScrollbar.Proofs.Binary.Rounding

/-!
# How exact double precision is

A result in double precision is off by a small part of itself. A significand that is scaled by a power of
ten is rounded up to three times, and what comes out is still close to the exact product or quotient; if
that is held in double precision, and the power of ten too, the result is exact.

- `Near`               : how far rounding may go
- `roundBits_near`     : rounding to some number of bits
- `DoubleSize.exists_round?` : a result that is in range
- `Numeral.exists_scale?` : a significand that is scaled by a power of ten

Main statement: `Numeral.exists_scale?`.
-/

namespace OverlayScrollbar

/-! ## Rounding -/

/-- The first number differs from the second one by at most so many `2 ^ p`th parts of it. -/
def Near (parts p a b : Nat) : Prop :=
  2 ^ p * a ≤ 2 ^ p * b + parts * b ∧ 2 ^ p * b ≤ 2 ^ p * a + parts * b

/-- What holds of products with one factor holds of the other factors. -/
theorem Near.cancel {parts p a b c : Nat} (hc : 0 < c) (h : Near parts p (c * a) (c * b)) :
    Near parts p a b := by
  unfold Near at h ⊢
  rw [Nat.mul_left_comm _ c, Nat.mul_left_comm _ c, Nat.mul_left_comm parts c, ← Nat.mul_add,
    ← Nat.mul_add] at h
  exact ⟨Nat.le_of_mul_le_mul_left h.1 hc, Nat.le_of_mul_le_mul_left h.2 hc⟩

theorem Near.mul {parts p a b : Nat} (c : Nat) (h : Near parts p a b) :
    Near parts p (c * a) (c * b) := by
  unfold Near at h ⊢
  rw [Nat.mul_left_comm _ c, Nat.mul_left_comm _ c, Nat.mul_left_comm parts c, ← Nat.mul_add,
    ← Nat.mul_add]
  exact ⟨Nat.mul_le_mul_left c h.1, Nat.mul_le_mul_left c h.2⟩

/-- Two roundings one after the other. -/
theorem Near.trans {a b c : Nat} (h : Near 1 53 a b) (h' : Near 1 53 b c) :
    Near (2 ^ 52 + 1) 104 a c := by
  unfold Near at *
  omega

/-- A quotient by a number that was rounded itself. -/
theorem Near.trans_div {a b c : Nat} (h : Near 1 53 a c) (h' : Near 1 53 a b) :
    Near (2 ^ 52 + 1) 104 b c := by
  unfold Near at *
  omega

theorem roundDiv_near {num den : Nat} (hden : 0 < den) :
    2 * (den * roundDiv num den) ≤ 2 * num + den ∧ 2 * num ≤ 2 * (den * roundDiv num den) + den := by
  have hsplit := Nat.div_add_mod num den
  have hrest := Nat.mod_lt num hden
  unfold roundDiv
  dsimp only
  split
  · omega
  · split
    · rw [Nat.mul_add_one]
      omega
    · -- A tie is half a step away from either neighbour.
      rcases Nat.mod_two_eq_zero_or_one (num / den) with heven | hodd
      · rw [heven, Nat.add_zero]
        omega
      · rw [hodd, Nat.mul_add_one]
        omega

/-- A quotient is rounded by at most half of the place of its last significant bit. -/
theorem roundBits_error (p num : Nat) {den : Nat} (hden : 0 < den) :
    2 * (den * roundBits p num den) ≤ 2 * num + den * 2 ^ excessBits p (num / den) ∧
      2 * num ≤ 2 * (den * roundBits p num den) + den * 2 ^ excessBits p (num / den) := by
  have hdiv : 0 < den * 2 ^ excessBits p (num / den) := Nat.mul_pos hden (Nat.two_pow_pos _)
  have hround : den * roundBits p num den = den * 2 ^ excessBits p (num / den) *
      roundDiv num (den * 2 ^ excessBits p (num / den)) := by
    unfold roundBits
    ring
  rw [hround]
  exact roundDiv_near hdiv

/-- A quotient with at least as many bits as are kept is rounded by a small part of itself. -/
theorem roundBits_near {p num den : Nat} (hp : 0 < p) (hden : 0 < den)
    (h : den * 2 ^ (p - 1) ≤ num) : Near 1 p (den * roundBits p num den) num := by
  -- The last bit that is kept is a small part of the number, which has the other bits above it.
  have hstep : den * 2 ^ excessBits p (num / den) * 2 ^ (p - 1) ≤ num := by
    rcases Nat.eq_zero_or_pos (excessBits p (num / den)) with hnone | hsome
    · rw [hnone, Nat.pow_zero, Nat.mul_one]
      exact h
    · have hleading := two_pow_le_of_excessBits hp hsome
      have hmul := Nat.mul_le_of_le_div _ _ _ hleading
      rw [Nat.pow_add] at hmul
      calc
        den * 2 ^ excessBits p (num / den) * 2 ^ (p - 1) =
            2 ^ (p - 1) * 2 ^ excessBits p (num / den) * den := by ring
        _ ≤ num := hmul
  have hpow : 2 ^ p = 2 * 2 ^ (p - 1) := by
    rw [← Nat.pow_succ']
    congr 1
    omega
  have herror := roundBits_error p num hden
  unfold Near
  rw [hpow, Nat.one_mul]
  generalize den * 2 ^ excessBits p (num / den) = step at *
  generalize den * roundBits p num den = rounded at *
  generalize 2 ^ (p - 1) = half at *
  constructor
  · nlinarith
  · nlinarith

/-- A number with few significant bits is held exactly. -/
theorem dvd_of_short {p a : Nat} (hp : 0 < p) (ha : a < 2 ^ p) (e : Nat) :
    2 ^ excessBits p (a * 2 ^ e) ∣ a * 2 ^ e := by
  have hlimit : a * 2 ^ e < 2 ^ (p + e) := by
    rw [Nat.pow_add]
    exact Nat.mul_lt_mul_of_pos_right ha (Nat.two_pow_pos e)
  exact Nat.dvd_trans (Nat.pow_dvd_pow 2 (excessBits_le_of_lt hp hlimit)) (Nat.dvd_mul_left _ _)

namespace DoubleSize

/-! ## Results in range -/

theorem two_pow_le_unitsPerOne {a : Nat} (h : a ≤ 1074) : 2 ^ a ≤ unitsPerOne := by
  unfold unitsPerOne
  generalize 1074 = scale at *
  exact Nat.pow_le_pow_right Nat.two_pos h

theorem unitsPerOne_pos : 0 < unitsPerOne :=
  Nat.lt_of_lt_of_le (Nat.two_pow_pos 0) (two_pow_le_unitsPerOne (Nat.zero_le _))

theorem mul_unitsPerOne_le_unitLimit {a : Nat} (h : a ≤ 1024) :
    2 ^ a * unitsPerOne ≤ unitLimit := by
  unfold unitLimit
  generalize 1024 = limit at *
  exact Nat.mul_le_mul_right _ (Nat.pow_le_pow_right Nat.two_pos h)

/-- A number of at most 53 bits, and its product by a power of two. -/
theorem dvd_unitsPerOne {n : Nat} (h : n < 2 ^ 53) (e : Nat) :
    2 ^ excessBits 53 (n * 2 ^ e * unitsPerOne) ∣ n * 2 ^ e * unitsPerOne := by
  unfold unitsPerOne
  generalize 1074 = scale
  rw [Nat.mul_assoc, ← Nat.pow_add]
  exact dvd_of_short (by decide) h _

/-- A quotient with enough bits is rounded to a size near to it. -/
theorem exists_round? {num den : Nat} (hden : 0 < den) (hlow : den * 2 ^ 52 ≤ num)
    (hhigh : 2 * num < den * unitLimit) :
    ∃ size, round? num den = some size ∧ Near 1 53 (den * size.units) num := by
  have hnear := roundBits_near (p := 53) (by decide) hden hlow
  refine ⟨⟨roundBits 53 num den⟩, ?_, hnear⟩
  unfold round?
  dsimp only
  rw [if_pos]
  apply Nat.lt_of_mul_lt_mul_left (a := den)
  unfold Near at hnear
  omega

theorem round?_exact {den units : Nat} (hden : 0 < den) (hlimit : units < unitLimit)
    (h : 2 ^ excessBits 53 units ∣ units) : round? (den * units) den = some ⟨units⟩ := by
  unfold round?
  dsimp only
  rw [roundBits_mul hden h, if_pos hlimit]

/-- A whole number that is not too large, and whose odd part has at most 53 bits. -/
theorem ofRatio?_natural {n e : Nat} (h : n < 2 ^ 53) (he : e ≤ 900) :
    ofRatio? (n * 2 ^ e) 1 = some ⟨n * 2 ^ e * unitsPerOne⟩ := by
  have hlimit : n * 2 ^ e * unitsPerOne < unitLimit := by
    calc
      n * 2 ^ e * unitsPerOne < 2 ^ 53 * 2 ^ e * unitsPerOne :=
        Nat.mul_lt_mul_of_pos_right (Nat.mul_lt_mul_of_pos_right h (Nat.two_pow_pos e))
          unitsPerOne_pos
      _ = 2 ^ (53 + e) * unitsPerOne := by rw [Nat.pow_add]
      _ ≤ unitLimit := mul_unitsPerOne_le_unitLimit (by omega)
  have hexact := round?_exact Nat.one_pos hlimit (dvd_unitsPerOne h e)
  rw [Nat.one_mul] at hexact
  exact hexact

end DoubleSize

namespace Numeral

open DoubleSize

/-! ## Powers of ten -/

theorem ten_pow_le (n : Nat) : 10 ^ n ≤ 2 ^ (4 * n) := by
  rw [Nat.pow_mul]
  exact Nat.pow_le_pow_left (by decide) n

theorem exists_powerOfTen? {n : Nat} (h : n ≤ 60) :
    ∃ power, powerOfTen? n = some power ∧ Near 1 53 power.units (10 ^ n * unitsPerOne) := by
  have hten : 0 < 10 ^ n := Nat.pow_pos (by decide)
  have hlow : 1 * 2 ^ 52 ≤ 10 ^ n * unitsPerOne := by
    rw [Nat.one_mul]
    exact Nat.le_trans (two_pow_le_unitsPerOne (by decide)) (Nat.le_mul_of_pos_left _ hten)
  have hhigh : 2 * (10 ^ n * unitsPerOne) < 1 * unitLimit := by
    have hpow : 10 ^ n ≤ 2 ^ 240 :=
      Nat.le_trans (ten_pow_le n) (Nat.pow_le_pow_right Nat.two_pos (by omega))
    have hmul := Nat.mul_le_mul_right unitsPerOne hpow
    have hlimit : 2 ^ 242 * unitsPerOne ≤ unitLimit := mul_unitsPerOne_le_unitLimit (by decide)
    have hone := unitsPerOne_pos
    omega
  rcases exists_round? Nat.one_pos hlow hhigh with ⟨power, hpower, hnear⟩
  rw [Nat.one_mul] at hnear
  exact ⟨power, hpower, hnear⟩

/-- The powers of ten that are held exactly. -/
theorem powerOfTen?_exact {n : Nat} (h : n ≤ 22) :
    powerOfTen? n = some ⟨10 ^ n * unitsPerOne⟩ := by
  have hfive : 5 ^ n < 2 ^ 53 :=
    Nat.lt_of_le_of_lt (Nat.pow_le_pow_right (by decide) h) (by decide)
  have hten : 10 ^ n = 5 ^ n * 2 ^ n := by rw [← Nat.mul_pow]
  unfold powerOfTen?
  rw [hten]
  exact ofRatio?_natural hfive (by omega)

/-! ## Scaling -/

theorem scale?_eq {exponent : Int} (h : exponent.natAbs ≤ 308) {power : DoubleSize}
    (hpower : powerOfTen? exponent.natAbs = some power) (fuel : Nat) (size : DoubleSize) :
    scale? (fuel + 1) size exponent =
      if 0 ≤ exponent then size.mul? power else size.div? power := by
  unfold scale?
  rw [if_pos h, hpower]
  rfl

variable {significand ten : Nat} {power : DoubleSize}

/-- A product is rounded twice, and so is a quotient. -/
theorem exists_mul? (hpos : 0 < significand) (hshort : significand < 2 ^ 53) (hten : 0 < ten)
    (hlarge : ten ≤ 2 ^ 240) (hpower : Near 1 53 power.units (ten * unitsPerOne)) :
    ∃ size, (⟨significand * unitsPerOne⟩ : DoubleSize).mul? power = some size ∧
      Near (2 ^ 52 + 1) 104 size.units (significand * (ten * unitsPerOne)) := by
  have hone : 2 ^ 400 ≤ unitsPerOne := two_pow_le_unitsPerOne (by decide)
  have hlimit : 2 ^ 400 * unitsPerOne ≤ unitLimit := mul_unitsPerOne_le_unitLimit (by decide)
  have hproduct := Nat.mul_le_mul_right unitsPerOne hlarge
  have hleast := Nat.le_mul_of_pos_left unitsPerOne hten
  have hnear := hpower
  unfold Near at hnear
  have hsmall : 2 ^ 52 ≤ significand * power.units :=
    Nat.le_trans (show 2 ^ 52 ≤ power.units by omega) (Nat.le_mul_of_pos_left _ hpos)
  have hhigh : 2 * (significand * power.units) < unitLimit := by
    have hmul := Nat.mul_le_mul (Nat.le_of_lt hshort)
      (show power.units ≤ 2 ^ 241 * unitsPerOne by omega)
    omega
  -- Both factors are counted in units, so that one of them is cancelled.
  have hnum : significand * unitsPerOne * power.units =
      unitsPerOne * (significand * power.units) := by ring
  have hlow : unitsPerOne * 2 ^ 52 ≤ significand * unitsPerOne * power.units := by
    rw [hnum]
    exact Nat.mul_le_mul_left _ hsmall
  have hrange : 2 * (significand * unitsPerOne * power.units) < unitsPerOne * unitLimit := by
    rw [hnum, Nat.mul_left_comm]
    exact Nat.mul_lt_mul_of_pos_left hhigh unitsPerOne_pos
  rcases exists_round? unitsPerOne_pos hlow hrange with ⟨size, hsize, hround⟩
  rw [hnum] at hround
  exact ⟨size, hsize, (hround.cancel unitsPerOne_pos).trans (hpower.mul significand)⟩

theorem exists_div? (hpos : 0 < significand) (hshort : significand < 2 ^ 53) (hten : 0 < ten)
    (hlarge : ten ≤ 2 ^ 240) (hpower : Near 1 53 power.units (ten * unitsPerOne)) :
    ∃ size, (⟨significand * unitsPerOne⟩ : DoubleSize).div? power = some size ∧
      Near (2 ^ 52 + 1) 104 (size.units * ten) (significand * unitsPerOne) := by
  have hone : 2 ^ 400 ≤ unitsPerOne := two_pow_le_unitsPerOne (by decide)
  have hlimit : 2 ^ 400 * unitsPerOne ≤ unitLimit := mul_unitsPerOne_le_unitLimit (by decide)
  have hproduct := Nat.mul_le_mul_right unitsPerOne hlarge
  have hleast := Nat.le_mul_of_pos_left unitsPerOne hten
  have hnear := hpower
  unfold Near at hnear
  have hlow : power.units * 2 ^ 52 ≤ significand * unitsPerOne * unitsPerOne := by
    calc
      power.units * 2 ^ 52 ≤ 2 ^ 400 * unitsPerOne := by omega
      _ ≤ significand * unitsPerOne * unitsPerOne :=
        Nat.mul_le_mul_right _ (Nat.le_trans hone (Nat.le_mul_of_pos_left _ hpos))
  have hhigh : 2 * (significand * unitsPerOne * unitsPerOne) < power.units * unitLimit := by
    calc
      2 * (significand * unitsPerOne * unitsPerOne) =
          2 * significand * unitsPerOne * unitsPerOne := by ring
      _ < 2 ^ 54 * unitsPerOne * unitsPerOne :=
        Nat.mul_lt_mul_of_pos_right (Nat.mul_lt_mul_of_pos_right (by omega) unitsPerOne_pos)
          unitsPerOne_pos
      _ = unitsPerOne * (2 ^ 54 * unitsPerOne) := Nat.mul_comm _ _
      _ ≤ 2 * power.units * (2 ^ 54 * unitsPerOne) := Nat.mul_le_mul_right _ (by omega)
      _ = power.units * (2 ^ 55 * unitsPerOne) := by ring
      _ ≤ power.units * unitLimit := Nat.mul_le_mul_left _ (by omega)
  rcases exists_round? (show 0 < power.units by omega) hlow hhigh with ⟨size, hsize, hround⟩
  refine ⟨size, hsize, ?_⟩
  -- The power of ten is rounded itself, so that the two errors are compared at its scale.
  have hscaled := hpower.mul size.units
  rw [Nat.mul_comm size.units power.units] at hscaled
  have hboth := hround.trans_div hscaled
  rw [← Nat.mul_assoc, Nat.mul_comm _ unitsPerOne, Nat.mul_comm _ unitsPerOne] at hboth
  exact hboth.cancel unitsPerOne_pos

/-- A significand that is scaled by a power of ten. -/
theorem exists_scale? (hpos : 0 < significand) (hshort : significand < 2 ^ 53) {exponent : Int}
    (hexponent : exponent.natAbs ≤ 60) (fuel : Nat) :
    ∃ size, scale? (fuel + 1) ⟨significand * unitsPerOne⟩ exponent = some size ∧
      Near (2 ^ 52 + 1) 104 (size.units * 10 ^ (-exponent).toNat)
        (significand * 10 ^ exponent.toNat * unitsPerOne) := by
  rcases exists_powerOfTen? hexponent with ⟨power, hpower, hnear⟩
  have hten : 0 < 10 ^ exponent.natAbs := Nat.pow_pos (by decide)
  have hlarge : 10 ^ exponent.natAbs ≤ 2 ^ 240 :=
    Nat.le_trans (ten_pow_le _) (Nat.pow_le_pow_right Nat.two_pos (by omega))
  rw [scale?_eq (by omega) hpower]
  -- A negative exponent divides, any other multiplies.
  split
  · rcases exists_mul? hpos hshort hten hlarge hnear with ⟨size, hsize, hclose⟩
    have hplaces : (-exponent).toNat = 0 := by omega
    have hwhole : exponent.natAbs = exponent.toNat := by omega
    refine ⟨size, hsize, ?_⟩
    rw [hplaces, Nat.pow_zero, Nat.mul_one, Nat.mul_assoc, ← hwhole]
    exact hclose
  · rcases exists_div? hpos hshort hten hlarge hnear with ⟨size, hsize, hclose⟩
    have hplaces : exponent.natAbs = (-exponent).toNat := by omega
    have hwhole : exponent.toNat = 0 := by omega
    refine ⟨size, hsize, ?_⟩
    rw [hwhole, Nat.pow_zero, Nat.mul_one, ← hplaces]
    exact hclose

/-- Where the power of ten is held exactly and the result is too, nothing is rounded. -/
theorem scale?_exact {units : Nat} (hshort : significand < 2 ^ 53) {exponent : Int}
    (hexponent : exponent.natAbs ≤ 22) (hunits : 2 ^ excessBits 53 units ∣ units)
    (h : units * 10 ^ (-exponent).toNat = significand * 10 ^ exponent.toNat * unitsPerOne)
    (fuel : Nat) : scale? (fuel + 1) ⟨significand * unitsPerOne⟩ exponent = some ⟨units⟩ := by
  -- A short significand times a short power stays far below the limit.
  have hlimit : units < unitLimit := by
    have hpow : 10 ^ exponent.toNat ≤ 2 ^ 88 :=
      Nat.le_trans (ten_pow_le _) (Nat.pow_le_pow_right Nat.two_pos (by omega))
    have hplaces : 0 < 10 ^ (-exponent).toNat := Nat.pow_pos (by decide)
    calc
      units ≤ significand * 10 ^ exponent.toNat * unitsPerOne :=
        h ▸ Nat.le_mul_of_pos_right _ hplaces
      _ ≤ significand * 2 ^ 88 * unitsPerOne :=
        Nat.mul_le_mul_right _ (Nat.mul_le_mul_left _ hpow)
      _ < 2 ^ 53 * 2 ^ 88 * unitsPerOne :=
        Nat.mul_lt_mul_of_pos_right (Nat.mul_lt_mul_of_pos_right hshort (Nat.two_pow_pos 88))
          unitsPerOne_pos
      _ = 2 ^ (53 + 88) * unitsPerOne := by rw [Nat.pow_add]
      _ ≤ unitLimit := mul_unitsPerOne_le_unitLimit (by decide)
  have hten : 0 < 10 ^ exponent.natAbs := Nat.pow_pos (by decide)
  rw [scale?_eq (by omega) (powerOfTen?_exact hexponent)]
  split
  · have hplaces : (-exponent).toNat = 0 := by omega
    have hwhole : exponent.toNat = exponent.natAbs := by omega
    rw [hplaces, hwhole, Nat.pow_zero, Nat.mul_one] at h
    have hnum : significand * unitsPerOne * (10 ^ exponent.natAbs * unitsPerOne) =
        unitsPerOne * units := by
      rw [h]
      ring
    unfold mul?
    dsimp only
    rw [hnum]
    exact round?_exact unitsPerOne_pos hlimit hunits
  · have hplaces : (-exponent).toNat = exponent.natAbs := by omega
    have hwhole : exponent.toNat = 0 := by omega
    rw [hplaces, hwhole, Nat.pow_zero, Nat.mul_one] at h
    have hnum : significand * unitsPerOne * unitsPerOne =
        10 ^ exponent.natAbs * unitsPerOne * units := by
      rw [← h]
      ring
    unfold div?
    dsimp only
    rw [hnum]
    exact round?_exact (Nat.mul_pos hten unitsPerOne_pos) hlimit hunits

end Numeral

end OverlayScrollbar
