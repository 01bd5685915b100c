import OverlayScrollbar.Proofs.Binary.Double
import OverlayScrollbar.Proofs.Json.Numeral

/-!
# Numbers that read back

The numeral of a single-precision number is read in double precision, by one multiplication or division
by a power of ten, and then rounded to single precision. That rounds three or four times, and still gives
the number back: the shortest decimal keeps so much distance from the ends of the interval that rounds to
the number that two roundings in double precision do not leave it. A decimal that is an end itself has few
digits and a small power of ten, so that it is read exactly.

- `Single.Significand`         : the whole number and the power of ten that a number is read from
- `Single.holds_of_near`       : a decimal with a distance from the ends
- `Single.exists_scale?_of_end` : a decimal that is an end
- `Single.exists_read_of_hit`  : the one decimal that is neither

Main statement: `Single.single?_numeral`.
-/

namespace OverlayScrollbar

open Separation

variable {size : Magnitude} {negative : Bool}

namespace Single

/-! ## How large a significand is -/

/-- What is known of the significand and the power of ten that a number is read from. -/
structure Significand (size : Magnitude) (significand : Nat) (exponent : Int) : Prop where
  pos : 0 < significand
  short : significand < 2 ^ 53
  exponent_small : exponent.natAbs ≤ 60
  /-- It is that of the shortest decimal, with zeros after it. -/
  shifted : ∃ zeros : Nat, significand = (shortest size).1 * 10 ^ zeros ∧
    exponent = (shortest size).2 - zeros ∧ zeros ≤ ((shortest size).2 + 1).toNat

/-- The value is that of the shortest decimal. -/
theorem Significand.value {significand : Nat} {exponent : Int}
    (h : Significand size significand exponent) :
    significand * 10 ^ exponent.toNat * 10 ^ (-(shortest size).2).toNat =
      (shortest size).1 * 10 ^ (shortest size).2.toNat * 10 ^ (-exponent).toNat := by
  rcases h.shifted with ⟨zeros, rfl, rfl, _⟩
  have hpowers : zeros + ((shortest size).2 - zeros).toNat + (-(shortest size).2).toNat =
      (shortest size).2.toNat + (-((shortest size).2 - zeros)).toNat := by omega
  rw [Nat.mul_assoc, Nat.mul_assoc, Nat.mul_assoc, ← Nat.pow_add, ← Nat.pow_add, ← Nat.pow_add,
    ← hpowers, ← Nat.add_assoc]

theorem roundBits_shortest (hpos : 0 < size.units) :
    roundBits 24 ((shortest size).1 * 10 ^ (shortest size).2.toNat * 2 ^ 149)
      (10 ^ (-(shortest size).2).toNat) = size.units :=
  Cell.roundBits_eq (held_singleCell hpos) (Nat.pow_pos (by decide))
    (Cell.holds_shortest (held_singleCell hpos) .toEven)

theorem shortest_pos (hpos : 0 < size.units) : 0 < (shortest size).1 := by
  have hholds := Cell.holds_shortest (held_singleCell hpos) .toEven
  have hnum := hholds.num_pos (held_singleCell hpos) (Nat.pow_pos (by decide))
  exact Nat.pos_of_mul_pos_right hnum

theorem shortest_exponent_le (hpos : 0 < size.units) : (shortest size).2 ≤ 39 := by
  have hsearch : shortest size = (singleCell size).search .toEven (149 + 39) :=
    if_neg (Nat.ne_of_gt hpos)
  have hle := ((singleCell size).search_exponent_le .toEven (149 + 39)).1
  have hscale : (singleCell size).scale = 149 := rfl
  rw [← hsearch, hscale] at hle
  omega

theorem shortest_lt (hpos : 0 < size.units) : (shortest size).1 < 2 ^ 31 := by
  rcases exists_shown hpos with ⟨steps, low, hshown, _⟩
  have hgrid := (clear_shortest hpos).1
  rcases coarse_spec (lowBits size) (lowBits_lt size) with ⟨_, _, _, hshort, _, _⟩
  have habove := (point_bounds hgrid hshown.low_le hshown.le_high).2
  have hnum := stepNum_pos (coarse (lowBits size) - 2)
  have hsteps := hshown.steps_lt
  have hten : 0 < 10 ^ ((shortest size).2 - (coarse (lowBits size) - 2)).toNat :=
    Nat.pow_pos (by decide)
  have hpoint := Nat.le_mul_of_pos_right (shortest size).1 hten
  apply Nat.lt_of_le_of_lt hpoint
  generalize (shortest size).1 * 10 ^ ((shortest size).2 - (coarse (lowBits size) - 2)).toNat = f at *
  generalize stepNum (coarse (lowBits size) - 2) = num at *
  generalize stepDen (coarse (lowBits size) - 2) (lowBits size) = den at *
  -- Two numbers next to each other are at most a hundred steps of this grid apart.
  have hbound : 4 * f * num ≤ 2 ^ 26 * 100 * num := by
    calc
      4 * f * num ≤ (4 * steps + 2) * den := habove
      _ ≤ 2 ^ 26 * (100 * num) := Nat.mul_le_mul (by omega) hshort
      _ = 2 ^ 26 * 100 * num := by ring
  have hcancelled := Nat.le_of_mul_le_mul_right hbound hnum
  omega

theorem significand_of_writes (hpos : 0 < size.units) {n : Numeral}
    (h : n.Writes (shortest size).1 (shortest size).2) :
    Significand size (digitsValue 10 (n.whole ++ n.fraction))
      (n.exponentValue - n.fraction.length) := by
  have hcoefficient := shortest_pos hpos
  have hlimit := shortest_lt hpos
  have hhigh := shortest_exponent_le hpos
  have hlow := (clear_shortest hpos).1
  rcases coarse_spec (lowBits size) (lowBits_lt size) with ⟨_, _, _, _, hgrid, _⟩
  rcases h.value with ⟨zeros, hvalue, hexponent, hzeros, hfew⟩
  rw [hvalue, hexponent]
  constructor
  · exact Nat.mul_pos hcoefficient (Nat.pow_pos (by decide))
  · rcases hfew with rfl | hfew
    · rw [Nat.pow_zero, Nat.mul_one]
      omega
    · omega
  · omega
  · exact ⟨zeros, rfl, rfl, hzeros⟩

/-! ## What is read in double precision -/

/-- The interval that rounds to a number, for quotients of units. -/
def unitCell (size : Magnitude) : Cell :=
  ⟨24, 0, size.units⟩

theorem roundBits_of_holds (hpos : 0 < size.units) {units scale : Nat}
    (h : (unitCell size).Holds units (2 ^ scale)) : roundBits 24 units (2 ^ scale) = size.units := by
  have hround := Cell.roundBits_eq (c := unitCell size) ⟨(by decide : 0 < 24), hpos, size.fits.2⟩
    (Nat.two_pow_pos scale) h
  unfold unitCell at hround
  dsimp only at hround
  rw [Nat.pow_zero, Nat.mul_one] at hround
  exact hround

/-- A distance from the ends of the interval is enough for what two roundings do. -/
theorem holds_of_near (hpos : 0 < size.units) {num den scaled wide : Nat}
    (hwide : 0 < wide) (hden : 0 < den)
    (hlow : (singleCell size).gap * den + 2 ^ 26 * ((singleCell size).lower * den) ≤
      2 ^ 26 * (4 * (num * 2 ^ 149)))
    (hhigh : (singleCell size).gap * den + 2 ^ 26 * (4 * (num * 2 ^ 149)) ≤
      2 ^ 26 * ((singleCell size).upper * den))
    (h : Near (2 ^ 52 + 1) 104 (scaled * den) (num * (2 ^ 149 * wide))) :
    (unitCell size).Holds scaled wide := by
  rcases quarters_cases hpos with ⟨steps, low, _, hlower, hupper, _, hsteps, _, hlow'⟩
  have hgap : (singleCell size).gap = 2 ^ lowBits size := rfl
  have hwhole : (unitCell size).lower = (singleCell size).lower ∧
      (unitCell size).upper = (singleCell size).upper := ⟨rfl, rfl⟩
  have hzero : (unitCell size).scale = 0 := rfl
  have hstep : 0 < (singleCell size).gap * den * wide :=
    Nat.mul_pos (Nat.mul_pos (Nat.two_pow_pos _) hden) hwide
  -- An end has at most 2 ^ 26 quarters of a step, so that a small part of it is a small part of a
  -- step.
  have hend : (singleCell size).upper * den * wide ≤
      (2 ^ 26 - 2) * ((singleCell size).gap * den * wide) := by
    rw [hupper, hgap, Nat.mul_assoc (4 * steps + 2), Nat.mul_assoc (4 * steps + 2)]
    exact Nat.mul_le_mul_right _ (by omega)
  have hbelow := Nat.mul_le_mul_right wide hlow
  have habove := Nat.mul_le_mul_right wide hhigh
  have hclose := h.mul 4
  have hnum : 4 * (num * (2 ^ 149 * wide)) = 4 * (num * 2 ^ 149) * wide := by ring
  have hshift : ∀ side, side * wide * den = side * den * wide := by
    intro side
    ring
  have hpoint : 4 * (scaled * 2 ^ 0) * den = 4 * (scaled * den) := by ring
  have hinside : (singleCell size).lower * wide < 4 * (scaled * 2 ^ 0) ∧
      4 * (scaled * 2 ^ 0) < (singleCell size).upper * wide := by
    unfold Near at hclose
    rw [hnum] at hclose
    rw [Nat.add_mul, Nat.mul_assoc (2 ^ 26), Nat.mul_assoc (2 ^ 26)] at hbelow habove
    constructor
    · apply Nat.lt_of_mul_lt_mul_right (a := den)
      rw [hpoint, hshift]
      omega
    · apply Nat.lt_of_mul_lt_mul_right (a := den)
      rw [hpoint, hshift]
      omega
  rw [Cell.holds_iff, hwhole.1, hwhole.2, hzero]
  exact hinside.imp Within.of_lt Within.of_lt

theorem holds_of_exact {num den scaled wide : Nat} (hwide : 0 < wide) (hden : 0 < den)
    (hholds : (singleCell size).Holds num den) (h : scaled * den = num * (2 ^ 149 * wide)) :
    (unitCell size).Holds scaled wide := by
  have hunits : (unitCell size).Holds (num * 2 ^ 149) den := by
    have hzero : (unitCell size).scale = 0 := rfl
    rw [Cell.holds_iff, hzero, Nat.pow_zero, Nat.mul_one]
    exact Cell.holds_iff.1 hholds
  refine hunits.of_eq hden ?_ hwide
  rw [Nat.mul_assoc]
  exact h.symm

/-- A power of five that divides a product by powers of two is not above the other factor. -/
theorem five_pow_le {n a b e : Nat} (hb : 0 < b) (h : 5 ^ n * a = b * 2 ^ e) : 5 ^ n ≤ b := by
  have hdvd : 5 ^ n ∣ b * 2 ^ e := Dvd.intro _ h
  have hcoprime : Nat.Coprime (5 ^ n) (2 ^ e) := Nat.Coprime.pow n e (by decide)
  exact Nat.le_of_dvd hb (hcoprime.dvd_of_dvd_mul_right hdvd)

theorem lt_of_five_pow {n b : Nat} (h : 5 ^ n ≤ b) (hb : b < 2 ^ 31) : n < 14 := by
  apply Nat.lt_of_not_le
  intro hle
  have hpow : 5 ^ 14 ≤ 5 ^ n := Nat.pow_le_pow_right (by decide) hle
  omega

/-- A decimal that is an end of the interval is the product or quotient of two short numbers. -/
theorem exponent_of_end (hpos : 0 < size.units) {quarters k : Nat} (hsome : 0 < quarters)
    (hquarters : quarters < 2 ^ 26)
    (h : 4 * ((shortest size).1 * 10 ^ (shortest size).2.toNat * 2 ^ 149) =
      quarters * 2 ^ k * 10 ^ (-(shortest size).2).toNat) : (shortest size).2.natAbs < 14 := by
  have hcoefficient := shortest_pos hpos
  have hlimit := shortest_lt hpos
  generalize (shortest size).1 = coefficient at *
  generalize (shortest size).2 = exponent at *
  have hten : ∀ n, 10 ^ n = 5 ^ n * 2 ^ n := by
    intro n
    rw [← Nat.mul_pow]
  -- Powers of five cannot be made from powers of two: they must divide a number that is short.
  rcases Int.lt_or_le exponent 0 with hless | hge
  · have hwhole : exponent.toNat = 0 := by omega
    have hplaces : (-exponent).toNat = exponent.natAbs := by omega
    rw [hwhole, hplaces, hten exponent.natAbs, Nat.pow_zero, Nat.mul_one] at h
    apply lt_of_five_pow _ hlimit
    apply five_pow_le (e := 151) hcoefficient (a := quarters * 2 ^ k * 2 ^ exponent.natAbs)
    rw [Nat.pow_add 2 2 149]
    linarith
  · have hplaces : (-exponent).toNat = 0 := by omega
    have hwhole : exponent.toNat = exponent.natAbs := by omega
    rw [hwhole, hplaces, hten exponent.natAbs, Nat.pow_zero, Nat.mul_one] at h
    apply lt_of_five_pow (b := quarters) _ (by omega)
    apply five_pow_le (e := k) hsome (a := 4 * coefficient * 2 ^ exponent.natAbs * 2 ^ 149)
    rw [← h]
    ring

/-- A decimal that is an end of the interval is read without rounding. -/
theorem exists_scale?_of_end {significand quarters k : Nat} {exponent : Int}
    (hs : Significand size significand exponent) (hsmall : exponent.natAbs ≤ 22)
    (hquarters : quarters < 2 ^ 26)
    (h : 4 * ((shortest size).1 * 10 ^ (shortest size).2.toNat * 2 ^ 149) =
      quarters * 2 ^ k * 10 ^ (-(shortest size).2).toNat) {scale : Nat}
    (hone : DoubleSize.unitsPerOne = 2 ^ 149 * 2 ^ scale) (hscale : 2 ≤ scale) (fuel : Nat) :
    ∃ d, Numeral.scale? (fuel + 1) ⟨significand * DoubleSize.unitsPerOne⟩ exponent = some d ∧
      d.units * 10 ^ (-(shortest size).2).toNat =
        (shortest size).1 * 10 ^ (shortest size).2.toNat * (2 ^ 149 * 2 ^ scale) := by
  have hden : 0 < 10 ^ (-(shortest size).2).toNat := Nat.pow_pos (by decide)
  have hvalue := hs.value
  generalize (shortest size).1 * 10 ^ (shortest size).2.toNat = num at *
  generalize 10 ^ (-(shortest size).2).toNat = den at *
  obtain ⟨rest, rfl⟩ := Nat.exists_eq_add_of_le hscale
  have hexact : quarters * 2 ^ (k + rest) * den = num * (2 ^ 149 * 2 ^ (2 + rest)) := by
    rw [Nat.pow_add 2 2 rest, Nat.pow_add]
    calc
      quarters * (2 ^ k * 2 ^ rest) * den = quarters * 2 ^ k * den * 2 ^ rest := by ring
      _ = num * (2 ^ 149 * (2 ^ 2 * 2 ^ rest)) := by
        rw [← h]
        ring
  refine ⟨⟨quarters * 2 ^ (k + rest)⟩, ?_, hexact⟩
  apply Numeral.scale?_exact hs.short hsmall (dvd_of_short (by decide) (by omega) _)
  apply Nat.eq_of_mul_eq_mul_right hden
  calc
    quarters * 2 ^ (k + rest) * 10 ^ (-exponent).toNat * den =
        quarters * 2 ^ (k + rest) * den * 10 ^ (-exponent).toNat := Nat.mul_right_comm _ _ _
    _ = num * 10 ^ (-exponent).toNat * (2 ^ 149 * 2 ^ (2 + rest)) := by
      rw [hexact, Nat.mul_right_comm]
    _ = significand * 10 ^ exponent.toNat * DoubleSize.unitsPerOne * den := by
      rw [← hvalue, hone, Nat.mul_right_comm]

/-- What two roundings make of a number whose shortest decimal is clear of the ends. -/
theorem exists_scale?_near {significand : Nat} {exponent : Int}
    (hs : Significand size significand exponent) {scale : Nat}
    (hone : DoubleSize.unitsPerOne = 2 ^ 149 * 2 ^ scale) (fuel : Nat) :
    ∃ d, Numeral.scale? (fuel + 1) ⟨significand * DoubleSize.unitsPerOne⟩ exponent = some d ∧
      Near (2 ^ 52 + 1) 104 (d.units * 10 ^ (-(shortest size).2).toNat)
        ((shortest size).1 * 10 ^ (shortest size).2.toNat * (2 ^ 149 * 2 ^ scale)) := by
  rcases Numeral.exists_scale? hs.pos hs.short hs.exponent_small fuel with ⟨d, hd, hnear⟩
  refine ⟨d, hd, ?_⟩
  have hvalue := hs.value
  have hscaled := hnear.mul (10 ^ (-(shortest size).2).toNat)
  generalize (shortest size).1 * 10 ^ (shortest size).2.toNat = num at *
  generalize 10 ^ (-(shortest size).2).toNat = den at *
  -- Both sides are brought to one denominator, which is then cancelled.
  apply Near.cancel (c := 10 ^ (-exponent).toNat) (Nat.pow_pos (by decide))
  have hleft : 10 ^ (-exponent).toNat * (d.units * den) =
      den * (d.units * 10 ^ (-exponent).toNat) := by ring
  have hright : 10 ^ (-exponent).toNat * (num * (2 ^ 149 * 2 ^ scale)) =
      den * (significand * 10 ^ exponent.toNat * DoubleSize.unitsPerOne) := by
    calc
      10 ^ (-exponent).toNat * (num * (2 ^ 149 * 2 ^ scale)) =
          num * 10 ^ (-exponent).toNat * (2 ^ 149 * 2 ^ scale) := by ring
      _ = den * (significand * 10 ^ exponent.toNat * DoubleSize.unitsPerOne) := by
        rw [← hvalue, hone]
        ring
  rw [hleft, hright]
  exact hscaled

theorem exists_scale?_of_clear (hpos : 0 < size.units) {significand : Nat} {exponent : Int}
    (hs : Significand size significand exponent)
    (hsmall : (shortest size).2.natAbs < 14 → exponent.natAbs ≤ 22)
    (hclear : (singleCell size).Clear ((shortest size).1 * 10 ^ (shortest size).2.toNat)
      (10 ^ (-(shortest size).2).toNat)) {scale : Nat}
    (hone : DoubleSize.unitsPerOne = 2 ^ 149 * 2 ^ scale) (hscale : 2 ≤ scale) (fuel : Nat) :
    ∃ d, Numeral.scale? (fuel + 1) ⟨significand * DoubleSize.unitsPerOne⟩ exponent = some d ∧
      (unitCell size).Holds d.units (2 ^ scale) := by
  have hden : 0 < 10 ^ (-(shortest size).2).toNat := Nat.pow_pos (by decide)
  rcases quarters_cases hpos with ⟨steps, low, _, hlower, hupper, hsome, hsteps, _, hlow⟩
  have hcell : (singleCell size).scale = 149 := rfl
  -- At an end of the interval nothing may be lost, so that the decimal has to be read without
  -- rounding.
  have hends : (∃ quarters, 0 < quarters ∧ quarters < 2 ^ 26 ∧
      4 * ((shortest size).1 * 10 ^ (shortest size).2.toNat * 2 ^ 149) =
        quarters * 2 ^ lowBits size * 10 ^ (-(shortest size).2).toNat) →
      ∃ d, Numeral.scale? (fuel + 1) ⟨significand * DoubleSize.unitsPerOne⟩ exponent = some d ∧
        (unitCell size).Holds d.units (2 ^ scale) := by
    rintro ⟨quarters, hquarters, hfew, hend⟩
    rcases exists_scale?_of_end hs (hsmall (exponent_of_end hpos hquarters hfew hend)) hfew hend hone
      hscale fuel with ⟨d, hd, hexact⟩
    exact ⟨d, hd, holds_of_exact (Nat.two_pow_pos scale) hden
      (Cell.holds_shortest (held_singleCell hpos) .toEven) hexact⟩
  rcases hclear.lower with hend | hbelow
  · rw [hlower, hcell] at hend
    exact hends ⟨low, by omega, by omega, hend⟩
  · rcases hclear.upper with hend | habove
    · rw [hupper, hcell] at hend
      exact hends ⟨4 * steps + 2, by omega, by omega, hend⟩
    · rw [hcell] at hbelow habove
      rcases exists_scale?_near hs hone fuel with ⟨d, hd, hnear⟩
      exact ⟨d, hd, holds_of_near hpos (Nat.two_pow_pos scale) hden hbelow habove hnear⟩

/-! ## Numerals that read back -/

/-- The one decimal that comes near to an end. -/
theorem shortest_of_hit {exponent : Int} {coefficient : Nat} (hgrid : -32 ≤ exponent)
    (h : coefficient * 10 ^ (exponent - -32).toNat = 7038531) :
    coefficient = 7038531 ∧ exponent = -32 := by
  rcases Nat.eq_zero_or_pos (exponent - -32).toNat with hnone | hsome
  · rw [hnone, Nat.pow_zero, Nat.mul_one] at h
    omega
  · -- It does not end in a zero.
    obtain ⟨more, hmore⟩ : ∃ more, (exponent - -32).toNat = more + 1 :=
      ⟨(exponent - -32).toNat - 1, by omega⟩
    rw [hmore, Nat.pow_succ, ← Nat.mul_assoc] at h
    omega

/-- It is still read as its number. -/
theorem exists_read_of_hit : ∃ d,
    (DoubleSize.ofRatio? 7038531 1).bind (Numeral.scale? 4 · (-32)) = some d ∧
      roundBits 24 d.units (2 ^ 925) = roundBits 24 (7038531 * 2 ^ 149) (10 ^ 32) := by
  have hread : ((DoubleSize.ofRatio? 7038531 1).bind (Numeral.scale? 4 · (-32))).any
      (fun d => roundBits 24 d.units (2 ^ 925) == roundBits 24 (7038531 * 2 ^ 149) (10 ^ 32)) =
        true := by
    decide +kernel
  rcases (Option.any_eq_true _ _).1 hread with ⟨d, hd, hsame⟩
  exact ⟨d, hd, beq_iff_eq.1 hsame⟩

theorem ofDouble_eq {d : DoubleSize} (h : roundBits 24 d.units (2 ^ 925) = size.units) :
    ofDouble negative d = .finite negative size := by
  have hlimit : roundBits 24 d.units (2 ^ 925) < unitLimit := h ▸ size.fits.1
  unfold ofDouble round
  rw [dif_pos hlimit]
  rcases size with ⟨units, fits⟩
  simp only [h]

theorem unitsPerOne_split : DoubleSize.unitsPerOne = 2 ^ 149 * 2 ^ 925 := by
  have hsplit : ∀ a b c : Nat, c = a + b → 2 ^ c = 2 ^ a * 2 ^ b := by
    rintro a b c rfl
    exact Nat.pow_add 2 a b
  exact hsplit 149 925 1074 rfl

/-- What is read in double precision for the numeral of a number. -/
theorem exists_double?_of_writes (hpos : 0 < size.units) (negative : Bool) {n : Numeral}
    (h : n.Writes (shortest size).1 (shortest size).2) :
    ∃ d, n.double? = some d ∧ ofDouble negative d = .finite negative size := by
  have hs := significand_of_writes hpos h
  rcases hs.shifted with ⟨zeros, hvalue, hexponent, hzeros⟩
  unfold Numeral.double?
  rw [Numeral.parts_eq (Nat.lt_trans hs.short (by decide))]
  dsimp only
  -- All decimals but one are far enough from the ends of their interval.
  rcases (clear_shortest hpos).2 with hclear | ⟨_, hgrid, hit⟩
  · have hread := DoubleSize.ofRatio?_natural (e := 0) hs.short (by decide)
    rw [Nat.pow_zero, Nat.mul_one] at hread
    rcases exists_scale?_of_clear hpos hs (by omega) hclear unitsPerOne_split (by decide) 3 with
      ⟨d, hd, hholds⟩
    rw [hread]
    exact ⟨d, hd, ofDouble_eq (roundBits_of_holds hpos hholds)⟩
  · rcases shortest_of_hit hgrid hit with ⟨hcoefficient, hplaces⟩
    have hround := roundBits_shortest hpos
    have hnone : zeros = 0 := by omega
    rw [hnone, Nat.pow_zero, Nat.mul_one, hcoefficient] at hvalue
    rw [hnone, hplaces] at hexponent
    rw [hcoefficient, hplaces] at hround
    rw [hvalue, hexponent]
    rcases exists_read_of_hit with ⟨d, hd, hsame⟩
    exact ⟨d, hd, ofDouble_eq (hsame.trans hround)⟩

theorem numeral_of_zero (negative : Bool) (hzero : size.units = 0) :
    numeral negative size = ⟨negative, ['0'], ['0'], none⟩ := by
  have hshortest : shortest size = (0, 0) := if_pos hzero
  unfold numeral
  rw [hshortest]
  rfl

/-- The numeral of a number is read as that number. -/
theorem single?_numeral (negative : Bool) (size : Magnitude) :
    (numeral negative size).single? = some (.finite negative size) := by
  rcases writes_numeral negative size with ⟨hnegative, hwrites⟩
  have hdouble : ∃ d, (numeral negative size).double? = some d ∧
      ofDouble negative d = .finite negative size := by
    -- Zero has no interval, so that its numeral is read by itself.
    rcases Nat.eq_zero_or_pos size.units with hzero | hpos
    · have hread : Numeral.double? ⟨negative, ['0'], ['0'], none⟩ = some ⟨0⟩ := by
        cases negative
        · decide +kernel
        · decide +kernel
      rw [numeral_of_zero negative hzero]
      refine ⟨_, hread, ofDouble_eq ?_⟩
      rw [hzero]
      exact Nat.eq_zero_of_le_zero (roundBits_le (by decide) (Nat.dvd_zero _) (Nat.zero_le _))
    · exact exists_double?_of_writes hpos negative hwrites
  rcases hdouble with ⟨d, hd, hsame⟩
  unfold Numeral.single?
  rw [hwrites.not_whole, hd, hnegative, Option.map_some, hsame]
  rfl

end Single

end OverlayScrollbar
