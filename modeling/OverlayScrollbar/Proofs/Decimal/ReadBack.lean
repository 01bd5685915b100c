import OverlayScrollbar.Proofs.Decimal.Cell
import OverlayScrollbar.Proofs.Decimal.Digits
import OverlayScrollbar.Proofs.Single.Whole

/-!
# Decimals of double precision that read back

A single-precision number is held exactly in double precision. The shortest decimal there, written
without an exponent, is read as the number that it was made from.

- `Single.doubleCell`        : the interval of a number in double precision
- `Decimal.double?_of_holds` : a decimal in that interval is read as the number
- `Decimal.double?_of_positional` : the shortest decimal, as it is written
-/

namespace OverlayScrollbar

variable {size : Magnitude}

namespace Single

/-- The interval that rounds to a number in double precision. -/
def doubleCell (size : Magnitude) : Cell :=
  ⟨53, 1074, (doubleSize size).units⟩

/-- A format with more bits holds the number too, however small its unit is. -/
theorem held_shifted (hpos : 0 < size.units) {bits : Nat} (hbits : 24 ≤ bits) (scale more : Nat) :
    (⟨bits, scale, size.units * 2 ^ more⟩ : Cell).Held := by
  refine ⟨Nat.lt_of_lt_of_le (by decide) hbits, Nat.mul_pos hpos (Nat.two_pow_pos more), ?_⟩
  have hlimit : size.units * 2 ^ more < 2 ^ (bits + (excessBits 24 size.units + more)) := by
    calc
      size.units * 2 ^ more < 2 ^ (24 + excessBits 24 size.units) * 2 ^ more :=
        Nat.mul_lt_mul_of_pos_right (lt_two_pow_excessBits 24 size.units) (Nat.two_pow_pos more)
      _ = 2 ^ (24 + excessBits 24 size.units + more) := (Nat.pow_add 2 _ _).symm
      _ ≤ 2 ^ (bits + (excessBits 24 size.units + more)) :=
        Nat.pow_le_pow_right Nat.two_pos (by omega)
  -- The shift adds as many low bits as the number is longer.
  have hexcess := excessBits_le_of_lt (Nat.lt_of_lt_of_le (by decide) hbits) hlimit
  refine Nat.dvd_trans (Nat.pow_dvd_pow 2 hexcess) ?_
  rw [Nat.pow_add]
  exact Nat.mul_dvd_mul_right size.fits.2 _

theorem held_doubleCell (hpos : 0 < size.units) : (doubleCell size).Held :=
  held_shifted hpos (by decide) _ _

/-- How the shortest decimal in double precision is written. -/
theorem positional_shortestDouble (size : Magnitude) :
    Positional (shortestDouble size).1 (shortestDouble size).2
      (positionalParts (shortestDouble size).1 (shortestDouble size).2).1
      (positionalParts (shortestDouble size).1 (shortestDouble size).2).2 := by
  apply positional_positionalParts
  apply Cell.shortest_exponent (c := doubleCell size)
  rcases Nat.eq_zero_or_pos size.units with hzero | hpos
  · left
    unfold doubleCell doubleSize
    dsimp only
    rw [hzero, Nat.zero_mul]
  · exact Or.inr (held_doubleCell hpos)

theorem doubleSize_lt (size : Magnitude) : (doubleSize size).units < DoubleSize.unitLimit := by
  have hlimit : ∀ a b c d e : Nat, a ≤ c → b + e ≤ d → size.units < 2 ^ a * 2 ^ b →
      size.units * 2 ^ e < 2 ^ c * 2 ^ d := by
    intro a b c d e hc hd hsize
    calc
      size.units * 2 ^ e < 2 ^ a * 2 ^ b * 2 ^ e :=
        Nat.mul_lt_mul_of_pos_right hsize (Nat.two_pow_pos e)
      _ = 2 ^ a * 2 ^ (b + e) := by rw [Nat.mul_assoc, ← Nat.pow_add]
      _ ≤ 2 ^ c * 2 ^ d :=
        Nat.mul_le_mul (Nat.pow_le_pow_right Nat.two_pos hc) (Nat.pow_le_pow_right Nat.two_pos hd)
  have hsize : size.units < 2 ^ 128 * 2 ^ 149 := size.fits.1
  unfold doubleSize DoubleSize.unitLimit DoubleSize.unitsPerOne
  exact hlimit _ _ _ _ _ (by decide) (by decide) hsize

theorem ofDouble_doubleSize (negative : Bool) (size : Magnitude) :
    ofDouble negative (doubleSize size) = finite negative size := by
  have hround : ∀ n, round negative (size.units * 2 ^ n) (2 ^ n) = finite negative size := by
    intro n
    rw [Nat.mul_comm]
    exact round_mul negative (Nat.two_pow_pos n) size
  exact hround 925

/-- Every number has its place in double precision. -/
@[simp]
theorem toSingle_toDouble (x : Single) : x.toDouble.toSingle = x := by
  cases x with
  | nan => rfl
  | infinity negative => rfl
  | finite negative size => exact ofDouble_doubleSize negative size

end Single

/-- What rounds to a size in range is read as that size. -/
theorem DoubleSize.round?_eq {num den n : Nat} (h : roundBits 53 num den = n) (hn : n < unitLimit) :
    round? num den = some ⟨n⟩ := by
  unfold round?
  dsimp only
  rw [h, if_pos hn]

namespace Decimal

/-- A quotient whose denominator has many more places than its numerator has bits lies below the
interval of a number, however the format is scaled. -/
theorem not_holds_of_small {c : Cell} (hheld : c.Held) (coefficient places low more : Nat)
    (hscale : c.scale = low + more) (hunits : 2 ^ more ≤ c.units)
    (hsmall : coefficient.log2 + 1 + (low + 1) ≤ places) :
    ¬c.Holds coefficient (10 ^ places) := by
  intro h
  have hlow := h.bounds.1
  have hlower := (Cell.lower_le hheld).1
  have hfew : coefficient * 2 ^ (low + 1) < 2 ^ places := by
    calc
      coefficient * 2 ^ (low + 1) < 2 ^ (coefficient.log2 + 1) * 2 ^ (low + 1) :=
        Nat.mul_lt_mul_of_pos_right Nat.lt_log2_self (Nat.two_pow_pos _)
      _ = 2 ^ (coefficient.log2 + 1 + (low + 1)) := (Nat.pow_add 2 _ _).symm
      _ ≤ 2 ^ places := Nat.pow_le_pow_right Nat.two_pos hsmall
  have hten : 2 ^ places ≤ 10 ^ places := Nat.pow_le_pow_left (by decide) places
  have hwide : 0 < 2 ^ more := Nat.two_pow_pos more
  rw [hscale, Nat.pow_add] at hlow
  rw [Nat.pow_succ] at hfew
  generalize 2 ^ more = wide at *
  generalize 2 ^ low = unit at *
  -- Both sides are freed of the scaling, which does not move the number against the interval.
  have hlarge : wide * (2 * 10 ^ places) ≤ wide * (4 * (coefficient * unit)) := by
    calc
      wide * (2 * 10 ^ places) = 2 * wide * 10 ^ places := by
        rw [Nat.mul_left_comm, Nat.mul_assoc]
      _ ≤ 2 * c.units * 10 ^ places :=
        Nat.mul_le_mul_right _ (Nat.mul_le_mul_left 2 hunits)
      _ ≤ c.lower * 10 ^ places := Nat.mul_le_mul_right _ hlower
      _ ≤ 4 * (coefficient * (unit * wide)) := hlow
      _ = wide * (4 * (coefficient * unit)) := by
        rw [← Nat.mul_assoc coefficient, ← Nat.mul_assoc 4, Nat.mul_comm wide]
  have hcancelled := Nat.le_of_mul_le_mul_left hlarge hwide
  rw [← Nat.mul_assoc] at hfew
  omega

theorem double?_of_holds {d : Decimal} (hpos : 0 < size.units) (hexponent : d.exponent ≤ 400)
    (h : (Single.doubleCell size).Holds (d.coefficient * 10 ^ d.exponent.toNat)
      (10 ^ (-d.exponent).toNat)) :
    d.double? = some (Single.doubleSize size) := by
  have hheld := Single.held_doubleCell hpos
  have hden : 0 < 10 ^ (-d.exponent).toNat := Nat.pow_pos (by decide)
  have hsome : d.coefficient ≠ 0 := by
    intro hnone
    have hnum := h.num_pos hheld hden
    rw [hnone, Nat.zero_mul] at hnum
    exact Nat.lt_irrefl 0 hnum
  -- The test that settles very small decimals without their power does not meet this one.
  have hplaces : ¬d.exponent + 400 + (d.coefficient.log2 + 1) < 0 := by
    intro hsmall
    have hwhole : d.exponent.toNat = 0 := by omega
    refine not_holds_of_small hheld d.coefficient (-d.exponent).toNat 149 925 rfl
      (Nat.le_mul_of_pos_left _ hpos) (by omega) ?_
    rw [hwhole, Nat.pow_zero, Nat.mul_one] at h
    exact h
  have hround := Cell.roundBits_eq hheld hden h
  unfold double?
  rw [if_neg hsome, if_neg (by omega), if_neg hplaces]
  unfold Single.doubleCell at hround
  unfold DoubleSize.ofRatio? DoubleSize.unitsPerOne
  rw [DoubleSize.round?_eq hround (Single.doubleSize_lt size)]

/-- A decimal that is written without an exponent has the value of its coefficient and exponent. -/
theorem holds_of_positional {c : Cell} {coefficient : Nat} {exponent : Int}
    {whole places : List Char} (h : Positional coefficient exponent whole places)
    (hholds : c.Holds (coefficient * 10 ^ exponent.toNat) (10 ^ (-exponent).toNat)) :
    c.Holds (digitsValue 10 (whole ++ places)) (10 ^ places.length) := by
  have hten : ∀ n, 0 < 10 ^ n := fun _ => Nat.pow_pos (by decide)
  rcases h.value with ⟨zeros, hvalue, hlength, _⟩
  refine hholds.of_eq (hten _) ?_ (hten _)
  have hpowers : exponent.toNat + places.length = zeros + (-exponent).toNat := by omega
  rw [hvalue, Nat.mul_assoc, Nat.mul_assoc, ← Nat.pow_add, ← Nat.pow_add, hpowers]

/-- The shortest decimal of a number in double precision, as it is written, is read as the number. -/
theorem double?_of_positional (negative : Bool) {whole places : List Char}
    (h : Positional (Single.shortestDouble size).1 (Single.shortestDouble size).2 whole places) :
    double? ⟨negative, digitsValue 10 (whole ++ places), -(places.length : Int)⟩ =
      some (Single.doubleSize size) := by
  have hsmall : -(places.length : Int) ≤ 400 := by omega
  -- Zero has no interval, and is read by a case of its own.
  rcases Nat.eq_zero_or_pos size.units with hzero | hpos
  · have hnone : (Single.doubleSize size).units = 0 := by
      unfold Single.doubleSize
      rw [hzero]
      exact Nat.zero_mul _
    have hshortest : (Single.shortestDouble size).1 = 0 := by
      unfold Single.shortestDouble Cell.shortest
      rw [if_pos hnone]
    rcases h.value with ⟨zeros, hvalue, _⟩
    rw [hshortest, Nat.zero_mul] at hvalue
    unfold double?
    rw [if_pos hvalue]
    exact congrArg some (congrArg DoubleSize.mk hnone.symm)
  · have hholds := Cell.holds_shortest (Single.held_doubleCell hpos) .up
    have hread := holds_of_positional h hholds
    have hwhole : (-(places.length : Int)).toNat = 0 := by omega
    have hplaces : (- -(places.length : Int)).toNat = places.length := by omega
    apply double?_of_holds hpos hsmall
    dsimp only
    rw [hwhole, hplaces, Nat.pow_zero, Nat.mul_one]
    exact hread

end Decimal

end OverlayScrollbar
