import Mathlib.Algebra.Order.Field.Rat
import Mathlib.Tactic.FieldSimp
import Mathlib.Tactic.Linarith
import OverlayScrollbar.Proofs.Single.Parts

/-!
# Numbers in the sense of arithmetic

- `Single.value`            : the rational number that a finite number stands for
- `Single.value_eq`         : by its rank
- `Single.value_le_add`     : from a comparison of ranks
- `Single.value_le_nearest` : rounding to a whole number takes at most a half
-/

namespace OverlayScrollbar

namespace Single

variable {a b : Single} {r s : Int}

/-- The rational number that a finite number stands for; zero for what is not finite. -/
def value : Single → ℚ
  | .finite negative size => signedUnits negative size / unitsPerOne
  | _ => 0

theorem value_eq (ha : a.IsFinite) (hr : a.rank? = some r) : a.value = r / unitsPerOne := by
  cases a with
  | finite negative size =>
      cases hr
      rfl
  | _ => exact ha.elim

/-- Two numbers that differ by at most a part of some units. -/
theorem value_le_add {parts : Int} (hparts : 0 < parts) (t : Int) (ha : a.IsFinite)
    (hr : a.rank? = some r) (hb : b.IsFinite) (hs : b.rank? = some s)
    (h : parts * r ≤ parts * s + t) : a.value ≤ b.value + t / unitsPerOne / parts := by
  have hone : (0 : ℚ) < unitsPerOne := Nat.cast_pos.2 unitsPerOne_pos
  have hpositive : (0 : ℚ) < parts := Int.cast_pos.2 hparts
  have hcast : (parts : ℚ) * r ≤ parts * s + t := by exact_mod_cast h
  rw [value_eq ha hr, value_eq hb hs]
  field_simp
  linarith

theorem value_le_value (ha : a.IsFinite) (hb : b.IsFinite) (h : a ≤ b) : a.value ≤ b.value := by
  rcases le_iff.1 h with ⟨r, s, hr, hs, hle⟩
  have hclose := value_le_add Int.one_pos 0 ha hr hb hs (by omega)
  simpa using hclose

theorem two_mul_le_nearest (units : Nat) {unit : Nat} (h : 0 < unit) :
    2 * units ≤ 2 * ((2 * units + unit) / (2 * unit) * unit) + unit := by
  have hmost := Nat.lt_div_mul_add (a := 2 * units + unit) (show 0 < 2 * unit by omega)
  rw [Nat.mul_left_comm] at hmost
  omega

/-- Rounding to the nearest whole number takes at most a half away. -/
theorem value_le_nearest (size : Magnitude) :
    (finite false size).value ≤ (finite false size).nearest.value + 1 / 2 := by
  have hone : (unitsPerOne : ℚ) ≠ 0 := Nat.cast_ne_zero.2 (Nat.ne_of_gt unitsPerOne_pos)
  have hhalf := two_mul_le_nearest size.units unitsPerOne_pos
  rw [nearest_finite]
  generalize hwhole : fits_nearest size.fits = fits
  have hranks : (2 : Int) * signedUnits false size ≤
      2 * signedUnits false ⟨_, fits⟩ + unitsPerOne := by
    show (2 : Int) * (size.units : Int) ≤ 2 * (Nat.cast _ : Int) + unitsPerOne
    exact_mod_cast hhalf
  have hclose := value_le_add (show 0 < 2 by decide) unitsPerOne
    (show (finite false size).IsFinite from trivial) rfl
    (show (finite false ⟨_, fits⟩).IsFinite from trivial) rfl hranks
  rwa [Int.cast_natCast, (div_eq_one_iff_eq hone).2 rfl] at hclose

end Single

end OverlayScrollbar
