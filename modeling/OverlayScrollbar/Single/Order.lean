import OverlayScrollbar.Single.Basic
import OverlayScrollbar.Fault

/-!
# Order of single-precision numbers

Numbers are compared by rank, so that the two zeros are equal in size, and what is not a number
compares with nothing, not even with itself.

- `<`, `≤`          : comparison by rank
- `Single.sameSize` : equality by rank
- `Single.min`, `Single.max` : the smaller and the larger of two
- `Single.clamp`    : a number limited to an interval
-/

namespace OverlayScrollbar

namespace Single

/-! ## Comparison -/

/-- The rank of the first number is below that of the second. -/
protected def lt (a b : Single) : Prop :=
  match a.rank?, b.rank? with
  | some x, some y => x < y
  | _, _ => False

/-- The rank of the first number is not above that of the second. -/
protected def le (a b : Single) : Prop :=
  match a.rank?, b.rank? with
  | some x, some y => x ≤ y
  | _, _ => False

instance : LT Single where
  lt := Single.lt

instance : LE Single where
  le := Single.le

instance (a b : Single) : Decidable (a < b) := by
  show Decidable (Single.lt a b)
  unfold Single.lt
  split <;> infer_instance

instance (a b : Single) : Decidable (a ≤ b) := by
  show Decidable (Single.le a b)
  unfold Single.le
  split <;> infer_instance

/-- Both are numbers, of one rank. -/
def sameSize (a b : Single) : Bool :=
  match a.rank?, b.rank? with
  | some x, some y => x == y
  | _, _ => false

/-! ## Laws of the order -/

theorem lt_iff {a b : Single} :
    a < b ↔ ∃ x y, a.rank? = some x ∧ b.rank? = some y ∧ x < y := by
  show Single.lt a b ↔ _
  unfold Single.lt
  cases a.rank? <;> cases b.rank? <;> simp

theorem le_iff {a b : Single} :
    a ≤ b ↔ ∃ x y, a.rank? = some x ∧ b.rank? = some y ∧ x ≤ y := by
  show Single.le a b ↔ _
  unfold Single.le
  cases a.rank? <;> cases b.rank? <;> simp

theorem isNaN_iff {a : Single} : a.isNaN = true ↔ a.rank? = none := by
  cases a <;> simp [isNaN, rank?]

theorem isNaN_eq_false_iff {a : Single} : a.isNaN = false ↔ a ≠ .nan := by
  cases a <;> simp [isNaN]

theorem lt_irrefl (a : Single) : ¬a < a := by
  rw [lt_iff]
  rintro ⟨x, y, hx, hy, h⟩
  rw [hx] at hy
  cases hy
  omega

theorem le_refl_iff {a : Single} : a ≤ a ↔ a.isNaN = false := by
  rw [le_iff]
  cases a <;> simp [isNaN, rank?]

theorem le_of_lt {a b : Single} (h : a < b) : a ≤ b := by
  obtain ⟨x, y, hx, hy, h⟩ := lt_iff.1 h
  exact le_iff.2 ⟨x, y, hx, hy, by omega⟩

theorem le_trans {a b c : Single} (hab : a ≤ b) (hbc : b ≤ c) : a ≤ c := by
  obtain ⟨x, y, hx, hy, h⟩ := le_iff.1 hab
  obtain ⟨y', z, hy', hz, h'⟩ := le_iff.1 hbc
  rw [hy] at hy'
  cases hy'
  exact le_iff.2 ⟨x, z, hx, hz, by omega⟩

theorem lt_of_lt_of_le {a b c : Single} (hab : a < b) (hbc : b ≤ c) : a < c := by
  obtain ⟨x, y, hx, hy, h⟩ := lt_iff.1 hab
  obtain ⟨y', z, hy', hz, h'⟩ := le_iff.1 hbc
  rw [hy] at hy'
  cases hy'
  exact lt_iff.2 ⟨x, z, hx, hz, by omega⟩

theorem lt_of_le_of_lt {a b c : Single} (hab : a ≤ b) (hbc : b < c) : a < c := by
  obtain ⟨x, y, hx, hy, h⟩ := le_iff.1 hab
  obtain ⟨y', z, hy', hz, h'⟩ := lt_iff.1 hbc
  rw [hy] at hy'
  cases hy'
  exact lt_iff.2 ⟨x, z, hx, hz, by omega⟩

/-- Of two numbers, one is below the other or they are in order the other way round. -/
theorem not_lt_iff {a b : Single} (ha : a.isNaN = false) (hb : b.isNaN = false) :
    ¬a < b ↔ b ≤ a := by
  cases hx : a.rank? with
  | none => simp [isNaN_iff.2 hx] at ha
  | some x =>
    cases hy : b.rank? with
    | none => simp [isNaN_iff.2 hy] at hb
    | some y => simp [lt_iff, le_iff, hx, hy]

theorem sameSize_iff {a b : Single} : a.sameSize b = true ↔ a ≤ b ∧ b ≤ a := by
  rw [le_iff, le_iff]
  unfold sameSize
  cases a.rank? with
  | none => simp
  | some x =>
    cases b.rank? with
    | none => simp
    | some y =>
      simp only [beq_iff_eq, Option.some.injEq, exists_and_left, exists_eq_left']
      omega

/-- What is a number is the same as itself. -/
theorem sameSize_self {a : Single} (h : a.isNaN = false) : a.sameSize a = true :=
  sameSize_iff.2 ⟨le_refl_iff.2 h, le_refl_iff.2 h⟩

/-! ## Choosing -/

/-- The smaller of two numbers, the first of two equal ones; if one is not a number, the other. -/
protected def min (a b : Single) : Single :=
  if a.isNaN then b
  else if b < a then b
  else a

/-- The larger of two numbers, the first of two equal ones; if one is not a number, the other. -/
protected def max (a b : Single) : Single :=
  if a.isNaN then b
  else if a < b then b
  else a

instance : Min Single where
  min := Single.min

instance : Max Single where
  max := Single.max

/-- The number, or the end of the interval from `lo` to `hi` that it lies beyond. What is not a
number stays so; the ends must be numbers in order. -/
def clamp (x lo hi : Single) : Checked Single :=
  if lo ≤ hi then
    .ok (if x < lo then lo else if hi < x then hi else x)
  else .error .limitsOutOfOrder

/-- A number that was limited lies in the interval. -/
theorem clamp_mem {x lo hi y : Single} (hx : x.isNaN = false) (h : x.clamp lo hi = .ok y) :
    lo ≤ y ∧ y ≤ hi := by
  unfold clamp at h
  split at h
  · rename_i hle
    obtain ⟨l, u, hl, hu, _⟩ := le_iff.1 hle
    have hlo : lo.isNaN = false := by
      cases lo <;> simp_all [isNaN, rank?]
    have hhi : hi.isNaN = false := by
      cases hi <;> simp_all [isNaN, rank?]
    cases h
    split
    · exact ⟨le_refl_iff.2 hlo, hle⟩
    · rename_i hlow
      split
      · exact ⟨hle, le_refl_iff.2 hhi⟩
      · rename_i hhigh
        exact ⟨(not_lt_iff hx hlo).1 hlow, (not_lt_iff hhi hx).1 hhigh⟩
  · cases h

/-- The number limited to the interval from zero to one. -/
def clampUnit (x : Single) : Single :=
  if x < 0 then 0 else if 1 < x then 1 else x

end Single

end OverlayScrollbar
