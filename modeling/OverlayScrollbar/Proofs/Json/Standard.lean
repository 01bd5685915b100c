import OverlayScrollbar.Json.Standard
import OverlayScrollbar.Proofs.Json.ReadBack
import OverlayScrollbar.Proofs.Json.Values
import OverlayScrollbar.Proofs.Single.Finite

/-!
# The JSON library that the program runs with can be relied on

- `Numeral.single?_ne_nan` : a numeral stands for a number
- `Json.spelled_of_writable` : values with numbers of single precision can be read

Main statement: `JsonFormat.lawful_standard`.
-/

namespace OverlayScrollbar

/-! ## Numbers -/

/-- What a numeral stands for is a number, if it is not out of range. -/
theorem Numeral.single?_ne_nan (n : Numeral) : n.single? ≠ some .nan := by
  have hround : ∀ negative num den, some (Single.round negative num den) ≠ some .nan := by
    intro negative num den heq
    have hnumber := Single.isNaN_round negative num den
    rw [Option.some.inj heq] at hnumber
    cases hnumber
  unfold single?
  dsimp only
  split
  · exact hround _ _ _
  · split
    · exact hround _ _ _
    · intro h
      rcases Option.map_eq_some_iff.1 h with ⟨size, _, hsize⟩
      exact hround _ _ _ (congrArg some hsize)

/-- The numeral of a number can be read. -/
theorem Single.spelled_of_numeral? {n : Numeral} (h : ∃ x : Single, x.numeral? = some n) :
    n.Spelled := by
  rcases h with ⟨x, hx⟩
  cases x with
  | nan => cases hx
  | infinity negative => cases hx
  | finite negative size =>
      cases hx
      exact (writes_numeral negative size).2.toSpelled

/-! ## Values -/

mutual

theorem Json.spelled_of_writable : ∀ (v : Json Numeral) (depth : Nat),
    v.Writable (fun n => ∃ x : Single, x.numeral? = some n) depth → v.Spelled
  | .null, _, _ => trivial
  | .bool _, _, _ => trivial
  | .number _, 0, h => Single.spelled_of_numeral? h
  | .number _, _ + 1, h => Single.spelled_of_numeral? h
  | .string _, 0, h => h
  | .string _, _ + 1, h => h
  | .array items, depth + 1, h => Json.itemsSpelled_of_writable items depth h
  | .object fields, depth + 1, h => Json.fieldsSpelled_of_writable fields depth h

theorem Json.itemsSpelled_of_writable : ∀ (items : List (Json Numeral)) (depth : Nat),
    Json.ItemsWritable (fun n => ∃ x : Single, x.numeral? = some n) depth items →
      Json.ItemsSpelled items
  | [], _, _ => trivial
  | item :: items, depth, h =>
      ⟨Json.spelled_of_writable item depth h.1, Json.itemsSpelled_of_writable items depth h.2⟩

theorem Json.fieldsSpelled_of_writable : ∀ (fields : List (JsonString × Json Numeral)) (depth : Nat),
    Json.FieldsWritable (fun n => ∃ x : Single, x.numeral? = some n) depth fields →
      Json.FieldsSpelled fields
  | [], _, _ => trivial
  | (_, content) :: fields, depth, h =>
      ⟨h.1, Json.spelled_of_writable content depth h.2.1,
        Json.fieldsSpelled_of_writable fields depth h.2.2⟩

end

/-! ## The library -/

/-- What is relied on holds of the library that the program runs with. -/
theorem JsonFormat.lawful_standard : JsonFormat.standard.Lawful where
  exists_ofSingle? negative size := ⟨_, rfl, Single.single?_numeral negative size⟩
  ofSingle?_infinity _ := rfl
  ofSingle?_nan := rfl
  single?_ne_nan := Numeral.single?_ne_nan
  read?_write value h :=
    (congrArg Json.read? String.toList_ofList).trans
      (Json.read?_pretty (Json.spelled_of_writable value _ h))

end OverlayScrollbar
