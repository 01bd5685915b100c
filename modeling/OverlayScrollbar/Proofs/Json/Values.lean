import Mathlib.Data.List.DropRight
import OverlayScrollbar.Proofs.Json.Numeral
import OverlayScrollbar.Proofs.Json.Strings

/-!
# Values of JSON that read back

The text of a value is read as that value. A number ends at the first character that no number has, so
that what follows a value is part of the statement. The fuel that is needed is how deep the calls nest,
which is at most the length of the text.

- `Json.Spelled`  : values whose numbers can be read and whose strings have texts
- `Json.height`   : how deep the calls nest that read a value
- `Ended`         : what may follow a value
- `numeral_text`  : numbers
- `value_pretty`, `items_pretty`, `fields_pretty` : values, and what is inside of them

Main statement: `Json.read?_pretty`.
-/

namespace OverlayScrollbar

/-! ## Values -/

mutual

/-- The numbers of a value are such as can be read, and its strings and names have texts. -/
def Json.Spelled : Json Numeral → Prop
  | .null => True
  | .bool _ => True
  | .number n => n.Spelled
  | .string text => text.isSome = true
  | .array items => Json.ItemsSpelled items
  | .object fields => Json.FieldsSpelled fields

/-- All items are such. -/
def Json.ItemsSpelled : List (Json Numeral) → Prop
  | [] => True
  | item :: items => item.Spelled ∧ Json.ItemsSpelled items

/-- All fields are such. -/
def Json.FieldsSpelled : List (JsonString × Json Numeral) → Prop
  | [] => True
  | (name, content) :: fields =>
      name.isSome = true ∧ content.Spelled ∧ Json.FieldsSpelled fields

end

mutual

/-- How deep the calls nest that read a value. -/
def Json.height : Json Numeral → Nat
  | .array items => 1 + Json.itemsHeight items
  | .object fields => 1 + Json.fieldsHeight fields
  | _ => 1

/-- How deep they nest for the items of an array. -/
def Json.itemsHeight : List (Json Numeral) → Nat
  | [] => 0
  | item :: items => 1 + max item.height (Json.itemsHeight items)

/-- How deep they nest for the fields of an object. -/
def Json.fieldsHeight : List (JsonString × Json Numeral) → Nat
  | [] => 0
  | (_, content) :: fields => 1 + max content.height (Json.fieldsHeight fields)

end

namespace JsonReader

variable {c : Char} {found rest : List Char}

/-! ## Numbers -/

/-- What may follow a value: nothing, a comma or a line end. -/
def Ended (rest : List Char) : Prop :=
  ∀ c more, rest = c :: more → c = ',' ∨ c = '\n'

/-- Digits are read up to the first other character. -/
theorem digits_text (hfound : AllDigits found) (hsome : found ≠ [])
    (hrest : ∀ c more, rest = c :: more → c.isDigit = false) :
    digits (found ++ rest) = some (found, rest) := by
  have hall : ∀ c ∈ found, isDigitOf 10 c = true := fun c hc =>
    isDigitOf_ten_of_isDigit (hfound c hc)
  have htake : rest.takeWhile (isDigitOf 10) = [] ∧ rest.dropWhile (isDigitOf 10) = rest := by
    cases rest with
    | nil => exact ⟨rfl, rfl⟩
    | cons c more =>
        have hc := isDigitOf_ten_of_not_isDigit (hrest c more rfl)
        constructor
        · rw [List.takeWhile_cons_of_neg (by simp [hc])]
        · rw [List.dropWhile_cons_of_neg (by simp [hc])]
  unfold digits
  rw [List.takeWhile_append_of_pos hall, List.dropWhile_append_of_pos hall, htake.1, htake.2,
    List.append_nil]
  dsimp only
  rw [if_neg (by simpa using hsome)]

theorem Ended.not_isDigit (h : Ended rest) : ∀ c more, rest = c :: more → c.isDigit = false := by
  intro c more hcons
  rcases h c more hcons with rfl | rfl
  · rfl
  · rfl

theorem wholeDigits_text {n : Numeral} (h : n.Spelled)
    (hrest : ∀ c more, rest = c :: more → c.isDigit = false) :
    wholeDigits (n.whole ++ rest) = some (n.whole, rest) := by
  rcases h.whole_first with hzero | ⟨c, more, hcons, hc⟩
  · rw [hzero]
    rfl
  · have hread := digits_text h.whole_digits (hcons ▸ List.cons_ne_nil _ _) hrest
    rw [hcons] at hread ⊢
    rw [← hread]
    unfold wholeDigits
    split
    · rename_i hfirst
      cases hfirst
      exact absurd rfl hc
    · rfl

/-- The text of an exponent, if there is one. -/
def exponentText : Option (Bool × List Char) → List Char
  | none => []
  | some (negative, digits) => 'e' :: (if negative then '-' else '+') :: digits

theorem exponent_text {exponent? : Option (Bool × List Char)}
    (h : ∀ sign digits, exponent? = some (sign, digits) → AllDigits digits ∧ digits ≠ [])
    (hrest : Ended rest) : exponent (exponentText exponent? ++ rest) = some (exponent?, rest) := by
  rcases exponent? with _ | ⟨negative, found⟩
  · show exponent rest = some (none, rest)
    -- What follows a value begins no exponent.
    unfold exponent
    split
    · rcases hrest _ _ rfl with hc | hc
      · cases hc
      · cases hc
    · rcases hrest _ _ rfl with hc | hc
      · cases hc
      · cases hc
    · rfl
  · rcases h negative found rfl with ⟨hfound, hsome⟩
    have hread := digits_text hfound hsome hrest.not_isDigit
    cases negative with
    | true =>
        show ((digits (found ++ rest)).map _).map _ = _
        rw [hread]
        rfl
    | false =>
        show ((digits (found ++ rest)).map _).map _ = _
        rw [hread]
        rfl

theorem head_exponentText (exponent? : Option (Bool × List Char)) (hrest : Ended rest) :
    ∀ c more, exponentText exponent? ++ rest = c :: more → c.isDigit = false ∧ c ≠ '.' := by
  rintro c more hcons
  rcases exponent? with _ | ⟨negative, found⟩
  · rcases hrest c more hcons with rfl | rfl
    · decide
    · decide
  · cases hcons
    decide

theorem fractionDigits_text (hfound : AllDigits found)
    (hrest : ∀ c more, rest = c :: more → c.isDigit = false ∧ c ≠ '.') :
    fractionDigits ((if found.isEmpty then [] else '.' :: found) ++ rest) = some (found, rest) := by
  cases found with
  | nil =>
      show fractionDigits rest = some ([], rest)
      unfold fractionDigits
      split
      · exact absurd rfl (hrest _ _ rfl).2
      · rfl
  | cons d digits =>
      exact digits_text hfound (List.cons_ne_nil _ _) fun c more hcons => (hrest c more hcons).1

/-- The digits after the point and the exponent. -/
theorem unsignedNumeral_text {n : Numeral} (h : n.Spelled) (hrest : Ended rest) :
    unsignedNumeral n.negative (n.whole ++
      ((if n.fraction.isEmpty then [] else '.' :: n.fraction) ++
        (exponentText n.exponent? ++ rest))) = some (n, rest) := by
  have htail := head_exponentText n.exponent? hrest
  -- Neither the point nor the mark of the exponent goes on with the whole digits.
  have hpoint : ∀ c more, (if n.fraction.isEmpty then [] else '.' :: n.fraction) ++
      (exponentText n.exponent? ++ rest) = c :: more → c.isDigit = false := by
    intro c more hcons
    split at hcons
    · exact (htail c more hcons).1
    · cases hcons
      rfl
  unfold unsignedNumeral
  rw [wholeDigits_text h hpoint]
  show (fractionDigits _).bind _ = _
  rw [fractionDigits_text h.fraction_digits htail]
  show (exponent _).bind _ = _
  rw [exponent_text h.exponent_digits hrest]
  rfl

/-- A number is read as it was written. -/
theorem numeral_text {n : Numeral} (h : n.Spelled) (hrest : Ended rest) :
    numeral (JsonWriter.numeral n ++ rest) = some (n, rest) := by
  have hread := unsignedNumeral_text h hrest
  have htext : JsonWriter.numeral n ++ rest = (if n.negative then ['-'] else []) ++ (n.whole ++
      ((if n.fraction.isEmpty then [] else '.' :: n.fraction) ++
        (exponentText n.exponent? ++ rest))) := by
    show (if n.negative then ['-'] else []) ++ n.whole ++
      (if n.fraction.isEmpty then [] else '.' :: n.fraction) ++ exponentText n.exponent? ++ rest = _
    simp only [List.append_assoc]
  rw [htext, ← hread]
  cases hnegative : n.negative with
  | true => rfl
  | false =>
      obtain ⟨c, more, hcons⟩ := List.exists_cons_of_ne_nil (ne_nil_of_first h.whole_first)
      have hc := h.whole_digits c (hcons ▸ List.mem_cons_self)
      rw [hcons]
      show numeral (c :: _) = _
      -- Without a sign the first character is a digit, and no minus.
      unfold numeral
      split
      · rename_i hminus
        cases hminus
        cases hc
      · rfl

/-- The text of a number starts with its sign or a digit. -/
theorem head_numeral {n : Numeral} (h : n.Spelled) :
    ∃ c more, JsonWriter.numeral n = c :: more ∧ (c = '-' ∨ c.isDigit = true) := by
  obtain ⟨c, more, hcons⟩ := List.exists_cons_of_ne_nil (ne_nil_of_first h.whole_first)
  have hc := h.whole_digits c (hcons ▸ List.mem_cons_self)
  unfold JsonWriter.numeral
  rw [hcons]
  cases n.negative with
  | true => exact ⟨'-', _, rfl, Or.inl rfl⟩
  | false => exact ⟨c, _, rfl, Or.inr hc⟩

/-! ## Blanks -/

theorem skipBlanks_of_not_isBlank (h : isBlank c = false) : skipBlanks (c :: rest) = c :: rest := by
  unfold skipBlanks
  rw [List.dropWhile_cons_of_neg (by simp [h])]

theorem not_isBlank_of_isDigit (h : c.isDigit = true) : isBlank c = false := by
  cases hblank : isBlank c with
  | false => rfl
  | true =>
      simp only [isBlank, Bool.or_eq_true, beq_iff_eq] at hblank
      rcases hblank with ((rfl | rfl) | rfl) | rfl
      all_goals cases h

/-- Line ends and the blanks of a depth are passed over. -/
theorem skipBlanks_newline (depth : Nat) (rest : List Char) :
    skipBlanks (JsonWriter.newline depth ++ rest) = skipBlanks rest := by
  have hall : ∀ c ∈ JsonWriter.newline depth, isBlank c = true := by
    intro c hc
    rcases List.mem_cons.1 hc with rfl | hspace
    · rfl
    · rw [List.eq_of_mem_replicate hspace]
      rfl
  exact List.dropWhile_append_of_pos hall

theorem ended_newline (depth : Nat) (rest : List Char) :
    Ended (JsonWriter.newline depth ++ rest) := by
  intro c more hcons
  cases hcons
  exact Or.inr rfl

/-- The first character of a value is no blank, and does not end an array. -/
theorem head_prettyAt {v : Json Numeral} (h : v.Spelled) (depth : Nat) :
    ∃ c more, v.prettyAt depth = c :: more ∧ isBlank c = false ∧ c ≠ ']' := by
  cases v with
  | null => exact ⟨'n', _, rfl, rfl, by decide⟩
  | bool value =>
      cases value with
      | true => exact ⟨'t', _, rfl, rfl, by decide⟩
      | false => exact ⟨'f', _, rfl, rfl, by decide⟩
  | number n =>
      rcases head_numeral h with ⟨c, more, hcons, rfl | hc⟩
      · exact ⟨'-', more, hcons, rfl, by decide⟩
      · refine ⟨c, more, hcons, not_isBlank_of_isDigit hc, ?_⟩
        rintro rfl
        cases hc
  | string text => exact ⟨'"', _, rfl, rfl, by decide⟩
  | array items =>
      cases items with
      | nil => exact ⟨'[', _, rfl, rfl, by decide⟩
      | cons item items => exact ⟨'[', _, rfl, rfl, by decide⟩
  | object fields =>
      cases fields with
      | nil => exact ⟨'{', _, rfl, rfl, by decide⟩
      | cons field fields => exact ⟨'{', _, rfl, rfl, by decide⟩

variable {more s : List Char} {fuel : Nat} {item content : Json Numeral} {name : String}

/-! ## One call -/

/-- Blanks before a value are passed over. -/
theorem value_skipBlanks (fuel : Nat) (s : List Char) :
    value fuel (skipBlanks s) = value fuel s := by
  cases fuel with
  | zero => rw [value, value]
  | succ fuel =>
      unfold value
      rw [show skipBlanks (skipBlanks s) = skipBlanks s from List.dropWhile_idempotent _ _]

theorem value_newline (fuel depth : Nat) (s : List Char) :
    value fuel (JsonWriter.newline depth ++ s) = value fuel s := by
  rw [← value_skipBlanks, skipBlanks_newline, value_skipBlanks]

theorem value_space (fuel : Nat) (s : List Char) : value fuel (' ' :: s) = value fuel s := by
  rw [← value_skipBlanks, ← value_skipBlanks fuel s]
  rfl

theorem items_skipBlanks (fuel : Nat) (s : List Char) :
    items fuel (skipBlanks s) = items fuel s := by
  cases fuel with
  | zero => rw [items, items]
  | succ fuel =>
      unfold items
      rw [value_skipBlanks]

theorem fields_skipBlanks (fuel : Nat) (s : List Char) :
    fields fuel (skipBlanks s) = fields fuel s := by
  cases fuel with
  | zero => rw [fields, fields]
  | succ fuel =>
      unfold fields
      rw [show skipBlanks (skipBlanks s) = skipBlanks s from List.dropWhile_idempotent _ _]

theorem string_append (text : String) (rest : List Char) : JsonWriter.string text ++ rest =
    '"' :: (text.toList.flatMap JsonWriter.escaped ++ '"' :: rest) := by
  simp [JsonWriter.string]

theorem value_string (text : String) (rest : List Char) :
    value (fuel + 1) (JsonWriter.string text ++ rest) = some (.string (some text), rest) := by
  rw [string_append]
  unfold value
  show (stringBody _).map _ = _
  rw [stringBody_text]
  rfl

theorem value_numeral {n : Numeral} (h : n.Spelled) (hrest : Ended rest) :
    value (fuel + 1) (JsonWriter.numeral n ++ rest) = some (.number n, rest) := by
  have hread := numeral_text h hrest
  rcases head_numeral h with ⟨c, more, hcons, hc⟩
  have hblank : isBlank c = false := by
    rcases hc with rfl | hdigit
    · rfl
    · exact not_isBlank_of_isDigit hdigit
  rw [hcons, List.cons_append] at hread ⊢
  unfold value
  rw [skipBlanks_of_not_isBlank hblank]
  -- No other form starts with a sign or a digit.
  split
  all_goals first
    | rw [hread]
      rfl
    | rename_i heq
      rw [(List.cons.inj heq).1] at hc
      rcases hc with hsign | hdigit
      · cases hsign
      · cases hdigit

/-- An array that does not end at once. -/
theorem value_array (hitem : skipBlanks more = c :: rest) (hc : c ≠ ']') :
    value (fuel + 1) ('[' :: more) =
      (items fuel more).map fun (found, rest) => (.array found, rest) := by
  simp only [value, skipBlanks_of_not_isBlank (show isBlank '[' = false from rfl)]
  rw [← items_skipBlanks, hitem]
  split
  · rename_i heq
    exact absurd (List.cons.inj heq).1 hc
  · rfl

/-- An object that does not end at once. -/
theorem value_object (hfield : skipBlanks more = '"' :: rest) :
    value (fuel + 1) ('{' :: more) =
      (fields fuel more).map fun (found, rest) => (.object found, rest) := by
  simp only [value, skipBlanks_of_not_isBlank (show isBlank '{' = false from rfl)]
  rw [← fields_skipBlanks, hfield]
  rfl

theorem items_last (hitem : value fuel s = some (item, more)) (hend : skipBlanks more = ']' :: rest) :
    items (fuel + 1) s = some ([item], rest) := by
  unfold items
  rw [hitem, Option.bind_eq_bind, Option.bind_some]
  dsimp only
  rw [hend]
  rfl

theorem items_comma {found : List (Json Numeral)} {after : List Char}
    (hitem : value fuel s = some (item, more))
    (hcomma : skipBlanks more = ',' :: after) (hafter : items fuel after = some (found, rest)) :
    items (fuel + 1) s = some (item :: found, rest) := by
  unfold items
  rw [hitem, Option.bind_eq_bind, Option.bind_some]
  dsimp only
  rw [hcomma]
  show (items fuel after).bind _ = _
  rw [hafter]
  rfl

theorem fields_last {after : List Char} (hs : skipBlanks s = JsonWriter.string name ++ ':' :: more)
    (hcontent : value fuel more = some (content, after)) (hend : skipBlanks after = '}' :: rest) :
    fields (fuel + 1) s = some ([(some name, content)], rest) := by
  unfold fields
  rw [hs, string_append]
  show (stringBody _).bind _ = _
  rw [stringBody_text]
  show (value fuel more).bind _ = _
  rw [hcontent, Option.bind_some]
  dsimp only
  rw [hend]
  rfl

theorem fields_comma {found : List (JsonString × Json Numeral)} {after next : List Char}
    (hs : skipBlanks s = JsonWriter.string name ++ ':' :: more)
    (hcontent : value fuel more = some (content, after)) (hcomma : skipBlanks after = ',' :: next)
    (hnext : fields fuel next = some (found, rest)) :
    fields (fuel + 1) s = some ((some name, content) :: found, rest) := by
  unfold fields
  rw [hs, string_append]
  show (stringBody _).bind _ = _
  rw [stringBody_text]
  show (value fuel more).bind _ = _
  rw [hcontent, Option.bind_some]
  dsimp only
  rw [hcomma]
  show (fields fuel next).bind _ = _
  rw [hnext]
  rfl

/-! ## Values -/

theorem ended_items (items : List (Json Numeral)) (depth outer : Nat) (rest : List Char) :
    Ended (Json.prettyItems depth items ++ (JsonWriter.newline outer ++ rest)) := by
  cases items with
  | nil => exact ended_newline outer rest
  | cons item items =>
      intro c more hcons
      cases hcons
      exact Or.inl rfl

theorem ended_fields (fields : List (JsonString × Json Numeral)) (depth outer : Nat)
    (rest : List Char) :
    Ended (Json.prettyFields depth fields ++ (JsonWriter.newline outer ++ rest)) := by
  cases fields with
  | nil => exact ended_newline outer rest
  | cons field fields =>
      intro c more hcons
      cases hcons
      exact Or.inl rfl

/-- The items of an array follow its bracket as they would follow a comma. -/
theorem prettyAt_array (item : Json Numeral) (list : List (Json Numeral)) (depth : Nat)
    (rest : List Char) :
    ∃ s, (Json.array (item :: list)).prettyAt depth ++ rest = '[' :: s ∧
      ',' :: s = Json.prettyItems (depth + 1) (item :: list) ++
        (JsonWriter.newline depth ++ ']' :: rest) := by
  refine ⟨_, rfl, ?_⟩
  simp [Json.prettyItems]

theorem prettyItems_cons {item : Json Numeral} {list : List (Json Numeral)} {depth : Nat}
    {s after : List Char} (h : ',' :: s = Json.prettyItems depth (item :: list) ++ after) :
    s = JsonWriter.newline depth ++
      (item.prettyAt depth ++ (Json.prettyItems depth list ++ after)) := by
  have hsame := (List.cons.inj h).2
  simpa using hsame

/-- The fields of an object follow its brace as they would follow a comma. -/
theorem prettyAt_object (name : String) (content : Json Numeral)
    (list : List (JsonString × Json Numeral)) (depth : Nat) (rest : List Char) :
    ∃ s, (Json.object ((some name, content) :: list)).prettyAt depth ++ rest = '{' :: s ∧
      ',' :: s = Json.prettyFields (depth + 1) ((some name, content) :: list) ++
        (JsonWriter.newline depth ++ '}' :: rest) := by
  refine ⟨_, rfl, ?_⟩
  simp [Json.prettyFields]

theorem prettyFields_cons {name : String} {content : Json Numeral}
    {list : List (JsonString × Json Numeral)} {depth : Nat} {s after : List Char}
    (h : ',' :: s = Json.prettyFields depth ((some name, content) :: list) ++ after) :
    s = JsonWriter.newline depth ++ (JsonWriter.string name ++
      ':' :: ' ' :: (content.prettyAt depth ++ (Json.prettyFields depth list ++ after))) := by
  have hsame := (List.cons.inj h).2
  simpa using hsame

mutual

/-- A value is read as it was written. -/
theorem value_pretty : ∀ (v : Json Numeral) {fuel : Nat} (depth : Nat) {rest : List Char},
    v.Spelled → v.height ≤ fuel → Ended rest →
      value fuel (v.prettyAt depth ++ rest) = some (v, rest)
  | v, 0, _, _, _, hfuel, _ => by
      cases v <;> simp [Json.height] at hfuel
  | .null, fuel + 1, depth, rest, _, _, _ => rfl
  | .bool true, fuel + 1, depth, rest, _, _, _ => rfl
  | .bool false, fuel + 1, depth, rest, _, _, _ => rfl
  | .number n, fuel + 1, depth, rest, h, _, hrest => value_numeral h hrest
  | .string none, fuel + 1, depth, rest, h, _, _ => by cases h
  | .string (some text), fuel + 1, depth, rest, _, _, _ => value_string text rest
  | .array [], fuel + 1, depth, rest, _, _, _ => rfl
  | .array (item :: list), fuel + 1, depth, rest, h, hfuel, _ => by
      rcases prettyAt_array item list depth rest with ⟨s, htext, hs⟩
      have hlow : Json.itemsHeight (item :: list) ≤ fuel := by
        rw [Json.height] at hfuel
        omega
      have hread := items_pretty (item :: list) (depth + 1) depth h hlow hs
      rcases head_prettyAt (v := item) h.1 (depth + 1) with ⟨c, more, hcons, hblank, hc⟩
      -- The first item stands on a line of its own, and the blanks before it are skipped.
      have hfirst : skipBlanks s = c :: (more ++ (Json.prettyItems (depth + 1) list ++
          (JsonWriter.newline depth ++ ']' :: rest))) := by
        rw [prettyItems_cons hs, skipBlanks_newline, hcons]
        exact skipBlanks_of_not_isBlank hblank
      rw [htext, value_array hfirst hc, hread]
      rfl
  | .object [], fuel + 1, depth, rest, _, _, _ => rfl
  | .object ((none, content) :: list), fuel + 1, depth, rest, h, _, _ => by cases h.1
  | .object ((some name, content) :: list), fuel + 1, depth, rest, h, hfuel, _ => by
      rcases prettyAt_object name content list depth rest with ⟨s, htext, hs⟩
      have hlow : Json.fieldsHeight ((some name, content) :: list) ≤ fuel := by
        rw [Json.height] at hfuel
        omega
      have hread := fields_pretty ((some name, content) :: list) (depth + 1) depth h hlow hs
      have hfirst : skipBlanks s = '"' :: (name.toList.flatMap JsonWriter.escaped ++
          '"' :: ':' :: ' ' :: (content.prettyAt (depth + 1) ++
            (Json.prettyFields (depth + 1) list ++ (JsonWriter.newline depth ++ '}' :: rest)))) := by
        rw [prettyFields_cons hs, skipBlanks_newline, string_append]
        rfl
      rw [htext, value_object hfirst, hread]
      rfl

/-- The items of an array are read as they were written, up to the closing bracket. -/
theorem items_pretty : ∀ (list : List (Json Numeral)) {fuel : Nat} (depth outer : Nat)
    {s rest : List Char}, Json.ItemsSpelled list → Json.itemsHeight list ≤ fuel →
      ',' :: s = Json.prettyItems depth list ++ (JsonWriter.newline outer ++ ']' :: rest) →
        items fuel s = some (list, rest)
  | [], _, _, _, _, _, _, _, hs => by cases hs
  | item :: list, 0, _, _, _, _, _, hfuel, _ => by simp [Json.itemsHeight] at hfuel
  | item :: list, fuel + 1, depth, outer, s, rest, h, hfuel, hs => by
      have hlow : item.height ≤ fuel ∧ Json.itemsHeight list ≤ fuel := by
        rw [Json.itemsHeight] at hfuel
        omega
      have hitem := value_pretty item depth h.1 hlow.1 (ended_items list depth outer (']' :: rest))
      rw [← value_newline fuel depth, ← prettyItems_cons hs] at hitem
      have hmore {s} : _ → items fuel s = some (list, rest) :=
        items_pretty list depth outer h.2 hlow.2
      -- After the last item the bracket closes; after any other a comma leads on.
      cases list with
      | nil =>
          refine items_last hitem ?_
          rw [Json.prettyItems, List.nil_append, skipBlanks_newline]
          rfl
      | cons next list => exact items_comma hitem rfl (hmore rfl)

/-- The fields of an object are read as they were written, up to the closing brace. -/
theorem fields_pretty : ∀ (list : List (JsonString × Json Numeral)) {fuel : Nat} (depth outer : Nat)
    {s rest : List Char}, Json.FieldsSpelled list → Json.fieldsHeight list ≤ fuel →
      ',' :: s = Json.prettyFields depth list ++ (JsonWriter.newline outer ++ '}' :: rest) →
        fields fuel s = some (list, rest)
  | [], _, _, _, _, _, _, _, hs => by cases hs
  | (_, content) :: list, 0, _, _, _, _, _, hfuel, _ => by simp [Json.fieldsHeight] at hfuel
  | (none, content) :: list, fuel + 1, depth, outer, s, rest, h, _, _ => by cases h.1
  | (some name, content) :: list, fuel + 1, depth, outer, s, rest, h, hfuel, hs => by
      have hlow : content.height ≤ fuel ∧ Json.fieldsHeight list ≤ fuel := by
        rw [Json.fieldsHeight] at hfuel
        omega
      have hname : skipBlanks s = JsonWriter.string name ++ ':' :: ' ' :: (content.prettyAt depth ++
          (Json.prettyFields depth list ++ (JsonWriter.newline outer ++ '}' :: rest))) := by
        rw [prettyFields_cons hs, skipBlanks_newline, string_append]
        rfl
      have hcontent := value_pretty content depth h.2.1 hlow.1
        (ended_fields list depth outer ('}' :: rest))
      rw [← value_space] at hcontent
      have hmore {s} : _ → fields fuel s = some (list, rest) :=
        fields_pretty list depth outer h.2.2 hlow.2
      cases list with
      | nil =>
          refine fields_last hname hcontent ?_
          rw [Json.prettyFields, List.nil_append, skipBlanks_newline]
          rfl
      | cons next list => exact fields_comma hname hcontent rfl (hmore rfl)

end

end JsonReader

/-! ## Whole texts -/

mutual

/-- Nested calls are no more than characters. -/
theorem Json.height_le : ∀ (v : Json Numeral) (depth : Nat), v.height ≤ (v.prettyAt depth).length + 1
  | .null, _ => by simp [Json.height]
  | .bool _, _ => by simp [Json.height]
  | .number _, _ => by simp [Json.height]
  | .string _, _ => by simp [Json.height]
  | .array [], _ => by simp [Json.height, Json.itemsHeight]
  | .array (item :: list), depth => by
      have hitem := Json.height_le item (depth + 1)
      have hlist := Json.itemsHeight_le list (depth + 1)
      simp only [Json.height, Json.itemsHeight, Json.prettyAt, JsonWriter.newline, List.length_cons,
        List.length_append, List.length_nil]
      omega
  | .object [], _ => by simp [Json.height, Json.fieldsHeight]
  | .object ((name, content) :: list), depth => by
      have hcontent := Json.height_le content (depth + 1)
      have hlist := Json.fieldsHeight_le list (depth + 1)
      simp only [Json.height, Json.fieldsHeight, Json.prettyAt, JsonWriter.newline,
        List.length_cons, List.length_append, List.length_nil]
      omega

theorem Json.itemsHeight_le : ∀ (list : List (Json Numeral)) (depth : Nat),
    Json.itemsHeight list ≤ (Json.prettyItems depth list).length
  | [], _ => Nat.zero_le _
  | item :: list, depth => by
      have hitem := Json.height_le item depth
      have hlist := Json.itemsHeight_le list depth
      simp only [Json.itemsHeight, Json.prettyItems, JsonWriter.newline, List.length_cons,
        List.length_append]
      omega

theorem Json.fieldsHeight_le : ∀ (list : List (JsonString × Json Numeral)) (depth : Nat),
    Json.fieldsHeight list ≤ (Json.prettyFields depth list).length
  | [], _ => Nat.zero_le _
  | (name, content) :: list, depth => by
      have hcontent := Json.height_le content depth
      have hlist := Json.fieldsHeight_le list depth
      simp only [Json.fieldsHeight, Json.prettyFields, JsonWriter.newline, List.length_cons,
        List.length_append]
      omega

end

/-- The text of a value is read as that value. -/
theorem Json.read?_pretty {v : Json Numeral} (h : v.Spelled) : Json.read? v.pretty = some v := by
  have hended : JsonReader.Ended [] := by
    intro c more hcons
    cases hcons
  have henough : v.height ≤ 2 * v.pretty.length + 2 := by
    have hle : v.height ≤ v.pretty.length + 1 := v.height_le 0
    omega
  have hread := JsonReader.value_pretty v 0 h henough hended
  rw [List.append_nil] at hread
  have hpretty : v.pretty = v.prettyAt 0 := rfl
  unfold Json.read?
  rw [hpretty] at hread ⊢
  rw [hread]
  rfl
end OverlayScrollbar
