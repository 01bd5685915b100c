import OverlayScrollbar.Files

/-!
# Files that read back

A file that is written is found again by the path that it was written to. Writing changes no directory,
so the path still leads to the same place.

- `entry?_put`      : what is found after an entry is put in its place
- `walk_put`        : names lead to the same place after a file is written
- `write_cases`     : all that a successful write says of the tree
- `readText_of_writeText` : a text is read as it was written

Main statement: `readText_of_writeText`.
-/

namespace OverlayScrollbar

namespace FileTree

variable {tree saved : FileTree} {path : Path} {place : List String} {content : ByteArray}

theorem lookup_filter_ne {other : List String} (h : other ≠ place)
    (entries : List (List String × FileEntry)) :
    (entries.filter (·.1 != place)).lookup other = entries.lookup other := by
  induction entries with
  | nil => rfl
  | cons entry rest ih =>
      rcases entry with ⟨name, found⟩
      by_cases hname : name = place
      · subst hname
        have hne : (other == name) = false := beq_false_of_ne h
        simp [List.lookup_cons, hne, ih]
      · simp [List.lookup_cons, hname, ih]

/-- What is found in other places is as before. -/
theorem entry?_put {other : List String} (h : other ≠ place) (entry : FileEntry) :
    FileTree.entry? (tree.put place entry) other = tree.entry? other := by
  unfold entry? put
  dsimp only
  rw [List.lookup_cons, beq_false_of_ne h, lookup_filter_ne h]

theorem entry?_put_self (h : place ≠ []) (entry : FileEntry) :
    FileTree.entry? (tree.put place entry) place = some entry := by
  unfold entry? put
  rw [if_neg (by simpa using h)]
  simp

/-- A file does not stand where names lead through a directory. -/
theorem walk_put (hplace : tree.entry? place ≠ some .directory) (names : List String)
    {start target : List String} (h : tree.walk start names = .ok target) :
    (tree.put place (.file content)).walk start names = .ok target := by
  induction names generalizing start with
  | nil => exact h
  | cons name rest ih =>
      unfold walk at h ⊢
      cases hstart : tree.entry? start with
      | none =>
          rw [hstart] at h
          cases h
      | some entry =>
          rw [hstart] at h
          cases entry with
          | file found => cases h
          | directory =>
              -- The names lead on through directories only, and the file replaces none of them.
              have hne : start ≠ place := by
                rintro rfl
                exact hplace hstart
              rw [entry?_put hne, hstart]
              dsimp only at h ⊢
              split
              · rename_i hdot
                rw [if_pos hdot] at h
                exact ih h
              · rename_i hdot
                rw [if_neg hdot] at h
                split
                · rename_i hup
                  rw [if_pos hup] at h
                  exact ih h
                · rename_i hup
                  rw [if_neg hup] at h
                  exact ih h

theorem resolve_put (hplace : tree.entry? place ≠ some .directory)
    (h : tree.resolve path = .ok place) :
    (tree.put place (.file content)).resolve path = .ok place := by
  unfold resolve at h ⊢
  split at h
  · cases h
  · rename_i hsome
    rw [if_neg hsome]
    split at h
    · cases h
    · rename_i hnul
      rw [if_neg hnul]
      exact walk_put hplace _ h

/-- A file is written in a place where no directory is, and nothing else changes. -/
theorem write_cases (h : tree.write path content = .ok saved) :
    ∃ place, tree.resolve path = .ok place ∧ tree.entry? place ≠ some .directory ∧
      path.endsInSlash = false ∧ saved = tree.put place (.file content) := by
  unfold write at h
  cases hresolve : tree.resolve path with
  | error error =>
      rw [hresolve] at h
      cases h
  | ok place =>
      rw [hresolve] at h
      dsimp only [bind, Except.bind] at h
      split at h
      · cases h
      · rename_i hplace
        split at h
        · cases h
        · rename_i hslash
          cases h
          exact ⟨place, rfl, fun hdirectory => hplace hdirectory, Bool.eq_false_iff.2 hslash, rfl⟩

theorem read_of_write (h : tree.write path content = .ok saved) :
    saved.read path = .ok content := by
  rcases write_cases h with ⟨place, hresolve, hplace, hslash, rfl⟩
  have hroot : place ≠ [] := by
    rintro rfl
    exact hplace rfl
  unfold read
  rw [resolve_put hplace hresolve]
  dsimp only [bind, Except.bind]
  rw [entry?_put_self hroot]
  dsimp only
  rw [if_neg (by simp [hslash])]

/-- A text that is written to a file is read from it. -/
theorem readText_of_writeText {text : String} (h : tree.writeText path text = .ok saved) :
    saved.readText path = .ok text := by
  have hdecode : String.fromUTF8? text.toUTF8 = some text := dif_pos text.isValidUTF8
  unfold readText
  rw [read_of_write h]
  dsimp only [bind, Except.bind]
  rw [hdecode]

end FileTree

end OverlayScrollbar
