import RpcDaemon.Files.Tree
import RpcDaemon.Proofs.Text.Utf8

/-!
# Files read back

What was written to a file is read back from it: a file that is put at a place is found there, and
every path that led somewhere before still leads there. Main statements: `Files.read_write` and
`Files.readText_write`.
-/

namespace RpcDaemon

namespace Files

variable {fs after : Files}

/-- A file is found at the place where it was put. -/
theorem find?_putAt (fs : Files) (place : List (List Char)) (content : List UInt8) :
    (fs.putAt place content).find? place = some content := by
  have hnone : (fs.entries.filter fun f => f.path != place).find? (fun f => f.path == place) =
      none := by
    rw [List.find?_eq_none]
    intro f hf hpath
    have hne := (List.mem_filter.mp hf).2
    rw [beq_iff_eq] at hpath
    rw [hpath, bne_self_eq_false] at hne
    cases hne
  rw [find?, putAt, List.find?_append, hnone, Option.none_or, List.find?_cons_of_pos (by simp)]
  rfl

/-- What was a directory is one behind a further file. -/
theorem isDirectory_putAt {path : List (List Char)} (h : fs.isDirectory path = true)
    (place : List (List Char)) (content : List UInt8) :
    (fs.putAt place content).isDirectory path = true := by
  unfold isDirectory at h ⊢
  rw [Bool.or_eq_true] at h ⊢
  refine h.imp_right fun h => ?_
  obtain ⟨f, hf, hpath⟩ := List.any_eq_true.mp h
  rw [List.any_eq_true]
  by_cases hplace : f.path = place
  · refine ⟨⟨place, content⟩, List.mem_append_right _ List.mem_cons_self, ?_⟩
    rw [hplace] at hpath
    exact hpath
  · exact ⟨f, List.mem_append_left _ (List.mem_filter.mpr ⟨hf, by simpa using hplace⟩), hpath⟩

/-- Every path that can be gone down can still be gone down behind a further file. -/
theorem walk_putAt {here target : List (List Char)} {components : List (List Char)}
    (h : fs.walk here components = .ok target) (place : List (List Char))
    (content : List UInt8) : (fs.putAt place content).walk here components = .ok target := by
  induction components generalizing here with
  | nil => exact h
  | cons c components ih =>
    rw [walk] at h ⊢
    split at h
    · rename_i hhere
      rw [if_pos (isDirectory_putAt hhere place content)]
      exact ih h
    · split at h <;> cases h

/-- Where a path leads, unless it leads nowhere. -/
theorem walk_of_locate {path : String} {place : List (List Char)}
    (h : fs.locate path = .ok place) :
    path.isEmpty = false ∧ fs.walk (start path) (Path.components path) = .ok place := by
  unfold locate at h
  split at h
  · cases h
  · rename_i hempty
    split at h
    · cases h
    · rename_i target hwalk
      split at h
      · cases h
      · cases h
        exact ⟨by simpa using hempty, hwalk⟩

/-- What a file was written needed: a place for it, and no slash at the end of the path. -/
theorem locate_of_write {path : String} {content : List UInt8}
    (h : fs.write path content = .ok after) :
    ∃ place, fs.locate path = .ok place ∧ path.toList.getLast? ≠ some '/' ∧
      after = fs.putAt place content := by
  unfold write at h
  split at h
  · cases h
  · rename_i place hplace
    split at h
    · cases h
    · split at h
      · cases h
      · rename_i hslash
        split at h
        · cases h
          exact ⟨place, hplace, hslash, rfl⟩
        · split at h <;> cases h

/-- **What was written to a file is read back from it.** -/
theorem read_write {path : String} {content : List UInt8}
    (h : fs.write path content = .ok after) : after.read path = .ok content := by
  obtain ⟨place, hplace, hslash, rfl⟩ := locate_of_write h
  obtain ⟨hempty, hwalk⟩ := walk_of_locate hplace
  have hlocate : (fs.putAt place content).locate path = .ok place := by
    rw [locate, hempty, if_neg (by decide), walk_putAt hwalk]
    dsimp only
    rw [if_neg fun h => hslash h.1]
  rw [read, hlocate]
  dsimp only
  rw [find?_putAt]

/-- **A text that was written to a file is read back from it.** -/
theorem readText_write {path text : String}
    (h : fs.write path (Utf8.ofString text) = .ok after) : after.readText path = .ok text := by
  have htext : Utf8.toString? (Utf8.ofString text) = some text := by
    rw [Utf8.toString?, Utf8.ofString, Utf8.decode?_encode, Option.map_some, String.ofList_toList]
  rw [readText, read_write h]
  dsimp only
  rw [htext]

/-- A file can be written where there is none. -/
example (content : List UInt8) : ∃ after, empty.write "clam.toml" content = .ok after := ⟨_, rfl⟩

end Files

end RpcDaemon
