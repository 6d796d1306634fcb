import RouteStubs.Proofs.Files.Detour
/-!
Reading a file that has been written.

Writing changes what stands where a path leads to, and leaves every directory on the way there, so that the path
leads to the same place afterwards. `read_write` says that what was written is read back, for every path that can
be written to, also one with steps `.` and `..`.
-/

namespace RouteStubs.Files.Disk

variable {d d' : Disk} {path : String}

/-- Setting what is no directory takes nothing away and no directory either. -/
theorem Retains.of_set {l : Location} (h : d.entry? l ≠ some .directory) (e : Entry) : d.Retains (d.set l e) := by
  have hl : l ≠ [] := by
    rintro rfl
    exact h rfl
  constructor
  · intro k hk
    have hne : k ≠ l := fun heq => h (heq ▸ hk)
    rw [ entry?_set d hl, if_neg hne, hk]
  · intro k hk
    rw [ entry?_set d hl]
    split
    · rfl
    · exact hk

/-- **What is put where a path leads is read back** by the path. -/
theorem read_set {l : Location} (h : d.locateToWrite path = .ok l) (content : ByteArray) :
    Disk.read (d.set l (.file content)) path = .ok content := by
  obtain ⟨front, last, parent, hnames, hparent, rfl, hnew⟩ := locateToWrite_eq_ok.mp h
  have hentry : Disk.entry? (d.set (parent ++ [last]) (.file content)) (parent ++ [last]) =
      some (.file content) := by
    rw [ entry?_set d (by simp), if_pos rfl]
  have hfollow := (Retains.of_set hnew (.file content)).followToDirectory hparent
  rw [read, hnames.locate hfollow (by rw [hentry]; rfl)]
  simp only [bind, Except.bind, hentry]
  rfl

/-- **What has been written is read back** by the same path. -/
theorem read_write {text : String} {rule : Overwrite} (h : d.write path text rule = (.ok .written, d')) :
    d'.read path = .ok text.toUTF8 := by
  rcases write_outcomes d path text rule with
    ⟨-, hwrite⟩ | ⟨-, ⟨e, hwrite, -⟩ | ⟨l, -, hlocate, hwrite⟩⟩ <;> rw [hwrite] at h
  · cases h
  · cases h
  · obtain rfl : (d.createParent path).2.set l (.file text.toUTF8) = d' := (Prod.ext_iff.mp h).2
    exact read_set hlocate text.toUTF8

/-- The text of a file that holds the bytes of a text. -/
theorem readText_of_read {text : String} (h : d.read path = .ok text.toUTF8) : d.readText path = .ok text := by
  have hdecode : String.fromUTF8? text.toUTF8 = some text := dif_pos text.isValidUTF8
  rw [readText, h]
  simp only [bind, Except.bind, hdecode]
  rfl

end RouteStubs.Files.Disk
