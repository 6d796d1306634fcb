import RouteStubs.Proofs.Files.ReadBack
/-!
What a write does to a file system, whatever becomes of it.

A write first creates the directories on the way of its path and then puts the text where the path leads. Each of the
two can fail, also after directories have been created. `WriteEffect` bounds what has happened then: at most one file
has changed, and the only directories that are new are ones to which the path leads on its way. It also says which
writes are skipped and, in a tree, which succeed, by the file system before the write.

* `createDirectories_added`, `createParent_added` — each directory that is created is on the way of the path.
* `canWrite_iff` — when a write that is not skipped succeeds.
* `write_effect` — all of it, for every file system, path, text and rule.

Nothing is asked of the file system, except where a write is said to succeed: where a directory stands in none, a path
may have nowhere to lead.
-/

namespace RouteStubs.Files.Disk

variable {d d' : Disk} {size : List String → Nat} {l k : Location} {path : String}

/-! ## §1 Directories on the way -/

/-- Steps that lead on to a directory have led to one before. -/
theorem followToDirectory_of_append {steps rest : List String} {m : Location}
    (h : d.followToDirectory l (steps ++ rest) = .ok m) : ∃ k, d.followToDirectory l steps = .ok k := by
  obtain ⟨hall, hm⟩ := followToDirectory_eq_ok.mp h
  rw [followAll_append] at hall
  cases hsteps : d.followAll l steps with
  | error e =>
    rw [hsteps] at hall
    cases hall
  | ok k =>
    rw [hsteps] at hall
    cases rest with
    | nil =>
      obtain rfl : k = m := Except.ok.inj hall
      exact ⟨k, followToDirectory_eq_ok.mpr ⟨hsteps, hm⟩⟩
    | cons next rest =>
      rw [Except.bind, followAll_cons] at hall
      cases hnext : d.follow k next with
      | error e =>
        rw [hnext] at hall
        cases hall
      | ok n => exact ⟨k, followToDirectory_eq_ok.mpr ⟨hsteps, directory_of_follow hnext⟩⟩

/-- The directory at the location is new. -/
def Added (d d' : Disk) (k : Location) : Prop := d.entry? k = none ∧ d'.entry? k = some .directory

/-- A directory that is created last is the one to which the steps lead. -/
theorem createLast_added {steps : List String} {step : String}
    (h : Added d (d.createLast size l (steps ++ [step])).2 k) :
    (d.createLast size l (steps ++ [step])).2.followToDirectory l (steps ++ [step]) = .ok k := by
  obtain ⟨hnone, hadded⟩ := h
  rw [createLast] at hadded ⊢
  cases hnew : d.locateNew l (steps ++ [step]) (size (steps ++ [step])) with
  | error e =>
    rw [hnew] at hadded
    cases hnone.symm.trans hadded
  | ok new =>
    rw [hnew] at hadded
    obtain ⟨parent, -, -, -, -, -, rfl⟩ := locateNew_append_eq_ok hnew
    have hk : k = parent ++ [step] := by
      by_contra hne
      rw [ entry?_set d (by simp), if_neg hne, hnone] at hadded
      cases hadded
    rw [hk]
    exact followToDirectory_set hnew

/-- **Each directory that is created is on the way**: some of the steps lead to it. -/
theorem createDirectories_added {steps : List String} (h : Added d (d.createDirectories size l steps).2 k) :
    ∃ front rest, steps.reverse = front ++ rest ∧
      (d.createDirectories size l steps).2.followToDirectory l front = .ok k := by
  induction steps with
  | nil => cases h.1.symm.trans h.2
  | cons step before ih =>
    rw [List.reverse_cons]
    rcases createDirectories_cons_cases d size l step before with
      ⟨-, hresult⟩ | ⟨e, d', hbefore, hresult⟩ | ⟨d', hbefore, hresult⟩ <;> rw [hresult] at h ⊢
    · exact ⟨before.reverse ++ [step], [], by simp, createLast_added h⟩
    · rw [hbefore] at ih
      obtain ⟨front, rest, hsplit, hfollow⟩ := ih h
      exact ⟨front, rest ++ [step], by rw [hsplit, List.append_assoc], hfollow⟩
    · rw [hbefore] at ih
      have hgrows := (createLast_growsTo d' size l before.reverse step).1
      -- the directory is that of the last step, or it was there before the last step
      rcases hgrows.entry k with heq | hlast
      · obtain ⟨front, rest, hsplit, hfollow⟩ := ih ⟨h.1, heq ▸ h.2⟩
        exact ⟨front, rest ++ [step], by rw [hsplit, List.append_assoc], hgrows.retains.followToDirectory hfollow⟩
      · exact ⟨before.reverse ++ [step], [], by simp, createLast_added hlast⟩

/-- The path leads to the directory on its way: some of its steps, but not all, lead there. -/
def OnTheWay (d : Disk) (path : String) (k : Location) : Prop :=
  ∃ front rest, (Path.ofText path).steps = front ++ rest ∧ rest ≠ [] ∧
    d.followToDirectory (d.start (Path.ofText path)) front = .ok k

theorem createParent_added (h : Added d (d.createParent path).2 k) : (d.createParent path).2.OnTheWay path k := by
  unfold OnTheWay
  rw [start_createParent]
  simp only [createParent] at h ⊢
  cases hsteps : (Path.ofText path).parentSteps? with
  | none =>
    rw [hsteps] at h
    cases h.1.symm.trans h.2
  | some steps =>
    rw [hsteps] at h
    dsimp only at h ⊢
    obtain ⟨front, rest, hsplit, hfollow⟩ := createDirectories_added h
    rw [List.reverse_reverse] at hsplit
    -- the steps that are created are those that matter, up to the last one
    have hplain : ∃ last, (Path.ofText path).plainSteps = steps ++ [last] := by
      rw [Path.parentSteps?] at hsteps
      split_ifs at hsteps with hempty
      obtain rfl := Option.some.inj hsteps
      have hne : (Path.ofText path).plainSteps ≠ [] := by simpa using hempty
      exact ⟨_, (List.dropLast_append_getLast hne).symm⟩
    obtain ⟨last, hplain⟩ := hplain
    rw [hsplit, List.append_assoc] at hplain
    obtain ⟨before, after, hsteps, hafter, hfilter⟩ := Path.steps_split_of_plainSteps hplain (by simp)
    refine ⟨before, after, hsteps, hafter, ?_⟩
    rw [← followToDirectory_filter, hfilter, followToDirectory_filter, hfollow]

theorem Retains.onTheWay (h : d.Retains d') (home : d'.home = d.home) (hk : d.OnTheWay path k) :
    d'.OnTheWay path k := by
  obtain ⟨front, rest, hsteps, hrest, hfollow⟩ := hk
  refine ⟨front, rest, hsteps, hrest, ?_⟩
  rw [start_of_home home]
  exact h.followToDirectory hfollow

/-! ## §2 Paths that can be written to -/

/-- The path can be written to: it is accepted and ends with a name, its directory is there or can be created, and
what has the name there is no directory and is not made one on the way. -/
def CanWrite (d : Disk) (path : String) : Prop :=
  ∃ front last parent, Names path front last ∧
    d.destination? (d.start (Path.ofText path)) front = some parent ∧
    d.entry? (parent ++ [last]) ≠ some .directory ∧
    ∀ steps, steps <+: front → d.destination? (d.start (Path.ofText path)) steps ≠ some (parent ++ [last])

/-- **In a tree a write succeeds**, if it is not skipped, exactly where the path can be written to. -/
theorem canWrite_iff (h : d.IsTree) :
    d.CanWrite path ↔
      (d.createParent path).1 = .ok () ∧ ∃ l, (d.createParent path).2.locateToWrite path = .ok l := by
  obtain ⟨hgrows, -⟩ := createParent_growsTo d path
  constructor
  · rintro ⟨front, last, parent, hnames, hparent, hentry, hway⟩
    obtain ⟨hok, hfollow⟩ := createParent_ok h hnames hparent
    refine ⟨hok, parent ++ [last], locateToWrite_eq_ok.mpr ⟨front, last, parent, hnames, ?_, rfl, ?_⟩⟩
    · rwa [start_createParent]
    · intro hdirectory
      -- a directory at the location is a new one, and so the path leads there on its way
      have hadded : Added d (d.createParent path).2 (parent ++ [last]) := by
        rcases hgrows.entry (parent ++ [last]) with heq | hnew
        · exact absurd (heq ▸ hdirectory) hentry
        · exact hnew
      obtain ⟨steps, rest, hsteps, hrest, hleads⟩ := createParent_added hadded
      rw [start_createParent] at hleads
      refine hway steps ?_ (hgrows.destination?_eq _ _ ▸ destination?_of_followToDirectory hleads)
      rw [hnames.steps_eq] at hsteps
      have hprefix : steps <+: front ++ [last] := ⟨rest, hsteps.symm⟩
      rcases List.prefix_concat_iff.mp hprefix with heq | hfront
      · rw [heq] at hsteps
        exact absurd (List.self_eq_append_right.mp hsteps) hrest
      · exact hfront
  · rintro ⟨-, l, hlocate⟩
    obtain ⟨front, last, parent, hnames, hfollow, rfl, hentry⟩ := locateToWrite_eq_ok.mp hlocate
    rw [start_createParent] at hfollow
    refine ⟨front, last, parent, hnames, ?_, fun hdirectory => hentry (hgrows.entry_eq hdirectory), ?_⟩
    · rw [← hgrows.destination?_eq]
      exact destination?_of_followToDirectory hfollow
    · rintro steps ⟨rest, rfl⟩ hdestination
      obtain ⟨m, hm⟩ := followToDirectory_of_append hfollow
      have hleads := destination?_of_followToDirectory hm
      rw [hgrows.destination?_eq, hdestination] at hleads
      obtain rfl : parent ++ [last] = m := Option.some.inj hleads
      exact hentry (followToDirectory_eq_ok.mp hm).2

/-! ## §3 The effect of a write -/

/-- A file at the location is there before and after with the same content, or at neither time. -/
def KeepsFile (d d' : Disk) (k : Location) : Prop :=
  ∀ content, d'.entry? k = some (.file content) ↔ d.entry? k = some (.file content)

theorem GrowsTo.keepsFile (h : d.GrowsTo d') (k : Location) : d.KeepsFile d' k := by
  intro content
  rcases h.entry k with heq | ⟨hnone, hdirectory⟩
  · rw [heq]
  · rw [hnone, hdirectory]
    exact ⟨nofun, nofun⟩

/-- What a write may have done to a file system and what it has reported. -/
structure WriteEffect (d : Disk) (path text : String) (rule : Overwrite) (result : Except FileError Written)
    (d' : Disk) : Prop where
  /-- What is reported as written can be read, and no other file has changed. -/
  written : result = .ok .written →
    d'.read path = .ok text.toUTF8 ∧ d'.readText path = .ok text ∧
      ∃ l, d'.locate path = .ok l ∧ ∀ k, k ≠ l → d.KeepsFile d' k
  /-- What is skipped leaves everything as it is. -/
  skipped : result = .ok .skipped → d' = d
  /-- What fails changes, creates and removes no file. -/
  failed : ∀ e, result = .error e → ∀ k, d.KeepsFile d' k
  home : d'.home = d.home
  /-- No directory is removed. -/
  kept : ∀ k, d.entry? k = some .directory → d'.entry? k = some .directory
  /-- The only directories that are new are missing ones on the way of the path. -/
  added : ∀ k, d.Added d' k → d'.OnTheWay path k
  skipped_iff : result = .ok .skipped ↔ rule = .ifMissing ∧ d.hasPath path = true
  written_iff : d.IsTree →
    (result = .ok .written ↔ ¬ (rule = .ifMissing ∧ d.hasPath path = true) ∧ d.CanWrite path)

/-- A write that fails has the effect of creating directories. -/
theorem writeEffect_of_error {text : String} {rule : Overwrite} {e : FileError}
    (hskip : ¬ (rule = .ifMissing ∧ d.hasPath path = true))
    (hnowhere : ∀ l, (d.createParent path).1 = .ok () → (d.createParent path).2.locateToWrite path ≠ .ok l) :
    WriteEffect d path text rule (.error e) (d.createParent path).2 := by
  obtain ⟨hgrows, -⟩ := createParent_growsTo d path
  constructor
  case written => nofun
  case skipped => nofun
  case failed => exact fun _ _ => hgrows.keepsFile
  case home => exact hgrows.home
  case kept => exact fun k hk => hgrows.entry_eq hk
  case added => exact fun k hk => createParent_added hk
  case skipped_iff => exact ⟨nofun, fun h => absurd h hskip⟩
  case written_iff =>
    intro htree
    refine ⟨nofun, fun ⟨_, hcan⟩ => ?_⟩
    obtain ⟨hok, l, hlocate⟩ := (canWrite_iff htree).mp hcan
    exact absurd hlocate (hnowhere l hok)

/-- A write that succeeds has the effect of creating directories, and changes what stands where the path leads. -/
theorem writeEffect_of_written {text : String} {rule : Overwrite}
    (hskip : ¬ (rule = .ifMissing ∧ d.hasPath path = true)) (hok : (d.createParent path).1 = .ok ())
    (hlocate : (d.createParent path).2.locateToWrite path = .ok l) :
    WriteEffect d path text rule (.ok .written) ((d.createParent path).2.set l (.file text.toUTF8)) := by
  obtain ⟨hgrows, -⟩ := createParent_growsTo d path
  generalize hbetween : (d.createParent path).2 = between at hgrows hlocate ⊢
  obtain ⟨front, last, parent, hnames, hparent, rfl, hentry⟩ := locateToWrite_eq_ok.mp hlocate
  have hset := entry?_set between (l := parent ++ [last]) (by simp) (.file text.toUTF8)
  have hretains := Retains.of_set hentry (.file text.toUTF8)
  have hread := read_set hlocate text.toUTF8
  constructor
  case written =>
    intro _
    refine ⟨hread, readText_of_read hread, parent ++ [last], ?_, fun k hk content => ?_⟩
    · exact hnames.locate (hretains.followToDirectory hparent) (by rw [hset, if_pos rfl]; rfl)
    · rw [hset, if_neg hk]
      exact hgrows.keepsFile k content
  case skipped => nofun
  case failed => nofun
  case home => exact hgrows.home
  case kept => exact fun k hk => hretains.directory k (hgrows.entry_eq hk)
  case added =>
    -- the location holds a file now, so that any new directory was there before the text was put
    rintro k ⟨hnone, hdirectory⟩
    rw [hset] at hdirectory
    split_ifs at hdirectory with heq
    · cases hdirectory
    · subst hbetween
      exact hretains.onTheWay rfl (createParent_added ⟨hnone, hdirectory⟩)
  case skipped_iff => exact ⟨nofun, fun h => absurd h hskip⟩
  case written_iff =>
    intro htree
    refine ⟨fun _ => ⟨hskip, (canWrite_iff htree).mpr ⟨hok, parent ++ [last], ?_⟩⟩, fun _ => rfl⟩
    rw [hbetween, hlocate]

/-- **What a write does**, for every file system, path, text and rule. -/
theorem write_effect (d : Disk) (path text : String) (rule : Overwrite) :
    WriteEffect d path text rule (d.write path text rule).1 (d.write path text rule).2 := by
  rcases write_outcomes d path text rule with
    ⟨hskip, hwrite⟩ | ⟨hskip, ⟨e, hwrite, hnowhere⟩ | ⟨l, hok, hlocate, hwrite⟩⟩ <;> rw [hwrite]
  · constructor
    case written => nofun
    case skipped => exact fun _ => rfl
    case failed => nofun
    case home => rfl
    case kept => exact fun _ => id
    case added => exact fun k hk => absurd (hk.1.symm.trans hk.2) nofun
    case skipped_iff => exact ⟨fun _ => hskip, fun _ => rfl⟩
    case written_iff => exact fun _ => ⟨nofun, fun h => absurd hskip h.1⟩
  · exact writeEffect_of_error hskip hnowhere
  · exact writeEffect_of_written hskip hok hlocate

/-- Written by way of a directory that is missing, skipped, and failed after directories have been created. -/
theorem write_effect_detours :
    let d := (empty.write "f" "mine" .always).2
    ((d.write "a/../b/c" "new" .ifMissing).2.readText "b/c" = .ok "new" ∧
        (d.write "a/../b/c" "new" .ifMissing).2.OnTheWay "a/../b/c" ["work", "a"]) ∧
      (d.write "./f" "new" .ifMissing).2 = d ∧
      (d.write "x/y/../../f/z" "new" .always).1 = .error .alreadyExists ∧
      Disk.entry? (d.write "x/y/../../f/z" "new" .always).2 ["work", "x", "y"] = some .directory ∧
      Disk.entry? (d.write "x/y/../../f/z" "new" .always).2 ["work", "f"] = some (.file "mine".toUTF8) := by
  intro d
  have hfile : d.entry? ["work", "f"] = some (.file "mine".toUTF8) := by decide +kernel
  have herror : (d.write "x/y/../../f/z" "new" .always).1 = .error .alreadyExists := by decide +kernel
  refine ⟨⟨by decide +kernel, ?_⟩, ?_, herror, by decide +kernel, ?_⟩
  · exact (write_effect d "a/../b/c" "new" .ifMissing).added ["work", "a"] ⟨by decide +kernel, by decide +kernel⟩
  · exact (write_effect d "./f" "new" .ifMissing).skipped (by decide +kernel)
  · exact ((write_effect d "x/y/../../f/z" "new" .always).failed _ herror ["work", "f"] _).mpr hfile

end RouteStubs.Files.Disk
