import RouteStubs.Proofs.Files.Growth
/-!
Which file a write that keeps what is there can change.

Whether something is there is asked of the path as it is; then the directories on the way are created, and then
the path is followed once more. In between, a path that could not be followed may have come to lead to a file:
it steps into a directory that is missing and out of it again. `Detours` says so of a path and the file.

`write_ifMissing_entry?` is what becomes of a file under such a write, and `not_detours_of_no_dots` says that it
takes a step `..` to make a detour to something that is there.
-/

namespace RouteStubs.Files.Disk

/-! ## §1 Paths that end with a name -/

/-- The path is accepted by the system and ends with a name, and `front` are the steps to its directory. -/
structure Names (path : String) (front : List String) (last : String) : Prop where
  accepted : textProblem? path = none
  steps_eq : (Path.ofText path).steps = front ++ [last]
  not_slashed : (Path.ofText path).slashed = false
  ne_dot : last ≠ "."
  ne_dots : last ≠ ".."
  not_long : isLong last = false

/-- The location that a path leads to once the directories that are missing on the way have been created, if
the path ends with a name. -/
def target? (d : Disk) (path : String) : Option Location :=
  let p := Path.ofText path
  match textProblem? path, p.steps.getLast? with
  | none, some last =>
    if p.slashed || last = "." || last = ".." || isLong last then none
    else (d.destination? (d.start p) p.steps.dropLast).map (· ++ [last])
  | _, _ => none

section
variable {d : Disk} {path : String} {l : Location}

theorem target?_eq_some :
    d.target? path = some l ↔ ∃ front last parent, Names path front last ∧
      d.destination? (d.start (Path.ofText path)) front = some parent ∧ parent ++ [last] = l := by
  rw [target?]
  constructor
  · intro h
    split at h
    case h_1 last haccepted hlast =>
      obtain ⟨front, hsteps⟩ := List.getLast?_eq_some_iff.mp hlast
      rw [hsteps, List.dropLast_concat] at h
      split_ifs at h with hproper
      simp only [Bool.or_eq_true, decide_eq_true_eq, not_or, Bool.not_eq_true] at hproper
      obtain ⟨⟨⟨hslashed, hdot⟩, hdots⟩, hlong⟩ := hproper
      obtain ⟨parent, hparent, rfl⟩ := Option.map_eq_some_iff.mp h
      exact ⟨front, last, parent, ⟨haccepted, hsteps, hslashed, hdot, hdots, hlong⟩, hparent, rfl⟩
    case h_2 => cases h
  · rintro ⟨front, last, parent, hnames, hparent, rfl⟩
    simp [hnames.accepted, hnames.steps_eq, hnames.not_slashed, hnames.ne_dot, hnames.ne_dots,
      hnames.not_long, hparent]

theorem locateToWrite_eq_ok :
    d.locateToWrite path = .ok l ↔ ∃ front last parent, Names path front last ∧
      d.followToDirectory (d.start (Path.ofText path)) front = .ok parent ∧ parent ++ [last] = l ∧
      d.entry? l ≠ some .directory := by
  rw [locateToWrite]
  constructor
  · intro h
    split at h
    case h_1 => cases h
    case h_2 haccepted =>
      dsimp only at h
      split at h
      case h_1 => cases h
      case h_2 last hlast =>
        obtain ⟨front, hsteps⟩ := List.getLast?_eq_some_iff.mp hlast
        rw [hsteps, List.dropLast_concat] at h
        cases hparent : d.followToDirectory (d.start (Path.ofText path)) front with
        | error e =>
          rw [hparent] at h
          split_ifs at h <;> cases h
        | ok parent =>
          rw [hparent] at h
          simp only [bind, Except.bind, throw, throwThe, MonadExceptOf.throw, pure, Except.pure] at h
          split_ifs at h with hproper hlong
          simp only [Bool.or_eq_true, decide_eq_true_eq, not_or, Bool.not_eq_true] at hproper
          obtain ⟨⟨hslashed, hdot⟩, hdots⟩ := hproper
          split at h
          case h_1 => cases h
          case h_2 hne =>
            obtain rfl : parent ++ [last] = l := Except.ok.inj h
            exact ⟨front, last, parent, ⟨haccepted, hsteps, hslashed, hdot, hdots, by simpa using hlong⟩,
              hparent, rfl, hne⟩
  · rintro ⟨front, last, parent, hnames, hparent, rfl, hentry⟩
    simp only [hnames.accepted, hnames.steps_eq, List.getLast?_concat, List.dropLast_concat, hparent,
      hnames.not_slashed, hnames.ne_dot, hnames.ne_dots, hnames.not_long, bind, Except.bind, pure, Except.pure]
    rfl

/-- A path that ends with a name leads to what has that name in its directory. -/
theorem Names.locate {front : List String} {last : String} {parent : Location} (hnames : Names path front last)
    (hparent : d.followToDirectory (d.start (Path.ofText path)) front = .ok parent)
    (hthere : (d.entry? (parent ++ [last])).isSome = true) : d.locate path = .ok (parent ++ [last]) := by
  obtain ⟨hfront, hdirectory⟩ := followToDirectory_eq_ok.mp hparent
  have hlast : d.follow parent last = .ok (parent ++ [last]) := by
    rw [follow_eq_of_directory hdirectory, if_neg hnames.ne_dot, if_neg hnames.ne_dots, hnames.not_long,
      if_neg Bool.false_ne_true, if_pos hthere]
  rw [Disk.locate, hnames.accepted]
  simp only [hnames.not_slashed, hnames.steps_eq, followAll_append, hfront, Except.bind, followAll_cons, hlast]
  rfl

end

/-! ## §2 The directory of a path -/

section
variable {d : Disk} {l : Location}

/-- A step `.` does not change where steps lead. -/
theorem destination?_filter (steps : List String) :
    d.destination? l (steps.filter (· != ".")) = d.destination? l steps := by
  induction steps generalizing l with
  | nil => rfl
  | cons step rest ih =>
    by_cases hdot : step = "."
    · subst hdot
      rw [List.filter_cons_of_neg (by simp), ih, destination?_cons, enter?, if_pos rfl, Option.bind_some]
    · rw [List.filter_cons_of_pos (by simpa using hdot), destination?_cons, destination?_cons]
      exact congrArg _ (funext fun _ => ih)

theorem followToDirectory_of_not_directory (hl : d.entry? l ≠ some .directory) (steps : List String) :
    d.followToDirectory l steps = .error .notDirectory := by
  rw [followToDirectory]
  cases steps with
  | nil =>
    simp only [followAll, bind, Except.bind]
    rfl
  | cons step rest =>
    have hfollow : d.follow l step = .error .notDirectory := by
      rw [follow]
      split
      case h_1 heq => exact absurd heq hl
      case h_2 => rfl
    rw [followAll_cons, hfollow]
    rfl

theorem followToDirectory_filter (steps : List String) :
    d.followToDirectory l (steps.filter (· != ".")) = d.followToDirectory l steps := by
  induction steps generalizing l with
  | nil => rfl
  | cons step rest ih =>
    by_cases hdot : step = "."
    · subst hdot
      rw [List.filter_cons_of_neg (by simp), ih]
      by_cases hl : d.entry? l = some .directory
      · have hfollow : d.follow l "." = .ok l := by rw [follow_eq_of_directory hl, if_pos rfl]
        rw [followToDirectory, followToDirectory, followAll_cons, hfollow]
        rfl
      · rw [followToDirectory_of_not_directory hl, followToDirectory_of_not_directory hl]
    · rw [List.filter_cons_of_pos (by simpa using hdot), followToDirectory, followToDirectory,
        followAll_cons, followAll_cons]
      cases hstep : d.follow l step with
      | error e => rfl
      | ok k => exact ih

theorem start_of_home {d' : Disk} (h : d'.home = d.home) (p : Path) : d'.start p = d.start p := by
  rw [start, start, h]

theorem start_directory (h : d.IsTree) (p : Path) : d.entry? (d.start p) = some .directory := by
  rw [start]
  split
  · rfl
  · exact h.home

theorem createParent_growsTo (d : Disk) (path : String) :
    d.GrowsTo (d.createParent path).2 ∧ (d.IsTree → (d.createParent path).2.IsTree) := by
  simp only [createParent]
  split
  · exact ⟨.refl d, id⟩
  · exact createDirectories_growsTo ..

/-- **In a tree the directory of a path can be created, and is there afterwards, if the path has a target.** -/
theorem createParent_ok {path : String} {front : List String} {last : String} {parent : Location}
    (h : d.IsTree) (hnames : Names path front last)
    (hparent : d.destination? (d.start (Path.ofText path)) front = some parent) :
    (d.createParent path).1 = .ok () ∧
      (d.createParent path).2.followToDirectory (d.start (Path.ofText path)) front = .ok parent := by
  obtain ⟨steps, hsteps, hsublist, hfilter⟩ := Path.parentSteps?_of_steps hnames.steps_eq hnames.ne_dot
  have hcreate : d.createParent path =
      d.createDirectories (Path.sizeUpTo path) (d.start (Path.ofText path)) steps.reverse := by
    simp only [createParent, hsteps]
  have hstart := start_directory h (Path.ofText path)
  have hdestination : d.destination? (d.start (Path.ofText path)) steps = some parent := by
    rw [← destination?_filter, hfilter, destination?_filter, hparent]
  have hok : (d.createParent path).1 = .ok () := by
    rw [hcreate]
    refine createDirectories_ok h hstart (m := parent) (fun s hs => ?_) ?_
    · rw [List.reverse_reverse] at hs
      exact stepsProblem?_of_sublist hnames.accepted (hs.trans hsublist)
    · rw [List.reverse_reverse, hdestination]
  obtain ⟨hgrows, -⟩ := createParent_growsTo d path
  refine ⟨hok, ?_⟩
  obtain ⟨m, hm⟩ : ∃ m, (d.createParent path).2.followToDirectory (d.start (Path.ofText path)) steps =
      .ok m := by
    rw [hcreate] at hok ⊢
    simpa using followToDirectory_createDirectories hstart hok
  -- a step `.` more or less makes no difference, and there is only one destination
  rw [← followToDirectory_filter, ← hfilter, followToDirectory_filter, hm]
  have hboth := destination?_of_followToDirectory hm
  rw [hgrows.destination?_eq, hdestination] at hboth
  exact congrArg Except.ok (Option.some.inj hboth).symm

end

/-! ## §3 Writing -/

/-- The path cannot be followed as it is, but leads to the location once the directories that are missing on
the way have been created. -/
def Detours (d : Disk) (path : String) (l : Location) : Prop :=
  d.hasPath path = false ∧ d.target? path = some l

instance (d : Disk) (path : String) (l : Location) : Decidable (d.Detours path l) :=
  inferInstanceAs (Decidable (_ ∧ _))

section
variable {d : Disk} {l m : Location}

theorem start_createParent (d : Disk) (path : String) (p : Path) :
    (d.createParent path).2.start p = d.start p :=
  start_of_home (createParent_growsTo d path).1.home p

/-- A file that is there is written to by a path that has it as its target. -/
theorem locateToWrite_createParent (path : String) {content : ByteArray} (h : d.IsTree)
    (hl : d.entry? l = some (.file content)) :
    (d.createParent path).1 = .ok () ∧ (d.createParent path).2.locateToWrite path = .ok l ↔
      d.target? path = some l := by
  obtain ⟨hgrows, -⟩ := createParent_growsTo d path
  rw [target?_eq_some, locateToWrite_eq_ok, start_createParent]
  constructor
  · rintro ⟨-, front, last, parent, hnames, hparent, heq, -⟩
    refine ⟨front, last, parent, hnames, ?_, heq⟩
    rw [← hgrows.destination?_eq]
    exact destination?_of_followToDirectory hparent
  · rintro ⟨front, last, parent, hnames, hparent, heq⟩
    obtain ⟨hok, hfollow⟩ := createParent_ok h hnames hparent
    refine ⟨hok, front, last, parent, hnames, hfollow, heq, ?_⟩
    rw [hgrows.entry_eq hl]
    nofun

/-- A write skips, fails before anything is put anywhere, or puts the text where the path leads to once the
directories on its way have been created. -/
theorem write_outcomes (d : Disk) (path text : String) (rule : Overwrite) :
    let between := (d.createParent path).2
    (rule = .ifMissing ∧ d.hasPath path = true) ∧ d.write path text rule = (.ok .skipped, d) ∨
      ¬ (rule = .ifMissing ∧ d.hasPath path = true) ∧
        ((∃ e, d.write path text rule = (.error e, between) ∧
            ∀ l, (d.createParent path).1 = .ok () → between.locateToWrite path ≠ .ok l) ∨
          ∃ l, (d.createParent path).1 = .ok () ∧ between.locateToWrite path = .ok l ∧
            d.write path text rule = (.ok .written, between.set l (.file text.toUTF8))) := by
  intro between
  rw [write]
  by_cases hskip : rule = .ifMissing ∧ d.hasPath path = true
  · exact .inl ⟨hskip, by rw [if_pos (by simp [hskip.1, hskip.2])]⟩
  · refine .inr ⟨hskip, ?_⟩
    rw [if_neg (by simpa using hskip)]
    rcases hparent : d.createParent path with ⟨e | _, d'⟩
    · exact .inl ⟨e, by simp only [between, hparent], by simp⟩
    · have hbetween : between = d' := congrArg Prod.snd hparent
      rw [hbetween]
      dsimp only [put]
      cases hlocate : d'.locateToWrite path with
      | error e => exact .inl ⟨e, rfl, by simp⟩
      | ok l => exact .inr ⟨l, rfl, rfl, rfl⟩

theorem write_isTree (h : d.IsTree) (path text : String) (rule : Overwrite) :
    (d.write path text rule).2.IsTree := by
  have hparent := (createParent_growsTo d path).2 h
  rcases write_outcomes d path text rule with
    ⟨-, hwrite⟩ | ⟨-, ⟨e, hwrite, -⟩ | ⟨l, -, hlocate, hwrite⟩⟩ <;> rw [hwrite]
  · exact h
  · exact hparent
  · obtain ⟨front, last, parent, -, hfollow, rfl, hnew⟩ := locateToWrite_eq_ok.mp hlocate
    exact hparent.set (followToDirectory_eq_ok.mp hfollow).2 hnew _

/-- **What a write that keeps what is there does to a file**: it replaces the content if the path makes a
detour to the file, and otherwise leaves it as it is. -/
theorem write_ifMissing_entry? {content : ByteArray} (h : d.IsTree) (path text : String)
    (hl : d.entry? l = some (.file content)) :
    Disk.entry? (d.write path text .ifMissing).2 l =
      some (.file (if d.Detours path l then text.toUTF8 else content)) := by
  have htarget := locateToWrite_createParent path h hl
  have hkept := (createParent_growsTo d path).1.entry_eq hl
  rcases write_outcomes d path text .ifMissing with
    ⟨⟨-, hthere⟩, hwrite⟩ | ⟨hmissing, ⟨e, hwrite, hnowhere⟩ | ⟨k, hok, hlocate, hwrite⟩⟩ <;> rw [hwrite]
  · have hnot : ¬ d.Detours path l := fun hdetour => by
      rw [hdetour.1] at hthere
      cases hthere
    rw [if_neg hnot, hl]
  · have hnot : ¬ d.Detours path l := fun hdetour => by
      obtain ⟨hok, hlocate⟩ := htarget.mpr hdetour.2
      exact hnowhere l hok hlocate
    rw [if_neg hnot, hkept]
  · have hpath : d.hasPath path = false := by simpa using hmissing
    have hiff : d.Detours path l ↔ l = k := by
      constructor
      · intro hdetour
        exact Except.ok.inj ((htarget.mpr hdetour.2).2.symm.trans hlocate)
      · rintro rfl
        exact ⟨hpath, htarget.mp ⟨hok, hlocate⟩⟩
    obtain ⟨front, last, parent, -, -, rfl, -⟩ := locateToWrite_eq_ok.mp hlocate
    rw [ entry?_set _ (by simp), hkept]
    by_cases hdetour : d.Detours path l
    · rw [if_pos (hiff.mp hdetour), if_pos hdetour]
    · rw [if_neg fun heq => hdetour (hiff.mpr heq), if_neg hdetour]

/-! ## §4 Paths without a step `..` -/

/-- Without a step `..`, steps that have a directory of a tree as their destination lead there, and so start
from a directory. -/
theorem followToDirectory_of_no_dots {steps : List String} (h : d.IsTree) (hdots : ".." ∉ steps)
    (hm : d.destination? l steps = some m) (hthere : d.entry? m = some .directory) :
    d.entry? l = some .directory ∧ d.followToDirectory l steps = .ok m := by
  induction steps generalizing l with
  | nil =>
    obtain rfl : l = m := Option.some.inj hm
    exact ⟨hthere, followToDirectory_eq_ok.mpr ⟨rfl, hthere⟩⟩
  | cons step rest ih =>
    obtain ⟨k, hk, hrest⟩ := Option.bind_eq_some_iff.mp hm
    obtain ⟨hne, hdots⟩ := List.ne_and_not_mem_of_not_mem_cons hdots
    obtain ⟨hdirectory, hfollow⟩ := ih hdots hrest
    have hl : d.entry? l = some .directory := by
      rw [enter?, if_neg hne.symm] at hk
      split_ifs at hk with hdot hlong
      · obtain rfl : l = k := Option.some.inj hk
        exact hdirectory
      · split at hk
        · cases hk
        · obtain rfl : l ++ [step] = k := Option.some.inj hk
          exact h.parent l step _ hdirectory
    refine ⟨hl, ?_⟩
    rcases follow_of_enter? h hl hk with ⟨hstep, -⟩ | ⟨-, -, -, -, -, hnone⟩
    · rw [followToDirectory, followAll_cons, hstep]
      exact hfollow
    · rw [hnone] at hdirectory
      cases hdirectory

/-- **A path without a step `..` makes no detour to anything that is there.** -/
theorem not_detours_of_no_dots {path : String} {e : Entry} (h : d.IsTree)
    (hdots : ".." ∉ (Path.ofText path).steps) (hl : d.entry? l = some e) : ¬ d.Detours path l := by
  rintro ⟨hpath, htarget⟩
  obtain ⟨front, last, parent, hnames, hparent, rfl⟩ := target?_eq_some.mp htarget
  rw [hnames.steps_eq] at hdots
  have hdirectory : d.entry? parent = some .directory := h.parent parent last e hl
  obtain ⟨-, hfront⟩ := followToDirectory_of_no_dots h
    (fun hmem => hdots (List.mem_append_left _ hmem)) hparent hdirectory
  have hlocate : d.locate path = .ok (parent ++ [last]) := hnames.locate hfront (by rw [hl]; rfl)
  rw [hasPath, hlocate] at hpath
  cases hpath

end

end RouteStubs.Files.Disk
