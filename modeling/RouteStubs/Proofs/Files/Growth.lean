import RouteStubs.Proofs.Entries
import RouteStubs.Proofs.Files.Paths
/-!
File systems as trees, and how creating directories makes them grow.

`Disk.IsTree` says that every file and directory stands in a directory. `GrowsTo` relates a file system to
one that has further directories and is otherwise the same. Creating directories is such a growth, whether
it succeeds or not (`createDirectories_growsTo`).

`destination?` is where steps lead once the directories that are missing on the way are there. Creating them
succeeds exactly if there is such a place (`createDirectories_ok`), and the steps lead there afterwards
(`destination?_of_followToDirectory`).
-/

namespace RouteStubs.Files.Disk

/-! ## §1 Entries -/

theorem entry?_nil (d : Disk) : d.entry? [] = some .directory := rfl

theorem lookup_filter_ne {κ α : Type} [BEq κ] [LawfulBEq κ] {k l : κ} (h : k ≠ l) (entries : List (κ × α)) :
    (entries.filter fun e => e.1 != l).lookup k = entries.lookup k := by
  induction entries with
  | nil => rfl
  | cons e rest ih =>
    obtain ⟨m, v⟩ := e
    by_cases hm : (m == l) = true
    · obtain rfl := eq_of_beq hm
      rw [List.filter_cons_of_neg (by simp), ih, List.lookup_cons, beq_false_of_ne h]
    · rw [List.filter_cons_of_pos (by simpa using hm), List.lookup_cons, List.lookup_cons, ih]

/-- Setting an entry changes what stands at its location and nothing else. -/
theorem entry?_set (d : Disk) {l : Location} (hl : l ≠ []) (e : Entry) (k : Location) :
    Disk.entry? (d.set l e) k = if k = l then some e else d.entry? k := by
  by_cases hk : k = []
  · subst hk
    rw [if_neg hl.symm, entry?_nil, entry?_nil]
  · have hempty : k.isEmpty = false := by simpa using hk
    rw [ entry?, entry?, set, hempty, if_neg Bool.false_ne_true, if_neg Bool.false_ne_true, List.lookup_cons]
    by_cases heq : k = l
    · rw [if_pos heq, beq_iff_eq.mpr heq]
    · rw [if_neg heq, beq_false_of_ne heq]
      exact lookup_filter_ne heq d.entries

/-- Every file and directory stands in a directory, and the working directory is one. -/
structure IsTree (d : Disk) : Prop where
  home : d.entry? d.home = some .directory
  parent : ∀ l name e, d.entry? (l ++ [name]) = some e → d.entry? l = some .directory

/-- A file system is a tree if the working directory is there and every entry stands in a directory. -/
theorem isTree_of_forall {d : Disk} (home : d.entry? d.home = some .directory)
    (h : ∀ e ∈ d.entries, d.entry? e.1.dropLast = some .directory) : d.IsTree := by
  refine ⟨home, fun l name e hl => ?_⟩
  have hempty : (l ++ [name]).isEmpty = false := by simp
  rw [ entry?, hempty, if_neg Bool.false_ne_true] at hl
  have hparent := h _ (Entries.mem_of_lookup hl)
  rwa [List.dropLast_concat] at hparent

/-- Above a file or directory there is a directory; above the root there is the root. -/
theorem IsTree.dropLast {d : Disk} (h : d.IsTree) {l : Location} {e : Entry} (hl : d.entry? l = some e) :
    d.entry? l.dropLast = some .directory := by
  rcases List.eq_nil_or_concat l with rfl | ⟨front, name, rfl⟩
  · rfl
  · rw [List.concat_eq_append] at hl ⊢
    rw [List.dropLast_concat]
    exact h.parent front name e hl

/-- A tree stays one when something is put into a directory where there is no directory. -/
theorem IsTree.set {d : Disk} (h : d.IsTree) {l : Location} {name : String}
    (hl : d.entry? l = some .directory) (hnew : d.entry? (l ++ [name]) ≠ some .directory) (e : Entry) :
    (d.set (l ++ [name]) e).IsTree := by
  have hset := entry?_set d (l := l ++ [name]) (by simp) e
  -- what was a directory is not the location that changes
  have hkeep : ∀ k, d.entry? k = some .directory →
      Disk.entry? (d.set (l ++ [name]) e) k = some .directory := by
    intro k hk
    rw [hset, if_neg, hk]
    rintro rfl
    exact hnew hk
  refine ⟨hkeep _ h.home, fun k n f hf => ?_⟩
  rw [hset] at hf
  split at hf
  case isTrue heq =>
    obtain ⟨rfl, -⟩ := List.append_inj' heq rfl
    exact hkeep k hl
  case isFalse => exact hkeep k (h.parent k n f hf)

/-! ## §2 Growth -/

/-- The second file system is the first with further directories. -/
structure GrowsTo (d d' : Disk) : Prop where
  home : d'.home = d.home
  entry : ∀ l, d'.entry? l = d.entry? l ∨ d.entry? l = none ∧ d'.entry? l = some .directory

namespace GrowsTo

theorem refl (d : Disk) : d.GrowsTo d := ⟨rfl, fun _ => .inl rfl⟩

theorem trans {d d' d'' : Disk} (h : d.GrowsTo d') (h' : d'.GrowsTo d'') : d.GrowsTo d'' := by
  refine ⟨h'.home.trans h.home, fun l => ?_⟩
  rcases h.entry l with heq | ⟨hnone, hdirectory⟩
  · rw [← heq]
    exact h'.entry l
  · rcases h'.entry l with heq' | ⟨hnone', -⟩
    · exact .inr ⟨hnone, heq'.trans hdirectory⟩
    · rw [hdirectory] at hnone'
      cases hnone'

theorem of_set {d : Disk} {l : Location} (h : d.entry? l = none) : d.GrowsTo (d.set l .directory) := by
  have hl : l ≠ [] := by
    rintro rfl
    cases h
  refine ⟨rfl, fun k => ?_⟩
  rw [ entry?_set d hl]
  split
  case isTrue heq => exact .inr ⟨heq ▸ h, rfl⟩
  case isFalse => exact .inl rfl

/-- What is there stays as it is. -/
theorem entry_eq {d d' : Disk} (h : d.GrowsTo d') {l : Location} {e : Entry} (hl : d.entry? l = some e) :
    d'.entry? l = some e := by
  rcases h.entry l with heq | ⟨hnone, -⟩
  · rw [heq, hl]
  · rw [hnone] at hl
    cases hl

end GrowsTo

/-- What is a directory in the first file system is one in the second, and where there is something in the first
there is something in the second. -/
structure Retains (d d' : Disk) : Prop where
  directory : ∀ l, d.entry? l = some .directory → d'.entry? l = some .directory
  isSome : ∀ l, (d.entry? l).isSome = true → (d'.entry? l).isSome = true

theorem GrowsTo.retains {d d' : Disk} (h : d.GrowsTo d') : d.Retains d' := by
  refine ⟨fun l => h.entry_eq, fun l hl => ?_⟩
  obtain ⟨e, he⟩ := Option.isSome_iff_exists.mp hl
  rw [h.entry_eq he]
  rfl

/-! ## §3 Where steps lead -/

/-- The location that a step from a directory leads to, if it is there or can be created. -/
def enter? (d : Disk) (l : Location) (step : String) : Option Location :=
  if step = "." then some l
  else if step = ".." then some l.dropLast
  else if isLong step then none
  else
    match d.entry? (l ++ [step]) with
    | some (.file _) => none
    | _ => some (l ++ [step])

/-- The location that steps lead to once every directory that is missing on the way has been created. -/
def destination? (d : Disk) (l : Location) (steps : List String) : Option Location :=
  steps.foldlM d.enter? l

@[simp] theorem destination?_nil (d : Disk) (l : Location) : d.destination? l [] = some l := rfl

@[simp] theorem destination?_cons (d : Disk) (l : Location) (step : String) (rest : List String) :
    d.destination? l (step :: rest) = (d.enter? l step).bind fun m => d.destination? m rest := rfl

theorem destination?_append_singleton (d : Disk) (l : Location) (steps : List String) (step : String) :
    d.destination? l (steps ++ [step]) = (d.destination? l steps).bind fun m => d.enter? m step := by
  rw [destination?, List.foldlM_append]
  simp [destination?]

/-- Further directories do not change where steps lead. -/
theorem GrowsTo.enter?_eq {d d' : Disk} (h : d.GrowsTo d') (l : Location) (step : String) :
    d'.enter? l step = d.enter? l step := by
  rw [enter?, enter?]
  rcases h.entry (l ++ [step]) with heq | ⟨hnone, hdirectory⟩
  · rw [heq]
  · rw [hnone, hdirectory]

theorem GrowsTo.destination?_eq {d d' : Disk} (h : d.GrowsTo d') (l : Location) (steps : List String) :
    d'.destination? l steps = d.destination? l steps := by
  have henter : d'.enter? = d.enter? := funext fun l => funext fun step => h.enter?_eq l step
  rw [destination?, destination?, henter]

section
variable {d : Disk} {l m : Location} {step : String} {steps : List String}

theorem followToDirectory_eq_ok :
    d.followToDirectory l steps = .ok m ↔
      d.followAll l steps = .ok m ∧ d.entry? m = some .directory := by
  rw [followToDirectory]
  cases h : d.followAll l steps with
  | error e => simp [bind, Except.bind]
  | ok k =>
    simp only [bind, Except.bind, Except.ok.injEq]
    constructor
    · intro heq
      split at heq
      case h_1 hk =>
        obtain rfl : k = m := Except.ok.inj heq
        exact ⟨rfl, hk⟩
      case h_2 => cases heq
    · rintro ⟨rfl, hk⟩
      rw [hk]
      rfl

theorem followAll_cons (d : Disk) (l : Location) (step : String) (rest : List String) :
    d.followAll l (step :: rest) = (d.follow l step).bind fun m => d.followAll m rest := rfl

theorem followAll_append (d : Disk) (l : Location) (steps rest : List String) :
    d.followAll l (steps ++ rest) = (d.followAll l steps).bind fun m => d.followAll m rest := by
  induction steps generalizing l with
  | nil => rfl
  | cons step steps ih =>
    rw [List.cons_append, followAll_cons, followAll_cons]
    cases d.follow l step with
    | error e => rfl
    | ok k => exact ih k

/-- A step can be followed from directories only. -/
theorem directory_of_follow (h : d.follow l step = .ok m) : d.entry? l = some .directory := by
  rw [follow] at h
  split at h
  · assumption
  · cases h

theorem follow_eq_of_directory (hl : d.entry? l = some .directory) :
    d.follow l step =
      if step = "." then .ok l
      else if step = ".." then .ok l.dropLast
      else if isLong step then .error .nameTooLong
      else if (d.entry? (l ++ [step])).isSome then .ok (l ++ [step])
      else .error .notFound := by
  rw [follow, hl]

theorem Retains.follow {d' : Disk} (hretains : d.Retains d') (h : d.follow l step = .ok m) :
    d'.follow l step = .ok m := by
  have hl := directory_of_follow h
  rw [follow_eq_of_directory hl] at h
  rw [follow_eq_of_directory (hretains.directory l hl)]
  by_cases hsome : (d.entry? (l ++ [step])).isSome
  · rw [if_pos hsome] at h
    rwa [if_pos (hretains.isSome _ hsome)]
  · rw [if_neg hsome] at h
    split_ifs at h ⊢ <;> exact h

/-- A step that can be followed leads to its destination, unless that is a file. -/
theorem enter?_of_follow (h : d.follow l step = .ok m) (hm : d.entry? m = some .directory) :
    d.enter? l step = some m := by
  rw [follow_eq_of_directory (directory_of_follow h)] at h
  rw [enter?]
  split_ifs at h ⊢
  · exact congrArg some (Except.ok.inj h)
  · exact congrArg some (Except.ok.inj h)
  · obtain rfl : l ++ [step] = m := Except.ok.inj h
    rw [hm]

/-- Steps that lead to a directory lead to their destination. -/
theorem destination?_of_followToDirectory (h : d.followToDirectory l steps = .ok m) :
    d.destination? l steps = some m := by
  induction steps generalizing l with
  | nil =>
    obtain ⟨h, -⟩ := followToDirectory_eq_ok.mp h
    exact congrArg some (Except.ok.inj h)
  | cons step rest ih =>
    obtain ⟨h, hm⟩ := followToDirectory_eq_ok.mp h
    rw [followAll_cons] at h
    cases hstep : d.follow l step with
    | error e =>
      rw [hstep] at h
      cases h
    | ok k =>
      rw [hstep] at h
      have hrest : d.followToDirectory k rest = .ok m := followToDirectory_eq_ok.mpr ⟨h, hm⟩
      -- what the remaining steps are followed from is a directory
      have hk : d.entry? k = some .directory := by
        cases rest with
        | nil =>
          obtain rfl : k = m := Except.ok.inj h
          exact hm
        | cons next rest =>
          rw [Except.bind, followAll_cons] at h
          cases hnext : d.follow k next with
          | error e =>
            rw [hnext] at h
            cases h
          | ok n => exact directory_of_follow hnext
      rw [destination?_cons, enter?_of_follow hstep hk, Option.bind_some]
      exact ih hrest

theorem Retains.followAll {d' : Disk} (hretains : d.Retains d') (h : d.followAll l steps = .ok m) :
    d'.followAll l steps = .ok m := by
  induction steps generalizing l with
  | nil => exact h
  | cons step rest ih =>
    rw [followAll_cons] at h ⊢
    cases hstep : d.follow l step with
    | error e =>
      rw [hstep] at h
      cases h
    | ok k =>
      rw [hstep] at h
      rw [hretains.follow hstep]
      exact ih h

theorem Retains.followToDirectory {d' : Disk} (hretains : d.Retains d')
    (h : d.followToDirectory l steps = .ok m) : d'.followToDirectory l steps = .ok m := by
  obtain ⟨hsteps, hm⟩ := followToDirectory_eq_ok.mp h
  exact followToDirectory_eq_ok.mpr ⟨hretains.followAll hsteps, hretains.directory m hm⟩

/-- Following steps, one more at the end. -/
theorem followToDirectory_append_singleton {k : Location} (h : d.followToDirectory l steps = .ok k)
    (hstep : d.follow k step = .ok m) (hm : d.entry? m = some .directory) :
    d.followToDirectory l (steps ++ [step]) = .ok m := by
  obtain ⟨hsteps, -⟩ := followToDirectory_eq_ok.mp h
  refine followToDirectory_eq_ok.mpr ⟨?_, hm⟩
  rw [followAll_append, hsteps, Except.bind, followAll_cons, hstep]
  rfl

/-- From a directory of a tree, a step with a destination can be followed there or leads to something that
is not there. -/
theorem follow_of_enter? (h : d.IsTree) (hl : d.entry? l = some .directory)
    (hm : d.enter? l step = some m) :
    (d.follow l step = .ok m ∧ d.entry? m = some .directory) ∨
      (d.follow l step = .error .notFound ∧ step ≠ "." ∧ step ≠ ".." ∧ isLong step = false ∧
        m = l ++ [step] ∧ d.entry? m = none) := by
  rw [follow_eq_of_directory hl]
  rw [enter?] at hm
  split_ifs at hm ⊢ with hdot hdots hlong hsome
  · obtain rfl : l = m := Option.some.inj hm
    exact .inl ⟨rfl, hl⟩
  · obtain rfl : l.dropLast = m := Option.some.inj hm
    exact .inl ⟨rfl, h.dropLast hl⟩
  · obtain ⟨e, he⟩ := Option.isSome_iff_exists.mp hsome
    cases e with
    | file content =>
      rw [he] at hm
      cases hm
    | directory =>
      rw [he] at hm
      obtain rfl : l ++ [step] = m := Option.some.inj hm
      exact .inl ⟨rfl, he⟩
  · have hnone : d.entry? (l ++ [step]) = none := by simpa using hsome
    rw [hnone] at hm
    obtain rfl : l ++ [step] = m := Option.some.inj hm
    exact .inr ⟨rfl, hdot, hdots, by simpa using hlong, rfl, hnone⟩

/-- From a directory of a tree, steps with a destination can be followed there, or some of them lead to
something that is not there. -/
theorem followToDirectory_of_destination? (h : d.IsTree) (hl : d.entry? l = some .directory)
    (hm : d.destination? l steps = some m) :
    d.followToDirectory l steps = .ok m ∨ d.followToDirectory l steps = .error .notFound := by
  induction steps generalizing l with
  | nil =>
    obtain rfl : l = m := Option.some.inj hm
    exact .inl (followToDirectory_eq_ok.mpr ⟨rfl, hl⟩)
  | cons step rest ih =>
    rw [destination?_cons] at hm
    obtain ⟨k, hk, hm⟩ := Option.bind_eq_some_iff.mp hm
    rw [followToDirectory, followAll_cons]
    rcases follow_of_enter? h hl hk with ⟨hfollow, hdirectory⟩ | ⟨hfollow, -⟩
    · rw [hfollow]
      exact ih hdirectory hm
    · rw [hfollow]
      exact .inr rfl

end

/-! ## §4 Creating directories -/

/-- The location of a directory that a step from a directory creates. -/
def newIn (d : Disk) (parent : Location) (step : String) : Except FileError Location :=
  if step = "." ∨ step = ".." then .error .alreadyExists
  else if isLong step then .error .nameTooLong
  else if (d.entry? (parent ++ [step])).isSome then .error .alreadyExists
  else .ok (parent ++ [step])

section
variable {d : Disk} {l new : Location} {step : String} {steps : List String} {size : Nat}

theorem locateNew_append :
    d.locateNew l (steps ++ [step]) size =
      match stepsProblem? (steps ++ [step]) size with
      | some e => .error e
      | none => (d.followToDirectory l steps).bind fun parent => d.newIn parent step := by
  rw [locateNew]
  cases stepsProblem? (steps ++ [step]) size with
  | some e => rfl
  | none =>
    simp only [List.getLast?_concat, List.dropLast_concat]
    cases d.followToDirectory l steps with
    | error e => rfl
    | ok parent =>
      simp only [newIn, bind, Except.bind, throw, throwThe, MonadExceptOf.throw, pure, Except.pure]
      by_cases hdots : step = "." ∨ step = ".."
      · simp [hdots]
      · simp [hdots]

theorem locateNew_append_of_accepted (h : stepsProblem? (steps ++ [step]) size = none) :
    d.locateNew l (steps ++ [step]) size =
      (d.followToDirectory l steps).bind fun parent => d.newIn parent step := by
  rw [locateNew_append, h]

theorem newIn_eq_ok {parent : Location} :
    d.newIn parent step = .ok new ↔
      step ≠ "." ∧ step ≠ ".." ∧ isLong step = false ∧ d.entry? (parent ++ [step]) = none ∧
        parent ++ [step] = new := by
  rw [newIn]
  split_ifs with hdots hlong hsome
  · exact ⟨nofun, fun h => absurd hdots (not_or.mpr ⟨h.1, h.2.1⟩)⟩
  · exact ⟨nofun, fun h => absurd (h.2.2.1.symm.trans hlong) Bool.false_ne_true⟩
  · refine ⟨nofun, fun h => ?_⟩
    rw [h.2.2.2.1] at hsome
    cases hsome
  · obtain ⟨hdot, hdotdot⟩ := not_or.mp hdots
    have hnone : d.entry? (parent ++ [step]) = none := by simpa using hsome
    simp [hdot, hdotdot, hlong, hnone]

/-- A directory is created by a name in a directory, where there is nothing. -/
theorem locateNew_append_eq_ok (h : d.locateNew l (steps ++ [step]) size = .ok new) :
    ∃ parent, d.followToDirectory l steps = .ok parent ∧ step ≠ "." ∧ step ≠ ".." ∧
      isLong step = false ∧ d.entry? (parent ++ [step]) = none ∧ parent ++ [step] = new := by
  rw [locateNew_append] at h
  split at h
  case h_1 => cases h
  cases hparent : d.followToDirectory l steps with
  | error e =>
    rw [hparent] at h
    cases h
  | ok parent =>
    rw [hparent] at h
    exact ⟨parent, rfl, newIn_eq_ok.mp h⟩

end

/-- Creates the directory that steps lead to, where those before it are there. -/
def createLast (d : Disk) (size : List String → Nat) (l : Location) (steps : List String) :
    Except FileError Unit × Disk :=
  match d.locateNew l steps (size steps) with
  | .ok new => (.ok (), d.set new .directory)
  | .error e => (if d.hasDirectory l steps (size steps) then .ok () else .error e, d)

/-- Creating the directories that steps lead to begins with the last, and that is all unless it wants another one. -/
theorem createDirectories_cons_of_ne {d : Disk} {size : List String → Nat} {l : Location} {step : String}
    {before : List String}
    (h : d.locateNew l (before.reverse ++ [step]) (size (before.reverse ++ [step])) ≠ .error .notFound) :
    d.createDirectories size l (step :: before) = d.createLast size l (before.reverse ++ [step]) := by
  rw [createDirectories.eq_def]
  simp only [createLast, List.reverse_cons]
  split
  case h_1 hnew => rw [hnew]
  case h_2 hnew => exact absurd hnew h
  case h_3 hnew => rw [hnew]

/-- Creating the directories that steps lead to goes back to the steps before only if the last directory
cannot be created for want of another. -/
theorem createDirectories_cons_cases (d : Disk) (size : List String → Nat) (l : Location) (step : String)
    (before : List String) :
    let steps := before.reverse ++ [step]
    let result := d.createDirectories size l (step :: before)
    (d.locateNew l steps (size steps) ≠ .error .notFound ∧ result = d.createLast size l steps) ∨
      (∃ e d', d.createDirectories size l before = (.error e, d') ∧ result = (.error e, d')) ∨
      ∃ d', d.createDirectories size l before = (.ok (), d') ∧ result = d'.createLast size l steps := by
  intro steps result
  by_cases hnew : d.locateNew l steps (size steps) = .error .notFound
  · have hsteps : (step :: before).reverse = steps := List.reverse_cons
    rcases hbefore : d.createDirectories size l before with ⟨e | _, d'⟩
    · refine .inr (.inl ⟨e, d', rfl, ?_⟩)
      simp only [result, createDirectories, hsteps, hnew, hbefore]
    · refine .inr (.inr ⟨d', rfl, ?_⟩)
      simp only [result, createDirectories, hsteps, hnew, hbefore]
      rfl
  · exact .inl ⟨hnew, createDirectories_cons_of_ne hnew⟩

section
variable {d : Disk} {size : List String → Nat} {l : Location}

theorem hasDirectory_of_accepted {steps : List String} {n : Nat} {m : Location} (hsteps : stepsProblem? steps n = none)
    (h : d.followToDirectory l steps = .ok m) : d.hasDirectory l steps n = true := by
  rw [hasDirectory, hsteps, h]

theorem hasDirectory_of_error {steps : List String} {e : FileError} (h : d.followToDirectory l steps = .error e)
    (n : Nat) : d.hasDirectory l steps n = false := by
  rw [hasDirectory, h]
  cases stepsProblem? steps n <;> rfl

/-- Creating one directory is a growth, and a tree stays one. -/
theorem createLast_growsTo (d : Disk) (size : List String → Nat) (l : Location) (steps : List String) (step : String) :
    d.GrowsTo (d.createLast size l (steps ++ [step])).2 ∧
      (d.IsTree → (d.createLast size l (steps ++ [step])).2.IsTree) := by
  rw [createLast]
  cases hnew : d.locateNew l (steps ++ [step]) (size (steps ++ [step])) with
  | error e => exact ⟨.refl d, id⟩
  | ok new =>
    obtain ⟨parent, hparent, -, -, -, hnone, rfl⟩ := locateNew_append_eq_ok hnew
    refine ⟨.of_set hnone, fun h => h.set (followToDirectory_eq_ok.mp hparent).2 ?_ _⟩
    rw [hnone]
    exact nofun

/-- Creating directories is a growth, whether it succeeds or not, and a tree stays one. -/
theorem createDirectories_growsTo (d : Disk) (size : List String → Nat) (l : Location) (steps : List String) :
    d.GrowsTo (d.createDirectories size l steps).2 ∧
      (d.IsTree → (d.createDirectories size l steps).2.IsTree) := by
  induction steps with
  | nil => exact ⟨.refl d, id⟩
  | cons step before ih =>
    rcases createDirectories_cons_cases d size l step before with
      ⟨-, hresult⟩ | ⟨e, d', hbefore, hresult⟩ | ⟨d', hbefore, hresult⟩ <;> rw [hresult]
    · exact createLast_growsTo ..
    · rw [hbefore] at ih
      exact ih
    · rw [hbefore] at ih
      obtain ⟨hgrows, htree⟩ := createLast_growsTo d' size l before.reverse step
      exact ⟨ih.1.trans hgrows, fun h => htree (ih.2 h)⟩

/-- The steps lead to a directory that they have created. -/
theorem followToDirectory_set {new : Location} {steps : List String} {step : String} {size : Nat}
    (h : d.locateNew l (steps ++ [step]) size = .ok new) :
    (d.set new .directory).followToDirectory l (steps ++ [step]) = .ok new := by
  obtain ⟨parent, hparent, hdot, hdots, hlong, hnone, rfl⟩ := locateNew_append_eq_ok h
  have hgrows : d.GrowsTo (d.set (parent ++ [step]) .directory) := .of_set hnone
  have hnew : Disk.entry? (d.set (parent ++ [step]) .directory) (parent ++ [step]) = some .directory := by
    rw [ entry?_set d (by simp), if_pos rfl]
  have hfollow : (d.set (parent ++ [step]) .directory).follow parent step = .ok (parent ++ [step]) := by
    rw [follow_eq_of_directory (hgrows.entry_eq (followToDirectory_eq_ok.mp hparent).2), if_neg hdot,
      if_neg hdots, hlong, hnew]
    rfl
  exact followToDirectory_append_singleton (hgrows.retains.followToDirectory hparent) hfollow hnew

/-- Where a directory is created, the steps lead to it. -/
theorem followToDirectory_createLast {steps : List String} {step : String}
    (h : (d.createLast size l (steps ++ [step])).1 = .ok ()) :
    ∃ m, (d.createLast size l (steps ++ [step])).2.followToDirectory l (steps ++ [step]) = .ok m := by
  rw [createLast] at h ⊢
  cases hnew : d.locateNew l (steps ++ [step]) (size (steps ++ [step])) with
  | error e =>
    rw [hnew] at h
    cases hdirectory : d.followToDirectory l (steps ++ [step]) with
    | ok m => exact ⟨m, rfl⟩
    | error e =>
      rw [hasDirectory_of_error hdirectory] at h
      cases h
  | ok new => exact ⟨new, followToDirectory_set hnew⟩

/-- Where directories are created, the steps lead to the last of them. -/
theorem followToDirectory_createDirectories {steps : List String} (hl : d.entry? l = some .directory)
    (h : (d.createDirectories size l steps).1 = .ok ()) :
    ∃ m, (d.createDirectories size l steps).2.followToDirectory l steps.reverse = .ok m := by
  cases steps with
  | nil => exact ⟨l, followToDirectory_eq_ok.mpr ⟨rfl, hl⟩⟩
  | cons step before =>
    rw [List.reverse_cons]
    rcases createDirectories_cons_cases d size l step before with
      ⟨-, hresult⟩ | ⟨e, d', -, hresult⟩ | ⟨d', -, hresult⟩ <;> rw [hresult] at h ⊢
    · exact followToDirectory_createLast h
    · cases h
    · exact followToDirectory_createLast h

/-- In a tree a directory can be created where the steps have a destination and those before it are there. -/
theorem createLast_ok {steps : List String} {step : String} {parent m : Location} (h : d.IsTree)
    (hsteps : stepsProblem? (steps ++ [step]) (size (steps ++ [step])) = none)
    (hparent : d.followToDirectory l steps = .ok parent)
    (hm : d.destination? l (steps ++ [step]) = some m) :
    (d.createLast size l (steps ++ [step])).1 = .ok () := by
  rw [destination?_append_singleton, destination?_of_followToDirectory hparent] at hm
  have hdirectory := (followToDirectory_eq_ok.mp hparent).2
  rcases follow_of_enter? h hdirectory hm with ⟨hfollow, hthere⟩ | ⟨-, hdot, hdots, hlong, rfl, hnone⟩
  · rw [createLast, hasDirectory_of_accepted hsteps (followToDirectory_append_singleton hparent hfollow hthere)]
    cases d.locateNew l (steps ++ [step]) (size (steps ++ [step])) <;> rfl
  · have hnew : d.locateNew l (steps ++ [step]) (size (steps ++ [step])) = .ok (parent ++ [step]) := by
      rw [locateNew_append_of_accepted hsteps, hparent]
      exact newIn_eq_ok.mpr ⟨hdot, hdots, hlong, hnone, rfl⟩
    rw [createLast, hnew]

/-- **In a tree the directories that steps lead to can be created where the steps have a destination.** -/
theorem createDirectories_ok {steps : List String} {m : Location} (h : d.IsTree)
    (hl : d.entry? l = some .directory) (hsteps : ∀ s, s.Sublist steps.reverse → stepsProblem? s (size s) = none)
    (hm : d.destination? l steps.reverse = some m) : (d.createDirectories size l steps).1 = .ok () := by
  induction steps generalizing m with
  | nil => rfl
  | cons step before ih =>
    rw [List.reverse_cons] at hm hsteps
    have haccepted := hsteps _ (List.Sublist.refl _)
    obtain ⟨parent, hparent, -⟩ := Option.bind_eq_some_iff.mp (destination?_append_singleton .. ▸ hm)
    have hbefore : (d.createDirectories size l before).1 = .ok () :=
      ih (fun s hs => hsteps s (hs.trans (List.sublist_append_left ..))) hparent
    rcases createDirectories_cons_cases d size l step before with
      ⟨hfound, hresult⟩ | ⟨e, d', herror, -⟩ | ⟨d', hd', hresult⟩
    · -- the last directory was not wanting another one, so those before it are there
      rw [hresult]
      rcases followToDirectory_of_destination? h hl hparent with hfollow | hfollow
      · exact createLast_ok h haccepted hfollow hm
      · rw [locateNew_append_of_accepted haccepted, hfollow] at hfound
        exact absurd rfl hfound
    · rw [herror] at hbefore
      cases hbefore
    · rw [hresult]
      obtain ⟨hgrows, htree⟩ := createDirectories_growsTo d size l before
      obtain ⟨k, hk⟩ := followToDirectory_createDirectories hl hbefore
      rw [hd'] at hgrows htree hk
      exact createLast_ok (htree h) haccepted hk (hgrows.destination?_eq l _ ▸ hm)

end

end RouteStubs.Files.Disk
