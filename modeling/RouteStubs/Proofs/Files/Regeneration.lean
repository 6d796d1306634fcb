import RouteStubs.Proofs.Files.FirstWrite
import RouteStubs.Proofs.Files.WriteEffect
/-!
Generating a file without formatting it, and generating it again.

Everything that can fail without touching the file system comes first: the walk. Once it has succeeded there is a text,
and what follows is the write of that text and nothing else. So what is known of a write holds of a run, and to generate
again is to write the same text again.

* `Disk.write_again` — what has been written is there already: writing it again changes nothing at all.
* `Disk.write_always_again` — in a tree, a write that did not get through does not get through the second time.
* `Input.generate_unformatted` — a run is a walk, a rendering and a write, in this order.
* `Input.unformatted_effect` — the effect of a run, and of running again, for every input, language, path and file
  system.

Running again under the rule `always` leaves what is there unless the first run has skipped the file. Then it is the
first to write, and what was left alone is overwritten (`Input.generate_again_overwrites`).
-/

namespace RouteStubs

/-! ## §1 Writing again -/

namespace Files.Disk

variable {d d' : Disk} {l m : Location} {path text : String}

theorem set_set (d : Disk) (l : Location) (e : Entry) : (d.set l e).set l e = d.set l e := by
  simp [set, List.filter_filter]

/-- A directory that is there cannot be created, and not for want of another one. -/
theorem locateNew_of_followToDirectory {steps : List String} {step : String} {n : Nat}
    (hsteps : stepsProblem? (steps ++ [step]) n = none) (h : d.followToDirectory l (steps ++ [step]) = .ok m) :
    ∃ e, e ≠ .notFound ∧ d.locateNew l (steps ++ [step]) n = .error e := by
  obtain ⟨parent, hparent⟩ := followToDirectory_of_append h
  obtain ⟨hfront, hdirectory⟩ := followToDirectory_eq_ok.mp hparent
  obtain ⟨hfollow, -⟩ := followToDirectory_eq_ok.mp h
  rw [followAll_append, hfront, Except.bind, followAll_cons, follow_eq_of_directory hdirectory] at hfollow
  rw [locateNew_append_of_accepted hsteps, hparent, Except.bind, newIn]
  split_ifs with hdots hname hthere
  · exact ⟨.alreadyExists, by decide, rfl⟩
  · exact ⟨.nameTooLong, by decide, rfl⟩
  · exact ⟨.alreadyExists, by decide, rfl⟩
  · obtain ⟨hdot, hdotdot⟩ := not_or.mp hdots
    rw [if_neg hdot, if_neg hdotdot, if_neg hname, if_neg hthere] at hfollow
    cases hfollow

/-- **Directories that are there are not created again.** -/
theorem createDirectories_of_followToDirectory {size : List String → Nat} {steps : List String}
    (hsteps : stepsProblem? steps.reverse (size steps.reverse) = none)
    (h : d.followToDirectory l steps.reverse = .ok m) : d.createDirectories size l steps = (.ok (), d) := by
  cases steps with
  | nil => rfl
  | cons step before =>
    rw [List.reverse_cons] at hsteps h
    obtain ⟨e, he, hnew⟩ := locateNew_of_followToDirectory hsteps h
    rw [createDirectories_cons_of_ne (by simpa [hnew] using he), createLast, hnew, hasDirectory_of_accepted hsteps h]
    rfl

theorem createParent_of_followToDirectory {front : List String} {last : String} (hnames : Names path front last)
    (h : d.followToDirectory (d.start (Path.ofText path)) front = .ok m) : d.createParent path = (.ok (), d) := by
  obtain ⟨steps, hsteps, hsublist, hfilter⟩ := Path.parentSteps?_of_steps hnames.steps_eq hnames.ne_dot
  rw [← followToDirectory_filter, ← hfilter, followToDirectory_filter] at h
  simp only [createParent, hsteps]
  refine createDirectories_of_followToDirectory ?_ (by rwa [List.reverse_reverse])
  rw [List.reverse_reverse]
  exact stepsProblem?_of_sublist hnames.accepted hsublist

theorem written_of_write_always {outcome : Written} (h : d.write path text .always = (.ok outcome, d')) :
    outcome = .written := by
  rcases write_outcomes d path text .always with
    ⟨⟨hrule, -⟩, -⟩ | ⟨-, ⟨e, hwrite, -⟩ | ⟨l, -, -, hwrite⟩⟩
  · cases hrule
  · rw [hwrite] at h
    cases h
  · rw [hwrite] at h
    cases h
    rfl

/-- A write is skipped only where something is there and is to be kept, and changes nothing then. -/
theorem skipped_of_write {rule : Overwrite} (h : d.write path text rule = (.ok .skipped, d')) :
    (rule = .ifMissing ∧ d.hasPath path = true) ∧ d' = d := by
  rcases write_outcomes d path text rule with
    ⟨hskip, hwrite⟩ | ⟨-, ⟨e, hwrite, -⟩ | ⟨l, -, -, hwrite⟩⟩ <;> rw [hwrite] at h
  · exact ⟨hskip, (Prod.ext_iff.mp h).2.symm⟩
  · cases h
  · cases h

/-- **What has been written is there already**: writing it again succeeds and leaves everything as it is. -/
theorem write_again {rule : Overwrite} (h : d.write path text rule = (.ok .written, d')) :
    d'.write path text .always = (.ok .written, d') := by
  rcases write_outcomes d path text rule with
    ⟨-, hwrite⟩ | ⟨-, ⟨e, hwrite, -⟩ | ⟨l, -, hlocate, hwrite⟩⟩ <;> rw [hwrite] at h
  · cases h
  · cases h
  · obtain rfl : (d.createParent path).2.set l (.file text.toUTF8) = d' := (Prod.ext_iff.mp h).2
    generalize (d.createParent path).2 = between at hlocate ⊢
    obtain ⟨front, last, parent, hnames, hparent, rfl, hentry⟩ := locateToWrite_eq_ok.mp hlocate
    have hfollow := (Retains.of_set hentry (.file text.toUTF8)).followToDirectory hparent
    have hthere : Disk.locateToWrite (between.set (parent ++ [last]) (.file text.toUTF8)) path =
        .ok (parent ++ [last]) := by
      refine locateToWrite_eq_ok.mpr ⟨front, last, parent, hnames, hfollow, rfl, ?_⟩
      rw [ entry?_set between (by simp), if_pos rfl]
      nofun
    rw [write, createParent_of_followToDirectory hnames hfollow]
    simp only [put, hthere, set_set]
    rfl

/-- What can be written to once there are further directories could be written to before. -/
theorem GrowsTo.canWrite (h : d.GrowsTo d') (hcan : d'.CanWrite path) : d.CanWrite path := by
  obtain ⟨front, last, parent, hnames, hparent, hentry, hway⟩ := hcan
  have hstart := start_of_home h.home (Path.ofText path)
  rw [hstart, h.destination?_eq] at hparent
  refine ⟨front, last, parent, hnames, hparent, fun hdirectory => hentry (h.entry_eq hdirectory), ?_⟩
  intro steps hsteps
  rw [← h.destination?_eq, ← hstart]
  exact hway steps hsteps

/-- In a tree a write changes no file unless the path can be written to. -/
theorem keepsFile_of_not_canWrite (h : d.IsTree) (hcan : ¬ d.CanWrite path) (text : String) (rule : Overwrite)
    (k : Location) : d.KeepsFile (d.write path text rule).2 k := by
  rcases write_outcomes d path text rule with
    ⟨-, hwrite⟩ | ⟨-, ⟨e, hwrite, -⟩ | ⟨l, hok, hlocate, -⟩⟩
  · rw [hwrite]
    exact (GrowsTo.refl d).keepsFile k
  · rw [hwrite]
    exact (createParent_growsTo d path).1.keepsFile k
  · exact absurd ((canWrite_iff h).mpr ⟨hok, l, hlocate⟩) hcan

/-- **In a tree, writing again changes no file** unless the first write was skipped: what could not be written then
cannot be written now. -/
theorem write_always_again {rule : Overwrite} (h : d.IsTree) (hskip : (d.write path text rule).1 ≠ .ok .skipped)
    (k : Location) :
    Disk.KeepsFile (d.write path text rule).2 ((d.write path text rule).2.write path text .always).2 k := by
  rcases write_outcomes d path text rule with
    ⟨-, hwrite⟩ | ⟨-, ⟨e, hwrite, hnowhere⟩ | ⟨l, -, -, hwrite⟩⟩
  · exact absurd (congrArg Prod.fst hwrite) hskip
  · obtain ⟨hgrows, htree⟩ := createParent_growsTo d path
    rw [hwrite]
    refine keepsFile_of_not_canWrite (htree h) (fun hcan => ?_) text .always k
    obtain ⟨hok, l, hlocate⟩ := (canWrite_iff h).mp (hgrows.canWrite hcan)
    exact hnowhere l hok hlocate
  · have hagain := write_again hwrite
    rw [hwrite, hagain]
    exact (GrowsTo.refl _).keepsFile k

end Files.Disk

/-! ## §2 Runs -/

namespace Generate

open Files (Disk)
open Files.Disk (Overwrite Written)
open Program (SearchPath)

/-- What a file is generated for: an API, or endpoints that have been collected already. -/
inductive Input where
  | api (tree : Api)
  | endpoints (es : List Endpoint)

namespace Input

/-- The endpoints of an input. Only the walk over an API can fail. -/
def walk : Input → Except MissingHandlerName (List Endpoint)
  | .api tree => (Walk.ofApi tree).toExcept
  | .endpoints es => .ok es

/-- The source file for an input. -/
def render (language : Language) : Input → Except MissingHandlerName Source.Rendered
  | .api tree => Source.renderApi language tree
  | .endpoints es => .ok (Source.render language es)

/-- Generates the file for an input. -/
def generate (language : Language) (options : Options) (search : SearchPath) (d : Disk) (path : String) :
    Input → Except Error Report × Disk
  | .api tree => ofApi language tree options search d path
  | .endpoints es => ofEndpoints language es options search d path

variable {options : Options}

section
variable {language : Language} {search : SearchPath} {d d' : Disk} {path : String} {input : Input}

theorem render_eq (language : Language) (input : Input) :
    input.render language = input.walk.map (Source.render language) := by
  cases input <;> rfl

theorem render_of_walk {es : List Endpoint} (h : input.walk = .ok es) (language : Language) :
    input.render language = .ok (Source.render language es) := by
  rw [render_eq, h]
  rfl

/-- **A run whose walk fails touches nothing.** -/
theorem generate_of_stopped {e : MissingHandlerName} (h : input.walk = .error e) :
    input.generate language options search d path = (.error (.walk e), d) := by
  cases input with
  | endpoints es => cases h
  | api tree =>
    rw [walk] at h
    rw [generate, ofApi, h]

/-- **A run whose walk succeeds is a write**, if it starts no formatter. -/
theorem generate_of_walk {es : List Endpoint} (hformat : options.format = false) (h : input.walk = .ok es) :
    input.generate language options search d path =
      let write := d.write path (Source.render language es).text options.overwrite
      ((write.1.mapError (.write path)).map (Report.unformatted (Source.render language es)), write.2) := by
  have hgenerate : input.generate language options search d path =
      ofEndpoints language es options search d path := by
    cases input with
    | endpoints es' =>
      obtain rfl : es' = es := Except.ok.inj h
      rfl
    | api tree =>
      rw [walk] at h
      rw [generate, ofApi, h]
  rw [hgenerate, ofEndpoints, Options.formatterFor?_of_not_format hformat, ofRendered_unformatted]

/-! ## §3 Running again -/

/-- A run that has succeeded has rendered a file and written it. -/
theorem generate_eq_ok (hformat : options.format = false) {report : Report}
    (h : input.generate language options search d path = (.ok report, d')) :
    ∃ es, input.walk = .ok es ∧
      report = Report.unformatted (Source.render language es) report.written ∧
      d.write path (Source.render language es).text options.overwrite = (.ok report.written, d') := by
  cases hwalk : input.walk with
  | error e =>
    rw [generate_of_stopped hwalk] at h
    cases h
  | ok es =>
    rw [generate_of_walk hformat hwalk] at h
    rcases hwrite : d.write path (Source.render language es).text options.overwrite with ⟨e | outcome, after⟩ <;>
      simp only [hwrite] at h
    · cases h
    · cases h
      exact ⟨es, rfl, rfl, hwrite⟩

/-- **A run that has written its file can be repeated**, to the same report and no effect. -/
theorem generate_again_of_written (hformat : options.format = false) {report : Report}
    (h : input.generate language options search d path = (.ok report, d')) (hwritten : report.written = .written) :
    input.generate language { options with overwrite := .always } search d' path = (.ok report, d') := by
  have hoverwriting : Options.format { options with overwrite := .always } = false := hformat
  obtain ⟨es, hwalk, hsame, hwrite⟩ := generate_eq_ok hformat h
  rw [hwritten] at hwrite
  have hagain : d'.write path (Source.render language es).text .always = (.ok .written, d') :=
    Disk.write_again hwrite
  rw [generate_of_walk hoverwriting hwalk]
  simp only [hagain]
  rw [hsame, hwritten]
  rfl

/-- **Unless the file was skipped, a second run leaves every file of a tree as it is.** -/
theorem keepsFile_generate_again (hformat : options.format = false) (htree : d.IsTree)
    (hnotSkipped : ∀ report, (input.generate language options search d path).1 = .ok report →
      report.written = .written) (k : Files.Location) :
    Disk.KeepsFile (input.generate language options search d path).2
      (input.generate language { options with overwrite := .always } search
        (input.generate language options search d path).2 path).2 k := by
  have hoverwriting : Options.format { options with overwrite := .always } = false := hformat
  cases hwalk : input.walk with
  | error e =>
    rw [generate_of_stopped hwalk, generate_of_stopped hwalk]
    exact (Disk.GrowsTo.refl d).keepsFile k
  | ok es =>
    rw [generate_of_walk hformat hwalk] at hnotSkipped ⊢
    rw [generate_of_walk hoverwriting hwalk]
    refine Disk.write_always_again htree (fun hskip => ?_) k
    have hreport := hnotSkipped (Report.unformatted (Source.render language es) .skipped) (by simp only [hskip]; rfl)
    cases hreport

/-- **Behind a run that has skipped its file, a second run is the first write**, over what was there. -/
theorem generate_again_of_skipped (hformat : options.format = false) {report : Report}
    (h : input.generate language options search d path = (.ok report, d')) (hskipped : report.written = .skipped) :
    options.overwrite = .ifMissing ∧ d.hasPath path = true ∧ d' = d ∧
      ∃ r, input.render language = .ok r ∧
        input.generate language { options with overwrite := .always } search d' path =
          (((d.write path r.text .always).1.mapError (.write path)).map (Report.unformatted r),
            (d.write path r.text .always).2) ∧
        ∀ outcome d'', d.write path r.text .always = (.ok outcome, d'') →
          outcome = .written ∧ d''.readText path = .ok r.text := by
  have hoverwriting : Options.format { options with overwrite := .always } = false := hformat
  obtain ⟨es, hwalk, -, hwrite⟩ := generate_eq_ok hformat h
  rw [hskipped] at hwrite
  obtain ⟨⟨hrule, hpath⟩, rfl⟩ := Disk.skipped_of_write hwrite
  refine ⟨hrule, hpath, rfl, Source.render language es, render_of_walk hwalk language,
    generate_of_walk hoverwriting hwalk, fun outcome d'' hagain => ?_⟩
  obtain rfl := Disk.written_of_write_always hagain
  exact ⟨rfl, Disk.readText_of_read (Disk.read_write hagain)⟩

end

/-- What a run without a formatter does, and what running again does. -/
structure UnformattedEffect (input : Input) (language : Language) (options : Options) (search : SearchPath)
    (d : Disk) (path : String) : Prop where
  /-- A walk that fails fails the rendering and the run, and nothing is touched. -/
  stopped : ∀ e, input.walk = .error e → input.render language = .error e ∧
    input.generate language options search d path = (.error (.walk e), d)
  /-- Otherwise there is a file, and the run has the effect and the outcome of writing its text. -/
  written : ∀ es, input.walk = .ok es → ∃ r, input.render language = .ok r ∧ r.endpoints = es.length ∧
    input.generate language options search d path =
      (((d.write path r.text options.overwrite).1.mapError (.write path)).map (Report.unformatted r),
        (d.write path r.text options.overwrite).2)
  /-- The report is that of the rendering, whether the file was written or skipped, and nothing is formatted. -/
  reported : ∀ report, (input.generate language options search d path).1 = .ok report →
    ∃ r, input.render language = .ok r ∧ report.endpoints = r.endpoints ∧ report.handlers = r.handlers ∧
      report.skipped = r.skipped ∧ report.formatted = false
  /-- A run that has written its file can be repeated: the report is the same, and everything stays as it is. -/
  repeated : ∀ report d', input.generate language options search d path = (.ok report, d') →
    report.written = .written →
      input.generate language { options with overwrite := .always } search d' path = (.ok report, d')
  /-- Unless the file was skipped, overwriting it in a second run leaves every file of a tree as it is, also where the
  first run has failed. -/
  kept : d.IsTree →
    (∀ report, (input.generate language options search d path).1 = .ok report → report.written = .written) → ∀ k,
      Disk.KeepsFile (input.generate language options search d path).2
        (input.generate language { options with overwrite := .always } search
          (input.generate language options search d path).2 path).2 k
  /-- A run that skips its file leaves everything as it is, and only does so if files that are there are to be kept.
  Overwriting it in a second run is the first write of the text, over what was there. -/
  overwritten : ∀ report d', input.generate language options search d path = (.ok report, d') →
    report.written = .skipped → options.overwrite = .ifMissing ∧ d.hasPath path = true ∧ d' = d ∧
      ∃ r, input.render language = .ok r ∧
        input.generate language { options with overwrite := .always } search d' path =
          (((d.write path r.text .always).1.mapError (.write path)).map (Report.unformatted r),
            (d.write path r.text .always).2) ∧
        ∀ outcome d'', d.write path r.text .always = (.ok outcome, d'') →
          outcome = .written ∧ d''.readText path = .ok r.text
  /-- A run that succeeds where the file is overwritten has written it, and what is written can be read. -/
  content : ∀ report d', input.generate language options search d path = (.ok report, d') →
    (options.overwrite = .always → report.written = .written) ∧
      (report.written = .written → ∃ r, input.render language = .ok r ∧ d'.readText path = .ok r.text)

/-- **The effect of a run without a formatter**, for every input, language, path and file system. -/
theorem unformatted_effect (hformat : options.format = false) (input : Input) (language : Language)
    (search : SearchPath) (d : Disk) (path : String) :
    UnformattedEffect input language options search d path := by
  constructor
  case stopped =>
    intro e hwalk
    exact ⟨by rw [render_eq, hwalk]; rfl, generate_of_stopped hwalk⟩
  case written =>
    intro es hwalk
    exact ⟨_, render_of_walk hwalk language, rfl, generate_of_walk hformat hwalk⟩
  case reported =>
    intro report hreport
    obtain ⟨es, hwalk, hsame, -⟩ := generate_eq_ok hformat (Prod.ext hreport rfl)
    rw [hsame]
    exact ⟨_, render_of_walk hwalk language, rfl, rfl, rfl, rfl⟩
  case repeated => exact fun _ _ => generate_again_of_written hformat
  case kept => exact keepsFile_generate_again hformat
  case overwritten => exact fun _ _ => generate_again_of_skipped hformat
  case content =>
    intro report d' hrun
    obtain ⟨es, hwalk, -, hwrite⟩ := generate_eq_ok hformat hrun
    refine ⟨fun hrule => ?_, fun hwritten => ?_⟩
    · rw [hrule] at hwrite
      exact Disk.written_of_write_always hwrite
    · rw [hwritten] at hwrite
      exact ⟨_, render_of_walk hwalk language, Disk.readText_of_read (Disk.read_write hwrite)⟩

/-- A working directory with a file that is there before it is generated. -/
def handEdited : Disk := Disk.set .empty ["work", "user.go"] (.file "hand edited".toUTF8)

/-- A file that is missing is written, and written again to no effect; a file that is there is skipped, and then
overwritten; a method without a name stops a run before the directory is created. -/
theorem unformatted_effect_missing :
    let options : Options := { overwrite := .ifMissing, format := false }
    let input := Input.endpoints [{ verb := .get, handler := "GetUser", path := "/user" }]
    let nameless := Input.api { title := "T", resources := [("/a", (Resource.empty "/a").addMethod { verb := .get })] }
    let path := "gen/../out/user.go"
    let after := (input.generate .go options .nowhere .empty path).2
    options.format = false ∧
      (input.generate .go options .nowhere .empty path).1 = .ok ⟨1, ["GetUser"], [], .written, false⟩ ∧
      input.generate .go { options with overwrite := .always } .nowhere after path =
        (.ok ⟨1, ["GetUser"], [], .written, false⟩, after) ∧
      input.generate .go options .nowhere handEdited "user.go" =
        (.ok ⟨1, ["GetUser"], [], .skipped, false⟩, handEdited) ∧
      (∃ r d'', input.render .go = .ok r ∧ handEdited.write "user.go" r.text .always = (.ok .written, d'') ∧
        d''.readText "user.go" = .ok r.text) ∧
      nameless.generate .go options .nowhere .empty path = (.error (.walk ⟨.get, "/a"⟩), .empty) := by
  intro options input nameless path after
  have hrun : (input.generate .go options .nowhere .empty path).1 = .ok ⟨1, ["GetUser"], [], .written, false⟩ := by
    decide +kernel
  have hskip : (input.generate .go options .nowhere handEdited "user.go").1 =
      .ok ⟨1, ["GetUser"], [], .skipped, false⟩ := by
    decide +kernel
  have hwrite : (handEdited.write "user.go"
      (Source.render .go [{ verb := .get, handler := "GetUser", path := "/user" }]).text .always).1 = .ok .written := by
    decide +kernel
  obtain ⟨-, -, hsame, r, hr, -, hcontent⟩ :=
    (unformatted_effect rfl input .go .nowhere handEdited "user.go").overwritten _ _ (Prod.ext hskip rfl) rfl
  obtain rfl : Source.render .go _ = r := Except.ok.inj hr
  refine ⟨rfl, hrun, ?_, Prod.ext hskip hsame, ⟨_, _, rfl, Prod.ext hwrite rfl, ?_⟩, ?_⟩
  · exact (unformatted_effect rfl input .go .nowhere .empty path).repeated _ after (Prod.ext hrun rfl) rfl
  · exact (hcontent _ _ (Prod.ext hwrite rfl)).2
  · exact ((unformatted_effect rfl nameless .go .nowhere .empty path).stopped _ (by decide +kernel)).2

/-- Running again overwrites a file that the first run has skipped: what was edited by hand is gone. -/
theorem generate_again_overwrites :
    let options : Options := { overwrite := .ifMissing, format := false }
    let input := Input.endpoints [{ verb := .get, handler := "GetUser", path := "/user" }]
    let first := input.generate .go options .nowhere handEdited "user.go"
    let second := input.generate .go { options with overwrite := .always } .nowhere first.2 "user.go"
    options.format = false ∧
      first.1 = .ok ⟨1, ["GetUser"], [], .skipped, false⟩ ∧ first.2.readText "user.go" = .ok "hand edited" ∧
      second.1 = .ok ⟨1, ["GetUser"], [], .written, false⟩ ∧ second.2.readText "user.go" ≠ .ok "hand edited" := by
  intro options input first second
  have hsecond : second.1 = .ok ⟨1, ["GetUser"], [], .written, false⟩ := by decide +kernel
  obtain ⟨es, hwalk, -, hwrite⟩ := generate_eq_ok rfl (Prod.ext hsecond rfl)
  obtain rfl : [_] = es := Except.ok.inj hwalk
  have hcontent : second.2.readText "user.go" = .ok (Source.render .go [_]).text :=
    Disk.readText_of_read (Disk.read_write hwrite)
  refine ⟨rfl, by decide +kernel, by decide +kernel, hsecond, fun hread => ?_⟩
  exact absurd (Except.ok.inj (hcontent.symm.trans hread)) (by decide +kernel)

end Input

end Generate

end RouteStubs
