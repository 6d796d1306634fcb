import RouteStubs.Cli.Run
import RouteStubs.Proofs.Cli.DryRun
import RouteStubs.Proofs.Files.ReadBack
import RouteStubs.Proofs.Raml.Grammar
import RouteStubs.Proofs.Text.Words
/-!
What a run of the program does to files.

A run is followed from its arguments by way of its plan. A plan that generates nothing leaves every file as it is
(`disk_ofPlan`), and a plan generates something only where the description has been read and neither a listing nor
a dry run is asked for (`next_plan_eq_generate`). What is generated is read back from the file, as long as no
formatter has been started (`read_of_created`).

`ofArguments_keeps_files` is what this comes to for the arguments of a run and the same arguments with `--dry-run`
among them.
-/

namespace RouteStubs

open Files (Disk)
open Program (SearchPath)

/-! ## §1 Generating without a formatter -/

namespace Generate

variable {language : Language} {es : List Endpoint} {options : Options} {search : SearchPath}
  {d d' written : Disk} {path : String} {r : Report}

/-- A formatter that is not started leaves the files as they are. -/
theorem format_disk {formatter? : Option Formatter}
    (h : ∀ f, formatter? = some f → ∀ r, Program.start search d f.program (f.args ++ [path]) ≠ .ok r) :
    (format formatter? search d path).2 = d := by
  cases formatter? with
  | none => rfl
  | some f =>
    cases hstart : Program.start search d f.program (f.args ++ [path]) with
    | error e => simp only [format, Formatter.run, hstart]
    | ok r => exact absurd hstart (h f rfl r)

/-- A file is generated by writing it and running the formatter over it. -/
theorem ofEndpoints_written (h : ofEndpoints language es options search d path = (.ok r, d'))
    (hr : r.written = .written) :
    ∃ written, d.write path (Source.render language es).text options.overwrite = (.ok .written, written) ∧
      d' = (format (options.formatterFor? language) search written path).2 := by
  rw [ofEndpoints, ofRendered] at h
  split at h
  case h_1 => cases h
  case h_2 =>
    cases h
    cases hr
  case h_3 written hwrite =>
    cases h
    exact ⟨written, hwrite, rfl⟩

end Generate

namespace Cli

variable {search : SearchPath} {d : Disk} {a : Arguments}

/-- A formatter is started for a job: its file is written, and there is a program of the formatter's name. -/
def Job.StartsFormatter (search : SearchPath) (d : Disk) (job : Job) : Prop :=
  ∃ f written r, job.options.formatterFor? job.language = some f ∧
    d.write job.path (Source.render job.language job.endpoints).text job.options.overwrite =
      (.ok .written, written) ∧
    Program.start search written f.program (f.args ++ [job.path]) = .ok r

/-- **The file of a job is read back** as the text that was rendered, unless a formatter is started. -/
theorem Job.read_path {job : Job} {r : Generate.Report} {d' : Disk} (hformatter : ¬ job.StartsFormatter search d)
    (h : Generate.ofEndpoints job.language job.endpoints job.options search d job.path = (.ok r, d'))
    (hr : r.written = .written) :
    d'.read job.path = .ok (Source.render job.language job.endpoints).text.toUTF8 := by
  obtain ⟨written, hwrite, rfl⟩ := Generate.ofEndpoints_written h hr
  rw [Generate.format_disk fun f hf r hstart => hformatter ⟨f, written, r, hf, hwrite, hstart⟩]
  exact Disk.read_write hwrite

/-! ## §2 Plans -/

namespace Arguments

/-- The file that arguments name holds an API description with these endpoints. -/
def Describes (d : Disk) (a : Arguments) (es : List Endpoint) : Prop :=
  ∃ file, Raml.File.open d a.ramlFile = .ok file ∧ (Walk.ofApi file.api).toExcept = .ok es

/-- The plan of a run. -/
def plan (d : Disk) (a : Arguments) : Plan := Plan.ofContent a (d.readText a.ramlFile)

/-- A run starts a formatter for what it generates. -/
def StartsFormatter (search : SearchPath) (d : Disk) (a : Arguments) : Prop :=
  ∃ job, (a.plan d).next = .generate job ∧ job.StartsFormatter search d

/-- What ends a run before it touches files: there is no API description in the file, or a method in it has no
display name, or a file is to be generated and the formatter for it has no name. -/
inductive FailsEarly (d : Disk) (a : Arguments) : Failure → Prop
  | document {e : Raml.Error} (hfile : Raml.File.open d a.ramlFile = .error e) : FailsEarly d a (.document e)
  | walk {file : Raml.File} {e : MissingHandlerName} (hfile : Raml.File.open d a.ramlFile = .ok file)
      (hwalk : (Walk.ofApi file.api).toExcept = .error e) : FailsEarly d a (.walk e)
  | formatterBlank {es : List Endpoint} {command : String} (hes : a.Describes d es) (hroutes : a.routes = false)
      (hdry : a.dryRun = false) (hcommand : a.formatter? = some command)
      (hblank : ∀ c ∈ command.toList, Text.isSpace c = true) : FailsEarly d a .formatterBlank

theorem plan_of_error {e : Raml.Error} (h : Raml.File.open d a.ramlFile = .error e) :
    a.plan d = .failing (.document e) := by
  rw [Raml.File.open] at h
  rw [plan, Plan.ofContent, h]

theorem plan_of_stopped {file : Raml.File} {e : MissingHandlerName}
    (hfile : Raml.File.open d a.ramlFile = .ok file) (hwalk : (Walk.ofApi file.api).toExcept = .error e) :
    a.plan d = { notes := if a.routes then [] else [.processing a.ramlFile], next := .fail (.walk e) } := by
  rw [Raml.File.open] at hfile
  rw [plan, Plan.ofContent, hfile]
  simp only [Plan.ofApi, hwalk]

theorem plan_of_describes {es : List Endpoint} (h : a.Describes d es) :
    a.plan d = if a.routes then .listing a es else .generating a es := by
  obtain ⟨file, hfile, hwalk⟩ := h
  rw [Raml.File.open] at hfile
  rw [plan, Plan.ofContent, hfile]
  simp only [Plan.ofApi, hwalk]

/-- There is no API description, or a method of it has no display name, or it has endpoints. -/
theorem fails_or_describes (d : Disk) (a : Arguments) :
    (∃ e, Raml.File.open d a.ramlFile = .error e) ∨
      (∃ file e, Raml.File.open d a.ramlFile = .ok file ∧ (Walk.ofApi file.api).toExcept = .error e) ∨
      ∃ es, a.Describes d es := by
  cases hfile : Raml.File.open d a.ramlFile with
  | error e => exact .inl ⟨e, rfl⟩
  | ok file =>
    cases hwalk : (Walk.ofApi file.api).toExcept with
    | error e => exact .inr (.inl ⟨file, e, rfl, hwalk⟩)
    | ok es => exact .inr (.inr ⟨es, file, hfile, hwalk⟩)

/-- A run over endpoints is at its end after a listing or a dry run, and generates a file otherwise. -/
theorem next_plan_of_describes {es : List Endpoint} (h : a.Describes d es) :
    (a.plan d).next =
      if a.routes || a.dryRun then .finish
      else match a.options with
        | .error e => .fail e
        | .ok options => .generate ⟨a.genFile, a.language, es, options⟩ := by
  rw [plan_of_describes h]
  cases a.routes with
  | true => rfl
  | false =>
    cases hdry : a.dryRun <;> simp only [Plan.generating, hdry]
    · cases a.options <;> rfl
    · rfl

/-- The options of arguments fail on a command of white space only. -/
theorem options_eq_error_iff {e : Failure} :
    a.options = .error e ↔
      e = .formatterBlank ∧
        ∃ command, a.formatter? = some command ∧ ∀ c ∈ command.toList, Text.isSpace c = true := by
  rw [options, formatter]
  cases a.formatter? with
  | none => simp [Except.map]
  | some command =>
    simp only [Option.some.injEq, exists_eq_left', ← Text.words_eq_nil_iff]
    rw [Formatter.ofCommand?]
    cases Text.words command.toList with
    | nil => simp [Except.map, eq_comm]
    | cons program args => simp [Except.map]

/-- A plan fails exactly for what ends a run before it touches files. -/
theorem next_plan_eq_fail_iff {e : Failure} : (a.plan d).next = .fail e ↔ a.FailsEarly d e := by
  constructor
  · intro h
    rcases fails_or_describes d a with ⟨e', hfile⟩ | ⟨file, e', hfile, hwalk⟩ | ⟨es, hes⟩
    · rw [plan_of_error hfile] at h
      cases h
      exact .document hfile
    · rw [plan_of_stopped hfile hwalk] at h
      cases h
      exact .walk hfile hwalk
    · rw [next_plan_of_describes hes] at h
      split_ifs at h with hends
      obtain ⟨hroutes, hdry⟩ : a.routes = false ∧ a.dryRun = false := by simpa using hends
      cases hoptions : a.options with
      | error e' =>
        rw [hoptions] at h
        cases h
        obtain ⟨rfl, command, hcommand, hblank⟩ := options_eq_error_iff.mp hoptions
        exact .formatterBlank hes hroutes hdry hcommand hblank
      | ok options =>
        rw [hoptions] at h
        cases h
  · rintro (hfile | ⟨hfile, hwalk⟩ | ⟨hes, hroutes, hdry, hcommand, hblank⟩)
    · rw [plan_of_error hfile]
      rfl
    · rw [plan_of_stopped hfile hwalk]
    · have hoptions := options_eq_error_iff.mpr ⟨rfl, _, hcommand, hblank⟩
      simp only [next_plan_of_describes hes, hroutes, hdry, Bool.or_self, Bool.false_eq_true, if_false, hoptions]

/-- A plan generates something only if neither a listing nor a dry run is asked for. -/
theorem next_plan_eq_generate {job : Job} (h : (a.plan d).next = .generate job) :
    a.routes = false ∧ a.dryRun = false ∧
      ∃ es options, a.Describes d es ∧ a.options = .ok options ∧
        job = ⟨a.genFile, a.language, es, options⟩ := by
  rcases fails_or_describes d a with ⟨e, hfile⟩ | ⟨file, e, hfile, hwalk⟩ | ⟨es, hes⟩
  · rw [plan_of_error hfile] at h
    cases h
  · rw [plan_of_stopped hfile hwalk] at h
    cases h
  · rw [next_plan_of_describes hes] at h
    split_ifs at h with hends
    obtain ⟨hroutes, hdry⟩ : a.routes = false ∧ a.dryRun = false := by simpa using hends
    cases hoptions : a.options with
    | error e =>
      rw [hoptions] at h
      cases h
    | ok options =>
      rw [hoptions] at h
      cases h
      exact ⟨hroutes, hdry, es, options, hes, rfl, rfl⟩

/-- A run that is not to format starts no formatter. -/
theorem not_startsFormatter (h : a.noFormat = true) : ¬ a.StartsFormatter search d := by
  rintro ⟨job, hjob, f, written, r, hf, -⟩
  obtain ⟨-, -, es, options, -, hoptions, rfl⟩ := next_plan_eq_generate hjob
  have hformat : options.format = false := by
    rw [Arguments.options] at hoptions
    cases hformatter : a.formatter with
    | error e =>
      rw [hformatter] at hoptions
      cases hoptions
    | ok formatter =>
      rw [hformatter] at hoptions
      cases hoptions
      simp [h]
  simp [Generate.Options.formatterFor?, hformat] at hf

/-- What a plan remarks is that an API description is processed, or what the lints have found. -/
theorem mem_notes_plan {n : Note} (h : n ∈ (a.plan d).notes) :
    n = .processing a.ramlFile ∨ ∃ found, n = .found found := by
  rcases fails_or_describes d a with ⟨e, hfile⟩ | ⟨file, e, hfile, hwalk⟩ | ⟨es, hes⟩
  · rw [plan_of_error hfile] at h
    cases h
  · rw [plan_of_stopped hfile hwalk] at h
    split_ifs at h
    · cases h
    · exact .inl (List.mem_singleton.mp h)
  · have hnotes : (Plan.generating a es).notes = .processing a.ramlFile :: Plan.warnings es := by
      rw [Plan.generating]
      cases a.dryRun with
      | true => rfl
      | false => cases a.options <;> rfl
    rw [plan_of_describes hes] at h
    split_ifs at h
    · cases h
    · rw [hnotes, List.mem_cons, Plan.warnings, List.mem_map] at h
      exact h.imp_right fun ⟨found, _, hfound⟩ => ⟨found, hfound.symm⟩

end Arguments

/-! ## §3 Lines -/

theorem toList_logStart (level : String) (verbosity : Nat) :
    ∃ rest, (logStart level verbosity).toList = level.toList ++ ' ' :: rest := by
  rw [logStart]
  split_ifs
  · exact ⟨[], by simp⟩
  · exact ⟨(programName ++ "::cli: ").toList, by simp⟩

/-- The remark that a file has been created reads like no other on the same file. -/
theorem Note.eq_created_of_line_eq {n : Note} {path : String} {verbosity : Nat}
    (hn : ∀ other, n = .untouched other → other = path)
    (h : n.line verbosity = (Note.created path).line verbosity) : n = .created path := by
  obtain ⟨info, hinfo⟩ := toList_logStart "INFO" verbosity
  obtain ⟨warn, hwarn⟩ := toList_logStart "WARN" verbosity
  have hchars := congrArg String.toList h
  cases n with
  | processing other =>
    simp only [line, String.toList_append, List.append_assoc, List.append_cancel_left_eq] at hchars
    exact absurd (List.cons.inj hchars).1 (by decide)
  | found warning =>
    simp only [line, String.toList_append, hinfo, hwarn, List.append_assoc] at hchars
    exact absurd (List.cons.inj hchars).1 (by decide)
  | skipped left =>
    simp only [line, String.toList_append, hinfo, List.append_assoc] at hchars
    exact absurd (List.cons.inj hchars).1 (by decide)
  | created other =>
    simp only [line, String.toList_append, List.append_assoc, List.append_cancel_left_eq] at hchars
    rw [String.toList_inj.mp hchars]
  | untouched other =>
    -- with another path in it the remark could read like this one; with the same it has another length
    obtain rfl := hn other rfl
    have hlength := congrArg String.length h
    simp only [line, String.length_append] at hlength
    have hcreated : "Created handlers in ".length = 20 := by decide
    have huntouched : " already exists, leaving it untouched".length = 37 := by decide
    omega

/-- No remark of a plan reads like the one that a file has been created. -/
theorem Note.line_ne_of_mem_notes {n : Note} (h : n ∈ (a.plan d).notes) (path : String) (verbosity : Nat) :
    n.line verbosity ≠ (Note.created path).line verbosity := by
  intro hline
  rcases Arguments.mem_notes_plan h with rfl | ⟨found, rfl⟩
  · cases eq_created_of_line_eq (fun _ hn => by cases hn) hline
  · cases eq_created_of_line_eq (fun _ hn => by cases hn) hline

/-- Among the remarks on a file that has been generated, one reads that the file has been created only if it has
been written. -/
theorem Note.written_of_created {path : String} {r : Generate.Report} {verbosity : Nat}
    (h : (Note.created path).line verbosity ∈ (Note.ofReport path r).map (Note.line verbosity)) :
    r.written = .written := by
  cases hwritten : r.written with
  | written => rfl
  | skipped =>
    obtain ⟨n, hn, hline⟩ := List.mem_map.mp h
    have huntouched : ∀ other, Note.untouched other ∈ Note.ofReport path r → other = path := by
      simp [Note.ofReport, hwritten]
    obtain rfl := eq_created_of_line_eq (fun other hother => huntouched other (hother ▸ hn)) hline
    simp [Note.ofReport, hwritten] at hn

/-! ## §4 Runs -/

namespace Outcome

/-- Every failure has an exit code. -/
theorem exitCode_ne_zero {o : Outcome} {e : Failure} (h : o.failure = some e) : o.exitCode ≠ 0 := by
  rw [exitCode, h]
  cases e <;> exact Nat.succ_ne_zero _

/-- A plan that generates nothing leaves the files as they are. -/
theorem disk_ofPlan {plan : Plan} (h : ∀ job, plan.next ≠ .generate job) (verbosity : Nat) :
    (ofPlan verbosity search d plan).disk = d := by
  rw [ofPlan]
  cases hnext : plan.next with
  | finish => rfl
  | fail e => rfl
  | generate job => exact absurd hnext (h job)

/-- A plan fails as it says, or in generating. -/
theorem failure_ofPlan {plan : Plan} {verbosity : Nat} {e : Failure}
    (h : (ofPlan verbosity search d plan).failure = some e) :
    plan.next = .fail e ∨ ∃ cause, e = .generate cause := by
  rw [ofPlan] at h
  cases hnext : plan.next with
  | finish =>
    rw [hnext] at h
    cases h
  | fail e' =>
    rw [hnext] at h
    cases h
    exact .inl rfl
  | generate job =>
    simp only [hnext] at h
    split at h
    · cases h
      exact .inr ⟨_, rfl⟩
    · cases h

theorem ofPlan_of_fail {plan : Plan} {e : Failure} (h : plan.next = .fail e) (verbosity : Nat) :
    ofPlan verbosity search d plan = ⟨plan.out, plan.notes.map (Note.line verbosity), some e, d⟩ := by
  rw [ofPlan, h]

/-- A line says that a file has been created only if the job of the plan has written it. -/
theorem ofPlan_of_created {plan : Plan} {path : String} {verbosity : Nat}
    (hnotes : ∀ n ∈ plan.notes, n.line verbosity ≠ (Note.created path).line verbosity)
    (hpath : ∀ job, plan.next = .generate job → job.path = path)
    (h : (Note.created path).line verbosity ∈ (ofPlan verbosity search d plan).lines) :
    ∃ job r, plan.next = .generate job ∧ r.written = .written ∧
      Generate.ofEndpoints job.language job.endpoints job.options search d job.path =
        (.ok r, (ofPlan verbosity search d plan).disk) := by
  have hbefore : (Note.created path).line verbosity ∉ plan.notes.map (Note.line verbosity) := by
    simpa using hnotes
  rw [ofPlan] at h ⊢
  cases hnext : plan.next with
  | finish =>
    rw [hnext] at h
    exact absurd h hbefore
  | fail e =>
    rw [hnext] at h
    exact absurd h hbefore
  | generate job =>
    obtain rfl := hpath job hnext
    rcases hjob : Generate.ofEndpoints job.language job.endpoints job.options search d job.path
      with ⟨e | r, d'⟩ <;> simp only [hnext, hjob] at h ⊢
    · exact absurd h hbefore
    · rw [List.map_append, List.mem_append] at h
      exact ⟨job, r, rfl, Note.written_of_created (h.resolve_left hbefore), hjob⟩

theorem ofArguments_of_run {arguments : List String} (h : Request.ofArguments arguments = .ok (.run a))
    (search : SearchPath) (d : Disk) :
    ofArguments search d arguments = ofPlan a.verbosity search d (a.plan d) := by
  rw [ofArguments, h]
  rfl

/-- **What a run reports as created is what a dry run of it prints**, if no formatter is started. -/
theorem read_of_created (hformatter : ¬ a.StartsFormatter search d)
    (h : (Note.created a.genFile).line a.verbosity ∈ (ofPlan a.verbosity search d (a.plan d)).lines) :
    (ofPlan a.verbosity search d (a.plan d)).disk.read a.genFile =
      .ok (ofPlan a.verbosity search d (a.asDryRun.plan d)).out.toUTF8 := by
  have hpath : ∀ job, (a.plan d).next = .generate job → job.path = a.genFile := by
    intro job hjob
    obtain ⟨-, -, es, options, -, -, rfl⟩ := Arguments.next_plan_eq_generate hjob
    rfl
  obtain ⟨job, r, hnext, hr, hjob⟩ := ofPlan_of_created
    (fun n hn => Note.line_ne_of_mem_notes hn a.genFile a.verbosity) hpath h
  have hread := Job.read_path (fun hstart => hformatter ⟨job, hnext, hstart⟩) hjob hr
  obtain ⟨hroutes, -, es, options, hes, -, rfl⟩ := Arguments.next_plan_eq_generate hnext
  have hdry : a.asDryRun.plan d = Plan.generating a.asDryRun es := by
    rw [Arguments.plan_of_describes (show a.asDryRun.Describes d es from hes)]
    exact if_neg (by simp [Arguments.asDryRun, hroutes])
  rw [hdry]
  exact hread

/-- **What a run does to files.** A run that starts no formatter leaves every file as it is if it lists routes, if
it is a dry run, and if it fails before it generates anything; it fails in no other way than these and in
generating. If the arguments with `--dry-run` among them make a run that succeeds, and the run without says that
the file has been created, then the file holds exactly what the dry run prints, in the same language. -/
theorem ofArguments_keeps_files {arguments : List String}
    (haccepted : Request.ofArguments arguments = .ok (.run a)) (hformatter : ¬ a.StartsFormatter search d) :
    (a.routes = true ∨ a.dryRun = true → (ofArguments search d arguments).disk = d) ∧
    (∀ e, a.FailsEarly d e → (ofArguments search d arguments).failure = some e ∧
      (ofArguments search d arguments).exitCode ≠ 0 ∧ (ofArguments search d arguments).disk = d) ∧
    (∀ e, (ofArguments search d arguments).failure = some e →
      a.FailsEarly d e ∨ ∃ cause, e = .generate cause) ∧
    ∀ before after, before ++ after = arguments →
      (ofArguments search d (before ++ "--dry-run" :: after)).exitCode = 0 →
      (Note.created a.genFile).line a.verbosity ∈ (ofArguments search d arguments).lines →
      ∃ a', Request.ofArguments (before ++ "--dry-run" :: after) = .ok (.run a') ∧ a'.language = a.language ∧
        (ofArguments search d arguments).disk.read a.genFile =
          .ok (ofArguments search d (before ++ "--dry-run" :: after)).out.toUTF8 := by
  rw [ofArguments_of_run haccepted]
  refine ⟨fun h => ?asked, fun e h => ?early, fun e h => ?failure,
    fun before after hsplit hzero hcreated => ?created⟩
  case asked =>
    refine disk_ofPlan (fun job hjob => ?_) _
    obtain ⟨hroutes, hdry, -⟩ := Arguments.next_plan_eq_generate hjob
    simp [hroutes, hdry] at h
  case early =>
    rw [ofPlan_of_fail (Arguments.next_plan_eq_fail_iff.mpr h)]
    exact ⟨rfl, exitCode_ne_zero rfl, rfl⟩
  case failure => exact (failure_ofPlan h).imp_left Arguments.next_plan_eq_fail_iff.mp
  case created =>
    subst hsplit
    rcases Request.ofArguments_dryRun haccepted with hdry | ⟨e, he⟩
    · refine ⟨a.asDryRun, hdry, rfl, ?_⟩
      rw [ofArguments_of_run hdry]
      exact read_of_created hformatter hcreated
    · rw [ofArguments, he] at hzero
      exact absurd hzero (exitCode_ne_zero rfl)

end Outcome

/-! ## §5 A run -/

/-- A working directory with an API description. -/
def describedBy (text : String) : Disk where
  entries := [(["work"], .directory), (["work", "api.raml"], .file text.toUTF8)]
  home := ["work"]

theorem Arguments.describes_of_parse {text : String} {api : Api} {es : List Endpoint}
    (hpath : a.ramlFile = "api.raml") (hparse : Raml.parse text = .ok api)
    (hwalk : (Walk.ofApi api).toExcept = .ok es) :
    a.Describes (describedBy text) es := by
  have hread : (describedBy text).readText "api.raml" = .ok text := Disk.readText_of_read rfl
  refine ⟨⟨"api.raml", text, api⟩, ?_, hwalk⟩
  rw [Raml.File.open, hpath, hread, Raml.File.ofContent]
  simp only [hparse]
  rfl

/-- A description of one method. -/
def oneMethod : String := "#%RAML 0.8\ntitle: T\n/a:\n  get:\n    displayName: A\n"

set_option maxRecDepth 20000 in
theorem Arguments.describes_oneMethod {a : Arguments} (h : a.ramlFile = "api.raml") :
    a.Describes (describedBy oneMethod) [{ verb := .get, handler := "A", path := "/a" }] := by
  have hroot : Yaml.Value.ofText oneMethod.toList = .ok (.mapping [(.text "title", .text "T"),
      (.text "/a", .mapping [(.text "get", .mapping [(.text "displayName", .text "A")])])]) := by
    rw [oneMethod]
    rfl
  exact Arguments.describes_of_parse h ((Raml.parse_eq_ok (by decide +kernel) hroot).mpr rfl) rfl

/-- A run without a formatter creates the file that the dry run prints. -/
theorem Outcome.ofArguments_keeps_files_oneMethod :
    Request.ofArguments ["--no-fmt"] = .ok (.run { noFormat := true }) ∧
      ¬ Arguments.StartsFormatter .system (describedBy oneMethod) { noFormat := true } ∧
      (ofArguments .system (describedBy oneMethod) ["--no-fmt"]).disk.read "handlers_gen.go" =
        .ok (ofArguments .system (describedBy oneMethod) ["--dry-run", "--no-fmt"]).out.toUTF8 := by
  have haccepted : Request.ofArguments ["--no-fmt"] = .ok (.run { noFormat := true }) := by decide +kernel
  have hdry : Request.ofArguments ["--dry-run", "--no-fmt"] =
      .ok (.run { noFormat := true, dryRun := true }) := by
    decide +kernel
  have hformatter : ¬ Arguments.StartsFormatter .system (describedBy oneMethod) { noFormat := true } :=
    Arguments.not_startsFormatter rfl
  have hzero : (ofArguments .system (describedBy oneMethod) ["--dry-run", "--no-fmt"]).exitCode = 0 := by
    rw [ofArguments_of_run hdry, Arguments.plan_of_describes (Arguments.describes_oneMethod rfl)]
    rfl
  have hline : (Note.created "handlers_gen.go").line 0 ∈
      (ofArguments .system (describedBy oneMethod) ["--no-fmt"]).lines := by
    rw [ofArguments_of_run haccepted, Arguments.plan_of_describes (Arguments.describes_oneMethod rfl)]
    decide +kernel
  obtain ⟨-, -, -, hcreated⟩ := ofArguments_keeps_files haccepted hformatter
  obtain ⟨a', -, -, hread⟩ := hcreated [] ["--no-fmt"] rfl hzero hline
  exact ⟨haccepted, hformatter, hread⟩

end Cli

end RouteStubs
