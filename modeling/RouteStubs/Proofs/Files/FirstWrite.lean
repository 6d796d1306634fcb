import RouteStubs.Generate
import RouteStubs.Proofs.Files.Detour
/-!
Writing and generating files where nothing is, again and again.

A `FirstWrite` is a call that leaves alone what is at its path: a text is written, or the file for endpoints or
for an API is generated, and no formatter runs, so that it is a write and nothing else
(`ofRendered_unformatted`). `FirstWrite.runAll_keeps_files` is what becomes of a file that was
there before any number of such calls. It keeps its content as long as no path makes a detour to it, and it has
the text of the last call whose path does. `write_detour` is a path that makes one.
-/

namespace RouteStubs.Generate

open Files (Disk Location Path)
open Files.Disk (Overwrite Written)
open Program (SearchPath)

/-! ## §1 Without a formatter -/

/-- The report on a rendered file that has been written or skipped, and not formatted. -/
def Report.unformatted (r : Source.Rendered) (outcome : Written) : Report :=
  ⟨r.endpoints, r.handlers, r.skipped, outcome, false⟩

/-- **Without a formatter a rendered file is written, and that is all.** -/
theorem ofRendered_unformatted (r : Source.Rendered) (rule : Overwrite) (search : SearchPath) (d : Disk)
    (path : String) :
    ofRendered r none rule search d path =
      (((d.write path r.text rule).1.mapError (.write path)).map (Report.unformatted r),
        (d.write path r.text rule).2) := by
  rw [ofRendered]
  rcases d.write path r.text rule with ⟨e | outcome, d'⟩
  · rfl
  · cases outcome <;> rfl

/-- Options that ask for no formatting name no formatter. -/
theorem Options.formatterFor?_of_not_format {options : Options} (h : options.format = false)
    (language : Language) : options.formatterFor? language = none := by
  simp [formatterFor?, h]

/-! ## §2 Calls -/

/-- A call that writes a file unless something is at its path: a text, or the file for endpoints or for an API,
not formatted. -/
inductive FirstWrite where
  | text (path content : String)
  | endpoints (path : String) (language : Language) (endpoints : List Endpoint) (formatter : Option Formatter)
  | api (path : String) (language : Language) (api : Api) (formatter : Option Formatter)

namespace FirstWrite

/-- The path of a call. -/
def path : FirstWrite → String
  | .text path _ | .endpoints path _ _ _ | .api path _ _ _ => path

/-- The text that a call is to write; none if the walk over the API is stopped. -/
def content? : FirstWrite → Option String
  | .text _ content => some content
  | .endpoints _ language es _ => some (Source.render language es).text
  | .api _ language tree _ =>
    match (Walk.ofApi tree).toExcept with
    | .ok es => some (Source.render language es).text
    | .error _ => none

/-- The file system after a call. -/
def run (search : SearchPath) (d : Disk) : FirstWrite → Disk
  | .text path content => (d.write path content .ifMissing).2
  | .endpoints path language es formatter =>
    (ofEndpoints language es ⟨.ifMissing, false, formatter⟩ search d path).2
  | .api path language tree formatter => (ofApi language tree ⟨.ifMissing, false, formatter⟩ search d path).2

/-- The file system after calls, one after another. -/
def runAll (search : SearchPath) (d : Disk) (calls : List FirstWrite) : Disk := calls.foldl (run search) d

/-- Generating a file without formatting it writes it and does nothing else. -/
theorem ofEndpoints_unformatted (language : Language) (es : List Endpoint) (formatter : Option Formatter)
    (search : SearchPath) (d : Disk) (path : String) :
    (ofEndpoints language es ⟨.ifMissing, false, formatter⟩ search d path).2 =
      (d.write path (Source.render language es).text .ifMissing).2 := by
  rw [ofEndpoints, Options.formatterFor?_of_not_format rfl, ofRendered_unformatted]

/-- A call writes its text, if it has one, and nothing else. -/
theorem run_eq (search : SearchPath) (d : Disk) (call : FirstWrite) :
    call.run search d = call.content?.elim d fun text => (d.write call.path text .ifMissing).2 := by
  cases call with
  | text path content => rfl
  | endpoints path language es formatter => exact ofEndpoints_unformatted ..
  | api path language tree formatter =>
    rw [run, ofApi, content?]
    cases (Walk.ofApi tree).toExcept with
    | error e => rfl
    | ok es => exact ofEndpoints_unformatted ..

/-! ## §3 What becomes of a file -/

/-- The text that a call puts in place of the content of a file that is there: its own, if its path makes a
detour to the file. -/
def replacement? (d : Disk) (l : Location) (call : FirstWrite) : Option String :=
  if d.Detours call.path l then call.content? else none

/-- The content that a file has after calls: that of the last call that replaced it. -/
def contentAfter (search : SearchPath) (l : Location) : Disk → ByteArray → List FirstWrite → ByteArray
  | _, content, [] => content
  | d, content, call :: rest =>
    contentAfter search l (call.run search d) ((call.replacement? d l).elim content String.toUTF8) rest

variable {d : Disk} {l : Location} {content : ByteArray}

theorem run_isTree (h : d.IsTree) (search : SearchPath) (call : FirstWrite) : (call.run search d).IsTree := by
  rw [run_eq]
  cases call.content? with
  | none => exact h
  | some text => exact Disk.write_isTree h ..

/-- What one call does to a file that is there. -/
theorem run_entry? (h : d.IsTree) (search : SearchPath) (call : FirstWrite)
    (hl : d.entry? l = some (.file content)) :
    Disk.entry? (call.run search d) l =
      some (.file ((call.replacement? d l).elim content String.toUTF8)) := by
  rw [run_eq, replacement?]
  cases call.content? with
  | none =>
    rw [ite_self]
    exact hl
  | some text =>
    rw [Option.elim_some, Disk.write_ifMissing_entry? h _ _ hl]
    split <;> rfl

/-- A call whose path has no step `..` replaces no file that is there. -/
theorem replacement?_of_no_dots (h : d.IsTree) {call : FirstWrite}
    (hdots : ".." ∉ (Path.ofText call.path).steps) (hl : d.entry? l = some (.file content)) :
    call.replacement? d l = none := by
  rw [replacement?, if_neg (Disk.not_detours_of_no_dots h hdots hl)]

/-- **What becomes of a file that is there before calls that write a file only where nothing is.** It has the
content that it had, or that of the last call whose path made a detour to it. It keeps its content if no path
has a step `..`. -/
theorem runAll_keeps_files (h : d.IsTree) (search : SearchPath) (calls : List FirstWrite)
    (hl : d.entry? l = some (.file content)) :
    Disk.entry? (runAll search d calls) l = some (.file (contentAfter search l d content calls)) ∧
      ((∀ call ∈ calls, ".." ∉ (Path.ofText call.path).steps) →
        Disk.entry? (runAll search d calls) l = some (.file content)) := by
  induction calls generalizing d content with
  | nil => exact ⟨hl, fun _ => hl⟩
  | cons call rest ih =>
    have hcall := run_entry? h search call hl
    obtain ⟨hafter, hkept⟩ := ih (run_isTree h search call) hcall
    refine ⟨hafter, fun hdots => ?_⟩
    obtain ⟨hcallDots, hrestDots⟩ := List.forall_mem_cons.mp hdots
    rw [replacement?_of_no_dots h hcallDots hl] at hkept
    exact hkept hrestDots

/-- A working directory with one file in it. -/
def oneFile (text : String) : Disk where
  entries := [(["work"], .directory), (["work", "f"], .file text.toUTF8)]
  home := ["work"]

theorem isTree_oneFile (text : String) : (oneFile text).IsTree :=
  Disk.isTree_of_forall rfl (by simp [oneFile, Disk.entry?])

/-- The file is written to by way of a directory that is missing, and then left alone. -/
theorem runAll_keeps_files_oneFile :
    (oneFile "mine").IsTree ∧ Disk.entry? (oneFile "mine") ["work", "f"] = some (.file "mine".toUTF8) ∧
      Disk.entry? (runAll .nowhere (oneFile "mine")
          [.text "a/../f" "new", .text "b/../f" "newer", .text "f" "newest"]) ["work", "f"] =
        some (.file "newer".toUTF8) ∧
      Disk.entry? (runAll .nowhere (oneFile "mine") [.text "f" "new", .api "b/./c" .go (.empty "T") none])
        ["work", "f"] = some (.file "mine".toUTF8) := by
  have htree := isTree_oneFile "mine"
  have hfile : Disk.entry? (oneFile "mine") ["work", "f"] = some (.file "mine".toUTF8) := rfl
  refine ⟨htree, hfile, ?_, ?_⟩
  · rw [(runAll_keeps_files htree .nowhere [.text "a/../f" "new", .text "b/../f" "newer",
      .text "f" "newest"] hfile).1]
    rfl
  · exact (runAll_keeps_files htree .nowhere [.text "f" "new", .api "b/./c" .go (.empty "T") none] hfile).2
      (by decide +kernel)

/-- A file that is there is written to although it is to be kept: the path steps into a directory that is
missing and out of it again. -/
theorem write_detour :
    (oneFile "mine").read "f" = .ok "mine".toUTF8 ∧
      ((oneFile "mine").write "a/../f" "new" .ifMissing).1 = .ok .written ∧
      ((oneFile "mine").write "a/../f" "new" .ifMissing).2.read "f" = .ok "new".toUTF8 ∧
      "mine".toUTF8 ≠ "new".toUTF8 := by
  refine ⟨?_, ?_, ?_, ?_⟩ <;> decide +kernel

end FirstWrite

end RouteStubs.Generate
