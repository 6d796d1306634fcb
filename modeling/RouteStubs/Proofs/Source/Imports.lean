import Mathlib.Data.List.Infix
import RouteStubs.Proofs.Source.ReadBack
/-!
The packages that a generated Go file imports, and whether its code uses them.

Go refuses a file that imports a package without using it. The imports of a generated file are fixed, but
the code that uses one of them stands in the stubs only. `uses_imports_iff` says which files pass: those
with a stub. `importedPackages_not_all_used` is the file for an API without endpoints, which does not.
-/

namespace RouteStubs.Source

/-! ## §1 Imports, read from a file -/

/-- The line that opens the import block. -/
def importOpening : Line := "import (".toList

/-- The line that closes the import block. -/
def importClosing : Line := [')']

/-- The name of the package that a line of an import block brings in: the last part of its path. -/
def packageOfLine? (line : Line) : Option String :=
  (Text.dropStart? ['\t', '"'] line).map fun path =>
    String.ofList ((path.takeWhile (· != '"')).reverse.takeWhile (· != '/')).reverse

/-- The packages that a file imports, by name. -/
def importedPackages (text : String) : List String :=
  (((codeLines text).dropWhile (· != importOpening)).tail.takeWhile (· != importClosing)).filterMap
    packageOfLine?

/-- The lines of code that are not in the import block. -/
def codeOutsideImports (text : String) : List Line :=
  (codeLines text).takeWhile (· != importOpening) ++
    ((codeLines text).dropWhile (· != importOpening)).dropWhile (· != importClosing)

/-- The name of the package qualifies something on the line: a point follows it, and it is not the end of
a longer name. -/
def Qualifies (package : String) (line : Line) : Prop :=
  ∃ before after, line = before ++ (package.toList ++ ['.']) ++ after ∧
    ∀ c ∈ before.getLast?, continuesIdentifier c = false

/-- The code of a file uses a package that it imports. -/
def Uses (text package : String) : Prop := ∃ l ∈ codeOutsideImports text, Qualifies package l

theorem not_qualifies {package : String} {line : Line}
    (h : ¬ package.toList ++ ['.'] <:+: line) : ¬ Qualifies package line := by
  rintro ⟨before, after, heq, -⟩
  exact h ⟨before, after, heq.symm⟩

/-! ## §2 The code of a Go file -/

/-- The code in front of the import block. -/
def codeBeforeImports : List Line := [[], "package main".toList, []]

/-- The lines of the import block. -/
def importLines : List Line := ["\t\"encoding/json\"".toList, "\t\"net/http\"".toList]

/-- The code behind the import block of a file with stubs for endpoints. -/
def codeAfterImports (usable : List Endpoint) : List Line :=
  (goMapStart ++ (usable.map (fun e : Endpoint => mapEntry .go e.handler.toList) ++
    (mapEnd .go ++ (usable.flatMap (stub .go) ++ [[]])))).filter (!isComment ·)

theorem codeLines_go (es : List Endpoint) :
    codeLines (render .go es).text = codeBeforeImports ++ importOpening :: (importLines ++
      importClosing :: codeAfterImports (es.filter (isUsable .go))) := by
  have hheader : goHeader.filter (!isComment ·) =
      codeBeforeImports ++ importOpening :: (importLines ++ [importClosing]) := by decide
  rw [codeLines, splitLines_text, fileLines, header, mapStart, List.append_assoc, List.append_assoc,
    List.append_assoc, List.append_assoc, List.filter_append, hheader, codeAfterImports]
  simp only [List.append_assoc, List.cons_append, List.nil_append]

theorem importedPackages_go (es : List Endpoint) :
    importedPackages (render .go es).text = ["json", "http"] := by
  have hopening : importOpening ∉ codeBeforeImports := by decide
  have hclosing : importClosing ∉ importLines := by decide
  rw [importedPackages, codeLines_go, (takeWhile_dropWhile_of_notMem hopening _).2, List.tail_cons,
    (takeWhile_dropWhile_of_notMem hclosing _).1]
  decide

theorem codeOutsideImports_go (es : List Endpoint) :
    codeOutsideImports (render .go es).text =
      codeBeforeImports ++ importClosing :: codeAfterImports (es.filter (isUsable .go)) := by
  have hopening : importOpening ∉ codeBeforeImports := by decide
  have hclosing : importClosing ∉ importOpening :: importLines := by decide
  rw [codeOutsideImports, codeLines_go, (takeWhile_dropWhile_of_notMem hopening _).1,
    (takeWhile_dropWhile_of_notMem hopening _).2, ← List.cons_append,
    (takeWhile_dropWhile_of_notMem hclosing _).2]

/-! ## §3 What is used -/

/-- The type of the route map is from `http`. -/
theorem uses_http (es : List Endpoint) : Uses (render .go es).text "http" := by
  refine ⟨"var RouteMap = map[string]http.HandlerFunc\x7b".toList, ?_,
    "var RouteMap = map[string]".toList, "HandlerFunc\x7b".toList, by decide, ?_⟩
  · rw [codeOutsideImports_go, codeAfterImports, List.filter_append]
    refine List.mem_append_right _ (List.mem_cons_of_mem _ (List.mem_append_left _ ?_))
    decide
  · intro c hc
    obtain ⟨rfl⟩ : some ']' = some c := hc
    decide

/-- A stub calls `json`. -/
theorem uses_json_of_isUsable {es : List Endpoint} {e : Endpoint} (he : e ∈ es)
    (h : isUsable .go e = true) : Uses (render .go es).text "json" := by
  refine ⟨"\tjson, _ := json.Marshal(map[string]string\x7b".toList, ?_,
    "\tjson, _ := ".toList, "Marshal(map[string]string\x7b".toList, by decide, ?_⟩
  · have hfunction : "\tjson, _ := json.Marshal(map[string]string\x7b".toList ∈
        functionLines .go e.handler.toList e.verb.name.toList :=
      List.mem_cons_of_mem _ (List.mem_cons_self ..)
    have hstub : "\tjson, _ := json.Marshal(map[string]string\x7b".toList ∈
        (es.filter (isUsable .go)).flatMap (stub .go) := by
      refine List.mem_flatMap.mpr ⟨e, List.mem_filter.mpr ⟨he, h⟩, ?_⟩
      rw [stub, stubLines_eq]
      exact List.mem_cons_of_mem _ (List.mem_append_right _ hfunction)
    rw [codeOutsideImports_go, codeAfterImports]
    refine List.mem_append_right _ (List.mem_cons_of_mem _ (List.mem_filter.mpr ⟨?_, by decide⟩))
    exact List.mem_append_right _ (List.mem_append_right _ (List.mem_append_right _
      (List.mem_append_left _ hstub)))
  · intro c hc
    obtain ⟨rfl⟩ : some ' ' = some c := hc
    decide

/-- Without stubs there is no code but the fixed lines, and none of them calls `json`. -/
theorem not_uses_json {es : List Endpoint} (h : es.filter (isUsable .go) = []) :
    ¬ Uses (render .go es).text "json" := by
  rintro ⟨l, hl, hqualifies⟩
  have hnone : ∀ l ∈ codeBeforeImports ++ importClosing :: (goMapStart ++ (mapEnd .go ++ [[]])),
      ¬ "json".toList ++ ['.'] <:+: l := by decide +kernel
  rw [codeOutsideImports_go, codeAfterImports, h] at hl
  refine not_qualifies (hnone l ?_) hqualifies
  rcases List.mem_append.mp hl with hl | hl
  · exact List.mem_append_left _ hl
  · rcases List.mem_cons.mp hl with rfl | hl
    · exact List.mem_append_right _ (List.mem_cons_self ..)
    · exact List.mem_append_right _ (List.mem_cons_of_mem _ (List.mem_of_mem_filter hl))

/-- **A Go file uses all that it imports exactly if it has a stub.** The two packages that it imports are
always the same, and `http` is used in any case. -/
theorem uses_imports_iff (es : List Endpoint) :
    let r := render .go es
    importedPackages r.text = ["json", "http"] ∧ Uses r.text "http" ∧
      ((∀ package ∈ importedPackages r.text, Uses r.text package) ↔ r.handlers ≠ []) := by
  intro r
  have himports : importedPackages r.text = ["json", "http"] := importedPackages_go es
  have hhandlers : r.handlers = (es.filter (isUsable .go)).map (·.handler) := rfl
  refine ⟨himports, uses_http es, ?_⟩
  rw [himports, hhandlers]
  constructor
  · intro hall hempty
    exact not_uses_json (List.map_eq_nil_iff.mp hempty) (hall "json" (by decide))
  · intro hne package hpackage
    obtain ⟨e, he⟩ := List.exists_mem_of_ne_nil _ fun h => hne (List.map_eq_nil_iff.mpr h)
    obtain ⟨hmem, husable⟩ := List.mem_filter.mp he
    rcases List.mem_cons.mp hpackage with rfl | hpackage
    · exact uses_json_of_isUsable hmem husable
    · obtain rfl : package = "http" := List.mem_singleton.mp hpackage
      exact uses_http es

/-- The file for an API without endpoints imports a package that it does not use. -/
theorem importedPackages_not_all_used :
    ¬ ∀ package ∈ importedPackages (render .go []).text, Uses (render .go []).text package := by
  intro hall
  exact not_uses_json rfl (hall "json" (by rw [importedPackages_go]; decide))

end RouteStubs.Source
