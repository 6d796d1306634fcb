import RouteStubs.Proofs.Raml.Grammar
import RouteStubs.Proofs.Raml.Location
import RouteStubs.Proofs.Text.Lines
import RouteStubs.Proofs.Yaml.BlockEvents
/-!
The error on a method that is none, and the place that it names.

A `MethodPlace` is a method in a document in block style, with everything around it. If the document is
valid but for the value of that method, reading it fails at the method, and the error names the occurrence
of the way to the method that ends first in the text. That is the key of the method itself unless the way
occurs before it, as it can within other keys, other resources and texts (`parse_seven`).
-/

namespace RouteStubs

open Yaml (Value Block)

/-! ## §1 Places in a document -/

/-- The place of an entry among those of its mapping. -/
structure Yaml.Frame where
  before : List (List Char × Block)
  key : List Char
  after : List (List Char × Block)

namespace Yaml

/-- The entries of the mapping with a value at the place. -/
def Frame.entries (f : Frame) (b : Block) : List (List Char × Block) := f.before ++ (f.key, b) :: f.after

/-- The entries of the outermost mapping, with a value at a place in the innermost one. -/
def entriesAround : List Frame → Frame → Block → List (List Char × Block)
  | [], place, b => place.entries b
  | f :: way, place, b => f.entries (.mapping (entriesAround way place b))

/-- The text in front of the key at a place, from the start of the outermost mapping on. -/
def textBefore (depth : Nat) : List Frame → Frame → List Char
  | [], place => Block.lines depth place.before ++ lineStart (2 * depth)
  | f :: way, place =>
    Block.lines depth f.before ++ lineStart (2 * depth) ++ (f.key ++ ':' :: textBefore (depth + 1) way place)

theorem Block.lines_append (depth : Nat) (entries entries' : List (List Char × Block)) :
    Block.lines depth (entries ++ entries') = Block.lines depth entries ++ Block.lines depth entries' := by
  induction entries with
  | nil => rfl
  | cons e entries ih =>
    obtain ⟨key, b⟩ := e
    simp [Block.lines, ih]

theorem Block.entryValues_append (entries entries' : List (List Char × Block)) :
    Block.entryValues (entries ++ entries') = Block.entryValues entries ++ Block.entryValues entries' := by
  induction entries with
  | nil => rfl
  | cons e entries ih =>
    obtain ⟨key, b⟩ := e
    simp [Block.entryValues, ih]

/-- The value of a mapping with a value at a place in it. -/
theorem Frame.value_entries (f : Frame) (b : Block) :
    (Block.mapping (f.entries b)).value = .mapping (Block.entryValues f.before ++
      (.text (String.ofList f.key), b.value) :: Block.entryValues f.after) := by
  rw [Block.value, Frame.entries, Block.entryValues_append, Block.entryValues]

/-- The lines of a mapping, with the text in front of a key of it set apart. -/
theorem Frame.lines_entries (f : Frame) (b : Block) (depth : Nat) (rest : List Char) :
    Block.lines depth (f.entries b) ++ rest = (Block.lines depth f.before ++ lineStart (2 * depth)) ++
      (f.key ++ ':' :: (b.chars depth ++ (Block.lines depth f.after ++ rest))) := by
  simp [Frame.entries, Block.lines_append, Block.lines]

/-- The key at a place stands behind the text in front of it. -/
theorem lines_entriesAround (way : List Frame) (place : Frame) (b : Block) (depth : Nat) (rest : List Char) :
    ∃ after, Block.lines depth (entriesAround way place b) ++ rest =
      textBefore depth way place ++ (place.key ++ ':' :: after) := by
  induction way generalizing depth rest with
  | nil => exact ⟨_, Frame.lines_entries ..⟩
  | cons f way ih =>
    obtain ⟨after, hafter⟩ := ih (depth + 1) (Block.lines depth f.after ++ rest)
    refine ⟨after, ?_⟩
    rw [entriesAround, Frame.lines_entries, Block.chars, hafter, textBefore]
    simp

end Yaml

namespace Raml

open Yaml (Frame entriesAround textBefore)

/-- The keys of a way occur where they were written. -/
theorem endsAt_textBefore (depth offset : Nat) (way : List Frame) (place : Frame) (b : Block)
    (rest : List Char) :
    EndsAt offset (Block.lines depth (entriesAround way place b) ++ rest) ((way ++ [place]).map (·.key))
      (offset + Text.byteLength (textBefore depth way place)) := by
  induction way generalizing depth offset rest with
  | nil =>
    rw [entriesAround, Frame.lines_entries]
    exact .single
  | cons f way ih =>
    rw [entriesAround, Frame.lines_entries, Block.chars]
    refine .cons ?_
    have hoffset : offset + Text.byteLength (textBefore depth (f :: way) place) =
        offset + Text.byteLength (Block.lines depth f.before ++ Yaml.lineStart (2 * depth)) +
          Text.byteLength f.key + 1 + Text.byteLength (textBefore (depth + 1) way place) := by
      have hcolon : ':'.utf8Size = 1 := rfl
      simp only [textBefore, Text.byteLength_append, Text.byteLength_cons, hcolon]
      omega
    rw [hoffset]
    exact ih ..

/-! ## §2 The error -/

/-- An entry fails with the resource that it declares. -/
theorem readMember_child_error {path : List String} {key : String} {v : Value} {fault : Fault}
    (hkey : isResourceKey key = true) (h : readResource (path ++ [key]) key v = .error fault)
    (r : Resource) : readMember path r (.text key, v) = .error fault := by
  have hread : readKey path (.text key) = .ok key := rfl
  simp [readMember, hread, Member.ofKey_of_isResourceKey hkey, h, bind, Except.bind]

/-- An entry fails with the method that it declares. -/
theorem readMember_method_error {path : List String} {verb : Verb} {v : Value} {cause : BodyError}
    (h : readMethod verb v = .error cause) (r : Resource) : readMember path r (.text verb.key, v) =
      .error ⟨.methodWrong verb (resourcePath path) cause, path ++ [verb.key]⟩ := by
  have hread : readKey path (.text verb.key) = .ok verb.key := rfl
  simp [readMember, hread, Member.ofKey_key, h, bind, Except.bind, throw, throwThe, MonadExceptOf.throw]

/-- A resource that would be read but for one entry fails with that entry. -/
theorem readResource_error {path : List String} {segment : String} {before after : List (Value × Value)}
    {e e' : Value × Value} {fault : Fault}
    (hvalid : WellFormedResource Value.text? (.mapping (before ++ e :: after)))
    (hfail : ∀ r, readMember path r e' = .error fault) :
    readResource path segment (.mapping (before ++ e' :: after)) = .error fault := by
  obtain ⟨r, hr⟩ : ∃ r, readResource path segment _ = .ok r := readResource_isOk_iff.mpr hvalid
  rw [readResource, readMembers_eq] at hr ⊢
  exact foldlM_eq_error hr hfail

/-- **A resource that would be read but for a method in it, or below it, fails with that method.** -/
theorem readResource_entriesAround {way : List Frame} {place : Frame} {verb : Verb} {b valid : Block}
    {cause : BodyError} (hway : ∀ f ∈ way, isResourceKey (String.ofList f.key) = true)
    (hplace : String.ofList place.key = verb.key) (hcause : readMethod verb b.value = .error cause)
    (hvalid : WellFormedResource Value.text? (Block.mapping (entriesAround way place valid)).value)
    (path : List String) (segment : String) :
    let keys := path ++ way.map (String.ofList ·.key)
    readResource path segment (Block.mapping (entriesAround way place b)).value =
      .error ⟨.methodWrong verb (resourcePath keys) cause, keys ++ [verb.key]⟩ := by
  induction way generalizing path segment with
  | nil =>
    rw [entriesAround, Frame.value_entries] at hvalid ⊢
    rw [hplace] at hvalid ⊢
    simpa using readResource_error hvalid fun r => readMember_method_error hcause r
  | cons f way ih =>
    rw [entriesAround, Frame.value_entries] at hvalid ⊢
    obtain ⟨hf, hway⟩ := List.forall_mem_cons.mp hway
    have hchild : WellFormedResource Value.text? (Block.mapping (entriesAround way place valid)).value := by
      cases hvalid with
      | mapping _ _ _ _ _ children =>
        exact children (.text (String.ofList f.key), _) (List.mem_append_right _ (List.mem_cons_self ..)) _
          rfl hf
    have hfail := ih hway hchild (path ++ [String.ofList f.key]) (String.ofList f.key)
    rw [List.append_assoc] at hfail
    exact readResource_error hvalid fun r => readMember_child_error hf hfail r

/-- Entries under other keys do not matter to a field. -/
theorem lookup_append_of_ne {field key : String} (h : key ≠ field) (before after : List (Value × Value))
    (v v' : Value) : Value.lookup field (before ++ (.text key, v) :: after) =
      Value.lookup field (before ++ (.text key, v') :: after) := by
  rw [lookup_insert_of_ne h, lookup_insert_of_ne h]

/-- An API that would be read but for one resource fails with that resource. -/
theorem readApi_error {before after : List (Value × Value)} {key : String} {v v' : Value} {fault : Fault}
    (hkey : isResourceKey key = true)
    (hvalid : WellFormedApi Value.text? (.mapping (before ++ (.text key, v) :: after)))
    (hfail : readResource [key] key v' = .error fault) :
    readApi (.mapping (before ++ (.text key, v') :: after)) = .error fault := by
  obtain ⟨api, hapi⟩ := readApi_isOk_iff.mpr hvalid
  obtain ⟨title, version, baseUri, htitle, hversion, hbaseUri, htop⟩ := readApi_mapping_eq_ok.mp hapi
  have hfield : ∀ field s, isResourceKey field = false →
      readField field (before ++ (.text key, v) :: after) = .ok s →
      readField field (before ++ (.text key, v') :: after) = .ok s := by
    intro field s hnot hread
    rwa [readField, lookup_append_of_ne (ne_of_isResourceKey hkey hnot) before after v' v, ← readField]
  have hentry : ∀ api, readTopEntry api (.text key, v') = .error fault := fun api => by
    have hread : readKey [] (.text key) = .ok key := rfl
    simp [readTopEntry, hread, hkey, hfail, bind, Except.bind]
  rw [readTop_eq] at htop
  rw [readApi]
  simp only [hfield _ _ (by decide) htitle, hfield _ _ (by decide) hversion,
    hfield _ _ (by decide) hbaseUri, bind, Except.bind, readTop_eq]
  exact foldlM_eq_error htop hentry

/-! ## §3 Methods in documents -/

theorem all_isLineChar_comment {version : List Char} (h : version.all Yaml.isLineChar = true) :
    ("%RAML".toList ++ version).all Yaml.isLineChar = true := by
  have hmark : "%RAML".toList.all Yaml.isLineChar = true := by decide
  rw [List.all_append, hmark, h]
  rfl

/-- The first line of a document whose comment starts as the header does carries the header. -/
theorem hasHeader_document {version : List Char} (hversion : version.all Yaml.isLineChar = true)
    (entries : List (List Char × Block)) :
    hasHeader (Block.document ("%RAML".toList ++ version) entries) = true := by
  obtain ⟨rest, hrest⟩ : ∃ rest, Block.lines 0 entries ++ Yaml.lineStart 0 = '\n' :: rest := by
    match entries with
    | [] => exact ⟨_, rfl⟩
    | (key, b) :: entries => exact ⟨_, rfl⟩
  have hline : ('#' :: ("%RAML".toList ++ version)).all Yaml.isLineChar = true := by
    rw [List.all_cons, all_isLineChar_comment hversion]
    decide
  have hbreak : ∀ c, Yaml.isBreak c = true → c ∉ '#' :: ("%RAML".toList ++ version) := by
    intro c hbreak hmem
    have hc := List.all_eq_true.mp hline c hmem
    simp [Yaml.isLineChar, hbreak] at hc
  have hmarks : withoutMarks (Block.document ("%RAML".toList ++ version) entries) =
      '#' :: ("%RAML".toList ++ version) ++ '\n' :: rest := by
    rw [Block.document, hrest]
    rfl
  rw [hasHeader, firstLine, hmarks, Text.head?_lines (hbreak _ (by decide)) (hbreak _ (by decide))]
  rfl

/-- A method in a document, with everything around it: the resource at the top that it belongs to, the
resources below that on the way to it, and its own place. -/
structure MethodPlace where
  top : Frame
  way : List Frame
  place : Frame
  verb : Verb
  isResource : ∀ f ∈ top :: way, isResourceKey (String.ofList f.key) = true
  key_eq : String.ofList place.key = verb.key

namespace MethodPlace

/-- The entries of the document, with a value for the method. -/
def entries (p : MethodPlace) (b : Block) : List (List Char × Block) :=
  entriesAround (p.top :: p.way) p.place b

/-- The document, with a value for the method. -/
def document (p : MethodPlace) (version : List Char) (b : Block) : List Char :=
  Block.document ("%RAML".toList ++ version) (p.entries b)

/-- The path of the resource of the method. -/
def resource (p : MethodPlace) : String := String.join ((p.top :: p.way).map (String.ofList ·.key))

/-- The keys on the way to the method, with its own. -/
def keys (p : MethodPlace) : List (List Char) := (p.top :: p.way ++ [p.place]).map (·.key)

/-- The text in front of the key of the method. -/
def before (p : MethodPlace) (version : List Char) : List Char :=
  '#' :: ("%RAML".toList ++ version ++ textBefore 0 (p.top :: p.way) p.place)

variable (p : MethodPlace) (version : List Char) (b : Block)

/-- The key of the method stands behind the text in front of it. -/
theorem document_eq :
    ∃ after, p.document version b = p.before version ++ (p.place.key ++ ':' :: after) := by
  obtain ⟨after, hafter⟩ := Yaml.lines_entriesAround (p.top :: p.way) p.place b 0 (Yaml.lineStart 0)
  refine ⟨after, ?_⟩
  rw [document, Block.document, entries, hafter, before]
  simp

/-- The way to the method ends at its own key. -/
theorem endsAt_before :
    EndsAt 0 (p.document version b) p.keys (Text.byteLength (p.before version)) := by
  have h := endsAt_textBefore 0 (0 + Text.byteLength ('#' :: ("%RAML".toList ++ version)))
    (p.top :: p.way) p.place b (Yaml.lineStart 0)
  have hprepend := h.prepend
  rw [Nat.zero_add, ← Text.byteLength_append, List.cons_append] at hprepend
  rw [document, Block.document]
  exact hprepend

/-- The fault at the method, if the rest of the document is valid. -/
theorem readApi_error {b valid : Block} {cause : BodyError}
    (hcause : readMethod p.verb b.value = .error cause)
    (hvalid : WellFormedApi Value.text? (Block.mapping (p.entries valid)).value) :
    readApi (Block.mapping (p.entries b)).value =
      .error ⟨.methodWrong p.verb p.resource cause, p.keys.map String.ofList⟩ := by
  obtain ⟨htop, hway⟩ := List.forall_mem_cons.mp p.isResource
  have hkeys : p.keys.map String.ofList =
      [String.ofList p.top.key] ++ p.way.map (String.ofList ·.key) ++ [p.verb.key] := by
    simp [keys, ← p.key_eq, Function.comp_def]
  have hresource : p.resource =
      resourcePath ([String.ofList p.top.key] ++ p.way.map (String.ofList ·.key)) := by
    rw [resourcePath, List.filter_eq_self.mpr]
    · rfl
    · rintro key hkey
      obtain ⟨f, hf, rfl⟩ : ∃ f ∈ p.top :: p.way, String.ofList f.key = key := List.mem_map.mp hkey
      exact p.isResource f hf
  rw [entries, entriesAround, Frame.value_entries] at hvalid ⊢
  have hchild : WellFormedResource Value.text? (Block.mapping (entriesAround p.way p.place valid)).value := by
    cases hvalid with
    | mapping _ _ _ _ resources =>
      exact resources (.text (String.ofList p.top.key), _)
        (List.mem_append_right _ (List.mem_cons_self ..)) _ rfl htop
  rw [hkeys, hresource]
  exact Raml.readApi_error htop hvalid (readResource_entriesAround hway p.key_eq hcause hchild _ _)

/-- **Reading a document that is valid but for a method fails at that method**, and the error names the
place where the way to it is found. -/
theorem parse_document {b valid : Block} {cause : BodyError}
    (hcause : readMethod p.verb b.value = .error cause)
    (hversion : version.all Yaml.isLineChar = true)
    (hlegible : (Block.mapping (p.entries b)).isLegible Yaml.Document.maxDepth = true)
    (hvalid : WellFormedApi Value.text? (Block.mapping (p.entries valid)).value) :
    parse (String.ofList (p.document version b)) =
      .error (.invalid (.methodWrong p.verb p.resource cause)
        (locateFrom 0 (p.document version b) p.keys none)) := by
  have hpath : (p.keys.map String.ofList).map String.toList = p.keys := by
    rw [List.map_map]
    exact List.map_id'' (fun _ => String.toList_ofList) _
  have hheader : hasHeader (String.ofList (p.document version b)).toList = true := by
    rw [String.toList_ofList]
    exact hasHeader_document hversion _
  have hroot : Value.ofText (String.ofList (p.document version b)).toList =
      .ok (Block.mapping (p.entries b)).value := by
    rw [String.toList_ofList]
    exact Value.ofText_document (all_isLineChar_comment hversion) hlegible
  rw [parse_eq_error hheader hroot (p.readApi_error hcause hvalid), locate, String.toList_ofList]
  simp only [hpath]

end MethodPlace

/-- The number 7 as the value of a key. -/
def seven : Block := .words ['7'] []

/-- **The error on a method that is 7** is about this method and says what is wrong with it, and it names
the occurrence of the way to the method that ends first. That is the key of the method itself exactly if
no occurrence of the way ends before it. -/
theorem parse_seven (p : MethodPlace) (version : List Char) (hversion : version.all Yaml.isLineChar = true)
    (hlegible : (Block.mapping (p.entries seven)).isLegible Yaml.Document.maxDepth = true)
    (hvalid : WellFormedApi Value.text? (Block.mapping (p.entries .nothing)).value) :
    let document := p.document version seven
    let own := Text.byteLength (p.before version)
    (∃ after, document = p.before version ++ (p.place.key ++ ':' :: after)) ∧
      EndsAt 0 document p.keys own ∧
      ∃ offset, parse (String.ofList document) =
          .error (.invalid (.methodWrong p.verb p.resource (.wrongType (.number (.integer 7)) .method))
            (some ⟨offset, Text.byteLength p.place.key⟩)) ∧
        EndsAt 0 document p.keys offset ∧
        (∀ last, EndsAt 0 document p.keys last → offset ≤ last) ∧
        (offset = own ↔ ∀ last, EndsAt 0 document p.keys last → own ≤ last) := by
  intro document own
  have hown : EndsAt 0 document p.keys own := p.endsAt_before version seven
  have hkeys : p.keys = p.top.key :: (p.way ++ [p.place]).map (·.key) := rfl
  have hlast : ((p.way ++ [p.place]).map (·.key)).getLastD p.top.key = p.place.key := by simp
  have hparse : parse (String.ofList document) =
      .error (.invalid (.methodWrong p.verb p.resource (.wrongType (.number (.integer 7)) .method))
        (locateFrom 0 document p.keys none)) := p.parse_document version rfl hversion hlegible hvalid
  rw [hkeys] at hown hparse ⊢
  obtain ⟨offset, hlocate, hoffset, hleast⟩ := locateFrom_least hown none
  rw [hlocate, hlast] at hparse
  refine ⟨p.document_eq version seven, hown, offset, hparse, hoffset, hleast, ?_⟩
  constructor
  · rintro rfl
    exact hleast
  · exact fun hfirst => Nat.le_antisymm (hleast own hown) (hfirst offset hoffset)

/-- A GET of the resource `/b`, behind a GET of the resource `/a/b`. -/
def shadowedGet : MethodPlace where
  top := ⟨[("title".toList, .words ['T'] []),
    ("/a".toList, .mapping [("/b".toList, .mapping [("get".toList,
      .mapping [("displayName".toList, .words ['X'] [])])])])], "/b".toList, []⟩
  way := []
  place := ⟨[], "get".toList, []⟩
  verb := .get
  isResource := by decide
  key_eq := rfl

theorem isLegible_shadowedGet :
    (Block.mapping (shadowedGet.entries seven)).isLegible Yaml.Document.maxDepth = true := by
  decide +kernel

theorem wellFormed_shadowedGet :
    WellFormedApi Value.text? (Block.mapping (shadowedGet.entries .nothing)).value :=
  readApi_isOk_iff.mp ⟨_, rfl⟩

theorem parse_seven_shadowedGet :
    (Block.mapping (shadowedGet.entries seven)).isLegible Yaml.Document.maxDepth = true ∧
      WellFormedApi Value.text? (Block.mapping (shadowedGet.entries .nothing)).value ∧
      ∃ offset, parse (String.ofList (shadowedGet.document " 0.8".toList seven)) =
        .error (.invalid (.methodWrong .get "/b" (.wrongType (.number (.integer 7)) .method))
          (some ⟨offset, 3⟩)) := by
  obtain ⟨-, -, offset, hparse, -⟩ := parse_seven shadowedGet " 0.8".toList (by decide)
    isLegible_shadowedGet wellFormed_shadowedGet
  exact ⟨isLegible_shadowedGet, wellFormed_shadowedGet, offset, hparse⟩

/-- The error on the GET of `/b` names the key of the GET of `/a/b`, which is valid. -/
theorem span_shadowedGet :
    String.ofList (shadowedGet.document " 0.8".toList seven) =
        "#%RAML 0.8\ntitle: T\n/a:\n  /b:\n    get:\n      displayName: X\n/b:\n  get: 7\n" ∧
      WellFormedApi Value.text? (Block.mapping (shadowedGet.entries .nothing)).value ∧
      parse "#%RAML 0.8\ntitle: T\n/a:\n  /b:\n    get:\n      displayName: X\n/b:\n  get: 7\n" =
        .error (.invalid (.methodWrong .get "/b" (.wrongType (.number (.integer 7)) .method))
          (some ⟨34, 3⟩)) ∧
      Text.byteLength (shadowedGet.before " 0.8".toList) = 66 := by
  have htext : String.ofList (shadowedGet.document " 0.8".toList seven) =
      "#%RAML 0.8\ntitle: T\n/a:\n  /b:\n    get:\n      displayName: X\n/b:\n  get: 7\n" := by
    decide +kernel
  have hspan : locateFrom 0 (shadowedGet.document " 0.8".toList seven) shadowedGet.keys none =
      some ⟨34, 3⟩ := by
    decide +kernel
  have hparse := shadowedGet.parse_document " 0.8".toList rfl (by decide) isLegible_shadowedGet
    wellFormed_shadowedGet
  rw [hspan, htext] at hparse
  exact ⟨htext, wellFormed_shadowedGet, hparse, by decide +kernel⟩

end Raml

end RouteStubs
