import RouteStubs.Proofs.Yaml.BlockTokens
/-!
The events and the value of a document in block style.

The reader of tokens goes from one expectation to the next (`Awaits`) and emits the events of each value
(`emitsBlock`); from these the value is read back (`readsValue`). `Value.ofText_document` says that
the value of a legible document is the one that was written.
-/

namespace RouteStubs.Yaml

/-! ## §1 Events -/

/-- The properties of a node that has none. -/
def bare : Properties := ⟨none, none⟩

mutual

/-- The events of a value. -/
def Block.events : Block → List EventKind
  | .nothing => [.scalar bare .plain []]
  | .words first others => [.scalar bare .plain (joinWords first others)]
  | .quoted text => [.scalar bare .doubleQuoted text]
  | .mapping entries => .mappingStart bare :: (Block.entryEvents entries ++ [.mappingEnd])
termination_by structural b => b

/-- The events of the entries of a mapping. -/
def Block.entryEvents : List (List Char × Block) → List EventKind
  | [] => []
  | (key, b) :: rest => .scalar bare .plain key :: (Block.events b ++ Block.entryEvents rest)
termination_by structural entries => entries

end

namespace Reader

/-- From one state of the reader to a later one, with the events in between. -/
inductive Emits : Reader → List Event → Reader → Prop
  | refl (r : Reader) : Emits r [] r
  | step {r after last : Reader} {e : Event} {es : List Event} (next_eq : r.next = .ok (e, after))
      (kind_ne : e.kind ≠ .streamEnd) (rest : Emits after es last) : Emits r (e :: es) last

theorem Emits.append {r s t : Reader} {es fs : List Event} (h : Emits r es s) (h' : Emits s fs t) :
    Emits r (es ++ fs) t := by
  induction h with
  | refl => exact h'
  | step hnext hkind _ ih => exact .step hnext hkind (ih h')

theorem Emits.events_eq {r s : Reader} {es : List Event} (h : Emits r es s) (fuel : Nat) :
    events (es.length + fuel) r = (es ++ (events fuel s).1, (events fuel s).2) := by
  induction h with
  | refl r => simp
  | @step r after last e es hnext hkind _ ih =>
    rw [List.length_cons, Nat.add_right_comm, events, hnext]
    simp only [hkind, ih, if_false, List.cons_append]

/-- What is expected now and later, and the kinds of the tokens that are left. -/
structure Awaits (r : Reader) (expect : Expect) (later : List Expect) (kinds : List TokenKind) : Prop where
  expect : r.expect = expect
  later : r.later = later
  refusal : r.refusal = none
  kinds : r.tokens.map (·.kind) = kinds

/-- A scalar is a node of its own. -/
theorem node_scalar {r : Reader} {token : Token} {tokens : List Token} {style : ScalarStyle}
    {text : List Char} (htokens : r.tokens = token :: tokens) (hkind : token.kind = .scalar style text)
    (block indentless : Bool) :
    r.node block indentless = .ok (⟨.scalar bare style text, token.start⟩, r.leave.advance) := by
  have hpeek : r.peek = .ok token := by rw [peek, htokens]
  simp [node, properties, hpeek, hkind, bind, Except.bind, pure, Except.pure, bare]

/-- A mapping starts a node. -/
theorem node_blockMappingStart {r : Reader} {token : Token} {tokens : List Token}
    (htokens : r.tokens = token :: tokens) (hkind : token.kind = .blockMappingStart) (indentless : Bool) :
    r.node true indentless =
      .ok (⟨.mappingStart bare, token.start⟩, r.advance.expecting (.blockKey token.start)) := by
  have hpeek : r.peek = .ok token := by rw [peek, htokens]
  simp [node, properties, hpeek, hkind, bind, Except.bind, pure, Except.pure, bare]

/-- A key of a block mapping is read. -/
theorem Awaits.emits_key {r : Reader} {start : Mark} {later : List Expect} {key : List Char}
    {kinds : List TokenKind}
    (h : Awaits r (.blockKey start) later (.key :: .scalar .plain key :: kinds)) :
    ∃ e s, Emits r [e] s ∧ e.kind = .scalar bare .plain key ∧ Awaits s (.blockValue start) later kinds := by
  obtain ⟨tokens, refusal, expect, stack, handles⟩ := r
  obtain ⟨rfl, rfl, rfl, hkinds⟩ := h
  obtain ⟨mark, tokens, rfl, hmark, hkinds⟩ := List.map_eq_cons_iff.mp hkinds
  obtain ⟨token, tokens, rfl, htoken, rfl⟩ := List.map_eq_cons_iff.mp hkinds
  have hnode : node ⟨token :: tokens, none, .blockKey start, .blockValue start :: stack, handles⟩ true true =
      .ok (⟨.scalar bare .plain key, token.start⟩, ⟨tokens, none, .blockValue start, stack, handles⟩) :=
    node_scalar rfl htoken true true
  refine ⟨⟨.scalar bare .plain key, token.start⟩, ⟨tokens, none, .blockValue start, stack, handles⟩,
    .step ?_ nofun (.refl _), rfl, rfl, rfl, rfl, rfl⟩
  simp [next, blockKey, peek, hmark, htoken, advance, enter, bind, Except.bind, hnode]

/-- A scalar behind the mark of a value is read. -/
theorem Awaits.emits_scalar {r : Reader} {start : Mark} {later : List Expect} {style : ScalarStyle}
    {text : List Char} {kinds : List TokenKind}
    (h : Awaits r (.blockValue start) later (.value :: .scalar style text :: kinds)) :
    ∃ e s, Emits r [e] s ∧ e.kind = .scalar bare style text ∧ Awaits s (.blockKey start) later kinds := by
  obtain ⟨tokens, refusal, expect, stack, handles⟩ := r
  obtain ⟨rfl, rfl, rfl, hkinds⟩ := h
  obtain ⟨mark, tokens, rfl, hmark, hkinds⟩ := List.map_eq_cons_iff.mp hkinds
  obtain ⟨token, tokens, rfl, htoken, rfl⟩ := List.map_eq_cons_iff.mp hkinds
  have hnode : node ⟨token :: tokens, none, .blockValue start, .blockKey start :: stack, handles⟩ true true =
      .ok (⟨.scalar bare style text, token.start⟩, ⟨tokens, none, .blockKey start, stack, handles⟩) :=
    node_scalar rfl htoken true true
  refine ⟨⟨.scalar bare style text, token.start⟩, ⟨tokens, none, .blockKey start, stack, handles⟩,
    .step ?_ nofun (.refl _), rfl, rfl, rfl, rfl, rfl⟩
  simp [next, blockValue, peek, hmark, htoken, advance, enter, bind, Except.bind, hnode]

/-- A value that is missing in front of the next key, or of the end, is an empty scalar. -/
theorem Awaits.emits_missing {r : Reader} {start : Mark} {later : List Expect} {kind : TokenKind}
    {kinds : List TokenKind} (hkind : kind = .key ∨ kind = .blockEnd)
    (h : Awaits r (.blockValue start) later (.value :: kind :: kinds)) :
    ∃ e s, Emits r [e] s ∧ e.kind = .scalar bare .plain [] ∧
      Awaits s (.blockKey start) later (kind :: kinds) := by
  obtain ⟨tokens, refusal, expect, stack, handles⟩ := r
  obtain ⟨rfl, rfl, rfl, hkinds⟩ := h
  obtain ⟨mark, tokens, rfl, hmark, hkinds⟩ := List.map_eq_cons_iff.mp hkinds
  obtain ⟨token, tokens, rfl, rfl, rfl⟩ := List.map_eq_cons_iff.mp hkinds
  refine ⟨⟨.scalar bare .plain [], mark.stop⟩, ⟨token :: tokens, none, .blockKey start, stack, handles⟩,
    .step ?_ nofun (.refl _), rfl, rfl, rfl, rfl, rfl⟩
  rcases hkind with hkind | hkind <;>
    simp [next, blockValue, peek, hmark, hkind, advance, expecting, missingNode, bare, bind, Except.bind]

/-- A mapping behind the mark of a value begins. -/
theorem Awaits.emits_mappingStart {r : Reader} {start : Mark} {later : List Expect}
    {kinds : List TokenKind}
    (h : Awaits r (.blockValue start) later (.value :: .blockMappingStart :: kinds)) :
    ∃ e s within, Emits r [e] s ∧ e.kind = .mappingStart bare ∧
      Awaits s (.blockKey within) (.blockKey start :: later) kinds := by
  obtain ⟨tokens, refusal, expect, stack, handles⟩ := r
  obtain ⟨rfl, rfl, rfl, hkinds⟩ := h
  obtain ⟨mark, tokens, rfl, hmark, hkinds⟩ := List.map_eq_cons_iff.mp hkinds
  obtain ⟨token, tokens, rfl, htoken, rfl⟩ := List.map_eq_cons_iff.mp hkinds
  have hnode : node ⟨token :: tokens, none, .blockValue start, .blockKey start :: stack, handles⟩ true true =
      .ok (⟨.mappingStart bare, token.start⟩,
        ⟨tokens, none, .blockKey token.start, .blockKey start :: stack, handles⟩) :=
    node_blockMappingStart rfl htoken true
  refine ⟨⟨.mappingStart bare, token.start⟩,
    ⟨tokens, none, .blockKey token.start, .blockKey start :: stack, handles⟩, token.start,
    .step ?_ nofun (.refl _), rfl, rfl, rfl, rfl, rfl⟩
  simp [next, blockValue, peek, hmark, htoken, advance, enter, bind, Except.bind, hnode]

/-- A mapping ends. -/
theorem Awaits.emits_mappingEnd {r : Reader} {start : Mark} {expect : Expect} {later : List Expect}
    {kinds : List TokenKind} (h : Awaits r (.blockKey start) (expect :: later) (.blockEnd :: kinds)) :
    ∃ e s, Emits r [e] s ∧ e.kind = .mappingEnd ∧ Awaits s expect later kinds := by
  obtain ⟨tokens, refusal, expected, stack, handles⟩ := r
  obtain ⟨rfl, rfl, rfl, hkinds⟩ := h
  obtain ⟨token, tokens, rfl, htoken, rfl⟩ := List.map_eq_cons_iff.mp hkinds
  refine ⟨⟨.mappingEnd, token.start⟩, ⟨tokens, none, expect, later, handles⟩,
    .step ?_ nofun (.refl _), rfl, rfl, rfl, rfl, rfl⟩
  simp [next, blockKey, peek, htoken, advance, leave, bind, Except.bind, pure, Except.pure]

/-- A value is emitted as it is written, in front of the next key or of the end of the mapping. -/
def EmitsBlock (b : Block) : Prop :=
  ∀ {r : Reader} {start : Mark} {later : List Expect} {kind : TokenKind} {kinds : List TokenKind},
    kind = .key ∨ kind = .blockEnd →
    Awaits r (.blockValue start) later (.value :: (b.kinds ++ kind :: kinds)) →
    ∃ es s, Emits r es s ∧ es.map (·.kind) = b.events ∧ Awaits s (.blockKey start) later (kind :: kinds)

/-- The entries of a mapping are emitted one after the other. -/
theorem Awaits.emits_entries {entries : List (List Char × Block)}
    (hemits : ∀ e ∈ entries, EmitsBlock e.2) {r : Reader} {start : Mark} {later : List Expect}
    {kinds : List TokenKind}
    (h : Awaits r (.blockKey start) later (Block.entryKinds entries ++ .blockEnd :: kinds)) :
    ∃ es s, Emits r es s ∧ es.map (·.kind) = Block.entryEvents entries ∧
      Awaits s (.blockKey start) later (.blockEnd :: kinds) := by
  induction entries generalizing r with
  | nil => exact ⟨[], r, .refl r, rfl, h⟩
  | cons e rest ih =>
    obtain ⟨key, b⟩ := e
    have hb : EmitsBlock b := hemits _ (List.mem_cons_self ..)
    -- what follows the value is the next key, or the end
    obtain ⟨kind, kinds', hkind, heq⟩ : ∃ kind kinds', (kind = .key ∨ kind = .blockEnd) ∧
        Block.entryKinds rest ++ .blockEnd :: kinds = kind :: kinds' := by
      cases rest with
      | nil => exact ⟨_, _, .inr rfl, rfl⟩
      | cons e rest => exact ⟨_, _, .inl rfl, rfl⟩
    have hkinds : Block.entryKinds ((key, b) :: rest) ++ .blockEnd :: kinds =
        .key :: .scalar .plain key :: .value :: (b.kinds ++ kind :: kinds') := by
      simp [Block.entryKinds, ← heq]
    rw [hkinds] at h
    obtain ⟨e, r₁, hkey, hkeyKind, h₁⟩ := h.emits_key
    obtain ⟨es, r₂, hvalue, hvalueKinds, h₂⟩ := hb hkind h₁
    rw [← heq] at h₂
    obtain ⟨fs, r₃, hrest, hrestKinds, h₃⟩ := ih (fun e he => hemits e (List.mem_cons_of_mem _ he)) h₂
    refine ⟨[e] ++ (es ++ fs), r₃, hkey.append (hvalue.append hrest), ?_, h₃⟩
    simp [Block.entryEvents, hkeyKind, hvalueKinds, hrestKinds]

/-- **Every value is emitted as it is written.** -/
theorem emitsBlock (b : Block) : EmitsBlock b := by
  induction b using Block.induction with
  | nothing =>
    intro r start later kind kinds hkind h
    obtain ⟨e, s, hemits, he, hs⟩ := h.emits_missing hkind
    exact ⟨[e], s, hemits, by simp [Block.events, he], hs⟩
  | words first others =>
    intro r start later kind kinds _ h
    obtain ⟨e, s, hemits, he, hs⟩ := h.emits_scalar
    exact ⟨[e], s, hemits, by simp [Block.events, he], hs⟩
  | quoted text =>
    intro r start later kind kinds _ h
    obtain ⟨e, s, hemits, he, hs⟩ := h.emits_scalar
    exact ⟨[e], s, hemits, by simp [Block.events, he], hs⟩
  | mapping entries ih =>
    intro r start later kind kinds hkind h
    rw [Block.kinds, List.cons_append, List.append_assoc] at h
    obtain ⟨e, r₁, within, hstart, he, h₁⟩ := h.emits_mappingStart
    obtain ⟨es, r₂, hentries, hes, h₂⟩ := h₁.emits_entries ih
    obtain ⟨f, r₃, hend, hf, h₃⟩ := h₂.emits_mappingEnd
    refine ⟨[e] ++ (es ++ [f]), r₃, hstart.append (hentries.append hend), ?_, h₃⟩
    simp [Block.events, he, hes, hf]

/-- The entries have no more events than tokens. -/
theorem length_entryEvents_le {entries : List (List Char × Block)}
    (hvalues : ∀ e ∈ entries, e.2.events.length ≤ e.2.kinds.length + 1) :
    (Block.entryEvents entries).length ≤ (Block.entryKinds entries).length := by
  induction entries with
  | nil => exact Nat.le_refl _
  | cons e rest ih =>
    obtain ⟨key, b⟩ := e
    have hb := hvalues _ (List.mem_cons_self ..)
    have hrest := ih fun e he => hvalues e (List.mem_cons_of_mem _ he)
    simp only [Block.entryEvents, Block.entryKinds, List.length_cons, List.length_append] at hb ⊢
    omega

/-- A value has at most one event more than it has tokens. -/
theorem length_events_le (b : Block) : b.events.length ≤ b.kinds.length + 1 := by
  induction b using Block.induction with
  | nothing => exact Nat.le_refl _
  | words first others => exact Nat.le_succ _
  | quoted text => exact Nat.le_succ _
  | mapping entries ih =>
    have hentries := length_entryEvents_le ih
    simp only [Block.events, Block.kinds, List.length_cons, List.length_append]
    omega

/-- **The events of a document** are those of its mapping between a start and an end, and there is no
error. -/
theorem eventsOfTokens_document {tokens : List Token} {entries : List (List Char × Block)}
    (h : tokens.map (·.kind) = (Block.mapping entries).kinds ++ [.streamEnd]) :
    ∃ es, eventsOfTokens ⟨tokens, none⟩ = (es, none) ∧
      es.map (·.kind) =
        .documentStart :: ((Block.mapping entries).events ++ [.documentEnd, .streamEnd]) := by
  have hlength := congrArg List.length h
  rw [Block.kinds] at h hlength
  obtain ⟨first, tokens, rfl, hfirst, h⟩ := List.map_eq_cons_iff.mp h
  -- the start of the document and of the mapping
  have hstart : next ⟨first :: tokens, none, .documentStart true, [], []⟩ =
      .ok (⟨.documentStart, first.start⟩,
        ⟨first :: tokens, none, .blockNode, [.documentEnd], standardHandles⟩) := by
    simp [next, documentStart, peek, hfirst, enter, bind, Except.bind, pure, Except.pure]
  have hmapping : next ⟨first :: tokens, none, .blockNode, [.documentEnd], standardHandles⟩ =
      .ok (⟨.mappingStart bare, first.start⟩,
        ⟨tokens, none, .blockKey first.start, [.documentEnd], standardHandles⟩) :=
    node_blockMappingStart rfl hfirst false
  have hawaits : Awaits ⟨tokens, none, .blockKey first.start, [.documentEnd], standardHandles⟩
      (.blockKey first.start) [.documentEnd]
      (Block.entryKinds entries ++ .blockEnd :: [.streamEnd]) := by
    refine ⟨rfl, rfl, rfl, ?_⟩
    simpa using h
  obtain ⟨es, r₁, hentries, hes, h₁⟩ := hawaits.emits_entries fun e _ => emitsBlock e.2
  obtain ⟨f, r₂, hend, hf, h₂⟩ := h₁.emits_mappingEnd
  -- the end of the document and of the text
  obtain ⟨left, refusal, expect, stack, handles⟩ := r₂
  obtain ⟨rfl, rfl, rfl, hleft⟩ := h₂
  obtain ⟨last, left, rfl, hlast, hleft⟩ := List.map_eq_cons_iff.mp hleft
  obtain rfl := List.map_eq_nil_iff.mp hleft
  have hdocumentEnd : next ⟨[last], none, .documentEnd, [], handles⟩ =
      .ok (⟨.documentEnd, last.start⟩, ⟨[last], none, .documentStart false, [], []⟩) := by
    simp [next, documentEnd, peek, hlast, bind, Except.bind, pure, Except.pure]
  have hstreamEnd : next ⟨[last], none, .documentStart false, [], []⟩ =
      .ok (⟨.streamEnd, last.start⟩, ⟨[], none, .nothing, [], []⟩) := by
    simp [next, documentStart, skipDocumentEnds, peek, hlast, advance, expecting, bind, Except.bind, pure,
      Except.pure]
  have hemits := Emits.step hstart (by simp) (Emits.step hmapping (by simp)
    (hentries.append (hend.append (Emits.step hdocumentEnd (by simp) (.refl _)))))
  have hlengthEs : es.length ≤ (Block.entryKinds entries).length := by
    rw [← List.length_map (·.kind), hes]
    exact length_entryEvents_le fun e _ => length_events_le e.2
  obtain ⟨fuel, hfuel⟩ : ∃ fuel, 4 * (first :: tokens).length + 16 =
      (⟨.documentStart, first.start⟩ :: ⟨.mappingStart bare, first.start⟩ ::
        (es ++ ([f] ++ [⟨.documentEnd, last.start⟩])) : List Event).length + (fuel + 1) := by
    refine ⟨4 * (first :: tokens).length + 16 - (es.length + 5), ?_⟩
    simp only [List.length_cons, List.length_append, List.length_map, List.length_nil] at hlength ⊢
    omega
  refine ⟨⟨.documentStart, first.start⟩ :: ⟨.mappingStart bare, first.start⟩ ::
    (es ++ ([f] ++ [⟨.documentEnd, last.start⟩])) ++ [⟨.streamEnd, last.start⟩], ?_, ?_⟩
  · rw [eventsOfTokens, hfuel, hemits.events_eq, events, hstreamEnd]
    rfl
  · simp [Block.events, hes, hf]

end Reader

/-! ## §2 Values -/

/-- The node that an event without an anchor is. -/
def EventKind.node : EventKind → NodeKind
  | .scalar properties style text => .scalar properties.tag style text
  | .sequenceStart properties => .sequenceStart properties.tag
  | .sequenceEnd => .sequenceEnd
  | .mappingStart properties => .mappingStart properties.tag
  | .mappingEnd => .mappingEnd
  | .alias _ | .documentStart | .documentEnd | .streamEnd => .nothing

/-- An event of a value without an anchor or a tag. -/
inductive EventKind.IsBare : EventKind → Prop
  | scalar (style : ScalarStyle) (text : List Char) : IsBare (.scalar bare style text)
  | mappingStart : IsBare (.mappingStart bare)
  | mappingEnd : IsBare .mappingEnd

theorem isBare_entryEvents {entries : List (List Char × Block)}
    (hvalues : ∀ e ∈ entries, ∀ kind ∈ e.2.events, kind.IsBare) :
    ∀ kind ∈ Block.entryEvents entries, kind.IsBare := by
  induction entries with
  | nil => exact fun _ h => by cases h
  | cons e rest ih =>
    obtain ⟨key, b⟩ := e
    intro kind hkind
    simp only [Block.entryEvents, List.mem_cons, List.mem_append] at hkind
    rcases hkind with rfl | hkind | hkind
    · exact .scalar _ _
    · exact hvalues _ (List.mem_cons_self ..) kind hkind
    · exact ih (fun e he => hvalues e (List.mem_cons_of_mem _ he)) kind hkind

theorem isBare_events (b : Block) : ∀ kind ∈ b.events, kind.IsBare := by
  induction b using Block.induction with
  | nothing => simpa [Block.events] using EventKind.IsBare.scalar _ _
  | words first others => simpa [Block.events] using EventKind.IsBare.scalar _ _
  | quoted text => simpa [Block.events] using EventKind.IsBare.scalar _ _
  | mapping entries ih =>
    intro kind hkind
    simp only [Block.events, List.mem_cons, List.mem_append, List.not_mem_nil, or_false] at hkind
    rcases hkind with rfl | hkind | rfl
    · exact .mappingStart
    · exact isBare_entryEvents ih kind hkind
    · exact .mappingEnd

namespace Document

/-- The nodes of events. -/
def nodesOf (es : List Event) : List (NodeKind × Mark) := es.map fun e => (e.kind.node, e.mark)

/-- Events without anchors become nodes one by one. -/
theorem ofEvents_append {failure : Option SyntaxError} {anchors : Anchors} {es rest : List Event}
    (h : ∀ e ∈ es, e.kind.IsBare) :
    ofEvents failure anchors (es ++ rest) =
      let (d, after) := ofEvents failure anchors rest
      ({ d with events := nodesOf es ++ d.events }, after) := by
  induction es with
  | nil => rfl
  | cons e es ih =>
    obtain ⟨kind, mark⟩ := e
    have hes := ih fun e he => h e (List.mem_cons_of_mem _ he)
    have hkind : kind.IsBare := h ⟨kind, mark⟩ (List.mem_cons_self ..)
    rw [List.cons_append, ofEvents.eq_def]
    cases hkind <;> simp [bare, hes, cons, nodesOf, EventKind.node]

/-- A value is read back as it is written, where its nodes stand. -/
def ReadsValue (b : Block) : Prop :=
  ∀ {d : Document} {nodes rest : List (NodeKind × Mark)} {fuel : Nat} {path : Path} {depth aliases : Nat},
    b.isLegible depth = true → nodes.map (·.1) = b.events.map EventKind.node → nodes.length < fuel →
    readValue d fuel path depth false ⟨nodes ++ rest, aliases⟩ = .ok (b.value, ⟨rest, aliases⟩)

/-- The entries of a mapping are read back one after the other, where none of the keys has been read. -/
theorem readEntries_entries {d : Document} {entries : List (List Char × Block)}
    (hreads : ∀ e ∈ entries, ReadsValue e.2) {depth : Nat}
    (hlegible : Block.areLegible depth entries = true) {nodes rest : List (NodeKind × Mark)} {mark : Mark}
    {fuel : Nat} {path : Path} {start : Mark} {aliases : Nat} {before : List (Value × Value)}
    (hnodes : nodes.map (·.1) = (Block.entryEvents entries).map EventKind.node)
    (hfuel : nodes.length + 1 < fuel)
    (hnew : ∀ e ∈ entries, ∀ a ∈ before, a.1.same (.text (String.ofList e.1)) = false) :
    readEntries d fuel path start depth false before ⟨nodes ++ (.mappingEnd, mark) :: rest, aliases⟩ =
      .ok (before.reverse ++ Block.entryValues entries, ⟨rest, aliases⟩) := by
  induction entries generalizing nodes fuel before with
  | nil =>
    obtain ⟨fuel, rfl⟩ := Nat.exists_eq_succ_of_ne_zero (Nat.ne_zero_of_lt hfuel)
    obtain rfl := List.map_eq_nil_iff.mp hnodes
    simp [readEntries, Block.entryValues]
  | cons e entries ih =>
    obtain ⟨key, b⟩ := e
    obtain ⟨hkey, hkeys, hb, hentries⟩ := Block.areLegible_cons.mp hlegible
    obtain ⟨first, others, hwords⟩ := keyWords_of_isKey hkey
    rw [Block.entryEvents, List.map_cons] at hnodes
    obtain ⟨⟨kind, keyMark⟩, nodes, rfl, hkind, hnodes'⟩ := List.map_eq_cons_iff.mp hnodes
    obtain rfl : kind = .scalar none .plain key := hkind
    rw [List.map_append] at hnodes'
    obtain ⟨valueNodes, nodes, rfl, hvalueNodes, hnodes⟩ := List.map_eq_append_iff.mp hnodes'
    obtain ⟨fuel, rfl⟩ : ∃ n, fuel = n + 2 := ⟨fuel - 2, by omega⟩
    simp only [List.length_cons, List.length_append] at hfuel
    -- the key is a text, and none that has been read
    have hkeyValue : ∀ behind, readValue d (fuel + 1) path depth false
        ⟨(.scalar none .plain key, keyMark) :: behind, aliases⟩ =
          .ok (.text (String.ofList key), ⟨behind, aliases⟩) := by
      intro behind
      simp [readValue, localTag?, scalarValue, hwords.value]
    have hfresh : (before.any fun a => a.1.same (.text (String.ofList key))) = false := by
      rw [List.any_eq_false]
      intro a ha
      simp [hnew _ (List.mem_cons_self ..) a ha]
    -- then its value is read, and the other entries
    have hvalue : readValue d (fuel + 1) (pathOfKey path (.scalar none .plain key)) depth false
        ⟨valueNodes ++ (nodes ++ (.mappingEnd, mark) :: rest), aliases⟩ =
          .ok (b.value, ⟨nodes ++ (.mappingEnd, mark) :: rest, aliases⟩) :=
      hreads _ (List.mem_cons_self ..) hb hvalueNodes (by omega)
    have hnew' : ∀ e ∈ entries, ∀ a ∈ (Value.text (String.ofList key), b.value) :: before,
        a.1.same (.text (String.ofList e.1)) = false := by
      intro e he a ha
      rcases List.mem_cons.mp ha with rfl | ha
      · rw [Value.same, beq_eq_false_iff_ne]
        exact fun heq => hkeys e he (String.ofList_injective heq).symm
      · exact hnew e (List.mem_cons_of_mem _ he) a ha
    have hrest := @ih (fun e he => hreads e (List.mem_cons_of_mem _ he)) hentries nodes (fuel + 1) _ hnodes
      (by omega) hnew'
    rw [readEntries]
    simp only [List.cons_append, List.append_assoc, hkeyValue, hfresh, hvalue, bind, Except.bind,
      Bool.false_eq_true, if_false, hrest, Block.entryValues, List.reverse_cons]
    rfl

/-- **Every value is read back as it is written.** -/
theorem readsValue (b : Block) : ReadsValue b := by
  induction b using Block.induction with
  | nothing =>
    intro d nodes rest fuel path depth aliases _ hnodes hfuel
    obtain ⟨fuel, rfl⟩ := Nat.exists_eq_succ_of_ne_zero (Nat.ne_zero_of_lt hfuel)
    obtain ⟨⟨kind, mark⟩, nodes, rfl, hkind, hnil⟩ := List.map_eq_cons_iff.mp hnodes
    obtain rfl : kind = .scalar none .plain [] := hkind
    obtain rfl := List.map_eq_nil_iff.mp hnil
    simp [readValue, localTag?, scalarValue, plainValue, Block.value]
  | words first others =>
    intro d nodes rest fuel path depth aliases hlegible hnodes hfuel
    obtain ⟨-, -, v, hv⟩ := Block.isLegible_words.mp hlegible
    obtain ⟨fuel, rfl⟩ := Nat.exists_eq_succ_of_ne_zero (Nat.ne_zero_of_lt hfuel)
    obtain ⟨⟨kind, mark⟩, nodes, rfl, hkind, hnil⟩ := List.map_eq_cons_iff.mp hnodes
    obtain rfl : kind = .scalar none .plain (joinWords first others) := hkind
    obtain rfl := List.map_eq_nil_iff.mp hnil
    simp [readValue, localTag?, scalarValue, hv, Block.value, Except.toOption]
  | quoted text =>
    intro d nodes rest fuel path depth aliases _ hnodes hfuel
    obtain ⟨fuel, rfl⟩ := Nat.exists_eq_succ_of_ne_zero (Nat.ne_zero_of_lt hfuel)
    obtain ⟨⟨kind, mark⟩, nodes, rfl, hkind, hnil⟩ := List.map_eq_cons_iff.mp hnodes
    obtain rfl : kind = .scalar none .doubleQuoted text := hkind
    obtain rfl := List.map_eq_nil_iff.mp hnil
    simp [readValue, localTag?, scalarValue, Block.value]
  | mapping entries ih =>
    intro d nodes rest fuel path depth aliases hlegible hnodes hfuel
    obtain ⟨within, rfl, -, hentries⟩ := Block.isLegible_mapping.mp hlegible
    obtain ⟨fuel, rfl⟩ := Nat.exists_eq_succ_of_ne_zero (Nat.ne_zero_of_lt hfuel)
    rw [Block.events, List.map_cons, List.map_append] at hnodes
    obtain ⟨⟨kind, mark⟩, nodes, rfl, hkind, hwithin⟩ := List.map_eq_cons_iff.mp hnodes
    obtain rfl : kind = .mappingStart none := hkind
    obtain ⟨entryNodes, lastNodes, rfl, hentryNodes, hlast⟩ := List.map_eq_append_iff.mp hwithin
    obtain ⟨⟨last, lastMark⟩, lastNodes, rfl, hlast, hnil⟩ := List.map_eq_cons_iff.mp hlast
    obtain rfl : last = .mappingEnd := hlast
    obtain rfl := List.map_eq_nil_iff.mp hnil
    simp only [List.length_cons, List.length_append, List.length_nil] at hfuel
    have hread : readEntries d fuel path mark within false []
        ⟨entryNodes ++ (.mappingEnd, lastMark) :: rest, aliases⟩ =
          .ok (Block.entryValues entries, ⟨rest, aliases⟩) :=
      readEntries_entries ih hentries hentryNodes (by omega) (fun _ _ _ ha => by cases ha)
    rw [readValue]
    simp [localTag?, hread, Block.value, Except.map]

/-- **The events of a document** are those of its value; then the text ends. -/
theorem ofEvents_document {es : List Event} {b : Block}
    (h : es.map (·.kind) = .documentStart :: (b.events ++ [.documentEnd, .streamEnd])) :
    ∃ nodes mark, ofEvents none [] es = (⟨nodes, [], none⟩, [⟨.streamEnd, mark⟩]) ∧
      nodes.map (·.1) = b.events.map EventKind.node := by
  obtain ⟨⟨_, start⟩, es, rfl, rfl, hes⟩ := List.map_eq_cons_iff.mp h
  obtain ⟨body, es, rfl, hbody, hend⟩ := List.map_eq_append_iff.mp hes
  obtain ⟨⟨_, stop⟩, es, rfl, rfl, hlast⟩ := List.map_eq_cons_iff.mp hend
  obtain ⟨⟨_, mark⟩, es, rfl, rfl, hnil⟩ := List.map_eq_cons_iff.mp hlast
  obtain rfl := List.map_eq_nil_iff.mp hnil
  have hbare : ∀ e ∈ body, e.kind.IsBare := by
    intro e he
    refine isBare_events b e.kind ?_
    rw [← hbody]
    exact List.mem_map_of_mem he
  refine ⟨nodesOf body, mark, ?_, ?_⟩
  · rw [ofEvents.eq_def]
    simp only [ofEvents_append hbare]
    simp [ofEvents]
  · rw [nodesOf, List.map_map, ← hbody, List.map_map]
    rfl

end Document

/-- **The value of a legible document is the one that was written.** -/
theorem Value.ofText_document {comment : List Char} {entries : List (List Char × Block)}
    (hcomment : comment.all isLineChar = true)
    (hlegible : (Block.mapping entries).isLegible Document.maxDepth = true) :
    Value.ofText (Block.document comment entries) = .ok (Block.mapping entries).value := by
  obtain ⟨tokens, htokens, hkinds⟩ := Scan.tokens_document hcomment hlegible
  obtain ⟨es, hevents, hes⟩ := Reader.eventsOfTokens_document hkinds
  obtain ⟨nodes, mark, hdocument, hnodes⟩ := Document.ofEvents_document hes
  have hread : Document.readValue ⟨nodes, [], none⟩ ((2 * Document.maxDepth + 4) * (nodes.length + 4)) .root
      Document.maxDepth false ⟨nodes ++ [], 0⟩ = .ok ((Block.mapping entries).value, ⟨[], 0⟩) :=
    Document.readsValue _ hlegible hnodes (by rw [Document.maxDepth]; omega)
  rw [List.append_nil] at hread
  rw [Value.ofText, htokens]
  simp [hevents, hdocument, Document.value, hread, bind, Except.bind, pure, Except.pure]

end RouteStubs.Yaml
