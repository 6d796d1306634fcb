import RouteStubs.Proofs.Entries
import RouteStubs.Proofs.Yaml.TokenPlaces
import RouteStubs.Yaml.Document
/-!
Every error with a place that reading a text ends in has a place of that text.

No event is given a place of its own: it is the start or the end of a token, or the start of the text once there are
no tokens left. So whatever holds of the places of the tokens, and of the start, holds of the places of the events
(`Reader.Placed.events`), of the document that they make (`Document.ofEvents_placed`), and of the errors of reading its
values (`Document.Placed.value`). `Value.ofText_error_placed` says this of the places that belong to a text.
-/

namespace RouteStubs.Yaml

namespace Reader

/-! ## §1 Reading tokens -/

/-- The places of the tokens still to be read, and of what they break off with, are all as `P` says. -/
def Placed (P : Mark → Prop) (r : Reader) : Prop := Tokens.Placed P ⟨r.tokens, r.refusal⟩

/-- The event that was read, and what is still to be read, have places as `P` says; so has the error otherwise. -/
abbrev Sends (P : Mark → Prop) (x : Read) : Prop := Gives P (fun read => P read.1.mark ∧ read.2.Placed P) x

variable {P : Mark → Prop} {r : Reader}

theorem Placed.peek (hzero : P .zero) (h : r.Placed P) : Gives P (fun t => P t.start ∧ P t.stop) r.peek := by
  rw [Reader.peek]
  split
  case h_1 token rest heq => exact .ok (h.1 token (heq ▸ List.mem_cons_self))
  case h_2 =>
    split
    case h_1 e heq => exact .error (h.2 e heq)
    case h_2 => exact .ok ⟨hzero, hzero⟩

theorem Placed.advance (h : r.Placed P) : r.advance.Placed P :=
  ⟨fun t ht => h.1 t (List.mem_of_mem_tail ht), h.2⟩

theorem Placed.leave (h : r.Placed P) : r.leave.Placed P := by
  rw [Reader.leave]
  split <;> exact h

theorem Placed.enter (h : r.Placed P) (expect : Expect) : (r.enter expect).Placed P := h

theorem Placed.missingNode (h : r.Placed P) {mark : Mark} (hmark : P mark) : Sends P (r.missingNode mark) :=
  .ok ⟨hmark, h⟩

/-! ## §2 Nodes -/

/-- The place of a tag among the properties of a node is that of a token. -/
theorem Placed.properties (hzero : P .zero) (h : r.Placed P) :
    Gives P (fun found => (∀ tag, found.2.1 = some tag → P tag.2.2) ∧ found.2.2.Placed P) r.properties := by
  refine (h.peek hzero).bind fun first hfirst => ?_
  split
  case h_1 =>
    refine (h.advance.peek hzero).bind fun second hsecond => ?_
    split
    case h_1 => exact .ok ⟨fun tag htag => Option.some.inj htag ▸ hsecond.1, h.advance.advance⟩
    case h_2 => exact .ok ⟨by simp, h.advance⟩
  case h_2 =>
    refine (h.advance.peek hzero).bind fun second hsecond => ?_
    split
    case h_1 => exact .ok ⟨fun tag htag => Option.some.inj htag ▸ hfirst.1, h.advance.advance⟩
    case h_2 => exact .ok ⟨fun tag htag => Option.some.inj htag ▸ hfirst.1, h.advance⟩
  case h_3 => exact .ok ⟨by simp, h⟩

theorem gives_resolveTag (r : Reader) (start : Mark) (handle : List Char) (suffix : TagText) {mark : Mark}
    (hmark : P mark) : Gives P (fun _ => True) (r.resolveTag start handle suffix mark) := by
  rw [resolveTag]
  dsimp only
  split
  · exact .ok trivial
  · split
    · exact .ok trivial
    · exact .error hmark

theorem Placed.node (hzero : P .zero) (h : r.Placed P) (block indentless : Bool) :
    Sends P (r.node block indentless) := by
  refine (h.peek hzero).bind fun first hfirst => ?_
  split
  case h_1 => exact .ok ⟨hfirst.1, h.leave.advance⟩
  case h_2 =>
    refine (h.properties hzero).bind ?_
    rintro ⟨anchor, parts, r'⟩ ⟨hparts, hr'⟩
    refine (hr'.peek hzero).bind fun token htoken => ?_
    -- what is done with the tag is the same whether it had to be resolved or there was none
    extract_lets bare finish
    have hfinish : ∀ tag, Sends P (finish tag) := by
      intro tag
      have hmissing (construct : Construct) (found : Properties) : Sends P
          (if bare then .error (.within construct first.start .nodeMissing token.start)
          else .ok (⟨.scalar found .plain [], first.start⟩, r'.leave)) :=
        .ite (fun _ => .error htoken.1) fun _ => .ok ⟨hfirst.1, hr'.leave⟩
      dsimp only [finish]
      split
      case h_1 => exact .ite (fun _ => .ok ⟨hfirst.1, hr'⟩) fun _ => hmissing _ _
      case h_2 => exact .ok ⟨hfirst.1, hr'.leave.advance⟩
      case h_3 => exact .ok ⟨hfirst.1, hr'.advance⟩
      case h_4 => exact .ok ⟨hfirst.1, hr'.advance⟩
      case h_5 => exact .ite (fun _ => .ok ⟨hfirst.1, hr'.advance⟩) fun _ => hmissing _ _
      case h_6 => exact .ite (fun _ => .ok ⟨hfirst.1, hr'.advance⟩) fun _ => hmissing _ _
      case h_7 => exact hmissing _ _
    split
    case h_1 => exact hfinish none
    case h_2 => exact (gives_resolveTag r' _ _ _ (hparts _ rfl)).bind fun tag _ => hfinish tag

/-! ## §3 Collections -/

theorem Placed.blockEntry (hzero : P .zero) (h : r.Placed P) (start : Mark) : Sends P (r.blockEntry start) := by
  refine (h.peek hzero).bind fun token htoken => ?_
  split
  case h_1 =>
    refine (h.advance.peek hzero).bind fun next _ => ?_
    split
    case h_1 | h_2 => exact .ok ⟨htoken.2, h.advance⟩
    case h_3 => exact (h.advance.enter _).node hzero _ _
  case h_2 => exact .ok ⟨htoken.1, h.leave.advance⟩
  case h_3 => exact .error htoken.1

theorem Placed.indentlessEntry (hzero : P .zero) (h : r.Placed P) : Sends P r.indentlessEntry := by
  refine (h.peek hzero).bind fun token htoken => ?_
  split
  case h_1 =>
    refine (h.advance.peek hzero).bind fun next _ => ?_
    split
    case h_1 | h_2 | h_3 | h_4 => exact .ok ⟨htoken.2, h.advance⟩
    case h_5 => exact (h.advance.enter _).node hzero _ _
  case h_2 => exact .ok ⟨htoken.1, h.leave⟩

theorem Placed.blockKey (hzero : P .zero) (h : r.Placed P) (start : Mark) : Sends P (r.blockKey start) := by
  refine (h.peek hzero).bind fun token htoken => ?_
  split
  case h_1 =>
    refine (h.advance.peek hzero).bind fun next _ => ?_
    split
    case h_1 | h_2 | h_3 => exact .ok ⟨htoken.2, h.advance⟩
    case h_4 => exact (h.advance.enter _).node hzero _ _
  case h_2 => exact .ok ⟨htoken.1, h.leave.advance⟩
  case h_3 => exact .error htoken.1

theorem Placed.blockValue (hzero : P .zero) (h : r.Placed P) (start : Mark) : Sends P (r.blockValue start) := by
  refine (h.peek hzero).bind fun token htoken => ?_
  split
  case h_1 =>
    refine (h.advance.peek hzero).bind fun next _ => ?_
    split
    case h_1 | h_2 | h_3 => exact .ok ⟨htoken.2, h.advance⟩
    case h_4 => exact (h.advance.enter _).node hzero _ _
  case h_2 => exact .ok ⟨htoken.1, h⟩

theorem Placed.separator (hzero : P .zero) (h : r.Placed P) (first : Bool) (construct : Construct) (start : Mark)
    (problem : Problem) : Gives P (Placed P) (r.separator first construct start problem) := by
  rw [Reader.separator]
  refine .ite (fun _ => .ok h) fun _ => ?_
  refine (h.peek hzero).bind fun token htoken => ?_
  split
  case h_1 => exact .ok h.advance
  case h_2 => exact .error htoken.1

theorem Placed.flowEntry (hzero : P .zero) (h : r.Placed P) (start : Mark) (first : Bool) :
    Sends P (r.flowEntry start first) := by
  refine (h.peek hzero).bind fun token htoken => ?_
  split
  case h_1 => exact .ok ⟨htoken.1, h.leave.advance⟩
  case h_2 =>
    refine (h.separator hzero first _ start _).bind fun r' hr' => ?_
    refine (hr'.peek hzero).bind fun next hnext => ?_
    split
    case h_1 => exact .ok ⟨hnext.1, hr'.advance⟩
    case h_2 => exact .ok ⟨hnext.1, hr'.leave.advance⟩
    case h_3 => exact (hr'.enter _).node hzero _ _

theorem Placed.pairKey (hzero : P .zero) (h : r.Placed P) (start : Mark) : Sends P (r.pairKey start) := by
  refine (h.peek hzero).bind fun token htoken => ?_
  split
  case h_1 | h_2 | h_3 => exact .ok ⟨htoken.2, h.advance⟩
  case h_4 => exact (h.enter _).node hzero _ _

theorem Placed.pairValue (hzero : P .zero) (h : r.Placed P) (start : Mark) : Sends P (r.pairValue start) := by
  refine (h.peek hzero).bind fun token htoken => ?_
  split
  case h_1 =>
    refine (h.advance.peek hzero).bind fun next hnext => ?_
    split
    case h_1 | h_2 => exact .ok ⟨hnext.1, h.advance⟩
    case h_3 => exact (h.advance.enter _).node hzero _ _
  case h_2 => exact .ok ⟨htoken.1, h⟩

theorem Placed.pairEnd (hzero : P .zero) (h : r.Placed P) (start : Mark) : Sends P (r.pairEnd start) :=
  (h.peek hzero).bind fun _ htoken => .ok ⟨htoken.1, h⟩

theorem Placed.flowKey (hzero : P .zero) (h : r.Placed P) (start : Mark) (first : Bool) :
    Sends P (r.flowKey start first) := by
  refine (h.peek hzero).bind fun token htoken => ?_
  split
  case h_1 => exact .ok ⟨htoken.1, h.leave.advance⟩
  case h_2 =>
    refine (h.separator hzero first _ start _).bind fun r' hr' => ?_
    refine (hr'.peek hzero).bind fun next hnext => ?_
    split
    case h_1 =>
      refine (hr'.advance.peek hzero).bind fun after hafter => ?_
      split
      case h_1 | h_2 | h_3 => exact .ok ⟨hafter.1, hr'.advance⟩
      case h_4 => exact (hr'.advance.enter _).node hzero _ _
    case h_2 => exact .ok ⟨hnext.1, hr'.leave.advance⟩
    case h_3 => exact (hr'.enter _).node hzero _ _

theorem Placed.flowValue (hzero : P .zero) (h : r.Placed P) (start : Mark) (missing : Bool) :
    Sends P (r.flowValue start missing) := by
  refine (h.peek hzero).bind fun token htoken => ?_
  refine .ite (fun _ => .ok ⟨htoken.1, h⟩) fun _ => ?_
  split
  case h_1 =>
    refine (h.advance.peek hzero).bind fun next hnext => ?_
    split
    case h_1 | h_2 => exact .ok ⟨hnext.1, h.advance⟩
    case h_3 => exact (h.advance.enter _).node hzero _ _
  case h_2 => exact .ok ⟨htoken.1, h⟩

/-! ## §4 Documents -/

theorem Placed.directives (hzero : P .zero) (fuel : Nat) (versioned : Bool) (handles : List (List Char × TagText))
    (h : r.Placed P) : Gives P (Placed P) (directives fuel versioned handles r) := by
  induction fuel generalizing versioned handles r with
  | zero => exact .ok h
  | succ fuel ih =>
    refine (h.peek hzero).bind fun token htoken => ?_
    split
    case h_1 =>
      refine .ite (fun _ => .error htoken.1) fun _ => ?_
      refine .ite (fun _ => .error htoken.1) fun _ => ?_
      exact ih _ _ h.advance
    case h_2 => exact .ite (fun _ => .error htoken.1) fun _ => ih _ _ h.advance
    case h_3 => exact .ok h

theorem Placed.skipDocumentEnds (hzero : P .zero) (fuel : Nat) (h : r.Placed P) :
    Gives P (Placed P) (skipDocumentEnds fuel r) := by
  induction fuel generalizing r with
  | zero => exact .ok h
  | succ fuel ih =>
    refine (h.peek hzero).bind fun token htoken => ?_
    split
    case h_1 => exact ih h.advance
    case h_2 => exact .ok h

theorem Placed.documentStart (hzero : P .zero) (h : r.Placed P) (first : Bool) :
    Sends P (r.documentStart first) := by
  unfold Reader.documentStart
  -- only a later document has the ends of the one before it to pass over
  extract_lets finish
  have hfinish : ∀ r : Reader, r.Placed P → Sends P (finish r) := by
    intro r hr
    dsimp only [finish]
    refine (hr.peek hzero).bind fun token htoken => ?_
    split
    case h_1 => exact .ok ⟨htoken.1, hr.advance⟩
    case h_2 | h_3 | h_4 =>
      refine (hr.directives hzero _ _ _).bind fun r' hr' => ?_
      refine (hr'.peek hzero).bind fun marker hmarker => ?_
      exact .ite (fun _ => .error hmarker.1) fun _ => .ok ⟨htoken.1, hr'.advance⟩
    case h_5 => exact .ite (fun _ => .ok ⟨htoken.1, hr⟩) fun _ => .error htoken.1
  exact .ite (fun _ => hfinish r h) fun _ => (h.skipDocumentEnds hzero _).bind hfinish

theorem Placed.documentContent (hzero : P .zero) (h : r.Placed P) : Sends P r.documentContent := by
  refine (h.peek hzero).bind fun token htoken => ?_
  split
  case h_1 | h_2 | h_3 | h_4 | h_5 => exact h.leave.missingNode htoken.1
  case h_6 => exact h.node hzero _ _

theorem Placed.documentEnd (hzero : P .zero) (h : r.Placed P) : Sends P r.documentEnd := by
  refine (h.peek hzero).bind fun token htoken => .ok ⟨htoken.1, ?_⟩
  have hend : (if token.kind = .documentEnd then r.advance else r).Placed P := by
    split
    · exact h.advance
    · exact h
  exact hend

/-- Every expectation is answered by an event with a place of a token, or of the start. -/
theorem Placed.next (hzero : P .zero) (h : r.Placed P) : Sends P r.next := by
  rw [Reader.next]
  cases r.expect with
  | documentStart first => exact h.documentStart hzero first
  | documentContent => exact h.documentContent hzero
  | documentEnd => exact h.documentEnd hzero
  | blockNode => exact h.node hzero true false
  | blockEntry start => exact h.blockEntry hzero start
  | indentlessEntry => exact h.indentlessEntry hzero
  | blockKey start => exact h.blockKey hzero start
  | blockValue start => exact h.blockValue hzero start
  | flowEntry start first => exact h.flowEntry hzero start first
  | pairKey start => exact h.pairKey hzero start
  | pairValue start => exact h.pairValue hzero start
  | pairEnd start => exact h.pairEnd hzero start
  | flowKey start first => exact h.flowKey hzero start first
  | flowValue start missing => exact h.flowValue hzero start missing
  | nothing => exact .ok ⟨hzero, h⟩

theorem Placed.events (hzero : P .zero) (fuel : Nat) (h : r.Placed P) :
    (∀ e ∈ (events fuel r).1, P e.mark) ∧ ∀ e, (events fuel r).2 = some e → P e.mark := by
  induction fuel generalizing r with
  | zero => exact ⟨List.forall_mem_nil _, fun _ heq => by cases heq⟩
  | succ fuel ih =>
    have hnext := h.next hzero
    rw [Reader.events]
    generalize r.next = next at hnext ⊢
    cases hnext with
    | error he => exact ⟨List.forall_mem_nil _, fun _ heq => Option.some.inj heq ▸ he⟩
    | @ok read hread =>
      obtain ⟨event, r'⟩ := read
      dsimp only
      split
      · exact ⟨List.forall_mem_singleton.mpr hread.1, fun _ heq => by cases heq⟩
      · exact ⟨List.forall_mem_cons.mpr ⟨hread.1, (ih hread.2).1⟩, (ih hread.2).2⟩

end Reader
/-! ## §5 Values -/

variable {P : Mark → Prop}

/-- The place of an error, if it has one, is as `P` says. -/
def ReadError.Placed (P : Mark → Prop) (e : ReadError) : Prop := ∀ mark, e.mark? = some mark → P mark

theorem ReadError.placed_of {e : ReadError} {mark : Mark} (he : e.mark? = some mark) (h : P mark) : e.Placed P := by
  intro mark' hmark
  rw [he] at hmark
  exact Option.some.inj hmark ▸ h

theorem ReadError.placed_of_none {e : ReadError} (he : e.mark? = none) : e.Placed P := by
  intro mark hmark
  rw [he] at hmark
  cases hmark

namespace Document

/-- The places of the events and targets of a document, and of what its events end with, are all as `P` says. -/
structure Placed (P : Mark → Prop) (d : Document) : Prop where
  events : ∀ e ∈ d.events, P e.2
  targets : ∀ target ∈ d.targets, ∀ e ∈ target.2, P e.2
  failure : ∀ e, d.failure = some e → e.Placed P

theorem Placed.cons {d : Document} (h : d.Placed P) (kind : NodeKind) {mark : Mark} (hmark : P mark)
    (number : Option Nat) : (d.cons kind mark number).Placed P := by
  have hevents : ∀ e ∈ (kind, mark) :: d.events, P e.2 := List.forall_mem_cons.mpr ⟨hmark, h.events⟩
  cases number with
  | none => exact ⟨hevents, h.targets, h.failure⟩
  | some n =>
    rw [Document.cons]
    split
    · exact ⟨hevents, h.targets, h.failure⟩
    · exact ⟨hevents, List.forall_mem_cons.mpr ⟨hevents, h.targets⟩, h.failure⟩

theorem ofEvents_placed {failure : Option SyntaxError} (hfailure : ∀ e, failure = some e → P e.mark)
    (anchors : Anchors) {events : List Event} (h : ∀ e ∈ events, P e.mark) :
    (ofEvents failure anchors events).1.Placed P := by
  induction events generalizing anchors with
  | nil =>
    refine ⟨List.forall_mem_nil _, List.forall_mem_nil _, fun e he => ?_⟩
    obtain ⟨cause, hcause, rfl⟩ := Option.map_eq_some_iff.mp he
    exact ReadError.placed_of rfl (hfailure cause hcause)
  | cons event rest ih =>
    obtain ⟨kind, mark⟩ := event
    obtain ⟨hmark, hrest⟩ : P mark ∧ ∀ e ∈ rest, P e.mark := List.forall_mem_cons.mp h
    unfold ofEvents
    dsimp only
    split
    case h_1 => exact ih anchors hrest
    case h_2 => exact ⟨List.forall_mem_nil _, List.forall_mem_nil _, fun _ heq => by cases heq⟩
    case h_3 => exact ⟨List.forall_mem_singleton.mpr hmark, List.forall_mem_nil _, fun _ heq => by cases heq⟩
    case h_4 =>
      split
      case h_1 =>
        refine ⟨List.forall_mem_nil _, List.forall_mem_nil _, fun e he => ?_⟩
        exact Option.some.inj he ▸ ReadError.placed_of rfl hmark
      case h_2 => exact (ih anchors hrest).cons _ hmark none
    case h_5 | h_6 | h_7 => exact (ih _ hrest).cons _ hmark _
    case h_8 | h_9 => exact (ih _ hrest).cons _ hmark none

/-- What is still to be read has places as `P` says. -/
def Place.Placed (P : Mark → Prop) (place : Place) : Prop := ∀ e ∈ place.events, P e.2

theorem Place.Placed.of_cons {place : Place} (h : place.Placed P) {kind : NodeKind} {mark : Mark}
    {rest : List (NodeKind × Mark)} (heq : place.events = (kind, mark) :: rest) : P mark ∧ ∀ e ∈ rest, P e.2 := by
  rw [Place.Placed, heq] at h
  exact List.forall_mem_cons.mp h

/-- What is read of a document leaves a place as `P` says, or is refused there. -/
abbrev Leaves {α : Type} (P : Mark → Prop) (x : Except ReadError (α × Place)) : Prop :=
  Ends (ReadError.Placed P) (fun r => r.2.Placed P) x

theorem Placed.lookup {d : Document} (h : d.Placed P) (number : Nat) :
    ∀ e ∈ (d.targets.lookup number).getD [], P e.2 := by
  cases hfound : d.targets.lookup number with
  | none => exact List.forall_mem_nil _
  | some events => exact h.targets (number, events) (Entries.mem_of_lookup hfound)

theorem Placed.endError {d : Document} (h : d.Placed P) : d.endError.Placed P := by
  rw [Document.endError]
  cases hfailure : d.failure with
  | none => exact ReadError.placed_of_none rfl
  | some e => exact h.failure e hfailure

/-- Whatever is read with this bound, of places as `P` says, leaves such a place or is refused there. -/
structure Keeps (P : Mark → Prop) (d : Document) (fuel : Nat) : Prop where
  value : ∀ path depth tagged place, Place.Placed P place → Leaves P (readValue d fuel path depth tagged place)
  items : ∀ path depth index place, Place.Placed P place → Leaves P (readItems d fuel path depth index place)
  entries : ∀ path start depth tagged entries place, P start → Place.Placed P place →
    Leaves P (readEntries d fuel path start depth tagged entries place)

section
variable {d : Document} {fuel : Nat} {place : Place}

theorem Keeps.value_succ (hd : d.Placed P) (h : Keeps P d fuel) (path : Path) (depth : Nat) (tagged : Bool)
    (hplace : place.Placed P) : Leaves P (readValue d (fuel + 1) path depth tagged place) := by
  rw [readValue]
  split
  case h_1 => exact .error hd.endError
  case h_2 kind mark rest heq =>
    obtain ⟨hmark, hrest⟩ := hplace.of_cons heq
    -- a node with a local tag is read once more, and its own tag no longer counts
    have htagged (name : String) : Leaves P ((readValue d fuel path depth true place).map
        fun r => (Value.tagged name r.1, r.2)) := (h.value path depth true place hplace).map fun _ h => h
    dsimp only
    split
    case h_1 | h_2 | h_3 => exact .ok hrest
    case h_4 number =>
      refine .ite (fun _ => .error (ReadError.placed_of_none rfl)) fun _ => ?_
      exact (h.value _ depth false ⟨_, _⟩ (hd.lookup number)).map fun _ _ => hrest
    case h_5 tag style text =>
      split
      case h_1 => exact htagged _
      case h_2 =>
        split
        case h_1 => exact .ok hrest
        case h_2 => exact .error (ReadError.placed_of rfl hmark)
    case h_6 =>
      split
      case h_1 => exact htagged _
      case h_2 =>
        split
        case h_1 => exact .error (ReadError.placed_of rfl hmark)
        case h_2 => exact (h.items _ _ _ ⟨rest, _⟩ hrest).map fun _ h => h
    case h_7 =>
      split
      case h_1 => exact htagged _
      case h_2 =>
        split
        case h_1 => exact .error (ReadError.placed_of rfl hmark)
        case h_2 => exact (h.entries _ _ _ _ _ ⟨rest, _⟩ hmark hrest).map fun _ h => h

theorem Keeps.items_succ (hd : d.Placed P) (h : Keeps P d fuel) (path : Path) (depth index : Nat)
    (hplace : place.Placed P) : Leaves P (readItems d (fuel + 1) path depth index place) := by
  rw [readItems]
  split
  case h_1 => exact .error hd.endError
  case h_2 heq | h_3 heq => exact .ok (hplace.of_cons heq).2
  case h_4 =>
    refine (h.value _ depth false place hplace).bind fun item hitem => ?_
    exact (h.items _ _ _ _ hitem).bind fun items hitems => .ok hitems

theorem Keeps.entries_succ (hd : d.Placed P) (h : Keeps P d fuel) (path : Path) {start : Mark} (depth : Nat)
    (tagged : Bool) (entries : List (Value × Value)) (hstart : P start) (hplace : place.Placed P) :
    Leaves P (readEntries d (fuel + 1) path start depth tagged entries place) := by
  rw [readEntries]
  split
  case h_1 => exact .error hd.endError
  case h_2 heq | h_3 heq => exact .ok (hplace.of_cons heq).2
  case h_4 =>
    refine (h.value _ depth tagged place hplace).bind fun key hkey => ?_
    -- a duplicate key is reported at the start of its mapping
    refine .ite (fun _ => .error (ReadError.placed_of rfl hstart)) fun _ => ?_
    refine (h.value _ depth false _ hkey).bind fun value hvalue => ?_
    exact h.entries _ _ _ _ _ _ hstart hvalue

theorem Placed.keeps (h : d.Placed P) (fuel : Nat) : Keeps P d fuel := by
  induction fuel with
  | zero =>
    have hend {α : Type} : Leaves P (.error .endOfText : Except ReadError (α × Place)) :=
      .error (ReadError.placed_of_none rfl)
    exact ⟨fun _ _ _ _ _ => hend, fun _ _ _ _ _ => hend, fun _ _ _ _ _ _ _ _ => hend⟩
  | succ fuel ih =>
    exact ⟨fun path depth tagged _ hplace => ih.value_succ h path depth tagged hplace,
      fun path depth index _ hplace => ih.items_succ h path depth index hplace,
      fun path _ depth tagged entries _ hstart hplace => ih.entries_succ h path depth tagged entries hstart hplace⟩

end

theorem Placed.value {d : Document} (h : d.Placed P) : Ends (ReadError.Placed P) (fun _ => True) d.value := by
  refine ((h.keeps _).value _ _ _ ⟨d.events, 0⟩ h.events).bind ?_
  rintro ⟨v, place⟩ -
  dsimp only
  split
  case h_1 e he => exact .error (h.failure e he)
  case h_2 => exact .ok trivial

end Document

/-- **Every error with a place, of form or of a value, has a place of the text.** -/
theorem Value.ofText_error_placed {text : List Char} {cause : ReadError} (h : Value.ofText text = .error cause) :
    cause.Placed (Cursor.ofText text).Names := by
  have hzero : (Cursor.ofText text).Names .zero := .inl (Cursor.sees_mark _)
  have hevents := Reader.Placed.events (r := ⟨(Tokens.ofText text).tokens, (Tokens.ofText text).error,
    .documentStart true, [], []⟩) hzero (4 * (Tokens.ofText text).tokens.length + 16) (Tokens.ofText_placed text)
  have hdocument := Document.ofEvents_placed hevents.2 [] hevents.1
  have hvalue : Ends (ReadError.Placed (Cursor.ofText text).Names) (fun _ => True) (Value.ofText text) := by
    refine hdocument.value.bind fun v _ => ?_
    split
    case h_1 => exact .ok trivial
    case h_2 => exact .error (ReadError.placed_of_none rfl)
  rw [h] at hvalue
  exact hvalue.of_error

end RouteStubs.Yaml
