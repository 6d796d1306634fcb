import Mathlib.Data.List.TakeWhile
import RouteStubs.Proofs.Yaml.Scalars
/-!
Reading goes over a text from left to right.

`Cursor.LeadsTo` relates a cursor to those that reading on from it comes to: over the characters of a line one by
one, and over a line break at once. Every function that reads a piece of a text ends at such a cursor, or fails at the
place of one (`Cursor.Reads`). None of them stops between a carriage return and its line feed, or goes over a line
break as if it was a character of the line.
-/

namespace RouteStubs.Yaml

/-! ## §1 Results with a place -/

/-- The result is one as `Q` says, or an error as `E` says. -/
inductive Ends {ε α : Type} (E : ε → Prop) (Q : α → Prop) : Except ε α → Prop
  | ok {a : α} (h : Q a) : Ends E Q (.ok a)
  | error {e : ε} (h : E e) : Ends E Q (.error e)

/-- The result is one as `Q` says, or an error at a place as `P` says. -/
abbrev Gives {α : Type} (P : Mark → Prop) (Q : α → Prop) (x : Except SyntaxError α) : Prop :=
  Ends (fun e => P e.mark) Q x

namespace Ends
variable {ε α β : Type} {E E' : ε → Prop} {Q Q' : α → Prop} {R : β → Prop}

theorem bind {x : Except ε α} {f : α → Except ε β} (h : Ends E Q x) (hf : ∀ a, Q a → Ends E R (f a)) :
    Ends E R (x >>= f) := by
  cases h with
  | ok h => exact hf _ h
  | error h => exact .error h

theorem map {x : Except ε α} {f : α → β} (h : Ends E Q x) (hf : ∀ a, Q a → R (f a)) : Ends E R (x.map f) := by
  cases h with
  | ok h => exact .ok (hf _ h)
  | error h => exact .error h

theorem mono {x : Except ε α} (h : Ends E Q x) (hE : ∀ e, E e → E' e) (hQ : ∀ a, Q a → Q' a) :
    Ends E' Q' x := by
  cases h with
  | ok h => exact .ok (hQ _ h)
  | error h => exact .error (hE _ h)

theorem ite {c : Prop} [Decidable c] {x y : Except ε α} (hx : c → Ends E Q x) (hy : ¬c → Ends E Q y) :
    Ends E Q (if c then x else y) := by
  split
  · exact hx ‹_›
  · exact hy ‹_›

theorem of_ok {a : α} (h : Ends E Q (.ok a)) : Q a := by
  cases h with
  | ok h => exact h

theorem of_error {e : ε} (h : Ends E Q (.error e)) : E e := by
  cases h with
  | error h => exact h

end Ends

/-! ## §2 Cursors -/

theorem isBreak_iff {c : Char} :
    isBreak c = true ↔ c = '\n' ∨ c = '\r' ∨ c = '\u0085' ∨ c = '\u2028' ∨ c = '\u2029' := by
  simp [isBreak, or_assoc]

/-- A class of characters has no line break in it if it has none of the five. -/
theorem not_isBreak_of {p : Char → Bool} (h : ([ '\n', '\r', '\u0085', '\u2028', '\u2029'].all fun c => !p c) = true)
    {c : Char} (hc : p c = true) : isBreak c = false := by
  refine Bool.eq_false_iff.mpr fun hbreak => ?_
  have hall : ∀ d, isBreak d = true → p d = false := by
    intro d hd
    have hmem : d ∈ ['\n', '\r', '\u0085', '\u2028', '\u2029'] := by simpa using isBreak_iff.mp hd
    simpa using List.all_eq_true.mp h d hmem
  rw [hall c hbreak] at hc
  cases hc

namespace Cursor

/-- Reading on from the first cursor comes to the second: over the characters of a line one by one, and over a line
break, of one character or two, at once. -/
inductive LeadsTo : Cursor → Cursor → Prop
  | refl (c : Cursor) : LeadsTo c c
  | char {x : Char} {rest : List Char} {mark : Mark} {c : Cursor} (hx : isBreak x = false)
    (h : LeadsTo ⟨rest, mark.next x⟩ c) : LeadsTo ⟨x :: rest, mark⟩ c
  | pair {rest : List Char} {mark : Mark} {c : Cursor} (h : LeadsTo ⟨rest, mark.nextLine 2⟩ c) :
    LeadsTo ⟨'\r' :: '\n' :: rest, mark⟩ c
  | single {x : Char} {rest : List Char} {mark : Mark} {c : Cursor} (hx : isBreak x = true)
    (hpair : x = '\r' → rest.head? ≠ some '\n') (h : LeadsTo ⟨rest, mark.nextLine x.utf8Size⟩ c) :
    LeadsTo ⟨x :: rest, mark⟩ c

/-- The place is one that reading on from the cursor comes to. -/
def Sees (c : Cursor) (m : Mark) : Prop := ∃ c', c.LeadsTo c' ∧ c'.mark = m

/-- The place is one that reading has come to on the way from the first cursor to the second. -/
def Passes (c c' : Cursor) (m : Mark) : Prop :=
  ∃ between, c.LeadsTo between ∧ between.LeadsTo c' ∧ between.mark = m

/-- Reading from the cursor ends at one that it leads to, or fails at a place that it leads to. `stop` is the cursor
of a result. -/
def Reads {α : Type} (c : Cursor) (stop : α → Cursor) (x : Except SyntaxError α) : Prop :=
  Gives c.Sees (fun a => c.LeadsTo (stop a)) x

variable {c c' c'' : Cursor} {m : Mark}

theorem LeadsTo.trans (h : c.LeadsTo c') (h' : c'.LeadsTo c'') : c.LeadsTo c'' := by
  induction h with
  | refl c => exact h'
  | char hx _ ih => exact .char hx (ih h')
  | pair _ ih => exact .pair (ih h')
  | single hx hpair _ ih => exact .single hx hpair (ih h')

theorem LeadsTo.sees (h : c.LeadsTo c') : c.Sees c'.mark := ⟨c', h, rfl⟩

theorem Sees.of_leadsTo (h : c.LeadsTo c') (hm : c'.Sees m) : c.Sees m := by
  obtain ⟨d, hd, rfl⟩ := hm
  exact (h.trans hd).sees

theorem sees_mark (c : Cursor) : c.Sees c.mark := (LeadsTo.refl c).sees

theorem Passes.sees (h : c.Passes c' m) : c.Sees m := by
  obtain ⟨d, hd, -, rfl⟩ := h
  exact hd.sees

theorem Passes.leadsTo (h : c.Passes c' m) : c.LeadsTo c' := by
  obtain ⟨d, hd, hd', -⟩ := h
  exact hd.trans hd'

theorem Passes.trans (h : c.Passes c' m) (h' : c'.LeadsTo c'') : c.Passes c'' m := by
  obtain ⟨d, hd, hd', hm⟩ := h
  exact ⟨d, hd, hd'.trans h', hm⟩

theorem LeadsTo.passes_end (h : c.LeadsTo c') : c.Passes c' c'.mark := ⟨c', h, .refl c', rfl⟩

theorem Passes.of_leadsTo (h : c.LeadsTo c') (h' : c'.Passes c'' m) : c.Passes c'' m := by
  obtain ⟨d, hd, hd', hm⟩ := h'
  exact ⟨d, h.trans hd, hd', hm⟩

/-- What is read from a later cursor is read from the earlier one too. -/
theorem Reads.of_leadsTo {α : Type} {stop : α → Cursor} {x : Except SyntaxError α} (h : c.LeadsTo c')
    (hx : c'.Reads stop x) : c.Reads stop x :=
  hx.mono (fun _ hm => hm.of_leadsTo h) fun _ ha => h.trans ha

/-- What is read from where an earlier result stops. -/
theorem Reads.bind {α β : Type} {c : Cursor} {stop : α → Cursor} {stop' : β → Cursor}
    {x : Except SyntaxError α} {f : α → Except SyntaxError β} (h : c.Reads stop x)
    (hf : ∀ a, (stop a).Reads stop' (f a)) : c.Reads stop' (x >>= f) :=
  Ends.bind h fun a ha => (hf a).of_leadsTo ha

/-! ## §3 The end of a text -/

/-- The place is one that reading on from the cursor comes to, or the next line's start where the last line has no
line break. -/
def Names (c : Cursor) (m : Mark) : Prop :=
  c.Sees m ∨ ∃ last : Mark, c.LeadsTo ⟨[], last⟩ ∧ last.column ≠ 0 ∧ m = ⟨last.index, last.line + 1, 0⟩

/-- The place is one that reading on from the cursor comes to before the end of the text. -/
def SeesMore (c : Cursor) (m : Mark) : Prop := ∃ c', c.LeadsTo c' ∧ c'.rest ≠ [] ∧ c'.mark = m

theorem LeadsTo.byteLength (h : c.LeadsTo c') :
    c.mark.index + Text.byteLength c.rest = c'.mark.index + Text.byteLength c'.rest := by
  induction h with
  | refl => rfl
  | char _ _ ih | single _ _ _ ih =>
    rw [← ih]
    simp [Mark.next, Mark.nextLine, Nat.add_assoc]
  | pair _ ih =>
    rw [← ih]
    have hpair : '\r'.utf8Size + '\n'.utf8Size = 2 := rfl
    simp [Mark.nextLine, ← hpair, Nat.add_assoc]

theorem LeadsTo.rest_ne_nil (h : c.LeadsTo c') (hc' : c'.rest ≠ []) : c.rest ≠ [] := by
  cases h with
  | refl => exact hc'
  | char | pair | single => simp

theorem Passes.seesMore (h : c.Passes c' m) (hc' : c'.rest ≠ []) : c.SeesMore m := by
  obtain ⟨between, hleft, hright, hm⟩ := h
  exact ⟨between, hleft, hright.rest_ne_nil hc', hm⟩

/-- A place named that lies before the last byte is one before the end of the text. -/
theorem Names.seesMore (h : c.Names m)
    (hm : m.index < c.mark.index + Text.byteLength c.rest) : c.SeesMore m := by
  rcases h with ⟨c', hc', rfl⟩ | ⟨last, hlast, -, rfl⟩
  · refine ⟨c', hc', fun hnil => ?_, rfl⟩
    rw [hc'.byteLength, hnil] at hm
    exact Nat.lt_irrefl _ hm
  · rw [hlast.byteLength] at hm
    exact absurd hm (Nat.lt_irrefl _)

/-- Text behind the end changes nothing before it. -/
theorem LeadsTo.append (h : c.LeadsTo c') (hc' : c'.rest ≠ []) (more : List Char) :
    LeadsTo ⟨c.rest ++ more, c.mark⟩ ⟨c'.rest ++ more, c'.mark⟩ := by
  induction h with
  | refl => exact .refl _
  | char hx _ ih => exact .char hx (ih hc')
  | pair _ ih => exact .pair (ih hc')
  | @single x rest mark c' hx hpair h ih =>
    refine .single hx (fun hreturn => ?_) (ih hc')
    obtain ⟨y, rest, rfl⟩ := List.exists_cons_of_ne_nil (h.rest_ne_nil hc')
    exact hpair hreturn

/-! ## §4 Steps -/

theorem leadsTo_along {cs : List Char} (hcs : ∀ x ∈ cs, isBreak x = false) (rest : List Char) (mark : Mark) :
    LeadsTo ⟨cs ++ rest, mark⟩ ⟨rest, mark.along cs⟩ := by
  induction cs generalizing mark with
  | nil => exact .refl _
  | cons x cs ih =>
    obtain ⟨hx, hcs⟩ := List.forall_mem_cons.mp hcs
    rw [Mark.along_cons]
    exact .char hx (ih hcs (mark.next x))

theorem leadsTo_takeWhile {p : Char → Bool} (hp : ∀ x, p x = true → isBreak x = false) (c : Cursor) :
    c.LeadsTo (c.takeWhile p).2 := by
  obtain ⟨rest, mark⟩ := c
  have htaken : ∀ x ∈ rest.takeWhile p, isBreak x = false := fun x hx => hp x (List.mem_takeWhile_imp hx)
  have h := leadsTo_along htaken (rest.dropWhile p) mark
  rwa [List.takeWhile_append_dropWhile] at h

theorem leadsTo_dropWhile {p : Char → Bool} (hp : ∀ x, p x = true → isBreak x = false) (c : Cursor) :
    c.LeadsTo (c.dropWhile p) := leadsTo_takeWhile hp c

theorem leadsTo_skipBlanks (c : Cursor) : c.LeadsTo c.skipBlanks :=
  leadsTo_dropWhile (fun _ => not_isBreak_of (by decide)) c

theorem leadsTo_skipComment (c : Cursor) : c.LeadsTo c.skipComment := by
  rw [skipComment]
  split
  · exact leadsTo_dropWhile (fun _ hx => by simpa using hx) c
  · exact .refl c

theorem leadsTo_skip (h : ∀ x, c.rest.head? = some x → isBreak x = false) : c.LeadsTo c.skip := by
  obtain ⟨rest, mark⟩ := c
  cases rest with
  | nil => exact .refl _
  | cons x rest => exact .char (h x rfl) (.refl _)

theorem leadsTo_skip_of {x : Char} (hx : isBreak x = false) (h : c.rest.head? = some x) : c.LeadsTo c.skip :=
  leadsTo_skip fun y hy => by rwa [Option.some.inj (hy.symm.trans h)]

theorem leadsTo_skipN {n : Nat} (h : ∀ x ∈ c.rest.take n, isBreak x = false) : c.LeadsTo (c.skipN n) := by
  induction n generalizing c with
  | zero => exact .refl c
  | succ n ih =>
    obtain ⟨rest, mark⟩ := c
    cases rest with
    | nil => exact ih (by simp)
    | cons x rest =>
      obtain ⟨hx, hrest⟩ := List.forall_mem_cons.mp h
      exact .char hx (ih hrest)

/-- A single line break is one that is not the first half of a pair. -/
theorem leadsTo_break {x : Char} {rest : List Char} (hx : isBreak x = true)
    (hpair : ∀ rest', x = '\r' → rest = '\n' :: rest' → False) (mark : Mark) :
    LeadsTo ⟨x :: rest, mark⟩ ⟨rest, mark.nextLine x.utf8Size⟩ := by
  refine .single hx (fun hreturn hfeed => ?_) (.refl _)
  obtain ⟨rest', hrest'⟩ := List.head?_eq_some_iff.mp hfeed
  exact hpair rest' hreturn hrest'

theorem leadsTo_readBreak (c : Cursor) : c.LeadsTo c.readBreak.2 := by
  obtain ⟨rest, mark⟩ := c
  rw [readBreak]
  split
  case h_1 heq =>
    obtain rfl : rest = _ := heq
    exact .pair (.refl _)
  case h_2 hpair heq =>
    obtain rfl : rest = _ := heq
    split
    case isTrue hbreak => exact leadsTo_break hbreak hpair mark
    case isFalse => exact .refl _
  case h_3 => exact .refl _

theorem leadsTo_skipBreak (c : Cursor) : c.LeadsTo c.skipBreak := leadsTo_readBreak c

end Cursor

open Cursor

/-! ## §5 Gaps -/

/-- Going over a gap ends at a cursor that reading leads to, and so does a tab that is refused. `stop` is the
cursor of a result. -/
def Cursor.Skips {α : Type} (c : Cursor) (stop : α → Cursor) (x : Except Mark α) : Prop :=
  Ends c.Sees (fun a => c.LeadsTo (stop a)) x

theorem Cursor.Skips.of_leadsTo {α : Type} {c c' : Cursor} {stop : α → Cursor} {x : Except Mark α}
    (h : c.LeadsTo c') (hx : c'.Skips stop x) : c.Skips stop x :=
  hx.mono (fun _ hm => hm.of_leadsTo h) fun _ ha => h.trans ha

theorem Cursor.Skips.map {α : Type} {c c' : Cursor} {stop : α → Cursor} {x : Except Mark α} {f : α → α}
    (hf : ∀ a, stop (f a) = stop a) (h : c.LeadsTo c') (hx : c'.Skips stop x) : c.Skips stop (x.map f) :=
  Ends.map (hx.of_leadsTo h) fun a ha => (hf a).symm ▸ ha

theorem not_isBreak_of_isBlank {c : Char} (h : isBlank c = true) : isBreak c = false := not_isBreak_of (by decide) h

theorem skips_scanGap (floor : Nat) (broken : Bool) (mark : Mark) (rest : List Char) :
    Skips ⟨rest, mark⟩ Gap.cursor (scanGap floor broken mark rest) := by
  fun_induction scanGap floor broken mark rest with
  | case1 => exact .ok (.refl _)
  | case2 broken mark rest ih => exact ih.map (fun _ => rfl) (.pair (.refl _))
  | case3 => exact .error (sees_mark _)
  | case4 mark c rest _ hblank _ ih => exact ih.of_leadsTo (.char (not_isBreak_of_isBlank hblank) (.refl _))
  | case5 broken mark c rest _ hblank _ ih =>
    exact ih.map (fun _ => rfl) (.char (not_isBreak_of_isBlank hblank) (.refl _))
  | case6 broken mark c rest hpair _ hbreak ih => exact ih.map (fun _ => rfl) (leadsTo_break hbreak hpair mark)
  | case7 => exact .ok (.refl _)

end RouteStubs.Yaml
