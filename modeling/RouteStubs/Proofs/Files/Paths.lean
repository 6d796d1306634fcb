import Mathlib.Data.String.Basic
import RouteStubs.Files.Disk
import RouteStubs.Proofs.Text.Bytes
/-!
The text of a path and its steps.

The steps of a path, and those of them that matter, are pieces of its text between slashes and end inside it, so
that the system accepts every selection of them if it accepts the text (`stepsProblem?_of_sublist`). Leaving out the
steps `.` is all that is done to get from the steps to those that matter (`plainSteps_eq_append`).
-/

namespace RouteStubs.Files

/-! ## §1 Pieces of a text -/

namespace Path

theorem pieces_ne_nil (s : List Char) : pieces s ≠ [] := by
  induction s with
  | nil => simp [pieces]
  | cons c rest ih =>
    rw [pieces]
    split
    · simp
    · simpa using ih

/-- A text is its pieces with slashes between them. -/
theorem intercalate_pieces (s : List Char) : ['/'].intercalate (pieces s) = s := by
  induction s with
  | nil => rfl
  | cons c rest ih =>
    rw [pieces]
    split
    case isTrue hc =>
      rw [List.intercalate_cons_of_ne_nil (pieces_ne_nil rest), ih, hc]
      rfl
    case isFalse =>
      obtain ⟨first, others, hpieces⟩ := List.exists_cons_of_ne_nil (pieces_ne_nil rest)
      rw [hpieces] at ih ⊢
      rw [List.modifyHead_cons]
      cases others with
      | nil => simpa using ih
      | cons second others =>
        rw [List.intercalate_cons_cons] at ih ⊢
        rw [← ih]
        rfl

/-- A piece of a text is in it. -/
theorem sublist_of_mem_pieces {s piece : List Char} (h : piece ∈ pieces s) : piece.Sublist s := by
  induction s generalizing piece with
  | nil => simp_all [pieces]
  | cons c rest ih =>
    rw [pieces] at h
    split at h
    case isTrue =>
      rcases List.mem_cons.mp h with rfl | h
      · exact List.nil_sublist _
      · exact (ih h).cons c
    case isFalse =>
      obtain ⟨first, others, hpieces⟩ := List.exists_cons_of_ne_nil (pieces_ne_nil rest)
      rw [hpieces] at h ih
      rcases List.mem_cons.mp h with rfl | h
      · exact (ih List.mem_cons_self).cons_cons c
      · exact (ih (List.mem_cons_of_mem _ h)).cons c

/-- What is found among pieces ends inside them. -/
theorem sizeFrom_le {last offset n : Nat} {ps : List (List Char)} (steps : List String) (hlast : last ≤ n)
    (hps : offset + Text.byteLength (['/'].intercalate ps) ≤ n) : sizeFrom last offset ps steps ≤ n := by
  induction ps generalizing last offset steps with
  | nil => exact hlast
  | cons piece rest ih =>
    cases steps with
    | nil => exact hlast
    | cons step steps =>
      -- behind the last piece there is no slash, but nothing is looked for there either
      have hrest : ∀ last steps, last ≤ n → sizeFrom last (offset + Text.byteLength piece + 1) rest steps ≤ n := by
        intro last steps hlast
        cases rest with
        | nil => exact hlast
        | cons next others =>
          refine ih steps hlast ?_
          have hslash : '/'.utf8Size = 1 := rfl
          rw [List.intercalate_cons_cons] at hps
          simp only [Text.byteLength_append, Text.byteLength_cons, Text.byteLength_nil, hslash] at hps
          omega
      have hpiece : offset + Text.byteLength piece ≤ n := by
        cases rest with
        | nil => rwa [List.intercalate_singleton] at hps
        | cons next others =>
          rw [List.intercalate_cons_cons] at hps
          simp only [Text.byteLength_append] at hps
          omega
      rw [sizeFrom]
      split
      case isTrue => exact hrest _ _ hpiece
      case isFalse => exact hrest _ _ hlast

/-- Steps of a path end inside its text. -/
theorem sizeUpTo_le (text : String) (steps : List String) : sizeUpTo text steps ≤ text.utf8ByteSize := by
  have hsize : Text.byteLength text.toList = text.utf8ByteSize := (Text.length_utf8 text).symm
  refine sizeFrom_le steps (Nat.zero_le _) ?_
  rw [intercalate_pieces, hsize, Nat.zero_add]

example : sizeUpTo "a//./b/f" ["a", "b"] = 6 := by decide

/-! ## §2 Steps -/

theorem map_toList_steps (s : String) :
    ((ofText s).steps).map String.toList = (pieces s.toList).filter (!·.isEmpty) := by
  rw [ofText, List.map_map]
  exact List.map_id'' (fun _ => String.toList_ofList) _

theorem toList_sublist_of_mem_steps {s step : String} (h : step ∈ (ofText s).steps) :
    step.toList.Sublist s.toList := by
  have hpiece : step.toList ∈ (pieces s.toList).filter (!·.isEmpty) :=
    map_toList_steps s ▸ List.mem_map_of_mem h
  exact sublist_of_mem_pieces (List.mem_of_mem_filter hpiece)

theorem plainSteps_sublist (p : Path) : p.plainSteps.Sublist p.steps := by
  rw [plainSteps]
  split
  case h_1 => exact List.nil_sublist _
  case h_2 first rest heq =>
    rw [heq]
    split_ifs
    · exact List.filter_sublist.trans (List.sublist_cons_self ..)
    · exact List.filter_sublist.cons_cons first

/-- The steps that matter up to one of them are the steps up to that one, but for some that are `.`. -/
theorem steps_split_of_plainSteps {p : Path} {front rest : List String} (h : p.plainSteps = front ++ rest)
    (hrest : rest ≠ []) :
    ∃ before after, p.steps = before ++ after ∧ after ≠ [] ∧
      before.filter (· != ".") = front.filter (· != ".") := by
  rw [plainSteps] at h
  split at h
  case h_1 => exact absurd (List.append_eq_nil_iff.mp h.symm).2 hrest
  case h_2 first others heq =>
    rw [heq]
    dsimp only at h
    split_ifs at h with hfirst
    · have hdot : first = "." := by simpa using (Bool.and_eq_true_iff.mp hfirst).2
      obtain ⟨before, after, rfl, rfl, rfl⟩ := List.filter_eq_append_iff.mp h
      refine ⟨first :: before, after, rfl, ?_, by simp [hdot]⟩
      rintro rfl
      exact hrest rfl
    · cases front with
      | nil => exact ⟨[], first :: others, rfl, List.cons_ne_nil _ _, rfl⟩
      | cons step front =>
        obtain ⟨rfl, hothers⟩ := List.cons.inj h
        obtain ⟨before, after, rfl, rfl, rfl⟩ := List.filter_eq_append_iff.mp hothers
        refine ⟨first :: before, after, rfl, ?_, by simp [List.filter_cons]⟩
        rintro rfl
        exact hrest rfl

/-- Where the last step is not `.`, it is the last that matters, and those in front of it are all in front of
it but for some that are `.`. -/
theorem plainSteps_eq_append {p : Path} {front : List String} {last : String}
    (h : p.steps = front ++ [last]) (hlast : last ≠ ".") :
    ∃ steps, p.plainSteps = steps ++ [last] ∧ steps.filter (· != ".") = front.filter (· != ".") := by
  have hkeep : (last != ".") = true := by simpa using hlast
  rw [plainSteps, h]
  cases front with
  | nil =>
    refine ⟨[], ?_, rfl⟩
    have hfirst : (p.absolute && last == ".") = false := by simp [hlast]
    simp [hfirst]
  | cons first rest =>
    simp only [List.cons_append, List.filter_append, List.filter_singleton, hkeep]
    split_ifs with hfirst
    · have hdot : first = "." := by simpa using (Bool.and_eq_true_iff.mp hfirst).2
      exact ⟨rest.filter (· != "."), rfl, by simp [hdot]⟩
    · exact ⟨first :: rest.filter (· != "."), rfl, by simp [List.filter_cons]⟩

/-- Where the last step is not `.`, the steps to the directory are those in front of it, but for some that
are `.`. -/
theorem parentSteps?_of_steps {p : Path} {front : List String} {last : String}
    (h : p.steps = front ++ [last]) (hlast : last ≠ ".") :
    ∃ steps, p.parentSteps? = some steps ∧ steps.Sublist p.steps ∧
      steps.filter (· != ".") = front.filter (· != ".") := by
  obtain ⟨steps, hplain, hfilter⟩ := plainSteps_eq_append h hlast
  refine ⟨steps, ?_, ?_, hfilter⟩
  · rw [parentSteps?, hplain, List.dropLast_concat]
    simp
  · have hsublist := p.plainSteps_sublist
    rw [hplain] at hsublist
    exact (List.sublist_append_left steps [last]).trans hsublist

end Path

/-! ## §3 Texts that the system accepts -/

namespace Disk

/-- **Where the system accepts the text of a path, it accepts every selection of its steps.** -/
theorem stepsProblem?_of_sublist {path : String} (h : textProblem? path = none) {steps : List String}
    (hsteps : steps.Sublist (Path.ofText path).steps) :
    stepsProblem? steps (Path.sizeUpTo path steps) = none := by
  rw [textProblem?] at h
  split_ifs at h with hnul _ hlong
  have hno : ¬ (steps.any fun step => step.toList.contains '\x00') = true := by
    rw [List.any_eq_true]
    rintro ⟨step, hstep, hmem⟩
    have hsublist := Path.toList_sublist_of_mem_steps (hsteps.subset hstep)
    exact hnul (by simpa using hsublist.subset (by simpa using hmem))
  have hsize : ¬ maxPath < Path.sizeUpTo path steps :=
    Nat.not_lt.mpr ((Path.sizeUpTo_le path steps).trans (Nat.not_lt.mp hlong))
  rw [stepsProblem?, if_neg hno, if_neg hsize]

end Disk

end RouteStubs.Files
