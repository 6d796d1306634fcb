import Mathlib.Tactic.SplitIfs
import RouteStubs.Cli.Arguments
/-!
Asking for a dry run on top of a request.

`--dry-run` may be added anywhere among the arguments of a run. `ofArguments_dryRun` says that the arguments make
the run that they made before, as a dry run, or are refused: they are where it stands in the place of a value, or
behind the mark that ends the options, or for the second time.
-/

namespace RouteStubs.Cli

/-! ## §1 One argument more -/

/-- An argument gives options and perhaps waits for a value, whatever follows, or it is a fault to go on. -/
theorem readArguments_cons (waiting : Option Setting) (argument : String) :
    (∃ given waiting', ∀ rest, readArguments waiting (argument :: rest) = given ++ readArguments waiting' rest) ∨
      ∀ next rest, ∃ e, readArguments waiting (argument :: next :: rest) = [.fault e] := by
  cases waiting with
  | some option =>
    simp only [readArguments]
    split
    case h_1 => exact .inr fun _ _ => ⟨_, rfl⟩
    case h_2 => exact .inl ⟨[.setting option argument], none, fun _ => rfl⟩
  | none =>
    simp only [readArguments]
    split
    case h_1 => exact .inr fun _ _ => ⟨_, rfl⟩
    case h_2 text _ _ => exact .inl ⟨(readName text).1, (readName text).2, fun _ => rfl⟩
    case h_3 c letters _ _ _ =>
      exact .inl ⟨(readLetters (c :: letters)).1, (readLetters (c :: letters)).2, fun _ => rfl⟩
    case h_4 => exact .inr fun _ _ => ⟨_, rfl⟩

/-- `--dry-run` among arguments turns a switch on in addition to what they give, or it is a fault, and then what
stands in front of it gives what it did. -/
theorem readArguments_dryRun (waiting : Option Setting) (before after : List String) :
    (∃ front back, readArguments waiting (before ++ after) = front ++ back ∧
        readArguments waiting (before ++ "--dry-run" :: after) = front ++ .switch .dryRun :: back) ∨
      ∃ front back e, readArguments waiting (before ++ after) = front ++ back ∧
        readArguments waiting (before ++ "--dry-run" :: after) = front ++ [.fault e] := by
  induction before generalizing waiting with
  | nil =>
    cases waiting with
    | some option => exact .inr ⟨[], _, .valueMissing option, rfl, rfl⟩
    | none => exact .inl ⟨[], _, rfl, rfl⟩
  | cons argument before ih =>
    rcases readArguments_cons waiting argument with ⟨given, waiting', hgiven⟩ | hfault
    · rw [List.cons_append, List.cons_append, hgiven, hgiven]
      rcases ih waiting' with ⟨front, back, hplain, hdry⟩ | ⟨front, back, e, hplain, hdry⟩
      · exact .inl ⟨given ++ front, back, by rw [hplain, List.append_assoc], by rw [hdry, List.append_assoc]⟩
      · exact .inr ⟨given ++ front, back, e, by rw [hplain, List.append_assoc], by rw [hdry, List.append_assoc]⟩
    · obtain ⟨next, rest, hrest⟩ : ∃ next rest, before ++ "--dry-run" :: after = next :: rest :=
        List.exists_cons_of_ne_nil (by simp)
      obtain ⟨e, he⟩ := hfault next rest
      exact .inr ⟨[], _, e, rfl, by rw [List.cons_append, hrest, he, List.nil_append]⟩

/-! ## §2 One switch more -/

/-- The arguments with a dry run asked for. -/
def Arguments.asDryRun (a : Arguments) : Arguments := { a with dryRun := true }

theorem map_bind_except {ε α β γ : Type} (x : Except ε α) (f : α → Except ε β) (g : β → γ) :
    (x >>= f).map g = x >>= fun a => (f a).map g := by
  cases x <;> rfl

theorem Arguments.set_asDryRun (a : Arguments) (option : Setting) (value : String) :
    a.asDryRun.set option value = (a.set option value).map asDryRun := by
  cases option <;> simp only [set, map_bind_except] <;> rfl

theorem Arguments.switchOn_asDryRun (a : Arguments) {option : Switch} (h : option ≠ .dryRun) :
    a.asDryRun.switchOn option = (a.switchOn option).map asDryRun := by
  cases option with
  | dryRun => exact absurd rfl h
  | routes | json | skipExisting | noFormat => simp only [switchOn, map_bind_except]; rfl
  | verbose | version | help => rfl

theorem Arguments.switchOn_dryRun (a : Arguments) :
    a.switchOn .dryRun = if a.dryRun then .error (.repeated "dry-run") else .ok a.asDryRun := by
  cases h : a.dryRun <;> simp only [switchOn, onceOn, h] <;> rfl

theorem Arguments.consistent_asDryRun (a : Arguments) :
    a.asDryRun.consistent = a.consistent.map asDryRun := by
  have hdry : a.asDryRun.consistent =
      if a.json && !a.routes then .error .routesMissing
      else if a.formatter?.isSome && a.noFormat then .error .formatterUnwanted
      else .ok a.asDryRun := rfl
  rw [hdry, consistent]
  split_ifs <;> rfl

namespace Request

variable {a a' : Arguments}

/-- A switch that asks neither for the version nor for help is turned on. -/
theorem ofGiven_switch (a : Arguments) {option : Switch} (hversion : option ≠ .version) (hhelp : option ≠ .help)
    (rest : List Given) :
    ofGiven a (.switch option :: rest) = (a.switchOn option).bind fun a => ofGiven a rest := by
  cases option <;> first | rfl | contradiction

/-- An option in a run sets or turns on something for those that follow. Where a dry run has been asked for, it does
the same or is refused. -/
theorem ofGiven_cons {option : Given} {given : List Given} (h : ofGiven a (option :: given) = .ok (.run a')) :
    ∃ b, (∀ rest, ofGiven a (option :: rest) = ofGiven b rest) ∧
      ((∀ rest, ofGiven a.asDryRun (option :: rest) = ofGiven b.asDryRun rest) ∨
        ∃ e, ∀ rest, ofGiven a.asDryRun (option :: rest) = .error e) := by
  cases option with
  | fault e => cases h
  | setting option value =>
    simp only [ofGiven, Arguments.set_asDryRun] at h ⊢
    cases hset : a.set option value with
    | error e =>
      rw [hset] at h
      cases h
    | ok b => exact ⟨b, fun _ => rfl, .inl fun _ => rfl⟩
  | switch option =>
    by_cases hversion : option = .version
    · rw [hversion] at h
      cases h
    by_cases hhelp : option = .help
    · rw [hhelp] at h
      cases h
    simp only [ofGiven_switch _ hversion hhelp] at h ⊢
    cases hswitch : a.switchOn option with
    | error e =>
      rw [hswitch] at h
      cases h
    | ok b =>
      refine ⟨b, fun _ => rfl, ?_⟩
      by_cases hdry : option = .dryRun
      · rw [hdry]
        exact .inr ⟨.repeated "dry-run", fun _ => rfl⟩
      · rw [Arguments.switchOn_asDryRun a hdry, hswitch]
        exact .inl fun _ => rfl

/-- The first options of a run set and turn on something for those that follow. -/
theorem ofGiven_append {front back : List Given} (h : ofGiven a (front ++ back) = .ok (.run a')) :
    ∃ b, ∀ rest, ofGiven a (front ++ rest) = ofGiven b rest := by
  induction front generalizing a with
  | nil => exact ⟨a, fun _ => rfl⟩
  | cons option front ih =>
    obtain ⟨b, hb, -⟩ := ofGiven_cons h
    rw [List.cons_append, hb] at h
    obtain ⟨c, hc⟩ := ih h
    exact ⟨c, fun rest => by rw [List.cons_append, hb, hc]⟩

/-- The options of a run make a dry run of it where one has been asked for, or are refused. -/
theorem ofGiven_asDryRun {given : List Given} (h : ofGiven a given = .ok (.run a')) :
    ofGiven a.asDryRun given = .ok (.run a'.asDryRun) ∨ ∃ e, ofGiven a.asDryRun given = .error e := by
  induction given generalizing a with
  | nil =>
    rw [ofGiven] at h ⊢
    rw [Arguments.consistent_asDryRun]
    cases hconsistent : a.consistent with
    | error e => exact .inr ⟨e, rfl⟩
    | ok b =>
      rw [hconsistent] at h
      cases h
      exact .inl rfl
  | cons option given ih =>
    obtain ⟨b, hplain, hdry | ⟨e, he⟩⟩ := ofGiven_cons h
    · rw [hplain] at h
      rw [hdry]
      exact ih h
    · exact .inr ⟨e, he given⟩

/-- **`--dry-run` among the arguments of a run makes a dry run of it**, or the arguments are refused. -/
theorem ofArguments_dryRun {before after : List String} (h : ofArguments (before ++ after) = .ok (.run a)) :
    ofArguments (before ++ "--dry-run" :: after) = .ok (.run a.asDryRun) ∨
      ∃ e, ofArguments (before ++ "--dry-run" :: after) = .error e := by
  rw [ofArguments] at h ⊢
  rcases readArguments_dryRun none before after with ⟨front, back, hplain, hdry⟩ | ⟨front, back, e, hplain, hdry⟩
  all_goals
    rw [hplain] at h
    obtain ⟨b, hb⟩ := ofGiven_append h
    rw [hdry, hb]
  · rw [ofGiven_switch b (by decide) (by decide), Arguments.switchOn_dryRun]
    rw [hb] at h
    cases b.dryRun with
    | true => exact .inr ⟨_, rfl⟩
    | false => exact ofGiven_asDryRun h
  · exact .inr ⟨e, rfl⟩

end Request

end RouteStubs.Cli
