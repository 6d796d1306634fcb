import Mathlib.Tactic.SplitIfs
import RouteStubs.Json.Value
/-!
Reading JSON, and what is read back from the text of a value.

The reader knows the grammar of JSON and not the layout that values are printed in: blanks may stand between any
two tokens, and a character in quotes may be written as it is, by a letter, or by the number of its code unit or
of the two units of a surrogate pair. `null` and numbers, which no `Value` is, are refused.

`readText?_quoted` is the round trip for texts in quotes, over every character. `readsAs_print` is that for values
inside a longer text, by induction on the value: the text of a value is read up to its end, whatever follows.
`read?_pretty` is the round trip for whole texts.
-/

namespace RouteStubs.Json

/-! ## §1 A reader -/

/-- The blanks of JSON. -/
def isBlank (c : Char) : Bool := c = ' ' || c = '\t' || c = '\n' || c = '\r'

/-- The text without its leading blanks. -/
def skipBlanks (text : List Char) : List Char := text.dropWhile isBlank

/-- The value of a hexadecimal digit. -/
def hexValue? (c : Char) : Option Nat :=
  if '0' ≤ c && c ≤ '9' then some (c.toNat - 48)
  else if 'a' ≤ c && c ≤ 'f' then some (c.toNat - 87)
  else if 'A' ≤ c && c ≤ 'F' then some (c.toNat - 55)
  else none

/-- The code unit that four hexadecimal digits write. -/
def unitOfDigits? (a b c d : Char) : Option Nat := do
  return ((← hexValue? a) * 16 + (← hexValue? b)) * 256 + (← hexValue? c) * 16 + (← hexValue? d)

/-- The code unit that a letter behind a backslash stands for. -/
def unitOfLetter? (c : Char) : Option Nat :=
  if c = '"' || c = '\\' || c = '/' then some c.toNat
  else if c = 'b' then some 0x08
  else if c = 't' then some 0x09
  else if c = 'n' then some 0x0A
  else if c = 'f' then some 0x0C
  else if c = 'r' then some 0x0D
  else none

/-- The code units up to the closing quote, and the text behind it. A character that is not escaped counts as one
unit, however large. -/
def readUnits? : List Char → Option (List Nat × List Char)
  | [] => none
  | '"' :: rest => some ([], rest)
  | '\\' :: 'u' :: a :: b :: c :: d :: rest => do
    let unit ← unitOfDigits? a b c d
    let (units, rest) ← readUnits? rest
    return (unit :: units, rest)
  | '\\' :: c :: rest => do
    let unit ← unitOfLetter? c
    let (units, rest) ← readUnits? rest
    return (unit :: units, rest)
  | c :: rest =>
    if c = '\\' || c.toNat < 0x20 then none
    else do
      let (units, rest) ← readUnits? rest
      return (c.toNat :: units, rest)

/-- The first unit of a surrogate pair. -/
def isHighSurrogate (unit : Nat) : Bool := 0xD800 ≤ unit && unit ≤ 0xDBFF

/-- The second unit of a surrogate pair. -/
def isLowSurrogate (unit : Nat) : Bool := 0xDC00 ≤ unit && unit ≤ 0xDFFF

/-- The characters that code units write; none if a surrogate is not in a pair. -/
def charsOfUnits? : List Nat → Option (List Char)
  | [] => some []
  | unit :: rest =>
    if isHighSurrogate unit then
      match rest with
      | low :: rest =>
        if isLowSurrogate low then
          (charsOfUnits? rest).map
            (Char.ofNat (0x10000 + (unit - 0xD800) * 0x400 + (low - 0xDC00)) :: ·)
        else none
      | [] => none
    else if isLowSurrogate unit then none
    else (charsOfUnits? rest).map (Char.ofNat unit :: ·)

/-- The text up to the closing quote, and what stands behind it. -/
def readText? (text : List Char) : Option (String × List Char) := do
  let (units, rest) ← readUnits? text
  return (String.ofList (← charsOfUnits? units), rest)

mutual

/-- The value that a text starts with, and the text behind it. -/
def readValue? : Nat → List Char → Option (Value × List Char)
  | 0, _ => none
  | fuel + 1, text =>
    match skipBlanks text with
    | 't' :: 'r' :: 'u' :: 'e' :: rest => some (.bool true, rest)
    | 'f' :: 'a' :: 'l' :: 's' :: 'e' :: rest => some (.bool false, rest)
    | '"' :: rest => (readText? rest).map fun (s, rest) => (.text s, rest)
    | '[' :: rest =>
      match skipBlanks rest with
      | ']' :: rest => some (.list [], rest)
      | items => (readItems? fuel items).map fun (items, rest) => (.list items, rest)
    | '{' :: rest =>
      match skipBlanks rest with
      | '}' :: rest => some (.record [], rest)
      | fields => (readFields? fuel fields).map fun (fields, rest) => (.record fields, rest)
    | _ => none
termination_by structural fuel => fuel

/-- The items up to the bracket that closes a list, of which there is one at least, and the text behind it. -/
def readItems? : Nat → List Char → Option (List Value × List Char)
  | 0, _ => none
  | fuel + 1, text => do
    let (v, rest) ← readValue? fuel text
    match skipBlanks rest with
    | ']' :: rest => return ([v], rest)
    | ',' :: rest => (readItems? fuel rest).map fun (items, rest) => (v :: items, rest)
    | _ => none
termination_by structural fuel => fuel

/-- The fields up to the brace that closes a record, of which there is one at least, and the text behind it. -/
def readFields? : Nat → List Char → Option (List (String × Value) × List Char)
  | 0, _ => none
  | fuel + 1, text =>
    match skipBlanks text with
    | '"' :: rest => do
      let (key, rest) ← readText? rest
      match skipBlanks rest with
      | ':' :: rest => do
        let (v, rest) ← readValue? fuel rest
        match skipBlanks rest with
        | '}' :: rest => return ([(key, v)], rest)
        | ',' :: rest => (readFields? fuel rest).map fun (fields, rest) => ((key, v) :: fields, rest)
        | _ => none
      | _ => none
    | _ => none
termination_by structural fuel => fuel

end

/-- The value that a text is, with nothing but blanks behind it. Every step of the reader takes a character, so
that there are enough steps. -/
def read? (text : List Char) : Option Value := do
  let (v, rest) ← readValue? text.length text
  if (skipBlanks rest).isEmpty then some v else none

/-! ## §2 Texts in quotes -/

theorem hexValue?_hexDigit {n : Nat} (h : n < 16) : hexValue? (hexDigit n) = some n := by
  have hall : ∀ m < 16, hexValue? (hexDigit m) = some m := by decide
  exact hall n h

theorem readUnits?_letter {c : Char} (hc : c ≠ 'u') {unit : Nat} (h : unitOfLetter? c = some unit)
    (rest : List Char) :
    readUnits? ('\\' :: c :: rest) = (readUnits? rest).map fun p => (unit :: p.1, p.2) := by
  rw [readUnits?, h]
  · cases readUnits? rest <;> rfl
  · simp [hc]

theorem readUnits?_digits {a b c d : Char} {unit : Nat} (h : unitOfDigits? a b c d = some unit)
    (rest : List Char) :
    readUnits? ('\\' :: 'u' :: a :: b :: c :: d :: rest) =
      (readUnits? rest).map fun p => (unit :: p.1, p.2) := by
  rw [readUnits?, h]
  cases readUnits? rest <;> rfl

theorem readUnits?_plain {c : Char} (hquote : c ≠ '"') (hbackslash : c ≠ '\\')
    (hcontrol : ¬ c.toNat < 0x20) (rest : List Char) :
    readUnits? (c :: rest) = (readUnits? rest).map fun p => (c.toNat :: p.1, p.2) := by
  rw [readUnits?, if_neg (by simp [hbackslash, hcontrol])]
  · cases readUnits? rest <;> rfl
  · exact hquote
  · simp [hbackslash]
  · simp [hbackslash]

/-- However a character is written, it is read as its code. -/
theorem readUnits?_escaped (c : Char) (rest : List Char) :
    readUnits? (escaped c ++ rest) = (readUnits? rest).map fun p => (c.toNat :: p.1, p.2) := by
  rw [escaped]
  split_ifs with hquote hbackslash hfeed hreturn htab hback hform hcontrol
  · exact readUnits?_letter (by decide) (by rw [hquote]; rfl) rest
  · exact readUnits?_letter (by decide) (by rw [hbackslash]; rfl) rest
  · exact readUnits?_letter (by decide) (by rw [hfeed]; rfl) rest
  · exact readUnits?_letter (by decide) (by rw [hreturn]; rfl) rest
  · exact readUnits?_letter (by decide) (by rw [htab]; rfl) rest
  · exact readUnits?_letter (by decide) (by rw [hback]; rfl) rest
  · exact readUnits?_letter (by decide) (by rw [hform]; rfl) rest
  · have hzero : hexValue? '0' = some 0 := by decide
    have hunit : unitOfDigits? '0' '0' (hexDigit (c.toNat / 16)) (hexDigit (c.toNat % 16)) = some c.toNat := by
      rw [unitOfDigits?, hzero, hexValue?_hexDigit (by omega), hexValue?_hexDigit (by omega)]
      have hdigits : c.toNat / 16 * 16 + c.toNat % 16 = c.toNat := Nat.div_add_mod' ..
      simpa using hdigits
    exact readUnits?_digits hunit rest
  · exact readUnits?_plain hquote hbackslash hcontrol rest

theorem readUnits?_flatMap_escaped (s rest : List Char) :
    readUnits? (s.flatMap escaped ++ '"' :: rest) = some (s.map Char.toNat, rest) := by
  induction s with
  | nil => simp [readUnits?]
  | cons c s ih =>
    rw [List.flatMap_cons, List.append_assoc, readUnits?_escaped, ih, Option.map_some, List.map_cons]

/-- No character is half of a surrogate pair. -/
theorem not_isSurrogate (c : Char) : isHighSurrogate c.toNat = false ∧ isLowSurrogate c.toNat = false := by
  have hvalid : c.toNat < 0xD800 ∨ 0xDFFF < c.toNat ∧ c.toNat < 0x110000 := c.valid
  simp only [isHighSurrogate, isLowSurrogate, Bool.and_eq_false_iff, decide_eq_false_iff_not]
  omega

theorem charsOfUnits?_map_toNat (s : List Char) : charsOfUnits? (s.map Char.toNat) = some s := by
  induction s with
  | nil => rfl
  | cons c s ih =>
    obtain ⟨hhigh, hlow⟩ := not_isSurrogate c
    rw [List.map_cons, charsOfUnits?.eq_def]
    simp only [hhigh, hlow, ih, Bool.false_eq_true, if_false, Option.map_some, Char.ofNat_toNat]

/-- **A text in quotes is read back**, whatever its characters are. -/
theorem readText?_quoted (s : String) (rest : List Char) :
    readText? (s.toList.flatMap escaped ++ '"' :: rest) = some (s, rest) := by
  simp only [readText?, readUnits?_flatMap_escaped, charsOfUnits?_map_toNat, Option.bind_eq_bind,
    Option.bind_some, String.ofList_toList]
  rfl

/-! ## §3 Values -/

/-- Induction over the nesting of lists and records: a property of all values in one passes on to it. -/
theorem Value.induction {motive : Value → Prop} (bool : ∀ b, motive (.bool b))
    (text : ∀ s, motive (.text s)) (list : ∀ items, (∀ v ∈ items, motive v) → motive (.list items))
    (record : ∀ fields : List (String × Value), (∀ f ∈ fields, motive f.2) → motive (.record fields))
    (v : Value) : motive v :=
  match v with
  | .bool b => bool b
  | .text s => text s
  | .list items => list items fun v _ => Value.induction bool text list record v
  | .record fields => record fields fun f _ => Value.induction bool text list record f.2
termination_by sizeOf v
decreasing_by
  · next hmem =>
    have hlt : sizeOf v < sizeOf items := List.sizeOf_lt_of_mem hmem
    simp only [Value.list.sizeOf_spec]
    omega
  · next hmem =>
    have hlt : sizeOf f < sizeOf fields := List.sizeOf_lt_of_mem hmem
    obtain ⟨key, v⟩ := f
    simp only [Value.record.sizeOf_spec, Prod.mk.sizeOf_spec] at hlt ⊢
    omega

/-- The text is read as the value up to its end, whatever follows it. -/
def ReadsAs (text : List Char) (v : Value) : Prop :=
  ∀ fuel rest, text.length ≤ fuel → readValue? fuel (text ++ rest) = some (v, rest)

theorem skipBlanks_newLine (depth : Nat) (text : List Char) :
    skipBlanks (newLine depth ++ text) = skipBlanks text := by
  have hblank : ∀ c ∈ newLine depth, isBlank c = true := by
    intro c hc
    rcases List.mem_cons.mp hc with rfl | hc
    · decide
    · rw [List.eq_of_mem_replicate hc]
      decide
  exact List.dropWhile_append_of_pos hblank

theorem skipBlanks_cons {c : Char} (h : isBlank c = false) (text : List Char) :
    skipBlanks (c :: text) = c :: text := by
  rw [skipBlanks, List.dropWhile_cons_of_neg (by simp [h])]

/-- What is read of a text depends on what is behind its leading blanks. -/
theorem readValue?_congr {s t : List Char} (h : skipBlanks s = skipBlanks t) (fuel : Nat) :
    readValue? fuel s = readValue? fuel t := by
  cases fuel with
  | zero => rfl
  | succ fuel => rw [readValue?, readValue?, h]

theorem readItems?_congr {s t : List Char} (h : skipBlanks s = skipBlanks t) (fuel : Nat) :
    readItems? fuel s = readItems? fuel t := by
  cases fuel with
  | zero => rfl
  | succ fuel => rw [readItems?, readItems?, readValue?_congr h]

theorem readFields?_congr {s t : List Char} (h : skipBlanks s = skipBlanks t) (fuel : Nat) :
    readFields? fuel s = readFields? fuel t := by
  cases fuel with
  | zero => rfl
  | succ fuel => rw [readFields?, readFields?, h]

/-! ## §4 Items and fields -/

theorem printItems_cons (depth : Nat) (v : Value) (items : List Value) :
    printItems depth false (v :: items) =
      ',' :: (newLine depth ++ (v.print depth ++ printItems depth false items)) := by
  simp [printItems, separator]

theorem printFields_cons (depth : Nat) (key : String) (v : Value) (fields : List (String × Value)) :
    printFields depth false ((key, v) :: fields) =
      ',' :: (newLine depth ++ (quoted key ++
        ([':', ' '] ++ (v.print depth ++ printFields depth false fields)))) := by
  have hcolon : ": ".toList = [':', ' '] := rfl
  simp [printFields, separator, hcolon]

/-- Items are read back up to the bracket behind them, if each is. -/
theorem readItems?_print {depth : Nat} {v : Value} {items : List Value}
    (hread : ∀ w ∈ v :: items, ReadsAs (w.print depth) w) (outer fuel : Nat) (rest : List Char)
    (hfuel : (v.print depth ++ printItems depth false items).length < fuel) :
    readItems? fuel (v.print depth ++ (printItems depth false items ++ (newLine outer ++ ']' :: rest))) =
      some (v :: items, rest) := by
  induction items generalizing v fuel with
  | nil =>
    obtain ⟨fuel, rfl⟩ : ∃ n, fuel = n + 1 := Nat.exists_eq_succ_of_ne_zero (by omega)
    rw [List.length_append] at hfuel
    rw [readItems?, hread v (by simp) fuel _ (by omega), Option.bind_eq_bind, Option.bind_some]
    simp only [printItems, List.nil_append, skipBlanks_newLine, skipBlanks_cons (c := ']') (by decide)]
    rfl
  | cons w items ih =>
    obtain ⟨fuel, rfl⟩ : ∃ n, fuel = n + 1 := Nat.exists_eq_succ_of_ne_zero (by omega)
    simp only [printItems_cons, List.length_append, List.length_cons] at hfuel
    have hread' : ∀ u ∈ w :: items, ReadsAs (u.print depth) u := fun u hu => hread u (List.mem_cons_of_mem _ hu)
    have hitems := ih hread' fuel (by simp; omega)
    rw [readItems?, hread v (by simp) fuel _ (by omega), Option.bind_eq_bind, Option.bind_some]
    simp only [printItems_cons, List.cons_append, skipBlanks_cons (c := ',') (by decide), List.append_assoc]
    rw [readItems?_congr (skipBlanks_newLine ..), hitems, Option.map_some]

/-- A field is read as its name and its value, and then the reading goes on with what stands behind it. -/
theorem readFields?_field {key : String} {v : Value} {text : List Char} (hread : ReadsAs text v) {fuel : Nat}
    (hfuel : text.length ≤ fuel) (rest : List Char) :
    readFields? (fuel + 1) (quoted key ++ ([':', ' '] ++ (text ++ rest))) =
      match skipBlanks rest with
      | '}' :: rest => some ([(key, v)], rest)
      | ',' :: rest => (readFields? fuel rest).map fun (fields, rest) => ((key, v) :: fields, rest)
      | _ => none := by
  have hkey : ∀ t, quoted key ++ t = '"' :: (key.toList.flatMap escaped ++ '"' :: t) := by simp [quoted]
  have hspace : skipBlanks (' ' :: (text ++ rest)) = skipBlanks (text ++ rest) := rfl
  rw [hkey, readFields?, skipBlanks_cons (by decide)]
  simp only [readText?_quoted, Option.bind_eq_bind, Option.bind_some, List.cons_append, List.nil_append,
    skipBlanks_cons (c := ':') (by decide)]
  rw [readValue?_congr hspace, hread fuel rest hfuel]
  rfl

/-- Fields are read back up to the brace behind them, if the value in each is. -/
theorem readFields?_print {depth : Nat} {key : String} {v : Value} {fields : List (String × Value)}
    (hread : ∀ f ∈ (key, v) :: fields, ReadsAs (f.2.print depth) f.2) (outer fuel : Nat)
    (rest : List Char) (hfuel : (v.print depth ++ printFields depth false fields).length < fuel) :
    readFields? fuel (quoted key ++ ([':', ' '] ++ (v.print depth ++
        (printFields depth false fields ++ (newLine outer ++ '}' :: rest))))) =
      some ((key, v) :: fields, rest) := by
  have hv : ReadsAs (v.print depth) v := hread (key, v) (by simp)
  induction fields generalizing key v fuel with
  | nil =>
    obtain ⟨fuel, rfl⟩ : ∃ n, fuel = n + 1 := Nat.exists_eq_succ_of_ne_zero (by omega)
    rw [List.length_append] at hfuel
    rw [readFields?_field hv (by omega)]
    simp only [printFields, List.nil_append, skipBlanks_newLine, skipBlanks_cons (c := '}') (by decide)]
  | cons f fields ih =>
    obtain ⟨name, w⟩ := f
    obtain ⟨fuel, rfl⟩ : ∃ n, fuel = n + 1 := Nat.exists_eq_succ_of_ne_zero (by omega)
    simp only [printFields_cons, List.length_append, List.length_cons] at hfuel
    have hread' : ∀ g ∈ (name, w) :: fields, ReadsAs (g.2.print depth) g.2 :=
      fun g hg => hread g (List.mem_cons_of_mem _ hg)
    have hfields := ih hread' fuel (by simp; omega) (hread (name, w) (by simp))
    rw [readFields?_field hv (by omega)]
    simp only [printFields_cons, List.cons_append, skipBlanks_cons (c := ',') (by decide),
      List.append_assoc] at hfields ⊢
    rw [readFields?_congr (skipBlanks_newLine ..), hfields, Option.map_some]

/-! ## §5 Whole texts -/

/-- The text of a value starts with a character that is neither blank nor the end of a list. -/
theorem exists_print_eq_cons (depth : Nat) (v : Value) :
    ∃ c text, v.print depth = c :: text ∧ isBlank c = false ∧ c ≠ ']' := by
  cases v with
  | bool b => cases b <;> exact ⟨_, _, rfl, by decide, by decide⟩
  | text s => exact ⟨_, _, rfl, by decide, by decide⟩
  | list items => cases items <;> exact ⟨_, _, rfl, by decide, by decide⟩
  | record fields => cases fields <;> exact ⟨_, _, rfl, by decide, by decide⟩

theorem print_list_cons (depth : Nat) (v : Value) (items : List Value) :
    (Value.list (v :: items)).print depth = '[' :: (newLine (depth + 1) ++ (v.print (depth + 1) ++
      (printItems (depth + 1) false items ++ (newLine depth ++ [']'])))) := by
  simp [Value.print, bracketed, printItems, separator]

theorem print_record_cons (depth : Nat) (key : String) (v : Value) (fields : List (String × Value)) :
    (Value.record ((key, v) :: fields)).print depth = '{' :: (newLine (depth + 1) ++ (quoted key ++
      ([':', ' '] ++ (v.print (depth + 1) ++ (printFields (depth + 1) false fields ++
        (newLine depth ++ ['}'])))))) := by
  have hcolon : ": ".toList = [':', ' '] := rfl
  simp [Value.print, bracketed, printFields, separator, hcolon]

/-- A bracket in front of something else than the end of a list is followed by items. -/
theorem readValue?_items {c : Char} (hblank : isBlank c = false) (hc : c ≠ ']') (fuel depth : Nat)
    (text : List Char) :
    readValue? (fuel + 1) ('[' :: (newLine depth ++ c :: text)) =
      (readItems? fuel (c :: text)).map fun (items, rest) => (.list items, rest) := by
  rw [readValue?, skipBlanks_cons (by decide)]
  simp only [skipBlanks_newLine, skipBlanks_cons hblank]
  split
  case h_1 heq => exact absurd (List.cons.inj heq).1 hc
  case h_2 => rfl

/-- A brace in front of something else than the end of a record is followed by fields. -/
theorem readValue?_fields {c : Char} (hblank : isBlank c = false) (hc : c ≠ '}') (fuel depth : Nat)
    (text : List Char) :
    readValue? (fuel + 1) ('{' :: (newLine depth ++ c :: text)) =
      (readFields? fuel (c :: text)).map fun (fields, rest) => (.record fields, rest) := by
  rw [readValue?, skipBlanks_cons (by decide)]
  simp only [skipBlanks_newLine, skipBlanks_cons hblank]
  split
  case h_1 heq => exact absurd (List.cons.inj heq).1 hc
  case h_2 => rfl

/-- It takes one step at least to read the text of a value. -/
theorem readsAs_of_succ {v : Value} {depth : Nat}
    (h : ∀ fuel rest, (v.print depth).length ≤ fuel + 1 →
      readValue? (fuel + 1) (v.print depth ++ rest) = some (v, rest)) : ReadsAs (v.print depth) v := by
  intro fuel rest hfuel
  obtain ⟨c, text, hprint, -, -⟩ := exists_print_eq_cons depth v
  cases fuel with
  | zero => simp [hprint] at hfuel
  | succ fuel => exact h fuel rest hfuel

/-- **The text of a value is read back as the value**, up to its end and whatever follows. -/
theorem readsAs_print (v : Value) (depth : Nat) : ReadsAs (v.print depth) v := by
  induction v using Value.induction generalizing depth with
  | bool b =>
    refine readsAs_of_succ fun fuel rest _ => ?_
    cases b <;> rfl
  | text s =>
    refine readsAs_of_succ fun fuel rest _ => ?_
    have hquoted : (Value.text s).print depth ++ rest = '"' :: (s.toList.flatMap escaped ++ '"' :: rest) := by
      simp [Value.print, quoted]
    rw [hquoted, readValue?, skipBlanks_cons (by decide)]
    simp only [readText?_quoted, Option.map_some]
  | list items ih =>
    refine readsAs_of_succ fun fuel rest hfuel => ?_
    cases items with
    | nil => rfl
    | cons v items =>
      simp only [print_list_cons, List.length_cons, List.length_append] at hfuel
      have hitems := readItems?_print (fun w hw => ih w hw (depth + 1)) depth fuel rest
        (by simp [newLine] at hfuel ⊢; omega)
      obtain ⟨c, text, hprint, hblank, hbracket⟩ := exists_print_eq_cons (depth + 1) v
      simp only [print_list_cons, List.cons_append, List.append_assoc, List.nil_append]
      rw [hprint, List.cons_append] at hitems ⊢
      rw [readValue?_items hblank hbracket, hitems, Option.map_some]
  | record fields ih =>
    refine readsAs_of_succ fun fuel rest hfuel => ?_
    cases fields with
    | nil => rfl
    | cons field fields =>
      obtain ⟨key, v⟩ := field
      simp only [print_record_cons, List.length_cons, List.length_append] at hfuel
      have hread : ∀ f ∈ (key, v) :: fields, ReadsAs (f.2.print (depth + 1)) f.2 :=
        fun f hf => ih f hf (depth + 1)
      have hfields := readFields?_print hread depth fuel rest
        (by simp [newLine] at hfuel ⊢; omega)
      simp only [quoted, List.cons_append, List.append_assoc, List.nil_append] at hfields
      simp only [print_record_cons, quoted, List.cons_append, List.append_assoc, List.nil_append]
      rw [readValue?_fields (c := '"') (by decide) (by decide), hfields, Option.map_some]

/-- **The text of a value is read back as the value**, also with blanks behind it. -/
theorem read?_pretty (v : Value) {blanks : List Char} (h : ∀ c ∈ blanks, isBlank c = true) :
    read? (v.pretty ++ blanks) = some v := by
  have hblanks : skipBlanks (blanks ++ []) = [] := List.dropWhile_append_of_pos h
  rw [List.append_nil] at hblanks
  rw [read?, Value.pretty, readsAs_print v 0 _ blanks (by simp)]
  simp only [Option.bind_eq_bind, Option.bind_some, hblanks]
  rfl

end RouteStubs.Json
