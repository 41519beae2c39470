/-
Tables of comma-separated values, read again.

A row of fields without commas, line endings and quotes is read as it was written. A field between
quotes is read as it was meant if its own quotes are written twice, and what is read is never
anything else: a field that is put between quotes as it stands comes back only if there are no
quotes in it.
-/

import NeighbourGraph.Text.Table

namespace NeighbourGraph.Text.Table

variable {place : Place} {field own rest text : List Char} {rows : List (List String)} {c : Char}

/-! ### Fields without quotes -/

/-- A character that ends nothing and quotes nothing. -/
def Plain (c : Char) : Prop := c ≠ ',' ∧ c ≠ '\n' ∧ c ≠ '\r' ∧ c ≠ '"'

instance : DecidablePred Plain := fun _ => inferInstanceAs (Decidable (_ ∧ _))

/-- A text that needs no quotes around it. -/
def Bare (text : String) : Prop := ∀ c ∈ text.toList, Plain c

instance : DecidablePred Bare := fun text => List.decidableBAll Plain text.toList

theorem Bare.append {s t : String} (left : Bare s) (right : Bare t) : Bare (s ++ t) := by
  intro c mem
  rw [String.toList_append, List.mem_append] at mem
  exact mem.elim (left c) (right c)

/-- The places from which a field without quotes is read. -/
def Place.Unquoted (place : Place) : Prop := place = .fresh ∨ place = .start ∨ place = .plain

theorem unquoted_fresh : Place.fresh.Unquoted := .inl rfl

theorem unquoted_start : Place.start.Unquoted := .inr (.inl rfl)

theorem unquoted_plain : Place.plain.Unquoted := .inr (.inr rfl)

theorem step_plain (unquoted : place.Unquoted) (plain : Plain c) :
    place.step c = some (.keep .plain) := by
  obtain ⟨comma, feed, ret, quote⟩ := plain
  rcases unquoted with rfl | rfl | rfl <;>
    simp [Place.step, ending?, comma, feed, ret, quote]

theorem step_comma (unquoted : place.Unquoted) : place.step ',' = some .endField := by
  rcases unquoted with rfl | rfl | rfl <;> rfl

theorem step_feed (unquoted : place.Unquoted) : place.step '\n' = some .endRow := by
  rcases unquoted with rfl | rfl | rfl <;> rfl

/-- Plain characters belong to the field. -/
theorem rowsFrom_plain (unquoted : place.Unquoted) (plain : ∀ c ∈ own, Plain c)
    (field rest : List Char) :
    ∃ place' : Place, place'.Unquoted ∧
      rowsFrom place field (own ++ rest) = rowsFrom place' (field ++ own) rest := by
  induction own generalizing place field with
  | nil => exact ⟨place, unquoted, by rw [List.nil_append, List.append_nil]⟩
  | cons c own ih =>
    rw [List.forall_mem_cons] at plain
    obtain ⟨place', unquoted', read⟩ := ih unquoted_plain plain.2 (field ++ [c])
    refine ⟨place', unquoted', ?_⟩
    rw [List.cons_append, rowsFrom, step_plain unquoted plain.1]
    dsimp only
    rw [read, List.append_assoc]
    rfl

/-- The text of a row of fields. -/
def rowText (fields : List String) : List Char :=
  [','].intercalate (fields.map String.toList) ++ ['\n']

theorem rowText_single (field : String) : rowText [field] = field.toList ++ ['\n'] := by
  simp [rowText, List.intercalate]

theorem rowText_cons (first second : String) (more : List String) :
    rowText (first :: second :: more) = first.toList ++ ',' :: rowText (second :: more) := by
  simp [rowText, List.intercalate]

/-- A row of bare fields is read as it was written. -/
theorem rowsFrom_row {first : String} {more : List String} (unquoted : place.Unquoted)
    (bare : ∀ field ∈ first :: more, Bare field) (rest : List Char) :
    rowsFrom place [] (rowText (first :: more) ++ rest) =
      (rowsFrom .fresh [] rest).map ((first :: more) :: ·) := by
  induction more generalizing place first with
  | nil =>
    obtain ⟨place', unquoted', read⟩ :=
      rowsFrom_plain unquoted (bare first (by simp)) [] ('\n' :: rest)
    rw [rowText_single, List.append_assoc]
    change rowsFrom place [] (first.toList ++ '\n' :: rest) = _
    rw [read, rowsFrom, step_feed unquoted', List.nil_append, String.ofList_toList]
  | cons second more ih =>
    rw [List.forall_mem_cons] at bare
    obtain ⟨place', unquoted', read⟩ :=
      rowsFrom_plain unquoted bare.1 [] (',' :: (rowText (second :: more) ++ rest))
    have tail := ih unquoted_start bare.2
    rw [rowText_cons, List.append_assoc, List.cons_append, read, rowsFrom, step_comma unquoted']
    dsimp only
    rw [tail, Option.map_map, List.nil_append, String.ofList_toList]
    rfl

/-! ### Quoted fields -/

/-- A field as it stands between quotes: each quote in it twice. -/
def doubled (field : List Char) : List Char :=
  field.flatMap fun c => if c = '"' then ['"', '"'] else [c]

theorem doubled_other (other : c ≠ '"') (field : List Char) :
    doubled (c :: field) = c :: doubled field := by
  rw [doubled, List.flatMap_cons, if_neg other]
  rfl

theorem doubled_eq_self (unquoted : '"' ∉ field) : doubled field = field := by
  induction field with
  | nil => rfl
  | cons c field ih =>
    rw [List.mem_cons, not_or] at unquoted
    rw [doubled_other (Ne.symm unquoted.1), ih unquoted.2]

/-- Any characters can stand between quotes. -/
theorem rowsFrom_doubled (field own rest : List Char) :
    rowsFrom .quoted field (doubled own ++ '"' :: rest) = rowsFrom .closing (field ++ own) rest := by
  induction own generalizing field with
  | nil =>
    rw [List.append_nil]
    rfl
  | cons c own ih =>
    rw [List.append_cons field, ← ih]
    by_cases quote : c = '"'
    · subst quote
      rfl
    · have step : Place.quoted.step c = some (.keep .quoted) := by
        rw [Place.step, if_neg quote]
      rw [doubled_other quote, List.cons_append, rowsFrom, step]

example : rows? "a,\"b,\"\"\n\"\r\nc,\n" = some [["a", "b,\"\n"], ["c", ""]] := by decide

/-- The field that is being read is the first one that is left. -/
def StartsWith (field : List Char) (rows : List (List String)) : Prop :=
  ∃ fields more, rows = (String.ofList field :: fields) :: more

theorem startsWith_addField (field : List Char) (rows : List (List String)) :
    StartsWith field (addField (String.ofList field) rows) := by
  cases rows with
  | nil => exact ⟨[], [], rfl⟩
  | cons row rows => exact ⟨row, rows, rfl⟩

theorem startsWith_of_returned (read : rowsFrom .returned field text = some rows) :
    StartsWith field rows := by
  cases text with
  | nil => cases read
  | cons c text =>
    rw [rowsFrom, Place.step] at read
    by_cases feed : c = '\n'
    · rw [if_pos feed, Option.map_eq_some_iff] at read
      obtain ⟨rows, -, rfl⟩ := read
      exact ⟨[], rows, rfl⟩
    · rw [if_neg feed] at read
      cases read

/-- Behind a quote, nothing but another quote goes on with the field. -/
theorem startsWith_of_closing (other : c ≠ '"')
    (read : rowsFrom .closing field (c :: text) = some rows) : StartsWith field rows := by
  rw [rowsFrom, Place.step, if_neg other, ending?] at read
  by_cases comma : c = ','
  · rw [if_pos comma, Option.map_eq_some_iff] at read
    obtain ⟨rows, -, rfl⟩ := read
    exact startsWith_addField field rows
  rw [if_neg comma] at read
  by_cases feed : c = '\n'
  · rw [if_pos feed, Option.map_eq_some_iff] at read
    obtain ⟨rows, -, rfl⟩ := read
    exact ⟨[], rows, rfl⟩
  rw [if_neg feed] at read
  by_cases ret : c = '\r'
  · rw [if_pos ret] at read
    exact startsWith_of_returned read
  · rw [if_neg ret] at read
    cases read

/-- Where a quoted field is read, the text goes on with its characters, each quote twice, and then
the closing quote. Behind a quote, either the field ends, or another quote belongs to it. -/
theorem exists_of_rowsFrom_quoted (text : List Char) :
    (∀ field rows, rowsFrom .quoted field text = some rows →
      ∃ own rest, text = doubled own ++ '"' :: rest ∧ StartsWith (field ++ own) rows) ∧
    ∀ field rows, rowsFrom .closing field text = some rows →
      StartsWith field rows ∨
        ∃ own rest, text = '"' :: (doubled own ++ '"' :: rest) ∧
          StartsWith (field ++ '"' :: own) rows := by
  induction text with
  | nil =>
    constructor
    · intro field rows read
      cases read
    · intro field rows read
      cases read
      exact .inl ⟨_, _, rfl⟩
  | cons c text ih =>
    obtain ⟨quoted, closing⟩ := ih
    constructor
    · intro field rows read
      rw [rowsFrom] at read
      by_cases quote : c = '"'
      · subst quote
        change rowsFrom .closing field text = some rows at read
        rcases closing field rows read with first | ⟨own, rest, rfl, first⟩
        · exact ⟨[], text, rfl, (List.append_nil field).symm ▸ first⟩
        · exact ⟨'"' :: own, rest, rfl, first⟩
      · rw [Place.step, if_neg quote] at read
        obtain ⟨own, rest, rfl, first⟩ := quoted _ rows read
        rw [List.append_assoc] at first
        exact ⟨c :: own, rest, by rw [doubled_other quote]; rfl, first⟩
    · intro field rows read
      by_cases quote : c = '"'
      · subst quote
        change rowsFrom .quoted (field ++ ['"']) text = some rows at read
        obtain ⟨own, rest, rfl, first⟩ := quoted _ rows read
        rw [List.append_assoc] at first
        exact .inr ⟨own, rest, rfl, first⟩
      · exact .inl (startsWith_of_closing quote read)

/-- A quote too many is never made up for. -/
theorem quotes_ne (count : Nat) (own tail : List Char) :
    List.replicate (count + 1) '"' ++ (doubled own ++ '"' :: rest) ≠ own ++ '"' :: ',' :: tail := by
  intro same
  induction own generalizing count with
  | nil =>
    have behind : List.replicate count '"' ++ '"' :: rest = ',' :: tail := (List.cons.inj same).2
    cases count with
    | zero => cases behind
    | succ count => cases behind
  | cons c own ih =>
    by_cases quote : c = '"'
    · subst quote
      have behind : List.replicate count '"' ++ ('"' :: '"' :: doubled own ++ '"' :: rest) =
          own ++ '"' :: ',' :: tail := (List.cons.inj same).2
      refine ih (count + 1) ?_
      rw [← behind, List.replicate_succ', List.replicate_succ', List.append_assoc,
        List.append_assoc]
      rfl
    · exact quote (List.cons.inj same).1.symm

/-- What is put between quotes as it stands is read as itself only if there are no quotes in it. -/
theorem not_mem_of_doubled {tail : List Char}
    (same : doubled own ++ '"' :: rest = own ++ '"' :: ',' :: tail) : '"' ∉ own := by
  induction own with
  | nil => exact List.not_mem_nil
  | cons c own ih =>
    by_cases quote : c = '"'
    · subst quote
      exact absurd (List.cons.inj same).2 (quotes_ne 0 own tail)
    · rw [doubled_other quote] at same
      rw [List.mem_cons, not_or]
      exact ⟨Ne.symm quote, ih (List.cons.inj same).2⟩

end NeighbourGraph.Text.Table
