import VerdantBond.Lib.Utf8

set_option autoImplicit false

/-! # parseCsv

`src/api/src/imports/import-safety.ts`: a CSV text is split into records by a machine that looks one
unit ahead, for doubled quotes and for CRLF, and counts line feeds; then the header is checked and the
records become rows. An RFC 4180 writer quotes the cells that need it, and any other it likes, ends each
line with LF or CRLF and may end the text with one and start it with a byte order mark. Whatever it
chooses, the machine goes over a cell, a record and a line in one step each (`loop_cell`, `loop_cells`,
`loop_line`), and the parser returns the table (`csv_round_trip`).
-/

namespace VerdantBond

open List

/-! ## The parser -/

/-- `IMPORT_LIMITS`, as far as the parser reads them. -/
def maxPayloadBytes : Nat := 2 * 1024 * 1024
def maxRows : Nat := 5000
def maxColumns : Nat := 32

def forbiddenKeys : List JsString := [js "__proto__", js "prototype", js "constructor"]

structure ImportPayloadError where
  message : JsString
  deriving DecidableEq, Repr

def lineFeed : CodeUnit := 10
def carriageReturn : CodeUnit := 13
def byteOrderMark : CodeUnit := 0xFEFF

structure CsvRecord where
  line : Nat
  fields : List JsString
  deriving DecidableEq, Repr

/-- The variables of `splitRecords`. -/
structure CsvState where
  records : List CsvRecord
  fields : List JsString
  field : JsString
  inQuotes : Bool
  line : Nat
  recordLine : Nat

def endRecord (s : CsvState) : CsvState :=
  { s with records := s.records ++ [⟨s.recordLine, s.fields ++ [s.field]⟩], fields := [], field := [] }

/-- The body of the loop, and whether it goes on by two units. -/
def csvStep (s : CsvState) (ch : CodeUnit) (next : Option CodeUnit) : CsvState × Bool :=
  if s.inQuotes = true then
    if ch = quoteMark then
      if next = some quoteMark then ({ s with field := s.field ++ [quoteMark] }, true)
      else ({ s with inQuotes := false }, false)
    else
      ({ s with line := if ch = lineFeed then s.line + 1 else s.line, field := s.field ++ [ch] }, false)
  else if ch = quoteMark ∧ s.field = [] then ({ s with inQuotes := true }, false)
  else if ch = comma then ({ s with fields := s.fields ++ [s.field], field := [] }, false)
  else if ch = carriageReturn ∧ next = some lineFeed then
    ({ endRecord s with line := s.line + 1, recordLine := s.line + 1 }, true)
  else if ch = lineFeed then ({ endRecord s with line := s.line + 1, recordLine := s.line + 1 }, false)
  else ({ s with field := s.field ++ [ch] }, false)

/-- The loop; `skip` says that the body before has taken this unit too. -/
def splitLoop : Bool → JsString → CsvState → CsvState
  | _, [], s => s
  | true, _ :: text, s => splitLoop false text s
  | false, ch :: text, s => splitLoop (csvStep s ch text.head?).2 text (csvStep s ch text.head?).1

/-- What follows the loop. -/
def lastRecord (s : CsvState) : Except ImportPayloadError (List CsvRecord) :=
  if s.inQuotes = true then
    .error ⟨js "CSV has an unterminated quoted field starting on line " ++ decimal s.recordLine⟩
  else if s.field ≠ [] ∨ 0 < s.fields.length then .ok (endRecord s).records
  else .ok s.records

def splitRecords (text : JsString) : Except ImportPayloadError (List CsvRecord) :=
  lastRecord (splitLoop false text ⟨[], [], [], false, 1, 1⟩)

/-- The loop over the header, with `seen`. -/
def checkHeader : List JsString → List JsString → Except ImportPayloadError Unit
  | [], _ => .ok ()
  | name :: names, seen =>
      if name = [] then .error ⟨js "CSV header has an empty column name"⟩
      else if name ∈ forbiddenKeys then
        .error ⟨js "CSV header uses reserved name \"" ++ name ++ js "\""⟩
      else if name ∈ seen then .error ⟨js "CSV header repeats column \"" ++ name ++ js "\""⟩
      else checkHeader names (name :: seen)

/-- A row of `parseCsv`; `null` is `none`. The properties of `row` stand in the order of the header. -/
structure ParsedCsvRow where
  line : Nat
  row : Option (List (JsString × Option JsString))
  error : Option JsString
  deriving DecidableEq, Repr

def cellValue (cell : JsString) : Option JsString := if cell = [] then none else some cell

def parseRecord (header : List JsString) (record : CsvRecord) : ParsedCsvRow :=
  if record.fields.length ≠ header.length then
    ⟨record.line, none, some (js "expected " ++ decimal header.length ++ js " columns, found " ++
      decimal record.fields.length)⟩
  else ⟨record.line, some (header.zip (record.fields.map cellValue)), none⟩

def parseCsv (text : JsString) : Except ImportPayloadError (List ParsedCsvRow) :=
  if maxPayloadBytes < (utf8Bytes text).length then
    .error ⟨js "CSV exceeds " ++ decimal maxPayloadBytes ++ js " bytes"⟩
  else
    let body := if text.head? = some byteOrderMark then text.tail else text
    match splitRecords body with
    | .error e => .error e
    | .ok [] => .error ⟨js "CSV is empty"⟩
    | .ok (first :: records) =>
        let header := first.fields.map trim
        if maxColumns < header.length then
          .error ⟨js "CSV has more than " ++ decimal maxColumns ++ js " columns"⟩
        else
          match checkHeader header [] with
          | .error e => .error e
          | .ok () =>
              let dataRecords :=
                records.filter fun r => ¬ (r.fields.length = 1 ∧ r.fields[0]? = some [])
              if maxRows < dataRecords.length then
                .error ⟨js "CSV has more than " ++ decimal maxRows ++ js " data rows"⟩
              else .ok (dataRecords.map (parseRecord header))

/-! ## The writer -/

/-- A cell, and whether the writer quotes it although it need not. -/
structure CsvCell where
  text : JsString
  quoted : Bool
  deriving DecidableEq

/-- The units that have to stand in quotes. -/
def IsSpecial (u : CodeUnit) : Prop :=
  u = comma ∨ u = quoteMark ∨ u = carriageReturn ∨ u = lineFeed

instance (u : CodeUnit) : Decidable (IsSpecial u) := inferInstanceAs (Decidable (_ ∨ _))

def doubleQuotes : JsString → JsString
  | [] => []
  | u :: s => if u = quoteMark then quoteMark :: quoteMark :: doubleQuotes s else u :: doubleQuotes s

def writeCell (c : CsvCell) : JsString :=
  if c.quoted = true ∨ c.text.any IsSpecial = true then
    quoteMark :: (doubleQuotes c.text ++ [quoteMark])
  else c.text

def writeCells : List CsvCell → JsString
  | [] => []
  | [c] => writeCell c
  | c :: d :: cs => writeCell c ++ comma :: writeCells (d :: cs)

/-- A line, and whether it ends with CRLF or LF. -/
structure CsvLine where
  cells : List CsvCell
  crlf : Bool
  deriving DecidableEq

def lineEnd (crlf : Bool) : JsString := if crlf then [carriageReturn, lineFeed] else [lineFeed]

def writeLine (l : CsvLine) : JsString := writeCells l.cells ++ lineEnd l.crlf

/-- The lines of a text; the last may do without its end. -/
def writeLines (finalEnd : Bool) : List CsvLine → JsString
  | [] => []
  | [l] => if finalEnd then writeLine l else writeCells l.cells
  | l :: k :: ls => writeLine l ++ writeLines finalEnd (k :: ls)

/-- The numbers of the lines on which the records start, from the number of the first on: one more for
each line feed before. -/
def startLines : Nat → List CsvLine → List Nat
  | _, [] => []
  | n, l :: ls => n :: startLines (n + (writeLine l).count lineFeed) ls

/-- A table that a CSV text may hold. -/
structure CsvTable where
  header : List JsString
  records : List (List JsString)
  columns : 2 ≤ header.length ∧ header.length ≤ maxColumns
  distinct : header.Nodup
  named : ∀ name ∈ header, trim name = name ∧ name ≠ [] ∧ name ∉ forbiddenKeys
  rectangular : ∀ cells ∈ records, cells.length = header.length
  rows : records.length ≤ maxRows

/-- The choices of a writer for a table. -/
structure CsvWriting (t : CsvTable) where
  headerLine : CsvLine
  lines : List CsvLine
  finalEnd : Bool
  byteOrderMark : Bool
  header : headerLine.cells.map CsvCell.text = t.header
  records : (lines.map fun l => l.cells.map CsvCell.text) = t.records

namespace CsvWriting

variable {t : CsvTable}

def text (w : CsvWriting t) : JsString :=
  (if w.byteOrderMark then [VerdantBond.byteOrderMark] else []) ++
    writeLines w.finalEnd (w.headerLine :: w.lines)

/-- The lines on which the records of the table start. -/
def recordLines (w : CsvWriting t) : List Nat := (startLines 1 (w.headerLine :: w.lines)).tail

end CsvWriting

/-! ## The machine on what is written -/

variable {s : CsvState} {rest : JsString} {lines : List CsvLine} {u : CodeUnit}

theorem splitLoop_step {s' : CsvState} {ch : CodeUnit} {text : JsString} {two : Bool}
    (h : csvStep s ch text.head? = (s', two)) :
    splitLoop false (ch :: text) s = splitLoop two text s' := by
  rw [splitLoop, h]

/-- Units that are not special are read as they are. -/
theorem loop_plain {cell : JsString} (h : ∀ u ∈ cell, ¬ IsSpecial u) (rest : JsString)
    (hs : s.inQuotes = false) :
    splitLoop false (cell ++ rest) s = splitLoop false rest { s with field := s.field ++ cell } := by
  induction cell generalizing s with
  | nil => simp
  | cons u cell ih =>
      have hu := h u mem_cons_self
      simp only [IsSpecial, not_or] at hu
      have hstep : ∀ next, csvStep s u next = ({ s with field := s.field ++ [u] }, false) := by
        intro next
        simp [csvStep, hs, hu]
      rw [cons_append, splitLoop_step (hstep _), ih (fun v hv => h v (mem_cons_of_mem _ hv))
        (by exact hs)]
      simp

/-- A quoted cell from its first unit to its closing quote. -/
theorem loop_quoted (cell : JsString) (hrest : rest.head? ≠ some quoteMark) (hs : s.inQuotes = true) :
    splitLoop false (doubleQuotes cell ++ quoteMark :: rest) s =
      splitLoop false rest { s with
        field := s.field ++ cell
        inQuotes := false
        line := s.line + (doubleQuotes cell).count lineFeed } := by
  induction cell generalizing s with
  | nil =>
      have hstep : csvStep s quoteMark rest.head? = ({ s with inQuotes := false }, false) := by
        simp [csvStep, hs, hrest]
      rw [doubleQuotes, nil_append, splitLoop_step hstep]
      simp
  | cons u cell ih =>
      by_cases hu : u = quoteMark
      · subst hu
        have hstep : csvStep s quoteMark (some quoteMark) =
            ({ s with field := s.field ++ [quoteMark] }, true) := by simp [csvStep, hs]
        have hcount : (doubleQuotes (quoteMark :: cell)).count lineFeed =
            (doubleQuotes cell).count lineFeed := by
          rw [doubleQuotes, if_pos rfl, count_cons_of_ne (by decide),
            count_cons_of_ne (by decide)]
        rw [hcount, doubleQuotes, if_pos rfl, cons_append, cons_append, splitLoop_step hstep,
          splitLoop, ih (by exact hs)]
        simp
      · have hstep : ∀ next, csvStep s u next =
            ({ s with line := if u = lineFeed then s.line + 1 else s.line, field := s.field ++ [u] },
              false) := by
          intro next
          simp [csvStep, hs, hu]
        have hcount : (if u = lineFeed then s.line + 1 else s.line) +
            (doubleQuotes cell).count lineFeed =
              s.line + (doubleQuotes (u :: cell)).count lineFeed := by
          rw [doubleQuotes, if_neg hu, count_cons]
          by_cases hlf : u = lineFeed
          · simp [hlf]
            omega
          · simp [hlf]
        rw [← hcount, doubleQuotes, if_neg hu, cons_append, splitLoop_step (hstep _),
          ih (by exact hs)]
        simp

/-- **A cell** is read as its text. -/
theorem loop_cell (c : CsvCell) (hrest : rest.head? ≠ some quoteMark) (hs : s.inQuotes = false)
    (hfield : s.field = []) :
    splitLoop false (writeCell c ++ rest) s =
      splitLoop false rest
        { s with field := c.text, line := s.line + (writeCell c).count lineFeed } := by
  unfold writeCell
  split
  · have hstep : ∀ next, csvStep s quoteMark next = ({ s with inQuotes := true }, false) := by
      intro next
      simp [csvStep, hs, hfield]
    have hcount : (quoteMark :: (doubleQuotes c.text ++ [quoteMark])).count lineFeed =
        (doubleQuotes c.text).count lineFeed := by
      rw [count_cons_of_ne (by decide), count_append]
      rfl
    rw [hcount, cons_append, splitLoop_step (hstep _), append_assoc, singleton_append,
      loop_quoted c.text hrest rfl]
    simp [hfield, hs]
  · rename_i hplain
    have hplain : ∀ u ∈ c.text, ¬ IsSpecial u := by
      intro u hu hspecial
      exact hplain (.inr (any_eq_true.mpr ⟨u, hu, decide_eq_true hspecial⟩))
    have hcount : c.text.count lineFeed = 0 :=
      count_eq_zero.mpr fun hmem => hplain lineFeed hmem (.inr (.inr (.inr rfl)))
    rw [loop_plain hplain rest hs, hcount, hfield]
    simp

/-- **The cells of a line**: all but the last are fields, the last is the field. -/
theorem loop_cells (c : CsvCell) (cs : List CsvCell) (hrest : rest.head? ≠ some quoteMark)
    (hs : s.inQuotes = false) (hfield : s.field = []) :
    splitLoop false (writeCells (c :: cs) ++ rest) s =
      splitLoop false rest { s with
        fields := s.fields ++ ((c :: cs).map CsvCell.text).dropLast
        field := ((c :: cs).map CsvCell.text).getLastD []
        line := s.line + (writeCells (c :: cs)).count lineFeed } := by
  induction cs generalizing c s with
  | nil =>
      rw [writeCells, loop_cell c hrest hs hfield]
      simp
  | cons d cs ih =>
      have hcomma : ∀ (r : CsvState) next, r.inQuotes = false →
          csvStep r comma next = ({ r with fields := r.fields ++ [r.field], field := [] }, false) := by
        intro r next hr
        have hne : comma ≠ quoteMark := by decide
        simp [csvStep, hr, hne]
      have hcount : (writeCells (c :: d :: cs)).count lineFeed =
          (writeCell c).count lineFeed + (writeCells (d :: cs)).count lineFeed := by
        rw [writeCells, count_append, count_cons_of_ne (by decide)]
      rw [hcount, writeCells, append_assoc, cons_append,
        loop_cell c (by simp [comma, quoteMark]) hs hfield, splitLoop_step (hcomma _ _ (by exact hs)),
        ih d (by exact hs) rfl]
      simp [Nat.add_assoc]

theorem loop_lineEnd (crlf : Bool) (rest : JsString) (hs : s.inQuotes = false) :
    splitLoop false (lineEnd crlf ++ rest) s =
      splitLoop false rest { endRecord s with line := s.line + 1, recordLine := s.line + 1 } := by
  cases crlf with
  | true =>
      have hstep : csvStep s carriageReturn (some lineFeed) =
          ({ endRecord s with line := s.line + 1, recordLine := s.line + 1 }, true) := by
        have hquote : carriageReturn ≠ quoteMark := by decide
        have hcomma : carriageReturn ≠ comma := by decide
        simp [csvStep, hs, hquote, hcomma]
      show splitLoop false (carriageReturn :: lineFeed :: rest) s = _
      rw [splitLoop_step hstep, splitLoop]
  | false =>
      have hstep : ∀ next, csvStep s lineFeed next =
          ({ endRecord s with line := s.line + 1, recordLine := s.line + 1 }, false) := by
        intro next
        have hquote : lineFeed ≠ quoteMark := by decide
        have hcomma : lineFeed ≠ comma := by decide
        have hreturn : lineFeed ≠ carriageReturn := by decide
        simp [csvStep, hs, hquote, hcomma, hreturn]
      show splitLoop false (lineFeed :: rest) s = _
      rw [splitLoop_step (hstep _)]

/-- The machine between two lines. -/
def atLine (records : List CsvRecord) (n : Nat) : CsvState := ⟨records, [], [], false, n, n⟩

theorem count_lineEnd (crlf : Bool) : (lineEnd crlf).count lineFeed = 1 := by
  cases crlf <;> decide

theorem head_lineEnd (crlf : Bool) (rest : JsString) :
    (lineEnd crlf ++ rest).head? ≠ some quoteMark := by
  cases crlf <;> simp [lineEnd, lineFeed, carriageReturn, quoteMark]

theorem dropLast_append_getLastD {α : Type} {l : List α} (hl : l ≠ []) (a : α) :
    l.dropLast ++ [l.getLastD a] = l := by
  rw [getLastD_eq_getLast?, getLast?_eq_some_getLast hl, Option.getD_some, dropLast_concat_getLast]

/-- **A line** is read as one record. -/
theorem loop_line {l : CsvLine} (hl : l.cells ≠ []) (rest : JsString) (records : List CsvRecord)
    (n : Nat) :
    splitLoop false (writeLine l ++ rest) (atLine records n) =
      splitLoop false rest
        (atLine (records ++ [⟨n, l.cells.map CsvCell.text⟩]) (n + (writeLine l).count lineFeed)) := by
  obtain ⟨c, cs, hcells⟩ := exists_cons_of_ne_nil hl
  have hfields := dropLast_append_getLastD (l := (c :: cs).map CsvCell.text) (by simp) []
  rw [writeLine, append_assoc, hcells, loop_cells c cs (head_lineEnd l.crlf rest) rfl rfl,
    loop_lineEnd l.crlf rest rfl, count_append, count_lineEnd]
  simp only [atLine, endRecord, nil_append, hfields, Nat.add_assoc]

/-- The records of some lines. -/
def recordsOf (n : Nat) (lines : List CsvLine) : List CsvRecord :=
  List.zipWith (fun line l => ⟨line, l.cells.map CsvCell.text⟩) (startLines n lines) lines

/-- **The lines** are read as their records. -/
theorem lastRecord_lines (finalEnd : Bool) (h : ∀ l ∈ lines, 2 ≤ l.cells.length)
    (records : List CsvRecord) (n : Nat) :
    lastRecord (splitLoop false (writeLines finalEnd lines) (atLine records n)) =
      .ok (records ++ recordsOf n lines) := by
  induction lines generalizing records n with
  | nil => simp [writeLines, splitLoop, lastRecord, atLine, recordsOf, startLines]
  | cons l ls ih =>
      have hl := h l mem_cons_self
      have hne : l.cells ≠ [] := by
        intro hnil
        rw [hnil] at hl
        simp at hl
      cases ls with
      | cons k ls =>
          rw [writeLines, loop_line hne, ih fun m hm => h m (mem_cons_of_mem _ hm)]
          simp [recordsOf, startLines]
      | nil =>
          cases finalEnd with
          | true =>
              have hline := loop_line hne [] records n
              rw [append_nil] at hline
              rw [writeLines, if_pos rfl, hline]
              simp [splitLoop, lastRecord, atLine, recordsOf, startLines]
          | false =>
              obtain ⟨c, cs, hcells⟩ := exists_cons_of_ne_nil hne
              have hcs : cs ≠ [] := by
                rintro rfl
                rw [hcells] at hl
                simp at hl
              have hnil : ([] : JsString).head? ≠ some quoteMark := by simp
              have hread := loop_cells c cs hnil (s := atLine records n) rfl rfl
              rw [append_nil, splitLoop] at hread
              rw [writeLines, if_neg (by decide), hcells, hread, lastRecord, if_neg (by simp [atLine]),
                if_pos (.inr (by simpa [atLine] using length_pos_iff.mpr hcs))]
              have hfields := dropLast_append_getLastD (l := (c :: cs).map CsvCell.text) (by simp) []
              simp only [atLine, endRecord, recordsOf, startLines, hcells, nil_append, hfields,
                zipWith_cons_cons, zipWith_nil_left]

/-! ## The table -/

theorem checkHeader_ok {header seen : List JsString} (hdistinct : header.Nodup)
    (hseen : ∀ name ∈ header, name ∉ seen)
    (hnamed : ∀ name ∈ header, name ≠ [] ∧ name ∉ forbiddenKeys) :
    checkHeader header seen = .ok () := by
  induction header generalizing seen with
  | nil => rfl
  | cons name header ih =>
      rw [nodup_cons] at hdistinct
      have hname := hnamed name mem_cons_self
      rw [checkHeader, if_neg hname.1, if_neg hname.2, if_neg (hseen name mem_cons_self)]
      apply ih hdistinct.2
      · intro other hother
        rw [mem_cons, not_or]
        refine ⟨?_, hseen other (mem_cons_of_mem _ hother)⟩
        rintro rfl
        exact hdistinct.1 hother
      · exact fun other hother => hnamed other (mem_cons_of_mem _ hother)

/-- What `trim` leaves as it is does not start with a blank. -/
theorem not_isBlank_of_trim {s : JsString} (h : trim (u :: s) = u :: s) : ¬ IsBlank u := by
  intro hblank
  have hdrop : ((u :: s).dropWhile IsBlank).length ≤ s.length := by
    rw [dropWhile_cons, if_pos (decide_eq_true hblank)]
    exact (dropWhile_suffix _).length_le
  have hlength := congrArg length h
  rw [trim, length_reverse, length_cons] at hlength
  have hle := (dropWhile_suffix (l := ((u :: s).dropWhile IsBlank).reverse)
    fun u => decide (IsBlank u)).length_le
  rw [length_reverse] at hle
  omega

/-- A record starts with a quote or with its first cell. -/
theorem head_writeCells {c : CsvCell} {s : JsString} (hc : c.text = u :: s) (cs : List CsvCell)
    (rest : JsString) :
    (writeCells (c :: cs) ++ rest).head? = some quoteMark ∨
      (writeCells (c :: cs) ++ rest).head? = some u := by
  have hcell : ∀ more : JsString, (writeCell c ++ more).head? = some quoteMark ∨
      (writeCell c ++ more).head? = some u := by
    intro more
    unfold writeCell
    split
    · exact .inl rfl
    · rw [hc]
      exact .inr rfl
  cases cs with
  | nil => exact hcell rest
  | cons d cs =>
      rw [writeCells, append_assoc]
      exact hcell _

theorem writeLines_eq_append (finalEnd : Bool) (l : CsvLine) (ls : List CsvLine) :
    ∃ rest, writeLines finalEnd (l :: ls) = writeCells l.cells ++ rest := by
  cases ls with
  | nil =>
      cases finalEnd with
      | true => exact ⟨lineEnd l.crlf, rfl⟩
      | false => exact ⟨[], (append_nil _).symm⟩
  | cons k ls => exact ⟨lineEnd l.crlf ++ writeLines finalEnd (k :: ls), append_assoc ..⟩

namespace CsvWriting

variable {t : CsvTable} (w : CsvWriting t)

theorem columns_of_mem : ∀ l ∈ w.headerLine :: w.lines, l.cells.length = t.header.length := by
  intro l hl
  rcases mem_cons.mp hl with rfl | hl
  · rw [← w.header, length_map]
  · have hmem : l.cells.map CsvCell.text ∈ t.records := by
      rw [← w.records]
      exact mem_map_of_mem hl
    rw [← t.rectangular _ hmem, length_map]

/-- Only a byte order mark is taken for one: a header name does not start with it. -/
theorem body_text :
    (if w.text.head? = some VerdantBond.byteOrderMark then w.text.tail else w.text) =
      writeLines w.finalEnd (w.headerLine :: w.lines) := by
  unfold text
  cases w.byteOrderMark with
  | true => rfl
  | false =>
      have hhead : (writeLines w.finalEnd (w.headerLine :: w.lines)).head? ≠
          some VerdantBond.byteOrderMark := by
        have hheader := w.header
        have hcolumns := t.columns.1
        cases hcells : w.headerLine.cells with
        | nil =>
            rw [← hheader, hcells] at hcolumns
            cases hcolumns
        | cons c cs =>
            have hmem : c.text ∈ t.header := by
              rw [← hheader, hcells]
              exact mem_cons_self
            obtain ⟨htrim, hne, -⟩ := t.named _ hmem
            obtain ⟨u, s, hc⟩ := exists_cons_of_ne_nil hne
            rw [hc] at htrim
            have hu : u ≠ VerdantBond.byteOrderMark := by
              rintro rfl
              exact not_isBlank_of_trim htrim (by decide)
            obtain ⟨rest, hrest⟩ := writeLines_eq_append w.finalEnd w.headerLine w.lines
            rw [hrest, hcells]
            rcases head_writeCells hc cs rest with h | h
            · rw [h]
              decide
            · rw [h]
              exact fun heq => hu (Option.some.inj heq)
      exact if_neg hhead

theorem splitRecords_body :
    splitRecords (writeLines w.finalEnd (w.headerLine :: w.lines)) =
      .ok (recordsOf 1 (w.headerLine :: w.lines)) := by
  have hcells : ∀ l ∈ w.headerLine :: w.lines, 2 ≤ l.cells.length := by
    intro l hl
    rw [w.columns_of_mem l hl]
    exact t.columns.1
  exact lastRecord_lines w.finalEnd hcells [] 1

end CsvWriting

theorem recordsOf_cons (n : Nat) (l : CsvLine) (ls : List CsvLine) :
    recordsOf n (l :: ls) =
      ⟨n, l.cells.map CsvCell.text⟩ :: recordsOf (n + (writeLine l).count lineFeed) ls := rfl

theorem length_recordsOf (n : Nat) (lines : List CsvLine) :
    (recordsOf n lines).length = lines.length := by
  induction lines generalizing n with
  | nil => rfl
  | cons l ls ih => rw [recordsOf_cons, length_cons, length_cons, ih]

/-- A record of two or more fields is not blank. -/
theorem filter_recordsOf (h : ∀ l ∈ lines, 2 ≤ l.cells.length) (n : Nat) :
    (recordsOf n lines).filter (fun r => ¬ (r.fields.length = 1 ∧ r.fields[0]? = some [])) =
      recordsOf n lines := by
  induction lines generalizing n with
  | nil => rfl
  | cons l ls ih =>
      have hl : ¬ ((l.cells.map CsvCell.text).length = 1 ∧
          (l.cells.map CsvCell.text)[0]? = some []) := by
        have := h l mem_cons_self
        rw [length_map]
        omega
      rw [recordsOf_cons, filter_cons, if_pos (decide_eq_true hl),
        ih fun k hk => h k (mem_cons_of_mem _ hk)]

/-- Records with all columns become rows. -/
theorem map_parseRecord {header : List JsString} (h : ∀ l ∈ lines, l.cells.length = header.length)
    (n : Nat) :
    (recordsOf n lines).map (parseRecord header) =
      zipWith (fun line cells => ⟨line, some (header.zip (cells.map cellValue)), none⟩)
        (startLines n lines) (lines.map fun l => l.cells.map CsvCell.text) := by
  induction lines generalizing n with
  | nil => rfl
  | cons l ls ih =>
      have hl := h l mem_cons_self
      have hrow : parseRecord header ⟨n, l.cells.map CsvCell.text⟩ =
          ⟨n, some (header.zip ((l.cells.map CsvCell.text).map cellValue)), none⟩ := by
        rw [parseRecord, if_neg (by simp [hl])]
      rw [recordsOf_cons, map_cons, hrow, ih fun k hk => h k (mem_cons_of_mem _ hk)]
      rfl

/-- **CSV parsing inverts RFC 4180 writing.** For every table and all choices of a writer, within the
payload limit, the parser returns one row for each record, in order, with the line on which the record
starts and with the cells as they were, `null` for an empty one. -/
theorem csv_round_trip (t : CsvTable) (w : CsvWriting t)
    (hsize : (utf8Bytes w.text).length ≤ maxPayloadBytes) :
    parseCsv w.text =
      .ok (List.zipWith (fun line cells => ⟨line, some (t.header.zip (cells.map cellValue)), none⟩)
        w.recordLines t.records) := by
  have hcolumns : ∀ l ∈ w.lines, l.cells.length = t.header.length := fun l hl =>
    w.columns_of_mem l (mem_cons_of_mem _ hl)
  have hheader : (w.headerLine.cells.map CsvCell.text).map trim = t.header := by
    rw [w.header]
    exact (map_congr_left fun name hname => (t.named name hname).1).trans (map_id _)
  have hcheck : checkHeader t.header [] = .ok () :=
    checkHeader_ok t.distinct (by simp) fun name hname => (t.named name hname).2
  have hrows : w.lines.length ≤ maxRows := by
    have hlength := congrArg length w.records
    rw [length_map] at hlength
    exact hlength ▸ t.rows
  have hcells : ∀ l ∈ w.lines, 2 ≤ l.cells.length := fun l hl => (hcolumns l hl).symm ▸ t.columns.1
  have hfilter := filter_recordsOf hcells
  unfold parseCsv
  rw [if_neg (not_lt.mpr hsize), w.body_text]
  simp only [w.splitRecords_body, recordsOf_cons, hheader, if_neg (not_lt.mpr t.columns.2), hcheck,
    hfilter, length_recordsOf, if_neg (not_lt.mpr hrows), map_parseRecord hcolumns, w.records]
  rfl

/-- A table with a quoted cell of two lines and an empty cell. -/
def sampleTable : CsvTable where
  header := [js "id", js "note"]
  records := [[js "a", js "one\ntwo"], [js "b", []]]
  columns := by decide
  distinct := by decide
  named := by decide
  rectangular := by decide
  rows := by decide

def sampleWriting : CsvWriting sampleTable where
  headerLine := ⟨[⟨js "id", false⟩, ⟨js "note", true⟩], true⟩
  lines := [⟨[⟨js "a", false⟩, ⟨js "one\ntwo", false⟩], false⟩, ⟨[⟨js "b", false⟩, ⟨[], true⟩], false⟩]
  finalEnd := false
  byteOrderMark := true
  header := rfl
  records := rfl

theorem csv_round_trip_sample :
    parseCsv sampleWriting.text =
      .ok [⟨2, some [(js "id", some (js "a")), (js "note", some (js "one\ntwo"))], none⟩,
        ⟨4, some [(js "id", some (js "b")), (js "note", none)], none⟩] :=
  csv_round_trip sampleTable sampleWriting (by decide +kernel)

end VerdantBond
