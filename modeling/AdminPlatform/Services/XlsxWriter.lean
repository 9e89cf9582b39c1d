import AdminPlatform.Core.Security

/-! # The xlsx writer

`app/services/xlsx_writer.py`: a metadata sheet and a data sheet, the data rows buffered on
their way into the sheet. A sheet is the list of the rows appended to it, and appending a row
binds its cells: the first one that openpyxl refuses ends the writer (`writeExportXlsx_eq`). -/

namespace AdminPlatform
open AdminPlatform.Lib

namespace XlsxWriter

/-- `_CELL_CHUNK`. -/
def cellChunk : Nat := 500

/-- A value of a model's field; `None` is the JSON value `null`. -/
inductive Value
  | datetime (value : Datetime)
  | uuid (value : Uuid)
  | json (value : Json)

/-! ## Cells -/

mutual
/-- `json.dumps(value)`, which separates with `", "` and `": "`. -/
def dumps : Json → List Char
  | .arr xs => '[' :: dumpsItems xs
  | .obj kvs => '{' :: dumpsFields kvs
  | value => value.render

def dumpsItems : List Json → List Char
  | [] => [']']
  | x :: xs => dumps x ++ dumpsMoreItems xs

def dumpsMoreItems : List Json → List Char
  | [] => [']']
  | x :: xs => ',' :: ' ' :: (dumps x ++ dumpsMoreItems xs)

def dumpsFields : List (String × Json) → List Char
  | [] => ['}']
  | (k, v) :: kvs => Json.quote k ++ ':' :: ' ' :: (dumps v ++ dumpsMoreFields kvs)

def dumpsMoreFields : List (String × Json) → List Char
  | [] => ['}']
  | (k, v) :: kvs =>
      ',' :: ' ' :: (Json.quote k ++ ':' :: ' ' :: (dumps v ++ dumpsMoreFields kvs))
end

/-- Coerce a model value into an xlsx-safe cell value. -/
def cell : Value → Json
  | .json .null => .str ""
  | .datetime value => .str value.isoformat
  | .uuid value => .str value.str
  | .json (.arr xs) => .str (String.ofList (dumps (.arr xs)))
  | .json (.obj kvs) => .str (String.ofList (dumps (.obj kvs)))
  | .json value => value

/-! ## Sheets -/

/-- A sheet as it is handed to openpyxl, and as openpyxl stores it. -/
structure Sheet (Cell : Type) where
  title : String
  rows : List (List Cell)

section Bind
variable (bind : Json → Option StoredCell)

/-- Append rows one after another, cell by cell. -/
def appendRows (sheet : List (List StoredCell)) (rows : List (List Json)) :
    Option (List (List StoredCell)) := do
  let stored ← rows.mapM fun row => row.mapM bind
  return sheet ++ stored

/-- The count, the buffer and the rows of the data sheet. -/
structure Buffered where
  count : Nat
  buffer : List (List Json)
  sheet : List (List StoredCell)

/-- One turn of the loop over the rows: a buffer of `limit` rows is emptied into the sheet. -/
def Buffered.add (limit : Nat) (b : Buffered) (row : List Value) : Option Buffered := do
  let buffer := b.buffer ++ [row.map cell]
  if limit ≤ buffer.length then
    let sheet ← appendRows bind b.sheet buffer
    return { count := b.count + 1, buffer := [], sheet := sheet }
  else return { count := b.count + 1, buffer := buffer, sheet := b.sheet }

/-- Write the rows; the number of data rows comes with the sheets. -/
def writeExportXlsx (metadata : List (String × Value)) (metadataSheet dataSheet : String)
    (headers : List String) (rows : List (List Value)) :
    Option (List (Sheet StoredCell) × Nat) := do
  let metaWs ← appendRows bind [] [[.str "Field", .str "Value"]]
  let metaWs ← appendRows bind metaWs (metadata.map fun field => [.str field.1, cell field.2])
  let dataWs ← appendRows bind [] [headers.map .str]
  let written ← rows.foldlM (Buffered.add bind cellChunk)
    { count := 0, buffer := [], sheet := dataWs }
  let dataWs ← appendRows bind written.sheet written.buffer
  return ([{ title := metadataSheet, rows := metaWs }, { title := dataSheet, rows := dataWs }],
    written.count)

/-! ## What the writer writes -/

/-- The sheets with the rows in their order, as they are handed to openpyxl. -/
def sheets (metadata : List (String × Value)) (metadataSheet dataSheet : String)
    (headers : List String) (rows : List (List Value)) : List (Sheet Json) :=
  [{ title := metadataSheet
     rows := [.str "Field", .str "Value"] ::
       metadata.map fun field => [.str field.1, cell field.2] },
    { title := dataSheet, rows := headers.map .str :: rows.map (List.map cell) }]

/-- Bind the cells of a sheet. -/
def bindSheet (sheet : Sheet Json) : Option (Sheet StoredCell) := do
  let rows ← appendRows bind [] sheet.rows
  return { title := sheet.title, rows := rows }

variable {bind}

theorem appendRows_append (sheet : List (List StoredCell)) (rows more : List (List Json)) :
    appendRows bind sheet (rows ++ more) =
      (appendRows bind sheet rows).bind fun sheet => appendRows bind sheet more := by
  simp only [appendRows, List.mapM_append]
  cases rows.mapM fun row => row.mapM bind with
  | none => rfl
  | some stored =>
      cases more.mapM fun row => row.mapM bind with
      | none => rfl
      | some stored' => simp

/-- What the loop keeps: the rows so far are in the sheet or in the buffer, as cells. -/
theorem foldlM_add (limit : Nat) (rows : List (List Value)) (b : Buffered) :
    ((rows.foldlM (Buffered.add bind limit) b).bind fun written =>
        (appendRows bind written.sheet written.buffer).map fun dataWs => (dataWs, written.count)) =
      (appendRows bind b.sheet (b.buffer ++ rows.map (List.map cell))).map fun dataWs =>
        (dataWs, b.count + rows.length) := by
  induction rows generalizing b with
  | nil => simp
  | cons row rows ih =>
      have hsplit : b.buffer ++ (row :: rows).map (List.map cell) =
          (b.buffer ++ [row.map cell]) ++ rows.map (List.map cell) := by simp
      have hcount : b.count + (row :: rows).length = b.count + 1 + rows.length := by
        rw [List.length_cons, Nat.add_right_comm, Nat.add_assoc]
      rw [hsplit, hcount, List.foldlM_cons, Buffered.add]
      by_cases hfull : limit ≤ (b.buffer ++ [row.map cell]).length
      · -- the buffer is full: its rows are bound now
        rw [if_pos hfull, appendRows_append b.sheet (b.buffer ++ [row.map cell])]
        cases appendRows bind b.sheet (b.buffer ++ [row.map cell]) with
        | none => rfl
        | some sheet => exact ih { count := b.count + 1, buffer := [], sheet := sheet }
      · rw [if_neg hfull]
        exact ih { count := b.count + 1, buffer := b.buffer ++ [row.map cell], sheet := b.sheet }

/-- **The writer writes every row**, in order and below the headers, and counts them, unless
openpyxl refuses a cell. -/
theorem writeExportXlsx_eq (metadata : List (String × Value)) (metadataSheet dataSheet : String)
    (headers : List String) (rows : List (List Value)) :
    writeExportXlsx bind metadata metadataSheet dataSheet headers rows =
      ((sheets metadata metadataSheet dataSheet headers rows).mapM (bindSheet bind)).map
        fun stored => (stored, rows.length) := by
  have hmeta : ∀ fields : List (List Json), (appendRows bind [] [[.str "Field", .str "Value"]]).bind
      (fun metaWs => appendRows bind metaWs fields) =
        appendRows bind [] ([.str "Field", .str "Value"] :: fields) :=
    fun fields => (appendRows_append [] [_] fields).symm
  have hdata : (appendRows bind [] [headers.map .str]).bind (fun dataWs =>
      (rows.foldlM (Buffered.add bind cellChunk) { count := 0, buffer := [], sheet := dataWs }).bind
        fun written => (appendRows bind written.sheet written.buffer).map
          fun dataWs => (dataWs, written.count)) =
        (appendRows bind [] (headers.map .str :: rows.map (List.map cell))).map
          fun dataWs => (dataWs, rows.length) := by
    rw [show headers.map Json.str :: rows.map (List.map cell) =
      [headers.map .str] ++ rows.map (List.map cell) from rfl, appendRows_append]
    cases appendRows bind [] [headers.map Json.str] with
    | none => rfl
    | some dataWs =>
        have hfold := @foldlM_add bind cellChunk rows { count := 0, buffer := [], sheet := dataWs }
        simpa using hfold
  calc writeExportXlsx bind metadata metadataSheet dataSheet headers rows
    _ = (appendRows bind [] ([.str "Field", .str "Value"] ::
          metadata.map fun field => [.str field.1, cell field.2])).bind fun metaWs =>
        ((appendRows bind [] (headers.map .str :: rows.map (List.map cell))).map
          fun dataWs => (dataWs, rows.length)).map fun data =>
            ([{ title := metadataSheet, rows := metaWs }, { title := dataSheet, rows := data.1 }],
              data.2) := by
      rw [← hmeta, ← hdata]
      simp [writeExportXlsx, Option.bind_assoc, Option.map_eq_bind]
    _ = _ := by
      simp only [sheets, List.mapM_cons, List.mapM_nil, bindSheet]
      cases appendRows bind [] ([.str "Field", .str "Value"] ::
          metadata.map fun field => [.str field.1, cell field.2]) with
      | none => rfl
      | some metaWs =>
          cases appendRows bind [] (headers.map .str :: rows.map (List.map cell)) <;> rfl

/-- A map that may fail succeeds exactly with what corresponds to its list. -/
theorem mapM_eq_some_iff {α β : Type} {f : α → Option β} {l : List α} {m : List β} :
    l.mapM f = some m ↔ List.Forall₂ (fun a b => f a = some b) l m := by
  induction l generalizing m with
  | nil => simp [eq_comm]
  | cons a l ih =>
      rw [List.mapM_cons, List.forall₂_cons_left_iff]
      constructor
      · intro h
        obtain ⟨b, hb, h⟩ := Option.bind_eq_some_iff.mp h
        obtain ⟨bs, hbs, h⟩ := Option.bind_eq_some_iff.mp h
        exact ⟨b, bs, hb, ih.mp hbs, (Option.some.inj h).symm⟩
      · rintro ⟨b, bs, hb, hbs, rfl⟩
        rw [hb, ih.mpr hbs]
        rfl

theorem isSome_mapM_iff {α β : Type} {f : α → Option β} {l : List α} :
    (l.mapM f).isSome = true ↔ ∀ a ∈ l, (f a).isSome = true := by
  induction l with
  | nil => simp
  | cons a l ih =>
      rw [List.mapM_cons, List.forall_mem_cons, ← ih]
      cases f a <;> cases l.mapM f <;> simp

variable (bind) in
/-- Every cell of the sheet is stored as openpyxl binds it. -/
structure Bound (sheet : Sheet Json) (stored : Sheet StoredCell) : Prop where
  title : stored.title = sheet.title
  rows : List.Forall₂ (List.Forall₂ fun v c => bind v = some c) sheet.rows stored.rows

variable (bind) in
/-- openpyxl takes every cell of the sheets. -/
def Accepted (sheets : List (Sheet Json)) : Prop :=
  ∀ sheet ∈ sheets, ∀ row ∈ sheet.rows, ∀ v ∈ row, (bind v).isSome = true

theorem bindSheet_eq_some_iff {sheet : Sheet Json} {stored : Sheet StoredCell} :
    bindSheet bind sheet = some stored ↔ Bound bind sheet stored := by
  have hrows : ∀ rows, appendRows bind [] sheet.rows = some rows ↔
      List.Forall₂ (List.Forall₂ fun v c => bind v = some c) sheet.rows rows := by
    intro rows
    simp [appendRows, mapM_eq_some_iff]
  constructor
  · intro h
    obtain ⟨rows, hstored, h⟩ := Option.bind_eq_some_iff.mp h
    obtain rfl := Option.some.inj h
    exact ⟨rfl, (hrows rows).mp hstored⟩
  · rintro ⟨htitle, hbound⟩
    rw [bindSheet, (hrows _).mpr hbound, ← htitle]
    rfl

section Write
variable {metadata : List (String × Value)} {metadataSheet dataSheet : String}
  {headers : List String} {rows : List (List Value)}

/-- **What the writer stores**, and what it returns. -/
theorem writeExportXlsx_eq_some_iff {stored : List (Sheet StoredCell)} {count : Nat} :
    writeExportXlsx bind metadata metadataSheet dataSheet headers rows = some (stored, count) ↔
      count = rows.length ∧
        List.Forall₂ (Bound bind) (sheets metadata metadataSheet dataSheet headers rows) stored := by
  rw [writeExportXlsx_eq, Option.map_eq_some_iff]
  simp only [mapM_eq_some_iff, bindSheet_eq_some_iff, Prod.mk.injEq]
  constructor
  · rintro ⟨_, hbound, rfl, rfl⟩
    exact ⟨rfl, hbound⟩
  · rintro ⟨rfl, hbound⟩
    exact ⟨stored, hbound, rfl, rfl⟩

/-- **When the writer comes to its end.** -/
theorem isSome_writeExportXlsx_iff :
    (writeExportXlsx bind metadata metadataSheet dataSheet headers rows).isSome = true ↔
      Accepted bind (sheets metadata metadataSheet dataSheet headers rows) := by
  rw [writeExportXlsx_eq, Option.isSome_map, isSome_mapM_iff]
  refine forall₂_congr fun sheet _ => ?_
  have hrows : (bindSheet bind sheet).isSome = (sheet.rows.mapM (List.mapM bind)).isSome := by
    simp only [bindSheet, appendRows]
    cases sheet.rows.mapM (List.mapM bind) <;> rfl
  rw [hrows, isSome_mapM_iff]
  exact forall₂_congr fun row _ => isSome_mapM_iff

end Write
end Bind

/-! ## openpyxl

Not under the repository; this is what it documents of a cell's value. -/

/-- A control character other than tab, newline and carriage return. -/
def isIllegal (c : Char) : Bool := c.toNat < 32 && !(c ∈ ['\t', '\n', '\r'])

def maxCellLength : Nat := 32767

/-- A text that is read as a formula. -/
def IsFormula (s : String) : Prop := 1 < s.length ∧ s.toList.head? = some '='

instance (s : String) : Decidable (IsFormula s) := by
  unfold IsFormula; infer_instance

/-- `ERROR_CODES`. -/
def errorCodes : List String :=
  ["#NULL!", "#DIV/0!", "#VALUE!", "#REF!", "#NAME?", "#NUM!", "#N/A"]

/-- A text is cut to the length a cell can have. It is refused if it has a control character,
and is a formula if it starts with an equals sign, or an error value if it is one of Excel. -/
def bindCell : Json → Option StoredCell
  | .str s =>
      let text := String.ofList (s.toList.take maxCellLength)
      if text.toList.any isIllegal then none
      else if IsFormula text then some (.formula text)
      else if text ∈ errorCodes then some (.error text)
      else some (.plain (.str text))
  | value => some (.plain value)

end XlsxWriter
end AdminPlatform
