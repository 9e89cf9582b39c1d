import AdminPlatform.Exports.Streaming
import AdminPlatform.Lib.Json.Unambiguous

/-! # What the cells of an export hold

The values of the metadata and of the rows go through `cell` into the sheets, and from there
into openpyxl, which types each cell by its value: a text may become a formula or an error value,
be refused, or be cut. `faithful_iff` says for which exports and rows every cell is stored as the
text of its value.

Dates, UUIDs and JSON texts are printable ASCII that starts with no equals or number sign, so that
only the length of a JSON text can stand in the way (`storable_dumps_iff`). -/

namespace AdminPlatform
open AdminPlatform.Lib

namespace XlsxWriter

/-! ## What openpyxl stores -/

/-- A text that openpyxl leaves as it is. -/
structure Storable (s : String) : Prop where
  length : s.length ≤ maxCellLength
  legal : ∀ c ∈ s.toList, isIllegal c = false
  noFormula : ¬ IsFormula s
  noError : s ∉ errorCodes

instance (s : String) : Decidable (Storable s) :=
  letI := List.decidableBAll (fun c => isIllegal c = false) s.toList
  decidable_of_iff (s.length ≤ maxCellLength ∧ (∀ c ∈ s.toList, isIllegal c = false) ∧
      ¬ IsFormula s ∧ s ∉ errorCodes)
    ⟨fun ⟨hlength, hlegal, hformula, herror⟩ => ⟨hlength, hlegal, hformula, herror⟩,
      fun h => ⟨h.length, h.legal, h.noFormula, h.noError⟩⟩

/-- A value that is no text, no list and no dictionary. -/
def IsScalar : Json → Prop
  | .null | .bool _ | .int _ | .float _ => True
  | .str _ | .arr _ | .obj _ => False

/-- How openpyxl binds a value to a cell: a text that is too long is cut, one with a control
character is refused, one that starts with an equals sign becomes a formula, and the name of an
error becomes that error. -/
structure Openpyxl (bind : Json → Option StoredCell) : Prop where
  scalar : ∀ v, IsScalar v → bind v = some (.plain v)
  cut : ∀ s : String, maxCellLength < s.length →
    bind (.str s) = bind (.str (String.ofList (s.toList.take maxCellLength)))
  illegal : ∀ s : String, s.length ≤ maxCellLength → (∃ c ∈ s.toList, isIllegal c = true) →
    bind (.str s) = none
  formula : ∀ s : String, s.length ≤ maxCellLength → (∀ c ∈ s.toList, isIllegal c = false) →
    IsFormula s → bind (.str s) = some (.formula s)
  error : ∀ s ∈ errorCodes, bind (.str s) = some (.error s)
  plain : ∀ s : String, Storable s → bind (.str s) = some (.plain (.str s))

section Bind
variable {bind : Json → Option StoredCell}

/-- A text of the allowed length that comes out as plain data is itself, and storable. -/
theorem Openpyxl.plain_inv (h : Openpyxl bind) {s : String} (hlength : s.length ≤ maxCellLength)
    {v : Json} (hplain : bind (.str s) = some (.plain v)) : v = .str s ∧ Storable s := by
  by_cases hillegal : ∃ c ∈ s.toList, isIllegal c = true
  · rw [h.illegal s hlength hillegal] at hplain
    cases hplain
  have hlegal : ∀ c ∈ s.toList, isIllegal c = false := fun c hc =>
    Bool.eq_false_iff.mpr fun htrue => hillegal ⟨c, hc, htrue⟩
  by_cases hformula : IsFormula s
  · rw [h.formula s hlength hlegal hformula] at hplain
    cases hplain
  by_cases herror : s ∈ errorCodes
  · rw [h.error s herror] at hplain
    cases hplain
  have hstorable : Storable s := ⟨hlength, hlegal, hformula, herror⟩
  rw [h.plain s hstorable] at hplain
  cases hplain
  exact ⟨rfl, hstorable⟩

/-- **A text is stored as it is exactly if it is storable.** -/
theorem Openpyxl.bind_str_iff (h : Openpyxl bind) {s : String} :
    bind (.str s) = some (.plain (.str s)) ↔ Storable s := by
  refine ⟨fun hplain => ?_, h.plain s⟩
  by_cases hlength : s.length ≤ maxCellLength
  · exact (h.plain_inv hlength hplain).2
  -- a text that is cut comes out shorter
  · rw [h.cut s (Nat.lt_of_not_le hlength)] at hplain
    have hcut : (String.ofList (s.toList.take maxCellLength)).length ≤ maxCellLength := by
      rw [String.length_ofList]
      exact List.length_take_le _ _
    obtain ⟨hsame, -⟩ := h.plain_inv hcut hplain
    obtain hsame := Json.str.inj hsame
    exact absurd (hsame ▸ hcut) hlength

end Bind

/-- `bindCell` is such an openpyxl. -/
theorem openpyxl_bindCell : Openpyxl bindCell := by
  have htext : ∀ s : String, s.length ≤ maxCellLength →
      String.ofList (s.toList.take maxCellLength) = s := by
    intro s hs
    rw [List.take_of_length_le (by rwa [String.length_toList]), String.ofList_toList]
  refine ⟨?_, ?_, ?_, ?_, ?_, ?_⟩
  · intro v hv
    cases v <;> first | rfl | exact absurd hv id
  · intro s _
    simp only [bindCell, String.toList_ofList, List.take_take, Nat.min_self]
  · intro s hs hillegal
    rw [bindCell, htext s hs]
    exact if_pos (List.any_eq_true.mpr hillegal)
  · intro s hs hlegal hformula
    rw [bindCell, htext s hs]
    rw [if_neg (by simpa using hlegal), if_pos hformula]
  · intro s hs
    simp only [errorCodes, List.mem_cons, List.not_mem_nil, or_false] at hs
    rcases hs with rfl | rfl | rfl | rfl | rfl | rfl | rfl <;> rfl
  · intro s hs
    rw [bindCell, htext s hs.length]
    rw [if_neg (by simpa using hs.legal), if_neg hs.noFormula, if_neg hs.noError]

/-! ## Printable texts -/

def Printable (cs : List Char) : Prop := ∀ c ∈ cs, Json.isPrintable c = true

instance (cs : List Char) : Decidable (Printable cs) :=
  List.decidableBAll (fun c => Json.isPrintable c = true) cs

@[simp] theorem printable_nil : Printable [] := nofun

@[simp] theorem printable_cons {c : Char} {cs : List Char} :
    Printable (c :: cs) ↔ Json.isPrintable c = true ∧ Printable cs := List.forall_mem_cons

@[simp] theorem printable_append {cs ds : List Char} :
    Printable (cs ++ ds) ↔ Printable cs ∧ Printable ds := List.forall_mem_append

theorem isIllegal_of_isPrintable {c : Char} (h : Json.isPrintable c = true) :
    isIllegal c = false := by
  have hle : ' ' ≤ c := of_decide_eq_true (Bool.and_eq_true_iff.mp h).1
  have hnat : 32 ≤ c.toNat := hle
  simp [isIllegal, Nat.not_lt.mpr hnat]

theorem isPrintable_digitChar : ∀ d < 16, Json.isPrintable (Nat.digitChar d) = true := by decide

theorem printable_fixedDigits {b w n : Nat} (hb : 0 < b) (hb16 : b ≤ 16) :
    Printable (fixedDigits b w n) := by
  intro c hc
  obtain ⟨d, hd, rfl⟩ := mem_fixedDigits hb hc
  exact isPrintable_digitChar d (hd.trans_le hb16)

theorem printable_escapeUnit (n : Nat) : Printable (Json.escapeUnit n) := by
  rw [Json.escapeUnit, printable_cons, printable_cons]
  exact ⟨by decide, by decide, printable_fixedDigits (by decide) (by decide)⟩

theorem printable_escapeChar (c : Char) : Printable (Json.escapeChar c) := by
  have hletters : ∀ p ∈ Json.escapes, Json.isPrintable p.2 = true := by decide
  unfold Json.escapeChar
  cases hs : Json.shortEscape c with
  | some e =>
      rw [printable_cons, printable_cons]
      exact ⟨by decide, hletters _ (Json.mem_escapes hs), printable_nil⟩
  | none =>
      dsimp only
      split
      · rename_i hprintable
        simpa using hprintable
      · split
        · exact printable_escapeUnit _
        · rw [printable_append]
          exact ⟨printable_escapeUnit _, printable_escapeUnit _⟩

theorem printable_escapeChars (cs : List Char) : Printable (Json.escapeChars cs) := by
  induction cs with
  | nil =>
      rw [Json.escapeChars, printable_cons]
      exact ⟨by decide, printable_nil⟩
  | cons c cs ih =>
      rw [Json.escapeChars, printable_append]
      exact ⟨printable_escapeChar c, ih⟩

theorem printable_quote (s : String) : Printable (Json.quote s) := by
  rw [Json.quote, printable_cons]
  exact ⟨by decide, printable_escapeChars _⟩

theorem isPrintable_of_isNumberChar {c : Char} (h : isNumberChar c = true) :
    Json.isPrintable c = true := by
  rcases Bool.or_eq_true_iff.mp h with hdigit | hother
  · obtain ⟨hlo, hhi⟩ := Bool.and_eq_true_iff.mp hdigit
    have hlo : (48 : UInt32) ≤ c.val := of_decide_eq_true hlo
    have hhi : c.val ≤ (57 : UInt32) := of_decide_eq_true hhi
    have hspace : ' ' ≤ c := UInt32.le_trans (by decide) hlo
    have htilde : c ≤ '~' := UInt32.le_trans hhi (by decide)
    exact Bool.and_eq_true_iff.mpr ⟨decide_eq_true hspace, decide_eq_true htilde⟩
  · have hall : Printable ['-', '+', '.', 'e', 'I', 'n', 'f', 'i', 't', 'y'] := by decide
    exact hall c (of_decide_eq_true hother)

theorem printable_number {cs : List Char} (h : cs.all isNumberChar = true) : Printable cs :=
  fun c hc => isPrintable_of_isNumberChar (List.all_eq_true.mp h c hc)

mutual
/-- **A JSON text is printable ASCII.** -/
theorem printable_dumps : ∀ v : Json, Printable (dumps v)
  | .null => by decide
  | .bool true => by decide
  | .bool false => by decide
  | .int n => by
      simpa only [dumps, Json.render] using printable_number (Json.intText_number n)
  | .float x => by
      simpa only [dumps, Json.render] using printable_number x.number
  | .str s => by
      simpa only [dumps, Json.render] using printable_quote s
  | .arr xs => by
      rw [dumps, printable_cons]
      exact ⟨by decide, printable_dumpsItems xs⟩
  | .obj kvs => by
      rw [dumps, printable_cons]
      exact ⟨by decide, printable_dumpsFields kvs⟩

theorem printable_dumpsItems : ∀ xs : List Json, Printable (dumpsItems xs)
  | [] => by decide
  | x :: xs => by
      rw [dumpsItems, printable_append]
      exact ⟨printable_dumps x, printable_dumpsMoreItems xs⟩

theorem printable_dumpsMoreItems : ∀ xs : List Json, Printable (dumpsMoreItems xs)
  | [] => by decide
  | x :: xs => by
      rw [dumpsMoreItems, printable_cons, printable_cons, printable_append]
      exact ⟨by decide, by decide, printable_dumps x, printable_dumpsMoreItems xs⟩

theorem printable_dumpsFields : ∀ kvs : List (String × Json), Printable (dumpsFields kvs)
  | [] => by decide
  | (k, v) :: kvs => by
      rw [dumpsFields, printable_append, printable_cons, printable_cons, printable_append]
      exact ⟨printable_quote k, by decide, by decide, printable_dumps v,
        printable_dumpsMoreFields kvs⟩

theorem printable_dumpsMoreFields :
    ∀ kvs : List (String × Json), Printable (dumpsMoreFields kvs)
  | [] => by decide
  | (k, v) :: kvs => by
      rw [dumpsMoreFields, printable_cons, printable_cons, printable_append, printable_cons,
        printable_cons, printable_append]
      exact ⟨by decide, by decide, printable_quote k, by decide, by decide, printable_dumps v,
        printable_dumpsMoreFields kvs⟩
end

/-- A text that starts like no formula and no error value. -/
def Harmless (cs : List Char) : Prop := ∀ c ∈ cs.head?, c ≠ '=' ∧ c ≠ '#'

/-- A harmless text of printable characters. -/
theorem storable_iff_of_printable {cs : List Char} (hprintable : Printable cs)
    (hharmless : Harmless cs) : Storable (String.ofList cs) ↔ cs.length ≤ maxCellLength := by
  constructor
  · intro h
    simpa using h.length
  · intro h
    refine ⟨by simpa using h, fun c hc => ?_, fun hformula => ?_, fun herror => ?_⟩
    · rw [String.toList_ofList] at hc
      exact isIllegal_of_isPrintable (hprintable c hc)
    · exact (hharmless '=' (by simpa using hformula.2)).1 rfl
    · have hhash : ∀ s ∈ errorCodes, s.toList.head? = some '#' := by decide
      exact (hharmless '#' (by simpa using hhash _ herror)).2 rfl

/-- **How a JSON text starts.** -/
theorem harmless_dumps (v : Json) : Harmless (dumps v) := by
  have hlead : ∀ v : Json, Harmless v.render := by
    intro v c hc
    have hhead : v.render.head? = some c := hc
    cases v with
    | int n =>
        obtain ⟨d, t, htext, hstart⟩ := Json.intText_starts n
        rw [Json.render, htext] at hhead
        obtain rfl := Option.some.inj hhead
        constructor <;> rintro rfl <;> exact absurd hstart (by decide)
    | float x =>
        obtain ⟨d, t, htext, hstart⟩ := Json.floatText_starts x
        rw [Json.render, htext] at hhead
        obtain rfl := Option.some.inj hhead
        constructor <;> rintro rfl <;> exact absurd hstart (by decide)
    | bool b =>
        cases b <;> simp only [Json.render] at hhead <;> obtain rfl := Option.some.inj hhead <;>
          decide
    | _ =>
        simp only [Json.render, Json.quote] at hhead
        obtain rfl := Option.some.inj hhead
        decide
  cases v with
  | arr xs =>
      rintro c hc
      obtain rfl := Option.some.inj hc
      decide
  | obj kvs =>
      rintro c hc
      obtain rfl := Option.some.inj hc
      decide
  | _ => simpa only [dumps] using hlead _

theorem storable_dumps_iff (v : Json) :
    Storable (String.ofList (dumps v)) ↔ (dumps v).length ≤ maxCellLength :=
  storable_iff_of_printable (printable_dumps v) (harmless_dumps v)

/-- A short text of digits and a few other characters. -/
theorem storable_of_chars {cs : List Char} (others : List Char) (hlength : cs.length ≤ maxCellLength)
    (hothers : Printable others ∧ '=' ∉ others ∧ '#' ∉ others)
    (hchars : ∀ c ∈ cs, c ∈ others ∨ ∃ d < 16, c = Nat.digitChar d) :
    Storable (String.ofList cs) := by
  have hdigits : ∀ d < 16, Nat.digitChar d ≠ '=' ∧ Nat.digitChar d ≠ '#' := by decide
  obtain ⟨hprintable, hequals, hhash⟩ := hothers
  refine (storable_iff_of_printable (fun c hc => ?_) fun c hc => ?_).mpr hlength
  · rcases hchars c hc with hother | ⟨d, hd, rfl⟩
    · exact hprintable c hother
    · exact isPrintable_digitChar d hd
  · rcases hchars c (List.mem_of_mem_head? hc) with hother | ⟨d, hd, rfl⟩
    · exact ⟨fun h => hequals (h ▸ hother), fun h => hhash (h ▸ hother)⟩
    · exact hdigits d hd

theorem storable_uuid (u : Uuid) : Storable u.str := by
  refine storable_of_chars ['-'] (by rw [u.length_chars]; decide) (by decide) fun c hc => ?_
  exact (Uuid.mem_chars hc).imp_left List.mem_singleton.mpr

theorem mem_fraction {us : Nat} {c : Char} (h : c ∈ Datetime.fraction us) :
    c = '.' ∨ ∃ d < 10, c = Nat.digitChar d := by
  unfold Datetime.fraction at h
  split at h
  · cases h
  · exact (List.mem_cons.mp h).imp_right (mem_fixedDigits (by decide))

theorem mem_datetime_str {t : Datetime} {c : Char} (h : c ∈ t.str) :
    c ∈ ['-', ' ', ':', '.'] ∨ ∃ d < 10, c = Nat.digitChar d := by
  simp only [Datetime.str, List.mem_append, List.mem_cons] at h
  rcases h with h | rfl | h | rfl | h | rfl | h | rfl | h | rfl | h | h
  · exact .inr (mem_fixedDigits (by decide) h)
  · exact .inl (by decide)
  · exact .inr (mem_fixedDigits (by decide) h)
  · exact .inl (by decide)
  · exact .inr (mem_fixedDigits (by decide) h)
  · exact .inl (by decide)
  · exact .inr (mem_fixedDigits (by decide) h)
  · exact .inl (by decide)
  · exact .inr (mem_fixedDigits (by decide) h)
  · exact .inl (by decide)
  · exact .inr (mem_fixedDigits (by decide) h)
  · rcases mem_fraction h with rfl | hdigit
    · exact .inl (by decide)
    · exact .inr hdigit

theorem storable_isoformat (t : Datetime) : Storable t.isoformat := by
  refine storable_of_chars ['-', 'T', ':', '.'] ?_ (by decide) fun c hc => ?_
  · have hfraction : (Datetime.fraction t.microsecond).length ≤ 7 := by
      unfold Datetime.fraction
      split <;> simp
    have hlength : t.str.length = 19 + (Datetime.fraction t.microsecond).length := by
      simp [Datetime.str]
      omega
    rw [List.length_map, hlength]
    exact (Nat.add_le_add_left hfraction 19).trans (by decide)
  · obtain ⟨d, hd, rfl⟩ := List.mem_map.mp hc
    rcases mem_datetime_str hd with hother | ⟨n, hn, rfl⟩
    · have hall : ['-', ' ', ':', '.'].all (fun c =>
          decide ((if c = ' ' then 'T' else c) ∈ ['-', 'T', ':', '.'])) = true := by decide
      exact .inl (of_decide_eq_true (List.all_eq_true.mp hall d hother))
    · have hspace : ∀ n < 10, Nat.digitChar n ≠ ' ' := by decide
      rw [if_neg (hspace n hn)]
      exact .inr ⟨n, by omega, rfl⟩

/-! ## Values that are stored as they are -/

/-- A text is storable, and a list or a dictionary has a text that is not too long. -/
def StorableValue : Value → Prop
  | .json (.str s) => Storable s
  | .json (.arr xs) => (dumps (.arr xs)).length ≤ maxCellLength
  | .json (.obj kvs) => (dumps (.obj kvs)).length ≤ maxCellLength
  | _ => True

instance (v : Value) : Decidable (StorableValue v) := by
  unfold StorableValue; split <;> infer_instance

/-- A stored cell has the text of a value: nothing for `None`, the ISO text of a date, the text
of a UUID, the JSON text of a list or a dictionary, and the value itself otherwise. -/
inductive HasText : Value → StoredCell → Prop
  | none : HasText (.json .null) (.plain (.str ""))
  | datetime (t : Datetime) : HasText (.datetime t) (.plain (.str t.isoformat))
  | uuid (u : Uuid) : HasText (.uuid u) (.plain (.str u.str))
  | list (xs : List Json) :
      HasText (.json (.arr xs)) (.plain (.str (String.ofList (dumps (.arr xs)))))
  | dict (kvs : List (String × Json)) :
      HasText (.json (.obj kvs)) (.plain (.str (String.ofList (dumps (.obj kvs)))))
  | str (s : String) : HasText (.json (.str s)) (.plain (.str s))
  | bool (b : Bool) : HasText (.json (.bool b)) (.plain (.bool b))
  | int (n : Int) : HasText (.json (.int n)) (.plain (.int n))
  | float (x : FloatText) : HasText (.json (.float x)) (.plain (.float x))

theorem hasText_iff {v : Value} {c : StoredCell} : HasText v c ↔ c = .plain (cell v) := by
  constructor
  · rintro ⟨⟩ <;> rfl
  · rintro rfl
    match v with
    | .datetime t => exact .datetime t
    | .uuid u => exact .uuid u
    | .json .null => exact .none
    | .json (.arr xs) => exact .list xs
    | .json (.obj kvs) => exact .dict kvs
    | .json (.str s) => exact .str s
    | .json (.bool b) => exact .bool b
    | .json (.int n) => exact .int n
    | .json (.float x) => exact .float x

section Bind
variable {bind : Json → Option StoredCell}

/-- **Which values keep their text** on their way into a cell. -/
theorem Openpyxl.bind_cell_iff (h : Openpyxl bind) (v : Value) :
    bind (cell v) = some (.plain (cell v)) ↔ StorableValue v := by
  match v with
  | .datetime t => exact h.bind_str_iff.trans (iff_of_true (storable_isoformat t) trivial)
  | .uuid u => exact h.bind_str_iff.trans (iff_of_true (storable_uuid u) trivial)
  | .json .null => exact h.bind_str_iff.trans (iff_of_true (by decide) trivial)
  | .json (.arr xs) => exact h.bind_str_iff.trans (storable_dumps_iff _)
  | .json (.obj kvs) => exact h.bind_str_iff.trans (storable_dumps_iff _)
  | .json (.str s) => exact h.bind_str_iff
  | .json (.bool b) => exact iff_of_true (h.scalar _ trivial) trivial
  | .json (.int n) => exact iff_of_true (h.scalar _ trivial) trivial
  | .json (.float x) => exact iff_of_true (h.scalar _ trivial) trivial

/-- A sheet with every cell as plain data. -/
def plainSheet (sheet : Sheet Json) : Sheet StoredCell where
  title := sheet.title
  rows := sheet.rows.map (List.map .plain)

/-- **Which sheets are stored as plain data**: those all cells of which are. -/
theorem bound_plain_iff {sheet : Sheet Json} : Bound bind sheet (plainSheet sheet) ↔
    ∀ row ∈ sheet.rows, ∀ v ∈ row, bind v = some (.plain v) := by
  have hrows : List.Forall₂ (List.Forall₂ fun v c => bind v = some c) sheet.rows
      (sheet.rows.map (List.map .plain)) ↔
        ∀ row ∈ sheet.rows, ∀ v ∈ row, bind v = some (.plain v) := by
    simp only [List.forall₂_map_right_iff, List.forall₂_same]
  exact ⟨fun h => hrows.mp h.rows, fun h => ⟨rfl, hrows.mpr h⟩⟩

end Bind
end XlsxWriter

/-! ## The cells of an export -/

namespace ExportService
open XlsxWriter

/-- A file keeps the same metadata, the filters as the value their text is written from. -/
theorem metadataValues_eq (env : Env) (now : Instant) (spec : ExportSpec) (entry : Export) :
    metadataValues env now spec entry =
      (metadata env now spec entry).map fun field =>
        (field.1, .json (if field.1 = "Applied Filters" then
          .str (String.ofList (dumps field.2)) else field.2)) := rfl

section Generation
variable (updatedAt : PlatformAdmin → Datetime) (env : Env) (now : Instant) (spec : ExportSpec)
  (entry : Export) (rows : List ExportRow)

/-- The sheets of a file, as they are handed to openpyxl. -/
def handedSheets : List (Sheet Json) :=
  XlsxWriter.sheets (metadataValues env now spec entry) "Metadata" spec.sheetName
    (spec.columns.map Prod.snd) (rows.map (extractRow (getattr updatedAt) spec))

/-- A cell for each field of the metadata and for each column of each row, that has the text of
its value; the headers are as they are. -/
def Faithful (stored : List (Sheet StoredCell)) : Prop :=
  ∃ metadata data,
    stored =
      [{ title := "Metadata", rows := [.plain (.str "Field"), .plain (.str "Value")] :: metadata },
        { title := spec.sheetName
          rows := spec.columns.map (fun column => .plain (.str column.2)) :: data }] ∧
    List.Forall₂ (fun field cells => ∃ c, cells = [.plain (.str field.1), c] ∧ HasText field.2 c)
      (metadataValues env now spec entry) metadata ∧
    List.Forall₂ (List.Forall₂ HasText) (rows.map (extractRow (getattr updatedAt) spec)) data

end Generation

/-- Lists that correspond by a function. -/
theorem forall₂_iff_eq_map {α β : Type} {R : α → β → Prop} {f : α → β}
    (h : ∀ a b, R a b ↔ b = f a) {l : List α} {m : List β} :
    List.Forall₂ R l m ↔ m = l.map f := by
  induction l generalizing m with
  | nil => exact List.forall₂_nil_left_iff
  | cons a l ih =>
      rw [List.forall₂_cons_left_iff, List.map_cons]
      constructor
      · rintro ⟨b, m, hb, hm, rfl⟩
        rw [(h a b).mp hb, ih.mp hm]
      · rintro rfl
        exact ⟨f a, _, (h a _).mpr rfl, ih.mpr rfl, rfl⟩

section Theorem
variable {updatedAt : PlatformAdmin → Datetime} {env : Env} {now : Instant} {spec : ExportSpec}
  {entry : Export} {rows : List ExportRow} {stored : List (Sheet StoredCell)}

/-- A faithful file is the sheets with every cell as plain data. -/
theorem faithful_iff_eq :
    Faithful updatedAt env now spec entry rows stored ↔
      stored = (handedSheets updatedAt env now spec entry rows).map plainSheet := by
  have hfields : ∀ metadata, List.Forall₂
      (fun field cells => ∃ c, cells = [.plain (.str field.1), c] ∧ HasText field.2 c)
      (metadataValues env now spec entry) metadata ↔
      metadata = (metadataValues env now spec entry).map fun field =>
        [StoredCell.plain (.str field.1), .plain (cell field.2)] := by
    intro metadata
    refine forall₂_iff_eq_map fun field cells => ?_
    simp only [hasText_iff, exists_eq_right]
  have hrows : ∀ data, List.Forall₂ (List.Forall₂ HasText)
      (rows.map (extractRow (getattr updatedAt) spec)) data ↔
      data = (rows.map (extractRow (getattr updatedAt) spec)).map
        (List.map fun v => .plain (cell v)) := by
    intro data
    refine forall₂_iff_eq_map (R := List.Forall₂ HasText) fun values cells => ?_
    exact forall₂_iff_eq_map (R := HasText) fun v c => hasText_iff
  have hsheets : (handedSheets updatedAt env now spec entry rows).map plainSheet =
      [{ title := "Metadata"
         rows := [.plain (.str "Field"), .plain (.str "Value")] ::
          (metadataValues env now spec entry).map fun field =>
            [StoredCell.plain (.str field.1), .plain (cell field.2)] },
        { title := spec.sheetName
          rows := spec.columns.map (fun column => .plain (.str column.2)) ::
            (rows.map (extractRow (getattr updatedAt) spec)).map
              (List.map fun v => .plain (cell v)) }] := by
    simp [handedSheets, XlsxWriter.sheets, plainSheet, Function.comp_def]
  rw [hsheets]
  constructor
  · rintro ⟨metadata, data, rfl, hmetadata, hdata⟩
    rw [(hfields metadata).mp hmetadata, (hrows data).mp hdata]
  · rintro rfl
    exact ⟨_, _, rfl, (hfields _).mpr rfl, (hrows _).mpr rfl⟩

/-- What stands in every file is storable. -/
theorem storable_constants {module : String} (h : exportSpecs.lookup module = some spec) :
    Storable spec.label ∧ Storable spec.classification ∧
      ∀ column ∈ spec.columns, Storable column.2 := by
  rcases lookup_exportSpecs h with ⟨-, rfl⟩ | ⟨-, rfl⟩ <;> decide

/-- A faithful file is written exactly if openpyxl stores every cell as plain data. -/
theorem written_faithful_iff :
    (∃ stored, written updatedAt env now spec entry rows = some (stored, rows.length) ∧
        Faithful updatedAt env now spec entry rows stored) ↔
      ∀ sheet ∈ handedSheets updatedAt env now spec entry rows, ∀ row ∈ sheet.rows, ∀ v ∈ row,
        env.openpyxl v = some (.plain v) := by
  simp only [faithful_iff_eq, exists_eq_right, written, writeExportXlsx_eq_some_iff]
  rw [List.length_map, and_iff_right rfl, ← handedSheets, List.forall₂_map_right_iff,
    List.forall₂_same]
  exact forall₂_congr fun sheet _ => bound_plain_iff

/-- **When an export is a faithful file**: exactly if the email it was created by, the reason and
the text columns of its rows are storable as cells, and no JSON text is too long for one. -/
theorem faithful_iff (hopenpyxl : Openpyxl env.openpyxl)
    (hspec : exportSpecs.lookup entry.module = some spec) :
    (∃ stored, written updatedAt env now spec entry rows = some (stored, rows.length) ∧
        Faithful updatedAt env now spec entry rows stored) ↔
      Storable entry.createdBy ∧ Storable entry.reason ∧
        (dumps entry.filters).length ≤ maxCellLength ∧
        ∀ row ∈ rows, ∀ column ∈ spec.columns, StorableValue (getattr updatedAt row column.1) := by
  obtain ⟨hlabel, hclassification, hheaders⟩ := storable_constants hspec
  have hstr : ∀ s, env.openpyxl (.str s) = some (.plain (.str s)) ↔ Storable s := fun _ =>
    hopenpyxl.bind_str_iff
  rw [written_faithful_iff]
  simp only [handedSheets, XlsxWriter.sheets, List.forall_mem_cons, List.forall_mem_map,
    List.not_mem_nil, false_imp_iff, implies_true, and_true, hstr, hopenpyxl.bind_cell_iff,
    metadataValues, extractRow]
  constructor
  · rintro ⟨⟨-, -, -, ⟨-, hcreatedBy⟩, ⟨-, hreason⟩, -, ⟨-, hfilters⟩, -⟩, -, hrows⟩
    exact ⟨hcreatedBy, hreason, (storable_dumps_iff _).mp hfilters, hrows⟩
  · rintro ⟨hcreatedBy, hreason, hfilters, hrows⟩
    have hzone : Storable "UTC (the UI displays IST)" := by decide
    refine ⟨⟨?_, ⟨?_, storable_uuid _⟩, ⟨?_, hlabel⟩, ⟨?_, hcreatedBy⟩, ⟨?_, hreason⟩,
      ⟨?_, hclassification⟩, ⟨?_, (storable_dumps_iff _).mpr hfilters⟩,
      ⟨?_, storable_isoformat _⟩, ⟨?_, hzone⟩, ?_, trivial⟩, hheaders, hrows⟩
    -- the names of the fields
    all_goals decide

/-- Two readings of one row: only the time of its last update may differ. -/
theorem getattr_cases (updatedAt updatedAt' : PlatformAdmin → Datetime) (row : ExportRow)
    (column : String) : getattr updatedAt row column = getattr updatedAt' row column ∨
      ∃ t t', getattr updatedAt row column = .datetime t ∧
        getattr updatedAt' row column = .datetime t' := by
  fun_cases getattr updatedAt row column
  all_goals try exact .inl rfl
  all_goals try exact .inr ⟨_, _, rfl, rfl⟩
  left
  simp only [getattr, *]

/-- **Whether a file is written** does not depend on when an admin was updated last. -/
theorem isSome_written (hopenpyxl : Openpyxl env.openpyxl) :
    (written updatedAt env now spec entry rows).isSome = writable env now spec entry rows := by
  have htime : ∀ t, (env.openpyxl (cell (.datetime t))).isSome = true := fun t => by
    rw [(hopenpyxl.bind_cell_iff (.datetime t)).mpr trivial]
    rfl
  have hcells : ∀ row column,
      (env.openpyxl (cell (getattr updatedAt row column))).isSome =
        (env.openpyxl (cell (getattr (fun row => Instant.datetime row.createdAt) row
          column))).isSome := by
    intro row column
    rcases getattr_cases updatedAt (fun row => Instant.datetime row.createdAt) row column with
      hsame | ⟨t, t', ht, ht'⟩
    · rw [hsame]
    · rw [ht, ht', htime, htime]
  rw [Bool.eq_iff_iff, writable, written, written, isSome_writeExportXlsx_iff,
    isSome_writeExportXlsx_iff]
  simp only [Accepted, XlsxWriter.sheets, List.forall_mem_cons, List.forall_mem_map, extractRow,
    hcells]

end Theorem

/-! ## A formula in a file -/

section Sample
open Administration (sampleEnv)

/-- The login of someone whose client calls itself by this text. -/
def loginFrom (userAgent : String) : Audit.AuditLog where
  actor := none
  actorType := none
  action := AuditAction.loginFailure.value
  resourceType := none
  resourceId := some "nobody@example.com"
  details := .null
  url := some "/api/v1/auth/login"
  payload := .null
  response := .null
  requestId := none
  ipAddress := some "192.0.2.1"
  userAgent := some userAgent
  seq := some 1
  createdAt := Instant.datetime 0
  id := .ofNat 7
  prevHash := none
  entryHash := none

def auditExport : Export where
  id := .ofNat 50
  module := "audit"
  reason := "quarterly review"
  fileFormat := "xlsx"
  classification := "Restricted"
  filters := .obj [("actor", .null)]
  status := .pending
  rowCount := none
  filePath := none
  generationError := none
  expiresAt := none
  createdBy := "admin1@example.com"
  createdAt := 0

theorem faithful_iff_browser :
    ∃ stored, written (fun _ => Instant.datetime 0) sampleEnv 0 auditExportSpec auditExport
        [.audit (loginFrom "Mozilla/5.0")] = some (stored, 1) ∧
      Faithful (fun _ => Instant.datetime 0) sampleEnv 0 auditExportSpec auditExport
        [.audit (loginFrom "Mozilla/5.0")] stored :=
  (faithful_iff openpyxl_bindCell rfl).mpr (by decide +kernel)

/-- The user agent of a request becomes a formula in the file. -/
theorem not_faithful_formula :
    ¬ ∃ stored, written (fun _ => Instant.datetime 0) sampleEnv 0 auditExportSpec auditExport
        [.audit (loginFrom "=1+1")] = some (stored, 1) ∧
      Faithful (fun _ => Instant.datetime 0) sampleEnv 0 auditExportSpec auditExport
        [.audit (loginFrom "=1+1")] stored := by
  intro hfaithful
  have hcell := written_faithful_iff.mp hfaithful _ (List.mem_cons_of_mem _ List.mem_cons_self) _
    (List.mem_cons_of_mem _ List.mem_cons_self) (.str "=1+1") (by decide)
  have hstorable : Storable "=1+1" := openpyxl_bindCell.bind_str_iff.mp hcell
  exact absurd hstorable (by decide)

end Sample

end ExportService
end AdminPlatform
