import Mathlib.Data.List.GetD
import Mathlib.Data.List.Nodup
import Mathlib.Data.List.Sort

/-! # Keyset pagination

The rows of a table that meet a condition, in the order of a key and page by page: a page
holds the first rows after the last row of the page before it, and one that is not full is
the last. The table may change between two queries.

Where rows may come but those that are there keep their keys (`Kept`), the stream ends, its
keys increase strictly, it repeats no row, and a row that meets the condition at every query
is on one of the pages (`Kept.exists_lossless`). On a table that does not
change, the pages together are the sorted table (`flatten_quiet`). -/

namespace AdminPlatform.Lib.Keyset

/-- The loop: fetch the page after the last row seen, and go on as long as pages are full.
`table n` is what the `n`-th query finds. Nothing where the fuel runs out first. -/
def stream {α γ σ : Type} (page : Option γ → σ → List α) (cursor : α → γ) (size : ℕ) :
    ℕ → (ℕ → σ) → Option γ → Option (List (List α))
  | 0, _, _ => none
  | fuel + 1, table, last =>
      let rows := page last (table 0)
      match rows.getLast? with
      | none => some [rows]
      | some row =>
          if rows.length < size then some [rows]
          else
            (stream page cursor size fuel (fun n => table (n + 1)) (some (cursor row))).map
              (rows :: ·)

section Stream
variable {α γ σ : Type} {page : Option γ → σ → List α} {cursor : α → γ} {size fuel : ℕ}
  {table : ℕ → σ} {last : Option γ} {ps : List (List α)}

/-- A row of the stream is on one of its pages. -/
theorem exists_page_of_mem {a : α} (ha : a ∈ ps.flatten) :
    ∃ (n : ℕ) (rows : List α), ps[n]? = some rows ∧ a ∈ rows := by
  obtain ⟨rows, hrows, hin⟩ := List.mem_flatten.mp ha
  obtain ⟨n, hn⟩ := List.getElem?_of_mem hrows
  exact ⟨n, rows, hn, hin⟩

/-- A page that is not full is the last one. -/
theorem stream_last
    (h : (page last (table 0)).length < size ∨ page last (table 0) = []) :
    stream page cursor size (fuel + 1) table last = some [page last (table 0)] := by
  rw [stream]
  split
  · rfl
  · rename_i row hrow
    rcases h with hshort | hnil
    · rw [if_pos hshort]
    · rw [hnil] at hrow
      cases hrow

/-- After a full page the stream goes on. -/
theorem stream_more {row : α} (hrow : (page last (table 0)).getLast? = some row)
    (hfull : size ≤ (page last (table 0)).length) :
    stream page cursor size (fuel + 1) table last =
      (stream page cursor size fuel (fun n => table (n + 1)) (some (cursor row))).map
        (page last (table 0) :: ·) := by
  rw [stream]
  simp only [hrow]
  exact if_neg (not_lt.mpr hfull)

/-- **Inversion of the loop**: the page is the last one, or it is full and the loop goes on
after its last row. -/
theorem stream_succ_inv (h : stream page cursor size (fuel + 1) table last = some ps) :
    (ps = [page last (table 0)] ∧
        ((page last (table 0)).length < size ∨ page last (table 0) = [])) ∨
      ∃ row rest, (page last (table 0)).getLast? = some row ∧
        size ≤ (page last (table 0)).length ∧ ps = page last (table 0) :: rest ∧
        stream page cursor size fuel (fun n => table (n + 1)) (some (cursor row)) = some rest := by
  cases hrow : (page last (table 0)).getLast? with
  | none =>
      have hnil := List.getLast?_eq_none_iff.mp hrow
      rw [stream_last (.inr hnil)] at h
      exact .inl ⟨(Option.some.inj h).symm, .inr hnil⟩
  | some row =>
      rcases lt_or_ge (page last (table 0)).length size with hshort | hfull
      · rw [stream_last (.inl hshort)] at h
        exact .inl ⟨(Option.some.inj h).symm, .inl hshort⟩
      · rw [stream_more hrow hfull] at h
        obtain ⟨rest, hrest, rfl⟩ := Option.map_eq_some_iff.mp h
        exact .inr ⟨row, rest, rfl, hfull, rfl, hrest⟩

theorem length_pos (h : stream page cursor size fuel table last = some ps) : 0 < ps.length := by
  cases fuel with
  | zero => cases h
  | succ fuel =>
      rcases stream_succ_inv h with ⟨rfl, -⟩ | ⟨row, rest, -, -, rfl, -⟩
      · exact Nat.one_pos
      · exact Nat.succ_pos _

/-- A stream that has ended does not need more fuel. -/
theorem stream_mono (h : stream page cursor size fuel table last = some ps) {more : ℕ}
    (hle : fuel ≤ more) : stream page cursor size more table last = some ps := by
  induction fuel generalizing table last ps more with
  | zero => cases h
  | succ fuel ih =>
      obtain ⟨more, rfl⟩ : ∃ m, more = m + 1 := ⟨more - 1, by omega⟩
      rcases stream_succ_inv h with ⟨rfl, hshort⟩ | ⟨row, rest, hrow, hfull, rfl, hrest⟩
      · exact stream_last hshort
      · rw [stream_more hrow hfull, ih hrest (by omega)]
        rfl

/-- The loop sees its pages and cursors only. -/
theorem stream_congr {δ τ : Type} {page' : Option δ → τ → List α} {rank : γ → δ} {read : σ → τ}
    (hpage : ∀ last s, page last s = page' (last.map rank) (read s)) (fuel : ℕ) (table : ℕ → σ)
    (last : Option γ) :
    stream page cursor size fuel table last =
      stream page' (fun a => rank (cursor a)) size fuel (fun n => read (table n))
        (last.map rank) := by
  induction fuel generalizing table last with
  | zero => rfl
  | succ fuel ih =>
      rw [stream, stream, hpage]
      simp only [ih, Option.map_some]

end Stream

/-! ## Pages -/

/-- Sorting sees what its order says, not how that is decided. -/
theorem insertionSort_congr {α : Type} {r r' : α → α → Prop} [DecidableRel r] [DecidableRel r']
    (h : ∀ a b, r a b ↔ r' a b) (l : List α) : l.insertionSort r = l.insertionSort r' := by
  obtain rfl : r = r' := funext₂ fun a b => propext (h a b)
  congr

variable {α κ : Type} [LinearOrder κ]

/-- The rows that meet the condition and come after a key. -/
def beyond (key : α → κ) (keep : α → Bool) (last : Option κ) (t : List α) : List α :=
  t.filter fun a => keep a && last.all (· < key a)

/-- The first `size` of them, in the order of their keys. -/
def page (key : α → κ) (keep : α → Bool) (size : ℕ) (last : Option κ) (t : List α) : List α :=
  ((beyond key keep last t).insertionSort fun a b => key a ≤ key b).take size

section Page
variable {key : α → κ} {keep : α → Bool} {size : ℕ} {last : Option κ} {t : List α} {a : α}

theorem mem_beyond :
    a ∈ beyond key keep last t ↔ a ∈ t ∧ keep a = true ∧ ∀ k ∈ last, k < key a := by
  rw [beyond, List.mem_filter, Bool.and_eq_true]
  cases last <;> simp

theorem mem_of_mem_page (h : a ∈ page key keep size last t) : a ∈ beyond key keep last t :=
  (List.mem_insertionSort _).mp (List.mem_of_mem_take h)

/-- Where no two rows have one key, sorting by it is strict. -/
theorem pairwise_sorted (hnodup : (t.map key).Nodup) :
    ((beyond key keep last t).insertionSort fun a b => key a ≤ key b).Pairwise
      fun a b => key a < key b := by
  have htotal : Std.Total fun a b : α => key a ≤ key b := ⟨fun a b => le_total (key a) (key b)⟩
  have htrans : IsTrans α fun a b => key a ≤ key b := ⟨fun _ _ _ => le_trans⟩
  have hdistinct : ((beyond key keep last t).map key).Nodup :=
    hnodup.sublist (List.filter_sublist.map key)
  have hsorted := List.pairwise_insertionSort (fun a b => key a ≤ key b) (beyond key keep last t)
  have hne : ((beyond key keep last t).insertionSort fun a b => key a ≤ key b).Pairwise
      fun a b => key a ≠ key b := by
    refine List.pairwise_map.mp ?_
    exact ((List.perm_insertionSort _ _).map key).nodup_iff.mpr hdistinct
  exact (hsorted.and hne).imp fun h => lt_of_le_of_ne h.1 h.2

theorem pairwise_page (hnodup : (t.map key).Nodup) :
    (page key keep size last t).Pairwise fun a b => key a < key b :=
  (pairwise_sorted hnodup).sublist (List.take_sublist _ _)

/-- **What a page leaves out**: it is full then, and its rows come before. -/
theorem mem_page_or_full (size : ℕ) (hnodup : (t.map key).Nodup) (h : a ∈ beyond key keep last t) :
    a ∈ page key keep size last t ∨
      ((page key keep size last t).length = size ∧
        ∀ b ∈ page key keep size last t, key b < key a) := by
  have hsorted : ((beyond key keep last t).insertionSort fun a b => key a ≤ key b).Pairwise
      fun a b => key a < key b := pairwise_sorted hnodup
  have ha : a ∈ (beyond key keep last t).insertionSort fun a b => key a ≤ key b :=
    (List.mem_insertionSort _).mpr h
  rw [← List.take_append_drop size ((beyond key keep last t).insertionSort _)] at hsorted ha
  rcases List.mem_append.mp ha with htake | hdrop
  · exact .inl htake
  · refine .inr ⟨?_, fun b hb => (List.pairwise_append.mp hsorted).2.2 b hb a hdrop⟩
    have hrest := List.length_pos_of_mem hdrop
    rw [List.length_drop] at hrest
    rw [page, List.length_take, min_eq_left (by omega)]

/-- The last row of a page has the greatest key. -/
theorem key_le_last {rows : List α} (hrows : rows.Pairwise fun a b => key a < key b) {row : α}
    (hrow : rows.getLast? = some row) (ha : a ∈ rows) : key a ≤ key row := by
  obtain ⟨init, rfl⟩ := List.getLast?_eq_some_iff.mp hrow
  rcases List.mem_append.mp ha with hinit | hlast
  · exact ((List.pairwise_append.mp hrows).2.2 a hinit row (List.mem_singleton_self row)).le
  · rw [List.mem_singleton.mp hlast]

/-- What comes after a row that comes after `last`. -/
theorem beyond_beyond {row : α} (hrow : row ∈ beyond key keep last t) :
    beyond key keep (some (key row)) t = (beyond key keep last t).filter (key row < key ·) := by
  have hlast : ∀ k ∈ last, k < key row := (mem_beyond.mp hrow).2.2
  rw [beyond, beyond, List.filter_filter]
  refine List.filter_congr fun b _ => ?_
  cases last with
  | none => simp [Bool.and_comm]
  | some k =>
      have hk : key row < key b → k < key b := (hlast k rfl).trans
      by_cases hb : key row < key b
      · simp [hb, hk hb]
      · simp [hb]

theorem length_beyond_lt {row : α} (hrow : row ∈ beyond key keep last t) :
    (beyond key keep (some (key row)) t).length < (beyond key keep last t).length := by
  rw [beyond_beyond hrow, List.length_filter_lt_length_iff_exists]
  exact ⟨row, hrow, by simp⟩

end Page

/-! ## Streams -/

section Pages
variable {key : α → κ} {keep : α → Bool} {size fuel : ℕ} {table : ℕ → List α} {last : Option κ}
  {ps : List (List α)}

/-- **The keys increase strictly**, from the first page to the last. -/
theorem stream_increasing (hnodup : ∀ n, ((table n).map key).Nodup)
    (h : stream (page key keep size) key size fuel table last = some ps) :
    (ps.flatten.Pairwise fun a b => key a < key b) ∧
      ∀ a ∈ ps.flatten, ∀ k ∈ last, k < key a := by
  induction fuel generalizing table last ps with
  | zero => cases h
  | succ fuel ih =>
      have hrows : (page key keep size last (table 0)).Pairwise fun a b => key a < key b :=
        pairwise_page (hnodup 0)
      have hbeyond : ∀ a ∈ page key keep size last (table 0), ∀ k ∈ last, k < key a :=
        fun a ha => (mem_beyond.mp (mem_of_mem_page ha)).2.2
      rcases stream_succ_inv h with ⟨rfl, -⟩ | ⟨row, rest, hrow, -, rfl, hrest⟩
      · rw [List.flatten_singleton]
        exact ⟨hrows, hbeyond⟩
      · obtain ⟨hincreasing, hafter⟩ := ih (fun n => hnodup (n + 1)) hrest
        have hstep : ∀ a ∈ page key keep size last (table 0), ∀ b ∈ rest.flatten, key a < key b :=
          fun a ha b hb => (key_le_last hrows hrow ha).trans_lt (hafter b hb _ rfl)
        rw [List.flatten_cons]
        refine ⟨List.pairwise_append.mpr ⟨hrows, hincreasing, hstep⟩, fun a ha k hk => ?_⟩
        rcases List.mem_append.mp ha with hfirst | hlater
        · exact hbeyond a hfirst k hk
        · have hmem := List.mem_of_getLast? hrow
          exact (hbeyond row hmem k hk).trans (hafter a hlater _ rfl)

/-- The rows of the `n`-th page are in the table the `n`-th query finds. -/
theorem stream_sound (h : stream (page key keep size) key size fuel table last = some ps)
    {n : ℕ} {rows : List α} (hn : ps[n]? = some rows) {a : α} (ha : a ∈ rows) :
    a ∈ table n ∧ keep a = true := by
  induction fuel generalizing table last ps n with
  | zero => cases h
  | succ fuel ih =>
      have hfirst : ∀ b ∈ page key keep size last (table 0), b ∈ table 0 ∧ keep b = true :=
        fun b hb => ⟨(mem_beyond.mp (mem_of_mem_page hb)).1, (mem_beyond.mp (mem_of_mem_page hb)).2.1⟩
      rcases stream_succ_inv h with ⟨rfl, -⟩ | ⟨row, rest, hrow, -, rfl, hrest⟩
      · cases n with
        | zero =>
            obtain rfl := Option.some.inj hn
            exact hfirst a ha
        | succ n => cases hn
      · cases n with
        | zero =>
            obtain rfl := Option.some.inj hn
            exact hfirst a ha
        | succ n => exact ih hrest hn

/-- **No row is lost**: a row that is there at every query, whatever else of it changes, is on
one of the pages. -/
theorem stream_complete (hsize : 1 ≤ size) (hnodup : ∀ n, ((table n).map key).Nodup)
    (h : stream (page key keep size) key size fuel table last = some ps) {x : κ}
    (hlast : ∀ k ∈ last, k < x)
    (hx : ∀ n < ps.length, ∃ a ∈ table n, key a = x ∧ keep a = true) :
    ∃ a ∈ ps.flatten, key a = x := by
  induction fuel generalizing table last ps with
  | zero => cases h
  | succ fuel ih =>
      obtain ⟨a, hin, rfl, hkeep⟩ := hx 0 (length_pos h)
      have hbeyond : a ∈ beyond key keep last (table 0) := mem_beyond.mpr ⟨hin, hkeep, hlast⟩
      rcases stream_succ_inv h with ⟨rfl, hend⟩ | ⟨row, rest, hrow, -, rfl, hrest⟩
      · rw [List.flatten_singleton]
        rcases mem_page_or_full size (hnodup 0) hbeyond with hmem | ⟨hfull, -⟩
        · exact ⟨a, hmem, rfl⟩
        -- a full page is not the last one
        · rcases hend with hshort | hnil
          · omega
          · rw [hnil, List.length_nil] at hfull
            omega
      · rw [List.flatten_cons]
        rcases mem_page_or_full size (hnodup 0) hbeyond with hmem | ⟨-, hbefore⟩
        · exact ⟨a, List.mem_append_left _ hmem, rfl⟩
        · have hcursor : ∀ k ∈ some (key row), k < key a := by
            rintro _ ⟨⟩
            exact hbefore row (List.mem_of_getLast? hrow)
          have hlater : ∀ n < rest.length, ∃ b ∈ table (n + 1), key b = key a ∧ keep b = true :=
            fun n hn => hx (n + 1) (Nat.succ_lt_succ hn)
          obtain ⟨b, hb, hkey⟩ := ih (fun n => hnodup (n + 1)) hrest hcursor hlater
          exact ⟨b, List.mem_append_right _ hb, hkey⟩

/-- On a table that does not change, each page brings the stream closer to its end. -/
theorem exists_stream_quiet {t : List α} (hquiet : ∀ n, table n = t)
    (hfuel : (beyond key keep last t).length < fuel) :
    ∃ ps, stream (page key keep size) key size fuel table last = some ps := by
  induction fuel generalizing table last with
  | zero => exact absurd hfuel (Nat.not_lt_zero _)
  | succ fuel ih =>
      by_cases hend : (page key keep size last (table 0)).length < size ∨
          page key keep size last (table 0) = []
      · exact ⟨_, stream_last hend⟩
      · obtain ⟨hfull, hne⟩ := not_or.mp hend
        obtain ⟨row, hrow⟩ := Option.isSome_iff_exists.mp (List.getLast?_isSome.mpr hne)
        have hmem : row ∈ beyond key keep last t :=
          hquiet 0 ▸ mem_of_mem_page (List.mem_of_getLast? hrow)
        have hless := length_beyond_lt hmem
        obtain ⟨rest, hrest⟩ := @ih (fun n => table (n + 1)) (some (key row))
          (fun n => hquiet (n + 1)) (by omega)
        rw [stream_more hrow (not_lt.mp hfull), hrest]
        exact ⟨_, rfl⟩

/-- **The stream ends** once the table no longer changes. -/
theorem exists_stream {m : ℕ} (hsettles : ∀ n, m ≤ n → table n = table m)
    (hfuel : m + (table m).length < fuel) :
    ∃ ps, stream (page key keep size) key size fuel table last = some ps := by
  induction fuel generalizing table last m with
  | zero => exact absurd hfuel (Nat.not_lt_zero _)
  | succ fuel ih =>
      cases m with
      | zero =>
          have hle : (beyond key keep last (table 0)).length ≤ (table 0).length :=
            List.length_filter_le _ _
          exact exists_stream_quiet (fun n => hsettles n (Nat.zero_le n)) (by omega)
      | succ m =>
          by_cases hend : (page key keep size last (table 0)).length < size ∨
              page key keep size last (table 0) = []
          · exact ⟨_, stream_last hend⟩
          · obtain ⟨hfull, hne⟩ := not_or.mp hend
            obtain ⟨row, hrow⟩ := Option.isSome_iff_exists.mp (List.getLast?_isSome.mpr hne)
            obtain ⟨rest, hrest⟩ := @ih (fun n => table (n + 1)) (some (key row)) m
              (fun n hn => hsettles (n + 1) (Nat.succ_le_succ hn)) (by omega)
            rw [stream_more hrow (not_lt.mp hfull), hrest]
            exact ⟨_, rfl⟩

/-- **On a table that does not change**, the pages together are the sorted table. -/
theorem flatten_quiet (hsize : 1 ≤ size) {t : List α} (hnodup : (t.map key).Nodup)
    (h : stream (page key keep size) key size fuel (fun _ => t) none = some ps) :
    ps.flatten = (t.filter keep).insertionSort fun a b => key a ≤ key b := by
  have hall : beyond key keep none t = t.filter keep :=
    List.filter_congr fun _ _ => Bool.and_true _
  have hsorted : ((beyond key keep none t).insertionSort fun a b => key a ≤ key b).Pairwise
      fun a b => key a < key b := pairwise_sorted hnodup
  have hincreasing := (stream_increasing (fun _ => hnodup) h).1
  rw [hall] at hsorted
  have hirrefl : ∀ l : List α, l.Pairwise (fun a b => key a < key b) → l.Nodup := by
    intro l hl
    exact hl.imp fun hlt heq => absurd (congrArg key heq) hlt.ne
  have hperm : ps.flatten.Perm ((t.filter keep).insertionSort fun a b => key a ≤ key b) := by
    refine (List.perm_ext_iff_of_nodup (hirrefl _ hincreasing) (hirrefl _ hsorted)).mpr fun a => ?_
    rw [List.mem_insertionSort, List.mem_filter]
    constructor
    · intro ha
      obtain ⟨n, rows, hn, hin⟩ := exists_page_of_mem ha
      exact stream_sound h hn hin
    · rintro ⟨ha, hkeep⟩
      obtain ⟨b, hb, hkey⟩ := stream_complete hsize (fun _ => hnodup) h (fun k hk => by cases hk)
        fun n _ => ⟨a, ha, rfl, hkeep⟩
      obtain ⟨n, rows, hn, hin⟩ := exists_page_of_mem hb
      obtain rfl := List.inj_on_of_nodup_map hnodup (stream_sound h hn hin).1 ha hkey
      exact hb
  exact hperm.eq_of_pairwise (fun a b _ _ hab hba => absurd hba hab.asymm) hincreasing hsorted

end Pages

/-! ## Tables that keep their rows -/

variable {ι : Type}

/-- Between two queries rows may come and change, but none goes or gets another key. -/
structure Kept (ident : α → ι) (key : α → κ) (table : ℕ → List α) : Prop where
  unique : ∀ n, ((table n).map ident).Nodup
  kept : ∀ n, ∀ a ∈ table n, ∃ b ∈ table (n + 1), ident b = ident a ∧ key b = key a
  settles : ∃ m, ∀ n, m ≤ n → table n = table m

/-- What a stream is for: the rows that meet the condition, in order, each once. -/
structure Lossless (before : α → α → Prop) (ident : α → ι) (keep : α → Bool)
    (table : ℕ → List α) (pages : List (List α)) : Prop where
  ordered : pages.flatten.Pairwise before
  once : (pages.flatten.map ident).Nodup
  sound : ∀ (n : ℕ) rows, pages[n]? = some rows → ∀ a ∈ rows, a ∈ table n ∧ keep a = true
  complete : ∀ i, (∀ n < pages.length, ∃ a ∈ table n, ident a = i ∧ keep a = true) →
    ∃ a ∈ pages.flatten, ident a = i

namespace Kept
variable {ident : α → ι} {key : α → κ} {keep : α → Bool} {size fuel : ℕ} {table : ℕ → List α}
  {ps : List (List α)}

omit [LinearOrder κ] in
theorem later (h : Kept ident key table) {m n : ℕ} (hle : m ≤ n) {a : α} (ha : a ∈ table m) :
    ∃ b ∈ table n, ident b = ident a ∧ key b = key a := by
  induction n, hle using Nat.le_induction with
  | base => exact ⟨a, ha, rfl, rfl⟩
  | succ n _ ih =>
      obtain ⟨b, hb, hident, hkey⟩ := ih
      obtain ⟨c, hc, hident', hkey'⟩ := h.kept n b hb
      exact ⟨c, hc, hident'.trans hident, hkey'.trans hkey⟩

omit [LinearOrder κ] in
/-- A row has one key, whenever it is read. -/
theorem key_eq (h : Kept ident key table) {m n : ℕ} {a b : α} (ha : a ∈ table m)
    (hb : b ∈ table n) (hident : ident a = ident b) : key a = key b := by
  wlog hle : m ≤ n generalizing m n a b
  · exact (this hb ha hident.symm (le_of_not_ge hle)).symm
  · obtain ⟨c, hc, hcident, hckey⟩ := h.later hle ha
    obtain rfl : c = b := List.inj_on_of_nodup_map (h.unique n) hc hb (hcident.trans hident)
    exact hckey.symm

omit [LinearOrder κ] in
theorem nodup_keys (h : Kept ident key table) (hkey : ∀ a b, key a = key b → ident a = ident b)
    (n : ℕ) : ((table n).map key).Nodup := by
  refine List.pairwise_map.mpr ?_
  exact (List.pairwise_map.mp (h.unique n)).imp fun hne heq => hne (hkey _ _ heq)

/-- **A stream over a table that keeps its rows** loses and repeats none of them. -/
theorem lossless (h : Kept ident key table) (hkey : ∀ a b, key a = key b → ident a = ident b)
    (hsize : 1 ≤ size) (hps : stream (page key keep size) key size fuel table none = some ps) :
    Lossless (fun a b => key a < key b) ident keep table ps where
  ordered := (stream_increasing (h.nodup_keys hkey) hps).1
  once := by
    refine List.pairwise_map.mpr ((stream_increasing (h.nodup_keys hkey) hps).1.imp_of_mem ?_)
    intro a b ha hb hlt hident
    obtain ⟨m, rows, hm, hain⟩ := exists_page_of_mem ha
    obtain ⟨n, rows', hn, hbin⟩ := exists_page_of_mem hb
    have heq := h.key_eq (stream_sound hps hm hain).1 (stream_sound hps hn hbin).1 hident
    exact absurd heq hlt.ne
  sound n rows hn a ha := stream_sound hps hn ha
  complete i hi := by
    obtain ⟨a, ha, rfl, -⟩ := hi 0 (length_pos hps)
    obtain ⟨b, hb, hb'⟩ := stream_complete hsize (h.nodup_keys hkey) hps
      (fun k hk => by cases hk) fun n hn => by
        obtain ⟨c, hc, hcident, hckeep⟩ := hi n hn
        exact ⟨c, hc, h.key_eq hc ha hcident, hckeep⟩
    exact ⟨b, hb, hkey _ _ hb'⟩

/-- **It ends**, with the same pages however much more fuel there is. -/
theorem exists_stream (h : Kept ident key table) (keep : α → Bool) (size : ℕ) :
    ∃ ps enough, ∀ fuel, enough ≤ fuel →
      stream (page key keep size) key size fuel table none = some ps := by
  obtain ⟨m, hsettles⟩ := h.settles
  obtain ⟨ps, hps⟩ : ∃ ps, stream (page key keep size) key size (m + (table m).length + 1) table
      none = some ps := Keyset.exists_stream hsettles (Nat.lt_succ_self _)
  exact ⟨ps, _, fun fuel hle => stream_mono hps hle⟩

/-- Such a stream ends, and is lossless. -/
theorem exists_lossless (h : Kept ident key table) (hkey : ∀ a b, key a = key b → ident a = ident b)
    (keep : α → Bool) (hsize : 1 ≤ size) :
    ∃ ps enough,
      (∀ fuel, enough ≤ fuel →
        stream (page key keep size) key size fuel table none = some ps) ∧
      Lossless (fun a b => key a < key b) ident keep table ps := by
  obtain ⟨ps, enough, hstream⟩ := h.exists_stream keep size
  exact ⟨ps, enough, hstream, h.lossless hkey hsize (hstream enough le_rfl)⟩

end Kept

/-! ## What a stream has seen

A stream that has come to its end has made finitely many queries, and found the tables of the
states `seen`, in this order. -/

/-- What the rows of a stream are worth, by the states its queries were made in. -/
structure Captures {σ : Type} (before : α → α → Prop) (ident : α → ι) (keep : α → Bool)
    (table : σ → List α) (seen : List σ) (rows : List α) : Prop where
  ordered : rows.Pairwise before
  once : (rows.map ident).Nodup
  sound : ∀ a ∈ rows, keep a = true ∧ ∃ s ∈ seen, a ∈ table s
  complete : ∀ i, (∀ s ∈ seen, ∃ a ∈ table s, ident a = i ∧ keep a = true) →
    ∃ a ∈ rows, ident a = i

section Seen
variable {σ : Type} {ident : α → ι} {key : α → κ} {keep : α → Bool} {size : ℕ}
  {table : σ → List α} {seen : List σ} {last : σ} {ps : List (List α)}

theorem getD_mem_of_mem (hlast : last ∈ seen) (n : ℕ) : seen.getD n last ∈ seen := by
  rcases lt_or_ge n seen.length with hn | hn
  · rw [List.getD_eq_getElem _ _ hn]
    exact List.getElem_mem hn
  · rwa [List.getD_eq_default _ _ hn]

omit [LinearOrder κ] in
/-- After its last query a stream may as well see the table unchanged. -/
theorem kept_of_pairwise (hlast : seen.getLast? = some last)
    (hunique : ∀ s ∈ seen, ((table s).map ident).Nodup)
    (hkept : seen.Pairwise fun s s' => ∀ a ∈ table s, ∃ b ∈ table s', ident b = ident a ∧
      key b = key a) : Kept ident key fun n => table (seen.getD n last) where
  unique n := hunique _ (getD_mem_of_mem (List.mem_of_getLast? hlast) n)
  kept n a ha := by
    rcases lt_or_ge (n + 1) seen.length with hn | hn
    · rw [List.getD_eq_getElem _ _ ((Nat.lt_succ_self n).trans hn)] at ha
      rw [List.getD_eq_getElem _ _ hn]
      exact List.pairwise_iff_getElem.mp hkept n (n + 1) _ hn (Nat.lt_succ_self n) a ha
    · -- the last state, and the same again
      have hsame : seen.getD n last = last := by
        rcases lt_or_ge n seen.length with hn' | hn'
        · rw [List.getLast?_eq_getElem?, show seen.length - 1 = n by omega,
            List.getElem?_eq_getElem hn'] at hlast
          rw [List.getD_eq_getElem _ _ hn', Option.some.inj hlast]
        · exact List.getD_eq_default _ _ hn'
      rw [hsame] at ha
      rw [List.getD_eq_default _ _ hn]
      exact ⟨a, ha, rfl, rfl⟩
  settles :=
    ⟨seen.length, fun n hn => by rw [List.getD_eq_default _ _ hn, List.getD_eq_default _ _ le_rfl]⟩

/-- **A stream that has come to its end**, over a table that has kept its rows while it was
read, has captured it. -/
theorem captures {fuel : ℕ} (hlast : seen.getLast? = some last)
    (hunique : ∀ s ∈ seen, ((table s).map ident).Nodup)
    (hkept : seen.Pairwise fun s s' => ∀ a ∈ table s, ∃ b ∈ table s', ident b = ident a ∧
      key b = key a) (hkey : ∀ a b, key a = key b → ident a = ident b) (hsize : 1 ≤ size)
    (hstream : stream (page key keep size) key size fuel (fun n => table (seen.getD n last))
      none = some ps) :
    Captures (fun a b => key a < key b) ident keep table seen ps.flatten := by
  have hlossless := (kept_of_pairwise hlast hunique hkept).lossless hkey hsize hstream
  have hseen := getD_mem_of_mem (List.mem_of_getLast? hlast)
  refine ⟨hlossless.ordered, hlossless.once, fun a ha => ?_, fun i hi => ?_⟩
  · obtain ⟨n, rows, hn, hin⟩ := exists_page_of_mem ha
    obtain ⟨htable, hkeep⟩ := hlossless.sound n rows hn a hin
    exact ⟨hkeep, _, hseen n, htable⟩
  · exact hlossless.complete i fun n _ => hi _ (hseen n)

end Seen

end AdminPlatform.Lib.Keyset
