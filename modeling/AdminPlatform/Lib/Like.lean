import Mathlib.Data.List.Infix

/-! # `LIKE` and `ILIKE`

A pattern is read into pieces: `%` stands for any string, `_` for any one character, a
backslash for the character after it. `ILIKE` folds the case of pattern and text first.

A text between two `%` is found in the columns that contain it, and in no other, exactly when
it has none of the three characters (`ilike_between_iff`). Where it has none, its pieces are
its own characters (`pieces_plain`). Where it has one, the pattern matches a string that is no
longer than the text and differs from it (`fill_between`). -/

namespace AdminPlatform.Lib.Like

/-! ## Patterns -/

inductive Piece
  | any
  | one
  | lit (c : Char)
  deriving DecidableEq, Repr

/-- The pieces of a pattern. PostgreSQL refuses one that ends in a backslash of its own, which
stands for itself here. -/
def pieces : List Char → List Piece
  | [] => []
  | '%' :: p => .any :: pieces p
  | '_' :: p => .one :: pieces p
  | '\\' :: c :: p => .lit c :: pieces p
  | c :: p => .lit c :: pieces p

def like : List Piece → List Char → Bool
  | [], cs => cs.isEmpty
  | .any :: ps, cs => cs.tails.any (like ps)
  | .one :: ps, _ :: cs => like ps cs
  | .lit c :: ps, d :: cs => c = d && like ps cs
  | _ :: _, [] => false

/-- `text ILIKE pattern`, where case is folded character by character. -/
def ilike (fold : Char → Char) (pattern text : List Char) : Bool :=
  like (pieces (pattern.map fold)) (text.map fold)

/-- The characters with a meaning in a pattern. -/
def special : List Char := ['%', '_', '\\']

/-- The text has no special character. -/
def Plain (text : List Char) : Prop := ∀ c ∈ text, c ∉ special

instance (text : List Char) : Decidable (Plain text) :=
  List.decidableBAll (fun c => c ∉ special) text

/-- Folding case leaves the special characters alone, and makes none of another. -/
def FoldsCase (fold : Char → Char) : Prop := ∀ m ∈ special, ∀ c, fold c = m ↔ c = m

/-! ## What a pattern matches -/

theorem like_any {ps : List Piece} {cs : List Char} :
    like (.any :: ps) cs = true ↔ ∃ before rest, cs = before ++ rest ∧ like ps rest = true := by
  simp only [like, List.any_eq_true, List.mem_tails]
  constructor
  · rintro ⟨rest, ⟨before, rfl⟩, h⟩
    exact ⟨before, rest, rfl, h⟩
  · rintro ⟨before, rest, rfl, h⟩
    exact ⟨rest, ⟨before, rfl⟩, h⟩

/-- Any string at the end of a pattern. -/
theorem like_any_nil (cs : List Char) : like [.any] cs = true :=
  like_any.mpr ⟨cs, [], by simp, rfl⟩

theorem like_lits {text : List Char} {ps : List Piece} {cs : List Char} :
    like (text.map .lit ++ ps) cs = true ↔ ∃ rest, cs = text ++ rest ∧ like ps rest = true := by
  induction text generalizing cs with
  | nil => simp
  | cons c text ih =>
      cases cs with
      | nil => simp [like]
      | cons d cs =>
          simp only [List.map_cons, List.cons_append, like, Bool.and_eq_true, decide_eq_true_eq,
            ih, List.cons.injEq]
          constructor
          · rintro ⟨rfl, rest, rfl, h⟩
            exact ⟨rest, ⟨rfl, rfl⟩, h⟩
          · rintro ⟨rest, ⟨rfl, rfl⟩, h⟩
            exact ⟨rfl, rest, rfl, h⟩

/-- **The characters of a text between any two strings**: the text is contained. -/
theorem like_between {text cs : List Char} :
    like (.any :: (text.map .lit ++ [.any])) cs = true ↔ text <:+: cs := by
  rw [like_any]
  constructor
  · rintro ⟨before, rest, rfl, h⟩
    obtain ⟨after, rfl, -⟩ := like_lits.mp h
    exact ⟨before, after, by simp⟩
  · rintro ⟨before, after, rfl⟩
    exact ⟨before, text ++ after, by simp, like_lits.mpr ⟨after, rfl, like_any_nil after⟩⟩

theorem pieces_plain {text : List Char} (h : Plain text) (rest : List Char) :
    pieces (text ++ rest) = text.map .lit ++ pieces rest := by
  induction text with
  | nil => rfl
  | cons c text ih =>
      have hc : c ∉ special := h c (by simp)
      have hany : c ≠ '%' := fun heq => hc (by simp [heq, special])
      have hone : c ≠ '_' := fun heq => hc (by simp [heq, special])
      have hescape : c ≠ '\\' := fun heq => hc (by simp [heq, special])
      rw [List.cons_append, pieces, ih fun d hd => h d (by simp [hd])]
      · rfl
      · exact hany
      · exact hone
      · exact fun _ _ heq => absurd heq hescape

/-! ## What a pattern with special characters matches besides -/

/-- A string the pieces match. -/
def fill : List Piece → List Char
  | [] => []
  | .any :: ps => fill ps
  | .one :: ps => '%' :: fill ps
  | .lit c :: ps => c :: fill ps

theorem like_fill (ps : List Piece) : like ps (fill ps) = true := by
  induction ps with
  | nil => rfl
  | cons p ps ih =>
      cases p with
      | any => exact like_any.mpr ⟨[], fill ps, rfl, ih⟩
      | one => exact ih
      | lit c => simpa [fill, like] using ih

/-- **A string that a text before `%` matches**: it is no longer than the text, and it is the
text only where that is plain. -/
theorem fill_before (text : List Char) :
    (fill (pieces (text ++ ['%']))).length ≤ text.length ∧
      (fill (pieces (text ++ ['%'])) = text → Plain text) := by
  induction text using pieces.induct with
  | case1 => exact ⟨le_rfl, fun _ c hc => by cases hc⟩
  | case2 text ih =>
      -- the piece is left empty, so the string is shorter
      have hlength : (fill (pieces ('%' :: text ++ ['%']))).length ≤ text.length := ih.1
      refine ⟨Nat.le_succ_of_le hlength, fun heq => ?_⟩
      rw [heq, List.length_cons] at hlength
      omega
  | case3 text ih =>
      refine ⟨Nat.succ_le_succ ih.1, fun heq => ?_⟩
      have hhead : '%' = '_' := (List.cons.inj heq).1
      exact absurd hhead (by decide)
  | case4 c text ih =>
      -- the backslash is gone
      have hlength : (fill (pieces ('\\' :: c :: text ++ ['%']))).length ≤ text.length + 1 :=
        Nat.succ_le_succ ih.1
      refine ⟨Nat.le_succ_of_le hlength, fun heq => ?_⟩
      rw [heq, List.length_cons, List.length_cons] at hlength
      omega
  | case5 c text hany hone hescape ih =>
      by_cases hc : c = '\\'
      · subst hc
        cases text with
        | nil =>
            -- the backslash takes the `%` that follows
            refine ⟨le_rfl, fun heq => ?_⟩
            have hhead : '%' = '\\' := (List.cons.inj heq).1
            exact absurd hhead (by decide)
        | cons d text => exact absurd rfl (hescape d text rfl)
      · have hpieces : pieces (c :: text ++ ['%']) = .lit c :: pieces (text ++ ['%']) := by
          rw [List.cons_append, pieces]
          · exact hany
          · exact hone
          · exact fun _ _ heq => absurd heq hc
        rw [hpieces]
        refine ⟨Nat.succ_le_succ ih.1, fun heq d hd => ?_⟩
        rcases List.mem_cons.mp hd with rfl | hd
        · simp [special, hc, show d ≠ '%' from hany, show d ≠ '_' from hone]
        · exact ih.2 (List.cons.inj heq).2 d hd

/-! ## A text between two `%` -/

section Fold
variable {fold : Char → Char}

theorem FoldsCase.percent (h : FoldsCase fold) : fold '%' = '%' :=
  (h '%' (by simp [special]) '%').mpr rfl

theorem FoldsCase.plain (h : FoldsCase fold) {text : List Char} :
    Plain (text.map fold) ↔ Plain text := by
  have hfold : ∀ c, fold c ∈ special ↔ c ∈ special := by
    intro c
    constructor
    · intro hc
      exact ((h (fold c) hc c).mp rfl) ▸ hc
    · intro hc
      exact ((h c hc c).mpr rfl).symm ▸ hc
  simp [Plain, hfold]

theorem pieces_cons {c : Char} {text : List Char} (hany : c ≠ '%') (hone : c ≠ '_')
    (hescape : c = '\\' → text = []) : pieces (c :: text) = .lit c :: pieces text := by
  rw [pieces]
  · exact hany
  · exact hone
  · rintro d rest rfl rfl
    cases hescape rfl

/-- What is matched, with its case folded. -/
theorem FoldsCase.fill_map (h : FoldsCase fold) (text : List Char) :
    fill (pieces (text.map fold)) = (fill (pieces text)).map fold := by
  have hsame : ∀ m ∈ special, fold m = m := fun m hm => (h m hm m).mpr rfl
  induction text using pieces.induct with
  | case1 => rfl
  | case2 text ih =>
      rw [List.map_cons, h.percent]
      exact ih
  | case3 text ih =>
      rw [List.map_cons, hsame '_' (by simp [special])]
      show '%' :: fill (pieces (text.map fold)) = fold '%' :: (fill (pieces text)).map fold
      rw [h.percent, ih]
  | case4 c text ih =>
      rw [List.map_cons, List.map_cons, hsame '\\' (by simp [special])]
      exact congrArg _ ih
  | case5 c text hany hone hescape ih =>
      have hlast : c = '\\' → text = [] := by
        intro hc
        cases text with
        | nil => rfl
        | cons d text => exact absurd rfl (hescape d text hc)
      rw [List.map_cons, pieces_cons, pieces_cons hany hone hlast]
      · exact congrArg _ ih
      · exact fun hc => hany ((h '%' (by simp [special]) c).mp hc)
      · exact fun hc => hone ((h '_' (by simp [special]) c).mp hc)
      · intro hc
        rw [hlast ((h '\\' (by simp [special]) c).mp hc)]
        rfl

/-- **Search by `ILIKE`.** A text between two `%` is found in exactly the columns that contain
it, ignoring case, if and only if it has no special character. -/
theorem ilike_between_iff (h : FoldsCase fold) (text : List Char) :
    (∀ column, ilike fold ('%' :: (text ++ ['%'])) column = true ↔
      text.map fold <:+: column.map fold) ↔ Plain text := by
  have hpattern : ∀ column, ilike fold ('%' :: (text ++ ['%'])) column =
      like (.any :: pieces (text.map fold ++ ['%'])) (column.map fold) := by
    intro column
    simp only [ilike, List.map_cons, List.map_append, List.map_nil, h.percent]
    rfl
  have hfill : fill (pieces (text.map fold ++ ['%'])) =
      (fill (pieces (text ++ ['%']))).map fold := by
    simpa [h.percent] using h.fill_map (text ++ ['%'])
  simp only [hpattern]
  constructor
  · intro hsearch
    -- the string that the text and the `%` match is found, so it contains the text
    have hfound : text.map fold <:+: (fill (pieces (text ++ ['%']))).map fold := by
      refine (hsearch _).mp (like_any.mpr ⟨[], _, rfl, ?_⟩)
      rw [← hfill]
      exact like_fill _
    rw [← hfill] at hfound
    obtain ⟨hle, hplain⟩ := fill_before (text.map fold)
    exact h.plain.mp (hplain (hfound.eq_of_length_le hle).symm)
  · intro hplain column
    rw [pieces_plain (h.plain.mpr hplain)]
    exact like_between

end Fold
end AdminPlatform.Lib.Like
