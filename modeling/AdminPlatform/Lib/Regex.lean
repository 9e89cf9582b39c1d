import Mathlib.Data.List.Basic

/-! # Backtracking regular expressions

Patterns of the `re` module as far as they are needed: character classes, sequences, greedy
repetitions, lookaheads and the two anchors. `ends` lists where a match from a position can end,
in the order the matcher tries the ends, so that a pattern in a sequence is matched from each
end of the one before.

The classes `\w`, `\s` and `\d` are those of Unicode, whose tables are a parameter. -/

namespace AdminPlatform.Lib

/-- What counts as a word character, as whitespace and as a decimal digit. -/
structure CharClasses where
  word : Char → Bool
  space : Char → Bool
  digit : Char → Bool

/-- A position in a text: what has been consumed, the last character first, and what is left. -/
structure Position where
  consumed : List Char
  rest : List Char

/-- The position after some characters more. -/
def Position.after (pos : Position) (w rest : List Char) : Position :=
  ⟨w.reverse ++ pos.consumed, rest⟩

@[simp] theorem Position.after_nil (pos : Position) : pos.after [] pos.rest = pos := rfl

theorem Position.after_cons (pos : Position) (c : Char) (rest w rest' : List Char) :
    pos.after (c :: w) rest' = Position.after ⟨c :: pos.consumed, rest⟩ w rest' := by
  simp [Position.after]

inductive Regex
  /-- A character of a class. -/
  | one (p : Char → Bool)
  | cat (r s : Regex)
  /-- `r*`. -/
  | star (r : Regex)
  /-- `r{least,most}`. -/
  | repeated (r : Regex) (least most : Nat)
  /-- `(?=r)`. -/
  | ahead (r : Regex)
  /-- `^`. -/
  | start
  /-- `$`. -/
  | finish

namespace Regex

/-! ## Matching -/

/-- Greedy repetition: each round consumes something, and there are at most `fuel` of them. -/
def rounds (f : Position → List Position) : Nat → Position → List Position
  | 0, pos => [pos]
  | fuel + 1, pos =>
      ((f pos).filter fun next => next.rest.length < pos.rest.length).flatMap (rounds f fuel) ++
        [pos]

/-- Greedy repetition, at least `least` and at most `most` times. -/
def times (f : Position → List Position) : Nat → Nat → Position → List Position
  | least, 0, pos => if least = 0 then [pos] else []
  | least, most + 1, pos =>
      (f pos).flatMap (times f (least - 1) most) ++ if least = 0 then [pos] else []

/-- Where a match from a position can end. -/
def ends : Regex → Position → List Position
  | one p, ⟨consumed, c :: rest⟩ => if p c then [⟨c :: consumed, rest⟩] else []
  | one _, ⟨_, []⟩ => []
  | cat r s, pos => (ends r pos).flatMap (ends s)
  | star r, pos => rounds (ends r) pos.rest.length pos
  | repeated r least most, pos => times (ends r) least most pos
  | ahead r, pos => if (ends r pos).isEmpty then [] else [pos]
  | start, pos => if pos.consumed.isEmpty then [pos] else []
  -- before a newline that ends the text as well
  | finish, pos => if pos.rest.isEmpty || pos.rest == ['\n'] then [pos] else []

/-- `Pattern.fullmatch`. -/
def fullmatch (r : Regex) (s : String) : Bool :=
  (ends r ⟨[], s.toList⟩).any fun pos => pos.rest.isEmpty

/-- A range of characters, `[lo-hi]`. -/
def range (lo hi : Char) : Regex := one fun c => lo ≤ c && c ≤ hi

/-- `.`: any character but a newline. -/
def dot : Regex := one fun c => c != '\n'

/-! ## What the parts match -/

variable {r s : Regex} {p : Char → Bool} {pos next : Position}

theorem ends_one_nil {consumed : List Char} : ends (one p) ⟨consumed, []⟩ = [] := rfl

theorem ends_one_cons {consumed rest : List Char} {c : Char} :
    ends (one p) ⟨consumed, c :: rest⟩ = if p c then [⟨c :: consumed, rest⟩] else [] := rfl

theorem ends_cat : ends (cat r s) pos = (ends r pos).flatMap (ends s) := rfl

theorem ends_ahead : ends (ahead r) pos = if (ends r pos).isEmpty then [] else [pos] := rfl

theorem ends_start : ends start pos = if pos.consumed.isEmpty then [pos] else [] := rfl

theorem ends_finish :
    ends finish pos = if pos.rest.isEmpty || pos.rest == ['\n'] then [pos] else [] := rfl

theorem rounds_zero {f : Position → List Position} : rounds f 0 pos = [pos] := rfl

theorem rounds_succ {f : Position → List Position} {fuel : Nat} :
    rounds f (fuel + 1) pos =
      ((f pos).filter fun next => next.rest.length < pos.rest.length).flatMap (rounds f fuel) ++
        [pos] := rfl

theorem times_zero {f : Position → List Position} {least : Nat} :
    times f least 0 pos = if least = 0 then [pos] else [] := rfl

theorem times_succ {f : Position → List Position} {least most : Nat} :
    times f least (most + 1) pos =
      (f pos).flatMap (times f (least - 1) most) ++ if least = 0 then [pos] else [] := rfl

theorem mem_ends_one :
    next ∈ ends (one p) pos ↔ ∃ c rest, pos.rest = c :: rest ∧ p c = true ∧
      next = ⟨c :: pos.consumed, rest⟩ := by
  obtain ⟨consumed, rest⟩ := pos
  cases rest with
  | nil => simp [ends_one_nil]
  | cons c rest => by_cases hc : p c <;> simp [ends_one_cons, hc]

theorem mem_ends_cat : next ∈ ends (cat r s) pos ↔ ∃ mid ∈ ends r pos, next ∈ ends s mid := by
  rw [ends_cat, List.mem_flatMap]

/-- A lookahead consumes nothing. -/
theorem mem_ends_ahead : next ∈ ends (ahead r) pos ↔ next = pos ∧ ∃ mid, mid ∈ ends r pos := by
  rw [ends_ahead]
  cases ends r pos <;> simp

theorem mem_ends_start : next ∈ ends start pos ↔ next = pos ∧ pos.consumed = [] := by
  rw [ends_start]
  split <;> simp_all

theorem mem_ends_finish :
    next ∈ ends finish pos ↔ next = pos ∧ (pos.rest = [] ∨ pos.rest = ['\n']) := by
  rw [ends_finish]
  split <;> simp_all

/-- The characters between two positions are all of a class. -/
def Span (p : Char → Bool) (pos next : Position) (w : List Char) : Prop :=
  pos.rest = w ++ next.rest ∧ next = pos.after w next.rest ∧ ∀ c ∈ w, p c = true

theorem span_nil : Span p pos next [] ↔ next = pos := by
  constructor
  · rintro ⟨hrest, hnext, -⟩
    rw [List.nil_append] at hrest
    rw [hnext, ← hrest, Position.after_nil]
  · rintro rfl
    exact ⟨rfl, rfl, nofun⟩

/-- A span begins with a match of its class. -/
theorem span_cons {c : Char} {w : List Char} :
    Span p pos next (c :: w) ↔
      ∃ rest, pos.rest = c :: rest ∧ p c = true ∧ Span p ⟨c :: pos.consumed, rest⟩ next w := by
  constructor
  · rintro ⟨hrest, hnext, hall⟩
    obtain ⟨hc, hw⟩ := List.forall_mem_cons.mp hall
    exact ⟨w ++ next.rest, hrest, hc, rfl, hnext.trans (pos.after_cons ..), hw⟩
  · rintro ⟨rest, hpos, hc, hrest, hnext, hall⟩
    refine ⟨?_, hnext.trans (pos.after_cons ..).symm, List.forall_mem_cons.mpr ⟨hc, hall⟩⟩
    rw [hpos]
    exact congrArg _ hrest

theorem mem_rounds_one {fuel : Nat} (hfuel : pos.rest.length ≤ fuel) :
    next ∈ rounds (ends (one p)) fuel pos ↔ ∃ w, Span p pos next w := by
  induction fuel generalizing pos with
  | zero =>
      have hnil : pos.rest = [] := List.length_eq_zero_iff.mp (Nat.le_zero.mp hfuel)
      rw [rounds_zero, List.mem_singleton]
      constructor
      · intro h
        exact ⟨[], span_nil.mpr h⟩
      · rintro ⟨w, hw⟩
        cases w with
        | nil => exact span_nil.mp hw
        | cons c w =>
            obtain ⟨rest, hcons, -⟩ := span_cons.mp hw
            rw [hnil] at hcons
            cases hcons
  | succ fuel ih =>
      rw [rounds_succ, List.mem_append, List.mem_flatMap, List.mem_singleton]
      constructor
      · rintro (⟨mid, hmid, hnext⟩ | h)
        · obtain ⟨hone, hlt⟩ := List.mem_filter.mp hmid
          obtain ⟨c, rest, hpos, hc, rfl⟩ := mem_ends_one.mp hone
          have hle : rest.length ≤ fuel := by
            rw [hpos, List.length_cons] at hfuel
            exact Nat.le_of_succ_le_succ hfuel
          obtain ⟨w, hw⟩ := (ih hle).mp hnext
          exact ⟨c :: w, span_cons.mpr ⟨rest, hpos, hc, hw⟩⟩
        · exact ⟨[], span_nil.mpr h⟩
      · rintro ⟨w, hw⟩
        cases w with
        | nil => exact .inr (span_nil.mp hw)
        | cons c w =>
            obtain ⟨rest, hpos, hc, hw⟩ := span_cons.mp hw
            rw [hpos, List.length_cons] at hfuel
            refine .inl ⟨⟨c :: pos.consumed, rest⟩, List.mem_filter.mpr ⟨?_, ?_⟩,
              (ih (Nat.le_of_succ_le_succ hfuel)).mpr ⟨w, hw⟩⟩
            · exact mem_ends_one.mpr ⟨c, rest, hpos, hc, rfl⟩
            · simp [hpos]

theorem mem_ends_star_one : next ∈ ends (star (one p)) pos ↔ ∃ w, Span p pos next w :=
  mem_rounds_one (Nat.le_refl _)

theorem mem_times_one {least most : Nat} :
    next ∈ times (ends (one p)) least most pos ↔
      ∃ w, Span p pos next w ∧ least ≤ w.length ∧ w.length ≤ most := by
  induction most generalizing least pos with
  | zero =>
      rw [times_zero]
      constructor
      · intro h
        split at h
        · rename_i hleast
          exact ⟨[], span_nil.mpr (List.mem_singleton.mp h), Nat.le_of_eq hleast, Nat.le_refl _⟩
        · cases h
      · rintro ⟨w, hw, hleast, hmost⟩
        obtain rfl : w = [] := List.length_eq_zero_iff.mp (Nat.le_zero.mp hmost)
        rw [if_pos (Nat.le_zero.mp hleast)]
        exact List.mem_singleton.mpr (span_nil.mp hw)
  | succ most ih =>
      rw [times_succ, List.mem_append, List.mem_flatMap]
      constructor
      · rintro (⟨mid, hmid, hnext⟩ | h)
        · obtain ⟨c, rest, hpos, hc, rfl⟩ := mem_ends_one.mp hmid
          obtain ⟨w, hw, hleast, hmost⟩ := ih.mp hnext
          refine ⟨c :: w, span_cons.mpr ⟨rest, hpos, hc, hw⟩, ?_, ?_⟩
          · exact Nat.le_add_of_sub_le hleast
          · exact Nat.succ_le_succ hmost
        · split at h
          · rename_i hleast
            exact ⟨[], span_nil.mpr (List.mem_singleton.mp h), Nat.le_of_eq hleast, Nat.zero_le _⟩
          · cases h
      · rintro ⟨w, hw, hleast, hmost⟩
        cases w with
        | nil =>
            rw [if_pos (Nat.le_zero.mp hleast)]
            exact .inr (List.mem_singleton.mpr (span_nil.mp hw))
        | cons c w =>
            obtain ⟨rest, hpos, hc, hw⟩ := span_cons.mp hw
            refine .inl ⟨_, mem_ends_one.mpr ⟨c, rest, hpos, hc, rfl⟩, ih.mpr ⟨w, hw, ?_, ?_⟩⟩
            · exact Nat.sub_le_of_le_add hleast
            · exact Nat.le_of_succ_le_succ hmost

theorem mem_ends_repeated_one {least most : Nat} :
    next ∈ ends (repeated (one p) least most) pos ↔
      ∃ w, Span p pos next w ∧ least ≤ w.length ∧ w.length ≤ most :=
  mem_times_one

/-! ## Matching to the end -/

/-- There is a match from a position to the end of the text. -/
def MatchesRest (r : Regex) (pos : Position) : Prop := ∃ next ∈ ends r pos, next.rest = []

theorem fullmatch_iff {text : String} :
    r.fullmatch text = true ↔ MatchesRest r ⟨[], text.toList⟩ := by
  rw [fullmatch, List.any_eq_true]
  exact exists_congr fun next => and_congr_right fun _ => List.isEmpty_iff

theorem matchesRest_start_cat :
    MatchesRest (cat start r) pos ↔ pos.consumed = [] ∧ MatchesRest r pos := by
  constructor
  · rintro ⟨next, hnext, hend⟩
    obtain ⟨mid, hmid, hmatch⟩ := mem_ends_cat.mp hnext
    obtain ⟨rfl, hstart⟩ := mem_ends_start.mp hmid
    exact ⟨hstart, next, hmatch, hend⟩
  · rintro ⟨hstart, next, hnext, hend⟩
    exact ⟨next, mem_ends_cat.mpr ⟨pos, mem_ends_start.mpr ⟨rfl, hstart⟩, hnext⟩, hend⟩

/-- A lookahead is a condition on the position, and the rest goes on from there. -/
theorem matchesRest_ahead_cat :
    MatchesRest (cat (ahead s) r) pos ↔ (∃ mid, mid ∈ ends s pos) ∧ MatchesRest r pos := by
  constructor
  · rintro ⟨next, hnext, hend⟩
    obtain ⟨mid, hmid, hmatch⟩ := mem_ends_cat.mp hnext
    obtain ⟨rfl, hahead⟩ := mem_ends_ahead.mp hmid
    exact ⟨hahead, next, hmatch, hend⟩
  · rintro ⟨hahead, next, hnext, hend⟩
    exact ⟨next, mem_ends_cat.mpr ⟨pos, mem_ends_ahead.mpr ⟨rfl, hahead⟩, hnext⟩, hend⟩

/-- A repeated class up to the end: so many characters, all of the class. -/
theorem matchesRest_repeated_finish {least most : Nat} :
    MatchesRest (cat (repeated (one p) least most) finish) pos ↔
      (∀ c ∈ pos.rest, p c = true) ∧ least ≤ pos.rest.length ∧ pos.rest.length ≤ most := by
  constructor
  · rintro ⟨next, hnext, hend⟩
    obtain ⟨mid, hmid, hmatch⟩ := mem_ends_cat.mp hnext
    obtain ⟨rfl, -⟩ := mem_ends_finish.mp hmatch
    obtain ⟨w, ⟨hrest, -, hall⟩, hleast, hmost⟩ := mem_ends_repeated_one.mp hmid
    rw [hend, List.append_nil] at hrest
    rw [hrest]
    exact ⟨hall, hleast, hmost⟩
  · rintro ⟨hall, hleast, hmost⟩
    refine ⟨pos.after pos.rest [], mem_ends_cat.mpr ⟨_, ?_, mem_ends_finish.mpr ⟨rfl, .inl rfl⟩⟩,
      rfl⟩
    exact mem_ends_repeated_one.mpr
      ⟨pos.rest, ⟨(List.append_nil _).symm, rfl, hall⟩, hleast, hmost⟩

end Regex
end AdminPlatform.Lib
