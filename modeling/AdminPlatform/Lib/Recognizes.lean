import AdminPlatform.Lib.Regex
import Mathlib.Computability.Language
import Mathlib.Data.List.SplitOn

/-! # The languages of patterns

A pattern made of classes, sequences and repetitions matches, from any position, the words of a
language that is made of languages in the same way: the matcher tries all the ways to take a
repetition apart, and gives up none by being greedy. -/

namespace AdminPlatform.Lib.Regex
open scoped Computability

/-- From every position the pattern matches the words of the language. -/
def Recognizes (r : Regex) (L : Language Char) : Prop :=
  ∀ pos next, next ∈ ends r pos ↔
    ∃ w ∈ L, pos.rest = w ++ next.rest ∧ next = pos.after w next.rest

/-- The words of one character of a class. -/
def oneOf (p : Char → Bool) : Language Char := {w | ∃ c, p c = true ∧ w = [c]}

/-- `r+`. -/
def plus (r : Regex) : Regex := cat r (star r)

variable {r s : Regex} {L M : Language Char} {p : Char → Bool} {w : List Char}

theorem after_append {pos : Position} {w v rest rest' : List Char} :
    (pos.after w rest).after v rest' = pos.after (w ++ v) rest' := by
  simp [Position.after]

/-! ## Patterns and their languages -/

theorem recognizes_one : Recognizes (one p) (oneOf p) := by
  intro pos next
  rw [mem_ends_one]
  constructor
  · rintro ⟨c, rest, hpos, hc, rfl⟩
    exact ⟨[c], ⟨c, hc, rfl⟩, hpos, rfl⟩
  · rintro ⟨w, ⟨c, hc, rfl⟩, hpos, hnext⟩
    exact ⟨c, next.rest, hpos, hc, hnext⟩

theorem Recognizes.cat (hr : Recognizes r L) (hs : Recognizes s M) :
    Recognizes (.cat r s) (L * M) := by
  intro pos next
  rw [mem_ends_cat]
  constructor
  · rintro ⟨mid, hmid, hnext⟩
    obtain ⟨w, hw, hpos, hafter⟩ := (hr pos mid).mp hmid
    obtain ⟨v, hv, hrest, hend⟩ := (hs mid next).mp hnext
    refine ⟨w ++ v, Language.append_mem_mul hw hv, ?_, ?_⟩
    · rw [hpos, hrest, List.append_assoc]
    · rw [hend, hafter, after_append]
      rfl
  · rintro ⟨u, hu, hpos, hnext⟩
    obtain ⟨w, hw, v, hv, rfl⟩ := Language.mem_mul.mp hu
    refine ⟨pos.after w (v ++ next.rest), (hr pos _).mpr ⟨w, hw, ?_, rfl⟩,
      (hs _ next).mpr ⟨v, hv, rfl, ?_⟩⟩
    · rw [hpos, List.append_assoc]
      rfl
    · rw [after_append]
      exact hnext

/-- So many rounds match so many words that are not empty. -/
theorem mem_rounds (hr : Recognizes r L) {fuel : ℕ} {pos next : Position}
    (hfuel : pos.rest.length ≤ fuel) :
    next ∈ rounds (ends r) fuel pos ↔
      ∃ w ∈ L∗, pos.rest = w ++ next.rest ∧ next = pos.after w next.rest := by
  induction fuel generalizing pos with
  | zero =>
      have hnil : pos.rest = [] := List.length_eq_zero_iff.mp (Nat.le_zero.mp hfuel)
      rw [rounds_zero, List.mem_singleton]
      constructor
      · rintro rfl
        exact ⟨[], Language.nil_mem_kstar L, rfl, rfl⟩
      · rintro ⟨w, -, hpos, hnext⟩
        obtain ⟨rfl, hrest⟩ := List.append_eq_nil_iff.mp (hpos.symm.trans hnil)
        rw [hnext, hrest]
        exact (congrArg (pos.after []) hnil.symm).trans pos.after_nil
  | succ fuel ih =>
      rw [rounds_succ, List.mem_append, List.mem_flatMap, List.mem_singleton]
      constructor
      · rintro (⟨mid, hmid, hnext⟩ | rfl)
        · obtain ⟨hends, hlt⟩ := List.mem_filter.mp hmid
          obtain ⟨w, hw, hpos, hafter⟩ := (hr pos mid).mp hends
          have hlt : mid.rest.length < pos.rest.length := of_decide_eq_true hlt
          obtain ⟨v, hv, hrest, hend⟩ := (ih (by omega)).mp hnext
          refine ⟨w ++ v, ?_, ?_, ?_⟩
          · exact (mul_kstar_le_kstar : L * L∗ ≤ L∗) (Language.append_mem_mul hw hv)
          · rw [hpos, hrest, List.append_assoc]
          · rw [hend, hafter, after_append]
            rfl
        · exact ⟨[], Language.nil_mem_kstar L, rfl, rfl⟩
      · rintro ⟨u, hu, hpos, hnext⟩
        obtain ⟨words, rfl, hwords⟩ := Language.mem_kstar_iff_exists_nonempty.mp hu
        cases words with
        | nil =>
            refine .inr ?_
            rw [List.flatten_nil] at hpos hnext
            rw [hnext, ← List.nil_append next.rest, ← hpos, Position.after_nil]
        | cons w words =>
            -- the first word is taken, and the rounds that are left take the others
            obtain ⟨hw, hne⟩ := hwords w List.mem_cons_self
            have hrest : pos.rest = w ++ (words.flatten ++ next.rest) := by
              rw [hpos, List.flatten_cons, List.append_assoc]
            have hlength := congrArg List.length hrest
            rw [List.length_append] at hlength
            have hpositive := List.length_pos_iff.mpr hne
            refine .inl ⟨pos.after w (words.flatten ++ next.rest),
              List.mem_filter.mpr ⟨(hr pos _).mpr ⟨w, hw, hrest, rfl⟩, ?_⟩, ?_⟩
            · refine decide_eq_true ?_
              show (words.flatten ++ next.rest).length < _
              omega
            · refine (ih ?_).mpr ⟨words.flatten, Language.join_mem_kstar fun v hv =>
                (hwords v (List.mem_cons_of_mem w hv)).1, rfl, ?_⟩
              · show (words.flatten ++ next.rest).length ≤ fuel
                omega
              · rw [after_append]
                exact hnext

theorem Recognizes.star (hr : Recognizes r L) : Recognizes (.star r) L∗ :=
  fun _ _ => mem_rounds hr (Nat.le_refl _)

theorem Recognizes.plus (hr : Recognizes r L) : Recognizes (plus r) (L * L∗) :=
  hr.cat hr.star

/-- **Matching a whole text** is membership: with nothing left, the end of the text is no newline
before it. -/
theorem Recognizes.fullmatch_iff (hr : Recognizes r L) {text : String} :
    (Regex.cat .start (.cat r .finish)).fullmatch text = true ↔ text.toList ∈ L := by
  rw [Regex.fullmatch_iff, matchesRest_start_cat]
  constructor
  · rintro ⟨-, next, hnext, hend⟩
    obtain ⟨mid, hmid, hfinish⟩ := mem_ends_cat.mp hnext
    obtain ⟨rfl, -⟩ := mem_ends_finish.mp hfinish
    obtain ⟨w, hw, hrest, -⟩ := (hr _ _).mp hmid
    rw [hend, List.append_nil] at hrest
    rwa [show text.toList = w from hrest]
  · intro hmem
    refine ⟨rfl, Position.after ⟨[], text.toList⟩ text.toList [], mem_ends_cat.mpr ⟨_, ?_,
      mem_ends_finish.mpr ⟨rfl, .inl rfl⟩⟩, rfl⟩
    exact (hr _ _).mpr ⟨text.toList, hmem, (List.append_nil _).symm, rfl⟩

/-! ## Words of a class, and words between separators -/

theorem mem_kstar_oneOf : w ∈ (oneOf p)∗ ↔ ∀ c ∈ w, p c = true := by
  constructor
  · intro hw c hc
    obtain ⟨words, rfl, hwords⟩ := Language.mem_kstar.mp hw
    obtain ⟨v, hv, hin⟩ := List.mem_flatten.mp hc
    obtain ⟨c', hc', rfl⟩ := hwords v hv
    exact List.mem_singleton.mp hin ▸ hc'
  · intro hall
    refine Language.mem_kstar.mpr ⟨w.map fun c => [c], ?_, ?_⟩
    · simp [← List.flatMap_def]
    · intro v hv
      obtain ⟨c, hc, rfl⟩ := List.mem_map.mp hv
      exact ⟨c, hall c hc, rfl⟩

theorem mem_oneOf_mul_kstar : w ∈ oneOf p * (oneOf p)∗ ↔ w ≠ [] ∧ ∀ c ∈ w, p c = true := by
  rw [Language.mem_mul]
  constructor
  · rintro ⟨v, ⟨c, hc, rfl⟩, u, hu, rfl⟩
    exact ⟨List.cons_ne_nil c u, List.forall_mem_cons.mpr ⟨hc, mem_kstar_oneOf.mp hu⟩⟩
  · rintro ⟨hne, hall⟩
    cases w with
    | nil => exact absurd rfl hne
    | cons c w =>
        obtain ⟨hc, hw⟩ := List.forall_mem_cons.mp hall
        exact ⟨[c], ⟨c, hc, rfl⟩, w, mem_kstar_oneOf.mpr hw, rfl⟩

/-- A word, and more of them with a separator before each, are words put together. -/
theorem exists_intercalate {sep : Char} {words : List (List Char)}
    (hwords : ∀ v ∈ words, v ∈ oneOf (· == sep) * L) (w : List Char) :
    ∃ groups, (∀ g ∈ groups, g ∈ L) ∧ w ++ words.flatten = [sep].intercalate (w :: groups) := by
  induction words generalizing w with
  | nil => exact ⟨[], nofun, by rw [List.flatten_nil, List.append_nil, List.intercalate_singleton]⟩
  | cons v words ih =>
      obtain ⟨hv, hrest⟩ := List.forall_mem_cons.mp hwords
      obtain ⟨_, ⟨c, hc, rfl⟩, g, hg, rfl⟩ := Language.mem_mul.mp hv
      obtain rfl : c = sep := eq_of_beq hc
      obtain ⟨groups, hgroups, heq⟩ := ih hrest g
      refine ⟨g :: groups, List.forall_mem_cons.mpr ⟨hg, hgroups⟩, ?_⟩
      rw [List.intercalate_cons_cons, ← heq]
      simp

theorem intercalate_mem {sep : Char} {groups : List (List Char)} (hgroups : ∀ g ∈ groups, g ∈ L) :
    w ∈ L → [sep].intercalate (w :: groups) ∈ L * (oneOf (· == sep) * L)∗ := by
  intro hw
  refine Language.mem_mul.mpr ⟨w, hw, (groups.map fun g => sep :: g).flatten, ?_, ?_⟩
  · refine Language.join_mem_kstar fun v hv => ?_
    obtain ⟨g, hg, rfl⟩ := List.mem_map.mp hv
    exact Language.append_mem_mul (a := [sep]) ⟨sep, beq_self_eq_true sep, rfl⟩ (hgroups g hg)
  · clear hw
    induction groups generalizing w with
    | nil => simp
    | cons g groups ih =>
        obtain ⟨-, hgroups⟩ := List.forall_mem_cons.mp hgroups
        rw [List.intercalate_cons_cons, ← ih hgroups]
        simp

/-- **A repetition with separators** matches what splits into words of the language, if they do
not contain the separator. -/
theorem mem_separated {sep : Char} (hsep : ∀ g ∈ L, sep ∉ g) :
    w ∈ L * (oneOf (· == sep) * L)∗ ↔ ∀ g ∈ w.splitOn sep, g ∈ L := by
  constructor
  · intro hw
    obtain ⟨v, hv, u, hu, rfl⟩ := Language.mem_mul.mp hw
    obtain ⟨words, rfl, hwords⟩ := Language.mem_kstar.mp hu
    obtain ⟨groups, hgroups, heq⟩ := exists_intercalate hwords v
    have hall := List.forall_mem_cons.mpr ⟨hv, hgroups⟩
    rw [heq, List.splitOn_intercalate sep (fun g hg => hsep g (hall g hg)) (List.cons_ne_nil _ _)]
    exact hall
  · intro hall
    have hword : [sep].intercalate (w.splitOn sep) = w := List.intercalate_splitOn sep
    cases hsplit : w.splitOn sep with
    | nil => exact absurd hsplit (List.splitOn_ne_nil sep w)
    | cons g groups =>
        rw [hsplit] at hall hword
        obtain ⟨hg, hgroups⟩ := List.forall_mem_cons.mp hall
        exact hword ▸ intercalate_mem hgroups hg

end AdminPlatform.Lib.Regex
