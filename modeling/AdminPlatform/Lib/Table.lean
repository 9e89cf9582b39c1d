import Mathlib.Data.List.Basic
import Mathlib.Data.List.Nodup
import Mathlib.Data.List.Pairwise

/-! # Tables with a primary key and unique constraints

A `Table` is a list of rows no two of which clash: two rows clash when they share the
primary key or a value that a unique constraint covers. The constraint is a field, so a
table that violates it cannot be built; `insert` and `modify` answer `none` instead, as the
database refuses the statement.

Rows keep their places: an inserted row goes to the end, a modified one stays. -/

namespace AdminPlatform.Lib

/-- A type of rows: the primary key, and the pairs of rows the constraints keep apart. -/
class Row (α : Type) where
  Key : Type
  key : α → Key
  Clash : α → α → Prop
  decKey : DecidableEq Key
  decClash : DecidableRel Clash
  symm : ∀ {a b}, Clash a b → Clash b a
  of_key : ∀ {a b}, key a = key b → Clash a b

instance {α : Type} [Row α] : DecidableEq (Row.Key α) := Row.decKey

instance {α : Type} [Row α] : DecidableRel (Row.Clash (α := α)) := Row.decClash

structure Table (α : Type) [Row α] where
  rows : List α
  unique : rows.Pairwise (fun a b => ¬ Row.Clash a b)

namespace Table
variable {α : Type} [Row α]

instance : Membership α (Table α) := ⟨fun t a => a ∈ t.rows⟩

theorem mem_rows {t : Table α} {a : α} : a ∈ t.rows ↔ a ∈ t := Iff.rfl

instance (t : Table α) (p : α → Prop) [DecidablePred p] : Decidable (∃ a ∈ t, p a) :=
  inferInstanceAs (Decidable (∃ a ∈ t.rows, p a))

instance (t : Table α) (p : α → Prop) [DecidablePred p] : Decidable (∀ a ∈ t, p a) :=
  inferInstanceAs (Decidable (∀ a ∈ t.rows, p a))

def empty : Table α := ⟨[], List.Pairwise.nil⟩

/-- The table with the given rows, if the constraints allow it. -/
def ofRows (rows : List α) : Option (Table α) :=
  if h : rows.Pairwise (fun a b => ¬ Row.Clash a b) then some ⟨rows, h⟩ else none

/-- The row with a primary key. -/
def find? (t : Table α) (k : Row.Key α) : Option α := t.rows.find? (fun a => Row.key a = k)

/-- The rows that meet a condition. -/
def select (t : Table α) (p : α → Bool) : List α := t.rows.filter p

/-- Add rows, all or none. -/
def insertAll (t : Table α) (rows : List α) : Option (Table α) := ofRows (t.rows ++ rows)

def insert (t : Table α) (a : α) : Option (Table α) := t.insertAll [a]

/-- Apply `f` to the row with a primary key, if there is one. -/
def modify (t : Table α) (k : Row.Key α) (f : α → α) : Option (Table α) :=
  ofRows (t.rows.map (fun a => if Row.key a = k then f a else a))

/-- Remove the rows that meet a condition. -/
def delete (t : Table α) (p : α → Bool) : Table α :=
  ⟨t.rows.filter (fun a => !p a), t.unique.sublist List.filter_sublist⟩

/-! ## Looking rows up -/

/-- Rows that clash are one row. -/
theorem eq_of_clash {t : Table α} {a b : α} (ha : a ∈ t) (hb : b ∈ t) (h : Row.Clash a b) :
    a = b := by
  by_contra hne
  have : Std.Symm (fun a b : α => ¬ Row.Clash a b) := ⟨fun _ _ hc hab => hc (Row.symm hab)⟩
  exact t.unique.forall ha hb hne h

theorem eq_of_key {t : Table α} {a b : α} (ha : a ∈ t) (hb : b ∈ t)
    (h : Row.key a = Row.key b) : a = b :=
  eq_of_clash ha hb (Row.of_key h)

theorem find?_eq_some {t : Table α} {k : Row.Key α} {a : α} :
    t.find? k = some a ↔ a ∈ t ∧ Row.key a = k := by
  constructor
  · intro h
    exact ⟨List.mem_of_find?_eq_some h, by simpa using List.find?_some h⟩
  · rintro ⟨ha, rfl⟩
    cases hfind : t.find? (Row.key a) with
    | none => exact absurd (List.find?_eq_none.mp hfind a ha) (by simp)
    | some b =>
        have hb : Row.key b = Row.key a := by simpa using List.find?_some hfind
        rw [eq_of_key (List.mem_of_find?_eq_some hfind) ha hb]

theorem find?_eq_none {t : Table α} {k : Row.Key α} :
    t.find? k = none ↔ ∀ a ∈ t, Row.key a ≠ k := by
  simp [find?, mem_rows]

@[simp] theorem mem_select {t : Table α} {p : α → Bool} {a : α} :
    a ∈ t.select p ↔ a ∈ t ∧ p a = true := List.mem_filter

@[simp] theorem mem_delete {t : Table α} {p : α → Bool} {a : α} :
    a ∈ t.delete p ↔ a ∈ t ∧ p a = false := by
  rw [← mem_rows]
  simp [delete, mem_rows]

/-- A unique column: at most one row has a value in it. -/
theorem select_of_clash {t : Table α} {p : α → Bool} {a : α} (ha : a ∈ t) (hp : p a = true)
    (hclash : ∀ b, p b = true → Row.Clash b a) : t.select p = [a] := by
  have hall : ∀ b ∈ t.select p, b = a := fun b hb =>
    eq_of_clash (mem_select.mp hb).1 ha (hclash b (mem_select.mp hb).2)
  have hnodup : (t.select p).Nodup := by
    refine List.Nodup.filter _ (t.unique.imp fun hc heq => hc ?_)
    exact heq ▸ Row.of_key rfl
  have hmem : a ∈ t.select p := mem_select.mpr ⟨ha, hp⟩
  match hrows : t.select p with
  | [] => rw [hrows] at hmem; cases hmem
  | [b] => rw [hall b (by simp [hrows])]
  | b :: c :: rest =>
      have hbc : b = c := by rw [hall b (by simp [hrows]), hall c (by simp [hrows])]
      rw [hrows, hbc] at hnodup
      simp at hnodup

/-- The one row with a value in a unique column. -/
theorem head?_select {t : Table α} {p : α → Bool}
    (hclash : ∀ a b, p a = true → p b = true → Row.Clash a b) {a : α} :
    (t.select p).head? = some a ↔ a ∈ t ∧ p a = true := by
  constructor
  · intro h
    exact mem_select.mp (List.mem_of_mem_head? (Option.mem_def.mpr h))
  · rintro ⟨ha, hp⟩
    rw [select_of_clash ha hp (fun b hb => hclash b a hb hp)]
    rfl

/-! ## Writing rows -/

theorem ofRows_eq_some {rows : List α} {t : Table α} (h : ofRows rows = some t) :
    t.rows = rows := by
  unfold ofRows at h
  split at h
  · rw [← Option.some.inj h]
  · cases h

section Insert
variable {t t' : Table α} {a : α}

theorem mem_insertAll {rows : List α} (h : t.insertAll rows = some t') {x : α} :
    x ∈ t' ↔ x ∈ t ∨ x ∈ rows := by
  rw [← mem_rows, ofRows_eq_some h, List.mem_append, mem_rows]

/-- Rows that clash neither with each other nor with those of the table can be added. -/
theorem exists_insertAll {rows : List α} (hrows : rows.Pairwise (fun a b => ¬ Row.Clash a b))
    (hfree : ∀ b ∈ t, ∀ a ∈ rows, ¬ Row.Clash b a) : ∃ t', t.insertAll rows = some t' := by
  have hpair : (t.rows ++ rows).Pairwise (fun a b => ¬ Row.Clash a b) :=
    List.pairwise_append.mpr ⟨t.unique, hrows, hfree⟩
  exact ⟨_, dif_pos hpair⟩

theorem insertAll_nil (t : Table α) : t.insertAll [] = some t := by
  have hpair : (t.rows ++ []).Pairwise (fun a b => ¬ Row.Clash a b) := by
    rw [List.append_nil]
    exact t.unique
  rw [insertAll, ofRows, dif_pos hpair]
  congr
  exact List.append_nil _

theorem rows_insert (h : t.insert a = some t') : t'.rows = t.rows ++ [a] := ofRows_eq_some h

theorem mem_insert (h : t.insert a = some t') {x : α} : x ∈ t' ↔ x ∈ t ∨ x = a := by
  rw [mem_insertAll h, List.mem_singleton]

theorem not_clash_of_insert (h : t.insert a = some t') {b : α} (hb : b ∈ t) :
    ¬ Row.Clash b a := by
  have hpair := t'.unique
  rw [rows_insert h] at hpair
  exact (List.pairwise_append.mp hpair).2.2 b hb a (by simp)

/-- The database refuses a row exactly when it clashes with one it has. -/
theorem insert_eq_none : t.insert a = none ↔ ∃ b ∈ t, Row.Clash b a := by
  have hpair : (t.rows ++ [a]).Pairwise (fun a b => ¬ Row.Clash a b) ↔
      ∀ b ∈ t, ¬ Row.Clash b a := by
    simp [List.pairwise_append, t.unique, mem_rows]
  unfold insert insertAll ofRows
  split
  · rename_i hok
    simpa using hpair.mp hok
  · rename_i hbad
    simpa [hpair] using hbad

/-- A row that clashes with none can be added. -/
theorem exists_insert (h : ∀ b ∈ t, ¬ Row.Clash b a) : ∃ t', t.insert a = some t' := by
  refine Option.ne_none_iff_exists'.mp fun hnone => ?_
  obtain ⟨b, hb, hclash⟩ := insert_eq_none.mp hnone
  exact h b hb hclash

theorem find?_insert (h : t.insert a = some t') (k : Row.Key α) :
    t'.find? k = if Row.key a = k then some a else t.find? k := by
  split
  · rename_i hk
    exact find?_eq_some.mpr ⟨(mem_insert h).mpr (.inr rfl), hk⟩
  · rename_i hk
    refine Option.ext fun x => ?_
    rw [find?_eq_some, find?_eq_some, mem_insert h]
    constructor
    · rintro ⟨hx | rfl, hkey⟩
      · exact ⟨hx, hkey⟩
      · exact absurd hkey hk
    · rintro ⟨hx, hkey⟩
      exact ⟨.inl hx, hkey⟩

end Insert

section Modify
variable {t t' : Table α} {k : Row.Key α} {f : α → α}

theorem rows_modify (h : t.modify k f = some t') :
    t'.rows = t.rows.map (fun a => if Row.key a = k then f a else a) := ofRows_eq_some h

theorem mem_modify (h : t.modify k f = some t') {x : α} :
    x ∈ t' ↔ (∃ a ∈ t, Row.key a = k ∧ f a = x) ∨ (x ∈ t ∧ Row.key x ≠ k) := by
  rw [← mem_rows, rows_modify h, List.mem_map]
  constructor
  · rintro ⟨a, ha, rfl⟩
    split
    · exact .inl ⟨a, ha, ‹_›, rfl⟩
    · exact .inr ⟨ha, ‹_›⟩
  · rintro (⟨a, ha, hk, rfl⟩ | ⟨hx, hk⟩)
    · exact ⟨a, ha, by rw [if_pos hk]⟩
    · exact ⟨x, hx, by rw [if_neg hk]⟩

/-- A modification is refused exactly when the new row clashes with another row. -/
theorem modify_eq_none {a : α} (ha : t.find? k = some a) (hkey : Row.key (f a) = k) :
    t.modify k f = none ↔ ∃ b ∈ t, Row.key b ≠ k ∧ Row.Clash (f a) b := by
  obtain ⟨hmem, hka⟩ := find?_eq_some.mp ha
  constructor
  · intro hnone
    by_contra hfree
    push Not at hfree
    have hrow : ∀ x ∈ t, Row.key x = k → f x = f a := fun x hx hkx => by
      rw [eq_of_key hx hmem (hkx.trans hka.symm)]
    have hpair : (t.rows.map (fun a => if Row.key a = k then f a else a)).Pairwise
        (fun a b => ¬ Row.Clash a b) := by
      refine List.pairwise_map.mpr (t.unique.imp_of_mem ?_)
      intro x y hx hy hxy
      by_cases hkx : Row.key x = k <;> by_cases hky : Row.key y = k
      · exact absurd (Row.of_key (hkx.trans hky.symm)) hxy
      · rw [if_pos hkx, if_neg hky, hrow x hx hkx]
        exact hfree y hy hky
      · rw [if_neg hkx, if_pos hky, hrow y hy hky]
        exact fun hc => hfree x hx hkx (Row.symm hc)
      · rw [if_neg hkx, if_neg hky]
        exact hxy
    rw [modify, ofRows, dif_pos hpair] at hnone
    cases hnone
  · rintro ⟨b, hb, hkb, hclash⟩
    cases hmod : t.modify k f with
    | none => rfl
    | some t' =>
        have hfa : f a ∈ t' := (mem_modify hmod).mpr (.inl ⟨a, hmem, hka, rfl⟩)
        have hb' : b ∈ t' := (mem_modify hmod).mpr (.inr ⟨hb, hkb⟩)
        rw [eq_of_clash hfa hb' hclash] at hkey
        exact absurd hkey hkb

end Modify

end Table
end AdminPlatform.Lib
