import AdminPlatform.Lib.Table

/-! # Loaded objects and their write-back

An object-relational mapper hands out objects: a row as it was loaded, whose attributes the
program then sets. `flush` writes an object back, and only the columns whose attributes
differ from what was loaded; the other columns keep whatever the row holds by then.

Where nothing else writes between the load and the flush, the row becomes the object
(`flush_loaded`). What two writers make of one row is `merge`. -/

namespace AdminPlatform.Lib

/-- A column after a flush: the attribute if it was set to something new, else as stored. -/
def column {β : Type} [DecidableEq β] (loaded current stored : β) : β :=
  if current = loaded then stored else current

@[simp] theorem column_loaded {β : Type} [DecidableEq β] (loaded current : β) :
    column loaded current loaded = current := by
  unfold column
  split <;> simp [*]

@[simp] theorem column_same {β : Type} [DecidableEq β] (loaded stored : β) :
    column loaded loaded stored = stored := if_pos rfl

theorem column_changed {β : Type} [DecidableEq β] {loaded current : β} (stored : β)
    (h : current ≠ loaded) : column loaded current stored = current := if_neg h

/-- Rows that are loaded as objects. `merge loaded current stored` is the row after the
flush of an object; the primary key is not an attribute programs set. -/
class Entity (α : Type) extends Row α where
  merge : α → α → α → α
  key_merge : ∀ loaded current stored, key (merge loaded current stored) = key stored
  merge_loaded : ∀ loaded current, key current = key loaded →
    merge loaded current loaded = current

/-- Why the database, or the mapper, refuses a statement. -/
inductive DbError
  /-- A unique or foreign-key constraint. -/
  | integrity
  /-- The row to update is not there. -/
  | staleData
  /-- The row to reload is not there. -/
  | couldNotRefresh
  /-- A value does not fit its column. -/
  | dataError
  deriving DecidableEq, Repr

namespace Table
variable {α : Type} [Entity α] [DecidableEq α]

/-- Write an object back. -/
def flush (t : Table α) (loaded current : α) : Except DbError (Table α) :=
  if current = loaded then .ok t
  else
    match t.find? (Row.key loaded) with
    | none => .error .staleData
    | some _ =>
        match t.modify (Row.key loaded) (Entity.merge loaded current) with
        | some t' => .ok t'
        | none => .error .integrity

variable {t t' : Table α} {loaded current : α}

/-- **What a flush can do.** Nothing, when no attribute was set; otherwise it merges the
object into the row of its key and leaves the other rows. -/
theorem flush_inv (h : t.flush loaded current = .ok t') :
    (current = loaded ∧ t' = t) ∨
      ∃ stored, t.find? (Row.key loaded) = some stored ∧
        ∀ x, x ∈ t' ↔ x = Entity.merge loaded current stored ∨
          (x ∈ t ∧ Row.key x ≠ Row.key loaded) := by
  unfold flush at h
  split at h
  · exact .inl ⟨‹_›, (Except.ok.inj h).symm⟩
  · split at h
    · cases h
    · rename_i stored hstored
      split at h
      · rename_i t'' hmod
        obtain rfl := Except.ok.inj h
        refine .inr ⟨stored, hstored, fun x => ?_⟩
        obtain ⟨hmem, hkey⟩ := find?_eq_some.mp hstored
        rw [mem_modify hmod]
        constructor
        · rintro (⟨a, ha, hka, rfl⟩ | hx)
          · rw [eq_of_key ha hmem (hka.trans hkey.symm)]
            exact .inl rfl
          · exact .inr hx
        · rintro (rfl | hx)
          · exact .inl ⟨stored, hmem, hkey, rfl⟩
          · exact .inr hx
      · cases h

/-- What is under a key after a flush: the row from before, or that row with the object merged
into it. -/
theorem find?_flush (h : t.flush loaded current = .ok t') (k : Row.Key α) :
    t'.find? k = t.find? k ∨
      ∃ stored, t.find? k = some stored ∧ t'.find? k = some (Entity.merge loaded current stored) := by
  rcases flush_inv h with ⟨-, rfl⟩ | ⟨stored, hstored, hmem⟩
  · exact .inl rfl
  · by_cases hk : k = Row.key loaded
    · subst hk
      obtain ⟨-, hkey⟩ := find?_eq_some.mp hstored
      refine .inr ⟨stored, hstored, find?_eq_some.mpr ⟨(hmem _).mpr (.inl rfl), ?_⟩⟩
      rw [Entity.key_merge, hkey]
    · refine .inl (Option.ext fun x => ?_)
      rw [find?_eq_some, find?_eq_some, hmem]
      constructor
      · rintro ⟨rfl | ⟨hx, -⟩, hkx⟩
        · rw [Entity.key_merge, (find?_eq_some.mp hstored).2] at hkx
          exact absurd hkx.symm hk
        · exact ⟨hx, hkx⟩
      · rintro ⟨hx, hkx⟩
        exact ⟨.inr ⟨hx, hkx ▸ hk⟩, hkx⟩

/-- **A flush that nothing came before.** The row is the object, the others stay. -/
theorem flush_loaded (h : t.flush loaded current = .ok t')
    (hloaded : t.find? (Row.key loaded) = some loaded)
    (hkey : Row.key current = Row.key loaded) {x : α} :
    x ∈ t' ↔ x = current ∨ (x ∈ t ∧ Row.key x ≠ Row.key loaded) := by
  rcases flush_inv h with ⟨rfl, rfl⟩ | ⟨stored, hstored, hmem⟩
  · obtain ⟨hin, -⟩ := find?_eq_some.mp hloaded
    constructor
    · intro hx
      by_cases hk : Row.key x = Row.key current
      · exact .inl (eq_of_key hx hin hk)
      · exact .inr ⟨hx, hk⟩
    · rintro (rfl | ⟨hx, -⟩)
      · exact hin
      · exact hx
  · obtain rfl : stored = loaded := by simpa [hloaded] using hstored.symm
    rw [hmem, Entity.merge_loaded _ _ hkey]

/-- A flush is made if the object clashes with no other row. -/
theorem exists_flush (hloaded : t.find? (Row.key loaded) = some loaded)
    (hkey : Row.key current = Row.key loaded)
    (hfree : ∀ b ∈ t, Row.key b ≠ Row.key loaded → ¬ Row.Clash current b) :
    ∃ t', t.flush loaded current = .ok t' := by
  unfold flush
  split
  · exact ⟨t, rfl⟩
  · rw [hloaded]
    dsimp only
    have hmerge : Entity.merge loaded current loaded = current := Entity.merge_loaded _ _ hkey
    cases hmod : t.modify (Row.key loaded) (Entity.merge loaded current) with
    | some t' => exact ⟨t', rfl⟩
    | none =>
        have hkey' : Row.key (Entity.merge loaded current loaded) = Row.key loaded := by
          rw [hmerge, hkey]
        obtain ⟨b, hb, hne, hclash⟩ := (modify_eq_none hloaded hkey').mp hmod
        rw [hmerge] at hclash
        exact absurd hclash (hfree b hb hne)

/-- What is flushed clashes with no other row. -/
theorem not_clash_of_flush (h : t.flush loaded current = .ok t')
    (hloaded : t.find? (Row.key loaded) = some loaded)
    (hkey : Row.key current = Row.key loaded) {b : α} (hb : b ∈ t)
    (hne : Row.key b ≠ Row.key loaded) : ¬ Row.Clash current b := by
  have hmem := fun x => flush_loaded h hloaded hkey (x := x)
  intro hclash
  have heq := eq_of_clash ((hmem _).mpr (.inl rfl)) ((hmem _).mpr (.inr ⟨hb, hne⟩)) hclash
  exact hne (heq ▸ hkey)

theorem find?_flush_loaded (h : t.flush loaded current = .ok t')
    (hloaded : t.find? (Row.key loaded) = some loaded)
    (hkey : Row.key current = Row.key loaded) (k : Row.Key α) :
    t'.find? k = if k = Row.key loaded then some current else t.find? k := by
  refine Option.ext fun x => ?_
  split
  · rename_i hk
    subst hk
    rw [find?_eq_some, flush_loaded h hloaded hkey]
    constructor
    · rintro ⟨rfl | ⟨-, hne⟩, hx⟩
      · rfl
      · exact absurd hx hne
    · rintro ⟨⟩
      exact ⟨.inl rfl, hkey⟩
  · rename_i hk
    rw [find?_eq_some, find?_eq_some, flush_loaded h hloaded hkey]
    constructor
    · rintro ⟨rfl | ⟨hx, -⟩, hkx⟩
      · exact absurd (hkx.symm.trans hkey) hk
      · exact ⟨hx, hkx⟩
    · rintro ⟨hx, rfl⟩
      exact ⟨.inr ⟨hx, hk⟩, rfl⟩

end Table
end AdminPlatform.Lib
