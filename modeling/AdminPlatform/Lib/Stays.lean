import AdminPlatform.Lib.Entity

/-! # Rows that stay

What a projection shows of the rows of a table *stays*: every row is still there, and of what
the projection shows nothing has changed. An object that is written back leaves what it was
loaded with (`stays_flush`), whatever the row holds by then. -/

namespace AdminPlatform.Lib.Table
variable {α β : Type} {π : α → β}

section Row
variable [Row α] {t t' t'' : Table α}

def Stays (π : α → β) (t t' : Table α) : Prop := ∀ x ∈ t, ∃ x' ∈ t', π x' = π x

theorem Stays.refl (t : Table α) : Stays π t t := fun x hx => ⟨x, hx, rfl⟩

theorem Stays.trans (h : Stays π t t') (h' : Stays π t' t'') : Stays π t t'' := by
  intro x hx
  obtain ⟨x', hx', heq⟩ := h x hx
  obtain ⟨x'', hx'', heq'⟩ := h' x' hx'
  exact ⟨x'', hx'', heq'.trans heq⟩

theorem stays_insert {a : α} (h : t.insert a = some t') : Stays π t t' :=
  fun x hx => ⟨x, (mem_insert h).mpr (.inl hx), rfl⟩

/-- A projection that shows the key keeps look-ups from failing. -/
theorem Stays.isSome_find? (h : Stays π t t') (hπ : ∀ a b, π a = π b → Row.key a = Row.key b)
    {k : Row.Key α} (hk : (t.find? k).isSome) : (t'.find? k).isSome := by
  obtain ⟨x, hx⟩ := Option.isSome_iff_exists.mp hk
  obtain ⟨hmem, rfl⟩ := find?_eq_some.mp hx
  obtain ⟨x', hx', heq⟩ := h x hmem
  exact Option.isSome_iff_exists.mpr ⟨x', find?_eq_some.mpr ⟨hx', hπ _ _ heq⟩⟩

end Row

theorem stays_flush [Entity α] [DecidableEq α] {t t' : Table α} {loaded current : α}
    (h : t.flush loaded current = .ok t')
    (hπ : ∀ stored, π (Entity.merge loaded current stored) = π stored) : Stays π t t' := by
  rcases flush_inv h with ⟨-, rfl⟩ | ⟨stored, hstored, hmem⟩
  · exact .refl _
  · obtain ⟨hin, hkey⟩ := find?_eq_some.mp hstored
    intro x hx
    by_cases hk : Row.key x = Row.key loaded
    · obtain rfl := eq_of_key hx hin (hk.trans hkey.symm)
      exact ⟨_, (hmem _).mpr (.inl rfl), hπ x⟩
    · exact ⟨x, (hmem x).mpr (.inr ⟨hx, hk⟩), rfl⟩

end AdminPlatform.Lib.Table
