import Mathlib.Data.List.Induction
import Mathlib.Data.List.Forall2

/-! # Hash chains

A chain is a list of links, each holding the hash of its predecessor, its own hash and
the fields that hash seals. `digest` is any function of the predecessor's hash (`none` for
the first link) and the fields.

* `Linked` says that a list of links is a chain from a given predecessor.
* `tip` is the hash the next link has to point at.
* `agree_of_tip` is tamper evidence: two chains with the same tip agree link by link, as
  long as `digest` separates the positions the two chains actually hash. -/

namespace AdminPlatform.Lib.HashChain

variable {H F : Type*}

structure Link (H F : Type*) where
  prev : Option H
  hash : H
  fields : F

/-- The hash that a link appended to `ls` has to point at. -/
def tip : Option H → List (Link H F) → Option H
  | p, [] => p
  | _, l :: ls => tip (some l.hash) ls

/-- `ls` is a chain whose first link has `p` as its predecessor. -/
def Linked (digest : Option H → F → H) : Option H → List (Link H F) → Prop
  | _, [] => True
  | p, l :: ls => l.prev = p ∧ l.hash = digest p l.fields ∧ Linked digest (some l.hash) ls

/-- What is hashed along a chain: each link's fields, with the predecessor's hash. -/
def positions : Option H → List (Link H F) → List (Option H × F)
  | _, [] => []
  | p, l :: ls => (p, l.fields) :: positions (some l.hash) ls

variable {digest : Option H → F → H}

@[simp] theorem tip_nil (p : Option H) : tip p ([] : List (Link H F)) = p := rfl

@[simp] theorem tip_append (p : Option H) (xs ys : List (Link H F)) :
    tip p (xs ++ ys) = tip (tip p xs) ys := by
  induction xs generalizing p with
  | nil => rfl
  | cons l xs ih => exact ih _

theorem tip_concat (p : Option H) (xs : List (Link H F)) (l : Link H F) :
    tip p (xs ++ [l]) = some l.hash := by
  rw [tip_append]; rfl

theorem positions_append (p : Option H) (xs ys : List (Link H F)) :
    positions p (xs ++ ys) = positions p xs ++ positions (tip p xs) ys := by
  induction xs generalizing p with
  | nil => rfl
  | cons l xs ih => simp only [List.cons_append, positions, ih, tip]

theorem linked_append (p : Option H) (xs ys : List (Link H F)) :
    Linked digest p (xs ++ ys) ↔ Linked digest p xs ∧ Linked digest (tip p xs) ys := by
  induction xs generalizing p with
  | nil => simp [Linked]
  | cons l xs ih => simp only [List.cons_append, Linked, tip, ih, and_assoc]

/-- Appending one link: it points at the tip and seals its own fields. -/
theorem linked_concat (p : Option H) (xs : List (Link H F)) (l : Link H F) :
    Linked digest p (xs ++ [l]) ↔
      Linked digest p xs ∧ l.prev = tip p xs ∧ l.hash = digest (tip p xs) l.fields := by
  rw [linked_append]
  simp [Linked]

/-- **A link of a chain** is hashed at a position of it. -/
theorem Linked.position {p : Option H} {ls : List (Link H F)} (h : Linked digest p ls)
    {l : Link H F} (hl : l ∈ ls) :
    (l.prev, l.fields) ∈ positions p ls ∧ l.hash = digest l.prev l.fields := by
  induction ls generalizing p with
  | nil => cases hl
  | cons m ls ih =>
      obtain ⟨hprev, hhash, hrest⟩ := h
      rcases List.mem_cons.mp hl with rfl | hl
      · rw [hprev]
        exact ⟨List.mem_cons_self, hhash⟩
      · obtain ⟨hposition, hdigest⟩ := ih hrest hl
        exact ⟨List.mem_cons_of_mem _ hposition, hdigest⟩

/-- The digests of the positions of a chain are its hashes. -/
theorem Linked.map_positions {p : Option H} {ls : List (Link H F)} (h : Linked digest p ls) :
    (positions p ls).map (fun position => digest position.1 position.2) = ls.map Link.hash := by
  induction ls generalizing p with
  | nil => rfl
  | cons l ls ih =>
      obtain ⟨-, hhash, hrest⟩ := h
      rw [positions, List.map_cons, List.map_cons, ih hrest, hhash]

/-- A chain is determined by the fields it seals. -/
theorem Linked.eq_of_fields {p : Option H} {xs ys : List (Link H F)} (hx : Linked digest p xs)
    (hy : Linked digest p ys) (h : xs.map Link.fields = ys.map Link.fields) : xs = ys := by
  induction xs generalizing p ys with
  | nil => exact (List.map_eq_nil_iff.mp h.symm).symm
  | cons l xs ih =>
      obtain ⟨m, ys, rfl, hfields, hrest⟩ := List.map_eq_cons_iff.mp h.symm
      obtain ⟨hlprev, hlhash, hx⟩ := hx
      obtain ⟨hmprev, hmhash, hy⟩ := hy
      have hhash : l.hash = m.hash := by rw [hlhash, hmhash, hfields]
      have hlink : l = m := by
        obtain ⟨lprev, lhash, lfields⟩ := l
        obtain ⟨mprev, mhash, mfields⟩ := m
        obtain rfl : lprev = mprev := hlprev.trans hmprev.symm
        obtain rfl : lhash = mhash := hhash
        obtain rfl : mfields = lfields := hfields
        rfl
      rw [hlink, ih hx (hhash ▸ hy) hrest.symm]

/-- **A link taken out** of a chain leaves a chain exactly if it was the last one, as long as
`digest` separates the positions of the chain. -/
theorem linked_erase_iff {Same : F → F → Prop} {xs ys : List (Link H F)} {l : Link H F}
    (h : Linked digest none (xs ++ l :: ys))
    (hsep : ∀ a ∈ positions none (xs ++ l :: ys), ∀ b ∈ positions none (xs ++ l :: ys),
      digest a.1 a.2 = digest b.1 b.2 → Same a.2 b.2)
    (hdistinct : ∀ m ∈ xs, ¬ Same m.fields l.fields) :
    Linked digest none (xs ++ ys) ↔ ys = [] := by
  have hlinked := h
  rw [linked_append] at h
  obtain ⟨hxs, -, -, hys⟩ := h
  cases ys with
  | nil => simpa using hxs
  | cons m ys =>
      refine iff_of_false (fun herased => ?_) (List.cons_ne_nil _ _)
      rw [linked_append] at herased
      -- the next link points at the one taken out, and at the one before it
      have hnext : some l.hash = tip none xs := hys.1.symm.trans herased.2.1
      rcases List.eq_nil_or_concat xs with rfl | ⟨init, last, rfl⟩
      · cases hnext
      · rw [List.concat_eq_append, tip_concat] at hnext
        have hlast : last ∈ init.concat last ++ l :: m :: ys := by simp
        have hl : l ∈ init.concat last ++ l :: m :: ys := by simp
        obtain ⟨hlastPosition, hlastHash⟩ := hlinked.position hlast
        obtain ⟨hlPosition, hlHash⟩ := hlinked.position hl
        have hdigest : digest last.prev last.fields = digest l.prev l.fields := by
          rw [← hlastHash, ← hlHash, Option.some.inj hnext]
        exact hdistinct last (by simp) (hsep _ hlastPosition _ hlPosition hdigest)

/-! ## Tamper evidence -/

/-- Two links carry the same evidence, up to `Same` on the sealed fields. -/
def Agree (Same : F → F → Prop) (l m : Link H F) : Prop :=
  l.prev = m.prev ∧ l.hash = m.hash ∧ Same l.fields m.fields

/-- **Tamper evidence relative to the tip.** Two chains from nothing whose tips are equal
have the same length and agree link by link, when `digest` separates the positions of the
two chains up to `Same`. The induction runs backwards from the tips: equal hashes give
equal predecessors, and a missing predecessor ends both chains at once. -/
theorem agree_of_tip {Same : F → F → Prop} {xs ys : List (Link H F)}
    (hsep : ∀ a ∈ positions none xs, ∀ b ∈ positions none ys,
      digest a.1 a.2 = digest b.1 b.2 → a.1 = b.1 ∧ Same a.2 b.2)
    (hx : Linked digest none xs) (hy : Linked digest none ys)
    (htip : tip none xs = tip none ys) : List.Forall₂ (Agree Same) xs ys := by
  induction xs using List.reverseRecOn generalizing ys with
  | nil =>
      rcases List.eq_nil_or_concat ys with rfl | ⟨ys, m, rfl⟩
      · exact .nil
      · rw [List.concat_eq_append, tip_concat] at htip
        cases htip
  | append_singleton xs l ih =>
      rcases List.eq_nil_or_concat ys with rfl | ⟨ys, m, rfl⟩
      · rw [tip_concat] at htip
        cases htip
      · rw [List.concat_eq_append] at *
        obtain ⟨hx, hlprev, hlhash⟩ := (linked_concat _ _ _).mp hx
        obtain ⟨hy, hmprev, hmhash⟩ := (linked_concat _ _ _).mp hy
        have hhash : l.hash = m.hash := by
          rw [tip_concat, tip_concat] at htip
          exact Option.some.inj htip
        have hdigest : digest (tip none xs) l.fields = digest (tip none ys) m.fields := by
          rw [← hlhash, ← hmhash, hhash]
        obtain ⟨hprev, hsame⟩ : tip none xs = tip none ys ∧ Same l.fields m.fields :=
          hsep (tip none xs, l.fields) (by simp [positions_append, positions])
            (tip none ys, m.fields) (by simp [positions_append, positions]) hdigest
        have hinit : List.Forall₂ (Agree Same) xs ys :=
          ih (fun a ha b hb => hsep a (by simp [positions_append, ha]) b
            (by simp [positions_append, hb])) hx hy hprev
        have hlast : Agree Same l m := ⟨by rw [hlprev, hmprev, hprev], hhash, hsame⟩
        exact List.rel_append hinit (.cons hlast .nil)

end AdminPlatform.Lib.HashChain
