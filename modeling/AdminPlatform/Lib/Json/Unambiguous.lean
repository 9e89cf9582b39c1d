import AdminPlatform.Lib.Json.Basic

/-! # The text of a JSON value is unambiguous

Each token of the text determines itself and what follows it: if two concatenations that
start with tokens of one kind are equal, then the tokens are equal and so are the rests.
Strings and containers carry their own end, a number ends where no number character
follows (`Delimited`).

Put together over the structure of values this gives `render_injective`, and
`dumps_injective`: equal canonical texts come from values that are equal up to the order
of dictionary keys. -/

namespace AdminPlatform.Lib.Json

/-! ## Strings -/

theorem mem_escapes {c e : Char} (h : shortEscape c = some e) : (c, e) ∈ escapes := by
  obtain ⟨p, hp, rfl⟩ := Option.map_eq_some_iff.mp h
  have hc : p.1 = c := by simpa using List.find?_some hp
  exact hc ▸ List.mem_of_find?_eq_some hp

theorem escapes_inj : ∀ p ∈ escapes, ∀ q ∈ escapes, p.2 = q.2 → p.1 = q.1 := by decide

theorem escapes_ne_u : ∀ p ∈ escapes, p.2 ≠ 'u' := by decide

theorem ne_of_shortEscape_none {c : Char} (h : shortEscape c = none) : c ≠ '\\' ∧ c ≠ '"' := by
  constructor <;> rintro rfl <;> exact absurd h (by decide)

/-- The four ways a character of a string is written. -/
inductive Escaped (c : Char) : List Char → Prop
  | short {e} : (c, e) ∈ escapes → Escaped c ['\\', e]
  | plain : c ≠ '\\' → c ≠ '"' → Escaped c [c]
  | unit : c.toNat < 0x10000 → Escaped c (escapeUnit c.toNat)
  | pair : 0x10000 ≤ c.toNat → Escaped c
      (escapeUnit (0xd800 + (c.toNat - 0x10000) / 0x400) ++
        escapeUnit (0xdc00 + (c.toNat - 0x10000) % 0x400))

theorem escapeChar_escaped (c : Char) : Escaped c (escapeChar c) := by
  unfold escapeChar
  cases hs : shortEscape c with
  | some e => exact .short (mem_escapes hs)
  | none =>
      obtain ⟨hb, hq⟩ := ne_of_shortEscape_none hs
      dsimp only
      split
      · exact .plain hb hq
      · split
        · exact .unit ‹_›
        · exact .pair (by omega)

/-- A character is no surrogate and lies below U+110000. -/
theorem toNat_scalar (c : Char) : c.toNat < 0xd800 ∨ 0xdfff < c.toNat ∧ c.toNat < 0x110000 :=
  c.valid

theorem escapeUnit_append_inj {n m : Nat} (hn : n < 0x10000) (hm : m < 0x10000)
    {r s : List Char} (h : escapeUnit n ++ r = escapeUnit m ++ s) : n = m ∧ r = s := by
  simp only [escapeUnit, List.cons_append, List.cons.injEq, true_and] at h
  exact fixedDigits_append_inj (by decide) (by decide) hn hm h

/-- An escaped character determines itself and what follows it. The cases are the pairs of
forms: two different forms differ in their first two characters, except for a lone unit
and a pair, whose first unit is a high surrogate. -/
theorem Escaped.append_inj {c d : Char} {x y : List Char} (hx : Escaped c x) (hy : Escaped d y)
    {r s : List Char} (h : x ++ r = y ++ s) : c = d ∧ r = s := by
  have hc := toNat_scalar c
  have hd := toNat_scalar d
  cases hx with
  | @short e he =>
      cases hy with
      | short he' =>
          simp only [List.cons_append, List.nil_append, List.cons.injEq, true_and] at h
          exact ⟨escapes_inj _ he _ he' h.1, h.2⟩
      | plain hb _ => exact absurd (List.cons.inj h).1.symm hb
      | unit _ => exact absurd (List.cons.inj (List.cons.inj h).2).1 (escapes_ne_u _ he)
      | pair _ => exact absurd (List.cons.inj (List.cons.inj h).2).1 (escapes_ne_u _ he)
  | plain hb _ =>
      cases hy with
      | short _ => exact absurd (List.cons.inj h).1 hb
      | plain _ _ => exact List.cons.inj h
      | unit _ => exact absurd (List.cons.inj h).1 hb
      | pair _ => exact absurd (List.cons.inj h).1 hb
  | unit hlt =>
      cases hy with
      | short he => exact absurd (List.cons.inj (List.cons.inj h).2).1.symm (escapes_ne_u _ he)
      | plain hb _ => exact absurd (List.cons.inj h).1.symm hb
      | unit hlt' =>
          obtain ⟨hn, hr⟩ := escapeUnit_append_inj hlt hlt' h
          exact ⟨Char.toNat_inj.mp hn, hr⟩
      | pair hge =>
          rw [List.append_assoc] at h
          have hn := (escapeUnit_append_inj hlt (by omega) h).1
          omega
  | pair hge =>
      cases hy with
      | short he => exact absurd (List.cons.inj (List.cons.inj h).2).1.symm (escapes_ne_u _ he)
      | plain hb _ => exact absurd (List.cons.inj h).1.symm hb
      | unit hlt =>
          rw [List.append_assoc] at h
          have hn := (escapeUnit_append_inj (by omega) hlt h).1
          omega
      | pair hge' =>
          rw [List.append_assoc, List.append_assoc] at h
          obtain ⟨hhi, hlow⟩ := escapeUnit_append_inj (by omega) (by omega) h
          obtain ⟨hlo, hr⟩ := escapeUnit_append_inj (by omega) (by omega) hlow
          exact ⟨Char.toNat_inj.mp (by omega), hr⟩

theorem escaped_ne_quote {c : Char} {x : List Char} (hx : Escaped c x) {r s : List Char} :
    x ++ r ≠ '"' :: s := by
  intro h
  cases hx with
  | short _ => simp at h
  | plain _ hq => simp_all
  | unit _ => simp [escapeUnit] at h
  | pair _ => simp [escapeUnit] at h

/-- A string token ends itself. -/
theorem escapeChars_append_inj {cs ds : List Char} {r s : List Char}
    (h : escapeChars cs ++ r = escapeChars ds ++ s) : cs = ds ∧ r = s := by
  induction cs generalizing ds with
  | nil =>
      cases ds with
      | nil => simpa [escapeChars] using h
      | cons d ds =>
          rw [escapeChars, escapeChars, List.append_assoc] at h
          exact absurd h.symm (escaped_ne_quote (escapeChar_escaped d))
  | cons c cs ih =>
      cases ds with
      | nil =>
          rw [escapeChars, escapeChars, List.append_assoc] at h
          exact absurd h (escaped_ne_quote (escapeChar_escaped c))
      | cons d ds =>
          rw [escapeChars, escapeChars, List.append_assoc, List.append_assoc] at h
          obtain ⟨hcd, hrest⟩ := (escapeChar_escaped c).append_inj (escapeChar_escaped d) h
          obtain ⟨hcs, hrs⟩ := ih hrest
          exact ⟨by rw [hcd, hcs], hrs⟩

theorem quote_append_inj {a b : String} {r s : List Char} (h : quote a ++ r = quote b ++ s) :
    a = b ∧ r = s := by
  obtain ⟨hab, hrs⟩ := escapeChars_append_inj (List.cons.inj h).2
  exact ⟨String.toList_inj.mp hab, hrs⟩

/-! ## Numbers -/

/-- No number token can be continued by `r`. -/
def Delimited (r : List Char) : Prop := ∀ c ∈ r.head?, isNumberChar c = false

theorem delimited_cons {c : Char} {r : List Char} (h : isNumberChar c = false) :
    Delimited (c :: r) := by
  intro d hd
  obtain rfl : c = d := by simpa using hd
  exact h

theorem number_append_inj {x y r s : List Char} (hx : x.all isNumberChar = true)
    (hy : y.all isNumberChar = true) (hr : Delimited r) (hs : Delimited s)
    (h : x ++ r = y ++ s) : x = y ∧ r = s := by
  induction x generalizing y with
  | nil =>
      cases y with
      | nil => exact ⟨rfl, h⟩
      | cons b y =>
          simp only [List.all_cons, Bool.and_eq_true] at hy
          rw [List.nil_append] at h
          have hb : isNumberChar b = false := hr b (by rw [h]; simp)
          rw [hy.1] at hb
          cases hb
  | cons a x ih =>
      simp only [List.all_cons, Bool.and_eq_true] at hx
      cases y with
      | nil =>
          rw [List.nil_append] at h
          have ha : isNumberChar a = false := hs a (by rw [← h]; simp)
          rw [hx.1] at ha
          cases ha
      | cons b y =>
          simp only [List.all_cons, Bool.and_eq_true] at hy
          obtain ⟨hab, hrest⟩ := List.cons.inj h
          obtain ⟨hxy, hrs⟩ := ih hx.2 hy.2 hrest
          exact ⟨by rw [hab, hxy], hrs⟩

theorem toDigits_isDigit {n : Nat} {c : Char} (h : c ∈ Nat.toDigits 10 n) : c.isDigit = true :=
  Nat.isDigit_of_mem_toDigits (by decide) (by decide) h

theorem toDigits_inj {n m : Nat} (h : Nat.toDigits 10 n = Nat.toDigits 10 m) : n = m := by
  rw [← @Nat.ofDigitChars_ten_toDigits n, h, Nat.ofDigitChars_ten_toDigits]

theorem toDigits_ne_minus {n : Nat} {r : List Char} : Nat.toDigits 10 n ≠ '-' :: r := by
  intro h
  have hm : '-' ∈ Nat.toDigits 10 n := by rw [h]; simp
  exact absurd (toDigits_isDigit hm) (by decide)

theorem intText_all (n : Int) : (intText n).all isIntChar = true := by
  cases n with
  | ofNat n => exact List.all_eq_true.mpr fun c hc => by simp [isIntChar, toDigits_isDigit hc]
  | negSucc n =>
      refine List.all_eq_true.mpr fun c hc => ?_
      rcases List.mem_cons.mp hc with rfl | hc
      · rfl
      · simp [isIntChar, toDigits_isDigit hc]

theorem isNumberChar_of_isIntChar {c : Char} (h : isIntChar c = true) : isNumberChar c = true := by
  simp only [isIntChar, Bool.or_eq_true, beq_iff_eq] at h
  rcases h with h | rfl
  · simp [isNumberChar, h]
  · decide

theorem intText_number (n : Int) : (intText n).all isNumberChar = true :=
  List.all_eq_true.mpr fun c hc =>
    isNumberChar_of_isIntChar (List.all_eq_true.mp (intText_all n) c hc)

theorem intText_inj {n m : Int} (h : intText n = intText m) : n = m := by
  cases n with
  | ofNat n =>
      cases m with
      | ofNat m => exact congrArg Int.ofNat (toDigits_inj h)
      | negSucc m => exact absurd h toDigits_ne_minus
  | negSucc n =>
      cases m with
      | ofNat m => exact absurd h.symm toDigits_ne_minus
      | negSucc m =>
          have hnm : n + 1 = m + 1 := toDigits_inj (List.cons.inj h).2
          rw [Nat.succ.inj hnm]

theorem intText_starts (n : Int) : ∃ c t, intText n = c :: t ∧ isNumberStart c = true := by
  cases n with
  | ofNat n =>
      cases hd : Nat.toDigits 10 n with
      | nil => exact absurd hd Nat.toDigits_ne_nil
      | cons c t =>
          have hc : c.isDigit = true := toDigits_isDigit (n := n) (by rw [hd]; simp)
          exact ⟨c, t, hd, by simp [isNumberStart, hc]⟩
  | negSucc n => exact ⟨'-', _, rfl, by decide⟩

theorem floatText_starts (x : FloatText) :
    ∃ c t, x.text = c :: t ∧ isNumberStart c = true := by
  have h := x.starts
  cases hx : x.text with
  | nil => simp [hx] at h
  | cons c t => exact ⟨c, t, rfl, by simpa [hx] using h⟩

theorem floatText_ne_intText (x : FloatText) (n : Int) : x.text ≠ intText n := by
  intro h
  have hx := x.notInt
  rw [h, intText_all] at hx
  cases hx

theorem floatText_ext {x y : FloatText} (h : x.text = y.text) : x = y := by
  cases x; cases y; cases h; rfl

/-! ## Values

The first character of a text says which kind of value it is the text of. -/

/-- The kind of value a text starting with `c` belongs to. -/
def kindOfLead (c : Char) : Nat :=
  if c = 'n' then 0 else if c = 't' then 1 else if c = 'f' then 2 else if c = '"' then 3
  else if c = '[' then 4 else if c = '{' then 5 else 6

def kind : Json → Nat
  | .null => 0
  | .bool true => 1
  | .bool false => 2
  | .str _ => 3
  | .arr _ => 4
  | .obj _ => 5
  | .int _ => 6
  | .float _ => 6

theorem kindOfLead_number {c : Char} (h : isNumberStart c = true) :
    kindOfLead c = 6 ∧ c ≠ ']' := by
  simp only [kindOfLead]
  refine ⟨?_, by rintro rfl; exact absurd h (by decide)⟩
  repeat' split
  all_goals first | rfl | (subst_vars; exact absurd h (by decide))

theorem render_lead (j : Json) :
    ∃ c t, j.render = c :: t ∧ kindOfLead c = j.kind ∧ c ≠ ']' := by
  cases j with
  | null => exact ⟨_, _, rfl, by decide, by decide⟩
  | bool b => cases b <;> exact ⟨_, _, rfl, by decide, by decide⟩
  | int n =>
      obtain ⟨c, t, h, hc⟩ := intText_starts n
      exact ⟨c, t, by rw [render, h], kindOfLead_number hc⟩
  | float x =>
      obtain ⟨c, t, h, hc⟩ := floatText_starts x
      exact ⟨c, t, by rw [render, h], kindOfLead_number hc⟩
  | str s => exact ⟨'"', _, by rw [render, quote], rfl, by decide⟩
  | arr xs => exact ⟨'[', _, by rw [render], rfl, by decide⟩
  | obj kvs => exact ⟨'{', _, by rw [render], rfl, by decide⟩

theorem kind_eq_of_render {j k : Json} {r s : List Char} (h : j.render ++ r = k.render ++ s) :
    j.kind = k.kind := by
  obtain ⟨c, t, hj, hc, -⟩ := render_lead j
  obtain ⟨d, u, hk, hd, -⟩ := render_lead k
  rw [hj, hk] at h
  rw [← hc, ← hd, (List.cons.inj h).1]

theorem render_ne_close {j : Json} {r s : List Char} : j.render ++ r ≠ ']' :: s := by
  obtain ⟨c, t, hj, -, hc⟩ := render_lead j
  intro h
  rw [hj] at h
  exact hc (List.cons.inj h).1

theorem delimited_moreItems (xs : List Json) (r : List Char) :
    Delimited (renderMoreItems xs ++ r) := by
  cases xs <;> exact delimited_cons (by decide)

theorem delimited_moreFields (kvs : List (String × Json)) (r : List Char) :
    Delimited (renderMoreFields kvs ++ r) := by
  rcases kvs with _ | ⟨⟨k, v⟩, kvs⟩ <;> exact delimited_cons (by decide)

/-- The number case: an integer and a float are never written alike. -/
theorem number_cancel {j k : Json} {r s : List Char} (hj : j.kind = 6) (hk : k.kind = 6)
    (hr : Delimited r) (hs : Delimited s) (h : j.render ++ r = k.render ++ s) :
    j = k ∧ r = s := by
  cases j with
  | int n =>
      cases k with
      | int m =>
          obtain ⟨hnm, hrs⟩ :=
            number_append_inj (intText_number n) (intText_number m) hr hs h
          exact ⟨by rw [intText_inj hnm], hrs⟩
      | float y =>
          have hny := (number_append_inj (intText_number n) y.number hr hs h).1
          exact absurd hny.symm (floatText_ne_intText y n)
      | bool b => cases b <;> cases hk
      | _ => cases hk
  | float x =>
      cases k with
      | int m =>
          have hxm := (number_append_inj x.number (intText_number m) hr hs h).1
          exact absurd hxm (floatText_ne_intText x m)
      | float y =>
          obtain ⟨hxy, hrs⟩ := number_append_inj x.number y.number hr hs h
          exact ⟨by rw [floatText_ext hxy], hrs⟩
      | bool b => cases b <;> cases hk
      | _ => cases hk
  | bool b => cases b <;> cases hj
  | _ => cases hj

mutual
/-- **A value's text determines the value and what follows it.** -/
theorem render_cancel : ∀ (j k : Json) {r s : List Char}, Delimited r → Delimited s →
    j.render ++ r = k.render ++ s → j = k ∧ r = s
  | .null, k, r, s, _, _, h => by
      have hkind := kind_eq_of_render h
      cases k with
      | null => exact ⟨rfl, List.append_cancel_left h⟩
      | bool b => cases b <;> cases hkind
      | _ => cases hkind
  | .bool a, k, r, s, _, _, h => by
      have hkind := kind_eq_of_render h
      cases k with
      | bool b =>
          cases a <;> cases b <;> first | exact ⟨rfl, List.append_cancel_left h⟩ | cases hkind
      | _ => cases a <;> cases hkind
  | .int n, k, r, s, hr, hs, h => number_cancel rfl (kind_eq_of_render h).symm hr hs h
  | .float x, k, r, s, hr, hs, h => number_cancel rfl (kind_eq_of_render h).symm hr hs h
  | .str a, k, r, s, _, _, h => by
      have hkind := kind_eq_of_render h
      cases k with
      | str b =>
          obtain ⟨hab, hrs⟩ := quote_append_inj h
          exact ⟨by rw [hab], hrs⟩
      | bool b => cases b <;> cases hkind
      | _ => cases hkind
  | .arr xs, k, r, s, _, _, h => by
      have hkind := kind_eq_of_render h
      cases k with
      | arr ys =>
          obtain ⟨hxy, hrs⟩ := items_cancel xs ys (List.cons.inj h).2
          exact ⟨by rw [hxy], hrs⟩
      | bool b => cases b <;> cases hkind
      | _ => cases hkind
  | .obj kvs, k, r, s, _, _, h => by
      have hkind := kind_eq_of_render h
      cases k with
      | obj lws =>
          obtain ⟨hkl, hrs⟩ := fields_cancel kvs lws (List.cons.inj h).2
          exact ⟨by rw [hkl], hrs⟩
      | bool b => cases b <;> cases hkind
      | _ => cases hkind

theorem items_cancel : ∀ (xs ys : List Json) {r s : List Char},
    renderItems xs ++ r = renderItems ys ++ s → xs = ys ∧ r = s
  | [], [], _, _, h => ⟨rfl, List.append_cancel_left h⟩
  | [], y :: ys, r, s, h => by
      rw [renderItems, renderItems, List.append_assoc] at h
      exact absurd h.symm render_ne_close
  | x :: xs, [], r, s, h => by
      rw [renderItems, renderItems, List.append_assoc] at h
      exact absurd h render_ne_close
  | x :: xs, y :: ys, r, s, h => by
      rw [renderItems, renderItems, List.append_assoc, List.append_assoc] at h
      obtain ⟨hxy, hmore⟩ :=
        render_cancel x y (delimited_moreItems xs r) (delimited_moreItems ys s) h
      obtain ⟨hxs, hrs⟩ := moreItems_cancel xs ys hmore
      exact ⟨by rw [hxy, hxs], hrs⟩

theorem moreItems_cancel : ∀ (xs ys : List Json) {r s : List Char},
    renderMoreItems xs ++ r = renderMoreItems ys ++ s → xs = ys ∧ r = s
  | [], [], _, _, h => ⟨rfl, List.append_cancel_left h⟩
  | [], y :: ys, r, s, h => absurd (List.cons.inj h).1 (by decide)
  | x :: xs, [], r, s, h => absurd (List.cons.inj h).1 (by decide)
  | x :: xs, y :: ys, r, s, h => by
      have h' : render x ++ renderMoreItems xs ++ r = render y ++ renderMoreItems ys ++ s :=
        (List.cons.inj h).2
      rw [List.append_assoc, List.append_assoc] at h'
      obtain ⟨hxy, hmore⟩ :=
        render_cancel x y (delimited_moreItems xs r) (delimited_moreItems ys s) h'
      obtain ⟨hxs, hrs⟩ := moreItems_cancel xs ys hmore
      exact ⟨by rw [hxy, hxs], hrs⟩

theorem fields_cancel : ∀ (kvs lws : List (String × Json)) {r s : List Char},
    renderFields kvs ++ r = renderFields lws ++ s → kvs = lws ∧ r = s
  | [], [], _, _, h => ⟨rfl, List.append_cancel_left h⟩
  | [], (l, w) :: lws, r, s, h => absurd (List.cons.inj h).1 (by decide)
  | (k, v) :: kvs, [], r, s, h => absurd (List.cons.inj h).1 (by decide)
  | (k, v) :: kvs, (l, w) :: lws, r, s, h => by
      rw [renderFields, renderFields, List.append_assoc, List.append_assoc] at h
      obtain ⟨hkl, hvalue⟩ := quote_append_inj h
      have h' : render v ++ renderMoreFields kvs ++ r =
          render w ++ renderMoreFields lws ++ s := (List.cons.inj hvalue).2
      rw [List.append_assoc, List.append_assoc] at h'
      obtain ⟨hvw, hmore⟩ :=
        render_cancel v w (delimited_moreFields kvs r) (delimited_moreFields lws s) h'
      obtain ⟨hrest, hrs⟩ := moreFields_cancel kvs lws hmore
      exact ⟨by rw [hkl, hvw, hrest], hrs⟩

theorem moreFields_cancel : ∀ (kvs lws : List (String × Json)) {r s : List Char},
    renderMoreFields kvs ++ r = renderMoreFields lws ++ s → kvs = lws ∧ r = s
  | [], [], _, _, h => ⟨rfl, List.append_cancel_left h⟩
  | [], (l, w) :: lws, r, s, h => absurd (List.cons.inj h).1 (by decide)
  | (k, v) :: kvs, [], r, s, h => absurd (List.cons.inj h).1 (by decide)
  | (k, v) :: kvs, (l, w) :: lws, r, s, h => by
      have hfield :
          quote k ++ ':' :: (render v ++ renderMoreFields kvs) ++ r =
            quote l ++ ':' :: (render w ++ renderMoreFields lws) ++ s := (List.cons.inj h).2
      rw [List.append_assoc, List.append_assoc] at hfield
      obtain ⟨hkl, hvalue⟩ := quote_append_inj hfield
      have h' : render v ++ renderMoreFields kvs ++ r =
          render w ++ renderMoreFields lws ++ s := (List.cons.inj hvalue).2
      rw [List.append_assoc, List.append_assoc] at h'
      obtain ⟨hvw, hmore⟩ :=
        render_cancel v w (delimited_moreFields kvs r) (delimited_moreFields lws s) h'
      obtain ⟨hrest, hrs⟩ := moreFields_cancel kvs lws hmore
      exact ⟨by rw [hkl, hvw, hrest], hrs⟩
end

theorem render_injective {j k : Json} (h : j.render = k.render) : j = k := by
  have hnil : Delimited [] := by intro c hc; simp at hc
  exact (render_cancel j k hnil hnil (by rw [h])).1

instance : DecidableEq Json := fun j k =>
  decidable_of_iff (j.render = k.render) ⟨render_injective, congrArg render⟩

/-- **Canonical texts are unambiguous**: equal ones come from values that are equal up to
the order of dictionary keys. -/
theorem dumps_injective {j k : Json} (h : j.dumps = k.dumps) : j.SameValue k :=
  render_injective h

end AdminPlatform.Lib.Json
