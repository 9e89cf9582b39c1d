import AdminPlatform.Lib.Digits
import Mathlib.Data.List.Sort
import Mathlib.Data.String.Basic

/-! # JSON values and their compact text

`Json` is a JSON value as a Python program holds it: a dictionary is the list of its
items in insertion order. `render` is the compact ASCII text of a value (no spaces, every
character outside the printable ASCII range escaped), and `dumps` the canonical one: the
text after every dictionary has been put in key order (`sort_keys=True`).

An integer is written in decimal. A float is represented by the text `repr` gives it, which
determines a double (`Binary64.text_injective`): all that is used of that text here is what
separates it from every other token (`FloatText`). -/

namespace AdminPlatform.Lib

/-- The characters a number can be written with (`Infinity` is written out). -/
def isNumberChar (c : Char) : Bool :=
  c.isDigit || c ∈ ['-', '+', '.', 'e', 'I', 'n', 'f', 'i', 't', 'y']

/-- A number starts with a digit, with a sign, or is `Infinity`. -/
def isNumberStart (c : Char) : Bool := c.isDigit || c == '-' || c == 'I'

def isIntChar (c : Char) : Bool := c.isDigit || c == '-'

/-- The text of a float: a number token that no integer is written as. -/
structure FloatText where
  text : List Char
  starts : text.head?.any isNumberStart = true
  number : text.all isNumberChar = true
  notInt : text.all isIntChar = false
  deriving DecidableEq

inductive Json where
  | null
  | bool (b : Bool)
  | int (n : Int)
  | float (x : FloatText)
  | str (s : String)
  | arr (xs : List Json)
  | obj (kvs : List (String × Json))

namespace Json

/-! ## Strings -/

/-- The characters with an escape letter of their own. -/
def escapes : List (Char × Char) :=
  [('\\', '\\'), ('"', '"'), ('\n', 'n'), ('\r', 'r'), ('\t', 't'), (Char.ofNat 12, 'f'),
    (Char.ofNat 8, 'b')]

def shortEscape (c : Char) : Option Char := (escapes.find? (fun p => p.1 == c)).map Prod.snd

def isPrintable (c : Char) : Bool := ' ' ≤ c && c ≤ '~'

/-- One UTF-16 code unit, escaped. -/
def escapeUnit (n : Nat) : List Char := '\\' :: 'u' :: fixedDigits 16 4 n

/-- A character of a string, escaped to ASCII (a surrogate pair above U+FFFF). -/
def escapeChar (c : Char) : List Char :=
  match shortEscape c with
  | some e => ['\\', e]
  | none =>
      if isPrintable c then [c]
      else if c.toNat < 0x10000 then escapeUnit c.toNat
      else
        escapeUnit (0xd800 + (c.toNat - 0x10000) / 0x400) ++
          escapeUnit (0xdc00 + (c.toNat - 0x10000) % 0x400)

/-- The text of a string after its opening quote. -/
def escapeChars : List Char → List Char
  | [] => ['"']
  | c :: cs => escapeChar c ++ escapeChars cs

def quote (s : String) : List Char := '"' :: escapeChars s.toList

/-! ## Numbers -/

def intText : Int → List Char
  | .ofNat n => Nat.toDigits 10 n
  | .negSucc n => '-' :: Nat.toDigits 10 (n + 1)

/-! ## Values -/

mutual
/-- The compact text of a value, dictionaries in the order they have. -/
def render : Json → List Char
  | .null => ['n', 'u', 'l', 'l']
  | .bool true => ['t', 'r', 'u', 'e']
  | .bool false => ['f', 'a', 'l', 's', 'e']
  | .int n => intText n
  | .float x => x.text
  | .str s => quote s
  | .arr xs => '[' :: renderItems xs
  | .obj kvs => '{' :: renderFields kvs

def renderItems : List Json → List Char
  | [] => [']']
  | x :: xs => render x ++ renderMoreItems xs

def renderMoreItems : List Json → List Char
  | [] => [']']
  | x :: xs => ',' :: (render x ++ renderMoreItems xs)

def renderFields : List (String × Json) → List Char
  | [] => ['}']
  | (k, v) :: kvs => quote k ++ ':' :: (render v ++ renderMoreFields kvs)

def renderMoreFields : List (String × Json) → List Char
  | [] => ['}']
  | (k, v) :: kvs => ',' :: (quote k ++ ':' :: (render v ++ renderMoreFields kvs))
end

/-- Items in the order of their keys (keys compare by code point). -/
def sortItems (kvs : List (String × Json)) : List (String × Json) :=
  kvs.insertionSort (fun a b => a.1 ≤ b.1)

mutual
/-- Every dictionary of a value, at any depth, put in key order. -/
def sortKeys : Json → Json
  | .null => .null
  | .bool b => .bool b
  | .int n => .int n
  | .float x => .float x
  | .str s => .str s
  | .arr xs => .arr (sortKeysItems xs)
  | .obj kvs => .obj (sortItems (sortKeysFields kvs))

def sortKeysItems : List Json → List Json
  | [] => []
  | x :: xs => sortKeys x :: sortKeysItems xs

def sortKeysFields : List (String × Json) → List (String × Json)
  | [] => []
  | (k, v) :: kvs => (k, sortKeys v) :: sortKeysFields kvs
end

/-- The canonical text: keys sorted at every level, compact separators, ASCII. -/
def dumps (j : Json) : List Char := j.sortKeys.render

/-- Two values are equal up to the order of dictionary keys. -/
def SameValue (a b : Json) : Prop := a.sortKeys = b.sortKeys

@[refl] theorem SameValue.refl (a : Json) : a.SameValue a := rfl

theorem SameValue.symm {a b : Json} (h : a.SameValue b) : b.SameValue a := Eq.symm h

/-- `dict.get`: the value stored under a key. -/
def get? (k : String) : Json → Option Json
  | .obj kvs => (kvs.find? (fun p => p.1 == k)).map Prod.snd
  | _ => none

/-- A string, or `None`. -/
def ofOption : Option String → Json
  | some s => .str s
  | none => .null

theorem ofOption_inj {a b : Option String} (h : (ofOption a).SameValue (ofOption b)) : a = b := by
  cases a <;> cases b <;> simp_all [ofOption, SameValue, sortKeys]

/-! ## Looking up keys

Putting the keys in order does not change what is stored under them, as long as the keys
are distinct (a Python dictionary's are). -/

theorem find?_key {kvs : List (String × Json)} (hnodup : (kvs.map Prod.fst).Nodup) {k : String}
    {p : String × Json} :
    kvs.find? (fun q => q.1 == k) = some p ↔ p ∈ kvs ∧ p.1 = k := by
  constructor
  · intro h
    exact ⟨List.mem_of_find?_eq_some h, by simpa using List.find?_some h⟩
  · rintro ⟨hp, rfl⟩
    cases hfind : kvs.find? (fun q => q.1 == p.1) with
    | none => exact absurd (List.find?_eq_none.mp hfind p hp) (by simp)
    | some q =>
        have hq : q.1 = p.1 := by simpa using List.find?_some hfind
        have hqmem : q ∈ kvs := List.mem_of_find?_eq_some hfind
        rw [List.inj_on_of_nodup_map hnodup hqmem hp hq]

theorem find?_sortItems {kvs : List (String × Json)} (hnodup : (kvs.map Prod.fst).Nodup)
    (k : String) :
    (sortItems kvs).find? (fun q => q.1 == k) = kvs.find? (fun q => q.1 == k) := by
  have hperm : (sortItems kvs).Perm kvs := List.perm_insertionSort _ _
  have hsorted : ((sortItems kvs).map Prod.fst).Nodup := (hperm.map _).nodup_iff.mpr hnodup
  refine Option.ext fun p => ?_
  rw [find?_key hsorted, find?_key hnodup, hperm.mem_iff]

/-- Items with distinct keys are put in one order, however they come. -/
theorem sortItems_eq_of_perm {kvs lws : List (String × Json)} (hperm : kvs.Perm lws)
    (hnodup : (kvs.map Prod.fst).Nodup) : sortItems kvs = sortItems lws := by
  have hkvs : (sortItems kvs).Perm kvs := List.perm_insertionSort _ _
  have hlws : (sortItems lws).Perm lws := List.perm_insertionSort _ _
  have hsorted : ∀ l : List (String × Json), (sortItems l).Pairwise fun a b => a.1 ≤ b.1 := by
    intro l
    have : Std.Total fun a b : String × Json => a.1 ≤ b.1 := ⟨fun a b => le_total a.1 b.1⟩
    have : IsTrans (String × Json) fun a b => a.1 ≤ b.1 := ⟨fun _ _ _ => le_trans⟩
    exact List.pairwise_insertionSort _ l
  refine (hkvs.trans (hperm.trans hlws.symm)).eq_of_pairwise ?_ (hsorted kvs) (hsorted lws)
  intro a b ha hb hab hba
  exact List.inj_on_of_nodup_map hnodup (hkvs.mem_iff.mp ha)
    (hperm.mem_iff.mpr (hlws.mem_iff.mp hb)) (le_antisymm hab hba)

theorem find?_sortKeysFields (kvs : List (String × Json)) (k : String) :
    (sortKeysFields kvs).find? (fun q => q.1 == k) =
      (kvs.find? (fun q => q.1 == k)).map (fun q => (q.1, q.2.sortKeys)) := by
  induction kvs with
  | nil => rfl
  | cons p kvs ih =>
      obtain ⟨l, v⟩ := p
      simp only [sortKeysFields, List.find?_cons]
      split
      · rfl
      · exact ih

theorem map_fst_sortKeysFields (kvs : List (String × Json)) :
    (sortKeysFields kvs).map Prod.fst = kvs.map Prod.fst := by
  induction kvs with
  | nil => rfl
  | cons p kvs ih => simp [sortKeysFields, ih]

theorem get?_sortKeys {kvs : List (String × Json)} (hnodup : (kvs.map Prod.fst).Nodup)
    (k : String) : (obj kvs).sortKeys.get? k = ((obj kvs).get? k).map sortKeys := by
  have hkeys : ((sortKeysFields kvs).map Prod.fst).Nodup := by
    rwa [map_fst_sortKeysFields]
  simp only [sortKeys, get?, find?_sortItems hkeys, find?_sortKeysFields, Option.map_map]
  rfl

/-- Equal dictionaries hold equal values under each key. -/
theorem SameValue.get? {kvs lws : List (String × Json)} (hk : (kvs.map Prod.fst).Nodup)
    (hl : (lws.map Prod.fst).Nodup) (h : (obj kvs).SameValue (obj lws)) {k : String} {v w : Json}
    (hv : (obj kvs).get? k = some v) (hw : (obj lws).get? k = some w) : v.SameValue w := by
  have hkv := get?_sortKeys hk k
  have hlw := get?_sortKeys hl k
  rw [hv] at hkv
  rw [hw, ← show (obj kvs).sortKeys = (obj lws).sortKeys from h, hkv] at hlw
  exact Option.some.inj hlw

end Json
end AdminPlatform.Lib
