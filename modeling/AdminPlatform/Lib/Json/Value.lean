import AdminPlatform.Lib.Binary64
import AdminPlatform.Lib.Json.Unambiguous
import Mathlib.Data.List.Perm.Basic

/-! # Python values and their canonical text

`Value` is what a Python program can hold of JSON, with its floats as doubles; `toJson` is the
value `json.dumps` writes, each float by its `repr`. Two values have one canonical text exactly
if they are equal up to the order of dictionary keys (`sameValue_toJson_iff`). -/

namespace AdminPlatform.Lib.Json

inductive Value where
  | none
  | bool (b : Bool)
  | int (n : Int)
  | float (x : Binary64)
  | str (s : String)
  | list (xs : List Value)
  | dict (kvs : List (String × Value))

namespace Value

mutual
def toJson : Value → Json
  | .none => .null
  | .bool b => .bool b
  | .int n => .int n
  | .float x => .float x.text
  | .str s => .str s
  | .list xs => .arr (toJsonItems xs)
  | .dict kvs => .obj (toJsonFields kvs)

def toJsonItems : List Value → List Json
  | [] => []
  | x :: xs => toJson x :: toJsonItems xs

def toJsonFields : List (String × Value) → List (String × Json)
  | [] => []
  | (k, v) :: kvs => (k, toJson v) :: toJsonFields kvs
end

mutual
/-- The keys of a dictionary are distinct, at any depth. -/
def Distinct : Value → Prop
  | .list xs => DistinctItems xs
  | .dict kvs => (kvs.map Prod.fst).Nodup ∧ DistinctFields kvs
  | _ => True

def DistinctItems : List Value → Prop
  | [] => True
  | x :: xs => Distinct x ∧ DistinctItems xs

def DistinctFields : List (String × Value) → Prop
  | [] => True
  | (_, v) :: kvs => Distinct v ∧ DistinctFields kvs
end

mutual
/-- Equal up to the order of dictionary keys, at any depth. -/
inductive Same : Value → Value → Prop
  | none : Same .none .none
  | bool (b : Bool) : Same (.bool b) (.bool b)
  | int (n : Int) : Same (.int n) (.int n)
  | float (x : Binary64) : Same (.float x) (.float x)
  | str (s : String) : Same (.str s) (.str s)
  | list {xs ys : List Value} : SameItems xs ys → Same (.list xs) (.list ys)
  | dict {kvs mws lws : List (String × Value)} : SameFields kvs mws → mws.Perm lws →
      Same (.dict kvs) (.dict lws)

inductive SameItems : List Value → List Value → Prop
  | nil : SameItems [] []
  | cons {x y : Value} {xs ys : List Value} : Same x y → SameItems xs ys →
      SameItems (x :: xs) (y :: ys)

inductive SameFields : List (String × Value) → List (String × Value) → Prop
  | nil : SameFields [] []
  | cons {k : String} {v w : Value} {kvs lws : List (String × Value)} : Same v w →
      SameFields kvs lws → SameFields ((k, v) :: kvs) ((k, w) :: lws)
end

/-! ## One canonical text -/

/-- A field in key order at any depth below it. -/
def canonical (field : String × Value) : String × Json := (field.1, field.2.toJson.sortKeys)

theorem sortKeysFields_toJsonFields (kvs : List (String × Value)) :
    sortKeysFields (toJsonFields kvs) = kvs.map canonical := by
  induction kvs with
  | nil => rfl
  | cons field kvs ih =>
      rw [toJsonFields, sortKeysFields, ih]
      rfl

/-- Fields that are the same in key order are those of an arrangement of the other's. -/
theorem exists_arrangement {kvs lws : List (String × Value)}
    (h : (dict kvs).toJson.SameValue (dict lws).toJson) :
    ∃ mws : List (String × Value), kvs.map canonical = mws.map canonical ∧ mws.Perm lws := by
  have hsorted : sortItems (sortKeysFields (toJsonFields kvs)) =
      sortItems (sortKeysFields (toJsonFields lws)) := Json.obj.inj h
  rw [sortKeysFields_toJsonFields, sortKeysFields_toJsonFields] at hsorted
  have hperm : (kvs.map canonical).Perm (lws.map canonical) := by
    refine (List.perm_insertionSort (fun a b => a.1 ≤ b.1) _).symm.trans ?_
    have hsame : List.insertionSort (fun a b => a.1 ≤ b.1) (kvs.map canonical) =
        List.insertionSort (fun a b => a.1 ≤ b.1) (lws.map canonical) := hsorted
    rw [hsame]
    exact List.perm_insertionSort _ _
  have hforall : List.Forall₂ (fun c field => c = canonical field) (lws.map canonical) lws := by
    rw [List.forall₂_map_left_iff]
    exact List.forall₂_same.mpr fun _ _ => rfl
  obtain ⟨mws, hmws, hrest⟩ := List.perm_comp_forall₂ hperm hforall
  refine ⟨mws, ?_, hrest⟩
  rw [← List.forall₂_eq_eq_eq, List.forall₂_map_right_iff]
  exact hmws

mutual
theorem same_of_sameValue : ∀ (v w : Value), v.toJson.SameValue w.toJson → Same v w
  | .none, w, h => by
      cases w with
      | none => exact .none
      | _ => cases h
  | .bool b, w, h => by
      cases w with
      | bool c => cases h; exact .bool b
      | _ => cases h
  | .int n, w, h => by
      cases w with
      | int m => cases h; exact .int n
      | _ => cases h
  | .float x, w, h => by
      cases w with
      | float y =>
          obtain rfl := Binary64.text_injective (Json.float.inj h)
          exact .float x
      | _ => cases h
  | .str s, w, h => by
      cases w with
      | str t => cases h; exact .str s
      | _ => cases h
  | .list xs, w, h => by
      cases w with
      | list ys => exact .list (sameItems_of_eq xs ys (Json.arr.inj h))
      | _ => cases h
  | .dict kvs, w, h => by
      cases w with
      | dict lws =>
          obtain ⟨mws, heq, hperm⟩ := exists_arrangement h
          exact .dict (sameFields_of_eq kvs mws heq) hperm
      | _ => cases h

theorem sameItems_of_eq : ∀ (xs ys : List Value),
    sortKeysItems (toJsonItems xs) = sortKeysItems (toJsonItems ys) → SameItems xs ys
  | [], [], _ => .nil
  | [], _ :: _, h => by cases h
  | _ :: _, [], h => by cases h
  | x :: xs, y :: ys, h => by
      obtain ⟨hxy, hrest⟩ := List.cons.inj h
      exact .cons (same_of_sameValue x y hxy) (sameItems_of_eq xs ys hrest)

theorem sameFields_of_eq : ∀ (kvs lws : List (String × Value)),
    kvs.map canonical = lws.map canonical → SameFields kvs lws
  | [], [], _ => .nil
  | [], _ :: _, h => by cases h
  | _ :: _, [], h => by cases h
  | (k, v) :: kvs, (l, w) :: lws, h => by
      obtain ⟨hfield, hrest⟩ := List.cons.inj h
      obtain ⟨rfl, hvw⟩ := Prod.mk.inj hfield
      exact .cons (same_of_sameValue v w hvw) (sameFields_of_eq kvs lws hrest)
end

theorem distinctFields_iff {kvs : List (String × Value)} :
    DistinctFields kvs ↔ ∀ field ∈ kvs, Distinct field.2 := by
  induction kvs with
  | nil => exact iff_of_true trivial nofun
  | cons field kvs ih => rw [DistinctFields, ih, List.forall_mem_cons]

theorem map_fst_canonical (kvs : List (String × Value)) :
    (kvs.map canonical).map Prod.fst = kvs.map Prod.fst := by
  rw [List.map_map]
  rfl

mutual
theorem sameValue_of_same : ∀ {v w : Value}, Same v w → Distinct v → Distinct w →
    v.toJson.SameValue w.toJson
  | _, _, .none, _, _ => rfl
  | _, _, .bool _, _, _ => rfl
  | _, _, .int _, _, _ => rfl
  | _, _, .float _, _, _ => rfl
  | _, _, .str _, _, _ => rfl
  | _, _, .list h, hv, hw => congrArg Json.arr (sortKeysItems_eq h hv hw)
  | _, _, @Same.dict kvs mws lws h hperm, hv, hw => by
      have hmws : DistinctFields mws := by
        rw [distinctFields_iff]
        exact fun field hfield => distinctFields_iff.mp hw.2 field (hperm.mem_iff.mp hfield)
      have hfields : kvs.map canonical = mws.map canonical := map_canonical_eq h hv.2 hmws
      have hkeys : ((kvs.map canonical).map Prod.fst).Nodup := by
        rw [map_fst_canonical]
        exact hv.1
      refine congrArg Json.obj ?_
      rw [sortKeysFields_toJsonFields, sortKeysFields_toJsonFields]
      refine sortItems_eq_of_perm ?_ hkeys
      rw [hfields]
      exact hperm.map canonical

theorem sortKeysItems_eq : ∀ {xs ys : List Value}, SameItems xs ys → DistinctItems xs →
    DistinctItems ys → sortKeysItems (toJsonItems xs) = sortKeysItems (toJsonItems ys)
  | _, _, .nil, _, _ => rfl
  | _, _, .cons h hrest, hxs, hys => by
      have hx := sameValue_of_same h hxs.1 hys.1
      have hitems := sortKeysItems_eq hrest hxs.2 hys.2
      exact congrArg₂ List.cons hx hitems

theorem map_canonical_eq : ∀ {kvs lws : List (String × Value)}, SameFields kvs lws →
    DistinctFields kvs → DistinctFields lws → kvs.map canonical = lws.map canonical
  | _, _, .nil, _, _ => rfl
  | _, _, .cons (k := k) h hrest, hkvs, hlws => by
      have hv := sameValue_of_same h hkvs.1 hlws.1
      have hfields := map_canonical_eq hrest hkvs.2 hlws.2
      exact congrArg₂ List.cons (congrArg (Prod.mk k) hv) hfields
end

/-- **Values have one canonical text** exactly if they are equal up to the order of keys. -/
theorem sameValue_toJson_iff {v w : Value} (hv : v.Distinct) (hw : w.Distinct) :
    v.toJson.SameValue w.toJson ↔ Same v w :=
  ⟨same_of_sameValue v w, fun h => sameValue_of_same h hv hw⟩

end Value

/-- A dictionary: its keys are distinct, and so are those of the dictionaries in it. -/
structure Dict where
  items : List (String × Value)
  distinct : (Value.dict items).Distinct

/-- A dictionary, or `None`. -/
def Value.ofDict : Option Dict → Value
  | some d => .dict d.items
  | .none => .none

theorem Value.distinct_ofDict (d : Option Dict) : (ofDict d).Distinct := by
  cases d with
  | none => trivial
  | some d => exact d.distinct

theorem Value.sameValue_ofDict_iff {d e : Option Dict} :
    (ofDict d).toJson.SameValue (ofDict e).toJson ↔ (ofDict d).Same (ofDict e) :=
  sameValue_toJson_iff (distinct_ofDict d) (distinct_ofDict e)

end AdminPlatform.Lib.Json
