import AdminPlatform.Services.Export

/-! # Filters of a create-export request

`app/schemas/export.py`: the two filter models, each a closed set of fields with defaults, and
the union of both that a request gives its filters in. The union does not see the module; the
service compares afterwards (`filtersForModule`).

`perModule_iff` says when the two stages together accept what the module's own filter model
accepts. -/

namespace AdminPlatform
open AdminPlatform.Lib

namespace Schemas

/-- A JSON object: no two items have the same key. -/
structure JsonObject where
  items : List (String × Json)
  distinct : (items.map Prod.fst).Nodup

def JsonObject.get? (o : JsonObject) (k : String) : Option Json := (Json.obj o.items).get? k

/-! ## Fields -/

def actorFilterMaxLength : Nat := 255

def searchMaxLength : Nat := 255

/-- `str | None` with a `max_length`. -/
def optionalStr (maxLength : Nat) : Json → Option (Option String)
  | .null => some none
  | .str s => if s.length ≤ maxLength then some (some s) else none
  | _ => none

/-- A filter enumeration: the value of a member, or `All`. -/
def filterEnum {α : Type} (members : List α) (value : α → String) : Json → Option (Option α)
  | .str s => if s = "All" then some none else (members.find? (fun a => value a = s)).map some
  | _ => none

/-- A field: its default where the object has no such key, else the value, if it is valid. -/
def field {α : Type} (o : JsonObject) (name : String) (default : α)
    (validate : Json → Option α) : Option α :=
  match o.get? name with
  | none => some default
  | some v => validate v

/-- `extra="forbid"`. -/
def forbidExtra (o : JsonObject) (fields : List String) : Option Unit :=
  if ∀ item ∈ o.items, item.1 ∈ fields then some () else none

end Schemas

open Schemas

/-! ## Models -/

def AuditExportFilters.fields : List String := ["actor", "action", "resource_type", "actor_type"]

def AuditExportFilters.validate (o : JsonObject) : Option AuditExportFilters := do
  forbidExtra o fields
  let actor ← field o "actor" none (optionalStr actorFilterMaxLength)
  let action ← field o "action" none
    (filterEnum ExportService.auditActions AuditAction.value)
  let resourceType ← field o "resource_type" none
    (filterEnum ExportService.auditResourceTypes AuditResourceType.value)
  let actorType ← field o "actor_type" none
    (filterEnum ExportService.actorTypes ActorType.value)
  return { actor, action, resourceType, actorType }

def UsersExportFilters.fields : List String := ["search", "status"]

def UsersExportFilters.validate (o : JsonObject) : Option UsersExportFilters := do
  forbidExtra o fields
  let search ← field o "search" none (optionalStr searchMaxLength)
  let status ← field o "status" none (filterEnum ExportService.statuses Status.value)
  return { search, status }

/-- The module's own filter model. -/
def ExportModule.validate : ExportModule → JsonObject → Option ExportFilters
  | .audit, o => (AuditExportFilters.validate o).map .audit
  | .users, o => (UsersExportFilters.validate o).map .users

namespace Schemas

/-! ## The union -/

/-- A member of a union as it validates an input: what it gives and how many fields were set. -/
abbrev Member (α : Type) := Option (α × Nat)

/-- A union in smart mode: of the members that are valid the one with most fields set, of
several the leftmost. -/
structure SmartMode {α : Type} (union : List (Member α) → Option α) : Prop where
  invalid : ∀ members, (∀ m ∈ members, m = none) → union members = none
  preferred : ∀ before a n after, (∀ b k, some (b, k) ∈ before → k < n) →
    (∀ b k, some (b, k) ∈ after → k ≤ n) → union (before ++ some (a, n) :: after) = some a

section Union
variable {α : Type}

/-- The member a union prefers. -/
def preferredMember : List (Member α) → Member α
  | [] => none
  | none :: rest => preferredMember rest
  | some m :: rest =>
      match preferredMember rest with
      | some r => if m.2 < r.2 then some r else some m
      | none => some m

def smartUnion (members : List (Member α)) : Option α := (preferredMember members).map Prod.fst

theorem mem_of_preferredMember {members : List (Member α)} {m : α × Nat}
    (h : preferredMember members = some m) : some m ∈ members := by
  induction members with
  | nil => cases h
  | cons head rest ih =>
      cases head with
      | none => exact List.mem_cons_of_mem _ (ih h)
      | some a =>
          unfold preferredMember at h
          split at h
          · rename_i r hr
            split at h
            · obtain rfl := Option.some.inj h
              exact List.mem_cons_of_mem _ (ih hr)
            · exact h ▸ List.mem_cons_self
          · exact h ▸ List.mem_cons_self

theorem preferredMember_append {before after : List (Member α)} {a : α} {n : Nat}
    (hbefore : ∀ b k, some (b, k) ∈ before → k < n)
    (hafter : ∀ b k, some (b, k) ∈ after → k ≤ n) :
    preferredMember (before ++ some (a, n) :: after) = some (a, n) := by
  induction before with
  | nil =>
      rw [List.nil_append, preferredMember]
      split
      · rename_i r hr
        have hle : r.2 ≤ n := hafter r.1 r.2 (mem_of_preferredMember hr)
        rw [if_neg (Nat.not_lt.mpr hle)]
      · rfl
  | cons head rest ih =>
      have hrest := ih fun b k hk => hbefore b k (List.mem_cons_of_mem _ hk)
      cases head with
      | none => exact hrest
      | some m =>
          rw [List.cons_append, preferredMember, hrest]
          exact if_pos (hbefore m.1 m.2 List.mem_cons_self)

theorem smartMode_smartUnion : SmartMode (smartUnion (α := α)) where
  invalid members h := by
    cases hm : preferredMember members with
    | none => rw [smartUnion, hm]; rfl
    | some m => cases h _ (mem_of_preferredMember hm)
  preferred before a n after hbefore hafter := by
    rw [smartUnion, preferredMember_append hbefore hafter]
    rfl

end Union

/-! ## Requests -/

/-- `AuditExportFilters | UsersExportFilters`, of an object: both members count its items as the
fields set. -/
def exportFilters (union : List (Member ExportFilters) → Option ExportFilters) (o : JsonObject) :
    Option ExportFilters :=
  union
    [(AuditExportFilters.validate o).map fun f => (.audit f, o.items.length),
      (UsersExportFilters.validate o).map fun f => (.users f, o.items.length)]

/-- The request with `filters = o` that the schema makes, if it accepts the filters. -/
def exportCreate (union : List (Member ExportFilters) → Option ExportFilters)
    (module : ExportModule) (reason : String) (o : JsonObject) : Option ExportCreate :=
  (exportFilters union o).map fun f => { module, reason, filters := some f }

/-- An object that is valid for the module's filter model passes, as its fields with the model's
defaults; every other is rejected, and nothing is created. -/
def PerModule (union : List (Member ExportFilters) → Option ExportFilters)
    (module : ExportModule) (reason : String) (o : JsonObject) : Prop :=
  match module.validate o with
  | some f => ∃ data, exportCreate union module reason o = some data ∧
      ∀ s, (ExportService.filtersForModule data).run s = (.ok f, s)
  | none => ∀ data, exportCreate union module reason o = some data → ∀ env req adminEmail s,
      ∃ e, (ExportService.createExport env req adminEmail data).run s = (.error e, s)

/-! ## The two models -/

section Models
variable {o : JsonObject}

theorem forbidExtra_eq_some {fields : List String} {u : Unit} :
    forbidExtra o fields = some u ↔ ∀ item ∈ o.items, item.1 ∈ fields := by
  unfold forbidExtra
  split
  · rename_i hall
    exact iff_of_true rfl hall
  · rename_i hnot
    exact iff_of_false nofun hnot

/-- What the audit model makes of an object: its fields with the defaults of the model. -/
theorem validate_audit_eq_some {f : AuditExportFilters} :
    AuditExportFilters.validate o = some f ↔
      (∀ item ∈ o.items, item.1 ∈ AuditExportFilters.fields) ∧
        field o "actor" none (optionalStr actorFilterMaxLength) = some f.actor ∧
        field o "action" none (filterEnum ExportService.auditActions AuditAction.value) =
          some f.action ∧
        field o "resource_type" none
          (filterEnum ExportService.auditResourceTypes AuditResourceType.value) =
          some f.resourceType ∧
        field o "actor_type" none (filterEnum ExportService.actorTypes ActorType.value) =
          some f.actorType := by
  constructor
  · intro h
    obtain ⟨_, hforbid, h⟩ := Option.bind_eq_some_iff.mp h
    obtain ⟨actor, hactor, h⟩ := Option.bind_eq_some_iff.mp h
    obtain ⟨action, haction, h⟩ := Option.bind_eq_some_iff.mp h
    obtain ⟨resourceType, hresource, h⟩ := Option.bind_eq_some_iff.mp h
    obtain ⟨actorType, hactorType, h⟩ := Option.bind_eq_some_iff.mp h
    obtain rfl := Option.some.inj h
    exact ⟨forbidExtra_eq_some.mp hforbid, hactor, haction, hresource, hactorType⟩
  · rintro ⟨hkeys, hactor, haction, hresource, hactorType⟩
    refine Option.bind_eq_some_iff.mpr ⟨(), forbidExtra_eq_some.mpr hkeys, ?_⟩
    refine Option.bind_eq_some_iff.mpr ⟨_, hactor, ?_⟩
    refine Option.bind_eq_some_iff.mpr ⟨_, haction, ?_⟩
    refine Option.bind_eq_some_iff.mpr ⟨_, hresource, ?_⟩
    exact Option.bind_eq_some_iff.mpr ⟨_, hactorType, rfl⟩

theorem validate_users_eq_some {f : UsersExportFilters} :
    UsersExportFilters.validate o = some f ↔
      (∀ item ∈ o.items, item.1 ∈ UsersExportFilters.fields) ∧
        field o "search" none (optionalStr searchMaxLength) = some f.search ∧
        field o "status" none (filterEnum ExportService.statuses Status.value) =
          some f.status := by
  constructor
  · intro h
    obtain ⟨_, hforbid, h⟩ := Option.bind_eq_some_iff.mp h
    obtain ⟨search, hsearch, h⟩ := Option.bind_eq_some_iff.mp h
    obtain ⟨status, hstatus, h⟩ := Option.bind_eq_some_iff.mp h
    obtain rfl := Option.some.inj h
    exact ⟨forbidExtra_eq_some.mp hforbid, hsearch, hstatus⟩
  · rintro ⟨hkeys, hsearch, hstatus⟩
    refine Option.bind_eq_some_iff.mpr ⟨(), forbidExtra_eq_some.mpr hkeys, ?_⟩
    refine Option.bind_eq_some_iff.mpr ⟨_, hsearch, ?_⟩
    exact Option.bind_eq_some_iff.mpr ⟨_, hstatus, rfl⟩

theorem validate_audit_nil (h : o.items = []) :
    AuditExportFilters.validate o = some {} := by
  obtain ⟨items, distinct⟩ := o
  obtain rfl : items = [] := h
  rfl

theorem validate_users_nil (h : o.items = []) :
    UsersExportFilters.validate o = some {} := by
  obtain ⟨items, distinct⟩ := o
  obtain rfl : items = [] := h
  rfl

/-- **Only the empty object is valid for both models.** -/
theorem valid_both_iff :
    ((AuditExportFilters.validate o).isSome ∧ (UsersExportFilters.validate o).isSome) ↔
      o.items = [] := by
  constructor
  · rintro ⟨haudit, husers⟩
    obtain ⟨f, hf⟩ := Option.isSome_iff_exists.mp haudit
    obtain ⟨g, hg⟩ := Option.isSome_iff_exists.mp husers
    refine List.eq_nil_iff_forall_not_mem.mpr fun item hitem => ?_
    have hdisjoint : ∀ k ∈ AuditExportFilters.fields, k ∉ UsersExportFilters.fields := by decide
    have haudit := (validate_audit_eq_some.mp hf).1 item hitem
    exact hdisjoint _ haudit ((validate_users_eq_some.mp hg).1 item hitem)
  · intro hnil
    rw [validate_audit_nil hnil, validate_users_nil hnil]
    exact ⟨rfl, rfl⟩

variable {union : List (Member ExportFilters) → Option ExportFilters}

/-- **What the union resolves to**: the filters as the audit model has them, where it accepts
them, else as the users model has them. -/
theorem exportFilters_eq (hunion : SmartMode union) (o : JsonObject) :
    exportFilters union o =
      ((AuditExportFilters.validate o).map .audit).or
        ((UsersExportFilters.validate o).map .users) := by
  unfold exportFilters
  have hnothing : ∀ b k, some (b, k) ∉ ([] : List (Member ExportFilters)) :=
    fun _ _ => List.not_mem_nil
  cases AuditExportFilters.validate o with
  | some f =>
      -- the users model, if it accepts the object as well, has no more fields set
      refine hunion.preferred [] _ _ [_] (fun b k hmem => absurd hmem (hnothing b k))
        fun b k hmem => ?_
      obtain ⟨g, -, hg⟩ := Option.map_eq_some_iff.mp (List.mem_singleton.mp hmem).symm
      exact le_of_eq (Prod.mk.inj hg).2.symm
  | none =>
      cases UsersExportFilters.validate o with
      | some g =>
          exact hunion.preferred [none] _ _ [] (by simp)
            fun b k hmem => absurd hmem (hnothing b k)
      | none => exact hunion.invalid _ (by simp)

end Models

/-! ## Both stages -/

/-- The service rejects filters of the other module before it creates anything. -/
theorem run_createExport_mismatch (env : Env) (req : Request) (adminEmail : String)
    {data : ExportCreate} {f : ExportFilters} (hfilters : data.filters = some f)
    (hmismatch : f.module ≠ data.module) (s : Database) :
    ∃ e, (ExportService.createExport env req adminEmail data).run s = (.error e, s) := by
  obtain ⟨module, reason, format, filters⟩ := data
  obtain rfl : filters = some f := hfilters
  unfold ExportService.createExport
  cases module <;> cases f <;> first | exact absurd rfl hmismatch | exact ⟨_, rfl⟩

theorem run_filtersForModule {data : ExportCreate} {f : ExportFilters}
    (hfilters : data.filters = some f) (hmatch : f.module = data.module) (s : Database) :
    (ExportService.filtersForModule data).run s = (.ok f, s) := by
  obtain ⟨module, reason, format, filters⟩ := data
  obtain rfl : filters = some f := hfilters
  cases module <;> cases f <;> first | rfl | cases hmatch

/-- **When filters are accepted exactly per module**: always, except for the empty object of a
users export. -/
theorem perModule_iff {union : List (Member ExportFilters) → Option ExportFilters}
    (hunion : SmartMode union) (module : ExportModule) (reason : String) (o : JsonObject) :
    PerModule union module reason o ↔ ¬ (module = .users ∧ o.items = []) := by
  have hresolved := exportFilters_eq hunion o
  have hboth := valid_both_iff (o := o)
  cases module with
  | audit =>
      refine iff_of_true ?_ (by simp)
      cases haudit : AuditExportFilters.validate o with
      | some f =>
          have hown : ExportModule.audit.validate o = some (.audit f) := by
            rw [ExportModule.validate, haudit]
            rfl
          rw [haudit] at hresolved
          rw [PerModule, hown]
          exact ⟨_, congrArg _ hresolved, run_filtersForModule rfl rfl⟩
      | none =>
          have hown : ExportModule.audit.validate o = none := by
            rw [ExportModule.validate, haudit]
            rfl
          rw [haudit] at hresolved
          rw [PerModule, hown]
          intro data hdata env req adminEmail s
          obtain ⟨f, hf, rfl⟩ := Option.map_eq_some_iff.mp hdata
          obtain ⟨g, -, rfl⟩ := Option.map_eq_some_iff.mp (hresolved.symm.trans hf)
          refine run_createExport_mismatch env req adminEmail rfl ?_ s
          show ExportModule.users ≠ .audit
          decide
  | users =>
      cases husers : UsersExportFilters.validate o with
      | none =>
          have hown : ExportModule.users.validate o = none := by
            rw [ExportModule.validate, husers]
            rfl
          rw [husers] at hresolved
          refine iff_of_true ?_ ?_
          · rw [PerModule, hown]
            intro data hdata env req adminEmail s
            obtain ⟨f, hf, rfl⟩ := Option.map_eq_some_iff.mp hdata
            rw [hresolved, Option.map_none, Option.or_none] at hf
            obtain ⟨g, -, rfl⟩ := Option.map_eq_some_iff.mp hf
            refine run_createExport_mismatch env req adminEmail rfl ?_ s
            show ExportModule.audit ≠ .users
            decide
          · rintro ⟨-, hnil⟩
            rw [validate_users_nil hnil] at husers
            cases husers
      | some g =>
          have hown : ExportModule.users.validate o = some (.users g) := by
            rw [ExportModule.validate, husers]
            rfl
          rw [husers] at hresolved hboth
          rw [PerModule, hown]
          cases haudit : AuditExportFilters.validate o with
          | none =>
              rw [haudit] at hresolved
              refine iff_of_true ⟨_, congrArg _ hresolved, run_filtersForModule rfl rfl⟩ ?_
              rintro ⟨-, hnil⟩
              rw [validate_audit_nil hnil] at haudit
              cases haudit
          | some f =>
              rw [haudit] at hresolved hboth
              refine iff_of_false ?_ (not_not.mpr ⟨rfl, hboth.mp ⟨rfl, rfl⟩⟩)
              rintro ⟨data, hdata, hpasses⟩
              have hdata' : some _ = some data := (congrArg _ hresolved).symm.trans hdata
              obtain rfl := Option.some.inj hdata'
              obtain ⟨hresult, -⟩ := Prod.mk.inj (hpasses Database.empty)
              cases hresult

/-! ## The empty filters of a users export -/

def activeAdmins : JsonObject where
  items := [("status", .str "active")]
  distinct := by decide

theorem perModule_iff_activeAdmins :
    PerModule smartUnion .users "quarterly review" activeAdmins ↔
      ¬ (ExportModule.users = .users ∧ activeAdmins.items = []) :=
  perModule_iff smartMode_smartUnion .users "quarterly review" activeAdmins

def noItems : JsonObject where
  items := []
  distinct := List.nodup_nil

/-- The users model accepts the empty object, and the request is rejected. -/
theorem not_perModule_noItems :
    ExportModule.users.validate noItems = some (.users {}) ∧
      ¬ PerModule smartUnion .users "quarterly review" noItems := by
  refine ⟨rfl, ?_⟩
  rintro ⟨data, hdata, hpasses⟩
  obtain rfl := Option.some.inj hdata
  obtain ⟨hresult, -⟩ := Prod.mk.inj (hpasses Database.empty)
  cases hresult

end Schemas
end AdminPlatform
