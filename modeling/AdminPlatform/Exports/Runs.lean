import AdminPlatform.Access.Sessions
import AdminPlatform.Api.Exports
import AdminPlatform.Services.Role

/-! # Runs of exports

Export, user-management and authentication requests, served one after another, with the
changes of roles and screens that decide who may export. The state notes for each export
whose request created it, which no request reads. -/

namespace AdminPlatform
open AdminPlatform.Lib

namespace Exports

inductive Call
  /-- A request to the auth or the user service. -/
  | access (call : Sessions.Call)
  | role (op : RoleService.Op)
  | screen (op : ScreenService.Op)
  | create (credentials : Option EncodedToken) (data : ExportCreate)
  | status (credentials : Option EncodedToken) (exportId : Uuid)
  | download (credentials : Option EncodedToken) (exportId : Uuid)
  /-- The background task of an export. -/
  | generate (exportId : Uuid)

structure State where
  db : Database
  /-- Exports, each with the admin whose request created it. -/
  creators : List (Uuid × Uuid)

/-- The admin a request is served for. -/
def caller (s : Database) (req : Request) (credentials : Option EncodedToken) :
    Option PlatformAdmin :=
  match (Api.getCurrentAdmin req credentials).run s with
  | (.ok admin, _) => some admin
  | (.error _, _) => none

/-- The state a request leaves. -/
def next (env : Env) (req : Request) (st : State) : Call → State
  | .access call => { st with db := (call.serve env req st.db).2 }
  | .role op => { st with db := ((op.perform req).run st.db).2 }
  | .screen op => { st with db := ((op.perform req).run st.db).2 }
  | .create credentials data =>
      match (Api.createExport env req credentials data).run st.db with
      | (.ok entry, db) =>
          ⟨db, ((caller st.db req credentials).map fun admin => (entry.id, admin.id)).toList ++
            st.creators⟩
      | (.error _, db) => { st with db := db }
  | .status credentials exportId =>
      { st with db := ((Api.getExport req credentials exportId).run st.db).2 }
  | .download credentials exportId =>
      { st with db := ((Api.downloadExport env req credentials exportId).run st.db).2 }
  | .generate exportId =>
      { st with db := ((ExportService.generateTask env req.now exportId).run st.db).2 }

/-- Requests one after another, from a state that `init` allows. -/
def machine (env : Env) (init : State → Prop) : Machine State (Request × Call) where
  init := init
  step l st := some (next env l.1 st l.2)

theorem caller_of_callsAs {s : Database} {req : Request} {credentials : Option EncodedToken}
    {payload : TokenPayload} {admin : PlatformAdmin}
    (h : Api.CallsAs s req.now credentials payload admin) :
    caller s req credentials = some admin := by
  obtain ⟨token, rfl, hdecode⟩ := h.bears
  have hpayload : (Api.accessTokenPayload req (some token)).run s = (.ok payload, s) := by
    rw [Api.accessTokenPayload, Option.bind_some, hdecode]
    simp only [h.access, ne_eq, not_true_eq_false, decide_false]
    rfl
  have hadmin := AuthService.run_getAdminFromPayload_iff.mpr h.accepted
  rw [caller, Api.getCurrentAdmin, Db.run_bind_ok _ hpayload, hadmin]

end Exports
end AdminPlatform
