import AdminPlatform.Audit.Doctoring
import AdminPlatform.Audit.Preimage
import AdminPlatform.Audit.ExactlyOnce
import AdminPlatform.Audit.Intake
import AdminPlatform.Audit.Forwarder
import AdminPlatform.Audit.Redaction
import AdminPlatform.Audit.BestEffort
import AdminPlatform.Access.Administration
import AdminPlatform.Access.LastAdmin
import AdminPlatform.Access.Sessions
import AdminPlatform.Access.Lockout
import AdminPlatform.Access.LostUpdates
import AdminPlatform.Access.Revocation
import AdminPlatform.Access.Reuse
import AdminPlatform.Access.OwnOtp
import AdminPlatform.Access.PasswordReset
import AdminPlatform.Services.Export
import AdminPlatform.Exports.Permissions
import AdminPlatform.Exports.Streaming
import AdminPlatform.Exports.Lifecycle
import AdminPlatform.Exports.Status
import AdminPlatform.Exports.RowCounts
import AdminPlatform.Exports.Filters
import AdminPlatform.Exports.Cells
import AdminPlatform.Lists.Pages
import AdminPlatform.Lists.Selection
import AdminPlatform.Lists.Search
import AdminPlatform.Roles.WriteBack
import AdminPlatform.Roles.Order
import AdminPlatform.Screens.Creation
import AdminPlatform.Access.Throttle
import AdminPlatform.Access.Enumeration
import AdminPlatform.Access.Provisioning
import AdminPlatform.Access.SeedRbac
import AdminPlatform.Access.Passwords
import AdminPlatform.Access.Standing
import AdminPlatform.Platform
import AdminPlatform.Access.SeedAdmin
import AdminPlatform.Exports.Captured
import AdminPlatform.Schemas.Formats
import AdminPlatform.Conduct.Refusals
import AdminPlatform.Conduct.Reports
