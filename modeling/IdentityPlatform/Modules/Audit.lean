/-
# Audit records and request contexts

`audit.service.ts`, `postgres-audit-sink.ts` and `request-context.ts`.  A record
is one `INSERT` whose failure is logged and swallowed, so recording never makes
a handler fail.
-/

import IdentityPlatform.Infrastructure.Statements

namespace IdentityPlatform

open Interleaving Program

/-- `RequestContext`. -/
structure RequestContext where
  requestId : String := ""
  ip : Option String := none
  userAgent : Option String := none
  deriving DecidableEq, Repr

/-- `REDACTED_KEYS`. -/
def redactedKeys : List String :=
  ["password", "secret", "token", "authorization", "cookie", "code_verifier"]

/-- `sanitizeMetadata`. -/
def sanitizeMetadata (metadata : List (String × AuditValue)) : List (String × AuditValue) :=
  metadata.map fun (key, value) =>
    if redactedKeys.any (includesText key.toLower) then (key, .text "[REDACTED]") else (key, value)

namespace AuditLogService

/-- `AuditLogService.record` with the PostgreSQL sink. -/
def record (event : AuditEvent) : Prog Unit :=
  tryCatch
    (query (.log (.auditEvent { event with
      metadata := sanitizeMetadata (sanitizeMetadata event.metadata) })))
    fun _ => pure ()

end AuditLogService
end IdentityPlatform
