/-
# Role administration

The writes of `rbac.repository.ts`, and the roles and permissions of `seed.ts`.
-/

import IdentityPlatform.Infrastructure.Statements

namespace IdentityPlatform

/-- The names in the seeded `roles` table. -/
def seededRoles : List String := ["admin", "user", "support", "service"]

/-- The names in the seeded `permissions` table. -/
def seededPermissions : List String :=
  ["users:read", "users:write", "users:delete", "clients:read", "clients:write", "roles:read",
    "roles:write", "audit:read"]

namespace RbacRepository

def setRolePermissions (roleId : String) (permissionNames : List String) : Prog Unit :=
  query (.rbac (.setRolePermissions roleId permissionNames))

def setUserRoles (userId : String) (roleNames : List String) : Prog Unit :=
  query (.rbac (.setUserRoles userId roleNames))

def setUserStatus (userId : String) (status : UserStatus) : Prog Unit :=
  query (.users (.setStatus userId status))

end RbacRepository
end IdentityPlatform
