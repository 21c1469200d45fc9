/-
# Replacing roles, statement by statement

`RbacRepository.setUserRoles` with the transaction it runs in.  Elsewhere it is one
statement, its commit (`RbacStmt.setUserRoles`); here calls of it interleave, each with its
own connection at READ COMMITTED, on the `user_roles` table alone: nothing in the
repository writes `roles`, and users are not deleted, so these two are given.  A user is the
canonical text of an identifier.
-/

import IdentityPlatform.Infrastructure.Statements
import IdentityPlatform.Infrastructure.Transactions

namespace IdentityPlatform

open Interleaving Program Relational Database

/-- A row of `user_roles`: `(user_id, role_id)`. -/
abbrev UserRole := String × String

/-- The parameters of `setUserRoles`. -/
structure RoleUpdate where
  userId : String
  roleNames : List String
  deriving DecidableEq, Repr

/-- What `setUserRoles` runs against: `roles`, and the identifiers in `users`. -/
structure RoleDirectory where
  roles : List NameRow
  users : List String
  deriving DecidableEq, Repr

namespace RoleDirectory

/-- `PRIMARY KEY (user_id, role_id)` and the two foreign keys. -/
def userRoles (dir : RoleDirectory) : Constraints UserRole Err :=
  constraints (fun row row' => row = row') fun row =>
    if row.1 ∈ dir.users ∧ row.2 ∈ dir.roles.map NameRow.id then none else some (.db "23503")

/-- `SELECT $1, id FROM roles WHERE name = ANY($2)`. -/
def rowsOf (dir : RoleDirectory) (update : RoleUpdate) : List UserRole :=
  (Rbac.idsNamed dir.roles update.roleNames).map (update.userId, ·)

/-- `WHERE user_id = $1`. -/
def ofUser (userId : String) (row : UserRole) : Bool := row.1 = userId

/-- `RbacRepository.setUserRoles`. -/
def setUserRoles (dir : RoleDirectory) (update : RoleUpdate) : TxProg UserRole Unit :=
  withTransaction fun tx => do
    deleteWhere (ofUser update.userId) tx
    if update.roleNames = [] then pure ()
    else insertRows (dir.rowsOf update) tx

/-- Administrators that call `setUserRoles`. -/
def machine (dir : RoleDirectory) :
    Machine (txCommands UserRole) Err (Versioned UserRole) RoleUpdate Unit Unit ℕ :=
  transactions dir.userRoles (fun _ => true) dir.setUserRoles

end RoleDirectory

/-- A configuration of the calls of `setUserRoles`. -/
abbrev RoleConfig := Config (txCommands UserRole) Err (Versioned UserRole) RoleUpdate Unit

/-- A call of `setUserRoles`. -/
abbrev RoleCall := Call (txCommands UserRole) Err (Versioned UserRole) RoleUpdate Unit

/-- A command of a call of `setUserRoles`. -/
abbrev RoleEvent := Event (txCommands UserRole) Err (Versioned UserRole)

end IdentityPlatform
