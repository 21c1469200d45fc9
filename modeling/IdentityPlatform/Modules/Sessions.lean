/-
# Sessions

`session.repository.ts`: the rows of `sessions` and the Redis copy of each, kept
for five minutes.
-/

import IdentityPlatform.Infrastructure.Statements

namespace IdentityPlatform

open Interleaving Program

namespace SessionRepository

/-- `SessionRepository.create`. -/
def create (data : CreateSessionData) : Prog SessionRow := query (.sessions (.insert data))

/-- `loadFresh`: the row itself, copied to the cache. -/
def loadFresh (id : String) : Prog (Option SessionRow) := do
  let row ← query (.sessions (.selectById id))
  match row with
  | some session => do
      query (.redis (.set (.sess id) (.session session) (some 300)))
      pure (some session)
  | none => pure none

/-- `SessionRepository.findById`.  The cache alone answers only for a session
that is not active there. -/
def findById (id : String) : Prog (Option SessionRow) := do
  let cached ← query (.redis (.getSession (.sess id)))
  match cached with
  | some session =>
      if session.status ≠ .active then pure (some session)
      else do
        let fresh ← loadFresh id
        match fresh with
        | none => do
            query (.redis (.del (.sess id)))
            pure none
        | some session => pure (some session)
  | none => loadFresh id

def touch (id : String) : Prog Unit := query (.sessions (.touch id))

/-- `SessionRepository.revoke`: the session, its active refresh tokens, the
cached copy. -/
def revoke (id reason : String) : Prog Unit := do
  query (.sessions (.revoke id reason))
  query (.refreshTokens (.revokeBySession id))
  query (.redis (.del (.sess id)))

/-- `SessionRepository.revokeAllForUser`: the number of sessions that were
active. -/
def revokeAllForUser (userId reason : String) : Prog Nat := do
  let sessions ← query (.sessions (.selectActive userId))
  query (.sessions (.revokeAllForUser userId reason))
  query (.refreshTokens (.revokeByUser userId))
  query (.redis .delSessions)
  pure sessions.length

end SessionRepository
end IdentityPlatform
