/-
# The browser client

`apps/frontend/client`: the token store, `apiRequest` with its refresh after a 401, and what
the views do with tokens, as programs over the store and the server.  A `fetch` is two
statements, so that anything may happen between a request and its answer; the gateway answers
with any status.

The requests of the client run interleaved on one store (`Browser.machine`), with the steps of
the server and of its other clients as the environment.
-/

import IdentityPlatform.Apps.AuthServer

namespace IdentityPlatform

open Interleaving Program

/-- `localStorage` under the two keys of `tokens.ts`. -/
structure TokenStore where
  accessToken : Option Jws := none
  refreshToken : Option String := none
  deriving DecidableEq, Repr

/-- The statements of the client: `tokens.ts` and the two halves of `fetch`. -/
inductive BrowserStmt
  | getAccessToken
  | getRefreshToken
  | setTokens (accessToken : Jws) (refreshToken : String)
  | clearTokens
  | send (request : Request)
  | receive (id : ℕ)
  | gateway (bearer : Option WireToken)
  deriving DecidableEq

/-- The answer to `send` is the number of the call, that of the gateway a status. -/
abbrev BrowserStmt.Ans : BrowserStmt → Type
  | getAccessToken => Option Jws
  | getRefreshToken => Option String
  | send _ | gateway _ => ℕ
  | receive _ => Except Err Response
  | setTokens .. | clearTokens => Unit

/-- What the client throws: a failed `fetch`, or an `ApiError` with its status. -/
inductive BrowserErr
  | network
  | apiError (status : ℕ)
  deriving DecidableEq, Repr

abbrev Browser := Program ⟨BrowserStmt, BrowserStmt.Ans⟩ BrowserErr

/-- Issue one statement of the client. -/
abbrev Browser.query (s : BrowserStmt) : Browser s.Ans :=
  Program.perform (S := ⟨BrowserStmt, BrowserStmt.Ans⟩) s

/-- The status of an error response; what is not an `AppError` is an internal error. -/
def Err.status : Err → ℕ
  | .app e => e.statusCode
  | _ => 500

/-- The domain helpers of `api.ts`. -/
inductive ApiCall
  | login (email password : String)
  | verifyMfa (challengeId code : String)
  | register (input : RegisterInput)
  | verifyEmail (token : String)
  | forgotPassword (email : String)
  | resetPassword (token password : String)
  | logout (refreshToken : String)
  | fetchMe
  | fetchGatewayIdentity
  | enrollTotp
  | confirmTotp (code : String)
  | disableTotp (code : String)
  deriving DecidableEq, Repr

namespace ApiCall

/-- `bearer`. -/
def bearer : ApiCall → Bool
  | logout _ | fetchMe | fetchGatewayIdentity | enrollTotp | confirmTotp _ | disableTotp _ => true
  | _ => false

/-- `allowRefresh`. -/
def allowRefresh : ApiCall → Bool
  | confirmTotp _ | disableTotp _ => false
  | _ => true

/-- The request to the authorization server; there is none for the gateway. -/
def request (bearer : Option WireToken) : ApiCall → Option Request
  | login email password => some (.login email password)
  | verifyMfa challengeId code => some (.mfaVerify bearer (.challenge challengeId code))
  | register input => some (.register input)
  | verifyEmail token => some (.verifyEmail token)
  | forgotPassword email => some (.forgotPassword email)
  | resetPassword token password => some (.resetPassword token password)
  | logout refreshToken => some (.logout bearer false (some refreshToken))
  | fetchMe => some (.me bearer)
  | fetchGatewayIdentity => none
  | enrollTotp => some (.mfaEnroll bearer)
  | confirmTotp code => some (.mfaVerify bearer (.enrollment code))
  | disableTotp code => some (.mfaDisable bearer code)

end ApiCall

namespace Browser

/-- `fetch` of the authorization server. -/
def fetch (request : Request) : Browser (Except Err Response) := do
  let id ← query (.send request)
  query (.receive id)

/-- One `fetch` of `apiRequest`: the status of an error, or the payload, if it is one of the
authorization server. -/
def fetchOnce (call : ApiCall) : Browser (Except ℕ (Option Response)) := do
  let token ← if call.bearer then query .getAccessToken else pure none
  match call.request (token.map .jws) with
  | some request => do
      let res ← fetch request
      pure (match res with
        | .ok response => .ok (some response)
        | .error err => .error err.status)
  | none => do
      let status ← query (.gateway (token.map .jws))
      pure (if status < 400 then .ok none else .error status)

/-- `tryRefresh`. -/
def tryRefresh : Browser Bool := do
  let refresh ← query .getRefreshToken
  match refresh.filter (· ≠ "") with
  | none => pure false
  | some refresh =>
      tryCatch (do
        let res ← fetch (.refresh refresh)
        match res with
        | .ok (.session body) => do
            query (.setTokens body.accessToken body.refreshToken)
            pure true
        | _ => pure false)
        fun _ => pure false

/-- The end of `apiRequest`. -/
def settle (answer : Except ℕ (Option Response)) : Browser (Option Response) :=
  match answer with
  | .ok response => pure response
  | .error status => throw (.apiError status)

/-- `apiRequest`: the second attempt does not refresh again. -/
def apiRequest (call : ApiCall) : Browser (Option Response) := do
  let answer ← fetchOnce call
  match answer with
  | .error 401 =>
      if call.allowRefresh = true then do
        let refreshed ← tryRefresh
        if refreshed = true then do
          let answer ← fetchOnce call
          settle answer
        else do
          query .clearTokens
          throw (.apiError 401)
      else settle answer
  | _ => settle answer

/-- The handlers of the login and the second-factor view. -/
def signIn (call : ApiCall) : Browser Unit := do
  let res ← apiRequest call
  match res with
  | some (.session body) => query (.setTokens body.accessToken body.refreshToken)
  | _ => pure ()

/-- `doLogout`. -/
def doLogout : Browser Unit := do
  let refresh ← query .getRefreshToken
  tryCatch (whenSome (refresh.filter (· ≠ "")) fun refresh => do
    let _ ← apiRequest (.logout refresh)) fun _ => pure ()
  query .clearTokens

/-- What runs in the client at a time: a request of a view, the handlers that change the store,
and the `catch` of the account view. -/
inductive Task
  | api (call : ApiCall)
  | login (email password : String)
  | verifyMfa (challengeId code : String)
  | logout
  | clear
  deriving DecidableEq, Repr

def Task.run : Task → Browser Unit
  | api input => do
      let _ ← apiRequest input
  | login email password => signIn (.login email password)
  | verifyMfa challengeId code => signIn (.verifyMfa challengeId code)
  | logout => doLogout
  | clear => query .clearTokens

/-- The store of the client and the server. -/
structure State where
  store : TokenStore := {}
  server : Config statements Err World Incoming Response

variable (P : Platform) (ctx : RequestContext)

/-- A statement of the client, `status` being the answer of the gateway.  `receive` waits until
the call has returned. -/
def exec (s : BrowserStmt) (status : ℕ) (w : State) : Option (Except BrowserErr s.Ans × State) :=
  match s with
  | .getAccessToken => some (.ok w.store.accessToken, w)
  | .getRefreshToken => some (.ok w.store.refreshToken, w)
  | .setTokens accessToken refreshToken =>
      some (.ok (), { w with store := ⟨some accessToken, some refreshToken⟩ })
  | .clearTokens => some (.ok (), { w with store := {} })
  | .send request =>
      some (.ok w.server.calls.length,
        { w with server := (AuthServer.machine P).accept w.server ⟨request, ctx⟩ })
  | .receive id => (w.server.calls[id]?.bind Call.result).map fun res => (.ok res, w)
  | .gateway _ => some (.ok status, w)

/-- The client on one store, next to the server and its other clients.  A statement that fails
is a failed `fetch`. -/
def machine : Machine ⟨BrowserStmt, BrowserStmt.Ans⟩ BrowserErr State Task Unit ℕ
    (Action Incoming String AuthServer.Env) where
  handler := Task.run
  exec := exec P ctx
  env a w := ((AuthServer.machine P).apply w.server a).map fun server => { w with server := server }
  fault := .network

end Browser
end IdentityPlatform
