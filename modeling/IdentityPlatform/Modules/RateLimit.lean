/-
# Rate limits

`rate-limit.middleware.ts` over `incrementWindow` of `redis.service.ts`: a counter for each
identity, opened by the first `INCR` and given its lifetime by an `EXPIRE` that the same
request sends as a second command.

The counters are a state of their own, apart from that of the server: a limiter reads and
writes nothing else.  A command can fail without effect, and it can take effect with its
reply lost; a process that crashes between two commands fails its next one.
-/

import IdentityPlatform.Common.Errors
import IdentityPlatform.Interleaving.Machine
import IdentityPlatform.Relational.Cache

namespace IdentityPlatform

open Interleaving Program Relational

/-- The commands a limiter sends. -/
inductive CounterCommand
  | incr (key : String)
  | expire (key : String) (seconds : ℕ)
  | ttl (key : String)
  deriving DecidableEq, Repr

/-- The reply to a command. -/
abbrev CounterCommand.Reply : CounterCommand → Type
  | .incr _ => ℕ
  | .expire .. => Unit
  | .ttl _ => Int

/-- The signature of the commands. -/
abbrev counterCommands : Signature := ⟨CounterCommand, CounterCommand.Reply⟩

/-- The counters and the time, in milliseconds. -/
structure Counters where
  now : ℕ
  cache : Cache String ℕ
  deriving DecidableEq, Repr

/-- What a command answers, and the counters after it. -/
def CounterCommand.effect : (s : CounterCommand) → Counters → s.Reply × Counters
  | .incr key, w =>
      let counted := Cache.incr w.now key w.cache
      (counted.1, { w with cache := counted.2 })
  | .expire key seconds, w => ((), { w with cache := Cache.expire w.now key seconds w.cache })
  | .ttl key, w => (Cache.ttl w.now key w.cache, w)

/-- What a handler of the limiter is. -/
abbrev LimitProg (α : Type) := Program counterCommands Err α

/-- Send one command. -/
abbrev send (s : CounterCommand) : LimitProg s.Reply := Program.perform (S := counterCommands) s

/-- `RateLimitOptions`, with the identity resolved by the request. -/
structure RateLimitOptions where
  limit : ℕ
  windowSeconds : ℕ
  bucket : String
  deriving DecidableEq, Repr

/-- The headers the middleware has set, and what it calls `next` with. -/
structure LimitOutcome where
  headers : List (String × String)
  error : Option Err
  deriving DecidableEq, Repr

namespace RateLimit

/-- `RedisService.incrementWindow`. -/
def incrementWindow (key : String) (windowSeconds : ℕ) : LimitProg ℕ := do
  let count ← send (.incr key)
  onlyIf (count = 1) (send (.expire key windowSeconds))
  pure count

/-- `RedisService.key('rl', bucket, identity)`. -/
def limitKey (options : RateLimitOptions) (identity : String) : String :=
  "identity:rl:" ++ options.bucket ++ ":" ++ identity

/-- The headers of every answer. -/
def limitHeaders (options : RateLimitOptions) (count : ℕ) : List (String × String) :=
  [("X-RateLimit-Limit", toString options.limit),
    ("X-RateLimit-Remaining", toString (options.limit - count))]

/-- `ttl > 0 ? ttl : options.windowSeconds`. -/
def retryAfter (options : RateLimitOptions) (ttl : Int) : ℕ :=
  if 0 < ttl then ttl.toNat else options.windowSeconds

/-- `rateLimitMiddleware`. -/
def rateLimitMiddleware (options : RateLimitOptions) (identity : String) :
    LimitProg LimitOutcome := do
  let key := limitKey options identity
  let count ← incrementWindow key options.windowSeconds
  if count > options.limit then
    let ttl ← send (.ttl key)
    let retry := retryAfter options ttl
    pure ⟨limitHeaders options count ++ [("Retry-After", toString retry)],
      some (.tooManyRequestsError retry)⟩
  else pure ⟨limitHeaders options count, none⟩

/-- Whether the reply to a command reaches the process. -/
inductive Delivery
  | delivered
  | lost
  deriving DecidableEq, Repr

/-- A command whose connection is lost. -/
def connectionLost : Err := .library "ioredis"

/-- The limiter: identities arrive, time passes. -/
def machine (options : RateLimitOptions) :
    Machine counterCommands Err Counters String LimitOutcome Delivery ℕ where
  handler := rateLimitMiddleware options
  exec op delivery w :=
    match delivery with
    | .delivered => some (.ok (op.effect w).1, (op.effect w).2)
    | .lost => some (.error connectionLost, (op.effect w).2)
  env ms w := some { w with now := w.now + ms }
  fault := connectionLost

end RateLimit

/-- No counter yet. -/
def Counters.Initial (w : Counters) : Prop := w.cache = []

/-- A configuration of the limiter. -/
abbrev LimitConfig := Config counterCommands Err Counters String LimitOutcome

/-- A call of the limiter. -/
abbrev LimitCall := Call counterCommands Err Counters String LimitOutcome

/-- A command of a call. -/
abbrev LimitEvent := Event counterCommands Err Counters

/-- The commands of a call, the newest first. -/
abbrev LimitLog := Log counterCommands Err Counters

end IdentityPlatform
