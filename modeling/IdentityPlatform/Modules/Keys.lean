/-
# The published keys

`modules/keys`: the public signing keys as `keys.routes.ts` publishes them, and how a
gateway that has fetched the document finds the key of a token in it.
-/

import IdentityPlatform.Modules.Gateway

namespace IdentityPlatform

open Interleaving Program

/-- A key of the JWKS document, without its public value. -/
structure Jwk where
  kid : String
  alg : String := "EdDSA"
  use : String := "sig"
  deriving DecidableEq, Repr

/-- `GET /.well-known/jwks.json`: `listPublicKeys`, each key for signatures with EdDSA. -/
def World.jwks (w : World) : List Jwk := w.signingKeys.map fun kid => { kid := kid }

/-- The keys of a document that fit the header of a token. -/
def Jws.candidates (token : Jws) (keys : List Jwk) : List Jwk :=
  keys.filter fun key => key.alg = token.alg && key.use = "sig" && token.kid.all (· = key.kid)

/-- The gateway finds keys in the document `keys`: the one key that fits a token. -/
def GatewayConfig.Resolves (config : GatewayConfig) (keys : List Jwk) : Prop :=
  ∀ token key, Jws.candidates token keys = [key] → config.jwks token = pure key.kid

/-- A gateway with the document `keys`, which refuses a token with no key or with several. -/
def GatewayConfig.fetched (keys : List Jwk) (parse : String → WireToken) : GatewayConfig where
  parse := parse
  jwks token :=
    match token.candidates keys with
    | [key] => pure key.kid
    | [] => throw (.jose "ERR_JWKS_NO_MATCHING_KEY")
    | _ => throw (.jose "ERR_JWKS_MULTIPLE_MATCHING_KEYS")

theorem GatewayConfig.fetched_resolves (keys : List Jwk) (parse : String → WireToken) :
    (GatewayConfig.fetched keys parse).Resolves keys := by
  intro token key h
  simp only [GatewayConfig.fetched, h]

/-- Where names are distinct, the key with the name of a token is found. -/
theorem World.candidates_jwks {w : World} {token : Jws} {kid : String}
    (hdistinct : w.signingKeys.Nodup) (halg : token.alg = "EdDSA") (hkid : token.kid = some kid)
    (hmem : kid ∈ w.signingKeys) : token.candidates w.jwks = [{ kid := kid }] := by
  have hfilter : w.signingKeys.filter (· = kid) = [kid] := by
    rw [List.filter_eq, List.count_eq_one_of_mem hdistinct hmem]
    rfl
  simp only [Jws.candidates, World.jwks, List.filter_map, Function.comp_def, halg, hkid]
  simpa [eq_comm] using congrArg (List.map fun kid => ({ kid := kid } : Jwk)) hfilter

end IdentityPlatform
