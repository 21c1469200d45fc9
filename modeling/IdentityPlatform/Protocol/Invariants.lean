/-
# Invariants of the state

`reachable_invariant` is the rule for the invariants of the shared state: every
statement that is issued has its reason, and at the place where it is issued the
configuration is a reachable one, so everything known of those may be used.
-/

import IdentityPlatform.Protocol.Received
import IdentityPlatform.Protocol.Details

namespace IdentityPlatform

open Interleaving Program Relational Machine AuthServer

variable {P : Platform} {c : ServerConfig} {i : ℕ} {call : ServerCall}

/-- The reason of an event, with the log before it. -/
theorem justified_event (hv : (machine P).Valid c) (hi : c.calls[i]? = some call) {e : ServerEvent}
    (he : e ∈ call.log) : ∃ l, e :: l <:+ call.log ∧ Justified P call.req.request l e.op := by
  obtain ⟨l, hjust, hl⟩ := hv.respected handler_justified hi he
  exact ⟨l, hl, hjust⟩

/-- The reason and the details of an event, with the log before it. -/
theorem detailed_event (hv : (machine P).Valid c) (hi : c.calls[i]? = some call) {e : ServerEvent}
    (he : e ∈ call.log) : ∃ l, e :: l <:+ call.log ∧ Justified P call.req.request l e.op ∧
      Stmt.Detailed call.req.request l e.op := by
  obtain ⟨l, ⟨hjust, hdetailed⟩, hl⟩ := hv.respected
    (P := fun req l s => Justified P req.request l s ∧ Stmt.Detailed req.request l s)
    (fun req l s hs => ⟨handler_justified req l s hs, handler_detailed req l s hs⟩) hi he
  exact ⟨l, hl, hjust, hdetailed⟩

/-- **Invariants of the state**: what holds at the beginning, does not depend on the
ledger, and is kept by the environment and by every justified statement that
succeeds, its call having seen only states with the invariant before. -/
theorem reachable_invariant {J : World → Prop} (hreach : (machine P).Reachable World.Initial c)
    (h₀ : ∀ w, World.Initial w → J w)
    (hledger : ∀ w ledger, J w → J { w with generated := ledger })
    (henv : ∀ e w w', Env.apply w e = some w' → J w → J w')
    (hstep : ∀ (c : ServerConfig) (i : ℕ) (call : ServerCall) (s : Stmt) (a : s.Ans) (post : World),
      (machine P).Reachable World.Initial c → c.calls[i]? = some call →
      Justified P call.req.request call.log s → s.Answered P a c.world post →
      (∀ e ∈ call.log, J e.pre ∧ J e.post) → J c.world → J post) :
    J c.world ∧ ∀ (i : ℕ) call, c.calls[i]? = some call → ∀ e ∈ call.log, J e.pre ∧ J e.post := by
  refine hreach.invariant (I := fun c => J c.world ∧ ∀ (i : ℕ) call, c.calls[i]? = some call →
    ∀ e ∈ call.log, J e.pre ∧ J e.post) (fun w hw => ⟨h₀ w hw, by simp [Config.initial]⟩) ?_
  rintro c a c' hreach ⟨hJ, hlogs⟩ hs
  rcases step_cases hs with ⟨req, _, rfl⟩ | ⟨i, call, op, k, ans, post, _, hi, hp, hans, rfl⟩ |
    ⟨e, w, _, hw, rfl⟩
  · refine ⟨hJ, fun j call hj e he => ?_⟩
    rcases accept_get_cases hj with ⟨_, hj⟩ | ⟨_, rfl⟩
    · exact hlogs j call hj e he
    · cases he
  · have hpost : J post := by
      rcases hans with ⟨r, hexec⟩ | ⟨_, rfl⟩
      · cases ans with
        | error e =>
            obtain ⟨⟨ledger, hfailed⟩, _⟩ := Stmt.exec_failed hexec
            exact hfailed ▸ hledger _ ledger hJ
        | ok a =>
            have hjust := handler_justified call.req call.log op (hreach.valid.next hi hp)
            exact hstep c i call op a post hreach hi hjust ⟨r, hexec⟩ (hlogs i call hi) hJ
      · exact hJ
    refine ⟨hpost, fun j call' hj e he => ?_⟩
    rcases Config.record_get_cases hi hj with ⟨_, hj⟩ | ⟨_, rfl⟩
    · exact hlogs j call' hj e he
    · rcases List.mem_cons.1 he with rfl | he
      · exact ⟨hJ, hpost⟩
      · exact hlogs i call hi e he
  · exact ⟨henv e _ _ hw hJ, hlogs⟩

end IdentityPlatform
