/-
# What is left of a family after `/oauth/revoke`

`OAuthService.revoke` marks one row: that of the presented token.  `revokeFamily` is not
called, and the session goes on.  So a token that was rotated before it is revoked leaves
its successors in use, and so does a rotation that is under way.  `family_revoked_iff`
says that these are the two ways for a token of the family to be left.
-/

import IdentityPlatform.Protocol.TokenConsumption
import IdentityPlatform.Protocol.TokenFamilies
import IdentityPlatform.Protocol.ReuseDetection

namespace IdentityPlatform

open Interleaving Program Relational Machine AuthServer

variable {P : Platform} {c c₀ : ServerConfig} {i j : ℕ} {call issuer : ServerCall} {e : ServerEvent}
  {w w' : World} {familyId : String}

/-- The session is active. -/
def World.SessionActive (w : World) (id : String) : Prop :=
  ∃ s ∈ w.sessions, s.id = id ∧ s.status = .active

/-- The token can be exchanged for new ones: it is usable, and its session is active. -/
def RefreshTokenRow.Exchangeable (w : World) (row : RefreshTokenRow) : Prop :=
  row.Usable w.now ∧ w.SessionActive row.sessionId

/-- Some token of the family can be exchanged for new ones. -/
def World.FamilyUsable (w : World) (familyId : String) : Prop :=
  ∃ row ∈ w.family familyId, row.Exchangeable w

instance {id : String} : Decidable (w.SessionActive id) :=
  inferInstanceAs (Decidable (∃ s ∈ w.sessions, s.id = id ∧ s.status = .active))

instance {row : RefreshTokenRow} : Decidable (row.Exchangeable w) := instDecidableAnd

instance : Decidable (w.FamilyUsable familyId) :=
  inferInstanceAs (Decidable (∃ row ∈ w.family familyId, row.Exchangeable w))

/-- By `e` a call of `/oauth/revoke` has revoked the row of the presented token. -/
structure RevokesToken (P : Platform) (call : ServerCall) (e : ServerEvent)
    (row : RefreshTokenRow) : Prop where
  request : ∃ token, call.req.request = .revoke token ∧
    row.tokenHash = P.sha256Hex (P.wireText token)
  statement : e ∈ call.log ∧ ∃ n pre count post,
    e = ⟨n, pre, .refreshTokens (.revokeByToken row.tokenHash), .ok count, post⟩
  presented : row ∈ e.pre.refreshTokens
  live : RefreshStmt.live row = true

/-- A state the run has been in since `e`. -/
inductive SeenSince (c : ServerConfig) (e : ServerEvent) : World → Prop
  | last : SeenSince c e c.world
  | post {j : ℕ} {issuer : ServerCall} {e' : ServerEvent} (hj : c.calls[j]? = some issuer)
      (he' : e' ∈ issuer.log) (since : e.seq ≤ e'.seq) : SeenSince c e e'.post
  | pre {j : ℕ} {issuer : ServerCall} {e' : ServerEvent} (hj : c.calls[j]? = some issuer)
      (he' : e' ∈ issuer.log) (since : e.seq < e'.seq) : SeenSince c e e'.pre

/-- A call has rotated a token of the family before `e`, and has stored the successor
after `e`, for a session that was still active. -/
inductive CrossesRevocation (familyId : String) (e : ServerEvent) (issuer : ServerCall) : Prop
  | intro {n n' pre pre' post post' hash row data}
      (rotated : (⟨n, pre, .refreshTokens (.rotate hash), .ok (some row), post⟩ : ServerEvent) ∈
        issuer.log)
      (stored : (⟨n', pre', .refreshTokens (.insert data), .ok (), post'⟩ : ServerEvent) ∈
        issuer.log)
      (before : n < e.seq) (after : e.seq < n')
      (family : row.familyId = familyId ∧ data.familyId = familyId)
      (successor : data.previousTokenId = some row.id)
      (active : pre'.SessionActive data.sessionId) (ttl : 0 < data.ttlSeconds)

/-! ### Usable tokens over time -/

/-- An active session has been active as long as it has existed. -/
theorem World.SessionActive.earlier {id : String} (h : w'.SessionActive id) (hle : w.Le w')
    (hw' : w'.Sound) (hexists : w.hasSession id) : w.SessionActive id := by
  obtain ⟨s, hs, rfl⟩ := hexists
  obtain ⟨s', hs', hid, hactive⟩ := h
  have hrow := hle.sessions.le_of_key hw'.sessions.nodup (fun h => h.id) hs hs' hid
  refine ⟨s, hs, rfl, ?_⟩
  cases hstatus : s.status with
  | active => rfl
  | revoked =>
      rw [hrow.revoked hstatus] at hactive
      cases hactive

/-- A token that can be exchanged has been so as long as it has existed. -/
theorem RefreshTokenRow.Exchangeable.earlier {row row' : RefreshTokenRow} (h : row'.Exchangeable w')
    (hle : w.Le w') (hw' : w'.Sound) (hrow : row.Le row') (hexists : w.hasSession row.sessionId) :
    row.Exchangeable w := by
  obtain ⟨⟨hactive, hnow⟩, hsession⟩ := h
  refine ⟨⟨?_, ?_⟩, (hrow.sessionId ▸ hsession).earlier hle hw' hexists⟩
  · by_contra hspent
    exact hrow.spent hspent hactive
  · have hexpires := hrow.expiresAt
    have := hle.now
    omega

/-- The session of a stored token was there. -/
theorem session_referenced_before (hreach : (machine P).Reachable World.Initial c)
    (hi : c.calls[i]? = some call) (he : e ∈ call.log) {row : RefreshTokenRow}
    (hrow : row ∈ e.pre.refreshTokens) : e.pre.hasSession row.sessionId := by
  obtain ⟨c', _, hreach', _, hworld, _⟩ := hreach.before hi he
  rw [← hworld] at hrow ⊢
  exact session_referenced hreach' hrow

/-- **Where a usable token comes from**: the family had one before the statement, or the
statement has stored it. -/
theorem World.FamilyUsable.before (hreach : (machine P).Reachable World.Initial c) {s : Stmt}
    {r : String} {ans : Except Err s.Ans} (h : s.exec P r c.world = some (ans, w'))
    (husable : w'.FamilyUsable familyId) : c.world.FamilyUsable familyId ∨
      ∃ data, s = .refreshTokens (.insert data) ∧ data.familyId = familyId ∧
        0 < data.ttlSeconds ∧ w'.SessionActive data.sessionId ∧
        c.world.hasSession data.sessionId := by
  obtain ⟨row, hrow, hexchangeable⟩ := husable
  obtain ⟨hrow, hfamily⟩ := mem_family.1 hrow
  have hle := Stmt.exec_le h
  have hsound := Stmt.exec_sound h (reachable_sound hreach).1
  have hold : ∀ a ∈ c.world.refreshTokens, a.Le row → c.world.FamilyUsable familyId := by
    intro a ha harow
    refine ⟨a, mem_family.2 ⟨ha, harow.familyId.symm.trans hfamily⟩, ?_⟩
    exact hexchangeable.earlier hle hsound harow (session_referenced hreach ha)
  rcases (Stmt.exec_refreshTokens h).mem_cases hrow with ⟨a, ha, rfl | ⟨u, _, hwhere, rfl⟩⟩ |
    ⟨data, rfl, rfl, _, _, hexists⟩
  · exact .inl (hold row ha (.refl row))
  · exact .inl (hold a ha (RefreshStmt.change_le hwhere))
  · refine .inr ⟨data, rfl, hfamily, ?_, hexchangeable.2, hexists⟩
    have hnow : w'.now < c.world.now + data.ttlSeconds * 1000 := hexchangeable.1.2
    have := hle.now
    omega

/-! ### What the statement of `revoke` leaves -/

/-- **Only the presented token is revoked.** -/
theorem RevokesToken.left {row : RefreshTokenRow} (h : RevokesToken P call e row)
    (hreach : (machine P).Reachable World.Initial c) (hi : c.calls[i]? = some call) :
    e.post.FamilyUsable familyId ↔
      ∃ a ∈ e.pre.family familyId, a.Exchangeable e.pre ∧ a ≠ row := by
  obtain ⟨hmem, n, pre, count, post, rfl⟩ := h.statement
  have hsound := ((reachable_sound hreach).2 i call hi _ hmem).1
  obtain ⟨r, ledger, _, rfl, _⟩ := (executed hreach.valid hi hmem).effect
  have hwhere : ∀ a ∈ pre.refreshTokens,
      ((RefreshStmt.revokeByToken row.tokenHash).where pre a = true ↔ a = row) := by
    intro a ha
    simp only [RefreshStmt.where, Bool.and_eq_true, decide_eq_true_eq]
    refine ⟨fun hw => eq_of_key hsound.tokenHashes ha h.presented hw.1, ?_⟩
    rintro rfl
    exact ⟨rfl, h.live⟩
  constructor
  · rintro ⟨b, hb, hexchangeable⟩
    obtain ⟨hb, hfamily⟩ := mem_family.1 hb
    obtain ⟨a, ha, rfl⟩ := mem_updateWhere.1 (show b ∈
      (RefreshStmt.revokeByToken row.tokenHash).update pre from hb)
    split_ifs at hfamily hexchangeable with hw
    · cases hexchangeable.1.1
    · refine ⟨a, mem_family.2 ⟨ha, hfamily⟩, hexchangeable, fun heq => hw ?_⟩
      exact (hwhere a ha).2 heq
  · rintro ⟨a, ha, hexchangeable, hne⟩
    obtain ⟨ha, hfamily⟩ := mem_family.1 ha
    refine ⟨a, mem_family.2 ⟨?_, hfamily⟩, hexchangeable⟩
    refine mem_updateWhere.2 ⟨a, ha, ?_⟩
    rw [if_neg fun hw => hne ((hwhere a ha).1 hw)]

/-! ### The states since -/

/-- A crossing rotation stays one. -/
theorem CrossesRevocation.mono {issuer' : ServerCall} (h : CrossesRevocation familyId e issuer)
    (hlog : issuer.log ⊆ issuer'.log) : CrossesRevocation familyId e issuer' := by
  obtain ⟨rotated, stored, before, after, family, successor, active, ttl⟩ := h
  exact ⟨hlog rotated, hlog stored, before, after, family, successor, active, ttl⟩

/-- The family is not usable now, nor in any state an event of the run since `n` was
executed in or has led to. -/
structure UnusableSince (familyId : String) (n : ℕ) (c : ServerConfig) : Prop where
  now : ¬c.world.FamilyUsable familyId
  events : ∀ (j : ℕ) issuer, c.calls[j]? = some issuer → ∀ e' ∈ issuer.log, n ≤ e'.seq →
    ¬e'.pre.FamilyUsable familyId ∧ ¬e'.post.FamilyUsable familyId

/-- **A family that is not usable stays so**, where no rotation crosses: the one way to a
usable token is the insertion of a successor, right after a rotation of a token that could
be exchanged until then. -/
theorem UnusableSince.stored (hreach : (machine P).Reachable World.Initial c)
    (hi : c.calls[i]? = some call) (he : ∃ (j : ℕ) (caller : ServerCall),
      c.calls[j]? = some caller ∧ e ∈ caller.log ∧ ∀ hash, e.op ≠ .refreshTokens (.rotate hash))
    (h : UnusableSince familyId (e.seq + 1) c) (hmember : c.world.family familyId ≠ [])
    {data : IssueRefreshData}
    (hjust : Justified P call.req.request call.log (.refreshTokens (.insert data)))
    (hfamily : data.familyId = familyId) (hactive : c.world.SessionActive data.sessionId) :
    ∃ n pre post hash row, n < e.seq ∧ row.familyId = familyId ∧
      data.previousTokenId = some row.id ∧
      (⟨n, pre, .refreshTokens (.rotate hash), .ok (some row), post⟩ : ServerEvent) ∈ call.log := by
  cases hjust.2.1 with
  | first _ hgenerated =>
      obtain rfl := hfamily
      exact absurd (family_eq_nil hreach hi hgenerated (family_chain hreach _)) hmember
  | @successor l₁ l₂ hash row token hrotated hgenerated stored =>
      have hsaw : Log.Saw call.log (.refreshTokens (.rotate hash)) (.ok (some row)) := by
        obtain ⟨n₁, pre₁, post₁, rfl⟩ := hrotated
        obtain ⟨n₂, pre₂, post₂, hlog⟩ := hgenerated
        exact ⟨n₁, pre₁, post₁, hlog ▸ List.mem_cons_of_mem _ (List.mem_cons_self ..)⟩
      subst stored
      obtain ⟨n, pre, post, hmem, hans⟩ := answered hreach.valid hi hsaw
      refine ⟨n, pre, post, hash, row, ?_, hfamily, rfl, hmem⟩
      by_contra hnot
      -- a token rotated since could have been exchanged
      have hsince : e.seq + 1 ≤ n := by
        rcases Nat.lt_or_ge e.seq n with hlt | hge
        · exact hlt
        · obtain ⟨j, caller, hj, he, hop⟩ := he
          have heq := (hreach.valid.seq_inj hj hi e he _ hmem
            (Nat.le_antisymm (Nat.not_lt.1 hnot) hge)).2
          exact absurd (heq ▸ rfl) (hop hash)
      refine (h.events i call hi _ hmem hsince).1 ?_
      obtain ⟨old, hold, _, hstatus, hexpires, rfl, _⟩ := Stmt.rotate_answer hans
      refine ⟨old, mem_family.2 ⟨hold, hfamily⟩, ⟨hstatus, hexpires⟩, ?_⟩
      have hord := hreach.ordered (le_stable P)
      exact hactive.earlier ((hord.answer hi _ hmem).trans (hord.post hi _ hmem))
        (reachable_sound hreach).1 (session_referenced_before hreach hi hmem hold)

theorem unusable_since {c₂ : ServerConfig} (h₂ : (machine P).Reachable World.Initial c₂)
    (he : ∃ (j : ℕ) (caller : ServerCall), c₂.calls[j]? = some caller ∧ e ∈ caller.log ∧
      ∀ hash, e.op ≠ .refreshTokens (.rotate hash))
    (hseq : c₂.seq = e.seq + 1) (hunusable : ¬c₂.world.FamilyUsable familyId)
    (hmember : ∃ row ∈ c₂.world.refreshTokens, row.familyId = familyId)
    (hrun : (machine P).Run c₂ c)
    (hcross : ∀ (j : ℕ) issuer, c.calls[j]? = some issuer →
      ¬CrossesRevocation familyId e issuer) : UnusableSince familyId (e.seq + 1) c := by
  induction hrun with
  | refl =>
      refine ⟨hunusable, fun j issuer hj e' he' hle => ?_⟩
      exact absurd (h₂.valid.seq_lt hj e' he') (Nat.not_lt.2 (hseq ▸ hle))
  | @tail c₁ c₃ a hrun hok hs ih =>
      have h₁ := h₂.run hrun
      have hearlier := ih fun j issuer hj hcrosses => by
        obtain ⟨issuer', hj', hext⟩ := apply_extends hs hj
        exact hcross j issuer' hj' (hcrosses.mono hext.log.subset)
      rcases step_cases hs with ⟨req, _, rfl⟩ | ⟨i, call, op, k, ans, post, _, hi, hp, hans, rfl⟩ |
        ⟨env, w, _, hw, rfl⟩
      · refine ⟨hearlier.now, fun j issuer hj e' he' hle => ?_⟩
        rcases accept_get_cases hj with ⟨_, hj⟩ | ⟨_, rfl⟩
        · exact hearlier.events j issuer hj e' he' hle
        · cases he'
      · have hpost : ¬post.FamilyUsable familyId := by
          intro husable
          rcases hans with ⟨r, hexec⟩ | ⟨_, rfl⟩
          swap
          · exact hearlier.now husable
          rcases husable.before h₁ hexec with hbefore | ⟨data, rfl, hfamily, httl, hactive, hexists⟩
          · exact hearlier.now hbefore
          have hactive' := hactive.earlier (Stmt.exec_le hexec)
            (Stmt.exec_sound hexec (reachable_sound h₁).1) hexists
          have hjust := handler_justified call.req call.log _ (h₁.valid.next hi hp)
          obtain ⟨j, caller, hj, hmem, hop⟩ := he
          obtain ⟨caller', hj', hext⟩ := hrun.extends hj
          obtain ⟨row, hrow, hrowfamily⟩ := hmember
          obtain ⟨row', hrow', hle⟩ := ((le_stable P).runs hrun).refreshTokens row hrow
          have hnonempty := List.ne_nil_of_mem
            (mem_family.2 ⟨hrow', hle.familyId.trans hrowfamily⟩)
          obtain ⟨n, pre, post', hash, row₁, hn, hrow₁, hprevious, hrotated⟩ :=
            hearlier.stored h₁ hi ⟨j, caller', hj', hext.log.subset hmem, hop⟩
            hnonempty hjust hfamily
              hactive'
          have hlate : e.seq < c₁.seq := Nat.lt_of_succ_le (hseq.symm.le.trans hrun.seq_le)
          cases ans with
          | error err =>
              obtain ⟨⟨ledger, hfailed⟩, _⟩ := Stmt.exec_failed hexec
              obtain rfl : post = { c₁.world with generated := ledger } := hfailed
              exact hearlier.now husable
          | ok _ =>
              refine hcross i _ (Config.record_get_self hi) ⟨List.mem_cons_of_mem _ hrotated,
                List.mem_cons_self .., hn, hlate, ⟨hrow₁, hfamily⟩, hprevious, hactive', httl⟩
        refine ⟨hpost, fun j issuer hj e' he' hle => ?_⟩
        rcases Config.record_get_cases hi hj with ⟨_, hj⟩ | ⟨_, rfl⟩
        · exact hearlier.events j issuer hj e' he' hle
        · rcases List.mem_cons.1 he' with rfl | he'
          · exact ⟨hearlier.now, hpost⟩
          · exact hearlier.events i call hi e' he' hle
      · refine ⟨fun husable => hearlier.now ?_, hearlier.events⟩
        obtain ⟨_, hsessions, hrows, _⟩ := Env.apply_rows hw
        obtain ⟨row, hrow, hexchangeable⟩ := husable
        obtain ⟨hrow, hfamily⟩ := mem_family.1 hrow
        rw [hrows] at hrow
        refine ⟨row, mem_family.2 ⟨hrow, hfamily⟩, ?_⟩
        exact hexchangeable.earlier (Env.apply_le hw) (Env.apply_sound hw (reachable_sound h₁).1)
          (.refl row) (session_referenced h₁ hrow)

/-- A token stored for an active session can be exchanged. -/
theorem stored_exchangeable {data : IssueRefreshData}
    (h : (Stmt.refreshTokens (.insert data)).Answered P () w w')
    (hactive : w.SessionActive data.sessionId) (httl : 0 < data.ttlSeconds) :
    w'.FamilyUsable data.familyId := by
  obtain ⟨r, _, hrow, _⟩ := Stmt.insertRefreshToken_answer h
  refine ⟨data.row r w, mem_family.2 ⟨hrow, rfl⟩, ⟨rfl, ?_⟩, ?_⟩
  all_goals obtain ⟨_, _, _, rfl, _⟩ := h.effect
  · change w.now < w.now + data.ttlSeconds * 1000
    omega
  · exact hactive

/-- A rotation that is followed by the read of an active session has rotated a token that
could be exchanged. -/
theorem rotated_exchangeable (hreach : (machine P).Reachable World.Initial c)
    (hi : c.calls[i]? = some call) {hash : String} {l' : ServerLog} {row : RefreshTokenRow}
    {session : SessionRow} (hrotate : l'.Saw (.refreshTokens (.rotate hash)) (.ok (some row)))
    (hfound : Log.SawSince l' call.log (.sessions (.selectById row.sessionId)) (.ok (some session)))
    (hactive : session.status = .active) :
    ∃ e ∈ call.log, e.op = .refreshTokens (.rotate hash) ∧ ∃ old ∈ e.pre.refreshTokens,
      old.tokenHash = hash ∧ row.userId = old.userId ∧ old.Exchangeable e.pre := by
  have hv := hreach.valid
  obtain ⟨n, pre, post, hmem'⟩ := hrotate
  have hmem := hfound.suffix.subset hmem'
  obtain ⟨l₁, hl₁, n₁, pre₁, post₁, hl⟩ := hfound
  have hread := hl.subset (List.mem_cons_self ..)
  obtain ⟨old, hold, hhash, hstatus, hexpires, rfl, _⟩ :=
    Stmt.rotate_answer (executed hv hi hmem)
  have hord := hreach.ordered (le_stable P)
  have hle : pre.Le pre₁ := (hord.answer hi _ hmem).trans (hord.earlier hv hi hl (hl₁.subset hmem'))
  have hlookup := (Stmt.selectById_answer (executed hv hi hread)).symm
  have hsession : pre₁.SessionActive old.sessionId :=
    ⟨session, lookup_mem hlookup, lookup_key hlookup, hactive⟩
  refine ⟨_, hmem, rfl, old, hold, hhash, rfl, ⟨hstatus, hexpires⟩, ?_⟩
  exact hsession.earlier hle ((reachable_sound hreach).2 i call hi _ hread).1
    (session_referenced_before hreach hi hmem hold)

/-- The token of a call that is answered with tokens could be exchanged when the call
rotated it. -/
theorem presented_exchangeable (hreach : (machine P).Reachable World.Initial c)
    (hi : c.calls[i]? = some call) {token : String} (hpresents : call.req.request.Presents token)
    {response : Response} (hresult : call.result = some (.ok response)) {access : Jws}
    (haccess : response.accessToken? = some access) :
    ∃ e ∈ call.log, ∃ row ∈ e.pre.refreshTokens, row.tokenHash = P.sha256Hex token ∧
      row.Exchangeable e.pre := by
  have hv := hreach.valid
  -- the session was read after the rotation, and was active then
  have hrotated : ∀ {l' : ServerLog} {row : RefreshTokenRow} {session : SessionRow},
      l'.Saw (.refreshTokens (.rotate (P.sha256Hex token))) (.ok (some row)) →
      Log.SawSince l' call.log (.sessions (.selectById row.sessionId)) (.ok (some session)) →
      session.status = .active → ∃ e ∈ call.log, ∃ row ∈ e.pre.refreshTokens,
        row.tokenHash = P.sha256Hex token ∧ row.Exchangeable e.pre := by
    intro l' row session hrotate hfound hactive
    obtain ⟨e, he, _, old, hold, hhash, _, hexchangeable⟩ :=
      rotated_exchangeable hreach hi hrotate hfound hactive
    exact ⟨e, he, old, hold, hhash, hexchangeable⟩
  have hgrant := granted (hv.returned hi hresult) haccess
  generalize call.req.request = request at hgrant hpresents
  cases hgrant with
  | login | challenge => cases hpresents
  | refresh grant =>
      cases hpresents
      obtain ⟨l', hsaw, hfound⟩ := grant.rotated
      exact hrotated hsaw hfound grant.active
  | oauthRefresh hform grant =>
      cases hpresents with
      | oauth _ hpresented =>
          obtain ⟨_, htoken, l', hsaw, hfound⟩ := grant.rotated
          obtain rfl := Option.some.inj (htoken.symm.trans hpresented)
          exact hrotated hsaw hfound grant.active
  | code hform | clientCredentials hform =>
      cases hpresents with
      | oauth hrefresh _ =>
          rw [hform] at hrefresh
          cases hrefresh

/-- **What is left of a family.**  Since `/oauth/revoke` has revoked a token that was
active or rotated, no token of its family can be exchanged, exactly if no other one could
be exchanged until then and no rotation crosses the revocation.  Where none can, no later
call that presents a token of the family is answered with tokens. -/
theorem family_revoked_iff (hreach : (machine P).Reachable World.Initial c)
    (hi : c.calls[i]? = some call) {row : RefreshTokenRow} (h : RevokesToken P call e row) :
    ((∀ w, SeenSince c e w → ¬w.FamilyUsable row.familyId) ↔
      (∀ a ∈ e.pre.family row.familyId, a.Exchangeable e.pre → a = row) ∧
        ∀ (j : ℕ) issuer, c.calls[j]? = some issuer →
          ¬CrossesRevocation row.familyId e issuer) ∧
    ((∀ w, SeenSince c e w → ¬w.FamilyUsable row.familyId) →
      ∀ (j : ℕ) (late : ServerCall), c.calls[j]? = some late → e.seq < late.startSeq →
      ∀ token, late.req.request.Presents token →
      (∃ a ∈ c.world.family row.familyId, a.tokenHash = P.sha256Hex token) →
      ∀ response, late.result = some (.ok response) → response.accessToken? = none) := by
  have hv := hreach.valid
  obtain ⟨hmem, n, pre, count, post, he⟩ := h.statement
  refine ⟨⟨fun hunusable => ⟨fun a ha hexchangeable => ?_, fun j issuer hj hcrosses => ?_⟩, ?_⟩, ?_⟩
  · by_contra hne
    exact hunusable _ (.post hi hmem le_rfl) ((h.left hreach hi).2 ⟨a, ha, hexchangeable, hne⟩)
  · obtain ⟨_, hstored, _, hafter, ⟨_, hfamily⟩, _, hactive, httl⟩ := hcrosses
    refine hunusable _ (.post hj hstored hafter.le) ?_
    exact hfamily ▸ stored_exchangeable (executed hv hj hstored) hactive httl
  · rintro ⟨honly, hcross⟩
    -- from the configuration right after the statement
    obtain ⟨w₀, hw₀, hrun⟩ := id hreach
    obtain ⟨c₁, c₂, call₁, hrun₁, hbetween, hrun₂, hi₁, _⟩ :=
      hrun.around (.initial w₀) hi hmem (Nat.zero_le _)
    have hreach₂ : (machine P).Reachable World.Initial c₂ := ⟨w₀, hw₀, hrun₁.trans hbetween.run⟩
    obtain ⟨call₂, hi₂, _⟩ := hbetween.run.extends hi₁
    obtain ⟨call₃, hi₃, hext⟩ := hrun₂.extends hi₂
    obtain rfl : call = call₃ := Option.some.inj (hi.symm.trans hi₃)
    have hmem₂ : e ∈ call₂.log := by
      refine (hext.new e hmem).resolve_right fun hle => ?_
      have := hbetween.next
      omega
    obtain ⟨row', hrow', hle⟩ :=
      ((hreach.ordered (le_stable P)).answer hi e hmem).refreshTokens row h.presented
    have hsince : UnusableSince row.familyId (e.seq + 1) c := by
      refine unusable_since hreach₂ ⟨i, call₂, hi₂, hmem₂, by simp [he]⟩ hbetween.next ?_
        ⟨row', hbetween.post ▸ hrow', hle.familyId⟩ hrun₂ hcross
      rw [hbetween.post, h.left hreach hi]
      rintro ⟨a, ha, hexchangeable, hne⟩
      exact hne (honly a ha hexchangeable)
    rintro w (_ | ⟨hj, he', hle⟩ | ⟨hj, he', hlt⟩)
    · exact hsince.now
    · rcases Nat.lt_or_eq_of_le hle with hlt | heq
      · exact (hsince.events _ _ hj _ he' hlt).2
      · obtain ⟨rfl, rfl⟩ := hv.seq_inj hi hj _ hmem _ he' heq
        rw [h.left hreach hi]
        rintro ⟨a, ha, hexchangeable, hne⟩
        exact hne (honly a ha hexchangeable)
    · exact (hsince.events _ _ hj _ he' hlt).1
  · rintro hunusable j late hj hlate token hpresents ⟨a, ha, hhash⟩ response hresult
    rw [Option.eq_none_iff_forall_ne_some]
    intro access haccess
    obtain ⟨ha, hfamily⟩ := mem_family.1 ha
    obtain ⟨e', he', old, hold, holdhash, hexchangeable⟩ :=
      presented_exchangeable hreach hj hpresents hresult haccess
    refine hunusable _ (.pre hj he' (hlate.trans (hv.start_lt hj e' he'))) ⟨old, ?_, hexchangeable⟩
    have hord := hreach.ordered (le_stable P)
    have hnow : e'.pre.Le c.world := (hord.answer hj e' he').trans (hord.post hj e' he')
    have hrow := hnow.refreshTokens.le_of_key (reachable_sound hreach).1.tokenHashes
      (fun h => h.tokenHash) hold ha (hhash.trans holdhash.symm)
    exact mem_family.2 ⟨hold, hrow.familyId.symm.trans hfamily⟩

/-! ### Two runs -/

/-- The row a statement of `revoke` finds, with its event. -/
def revokedRow? (tokenHash : String) : ServerEvent → Option RefreshTokenRow
  | ⟨_, pre, .refreshTokens (.revokeByToken hash), .ok _, _⟩ =>
      if hash = tokenHash then (pre.refreshToken tokenHash).filter RefreshStmt.live else none
  | _ => none

/-- The refresh token presented at `/oauth/revoke`. -/
def presentedForRevocation? (P : Platform) (call : ServerCall) : Option String :=
  match call.req.request with
  | .revoke token => some (P.wireText token)
  | _ => none

theorem revokesToken_of_revokedRow? {text : String} {row : RefreshTokenRow}
    (htext : presentedForRevocation? P call = some text) (hmem : e ∈ call.log)
    (h : revokedRow? (P.sha256Hex text) e = some row) : RevokesToken P call e row := by
  unfold presentedForRevocation? at htext
  split at htext
  · rename_i token hrequest
    obtain rfl := Option.some.inj htext
    unfold revokedRow? at h
    split at h
    · rename_i n pre hash count post
      split_ifs at h with hhash
      subst hhash
      obtain ⟨hlookup, hlive⟩ := Option.filter_eq_some_iff.1 h
      have hkey : row.tokenHash = P.sha256Hex (P.wireText token) := lookup_key hlookup
      exact ⟨⟨token, hrequest, hkey⟩, ⟨hmem, n, pre, count, post, by rw [hkey]⟩, lookup_mem hlookup,
        hlive⟩
    · cases h
  · cases htext

/-- `UPDATE refresh_tokens SET status = 'rotated'`. -/
def Stmt.isRotation : Stmt → Bool
  | .refreshTokens (.rotate _) => true
  | _ => false

/-- A login whose token is revoked. -/
def revokedLoginMoves : List (Move World Incoming Env) :=
  loginMoves 0 "al@x.io" "Al 1" ++
    [.accept fun w => ⟨.revoke (.raw (lastToken w)), {}⟩, .steps 1 40]

theorem family_revoked_iff_of_login :
    ∃ (c : ServerConfig) (call : ServerCall) (e : ServerEvent) (row : RefreshTokenRow),
      sampleRun revokedLoginMoves = some c ∧ c.calls[1]? = some call ∧
      RevokesToken .sample call e row ∧
      row.Exchangeable e.pre ∧ ∀ w, SeenSince c e w → ¬w.FamilyUsable row.familyId := by
  have hplay : (sampleRun revokedLoginMoves).any (fun c => decide (∀ caller ∈ c.calls,
      ∀ e ∈ caller.log, e.op.isRotation = false) &&
      (c.calls[1]?).any fun call => (presentedForRevocation? .sample call).any fun text =>
        call.log.any fun e => (revokedRow? (Platform.sample.sha256Hex text) e).any fun row =>
          decide (row.Exchangeable e.pre ∧ (e.pre.family row.familyId).length = 1)) = true := by
    decide +kernel
  obtain ⟨c, hc, hall⟩ := (Option.any_eq_true _ _).1 hplay
  simp only [Bool.and_eq_true, decide_eq_true_eq, Option.any_eq_true, List.any_eq_true] at hall
  obtain ⟨hrotations, call, hi, text, htext, e, hmem, row, hrow, hexchangeable, honly⟩ := hall
  have hrevokes := revokesToken_of_revokedRow? htext hmem hrow
  refine ⟨c, call, e, row, hc, hi, hrevokes, hexchangeable, ?_⟩
  refine (family_revoked_iff (sampleRun_reachable hc) hi hrevokes).1.2
    ⟨fun a ha _ => ?_, fun j issuer hj hcrosses => ?_⟩
  · obtain ⟨b, hb⟩ := List.length_eq_one_iff.1 honly
    have hmember := mem_family.2 ⟨hrevokes.presented, rfl⟩
    rw [hb, List.mem_singleton] at ha hmember
    exact ha.trans hmember.symm
  · obtain ⟨hrotated, _⟩ := hcrosses
    cases hrotations issuer (List.mem_of_getElem? hj) _ hrotated

/-- A token is rotated, and its holder then revokes it. -/
def revokedChainMoves : List (Move World Incoming Env) :=
  loginMoves 0 "al@x.io" "Al 1" ++
    [.accept fun w => ⟨.refresh (lastToken w), {}⟩, .steps 1 40,
     .accept fun w => ⟨.revoke (.raw (rotatedToken w)), {}⟩, .steps 2 40,
     .accept fun w => ⟨.refresh (lastToken w), {}⟩, .steps 3 40]

/-- **Revoking a rotated token leaves its successor.**  `/oauth/revoke` has answered, and a
later call exchanges the newest token of the family. -/
theorem successor_outlives_revocation :
    ∃ (c : ServerConfig) (call late : ServerCall) (e : ServerEvent) (row : RefreshTokenRow)
      (token : String) (response : Response),
      sampleRun revokedChainMoves = some c ∧ c.calls[2]? = some call ∧
      call.result = some (.ok (.status "revoked")) ∧ RevokesToken .sample call e row ∧
      row.status = .rotated ∧ e.post.FamilyUsable row.familyId ∧ c.calls[3]? = some late ∧
      e.seq < late.startSeq ∧ late.req.request.Presents token ∧
      (∃ a ∈ c.world.family row.familyId, a.tokenHash = Platform.sample.sha256Hex token) ∧
      late.result = some (.ok response) ∧ response.accessToken?.isSome = true := by
  have hplay : (sampleRun revokedChainMoves).any (fun c => (c.calls[3]?).any fun late =>
      (c.returned 3).any fun response => response.accessToken?.isSome &&
      (refreshPresented? late).any fun token => (c.calls[2]?).any fun call =>
        decide (call.result = some (.ok (.status "revoked"))) &&
        (presentedForRevocation? .sample call).any fun text => call.log.any fun e =>
          (revokedRow? (Platform.sample.sha256Hex text) e).any fun row =>
            decide (row.status = .rotated ∧ e.post.FamilyUsable row.familyId ∧
              e.seq < late.startSeq ∧ ∃ a ∈ c.world.family row.familyId,
                a.tokenHash = Platform.sample.sha256Hex token)) = true := by
    decide +kernel
  obtain ⟨c, hc, hall⟩ := (Option.any_eq_true _ _).1 hplay
  simp only [Bool.and_eq_true, decide_eq_true_eq, Option.any_eq_true, List.any_eq_true] at hall
  obtain ⟨late, hj, response, hresponse, haccess, token, htoken, call, hi, hresult, text, htext, e,
    hmem, row, hrow, hstatus, husable, hlate, hfamily⟩ := hall
  obtain ⟨late', hj', hanswer⟩ := Config.returned_eq_some hresponse
  obtain rfl : late = late' := Option.some.inj (hj.symm.trans hj')
  exact ⟨c, call, late, e, row, token, response, hc, hi, hresult,
    revokesToken_of_revokedRow? htext hmem hrow, hstatus, husable, hj, hlate,
    refreshPresented?_eq_some htoken ▸ .refresh, hfamily, hanswer, haccess⟩

end IdentityPlatform
