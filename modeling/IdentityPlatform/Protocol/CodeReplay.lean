/-
# Replays of authorization codes

A replay revokes the live refresh tokens of the user and the client, as they are
at that moment.  A token derived from the code that is stored later escapes it:
the call that has consumed the code, or rotated a token, before the revocation
and stores its new token after it.  `CrossesReplay` names such calls.  Without
them every derived token is there to be revoked, and stays revoked.
-/

import IdentityPlatform.Protocol.CodeExchange

namespace IdentityPlatform

open Interleaving Program Relational Machine AuthServer

variable {P : Platform} {c : ServerConfig} {i j : ℕ} {call call' : ServerCall} {code : String}

/-- The refresh tokens derived from a code: the one stored by the exchange, and the
successors by rotation. -/
inductive Derived (c : ServerConfig) (code : String) : RefreshTokenRow → Prop
  | issued {i : ℕ} {call : ServerCall} {form basicAuth data row} (hi : c.calls[i]? = some call)
      (request : call.req.request = .token form basicAuth) (presented : form.code = some code)
      (inserted : Log.Saw call.log (.refreshTokens (.insert data)) (.ok ()))
      (first : data.previousTokenId = none) (stored : row ∈ c.world.refreshTokens)
      (hash : row.tokenHash = data.tokenHash) : Derived c code row
  | rotated {row next} (derived : Derived c code row) (stored : next ∈ c.world.refreshTokens)
      (successor : next.previousTokenId = some row.id) : Derived c code next

/-- The call has presented the code and handled a replay of it by `e`, the
revocation of what the user has from the client. -/
structure HandlesReplay (call : ServerCall) (code userId clientRef : String) (e : ServerEvent) :
    Prop where
  request : ∃ form basicAuth, call.req.request = .token form basicAuth ∧ form.code = some code
  handled : ∃ n pre post,
    e = ⟨n, pre, .refreshTokens (.revokeForReplay userId clientRef), .ok (), post⟩
  mem : e ∈ call.log

/-- The event has taken the code, or a token derived from it. -/
inductive Takes (P : Platform) (c : ServerConfig) (code : String) : ServerEvent → Prop
  | code {n pre id row post} (hash : row.codeHash = P.sha256Hex code) :
      Takes P c code ⟨n, pre, .codes (.consume id), .ok (some row), post⟩
  | token {n pre hash row old post} (derived : Derived c code old) (id : old.id = row.id) :
      Takes P c code ⟨n, pre, .refreshTokens (.rotate hash), .ok (some row), post⟩

/-- **In flight across `e`**: the call has taken the code or a derived token before
`e` and stores a refresh token after it. -/
def CrossesReplay (P : Platform) (c : ServerConfig) (code : String) (e : ServerEvent)
    (call : ServerCall) : Prop :=
  ∃ e₁ ∈ call.log, ∃ e₂ ∈ call.log, Takes P c code e₁ ∧ e₁.seq < e.seq ∧ e.seq < e₂.seq ∧
    ∃ data, e₂.op = .refreshTokens (.insert data)

/-! ### Where derived tokens come from -/

/-- The reason for which a refresh token has been stored, with the log before. -/
theorem inserted_reason (hv : (machine P).Valid c) (hi : c.calls[i]? = some call) {n : ℕ}
    {pre post : World} {data : IssueRefreshData}
    (he : (⟨n, pre, .refreshTokens (.insert data), .ok (), post⟩ : ServerEvent) ∈ call.log) :
    ∃ l, (⟨n, pre, .refreshTokens (.insert data), .ok (), post⟩ : ServerEvent) :: l <:+ call.log ∧
      RefreshReason P call.req.request l data := by
  obtain ⟨l, hjust, hl⟩ := hv.respected handler_justified hi he
  exact ⟨l, hl, hjust.1⟩

/-- An exchange is bound to the row of its code: the client that has been
identified is the one the code was issued to. -/
theorem exchange_binding (hreach : (machine P).Reachable World.Initial c)
    (hi : c.calls[i]? = some call) {form : TokenForm} {basicAuth : Option BasicAuth}
    {clientId redirectUri : String} {client : OAuthClientRow} {row : JoinedRow}
    {codeRow : AuthorizationCodeRow} (hid : Identified call.log form basicAuth clientId client)
    (hpeeked : AuthorizationCodeRepository.Peeked P call.log ⟨code, clientId, redirectUri⟩ row)
    (hconsumed : Log.Saw call.log (.codes (.consume row.code.id)) (.ok (some codeRow))) :
    ∃ b ∈ c.world.codes, b.codeHash = P.sha256Hex code ∧ codeRow.Le b ∧ b.clientId = client.id := by
  have hsound := (reachable_sound hreach).1
  have hord := hreach.ordered (le_stable P)
  obtain ⟨hhash, ⟨b, hb, hrow⟩, clientNow, hclientNow, hnowId, hnowRef⟩ :=
    Peeked.now hpeeked hreach hi
  refine ⟨b, hb, hrow.codeHash.trans hhash, ?_, ?_⟩
  · obtain ⟨_, pre, post, hmem, hans⟩ := answered hreach.valid hi hconsumed
    obtain ⟨old, _, hold, _, rfl, hpost⟩ := Stmt.consume_answer hans
    have hle : post.Le c.world := hord.post hi _ hmem
    exact hle.codes.le_of_key hsound.codes.nodup (fun h => h.id) hpost hb
      (hrow.id.trans hold.symm)
  · obtain ⟨_, pre, post, hmem, hans⟩ := answered hreach.valid hi hid.read
    have hlookup := (Stmt.findByClientId_answer hans).symm
    have hle : pre.Le c.world := (hord.answer hi _ hmem).trans (hord.post hi _ hmem)
    obtain ⟨client', hclient', hle'⟩ := hle.clients client (lookup_mem hlookup)
    have hsame : client' = clientNow := by
      refine eq_of_key hsound.clientRefs hclient' hclientNow ?_
      rw [hle'.clientId, hnowRef]
      exact lookup_key hlookup
    rw [hrow.clientId, ← hnowId, ← hsame, hle'.id]

/-- A successor has the user, the client and the scope of its predecessor. -/
theorem successor_grant (hreach : (machine P).Reachable World.Initial c)
    {row next : RefreshTokenRow} (hrow : row ∈ c.world.refreshTokens)
    (hnext : next ∈ c.world.refreshTokens)
    (hsuccessor : next.previousTokenId = some row.id) :
    next.userId = row.userId ∧ next.clientId = row.clientId ∧ next.scope = row.scope := by
  obtain ⟨k, issuer, n, pre, post, data, r, hk, he, _, hle⟩ := refreshToken_inserted hreach hnext
  obtain ⟨l, hl, hreason⟩ := inserted_reason hreach.valid hk he
  have hprevious : data.previousTokenId = some row.id := hle.previousTokenId.symm.trans hsuccessor
  cases hreason with
  | @rotation hash old token hrotated =>
      have hid : row.id = old.id := (Option.some.inj hprevious).symm
      have hold := rotated_row hreach hk (hrotated.mono ((List.suffix_cons _ _).trans hl)) hrow hid
      exact ⟨hle.userId.trans hold.userId.symm, hle.clientId.trans hold.clientId.symm,
        hle.scope.trans hold.scope.symm⟩
  | login _ _ _ | challenge _ _ _ | exchange _ _ _ _ _ _ _ => cases hprevious

/-- **Derived tokens are the user's and the client's**, with the scope, as recorded
with the code. -/
theorem Derived.owner (hreach : (machine P).Reachable World.Initial c) {row : RefreshTokenRow}
    (h : Derived c code row) : row ∈ c.world.refreshTokens ∧ ∃ b ∈ c.world.codes,
      b.codeHash = P.sha256Hex code ∧ row.userId = b.userId ∧ row.clientId = some b.clientId ∧
        row.scope = b.scope := by
  induction h with
  | @issued i call form basicAuth data row hi hrequest hpresented hinserted hfirst hstored hhash =>
      obtain ⟨r, pre, hle⟩ := stored_row hreach hi hinserted hstored hhash
      obtain ⟨n, pre', post, he⟩ := hinserted
      obtain ⟨l, hl, hreason⟩ := inserted_reason hreach.valid hi he
      have hlog := (List.suffix_cons _ _).trans hl
      rw [hrequest] at hreason
      refine ⟨hstored, ?_⟩
      cases hreason with
      | rotation _ => cases hfirst
      | login hrequest' _ _ | challenge hrequest' _ _ => cases hrequest'
      | exchange hrequest' hid hpresented' hpeeked hconsumed _ _ =>
          cases hrequest'
          obtain rfl := Option.some.inj (hpresented.symm.trans hpresented')
          obtain ⟨b, hb, hbhash, hcode, hclient⟩ := exchange_binding hreach hi
            { hid with read := hid.read.mono hlog } (hpeeked.mono hlog) (hconsumed.mono hlog)
          exact ⟨b, hb, hbhash, hle.userId.trans hcode.userId.symm,
            hle.clientId.trans (congrArg some hclient.symm), hle.scope.trans hcode.scope.symm⟩
  | @rotated row next _ hstored hsuccessor ih =>
      obtain ⟨hrow, b, hb, hbhash, huser, hclient, hscope⟩ := ih
      obtain ⟨huser', hclient', hscope'⟩ := successor_grant hreach hrow hstored hsuccessor
      exact ⟨hstored, b, hb, hbhash, huser'.trans huser, hclient'.trans hclient,
        hscope'.trans hscope⟩

/-! ### What the revocation finds -/

/-- A replay of a code has been noticed of a code that is consumed, by its user and
its client. -/
theorem replayed_consumed (hreach : (machine P).Reachable World.Initial c)
    (hj : c.calls[j]? = some call) {e : ServerEvent} {l : ServerLog} (hl : e :: l <:+ call.log)
    {userId clientRef : String} (h : Replayed P l code userId clientRef) :
    CodeConsumed (P.sha256Hex code) e.pre ∧ ∃ b ∈ c.world.codes,
      b.codeHash = P.sha256Hex code ∧ b.userId = userId ∧
        ∃ client ∈ e.pre.clients, client.id = b.clientId ∧ client.clientId = clientRef := by
  have hv := hreach.valid
  have hord := hreach.ordered (le_stable P)
  have hsub : l ⊆ call.log := ((List.suffix_cons e l).trans hl).subset
  rcases h with ⟨row, ⟨n, pre, post, hmem⟩, rfl, rfl, hconsumed⟩ | ⟨s, n, pre, post, hmem⟩
  · -- the row that was read is in every later state
    have hans := executed hv hj (hsub hmem)
    obtain ⟨hcode, client, hclient, hid, hpublic⟩ := Stmt.selectJoined_answer hans
    have hle : pre.Le e.pre :=
      (hord.answer hj _ (hsub hmem)).trans (hord.earlier hv hj hl hmem)
    have hnow : e.pre.Le c.world :=
      (hord.answer hj _ (hl.subset (List.mem_cons_self ..))).trans
        (hord.post hj _ (hl.subset (List.mem_cons_self ..)))
    obtain ⟨client', hclient', hclientLe⟩ := hle.clients client hclient
    obtain ⟨b, hb, hrow⟩ := (hle.trans hnow).codes row.code (lookup_mem hcode)
    refine ⟨?_, b, hb, hrow.codeHash.trans (lookup_key hcode), hrow.userId, client', hclient',
      hclientLe.id.trans (hid.trans hrow.clientId.symm), hclientLe.clientId.trans hpublic⟩
    rcases hconsumed with hc | ⟨l', ⟨n', pre', post', hmem'⟩, n'', pre'', post'', hl''⟩
    · exact CodeConsumed.mono ⟨row.code, lookup_mem hcode, lookup_key hcode, hc⟩ hle
    · -- the race has been lost to a statement that has consumed it
      have hstep := hl''.trans ((List.suffix_cons e l).trans hl)
      have hread := hl''.subset (List.mem_cons_of_mem _ hmem')
      have hans' := executed hv hj (hsub hread)
      obtain ⟨hcode', _⟩ := Stmt.selectJoined_answer hans'
      have hle' : pre'.Le pre'' :=
        (hord.answer hj _ (hsub hread)).trans (hord.earlier hv hj hstep hmem')
      obtain ⟨b', hb', hrow'⟩ := hle'.codes row.code (lookup_mem hcode')
      have hlost := hstep.subset (List.mem_cons_self ..)
      have hnone := executed hv hj hlost
      have hc := Stmt.consume_none_answer hnone hb' hrow'.id
      have hlate : pre''.Le e.pre :=
        (hord.answer hj _ hlost).trans
          (hord.earlier hv hj hl (hl''.subset (List.mem_cons_self ..)))
      exact CodeConsumed.mono ⟨b', hb', hrow'.codeHash.trans (lookup_key hcode'), hc⟩ hlate
  · -- statements do not throw replays themselves
    rcases hv.answers hj _ (hsub hmem) with ⟨r, hexec⟩ | ⟨hfault, _⟩
    · cases (Stmt.exec_failed hexec).2
    · cases hfault

/-- **The revocation** leaves no token of the user and the client active. -/
theorem revokeForReplay_answer {userId clientRef : String} {pre post : World}
    (h : (Stmt.refreshTokens (.revokeForReplay userId clientRef)).Answered P () pre post)
    {row : RefreshTokenRow} (hrow : row ∈ pre.refreshTokens) (huser : row.userId = userId)
    {client : OAuthClientRow} (hclient : client ∈ pre.clients)
    (hpublic : client.clientId = clientRef) (hid : row.clientId = some client.id) :
    ∃ row' ∈ post.refreshTokens, row'.id = row.id ∧ row'.status ≠ .active := by
  obtain ⟨r, ledger, _, rfl, _⟩ := h.effect
  have hany :
      (pre.clients.any fun c => c.clientId = clientRef && row.clientId = some c.id) = true :=
    List.any_eq_true.2 ⟨client, hclient, by simp [hpublic, hid]⟩
  refine ⟨_, mem_updateWhere.2 ⟨row, hrow, rfl⟩, ?_⟩
  split_ifs with hwhere
  · exact ⟨rfl, by simp [RefreshStmt.change]⟩
  · refine ⟨rfl, fun hactive => hwhere ?_⟩
    simp only [RefreshStmt.where, Bool.and_eq_true, decide_eq_true_eq]
    exact ⟨⟨huser, by simp [RefreshStmt.live, hactive]⟩, hany⟩

/-- What the handling of a replay finds: the code consumed, and the client it was
issued to. -/
theorem HandlesReplay.found (hreach : (machine P).Reachable World.Initial c)
    (hj : c.calls[j]? = some call) {userId clientRef : String} {e : ServerEvent}
    (h : HandlesReplay call code userId clientRef e) :
    CodeConsumed (P.sha256Hex code) e.pre ∧ ∃ b ∈ c.world.codes,
      b.codeHash = P.sha256Hex code ∧ b.userId = userId ∧
        ∃ client ∈ e.pre.clients, client.id = b.clientId ∧ client.clientId = clientRef := by
  obtain ⟨⟨form, basicAuth, hrequest, hpresented⟩, ⟨n, pre, post, rfl⟩, hmem⟩ := h
  obtain ⟨l, hjust, hl⟩ := hreach.valid.respected handler_justified hj hmem
  obtain ⟨form', _, code', hrequest', hpresented', hreplayed⟩ := ReplayReason.replayed hjust
  rw [hrequest] at hrequest'
  cases hrequest'
  obtain rfl := Option.some.inj (hpresented.symm.trans hpresented')
  exact replayed_consumed hreach hj hl hreplayed

/-- A derived token that is there when the replay is handled is not active in any
later state. -/
theorem HandlesReplay.spent (hreach : (machine P).Reachable World.Initial c)
    (hj : c.calls[j]? = some call) {userId clientRef : String} {e : ServerEvent}
    (h : HandlesReplay call code userId clientRef e) {row : RefreshTokenRow}
    (hderived : Derived c code row) {r : RefreshTokenRow} (hr : r ∈ e.pre.refreshTokens)
    (hrow : r.Le row) {w : World} (hle : e.post.Le w) (hw : w.Sound) {r' : RefreshTokenRow}
    (hr' : r' ∈ w.refreshTokens) (hid : r'.id = row.id) : r'.status ≠ .active := by
  obtain ⟨_, b, hb, hbhash, huser, client, hclient, hclientId, hpublic⟩ := h.found hreach hj
  obtain ⟨_, b', hb', hbhash', huser', hclient', _⟩ := hderived.owner hreach
  obtain rfl : b = b' :=
    eq_of_key (reachable_sound hreach).1.codeHashes hb hb' (hbhash.trans hbhash'.symm)
  obtain ⟨n, pre, post, rfl⟩ := h.handled
  have hans := executed hreach.valid hj h.mem
  obtain ⟨r₁, hr₁, hid₁, hspent⟩ := revokeForReplay_answer hans hr
    (hrow.userId.symm.trans (huser'.trans huser)) hclient hpublic
    (hrow.clientId.symm.trans (hclient'.trans (congrArg some hclientId.symm)))
  have hcarried : r₁.Le r' := by
    refine hle.refreshTokens.le_of_key hw.refreshTokens.nodup (fun h => h.id) hr₁ hr' ?_
    exact hid.trans (hrow.id.trans hid₁.symm)
  exact hcarried.spent hspent

/-! ### The theorem -/

section Handled

variable {userId clientRef : String} {e : ServerEvent}
  (hreach : (machine P).Reachable World.Initial c) (hj : c.calls[j]? = some call)
  (h : HandlesReplay call code userId clientRef e)
  (hcross : ∀ (i : ℕ) issuer, c.calls[i]? = some issuer → ¬CrossesReplay P c code e issuer)

include hreach hj h hcross

/-- A token that is stored after the code or its predecessor has been taken is
there when the replay is handled, unless that was taken later. -/
theorem HandlesReplay.stored_before (hi : c.calls[i]? = some call') {n : ℕ} {pre post : World}
    {data : IssueRefreshData} {l : ServerLog} {e₁ : ServerEvent} {r : String}
    {row : RefreshTokenRow}
    (hl : (⟨n, pre, .refreshTokens (.insert data), .ok (), post⟩ : ServerEvent) :: l <:+ call'.log)
    (he₁ : e₁ ∈ l) (htakes : Takes P c code e₁) (hlate : ¬e.seq < e₁.seq)
    (hnew : data.row r pre ∈ post.refreshTokens) (hle : (data.row r pre).Le row)
    (hrow : row ∈ c.world.refreshTokens) : ∃ r ∈ e.pre.refreshTokens, r.Le row := by
  have hv := hreach.valid
  have hord := hreach.ordered (le_stable P)
  have he₂ := hl.subset (List.mem_cons_self ..)
  have hmem₁ := ((List.suffix_cons _ l).trans hl).subset he₁
  obtain ⟨n', pre', post', rfl⟩ := h.handled
  rcases Nat.lt_trichotomy n n' with hlt | heq | hlt
  · have hbefore : post.Le pre' := hord.events hi hj _ he₂ _ h.mem hlt
    have hnow : pre'.Le c.world := (hord.answer hj _ h.mem).trans (hord.post hj _ h.mem)
    obtain ⟨r₁, hr₁, hle₁⟩ := hbefore.refreshTokens _ hnew
    refine ⟨r₁, hr₁, hnow.refreshTokens.le_of_key (reachable_sound hreach).1.refreshTokens.nodup
      (fun h => h.id) hr₁ hrow ?_⟩
    exact hle.id.trans hle₁.id.symm
  · cases (hv.seq_inj hi hj _ he₂ _ h.mem heq).2
  · exfalso
    rcases Nat.lt_trichotomy e₁.seq n' with hlt₁ | heq₁ | hlt₁
    · exact hcross i call' hi ⟨e₁, hmem₁, _, he₂, htakes, hlt₁, hlt, data, rfl⟩
    · obtain rfl := (hv.seq_inj hi hj _ hmem₁ _ h.mem heq₁).2
      cases htakes
    · exact hlate hlt₁

/-- **Without a call in flight, derived tokens are there when the replay is
handled.**  By induction on the derivation: the token of the exchange, because the
code is consumed by then; a successor, because its predecessor is not active any
more. -/
theorem Derived.before {row : RefreshTokenRow} (hderived : Derived c code row) :
    ∃ r ∈ e.pre.refreshTokens, r.Le row := by
  have hv := hreach.valid
  have hord := hreach.ordered (le_stable P)
  have hsound := reachable_sound hreach
  induction hderived with
  | @issued i issuer form basicAuth data row hi hrequest hpresented hinserted hfirst
      hstored hhash =>
      obtain ⟨n, pre, post, he⟩ := hinserted
      obtain ⟨l, hl, hreason⟩ := inserted_reason hv hi he
      obtain ⟨r, _, hnew, _⟩ := Stmt.insertRefreshToken_answer (executed hv hi he)
      have hlog := (List.suffix_cons _ _).trans hl
      have hle := (hord.post hi _ he).refreshTokens.le_of_key hsound.1.tokenHashes
        (fun h => h.tokenHash) hnew hstored hhash
      rw [hrequest] at hreason
      cases hreason with
      | rotation _ => cases hfirst
      | login hrequest' _ _ | challenge hrequest' _ _ => cases hrequest'
      | @exchange _ _ _ _ _ _ codeRow' codeRow _ _ _ _ hrequest' hid hpresented' hpeeked
          hconsumed _ _ =>
          cases hrequest'
          obtain rfl := Option.some.inj (hpresented.symm.trans hpresented')
          obtain ⟨b, hb, hbhash, hcode, _⟩ := exchange_binding hreach hi
            { hid with read := hid.read.mono hlog } (hpeeked.mono hlog) (hconsumed.mono hlog)
          have hcodeHash : codeRow.codeHash = P.sha256Hex code := hcode.codeHash.symm.trans hbhash
          obtain ⟨n₁, pre₁, post₁, he₁⟩ := hconsumed
          refine h.stored_before hreach hj hcross hi hl he₁ (.code hcodeHash) (fun hlate => ?_) hnew
            hle hstored
          -- after the replay the code is not there to be consumed
          have hmem₁ := hlog.subset he₁
          have hbetween : e.pre.Le pre₁ :=
            (hord.answer hj _ h.mem).trans (hord.events hj hi _ h.mem _ hmem₁ hlate)
          obtain ⟨r₁, hr₁, hr₁hash, hr₁consumed⟩ := (h.found hreach hj).1.mono hbetween
          obtain ⟨old, hold, _, hnone, rfl, _⟩ :=
            Stmt.consume_answer (executed hv hi hmem₁)
          obtain rfl := eq_of_key (hsound.2 i issuer hi _ hmem₁).1.codeHashes hr₁ hold
            (hr₁hash.trans hcodeHash.symm)
          rw [hnone] at hr₁consumed
          cases hr₁consumed
  | @rotated row next hrow hstored hsuccessor ih =>
      obtain ⟨r, hr, hrle⟩ := ih
      obtain ⟨k, issuer, n, pre, post, data, r', hk, he, hnew, hle⟩ :=
        refreshToken_inserted hreach hstored
      obtain ⟨l, hl, hreason⟩ := inserted_reason hv hk he
      have hprevious : data.previousTokenId = some row.id :=
        hle.previousTokenId.symm.trans hsuccessor
      cases hreason with
      | @rotation hash old token hrotated =>
          have hid : row.id = old.id := (Option.some.inj hprevious).symm
          obtain ⟨n₁, pre₁, post₁, he₁⟩ := hrotated
          refine h.stored_before hreach hj hcross hk hl he₁ (.token hrow hid) (fun hlate => ?_) hnew
            hle hstored
          -- after the replay the predecessor is not there to be rotated
          have hmem₁ := ((List.suffix_cons _ l).trans hl).subset he₁
          obtain ⟨active, hactive, _, hstatus, _, rfl, _⟩ :=
            Stmt.rotate_answer (executed hv hk hmem₁)
          exact h.spent hreach hj hrow hr hrle (hord.events hj hk _ h.mem _ hmem₁ hlate)
            (hsound.2 k issuer hk _ hmem₁).1 hactive hid.symm hstatus
      | login _ _ _ | challenge _ _ _ | exchange _ _ _ _ _ _ _ => cases hprevious

/-- **After a replay nothing derived from the code can be exchanged**, if no call
was in flight across it: no derived refresh token is active. -/
theorem replay_revokes_derived :
    ∀ row, Derived c code row → row.status ≠ .active := by
  intro row hderived
  obtain ⟨r, hr, hle⟩ := hderived.before hreach hj h hcross
  have hnow : e.post.Le c.world := (hreach.ordered (le_stable P)).post hj _ h.mem
  exact h.spent hreach hj hderived hr hle hnow (reachable_sound hreach).1
    (hderived.owner hreach).1 rfl

end Handled

/-! ### Runs -/

/-- The refresh token of an exchange is derived from its code. -/
theorem Exchanges.derived (hreach : (machine P).Reachable World.Initial c)
    (hi : c.calls[i]? = some call) {form : TokenForm} {basicAuth : Option BasicAuth}
    {response : TokenResponse} (h : Exchanges call form basicAuth response)
    (hcode : form.code = some code) : ∃ row, Derived c code row ∧
      ∃ token, response.refreshToken = some token ∧ row.tokenHash = P.sha256Hex token := by
  obtain ⟨client, codeRow, session, grant⟩ := h.grant hreach.valid hi
  obtain ⟨token, familyId, htoken, hinsert⟩ := grant.tokens.refresh
  obtain ⟨_, ⟨token', htoken', row, hrow, hhash, _⟩, _⟩ := grant.tokens.carried hreach hi
  obtain rfl : token' = token := Option.some.inj (htoken'.symm.trans htoken)
  exact ⟨row, .issued hi h.request hcode hinsert rfl hrow hhash, token', htoken, hhash⟩

/-- The handling of a replay, if the event is one. -/
def replayOf : ServerEvent → Option (String × String)
  | ⟨_, _, .refreshTokens (.revokeForReplay userId clientRef), .ok _, _⟩ => some (userId, clientRef)
  | _ => none

theorem handlesReplay_of_replayOf {e : ServerEvent} {userId clientRef : String}
    {form : TokenForm} {basicAuth : Option BasicAuth}
    (hrequest : call.req.request = .token form basicAuth) (hcode : form.code = some code)
    (hmem : e ∈ call.log) (h : replayOf e = some (userId, clientRef)) :
    HandlesReplay call code userId clientRef e := by
  unfold replayOf at h
  split at h
  · obtain ⟨rfl, rfl⟩ := h
    exact ⟨⟨form, basicAuth, hrequest, hcode⟩, ⟨_, _, _, rfl⟩, hmem⟩
  · cases h

/-- Whether a statement stores a refresh token. -/
def Stmt.isIssue : Stmt → Bool
  | .refreshTokens (.insert _) => true
  | _ => false

/-- The code that call 1 is answered with in the runs below. -/
def sampleCode : String := Stmt.sampleRandom (.runtime .randomToken) 29

/-- An exchange, a refresh, and then a replay. -/
def replayMoves : List (Move World Incoming Env) :=
  loginMoves 0 "al@x.io" "Al 1" ++ authorizeMoves 1 "api.read" none ++ exchangeMoves 2 ++
    [.accept fun w => ⟨.token (sampleRefreshForm (lastToken w)) none, {}⟩, .steps 3 40,
      .accept fun _ => ⟨.token (sampleCodeForm sampleCode) none, {}⟩, .steps 4 40]

theorem replay_revokes_derived_of_sequence :
    ∃ (c : ServerConfig) (call : ServerCall) (e : ServerEvent) (userId clientRef : String),
      c.calls[4]? = some call ∧ HandlesReplay call sampleCode userId clientRef e ∧
      c.world.refreshTokens.length = 3 ∧ (∃ row, Derived c sampleCode row) ∧
      ∀ row, Derived c sampleCode row → row.status ≠ .active := by
  have hplay : (sampleRun replayMoves).any (fun c =>
      decide (c.world.refreshTokens.length = 3) &&
        ((c.calls[2]?).any fun call => (exchangeOf call).any fun x =>
          decide (x.1.code = some sampleCode)) &&
        (c.calls[4]?).any fun call =>
          decide (call.req.request = .token (sampleCodeForm sampleCode) none) &&
          call.log.any fun e => (replayOf e).isSome && decide (∀ call' ∈ c.calls, ∀ e' ∈ call'.log,
            e'.op.isIssue = true → e'.seq < e.seq)) = true := by
    decide +kernel
  obtain ⟨c, hc, hall⟩ := (Option.any_eq_true _ _).1 hplay
  simp only [Bool.and_eq_true, decide_eq_true_eq, Option.any_eq_true, List.any_eq_true,
    Option.isSome_iff_exists] at hall
  obtain ⟨⟨hlen, call₂, hi₂, ⟨form, basicAuth, response⟩, hexchange, hcode⟩, call, hi, hrequest, e,
    hmem, ⟨⟨userId, clientRef⟩, hreplay⟩, hissues⟩ := hall
  have hreach := sampleRun_reachable hc
  have hhandles := handlesReplay_of_replayOf hrequest rfl hmem hreplay
  obtain ⟨row, hderived, _⟩ := (exchangeOf_eq_some hexchange).derived hreach hi₂ hcode
  refine ⟨c, call, e, userId, clientRef, hi, hhandles, hlen, ⟨row, hderived⟩, ?_⟩
  refine replay_revokes_derived hreach hi hhandles fun i issuer hissuer hcrosses => ?_
  obtain ⟨_, _, e₂, he₂, _, _, hlate, data, hop⟩ := hcrosses
  have hearly := hissues issuer (List.mem_of_getElem? hissuer) e₂ he₂ (by rw [hop]; rfl)
  omega

/-- Two exchanges of one code: the first is stopped between the `UPDATE` that
consumes the code and the `INSERT` of its refresh token while the second finds the
code consumed. -/
def lostRaceMoves : List (Move World Incoming Env) :=
  loginMoves 0 "al@x.io" "Al 1" ++ authorizeMoves 1 "api.read" none ++
    [.accept fun _ => ⟨.token (sampleCodeForm sampleCode) none, {}⟩, .steps 2 7,
      .accept fun _ => ⟨.token (sampleCodeForm sampleCode) none, {}⟩, .steps 3 40, .steps 2 40]

/-- The answer to a replay. -/
def replayAnswer : Err :=
  .oauthTokenError 400 "invalid_grant" "Authorization code replay detected - issued tokens revoked"

/-- **Tokens survive a replay.**  Both calls have finished, the second was answered
"issued tokens revoked", and the refresh token of the first is active; it is then
exchanged for new tokens. -/
theorem derived_token_survives_replay :
    ∃ (c c' : ServerConfig) (call₂ call₃ : ServerCall) (e : ServerEvent) (userId clientRef : String)
      (row : RefreshTokenRow) (token : String) (response : Response),
      sampleRun lostRaceMoves = some c ∧ c.calls[2]? = some call₂ ∧ call₂.result.isSome = true ∧
      c.calls[3]? = some call₃ ∧ HandlesReplay call₃ sampleCode userId clientRef e ∧
      call₃.result = some (.error replayAnswer) ∧ Derived c sampleCode row ∧
      row.tokenHash = Platform.sample.sha256Hex token ∧
      (machine .sample).play Stmt.sampleRandom
        [.accept fun _ => ⟨.token (sampleRefreshForm token) none, {}⟩, .steps 4 40] c = some c' ∧
      c'.returned 4 = some response ∧ response.accessToken?.isSome = true := by
  have hplay : (sampleRun lostRaceMoves).any (fun c =>
      ((c.calls[2]?).any fun call => (exchangeOf call).any fun x =>
        decide (x.1.code = some sampleCode) && x.2.2.refreshToken.any fun token =>
          ((machine .sample).play Stmt.sampleRandom
            [.accept fun _ => ⟨.token (sampleRefreshForm token) none, {}⟩, .steps 4 40] c).any
            fun c' => (c'.returned 4).any fun response => response.accessToken?.isSome) &&
        (c.calls[3]?).any fun call =>
          decide (call.req.request = .token (sampleCodeForm sampleCode) none) &&
          decide (call.result = some (.error replayAnswer)) &&
          call.log.any fun e => (replayOf e).isSome) = true := by
    decide +kernel
  obtain ⟨c, hc, hall⟩ := (Option.any_eq_true _ _).1 hplay
  simp only [Bool.and_eq_true, decide_eq_true_eq, Option.any_eq_true, List.any_eq_true,
    Option.isSome_iff_exists] at hall
  obtain ⟨⟨call₂, hi₂, ⟨form, basicAuth, answer⟩, hexchange, hcode, token, htoken, c', hc',
    response, hresponse, access, haccess⟩, call₃, hi₃, ⟨hrequest, hresult⟩, e, hmem,
    ⟨userId, clientRef⟩, hreplay⟩ := hall
  have hreach := sampleRun_reachable hc
  have hexchanges := exchangeOf_eq_some hexchange
  obtain ⟨row, hderived, token', htoken', hhash⟩ := hexchanges.derived hreach hi₂ hcode
  obtain rfl : token' = token := Option.some.inj (htoken'.symm.trans htoken)
  exact ⟨c, c', call₂, call₃, e, userId, clientRef, row, token', response, hc, hi₂,
    by rw [hexchanges.result]; rfl, hi₃, handlesReplay_of_replayOf hrequest rfl hmem hreplay,
    hresult, hderived, hhash, hc', hresponse, by rw [haccess]; rfl⟩

end IdentityPlatform
