/-
# Mailed tokens

A token that is mailed is stored as a hash, for one account, and the row is used up once: both
tables of such tokens are `Tickets`.  So a changed password goes back to one call that asked
for it by the address of the account (`password_change_agrees`), a verified address to the
registration of its account (`verification_agrees`), and no mail takes a token anywhere else
(`mail_addressed`).
-/

import IdentityPlatform.Interleaving.Tickets
import IdentityPlatform.Protocol.CodeExchange
import IdentityPlatform.Protocol.Origins
import IdentityPlatform.Protocol.Registration

namespace IdentityPlatform

open Interleaving Relational Machine AuthServer

variable {P : Platform} {c : ServerConfig} {i j : ℕ} {call call' : ServerCall} {w w' : World}

/-! ### The two tables -/

/-- The row a statement may add to `password_reset_tokens`. -/
def Stmt.AddsReset (s : Stmt) (w : World) (row : PasswordResetRow) : Prop :=
  ∃ r userId hash ttl, s = .emailTokens (.insertReset userId hash ttl) ∧
    lookup PasswordResetRow.tokenHash hash w.passwordResetTokens = none ∧
    row = { id := r, userId := userId, tokenHash := hash, expiresAt := w.after ttl }

/-- What a statement makes of a row it uses up. -/
def Stmt.UsesReset (s : Stmt) (w : World) (a b : PasswordResetRow) : Prop :=
  ∃ hash, s = .emailTokens (.consumeReset hash) ∧ EmailTokenStmt.resettable w hash a ∧
    b = { a with usedAt := some w.now }

/-- A row keeps everything but `used_at`, and that once it is set. -/
structure PasswordResetRow.Le (a b : PasswordResetRow) : Prop where
  row : b = { a with usedAt := b.usedAt }
  used : a.usedAt ≠ none → b.usedAt ≠ none

/-- The row a statement may add to `email_verifications`. -/
def Stmt.AddsVerification (s : Stmt) (w : World) (row : EmailVerificationRow) : Prop :=
  ∃ r userId hash email ttl, s = .emailTokens (.insertVerification userId hash email ttl) ∧
    lookup EmailVerificationRow.tokenHash hash w.emailVerifications = none ∧
    row = { id := r, userId := userId, tokenHash := hash, email := email, expiresAt := w.after ttl }

/-- What a statement makes of a row it uses up. -/
def Stmt.UsesVerification (s : Stmt) (w : World) (a b : EmailVerificationRow) : Prop :=
  ∃ hash, s = .emailTokens (.consumeVerification hash) ∧ EmailTokenStmt.verifiable w hash a ∧
    b = { a with consumedAt := some w.now }

/-- A row keeps everything but `consumed_at`, and that once it is set. -/
structure EmailVerificationRow.Kept (a b : EmailVerificationRow) : Prop where
  row : b = { a with consumedAt := b.consumedAt }
  used : a.consumedAt ≠ none → b.consumedAt ≠ none

/-- What a statement does to the two tables. -/
theorem Stmt.exec_mailedTokens {s : Stmt} {r : String} {ans : Except Err s.Ans}
    (h : s.exec P r w = some (ans, w')) :
    Changes (s.AddsReset w) (s.UsesReset w) w.passwordResetTokens w'.passwordResetTokens ∧
      Changes (s.AddsVerification w) (s.UsesVerification w) w.emailVerifications
        w'.emailVerifications := by
  rcases exec_cases h with ⟨_, rfl⟩ | ⟨_, _, ledger, rfl, _⟩
  · exact ⟨.same, .same⟩
  · cases s with
    | emailTokens u =>
        cases u with
        | insertReset userId hash ttl =>
            simp only [effect, EmailTokenStmt.effect]
            rcases constrained_cases [((lookup PasswordResetRow.tokenHash hash
                w.passwordResetTokens).isSome, "23505"), (!(decide (w.hasUser userId)), "23503")]
                (w.emailVerifications, w.passwordResetTokens)
                ((), w.emailVerifications, w.passwordResetTokens ++ [{
                  id := r, userId := userId, tokenHash := hash
                  expiresAt := w.after ttl }]) with ⟨_, hc⟩ | ⟨hc, hok⟩
            · rw [hc]
              exact ⟨.same, .same⟩
            · rw [hc]
              have hnew : lookup PasswordResetRow.tokenHash hash w.passwordResetTokens = none := by
                simpa using hok _ (List.mem_cons_self ..)
              exact ⟨.append ⟨r, userId, hash, ttl, rfl, hnew, rfl⟩, .same⟩
        | insertVerification userId hash email ttl =>
            simp only [effect, EmailTokenStmt.effect]
            rcases constrained_cases [((lookup EmailVerificationRow.tokenHash hash
                w.emailVerifications).isSome, "23505"), (!(decide (w.hasUser userId)), "23503")]
                (w.emailVerifications, w.passwordResetTokens)
                ((), w.emailVerifications ++ [{
                  id := r, userId := userId, tokenHash := hash, email := email
                  expiresAt := w.after ttl }], w.passwordResetTokens) with ⟨_, hc⟩ | ⟨hc, hok⟩
            · rw [hc]
              exact ⟨.same, .same⟩
            · rw [hc]
              have hnew :
                  lookup EmailVerificationRow.tokenHash hash w.emailVerifications = none := by
                simpa using hok _ (List.mem_cons_self ..)
              exact ⟨.same, .append ⟨r, userId, hash, email, ttl, rfl, hnew, rfl⟩⟩
        | consumeReset hash => exact ⟨.update _ _ fun a _ ha => ⟨hash, rfl, ha, rfl⟩, .same⟩
        | consumeVerification hash => exact ⟨.same, .update _ _ fun a _ ha => ⟨hash, rfl, ha, rfl⟩⟩
    | _ => exact ⟨.same, .same⟩

/-- A statement that fails leaves both tables as they are. -/
theorem Stmt.failed_mailedTokens {s : Stmt} {r : String} {e : Err}
    (h : s.exec P r w = some (.error e, w')) :
    w'.passwordResetTokens = w.passwordResetTokens ∧
      w'.emailVerifications = w.emailVerifications := by
  obtain ⟨⟨ledger, rfl⟩, _⟩ := Stmt.exec_failed h
  exact ⟨rfl, rfl⟩

/-- **Reset tokens are tickets.** -/
theorem resetTickets (P : Platform) :
    Tickets (machine P) World.Initial World.passwordResetTokens PasswordResetRow.tokenHash
      (fun row => row.usedAt ≠ none) Stmt.AddsReset Stmt.UsesReset PasswordResetRow.Le where
  init _ hw := hw.passwordResetTokens
  env h := by rw [Env.apply_eq h]
  exec h := (Stmt.exec_mailedTokens h).1
  failed h := (Stmt.failed_mailedTokens h).1
  fresh := by
    rintro s w _ ⟨r, userId, hash, ttl, _, hnone, rfl⟩
    refine ⟨fun hmem => ?_, fun hused => hused rfl⟩
    obtain ⟨row, hrow, hhash⟩ := List.mem_map.1 hmem
    exact lookup_eq_none hnone row hrow hhash
  uses := by
    rintro s w a _ ⟨hash, _, ⟨_, hunused, _⟩, rfl⟩
    exact ⟨fun hused => hused hunused, by simp, rfl, fun _ => by simp⟩
  le_refl _ := ⟨rfl, id⟩
  le_trans h h' := ⟨by rw [h'.row, h.row], fun hused => h'.used (h.used hused)⟩
  le_key h := by rw [h.row]
  le_used h := h.used

/-- **Verification tokens are tickets.** -/
theorem verificationTickets (P : Platform) :
    Tickets (machine P) World.Initial World.emailVerifications EmailVerificationRow.tokenHash
      (fun row => row.consumedAt ≠ none) Stmt.AddsVerification Stmt.UsesVerification
      EmailVerificationRow.Kept where
  init _ hw := hw.emailVerifications
  env h := by rw [Env.apply_eq h]
  exec h := (Stmt.exec_mailedTokens h).2
  failed h := (Stmt.failed_mailedTokens h).2
  fresh := by
    rintro s w _ ⟨r, userId, hash, email, ttl, _, hnone, rfl⟩
    refine ⟨fun hmem => ?_, fun hused => hused rfl⟩
    obtain ⟨row, hrow, hhash⟩ := List.mem_map.1 hmem
    exact lookup_eq_none hnone row hrow hhash
  uses := by
    rintro s w a _ ⟨hash, _, ⟨_, hunused, _⟩, rfl⟩
    exact ⟨fun hused => hused hunused, by simp, rfl, fun _ => by simp⟩
  le_refl _ := ⟨rfl, id⟩
  le_trans h h' := ⟨by rw [h'.row, h.row], fun hused => h'.used (h.used hused)⟩
  le_key h := by rw [h.row]
  le_used h := h.used

/-! ### Who has asked for a token -/

/-- The origin of an event, with the log before it. -/
theorem origin_event (hv : (machine P).Valid c) (hi : c.calls[i]? = some call) {e : ServerEvent}
    (he : e ∈ call.log) : ∃ l, e :: l <:+ call.log ∧ Origin P call.req.request l e.op := by
  obtain ⟨l, horigin, hl⟩ := hv.respected handler_origins hi he
  exact ⟨l, hl, horigin⟩

/-- The call was asked for a reset by the address of the account, which is not disabled, has
drawn the token, and has stored it for the account. -/
structure RequestsReset (P : Platform) (call : ServerCall) (token : String) (row : UserRow) :
    Prop where
  asked : Forgotten call.req.request call.log row
  drawn : Log.Saw call.log (.runtime .randomToken) (.ok token)
  stored : Log.Saw call.log
    (.emailTokens (.insertReset row.id (P.sha256Hex token) P.config.passwordResetTtl)) (.ok ())

/-- The call has registered the account, has drawn the token, and has stored it for the
account. -/
structure RegistersWith (P : Platform) (call : ServerCall) (token : String) (row : UserRow) :
    Prop where
  registered : Registered call.req.request call.log row
  drawn : Log.Saw call.log (.runtime .randomToken) (.ok token)
  stored : Log.Saw call.log (.emailTokens (.insertVerification row.id (P.sha256Hex token)
    row.email.toLower P.config.emailVerificationTtl)) (.ok ())

/-- **A token is drawn once.** -/
theorem randomToken_once (hreach : (machine P).Reachable World.Initial c)
    (hi : c.calls[i]? = some call) (hj : c.calls[j]? = some call') {token : String}
    (h : Log.Saw call.log (.runtime .randomToken) (.ok token))
    (h' : Log.Saw call'.log (.runtime .randomToken) (.ok token)) : i = j := by
  obtain ⟨_, _, _, he, hans⟩ := answered hreach.valid hi h
  obtain ⟨_, _, _, he', hans'⟩ := answered hreach.valid hj h'
  exact (taken_once hreach hi hj he he' (Stmt.randomToken_answer hans)
    (Stmt.randomToken_answer hans')).1

/-- **An account is inserted once**: its identifier was generated for the insert. -/
theorem inserted_once (hreach : (machine P).Reachable World.Initial c)
    (hi : c.calls[i]? = some call) (hj : c.calls[j]? = some call') {row row' : UserRow}
    (h : Inserted call.log row) (h' : Inserted call'.log row') (hid : row.id = row'.id) :
    i = j := by
  obtain ⟨_, _, _, _, hsaw⟩ := h
  obtain ⟨_, _, _, _, hsaw'⟩ := h'
  obtain ⟨_, _, _, he, hans⟩ := answered hreach.valid hi hsaw
  obtain ⟨_, _, _, he', hans'⟩ := answered hreach.valid hj hsaw'
  obtain ⟨_, _, _, htaken⟩ := Stmt.insertUser_answer hans
  obtain ⟨_, _, _, htaken'⟩ := Stmt.insertUser_answer hans'
  exact (taken_once hreach hi hj he he' htaken (hid ▸ htaken')).1

theorem Registered.inserted {request : Request} {l : ServerLog} {row : UserRow}
    (h : Registered request l row) : Inserted l row := by
  obtain ⟨input, hash, _, hsaw⟩ := h
  exact ⟨_, hash, _, _, hsaw⟩

/-- The account a token was stored for is one of the platform, with the same address. -/
theorem account_now (hreach : (machine P).Reachable World.Initial c)
    (hi : c.calls[i]? = some call) {row : UserRow}
    (h : Forgotten call.req.request call.log row ∨ Registered call.req.request call.log row) :
    ∃ u ∈ c.world.users, u.id = row.id ∧ u.email = row.email := by
  have hord := hreach.ordered (le_stable P)
  rcases h with ⟨email, _, hsaw, _⟩ | ⟨input, hash, _, hsaw⟩
  · obtain ⟨n, pre, post, hmem, hans⟩ := answered hreach.valid hi hsaw
    have hrow := lookup_mem (Stmt.findByEmail_answer hans).symm
    obtain ⟨u, hu, hle⟩ := ((hord.answer hi _ hmem).trans (hord.post hi _ hmem)).users row hrow
    exact ⟨u, hu, hle.id, hle.email⟩
  · obtain ⟨n, pre, post, hmem, hans⟩ := answered hreach.valid hi hsaw
    obtain ⟨u, hu, hle⟩ := (hord.post hi _ hmem).users row (Stmt.insertUser_answer hans).1
    exact ⟨u, hu, hle.id, hle.email⟩

/-! ### Mails -/

theorem Stmt.exec_mail {s : Stmt} {r : String} {ans : Except Err s.Ans}
    (h : s.exec P r w = some (ans, w')) :
    w'.mail = w.mail ∨ ∃ mail, s = .runtime (.sendMail mail) ∧ w'.mail = mail :: w.mail := by
  rcases exec_cases h with ⟨_, rfl⟩ | ⟨_, _, ledger, rfl, _⟩
  · exact .inl rfl
  · cases s with
    | runtime u =>
        cases u with
        | sendMail mail => exact .inr ⟨mail, rfl, rfl⟩
        | _ => exact .inl rfl
    | _ => exact .inl rfl

theorem Stmt.insertReset_answer {userId hash : String} {ttl : ℕ}
    (h : Stmt.Answered P (.emailTokens (.insertReset userId hash ttl)) () w w') :
    ∃ row ∈ w'.passwordResetTokens, row.tokenHash = hash ∧ row.userId = userId := by
  obtain ⟨r, ledger, ha, rfl, _⟩ := h.effect
  simp only [Stmt.effect, EmailTokenStmt.effect] at ha ⊢
  rcases constrained_cases [((lookup PasswordResetRow.tokenHash hash
      w.passwordResetTokens).isSome, "23505"), (!(decide (w.hasUser userId)), "23503")]
      (w.emailVerifications, w.passwordResetTokens)
      ((), w.emailVerifications, w.passwordResetTokens ++ [{
        id := r, userId := userId, tokenHash := hash
        expiresAt := w.after ttl }]) with ⟨_, hc⟩ | ⟨hc, _⟩
  · rw [hc] at ha
    cases ha
  · rw [hc]
    exact ⟨_, List.mem_append_right _ (List.mem_singleton_self _), rfl, rfl⟩

theorem Stmt.insertVerification_answer {userId hash email : String} {ttl : ℕ}
    (h : Stmt.Answered P (.emailTokens (.insertVerification userId hash email ttl)) () w w') :
    ∃ row ∈ w'.emailVerifications, row.tokenHash = hash ∧ row.userId = userId := by
  obtain ⟨r, ledger, ha, rfl, _⟩ := h.effect
  simp only [Stmt.effect, EmailTokenStmt.effect] at ha ⊢
  rcases constrained_cases [((lookup EmailVerificationRow.tokenHash hash
      w.emailVerifications).isSome, "23505"), (!(decide (w.hasUser userId)), "23503")]
      (w.emailVerifications, w.passwordResetTokens)
      ((), w.emailVerifications ++ [{
        id := r, userId := userId, tokenHash := hash, email := email
        expiresAt := w.after ttl }], w.passwordResetTokens) with ⟨_, hc⟩ | ⟨hc, _⟩
  · rw [hc] at ha
    cases ha
  · rw [hc]
    exact ⟨_, List.mem_append_right _ (List.mem_singleton_self _), rfl, rfl⟩

/-- The mail takes its token to the address of the account the token is stored for. -/
inductive Addressed (P : Platform) (w : World) : Mail → Prop
  | verification {user row token} (account : user ∈ w.users) (stored : row ∈ w.emailVerifications)
      (hash : row.tokenHash = P.sha256Hex token) (owner : row.userId = user.id) :
      Addressed P w (verificationMail user.email token)
  | reset {user row token} (account : user ∈ w.users) (stored : row ∈ w.passwordResetTokens)
      (hash : row.tokenHash = P.sha256Hex token) (owner : row.userId = user.id) :
      Addressed P w (resetMail P user.email token)

/-- A platform as the seed leaves it, with no mail sent yet. -/
def World.InitialMail (w : World) : Prop := w.Initial ∧ w.mail = []

theorem reachable_of_mail (h : (machine P).Reachable World.InitialMail c) :
    (machine P).Reachable World.Initial c := by
  obtain ⟨w, hw, hrun⟩ := h
  exact ⟨w, hw.1, hrun⟩

/-- The call that has sent a mail, and what it had done before. -/
theorem mail_sent (hreach : (machine P).Reachable World.InitialMail c) {mail : Mail}
    (hmail : mail ∈ c.world.mail) : ∃ (i : ℕ) (call : ServerCall), c.calls[i]? = some call ∧
      MailOrigin P call.req.request call.log mail := by
  have hvalid := (reachable_of_mail hreach).valid
  obtain ⟨w, hw, hrun⟩ := hreach
  obtain ⟨i, call, e, hi, he, _, hpre, hpost⟩ := hrun.introduced (H := fun w => mail ∈ w.mail)
    (by simp [Config.initial, hw.2]) hmail fun e w w' henv hmem => by
      rwa [Env.apply_eq henv] at hmem
  obtain ⟨l, hl, horigin⟩ := origin_event hvalid hi he
  refine ⟨i, call, hi, ?_⟩
  obtain ⟨n, pre, op, ans, post⟩ := e
  rcases hvalid.answers hi _ he with ⟨r, hexec⟩ | ⟨_, hsame⟩
  · rcases Stmt.exec_mail hexec with hmails | ⟨mail', rfl, hmails⟩
    · exact absurd (hmails ▸ hpost) hpre
    · have hpost' : mail ∈ mail' :: pre.mail := hmails ▸ hpost
      obtain rfl := (List.mem_cons.1 hpost').resolve_right hpre
      exact MailOrigin.mono horigin ((List.suffix_cons _ _).trans hl)
  · obtain rfl : post = pre := hsame
    exact absurd hpost hpre

/-- Call 0 registers an account, call 1 verifies its address with the token of the mail. -/
def verifyMoves : List (Move World Incoming Env) :=
  [.accept fun _ => ⟨.register ⟨"un@x.io", "Correct horse 1", none, none⟩, {}⟩, .steps 0 40,
    .accept fun w => ⟨.verifyEmail (lastToken w), {}⟩, .steps 1 40]

/-- Call 0 asks for a reset, call 1 changes the password with the token of the mail. -/
def changeMoves : List (Move World Incoming Env) :=
  [.accept fun _ => ⟨.forgotPassword "al@x.io", {}⟩, .steps 0 40,
    .accept fun w => ⟨.resetPassword (lastToken w) "A long and new one 2", {}⟩, .steps 1 40]

theorem sampleRun_mail {moves : List (Move World Incoming Env)} (h : sampleRun moves = some c) :
    (machine .sample).Reachable World.InitialMail c :=
  ⟨_, ⟨World.initial_sample, rfl⟩, run_of_play h⟩

/-- **Mails go to the owners of their tokens**, in every reachable state. -/
theorem mail_addressed (hreach : (machine P).Reachable World.InitialMail c) :
    ∀ mail ∈ c.world.mail, Addressed P c.world mail := by
  intro mail hmail
  have hreach' := reachable_of_mail hreach
  obtain ⟨i, call, hi, horigin⟩ := mail_sent hreach hmail
  cases horigin with
  | verification registered drawn stored =>
      obtain ⟨u, hu, hid, hemail⟩ := account_now hreach' hi (.inr registered)
      obtain ⟨n, pre, post, hmem, hans⟩ := answered hreach'.valid hi stored
      obtain ⟨row, hrow, hhash, howner⟩ := Stmt.insertVerification_answer hans
      obtain ⟨row', hrow', hkept⟩ :=
        (hreach'.ordered (verificationTickets P).stable).post hi _ hmem row hrow
      rw [← hemail]
      exact .verification hu hrow' (by rw [hkept.row, hhash]) (by rw [hkept.row, howner, hid])
  | reset forgotten drawn stored =>
      obtain ⟨u, hu, hid, hemail⟩ := account_now hreach' hi (.inl forgotten)
      obtain ⟨n, pre, post, hmem, hans⟩ := answered hreach'.valid hi stored
      obtain ⟨row, hrow, hhash, howner⟩ := Stmt.insertReset_answer hans
      obtain ⟨row', hrow', hkept⟩ :=
        (hreach'.ordered (resetTickets P).stable).post hi _ hmem row hrow
      rw [← hemail]
      exact .reset hu hrow' (by rw [hkept.row, hhash]) (by rw [hkept.row, howner, hid])

/-- The mail of a registration. -/
theorem mail_addressed_of_registration : ∃ (c : ServerConfig) (mail : Mail),
    sampleRun verifyMoves = some c ∧ mail ∈ c.world.mail ∧ mail.toAddress = "un@x.io" ∧
      Addressed .sample c.world mail := by
  have hplay : (sampleRun verifyMoves).any (fun c => (c.world.mail.head?).any fun mail =>
      decide (mail.toAddress = "un@x.io")) = true := by
    decide +kernel
  obtain ⟨c, hc, hmails⟩ := (Option.any_eq_true _ _).1 hplay
  obtain ⟨mail, hhead, haddress⟩ := (Option.any_eq_true _ _).1 hmails
  have hmem := List.mem_of_head? hhead
  exact ⟨c, mail, hc, hmem, of_decide_eq_true haddress,
    mail_addressed (sampleRun_mail hc) mail hmem⟩

/-- The mail has the token in it. -/
def Mail.Carries (P : Platform) (mail : Mail) (token : String) : Prop :=
  ∃ address, mail = resetMail P address token ∨ mail = verificationMail address token

theorem resetMail_carries {address token token' : String}
    (h : (resetMail P address token).Carries P token') : token' = token := by
  obtain ⟨address', h | h⟩ := h
  · have htext := congrArg Mail.text h
    simp only [resetMail, String.append_left_inj, String.append_right_inj] at htext
    exact htext.symm
  · exact absurd (congrArg Mail.subject h) (by simp [resetMail, verificationMail])

theorem verificationMail_carries {address token token' : String}
    (h : (verificationMail address token).Carries P token') : token' = token := by
  obtain ⟨address', h | h⟩ := h
  · exact absurd (congrArg Mail.subject h) (by simp [resetMail, verificationMail])
  · have htext := congrArg Mail.text h
    simp only [verificationMail, String.append_left_inj, String.append_right_inj] at htext
    exact htext.symm

/-- The rows of one hash are of one account. -/
theorem reset_owner (hreach : (machine P).Reachable World.Initial c) (hi : c.calls[i]? = some call)
    (hj : c.calls[j]? = some call') {userId userId' hash : String} {ttl ttl' : ℕ}
    (h : Log.Saw call.log (.emailTokens (.insertReset userId hash ttl)) (.ok ()))
    (h' : Log.Saw call'.log (.emailTokens (.insertReset userId' hash ttl')) (.ok ())) :
    userId = userId' := by
  have hord := hreach.ordered (resetTickets P).stable
  obtain ⟨_, _, _, hmem, hans⟩ := answered hreach.valid hi h
  obtain ⟨_, _, _, hmem', hans'⟩ := answered hreach.valid hj h'
  obtain ⟨row, hrow, hhash, rfl⟩ := Stmt.insertReset_answer hans
  obtain ⟨row', hrow', hhash', rfl⟩ := Stmt.insertReset_answer hans'
  obtain ⟨now, hnow, hle⟩ := hord.post hi _ hmem row hrow
  obtain ⟨now', hnow', hle'⟩ := hord.post hj _ hmem' row' hrow'
  obtain rfl := (resetTickets P).same hreach hnow hnow' hle hle' (hhash.trans hhash'.symm)
  have howner : now.userId = row.userId := by rw [hle.row]
  have howner' : now.userId = row'.userId := by rw [hle'.row]
  exact howner.symm.trans howner'

/-- The rows of one hash are of one account. -/
theorem verification_owner (hreach : (machine P).Reachable World.Initial c)
    (hi : c.calls[i]? = some call) (hj : c.calls[j]? = some call')
    {userId userId' hash email email' : String} {ttl ttl' : ℕ}
    (h : Log.Saw call.log (.emailTokens (.insertVerification userId hash email ttl)) (.ok ()))
    (h' : Log.Saw call'.log (.emailTokens (.insertVerification userId' hash email' ttl'))
      (.ok ())) : userId = userId' := by
  have hord := hreach.ordered (verificationTickets P).stable
  obtain ⟨_, _, _, hmem, hans⟩ := answered hreach.valid hi h
  obtain ⟨_, _, _, hmem', hans'⟩ := answered hreach.valid hj h'
  obtain ⟨row, hrow, hhash, rfl⟩ := Stmt.insertVerification_answer hans
  obtain ⟨row', hrow', hhash', rfl⟩ := Stmt.insertVerification_answer hans'
  obtain ⟨now, hnow, hle⟩ := hord.post hi _ hmem row hrow
  obtain ⟨now', hnow', hle'⟩ := hord.post hj _ hmem' row' hrow'
  obtain rfl := (verificationTickets P).same hreach hnow hnow' hle hle' (hhash.trans hhash'.symm)
  have howner : now.userId = row.userId := by rw [hle.row]
  have howner' : now.userId = row'.userId := by rw [hle'.row]
  exact howner.symm.trans howner'

/-- The accounts of one identifier have one address. -/
theorem address_unique (hreach : (machine P).Reachable World.Initial c)
    (hi : c.calls[i]? = some call) (hj : c.calls[j]? = some call') {row row' : UserRow}
    (h : Forgotten call.req.request call.log row ∨ Registered call.req.request call.log row)
    (h' : Forgotten call'.req.request call'.log row' ∨ Registered call'.req.request call'.log row')
    (hid : row.id = row'.id) : row.email = row'.email := by
  obtain ⟨u, hu, huid, hemail⟩ := account_now hreach hi h
  obtain ⟨u', hu', huid', hemail'⟩ := account_now hreach hj h'
  have hsame : u = u' := eq_of_key (reachable_sound hreach).1.users.nodup hu hu'
    (huid.trans (hid.trans huid'.symm))
  rw [← hemail, ← hemail', hsame]

/-- **A reset token is mailed to its account** and to nobody else. -/
theorem RequestsReset.mailed {token : String} {row : UserRow} (h : RequestsReset P call token row)
    (hreach : (machine P).Reachable World.InitialMail c) (hi : c.calls[i]? = some call)
    {mail : Mail} (hmail : mail ∈ c.world.mail) (hcarries : mail.Carries P token) :
    mail = resetMail P row.email token := by
  have hreach' := reachable_of_mail hreach
  obtain ⟨j, sender, hj, horigin⟩ := mail_sent hreach hmail
  obtain ⟨email, hrequest, _⟩ := h.asked
  cases horigin with
  | verification registered drawn stored =>
      obtain rfl := verificationMail_carries hcarries
      obtain rfl := randomToken_once hreach' hi hj h.drawn drawn
      obtain rfl := Option.some.inj (hi.symm.trans hj)
      obtain ⟨input, hash, hrequest', _⟩ := registered
      cases hrequest.symm.trans hrequest'
  | @reset row' token' forgotten drawn stored =>
      obtain rfl := resetMail_carries hcarries
      obtain rfl := randomToken_once hreach' hi hj h.drawn drawn
      obtain rfl := Option.some.inj (hi.symm.trans hj)
      have hid := reset_owner hreach' hi hi h.stored stored
      rw [address_unique hreach' hi hi (.inl h.asked) (.inl forgotten) hid]

/-! ### Changed passwords -/

/-- The call has presented the token before the event `e`, in time: it was stored at most its
lifetime ago. -/
def PresentedInTime (stored consumed : Stmt) (ttl : ℕ) (issuer call : ServerCall)
    (e : ServerEvent) : Prop :=
  ∃ f ∈ issuer.log, ∃ g ∈ call.log, f.op = stored ∧ g.op = consumed ∧ f.seq < g.seq ∧
    g.seq < e.seq ∧ g.pre.now < f.pre.after ttl

/-- What a changed password and the call that has asked for the reset agree on. -/
structure ResetAgreement (P : Platform) (call issuer : ServerCall) (e : ServerEvent)
    (token password : String) (row : UserRow) : Prop where
  presented : call.req.request = .resetPassword token password
  policy : passwordPolicyError P.config.passwordMinLength password = none
  changed : ∃ hash, e.op = .users (.updatePasswordHash row.id hash) ∧
    verifyPassword P hash password = true
  requested : RequestsReset P issuer token row
  inTime : PresentedInTime
    (.emailTokens (.insertReset row.id (P.sha256Hex token) P.config.passwordResetTtl))
    (.emailTokens (.consumeReset (P.sha256Hex token))) P.config.passwordResetTtl issuer call e

theorem Stmt.consumeReset_answer {hash : String} {row : PasswordResetRow}
    (h : Stmt.Answered P (.emailTokens (.consumeReset hash)) (some row) w w') :
    ∃ a ∈ w.passwordResetTokens, EmailTokenStmt.resettable w hash a ∧
      row = { a with usedAt := some w.now } ∧ row ∈ w'.passwordResetTokens := by
  obtain ⟨r, ledger, ha, rfl, _⟩ := h.effect
  obtain ⟨old, hold, hw, rfl⟩ := mem_of_returning_head (Except.ok.inj ha)
  exact ⟨old, hold, hw, rfl, mem_updateWhere.2 ⟨old, hold, by rw [if_pos hw]⟩⟩

theorem Stmt.argon2Hash_answer {plain hash : String}
    (h : Stmt.Answered P (.runtime (.argon2Hash plain)) hash w w') :
    verifyPassword P hash plain = true := by
  obtain ⟨r, hexec⟩ := h
  simp only [Stmt.exec, Stmt.uuidParams, Stmt.generates, List.all_nil, if_true] at hexec
  split_ifs at hexec with hform
  obtain ⟨hans, _⟩ := Prod.mk.inj (Option.some.inj hexec)
  obtain rfl : r = hash := Except.ok.inj hans
  exact (Bool.and_eq_true_iff.1 hform).1

/-- What a call has done that changes a password: it has used up the row of its token. -/
theorem change_redeems (hv : (machine P).Valid c) (hi : c.calls[i]? = some call) {e : ServerEvent}
    (he : e ∈ call.log) {userId hash : String}
    (hop : e.op = .users (.updatePasswordHash userId hash)) :
    ∃ token password g a, call.req.request = .resetPassword token password ∧
      passwordPolicyError P.config.passwordMinLength password = none ∧
      verifyPassword P hash password = true ∧
      Tickets.Redeems World.passwordResetTokens Stmt.UsesReset call e g a ∧
      g.op = .emailTokens (.consumeReset (P.sha256Hex token)) ∧
      a.tokenHash = P.sha256Hex token ∧ g.pre.now < a.expiresAt ∧ a.userId = userId := by
  obtain ⟨l, hl, horigin⟩ := origin_event hv hi he
  rw [hop] at horigin
  obtain ⟨token, password, used, hrequest, hpolicy, ⟨n, pre, post, hmem⟩, howner, hhash⟩ := horigin
  have hlog : l <:+ call.log := (List.suffix_cons _ _).trans hl
  obtain ⟨_, _, _, _, hargon⟩ := answered hv hi (hhash.mono hlog)
  obtain ⟨a, ha, hresettable, rfl, hused⟩ :=
    Stmt.consumeReset_answer (executed hv hi (hlog.subset hmem))
  exact ⟨token, password, _, a, hrequest, hpolicy, Stmt.argon2Hash_answer hargon,
    ⟨hlog.subset hmem, hv.earlier hi hl hmem, ha, _, hused, _, rfl, hresettable, rfl⟩, rfl,
    hresettable.1, hresettable.2.2, howner⟩

/-- **A changed password agrees with a call that has asked for the reset.** -/
theorem reset_agrees (hP : Function.Injective P.sha256Hex)
    (hreach : (machine P).Reachable World.Initial c) (hi : c.calls[i]? = some call)
    {e : ServerEvent} (he : e ∈ call.log) {userId hash : String}
    (hop : e.op = .users (.updatePasswordHash userId hash)) :
    ∃ (j : ℕ) (issuer : ServerCall) (token password : String) (row : UserRow),
      c.calls[j]? = some issuer ∧ ResetAgreement P call issuer e token password row := by
  obtain ⟨token, password, g, a, hrequest, hpolicy, hverifies, hredeems, hgop, hahash, hexpires,
    howner⟩ := change_redeems hreach.valid hi he hop
  obtain ⟨j, issuer, f, b, hj, hf, hseq, ⟨v, hok⟩, ⟨r, id, hash', ttl, hfop, _, rfl⟩, hle⟩ :=
    (resetTickets P).issued_before hreach hi hredeems.executed hredeems.found
  obtain ⟨l, hl, horigin⟩ := origin_event hreach.valid hj hf
  have hlog : l <:+ issuer.log := (List.suffix_cons _ _).trans hl
  rw [hfop] at horigin
  obtain ⟨row, token', hforgotten, ⟨hdrawn, rfl⟩, rfl, rfl⟩ := horigin
  -- the token presented is the token drawn
  have hrow := hle.row
  have hkept : a.tokenHash = P.sha256Hex token' := by rw [hrow]
  obtain rfl : token' = token := hP (hkept.symm.trans hahash)
  obtain rfl : row.id = userId := by rw [← howner, hrow]
  have hstored : Log.Saw issuer.log (.emailTokens (.insertReset row.id (P.sha256Hex token')
      P.config.passwordResetTtl)) (.ok ()) := by
    obtain ⟨n, pre, op, ans, post⟩ := f
    obtain rfl : op = _ := hfop
    cases ans with
    | ok v => exact ⟨n, pre, post, hf⟩
    | error e => cases hok
  refine ⟨j, issuer, token', password, row, hj, hrequest, hpolicy, ⟨hash, hop, hverifies⟩,
    ⟨hforgotten.mono hlog, hdrawn.mono hlog, hstored⟩,
    f, hf, g, hredeems.executed, hfop, hgop, hseq, hredeems.before, ?_⟩
  rw [hrow] at hexpires
  exact hexpires

/-- **A reset token changes one password**, whoever presents it. -/
theorem reset_once (hreach : (machine P).Reachable World.Initial c) (hi : c.calls[i]? = some call)
    (hj : c.calls[j]? = some call') {e e' : ServerEvent} (he : e ∈ call.log) (he' : e' ∈ call'.log)
    {userId userId' hash hash' token password password' : String}
    (hop : e.op = .users (.updatePasswordHash userId hash))
    (hop' : e'.op = .users (.updatePasswordHash userId' hash'))
    (hrequest : call.req.request = .resetPassword token password)
    (hrequest' : call'.req.request = .resetPassword token password') : i = j := by
  obtain ⟨_, _, g, a, hpresented, _, _, hredeems, _, hhash, _⟩ :=
    change_redeems hreach.valid hi he hop
  obtain ⟨_, _, g', a', hpresented', _, _, hredeems', _, hhash', _⟩ :=
    change_redeems hreach.valid hj he' hop'
  cases hpresented.symm.trans hrequest
  cases hpresented'.symm.trans hrequest'
  exact hredeems.once hredeems' (resetTickets P) hreach hi hj (hhash'.trans hhash.symm)

/-- **Injective agreement of resets and their requests.**  If SHA-256 has no collisions, every
change of a password agrees with the one call that was asked for the reset by the address of the
account: on the account, on the token, which has not expired and which was mailed to that address
and to no other, and on a password that meets the policy.  No token changes two passwords. -/
theorem password_change_agrees (hP : Function.Injective P.sha256Hex)
    (hreach : (machine P).Reachable World.InitialMail c) :
    (∀ (i : ℕ) call, c.calls[i]? = some call → ∀ e ∈ call.log, ∀ userId hash,
      e.op = .users (.updatePasswordHash userId hash) →
      ∃ (j : ℕ) (issuer : ServerCall) (token password : String) (row : UserRow),
        c.calls[j]? = some issuer ∧ row.id = userId ∧
        ResetAgreement P call issuer e token password row ∧
        (∀ (j' : ℕ) issuer' row', c.calls[j']? = some issuer' →
          RequestsReset P issuer' token row' → j' = j) ∧
        ∀ mail ∈ c.world.mail, mail.Carries P token → mail = resetMail P row.email token) ∧
      ∀ (i j : ℕ) call call' token password password', c.calls[i]? = some call →
        c.calls[j]? = some call' → call.req.request = .resetPassword token password →
        call'.req.request = .resetPassword token password' →
        (∃ e ∈ call.log, ∃ userId hash, e.op = .users (.updatePasswordHash userId hash)) →
        (∃ e ∈ call'.log, ∃ userId hash, e.op = .users (.updatePasswordHash userId hash)) →
        i = j := by
  have hreach' := reachable_of_mail hreach
  constructor
  · intro i call hi e he userId hash hop
    obtain ⟨j, issuer, token, password, row, hj, hagree⟩ := reset_agrees hP hreach' hi he hop
    obtain ⟨_, hop', _⟩ := hagree.changed
    cases hop.symm.trans hop'
    exact ⟨j, issuer, token, password, row, hj, rfl, hagree,
      fun j' issuer' row' hj' h' => randomToken_once hreach' hj' hj h'.drawn hagree.requested.drawn,
      fun mail hmail hcarries => hagree.requested.mailed hreach hj hmail hcarries⟩
  · rintro i j call call' token password password' hi hj hrequest hrequest'
      ⟨e, he, userId, hash, hop⟩ ⟨e', he', userId', hash', hop'⟩
    exact reset_once hreach' hi hj he he' hop hop' hrequest hrequest'

/-- A user changes a forgotten password. -/
theorem password_change_agrees_of_reset : ∃ (c : ServerConfig) (call : ServerCall) (e : ServerEvent)
    (j : ℕ) (issuer : ServerCall) (token password : String) (row : UserRow),
    sampleRun changeMoves = some c ∧ c.calls[1]? = some call ∧ e ∈ call.log ∧
      c.calls[j]? = some issuer ∧ ResetAgreement .sample call issuer e token password row := by
  have hplay : (sampleRun changeMoves).any (fun c => (c.calls[1]?).any fun call =>
      decide (∃ e ∈ call.log, e.op =
        .users (.updatePasswordHash (sampleUuid 9001) "A long and new one 2#8000"))) = true := by
    decide +kernel
  obtain ⟨c, hc, hcalls⟩ := (Option.any_eq_true _ _).1 hplay
  obtain ⟨call, hi, hevent⟩ := (Option.any_eq_true _ _).1 hcalls
  obtain ⟨e, he, hop⟩ := of_decide_eq_true hevent
  obtain ⟨j, issuer, token, password, row, hj, _, hagree, _⟩ :=
    (password_change_agrees sample_sha256Hex_injective (sampleRun_mail hc)).1 1 call hi e he _ _ hop
  exact ⟨c, call, e, j, issuer, token, password, row, hc, hi, he, hj, hagree⟩

/-! ### Verified addresses -/

/-- What a verified address and the registration of its account agree on. -/
structure VerificationAgreement (P : Platform) (call issuer : ServerCall) (e : ServerEvent)
    (token : String) (row : UserRow) : Prop where
  presented : call.req.request = .verifyEmail token
  registered : RegistersWith P issuer token row
  inTime : PresentedInTime
    (.emailTokens (.insertVerification row.id (P.sha256Hex token) row.email.toLower
      P.config.emailVerificationTtl))
    (.emailTokens (.consumeVerification (P.sha256Hex token))) P.config.emailVerificationTtl
    issuer call e

theorem Stmt.consumeVerification_found {hash : String} {row : EmailVerificationRow}
    (h : Stmt.Answered P (.emailTokens (.consumeVerification hash)) (some row) w w') :
    ∃ a ∈ w.emailVerifications, EmailTokenStmt.verifiable w hash a ∧
      row = { a with consumedAt := some w.now } ∧ row ∈ w'.emailVerifications := by
  obtain ⟨r, ledger, ha, rfl, _⟩ := h.effect
  obtain ⟨old, hold, hw, rfl⟩ := mem_of_returning_head (Except.ok.inj ha)
  exact ⟨old, hold, hw, rfl, mem_updateWhere.2 ⟨old, hold, by rw [if_pos hw]⟩⟩

/-- What a call has done that verifies an address: it has used up the row of its token. -/
theorem verification_redeems (hv : (machine P).Valid c) (hi : c.calls[i]? = some call)
    {e : ServerEvent} (he : e ∈ call.log) {userId : String}
    (hop : e.op = .users (.markVerified userId)) :
    ∃ token g a, call.req.request = .verifyEmail token ∧
      Tickets.Redeems World.emailVerifications Stmt.UsesVerification call e g a ∧
      g.op = .emailTokens (.consumeVerification (P.sha256Hex token)) ∧
      a.tokenHash = P.sha256Hex token ∧ g.pre.now < a.expiresAt ∧ a.userId = userId := by
  obtain ⟨l, hl, horigin⟩ := origin_event hv hi he
  rw [hop] at horigin
  obtain ⟨token, used, hrequest, ⟨n, pre, post, hmem⟩, howner⟩ := horigin
  have hlog : l <:+ call.log := (List.suffix_cons _ _).trans hl
  obtain ⟨a, ha, hverifiable, rfl, hused⟩ :=
    Stmt.consumeVerification_found (executed hv hi (hlog.subset hmem))
  exact ⟨token, _, a, hrequest,
    ⟨hlog.subset hmem, hv.earlier hi hl hmem, ha, _, hused, _, rfl, hverifiable, rfl⟩, rfl,
    hverifiable.1, hverifiable.2.2, howner⟩

/-- **A verified address agrees with the registration of its account.** -/
theorem verification_registered (hP : Function.Injective P.sha256Hex)
    (hreach : (machine P).Reachable World.Initial c) (hi : c.calls[i]? = some call)
    {e : ServerEvent} (he : e ∈ call.log) {userId : String}
    (hop : e.op = .users (.markVerified userId)) :
    ∃ (j : ℕ) (issuer : ServerCall) (token : String) (row : UserRow), c.calls[j]? = some issuer ∧
      row.id = userId ∧ VerificationAgreement P call issuer e token row := by
  obtain ⟨token, g, a, hrequest, hredeems, hgop, hahash, hexpires, howner⟩ :=
    verification_redeems hreach.valid hi he hop
  obtain ⟨j, issuer, f, b, hj, hf, hseq, ⟨v, hok⟩, ⟨r, id, hash, email, ttl, hfop, _, rfl⟩, hle⟩ :=
    (verificationTickets P).issued_before hreach hi hredeems.executed hredeems.found
  obtain ⟨l, hl, horigin⟩ := origin_event hreach.valid hj hf
  have hlog : l <:+ issuer.log := (List.suffix_cons _ _).trans hl
  rw [hfop] at horigin
  obtain ⟨row, token', hregistered, ⟨hdrawn, rfl⟩, rfl, rfl, rfl⟩ := horigin
  have hrow := hle.row
  have hkept : a.tokenHash = P.sha256Hex token' := by rw [hrow]
  obtain rfl : token' = token := hP (hkept.symm.trans hahash)
  obtain rfl : row.id = userId := by rw [← howner, hrow]
  have hstored : Log.Saw issuer.log (.emailTokens (.insertVerification row.id
      (P.sha256Hex token') row.email.toLower P.config.emailVerificationTtl)) (.ok ()) := by
    obtain ⟨n, pre, op, ans, post⟩ := f
    obtain rfl : op = _ := hfop
    cases ans with
    | ok v => exact ⟨n, pre, post, hf⟩
    | error e => cases hok
  refine ⟨j, issuer, token', row, hj, rfl, hrequest,
    ⟨hregistered.mono hlog, hdrawn.mono hlog, hstored⟩,
    f, hf, g, hredeems.executed, hfop, hgop, hseq, hredeems.before, ?_⟩
  rw [hrow] at hexpires
  exact hexpires

/-- **A verification token is mailed to the address it verifies** and to no other. -/
theorem RegistersWith.mailed {token : String} {row : UserRow} (h : RegistersWith P call token row)
    (hreach : (machine P).Reachable World.InitialMail c) (hi : c.calls[i]? = some call)
    {mail : Mail} (hmail : mail ∈ c.world.mail) (hcarries : mail.Carries P token) :
    mail = verificationMail row.email token := by
  have hreach' := reachable_of_mail hreach
  obtain ⟨j, sender, hj, horigin⟩ := mail_sent hreach hmail
  obtain ⟨input, hash, hrequest, _⟩ := h.registered
  cases horigin with
  | reset forgotten drawn stored =>
      obtain rfl := resetMail_carries hcarries
      obtain rfl := randomToken_once hreach' hi hj h.drawn drawn
      obtain rfl := Option.some.inj (hi.symm.trans hj)
      obtain ⟨email, hrequest', _⟩ := forgotten
      cases hrequest.symm.trans hrequest'
  | verification registered drawn stored =>
      obtain rfl := verificationMail_carries hcarries
      obtain rfl := randomToken_once hreach' hi hj h.drawn drawn
      obtain rfl := Option.some.inj (hi.symm.trans hj)
      have hid := verification_owner hreach' hi hi h.stored stored
      rw [address_unique hreach' hi hi (.inr h.registered) (.inr registered) hid]

/-- **Injective agreement of verifications and registrations.**  If SHA-256 has no collisions,
every address that is marked as verified is that of an account that one call has registered and
no other has inserted: the token presented is the one this call, and no other, drew for the
account, it has not expired, and it was mailed to that address and to no other.  No token verifies
two addresses. -/
theorem verification_agrees (hP : Function.Injective P.sha256Hex)
    (hreach : (machine P).Reachable World.InitialMail c) :
    (∀ (i : ℕ) call, c.calls[i]? = some call → ∀ e ∈ call.log, ∀ userId,
      e.op = .users (.markVerified userId) →
      ∃ (j : ℕ) (issuer : ServerCall) (token : String) (row : UserRow),
        c.calls[j]? = some issuer ∧ row.id = userId ∧
        VerificationAgreement P call issuer e token row ∧
        (∀ (j' : ℕ) issuer' row', c.calls[j']? = some issuer' →
          Inserted issuer'.log row' → row'.id = userId → j' = j) ∧
        (∀ (j' : ℕ) issuer' row', c.calls[j']? = some issuer' →
          RegistersWith P issuer' token row' → j' = j) ∧
        ∀ mail ∈ c.world.mail, mail.Carries P token → mail = verificationMail row.email token) ∧
      ∀ (i j : ℕ) call call' token, c.calls[i]? = some call → c.calls[j]? = some call' →
        call.req.request = .verifyEmail token → call'.req.request = .verifyEmail token →
        (∃ e ∈ call.log, ∃ userId, e.op = .users (.markVerified userId)) →
        (∃ e ∈ call'.log, ∃ userId, e.op = .users (.markVerified userId)) → i = j := by
  have hreach' := reachable_of_mail hreach
  constructor
  · intro i call hi e he userId hop
    obtain ⟨j, issuer, token, row, hj, hid, hagree⟩ := verification_registered hP hreach' hi he hop
    exact ⟨j, issuer, token, row, hj, hid, hagree,
      fun j' issuer' row' hj' h' hid' =>
        inserted_once hreach' hj' hj h' hagree.registered.registered.inserted
          (hid'.trans hid.symm),
      fun j' issuer' row' hj' h' => randomToken_once hreach' hj' hj h'.drawn
        hagree.registered.drawn,
      fun mail hmail hcarries => hagree.registered.mailed hreach hj hmail hcarries⟩
  · rintro i j call call' token hi hj hrequest hrequest' ⟨e, he, userId, hop⟩
      ⟨e', he', userId', hop'⟩
    obtain ⟨_, g, a, hpresented, hredeems, _, hhash, _⟩ :=
      verification_redeems hreach'.valid hi he hop
    obtain ⟨_, g', a', hpresented', hredeems', _, hhash', _⟩ :=
      verification_redeems hreach'.valid hj he' hop'
    cases hpresented.symm.trans hrequest
    cases hpresented'.symm.trans hrequest'
    exact hredeems.once hredeems' (verificationTickets P) hreach' hi hj (hhash'.trans hhash.symm)

/-- A user verifies the address of a new account. -/
theorem verification_agrees_of_registration : ∃ (c : ServerConfig) (call : ServerCall)
    (e : ServerEvent) (j : ℕ) (issuer : ServerCall) (token : String) (row : UserRow),
    sampleRun verifyMoves = some c ∧ c.calls[1]? = some call ∧ e ∈ call.log ∧
      c.calls[j]? = some issuer ∧ VerificationAgreement .sample call issuer e token row := by
  have hplay : (sampleRun verifyMoves).any (fun c => (c.calls[1]?).any fun call =>
      decide (∃ e ∈ call.log, e.op = .users (.markVerified (sampleUuid 3)))) = true := by
    decide +kernel
  obtain ⟨c, hc, hcalls⟩ := (Option.any_eq_true _ _).1 hplay
  obtain ⟨call, hi, hevent⟩ := (Option.any_eq_true _ _).1 hcalls
  obtain ⟨e, he, hop⟩ := of_decide_eq_true hevent
  obtain ⟨j, issuer, token, row, hj, _, hagree, _⟩ :=
    (verification_agrees sample_sha256Hex_injective (sampleRun_mail hc)).1 1 call hi e he _ hop
  exact ⟨c, call, e, j, issuer, token, row, hc, hi, he, hj, hagree⟩

end IdentityPlatform
