/-
# Registrations that fail halfway

`UserService.register` inserts the account, links its role, stores the token and sends the
mail, each by itself: there is no transaction around them and nothing that undoes the insert.
`register_atomic_iff` says that a registration has returned its user or left no account exactly
if none of the steps after the insert has failed.  An address, in any case of its letters,
has at most one account all the same.
-/

import IdentityPlatform.Protocol.Invariants

namespace IdentityPlatform

open Interleaving Program Relational Machine AuthServer

variable {P : Platform} {c : ServerConfig} {i : ℕ} {call : ServerCall} {l₀ l : ServerLog}

/-! ### One account for an address -/

/-- The column `email` is a unique one, whatever the case of its letters, which are those of
ASCII. -/
def World.EmailsUnique (w : World) : Prop := (w.users.map fun u => u.email.toLower).Nodup

/-- A platform as the seed leaves it, with the unique column filled accordingly. -/
def World.InitialAccounts (w : World) : Prop := w.Initial ∧ w.EmailsUnique

theorem reachable_of_accounts (h : (machine P).Reachable World.InitialAccounts c) :
    (machine P).Reachable World.Initial c := by
  obtain ⟨w, hw, hrun⟩ := h
  exact ⟨w, hw.1, hrun⟩

theorem Stmt.exec_emails {s : Stmt} {rnd : String} {w w' : World} {ans : Except Err s.Ans}
    (h : s.exec P rnd w = some (ans, w')) (hw : w.EmailsUnique) : w'.EmailsUnique := by
  refine (Stmt.exec_users h).nodup hw ?_ ?_
  · rintro a _ b ⟨u, _, _, rfl⟩
    rw [(u.change_le w.now a).email]
  · rintro row ⟨email, hash, first, last, _, rfl, _, hnew⟩ hmem
    obtain ⟨u, hu, hemail⟩ := List.mem_map.1 hmem
    exact lookup_eq_none hnew u hu hemail

/-- **An address has one account** in every reachable state. -/
theorem reachable_emails (hreach : (machine P).Reachable World.InitialAccounts c) :
    c.world.EmailsUnique := by
  obtain ⟨w, hw, hrun⟩ := hreach
  refine hrun.invariant (I := fun c => c.world.EmailsUnique) hw.2 fun c a c' hc _ hs => ?_
  rcases step_cases hs with ⟨req, _, rfl⟩ | ⟨i, call, op, k, ans, post, _, _, _, hans, rfl⟩ |
    ⟨e, w, _, hw, rfl⟩
  · exact hc
  · rcases hans with ⟨r, hexec⟩ | ⟨_, rfl⟩
    · exact Stmt.exec_emails hexec hc
    · exact hc
  · change w.EmailsUnique
    rw [World.EmailsUnique, (Env.apply_rows hw).1]
    exact hc

/-! ### The steps of a registration -/

/-- The statements after the insert: a failure of one of them ends the registration.  (That
of the audit record does not: it is swallowed.) -/
def Stmt.isFollowUp : Stmt → Bool
  | .rbac (.addRole ..) | .runtime .randomToken | .emailTokens (.insertVerification ..)
  | .runtime (.sendMail _) => true
  | _ => false

/-- No step after the insert has failed. -/
def NoneFailed (l : ServerLog) : Prop :=
  ∀ (s : Stmt) e, l.Saw s (.error e) → s.isFollowUp = false

/-- The log has the insert of the account. -/
def Inserted (l : ServerLog) (row : UserRow) : Prop :=
  ∃ email hash first last, l.Saw (.users (.insert email hash first last)) (.ok row)

theorem Inserted.mono {row : UserRow} (h : Inserted l₀ row) (hl : l₀ <:+ l) : Inserted l row := by
  obtain ⟨email, hash, first, last, hsaw⟩ := h
  exact ⟨email, hash, first, last, hsaw.mono hl⟩

theorem NoneFailed.nil : NoneFailed [] := by
  rintro s e ⟨_, _, _, hmem⟩
  cases hmem

/-- A statement that is no follow-up, or has succeeded. -/
theorem NoneFailed.cons (h : NoneFailed l) {e : ServerEvent}
    (he : e.op.isFollowUp = false ∨ ∃ a, e.ans = .ok a) : NoneFailed (e :: l) := by
  rintro s err ⟨n, pre, post, hmem⟩
  rcases List.mem_cons.1 hmem with rfl | hmem
  · rcases he with hno | ⟨a, ha⟩
    · exact hno
    · cases ha
  · exact h s err ⟨n, pre, post, hmem⟩

theorem NoneFailed.next (h : NoneFailed l₀) {s : Stmt} {a : s.Ans}
    (hn : Log.Next l₀ l s (.ok a)) : NoneFailed l := by
  obtain ⟨n, pre, post, rfl⟩ := hn
  exact h.cons (.inr ⟨a, rfl⟩)

/-- A step after the insert that has failed. -/
theorem not_noneFailed {s : Stmt} {e : Err} (hn : Log.Next l₀ l s (.error e))
    (hs : s.isFollowUp = true) : ¬NoneFailed l := by
  obtain ⟨n, pre, post, rfl⟩ := hn
  intro h
  have hno := h s e ⟨n, pre, post, List.mem_cons_self ..⟩
  rw [hs] at hno
  cases hno

/-- Neither an insert nor a failure after it. -/
structure Begun (l : ServerLog) : Prop where
  none : ∀ row, ¬Inserted l row
  failed : NoneFailed l

theorem Begun.nil : Begun [] := by
  refine ⟨?_, .nil⟩
  rintro row ⟨_, _, _, _, _, _, _, hmem⟩
  cases hmem

/-- Before the insert, and when it fails. -/
theorem Begun.next (h : Begun l₀) {s : Stmt} {ans : Except Err s.Ans} (hn : Log.Next l₀ l s ans)
    (hs : s.isFollowUp = false)
    (hinsert : (∀ email hash first last, s ≠ .users (.insert email hash first last)) ∨
      ∃ e, ans = .error e) : Begun l := by
  obtain ⟨n, pre, post, rfl⟩ := hn
  refine ⟨?_, h.failed.cons (.inl hs)⟩
  rintro row ⟨email, hash, first, last, m, pre', post', hmem⟩
  rcases List.mem_cons.1 hmem with heq | hmem
  · cases heq
    rcases hinsert with hno | ⟨e, he⟩
    · exact hno _ _ _ _ rfl
    · cases he
  · exact h.none row ⟨email, hash, first, last, m, pre', post', hmem⟩

/-- The outcomes of a registration. -/
inductive RegisterOutcome (l : ServerLog) : Except Err PublicUser → Prop
  | refused {e} (hbegun : Begun l) : RegisterOutcome l (.error e)
  | abandoned {e row} (hrow : Inserted l row) (hfailed : ¬NoneFailed l) :
      RegisterOutcome l (.error e)
  | completed {row} (hrow : Inserted l row) (hfailed : NoneFailed l) :
      RegisterOutcome l (.ok (toPublicUser row))

theorem checkPasswordPolicy_log {password : String} {r : Except Err Unit}
    (h : (checkPasswordPolicy P password).Returns l₀ l r) : l = l₀ := by
  unfold checkPasswordPolicy at h
  split at h
  · exact (returns_throw.1 h).1
  · exact (returns_pure.1 h).1

/-- What follows the insert has failed, or nothing in it has. -/
theorem followUps_outcome {row : UserRow} {event : AuditEvent} {mail : String → Mail}
    {r : Except Err PublicUser} (hrow : Inserted l₀ row) (hnone : NoneFailed l₀)
    (h : (do
      UserRepository.addRole row.id "user"
      AuditLogService.record event
      let token ← EmailTokenService.issueEmailVerification P row.id row.email
      query (.runtime (.sendMail (mail token)))
      pure (toPublicUser row) : Prog PublicUser).Returns l₀ l r) : RegisterOutcome l r := by
  have hinserted : Inserted l row := hrow.mono h.suffix
  rcases returns_bind.1 h with ⟨l₁, _, h₁, hr₁⟩ | ⟨e, h₁, rfl⟩
  swap
  · exact .abandoned hinserted (not_noneFailed h₁.next rfl)
  have hnone₁ : NoneFailed l₁ := hnone.next h₁.next
  rcases returns_bind.1 hr₁ with ⟨l₂, _, h₂, hr₂⟩ | ⟨e, h₂, _⟩
  swap
  · cases AuditLogService.record_returns h₂
  have hnone₂ : NoneFailed l₂ :=
    Respects.keeps (P := fun _ (s : Stmt) => s.isFollowUp = false) (O := NoneFailed)
      (by simp [AuditLogService.record, Stmt.isFollowUp]) (fun _ _ hop hl => hl.cons (.inl hop))
      h₂ hnone₁
  rcases returns_bind.1 hr₂ with ⟨l₃, token, h₃, hr₃⟩ | ⟨e, h₃, rfl⟩
  swap
  · rcases returns_bind.1 h₃ with ⟨l₄, text, h₄, hr₄⟩ | ⟨e, h₄, he⟩
    · rcases returns_bind.1 hr₄ with ⟨_, _, _, hpure⟩ | ⟨e, h₅, he⟩
      · cases (returns_pure.1 hpure).2
      · exact .abandoned hinserted (not_noneFailed h₅.next rfl)
    · exact .abandoned hinserted (not_noneFailed h₄.next rfl)
  have hnone₃ : NoneFailed l₃ := by
    obtain ⟨l₄, text, h₄, _, hr₄⟩ := h₃.of_bind
    obtain ⟨l₅, _, h₅, _, hpure⟩ := hr₄.of_bind
    obtain ⟨rfl, _⟩ := returns_pure.1 hpure
    exact (hnone₂.next h₄.next).next h₅.next
  rcases returns_bind.1 hr₃ with ⟨l₆, _, h₆, hpure⟩ | ⟨e, h₆, rfl⟩
  · obtain ⟨rfl, rfl⟩ := returns_pure.1 hpure
    exact .completed hinserted (hnone₃.next h₆.next)
  · exact .abandoned hinserted (not_noneFailed h₆.next rfl)

/-- **What a registration does**: it is refused before or by the insert, abandoned by a
failure after it, or completed. -/
theorem register_outcome {input : RegisterInput} {ctx : RequestContext} {r : Except Err PublicUser}
    (h : (UserService.register P input ctx).Returns [] l r) : RegisterOutcome l r := by
  rcases returns_bind.1 h with ⟨l₁, _, h₁, hr₁⟩ | ⟨e, h₁, rfl⟩
  swap
  · exact .refused (checkPasswordPolicy_log h₁ ▸ .nil)
  obtain rfl := checkPasswordPolicy_log h₁
  rcases returns_bind.1 hr₁ with ⟨l₂, existing, h₂, hr₂⟩ | ⟨e, h₂, rfl⟩
  swap
  · exact .refused (Begun.nil.next h₂.next rfl (.inl nofun))
  have hbegun₂ : Begun l₂ := Begun.nil.next h₂.next rfl (.inl nofun)
  rcases returns_bind.1 hr₂ with ⟨l₃, _, h₃, hr₃⟩ | ⟨e, h₃, rfl⟩
  swap
  · obtain ⟨rfl, _⟩ := returns_throwIf_error.1 h₃
    exact .refused hbegun₂
  obtain ⟨rfl, _⟩ := returns_throwIf_ok.1 h₃
  rcases returns_bind.1 hr₃ with ⟨l₄, hash, h₄, hr₄⟩ | ⟨e, h₄, rfl⟩
  swap
  · exact .refused (hbegun₂.next h₄.next rfl (.inl nofun))
  have hbegun₄ : Begun l₄ := hbegun₂.next h₄.next rfl (.inl nofun)
  rcases returns_bind.1 hr₄ with ⟨l₅, row, h₅, hr₅⟩ | ⟨e, h₅, rfl⟩
  swap
  · exact .refused (hbegun₄.next h₅.next rfl (.inr ⟨e, rfl⟩))
  exact followUps_outcome ⟨_, _, _, _, h₅.saw⟩ (hbegun₄.failed.next h₅.next) hr₅

/-! ### What a registration leaves -/

/-- An account has the address. -/
def World.Taken (address : String) (w : World) : Prop :=
  ∃ u ∈ w.users, u.email.toLower = address.toLower

/-- An insert stores the row, under an address that was free. -/
theorem Stmt.insertUser_answer {email hash : String} {first last : Option String} {row : UserRow}
    {pre post : World} (h : Stmt.Answered P (.users (.insert email hash first last)) row pre post) :
    row ∈ post.users ∧ row.email = email ∧ ¬pre.Taken email ∧
      Stmt.Taken isUuid row.id pre post := by
  obtain ⟨r, ledger, hans, rfl, hl⟩ := h.effect
  simp only [Stmt.effect, UserStmt.effect] at hans ⊢
  rcases constrained_cases
      [((lookup (fun u => u.email.toLower) email.toLower pre.users).isSome, "23505")]
      pre.users (UserStmt.newRow r pre.now email hash first last,
        pre.users ++ [UserStmt.newRow r pre.now email hash first last]) with ⟨_, hc⟩ | ⟨hc, hok⟩
  · rw [hc] at hans
    cases hans
  · rw [hc] at hans ⊢
    obtain rfl := Except.ok.inj hans
    refine ⟨List.mem_append_right _ (List.mem_singleton_self _), rfl, ?_, hl.taken rfl rfl⟩
    rintro ⟨u, hu, hemail⟩
    have hnone : lookup (fun u => u.email.toLower) email.toLower pre.users = none := by
      simpa using hok _ (List.mem_cons_self ..)
    exact lookup_eq_none hnone u hu hemail

/-- An inserted account stays. -/
theorem inserted_stays (hreach : (machine P).Reachable World.Initial c)
    (hi : c.calls[i]? = some call) {row : UserRow} (h : Inserted call.log row) :
    ∃ u ∈ c.world.users, u.id = row.id := by
  obtain ⟨email, hash, first, last, hsaw⟩ := h
  obtain ⟨n, pre, post, hmem, hans⟩ := answered hreach.valid hi hsaw
  obtain ⟨u, hu, hle⟩ := ((hreach.ordered (le_stable P)).post hi _ hmem).users row
    (Stmt.insertUser_answer hans).1
  exact ⟨u, hu, hle.id⟩

/-- The registration has returned its user, or left no account of its own. -/
def AtomicRegistration (c : ServerConfig) (call : ServerCall) : Prop :=
  (∃ user, call.result = some (.ok (.registered user))) ∨
    ∀ row, Inserted call.log row → ∀ u ∈ c.world.users, u.id ≠ row.id

/-- The outcome of a registration that has been answered. -/
theorem registration_outcome (hv : (machine P).Valid c) (hi : c.calls[i]? = some call)
    {input : RegisterInput} (hrequest : call.req.request = .register input)
    {r : Except Err Response} (hresult : call.result = some r) :
    ∃ r', RegisterOutcome call.log r' ∧ r = r'.map .registered := by
  have hreturns : (AuthServer.handler P call.req).Returns [] call.log r := hv.returned hi hresult
  rw [AuthServer.handler, hrequest] at hreturns
  rcases returns_bind.1 hreturns with ⟨l₁, user, h₁, hpure⟩ | ⟨e, h₁, rfl⟩
  · obtain ⟨rfl, rfl⟩ := returns_pure.1 hpure
    exact ⟨.ok user, register_outcome h₁, rfl⟩
  · exact ⟨.error e, register_outcome h₁, rfl⟩

/-- **A registration is atomic exactly if nothing fails after its insert.**  In every
reachable state an address has at most one account, and a registration that was answered has
returned its user or left no account of its own if and only if none of the steps after
its insert has failed. -/
theorem register_atomic_iff (hreach : (machine P).Reachable World.InitialAccounts c) :
    c.world.EmailsUnique ∧
      ∀ (i : ℕ) call, c.calls[i]? = some call →
        ∀ input, call.req.request = .register input → ∀ r, call.result = some r →
          (AtomicRegistration c call ↔ NoneFailed call.log) := by
  refine ⟨reachable_emails hreach, fun i call hi input hrequest r hresult => ?_⟩
  have hreach' := reachable_of_accounts hreach
  obtain ⟨r', houtcome, rfl⟩ := registration_outcome hreach'.valid hi hrequest hresult
  cases houtcome with
  | refused hbegun =>
      exact ⟨fun _ => hbegun.failed, fun _ => .inr fun row h => absurd h (hbegun.none row)⟩
  | abandoned hrow hfailed =>
      refine ⟨?_, fun h => absurd h hfailed⟩
      rintro (⟨user, huser⟩ | hnone)
      · rw [hresult] at huser
        cases huser
      · obtain ⟨u, hu, hid⟩ := inserted_stays hreach' hi hrow
        exact absurd hid (hnone _ hrow u hu)
  | completed hrow hfailed => exact ⟨fun _ => hfailed, fun _ => .inl ⟨_, hresult⟩⟩

/-! ### A mail server that is down -/

theorem World.initialAccounts_sample : World.sample.InitialAccounts := by
  refine ⟨World.initial_sample, ?_⟩
  unfold World.EmailsUnique
  decide +kernel

/-- A registration of Bo. -/
def sampleRegistration : Incoming :=
  ⟨.register { email := "bo@x.io", password := "Bo 1 is long enough" }, {}⟩

/-- A registration that succeeds. -/
theorem register_atomic_iff_of_success :
    ∃ (c : ServerConfig) (call : ServerCall) (input : RegisterInput) (user : PublicUser),
      sampleRun [.accept fun _ => sampleRegistration, .steps 0 40] = some c ∧
      c.calls[0]? = some call ∧ call.req.request = .register input ∧
      call.result = some (.ok (.registered user)) ∧ c.world.EmailsUnique ∧
      (AtomicRegistration c call ↔ NoneFailed call.log) := by
  have hplay : (sampleRun [.accept fun _ => sampleRegistration, .steps 0 40]).any (fun c =>
      c.calls[0]?.any fun call => decide (call.req = sampleRegistration) &&
        decide (∃ r ∈ call.result, ∃ response ∈ r.toOption, response = .registered
          ⟨sampleUuid 3, "bo@x.io", none, none, .pendingVerification, false, 1000000⟩)) = true := by
    decide +kernel
  obtain ⟨c, hc, hall⟩ := (Option.any_eq_true _ _).1 hplay
  obtain ⟨call, hi, hcall⟩ := (Option.any_eq_true _ _).1 hall
  obtain ⟨hreq, hok⟩ := Bool.and_eq_true_iff.1 hcall
  obtain ⟨r, hresult, response, hresponse, rfl⟩ := of_decide_eq_true hok
  have hrequest : call.req.request =
      .register { email := "bo@x.io", password := "Bo 1 is long enough" } := by
    rw [of_decide_eq_true hreq]
    rfl
  have hreach : (machine .sample).Reachable World.InitialAccounts c :=
    ⟨_, World.initialAccounts_sample, run_of_play hc⟩
  have hsome : r = .ok (.registered
      ⟨sampleUuid 3, "bo@x.io", none, none, .pendingVerification, false, 1000000⟩) := by
    cases r with
    | error e => cases hresponse
    | ok a => exact congrArg Except.ok (Option.some.inj hresponse)
  obtain ⟨hemails, hatomic⟩ := register_atomic_iff hreach
  exact ⟨c, call, _, _, hc, hi, hrequest, hsome ▸ hresult, hemails,
    hatomic 0 call hi _ hrequest r hresult⟩

/-- The registration up to the mail, which cannot be sent, and the same registration again. -/
def unsentMailRun : Option ServerConfig := do
  let c₁ ← sampleRun [.accept fun _ => sampleRegistration, .steps 0 7]
  let c₂ ← (machine .sample).apply c₁ (.fail 0)
  (machine .sample).play Stmt.sampleRandom [.accept fun _ => sampleRegistration, .steps 1 40] c₂

theorem unsentMailRun_reachable (h : unsentMailRun = some c) :
    (machine .sample).Reachable World.InitialAccounts c := by
  obtain ⟨c₁, hc₁, h⟩ := Option.bind_eq_some_iff.1 h
  obtain ⟨c₂, hc₂, h⟩ := Option.bind_eq_some_iff.1 h
  have hrun₁ := run_of_play (M := machine .sample) hc₁
  exact ⟨_, World.initialAccounts_sample, (hrun₁.trans (run_of_apply hc₂)).trans (run_of_play h)⟩

/-- **A mail that cannot be sent leaves an account behind**: the registration fails, and the
next one for the address is refused as a second one. -/
theorem unsent_mail_leaves_account :
    ∃ (c : ServerConfig) (call : ServerCall), (machine .sample).Reachable World.InitialAccounts c ∧
      c.calls[0]? = some call ∧ call.req = sampleRegistration ∧
      call.result = some (.error (machine .sample).fault) ∧ ¬AtomicRegistration c call ∧
      c.calls[1]?.map (·.req) = some sampleRegistration ∧
      c.calls[1]?.bind (·.result) =
        some (.error (.conflictError "Email is already registered")) := by
  have hplay : unsentMailRun.any (fun c => c.calls[0]?.any fun call =>
      decide (call.req = sampleRegistration ∧ call.result = some (.error (.db "08006")) ∧
        (∃ e ∈ call.log, e.op.isFollowUp = true ∧ e.ans.toOption.isNone = true) ∧
        c.calls[1]?.map (·.req) = some sampleRegistration ∧
        c.calls[1]?.bind (·.result) =
          some (.error (.conflictError "Email is already registered")))) = true := by
    decide +kernel
  obtain ⟨c, hc, hall⟩ := (Option.any_eq_true _ _).1 hplay
  obtain ⟨call, hi, hcall⟩ := (Option.any_eq_true _ _).1 hall
  obtain ⟨hreq, hresult, ⟨e, he, hfollow, hans⟩, hagain⟩ := of_decide_eq_true hcall
  have hreach := unsentMailRun_reachable hc
  have hreach' := reachable_of_accounts hreach
  have hrequest : call.req.request =
      .register { email := "bo@x.io", password := "Bo 1 is long enough" } := by
    rw [hreq]
    rfl
  have hfailed : ¬NoneFailed call.log := by
    intro hnone
    obtain ⟨n, pre, s, ans, post⟩ := e
    cases ans with
    | error err =>
        have hno := hnone s err ⟨n, pre, post, he⟩
        rw [hno] at hfollow
        cases hfollow
    | ok a => cases hans
  refine ⟨c, call, hreach, hi, hreq, hresult, ?_, hagain⟩
  obtain ⟨r', houtcome, hr'⟩ := registration_outcome hreach'.valid hi hrequest hresult
  cases houtcome with
  | refused hbegun => exact absurd hbegun.failed hfailed
  | completed _ hnone => exact absurd hnone hfailed
  | abandoned hrow _ =>
      rintro (⟨user, huser⟩ | hnone)
      · rw [hresult] at huser
        cases huser
      · obtain ⟨u, hu, hid⟩ := inserted_stays hreach' hi hrow
        exact hnone _ hrow u hu hid

end IdentityPlatform
