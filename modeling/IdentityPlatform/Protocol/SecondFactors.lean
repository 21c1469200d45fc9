/-
# Second factors

Whether a user has a second factor is recorded twice, as the status of the method and as
`mfa_required` of the user.  Confirming and disabling write one after the other; a new
enrollment writes the first alone, whatever it finds there.
-/

import IdentityPlatform.Interleaving.FollowUp
import IdentityPlatform.Protocol.DisabledAccounts
import IdentityPlatform.Protocol.SessionTokens

namespace IdentityPlatform

open Interleaving Program Relational Machine AuthServer

variable {P : Platform} {c c₀ : ServerConfig} {i j : ℕ} {call : ServerCall} {e : ServerEvent}
  {u : String} {a b : UserRow} {l₀ l l' : ServerLog} {ctx : RequestContext}

/-- A platform as the seed leaves it: nobody has a second factor. -/
structure World.Unenrolled (w : World) : Prop extends World.Initial w where
  methods : w.mfaMethods = []
  required : ∀ a ∈ w.users, a.mfaRequired = false

/-- The user has an active method. -/
def World.HasActive (u : String) (w : World) : Prop :=
  ∃ m ∈ w.mfaMethods, m.userId = u ∧ m.status = .active

instance (w : World) : Decidable (w.HasActive u) := List.decidableBEx ..

/-- The two records of the second factor of the user disagree. -/
def World.Disagrees (u : String) (w : World) : Prop :=
  ∃ a ∈ w.users, a.id = u ∧ ¬(a.mfaRequired = true ↔ w.HasActive u)

theorem reachable_of_unenrolled (h : (machine P).Reachable World.Unenrolled c) :
    (machine P).Reachable World.Initial c := by
  obtain ⟨w, hw, hrun⟩ := h
  exact ⟨w, hw.toInitial, hrun⟩

/-! ### The methods over a run -/

/-- Every user has one method at most, and identifiers are unique. -/
structure World.MethodsSound (w : World) : Prop where
  ids : Keyed MfaMethodRow.id w.mfaMethods w.generated
  owners : (w.mfaMethods.map MfaMethodRow.userId).Nodup
  users : ∀ m ∈ w.mfaMethods, m.userId ∈ w.generated

/-- A method keeps identifier and user. -/
structure MfaMethodRow.Le (a b : MfaMethodRow) : Prop where
  id : b.id = a.id
  userId : b.userId = a.userId

theorem MfaStmt.Updates.le {s : MfaStmt} {now : ℕ} {a b : MfaMethodRow} (h : s.Updates now a b) :
    a.Le b := by
  cases s with
  | hasActive | selectByStatus => exact h.elim
  | _ =>
      obtain ⟨_, rfl⟩ := h
      exact ⟨rfl, rfl⟩

theorem methods_stable (P : Platform) :
    (machine P).Stable fun w w' => Carried MfaMethodRow.Le w.mfaMethods w'.mfaMethods where
  refl w := .refl (fun _ => ⟨rfl, rfl⟩) _
  trans h h' := h.trans (fun a b => ⟨b.id.trans a.id, b.userId.trans a.userId⟩) h'
  exec h := (Stmt.exec_mfaMethods h).carried (fun _ => ⟨rfl, rfl⟩) fun _ _ _ ⟨_, _, hu⟩ => hu.le
  env h := by
    rw [Env.apply_mfaMethods h]
    exact .refl (fun _ => ⟨rfl, rfl⟩) _

theorem methodsSound_answers {s : Stmt} {ans : Except Err s.Ans} {pre post : World}
    (hw : pre.Sound) (h : pre.MethodsSound) (hans : (machine P).Answers s pre ans post) :
    post.MethodsSound := by
  rcases hans with ⟨r, hexec⟩ | ⟨_, rfl⟩
  · have hchanges := Stmt.exec_mfaMethods hexec
    have hle : pre.Le post := Stmt.exec_le hexec
    refine ⟨h.ids.changes (r := r) hchanges (fun a _ b ⟨_, _, hu⟩ => hu.le.id) ?_
      hle.generated, ?_, ?_⟩
    · rintro a ⟨_, _, _, rfl, htaken, _⟩
      exact ⟨rfl, htaken⟩
    · refine hchanges.nodup h.owners (fun a _ b ⟨_, _, hu⟩ => hu.le.userId) ?_
      rintro a ⟨_, _, _, rfl, _, _, hnone⟩ hmem
      obtain ⟨m, hm, hid⟩ := List.mem_map.1 hmem
      exact hnone m hm hid
    · intro m hm
      rcases hchanges.mem_cases hm with ⟨m', hm', rfl | ⟨_, _, hu⟩⟩ | ⟨_, _, _, rfl, _, huser, _⟩
      · exact hle.generated (h.users m hm')
      · exact hle.generated (hu.le.userId ▸ h.users m' hm')
      · obtain ⟨a, ha, hid⟩ := huser
        exact hle.generated (hid ▸ hw.users.ledger a ha)
  · exact h

theorem World.MethodsSound.env {e : Env} {w w' : World} (h : w.MethodsSound)
    (hw : Env.apply w e = some w') : w'.MethodsSound := by
  have hle : w.Le w' := Env.apply_le hw
  have hsame := Env.apply_mfaMethods hw
  refine ⟨⟨hsame ▸ h.ids.nodup, fun m hm => ?_⟩, hsame ▸ h.owners, fun m hm => ?_⟩
  · exact hle.generated (h.ids.ledger m (hsame ▸ hm))
  · exact hle.generated (h.users m (hsame ▸ hm))

/-- **The methods are sound in every state of every run.** -/
theorem reachable_methods (hreach : (machine P).Reachable World.Unenrolled c) :
    c.world.MethodsSound ∧ ∀ (i : ℕ) call, c.calls[i]? = some call → ∀ e ∈ call.log,
      e.pre.MethodsSound ∧ e.post.MethodsSound := by
  have hall := hreach.holds (J := fun w => w.Sound ∧ w.MethodsSound) (fun w hw => ?_)
    (fun e w w' hw h => ⟨Env.apply_sound hw h.1, h.2.env hw⟩)
    fun s pre ans post h hans => ⟨answers_sound h.1 hans, methodsSound_answers h.1 h.2 hans⟩
  · exact ⟨hall.1.2, fun i call hi e he =>
      ⟨(hall.2 i call hi e he).1.2, (hall.2 i call hi e he).2.2⟩⟩
  · refine ⟨hw.toInitial.sound, ⟨?_, ?_⟩, ?_, ?_⟩ <;> simp [hw.methods]

/-- A user has one method. -/
theorem World.MethodsSound.unique {w : World} (h : w.MethodsSound) {m m' : MfaMethodRow}
    (hm : m ∈ w.mfaMethods) (hm' : m' ∈ w.mfaMethods) (huser : m.userId = m'.userId) : m = m' :=
  eq_of_key h.owners hm hm' huser

/-! ### What an event does to a second factor -/

/-- A method that is active was active with the same secret, or it is activated. -/
theorem active_cases (hv : (machine P).Valid c) (hi : c.calls[i]? = some call)
    (he : e ∈ call.log) {m : MfaMethodRow} (hm : m ∈ e.post.mfaMethods)
    (hactive : m.status = .active) :
    ∃ a ∈ e.pre.mfaMethods, a.userId = m.userId ∧ a.secret = m.secret ∧ (a.status = .active ∨
      ∃ n pre post, e = ⟨n, pre, .mfaMethods (.activate m.userId), .ok (), post⟩) := by
  have hanswers := hv.answers hi e he
  obtain ⟨n, pre, s, ans, post⟩ := e
  rcases hanswers with ⟨r, hexec⟩ | ⟨_, hpost⟩
  · cases ans with
    | error _ =>
        obtain ⟨⟨ledger, hfailed⟩, _⟩ := Stmt.exec_failed hexec
        obtain rfl : post = { pre with generated := ledger } := hfailed
        exact ⟨m, hm, rfl, rfl, .inl hactive⟩
    | ok v =>
        rcases (Stmt.exec_mfaMethods hexec).mem_cases hm with ⟨a, ha, rfl | ⟨s, rfl, hu⟩⟩ |
          ⟨_, _, _, rfl, _⟩
        · exact ⟨m, ha, rfl, rfl, .inl hactive⟩
        · cases s with
          | activate userId =>
              obtain ⟨rfl, rfl⟩ := hu
              exact ⟨a, ha, rfl, rfl, .inr ⟨n, pre, post, rfl⟩⟩
          | touchUsed id =>
              obtain ⟨_, rfl⟩ := hu
              exact ⟨a, ha, rfl, rfl, .inl hactive⟩
          | upsertPending | disable =>
              obtain ⟨_, rfl⟩ := hu
              cases hactive
          | hasActive | selectByStatus => exact hu.elim
        · cases hactive
  · obtain rfl : post = pre := hpost
    exact ⟨m, hm, rfl, rfl, .inl hactive⟩

/-- **How a method becomes active**: it is activated. -/
theorem activated_cases (hv : (machine P).Valid c) (hi : c.calls[i]? = some call)
    (he : e ∈ call.log) (hpre : ¬e.pre.HasActive u) (hpost : e.post.HasActive u) :
    ∃ n pre post, e = ⟨n, pre, .mfaMethods (.activate u), .ok (), post⟩ := by
  obtain ⟨m, hm, rfl, hactive⟩ := hpost
  obtain ⟨a, ha, huser, _, hwas | hactivated⟩ := active_cases hv hi he hm hactive
  · exact absurd ⟨a, ha, huser, hwas⟩ hpre
  · exact hactivated

/-- **How a method ceases to be active**: it is disabled, or enrolled again. -/
theorem deactivated_cases (hv : (machine P).Valid c) (hi : c.calls[i]? = some call)
    (he : e ∈ call.log) (hpre : e.pre.HasActive u) (hpost : ¬e.post.HasActive u) :
    (∃ n pre secret post, e = ⟨n, pre, .mfaMethods (.upsertPending u secret), .ok (), post⟩) ∨
      ∃ n pre m post, e = ⟨n, pre, .mfaMethods (.disable m.id), .ok (), post⟩ ∧
        m ∈ pre.mfaMethods ∧ m.userId = u ∧ m.status = .active := by
  have hanswers := hv.answers hi e he
  obtain ⟨n, pre, s, ans, post⟩ := e
  obtain ⟨m, hm, rfl, hactive⟩ := hpre
  have hnot : ∀ b ∈ post.mfaMethods, b.userId = m.userId → b.status ≠ .active :=
    fun b hb huser hstatus => hpost ⟨b, hb, huser, hstatus⟩
  rcases hanswers with ⟨r, hexec⟩ | ⟨_, hpost⟩
  · cases ans with
    | error _ =>
        obtain ⟨⟨ledger, hfailed⟩, _⟩ := Stmt.exec_failed hexec
        obtain rfl : post = { pre with generated := ledger } := hfailed
        exact absurd hactive (hnot m hm rfl)
    | ok v =>
        obtain ⟨b, hb, rfl | ⟨s, rfl, hu⟩⟩ := (Stmt.exec_mfaMethods hexec).mem_of_mem hm
        · exact absurd hactive (hnot b hb rfl)
        · cases s with
          | upsertPending userId secret =>
              obtain ⟨rfl, rfl⟩ := hu
              exact .inl ⟨n, pre, secret, post, rfl⟩
          | disable id =>
              obtain ⟨rfl, rfl⟩ := hu
              exact .inr ⟨n, pre, m, post, rfl, hm, rfl, hactive⟩
          | activate userId =>
              obtain ⟨_, rfl⟩ := hu
              exact (hnot _ hb rfl rfl).elim
          | touchUsed id =>
              obtain ⟨_, rfl⟩ := hu
              exact (hnot _ hb rfl hactive).elim
          | hasActive | selectByStatus => exact hu.elim
  · obtain rfl : post = pre := hpost
    exact absurd hactive (hnot m hm rfl)

/-- Only one statement changes `mfa_required`. -/
theorem UserStmt.change_mfaRequired (s : UserStmt) (now : ℕ) (a : UserRow) :
    (s.change now a).mfaRequired = a.mfaRequired ∨
      ∃ id value, s = .setMfaRequired id value ∧ (s.change now a).mfaRequired = value := by
  cases s with
  | setMfaRequired id value => exact .inr ⟨id, value, rfl, rfl⟩
  | markVerified | lockUntil =>
      simp only [UserStmt.change]
      split_ifs <;> exact .inl rfl
  | _ => exact .inl rfl

/-- **How the two records come to disagree**: one of them is written. -/
theorem disagrees_cases (hreach : (machine P).Reachable World.Unenrolled c)
    (hi : c.calls[i]? = some call) (he : e ∈ call.log) (hpre : ¬e.pre.Disagrees u)
    (hpost : e.post.Disagrees u) :
    (∃ n pre value post, e = ⟨n, pre, .users (.setMfaRequired u value), .ok (), post⟩) ∨
      ¬(e.pre.HasActive u ↔ e.post.HasActive u) := by
  refine or_iff_not_imp_right.2 fun hsame => ?_
  have hsame := not_not.1 hsame
  obtain ⟨b, hb, rfl, hnot⟩ := hpost
  rw [← hsame] at hnot
  rcases event_user_cases hreach.valid hi he hb with
    ⟨a, ha, hid, rfl | ⟨n, pre, s, v, post, rfl, htarget, rfl⟩⟩ |
    ⟨hfresh, _, _, _, _, _, _, rfl⟩
  · exact absurd ⟨b, ha, rfl, hnot⟩ hpre
  · rcases s.change_mfaRequired pre.now a with heq | ⟨id, value, rfl, _⟩
    · rw [heq, hid] at hnot
      exact absurd ⟨a, ha, hid.symm, by rwa [hid]⟩ hpre
    · obtain rfl := Option.some.inj htarget
      exact ⟨n, pre, value, post, rfl⟩
  · -- nobody has a method before the account exists
    have hmethods := ((reachable_methods hreach).2 i call hi e he).1
    refine (hnot (Iff.intro (fun h => by cases h) ?_)).elim
    rintro ⟨m, hm, huser, _⟩
    exact absurd (huser ▸ hmethods.users m hm) hfresh

/-! ### Confirming and disabling -/

/-- The event activates or disables a method. -/
inductive IsSwitch : ServerEvent → Prop
  | activate {n pre u post} : IsSwitch ⟨n, pre, .mfaMethods (.activate u), .ok (), post⟩
  | disable {n pre id post} : IsSwitch ⟨n, pre, .mfaMethods (.disable id), .ok (), post⟩

/-- The event switches the second factor of the user on or off, after the log `l`. -/
inductive Switches (l : ServerLog) (u : String) : Bool → ServerEvent → Prop
  | on {n pre post} : Switches l u true ⟨n, pre, .mfaMethods (.activate u), .ok (), post⟩
  | off {n pre method post}
      (read : Log.Saw l (.mfaMethods (.selectByStatus u .active)) (.ok (some method))) :
      Switches l u false ⟨n, pre, .mfaMethods (.disable method.id), .ok (), post⟩

/-- After a method has been switched: the call has recorded it since, or tried to. -/
def SwitchRecorded (e : ServerEvent) (l l' : ServerLog) : Prop :=
  IsSwitch e → ∃ u value r, Switches l u value e ∧
    Log.SawSince (e :: l) l' (.users (.setMfaRequired u value)) r

theorem SwitchRecorded.mono (h : SwitchRecorded e l₀ l) (hl : l <:+ l') :
    SwitchRecorded e l₀ l' := by
  intro hswitch
  obtain ⟨u, value, r, hs, hsaw⟩ := h hswitch
  exact ⟨u, value, r, hs, hsaw.mono (List.suffix_refl _) hl⟩

/-- The statement switches no method. -/
def Stmt.SwitchesNone (_ : ServerLog) : Stmt → Prop
  | .mfaMethods (.activate _) | .mfaMethods (.disable _) => False
  | _ => True

theorem switchRecorded_of_switchesNone {α : Type} {p : Prog α}
    (h : Respects Stmt.SwitchesNone l₀ p) : Settles SwitchRecorded l₀ p :=
  h.settles fun e _ _ hnone hswitch => by cases hswitch <;> exact hnone.elim

theorem switchRecorded_of_plain {α : Type} {p : Prog α} (h : Respects Stmt.Plain l₀ p) :
    Settles SwitchRecorded l₀ p :=
  switchRecorded_of_switchesNone <| h.mono fun l s _ hs => by
    unfold Stmt.SwitchesNone
    split <;> trivial

/-- A switch is directly followed by its record. -/
theorem switch_settles {s : MfaStmt} {value : Bool} (h : ∀ n pre v post,
      IsSwitch ⟨n, pre, .mfaMethods s, .ok v, post⟩ →
        Switches l₀ u value ⟨n, pre, .mfaMethods s, .ok v, post⟩) :
    Settles SwitchRecorded l₀ (do
      let _ ← query (.mfaMethods s)
      query (.users (.setMfaRequired u value)) : Prog Unit) := by
  refine .perform_bind (fun n pre err post hswitch => by cases hswitch) ?_ fun l₁ _ _ => ?_
  · intro n pre v post l r hset hswitch
    exact ⟨u, value, r, h n pre v post hswitch, _, List.suffix_refl _, Returns.step hset⟩
  · exact switchRecorded_of_switchesNone (respects_query.2 trivial)

theorem confirmEnroll_settles {code : String} :
    Settles SwitchRecorded l₀ (MfaService.confirmEnroll u code) := by
  refine .bind SwitchRecorded.mono (switchRecorded_of_plain (by simp [Stmt.Plain])) fun l₁ _ _ => ?_
  refine .bind SwitchRecorded.mono (switchRecorded_of_plain (by simp)) fun l₂ method _ => ?_
  refine .bind SwitchRecorded.mono (switchRecorded_of_plain (by simp [Stmt.Plain])) fun l₃ _ _ => ?_
  refine .bind SwitchRecorded.mono (switchRecorded_of_plain (by simp)) fun l₄ _ _ => ?_
  refine switch_settles fun n pre v post hswitch => ?_
  cases hswitch
  exact .on

theorem disable_settles {code : String} :
    Settles SwitchRecorded l₀ (MfaService.disable u code) := by
  refine .bind SwitchRecorded.mono (switchRecorded_of_plain (by simp [Stmt.Plain]))
    fun l₁ _ h₁ => ?_
  refine .bind SwitchRecorded.mono (switchRecorded_of_plain (by simp)) fun l₂ method h₂ => ?_
  refine .bind SwitchRecorded.mono (switchRecorded_of_plain (by simp [Stmt.Plain]))
    fun l₃ _ h₃ => ?_
  refine .bind SwitchRecorded.mono (switchRecorded_of_plain (by simp)) fun l₄ _ h₄ => ?_
  refine switch_settles fun n pre v post hswitch => ?_
  obtain ⟨rfl, rfl⟩ := returns_orThrow_ok.1 h₂
  cases hswitch
  exact .off (h₁.saw.mono (h₃.suffix.trans h₄.suffix))

/-- A call that has returned has recorded the methods it has switched, or tried to. -/
theorem returned_recorded (hv : (machine P).Valid c) (hi : c.calls[i]? = some call)
    (hdone : call.result.isSome) (hl : e :: l <:+ call.log) : SwitchRecorded e l call.log := by
  intro hswitch
  obtain ⟨r, hr⟩ := Option.isSome_iff_exists.1 hdone
  have hreturns := hv.returned hi hr
  obtain ⟨l', hl', hjust⟩ := justified_event hv hi (hl.subset (List.mem_cons_self ..))
  have hrequest : (∃ bearer code, call.req.request = .mfaVerify bearer (.enrollment code)) ∨
      ∃ bearer code, call.req.request = .mfaDisable bearer code := by
    cases hswitch with
    | activate =>
        obtain ⟨bearer, code, _, hrequest, _⟩ := hjust
        exact .inl ⟨bearer, code, hrequest⟩
    | disable =>
        obtain ⟨bearer, code, _, _, hrequest, _⟩ := hjust
        exact .inr ⟨bearer, code, hrequest⟩
  have hsettles : Settles SwitchRecorded [] ((machine P).handler call.req) := by
    change Settles _ _ (AuthServer.handler P call.req)
    unfold AuthServer.handler
    rcases hrequest with ⟨bearer, code, hrequest⟩ | ⟨bearer, code, hrequest⟩
    · rw [hrequest]
      refine .bind SwitchRecorded.mono (switchRecorded_of_plain (by simp)) fun l₁ _ _ => ?_
      refine .bind SwitchRecorded.mono (switchRecorded_of_plain (by simp)) fun l₂ user _ => ?_
      exact .bind SwitchRecorded.mono confirmEnroll_settles fun l₃ _ _ =>
        switchRecorded_of_plain (by simp)
    · rw [hrequest]
      refine .bind SwitchRecorded.mono (switchRecorded_of_plain (by simp)) fun l₁ user _ => ?_
      exact .bind SwitchRecorded.mono disable_settles fun l₂ _ _ =>
        switchRecorded_of_plain (by simp)
  exact hsettles.settled hreturns hl hswitch

/-! ### Second factors in order -/

/-- The status of the second factor of the user is `value`. -/
def World.FactorIs (u : String) (value : Bool) (w : World) : Prop := w.HasActive u ↔ value = true

/-- **Second factors are switched in order**: no enrollment finds an active method, no
method gets a new secret between the check of a code and its being disabled, and when a
method has been switched, this is recorded before it is switched again. -/
structure FactorsInOrder (c : ServerConfig) : Prop where
  enrolled : ∀ (i : ℕ) call, c.calls[i]? = some call → ∀ n pre u secret post,
    (⟨n, pre, .mfaMethods (.upsertPending u secret), .ok (), post⟩ : ServerEvent) ∈ call.log →
      ¬pre.HasActive u
  current : ∀ (i : ℕ) call, c.calls[i]? = some call → ∀ n pre m u method post l,
    (⟨n, pre, .mfaMethods (.disable m.id), .ok (), post⟩ : ServerEvent) :: l <:+ call.log →
      m ∈ pre.mfaMethods → m.status = .active →
      Log.Saw l (.mfaMethods (.selectByStatus u .active)) (.ok (some method)) →
      method.id = m.id → method.secret = m.secret
  recorded : ∀ (i : ℕ) call, c.calls[i]? = some call → ∀ e l u value, e :: l <:+ call.log →
    Switches l u value e → ∀ err,
      ¬Log.SawSince (e :: l) call.log (.users (.setMfaRequired u value)) (.error err)
  undisturbed : ∀ (i : ℕ) call, c.calls[i]? = some call → ∀ e l u value, e :: l <:+ call.log →
    Switches l u value e → ∀ e' ∈ call.log, e'.op = .users (.setMfaRequired u value) →
      ¬Loses (World.FactorIs u value) (e.seq + 1) e'.seq c

/-- A method that was read is still there, of the same user. -/
theorem method_found (hreach : (machine P).Reachable World.Initial c)
    (hi : c.calls[i]? = some call) {status : MfaStatus} {method : MfaMethodRow}
    (hl : e :: l <:+ call.log)
    (h : Log.Saw l (.mfaMethods (.selectByStatus u status)) (.ok (some method))) :
    ∃ m ∈ e.pre.mfaMethods, m.id = method.id ∧ m.userId = u := by
  obtain ⟨n, pre, post, hmem⟩ := h
  have hlog := ((List.suffix_cons e l).trans hl).subset hmem
  obtain ⟨hread, huser, _⟩ := Stmt.selectByStatus_answer (executed hreach.valid hi hlog)
  have hord := hreach.ordered (methods_stable P)
  have hcarried : Carried MfaMethodRow.Le pre.mfaMethods e.pre.mfaMethods :=
    (methods_stable P).trans (hord.answer hi _ hlog) (hord.earlier hreach.valid hi hl hmem)
  obtain ⟨m, hm, hle⟩ := hcarried method hread
  exact ⟨m, hm, hle.id, hle.userId.trans huser⟩

/-- A second factor that has just been switched is what it has been switched to. -/
theorem factor_of_switches (hreach : (machine P).Reachable World.Unenrolled c)
    (hi : c.calls[i]? = some call) {value : Bool} (hl : e :: l <:+ call.log)
    (h : Switches l u value e) : e.post.FactorIs u value := by
  have hinitial := reachable_of_unenrolled hreach
  have he := hl.subset (List.mem_cons_self ..)
  cases h with
  | on =>
      obtain ⟨l', hl', hjust⟩ := justified_event hreach.valid hi he
      obtain ⟨_, _, method, _, hread, _⟩ := hjust
      obtain ⟨m, hm, _, huser⟩ := method_found hinitial hi hl' hread
      have hpost := Stmt.updateMethod_answer (executed hreach.valid hi he) hm ⟨huser, rfl⟩
      exact iff_of_true ⟨_, hpost, huser, rfl⟩ rfl
  | @off n pre method post read =>
      obtain ⟨m, hm, hid, huser⟩ := method_found hinitial hi hl read
      have hpost := Stmt.updateMethod_answer (executed hreach.valid hi he) hm ⟨hid, rfl⟩
      have hmethods := ((reachable_methods hreach).2 i call hi _ he).2
      refine iff_of_false ?_ (by simp)
      rintro ⟨m', hm', huser', hactive⟩
      obtain rfl := hmethods.unique hm' hpost (huser'.trans huser.symm)
      cases hactive

/-- The environment switches nothing. -/
theorem World.FactorIs.env {value : Bool} {e : Env} {w w' : World}
    (hw : Env.apply w e = some w') (h : w.FactorIs u value) : w'.FactorIs u value := by
  rwa [World.FactorIs, World.HasActive, Env.apply_mfaMethods hw]

/-- What is not about methods switches nothing. -/
theorem hasActive_iff_of_users (hv : (machine P).Valid c) (hi : c.calls[i]? = some call) {n : ℕ}
    {pre post : World} {s : UserStmt} {ans : Except Err s.Ans}
    (he : (⟨n, pre, .users s, ans, post⟩ : ServerEvent) ∈ call.log) :
    pre.HasActive u ↔ post.HasActive u := by
  constructor
  · intro hpre
    by_contra hpost
    rcases deactivated_cases hv hi he hpre hpost with ⟨_, _, _, _, heq⟩ | ⟨_, _, _, _, heq, _⟩ <;>
      cases heq
  · intro hpost
    by_contra hpre
    obtain ⟨_, _, _, heq⟩ := activated_cases hv hi he hpre hpost
    cases heq

/-- **Once it is recorded, a switch is no disagreement.** -/
theorem agrees_after (hreach : (machine P).Reachable World.Unenrolled c) (horder : FactorsInOrder c)
    (hi : c.calls[i]? = some call) {value : Bool} (hl : e :: l <:+ call.log)
    (hswitches : Switches l u value e) {n : ℕ} {pre post : World}
    (he : (⟨n, pre, .users (.setMfaRequired u value), .ok (), post⟩ : ServerEvent) ∈ call.log)
    (hlt : e.seq < n) : ¬post.Disagrees u := by
  rintro ⟨b, hb, hid, hnot⟩
  have hv := hreach.valid
  have hmem := hl.subset (List.mem_cons_self ..)
  have hpost : e.post.FactorIs u value := factor_of_switches hreach hi hl hswitches
  have hpre : pre.FactorIs u value := by
    by_contra hlost
    exact horder.undisturbed i call hi e l u value hl hswitches _ he rfl
      (hreach.lost_between (fun _ _ _ => World.FactorIs.env) hi hi hmem he hlt hpost hlost)
  have hflag := Stmt.setMfaRequired_answer (executed hv hi he) hb hid
  rw [← hasActive_iff_of_users hv hi he, hflag] at hnot
  exact hnot hpre.symm

/-- The event disables the active method of the user, and its call has validated a code
against the secret of it. -/
def DisabledByCode (u : String) (call : ServerCall) (e : ServerEvent) : Prop :=
  ∃ l code method m, e :: l <:+ call.log ∧ CheckedMethod l u code .active method ∧
    m ∈ e.pre.mfaMethods ∧ m.userId = u ∧ m.status = .active ∧ method.secret = m.secret

theorem disabledByCode_of_order (hreach : (machine P).Reachable World.Unenrolled c)
    (horder : FactorsInOrder c) (hi : c.calls[i]? = some call) (he : e ∈ call.log)
    (hpre : e.pre.HasActive u) (hpost : ¬e.post.HasActive u) : DisabledByCode u call e := by
  have hv := hreach.valid
  rcases deactivated_cases hv hi he hpre hpost with ⟨n, pre, secret, post, rfl⟩ |
    ⟨n, pre, m, post, rfl, hm, huser, hactive⟩
  · exact absurd hpre (horder.enrolled i call hi n pre u secret post he)
  · obtain ⟨l, hl, bearer, code, userId, method, _, hchecked, hid⟩ := justified_event hv hi he
    have hinitial := reachable_of_unenrolled hreach
    obtain ⟨m', hm', hid', huser'⟩ := method_found hinitial hi hl hchecked.1
    have hmethods := ((reachable_methods hreach).2 i call hi _ he).1
    obtain rfl := eq_of_key hmethods.ids.nodup hm' hm (hid'.trans hid)
    obtain rfl : userId = u := huser'.symm.trans huser
    exact ⟨l, code, method, m', hl, hchecked, hm, huser, hactive,
      horder.current i call hi n pre m' userId method post l hl hm hactive hchecked.1 hid⟩

/-- In a run in order, a call that has returned and has changed whether the method is
active has tried to record that. -/
theorem changed_recorded (hreach : (machine P).Reachable World.Unenrolled c)
    (horder : FactorsInOrder c) (hi : c.calls[i]? = some call) (hdone : call.result.isSome)
    (hl : e :: l <:+ call.log) (hchanged : ¬(e.pre.HasActive u ↔ e.post.HasActive u)) :
    ∃ value r, Switches l u value e ∧
      Log.SawSince (e :: l) call.log (.users (.setMfaRequired u value)) r := by
  have hv := hreach.valid
  have he := hl.subset (List.mem_cons_self ..)
  have hrecorded := returned_recorded hv hi hdone hl
  by_cases hpre : e.pre.HasActive u
  · have hpost : ¬e.post.HasActive u := fun h => hchanged (iff_of_true hpre h)
    rcases deactivated_cases hv hi he hpre hpost with ⟨n, pre, secret, post, rfl⟩ |
      ⟨n, pre, m, post, rfl, hm, huser, _⟩
    · exact absurd hpre (horder.enrolled i call hi n pre u secret post he)
    · obtain ⟨u', value, r, hswitches, hsaw⟩ := hrecorded .disable
      have hmethods := ((reachable_methods hreach).2 i call hi _ he).1
      obtain rfl : u' = u := by
        generalize hevent : (⟨n, pre, .mfaMethods (.disable m.id), .ok (), post⟩ : ServerEvent) = e
          at hswitches
        cases hswitches with
        | on => cases hevent
        | off read =>
            injection hevent with _ _ hop
            obtain ⟨m', hm', hid', huser'⟩ :=
              method_found (reachable_of_unenrolled hreach) hi hl read
            injection hop with hop
            injection hop with hid
            obtain rfl := eq_of_key hmethods.ids.nodup hm' hm (hid'.trans hid.symm)
            exact huser'.symm.trans huser
      exact ⟨value, r, hswitches, hsaw⟩
  · have hpost : e.post.HasActive u := by
      by_contra h
      exact hchanged (iff_of_false hpre h)
    obtain ⟨n, pre, post, rfl⟩ := activated_cases hv hi he hpre hpost
    obtain ⟨u', value, r, hswitches, hsaw⟩ := hrecorded .activate
    cases hswitches
    exact ⟨true, r, .on, hsaw⟩

/-- Whenever no call is in progress, the two records agree. -/
theorem records_agree (hreach : (machine P).Reachable World.Unenrolled c)
    (horder : FactorsInOrder c)
    (hdone : ∀ (i : ℕ) call, c.calls[i]? = some call → call.result.isSome) :
    ¬c.world.Disagrees u := by
  intro hnow
  have hv := hreach.valid
  obtain ⟨w, hw, hrun⟩ := id hreach
  have h₀ : ¬w.Disagrees u := by
    rintro ⟨a, ha, rfl, hnot⟩
    refine hnot (iff_of_false (by simp [hw.required a ha]) ?_)
    rintro ⟨m, hm, _⟩
    rw [hw.methods] at hm
    cases hm
  obtain ⟨i, call, e, hi, he, hpre, hpost, hlast⟩ := hrun.introduced_last
    (H := World.Disagrees u) (.initial w) h₀ hnow fun e w w' hw h => by
      rwa [World.Disagrees, World.HasActive, (Env.apply_rows hw).1, Env.apply_mfaMethods hw] at h
  rcases disagrees_cases hreach hi he hpre hpost with ⟨n, pre, value, post, rfl⟩ | hchanged
  · -- the record of a switch
    obtain ⟨l, hl, hjust⟩ := justified_event hv hi he
    generalize call.req.request = request at hjust
    cases hjust with
    | enabled activated =>
        obtain ⟨n₀, pre₀, post₀, rfl⟩ := activated
        exact agrees_after hreach horder hi ((List.suffix_cons ..).trans hl) .on he
          (hv.earlier hi hl (List.mem_cons_self ..)) hpost
    | disabled _ checked disabled =>
        obtain ⟨n₀, pre₀, post₀, rfl⟩ := disabled
        obtain ⟨n₁, pre₁, post₁, hread⟩ := checked.1
        rcases List.mem_cons.1 hread with heq | hread
        · cases heq
        · exact agrees_after hreach horder hi ((List.suffix_cons ..).trans hl)
            (.off ⟨n₁, pre₁, post₁, hread⟩) he (hv.earlier hi hl (List.mem_cons_self ..)) hpost
  · -- a switch, which is recorded later
    obtain ⟨l, hl, _⟩ := justified_event hv hi he
    obtain ⟨value, r, hswitches, hsaw⟩ :=
      changed_recorded hreach horder hi (hdone i call hi) hl hchanged
    cases r with
    | error err => exact horder.recorded i call hi e l u value hl hswitches err hsaw
    | ok v =>
        obtain ⟨l', hl', n, pre, post, hset⟩ := hsaw
        have hlater : e.seq < n := hv.earlier hi hset (hl'.subset (List.mem_cons_self ..))
        have hmem := hset.subset (List.mem_cons_self ..)
        exact agrees_after hreach horder hi hl hswitches hmem hlater (hlast i call hi _ hmem hlater)

/-- A login that hands out tokens has found no active method. -/
theorem login_without_factor (hv : (machine P).Valid c) (hi : c.calls[i]? = some call)
    {email password : String} (hrequest : call.req.request = .login email password)
    (h : ReceivesTokens u call) : ∃ e ∈ call.log, ¬e.pre.HasActive u := by
  obtain ⟨_, response, token, hresult, htoken, rfl⟩ := h
  have hgrant := granted (hv.returned hi hresult) htoken
  rw [hrequest] at hgrant
  cases hgrant with
  | @login _ _ row session result grant =>
      obtain rfl := Option.some.inj htoken
      obtain ⟨roles, permissions, _, hsigned⟩ := grant.tokens.access
      have hsub := hsigned.sub hv hi
      obtain ⟨kid, jti, now, _, n, pre, post, hsign⟩ := hsigned
      obtain ⟨l, hl, hjust⟩ := justified_event hv hi hsign
      rcases hjust with ⟨input, _, _, hreason, _, _, hpayload⟩ | ⟨_, _, _, _, _, hpayload⟩
      · have huser : input.sub = row.id := (congrArg JwtPayload.sub hpayload).symm
        rw [hrequest] at hreason
        cases hreason with
        | login _ created user _ =>
            obtain ⟨l₁, l₂, l₃, ⟨n, pre, post, rfl⟩, ⟨n', pre', post', rfl⟩, hs⟩ := created
            have hmem : (⟨n, pre, .mfaMethods (.hasActive _), .ok false, post⟩ : ServerEvent) ∈
                call.log :=
              ((hs.trans (List.suffix_cons _ l)).trans hl).subset
                (List.mem_cons_of_mem _ (List.mem_cons_self ..))
            refine ⟨_, hmem, ?_⟩
            rintro ⟨m, hm, hid, hactive⟩
            have hanswer := Stmt.hasActive_answer (executed hv hi hmem)
            have hnone := List.any_eq_false.1 hanswer.symm m hm
            rw [hsub, ← huser, ← user] at hid
            simp [hid, hactive] at hnone
        | refresh h | challenge h | exchange h | oauthRefresh h | clientCredentials h => cases h
      · cases congrArg JwtPayload.scope hpayload

/-- **Second factors are kept in order.**  In a run in which they are switched in order,
a method ceases to be active only in a call that has validated a code against its secret;
whenever no call is in progress, `mfa_required` says whether the method is active; and if
a user with an active method is handed tokens by a later login, such a call has come in
between. -/
theorem second_factor_kept (hreach : (machine P).Reachable World.Unenrolled c)
    (horder : FactorsInOrder c) :
    (∀ (i : ℕ) call u, c.calls[i]? = some call → ∀ e ∈ call.log, e.pre.HasActive u →
      ¬e.post.HasActive u → DisabledByCode u call e) ∧
    ((∀ (i : ℕ) call, c.calls[i]? = some call → call.result.isSome) →
      ∀ a ∈ c.world.users, (a.mfaRequired = true ↔ c.world.HasActive a.id)) ∧
    ∀ c₀ (j : ℕ) login u email password, (machine P).Reachable World.Unenrolled c₀ →
      (machine P).Run c₀ c → c₀.world.HasActive u → c₀.calls.length ≤ j →
      c.calls[j]? = some login → login.req.request = .login email password →
      ReceivesTokens u login → ∃ (i : ℕ) (call : ServerCall) (e : ServerEvent),
        c.calls[i]? = some call ∧ e ∈ call.log ∧ c₀.seq ≤ e.seq ∧ DisabledByCode u call e := by
  have hv := hreach.valid
  refine ⟨fun i call u hi e he => disabledByCode_of_order hreach horder hi he, fun hdone a ha => ?_,
    fun c₀ j login u email password h₀ hrun hactive hnew hj hrequest htokens => ?_⟩
  · by_contra hnot
    exact records_agree hreach horder hdone ⟨a, ha, rfl, hnot⟩
  · obtain ⟨e, he, hnone⟩ := login_without_factor hv hj hrequest htokens
    have hseq := (hrun.startSeq_of_new hj hnew).trans (hv.start_lt hj e he).le
    obtain ⟨i, call, e', hi, he', hle, _, hpre, hpost⟩ :=
      hrun.lost (K := World.HasActive u) h₀.valid hactive
        (fun e w w' hw h => by rwa [World.HasActive, Env.apply_mfaMethods hw]) hj he hseq hnone
    exact ⟨i, call, e', hi, he', hle, disabledByCode_of_order hreach horder hi he' hpre hpost⟩

/-! ### Two runs -/

/-- The event enrolls a user with an active method. -/
def enrollsActive : ServerEvent → Bool
  | ⟨_, pre, .mfaMethods (.upsertPending u _), .ok (), _⟩ => decide (pre.HasActive u)
  | _ => false

/-- The event switches a method. -/
def isSwitch : ServerEvent → Bool
  | ⟨_, _, .mfaMethods (.activate _), .ok (), _⟩
  | ⟨_, _, .mfaMethods (.disable _), .ok (), _⟩ => true
  | _ => false

/-- The secret of an active method that the event reads. -/
def secretRead : ServerEvent → Option String
  | ⟨_, _, .mfaMethods (.selectByStatus _ .active), .ok (some method), _⟩ => some method.secret
  | _ => none

/-- The event records whether a user has a second factor. -/
def isRecord : ServerEvent → Bool
  | ⟨_, _, .users (.setMfaRequired ..), _, _⟩ => true
  | _ => false

/-- What is in order of two events of a log: a switch finds the secrets that have been
read, and no other step comes between it and its record. -/
def pairInOrder (e e' : ServerEvent) : Bool :=
  !isSwitch e || ((secretRead e').all (fun secret => e.pre.mfaMethods.all (·.secret = secret)) &&
    (!isRecord e' || decide (e'.seq ≤ e.seq + 1)))

/-- A check of a log that is enough where one call comes after the other. -/
def logInOrder (log : ServerLog) : Bool :=
  log.all fun e => e.ans.isOk && !enrollsActive e && log.all (pairInOrder e)

theorem factorsInOrder_of_logs (h : ∀ call ∈ c.calls, logInOrder call.log = true) :
    FactorsInOrder c := by
  have hevent : ∀ {i : ℕ} {call}, c.calls[i]? = some call → ∀ e ∈ call.log, e.ans.isOk = true ∧
      enrollsActive e = false ∧ ∀ e' ∈ call.log, pairInOrder e e' = true := by
    intro i call hi e he
    have hlog := List.all_eq_true.1 (h call (List.mem_of_getElem? hi)) e he
    simp only [Bool.and_eq_true, Bool.not_eq_true'] at hlog
    exact ⟨hlog.1.1, hlog.1.2, List.all_eq_true.1 hlog.2⟩
  constructor
  · intro i call hi n pre u secret post he
    exact of_decide_eq_false (hevent hi _ he).2.1
  · intro i call hi n pre m u method post l hl hm _ hread _
    obtain ⟨n', pre', post', hmem⟩ := hread
    have hpair := (hevent hi _ (hl.subset (List.mem_cons_self ..))).2.2 _
      (hl.subset (List.mem_cons_of_mem _ hmem))
    simp only [pairInOrder, isSwitch, secretRead, Option.all_some, Bool.not_true, Bool.false_or,
      Bool.and_eq_true, List.all_eq_true, decide_eq_true_eq] at hpair
    exact (hpair.1 m hm).symm
  · rintro i call hi e l u value hl _ err hsaw
    obtain ⟨n, pre, post, hmem⟩ := hsaw.saw
    cases (hevent hi _ hmem).1
  · rintro i call hi e l u value hl hswitches e' he' hop ⟨_, _, e'', _, _, hle, hlt, _⟩
    have hpair := (hevent hi _ (hl.subset (List.mem_cons_self ..))).2.2 _ he'
    have hswitch : isSwitch e = true := by cases hswitches <;> rfl
    have hrecord : isRecord e' = true := by
      obtain ⟨n, pre, op, ans, post⟩ := e'
      subst hop
      rfl
    simp only [pairInOrder, hswitch, hrecord, Bool.not_true, Bool.false_or, Bool.and_eq_true,
      decide_eq_true_eq] at hpair
    omega

theorem unenrolled_sample : World.sample.Unenrolled :=
  { World.initial_sample with methods := rfl, required := by decide }

/-- The user of the newest token disables the second factor. -/
def disableMoves (i : ℕ) : List (Move World Incoming Env) :=
  [.accept fun w => ⟨.mfaDisable (lastBearer w) "123456", {}⟩, .steps i 40]

/-- A user enrolls, disables the second factor with a code, and logs in again. -/
theorem second_factor_kept_of_disable :
    ∃ (c : ServerConfig) (call : ServerCall) (e : ServerEvent),
      sampleRun (loginMoves 0 "al@x.io" "Al 1" ++ enrollMoves 1 ++ disableMoves 3) = some c ∧
      c.calls[3]? = some call ∧ e ∈ call.log ∧ e.pre.HasActive (sampleUuid 9001) ∧
      ¬e.post.HasActive (sampleUuid 9001) ∧ DisabledByCode (sampleUuid 9001) call e ∧
      ∀ a ∈ c.world.users, (a.mfaRequired = true ↔ c.world.HasActive a.id) := by
  have hplay : (sampleRun (loginMoves 0 "al@x.io" "Al 1" ++ enrollMoves 1 ++ disableMoves 3)).any
      (fun c => (c.calls[3]?).any fun call =>
        decide ((∀ call ∈ c.calls, logInOrder call.log = true) ∧
        (∀ call ∈ c.calls, call.result.isSome) ∧ ∃ e ∈ call.log, e.pre.HasActive (sampleUuid 9001) ∧
          ¬e.post.HasActive (sampleUuid 9001))) = true := by
    decide +kernel
  obtain ⟨c, hc, hall⟩ := (Option.any_eq_true _ _).1 hplay
  obtain ⟨call, hi, hcall⟩ := (Option.any_eq_true _ _).1 hall
  obtain ⟨horder, hdone, e, he, hpre, hpost⟩ := of_decide_eq_true hcall
  have hreach : (machine .sample).Reachable World.Unenrolled c :=
    ⟨_, unenrolled_sample, run_of_play hc⟩
  have hkept := second_factor_kept hreach (factorsInOrder_of_logs horder)
  exact ⟨c, call, e, hc, hi, he, hpre, hpost, hkept.1 3 call _ hi e he hpre hpost,
    hkept.2.1 fun i call hi => hdone call (List.mem_of_getElem? hi)⟩

/-- The event validates a code. -/
def isCheck : ServerEvent → Bool
  | ⟨_, _, .runtime (.totpCheck ..), _, _⟩ => true
  | _ => false

/-- **An access token alone removes a second factor.**  A second enrollment sets the
active method to pending without any code, `mfa_required` stays, and the next login hands
out tokens. -/
theorem enrollment_removes_factor :
    ∃ (c : ServerConfig) (call login : ServerCall) (e : ServerEvent),
      sampleRun (loginMoves 0 "al@x.io" "Al 1" ++ enrollMoves 1 ++
        [.accept fun w => ⟨.mfaEnroll (lastBearer w), {}⟩, .steps 3 40] ++
        loginMoves 4 "al@x.io" "Al 1") = some c ∧
      (∀ (i : ℕ) call, c.calls[i]? = some call → call.result.isSome) ∧
      c.calls[3]? = some call ∧ e ∈ call.log ∧ e.pre.HasActive (sampleUuid 9001) ∧
      ¬e.post.HasActive (sampleUuid 9001) ∧ ¬DisabledByCode (sampleUuid 9001) call e ∧
      (∃ a ∈ c.world.users, ¬(a.mfaRequired = true ↔ c.world.HasActive a.id)) ∧
      c.calls[4]? = some login ∧ ReceivesTokens (sampleUuid 9001) login := by
  have hplay : (sampleRun (loginMoves 0 "al@x.io" "Al 1" ++ enrollMoves 1 ++
      [.accept fun w => ⟨.mfaEnroll (lastBearer w), {}⟩, .steps 3 40] ++
      loginMoves 4 "al@x.io" "Al 1")).any (fun c => (c.calls[3]?).any fun call =>
        (c.calls[4]?).any fun login => decide ((∀ call ∈ c.calls, call.result.isSome) ∧
          (∀ e ∈ call.log, isCheck e = false) ∧
          (∃ e ∈ call.log, e.pre.HasActive (sampleUuid 9001) ∧
            ¬e.post.HasActive (sampleUuid 9001)) ∧
          (∃ a ∈ c.world.users, ¬(a.mfaRequired = true ↔ c.world.HasActive a.id)) ∧
          ReceivesTokens (sampleUuid 9001) login)) = true := by
    decide +kernel
  obtain ⟨c, hc, hall⟩ := (Option.any_eq_true _ _).1 hplay
  obtain ⟨call, hi, hcall⟩ := (Option.any_eq_true _ _).1 hall
  obtain ⟨login, hj, hlogin⟩ := (Option.any_eq_true _ _).1 hcall
  obtain ⟨hdone, hnocheck, ⟨e, he, hpre, hpost⟩, hdisagree, htokens⟩ := of_decide_eq_true hlogin
  refine ⟨c, call, login, e, hc, fun i call hi => hdone call (List.mem_of_getElem? hi), hi, he,
    hpre, hpost, ?_, hdisagree, hj, htokens⟩
  rintro ⟨l, code, method, m, hl, ⟨_, n, pre, post, hmem⟩, _⟩
  cases hnocheck _ (hl.subset (List.mem_cons_of_mem _ hmem))

end IdentityPlatform
