/-
# Replacing the roles of a user

A call of `setUserRoles` deletes the roles it finds and inserts the roles it can name.
What stands after its commit is what it has inserted, and what has been committed in
between and its `DELETE` has not found; nothing but the commit of another call for the same
user changes that (`roles_replaced_iff`).
-/

import IdentityPlatform.Modules.RoleTransactions

namespace IdentityPlatform
namespace RoleDirectory

open Interleaving Program Machine Relational Versioned Transactions Database

variable {dir : RoleDirectory} {update : RoleUpdate} {c : RoleConfig} {i j : ℕ}
  {call call' : RoleCall} {e : RoleEvent} {w w' : Versioned UserRole} {userId : String} {t : ℕ}
  {l : Log (txCommands UserRole) Err (Versioned UserRole)} {P : List UserRole → Prop}

/-! ### What a call sends -/

/-- The body of the transaction. -/
def replaceRoles (dir : RoleDirectory) (update : RoleUpdate) (tx : ℕ) : TxProg UserRole Unit := do
  deleteWhere (ofUser update.userId) tx
  if update.roleNames = [] then pure ()
  else insertRows (dir.rowsOf update) tx

theorem setUserRoles_eq : dir.setUserRoles update = withTransaction (dir.replaceRoles update) := rfl

theorem replaceRoles_isBody : IsBody (Versioned UserRole) (dir.replaceRoles update) := by
  intro l t
  refine .bind deleteWhere_inBody fun l _ _ => ?_
  exact respects_ite.2 ⟨fun _ => respects_pure, fun _ => insertRows_inBody⟩

/-- What a call sends, and after which others: it looks for the roles of its user once, and
inserts only rows of its update. -/
def Sent (dir : RoleDirectory) (update : RoleUpdate)
    (l : Log (txCommands UserRole) Err (Versioned UserRole)) (op : TxCommand UserRole) : Prop :=
  (∀ row, op ≠ .ensure row) ∧ (∀ t row, op = .insert t row → row ∈ dir.rowsOf update) ∧
    (∀ t p, op = .scan t p → l.length = 2 ∧ p = ofUser update.userId) ∧
    ∀ t n, op = .delete t n → ∃ p found, n ∈ found ∧
      Log.Saw (S := txCommands UserRole) l (.scan t p) (.ok found)

theorem setUserRoles_sent : Respects (dir.Sent update) [] (dir.setUserRoles update) := by
  refine .bind (respects_perform.2 (by simp [Sent])) fun l₁ t h₁ => ?_
  obtain ⟨_, _, _, rfl⟩ := returns_perform.1 h₁
  refine respects_tryCatch.2 ⟨?_, fun _ _ _ => ?_⟩
  · refine .bind (respects_perform.2 (by simp [Sent])) fun l₂ _ h₂ => ?_
    obtain ⟨_, _, _, rfl⟩ := returns_perform.1 h₂
    refine .bind (.bind (.bind (respects_perform.2 (by simp [Sent])) fun l₃ found h₃ => ?_)
      fun l₃ _ h₃ => ?_) fun _ _ _ => .bind (respects_perform.2 (by simp [Sent]))
        fun _ _ _ => respects_pure
    · refine .forEach fun n hn l hl => respects_perform.2 ?_
      have hsaw := h₃.saw.mono hl
      refine ⟨by simp, by simp, by simp, fun t' n' heq => ?_⟩
      cases heq
      exact ⟨_, found, hn, hsaw⟩
    · refine respects_ite.2 ⟨fun _ => respects_pure, fun _ => .forEach fun row hrow l hl => ?_⟩
      refine respects_perform.2 ⟨by simp, fun t' row' heq => ?_, by simp, by simp⟩
      cases heq
      exact hrow
  · refine .bind (respects_tryCatch.2 ⟨respects_perform.2 (by simp [Sent]), fun _ _ _ =>
      respects_pure⟩) fun _ _ _ => respects_throw

theorem setUserRoles_owned : Respects Owned
    ([] : Log (txCommands UserRole) Err (Versioned UserRole)) (dir.setUserRoles update) :=
  withTransaction_owned replaceRoles_isBody

/-- A command takes effect with the answer it gets, or it fails. -/
theorem effect_or_failed {op : TxCommand UserRole} {ans : Except Err op.Ans}
    (h : dir.machine.Answers op w ans w') :
    w.effect dir.userRoles op = some (ans, w') ∨ (w' = w ∧ ∃ err, ans = .error err) := by
  rcases h with ⟨_, h⟩ | ⟨rfl, rfl⟩
  · obtain ⟨⟨a, post⟩, heffect, heq⟩ := Option.map_eq_some_iff.1 h
    obtain ⟨rfl, rfl⟩ := Prod.mk.inj heq
    exact .inl heffect
  · exact .inr ⟨rfl, _, rfl⟩

theorem reached_sent (hv : dir.machine.Valid c) (hi : c.calls[i]? = some call) (he : e ∈ call.log) :
    ∃ l, dir.Sent call.req l e.op ∧ e :: l <:+ call.log :=
  hv.respected (P := dir.Sent) (fun _ => setUserRoles_sent) hi he

/-- A call looks for the roles of its user once. -/
theorem found_unique (hv : dir.machine.Valid c) (hi : c.calls[i]? = some call) {t' : ℕ}
    {p p' : UserRole → Bool} {found found' : List ℕ}
    (h : Log.Saw (S := txCommands UserRole) call.log (.scan t p) (.ok found))
    (h' : Log.Saw (S := txCommands UserRole) call.log (.scan t' p') (.ok found')) :
    p = ofUser call.req.userId ∧ found = found' := by
  obtain ⟨_, _, _, he⟩ := h
  obtain ⟨_, _, _, he'⟩ := h'
  obtain ⟨l, hsent, hl⟩ := reached_sent hv hi he
  obtain ⟨l', hsent', hl'⟩ := reached_sent hv hi he'
  obtain ⟨hlength, hp⟩ := hsent.2.2.1 _ _ rfl
  obtain ⟨hlength', _⟩ := hsent'.2.2.1 _ _ rfl
  have hsuffix := List.suffix_of_suffix_length_le hl hl' (by simp [hlength, hlength'])
  have heq := hsuffix.eq_of_length (by simp [hlength, hlength'])
  cases (List.cons.inj heq).1
  exact ⟨hp, rfl⟩

/-- A call inserts roles of its user. -/
theorem ofUser_of_insert (hv : dir.machine.Valid c) (hi : c.calls[i]? = some call)
    (he : e ∈ call.log) {row : UserRole} (hop : e.op = .insert t row) :
    row ∈ dir.rowsOf call.req ∧ row.1 = call.req.userId := by
  obtain ⟨l, hsent, _⟩ := reached_sent hv hi he
  have hrow := hsent.2.1 t row hop
  refine ⟨hrow, ?_⟩
  obtain ⟨_, _, rfl⟩ := List.mem_map.1 hrow
  rfl

/-- A call deletes what it has found. -/
theorem found_of_delete (hv : dir.machine.Valid c) (hi : c.calls[i]? = some call)
    (he : e ∈ call.log) {n : ℕ} (hop : e.op = .delete t n) : ∃ p found, n ∈ found ∧
      Log.Saw (S := txCommands UserRole) call.log (.scan t p) (.ok found) := by
  obtain ⟨l, hsent, hl⟩ := reached_sent hv hi he
  obtain ⟨p, found, hn, hsaw⟩ := hsent.2.2.2 t n hop
  exact ⟨p, found, hn, hsaw.mono ((List.suffix_cons e l).trans hl)⟩

/-- A call deletes roles of its user. -/
theorem ofUser_of_delete (hreach : dir.machine.Reachable (Loaded P) c)
    (hi : c.calls[i]? = some call) (he : e ∈ call.log) {n : ℕ} (hop : e.op = .delete t n)
    {v : Version UserRole} (hn : c.world.versions[n]? = some v) : v.row.1 = call.req.userId := by
  obtain ⟨p, found, hfound, hsaw⟩ := found_of_delete hreach.valid hi he hop
  obtain ⟨rfl, _⟩ := found_unique hreach.valid hi hsaw hsaw
  obtain ⟨m, pre, post, hscan⟩ := hsaw
  obtain ⟨rfl, rfl⟩ := scan_ok (effect_of_mem hreach.valid hi hscan)
  obtain ⟨v', hn', _, hrow⟩ := mem_find.1 hfound
  have hordered := hreach.ordered (stable_later ..)
  obtain ⟨v'', hn'', hs⟩ := (hordered.post hi _ hscan).version hn'
  obtain rfl := Option.some.inj (hn.symm.trans hn'')
  rw [hs.row]
  exact of_decide_eq_true hrow

/-! ### What a commit leaves -/

/-- A commit with the configuration it happens in: its call has come to the end of its body. -/
theorem before_commit (hreach : dir.machine.Reachable (Loaded P) c)
    (hi : c.calls[i]? = some call) (he : e ∈ call.log) (hop : e.op = .commit t) :
    ∃ c' call', dir.machine.Reachable (Loaded P) c' ∧ c'.world = e.pre ∧
      c'.calls[i]? = some call' ∧ call'.req = call.req ∧ call'.log <:+ call.log ∧
      BodyDone (dir.replaceRoles call.req) [] call'.log t () := by
  obtain ⟨c', call', hreach', _, hworld, _, hi', hreq, hl⟩ := hreach.before hi he
  obtain ⟨l, hreached, hl'⟩ := hreach.valid.reached hi e he
  obtain rfl := hreach.valid.place hi hl' hl
  rw [hop] at hreached
  obtain ⟨_, hdone⟩ := commit_reached replaceRoles_isBody hreached
  exact ⟨c', call', hreach', hworld, hi', hreq, (List.suffix_cons e _).trans hl, hdone⟩

/-- **Nothing but a commit for a user changes the roles of the user.** -/
theorem commit_of_change (hreach : dir.machine.Reachable (Loaded P) c)
    (hi : c.calls[i]? = some call) (he : e ∈ call.log)
    (hchange : e.post.rows.filter (ofUser userId) ≠ e.pre.rows.filter (ofUser userId)) :
    IsCommit e ∧ call.req.userId = userId := by
  have hans := hreach.valid.answers hi e he
  have hcommit : ∃ t, e.op = .commit t := by
    by_contra hnone
    obtain ⟨l, hsent, _⟩ := reached_sent hreach.valid hi he
    have hrows := (moves_of_answers hans).rows (fun t hop => hnone ⟨t, hop⟩) hsent.1
    exact hchange (by rw [hrows])
  obtain ⟨t, hop⟩ := hcommit
  obtain ⟨c', call', hreach', hworld, hi', hreq, _, l₁, h₁, _, h₂, hbody⟩ :=
    before_commit hreach hi he hop
  have hconnect : Log.Saw (S := txCommands UserRole) call'.log .connect (.ok t) :=
    h₁.saw.mono (h₂.suffix.trans hbody.suffix)
  obtain ⟨n, pre, op, ans, post⟩ := e
  subst hop
  rcases effect_or_failed hans with heffect | ⟨hsame, _⟩
  · rcases commit_cases heffect with ⟨hsame, _⟩ | ⟨rfl, hactive, hpost⟩
    · exact absurd (by rw [hsame]) hchange
    · refine ⟨⟨n, pre, t, post, rfl⟩, ?_⟩
      by_contra hne
      have hother : ∀ row : UserRole, row.1 = call'.req.userId → ofUser userId row = false := by
        intro row hrow
        rw [hreq] at hrow
        exact decide_eq_false (hrow ▸ hne)
      refine hchange (hpost ▸ rows_filter_commit hactive fun v hv htouched => hother v.row ?_)
      obtain ⟨m, hm⟩ := List.mem_iff_getElem?.1 hv
      rw [← hworld] at hm
      rcases htouched with hinserted | hdeleted
      · obtain ⟨e', he', hop', _⟩ :=
          inserted_in_log hreach' (fun _ => setUserRoles_owned) hi' hconnect
          hm hinserted
        exact (ofUser_of_insert hreach'.valid hi' he' hop').2
      · obtain ⟨e', he', hop'⟩ := deleted_in_log hreach' (fun _ => setUserRoles_owned) hi' hconnect
          hm hdeleted
        exact ofUser_of_delete hreach' hi' he' hop' hm
  · exact absurd (by rw [hsame]) hchange

/-- The body of a transaction that has come to its end has replaced rows. -/
theorem replacement_of_bodyDone (hv : dir.machine.Valid c) (hi : c.calls[i]? = some call)
    (hdone : BodyDone (dir.replaceRoles call.req) [] call.log t ()) :
    ∃ found, Log.Saw (S := txCommands UserRole) call.log (.scan t (ofUser call.req.userId))
      (.ok found) ∧ Replacement call.log t found (dir.rowsOf call.req) := by
  obtain ⟨l₁, h₁, l₂, h₂, hbody⟩ := hdone
  obtain ⟨l₃, _, hdelete, hs₃, hinsert⟩ := Returns.of_bind hbody
  obtain ⟨l₄, found, hscan, hs₄, hdeletes⟩ := Returns.of_bind hdelete
  have hsaw := hscan.saw.mono (hs₄.trans hs₃)
  obtain ⟨m, pre, post, hscanned⟩ := returns_perform.1 hscan
  have hmem : ∀ {l'}, l₄ <:+ l' → (⟨m, pre, .scan t (ofUser call.req.userId), .ok found, post⟩ :
      RoleEvent) ∈ l' := fun hl => hl.subset (hscanned ▸ List.mem_cons_self ..)
  refine ⟨found, hsaw, ⟨h₁.saw.mono (h₂.suffix.trans hbody.suffix), ?_, ?_, ?_⟩⟩
  · refine ⟨m, pre, _, post, hmem (hs₄.trans hs₃), fun n hn => ?_, fun row hrow => ?_⟩
    · obtain ⟨l₅, l₆, _, hs₅, hround, hs₆⟩ := hdeletes.of_forEach hn
      obtain ⟨m', pre', post', rfl⟩ := returns_perform.1 hround
      have hl := hs₆.trans hs₃
      exact ⟨m', pre', post', hv.earlier hi hl (hmem hs₅), hl.subset (List.mem_cons_self ..)⟩
    · split_ifs at hinsert with hempty
      · obtain ⟨_, hrole, _⟩ := List.mem_map.1 hrow
        obtain ⟨_, hrole, _⟩ := List.mem_map.1 hrole
        simp [hempty] at hrole
      · obtain ⟨l₅, l₆, _, hs₅, hround, hs₆⟩ := Returns.of_forEach hinsert hrow
        obtain ⟨m', pre', post', rfl⟩ := returns_perform.1 hround
        exact ⟨m', pre', post', hv.earlier hi hs₆ (hmem (hs₄.trans hs₅)),
          hs₆.subset (List.mem_cons_self ..)⟩
  · intro e he n hop
    obtain ⟨p, found', hn, hsaw'⟩ := found_of_delete hv hi he hop
    exact (found_unique hv hi hsaw hsaw').2 ▸ hn
  · exact fun e he row hop => (ofUser_of_insert hv hi he hop).1

/-- **What stands after a commit**: the rows of the update, and those its `DELETE` had not
found. -/
theorem rows_of_commit (hreach : dir.machine.Reachable (Loaded P) c)
    (hi : c.calls[i]? = some call) (he : e ∈ call.log) (hcommit : IsCommit e) :
    ∃ found t, Log.Saw (S := txCommands UserRole) call.log (.scan t (ofUser call.req.userId))
      (.ok found) ∧
      ∀ row, row ∈ e.post.rows ↔ row ∈ dir.rowsOf call.req ∨ Unseen e.pre found row := by
  obtain ⟨n, pre, t, post, rfl⟩ := hcommit
  obtain ⟨c', call', hreach', hworld, hi', hreq, hl, hdone⟩ := before_commit hreach hi he rfl
  rw [← hreq] at hdone
  obtain ⟨found, hsaw, hreplaced⟩ := replacement_of_bodyDone hreach'.valid hi' hdone
  obtain ⟨hactive, rfl⟩ := commit_ok (effect_of_mem hreach.valid hi he)
  refine ⟨found, t, hreq ▸ hsaw.mono hl, fun row => ?_⟩
  have hrows : row ∈ (c'.world.mark t .committed).rows ↔ _ :=
    rows_of_replacement hreach' (fun _ => setUserRoles_owned) hi' hreplaced (hworld ▸ hactive)
  rw [hworld, hreq] at hrows
  exact hrows

/-- **A call that overlooks nothing is the one statement it is elsewhere**: after its commit
stand the rows that `RbacStmt.setUserRoles` makes of those before it. -/
theorem commit_refines (hreach : dir.machine.Reachable (Loaded P) c)
    (hi : c.calls[i]? = some call) (he : e ∈ call.log) (hcommit : IsCommit e)
    (hseen : ∀ t p found, Log.Saw (S := txCommands UserRole) call.log (.scan t p) (.ok found) →
      ∀ row, row.1 = call.req.userId → ¬Unseen e.pre found row)
    {world : World} (huser : world.hasUser call.req.userId) (hroles : world.rbac.roles = dir.roles)
    (hrows : ∀ row, row ∈ world.rbac.userRoles ↔ row ∈ e.pre.rows) (row : UserRole) :
    row ∈ e.post.rows ↔ row ∈ ((RbacStmt.setUserRoles call.req.userId call.req.roleNames).effect
      world).2.userRoles := by
  obtain ⟨found, t, hsaw, hpost⟩ := rows_of_commit hreach hi he hcommit
  have hothers : Unseen e.pre found row ↔ row ∈ e.pre.rows ∧ row.1 ≠ call.req.userId := by
    constructor
    · intro hunseen
      obtain ⟨n, v, hn, _, hstands, hv⟩ := id hunseen
      exact ⟨mem_rows.2 ⟨n, v, hn, hstands, hv⟩, fun hrow => hseen _ _ _ hsaw row hrow hunseen⟩
    · rintro ⟨hrow, hother⟩
      obtain ⟨n, v, hn, hstands, rfl⟩ := mem_rows.1 hrow
      refine ⟨n, v, hn, fun hfound => hother ?_, hstands, rfl⟩
      obtain ⟨m, pre, post, hscan⟩ := hsaw
      obtain ⟨rfl, rfl⟩ := scan_ok (effect_of_mem hreach.valid hi hscan)
      obtain ⟨_, hn', _, hrow'⟩ := mem_find.1 hfound
      have hordered := hreach.ordered (stable_later ..)
      obtain ⟨u, hu, hs⟩ := (hordered.post hi _ hscan).version hn'
      obtain ⟨u', hu', hs'⟩ := ((hordered.answer hi e he).trans (hordered.post hi e he)).version hn
      obtain rfl := Option.some.inj (hu.symm.trans hu')
      rw [← hs'.row, hs.row]
      exact of_decide_eq_true hrow'
  rw [hpost, hothers]
  simp [RbacStmt.effect, constrained, huser, hroles, hrows, rowsOf, and_comm, or_comm]

/-- **A call that has committed returns success.** -/
theorem returned_of_commit (hv : dir.machine.Valid c) (hi : c.calls[i]? = some call)
    (hdone : call.result ≠ none) (he : e ∈ call.log) (hcommit : IsCommit e) :
    call.result = some (.ok ()) := by
  obtain ⟨r, hr⟩ := Option.ne_none_iff_exists'.1 hdone
  cases r with
  | ok u => exact hr
  | error err =>
      have hfailed : (withTransaction (dir.replaceRoles call.req)).Returns [] call.log
          (.error err) :=
        hv.returned hi hr
      cases sameCommits_of_error replaceRoles_isBody hfailed e he hcommit

/-! ### The last call -/

/-- The user has a role of that name. -/
def HasRole (dir : RoleDirectory) (db : Versioned UserRole) (userId name : String) : Prop :=
  ∃ role ∈ dir.roles, role.name = name ∧ (userId, role.id) ∈ db.rows

instance (dir : RoleDirectory) (db : Versioned UserRole) (userId name : String) :
    Decidable (dir.HasRole db userId name) :=
  inferInstanceAs (Decidable (∃ role ∈ dir.roles, _))

/-- No call is in progress. -/
def Quiet (c : RoleConfig) : Prop := ∀ call ∈ c.calls, call.result ≠ none

instance (c : RoleConfig) : Decidable (Quiet c) :=
  inferInstanceAs (Decidable (∀ call ∈ c.calls, _))

/-- No call for the user that has returned success has committed after `e`. -/
def NoLater (c : RoleConfig) (userId : String) (e : RoleEvent) : Prop :=
  ∀ call ∈ c.calls, call.req.userId = userId → call.result = some (.ok ()) →
    ∀ e' ∈ call.log, IsCommit e' → e'.seq ≤ e.seq

instance (c : RoleConfig) (userId : String) (e : RoleEvent) : Decidable (NoLater c userId e) :=
  inferInstanceAs (Decidable (∀ call ∈ c.calls, _))

/-- The last committed call for a user among those that have returned success, and its
commit. -/
structure LastReplacement (c : RoleConfig) (userId : String) (call : RoleCall) (e : RoleEvent) :
    Prop where
  mem : call ∈ c.calls
  user : call.req.userId = userId
  returned : call.result = some (.ok ())
  commit : e ∈ call.log ∧ IsCommit e
  last : NoLater c userId e

/-- Every name of the update is that of a role. -/
def KnowsNames (dir : RoleDirectory) (update : RoleUpdate) : Prop :=
  ∀ name ∈ update.roleNames, name ∈ dir.roles.map NameRow.name

instance (dir : RoleDirectory) (update : RoleUpdate) : Decidable (dir.KnowsNames update) :=
  inferInstanceAs (Decidable (∀ name ∈ update.roleNames, _))

/-- At the commit `e` a role of the user stands that the update does not list and that the
`DELETE` of the call had not found: another call has committed it since. -/
def Overlooks (dir : RoleDirectory) (call : RoleCall) (e : RoleEvent) : Prop :=
  ∃ t p found, Log.Saw (S := txCommands UserRole) call.log (.scan t p) (.ok found) ∧
    ∃ role ∈ dir.roles, role.name ∉ call.req.roleNames ∧
      Unseen e.pre found (call.req.userId, role.id)

/-- What the commands of a log have found. -/
def foundIn (l : Log (txCommands UserRole) Err (Versioned UserRole)) : List (List ℕ) :=
  l.filterMap fun
    | ⟨_, _, .scan _ _, .ok found, _⟩ => some found
    | _ => none

theorem mem_foundIn {found : List ℕ} : found ∈ foundIn l ↔
    ∃ t p, Log.Saw (S := txCommands UserRole) l (.scan t p) (.ok found) := by
  simp only [foundIn, List.mem_filterMap]
  constructor
  · rintro ⟨e, he, heq⟩
    split at heq
    · next n pre t p found' post =>
        obtain rfl := Option.some.inj heq
        exact ⟨t, p, n, pre, post, he⟩
    · cases heq
  · rintro ⟨t, p, n, pre, post, he⟩
    exact ⟨_, he, rfl⟩

theorem overlooks_iff : dir.Overlooks call e ↔ ∃ found ∈ foundIn call.log, ∃ role ∈ dir.roles,
    role.name ∉ call.req.roleNames ∧ Unseen e.pre found (call.req.userId, role.id) := by
  constructor
  · rintro ⟨t, p, found, hsaw, hunseen⟩
    exact ⟨found, mem_foundIn.2 ⟨t, p, hsaw⟩, hunseen⟩
  · rintro ⟨found, hfound, hunseen⟩
    obtain ⟨t, p, hsaw⟩ := mem_foundIn.1 hfound
    exact ⟨t, p, found, hsaw, hunseen⟩

instance (dir : RoleDirectory) (call : RoleCall) (e : RoleEvent) :
    Decidable (dir.Overlooks call e) :=
  decidable_of_iff _ overlooks_iff.symm

/-- The rows of an update are the roles it lists. -/
theorem mem_rowsOf (hids : (dir.roles.map NameRow.id).Nodup) {role : NameRow}
    (hrole : role ∈ dir.roles) : (update.userId, role.id) ∈ dir.rowsOf update ↔
      role.name ∈ update.roleNames := by
  simp only [rowsOf, Rbac.idsNamed, List.mem_map, List.mem_filter, decide_eq_true_eq,
    Prod.mk.injEq, true_and, exists_eq_right]
  constructor
  · rintro ⟨role', ⟨hrole', hname⟩, hid⟩
    exact eq_of_key hids hrole' hrole hid ▸ hname
  · exact fun hname => ⟨role, ⟨hrole, hname⟩, rfl⟩

/-- The roles of a user are a matter of the rows of the user. -/
theorem hasRole_congr (h : w'.rows.filter (ofUser userId) = w.rows.filter (ofUser userId))
    {name : String} : dir.HasRole w' userId name ↔ dir.HasRole w userId name := by
  have hmem : ∀ id, (userId, id) ∈ w'.rows ↔ (userId, id) ∈ w.rows := by
    intro id
    have hfilter := congrArg ((userId, id) ∈ ·) h
    simpa [ofUser] using hfilter
  simp only [HasRole, hmem]

/-- **What a user has after the commit of a call.** -/
theorem hasRole_of_commit (hids : (dir.roles.map NameRow.id).Nodup)
    (hreach : dir.machine.Reachable (Loaded P) c) (hi : c.calls[i]? = some call)
    (he : e ∈ call.log) (hcommit : IsCommit e) :
    (∀ name, dir.HasRole e.post call.req.userId name ↔ name ∈ call.req.roleNames) ↔
      dir.KnowsNames call.req ∧ ¬dir.Overlooks call e := by
  obtain ⟨found, t, hsaw, hrows⟩ := rows_of_commit hreach hi he hcommit
  have hhas : ∀ name, dir.HasRole e.post call.req.userId name ↔ ∃ role ∈ dir.roles,
      role.name = name ∧ (name ∈ call.req.roleNames ∨
        Unseen e.pre found (call.req.userId, role.id)) := by
    refine fun name => exists_congr fun role => and_congr_right fun hrole =>
      and_congr_right fun hname => ?_
    rw [hrows, mem_rowsOf hids hrole, hname]
  constructor
  · intro hall
    refine ⟨fun name hname => ?_, ?_⟩
    · obtain ⟨role, hrole, rfl, _⟩ := (hall name).2 hname
      exact List.mem_map_of_mem hrole
    · rintro ⟨_, _, found', hsaw', role, hrole, hnot, hunseen⟩
      obtain ⟨_, rfl⟩ := found_unique hreach.valid hi hsaw hsaw'
      exact hnot ((hall role.name).1 ((hhas _).2 ⟨role, hrole, rfl, .inr hunseen⟩))
  · rintro ⟨hknown, hnone⟩ name
    rw [hhas]
    constructor
    · rintro ⟨role, hrole, rfl, hlisted | hunseen⟩
      · exact hlisted
      · by_contra hnot
        exact hnone ⟨t, _, found, hsaw, role, hrole, hnot, hunseen⟩
    · intro hname
      obtain ⟨role, hrole, heq⟩ := List.mem_map.1 (hknown name hname)
      exact ⟨role, hrole, heq, .inl hname⟩

/-- The rows of a user change only by commits for the user. -/
theorem rows_kept {c₀ : RoleConfig} (hreach : dir.machine.Reachable (Loaded P) c)
    (hrun : dir.machine.Run c₀ c)
    (hnone : ∀ (i : ℕ) (call : RoleCall), c.calls[i]? = some call → call.req.userId = userId →
      ∀ e ∈ call.log, IsCommit e → e.seq < c₀.seq) :
    c.world.rows.filter (ofUser userId) = c₀.world.rows.filter (ofUser userId) := by
  by_contra hne
  have habort : ∀ t (w w' : Versioned UserRole), w.abort t = some w' →
      w'.rows.filter (ofUser userId) ≠ c₀.world.rows.filter (ofUser userId) →
      w.rows.filter (ofUser userId) ≠ c₀.world.rows.filter (ofUser userId) := by
    intro t w w' hw hne
    rwa [rows_abort hw] at hne
  obtain ⟨i, call, e, hi, he, hlater, hpre, hpost⟩ := hrun.introduced
    (H := fun db : Versioned UserRole =>
      db.rows.filter (ofUser userId) ≠ c₀.world.rows.filter (ofUser userId))
    (not_not.2 rfl) hne habort
  rw [not_not] at hpre
  obtain ⟨hcommit, huser⟩ := commit_of_change hreach hi he fun heq => hpost (heq.trans hpre)
  exact absurd (hnone i call hi huser e he hcommit) (Nat.not_lt.2 hlater)

/-- **When roles are replaced.**  Where no call is in progress, users for whom no call has
succeeded have the roles they had, and the roles of a user are those of the last committed
call for the user exactly if that call lists roles that exist and has overlooked none. -/
theorem roles_replaced_iff (hids : (dir.roles.map NameRow.id).Nodup) {rows : List UserRole}
    (hrun : dir.machine.Run (Config.initial (ofRows rows)) c) (hquiet : Quiet c) (userId : String) :
    ((∀ call ∈ c.calls, call.req.userId = userId → call.result ≠ some (.ok ())) →
      ∀ name, dir.HasRole c.world userId name ↔ dir.HasRole (ofRows rows) userId name) ∧
    ∀ call e, LastReplacement c userId call e →
      ((∀ name, dir.HasRole c.world userId name ↔ name ∈ call.req.roleNames) ↔
        dir.KnowsNames call.req ∧ ¬dir.Overlooks call e) := by
  have hreach : dir.machine.Reachable (Loaded fun _ => True) c := ⟨_, ⟨rows, trivial, rfl⟩, hrun⟩
  have hreturned : ∀ {i : ℕ} {call : RoleCall}, c.calls[i]? = some call →
      ∀ e ∈ call.log, IsCommit e → call.result = some (.ok ()) := fun hi e he hcommit =>
    returned_of_commit hreach.valid hi (hquiet _ (List.mem_of_getElem? hi)) he hcommit
  refine ⟨fun hnone name => hasRole_congr (rows_kept hreach hrun ?_), fun call e hlast => ?_⟩
  · intro i call hi huser e he hcommit
    exact absurd (hreturned hi e he hcommit) (hnone call (List.mem_of_getElem? hi) huser)
  · obtain ⟨i, hi⟩ := List.mem_iff_getElem?.1 hlast.mem
    obtain ⟨he, hcommit⟩ := hlast.commit
    obtain ⟨c₁, c₂, _, _, hbetween, hrun₂, _⟩ := hrun.around (.initial _) hi he (Nat.zero_le _)
    have hkept : c.world.rows.filter (ofUser userId) = c₂.world.rows.filter (ofUser userId) := by
      refine rows_kept hreach hrun₂ fun j call' hj huser e' he' hcommit' => ?_
      have hle := hlast.last call' (List.mem_of_getElem? hj) huser (hreturned hj e' he' hcommit') e'
        he' hcommit'
      rw [hbetween.next]
      omega
    rw [hbetween.post] at hkept
    rw [← hasRole_of_commit hids hreach hi he hcommit, hlast.user]
    exact forall_congr' fun name => by rw [hasRole_congr hkept]

/-! ### Two calls at once -/

/-- Three roles and two users. -/
def sampleDirectory : RoleDirectory where
  roles := [⟨"1", "admin"⟩, ⟨"2", "user"⟩, ⟨"3", "support"⟩]
  users := ["al", "ro"]

/-- Both users are users. -/
def sampleRows : List UserRole := [("al", "2"), ("ro", "2")]

/-- Two administrators give `al` a role each, both after having looked for the old ones; a third
one gives `ro` a role that does not exist. -/
def unitedRun : Option RoleConfig :=
  (machine sampleDirectory).play (fun _ _ => ())
    [.accept fun _ => ⟨"al", ["admin"]⟩, .accept fun _ => ⟨"al", ["support"]⟩, .steps 0 3,
      .steps 1 3, .steps 0 5, .steps 1 5, .accept fun _ => ⟨"ro", ["owner"]⟩, .steps 2 9]
    (Config.initial (ofRows sampleRows))

/-- The last call for the user does not list what the user has. -/
def Misses (dir : RoleDirectory) (c : RoleConfig) (userId name : String) : Prop :=
  ∃ call ∈ c.calls, call.req.userId = userId ∧ call.result = some (.ok ()) ∧
    (∃ e ∈ call.log, IsCommit e ∧ NoLater c userId e) ∧
    ¬(dir.HasRole c.world userId name ↔ name ∈ call.req.roleNames)

instance (dir : RoleDirectory) (c : RoleConfig) (userId name : String) :
    Decidable (dir.Misses c userId name) :=
  inferInstanceAs (Decidable (∃ call ∈ c.calls, _))

theorem Misses.last {name : String} (h : dir.Misses c userId name) : ∃ call e,
    LastReplacement c userId call e ∧
    ¬(dir.HasRole c.world userId name ↔ name ∈ call.req.roleNames) := by
  obtain ⟨call, hmem, huser, hreturned, ⟨e, he, hcommit, hlast⟩, hmisses⟩ := h
  exact ⟨call, e, ⟨hmem, huser, hreturned, ⟨he, hcommit⟩, hlast⟩, hmisses⟩

/-- What comes of it: `al` has both roles, and `ro` none. -/
theorem unitedRun_misses :
    ∃ c, (machine sampleDirectory).Run (Config.initial (ofRows sampleRows)) c ∧ Quiet c ∧
      sampleDirectory.Misses c "al" "admin" ∧ sampleDirectory.Misses c "ro" "owner" := by
  have hplay : unitedRun.any (fun c => decide (Quiet c ∧ sampleDirectory.Misses c "al" "admin" ∧
      sampleDirectory.Misses c "ro" "owner")) = true := by decide +kernel
  obtain ⟨c, hc, hmisses⟩ := (Option.any_eq_true _ _).1 hplay
  unfold unitedRun at hc
  exact ⟨c, run_of_play hc, of_decide_eq_true hmisses⟩

/-- The roles of a user are not those of the last call: a call keeps what it has overlooked, and
it drops the names it does not know. -/
theorem roles_united : ∃ c, (machine sampleDirectory).Run (Config.initial (ofRows sampleRows)) c ∧
    Quiet c ∧ ∀ userId ∈ ["al", "ro"], ∃ call e, LastReplacement c userId call e ∧
      ¬∀ name, sampleDirectory.HasRole c.world userId name ↔ name ∈ call.req.roleNames := by
  obtain ⟨c, hrun, hquiet, hadmin, howner⟩ := unitedRun_misses
  refine ⟨c, hrun, hquiet, fun userId huser => ?_⟩
  rcases List.mem_pair.1 huser with rfl | rfl
  · obtain ⟨call, e, hlast, hmisses⟩ := hadmin.last
    exact ⟨call, e, hlast, fun hall => hmisses (hall "admin")⟩
  · obtain ⟨call, e, hlast, hmisses⟩ := howner.last
    exact ⟨call, e, hlast, fun hall => hmisses (hall "owner")⟩

/-- Two administrators at once again, but the second one looks for the old roles after the first
has committed. -/
def replacedRun : Option RoleConfig :=
  (machine sampleDirectory).play (fun _ _ => ())
    [.accept fun _ => ⟨"al", ["admin"]⟩, .accept fun _ => ⟨"al", ["support"]⟩, .steps 1 2,
      .steps 0 9, .steps 1 9]
    (Config.initial (ofRows sampleRows))

/-- The last call for the user meets the condition of `roles_replaced_iff`. -/
def MeetsCondition (dir : RoleDirectory) (c : RoleConfig) (userId : String) (call : RoleCall)
    (e : RoleEvent) : Prop :=
  (call.req.userId = userId ∧ call.result = some (.ok ()) ∧ IsCommit e ∧ NoLater c userId e) ∧
    dir.KnowsNames call.req ∧ ¬dir.Overlooks call e

instance (dir : RoleDirectory) (c : RoleConfig) (userId : String) (call : RoleCall)
    (e : RoleEvent) : Decidable (dir.MeetsCondition c userId call e) :=
  inferInstanceAs (Decidable (_ ∧ _))

/-- Both sides of the condition: in the first run the last calls do not meet it, and in the second
one the last call does, and its roles are those of the user. -/
theorem roles_replaced_iff_of_runs :
    (∃ c, Quiet c ∧ ∀ userId ∈ ["al", "ro"], ∃ call e, LastReplacement c userId call e ∧
      ¬(sampleDirectory.KnowsNames call.req ∧ ¬sampleDirectory.Overlooks call e)) ∧
    ∃ c call e, replacedRun = some c ∧ Quiet c ∧ LastReplacement c "al" call e ∧
      call.req.roleNames = ["support"] ∧ sampleDirectory.KnowsNames call.req ∧
      ¬sampleDirectory.Overlooks call e ∧
      ∀ name, sampleDirectory.HasRole c.world "al" name ↔ name ∈ call.req.roleNames := by
  constructor
  · obtain ⟨c, hrun, hquiet, hadmin, howner⟩ := unitedRun_misses
    have hiff := roles_replaced_iff (by decide) hrun hquiet
    refine ⟨c, hquiet, fun userId huser => ?_⟩
    rcases List.mem_pair.1 huser with rfl | rfl
    · obtain ⟨call, e, hlast, hmisses⟩ := hadmin.last
      exact ⟨call, e, hlast, fun hmet => hmisses (((hiff "al").2 call e hlast).2 hmet "admin")⟩
    · obtain ⟨call, e, hlast, hmisses⟩ := howner.last
      exact ⟨call, e, hlast, fun hmet => hmisses (((hiff "ro").2 call e hlast).2 hmet "owner")⟩
  · have hplay : replacedRun.any (fun c => decide (Quiet c ∧ ∃ call ∈ c.calls, ∃ e ∈ call.log,
        call.req.roleNames = ["support"] ∧
          sampleDirectory.MeetsCondition c "al" call e)) = true := by
      decide +kernel
    obtain ⟨c, hc, hall⟩ := (Option.any_eq_true _ _).1 hplay
    obtain ⟨hquiet, call, hcall, e, he, hnames, hmeets⟩ := of_decide_eq_true hall
    obtain ⟨⟨huser, hreturned, hcommit, hlater⟩, hmet⟩ := hmeets
    have hlast : LastReplacement c "al" call e := ⟨hcall, huser, hreturned, ⟨he, hcommit⟩, hlater⟩
    have hrun : (machine sampleDirectory).Run (Config.initial (ofRows sampleRows)) c :=
      run_of_play (by unfold replacedRun at hc; exact hc)
    exact ⟨c, call, e, hc, hquiet, hlast, hnames, hmet.1, hmet.2,
      ((roles_replaced_iff (by decide) hrun hquiet "al").2 call e hlast).2 hmet⟩

end RoleDirectory
end IdentityPlatform
