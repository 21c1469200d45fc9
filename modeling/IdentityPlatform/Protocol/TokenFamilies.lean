/-
# Families of refresh tokens

A rotation is a conditional `UPDATE` and, two statements later, the `INSERT` of the
successor.  In between the family has no active token, other calls may revoke it,
and a successor is then stored in a revoked family.  What holds all the same, in
every state: the rows of a family, in the order they were stored, are one chain of
predecessors, and only its last row can be active.

The chain grows at its end because a row is rotated once (`rotated_once`), by a call
that stores one successor for it: the insertion directly follows the rotation
(`Lineage`), and an event has one place in a log.
-/

import IdentityPlatform.Protocol.Invariants
import Mathlib.Data.List.Chain

namespace IdentityPlatform

open Interleaving Program Relational Machine AuthServer

variable {P : Platform} {c : ServerConfig} {i j : ℕ} {call call' : ServerCall}

/-! ### Chains -/

/-- Two tokens of the same grant: the same session, user, client and scope. -/
structure SameGrant (a b : RefreshTokenRow) : Prop where
  sessionId : a.sessionId = b.sessionId
  userId : a.userId = b.userId
  clientId : a.clientId = b.clientId
  scope : a.scope = b.scope

/-- One unbranched chain by `previous_token_id`, of one grant, of which only the last
row can be active. -/
structure TokenChain (rows : List RefreshTokenRow) : Prop where
  ids : (rows.map RefreshTokenRow.id).Nodup
  root : ∀ r ∈ rows.head?, r.previousTokenId = none
  links : rows.IsChain fun a b => b.previousTokenId = some a.id
  shared : ∀ a ∈ rows, ∀ b ∈ rows, SameGrant a b
  spent : ∀ r ∈ rows.dropLast, r.status ≠ .active

/-- The rows of a family, in the order they were stored. -/
def World.family (w : World) (familyId : String) : List RefreshTokenRow :=
  w.refreshTokens.filter fun r => r.familyId = familyId

theorem mem_family {w : World} {familyId : String} {r : RefreshTokenRow} :
    r ∈ w.family familyId ↔ r ∈ w.refreshTokens ∧ r.familyId = familyId := by
  simp [World.family]

theorem SameGrant.refl (a : RefreshTokenRow) : SameGrant a a := ⟨rfl, rfl, rfl, rfl⟩

theorem SameGrant.symm {a b : RefreshTokenRow} (h : SameGrant a b) : SameGrant b a :=
  ⟨h.sessionId.symm, h.userId.symm, h.clientId.symm, h.scope.symm⟩

theorem SameGrant.trans {a b d : RefreshTokenRow} (h : SameGrant a b) (h' : SameGrant b d) :
    SameGrant a d :=
  ⟨h.sessionId.trans h'.sessionId, h.userId.trans h'.userId, h.clientId.trans h'.clientId,
    h.scope.trans h'.scope⟩

theorem RefreshTokenRow.Le.sameGrant {a b : RefreshTokenRow} (h : a.Le b) : SameGrant a b :=
  ⟨h.sessionId.symm, h.userId.symm, h.clientId.symm, h.scope.symm⟩

theorem RefreshTokenRow.Le.familyId {a b : RefreshTokenRow} (h : a.Le b) :
    b.familyId = a.familyId := by rw [← h.core]

namespace TokenChain

variable {rows : List RefreshTokenRow}

theorem nil : TokenChain [] := by
  constructor <;> simp

/-- Rows that move along `Le` stay a chain. -/
theorem map (h : TokenChain rows) {f : RefreshTokenRow → RefreshTokenRow}
    (hf : ∀ r ∈ rows, r.Le (f r)) : TokenChain (rows.map f) where
  ids := by
    rw [List.map_map]
    have hsame : rows.map (RefreshTokenRow.id ∘ f) = rows.map RefreshTokenRow.id :=
      List.map_congr_left fun r hr => (hf r hr).id
    exact hsame ▸ h.ids
  root r hr := by
    rw [List.head?_map] at hr
    obtain ⟨a, ha, rfl⟩ := Option.mem_map.1 hr
    exact (hf a (List.mem_of_mem_head? ha)).previousTokenId.trans (h.root a ha)
  links := by
    refine (List.isChain_map f).2 (h.links.imp_of_mem_imp fun a b ha hb hab => ?_)
    rw [(hf b hb).previousTokenId, (hf a ha).id]
    exact hab
  shared a ha b hb := by
    obtain ⟨a', ha', rfl⟩ := List.mem_map.1 ha
    obtain ⟨b', hb', rfl⟩ := List.mem_map.1 hb
    exact (hf a' ha').sameGrant.symm.trans ((h.shared a' ha' b' hb').trans (hf b' hb').sameGrant)
  spent r hr := by
    rw [← List.map_dropLast] at hr
    obtain ⟨a, ha, rfl⟩ := List.mem_map.1 hr
    exact (hf a (List.mem_of_mem_dropLast ha)).spent (h.spent a ha)

/-- A chain begins with a first token. -/
theorem singleton {r : RefreshTokenRow} (h : r.previousTokenId = none) : TokenChain [r] := by
  constructor <;> simp [h, SameGrant.refl]

/-- **A chain grows at its end**, by a successor of a last row that is not active any
more. -/
theorem append (h : TokenChain rows) {last next : RefreshTokenRow}
    (hlast : rows.getLast? = some last) (hspent : last.status ≠ .active)
    (hprevious : next.previousTokenId = some last.id) (hgrant : SameGrant last next)
    (hnew : next.id ∉ rows.map RefreshTokenRow.id) : TokenChain (rows ++ [next]) where
  ids := by
    rw [List.map_append]
    exact h.ids.append (List.nodup_singleton _) (by simpa using hnew)
  root r hr := by
    obtain ⟨a, rows, rfl⟩ := List.exists_cons_of_ne_nil (l := rows) (by rintro rfl; cases hlast)
    exact h.root r hr
  links := by
    refine List.isChain_append.2 ⟨h.links, List.isChain_singleton _, fun a ha b hb => ?_⟩
    obtain rfl : last = a := Option.some.inj (hlast.symm.trans ha)
    obtain rfl : next = b := Option.some.inj hb
    exact hprevious
  shared := by
    have hmem : ∀ a ∈ rows ++ [next], SameGrant last a := by
      intro a ha
      rcases List.mem_append.1 ha with ha | ha
      · exact h.shared last (List.mem_of_getLast? hlast) a ha
      · exact List.mem_singleton.1 ha ▸ hgrant
    exact fun a ha b hb => (hmem a ha).symm.trans (hmem b hb)
  spent r hr := by
    rw [List.dropLast_concat] at hr
    rw [← List.dropLast_append_getLast? last hlast] at hr
    rcases List.mem_append.1 hr with hr | hr
    · exact h.spent r hr
    · exact List.mem_singleton.1 hr ▸ hspent

/-- A row that is not the last one has a successor in the chain. -/
theorem last_or_succeeded (h : TokenChain rows) {r : RefreshTokenRow} (hr : r ∈ rows) :
    rows.getLast? = some r ∨ ∃ next ∈ rows, next.previousTokenId = some r.id := by
  obtain ⟨l₁, l₂, rfl⟩ := List.append_of_mem hr
  cases l₂ with
  | nil => exact .inl (by simp)
  | cons next l₂ =>
      refine .inr ⟨next, by simp, ?_⟩
      exact (List.isChain_append_cons_cons.1 h.links).2.1

/-- The predecessors of a chain are its rows but the last. -/
theorem previous_eq {a : RefreshTokenRow}
    (h : (a :: rows).IsChain fun a b => b.previousTokenId = some a.id) :
    rows.map RefreshTokenRow.previousTokenId = (a :: rows).dropLast.map fun r => some r.id := by
  induction rows generalizing a with
  | nil => rfl
  | cons b rows ih =>
      rw [List.isChain_cons_cons] at h
      rw [List.map_cons, h.1, ih h.2, List.dropLast_cons_cons, List.map_cons]

/-- **No branches**: a predecessor determines its successor. -/
theorem unbranched (h : TokenChain rows) {a b : RefreshTokenRow} (ha : a ∈ rows) (hb : b ∈ rows)
    (hab : a.previousTokenId = b.previousTokenId) : a = b := by
  refine List.inj_on_of_nodup_map (f := RefreshTokenRow.previousTokenId) ?_ ha hb hab
  cases rows with
  | nil => cases ha
  | cons first rows =>
      have hids : ((first :: rows).dropLast.map RefreshTokenRow.id).Nodup :=
        h.ids.sublist ((List.dropLast_sublist _).map _)
      have hsome : ((first :: rows).dropLast.map fun r => some r.id).Nodup := by
        have hmap := hids.map (Option.some_injective String)
        rwa [List.map_map] at hmap
      rw [List.map_cons, previous_eq h.links, h.root first rfl]
      refine List.nodup_cons.2 ⟨fun hnone => ?_, hsome⟩
      obtain ⟨_, _, hnone⟩ := List.mem_map.1 hnone
      cases hnone

/-- At most one row of a chain is active. -/
theorem active_unique (h : TokenChain rows) {a b : RefreshTokenRow} (ha : a ∈ rows) (hb : b ∈ rows)
    (hactive : a.status = .active) (hactive' : b.status = .active) : a = b := by
  have hlast : ∀ r ∈ rows, r.status = .active → rows.getLast? = some r := by
    intro r hr hr'
    have hne : rows ≠ [] := List.ne_nil_of_mem hr
    rw [← List.dropLast_append_getLast hne] at hr
    rcases List.mem_append.1 hr with hr | hr
    · exact absurd hr' (h.spent r hr)
    · rw [List.mem_singleton.1 hr]
      exact List.getLast?_eq_getLast_of_ne_nil hne
  exact Option.some.inj ((hlast a ha hactive).symm.trans (hlast b hb hactive'))

end TokenChain

/-! ### What happens once -/

/-- **A token is rotated at most once**: from then on its row is not active. -/
theorem rotated_once (hreach : (machine P).Reachable World.Initial c)
    (hi : c.calls[i]? = some call) (hj : c.calls[j]? = some call') {n n' : ℕ}
    {pre pre' post post' : World} {hash hash' : String} {row row' : RefreshTokenRow}
    (he : (⟨n, pre, .refreshTokens (.rotate hash), .ok (some row), post⟩ : ServerEvent) ∈ call.log)
    (he' : (⟨n', pre', .refreshTokens (.rotate hash'), .ok (some row'), post'⟩ : ServerEvent) ∈
      call'.log) (hid : row'.id = row.id) :
    i = j ∧ (⟨n, pre, .refreshTokens (.rotate hash), .ok (some row), post⟩ : ServerEvent) =
      ⟨n', pre', .refreshTokens (.rotate hash'), .ok (some row'), post'⟩ := by
  have hv := hreach.valid
  have hsound := reachable_sound hreach
  -- a rotation finds its row active, and leaves it rotated
  have hpre : ∀ {k : ℕ} {issuer : ServerCall} {m w h r w'}, c.calls[k]? = some issuer →
      (⟨m, w, .refreshTokens (.rotate h), .ok (some r), w'⟩ : ServerEvent) ∈ issuer.log →
      (¬∃ a ∈ w.refreshTokens, a.id = r.id ∧ a.status ≠ .active) ∧
        ∃ a ∈ w'.refreshTokens, a.id = r.id ∧ a.status ≠ .active := by
    intro k issuer m w h r w' hk hmem
    obtain ⟨old, hold, _, hactive, _, rfl, hpost⟩ := Stmt.rotate_answer (executed hv hk hmem)
    refine ⟨?_, _, hpost, rfl, by simp⟩
    rintro ⟨a, ha, hid, hspent⟩
    obtain rfl := eq_of_key (hsound.2 k issuer hk _ hmem).1.refreshTokens.nodup ha hold hid
    exact hspent hactive
  obtain ⟨hnot, hdone⟩ := hpre hi he
  obtain ⟨hnot', hdone'⟩ := hpre hj he'
  rw [hid] at hnot' hdone'
  refine (hreach.ordered (le_stable P)).once
    (K := fun w => ∃ a ∈ w.refreshTokens, a.id = row.id ∧ a.status ≠ .active) hv
    (fun hle h => ?_) hi hj he he' hnot hdone hnot' hdone'
  obtain ⟨a, ha, hid, hspent⟩ := h
  obtain ⟨b, hb, hab⟩ := hle.refreshTokens a ha
  exact ⟨b, hb, hab.id.trans hid, hab.spent hspent⟩

/-- An identifier is generated at most once. -/
theorem generated_once (hreach : (machine P).Reachable World.Initial c)
    (hi : c.calls[i]? = some call) (hj : c.calls[j]? = some call') {n n' : ℕ}
    {pre pre' post post' : World} {id : String}
    (he : (⟨n, pre, .runtime .randomUuid, .ok id, post⟩ : ServerEvent) ∈ call.log)
    (he' : (⟨n', pre', .runtime .randomUuid, .ok id, post'⟩ : ServerEvent) ∈ call'.log) :
    i = j ∧ (⟨n, pre, .runtime .randomUuid, .ok id, post⟩ : ServerEvent) =
      ⟨n', pre', .runtime .randomUuid, .ok id, post'⟩ := by
  have hv := hreach.valid
  have htaken := Stmt.randomUuid_answer (executed hv hi he)
  have htaken' := Stmt.randomUuid_answer (executed hv hj he')
  exact taken_once hreach hi hj he he' htaken htaken'

/-- What directly follows an event is not below it. -/
theorem not_suffix_of_longer {α : Type} {e : α} {l : List α} : ¬e :: l <:+ l := fun h =>
  Nat.not_succ_le_self _ h.length_le

/-- The successor of a row that the call has just rotated is not stored yet. -/
theorem not_succeeded (hreach : (machine P).Reachable World.Initial c)
    (hi : c.calls[i]? = some call) {l₁ l₂ : ServerLog} {hash token : String} {row : RefreshTokenRow}
    (hrotated : Log.Next l₁ l₂ (.refreshTokens (.rotate hash)) (.ok (some row)))
    (hgenerated : Log.Next l₂ call.log (.runtime .randomToken) (.ok token)) {b : RefreshTokenRow}
    (hb : b ∈ c.world.refreshTokens) : b.previousTokenId ≠ some row.id := by
  intro hprevious
  have hv := hreach.valid
  obtain ⟨k, issuer, n, pre, post, data, r, hk, he, _, hle⟩ := refreshToken_inserted hreach hb
  obtain ⟨l, hl, _, hlineage, _⟩ := justified_event hv hk he
  have hdata : data.previousTokenId = some row.id := hle.previousTokenId.symm.trans hprevious
  cases hlineage with
  | first root _ =>
      rw [root] at hdata
      cases hdata
  | @successor k₁ k₂ hash' row' token' hrotated' hgenerated' stored =>
      subst stored
      -- both insertions follow the one rotation of the row
      obtain ⟨n₁, pre₁, post₁, rfl⟩ := hrotated
      obtain ⟨n₂, pre₂, post₂, hlog⟩ := hgenerated
      obtain ⟨n₃, pre₃, post₃, rfl⟩ := hrotated'
      obtain ⟨n₄, pre₄, post₄, rfl⟩ := hgenerated'
      have hmem : (⟨n₁, pre₁, .refreshTokens (.rotate hash), .ok (some row), post₁⟩ : ServerEvent) ∈
          call.log := by
        rw [hlog]
        simp
      have hmem' : (⟨n₃, pre₃, .refreshTokens (.rotate hash'), .ok (some row'), post₃⟩ :
          ServerEvent) ∈ issuer.log := hl.subset (by simp)
      obtain ⟨rfl, heq⟩ := rotated_once hreach hi hk hmem hmem' (Option.some.inj hdata)
      obtain rfl : call = issuer := Option.some.inj (hi.symm.trans hk)
      have hplace : l₁ = k₁ := hv.place hi (by rw [hlog]; exact List.suffix_cons ..)
        (heq ▸ (List.suffix_cons ..).trans ((List.suffix_cons ..).trans hl))
      rw [hlog, ← heq, hplace] at hl
      have hlength := hl.length_le
      simp only [List.length_cons] at hlength
      omega

/-- No row of a family whose identifier the call has just generated is stored yet. -/
theorem family_eq_nil (hreach : (machine P).Reachable World.Initial c)
    (hi : c.calls[i]? = some call) {l : ServerLog} {familyId : String}
    (hfamily : Log.Next l call.log (.runtime .randomUuid) (.ok familyId))
    (hchain : TokenChain (c.world.family familyId)) : c.world.family familyId = [] := by
  have hv := hreach.valid
  rw [← List.head?_eq_none_iff]
  refine Option.eq_none_iff_forall_ne_some.2 fun first hfirst => ?_
  obtain ⟨hb, hbfamily⟩ := mem_family.1 (List.mem_of_mem_head? hfirst)
  obtain ⟨k, issuer, n, pre, post, data, r, hk, he, _, hle⟩ := refreshToken_inserted hreach hb
  obtain ⟨l', hl', _, hlineage, _⟩ := justified_event hv hk he
  have hdata : data.familyId = familyId := hle.familyId.symm.trans hbfamily
  cases hlineage with
  | @first k' _ hfamily' =>
      subst hdata
      -- both insertions follow the one generation of the identifier
      obtain ⟨n₁, pre₁, post₁, hlog⟩ := hfamily
      obtain ⟨n₂, pre₂, post₂, rfl⟩ := hfamily'
      obtain ⟨rfl, heq⟩ := generated_once hreach hi hk (hlog ▸ List.mem_cons_self ..)
        (hl'.subset (List.mem_cons_of_mem _ (List.mem_cons_self ..)))
      obtain rfl : call = issuer := Option.some.inj (hi.symm.trans hk)
      have hplace : l = k' := hv.place hi (by rw [hlog])
        (heq ▸ (List.suffix_cons ..).trans hl')
      rw [hlog, ← heq, hplace] at hl'
      exact not_suffix_of_longer hl'
  | successor _ _ stored =>
      have hroot : data.previousTokenId = none :=
        hle.previousTokenId.symm.trans (hchain.root first hfirst)
      rw [stored] at hroot
      cases hroot

/-! ### Every family is a chain -/

/-- A row is stored where its lineage says: at the end of the chain of its family. -/
theorem TokenChain.stored (hreach : (machine P).Reachable World.Initial c)
    (hi : c.calls[i]? = some call) {data : IssueRefreshData} (hlineage : Lineage P call.log data)
    {r : String} {w : World} (hr : r ∉ c.world.generated)
    (hchain : TokenChain (c.world.family data.familyId)) :
    TokenChain (c.world.family data.familyId ++ [data.row r w]) := by
  have hsound := (reachable_sound hreach).1
  cases hlineage with
  | first root hfamily =>
      rw [family_eq_nil hreach hi hfamily hchain]
      exact .singleton root
  | @successor l₁ l₂ hash row token hrotated hgenerated stored =>
      subst stored
      -- the row as it is now is in the family, and nothing follows it
      have hsaw : Log.Saw call.log (.refreshTokens (.rotate hash)) (.ok (some row)) := by
        obtain ⟨n₁, pre₁, post₁, rfl⟩ := hrotated
        obtain ⟨n₂, pre₂, post₂, hlog⟩ := hgenerated
        exact ⟨n₁, pre₁, post₁, hlog ▸ List.mem_cons_of_mem _ (List.mem_cons_self ..)⟩
      obtain ⟨n, pre, post, hmem, hans⟩ := answered hreach.valid hi hsaw
      obtain ⟨old, _, _, _, _, hrow, hpost⟩ := Stmt.rotate_answer hans
      have hle : post.Le c.world := (hreach.ordered (le_stable P)).post hi _ hmem
      obtain ⟨last, hlast, hrowle⟩ := hle.refreshTokens row hpost
      have hfamily : last ∈ c.world.family row.familyId := mem_family.2 ⟨hlast, hrowle.familyId⟩
      rcases hchain.last_or_succeeded hfamily with hend | ⟨next, hnext, hprevious⟩
      · refine hchain.append hend (hrowle.spent (by simp [hrow])) ?_
          ⟨hrowle.sessionId, hrowle.userId, hrowle.clientId, hrowle.scope⟩ ?_
        · exact congrArg some hrowle.id.symm
        · intro hmem
          obtain ⟨b, hb, hbid⟩ := List.mem_map.1 hmem
          obtain rfl : b.id = r := hbid
          exact hr (hsound.refreshTokens.ledger b (mem_family.1 hb).1)
      · refine absurd ?_ (not_succeeded hreach hi hrotated hgenerated (mem_family.1 hnext).1)
        exact hprevious.trans (congrArg some hrowle.id)

/-- What one statement does to a family. -/
theorem TokenChain.step (hreach : (machine P).Reachable World.Initial c)
    (hi : c.calls[i]? = some call) {s : Stmt} {a : s.Ans} {post : World}
    (hjust : Justified P call.req.request call.log s) (hans : s.Answered P a c.world post)
    (h : ∀ familyId, TokenChain (c.world.family familyId)) (familyId : String) :
    TokenChain (post.family familyId) := by
  obtain ⟨r, hexec⟩ := hans
  have hchanges := Stmt.exec_refreshTokens hexec
  unfold World.family
  generalize post.refreshTokens = rows at hchanges
  cases hchanges with
  | same => exact h familyId
  | append hnew =>
      obtain ⟨data, rfl, rfl, htaken, _⟩ := hnew
      have hstored := TokenChain.stored hreach hi hjust.2.1 (w := c.world) htaken.fresh (h _)
      rw [List.filter_append]
      by_cases hfamily : data.familyId = familyId
      · obtain rfl := hfamily
        simpa [World.family, IssueRefreshData.row] using hstored
      · have hnot : (data.row r c.world).familyId ≠ familyId := hfamily
        simpa [World.family, hnot] using h familyId
  | update p f hold =>
      have hle : ∀ b ∈ c.world.refreshTokens, b.Le (if p b then f b else b) := by
        intro b hb
        split_ifs with hp
        · obtain ⟨u, _, hwhere, hf⟩ := hold b hb hp
          exact hf ▸ RefreshStmt.change_le hwhere
        · exact .refl b
      have hfilter :
          (updateWhere p f c.world.refreshTokens).filter (fun b => b.familyId = familyId) =
            (c.world.family familyId).map fun b => if p b then f b else b := by
        rw [updateWhere, List.filter_map, World.family]
        refine congrArg _ (List.filter_congr fun b hb => ?_)
        simp only [Function.comp_apply, (hle b hb).familyId]
      rw [hfilter]
      exact (h familyId).map fun b hb => hle b (mem_family.1 hb).1

theorem family_chain (hreach : (machine P).Reachable World.Initial c) (familyId : String) :
    TokenChain (c.world.family familyId) := by
  refine (reachable_invariant (J := fun w => ∀ familyId, TokenChain (w.family familyId)) hreach
    (fun w hw familyId => ?_) (fun _ _ h => h) (fun e w w' hw h familyId => ?_)
    (fun _ _ _ _ _ _ hreach hi hjust hans _ h => TokenChain.step hreach hi hjust hans h)).1 familyId
  · simpa [World.family, hw.refreshTokens] using TokenChain.nil
  · rw [World.family, (Env.apply_rows hw).2.2.1]
    exact h familyId

/-- How a status may change. -/
def RefreshTokenStatus.reaches : RefreshTokenStatus → RefreshTokenStatus → Bool
  | .active, _ | .rotated, .rotated | .rotated, .revoked | .revoked, .revoked => true
  | _, _ => false

theorem RefreshTokenRow.Le.reaches {a b : RefreshTokenRow} (h : a.Le b) :
    a.status.reaches b.status = true := by
  have hspent := h.spent
  have hrevoked := h.revoked
  cases ha : a.status <;> cases hb : b.status <;> simp_all [RefreshTokenStatus.reaches]

/-- **Families of refresh tokens.**  In every reachable state the tokens of a family are
one unbranched chain of one grant, of which at most the last is active; in every state
that follows a token is still there, and its status has gone from active to rotated to
revoked, perhaps leaving one out; and a token is consumed at most once. -/
theorem refresh_token_families (hreach : (machine P).Reachable World.Initial c) :
    (∀ familyId, TokenChain (c.world.family familyId)) ∧
    (∀ c', (machine P).Run c c' → ∀ r ∈ c.world.refreshTokens, ∀ r' ∈ c'.world.refreshTokens,
      r'.id = r.id → SameGrant r r' ∧ r'.familyId = r.familyId ∧
        r.status.reaches r'.status = true) ∧
    (∀ (i j : ℕ) (call call' : ServerCall), c.calls[i]? = some call → c.calls[j]? = some call' →
      ∀ (hash : String) (n n' : ℕ) (pre pre' post post' : World) (row row' : RefreshTokenRow),
        (⟨n, pre, .refreshTokens (.rotate hash), .ok (some row), post⟩ : ServerEvent) ∈ call.log →
        (⟨n', pre', .refreshTokens (.rotate hash), .ok (some row'), post'⟩ : ServerEvent) ∈
          call'.log → i = j ∧ n = n') := by
  refine ⟨family_chain hreach, fun c' hrun r hr r' hr' hid => ?_, ?_⟩
  · have hle := ((le_stable P).runs hrun).refreshTokens.le_of_key
      (reachable_sound (hreach.run hrun)).1.refreshTokens.nodup (fun h => h.id) hr hr' hid
    exact ⟨hle.sameGrant, hle.familyId, hle.reaches⟩
  · intro i j call call' hi hj hash n n' pre pre' post post' row row' he he'
    have hsound := (reachable_sound hreach).1
    have hord := hreach.ordered (le_stable P)
    -- the hash determines the row
    have hfound : ∀ {k : ℕ} {issuer : ServerCall} {m w w'} {b : RefreshTokenRow},
        c.calls[k]? = some issuer →
        (⟨m, w, .refreshTokens (.rotate hash), .ok (some b), w'⟩ : ServerEvent) ∈ issuer.log →
        ∃ a ∈ c.world.refreshTokens, b.Le a ∧ a.tokenHash = hash := by
      intro k issuer m w w' b hk hmem
      obtain ⟨old, _, hhash, _, _, rfl, hpost⟩ := Stmt.rotate_answer (executed hreach.valid hk hmem)
      have hle : w'.Le c.world := hord.post hk _ hmem
      obtain ⟨a, ha, hba⟩ := hle.refreshTokens _ hpost
      exact ⟨a, ha, hba, hba.tokenHash.trans hhash⟩
    obtain ⟨a, ha, hra, hahash⟩ := hfound hi he
    obtain ⟨b, hb, hrb, hbhash⟩ := hfound hj he'
    obtain rfl := eq_of_key hsound.tokenHashes ha hb (hahash.trans hbhash.symm)
    obtain ⟨rfl, heq⟩ := rotated_once hreach hi hj he he' (hrb.id.symm.trans hra.id)
    exact ⟨rfl, congrArg Event.seq heq⟩

/-- A login whose token is refreshed twice. -/
def refreshTwiceMoves : List (Move World Incoming Env) :=
  loginMoves 0 "al@x.io" "Al 1" ++
    [.accept fun w => ⟨.refresh (lastToken w), {}⟩, .steps 1 40,
     .accept fun w => ⟨.refresh (lastToken w), {}⟩, .steps 2 40]

theorem refresh_token_families_of_two_refreshes :
    ∃ (c : ServerConfig) (familyId : String), sampleRun refreshTwiceMoves = some c ∧
      (c.world.family familyId).map RefreshTokenRow.status = [.rotated, .rotated, .active] ∧
      TokenChain (c.world.family familyId) := by
  have hplay : (sampleRun refreshTwiceMoves).any (fun c => decide (∃ r ∈ c.world.refreshTokens,
      (c.world.family r.familyId).map RefreshTokenRow.status = [.rotated, .rotated, .active])) =
      true := by
    decide +kernel
  obtain ⟨c, hc, hall⟩ := (Option.any_eq_true _ _).1 hplay
  obtain ⟨r, _, hstatus⟩ := of_decide_eq_true hall
  exact ⟨c, r.familyId, hc, hstatus,
    (refresh_token_families (sampleRun_reachable hc)).1 r.familyId⟩

end IdentityPlatform
