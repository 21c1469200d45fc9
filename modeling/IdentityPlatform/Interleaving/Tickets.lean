/-
# Single-use rows

A table of tickets: a statement may add a row, unused and with a new key, and a statement may
use a row up, once.  So over any interleaving a row goes back to the one statement that has
issued it (`Tickets.issued`), and of the statements that present one key at most one finds
the row unused (`Tickets.spent_once`).
-/

import IdentityPlatform.Interleaving.Assertions
import IdentityPlatform.Relational.Table

namespace IdentityPlatform
namespace Interleaving
namespace Machine

open Relational

variable {S : Signature} {ε W Req Resp Rnd Env α κ : Type}

/-- The rows of a table, what a statement may add to it, what it may make of a row, and what
stays of a row.  Where a statement fails, the table is as it was. -/
structure Tickets (M : Machine S ε W Req Resp Rnd Env) (init : W → Prop) (T : W → List α)
    (key : α → κ) (Used : α → Prop) (new : S.Op → W → α → Prop) (use : S.Op → W → α → α → Prop)
    (le : α → α → Prop) : Prop where
  init : ∀ w, init w → T w = []
  env : ∀ {e w w'}, M.env e w = some w' → T w' = T w
  exec : ∀ {op r ans pre post}, M.exec op r pre = some (ans, post) →
    Changes (new op pre) (use op pre) (T pre) (T post)
  failed : ∀ {op r e pre post}, M.exec op r pre = some (.error e, post) → T post = T pre
  fresh : ∀ {op pre a}, new op pre a → key a ∉ (T pre).map key ∧ ¬Used a
  uses : ∀ {op pre a b}, use op pre a b → ¬Used a ∧ Used b ∧ le a b
  le_refl : ∀ a, le a a
  le_trans : ∀ {a b c}, le a b → le b c → le a c
  le_key : ∀ {a b}, le a b → key b = key a
  le_used : ∀ {a b}, le a b → Used a → Used b

namespace Tickets

variable {M : Machine S ε W Req Resp Rnd Env} {init : W → Prop} {T : W → List α} {key : α → κ}
  {Used : α → Prop} {new : S.Op → W → α → Prop} {use : S.Op → W → α → α → Prop}
  {le : α → α → Prop} {c : Config S ε W Req Resp} {i j : ℕ} {call call' : Call S ε W Req Resp}
  {e e' : Event S ε W} {a b a' b' : α} {k : κ}

/-- Rows stay, and are used up at most. -/
theorem stable (h : Tickets M init T key Used new use le) :
    M.Stable fun w w' => Carried le (T w) (T w') where
  refl _ := .refl h.le_refl _
  trans := .trans h.le_trans
  exec hexec := (h.exec hexec).carried h.le_refl fun _ _ _ huse => (h.uses huse).2.2
  env henv := h.env henv ▸ .refl h.le_refl _

/-- **Keys are unique**, now and at every place of every log. -/
theorem nodup (h : Tickets M init T key Used new use le) (hreach : M.Reachable init c) :
    ((T c.world).map key).Nodup ∧ ∀ (i : ℕ) call, c.calls[i]? = some call → ∀ e ∈ call.log,
      ((T e.pre).map key).Nodup ∧ ((T e.post).map key).Nodup := by
  refine hreach.holds (J := fun w => ((T w).map key).Nodup) (fun w hw => by simp [h.init w hw])
    (fun e w w' hw hn => (h.env hw).symm ▸ hn) fun op pre ans post hn hans => ?_
  rcases hans with ⟨r, hexec⟩ | ⟨_, rfl⟩
  · exact (h.exec hexec).nodup hn (fun a _ b huse => h.le_key (h.uses huse).2.2)
      fun a hnew => (h.fresh hnew).1
  · exact hn

/-- A ticket with the key has been issued. -/
def Issued (T : W → List α) (key : α → κ) (k : κ) (w : W) : Prop := ∃ a ∈ T w, key a = k

/-- A ticket with the key has been used up. -/
def Spent (T : W → List α) (key : α → κ) (Used : α → Prop) (k : κ) (w : W) : Prop :=
  ∃ a ∈ T w, key a = k ∧ Used a

variable [DecidableEq κ]

/-- **Every row has been issued** by a statement that succeeded. -/
theorem issued (h : Tickets M init T key Used new use le) (hreach : M.Reachable init c)
    (hb : b ∈ T c.world) : ∃ (j : ℕ) (issuer : Call S ε W Req Resp) (e : Event S ε W) (a : α),
      c.calls[j]? = some issuer ∧ e ∈ issuer.log ∧ (∃ v, e.ans = .ok v) ∧ new e.op e.pre a ∧
      a ∈ T e.post ∧ ¬Issued T key (key b) e.pre ∧ le a b := by
  obtain ⟨w, hw, hrun⟩ := id hreach
  obtain ⟨j, issuer, e, hj, he, _, hpre, a, ha, hkey⟩ := hrun.introduced
    (H := Issued T key (key b)) (by simp [Issued, Config.initial, h.init w hw]) ⟨b, hb, rfl⟩
    (fun e w w' hw' hissued => by rwa [Issued, h.env hw'] at hissued)
  have hcarried := (hreach.ordered h.stable).post hj e he
  have hle : le a b := hcarried.le_of_key (h.nodup hreach).1 h.le_key ha hb hkey.symm
  obtain ⟨n, pre, op, ans, post⟩ := e
  rcases hreach.valid.answers hj _ he with ⟨r, hexec⟩ | ⟨_, hsame⟩
  · rcases (h.exec hexec).mem_cases ha with ⟨a', ha', rfl | huse⟩ | hnew
    · exact absurd ⟨_, ha', hkey⟩ hpre
    · exact absurd ⟨a', ha', (h.le_key (h.uses huse).2.2).symm.trans hkey⟩ hpre
    · cases ans with
      | ok v => exact ⟨j, issuer, _, a, hj, he, ⟨v, rfl⟩, hnew, ha, hpre, hle⟩
      | error err => exact absurd ⟨a, h.failed hexec ▸ ha, hkey⟩ hpre
  · obtain rfl : post = pre := hsame
    exact absurd ⟨a, ha, hkey⟩ hpre

/-- Rows of one key have become the same row. -/
theorem same (h : Tickets M init T key Used new use le) (hreach : M.Reachable init c)
    (hb : b ∈ T c.world) (hb' : b' ∈ T c.world) (hle : le a b) (hle' : le a' b')
    (hkey : key a = key a') : b = b' :=
  eq_of_key (h.nodup hreach).1 hb hb' ((h.le_key hle).trans (hkey.trans (h.le_key hle').symm))

/-- **Every row a statement finds has been issued before**, by a statement that succeeded. -/
theorem issued_before (h : Tickets M init T key Used new use le) (hreach : M.Reachable init c)
    (hi : c.calls[i]? = some call) (he : e ∈ call.log) (ha : a ∈ T e.pre) :
    ∃ (j : ℕ) (issuer : Call S ε W Req Resp) (f : Event S ε W) (b : α),
      c.calls[j]? = some issuer ∧ f ∈ issuer.log ∧ f.seq < e.seq ∧ (∃ v, f.ans = .ok v) ∧
      new f.op f.pre b ∧ le b a := by
  obtain ⟨c', call', hreach', hrun, hworld, hseq, _⟩ := hreach.before hi he
  obtain ⟨j, issuer, f, b, hj, hf, hans, hnew, _, _, hle⟩ := h.issued hreach' (hworld.symm ▸ ha)
  obtain ⟨issuer', hj', hextends⟩ := hrun.extends hj
  exact ⟨j, issuer', f, b, hj', hextends.log.subset hf, hseq ▸ hreach'.valid.seq_lt hj f hf, hans,
    hnew, hle⟩

/-- **A ticket is used up once**: two statements that have used up a row of one key are the
same. -/
theorem spent_once (h : Tickets M init T key Used new use le) (hreach : M.Reachable init c)
    (hi : c.calls[i]? = some call) (hj : c.calls[j]? = some call') (he : e ∈ call.log)
    (he' : e' ∈ call'.log) (ha : a ∈ T e.pre) (huse : use e.op e.pre a b) (hb : b ∈ T e.post)
    (ha' : a' ∈ T e'.pre) (huse' : use e'.op e'.pre a' b') (hb' : b' ∈ T e'.post)
    (hkey : key a' = key a) : i = j ∧ e = e' := by
  have hspends : ∀ {i : ℕ} {call : Call S ε W Req Resp} {e : Event S ε W} {a b : α},
      c.calls[i]? = some call → e ∈ call.log → a ∈ T e.pre → use e.op e.pre a b → b ∈ T e.post →
      ¬Spent T key Used (key a) e.pre ∧ Spent T key Used (key a) e.post := by
    intro i call e a b hi he ha huse hb
    obtain ⟨hunused, hused, hle⟩ := h.uses huse
    refine ⟨?_, b, hb, h.le_key hle, hused⟩
    rintro ⟨a₁, ha₁, hkey₁, hused₁⟩
    have hn := ((h.nodup hreach).2 i call hi e he).1
    exact hunused (eq_of_key hn ha₁ ha hkey₁ ▸ hused₁)
  obtain ⟨hpre, hpost⟩ := hspends hi he ha huse hb
  obtain ⟨hpre', hpost'⟩ := hspends hj he' ha' huse' hb'
  rw [hkey] at hpre' hpost'
  refine (hreach.ordered h.stable).once hreach.valid (K := Spent T key Used (key a)) ?_ hi hj he he'
    hpre hpost hpre' hpost'
  rintro w w' hcarried ⟨a₁, ha₁, hkey₁, hused₁⟩
  obtain ⟨b₁, hb₁, hle⟩ := hcarried a₁ ha₁
  exact ⟨b₁, hb₁, (h.le_key hle).trans hkey₁, h.le_used hle hused₁⟩

/-- Before the event `e` the call has used up the row `a`, by the event `g`. -/
structure Redeems (T : W → List α) (use : S.Op → W → α → α → Prop) (call : Call S ε W Req Resp)
    (e g : Event S ε W) (a : α) : Prop where
  executed : g ∈ call.log
  before : g.seq < e.seq
  found : a ∈ T g.pre
  used : ∃ b ∈ T g.post, use g.op g.pre a b

/-- **Calls that have used up rows of one key are the same.** -/
theorem Redeems.once {g g' : Event S ε W} (hr : Redeems T use call e g a)
    (hr' : Redeems T use call' e' g' a') (h : Tickets M init T key Used new use le)
    (hreach : M.Reachable init c) (hi : c.calls[i]? = some call) (hj : c.calls[j]? = some call')
    (hkey : key a' = key a) : i = j := by
  obtain ⟨b, hb, huse⟩ := hr.used
  obtain ⟨b', hb', huse'⟩ := hr'.used
  exact (h.spent_once hreach hi hj hr.executed hr'.executed hr.found huse hb hr'.found huse' hb'
    hkey).1

end Tickets
end Machine
end Interleaving
end IdentityPlatform
