/-
# Interleaved runs of programs

A `Machine` gives the statements of a signature their meaning on a shared state
and each request its handler, a `Program`.  Its configurations hold the state
and every request accepted so far with what is left of its handler; a step
accepts a request, executes the next statement of one of them, lets that
statement fail without effect, or is a step of the environment.  Handlers that
are never scheduled again are crashed processes, so nothing is assumed about
progress.

The nondeterminism of a statement (a generated identifier, say) is resolved by
the scheduler, who passes a value of type `Rnd`; a statement may refuse a value,
and then that step does not exist.

`step_cases` says once what a step can do.  `Valid` collects what holds of the
logs in every run: the handler of a call really can produce its log, each entry
is an answer the machine gives, and the places in the run are in order.
-/

import IdentityPlatform.Interleaving.Program

namespace IdentityPlatform
namespace Interleaving

/-- Handlers for requests and the meaning of their statements. -/
structure Machine (S : Signature) (ε W Req Resp Rnd Env : Type) where
  handler : Req → Program S ε Resp
  exec : (op : S.Op) → Rnd → W → Option (Except ε (S.Ans op) × W)
  env : Env → W → Option W
  fault : ε

/-- An accepted request: when and in which state it was accepted, its log, and
what its handler has left to do. -/
structure Call (S : Signature) (ε W Req Resp : Type) where
  req : Req
  startSeq : ℕ
  start : W
  log : Log S ε W
  prog : Program S ε Resp

/-- The answer of a call that has returned. -/
def Call.result {S : Signature} {ε W Req Resp : Type} (call : Call S ε W Req Resp) :
    Option (Except ε Resp) :=
  match call.prog with
  | .done r => some r
  | .call _ _ => none

/-- The state, the number of steps made and the requests accepted so far. -/
structure Config (S : Signature) (ε W Req Resp : Type) where
  world : W
  seq : ℕ
  calls : List (Call S ε W Req Resp)

/-- The value call `i` has returned. -/
def Config.returned {S : Signature} {ε W Req Resp : Type} (c : Config S ε W Req Resp) (i : ℕ) :
    Option Resp :=
  c.calls[i]?.bind fun call => call.result.bind Except.toOption

/-- One step of a run. -/
inductive Action (Req Rnd Env : Type) : Type
  | accept (req : Req)
  | step (i : ℕ) (r : Rnd)
  | fail (i : ℕ)
  | env (e : Env)

variable {S : Signature} {ε W Req Resp Rnd Env : Type}

/-- Nothing accepted yet. -/
def Config.initial (w : W) : Config S ε W Req Resp := ⟨w, 0, []⟩

/-- Call `i` has executed `op` with answer `ans` and goes on with `prog`. -/
def Config.record (c : Config S ε W Req Resp) (i : ℕ) (call : Call S ε W Req Resp) (op : S.Op)
    (ans : Except ε (S.Ans op)) (post : W) (prog : Program S ε Resp) : Config S ε W Req Resp where
  world := post
  seq := c.seq + 1
  calls := c.calls.set i
    { call with log := ⟨c.seq, c.world, op, ans, post⟩ :: call.log, prog := prog }

namespace Machine

variable (M : Machine S ε W Req Resp Rnd Env)

/-- A request enters with its whole handler to do. -/
def accept (c : Config S ε W Req Resp) (req : Req) : Config S ε W Req Resp where
  world := c.world
  seq := c.seq + 1
  calls := c.calls ++ [⟨req, c.seq, c.world, [], M.handler req⟩]

/-- The configuration after an action, if the action is possible. -/
def apply (c : Config S ε W Req Resp) : Action Req Rnd Env → Option (Config S ε W Req Resp)
  | .accept req => some (M.accept c req)
  | .step i r =>
      match c.calls[i]? with
      | none => none
      | some call =>
          match call.prog with
          | .done _ => none
          | .call op k =>
              match M.exec op r c.world with
              | none => none
              | some (ans, post) => some (c.record i call op ans post (k ans))
  | .fail i =>
      match c.calls[i]? with
      | none => none
      | some call =>
          match call.prog with
          | .done _ => none
          | .call op k => some (c.record i call op (.error M.fault) c.world (k (.error M.fault)))
  | .env e => (M.env e c.world).map fun w => { c with world := w, seq := c.seq + 1 }

/-- The answers and states a statement can lead to: those of an execution, or
the failure without effect. -/
def Answers (op : S.Op) (pre : W) (ans : Except ε (S.Ans op)) (post : W) : Prop :=
  (∃ r, M.exec op r pre = some (ans, post)) ∨ (ans = .error M.fault ∧ post = pre)

/-- A statement that succeeds has been executed. -/
theorem Answers.exec {M : Machine S ε W Req Resp Rnd Env} {op : S.Op} {pre post : W} {a : S.Ans op}
    (h : M.Answers op pre (.ok a) post) : ∃ r, M.exec op r pre = some (.ok a, post) := by
  rcases h with h | ⟨h, _⟩
  · exact h
  · exact absurd h (by simp)

/-- A call executes its next statement, with the random value of the scheduler. -/
theorem apply_step {M : Machine S ε W Req Resp Rnd Env} {c c' : Config S ε W Req Resp} {i : ℕ}
    {r : Rnd} (h : M.apply c (.step i r) = some c') :
    ∃ call op k ans post, c.calls[i]? = some call ∧ call.prog = .call op k ∧
      M.exec op r c.world = some (ans, post) ∧ c' = c.record i call op ans post (k ans) := by
  simp only [apply] at h
  split at h
  · cases h
  · rename_i call hcall
    split at h
    · cases h
    · rename_i op k hprog
      split at h
      · cases h
      · rename_i ans post hexec
        exact ⟨call, op, k, ans, post, hcall, hprog, hexec, (Option.some.inj h).symm⟩

/-- The next statement of a call fails without effect. -/
theorem apply_fail {M : Machine S ε W Req Resp Rnd Env} {c c' : Config S ε W Req Resp} {i : ℕ}
    (h : M.apply c (.fail i) = some c') : ∃ call op k, c.calls[i]? = some call ∧
      call.prog = .call op k ∧
      c' = c.record i call op (.error M.fault) c.world (k (.error M.fault)) := by
  simp only [apply] at h
  split at h
  · cases h
  · rename_i call hcall
    split at h
    · cases h
    · rename_i op k hprog
      exact ⟨call, op, k, hcall, hprog, (Option.some.inj h).symm⟩

/-- **What a step can do.**  It accepts a request, or one call executes its next
statement, or the environment moves. -/
theorem step_cases {M : Machine S ε W Req Resp Rnd Env} {c c' : Config S ε W Req Resp}
    {a : Action Req Rnd Env} (h : M.apply c a = some c') :
    (∃ req, a = .accept req ∧ c' = M.accept c req) ∨
    (∃ i call op k ans post, (a = .fail i ∨ ∃ r, a = .step i r) ∧ c.calls[i]? = some call ∧
      call.prog = .call op k ∧ M.Answers op c.world ans post ∧
      c' = c.record i call op ans post (k ans)) ∨
    (∃ e w, a = .env e ∧ M.env e c.world = some w ∧
      c' = { c with world := w, seq := c.seq + 1 }) := by
  cases a with
  | accept req => exact .inl ⟨req, rfl, by simpa [apply] using h.symm⟩
  | step i r =>
      obtain ⟨call, op, k, ans, post, hcall, hprog, hexec, rfl⟩ := apply_step h
      exact .inr (.inl ⟨i, call, op, k, ans, post, .inr ⟨r, rfl⟩, hcall, hprog,
        .inl ⟨r, hexec⟩, rfl⟩)
  | fail i =>
      obtain ⟨call, op, k, hcall, hprog, rfl⟩ := apply_fail h
      exact .inr (.inl ⟨i, call, op, k, _, _, .inl rfl, hcall, hprog, .inr ⟨rfl, rfl⟩, rfl⟩)
  | env e =>
      obtain ⟨w, hw, rfl⟩ := Option.map_eq_some_iff.1 h
      exact .inr (.inr ⟨e, w, rfl, hw, rfl⟩)

/-- `c'` is reached from `c` by steps that all satisfy `ok`. -/
inductive Runs (ok : Config S ε W Req Resp → Action Req Rnd Env → Prop) :
    Config S ε W Req Resp → Config S ε W Req Resp → Prop
  | refl (c) : Runs ok c c
  | tail {c c' c''} {a} (h : Runs ok c c') (hok : ok c' a) (hs : M.apply c' a = some c'') :
      Runs ok c c''

/-- Any run. -/
abbrev Run : Config S ε W Req Resp → Config S ε W Req Resp → Prop := M.Runs fun _ _ => True

/-- The configurations of runs from a state in `init`. -/
def Reachable (init : W → Prop) (c : Config S ε W Req Resp) : Prop :=
  ∃ w, init w ∧ M.Run (Config.initial w) c

variable {M} {ok ok' : Config S ε W Req Resp → Action Req Rnd Env → Prop}
  {c c' c'' : Config S ε W Req Resp}

theorem Runs.mono (h : M.Runs ok c c') (himp : ∀ c a, ok c a → ok' c a) : M.Runs ok' c c' := by
  induction h with
  | refl => exact .refl _
  | tail _ hok hs ih => exact .tail ih (himp _ _ hok) hs

theorem Runs.run (h : M.Runs ok c c') : M.Run c c' := h.mono fun _ _ _ => trivial

theorem Runs.trans (h₁ : M.Runs ok c c') (h₂ : M.Runs ok c' c'') : M.Runs ok c c'' := by
  induction h₂ with
  | refl => exact h₁
  | tail _ hok hs ih => exact .tail ih hok hs

theorem Reachable.run {init : W → Prop} (h : M.Reachable init c) (hr : M.Runs ok c c') :
    M.Reachable init c' := by
  obtain ⟨w, hw, h⟩ := h
  exact ⟨w, hw, h.trans hr.run⟩

/-- **Invariants.**  What every step preserves holds along a run. -/
theorem Runs.invariant {I : Config S ε W Req Resp → Prop} (h : M.Runs ok c c') (h₀ : I c)
    (hstep : ∀ c a c', I c → ok c a → M.apply c a = some c' → I c') : I c' := by
  induction h with
  | refl => exact h₀
  | tail _ hok hs ih => exact hstep _ _ _ ih hok hs

/-- Invariants of reachable configurations, whose steps may use that they are. -/
theorem Reachable.invariant {init : W → Prop} {I : Config S ε W Req Resp → Prop}
    (h : M.Reachable init c) (h₀ : ∀ w, init w → I (Config.initial w))
    (hstep : ∀ c a c', M.Reachable init c → I c → M.apply c a = some c' → I c') : I c := by
  obtain ⟨w, hw, h⟩ := h
  refine (h.invariant (I := fun c => M.Reachable init c ∧ I c)
    ⟨⟨w, hw, .refl _⟩, h₀ w hw⟩ ?_).2
  rintro c₁ a c₂ ⟨hreach, hI⟩ _ hs
  have hrun : M.Run c₁ c₂ := .tail (.refl c₁) trivial hs
  exact ⟨hreach.run hrun, hstep c₁ a c₂ hreach hI hs⟩

/-! ### Playing a run -/

section Play

variable (M) (choose : S.Op → ℕ → Rnd)

/-- Execute up to `n` statements of call `i`, with the random values `choose`
gives for them. -/
def advance (i : ℕ) : ℕ → Config S ε W Req Resp → Option (Config S ε W Req Resp)
  | 0, c => some c
  | n + 1, c =>
      match c.calls[i]? with
      | none => none
      | some call =>
          match call.prog with
          | .done _ => some c
          | .call op _ => (M.apply c (.step i (choose op c.seq))).bind (advance i n)

/-- A part of a run: a request arrives, which may be made from the state, a call
executes some statements, or the environment moves. -/
inductive Move (W Req Env : Type) : Type
  | accept (req : W → Req)
  | steps (i n : ℕ)
  | env (e : Env)

def move (c : Config S ε W Req Resp) : Move W Req Env → Option (Config S ε W Req Resp)
  | .accept req => M.apply c (.accept (req c.world))
  | .steps i n => M.advance choose i n c
  | .env e => M.apply c (.env e)

/-- Play a list of moves. -/
def play : List (Move W Req Env) → Config S ε W Req Resp → Option (Config S ε W Req Resp)
  | [], c => some c
  | m :: ms, c => (M.move choose c m).bind (play ms)

variable {M choose}

theorem run_of_apply {a : Action Req Rnd Env} (h : M.apply c a = some c') : M.Run c c' :=
  .tail (.refl _) trivial h

variable {ok : Config S ε W Req Resp → Action Req Rnd Env → Prop}

/-- Advancing a call is a run of its steps. -/
theorem runs_of_advance {i n : ℕ} (hok : ∀ c op, ok c (.step i (choose op c.seq)))
    (h : M.advance choose i n c = some c') : M.Runs ok c c' := by
  induction n generalizing c with
  | zero => exact Option.some.inj h ▸ .refl _
  | succ n ih =>
      simp only [advance] at h
      split at h
      · cases h
      · split at h
        · exact Option.some.inj h ▸ .refl _
        · obtain ⟨c₁, h₁, h₂⟩ := Option.bind_eq_some_iff.1 h
          exact (Runs.tail (.refl _) (hok _ _) h₁).trans (ih h₂)

/-- A played list of moves is a run of the actions it stands for. -/
theorem runs_of_play {ms : List (Move W Req Env)} (haccept : ∀ c req, ok c (.accept req))
    (hstep : ∀ c i op, ok c (.step i (choose op c.seq))) (henv : ∀ c e, ok c (.env e))
    (h : M.play choose ms c = some c') : M.Runs ok c c' := by
  induction ms generalizing c with
  | nil => exact Option.some.inj h ▸ .refl _
  | cons m ms ih =>
      obtain ⟨c₁, h₁, h₂⟩ := Option.bind_eq_some_iff.1 h
      refine Runs.trans ?_ (ih h₂)
      cases m with
      | accept req => exact .tail (.refl c) (haccept c _) h₁
      | steps i n => exact runs_of_advance (fun c op => hstep c i op) h₁
      | env e => exact .tail (.refl c) (henv c e) h₁

/-- A played list of moves is a run. -/
theorem run_of_play {ms : List (Move W Req Env)} (h : M.play choose ms c = some c') :
    M.Run c c' :=
  runs_of_play (fun _ _ => trivial) (fun _ _ _ => trivial) (fun _ _ => trivial) h

end Play

end Machine

/-! ### Calls through a step -/

/-- What the calls of a later configuration have in common with a call of an
earlier one, `n` being the number of steps made at the earlier one. -/
structure Call.Extends (n : ℕ) (call call' : Call S ε W Req Resp) : Prop where
  req : call'.req = call.req
  startSeq : call'.startSeq = call.startSeq
  start : call'.start = call.start
  log : call.log <:+ call'.log
  new : ∀ e ∈ call'.log, e ∈ call.log ∨ n ≤ e.seq
  done : ∀ r, call.prog = .done r → call' = call

theorem Call.Extends.refl (n : ℕ) (call : Call S ε W Req Resp) : call.Extends n call :=
  ⟨rfl, rfl, rfl, List.suffix_refl _, fun _ h => .inl h, fun _ _ => rfl⟩

theorem Call.Extends.trans {n n' : ℕ} {call call' call'' : Call S ε W Req Resp} (hn : n ≤ n')
    (h : call.Extends n call') (h' : call'.Extends n' call'') : call.Extends n call'' where
  req := h'.req.trans h.req
  startSeq := h'.startSeq.trans h.startSeq
  start := h'.start.trans h.start
  log := h.log.trans h'.log
  new e he := by
    rcases h'.new e he with he | he
    · exact h.new e he
    · exact .inr (hn.trans he)
  done r hr := by
    obtain rfl := h.done r hr
    exact h'.done r hr

namespace Config

variable {c : Config S ε W Req Resp} {i j : ℕ} {call call' : Call S ε W Req Resp} {op : S.Op}
  {ans : Except ε (S.Ans op)} {post : W} {prog : Program S ε Resp}

@[simp] theorem record_world : (c.record i call op ans post prog).world = post := rfl

@[simp] theorem record_seq : (c.record i call op ans post prog).seq = c.seq + 1 := rfl

/-- The call that has moved. -/
theorem record_get_self (h : c.calls[i]? = some call) :
    (c.record i call op ans post prog).calls[i]? =
      some { call with log := ⟨c.seq, c.world, op, ans, post⟩ :: call.log, prog := prog } := by
  have hi : i < c.calls.length := (List.getElem?_eq_some_iff.1 h).1
  simp [record, hi]

/-- The calls that have not. -/
theorem record_get_ne (h : j ≠ i) :
    (c.record i call op ans post prog).calls[j]? = c.calls[j]? := by
  simp [record, List.getElem?_set_ne (Ne.symm h)]

@[simp] theorem record_length :
    (c.record i call op ans post prog).calls.length = c.calls.length := by
  simp [record]

/-- A call after the step is one from before, or the one that has moved. -/
theorem record_get_cases (h : c.calls[i]? = some call)
    (h' : (c.record i call op ans post prog).calls[j]? = some call') :
    (j ≠ i ∧ c.calls[j]? = some call') ∨ (j = i ∧ call' =
      { call with log := ⟨c.seq, c.world, op, ans, post⟩ :: call.log, prog := prog }) := by
  by_cases hj : j = i
  · subst hj
    exact .inr ⟨rfl, Option.some.inj (h'.symm.trans (record_get_self h))⟩
  · exact .inl ⟨hj, record_get_ne hj ▸ h'⟩

/-- A call after the step was accepted before it. -/
theorem record_get_start (h : c.calls[i]? = some call)
    (h' : (c.record i call op ans post prog).calls[j]? = some call') :
    ∃ call'', c.calls[j]? = some call'' ∧ call''.req = call'.req ∧
      call''.startSeq = call'.startSeq ∧ call''.start = call'.start := by
  rcases record_get_cases h h' with ⟨_, hj⟩ | ⟨rfl, rfl⟩
  · exact ⟨_, hj, rfl, rfl, rfl⟩
  · exact ⟨_, h, rfl, rfl, rfl⟩

/-- Some call has executed the event. -/
def Logged (c : Config S ε W Req Resp) (e : Event S ε W) : Prop :=
  ∃ (i : ℕ) (call : Call S ε W Req Resp), c.calls[i]? = some call ∧ e ∈ call.log

/-- A statement adds one event. -/
theorem logged_record (h : c.calls[i]? = some call) {e : Event S ε W} :
    (c.record i call op ans post prog).Logged e ↔
      c.Logged e ∨ e = ⟨c.seq, c.world, op, ans, post⟩ := by
  constructor
  · rintro ⟨j, call', hj, he⟩
    rcases record_get_cases h hj with ⟨_, hj⟩ | ⟨rfl, rfl⟩
    · exact .inl ⟨j, call', hj, he⟩
    · rcases List.mem_cons.1 he with rfl | he
      · exact .inr rfl
      · exact .inl ⟨j, call, h, he⟩
  · rintro (⟨j, call', hj, he⟩ | rfl)
    · by_cases hij : j = i
      · subst hij
        obtain rfl := Option.some.inj (h.symm.trans hj)
        exact ⟨j, _, record_get_self h, List.mem_cons_of_mem _ he⟩
      · exact ⟨j, call', by rw [record_get_ne hij, hj], he⟩
    · exact ⟨i, _, record_get_self h, List.mem_cons_self ..⟩

end Config

namespace Machine

variable {M : Machine S ε W Req Resp Rnd Env}
  {ok : Config S ε W Req Resp → Action Req Rnd Env → Prop} {c c' : Config S ε W Req Resp}

theorem accept_get_cases {req : Req} {j : ℕ} {call : Call S ε W Req Resp}
    (h : (M.accept c req).calls[j]? = some call) :
    (j < c.calls.length ∧ c.calls[j]? = some call) ∨
      (j = c.calls.length ∧ call = ⟨req, c.seq, c.world, [], M.handler req⟩) := by
  rcases Nat.lt_trichotomy j c.calls.length with hj | hj | hj
  · exact .inl ⟨hj, by simpa [accept, List.getElem?_append_left hj] using h⟩
  · subst hj
    exact .inr ⟨rfl, by simpa [accept] using h.symm⟩
  · rw [accept, List.getElem?_append_right hj.le, List.getElem?_eq_none (by simp; omega)] at h
    cases h

theorem accept_get_old {req : Req} {j : ℕ} {call : Call S ε W Req Resp}
    (h : c.calls[j]? = some call) : (M.accept c req).calls[j]? = some call := by
  simp [accept, List.getElem?_append_left (List.getElem?_eq_some_iff.1 h).1, h]

/-- An arriving request has executed nothing. -/
theorem logged_accept {req : Req} {e : Event S ε W} : (M.accept c req).Logged e ↔ c.Logged e := by
  constructor
  · rintro ⟨j, call, hj, he⟩
    rcases accept_get_cases hj with ⟨_, hj⟩ | ⟨_, rfl⟩
    · exact ⟨j, call, hj, he⟩
    · cases he
  · rintro ⟨j, call, hj, he⟩
    exact ⟨j, call, accept_get_old hj, he⟩

theorem apply_seq {a : Action Req Rnd Env} (h : M.apply c a = some c') : c'.seq = c.seq + 1 := by
  rcases step_cases h with ⟨req, _, rfl⟩ | ⟨i, call, op, k, ans, post, _, _, _, _, rfl⟩ |
    ⟨e, w, _, _, rfl⟩ <;> rfl

/-- A call stays the same call. -/
theorem apply_length_le {a : Action Req Rnd Env} (h : M.apply c a = some c') :
    c.calls.length ≤ c'.calls.length := by
  rcases step_cases h with ⟨req, _, rfl⟩ | ⟨i, call, op, k, ans, post, _, _, _, _, rfl⟩ |
    ⟨e, w, _, _, rfl⟩ <;> simp [accept]

theorem apply_extends {a : Action Req Rnd Env} (h : M.apply c a = some c') {j : ℕ}
    {call : Call S ε W Req Resp} (hj : c.calls[j]? = some call) :
    ∃ call', c'.calls[j]? = some call' ∧ call.Extends c.seq call' := by
  rcases step_cases h with ⟨req, _, rfl⟩ | ⟨i, mover, op, k, ans, post, _, hi, hp, _, rfl⟩ |
    ⟨e, w, _, _, rfl⟩
  · exact ⟨call, accept_get_old hj, .refl _ _⟩
  · by_cases hji : j = i
    · subst hji
      obtain rfl := Option.some.inj (hi.symm.trans hj)
      refine ⟨_, Config.record_get_self hj, rfl, rfl, rfl, List.suffix_cons _ _, fun e he => ?_,
        fun r hr => ?_⟩
      · rcases List.mem_cons.1 he with rfl | he
        · exact .inr le_rfl
        · exact .inl he
      · rw [hp] at hr
        cases hr
    · exact ⟨call, by rw [Config.record_get_ne hji, hj], .refl _ _⟩
  · exact ⟨call, hj, .refl _ _⟩

theorem Runs.seq_le (h : M.Runs ok c c') : c.seq ≤ c'.seq := by
  induction h with
  | refl => exact le_rfl
  | tail _ _ hs ih => rw [apply_seq hs]; omega

/-- **A call stays the same call along a run**, its log only grows, and when it
has returned it does not change any more. -/
theorem Runs.extends (h : M.Runs ok c c') {j : ℕ} {call : Call S ε W Req Resp}
    (hj : c.calls[j]? = some call) :
    ∃ call', c'.calls[j]? = some call' ∧ call.Extends c.seq call' := by
  induction h with
  | refl => exact ⟨call, hj, .refl _ _⟩
  | tail h _ hs ih =>
      obtain ⟨call₁, hj₁, he₁⟩ := ih
      obtain ⟨call₂, hj₂, he₂⟩ := apply_extends hs hj₁
      exact ⟨call₂, hj₂, he₁.trans h.seq_le he₂⟩

/-- What holds of the logs of every run. -/
structure Valid (M : Machine S ε W Req Resp Rnd Env) (c : Config S ε W Req Resp) : Prop where
  returns : ∀ {i : ℕ} {call}, c.calls[i]? = some call →
    ∀ l r, call.prog.Returns call.log l r → (M.handler call.req).Returns [] l r
  reaches : ∀ {i : ℕ} {call}, c.calls[i]? = some call →
    ∀ l op, call.prog.Reaches call.log l op → (M.handler call.req).Reaches [] l op
  reached : ∀ {i : ℕ} {call}, c.calls[i]? = some call → ∀ e ∈ call.log,
    ∃ l, (M.handler call.req).Reaches [] l e.op ∧ (e :: l) <:+ call.log
  answers : ∀ {i : ℕ} {call}, c.calls[i]? = some call → ∀ e ∈ call.log,
    M.Answers e.op e.pre e.ans e.post
  seq_lt : ∀ {i : ℕ} {call}, c.calls[i]? = some call → ∀ e ∈ call.log, e.seq < c.seq
  start_lt : ∀ {i : ℕ} {call}, c.calls[i]? = some call → ∀ e ∈ call.log, call.startSeq < e.seq
  startSeq_lt : ∀ {i : ℕ} {call}, c.calls[i]? = some call → call.startSeq < c.seq
  seq_inj : ∀ {i j : ℕ} {call call'}, c.calls[i]? = some call → c.calls[j]? = some call' →
    ∀ e ∈ call.log, ∀ e' ∈ call'.log, e.seq = e'.seq → i = j ∧ e = e'
  sorted : ∀ {i : ℕ} {call}, c.calls[i]? = some call →
    call.log.Pairwise fun e e' => e'.seq < e.seq

theorem Valid.initial (w : W) : M.Valid (Config.initial w) := by
  constructor <;> simp [Config.initial]

theorem Valid.accept (h : M.Valid c) (req : Req) : M.Valid (M.accept c req) where
  returns hi l r hr := by
    rcases accept_get_cases hi with ⟨_, hi⟩ | ⟨_, rfl⟩
    · exact h.returns hi l r hr
    · exact hr
  reaches hi l op hr := by
    rcases accept_get_cases hi with ⟨_, hi⟩ | ⟨_, rfl⟩
    · exact h.reaches hi l op hr
    · exact hr
  reached hi e he := by
    rcases accept_get_cases hi with ⟨_, hi⟩ | ⟨_, rfl⟩
    · exact h.reached hi e he
    · cases he
  answers hi e he := by
    rcases accept_get_cases hi with ⟨_, hi⟩ | ⟨_, rfl⟩
    · exact h.answers hi e he
    · cases he
  seq_lt hi e he := by
    rcases accept_get_cases hi with ⟨_, hi⟩ | ⟨_, rfl⟩
    · exact Nat.lt_succ_of_lt (h.seq_lt hi e he)
    · cases he
  start_lt hi e he := by
    rcases accept_get_cases hi with ⟨_, hi⟩ | ⟨_, rfl⟩
    · exact h.start_lt hi e he
    · cases he
  startSeq_lt hi := by
    rcases accept_get_cases hi with ⟨_, hi⟩ | ⟨_, rfl⟩
    · exact Nat.lt_succ_of_lt (h.startSeq_lt hi)
    · exact Nat.lt_succ_self _
  seq_inj hi hj e he e' he' := by
    rcases accept_get_cases hi with ⟨_, hi⟩ | ⟨_, rfl⟩
    · rcases accept_get_cases hj with ⟨_, hj⟩ | ⟨_, rfl⟩
      · exact h.seq_inj hi hj e he e' he'
      · cases he'
    · cases he
  sorted hi := by
    rcases accept_get_cases hi with ⟨_, hi⟩ | ⟨_, rfl⟩
    · exact h.sorted hi
    · exact .nil

theorem Valid.record (h : M.Valid c) {i : ℕ} {call : Call S ε W Req Resp} {op : S.Op}
    {k : Except ε (S.Ans op) → Program S ε Resp} {ans : Except ε (S.Ans op)} {post : W}
    (hi : c.calls[i]? = some call) (hp : call.prog = .call op k)
    (ha : M.Answers op c.world ans post) : M.Valid (c.record i call op ans post (k ans)) where
  returns hj l r hr := by
    rcases Config.record_get_cases hi hj with ⟨_, hj⟩ | ⟨_, rfl⟩
    · exact h.returns hj l r hr
    · exact h.returns hi l r (hp ▸ ⟨_, _, _, _, hr⟩)
  reaches hj l op hr := by
    rcases Config.record_get_cases hi hj with ⟨_, hj⟩ | ⟨_, rfl⟩
    · exact h.reaches hj l op hr
    · exact h.reaches hi l op (hp ▸ .inr ⟨_, _, _, _, hr⟩)
  reached hj e he := by
    rcases Config.record_get_cases hi hj with ⟨_, hj⟩ | ⟨_, rfl⟩
    · exact h.reached hj e he
    · rcases List.mem_cons.1 he with rfl | he
      · exact ⟨_, h.reaches hi _ _ (hp ▸ .inl ⟨rfl, rfl⟩), List.suffix_refl _⟩
      · obtain ⟨l, hr, hl⟩ := h.reached hi e he
        exact ⟨l, hr, hl.trans (List.suffix_cons _ _)⟩
  answers hj e he := by
    rcases Config.record_get_cases hi hj with ⟨_, hj⟩ | ⟨_, rfl⟩
    · exact h.answers hj e he
    · rcases List.mem_cons.1 he with rfl | he
      · exact ha
      · exact h.answers hi e he
  seq_lt hj e he := by
    rcases Config.record_get_cases hi hj with ⟨_, hj⟩ | ⟨_, rfl⟩
    · exact Nat.lt_succ_of_lt (h.seq_lt hj e he)
    · rcases List.mem_cons.1 he with rfl | he
      · exact Nat.lt_succ_self _
      · exact Nat.lt_succ_of_lt (h.seq_lt hi e he)
  start_lt hj e he := by
    rcases Config.record_get_cases hi hj with ⟨_, hj⟩ | ⟨_, rfl⟩
    · exact h.start_lt hj e he
    · rcases List.mem_cons.1 he with rfl | he
      · have := h.startSeq_lt hi
        exact this
      · exact h.start_lt hi e he
  startSeq_lt hj := by
    rcases Config.record_get_cases hi hj with ⟨_, hj⟩ | ⟨_, rfl⟩
    · exact Nat.lt_succ_of_lt (h.startSeq_lt hj)
    · have := h.startSeq_lt hi
      exact Nat.lt_succ_of_lt this
  seq_inj {j j' _ _} hj hj' e he e' he' heq := by
    rcases Config.record_get_cases hi hj with ⟨_, h₁⟩ | ⟨hj₁, rfl⟩ <;>
      rcases Config.record_get_cases hi hj' with ⟨_, h₂⟩ | ⟨hj₂, rfl⟩
    · exact h.seq_inj h₁ h₂ e he e' he' heq
    · rcases List.mem_cons.1 he' with rfl | he'
      · exact absurd heq (h.seq_lt h₁ e he).ne
      · exact hj₂ ▸ h.seq_inj h₁ hi e he e' he' heq
    · rcases List.mem_cons.1 he with rfl | he
      · exact absurd heq.symm (h.seq_lt h₂ e' he').ne
      · exact hj₁ ▸ h.seq_inj hi h₂ e he e' he' heq
    · rw [hj₁, hj₂]
      rcases List.mem_cons.1 he with rfl | he <;> rcases List.mem_cons.1 he' with rfl | he'
      · exact ⟨rfl, rfl⟩
      · exact absurd heq.symm (h.seq_lt hi e' he').ne
      · exact absurd heq (h.seq_lt hi e he).ne
      · exact h.seq_inj hi hi e he e' he' heq
  sorted hj := by
    rcases Config.record_get_cases hi hj with ⟨_, hj⟩ | ⟨_, rfl⟩
    · exact h.sorted hj
    · exact List.pairwise_cons.2 ⟨fun e he => h.seq_lt hi e he, h.sorted hi⟩

theorem Valid.apply (h : M.Valid c) {a : Action Req Rnd Env} (hs : M.apply c a = some c') :
    M.Valid c' := by
  rcases step_cases hs with ⟨req, _, rfl⟩ | ⟨i, call, op, k, ans, post, _, hi, hp, ha, rfl⟩ |
    ⟨e, w, _, _, rfl⟩
  · exact h.accept req
  · exact h.record hi hp ha
  · exact { h with
      seq_lt := fun hi e he => Nat.lt_succ_of_lt (h.seq_lt hi e he)
      startSeq_lt := fun hi => Nat.lt_succ_of_lt (h.startSeq_lt hi) }

theorem Runs.valid (h : M.Runs ok c c') (h₀ : M.Valid c) : M.Valid c' :=
  h.invariant h₀ fun _ _ _ hv _ hs => hv.apply hs

theorem Reachable.valid {init : W → Prop} (h : M.Reachable init c) : M.Valid c := by
  obtain ⟨w, _, h⟩ := h
  exact h.valid (.initial w)

theorem Call.prog_of_result {call : Call S ε W Req Resp} {r : Except ε Resp}
    (h : call.result = some r) : call.prog = .done r := by
  unfold Call.result at h
  split at h
  · rename_i hp
    rw [hp, Option.some.inj h]
  · cases h

theorem Config.returned_eq_some {i : ℕ} {response : Resp} (h : c.returned i = some response) :
    ∃ call, c.calls[i]? = some call ∧ call.result = some (.ok response) := by
  obtain ⟨call, hi, h⟩ := Option.bind_eq_some_iff.1 h
  obtain ⟨r, hr, hok⟩ := Option.bind_eq_some_iff.1 h
  cases r with
  | error e => cases hok
  | ok a => exact ⟨call, hi, by rw [hr, Option.some.inj hok]⟩

/-- A returned call has a complete log of its handler. -/
theorem Valid.returned (h : M.Valid c) {i : ℕ} {call : Call S ε W Req Resp} {r : Except ε Resp}
    (hi : c.calls[i]? = some call) (hr : call.result = some r) :
    (M.handler call.req).Returns [] call.log r :=
  h.returns hi _ _ (Call.prog_of_result hr ▸ ⟨rfl, rfl⟩)

/-- What is further down in a log has been executed earlier. -/
theorem Valid.earlier (h : M.Valid c) {i : ℕ} {call : Call S ε W Req Resp}
    (hi : c.calls[i]? = some call) {e e' : Event S ε W} {l : Log S ε W} (hl : e :: l <:+ call.log)
    (he' : e' ∈ l) : e'.seq < e.seq := by
  have hsorted := (h.sorted hi).sublist hl.sublist
  exact (List.pairwise_cons.1 hsorted).1 e' he'

/-- An event has one place in a log. -/
theorem Valid.place (h : M.Valid c) {i : ℕ} {call : Call S ε W Req Resp}
    (hi : c.calls[i]? = some call) {e : Event S ε W} {l l' : Log S ε W}
    (hl : e :: l <:+ call.log) (hl' : e :: l' <:+ call.log) : l = l' := by
  have hfurther : ∀ {l l' : Log S ε W}, e :: l' <:+ call.log → ¬e :: l <:+ l' :=
    fun hl' hs => Nat.lt_irrefl _ (h.earlier hi hl' (hs.subset (List.mem_cons_self ..)))
  rcases List.suffix_or_suffix_of_suffix hl hl' with hs | hs
  · rcases List.suffix_cons_iff.1 hs with heq | hs
    · exact (List.cons.inj heq).2
    · exact absurd hs (hfurther hl')
  · rcases List.suffix_cons_iff.1 hs with heq | hs
    · exact (List.cons.inj heq).2.symm
    · exact absurd hs (hfurther hl)

/-- The statement a call is about to execute is one its handler reaches. -/
theorem Valid.next (h : M.Valid c) {i : ℕ} {call : Call S ε W Req Resp} {op : S.Op}
    {k : Except ε (S.Ans op) → Program S ε Resp} (hi : c.calls[i]? = some call)
    (hp : call.prog = .call op k) : (M.handler call.req).Reaches [] call.log op :=
  h.reaches hi _ _ (hp ▸ .inl ⟨rfl, rfl⟩)

/-- What handlers respect, executed statements have respected. -/
theorem Valid.respected (h : M.Valid c) {P : Req → Log S ε W → S.Op → Prop}
    (hP : ∀ req, Program.Respects (P req) [] (M.handler req)) {i : ℕ} {call : Call S ε W Req Resp}
    (hi : c.calls[i]? = some call) {e : Event S ε W} (he : e ∈ call.log) :
    ∃ l, P call.req l e.op ∧ (e :: l) <:+ call.log := by
  obtain ⟨l, hr, hl⟩ := h.reached hi e he
  exact ⟨l, hP call.req l e.op hr, hl⟩

end Machine

end Interleaving
end IdentityPlatform
