/-
# Migrations take effect once

Runs of the migrations may overlap, fail at any command and lose any reply.  A run decides
once, at its beginning, which files are left; that a file takes effect once although this
is out of date rests on its transaction alone: what a transaction inserts is the effect of
one file and its record (`Recorded`), and the key of the records lets one of them commit.
-/

import IdentityPlatform.Modules.Migrations

namespace IdentityPlatform
namespace Migrations

open Interleaving Program Machine Relational Versioned Transactions Database

variable {dir files earlier later applied : List String} {file file' : String}
  {l l₀ l' : MigrationLog} {t : ℕ} {op : TxCommand MigrationRow}

/-! ### What a run sends -/

/-- No command has failed. -/
def Clean (l : MigrationLog) : Prop := ∀ e ∈ l, ∃ a, e.ans = .ok a

/-- The last two commands have opened the transaction. -/
def Begun (t : ℕ) (l : MigrationLog) : Prop :=
  ∃ l₀ l₁ : MigrationLog, (command .connect).Returns l₀ l₁ (.ok t) ∧
    (command (.begin t)).Returns l₁ l (.ok ())

/-- After these the SQL of the file has run. -/
def Effected (t : ℕ) (file : String) (l : MigrationLog) : Prop :=
  ∃ l', Begun t l' ∧ (command (.insert t (.effect file))).Returns l' l (.ok ())

/-- After that the file is recorded, and the transaction can commit. -/
def Recorded (t : ℕ) (file : String) (l : MigrationLog) : Prop :=
  ∃ l', Effected t file l' ∧ (command (.insert t (.record file))).Returns l' l (.ok ())

/-- The run has seen that the file is applied, or has applied it. -/
def Done (file : String) (l : MigrationLog) : Prop :=
  (∃ p found, Log.Saw (S := txCommands MigrationRow) l (.select p) (.ok found) ∧
    .record file ∈ found) ∨
  ∃ t l₁ l₂, Recorded t file l₁ ∧ (command (.commit t)).Returns l₁ l₂ (.ok ()) ∧ l₂ <:+ l

/-- What a run on these files sends, and after which other commands: nothing but `ROLLBACK`
after a failure, and the `COMMIT` of a file only when the files before it are done. -/
def Sent (files : List String) (l : MigrationLog) : TxCommand MigrationRow → Prop
  | .connect | .begin _ | .select _ => Clean l
  | .ensure row => row = .journal ∧ Clean l
  | .insert t row => Clean l ∧ ∃ file ∈ files,
      (row = .effect file ∧ Begun t l) ∨ (row = .record file ∧ Effected t file l)
  | .commit t => Clean l ∧ ∃ earlier file later, files = earlier ++ file :: later ∧
      Recorded t file l ∧ ∀ g ∈ earlier, Done g l
  | .rollback _ => True
  | .scan .. | .delete .. => False

theorem Clean.returns (h : Clean l) {a : op.Ans} (hr : (command op).Returns l l' (.ok a)) :
    Clean l' := by
  obtain ⟨n, pre, post, rfl⟩ := returns_perform.1 hr
  intro e he
  rcases List.mem_cons.1 he with rfl | he
  · exact ⟨a, rfl⟩
  · exact h e he

theorem Done.mono (h : Done file l) (hl : l <:+ l') : Done file l' := by
  rcases h with ⟨p, found, hsaw, hmem⟩ | ⟨t, l₁, l₂, hrecorded, hcommit, hs⟩
  · exact .inl ⟨p, found, hsaw.mono hl, hmem⟩
  · exact .inr ⟨t, l₁, l₂, hrecorded, hcommit, hs.trans hl⟩

/-- **A transaction sends** its file and the record. -/
theorem transaction_sent (hclean : Clean l₀) (hfiles : files = earlier ++ file :: later)
    (hdone : ∀ g ∈ earlier, Done g l₀) :
    Respects (Sent files) l₀ (withTransaction (applyFile file)) := by
  have hmem : file ∈ files := hfiles ▸ List.mem_append_right _ (List.mem_cons_self ..)
  refine .bind (respects_perform.2 hclean) fun l₁ t h₁ => ?_
  refine respects_tryCatch.2 ⟨?_, fun l e _ => ?_⟩
  · refine .bind (respects_perform.2 (hclean.returns h₁)) fun l₂ _ h₂ => ?_
    have hbegun : Begun t l₂ := ⟨l₀, l₁, h₁, h₂⟩
    have hclean₂ := (hclean.returns h₁).returns h₂
    refine .bind (.bind (respects_perform.2 ⟨hclean₂, file, hmem, .inl ⟨rfl, hbegun⟩⟩)
      fun l₃ _ h₃ =>
        respects_perform.2 ⟨hclean₂.returns h₃, file, hmem, .inr ⟨rfl, l₂, hbegun, h₃⟩⟩)
      fun l₄ _ h => ?_
    obtain ⟨l₃, _, h₃, _, h₄⟩ := Returns.of_bind h
    have hsuffix : l₀ <:+ l₄ := h₁.suffix.trans (h₂.suffix.trans h.suffix)
    refine .bind (respects_perform.2 ⟨(hclean₂.returns h₃).returns h₄, earlier, file, later, hfiles,
      ⟨l₃, ⟨l₂, hbegun, h₃⟩, h₄⟩, fun g hg => (hdone g hg).mono hsuffix⟩) fun _ _ _ => respects_pure
  · exact .bind (respects_tryCatch.2 ⟨respects_perform.2 trivial, fun _ _ _ => respects_pure⟩)
      fun _ _ _ => respects_throw

/-- **A transaction that returns** has applied its file. -/
theorem transaction_done {u : Unit}
    (h : (withTransaction (applyFile file)).Returns l₀ l (.ok u)) :
    Done file l ∧ (Clean l₀ → Clean l) := by
  obtain ⟨t, l₁, ⟨l₂, h₂, l₃, h₃, hbody⟩, hcommit⟩ := committed_of_returns h
  obtain ⟨l₄, _, h₄, _, h₅⟩ := Returns.of_bind hbody
  refine ⟨.inr ⟨t, l₁, l, ⟨l₄, ⟨l₃, ⟨l₀, l₂, h₂, h₃⟩, h₄⟩, h₅⟩, hcommit, List.suffix_refl _⟩, ?_⟩
  exact fun hclean => ((((hclean.returns h₂).returns h₃).returns h₄).returns h₅).returns hcommit

/-- **The loop** sends the files in their order. -/
theorem applyFiles_sent {rest : List String} (hclean : Clean l₀)
    (hfiles : files = earlier ++ rest) (hdone : ∀ g ∈ earlier, Done g l₀)
    (happlied : ∀ g ∈ applied, Done g l₀) : Respects (Sent files) l₀ (applyFiles applied rest) := by
  induction rest generalizing earlier l₀ with
  | nil => exact respects_pure
  | cons file rest ih =>
      have hnext : files = (earlier ++ [file]) ++ rest := by simp [hfiles]
      have hdone' : ∀ {l}, l₀ <:+ l → Done file l → ∀ g ∈ earlier ++ [file], Done g l := by
        intro l hl hfile g hg
        rcases List.mem_append.1 hg with hg | hg
        · exact (hdone g hg).mono hl
        · exact List.mem_singleton.1 hg ▸ hfile
      refine respects_ite.2 ⟨fun hmem => ?_, fun _ => ?_⟩
      · exact ih hclean hnext (hdone' (List.suffix_refl _) (happlied file hmem)) happlied
      · refine .bind (transaction_sent hclean hfiles hdone) fun l u hu => ?_
        obtain ⟨hfile, hkeeps⟩ := transaction_done hu
        exact .bind (ih (hkeeps hclean) hnext (hdone' hu.suffix hfile)
          fun g hg => (happlied g hg).mono hu.suffix) fun _ _ _ => respects_pure

/-- **The loop** comes to its end when every file is done, and returns those it has applied. -/
theorem applyFiles_done {rest names : List String} (happlied : ∀ g ∈ applied, Done g l₀)
    (h : (applyFiles applied rest).Returns l₀ l (.ok names)) :
    (∀ g ∈ rest, Done g l) ∧ (Clean l₀ → Clean l) ∧ names = rest.filter (· ∉ applied) := by
  induction rest generalizing l₀ names with
  | nil =>
      obtain ⟨rfl, heq⟩ := returns_pure.1 h
      cases heq
      exact ⟨by simp, id, rfl⟩
  | cons file rest ih =>
      unfold applyFiles at h
      split_ifs at h with hmem
      · obtain ⟨hrest, hkeeps, rfl⟩ := ih happlied h
        refine ⟨fun g hg => ?_, hkeeps, by simp [hmem]⟩
        rcases List.mem_cons.1 hg with rfl | hg
        · exact (happlied g hmem).mono h.suffix
        · exact hrest g hg
      · obtain ⟨l₁, u, hu, _, h⟩ := Returns.of_bind h
        obtain ⟨l₂, names', hnames, _, h⟩ := Returns.of_bind h
        obtain ⟨rfl, heq⟩ := returns_pure.1 h
        cases heq
        obtain ⟨hfile, hkeeps⟩ := transaction_done hu
        obtain ⟨hrest, hkeeps', rfl⟩ := ih (fun g hg => (happlied g hg).mono hu.suffix) hnames
        refine ⟨fun g hg => ?_, hkeeps' ∘ hkeeps, by simp [hmem]⟩
        rcases List.mem_cons.1 hg with rfl | hg
        · exact hfile.mono hnames.suffix
        · exact hrest g hg

/-- The files a lookup has returned are done. -/
theorem done_of_applied {found : List MigrationRow} {p : MigrationRow → Bool}
    (h : (command (.select p)).Returns l₀ l (.ok found)) {g : String}
    (hg : g ∈ found.filterMap recordName) : Done g l := by
  obtain ⟨row, hrow, hname⟩ := List.mem_filterMap.1 hg
  refine .inl ⟨p, found, h.saw, ?_⟩
  cases row with
  | record file => exact Option.some.inj hname ▸ hrow
  | journal => cases hname
  | effect file => cases hname

theorem runMigrations_sent (dir : List String) : Respects (Sent (sqlFiles dir)) []
    (runMigrations dir) := by
  have hempty : Clean [] := by simp [Clean]
  refine .bind (respects_perform.2 ⟨rfl, hempty⟩) fun l₁ _ h₁ => ?_
  refine .bind (respects_perform.2 (hempty.returns h₁)) fun l₂ found h₂ => ?_
  exact applyFiles_sent ((hempty.returns h₁).returns h₂) (List.nil_append _).symm (by simp)
    fun g hg => done_of_applied h₂ hg

/-- **A run that returns** has every file done, and no command of it has failed. -/
theorem runMigrations_done {names : List String}
    (h : (runMigrations dir).Returns [] l (.ok names)) :
    (∀ g ∈ sqlFiles dir, Done g l) ∧ Clean l := by
  have hempty : Clean [] := by simp [Clean]
  obtain ⟨l₁, _, h₁, _, h⟩ := Returns.of_bind h
  obtain ⟨l₂, found, h₂, _, h⟩ := Returns.of_bind h
  obtain ⟨hdone, hkeeps, _⟩ := applyFiles_done (fun g hg => done_of_applied h₂ hg) h
  exact ⟨hdone, hkeeps ((hempty.returns h₁).returns h₂)⟩

theorem runMigrations_owned : Respects Owned ([] : MigrationLog) (runMigrations dir) := by
  have howned : ∀ {file : String} {l : MigrationLog},
      Respects Owned l (withTransaction (applyFile file)) := fun {file l} =>
    withTransaction_owned fun _ _ => .bind (respects_perform.2 ⟨rfl, by simp⟩) fun _ _ _ =>
      respects_perform.2 ⟨rfl, by simp⟩
  have hloop : ∀ {applied files : List String} {l : MigrationLog},
      Respects Owned l (applyFiles applied files) := by
    intro applied files
    induction files with
    | nil => exact respects_pure
    | cons file files ih =>
        intro l
        exact respects_ite.2 ⟨fun _ => ih, fun _ => .bind howned fun _ _ _ =>
          .bind ih fun _ _ _ => respects_pure⟩
  refine .bind (respects_perform.2 (fun _ h => by cases h)) fun _ _ _ => ?_
  exact .bind (respects_perform.2 (fun _ h => by cases h)) fun _ _ _ => hloop

/-! ### The transaction of a file -/

variable {c : MigrationConfig} {rows : List MigrationRow} {i j n : ℕ} {call call' : MigrationCall}
  {e e' : MigrationEvent} {v : Version MigrationRow} {row : MigrationRow}

/-- A run of the machine from a table with the given rows. -/
abbrev From (rows : List MigrationRow) (c : MigrationConfig) : Prop :=
  machine.Run (Config.initial (ofRows rows)) c

theorem From.reachable (h : From rows c) : machine.Reachable (Loaded fun _ => True) c :=
  ⟨_, ⟨rows, trivial, rfl⟩, h⟩

theorem From.ordered (h : From rows c) : Ordered Later c :=
  h.reachable.ordered (stable_later ..)

theorem sent_event (hv : machine.Valid c) (hi : c.calls[i]? = some call) (he : e ∈ call.log) :
    ∃ l, Sent (sqlFiles call.req) l e.op ∧ e :: l <:+ call.log :=
  hv.respected (P := fun dir => Sent (sqlFiles dir)) (fun _ => runMigrations_sent _) hi he

/-- What is at the same height of a log is the same. -/
theorem eq_of_suffix {l l₁ l₂ : MigrationLog} (h₁ : l₁ <:+ l) (h₂ : l₂ <:+ l)
    (hlength : l₁.length = l₂.length) : l₁ = l₂ :=
  (List.suffix_of_suffix_length_le h₁ h₂ hlength.le).eq_of_length hlength

/-- **A transaction begins once**, in one run. -/
theorem begun_unique (hrun : From rows c) (hi : c.calls[i]? = some call)
    (hj : c.calls[j]? = some call') (h : Begun t l) (hl : l <:+ call.log) (h' : Begun t l')
    (hl' : l' <:+ call'.log) : i = j ∧ l = l' := by
  obtain ⟨l₀, l₁, h₀, h₁⟩ := h
  obtain ⟨l₀', l₁', h₀', h₁'⟩ := h'
  have hsuffix := h₁.suffix.trans hl
  have hsuffix' := h₁'.suffix.trans hl'
  obtain rfl := owner_unique hrun.reachable hi hj (h₀.saw.mono hsuffix) (h₀'.saw.mono hsuffix')
  obtain rfl := Option.some.inj (hi.symm.trans hj)
  obtain ⟨m, pre, post, rfl⟩ := returns_perform.1 h₀
  obtain ⟨m', pre', post', rfl⟩ := returns_perform.1 h₀'
  have hv := hrun.reachable.valid
  have hmem := hsuffix.subset (List.mem_cons_self ..)
  have hmem' := hsuffix'.subset (List.mem_cons_self ..)
  obtain ⟨hnumber, hlength⟩ := connect_ok (effect_of_mem hv hi hmem)
  obtain ⟨hnumber', hlength'⟩ := connect_ok (effect_of_mem hv hi hmem')
  obtain ⟨_, heq⟩ := hrun.ordered.once hv (K := fun db => t < db.txs.length)
    (fun hl hlt => hlt.trans_le hl.txs_le) hi hi hmem hmem' (by simp [hnumber])
    (by simp [hlength, hnumber])
    (by simp [hnumber']) (by simp [hlength', hnumber'])
  cases heq
  obtain rfl := hv.place hi hsuffix hsuffix'
  obtain ⟨_, _, _, rfl⟩ := returns_perform.1 h₁
  obtain ⟨_, _, _, rfl⟩ := returns_perform.1 h₁'
  exact ⟨rfl, eq_of_suffix hl hl' rfl⟩

/-- A transaction runs the SQL of one file, once. -/
theorem effected_unique (hrun : From rows c) (hi : c.calls[i]? = some call)
    (hj : c.calls[j]? = some call') (h : Effected t file l) (hl : l <:+ call.log)
    (h' : Effected t file' l') (hl' : l' <:+ call'.log) : i = j ∧ file = file' ∧ l = l' := by
  obtain ⟨l₁, hbegun, h₁⟩ := h
  obtain ⟨l₁', hbegun', h₁'⟩ := h'
  obtain ⟨rfl, rfl⟩ := begun_unique hrun hi hj hbegun (h₁.suffix.trans hl) hbegun'
    (h₁'.suffix.trans hl')
  obtain rfl := Option.some.inj (hi.symm.trans hj)
  obtain ⟨_, _, _, rfl⟩ := returns_perform.1 h₁
  obtain ⟨_, _, _, rfl⟩ := returns_perform.1 h₁'
  have heq := eq_of_suffix hl hl' rfl
  cases (List.cons.inj heq).1
  exact ⟨rfl, rfl, rfl⟩

/-- The rows of a file. -/
def Of (file : String) (row : MigrationRow) : Prop := row = .effect file ∨ row = .record file

/-- **What a transaction that commits has inserted** is of the file it commits. -/
theorem file_of_insert (hrun : From rows c) (hi : c.calls[i]? = some call)
    (h : Recorded t file l) (hl : l <:+ call.log) (hj : c.calls[j]? = some call')
    (he : e ∈ call'.log) (hop : e.op = .insert t row) : i = j ∧ Of file row := by
  obtain ⟨l₁, heffected, h₁⟩ := h
  have hl₁ := h₁.suffix.trans hl
  obtain ⟨l₂, hsent, hl₂⟩ := sent_event hrun.reachable.valid hj he
  rw [hop] at hsent
  obtain ⟨_, file', _, ⟨rfl, hbegun⟩ | ⟨rfl, heffected'⟩⟩ := hsent
  · obtain ⟨l₃, hbegun', h₃⟩ := heffected
    obtain ⟨rfl, rfl⟩ := begun_unique hrun hi hj hbegun' (h₃.suffix.trans hl₁) hbegun
      ((List.suffix_cons e l₂).trans hl₂)
    obtain rfl := Option.some.inj (hi.symm.trans hj)
    obtain ⟨_, _, _, rfl⟩ := returns_perform.1 h₃
    have heq := eq_of_suffix hl₁ hl₂ rfl
    obtain rfl := (List.cons.inj heq).1
    cases hop
    exact ⟨rfl, .inl rfl⟩
  · obtain ⟨rfl, rfl, _⟩ := effected_unique hrun hi hj heffected hl₁ heffected'
      ((List.suffix_cons e l₂).trans hl₂)
    exact ⟨rfl, .inr rfl⟩

/-- What a recorded transaction has inserted. -/
theorem inserts_of_recorded (h : Recorded t file l) (hrow : Of file row) :
    ∃ m pre post, (⟨m, pre, .insert t row, .ok (), post⟩ : MigrationEvent) ∈ l := by
  obtain ⟨l₁, ⟨l₂, _, heffect⟩, hrecord⟩ := h
  rcases hrow with rfl | rfl
  · obtain ⟨m, pre, post, hmem⟩ := heffect.saw
    exact ⟨m, pre, post, hrecord.suffix.subset hmem⟩
  · exact hrecord.saw

/-! ### What stands -/

/-- Nothing is deleted. -/
theorem not_deleted (hrun : From rows c) (hn : c.world.versions[n]? = some v) :
    v.deletedBy = none := by
  rw [Option.eq_none_iff_forall_not_mem]
  intro d hd
  obtain ⟨j, call', e, hj, he, hop, _⟩ := deleted_event hrun.reachable hn hd
  obtain ⟨l, hsent, _⟩ := sent_event hrun.reachable.valid hj he
  rw [hop] at hsent
  exact hsent

theorem stands_iff (hrun : From rows c) (hn : c.world.versions[n]? = some v) :
    c.world.Stands v ↔ c.world.status v.insertedBy = .committed := by
  simp [Stands, not_deleted hrun hn]

/-- What stands keeps standing. -/
theorem rows_stay (hrun : From rows c) {db : Versioned MigrationRow} (hl : Later db c.world)
    (hrow : row ∈ db.rows) : row ∈ c.world.rows := by
  obtain ⟨n, v, hn, hstands, rfl⟩ := mem_rows.1 hrow
  obtain ⟨v', hn', hs⟩ := hl.version hn
  refine mem_rows.2 ⟨n, v', hn', (stands_iff hrun hn').2 ?_, hs.row⟩
  rw [hs.insertedBy]
  exact hl.committed hstands.1

/-- What a command has inserted stands when its transaction has committed. -/
theorem stands_of_insert (hrun : From rows c) (hi : c.calls[i]? = some call) {m : ℕ}
    {pre post : Versioned MigrationRow}
    (he : (⟨m, pre, .insert t row, .ok (), post⟩ : MigrationEvent) ∈ call.log)
    (ht : c.world.status t = .committed) : ∃ (n : ℕ) (v : Version MigrationRow),
      c.world.versions[n]? = some v ∧ c.world.Stands v ∧ v.insertedBy = t ∧ v.row = row := by
  obtain ⟨_, rfl, _⟩ := insert_ok (effect_of_mem hrun.reachable.valid hi he)
  have hadded : (pre.add t row).versions[pre.versions.length]? = some ⟨row, t, none⟩ := by
    simp [Versioned.add]
  obtain ⟨v, hn, hs⟩ := (hrun.ordered.post hi _ he).version hadded
  refine ⟨_, v, hn, (stands_iff hrun hn).2 ?_, hs.insertedBy, hs.row⟩
  rw [hs.insertedBy]
  exact ht

/-- **A file that has been applied in a run of the machine**: a version of one of its rows that
stands and was not there at the start belongs to a transaction that has committed both. -/
theorem recorded_of_stands (hrun : From rows c) (hn : c.world.versions[n]? = some v)
    (hstands : c.world.Stands v) (hrow : Of file v.row) (hzero : v.insertedBy ≠ 0) :
    ∃ (i : ℕ) (call : MigrationCall) (e : MigrationEvent) (l : MigrationLog),
      c.calls[i]? = some call ∧ e :: l <:+ call.log ∧ Recorded v.insertedBy file l ∧
      e.op = .commit v.insertedBy ∧ e.post.status v.insertedBy = .committed := by
  have hv := hrun.reachable.valid
  rcases inserted_event hrun hn with ⟨_, hloaded⟩ | ⟨j, call', e', hj, he', _, hop⟩
  · exact absurd hloaded hzero
  rcases hop with hop | ⟨hop, _⟩
  · obtain ⟨i, call, e, hi, he, ⟨hcommit, hpost⟩ | ⟨_, hensure, hnumber, hlength⟩⟩ :=
      committed_event hrun hstands.1 hzero
    · obtain ⟨l, hsent, hl⟩ := sent_event hv hi he
      rw [hcommit] at hsent
      obtain ⟨_, _, file', _, _, hrecorded, _⟩ := hsent
      have hl' := (List.suffix_cons e l).trans hl
      obtain ⟨_, hof⟩ := file_of_insert hrun hi hrecorded hl' hj he' hop
      have hfile : file' = file := by
        rcases hrow with hrow | hrow <;> rcases hof with hof | hof <;> rw [hrow] at hof <;>
          cases hof <;> rfl
      exact ⟨i, call, e, l, hi, hl, hfile ▸ hrecorded, hcommit, hpost⟩
    · obtain ⟨l, howns, hl⟩ := hv.respected (fun _ => runMigrations_owned) hj he'
      have hsaw := (howns _ (by rw [hop]; rfl)).mono ((List.suffix_cons e' l).trans hl)
      have hconnect := eq_connect hrun.reachable hj hsaw hi he hnumber.symm (by omega)
      exact absurd (hensure.symm.trans hconnect) (by simp)
  · obtain ⟨l, hsent, _⟩ := sent_event hv hj he'
    rw [hop] at hsent
    rcases hrow with hrow | hrow <;> rw [hrow] at hsent <;> cases hsent.1

/-- A database in which every file has been applied at most once, and is recorded if it has. -/
def Consistent (rows : List MigrationRow) : Prop :=
  rows.Nodup ∧ ∀ file, .effect file ∈ rows ↔ .record file ∈ rows

/-- The rows of the start stand. -/
theorem stands_of_start (hrun : From rows c) (hrow : row ∈ rows) : ∃ (n : ℕ)
    (v : Version MigrationRow), c.world.versions[n]? = some v ∧ c.world.Stands v ∧
      v.insertedBy = 0 ∧ v.row = row := by
  obtain ⟨n, hn⟩ := List.mem_iff_getElem?.1 hrow
  have hlater := (stable_later (constraints clash fun _ => none) id runMigrations).runs hrun
  have hloaded : (ofRows rows).versions[n]? = some ⟨row, 0, none⟩ := by simp [ofRows, hn]
  obtain ⟨v, hn', hs⟩ := hlater.version hloaded
  refine ⟨n, v, hn', (stands_iff hrun hn').2 ?_, hs.insertedBy, hs.row⟩
  rw [hs.insertedBy]
  exact hlater.committed rfl

/-- What transaction `0` has inserted was there at the start. -/
theorem start_of_zero (hrun : From rows c) (hn : c.world.versions[n]? = some v)
    (hrow : Of file v.row) (hzero : v.insertedBy = 0) : v.row ∈ rows := by
  rcases inserted_event hrun hn with ⟨hloaded, _⟩ | ⟨j, call', e, hj, he, _, hop⟩
  · exact List.mem_of_getElem? hloaded
  · have hv := hrun.reachable.valid
    rcases hop with hop | ⟨hop, _⟩
    · obtain ⟨l, howns, hl⟩ := hv.respected (fun _ => runMigrations_owned) hj he
      have hsaw := (howns _ (by rw [hop]; rfl)).mono ((List.suffix_cons e l).trans hl)
      exact absurd hzero (ne_zero_of_connect hrun.reachable hj hsaw)
    · obtain ⟨l, hsent, _⟩ := sent_event hv hj he
      rw [hop] at hsent
      rcases hrow with hrow | hrow <;> rw [hrow] at hsent <;> cases hsent.1

/-- **The rows of a file stand together**, from one transaction. -/
theorem stand_together (hrows : Consistent rows) (hrun : From rows c)
    (hn : c.world.versions[n]? = some v) (hstands : c.world.Stands v) (hrow : Of file v.row)
    (hother : Of file row) : ∃ (m : ℕ) (u : Version MigrationRow), c.world.versions[m]? = some u ∧
      c.world.Stands u ∧ u.insertedBy = v.insertedBy ∧ u.row = row := by
  by_cases hzero : v.insertedBy = 0
  · have hloaded := start_of_zero hrun hn hrow hzero
    have hmem : row ∈ rows := by
      rcases hrow with hrow | hrow <;> rw [hrow] at hloaded <;> rcases hother with rfl | rfl
      · exact hloaded
      · exact (hrows.2 file).1 hloaded
      · exact (hrows.2 file).2 hloaded
      · exact hloaded
    rw [hzero]
    exact stands_of_start hrun hmem
  · obtain ⟨i, call, e, l, hi, hl, hrecorded, _⟩ := recorded_of_stands hrun hn hstands hrow hzero
    obtain ⟨m, pre, post, hmem⟩ := inserts_of_recorded hrecorded hother
    exact stands_of_insert hrun hi (hl.subset (List.mem_cons_of_mem _ hmem)) hstands.1

/-- **A file is recorded exactly if its SQL has taken effect.** -/
theorem record_iff_effect (hrows : Consistent rows) (hrun : From rows c) :
    .record file ∈ c.world.rows ↔ .effect file ∈ c.world.rows := by
  have htogether : ∀ {a b : MigrationRow}, Of file a → Of file b → a ∈ c.world.rows →
      b ∈ c.world.rows := by
    intro a b ha hb hmem
    obtain ⟨n, v, hn, hstands, rfl⟩ := mem_rows.1 hmem
    obtain ⟨m, u, hm, hu, _, hrow⟩ := stand_together hrows hrun hn hstands ha hb
    exact mem_rows.2 ⟨m, u, hm, hu, hrow⟩
  exact ⟨htogether (.inr rfl) (.inl rfl), htogether (.inl rfl) (.inr rfl)⟩

theorem clash_symm (a b : MigrationRow) : clash a b = clash b a := by
  cases a <;> cases b <;> simp [clash, eq_comm]

/-- The records have different names. -/
theorem keyed (hrows : Consistent rows) (hrun : From rows c) :
    Keyed (constraints clash fun _ => none) c.world := by
  obtain hreach : machine.Reachable (fun db => db = ofRows rows) c := ⟨_, rfl, hrun⟩
  refine reachable_keyed hreach clash_symm (fun dir => ?_) ?_
  · refine (runMigrations_sent dir).mono fun l op _ hop row heq a => ?_
    subst heq
    obtain ⟨rfl, _⟩ := hop
    rfl
  · rintro _ rfl
    refine keyed_ofRows hrows.1 fun a b hclash => ?_
    cases a <;> cases b <;> simp_all [constraints, clash]

/-- **The SQL of a file takes effect at most once.** -/
theorem effect_once (hrows : Consistent rows) (hrun : From rows c) {m : ℕ}
    {u : Version MigrationRow} (hm : c.world.versions[m]? = some u) (hu : c.world.Stands u)
    (hurow : u.row = .effect file) (hn : c.world.versions[n]? = some v) (hv : c.world.Stands v)
    (hvrow : v.row = .effect file) : m = n := by
  -- each has a record from its transaction, and there is one record
  obtain ⟨m', u', hm', hu', hinserted, hrecord⟩ := stand_together hrows hrun hm hu
    (Or.inl hurow) (Or.inr (Eq.refl (MigrationRow.record file)))
  obtain ⟨n', v', hn', hv', hinserted', hrecord'⟩ := stand_together hrows hrun hn hv
    (Or.inl hvrow) (Or.inr (Eq.refl (MigrationRow.record file)))
  obtain rfl := (keyed hrows hrun).unique hm' hn'
    (by simp [hrecord, hrecord', constraints, clash]) hu' hv'
  obtain rfl := Option.some.inj (hm'.symm.trans hn')
  have hsame : u.insertedBy = v.insertedBy := hinserted.symm.trans hinserted'
  have hvalid := hrun.reachable.valid
  have hevent : ∀ {k : ℕ} {w : Version MigrationRow}, c.world.versions[k]? = some w →
      w.row = .effect file → (rows[k]? = some (.effect file) ∧ w.insertedBy = 0) ∨
      ∃ (j : ℕ) (call : MigrationCall) (e : MigrationEvent) (l : MigrationLog),
        c.calls[j]? = some call ∧ e :: l <:+ call.log ∧ e.pre.versions.length = k ∧
        Begun w.insertedBy l := by
    intro k w hk hrow
    rcases inserted_event hrun hk with ⟨hloaded, hzero⟩ | ⟨j, call, e, hj, he, hlength, hop⟩
    · exact .inl ⟨hrow ▸ hloaded, hzero⟩
    · obtain ⟨l, hsent, hl⟩ := sent_event hvalid hj he
      rcases hop with hop | ⟨hop, _⟩
      · rw [hop, hrow] at hsent
        obtain ⟨_, _, _, ⟨_, hbegun⟩ | ⟨heq, _⟩⟩ := hsent
        · exact .inr ⟨j, call, e, l, hj, hl, hlength, hbegun⟩
        · cases heq
      · rw [hop, hrow] at hsent
        cases hsent.1
  have hbegins : ∀ {j : ℕ} {call : MigrationCall} {l : MigrationLog} {e : MigrationEvent},
      c.calls[j]? = some call → e :: l <:+ call.log → ¬Begun 0 l := by
    rintro j call l e hj hl ⟨l₀, l₁, h₀, h₁⟩
    have hsaw := h₀.saw.mono (h₁.suffix.trans ((List.suffix_cons e l).trans hl))
    exact ne_zero_of_connect hrun.reachable hj hsaw rfl
  rcases hevent hm hurow with ⟨hloaded, hzero⟩ | ⟨j, call, e, l, hj, hl, rfl, hbegun⟩
  · rcases hevent hn hvrow with ⟨hloaded', _⟩ | ⟨j, call, e, l, hj, hl, rfl, hbegun⟩
    · obtain ⟨hlt, heq⟩ := List.getElem?_eq_some_iff.1 hloaded
      obtain ⟨hlt', heq'⟩ := List.getElem?_eq_some_iff.1 hloaded'
      exact hrows.1.getElem_inj_iff.1 (heq.trans heq'.symm)
    · rw [← hsame, hzero] at hbegun
      exact absurd hbegun (hbegins hj hl)
  · rcases hevent hn hvrow with ⟨_, hzero⟩ | ⟨j', call', e', l', hj', hl', rfl, hbegun'⟩
    · rw [hsame, hzero] at hbegun
      exact absurd hbegun (hbegins hj hl)
    · rw [hsame] at hbegun
      obtain ⟨rfl, rfl⟩ := begun_unique hrun hj hj' hbegun ((List.suffix_cons e l).trans hl) hbegun'
        ((List.suffix_cons e' l').trans hl')
      obtain rfl := Option.some.inj (hj.symm.trans hj')
      rw [(List.cons.inj (eq_of_suffix hl hl' rfl)).1]

/-- **What a run has done stands.** -/
theorem stands_of_done (hrun : From rows c) (hi : c.calls[i]? = some call)
    (h : Done file call.log) : .record file ∈ c.world.rows := by
  have hv := hrun.reachable.valid
  rcases h with ⟨p, found, ⟨m, pre, post, he⟩, hmem⟩ | ⟨t, l₁, l₂, hrecorded, hcommit, hl⟩
  · obtain ⟨rfl, rfl⟩ := select_ok (effect_of_mem hv hi he)
    exact rows_stay hrun (hrun.ordered.post hi _ he) (List.mem_filter.1 hmem).1
  · obtain ⟨m, pre, post, rfl⟩ := returns_perform.1 hcommit
    have he := hl.subset (List.mem_cons_self ..)
    obtain ⟨hactive, rfl⟩ := commit_ok (effect_of_mem hv hi he)
    have hcommitted := (hrun.ordered.post hi _ he).committed
      (status_mark_self (lt_of_status (by simp [hactive])))
    obtain ⟨m', pre', post', hinsert⟩ := inserts_of_recorded hrecorded (.inr rfl)
    obtain ⟨n, v, hn, hstands, _, hrow⟩ := stands_of_insert hrun hi
      (hl.subset (List.mem_cons_of_mem _ hinsert)) hcommitted
    exact mem_rows.2 ⟨n, v, hn, hstands, hrow⟩

/-- The command makes the SQL of the file take effect. -/
def Applies (e : MigrationEvent) (file : String) : Prop :=
  .effect file ∉ e.pre.rows ∧ .effect file ∈ e.post.rows

/-- **A file takes effect by the commit of its transaction.** -/
theorem commit_of_applies (hrun : From rows c) (hi : c.calls[i]? = some call) (he : e ∈ call.log)
    (happlies : Applies e file) : ∃ t l, e :: l <:+ call.log ∧ Recorded t file l ∧
      e.op = .commit t := by
  have hv := hrun.reachable.valid
  obtain ⟨c₁, c₂, _, h₁, hbetween, h₂, _⟩ := hrun.around (.initial _) hi he (Nat.zero_le _)
  have hrun₁ : From rows c₁ := h₁
  have hrun₂ : From rows c₂ := h₁.trans hbetween.run
  obtain ⟨n, v, hn, hstands, hrow⟩ := mem_rows.1 (hbetween.post ▸ happlies.2)
  have hof : Of file v.row := .inl hrow
  have hzero : v.insertedBy ≠ 0 := by
    intro hzero
    obtain ⟨m, u, hm, hu, _, hurow⟩ := stands_of_start hrun₁ (start_of_zero hrun₂ hn hof hzero)
    exact happlies.1 (hbetween.pre ▸ mem_rows.2 ⟨m, u, hm, hu, hurow.trans hrow⟩)
  obtain ⟨j, call₂, e', l, hj, hl, hrecorded, hop, hpost⟩ :=
    recorded_of_stands hrun₂ hn hstands hof hzero
  have hlt : e'.seq < e.seq + 1 := by
    have hseq := hrun₂.reachable.valid.seq_lt hj e' (hl.subset (List.mem_cons_self ..))
    rwa [hbetween.next] at hseq
  obtain ⟨call', hj', hext⟩ := h₂.extends hj
  have hl' := hl.trans hext.log
  have he' := hl'.subset (List.mem_cons_self ..)
  rcases Nat.lt_or_eq_of_le (Nat.lt_succ_iff.1 hlt) with hearlier | heq
  · -- it had taken effect before
    have hreach : machine.Reachable (fun db => db = ofRows rows) c := ⟨_, rfl, hrun⟩
    obtain ⟨c₃, call₃, ⟨_, rfl, hrun₃⟩, hworld, _, hj₃, he₃, hlog₃⟩ :=
      hreach.before_other hi he hj' he' hearlier
    have hrun₃ : From rows c₃ := hrun₃
    have hv₃ := hrun₃.reachable.valid
    obtain ⟨l₃, _, hl₃⟩ := hv₃.reached hj₃ e' he₃
    obtain rfl := hv.place hj' (hl₃.trans hlog₃) hl'
    have hcommitted := (hrun₃.ordered.post hj₃ e' he₃).committed hpost
    obtain ⟨m, pre, post, hinsert⟩ := inserts_of_recorded hrecorded (.inl rfl)
    obtain ⟨k, u, hk, hu, _, hurow⟩ := stands_of_insert hrun₃ hj₃
      (hl₃.subset (List.mem_cons_of_mem _ hinsert)) hcommitted
    exact absurd (hworld ▸ mem_rows.2 ⟨k, u, hk, hu, hurow⟩) happlies.1
  · obtain ⟨rfl, rfl⟩ := hv.seq_inj hj' hi e' he' e he heq
    obtain rfl := Option.some.inj (hi.symm.trans hj')
    exact ⟨_, l, hl', hrecorded, hop⟩

/-- **Files take effect in their order**: what comes before a file is applied before it. -/
theorem in_order (hrows : Consistent rows) (hrun : From rows c) (hi : c.calls[i]? = some call)
    (he : e ∈ call.log) (happlies : Applies e file) : file ∈ sqlFiles call.req ∧
      ∀ g ∈ sqlFiles call.req, codeUnits g < codeUnits file → .effect g ∈ e.pre.rows := by
  have hv := hrun.reachable.valid
  obtain ⟨t, l, hl, hrecorded, hop⟩ := commit_of_applies hrun hi he happlies
  obtain ⟨l', hsent, hl'⟩ := sent_event hv hi he
  obtain rfl := hv.place hi hl' hl
  rw [hop] at hsent
  obtain ⟨_, earlier, file', later, hfiles, hrecorded', hdone⟩ := hsent
  have hsuffix := (List.suffix_cons e l').trans hl'
  obtain ⟨l₁, heffected, h₁⟩ := hrecorded
  obtain ⟨l₁', heffected', h₁'⟩ := hrecorded'
  obtain ⟨_, rfl, _⟩ := effected_unique hrun hi hi heffected (h₁.suffix.trans hsuffix) heffected'
    (h₁'.suffix.trans hsuffix)
  refine ⟨by simp [hfiles], fun g hg hlt => ?_⟩
  have hearlier : g ∈ earlier := by
    have hsorted := sortTexts_sorted (call.req.filter fun file => endsWithText file ".sql")
    change (sqlFiles call.req).Pairwise _ at hsorted
    rw [hfiles] at hsorted hg
    obtain ⟨_, hrest, _⟩ := List.pairwise_append.1 hsorted
    rcases List.mem_append.1 hg with hg | hg
    · exact hg
    · rcases List.mem_cons.1 hg with rfl | hg
      · exact absurd hlt (lt_irrefl _)
      · exact absurd ((List.pairwise_cons.1 hrest).1 g hg) (not_le_of_gt hlt)
  have hreach : machine.Reachable (fun db => db = ofRows rows) c := ⟨_, rfl, hrun⟩
  obtain ⟨c₁, call₁, ⟨_, rfl, hrun₁⟩, _, hworld, _, hi₁, _, hl₁⟩ := hreach.before hi he
  have hrun₁ : From rows c₁ := hrun₁
  obtain rfl := hv.place hi hl₁ hl'
  rw [← hworld, ← record_iff_effect hrows hrun₁]
  exact stands_of_done hrun₁ hi₁ (hdone g hearlier)

/-- **A run stops at its first failure**: after it comes nothing but `ROLLBACK`. -/
theorem stops_at_failure (hrun : From rows c) (hi : c.calls[i]? = some call) (he : e ∈ call.log)
    (hfailed : ∃ err, e.ans = .error err) :
    (∀ e' ∈ call.log, e.seq < e'.seq → ∃ t, e'.op = .rollback t) ∧
      ∀ names, call.result ≠ some (.ok names) := by
  have hv := hrun.reachable.valid
  have hunclean : ∀ {l : MigrationLog}, e ∈ l → ¬Clean l := by
    rintro l hmem hclean
    obtain ⟨err, herr⟩ := hfailed
    obtain ⟨a, ha⟩ := hclean e hmem
    rw [herr] at ha
    cases ha
  refine ⟨fun e' he' hlt => ?_, fun names hresult => ?_⟩
  · obtain ⟨l, hsent, hl⟩ := sent_event hv hi he'
    have hmem : e ∈ l := by
      obtain ⟨front, hlog⟩ := hl
      rw [← hlog] at he
      have hsorted := hv.sorted hi
      rw [← hlog] at hsorted
      rcases List.mem_append.1 he with hfront | hrest
      · have hlater := (List.pairwise_append.1 hsorted).2.2 e hfront e' (List.mem_cons_self ..)
        exact absurd hlater (Nat.lt_asymm hlt)
      · rcases List.mem_cons.1 hrest with rfl | hmem
        · exact absurd hlt (Nat.lt_irrefl _)
        · exact hmem
    have hnot := hunclean hmem
    cases hop : e'.op with
    | rollback t => exact ⟨t, rfl⟩
    | connect | begin t | select p =>
        rw [hop] at hsent
        exact absurd hsent hnot
    | ensure row =>
        rw [hop] at hsent
        exact absurd hsent.2 hnot
    | commit t | insert t row =>
        rw [hop] at hsent
        exact absurd hsent.1 hnot
    | scan t p | delete t n =>
        rw [hop] at hsent
        exact hsent.elim
  · exact hunclean he (runMigrations_done (hv.returned hi hresult)).2

theorem count_effect_le_one (hrows : Consistent rows) (hrun : From rows c) :
    c.world.rows.count (.effect file) ≤ 1 :=
  count_rows_le_one fun _ _ _ _ hm hn hu hv hurow hvrow =>
    effect_once hrows hrun hm hu hurow hn hv hvrow

/-- What the migrations promise of a database and the runs so far. -/
structure ExactlyOnce (c : MigrationConfig) : Prop where
  atMostOnce : ∀ file, c.world.rows.count (.effect file) ≤ 1
  recorded : ∀ file, .record file ∈ c.world.rows ↔ .effect file ∈ c.world.rows
  order : ∀ call ∈ c.calls, ∀ e ∈ call.log, ∀ file, Applies e file → file ∈ sqlFiles call.req ∧
    ∀ g ∈ sqlFiles call.req, codeUnits g < codeUnits file → .effect g ∈ e.pre.rows
  stops : ∀ call ∈ c.calls, ∀ e ∈ call.log, (∃ err, e.ans = .error err) →
    (∀ e' ∈ call.log, e.seq < e'.seq → ∃ t, e'.op = .rollback t) ∧
      ∀ names, call.result ≠ some (.ok names)
  complete : ∀ call ∈ c.calls, ∀ names, call.result = some (.ok names) → ∀ file ∈ call.req,
    endsWithText file ".sql" → c.world.rows.count (.effect file) = 1

/-- **Migrations take effect exactly once**, in every run of runs: overlapping, failing at any
command, with any reply lost, aborted by the server or never going on. -/
theorem migrations_exactly_once (hrows : Consistent rows) (hrun : From rows c) : ExactlyOnce c where
  atMostOnce _ := count_effect_le_one hrows hrun
  recorded _ := record_iff_effect hrows hrun
  order call hcall e he file happlies := by
    obtain ⟨i, hi⟩ := List.mem_iff_getElem?.1 hcall
    exact in_order hrows hrun hi he happlies
  stops call hcall e he hfailed := by
    obtain ⟨i, hi⟩ := List.mem_iff_getElem?.1 hcall
    exact stops_at_failure hrun hi he hfailed
  complete call hcall names hresult file hfile hsql := by
    obtain ⟨i, hi⟩ := List.mem_iff_getElem?.1 hcall
    have hmem : file ∈ sqlFiles call.req := mem_sortTexts.2 (List.mem_filter.2 ⟨hfile, hsql⟩)
    have hdone := (runMigrations_done (hrun.reachable.valid.returned hi hresult)).1 file hmem
    have heffect := (record_iff_effect hrows hrun).1 (stands_of_done hrun hi hdone)
    have hpos : 0 < c.world.rows.count (.effect file) := List.count_pos_iff.2 heffect
    exact le_antisymm (count_effect_le_one hrows hrun) hpos

/-! ### Two runs at once -/

/-- A directory of two files. -/
def sampleDir : List String := ["2.sql", "README.md", "1.sql"]

/-- Two runs find the same files to apply.  The first one commits a file while the second one has
its SQL run; the second one fails on the key of the record, and the first one goes on. -/
def overlappingRuns : Option MigrationConfig :=
  machine.play (fun _ _ => true)
    [.accept fun _ => sampleDir, .accept fun _ => sampleDir, .steps 0 2, .steps 1 5, .steps 0 5,
      .steps 1 2, .steps 0 5] (Config.initial (ofRows []))

/-- The first run returns both files in their order, the second one an error, and what the
migrations promise holds. -/
theorem migrations_exactly_once_of_overlappingRuns : ∃ c, From [] c ∧ ExactlyOnce c ∧
    c.calls.map Call.result =
      [some (.ok ["1.sql", "2.sql"]), some (.error (.db "23505"))] := by
  have hplay : overlappingRuns.any (fun c => decide (c.calls.map Call.result =
      [some (.ok ["1.sql", "2.sql"]), some (.error (.db "23505"))])) = true := by decide +kernel
  obtain ⟨c, hc, hresults⟩ := (Option.any_eq_true _ _).1 hplay
  unfold overlappingRuns at hc
  have hrun : From [] c := run_of_play hc
  exact ⟨c, hrun, migrations_exactly_once ⟨List.nodup_nil, by simp⟩ hrun,
    of_decide_eq_true hresults⟩

end Migrations
end IdentityPlatform
