/-
# Isolation of documents

Two document stores that agree on what one user owns cannot be told apart by that user:
every answer is determined by the user's own documents.  `Agree` is the correspondence of
the stores, up to a renaming of generated identifiers and times; `handle_unwinds` says that
each request keeps it, and `documents_isolated` carries it through runs of any length.
-/

import IdentityPlatform.Interleaving.Unwinding
import IdentityPlatform.Modules.Documents

namespace IdentityPlatform

open Interleaving Relational

variable {u : String} {s s' t t' : DocumentStore} {a : DocumentRow} {id : String}

namespace DocumentStore

/-- The documents of a user. -/
def owned (u : String) (s : DocumentStore) : List DocumentRow :=
  s.documents.filter fun row => row.ownerId = uuidValue u

/-- The documents of the others. -/
def others (u : String) (s : DocumentStore) : List DocumentRow :=
  s.documents.filter fun row => row.ownerId ≠ uuidValue u

theorem mem_owned : a ∈ s.owned u ↔ a ∈ s.documents ∧ a.ownerId = uuidValue u := by
  simp [owned]

theorem nodup_owned : ((s.owned u).map DocumentRow.id).Nodup :=
  s.ids.sublist (List.filter_sublist.map _)

end DocumentStore

/-! ### Renamings -/

/-- What may differ between two runs: identifiers, one to one, and times, in the same
order. -/
structure Renaming where
  id : String → String
  time : ℕ → ℕ
  times : Set ℕ
  injective : Function.Injective id
  monotone : StrictMonoOn time times

namespace Renaming

variable (ρ : Renaming)

def row (a : DocumentRow) : DocumentRow :=
  { a with
    id := ρ.id a.id
    createdAt := ρ.time a.createdAt
    updatedAt := ρ.time a.updatedAt }

def answer : DocumentAnswer → DocumentAnswer
  | .listed data => .listed (data.map ρ.row)
  | .created id title createdAt => .created (ρ.id id) title (ρ.time createdAt)
  | .noContent => .noContent

/-- A renamed document is found by the renamed identifier. -/
theorem lookup_map (rows : List DocumentRow) :
    lookup DocumentRow.id (ρ.id id) (rows.map ρ.row) =
      (lookup DocumentRow.id id rows).map ρ.row := by
  induction rows with
  | nil => rfl
  | cons a rows ih =>
      unfold lookup at ih ⊢
      by_cases ha : a.id = id
      · simp [List.find?, row, ha]
      · have hne : ρ.id a.id ≠ ρ.id id := fun h => ha (ρ.injective h)
        rw [List.map_cons, List.find?_cons_of_neg (by simp [row, hne]),
          List.find?_cons_of_neg (by simpa using ha)]
        exact ih

/-- The pages correspond: the order of times is that of the renamed times. -/
theorem page_map {rows : List DocumentRow} (h : ∀ row ∈ rows, row.createdAt ∈ ρ.times) :
    DocumentRepository.page (rows.map ρ.row) = (DocumentRepository.page rows).map ρ.row := by
  unfold DocumentRepository.page
  rw [List.map_take]
  congr 1
  refine (List.map_insertionSort _ _ _ _ fun a ha b hb => ?_).symm
  exact (ρ.monotone.le_iff_le (h b hb) (h a ha)).symm

theorem filter_map (rows : List DocumentRow) :
    (rows.map ρ.row).filter (fun row => row.id ≠ ρ.id id) =
      (rows.filter fun row => row.id ≠ id).map ρ.row := by
  rw [List.filter_map]
  congr 1
  refine List.filter_congr fun a _ => ?_
  simp [row, ρ.injective.eq_iff]

end Renaming

/-! ### Corresponding stores and requests -/

/-- The stores agree on what the user owns. -/
structure Agree (ρ : Renaming) (u : String) (s s' : DocumentStore) : Prop where
  owned : s'.owned u = (s.owned u).map ρ.row
  user : uuidValue u ∈ s'.users ↔ uuidValue u ∈ s.users
  times : ∀ a ∈ s.owned u, a.createdAt ∈ ρ.times

/-- The same request, but for the identifiers it names. -/
inductive SameRequest (ρ : Renaming) : DocumentRequest → DocumentRequest → Prop
  | list : SameRequest ρ .list .list
  | create (body : DocumentBody) : SameRequest ρ (.create body) (.create body)
  | delete {x y : String} (form : isUuid y = isUuid x)
      (value : isUuid x = true → uuidValue y = ρ.id (uuidValue x)) :
      SameRequest ρ (.delete x) (.delete y)

/-- The same request with the identity of the user, but for what is generated for it. -/
structure SameCall (ρ : Renaming) (u : String) (call call' : DocumentCall) : Prop where
  me : call'.me = call.me
  user : call.me.userId = some u
  request : SameRequest ρ call.request call'.request
  id : uuidValue call'.id = ρ.id (uuidValue call.id)
  now : call'.now = ρ.time call.now
  time : call.now ∈ ρ.times

namespace DocumentStore

/-- **Foreign documents are not told from none.**  The document of an identifier, if the
user passes for its owner, is found among the user's own. -/
theorem findById_owned (x : String) :
    (DocumentRepository.findById x s).filter (fun a => a.ownerId = u) =
      (lookup DocumentRow.id (uuidValue x) (s.owned u)).filter (fun a => a.ownerId = u) := by
  unfold DocumentRepository.findById
  have hsame : ∀ a, lookup DocumentRow.id (uuidValue x) (s.owned u) = some a →
      lookup DocumentRow.id (uuidValue x) s.documents = some a := by
    intro a ha
    rw [← lookup_key ha]
    exact lookup_of_mem s.ids (mem_owned.1 (lookup_mem ha)).1
  cases hfind : lookup DocumentRow.id (uuidValue x) s.documents with
  | none =>
      cases howned : lookup DocumentRow.id (uuidValue x) (s.owned u) with
      | none => rfl
      | some a => rw [hsame a howned] at hfind; cases hfind
  | some a =>
      by_cases howner : a.ownerId = u
      · -- a stored owner is canonical
        have hvalue : a.ownerId = uuidValue u := by
          rw [← howner, s.canonical _ (s.owners a (lookup_mem hfind))]
        have howned : lookup DocumentRow.id (uuidValue x) (s.owned u) = some a := by
          rw [← lookup_key hfind]
          exact lookup_of_mem nodup_owned (mem_owned.2 ⟨lookup_mem hfind, hvalue⟩)
        rw [howned]
      · cases howned : lookup DocumentRow.id (uuidValue x) (s.owned u) with
        | none => simp [howner]
        | some b =>
            have hab : b = a := Option.some.inj ((hsame b howned).symm.trans hfind)
            simp [hab]

theorem owned_insert {hnew : a.id ∉ s.generated} {howner : a.ownerId ∈ s.users}
    (h : a.ownerId = uuidValue u) : (s.insert a hnew howner).owned u = s.owned u ++ [a] := by
  simp [owned, insert, h]

theorem others_insert {hnew : a.id ∉ s.generated} {howner : a.ownerId ∈ s.users}
    (h : a.ownerId = uuidValue u) : (s.insert a hnew howner).others u = s.others u := by
  simp [others, insert, h]

theorem owned_delete : (s.delete id).owned u = (s.owned u).filter fun a => a.id ≠ id := by
  simp only [owned, delete, List.filter_filter]
  exact List.filter_congr fun a _ => Bool.and_comm _ _

/-- Only the user's own document has the identifier that is deleted. -/
theorem others_delete (ha : a ∈ s.documents) (howner : a.ownerId = uuidValue u) :
    (s.delete a.id).others u = s.others u := by
  simp only [others, delete, List.filter_filter]
  refine List.filter_congr fun b hb => ?_
  by_cases hid : b.id = a.id
  · have hba : b = a := eq_of_key s.ids hb ha hid
    simp [hba, howner]
  · simp [hid]

end DocumentStore

/-! ### One request -/

section Request

variable {ρ : Renaming} {me : ResourceIdentity} {x y : String}

theorem list_agrees (h : Agree ρ u s s') (hu : me.userId = some u) :
    DocumentsRoutes.list me s' = (DocumentsRoutes.list me s).map ρ.answer := by
  unfold DocumentsRoutes.list
  cases hscope : DocumentsRoutes.requireResourceScope ["api.read"] me with
  | error e => rfl
  | ok _ =>
      simp only [hu]
      unfold DocumentRepository.listByOwner
      by_cases huuid : isUuid u = false
      · simp only [huuid]
        rfl
      · rw [if_neg huuid, if_neg huuid]
        change Except.ok (DocumentAnswer.listed (DocumentRepository.page (s'.owned u))) =
          Except.ok (DocumentAnswer.listed ((DocumentRepository.page (s.owned u)).map ρ.row))
        rw [h.owned, ρ.page_map h.times]

theorem Agree.delete (h : Agree ρ u s s') : Agree ρ u (s.delete id) (s'.delete (ρ.id id)) where
  owned := by
    rw [DocumentStore.owned_delete, DocumentStore.owned_delete, h.owned, ρ.filter_map]
  user := h.user
  times a ha := by
    rw [DocumentStore.owned_delete] at ha
    exact h.times a (List.mem_filter.1 ha).1

/-- What a deletion finds in the two stores. -/
theorem found_agrees (h : Agree ρ u s s') (hvalue : uuidValue y = ρ.id (uuidValue x)) :
    (DocumentRepository.findById y s').filter (fun a => a.ownerId = u) =
      ((DocumentRepository.findById x s).filter fun a => a.ownerId = u).map ρ.row := by
  rw [DocumentStore.findById_owned, DocumentStore.findById_owned, h.owned, hvalue, ρ.lookup_map]
  cases lookup DocumentRow.id (uuidValue x) (s.owned u) with
  | none => rfl
  | some a =>
      rw [Option.map_some, Option.filter_some, Option.filter_some]
      by_cases howner : a.ownerId = u <;> simp [Renaming.row, howner]

theorem delete_agrees (h : Agree ρ u s s') (hu : me.userId = some u) (hform : isUuid y = isUuid x)
    (hvalue : isUuid x = true → uuidValue y = ρ.id (uuidValue x)) :
    (DocumentsRoutes.delete me y s').1 = (DocumentsRoutes.delete me x s).1.map ρ.answer ∧
      Agree ρ u (DocumentsRoutes.delete me x s).2 (DocumentsRoutes.delete me y s').2 := by
  unfold DocumentsRoutes.delete
  cases hscope : DocumentsRoutes.requireResourceScope ["api.write"] me with
  | error e => exact ⟨rfl, h⟩
  | ok _ =>
      by_cases huuid : isUuid x = false
      · simp only [hform, huuid, if_true]
        exact ⟨rfl, h⟩
      · have hx : isUuid x = true := by simpa using huuid
        have hfound := found_agrees h (hvalue hx)
        simp only [hform, hx, hu, Option.all_some, hfound, Bool.true_eq_false, if_false]
        cases (DocumentRepository.findById x s).filter fun a => a.ownerId = u with
        | none => exact ⟨rfl, h⟩
        | some a =>
            simp only [Option.map_some]
            by_cases hadmin : (some u).isSome = true ∧ "admin" ∉ me.roles
            · rw [if_pos hadmin, if_pos hadmin]
              exact ⟨rfl, h⟩
            · rw [if_neg hadmin, if_neg hadmin]
              refine ⟨rfl, ?_⟩
              unfold DocumentRepository.remove
              rw [hvalue hx]
              exact h.delete

/-- A deletion leaves the documents of the others. -/
theorem delete_others (hu : me.userId = some u) :
    (DocumentsRoutes.delete me x s).2.others u = s.others u := by
  unfold DocumentsRoutes.delete
  cases hscope : DocumentsRoutes.requireResourceScope ["api.write"] me with
  | error e => rfl
  | ok _ =>
      simp only [hu, Option.all_some]
      by_cases huuid : isUuid x = false
      · rw [if_pos huuid]
      · rw [if_neg huuid]
        cases hfound : (DocumentRepository.findById x s).filter fun a => a.ownerId = u with
        | none => rfl
        | some a =>
            obtain ⟨hfind, howner⟩ := Option.filter_eq_some_iff.1 hfound
            have hmem := lookup_mem hfind
            have hvalue : a.ownerId = uuidValue u := by
              rw [← of_decide_eq_true howner, s.canonical _ (s.owners a hmem)]
            simp only
            split_ifs with hadmin
            · rfl
            · unfold DocumentRepository.remove
              rw [← lookup_key hfind]
              exact DocumentStore.others_delete hmem hvalue

/-- What a creation does: it is refused, for what it is given or for want of the user, or
it adds a document of the user. -/
theorem create_cases {r : String} {now : ℕ} {title : String} {content : Option String}
    {o : Except Err DocumentRow}
    (h : DocumentRepository.create r now u title content s = some (o, t)) :
    (∃ sqlState, DocumentRepository.refused u title (content.getD "") = some sqlState ∧
      o = .error (.db sqlState) ∧ t = s) ∨
    DocumentRepository.refused u title (content.getD "") = none ∧
      ((uuidValue u ∉ s.users ∧ o = .error (.db "23503") ∧ t = s) ∨
        ∃ hnew howner, o = .ok (DocumentRepository.newRow r now u title (content.getD "")) ∧
          t = s.insert (DocumentRepository.newRow r now u title (content.getD ""))
            hnew howner) := by
  unfold DocumentRepository.create at h
  cases hrefused : DocumentRepository.refused u title (content.getD "") with
  | some sqlState =>
      rw [hrefused] at h
      obtain ⟨rfl, rfl⟩ := Prod.mk.inj (Option.some.inj h)
      exact .inl ⟨sqlState, rfl, rfl, rfl⟩
  | none =>
      rw [hrefused] at h
      refine .inr ⟨rfl, ?_⟩
      simp only at h
      split_ifs at h with howner hnew
      · obtain ⟨rfl, rfl⟩ := Prod.mk.inj (Option.some.inj h)
        exact .inr ⟨hnew.2, howner, rfl, rfl⟩
      · obtain ⟨rfl, rfl⟩ := Prod.mk.inj (Option.some.inj h)
        exact .inl ⟨howner, rfl, rfl⟩

/-- A new document of the user, in both stores. -/
theorem Agree.insert (h : Agree ρ u s s') {r r' title content : String} {now : ℕ}
    (hr : uuidValue r' = ρ.id (uuidValue r)) (hnow : now ∈ ρ.times) {hnew howner hnew' howner'} :
    Agree ρ u (s.insert (DocumentRepository.newRow r now u title content) hnew howner)
      (s'.insert (DocumentRepository.newRow r' (ρ.time now) u title content) hnew' howner') where
  owned := by
    rw [DocumentStore.owned_insert rfl, DocumentStore.owned_insert rfl, h.owned, List.map_append]
    simp [DocumentRepository.newRow, Renaming.row, hr]
  user := h.user
  times a ha := by
    rw [DocumentStore.owned_insert rfl] at ha
    rcases List.mem_append.1 ha with ha | ha
    · exact h.times a ha
    · rw [List.mem_singleton.1 ha]
      exact hnow

theorem create_agrees (h : Agree ρ u s s') (hu : me.userId = some u) {body : DocumentBody}
    {r r' : String} {now : ℕ} {o o' : Except Err DocumentAnswer}
    (hr : uuidValue r' = ρ.id (uuidValue r)) (hnow : now ∈ ρ.times)
    (hcreate : DocumentsRoutes.create me body r now s = some (o, t))
    (hcreate' : DocumentsRoutes.create me body r' (ρ.time now) s' = some (o', t')) :
    o' = o.map ρ.answer ∧ Agree ρ u t t' := by
  unfold DocumentsRoutes.create at hcreate hcreate'
  cases hinput : DocumentsRoutes.requireResourceScope ["api.write"] me >>=
      fun _ => DocumentsRoutes.createSchema body with
  | error e =>
      rw [hinput] at hcreate hcreate'
      obtain ⟨rfl, rfl⟩ := Prod.mk.inj (Option.some.inj hcreate)
      obtain ⟨rfl, rfl⟩ := Prod.mk.inj (Option.some.inj hcreate')
      exact ⟨rfl, h⟩
  | ok input =>
      obtain ⟨title, content⟩ := input
      rw [hinput] at hcreate hcreate'
      simp only [hu] at hcreate hcreate'
      obtain ⟨⟨o₁, s₁⟩, h₁, heq⟩ := Option.map_eq_some_iff.1 hcreate
      obtain ⟨⟨o₂, s₂⟩, h₂, heq'⟩ := Option.map_eq_some_iff.1 hcreate'
      obtain ⟨rfl, rfl⟩ := Prod.mk.inj heq
      obtain ⟨rfl, rfl⟩ := Prod.mk.inj heq'
      rcases create_cases h₁ with ⟨sqlState, hrefused, rfl, rfl⟩ | ⟨hrefused, hcases⟩
      · rcases create_cases h₂ with ⟨_, hrefused', rfl, rfl⟩ | ⟨hrefused', _⟩
        · obtain rfl := Option.some.inj (hrefused.symm.trans hrefused')
          exact ⟨rfl, h⟩
        · rw [hrefused] at hrefused'
          cases hrefused'
      · rcases create_cases h₂ with ⟨_, hrefused', _⟩ | ⟨_, hcases'⟩
        · rw [hrefused] at hrefused'
          cases hrefused'
        · rcases hcases with ⟨hno, rfl, rfl⟩ | ⟨hnew, howner, rfl, rfl⟩
          · rcases hcases' with ⟨_, rfl, rfl⟩ | ⟨_, howner', _⟩
            · exact ⟨rfl, h⟩
            · exact absurd (h.user.1 howner') hno
          · rcases hcases' with ⟨hno, _⟩ | ⟨hnew', howner', rfl, rfl⟩
            · exact absurd (h.user.2 howner) hno
            · have hinsert : Agree ρ u (s.insert _ hnew howner) (s'.insert _ hnew' howner') :=
                h.insert hr hnow
              refine ⟨?_, hinsert⟩
              simp [DocumentRepository.newRow, Except.map, Renaming.answer, hr]

theorem create_others (hu : me.userId = some u) {body : DocumentBody} {r : String} {now : ℕ}
    {o : Except Err DocumentAnswer}
    (hcreate : DocumentsRoutes.create me body r now s = some (o, t)) :
    t.others u = s.others u := by
  unfold DocumentsRoutes.create at hcreate
  cases hinput : DocumentsRoutes.requireResourceScope ["api.write"] me >>=
      fun _ => DocumentsRoutes.createSchema body with
  | error e =>
      rw [hinput] at hcreate
      obtain ⟨_, rfl⟩ := Prod.mk.inj (Option.some.inj hcreate)
      rfl
  | ok input =>
      rw [hinput] at hcreate
      simp only [hu] at hcreate
      obtain ⟨⟨o₁, s₁⟩, h₁, heq⟩ := Option.map_eq_some_iff.1 hcreate
      have ht : s₁ = t := (Prod.mk.inj heq).2
      subst ht
      rcases create_cases h₁ with ⟨_, _, _, rfl⟩ | ⟨_, ⟨_, _, rfl⟩ | ⟨_, _, _, rfl⟩⟩
      · rfl
      · rfl
      · exact DocumentStore.others_insert rfl

end Request

/-! ### Runs of requests -/

/-- **Each request keeps the correspondence.** -/
theorem handle_unwinds (ρ : Renaming) (u : String) :
    Unwinds DocumentsRoutes.handle DocumentsRoutes.handle (SameCall ρ u)
      (fun o o' => o' = o.map ρ.answer) (Agree ρ u) := by
  rintro ⟨me, request, r, now⟩ ⟨me', request', r', now'⟩ s s' o o' t t'
    ⟨hme, hu, hrequest, hr, hnow, htime⟩ h hstep hstep'
  simp only at hme hu hrequest hr hnow htime
  subst hme hnow
  cases hrequest with
  | list =>
      obtain ⟨rfl, rfl⟩ := Prod.mk.inj (Option.some.inj hstep)
      obtain ⟨rfl, rfl⟩ := Prod.mk.inj (Option.some.inj hstep')
      exact ⟨list_agrees h hu, h⟩
  | create body => exact create_agrees h hu hr htime hstep hstep'
  | delete hform hvalue =>
      have hboth := delete_agrees h hu hform hvalue
      rw [Option.some.inj hstep, Option.some.inj hstep'] at hboth
      exact hboth

theorem handle_others {call : DocumentCall} (hu : call.me.userId = some u)
    {o : Except Err DocumentAnswer} (h : DocumentsRoutes.handle call s = some (o, t)) :
    t.others u = s.others u := by
  unfold DocumentsRoutes.handle at h
  split at h
  · obtain ⟨_, rfl⟩ := Prod.mk.inj (Option.some.inj h)
    rfl
  · exact create_others hu h
  · rename_i id _
    have hkept := delete_others (s := s) (x := id) hu
    rw [Option.some.inj h] at hkept
    exact hkept

theorem sameCalls_user {ρ : Renaming} {calls calls' : List DocumentCall}
    (h : List.Forall₂ (SameCall ρ u) calls calls') :
    (∀ call ∈ calls, call.me.userId = some u) ∧ ∀ call ∈ calls', call.me.userId = some u := by
  induction h with
  | nil => exact ⟨fun _ h => absurd h List.not_mem_nil, fun _ h => absurd h List.not_mem_nil⟩
  | cons hsame _ ih =>
      exact ⟨List.forall_mem_cons.2 ⟨hsame.user, ih.1⟩,
        List.forall_mem_cons.2 ⟨hsame.me ▸ hsame.user, ih.2⟩⟩

/-- **Documents of the others are not read, not changed and not revealed.**  Two stores
with the same documents of `u` answer a sequence of requests with the identity of `u` alike,
up to generated identifiers and times; the documents of `u` stay the same in both, and those
of the others stay what they were. -/
theorem documents_isolated (ρ : Renaming) (hdocuments : s'.owned u = s.owned u)
    (huser : uuidValue u ∈ s'.users ↔ uuidValue u ∈ s.users)
    (hfixed : ∀ a ∈ s.owned u, ρ.row a = a ∧ a.createdAt ∈ ρ.times)
    {calls calls' : List DocumentCall} (hcalls : List.Forall₂ (SameCall ρ u) calls calls')
    {os os' : List (Except Err DocumentAnswer)}
    (hrun : answersOf DocumentsRoutes.handle calls s = some (os, t))
    (hrun' : answersOf DocumentsRoutes.handle calls' s' = some (os', t')) :
    os' = os.map (Except.map ρ.answer) ∧ t'.owned u = (t.owned u).map ρ.row ∧
      t.others u = s.others u ∧ t'.others u = s'.others u := by
  have hagree : Agree ρ u s s' := by
    refine ⟨?_, huser, fun a ha => (hfixed a ha).2⟩
    rw [hdocuments]
    exact ((List.map_congr_left fun a ha => (hfixed a ha).1).trans (List.map_id _)).symm
  obtain ⟨hanswers, ht⟩ := (handle_unwinds ρ u).runs hcalls hagree hrun hrun'
  obtain ⟨husers, husers'⟩ := sameCalls_user hcalls
  refine ⟨?_, ht.owned, ?_, ?_⟩
  · clear hrun hrun'
    induction hanswers with
    | nil => rfl
    | cons ho _ ih => rw [List.map_cons, ho, ih]
  · exact view_of_answersOf (fun call hcall _ _ _ h => handle_others (husers call hcall) h) hrun
  · exact view_of_answersOf (fun call hcall _ _ _ h => handle_others (husers' call hcall) h) hrun'

/-- A document of the first and one of the second user. -/
def sampleDocuments : DocumentStore where
  users := [sampleUuid 9001, sampleUuid 9002]
  documents :=
    [⟨sampleUuid 1, sampleUuid 9001, "Notes", "", 5, 5⟩,
     ⟨sampleUuid 2, sampleUuid 9002, "Plans", "", 6, 6⟩]
  generated := [sampleUuid 1, sampleUuid 2]
  canonical := by decide +kernel
  owners := by decide +kernel
  ids := by decide +kernel
  ledger := by decide +kernel

/-- An administrator lists, creates a document, tries to delete that of the other user and
deletes the new one; `n` numbers the identifier that is generated. -/
def sampleCalls (n : ℕ) : List DocumentCall :=
  let me : ResourceIdentity :=
    ⟨some (sampleUuid 9001), none, ["api.read", "api.write"], ["admin"], none⟩
  [⟨me, .list, "", 7⟩, ⟨me, .create (.object (.text "New") .absent), sampleUuid n, 8⟩,
    ⟨me, .delete (sampleUuid 2), "", 9⟩, ⟨me, .delete (sampleUuid n), "", 10⟩]

/-- The identifiers `sampleUuid 3` and `sampleUuid 4` change places. -/
def sampleRenaming : Renaming where
  id := Equiv.swap (sampleUuid 3) (sampleUuid 4)
  time := fun t => t
  times := Set.univ
  injective := Equiv.injective _
  monotone := strictMono_id.strictMonoOn _

theorem documents_isolated_of_deleted :
    ∃ os os' t t',
      answersOf DocumentsRoutes.handle (sampleCalls 3) sampleDocuments = some (os, t) ∧
      answersOf DocumentsRoutes.handle (sampleCalls 4) (sampleDocuments.delete (sampleUuid 2)) =
        some (os', t') ∧
      os' = os.map (Except.map sampleRenaming.answer) ∧
      t'.owned (sampleUuid 9001) = (t.owned (sampleUuid 9001)).map sampleRenaming.row ∧
      t.others (sampleUuid 9001) = sampleDocuments.others (sampleUuid 9001) ∧
      t'.others (sampleUuid 9001) =
        (sampleDocuments.delete (sampleUuid 2)).others (sampleUuid 9001) := by
  have hplay :
      (answersOf DocumentsRoutes.handle (sampleCalls 3) sampleDocuments).isSome = true := by
    decide +kernel
  have hplay' : (answersOf DocumentsRoutes.handle (sampleCalls 4)
      (sampleDocuments.delete (sampleUuid 2))).isSome = true := by
    decide +kernel
  obtain ⟨⟨os, t⟩, hrun⟩ := Option.isSome_iff_exists.1 hplay
  obtain ⟨⟨os', t'⟩, hrun'⟩ := Option.isSome_iff_exists.1 hplay'
  have hfixed : ∀ a ∈ sampleDocuments.owned (sampleUuid 9001), sampleRenaming.row a = a := by
    decide +kernel
  have hcalls : List.Forall₂ (SameCall sampleRenaming (sampleUuid 9001)) (sampleCalls 3)
      (sampleCalls 4) := by
    refine .cons ⟨rfl, rfl, .list, ?_, rfl, trivial⟩ (.cons ⟨rfl, rfl, .create _, ?_, rfl, trivial⟩
      (.cons ⟨rfl, rfl, .delete rfl fun _ => ?_, ?_, rfl, trivial⟩
      (.cons ⟨rfl, rfl, .delete ?_ fun _ => ?_, ?_, rfl, trivial⟩ .nil))) <;> decide +kernel
  exact ⟨os, os', t, t', hrun, hrun', documents_isolated sampleRenaming (by decide +kernel) (by rfl)
    (fun a ha => ⟨hfixed a ha, trivial⟩) hcalls hrun hrun'⟩

end IdentityPlatform
