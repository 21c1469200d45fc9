/-
# Who can delete a document

`DELETE /documents/:id` is documented as `owner or admin`.  The route asks for both of a
user, and for neither of a service client: `me.userId` guards each of its two conditions.
`delete_found` says what the route does with a document that is there, and
`document_deletion_iff` for which identities that is the documented rule.
-/

import IdentityPlatform.Modules.Documents
import IdentityPlatform.Modules.Gateway

namespace IdentityPlatform

open Relational Http

variable {me : ResourceIdentity} {s : DocumentStore} {a : DocumentRow} {id u : String}

/-- The user of the identity owns the document. -/
def DocumentRow.OwnedBy (a : DocumentRow) (me : ResourceIdentity) : Prop :=
  ∃ u, me.userId = some u ∧ uuidValue u = a.ownerId

/-- The documented rule, for a document that `id` names: its owner can delete it, and only
its owner or an administrator ever removes it. -/
structure DeletionRule (me : ResourceIdentity) (id : String) (a : DocumentRow)
    (s : DocumentStore) : Prop where
  owner : a.OwnedBy me →
    DocumentsRoutes.delete me id s = (.ok .noContent, DocumentRepository.remove id s)
  others : ¬a.OwnedBy me → "admin" ∉ me.roles →
    ∀ id', a ∈ (DocumentsRoutes.delete me id' s).2.documents

/-- The identities that the route treats by the rule: an administrator whose identifier is
spelled as it is stored, a user who does not own the document, and no service client
without the role. -/
def TreatedByRule (me : ResourceIdentity) (a : DocumentRow) : Prop :=
  match me.userId with
  | some u => uuidValue u = a.ownerId → u = a.ownerId ∧ "admin" ∈ me.roles
  | none => "admin" ∈ me.roles

/-- The owner of a document is in the spelling in which identifiers are stored. -/
theorem DocumentStore.owner_canonical (ha : a ∈ s.documents) : uuidValue a.ownerId = a.ownerId :=
  s.canonical _ (s.owners a ha)

/-- A document found by an identifier is in the store. -/
theorem findById_mem (h : DocumentRepository.findById id s = some a) : a ∈ s.documents :=
  lookup_mem h

/-- A removed document is gone. -/
theorem not_mem_remove (h : DocumentRepository.findById id s = some a) :
    a ∉ (DocumentRepository.remove id s).documents := by
  intro hmem
  have hkey : a.id = uuidValue id := lookup_key h
  have hkept := (List.mem_filter.1 hmem).2
  simp [hkey] at hkept

/-- The other documents stay. -/
theorem mem_remove_of_ne (ha : a ∈ s.documents) (hne : a.id ≠ uuidValue id) :
    a ∈ (DocumentRepository.remove id s).documents :=
  List.mem_filter.2 ⟨ha, by simpa using hne⟩

/-- **What the route does with a document that is there.** -/
theorem delete_found (hscope : "api.write" ∈ me.scopes) (hid : isUuid id = true)
    (hfound : DocumentRepository.findById id s = some a) :
    DocumentsRoutes.delete me id s =
      if me.userId.all (a.ownerId = ·) = true then
        if me.userId.isSome ∧ "admin" ∉ me.roles then
          (.error (.appError 403 "FORBIDDEN" "Only the owner or an admin can delete"), s)
        else (.ok .noContent, DocumentRepository.remove id s)
      else (.error (.appError 404 "NOT_FOUND" "Document not found"), s) := by
  have hallowed : DocumentsRoutes.requireResourceScope ["api.write"] me = .ok () := by
    simp [DocumentsRoutes.requireResourceScope, hscope]
  by_cases howner : me.userId.all (a.ownerId = ·) = true
  · simp [DocumentsRoutes.delete, hallowed, hid, hfound, Option.filter_some, howner]
  · simp [DocumentsRoutes.delete, hallowed, hid, hfound, Option.filter_some, howner]

/-- **What a request that removes a document has passed**: it names the document, and the
user, if there is one, is its owner. -/
theorem deleted_cases (ha : a ∈ s.documents)
    (h : a ∉ (DocumentsRoutes.delete me id s).2.documents) :
    DocumentRepository.findById id s = some a ∧ me.userId.all (a.ownerId = ·) = true ∧
      (me.userId.isSome → "admin" ∈ me.roles) := by
  unfold DocumentsRoutes.delete at h
  split at h
  · exact absurd ha h
  · by_cases hform : isUuid id = false
    · rw [if_pos hform] at h
      exact absurd ha h
    · rw [if_neg hform] at h
      split at h
      · exact absurd ha h
      · rename_i row hrow
        obtain ⟨hfound, howner⟩ := Option.filter_eq_some_iff.1 hrow
        split_ifs at h with hroles
        · exact absurd ha h
        · have hkey : a.id = uuidValue id := by
            by_contra hne
            exact h (mem_remove_of_ne ha hne)
          have hsame : row = a :=
            eq_of_key s.ids (findById_mem hfound) ha ((lookup_key hfound).trans hkey.symm)
          rw [not_and, not_not] at hroles
          exact ⟨hsame ▸ hfound, hsame ▸ howner, hroles⟩

/-- A user who does not own a document never removes it. -/
theorem kept_of_user (ha : a ∈ s.documents) (huser : me.userId = some u)
    (hnot : uuidValue u ≠ a.ownerId) : a ∈ (DocumentsRoutes.delete me id s).2.documents := by
  by_contra hgone
  obtain ⟨_, howner, _⟩ := deleted_cases ha hgone
  rw [huser, Option.all_some, decide_eq_true_eq] at howner
  exact hnot (howner ▸ DocumentStore.owner_canonical ha)

/-- **When deletion follows the documented rule.**  With the scope, the route treats a
document as documented exactly for the identities of `TreatedByRule`. -/
theorem document_deletion_iff (hscope : "api.write" ∈ me.scopes) (hid : isUuid id = true)
    (hfound : DocumentRepository.findById id s = some a) :
    DeletionRule me id a s ↔ TreatedByRule me a := by
  have ha := findById_mem hfound
  have hdelete := delete_found hscope hid hfound
  unfold TreatedByRule
  cases huser : me.userId with
  | none =>
      rw [huser, Option.all_none, if_pos rfl, if_neg (by simp)] at hdelete
      have hnot : ¬a.OwnedBy me := by
        rintro ⟨u, hu, _⟩
        rw [huser] at hu
        cases hu
      constructor
      · intro hrule
        by_contra hroles
        have hkept := hrule.others hnot hroles id
        rw [hdelete] at hkept
        exact not_mem_remove hfound hkept
      · exact fun hroles => ⟨fun howned => absurd howned hnot, fun _ hnone => absurd hroles hnone⟩
  | some u =>
      rw [huser, Option.all_some, Option.isSome_some] at hdelete
      dsimp only
      constructor
      · intro hrule howned
        have hremoved := (hrule.owner ⟨u, huser, howned⟩).symm.trans hdelete
        split_ifs at hremoved with howner hroles
        · simp at hremoved
        · exact ⟨(of_decide_eq_true howner).symm, by simpa using hroles⟩
        · simp at hremoved
      · intro htreated
        constructor
        · rintro ⟨u', hu', howned⟩
          obtain rfl : u = u' := Option.some.inj (huser.symm.trans hu')
          obtain ⟨hspelled, hroles⟩ := htreated howned
          rw [hdelete, if_pos (by simp [hspelled]), if_neg (by simp [hroles])]
        · intro hnot _ id'
          exact kept_of_user ha huser fun howned => hnot ⟨u, huser, howned⟩

/-! ### Two identities that the gateway sends -/

/-- The claims of a user who has granted `api.write` to a client, as the gateway has them. -/
def sampleDelegate : AuthenticatedUser where
  sub := sampleUuid 9001
  scope := "api.read api.write"
  roles := some ["user"]
  permissions := some []
  sid := some (sampleUuid 1)
  clientId := some "cli_web"
  jti := sampleUuid 2

/-- The claims of a service client. -/
def sampleService : AuthenticatedUser where
  sub := "cli_sync"
  scope := "api.read api.write"
  roles := some ["service"]
  permissions := some []
  sid := none
  clientId := some "cli_sync"
  jti := sampleUuid 3

/-- The claims of an administrator. -/
def sampleOwnerAdmin : AuthenticatedUser :=
  { sampleDelegate with roles := some ["admin", "user"], clientId := none }

/-- A document of the sample user. -/
def sampleDocument : DocumentRow := ⟨sampleUuid 7, sampleUuid 9001, "Notes", "", 0, 0⟩

/-- A store with that document alone. -/
def sampleShelf : DocumentStore where
  users := [sampleUuid 9001]
  documents := [sampleDocument]
  generated := [sampleUuid 7]
  canonical := by decide +kernel
  owners := by decide +kernel
  ids := by decide +kernel
  ledger := by decide +kernel

/-- The identity that the resource API makes of what the gateway sends for a user. -/
def injected (user : AuthenticatedUser) : Option ResourceIdentity :=
  (Gateway.proxyReq { parse := .raw, jwks := fun _ => pure "" } user none .empty).bind
    fun headers => (ResourceApi.handle none headers.lines).toOption

/-- **An owner cannot delete the own document, a service client deletes it.**  Both
identities come from the gateway and have `api.write`. -/
theorem deletion_of_delegate_and_service :
    ∃ delegate service : ResourceIdentity,
      injected sampleDelegate = some delegate ∧ injected sampleService = some service ∧
      "api.write" ∈ delegate.scopes ∧ sampleDocument.OwnedBy delegate ∧
      DocumentsRoutes.delete delegate (sampleUuid 7) sampleShelf =
        (.error (.appError 403 "FORBIDDEN" "Only the owner or an admin can delete"),
          sampleShelf) ∧
      "api.write" ∈ service.scopes ∧ ¬sampleDocument.OwnedBy service ∧ "admin" ∉ service.roles ∧
      sampleDocument ∉ (DocumentsRoutes.delete service (sampleUuid 7) sampleShelf).2.documents := by
  refine ⟨⟨some (sampleUuid 9001), some "cli_web", ["api.read", "api.write"], ["user"], none⟩,
    ⟨none, some "cli_sync", ["api.read", "api.write"], ["service"], none⟩, by decide +kernel,
    by decide +kernel, by decide, ⟨sampleUuid 9001, rfl, by decide +kernel⟩, ?_, by decide, nofun,
    by decide, ?_⟩
  · rw [delete_found (a := sampleDocument) (by decide) (by decide +kernel) (by decide +kernel)]
    rfl
  · rw [delete_found (a := sampleDocument) (by decide) (by decide +kernel) (by decide +kernel)]
    exact not_mem_remove (by decide +kernel)

/-- An administrator deletes the own document. -/
theorem document_deletion_iff_of_admin : ∃ me : ResourceIdentity,
    injected sampleOwnerAdmin = some me ∧
      DeletionRule me (sampleUuid 7) sampleDocument sampleShelf := by
  refine ⟨⟨some (sampleUuid 9001), none, ["api.read", "api.write"], ["admin", "user"], none⟩,
    by decide +kernel, ?_⟩
  exact (document_deletion_iff (by decide) (by decide +kernel) (by decide +kernel)).2
    fun _ => ⟨by decide +kernel, by decide⟩

end IdentityPlatform
