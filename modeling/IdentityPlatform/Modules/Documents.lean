/-
# Documents

`documents.routes.ts` and `document.repository.ts`: the documents of the resource API.
Users list, create and, as administrators, delete documents of their own; a service client
without a user lists and deletes all of them.

A `UUID` column compares by value and returns the canonical text, `owner_id !== me.userId`
compares texts.  The generated identifier and the time of a request are its inputs; an
identifier that has been generated before is refused.
-/

import IdentityPlatform.Infrastructure.Statements
import IdentityPlatform.Modules.Resources

namespace IdentityPlatform

open Relational

/-- The value of a `UUID` text, in the form in which PostgreSQL returns it. -/
def uuidValue (text : String) : String := text.toLower

/-- `DocumentRow`. -/
structure DocumentRow where
  id : String
  ownerId : String
  title : String
  content : String
  createdAt : ℕ
  updatedAt : ℕ
  deriving DecidableEq, Repr

/-- The table `documents`, and the identifiers of the table `users`, which its owners
reference.  `generated` are the identifiers handed out so far. -/
structure DocumentStore where
  users : List String
  documents : List DocumentRow
  generated : List String
  /-- The users have canonical identifiers. -/
  canonical : ∀ id ∈ users, uuidValue id = id
  /-- `REFERENCES users(id)`. -/
  owners : ∀ row ∈ documents, row.ownerId ∈ users
  /-- `PRIMARY KEY`. -/
  ids : (documents.map DocumentRow.id).Nodup
  ledger : ∀ row ∈ documents, row.id ∈ generated

namespace DocumentStore

/-- The store with a new row. -/
def insert (s : DocumentStore) (row : DocumentRow) (hnew : row.id ∉ s.generated)
    (howner : row.ownerId ∈ s.users) : DocumentStore where
  users := s.users
  documents := s.documents ++ [row]
  generated := row.id :: s.generated
  canonical := s.canonical
  owners a ha := by
    rcases List.mem_append.1 ha with ha | ha
    · exact s.owners a ha
    · exact List.mem_singleton.1 ha ▸ howner
  ids := by
    rw [List.map_append, List.nodup_append]
    refine ⟨s.ids, List.nodup_singleton _, fun id hid id' hid' heq => hnew ?_⟩
    obtain ⟨a, ha, rfl⟩ := List.mem_map.1 hid
    rw [List.mem_singleton.1 hid'] at heq
    exact heq ▸ s.ledger a ha
  ledger a ha := by
    rcases List.mem_append.1 ha with ha | ha
    · exact List.mem_cons_of_mem _ (s.ledger a ha)
    · exact List.mem_singleton.1 ha ▸ List.mem_cons_self ..

/-- The store without the row of an identifier. -/
def delete (s : DocumentStore) (id : String) : DocumentStore where
  users := s.users
  documents := s.documents.filter fun row => row.id ≠ id
  generated := s.generated
  canonical := s.canonical
  owners a ha := s.owners a (List.mem_filter.1 ha).1
  ids := s.ids.sublist (List.filter_sublist.map _)
  ledger a ha := s.ledger a (List.mem_filter.1 ha).1

end DocumentStore

namespace DocumentRepository

/-- `ORDER BY created_at DESC LIMIT 50 OFFSET 0`; rows of the same time stay as they are. -/
def page (rows : List DocumentRow) : List DocumentRow :=
  (rows.insertionSort fun a b => b.createdAt ≤ a.createdAt).take 50

/-- PostgreSQL refuses text with a NUL. -/
def hasNul (text : String) : Bool := text.toList.any fun c => c.toNat = 0

/-- The SQLSTATE of the first parameter that `documents` does not take: a malformed UUID, a
text that cannot be stored, a title of the wrong length. -/
def refused (ownerId title content : String) : Option String :=
  if isUuid ownerId = false then some "22P02"
  else if (hasNul title || hasNul content) = true then some "22021"
  else if title.length < 1 ∨ 200 < title.length then some "23514"
  else none

/-- The row `create` inserts, with the identifier and the time its columns default to. -/
def newRow (r : String) (now : ℕ) (ownerId title content : String) : DocumentRow :=
  ⟨uuidValue r, uuidValue ownerId, title, content, now, now⟩

/-- `DocumentRepository.create`. -/
def create (r : String) (now : ℕ) (ownerId title : String) (content : Option String)
    (s : DocumentStore) : Option (Except Err DocumentRow × DocumentStore) :=
  match refused ownerId title (content.getD "") with
  | some sqlState => some (.error (.db sqlState), s)
  | none =>
      if howner : uuidValue ownerId ∈ s.users then
        if hnew : isUuid r = true ∧ uuidValue r ∉ s.generated then
          let row := newRow r now ownerId title (content.getD "")
          some (.ok row, s.insert row hnew.2 howner)
        else none
      else some (.error (.db "23503"), s)

/-- `DocumentRepository.listByOwner`. -/
def listByOwner (ownerId : String) (s : DocumentStore) : Except Err (List DocumentRow) :=
  if isUuid ownerId = false then .error (.db "22P02")
  else .ok (page (s.documents.filter fun row => row.ownerId = uuidValue ownerId))

/-- `DocumentRepository.listAll`. -/
def listAll (s : DocumentStore) : List DocumentRow := page s.documents

/-- `DocumentRepository.findById`, for a text that is a UUID. -/
def findById (id : String) (s : DocumentStore) : Option DocumentRow :=
  lookup DocumentRow.id (uuidValue id) s.documents

/-- `DocumentRepository.remove`, for a text that is a UUID. -/
def remove (id : String) (s : DocumentStore) : DocumentStore := s.delete (uuidValue id)

end DocumentRepository

/-! ### The routes -/

/-- A field of a JSON body: not there, a string, or a value of another type. -/
inductive JsonField
  | absent
  | text (value : String)
  | other (type : String)
  deriving DecidableEq, Repr

/-- `value as string | undefined`. -/
def JsonField.value : JsonField → Option String
  | .text value => some value
  | _ => none

/-- The parsed body of `POST /documents`: `express.json` lets objects and arrays through. -/
inductive DocumentBody
  | object (title content : JsonField)
  | array
  deriving DecidableEq, Repr

/-- The requests about documents. -/
inductive DocumentRequest
  | list
  | create (body : DocumentBody)
  | delete (id : String)
  deriving DecidableEq, Repr

/-- What the routes answer. -/
inductive DocumentAnswer
  | listed (data : List DocumentRow)
  | created (id title : String) (createdAt : ℕ)
  | noContent
  deriving DecidableEq, Repr

/-- A request with the identity the gateway has set, the identifier that is generated for it
and the time it comes at. -/
structure DocumentCall where
  me : ResourceIdentity
  request : DocumentRequest
  id : String
  now : ℕ

namespace DocumentsRoutes

/-- `requireResourceScope`. -/
def requireResourceScope (anyOf : List String) (me : ResourceIdentity) : Except Err Unit :=
  if anyOf.any (· ∈ me.scopes) then .ok ()
  else .error (.appError 403 "INSUFFICIENT_SCOPE"
    ("Requires one of scopes: " ++ String.intercalate ", " anyOf))

/-- What zod has to say about a `z.string().min(min).max(max)`. -/
def stringIssue (min max : ℕ) (optional : Bool) : JsonField → Option String
  | .absent => if optional then none else some "Required"
  | .other type => some ("Expected string, received " ++ type)
  | .text value =>
      if jsLength value < min then
        some ("String must contain at least " ++ toString min ++ " character(s)")
      else if max < jsLength value then
        some ("String must contain at most " ++ toString max ++ " character(s)")
      else none

/-- `createSchema`, as `validate` applies it. -/
def createSchema : DocumentBody → Except Err (String × Option String)
  | .array => .error (.validationError "Validation failed"
      [("_root", "Expected object, received array")])
  | .object title content =>
      let details := ((stringIssue 1 200 false title).map (("title", ·))).toList ++
        ((stringIssue 0 50000 true content).map (("content", ·))).toList
      if details = [] then .ok (title.value.getD "", content.value)
      else .error (.validationError "Validation failed" details)

/-- `GET /documents`. -/
def list (me : ResourceIdentity) (s : DocumentStore) : Except Err DocumentAnswer := do
  requireResourceScope ["api.read"] me
  match me.userId with
  | some userId => .listed <$> DocumentRepository.listByOwner userId s
  | none => .ok (.listed (DocumentRepository.listAll s))

/-- `POST /documents`. -/
def create (me : ResourceIdentity) (body : DocumentBody) (r : String) (now : ℕ)
    (s : DocumentStore) : Option (Except Err DocumentAnswer × DocumentStore) :=
  match requireResourceScope ["api.write"] me >>= fun _ => createSchema body with
  | .error e => some (.error e, s)
  | .ok (title, content) =>
      match me.userId with
      | none => some (.error (.appError 403 "SERVICE_FORBIDDEN"
          "Service clients cannot create documents"), s)
      | some userId =>
          (DocumentRepository.create r now userId title content s).map fun (row, s) =>
            (row.map fun row => .created row.id row.title row.createdAt, s)

/-- `DELETE /documents/:id`. -/
def delete (me : ResourceIdentity) (id : String) (s : DocumentStore) :
    Except Err DocumentAnswer × DocumentStore :=
  match requireResourceScope ["api.write"] me with
  | .error e => (.error e, s)
  | .ok () =>
      if isUuid id = false then
        (.error (.appError 400 "VALIDATION_ERROR" "Invalid document id"), s)
      else
        -- a foreign document is not told from none
        match (DocumentRepository.findById id s).filter
            fun row => me.userId.all (row.ownerId = ·) with
        | none => (.error (.appError 404 "NOT_FOUND" "Document not found"), s)
        | some _ =>
            if me.userId.isSome ∧ "admin" ∉ me.roles then
              (.error (.appError 403 "FORBIDDEN" "Only the owner or an admin can delete"), s)
            else (.ok .noContent, DocumentRepository.remove id s)

/-- The routes, for a request whose identity has been established. -/
def handle (call : DocumentCall) (s : DocumentStore) :
    Option (Except Err DocumentAnswer × DocumentStore) :=
  match call.request with
  | .list => some (list call.me s, s)
  | .create body => create call.me body call.id call.now s
  | .delete id => some (delete call.me id s)

end DocumentsRoutes
end IdentityPlatform
