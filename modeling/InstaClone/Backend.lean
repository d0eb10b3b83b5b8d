import InstaClone.Async.Contract
import InstaClone.Firestore
import InstaClone.Storage

/-!
# Requests, replies and the SDK calls

The requests the services make of Firestore, Storage and Auth, the shape of each
reply, and `serve`, the backend's answer to one request. A reply carries what the
Swift callback receives: an optional error for a write, an optional snapshot for
a read (`none` when the read failed).

`setData`, `updateData`, `getDocument` and so on are the SDK calls as statements
of a `Program`; the services in `Services` are written with them. `Turn` is what
the device answers in one turn of the run loop: `Auth.auth().currentUser?.uid`,
`Messaging.messaging().fcmToken`, `Date()`, and a fresh automatic identifier (no
closure of this code asks for more than one).
-/

namespace InstaClone

open Async (Api Prog World Event)

/-- Firestore documents, the URLs of the stored objects, and the accounts by
e-mail and uid. -/
structure Backend where
  docs : Store
  objects : List String
  accounts : List (String × String)

/-- What a session may ask of the backend. -/
inductive Request where
  | write (w : Write)
  | getDocument (path : Path)
  | getDocuments (q : Query)
  | putData (reference data : String)
  | downloadURL (reference : String)
  | deleteObject (url : String)
  | createUser (email password : String)

/-- `DocumentSnapshot`: the identifier, and the data when the document exists. -/
structure Snapshot where
  documentID : String
  data : Option Doc

/-- The reply each kind of request gets. -/
@[reducible] def Response : Request → Type
  | .write _ => Option Error
  | .getDocument _ => Option Snapshot
  | .getDocuments _ => Option (List (String × Doc))
  | .putData _ _ => Option Error
  | .downloadURL _ => Option String
  | .deleteObject _ => Option Error
  | .createUser _ _ => Option String × Option Error

/-- What the device answers in one turn. -/
structure Turn where
  currentUid : Option String
  fcmToken : Option String
  now : Timestamp
  autoId : String
deriving DecidableEq

/-- How a request ends: with the order of a query's results, or the uid of a new
account, or with an error. -/
inductive Outcome where
  | success (names : List String)
  | failure (error : Error)

/-- The error of an update of a missing document. -/
def notFound : Error := "No document to update"

/-- The backend serves one request. -/
def serve (b : Backend) : (r : Request) → Outcome → Option (Backend × Response r)
  | .write w, .success _ =>
    match w.apply b.docs with
    | some docs => some ({ b with docs := docs }, none)
    | none => some (b, some notFound)
  | .write _, .failure e => some (b, some e)
  | .getDocument path, .success _ =>
    some (b, some ⟨path.getLastD "", b.docs.lookup path⟩)
  | .getDocument _, .failure _ => some (b, none)
  | .getDocuments q, .success names =>
    if q.admits b.docs names then some (b, some (q.fetch b.docs names)) else none
  | .getDocuments _, .failure _ => some (b, none)
  | .putData reference _, .success _ =>
    some ({ b with objects := objectUrl reference :: b.objects }, none)
  | .putData _ _, .failure e => some (b, some e)
  | .downloadURL reference, .success _ =>
    if objectUrl reference ∈ b.objects then some (b, some (objectUrl reference))
    else some (b, none)
  | .downloadURL _, .failure _ => some (b, none)
  | .deleteObject url, .success _ =>
    if url ∈ b.objects then some ({ b with objects := b.objects.filter (· ≠ url) }, none)
    else some (b, some "Object does not exist")
  | .deleteObject _, .failure e => some (b, some e)
  | .createUser email _, .success names =>
    if email ∈ b.accounts.map Prod.fst then some (b, (none, some "emailAlreadyInUse"))
    else
      match names with
      | [uid] =>
        if uid = "" ∨ uid ∈ b.accounts.map Prod.snd then none
        else some ({ b with accounts := (email, uid) :: b.accounts }, (some uid, none))
      | _ => none
  | .createUser _ _, .failure e => some (b, (none, some e))

/-- The backend as a service. Each session's writes go through one FIFO channel;
reads, Storage and Auth requests are not ordered. -/
def api : Api Request Response Backend Outcome where
  serve := serve
  ordered
    | .write _ => true
    | _ => false

@[simp] theorem api_serve (b : Backend) (r : Request) (o : Outcome) :
    api.serve b r o = serve b r o := rfl

@[simp] theorem api_ordered_write (w : Write) : api.ordered (.write w) = true := rfl

/-- A write is committed and acknowledged without error, or leaves the backend as
it was and is acknowledged with an error. -/
theorem serve_write {b b' : Backend} {w : Write} {o : Outcome} {y : Option Error}
    (h : serve b (.write w) o = some (b', y)) :
    (y = none ∧ ∃ docs, w.apply b.docs = some docs ∧ b' = { b with docs := docs })
      ∨ (∃ e, y = some e) ∧ b' = b := by
  cases o with
  | success names =>
    simp only [serve] at h
    split at h
    next docs hdocs =>
      simp only [Option.some.injEq, Prod.mk.injEq] at h
      exact Or.inl ⟨h.2.symm, docs, hdocs, h.1.symm⟩
    next =>
      simp only [Option.some.injEq, Prod.mk.injEq] at h
      exact Or.inr ⟨⟨_, h.2.symm⟩, h.1.symm⟩
  | failure e =>
    simp only [serve, Option.some.injEq, Prod.mk.injEq] at h
    exact Or.inr ⟨⟨e, h.2.symm⟩, h.1.symm⟩

/-- Only writes change the stored documents. -/
theorem serve_docs {b b' : Backend} {r : Request} {o : Outcome} {y : Response r}
    (h : serve b r o = some (b', y)) (hr : ∀ w, r ≠ .write w) : b'.docs = b.docs := by
  cases r with
  | write w => exact absurd rfl (hr w)
  | getDocument path =>
    cases o <;> simp only [serve, Option.some.injEq, Prod.mk.injEq] at h <;> rw [← h.1]
  | getDocuments q =>
    cases o with
    | success names =>
      simp only [serve] at h
      split at h
      next => simp only [Option.some.injEq, Prod.mk.injEq] at h; rw [← h.1]
      next => exact absurd h (by simp)
    | failure e => simp only [serve, Option.some.injEq, Prod.mk.injEq] at h; rw [← h.1]
  | putData reference data =>
    cases o <;> simp only [serve, Option.some.injEq, Prod.mk.injEq] at h <;> rw [← h.1]
  | downloadURL reference =>
    cases o with
    | success names =>
      simp only [serve] at h
      split at h <;> simp only [Option.some.injEq, Prod.mk.injEq] at h <;> rw [← h.1]
    | failure e => simp only [serve, Option.some.injEq, Prod.mk.injEq] at h; rw [← h.1]
  | deleteObject url =>
    cases o with
    | success names =>
      simp only [serve] at h
      split at h <;> simp only [Option.some.injEq, Prod.mk.injEq] at h <;> rw [← h.1]
    | failure e => simp only [serve, Option.some.injEq, Prod.mk.injEq] at h; rw [← h.1]
  | createUser email password =>
    cases o with
    | success names =>
      simp only [serve] at h
      split at h
      next => simp only [Option.some.injEq, Prod.mk.injEq] at h; rw [← h.1]
      next =>
        split at h
        next uid =>
          split at h
          next => exact absurd h (by simp)
          next => simp only [Option.some.injEq, Prod.mk.injEq] at h; rw [← h.1]
        next => exact absurd h (by simp)
    | failure e => simp only [serve, Option.some.injEq, Prod.mk.injEq] at h; rw [← h.1]

/-- A query's reply lists exactly the selected documents. -/
theorem serve_getDocuments {b b' : Backend} {q : Query} {o : Outcome}
    {y : Option (List (String × Doc))} (h : serve b (.getDocuments q) o = some (b', y)) :
    b' = b ∧ ∀ docs, y = some docs → docs.Perm (q.results b.docs) := by
  cases o with
  | success names =>
    simp only [serve] at h
    split at h
    next hadm =>
      simp only [Option.some.injEq, Prod.mk.injEq] at h
      refine ⟨h.1.symm, fun docs hdocs => ?_⟩
      rw [← h.2, Option.some.injEq] at hdocs
      rw [← hdocs]
      exact Query.fetch_perm hadm
    next => exact absurd h (by simp)
  | failure e =>
    simp only [serve, Option.some.injEq, Prod.mk.injEq] at h
    exact ⟨h.1.symm, fun docs hdocs => by rw [← h.2] at hdocs; exact absurd hdocs (by simp)⟩

/-- A document read's reply is the stored document. -/
theorem serve_getDocument {b b' : Backend} {path : Path} {o : Outcome} {y : Option Snapshot}
    (h : serve b (.getDocument path) o = some (b', y)) :
    b' = b ∧ ∀ snapshot, y = some snapshot →
      snapshot = ⟨path.getLastD "", b.docs.lookup path⟩ := by
  cases o with
  | success names =>
    simp only [serve, Option.some.injEq, Prod.mk.injEq] at h
    refine ⟨h.1.symm, fun snapshot hs => ?_⟩
    rw [← h.2, Option.some.injEq] at hs
    exact hs.symm
  | failure e =>
    simp only [serve, Option.some.injEq, Prod.mk.injEq] at h
    exact ⟨h.1.symm, fun _ hs => by rw [← h.2] at hs; exact absurd hs (by simp)⟩

/-! ## SDK calls as statements -/

/-- A callback program of this app over client state `σ`. -/
abbrev Program (σ : Type) := Prog Request Response Turn σ

variable {σ : Type}

/-- The `completion` of a call made without one. -/
def noCompletion : Option Error → Program σ := fun _ => .done

/-- `document(...).setData(data, completion:)`. -/
def setData (path : Path) (data : Doc) (completion : Option Error → Program σ) : Program σ :=
  .call (.write (.setData path data)) completion .done

/-- `document(...).updateData(fields, completion:)`. -/
def updateData (path : Path) (fields : Doc) (completion : Option Error → Program σ) :
    Program σ :=
  .call (.write (.updateData path fields)) completion .done

/-- `document(...).delete(completion:)`. -/
def delete (path : Path) (completion : Option Error → Program σ) : Program σ :=
  .call (.write (.delete path)) completion .done

/-- `collection(...).addDocument(data:completion:)`: a fresh identifier drawn by
the client, then `setData`. -/
def addDocument (collection : Path) (data : Doc) (completion : Option Error → Program σ) :
    Program σ :=
  .ask fun turn => setData (collection ++ [turn.autoId]) data completion

/-- `document(...).getDocument`. -/
def getDocument (path : Path) (completion : Option Snapshot → Program σ) : Program σ :=
  .call (.getDocument path) completion .done

/-- `query.getDocuments`. -/
def getDocuments (q : Query) (completion : Option (List (String × Doc)) → Program σ) :
    Program σ :=
  .call (.getDocuments q) completion .done

/-- `fatalError`: the process ends. Nothing more of the call runs; that nothing else of the
session does either is among the losses that a run admits. -/
def fatalError : Program σ := .done

/-- `guard let uid = Auth.auth().currentUser?.uid else { return }`. -/
def withCurrentUid (body : String → Program σ) : Program σ :=
  .ask fun turn =>
    match turn.currentUid with
    | some uid => body uid
    | none => .done

end InstaClone
