import InstaClone.Async.Mirror
import InstaClone.Backend

/-!
# Sessions of the app over the backend

The worlds of this app, the side conditions runs are taken under, and the
mirrored marks: a document whose presence is repeated by the presence of another
one under a second path. `likePost`/`unlikePost` and `follow`/`unfollow` keep
such pairs; `presence` is the protocol of `Async.Mirror` for them.
-/

namespace InstaClone

open Async

/-- A world of this app: sessions `S` with client state `σ`. -/
abbrev AppWorld (σ S : Type) := World Request Response Turn σ S Backend

/-- An event of this app, with user actions `A`. -/
abbrev AppEvent (S A : Type) := Event S A Turn Outcome

variable {σ S A : Type}

/-- In session `s` the account `uidOf s` is signed in. -/
def SignedIn (uidOf : S → String) (s : S) (turn : Turn) : Prop :=
  turn.currentUid = some (uidOf s)

instance {uidOf : S → String} (s : S) (turn : Turn) : Decidable (SignedIn uidOf s turn) :=
  inferInstanceAs (Decidable (turn.currentUid = some (uidOf s)))

def Request.isWrite : Request → Bool
  | .write _ => true
  | _ => false

def Outcome.isSuccess : Outcome → Bool
  | .success _ => true
  | .failure _ => false

/-- No write fails and no callback is lost. -/
def Healthy (w : AppWorld σ S) : AppEvent S A → Prop
  | .serve i o => ∀ x ∈ w.pool[i]?, x.2.req.isWrite = true → o.isSuccess = true
  | .drop _ => False
  | _ => True

instance (w : AppWorld σ S) (ev : AppEvent S A) : Decidable (Healthy w ev) :=
  match ev with
  | .invoke _ _ _ => isTrue trivial
  | .serve _ _ => inferInstanceAs (Decidable (∀ x ∈ _, _))
  | .deliver _ _ => isTrue trivial
  | .drop _ => inferInstanceAs (Decidable False)

theorem Healthy.not_drop {w : AppWorld σ S} {ev : AppEvent S A} (h : Healthy w ev) (i : Nat) :
    ev ≠ .drop i := by
  rintro rfl
  exact h

/-- Who is signed in where is fixed, no write fails and no callback is lost. -/
def Plain (uidOf : S → String) (w : AppWorld σ S) (ev : AppEvent S A) : Prop :=
  EnvOk (SignedIn uidOf) w ev ∧ Healthy w ev

instance {uidOf : S → String} (w : AppWorld σ S) (ev : AppEvent S A) :
    Decidable (Plain uidOf w ev) :=
  inferInstanceAs (Decidable (_ ∧ _))

instance (w : AppWorld σ S) : Decidable w.Quiescent :=
  decidable_of_iff (w.pool.isEmpty = true) List.isEmpty_iff

/-- A backend with nothing in it. -/
def Backend.empty : Backend := ⟨∅, [], []⟩

/-- A world in which nothing is in flight. -/
def atRest (backend : Backend) (client : S → σ) : AppWorld σ S := ⟨backend, client, []⟩

/-- A turn of the account `uid`. -/
def turnOf (uid : String) : Turn := ⟨some uid, none, ⟨0, 0⟩, "id"⟩

/-- A turn of the account `uid` that draws the identifier `id`. -/
def turnWith (uid id : String) : Turn := { turnOf uid with autoId := id }

/-- A successful query answers with the selected documents. -/
theorem serve_getDocuments_success {b b' : Backend} {q : Query} {o : Outcome}
    {y : Option (List (String × Doc))} (ho : o.isSuccess = true)
    (h : serve b (.getDocuments q) o = some (b', y)) :
    b' = b ∧ ∃ docs, y = some docs ∧ docs.Perm (q.results b.docs) := by
  obtain ⟨hb, hdocs⟩ := serve_getDocuments h
  cases o with
  | failure error => exact absurd ho (by simp [Outcome.isSuccess])
  | success names =>
    simp only [serve] at h
    split at h
    next =>
      simp only [Option.some.injEq, Prod.mk.injEq] at h
      exact ⟨hb, _, h.2.symm, hdocs _ h.2.symm⟩
    next => exact absurd h (by simp)

/-- A successful read answers with the document that is stored, or with none. -/
theorem serve_getDocument_success {b b' : Backend} {path : Path} {o : Outcome}
    {y : Option Snapshot} (ho : o.isSuccess = true)
    (h : serve b (.getDocument path) o = some (b', y)) :
    b' = b ∧ y = some ⟨path.getLastD "", b.docs.lookup path⟩ := by
  cases o with
  | failure error => exact absurd ho (by simp [Outcome.isSuccess])
  | success names =>
    simp only [serve, Option.some.injEq, Prod.mk.injEq] at h
    exact ⟨h.1.symm, h.2.symm⟩

/-- A read that answers with a document has not failed. -/
theorem isSuccess_of_snapshot {b b' : Backend} {path : Path} {o : Outcome} {snapshot : Snapshot}
    (h : serve b (.getDocument path) o = some (b', some snapshot)) : o.isSuccess = true := by
  cases o with
  | success names => rfl
  | failure error => exact absurd h (by simp [serve])

/-- Nor has a query that answers with documents. -/
theorem isSuccess_of_documents {b b' : Backend} {q : Query} {o : Outcome}
    {documents : List (String × Doc)}
    (h : serve b (.getDocuments q) o = some (b', some documents)) : o.isSuccess = true := by
  cases o with
  | success names => rfl
  | failure error => exact absurd h (by simp [serve])

/-- A write that does not fail is committed, or it updates a missing document. -/
theorem serve_write_success {b b' : Backend} {w : Write} {o : Outcome} {y : Option Error}
    (ho : o.isSuccess = true) (h : serve b (.write w) o = some (b', y)) :
    (y = none ∧ ∃ docs, w.apply b.docs = some docs ∧ b' = { b with docs := docs })
      ∨ (y = some notFound ∧ w.apply b.docs = none ∧ b' = b) := by
  cases o with
  | failure error => exact absurd ho (by simp [Outcome.isSuccess])
  | success names =>
    simp only [serve] at h
    split at h
    next docs hdocs =>
      simp only [Option.some.injEq, Prod.mk.injEq] at h
      exact Or.inl ⟨h.2.symm, docs, hdocs, h.1.symm⟩
    next hnone =>
      simp only [Option.some.injEq, Prod.mk.injEq] at h
      exact Or.inr ⟨h.2.symm, hnone, h.1.symm⟩

/-! ## Mirrored marks -/

/-- Put up or take down a mark: an empty document. -/
def markWrite (path : Path) : Bool → Write
  | true => .setData path (dict [])
  | false => .delete path

@[simp] theorem markWrite_path (path : Path) (v : Bool) : (markWrite path v).path = path := by
  cases v <;> rfl

/-- Is there a document at `path`? -/
def Backend.exists (b : Backend) (path : Path) : Bool := (b.docs.lookup path).isSome

/-- A path that is not stored has no document. -/
theorem Backend.exists_eq_false {b : Backend} {path : Path} (h : path ∉ b.docs.keys) :
    b.exists path = false := by
  unfold Backend.exists
  rw [AList.lookup_eq_none.mpr h]
  rfl

/-- Serving a request leaves a document alone unless it is a write of it. -/
theorem serve_lookup_ne {b b' : Backend} {r : Request} {o : Outcome} {y : Response r}
    {path : Path} (h : serve b r o = some (b', y)) (hr : ∀ w, r = .write w → path ≠ w.path) :
    b'.docs.lookup path = b.docs.lookup path := by
  cases r with
  | write w =>
    rcases serve_write h with ⟨-, docs, hdocs, rfl⟩ | ⟨-, rfl⟩
    · exact Write.lookup_apply_ne hdocs (hr w rfl)
    · rfl
  | _ => rw [serve_docs h fun w hw => by cases hw]

/-- The event serves a write of the session, which takes effect. -/
structure Commits (w : AppWorld σ S) (ev : AppEvent S A) (s : S) (wr : Write)
    (docs : Store) : Prop where
  served : ∃ i o k, ev = .serve i o ∧ w.pool[i]? = some (s, .issued (.write wr) k)
  commit : wr.apply w.backend.docs = some docs

/-- Nothing else changes a document. -/
theorem exists_commits [DecidableEq S] {act : A → Program σ} {w w' : AppWorld σ S}
    {ev : AppEvent S A} (hstep : Stepped api act w ev w') {path : Path}
    (hne : w'.backend.docs.lookup path ≠ w.backend.docs.lookup path) :
    ∃ s wr, Commits w ev s wr w'.backend.docs ∧ wr.path = path := by
  cases hstep with
  | serve hpool hfifo hs =>
    rename_i pre post s r k o b y
    cases r with
    | write wr =>
      rcases serve_write hs with ⟨-, docs, hdocs, rfl⟩ | ⟨-, rfl⟩
      · refine ⟨s, wr, ⟨⟨pre.length, o, k, rfl, getElem?_split hpool⟩, hdocs⟩, ?_⟩
        by_contra hpath
        exact hne (Write.lookup_apply_ne hdocs (Ne.symm hpath))
      · exact absurd rfl hne
    | _ =>
      refine absurd ?_ hne
      show b.docs.lookup path = w.backend.docs.lookup path
      rw [serve_docs hs fun w hw => by cases hw]
  | _ => exact absurd rfl hne

/-- A successful `setData` or `delete` is committed. -/
theorem serve_markWrite {b b' : Backend} {path : Path} {v : Bool} {o : Outcome}
    {y : Option Error} (ho : o.isSuccess = true)
    (h : serve b (.write (markWrite path v)) o = some (b', y)) : b'.exists path = v := by
  cases o with
  | failure e => exact absurd ho (by simp [Outcome.isSuccess])
  | success names =>
    rcases serve_write h with ⟨-, docs, hdocs, rfl⟩ | ⟨⟨e, rfl⟩, -⟩
    · have hlook := Write.lookup_apply hdocs
      rw [markWrite_path] at hlook
      show (docs.lookup path).isSome = v
      rw [hlook]
      cases v <;> rfl
    · cases v <;> simp [serve, markWrite, Write.apply] at h

/-- The mirrored mark at two paths, as a protocol of `Async.Mirror`. -/
def presence (nearPath farPath : Path) : Mirror.Spec Request Backend where
  near b := b.exists nearPath
  far b := b.exists farPath
  mark v := .write (markWrite nearPath v)
  copy v := .write (markWrite farPath v)
  touches r := ∃ w, r = .write w ∧ (w.path = nearPath ∨ w.path = farPath)

@[simp] theorem presence_touches_write {nearPath farPath : Path} {w : Write} :
    (presence nearPath farPath).touches (.write w)
      ↔ w.path = nearPath ∨ w.path = farPath := by
  simp [presence]

@[simp] theorem presence_not_touches {nearPath farPath : Path} {r : Request}
    (hr : r.isWrite = false) : ¬ (presence nearPath farPath).touches r := by
  rintro ⟨w, rfl, -⟩
  exact absurd hr (by simp [Request.isWrite])

/-- The backend implements the protocol of two distinct marks. -/
theorem presence_lawful {nearPath farPath : Path} (hne : nearPath ≠ farPath) :
    (presence nearPath farPath).Lawful api fun o => o.isSuccess = true where
  touches_mark v := presence_touches_write.mpr (Or.inl (markWrite_path nearPath v))
  touches_copy v := presence_touches_write.mpr (Or.inr (markWrite_path farPath v))
  ordered_mark _ := rfl
  ordered_copy _ := rfl
  serve_mark v b o b' y ho h := by
    refine ⟨serve_markWrite ho h, ?_⟩
    show (b'.docs.lookup farPath).isSome = (b.docs.lookup farPath).isSome
    rw [serve_lookup_ne h]
    rintro w ⟨rfl⟩
    rw [markWrite_path]
    exact hne.symm
  serve_copy v b o b' y ho h := by
    refine ⟨?_, serve_markWrite ho h⟩
    show (b'.docs.lookup nearPath).isSome = (b.docs.lookup nearPath).isSome
    rw [serve_lookup_ne h]
    rintro w ⟨rfl⟩
    rw [markWrite_path]
    exact hne
  serve_quiet r b o b' y hr h := by
    have hlook : ∀ path, (path = nearPath ∨ path = farPath) →
        b'.docs.lookup path = b.docs.lookup path := by
      intro path hpath
      refine serve_lookup_ne h ?_
      rintro w rfl heq
      exact hr ⟨w, rfl, by rcases hpath with rfl | rfl <;> simp [heq]⟩
    show (b'.docs.lookup nearPath).isSome = (b.docs.lookup nearPath).isSome
      ∧ (b'.docs.lookup farPath).isSome = (b.docs.lookup farPath).isSome
    rw [hlook _ (Or.inl rfl), hlook _ (Or.inr rfl)]
    exact ⟨rfl, rfl⟩

end InstaClone
