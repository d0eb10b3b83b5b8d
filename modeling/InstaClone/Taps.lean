import InstaClone.Async.Settled
import InstaClone.Conduct
import InstaClone.Relations

/-!
# A like tap, and the documents as registers

What `cell(_:didLike:)` issues in its turn: the new count, computed from the post the cell
holds, and the user's mark; the copy of the mark and the completion follow from the
acknowledgement. A tap that `unlikePost` refuses issues nothing.

Each stored document is a register (`Async.Settled`): what it will hold once the pending
writes are committed.
-/

namespace InstaClone

open Async

/-! ## The turn of a tap -/

/-- The count a tap on a cell with this post writes. -/
def Post.tapCount (post : Post) : Int := if post.didLike then post.likes - 1 else post.likes + 1

/-- Does the call of a tap get past the guard of `unlikePost`? -/
def Post.tapPasses (post : Post) : Bool := !post.didLike || decide (post.likes > 0)

/-- The completion of the call of a tap. -/
def didTap (c cell : Nat) (post : Post) (user : User) : Option Error → Program Client :=
  if post.didLike then FeedController.didUnlike c cell post post.ownerUid
  else FeedController.didLike c cell post user

/-- The requests of a tap by `uid` with the completion `k`. -/
def tapFlights (uid : String) (post : Post) (k : Option Error → Program Client) :
    List (Flight Request Response Turn Client) :=
  if post.tapPasses then
    [writeFlight (.updateData ["posts", post.postId] (dict [("likes", .int post.tapCount)])),
     markFlight ["posts", post.postId, "post-likes", uid] ["users", uid, "user-likes", post.postId]
      (!post.didLike) k]
  else []

/-- The client after the toggle of a tapped cell. -/
def toggled (c cell : Nat) (client : Client) : Client :=
  client.mapFeed c (·.mapCell cell (·.updatePost fun shown =>
    { shown with didLike := !shown.didLike }))

/-- The turn of a tap. -/
theorem exec_didTapLike {e : Turn} {uid : String} (he : e.currentUid = some uid) (c cell : Nat)
    (client : Client) :
    (FeedController.didTapLike c cell).exec e client =
      match ((client.feeds c).cells cell).post, client.tabUser with
      | some post, some user =>
        (toggled c cell client, tapFlights uid post (didTap c cell post user))
      | _, _ => (client, []) := by
  unfold FeedController.didTapLike
  rw [Prog.exec_read]
  cases hpost : ((client.feeds c).cells cell).post with
  | none => rfl
  | some post =>
    cases htab : client.tabUser with
    | none => rfl
    | some user =>
      unfold inFeed tapFlights didTap Post.tapPasses Post.tapCount
      dsimp only
      rw [Prog.exec_modify]
      cases hlike : post.didLike with
      | false =>
        simp only [PostService.likePost, withCurrentUid, Prog.exec_ask, he, Bool.not_false,
          Bool.true_or, if_true, Bool.false_eq_true, if_false]
        rfl
      | true =>
        simp only [PostService.unlikePost, withCurrentUid, Prog.exec_ask, he, Bool.not_true,
          Bool.false_or, if_true, decide_eq_true_eq]
        split <;> rfl

/-! ## Documents as registers -/

/-- A write that is not committed would have had no effect. -/
theorem Write.effect_of_rejected {w : Write} {s : Store} (h : w.apply s = none) :
    w.effect (s.lookup w.path) = s.lookup w.path := by
  cases w with
  | setData path data => exact absurd h (by simp [Write.apply])
  | updateData path fields =>
    have hnone : s.lookup path = none := by simpa [Write.apply] using h
    show (s.lookup path).map _ = s.lookup path
    rw [hnone]
    rfl
  | delete path => exact absurd h (by simp [Write.apply])

/-- The document at `path`. -/
def document (path : Path) : Register Request Backend (Option Doc) where
  val b := b.docs.lookup path
  effect
    | .write w, v => if w.path = path then w.effect v else v
    | _, v => v
  touches r := ∃ w, r = .write w ∧ w.path = path

@[simp] theorem document_touches_write {path : Path} {w : Write} :
    (document path).touches (.write w) ↔ w.path = path := by
  simp [document]

@[simp] theorem document_effect_write (path : Path) (w : Write) (v : Option Doc) :
    (document path).effect (.write w) v = if w.path = path then w.effect v else v := rfl

instance (path : Path) (r : Request) : Decidable ((document path).touches r) :=
  match r with
  | .write w => decidable_of_iff (w.path = path) document_touches_write.symm
  | .getDocument _ => isFalse fun ⟨_, h, _⟩ => Request.noConfusion h
  | .getDocuments _ => isFalse fun ⟨_, h, _⟩ => Request.noConfusion h
  | .putData _ _ => isFalse fun ⟨_, h, _⟩ => Request.noConfusion h
  | .downloadURL _ => isFalse fun ⟨_, h, _⟩ => Request.noConfusion h
  | .deleteObject _ => isFalse fun ⟨_, h, _⟩ => Request.noConfusion h
  | .createUser _ _ => isFalse fun ⟨_, h, _⟩ => Request.noConfusion h

/-- Documents are registers of the backend. -/
theorem document_lawful (path : Path) :
    (document path).Lawful api fun o => o.isSuccess = true where
  ordered r hr := by
    obtain ⟨w, rfl, -⟩ := hr
    rfl
  quiet r v hr := by
    cases r with
    | write w => exact if_neg fun h => hr ⟨w, rfl, h⟩
    | _ => rfl
  serve b r o b' y hgood h := by
    cases r with
    | write w =>
      rw [document_effect_write]
      by_cases hpath : w.path = path
      · rw [if_pos hpath]
        subst hpath
        cases o with
        | failure error => exact absurd (hgood ⟨w, rfl, rfl⟩) (by simp [Outcome.isSuccess])
        | success names =>
          simp only [api_serve, serve] at h
          split at h
          next docs hdocs =>
            simp only [Option.some.injEq, Prod.mk.injEq] at h
            rw [← h.1]
            exact Write.lookup_apply hdocs
          next hdocs =>
            simp only [Option.some.injEq, Prod.mk.injEq] at h
            rw [← h.1]
            exact (Write.effect_of_rejected hdocs).symm
      · rw [if_neg hpath]
        refine serve_lookup_ne h fun w' hw' => ?_
        obtain rfl := Request.write.inj hw'
        exact Ne.symm hpath
    | _ =>
      show b'.docs.lookup path = b.docs.lookup path
      rw [serve_docs h fun w hw => by cases hw]

/-- The mark that a write leaves at `path`. -/
def Request.leaves (path : Path) : Request → Option Bool
  | .write (.setData p _) => if p = path then some true else none
  | .write (.delete p) => if p = path then some false else none
  | _ => none

@[simp] theorem Request.leaves_markWrite (path p : Path) (v : Bool) :
    (Request.write (markWrite p v)).leaves path = if p = path then some v else none := by
  cases v <;> rfl

theorem Request.leaves_eq_none {path : Path} {r : Request}
    (h : ∀ w, r = .write w → w.path ≠ path) : r.leaves path = none := by
  cases r with
  | write w =>
    cases w with
    | setData p d => exact if_neg (h _ rfl)
    | updateData p d => rfl
    | delete p => exact if_neg (h _ rfl)
  | _ => rfl

/-- The count a post would get. -/
def storedLikes (b : Backend) (p : String) : Option Int :=
  (b.docs.lookup ["posts", p]).bind (·.int "likes")

/-! ## Fresh identifiers -/

section Fresh

variable {σ S A : Type}

/-- Is the request a write with `id` in its path? -/
def Request.mentions (id : String) : Request → Bool
  | .write w => decide (id ∈ w.path)
  | _ => false

/-- No stored document and no pending write has `id` in its path. -/
def Unused (w : AppWorld σ S) (id : String) : Prop :=
  (∀ path ∈ w.backend.docs.keys, id ∉ path) ∧ ∀ x ∈ w.pool, x.2.req.mentions id = false

instance (w : AppWorld σ S) (id : String) : Decidable (Unused w id) :=
  inferInstanceAs (Decidable (_ ∧ _))

/-- Automatic identifiers are fresh. -/
def FreshIds (w : AppWorld σ S) : AppEvent S A → Prop
  | .invoke _ _ e => Unused w e.autoId
  | .deliver _ e => Unused w e.autoId
  | _ => True

instance (w : AppWorld σ S) (ev : AppEvent S A) : Decidable (FreshIds w ev) :=
  match ev with
  | .invoke _ _ e => inferInstanceAs (Decidable (Unused w e.autoId))
  | .serve _ _ => isTrue trivial
  | .deliver _ e => inferInstanceAs (Decidable (Unused w e.autoId))
  | .drop _ => isTrue trivial

/-- Nothing is or will be stored under an unused identifier. -/
theorem Unused.settled {w : AppWorld σ S} {id : String} (h : Unused w id) {path : Path}
    (hpath : id ∈ path) : (document path).settled w = none := by
  have hstored : w.backend.docs.lookup path = none :=
    AList.lookup_eq_none.mpr fun hmem => h.1 path hmem hpath
  unfold Register.settled
  rw [Register.after_quiet (document_lawful path)]
  · exact hstored
  · intro x hx _ htouch
    obtain ⟨write, hwrite, rfl⟩ := htouch
    have hmention := h.2 x hx
    rw [hwrite] at hmention
    exact absurd hpath (by simpa [Request.mentions] using hmention)

/-- No pending write is about an unused identifier. -/
theorem Unused.not_touches {w : AppWorld σ S} {id : String} (h : Unused w id) {path : Path}
    (hpath : id ∈ path) {x : S × Flight Request Response Turn σ} (hx : x ∈ w.pool) :
    ¬ (document path).touches x.2.req := by
  intro htouch
  obtain ⟨write, hwrite, rfl⟩ := htouch
  have hmention := h.2 x hx
  rw [hwrite] at hmention
  exact absurd hpath (by simpa [Request.mentions] using hmention)

end Fresh

end InstaClone
