import InstaClone.Likes
import InstaClone.Relations
import InstaClone.Taps

/-!
# What is left of a deleted post

`deletePost` removes the post's document and cascades through the documents that refer to
it. Of the four collections it should clear it clears one from what it finds there: the
notifications in the owner's inbox. It never deletes the marks under `post-likes` or the
comments, and it looks for the feeds that list the post in a collection nobody writes. So
a deleted post is referenced nowhere exactly as far as nothing but notifications referred
to it: no stored reference when it is deleted (`Bare`), nothing in flight and no later
call that makes one (`Spares`).

The first half of the argument is a contract: code that spares the post makes no
reference to it. The second follows the cascade to its query of the inbox and from there
to the deletions of what it found (`Cascade`).
-/

namespace InstaClone

open Async

variable {σ S : Type}

/-! ## References -/

/-- The documents that refer to post `p`, apart from notifications: marks, comments, the
users' copies of the marks, and the feeds that list it. -/
def IsReference (p : String) (path : Path) : Prop :=
  (∃ u, path = ["posts", p, "post-likes", u]) ∨ (∃ id, path = ["posts", p, "comments", id])
    ∨ (∃ u, path = ["users", u, "user-likes", p]) ∨ ∃ u, path = ["users", u, "user-feed", p]

/-- Where the notifications of `owner` are. -/
def noticePath (owner id : String) : Path := ["notifications", owner, "user-notifications", id]

/-- No document but notifications refers to `p`. -/
def Bare (p : String) (b : Backend) : Prop := ∀ path, IsReference p path → b.exists path = false

/-- The notification `id` of `owner` is about `p`. -/
def NoticeOf (p owner : String) (b : Backend) (id : String) : Prop :=
  ∃ d, b.docs.lookup (noticePath owner id) = some d ∧ d "postId" = some (.string p)

/-- Nothing refers to `p`, whose owner was `owner`, and it is gone. -/
structure Unreferenced (p owner : String) (b : Backend) : Prop where
  gone : b.exists ["posts", p] = false
  likes : ∀ u, b.exists ["users", u, "user-likes", p] = false
  feeds : ∀ u, b.exists ["users", u, "user-feed", p] = false
  notices : ∀ id, ¬ NoticeOf p owner b id
  marks : ∀ u, b.exists ["posts", p, "post-likes", u] = false
  comments : ∀ id, b.exists ["posts", p, "comments", id] = false

/-! ## The calls -/

inductive PostCall where
  | uploadPost (caption : String) (image : UIImage) (user : User)
  | likePost (post : Post)
  | unlikePost (post : Post)
  | follow (uid : String)
  | unfollow (uid : String)
  | updateUserFeedAfterFollowing (user : User)
  | uploadComment (comment : String) (post : Post) (user : User)
  | uploadNotification (uid : String) (fromUser : User) (type : NotificationType)
    (post : Option Post)
  | deletePost (postId : String)

/-- The service function behind a call; `completion` is the caller's. -/
def PostCall.program (completion : PostCall → Option Error → Program σ) : PostCall → Program σ
  | .uploadPost caption image user =>
    PostService.uploadPost caption image user (completion (.uploadPost caption image user))
  | .likePost post => PostService.likePost post (completion (.likePost post))
  | .unlikePost post => PostService.unlikePost post (completion (.unlikePost post))
  | .follow uid => UserService.follow uid (completion (.follow uid))
  | .unfollow uid => UserService.unfollow uid (completion (.unfollow uid))
  | .updateUserFeedAfterFollowing user => PostService.updateUserFeedAfterFollowing user
  | .uploadComment comment post user =>
    CommentService.uploadComment comment post user (completion (.uploadComment comment post user))
  | .uploadNotification uid fromUser type post =>
    NotificationService.uploadNotification uid fromUser type post
  | .deletePost postId => PostService.deletePost postId (completion (.deletePost postId))

/-- A call that makes no reference to `p` by itself. `updateUserFeedAfterFollowing` makes
one only when its query lists `p`. -/
def PostCall.Spares (p owner : String) : PostCall → Prop
  | .likePost post => post.postId ≠ p
  | .uploadComment _ post _ => post.postId ≠ p
  | .uploadNotification uid _ _ post => uid = owner → ∀ x ∈ post, x.postId ≠ p
  | _ => True

/-! ## The contract of code that spares a post -/

/-- A write that makes no reference to `p`, nor the post itself. -/
structure Spared (p owner : String) (w : Write) : Prop where
  created : ∀ path data, w = .setData path data → ¬ IsReference p path ∧ path ≠ ["posts", p]
    ∧ ∀ id, path = noticePath owner id → data "postId" ≠ some (.string p)
  updated : ∀ path fields, w = .updateData path fields → fields "postId" = none

/-- A turn of a session's account that does not draw the identifier `p` again. -/
def LiveTurn (uidOf : S → String) (p : String) (s : S) (e : Turn) : Prop :=
  SignedIn uidOf s e ∧ e.autoId ≠ p

/-- The contract: turns are live, no fetched post is `p`, and no write refers to `p`. -/
abbrev spare (uidOf : S → String) (p owner : String) (s : S) :
    Contract Request Response Turn σ :=
  conduct (LiveTurn uidOf p s) (fun _ => True) (fun post => post.postId ≠ p)
    fun _ w => Spared p owner w

/-- The caller's completions spare `p`. -/
def Sparing (uidOf : S → String) (p owner : String)
    (completion : PostCall → Option Error → Program σ) : Prop :=
  ∀ c y s, (completion c y).Keeps (spare uidOf p owner s)

section Contract

variable {p owner : String}

theorem Spared.delete (path : Path) : Spared p owner (.delete path) :=
  ⟨fun _ _ h => Write.noConfusion h, fun _ _ h => Write.noConfusion h⟩

theorem Spared.updateData {path : Path} {fields : Doc} (h : fields "postId" = none) :
    Spared p owner (.updateData path fields) := by
  refine ⟨fun _ _ h => Write.noConfusion h, fun path' fields' hw => ?_⟩
  obtain ⟨-, rfl⟩ := Write.updateData.inj hw
  exact h

theorem Spared.setData {path : Path} {data : Doc} (href : ¬ IsReference p path)
    (hpost : path ≠ ["posts", p])
    (hnotice : ∀ id, path = noticePath owner id → data "postId" ≠ some (.string p)) :
    Spared p owner (.setData path data) := by
  refine ⟨fun path' data' hw => ?_, fun _ _ h => Write.noConfusion h⟩
  obtain ⟨rfl, rfl⟩ := Write.setData.inj hw
  exact ⟨href, hpost, hnotice⟩

/-- What notification data says of the post it is about. -/
theorem notificationData_postId (uid : String) (e : Turn) (user : User) (type : NotificationType)
    (post : Option Post) :
    NotificationService.notificationData uid e user type post "postId"
      = post.map fun post => .string post.postId := by
  cases post <;> rfl

/-- A call that spares the post keeps the contract. -/
theorem PostCall.keeps_spare {uidOf : S → String}
    {completion : PostCall → Option Error → Program σ}
    (hcompl : Sparing uidOf p owner completion) {s : S} {c : PostCall} (hc : c.Spares p owner) :
    (c.program completion).Keeps (spare uidOf p owner s) := by
  intro e he
  have hk := fun y => hcompl c y s
  cases c with
  | uploadPost caption image user =>
    refine keepsIn_uploadPost (fun uid _ e' he' imageUrl => .setData ?_ ?_ ?_) hk
    · simp [IsReference]
    · have hfresh : e'.autoId ≠ p := he'.2
      simpa using hfresh
    · simp [noticePath]
  | likePost post =>
    have hpost : post.postId ≠ p := hc
    refine keepsIn_likePost (.updateData rfl) (fun uid _ => .setData ?_ ?_ ?_)
      (fun uid _ e' _ => .setData ?_ ?_ ?_) hk
    · simp [IsReference, hpost]
    · simp
    · simp [noticePath]
    · simp [IsReference, hpost]
    · simp
    · simp [noticePath]
  | unlikePost post =>
    exact keepsIn_unlikePost (fun _ => .updateData rfl) (fun _ _ => .delete _)
      (fun _ _ _ _ => .delete _) fun _ => hk
  | follow uid =>
    refine keepsIn_follow (fun currentUid _ => .setData ?_ ?_ ?_)
      (fun currentUid _ e' _ => .setData ?_ ?_ ?_) hk
    · simp [IsReference]
    · simp
    · simp [noticePath]
    · simp [IsReference]
    · simp
    · simp [noticePath]
  | unfollow uid =>
    exact keepsIn_unfollow (fun _ _ => .delete _) (fun _ _ _ _ => .delete _) hk
  | updateUserFeedAfterFollowing user =>
    refine keepsIn_updateUserFeedAfterFollowing fun uid _ e' _ postId d hpost => .setData ?_ ?_ ?_
    · have hother : postId ≠ p := hpost e'.now
      simp [IsReference, hother]
    · simp
    · simp [noticePath]
  | uploadComment comment post user =>
    have hpost : post.postId ≠ p := hc
    refine keepsIn_uploadComment (.setData ?_ ?_ ?_) hk
    · simp [IsReference, hpost]
    · simp
    · simp [noticePath]
  | uploadNotification uid fromUser type post =>
    refine keepsIn_uploadNotification fun currentUid _ _ => .setData ?_ ?_ fun id hpath => ?_
    · simp [IsReference]
    · simp
    · have howner : uid = owner := by
        simp only [noticePath, List.cons.injEq] at hpath
        exact hpath.2.1
      rw [notificationData_postId]
      intro hdata
      obtain ⟨x, hx, hid⟩ := Option.map_eq_some_iff.mp hdata
      exact hc howner x hx (by simpa using hid)
  | deletePost postId =>
    exact keepsIn_deletePost (.delete _) (fun _ _ _ => .delete _) (fun _ _ _ => .delete _)
      (fun _ _ _ _ _ => .delete _) hk

/-- A committed write that spares the post makes no reference to it. -/
theorem Bare.apply {b : Backend} (h : Bare p b) {w : Write} {docs : Store}
    (hdocs : w.apply b.docs = some docs) (hw : Spared p owner w) :
    Bare p { b with docs := docs } := by
  intro path href
  have hold := h path href
  unfold Backend.exists at hold ⊢
  dsimp only
  by_cases hpath : path = w.path
  · subst hpath
    rw [Write.lookup_apply hdocs]
    cases w with
    | setData path data => exact absurd href (hw.created _ _ rfl).1
    | updateData path fields =>
      show (Option.map _ (b.docs.lookup path)).isSome = false
      rw [Option.isSome_map]
      exact hold
    | delete path => rfl
  · rw [Write.lookup_apply_ne hdocs hpath]
    exact hold

/-- Nor a notification about it. -/
theorem NoticeOf.of_apply {b : Backend} {w : Write} {docs : Store}
    (hdocs : w.apply b.docs = some docs) (hw : Spared p owner w) {id : String}
    (h : NoticeOf p owner { b with docs := docs } id) : NoticeOf p owner b id := by
  obtain ⟨d, hd, hpost⟩ := h
  by_cases hpath : noticePath owner id = w.path
  · dsimp only at hd
    rw [hpath, Write.lookup_apply hdocs] at hd
    cases w with
    | setData path data =>
      obtain rfl : data = d := Option.some.inj hd
      exact absurd hpost ((hw.created _ _ rfl).2.2 id hpath.symm)
    | updateData path fields =>
      obtain ⟨old, hold, rfl⟩ := Option.map_eq_some_iff.mp hd
      refine ⟨old, by rw [hpath]; exact hold, ?_⟩
      unfold Doc.merge at hpost
      rw [hw.updated _ _ rfl, Option.none_or] at hpost
      exact hpost
    | delete path => exact absurd hd (by simp [Write.effect])
  · refine ⟨d, ?_, hpost⟩
    rw [← Write.lookup_apply_ne hdocs hpath]
    exact hd

/-- Nor the post again. -/
theorem gone_of_apply {b : Backend} {w : Write} {docs : Store}
    (hdocs : w.apply b.docs = some docs) (hw : Spared p owner w)
    (h : b.exists ["posts", p] = false) :
    ({ b with docs := docs } : Backend).exists ["posts", p] = false := by
  unfold Backend.exists at h ⊢
  dsimp only
  by_cases hpath : ["posts", p] = w.path
  · rw [hpath, Write.lookup_apply hdocs]
    rw [hpath] at h
    cases w with
    | setData path data => exact absurd hpath.symm (hw.created _ _ rfl).2.1
    | updateData path fields =>
      show (Option.map _ (b.docs.lookup path)).isSome = false
      rw [Option.isSome_map]
      exact h
    | delete path => rfl
  · rw [Write.lookup_apply_ne hdocs hpath]
    exact h

end Contract

/-! ## The cascade -/

section Cascade

variable (p owner : String) (k : Option Error → Program σ)

/-- The query of the followers whose feeds are to be cleared. -/
def feedsQuery : Query where
  collection := ["followers", owner, "user-follwers"]

/-- The query of the owner's notifications about the post. -/
def noticesQuery : Query where
  collection := ["notifications", owner, "user-notifications"]
  whereField := some ("postId", .string p)

/-- The requests that have to come off: the writes, and the two queries of the cascade. -/
def Request.Needed (p owner : String) : Request → Prop
  | .write _ => True
  | .getDocuments q => q = feedsQuery owner ∨ q = noticesQuery p owner
  | _ => False

/-- The callback of the query of the notifications. -/
def onNotices (snapshot : Option (List (String × Doc))) : Program σ :=
  match snapshot with
  | none => .done
  | some documents => .forEach documents fun document => delete (noticePath owner document.1) k

/-- The callback of the query of the followers. -/
def onFollowers (snapshot : Option (List (String × Doc))) : Program σ :=
  match snapshot with
  | none => .done
  | some documents =>
    (Prog.forEach documents fun document =>
      delete ["users", document.1, "user-feed", p] noCompletion).andThen
    (getDocuments (noticesQuery p owner) (onNotices owner k))

/-- The callback of the deletion of the post. -/
def onDeleted : Program σ := getDocuments (feedsQuery owner) (onFollowers p owner k)

/-- The callback of the query of the marks. -/
def onLikes (snapshot : Option (List (String × Doc))) : Program σ :=
  match snapshot with
  | none => .done
  | some documents =>
    .forEach documents fun document => delete ["users", document.1, "user-likes", p] noCompletion

variable {p owner k}

/-- The turn of `deletePost`. -/
theorem exec_deletePost {e : Turn} (he : e.currentUid = some owner) (x : σ) :
    (PostService.deletePost p k).exec e x
      = (x, [.issued (.getDocuments { collection := ["posts", p, "post-likes"] }) (onLikes p),
          .issued (.write (.delete ["posts", p])) fun _ => onDeleted p owner k]) := by
  unfold PostService.deletePost withCurrentUid
  rw [Prog.exec_ask, he]
  rfl

/-- A loop of deletions issues them all. -/
theorem exec_forEach_delete {α : Type} (l : List α) (path : α → Path) (e : Turn) (x : σ) :
    (Prog.forEach l fun a => delete (path a) k).exec e x
      = (x, l.map fun a => .issued (.write (.delete (path a))) k) := by
  induction l with
  | nil => rfl
  | cons a l ih =>
    have hone : (delete (path a) k).exec e x
        = (x, [.issued (.write (.delete (path a))) k]) := rfl
    rw [Prog.forEach_cons, Prog.exec_andThen, hone, ih]
    rfl

variable (p owner k)

/-- How far the cascade is, up to the reply to its query of the inbox, which lists every
notification about the post there still is. -/
inductive Cascading (b : Backend) : Flight Request Response Turn σ → Prop
  | deleting : Cascading b (.issued (.write (.delete ["posts", p])) fun _ => onDeleted p owner k)
  | deleted (hgone : b.exists ["posts", p] = false) :
      Cascading b (.served (.write (.delete ["posts", p])) (onDeleted p owner k))
  | asking (hgone : b.exists ["posts", p] = false) :
      Cascading b (.issued (.getDocuments (feedsQuery owner)) (onFollowers p owner k))
  | asked {documents : List (String × Doc)} (hgone : b.exists ["posts", p] = false) :
      Cascading b
        (.served (.getDocuments (feedsQuery owner)) (onFollowers p owner k (some documents)))
  | searching (hgone : b.exists ["posts", p] = false) :
      Cascading b (.issued (.getDocuments (noticesQuery p owner)) (onNotices owner k))
  | found {documents : List (String × Doc)} (hgone : b.exists ["posts", p] = false)
      (hcover : ∀ id, NoticeOf p owner b id → id ∈ documents.map Prod.fst) :
      Cascading b
        (.served (.getDocuments (noticesQuery p owner)) (onNotices owner k (some documents)))

/-- The post is gone and every notification about it is about to be deleted. -/
structure Clearing (w : AppWorld σ S) : Prop where
  gone : w.backend.exists ["posts", p] = false
  notices : ∀ id, NoticeOf p owner w.backend id →
    ∃ s k, (s, Flight.issued (.write (.delete (noticePath owner id))) k) ∈ w.pool

/-- The cascade is under way, or has issued its last deletions. -/
def Cascade (w : AppWorld σ S) : Prop :=
  (∃ x ∈ w.pool, Cascading p owner k w.backend x.2) ∨ Clearing p owner w

variable {p owner k}

/-- A backend in which the post stays gone and no notification about it has come up. -/
structure Shrinks (p owner : String) (b b' : Backend) : Prop where
  gone : b.exists ["posts", p] = false → b'.exists ["posts", p] = false
  notices : ∀ id, NoticeOf p owner b' id → NoticeOf p owner b id

theorem Shrinks.of_docs {b b' : Backend} (h : b'.docs = b.docs) : Shrinks p owner b b' := by
  refine ⟨fun hgone => ?_, fun id hid => ?_⟩
  · unfold Backend.exists
    rw [h]
    exact hgone
  · unfold NoticeOf at hid ⊢
    rw [← h]
    exact hid

/-- Serving a request that spares the post shrinks what there is of it. -/
theorem Shrinks.of_serve {b b' : Backend} {r : Request} {o : Outcome} {y : Response r}
    (hr : ∀ w, r = .write w → Spared p owner w) (h : serve b r o = some (b', y)) :
    Shrinks p owner b b' := by
  cases r with
  | write w =>
    rcases serve_write h with ⟨-, docs, hdocs, rfl⟩ | ⟨-, rfl⟩
    · exact ⟨gone_of_apply hdocs (hr w rfl), fun id => NoticeOf.of_apply hdocs (hr w rfl)⟩
    · exact .of_docs rfl
  | _ => exact .of_docs (serve_docs h fun w hw => by cases hw)

theorem Cascading.mono {b b' : Backend} (hb : Shrinks p owner b b')
    {fl : Flight Request Response Turn σ} (h : Cascading p owner k b fl) :
    Cascading p owner k b' fl := by
  cases h with
  | deleting => exact .deleting
  | deleted hgone => exact .deleted (hb.gone hgone)
  | asking hgone => exact .asking (hb.gone hgone)
  | asked hgone => exact .asked (hb.gone hgone)
  | searching hgone => exact .searching (hb.gone hgone)
  | found hgone hcover => exact .found (hb.gone hgone) fun id hid => hcover id (hb.notices id hid)

/-- A committed deletion leaves nothing. -/
theorem serve_delete {b b' : Backend} {path : Path} {o : Outcome} {y : Option Error}
    (ho : o.isSuccess = true) (h : serve b (.write (.delete path)) o = some (b', y)) :
    b'.docs.lookup path = none := by
  cases o with
  | failure error => exact absurd ho (by simp [Outcome.isSuccess])
  | success names =>
    simp only [serve, Write.apply, Option.some.injEq, Prod.mk.injEq] at h
    rw [← h.1]
    exact AList.lookup_erase path b.docs

/-- The reply to a request of the cascade takes it one stage further. -/
theorem Cascading.serve {b b' : Backend} {r : Request}
    {callback : Response r → Program σ} {o : Outcome} {y : Response r}
    (h : Cascading p owner k b (.issued r callback)) (ho : o.isSuccess = true)
    (hserve : serve b r o = some (b', y)) : Cascading p owner k b' (.served r (callback y)) := by
  cases h with
  | deleting =>
    refine .deleted ?_
    unfold Backend.exists
    rw [serve_delete ho hserve]
    rfl
  | asking hgone =>
    obtain ⟨rfl, documents, rfl, -⟩ := serve_getDocuments_success ho hserve
    exact .asked hgone
  | searching hgone =>
    obtain ⟨rfl, documents, rfl, hperm⟩ := serve_getDocuments_success ho hserve
    refine .found hgone fun id hid => ?_
    obtain ⟨d, hd, hpost⟩ := hid
    have hmem : (id, d) ∈ (noticesQuery p owner).results b'.docs := by
      refine Query.mem_results.mpr ⟨hd, ?_⟩
      simp [Query.selects, noticesQuery, hpost]
    exact List.mem_map.mpr ⟨(id, d), hperm.mem_iff.mpr hmem, rfl⟩

/-- The cascade waits for a request it needs. -/
theorem Cascading.needed {b : Backend} {fl : Flight Request Response Turn σ}
    (h : Cascading p owner k b fl) : fl.req.Needed p owner := by
  cases h with
  | deleting => trivial
  | deleted _ => trivial
  | asking _ => exact Or.inl rfl
  | asked _ => exact Or.inl rfl
  | searching _ => exact Or.inr rfl
  | found _ _ => exact Or.inr rfl

/-- A callback of the cascade issues its next request, or the last deletions. -/
theorem Cascading.deliver {b : Backend} {r : Request} {q : Program σ}
    (h : Cascading p owner k b (.served r q)) (e : Turn) (x : σ) :
    (∃ fl ∈ (q.exec e x).2, Cascading p owner k b fl)
      ∨ b.exists ["posts", p] = false ∧ ∀ id, NoticeOf p owner b id →
        ∃ k, Flight.issued (.write (.delete (noticePath owner id))) k ∈ (q.exec e x).2 := by
  cases h with
  | deleted hgone => exact Or.inl ⟨_, List.mem_singleton_self _, .asking hgone⟩
  | asked hgone =>
    left
    refine ⟨_, ?_, .searching hgone⟩
    unfold onFollowers
    rw [Prog.exec_andThen]
    exact List.mem_append_right _ (List.mem_singleton_self _)
  | found hgone hcover =>
    right
    refine ⟨hgone, fun id hid => ⟨k, ?_⟩⟩
    obtain ⟨document, hmem, rfl⟩ := List.mem_map.mp (hcover id hid)
    unfold onNotices
    rw [exec_forEach_delete]
    exact List.mem_map.mpr ⟨document, hmem, rfl⟩

end Cascade

/-! ## Runs -/

section Runs

variable [DecidableEq S] {uidOf : S → String} {p owner : String}
  {completion : PostCall → Option Error → Program σ} {k : Option Error → Program σ}

/-- Would a reply to the request show the post `p`? -/
def Request.Shows (p : String) (docs : Store) : Request → Prop
  | .getDocument path => path = ["posts", p] ∧ (docs.lookup path).isSome = true
  | .getDocuments q => q.collection = ["posts"] ∧ p ∈ (q.results docs).map Prod.fst
  | _ => False

/-- The side condition after the deletion: no write and no query of the cascade fails or loses
its callback, the calls spare `p`, the identifier `p` is not drawn again, and no read shows `p`
before its deletion is committed. -/
def SparingRun (uidOf : S → String) (p owner : String) (w : AppWorld σ S) :
    AppEvent S PostCall → Prop
  | .invoke s c e => LiveTurn uidOf p s e ∧ c.Spares p owner
  | .serve i o => ∀ x ∈ w.pool[i]?, (x.2.req.Needed p owner → o.isSuccess = true)
      ∧ (o.isSuccess = true → ¬ x.2.req.Shows p w.backend.docs)
  | .deliver i e => ∀ x ∈ w.pool[i]?, LiveTurn uidOf p x.1 e
  | .drop i => ∀ x ∈ w.pool[i]?, ¬ x.2.req.Needed p owner

/-- Everything keeps the contract, step by step. -/
theorem keeps_spare_step (hcompl : Sparing uidOf p owner completion) {w w' : AppWorld σ S}
    {ev : AppEvent S PostCall} (h : w.Keeps (spare uidOf p owner) (Bare p))
    (hok : SparingRun uidOf p owner w ev)
    (hstep : Stepped api (PostCall.program completion) w ev w') :
    w'.Keeps (spare uidOf p owner) (Bare p) := by
  refine h.step ?_ ?_ ?_ hstep
  · intro i o hev s r kont hget e b' y _ hreq hserve
    subst hev
    refine ⟨?_, ?_⟩
    · cases r with
      | write write =>
        rcases serve_write hserve with ⟨-, docs, hdocs, rfl⟩ | ⟨-, rfl⟩
        · exact h.backend.apply hdocs (conduct_req_write.mp hreq)
        · exact h.backend
      | _ =>
        intro path href
        unfold Backend.exists
        rw [serve_docs hserve fun w hw => by cases hw]
        exact h.backend path href
    · cases r with
      | getDocument path =>
        intro postId hpath snapshot hy data hdata now
        have hsuccess : o.isSuccess = true := isSuccess_of_snapshot (hy ▸ hserve)
        obtain ⟨-, hsnapshot⟩ := serve_getDocument hserve
        subst hpath
        rw [hsnapshot snapshot hy] at hdata ⊢
        intro hid
        have hp : postId = p := hid
        have hstored : w.backend.docs.lookup ["posts", postId] = some data := hdata
        refine (hok _ hget).2 hsuccess ⟨by rw [hp], ?_⟩
        rw [hstored]
        rfl
      | getDocuments q =>
        intro hcoll documents hy x hx now
        have hsuccess : o.isSuccess = true := isSuccess_of_documents (hy ▸ hserve)
        obtain ⟨-, hperm⟩ := serve_getDocuments hserve
        intro hid
        have hlisted : p ∈ (q.results w.backend.docs).map Prod.fst := by
          rw [← ((hperm documents hy).map Prod.fst).mem_iff]
          exact List.mem_map.mpr ⟨x, hx, hid⟩
        exact (hok _ hget).2 hsuccess ⟨hcoll, hlisted⟩
      | _ => trivial
  · cases ev with
    | invoke s c e => exact c.keeps_spare hcompl hok.2
    | serve i o => trivial
    | deliver i e => trivial
    | drop i => trivial
  · cases ev with
    | invoke s c e => exact hok.1
    | serve i o => trivial
    | deliver i e => exact hok
    | drop i => trivial

omit [DecidableEq S] in
/-- A served request takes the cascade on, or deletes a notification. -/
theorem Cascade.serve {w : AppWorld σ S} (h : Cascade p owner k w)
    {pre post : List (S × Flight Request Response Turn σ)} {s : S} {r : Request}
    {callback : Response r → Program σ} {o : Outcome} {b : Backend} {y : Response r}
    (hpool : w.pool = pre ++ (s, .issued r callback) :: post)
    (hreq : ∀ write, r = .write write → Spared p owner write)
    (hneeded : r.Needed p owner → o.isSuccess = true) (hserve : serve w.backend r o = some (b, y)) :
    Cascade p owner k ⟨b, w.client, pre ++ (s, .served r (callback y)) :: post⟩ := by
  have hshrinks : Shrinks p owner w.backend b := .of_serve hreq hserve
  -- a flight other than the one served is still there
  have hstays : ∀ x ∈ w.pool, x ≠ (s, .issued r callback) →
      x ∈ pre ++ (s, .served r (callback y)) :: post := by
    intro x hx hne
    rw [hpool] at hx
    simp only [List.mem_append, List.mem_cons] at hx ⊢
    tauto
  rcases h with ⟨x, hx, hfl⟩ | ⟨hgone, hnotices⟩
  · by_cases hserved : x = (s, .issued r callback)
    · subst hserved
      exact Or.inl ⟨(s, .served r (callback y)), by simp, hfl.serve (hneeded hfl.needed) hserve⟩
    · exact Or.inl ⟨x, hstays x hx hserved, hfl.mono hshrinks⟩
  · refine Or.inr ⟨hshrinks.gone hgone, fun id hid => ?_⟩
    obtain ⟨t, k', hmem⟩ := hnotices id (hshrinks.notices id hid)
    by_cases hserved : (t, Flight.issued (.write (.delete (noticePath owner id))) k')
        = (s, .issued r callback)
    · cases hserved
      obtain ⟨d, hd, -⟩ := hid
      rw [serve_delete (hneeded trivial) hserve] at hd
      exact absurd hd (by simp)
    · exact ⟨t, k', hstays _ hmem hserved⟩

/-- A callback takes the cascade on, or leaves it alone. -/
theorem Cascade.deliver {w : AppWorld σ S} (h : Cascade p owner k w)
    {pre post : List (S × Flight Request Response Turn σ)} {s : S} {r : Request}
    {q : Program σ} (hpool : w.pool = pre ++ (s, .served r q) :: post) (e : Turn) :
    Cascade p owner k (w.turn s q e (pre ++ post)) := by
  have hstays : ∀ x ∈ w.pool, x ≠ (s, .served r q) → x ∈ (w.turn s q e (pre ++ post)).pool := by
    intro x hx hne
    rw [hpool] at hx
    rw [World.turn_pool]
    simp only [List.mem_append, List.mem_cons] at hx ⊢
    tauto
  rcases h with ⟨x, hx, hfl⟩ | ⟨hgone, hnotices⟩
  · by_cases hdelivered : x = (s, .served r q)
    · subst hdelivered
      rcases hfl.deliver e (w.client s) with ⟨fl, hmem, hfl'⟩ | ⟨hgone, hnotices⟩
      · refine Or.inl ⟨(s, fl), ?_, hfl'⟩
        exact List.mem_append_right _ (List.mem_map.mpr ⟨fl, hmem, rfl⟩)
      · refine Or.inr ⟨hgone, fun id hid => ?_⟩
        obtain ⟨k', hmem⟩ := hnotices id hid
        exact ⟨s, k', List.mem_append_right _ (List.mem_map.mpr ⟨_, hmem, rfl⟩)⟩
    · exact Or.inl ⟨x, hstays x hx hdelivered, hfl⟩
  · refine Or.inr ⟨hgone, fun id hid => ?_⟩
    obtain ⟨t, k', hmem⟩ := hnotices id hid
    exact ⟨t, k', hstays _ hmem (by simp)⟩

omit [DecidableEq S] in
/-- What is lost is not part of the cascade. -/
theorem Cascade.drop {w : AppWorld σ S} (h : Cascade p owner k w)
    {pre post : List (S × Flight Request Response Turn σ)} {s : S}
    {fl : Flight Request Response Turn σ} (hpool : w.pool = pre ++ (s, fl) :: post)
    (hneeded : ¬ fl.req.Needed p owner) :
    Cascade p owner k ⟨w.backend, w.client, pre ++ post⟩ := by
  have hstays : ∀ x ∈ w.pool, x.2.req.Needed p owner → x ∈ pre ++ post := by
    intro x hx hreq
    rw [hpool] at hx
    rcases List.mem_append.mp hx with hpre | hpost
    · exact List.mem_append_left _ hpre
    · rcases List.mem_cons.mp hpost with rfl | hpost
      · exact absurd hreq hneeded
      · exact List.mem_append_right _ hpost
  rcases h with ⟨x, hx, hfl⟩ | ⟨hgone, hnotices⟩
  · exact Or.inl ⟨x, hstays x hx hfl.needed, hfl⟩
  · refine Or.inr ⟨hgone, fun id hid => ?_⟩
    obtain ⟨t, k', hmem⟩ := hnotices id hid
    exact ⟨t, k', hstays _ hmem trivial⟩

/-- **One step of the cascade**: it goes on, or nothing about the post comes up. -/
theorem Cascade.step {w w' : AppWorld σ S} {ev : AppEvent S PostCall}
    (h : Cascade p owner k w) (hkeeps : w.Keeps (spare uidOf p owner) (Bare p))
    (hok : SparingRun uidOf p owner w ev)
    (hstep : Stepped api (PostCall.program completion) w ev w') : Cascade p owner k w' := by
  cases hstep with
  | invoke s c e =>
    rcases h with ⟨x, hx, hfl⟩ | ⟨hgone, hnotices⟩
    · exact Or.inl ⟨x, List.mem_append_left _ hx, hfl⟩
    · refine Or.inr ⟨hgone, fun id hid => ?_⟩
      obtain ⟨t, k', hmem⟩ := hnotices id hid
      exact ⟨t, k', List.mem_append_left _ hmem⟩
  | serve hpool hfifo hserve =>
    rename_i pre post s r callback o b y
    obtain ⟨⟨e, -, hreq⟩, -⟩ := hkeeps.pool (s, .issued r callback) (mem_split hpool)
    exact h.serve hpool hreq (hok _ (getElem?_split hpool)).1 hserve
  | deliver hpool hfifo => exact h.deliver hpool _
  | drop hpool => exact h.drop hpool (hok _ (getElem?_split hpool))

omit [DecidableEq S] in
/-- With nothing in flight the cascade is over. -/
theorem Cascade.settled {w : AppWorld σ S} (h : Cascade p owner k w) (hbare : Bare p w.backend)
    (hquiet : w.Quiescent) : Unreferenced p owner w.backend := by
  rcases h with ⟨x, hx, -⟩ | ⟨hgone, hnotices⟩
  · rw [hquiet] at hx
    exact absurd hx (by simp)
  · refine ⟨hgone, fun u => ?_, fun u => ?_, fun id hid => ?_, fun u => ?_, fun id => ?_⟩
    · exact hbare _ (Or.inr (Or.inr (Or.inl ⟨u, rfl⟩)))
    · exact hbare _ (Or.inr (Or.inr (Or.inr ⟨u, rfl⟩)))
    · obtain ⟨s, k', hmem⟩ := hnotices id hid
      rw [hquiet] at hmem
      exact absurd hmem (by simp)
    · exact hbare _ (Or.inl ⟨u, rfl⟩)
    · exact hbare _ (Or.inr (Or.inl ⟨id, rfl⟩))

/-- **Referential integrity of posts.** The owner deletes `p` in any world in which only
notifications refer to it and nothing in flight is going to; from then on any sessions
make any calls that spare it, in any interleaving. Whenever nothing is in flight, `p` is
referenced nowhere. -/
theorem deletePost_unreferenced (hcompl : Sparing uidOf p owner completion)
    {w w' : AppWorld σ S} (hbare : Bare p w.backend)
    (hpool : ∀ x ∈ w.pool, x.2.Keeps (spare uidOf p owner x.1)) {s : S} (howner : uidOf s = owner)
    {e : Turn} (he : LiveTurn uidOf p s e) {es : List (AppEvent S PostCall)}
    (run : Run api (PostCall.program completion) (SparingRun uidOf p owner)
      (w.turn s ((PostCall.deletePost p).program completion) e w.pool) es w')
    (hquiet : w'.Quiescent) : Unreferenced p owner w'.backend := by
  have hkeeps : (w.turn s ((PostCall.deletePost p).program completion) e w.pool).Keeps
      (spare uidOf p owner) (Bare p) :=
    World.Keeps.turn ⟨hbare, fun _ => trivial, hpool⟩ hpool
      ((PostCall.deletePost p).keeps_spare hcompl trivial) he
  have hcascade : Cascade p owner (completion (.deletePost p))
      (w.turn s ((PostCall.deletePost p).program completion) e w.pool) := by
    refine Or.inl ⟨(s, _), ?_, .deleting⟩
    rw [World.turn_pool]
    have huid : e.currentUid = some owner := howner ▸ he.1
    have hexec := exec_deletePost (p := p) (k := completion (.deletePost p)) huid (w.client s)
    unfold PostCall.program
    rw [hexec]
    simp
  have hend : w'.Keeps (spare uidOf p owner) (Bare p)
      ∧ Cascade p owner (completion (.deletePost p)) w' :=
    run.invariant (I := fun _ w => w.Keeps (spare uidOf p owner) (Bare p)
      ∧ Cascade p owner (completion (.deletePost p)) w) ⟨hkeeps, hcascade⟩
      fun _ _ _ _ hw hok hstep =>
        ⟨keeps_spare_step hcompl hw.1 hok hstep, hw.2.step hw.1 hok hstep⟩
  exact hend.2.settled hend.1.backend hquiet

end Runs

/-! ## `b` deletes `p` -/

instance (p owner : String) (c : PostCall) : Decidable (c.Spares p owner) := by
  apply PostCall.casesOn (motive := fun c => Decidable (c.Spares p owner)) c
    <;> intros <;> unfold PostCall.Spares <;> infer_instance

instance (p owner : String) (r : Request) : Decidable (r.Needed p owner) := by
  apply Request.casesOn (motive := fun r => Decidable (r.Needed p owner)) r
    <;> intros <;> unfold Request.Needed <;> infer_instance

instance (p : String) (docs : Store) (r : Request) : Decidable (r.Shows p docs) := by
  apply Request.casesOn (motive := fun r => Decidable (r.Shows p docs)) r
    <;> intros <;> unfold Request.Shows <;> infer_instance

instance (uidOf : S → String) (p : String) (s : S) (e : Turn) :
    Decidable (LiveTurn uidOf p s e) :=
  inferInstanceAs (Decidable (_ ∧ _))

instance (uidOf : S → String) (p owner : String) (w : AppWorld σ S)
    (ev : AppEvent S PostCall) : Decidable (SparingRun uidOf p owner w ev) :=
  match ev with
  | .invoke _ _ _ => inferInstanceAs (Decidable (_ ∧ _))
  | .serve i o => inferInstanceAs (Decidable (∀ x ∈ w.pool[i]?,
      (x.2.req.Needed p owner → o.isSuccess = true)
        ∧ (o.isSuccess = true → ¬ x.2.req.Shows p w.backend.docs)))
  | .deliver i e => inferInstanceAs (Decidable (∀ x ∈ w.pool[i]?, LiveTurn uidOf p x.1 e))
  | .drop i => inferInstanceAs (Decidable (∀ x ∈ w.pool[i]?, ¬ x.2.req.Needed p owner))

/-- The town, with a notification about `p` in the inbox of `b`. -/
def townWithNotice : Backend :=
  { town with
    docs := town.docs.insert (noticePath "b" "n")
      (NotificationService.notificationData "a" (turnWith "a" "n") (User.init (userDoc "a")) .like
        (some (heldPost 0))) }

/-- The replies to `deletePost` when only the notification `n` refers to the post. -/
def deletionReplies : List (AppEvent String PostCall) :=
  [.serve 0 (.success []), .serve 1 (.success []), .deliver 0 (turnOf "b"), .deliver 0 (turnOf "b"),
    .serve 0 (.success []), .deliver 0 (turnOf "b"), .serve 0 (.success ["n"]),
    .deliver 0 (turnOf "b"), .serve 0 (.success []), .deliver 0 (turnOf "b")]

/-- No document of the town but its notification refers to `p`. -/
theorem townWithNotice_bare : Bare "p" townWithNotice := by
  have hkeys : townWithNotice.docs.keys
      = [noticePath "b" "n", ["posts", "p"], ["users", "b"], ["users", "a"]] := rfl
  intro path href
  refine Backend.exists_eq_false ?_
  rw [hkeys]
  rcases href with ⟨u, rfl⟩ | ⟨id, rfl⟩ | ⟨u, rfl⟩ | ⟨u, rfl⟩ <;> simp [noticePath]

/-- A post that only a notification refers to is deleted without trace. -/
theorem deletePost_unreferenced_notice :
    ∃ w, Run api (PostCall.program fun _ => noCompletion) (SparingRun id "p" "b")
        ((atRest townWithNotice fun _ => () : AppWorld Unit String).turn "b"
          (PostService.deletePost "p" noCompletion) (turnOf "b") []) deletionReplies w
      ∧ w.Quiescent ∧ Unreferenced "p" "b" w.backend := by
  obtain ⟨w, run, hquiet⟩ : ∃ w,
      Run api (PostCall.program fun _ => noCompletion) (SparingRun id "p" "b")
        ((atRest townWithNotice fun _ => () : AppWorld Unit String).turn "b"
          (PostService.deletePost "p" noCompletion) (turnOf "b") []) deletionReplies w
      ∧ w.Quiescent := exists_run_of_play (by decide)
  have howner : id "b" = "b" := rfl
  have hlive : LiveTurn id "p" "b" (turnOf "b") := by decide
  refine ⟨w, run, hquiet, ?_⟩
  exact deletePost_unreferenced (w := atRest townWithNotice fun _ => ())
    (fun _ _ _ => Prog.keeps_done) townWithNotice_bare (fun x hx => absurd hx (by simp [atRest]))
    howner hlive run hquiet

/-- `a` follows `b`, takes his posts into the feed, likes and comments on `p`; then `b`
deletes `p`. -/
def likeThenDelete : List (AppEvent String PostCall) :=
  [.invoke "a" (.follow "b") (turnOf "a"), .serve 0 (.success []), .deliver 0 (turnOf "a"),
    .serve 0 (.success []), .deliver 0 (turnOf "a"),
    .invoke "a" (.updateUserFeedAfterFollowing (User.init (userDoc "b"))) (turnOf "a"),
    .serve 0 (.success ["p"]), .deliver 0 (turnOf "a"), .serve 0 (.success []),
    .deliver 0 (turnOf "a"),
    .invoke "a" (.likePost (heldPost 0)) (turnOf "a"), .serve 0 (.success []),
    .serve 1 (.success []), .deliver 0 (turnOf "a"), .deliver 0 (turnOf "a"),
    .serve 0 (.success []), .deliver 0 (turnOf "a"),
    .invoke "a" (.uploadComment "nice" (heldPost 1) (User.init (userDoc "a"))) (turnWith "a" "c"),
    .serve 0 (.success []), .deliver 0 (turnOf "a"),
    .invoke "b" (.deletePost "p") (turnOf "b"), .serve 0 (.success ["a"]), .serve 1 (.success []),
    .deliver 0 (turnOf "b"), .deliver 0 (turnOf "b"), .serve 0 (.success []),
    .serve 1 (.success []), .deliver 0 (turnOf "b"), .deliver 0 (turnOf "b"),
    .serve 0 (.success []), .deliver 0 (turnOf "b")]

/-- The deleted post keeps its mark, its comment and its place in the feed. -/
theorem deletePost_referenced :
    ∃ w, Run api (PostCall.program fun _ => noCompletion)
        (fun w ev => Plain id w ev ∧ FreshIds w ev)
        (atRest town fun _ => () : AppWorld Unit String) likeThenDelete w
      ∧ w.Quiescent ∧ w.backend.exists ["posts", "p"] = false
      ∧ w.backend.exists ["posts", "p", "post-likes", "a"] = true
      ∧ w.backend.exists ["posts", "p", "comments", "c"] = true
      ∧ w.backend.exists ["users", "a", "user-feed", "p"] = true :=
  exists_run_of_play (by decide)

end InstaClone
