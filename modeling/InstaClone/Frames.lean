import InstaClone.Async.Frame
import InstaClone.Services

/-!
# What each service leaves alone

One lemma for each service: it issues only requests with `ok` and never changes `obs`, as
soon as `ok` holds of the requests it makes and its completion does the same.
-/

namespace InstaClone

open Async

section Frames

variable {σ α : Type} {ok : Request → Prop} {obs : σ → α}

/-- With nobody signed in the guard returns, and there is nothing to spare. -/
theorem spares_withCurrentUid {body : String → Program σ} (h : ∀ uid, (body uid).Spares ok obs) :
    (withCurrentUid body).Spares ok obs := by
  intro turn
  dsimp only
  split
  next uid _ => exact h uid
  next => trivial

/-- A write spares what its completion spares, if the write itself may be issued. -/
theorem spares_write {w : Write} {completion : Option Error → Program σ} (hw : ok (.write w))
    (hk : ∀ error, (completion error).Spares ok obs) :
    (Prog.call (.write w) completion .done : Program σ).Spares ok obs := ⟨hw, hk, trivial⟩

/-- A write whose completion is not given. -/
theorem spares_silent {w : Write} (hw : ok (.write w)) :
    (Prog.call (.write w) noCompletion .done : Program σ).Spares ok obs :=
  spares_write hw fun _ => trivial

theorem spares_getDocument {path : Path} {completion : Option Snapshot → Program σ}
    (hr : ok (.getDocument path)) (hk : ∀ snapshot, (completion snapshot).Spares ok obs) :
    (getDocument path completion).Spares ok obs := ⟨hr, hk, trivial⟩

theorem spares_getDocuments {q : Query} {completion : Option (List (String × Doc)) → Program σ}
    (hr : ok (.getDocuments q)) (hk : ∀ documents, (completion documents).Spares ok obs) :
    (getDocuments q completion).Spares ok obs := ⟨hr, hk, trivial⟩

/-! ## Reading -/

/-- One read, of `users/{uid}`, whose data the completion is called with. -/
theorem spares_fetchUser {uid : String} {completion : User → Program σ}
    (hr : ok (.getDocument ["users", uid])) (hk : ∀ user, (completion user).Spares ok obs) :
    (UserService.fetchUser uid completion).Spares ok obs := by
  refine spares_getDocument hr fun snapshot => ?_
  split
  next => trivial
  next dictionary => exact hk _

/-- One read, of `posts/{postId}`. -/
theorem spares_fetchPost {postId : String} {completion : Post → Program σ}
    (hr : ok (.getDocument ["posts", postId])) (hk : ∀ post, (completion post).Spares ok obs) :
    (PostService.fetchPost postId completion).Spares ok obs := by
  refine spares_getDocument hr fun snapshot => ?_
  split
  next => trivial
  next snapshot =>
    split
    next => trivial
    next data => exact fun turn => hk _

/-- One query of all posts. -/
theorem spares_fetchPosts {completion : List Post → Program σ}
    (hr : ∀ q, ok (.getDocuments q)) (hk : ∀ posts, (completion posts).Spares ok obs) :
    (PostService.fetchPosts completion).Spares ok obs := by
  refine spares_getDocuments (hr _) fun snapshot => ?_
  split
  next => trivial
  next documents => exact fun turn => hk _

/-- The posts of one owner, sorted on the client. -/
theorem spares_fetchPostsForUser {uid : String} {completion : List Post → Program σ}
    (hr : ∀ q, ok (.getDocuments q)) (hk : ∀ posts, (completion posts).Spares ok obs) :
    (PostService.fetchPostsForUser uid completion).Spares ok obs := by
  refine spares_getDocuments (hr _) fun snapshot => ?_
  split
  next => trivial
  next documents => exact fun turn => hk _

/-- One read, of the copy of the mark. -/
theorem spares_checkIfUserLikedPost {post : Post} {completion : Bool → Program σ}
    (hr : ∀ path, ok (.getDocument path)) (hk : ∀ didLike, (completion didLike).Spares ok obs) :
    (PostService.checkIfUserLikedPost post completion).Spares ok obs := by
  refine spares_withCurrentUid fun uid => spares_getDocument (hr _) fun snapshot => ?_
  split
  next => trivial
  next snapshot => exact hk _

/-- One read, of the mark. -/
theorem spares_checkIfUserIsFollowed {uid : String} {completion : Bool → Program σ}
    (hr : ∀ path, ok (.getDocument path))
    (hk : ∀ isFollowed, (completion isFollowed).Spares ok obs) :
    (UserService.checkIfUserIsFollowed uid completion).Spares ok obs := by
  refine spares_withCurrentUid fun currentUid => spares_getDocument (hr _) fun snapshot => ?_
  split
  next => trivial
  next snapshot => exact hk _

/-- Three queries, each in the callback of the last. -/
theorem spares_fetchUserStats {uid : String} {completion : UserStats → Program σ}
    (hr : ∀ q, ok (.getDocuments q)) (hk : ∀ stats, (completion stats).Spares ok obs) :
    (UserService.fetchUserStats uid completion).Spares ok obs :=
  spares_getDocuments (hr _) fun _ => spares_getDocuments (hr _) fun _ =>
    spares_getDocuments (hr _) fun _ => hk _

/-- One query of the own inbox. -/
theorem spares_fetchNotifications {completion : List Notification → Program σ}
    (hr : ∀ q, ok (.getDocuments q))
    (hk : ∀ notifications, (completion notifications).Spares ok obs) :
    (NotificationService.fetchNotifications completion).Spares ok obs := by
  refine spares_withCurrentUid fun uid => spares_getDocuments (hr _) fun snapshot => ?_
  split
  next => trivial
  next documents => exact fun turn => hk _

/-! ## Writing -/

/-- The count and the two deletions of `unlikePost`. -/
theorem spares_unlikePost {post : Post} {completion : Option Error → Program σ}
    (hcount : ∀ fields, ok (.write (.updateData ["posts", post.postId] fields)))
    (hmark : ∀ uid, ok (.write (.delete ["posts", post.postId, "post-likes", uid])))
    (hcopy : ∀ uid, ok (.write (.delete ["users", uid, "user-likes", post.postId])))
    (hk : ∀ error, (completion error).Spares ok obs) :
    (PostService.unlikePost post completion).Spares ok obs := by
  refine spares_withCurrentUid fun uid => ?_
  split
  next =>
    exact .andThen (spares_silent (hcount _))
      (spares_write (hmark uid) fun _ => spares_write (hcopy uid) hk)
  -- the guard on the count
  next => trivial

/-- The two marks of `follow`; `hk` is asked after the second only. -/
theorem spares_follow {user : String} {completion : Option Error → Program σ}
    (hmark : ∀ uid, ok (.write (.setData ["following", uid, "user-following", user] (dict []))))
    (hcopy : ∀ uid, ok (.write (.setData ["followers", user, "user-followers", uid] (dict []))))
    (hk : ∀ error, (completion error).Spares ok obs) :
    (UserService.follow user completion).Spares ok obs :=
  spares_withCurrentUid fun uid => spares_write (hmark uid) fun _ => spares_write (hcopy uid) hk

/-- The two deletions of `unfollow`. -/
theorem spares_unfollow {user : String} {completion : Option Error → Program σ}
    (hmark : ∀ uid, ok (.write (.delete ["following", uid, "user-following", user])))
    (hcopy : ∀ uid, ok (.write (.delete ["followers", user, "user-followers", uid])))
    (hk : ∀ error, (completion error).Spares ok obs) :
    (UserService.unfollow user completion).Spares ok obs :=
  spares_withCurrentUid fun uid => spares_write (hmark uid) fun _ => spares_write (hcopy uid) hk

/-- `uploadNotification` has no completion: its one write is all there is. -/
theorem spares_uploadNotification {uid : String} {fromUser : User} {type : NotificationType}
    {post : Option Post}
    (hw : ∀ id data, ok (.write (.setData ["notifications", uid, "user-notifications", id] data))) :
    (NotificationService.uploadNotification uid fromUser type post : Program σ).Spares ok obs := by
  refine spares_withCurrentUid fun currentUid => ?_
  split
  -- nobody is notified of what he does himself
  next => trivial
  next => exact fun turn => spares_silent (hw _ _)

/-- `deleteNotification`: a query of the inbox by sender, and deletions there. -/
theorem spares_deleteNotification {uid : String} {type : NotificationType} {postId : Option String}
    (hr : ∀ currentUid,
      ok (.getDocuments
        { collection := ["notifications", uid, "user-notifications"]
          whereField := some ("uid", .string currentUid) }))
    (hw : ∀ id, ok (.write (.delete ["notifications", uid, "user-notifications", id]))) :
    (NotificationService.deleteNotification uid type postId : Program σ).Spares ok obs := by
  refine spares_withCurrentUid fun currentUid => spares_getDocuments (hr _) fun snapshot turn => ?_
  refine .forEach fun document => ?_
  split
  next => exact spares_silent (hw _)
  next => trivial

/-- `uploadImage` puts the data and asks for the URL; a failure of either ends it. -/
theorem spares_uploadImage {image : UIImage} {completion : String → Program σ}
    (hput : ∀ reference data, ok (.putData reference data))
    (hurl : ∀ reference, ok (.downloadURL reference))
    (hk : ∀ url, (completion url).Spares ok obs) :
    (ImageUploader.uploadImage image completion).Spares ok obs := by
  unfold ImageUploader.uploadImage
  split
  next => trivial
  next imageData =>
    refine fun turn => ⟨hput _ _, fun error => ?_, trivial⟩
    cases error with
    | some error => trivial
    | none =>
      refine ⟨hurl _, fun url => ?_, trivial⟩
      cases url with
      | none => trivial
      | some imageUrl => exact hk imageUrl

/-- The image first, then the document. -/
theorem spares_uploadPost {caption : String} {image : UIImage} {user : User}
    {completion : Option Error → Program σ}
    (hput : ∀ reference data, ok (.putData reference data))
    (hurl : ∀ reference, ok (.downloadURL reference))
    (hw : ∀ id data, ok (.write (.setData ["posts", id] data)))
    (hk : ∀ error, (completion error).Spares ok obs) :
    (PostService.uploadPost caption image user completion).Spares ok obs :=
  spares_withCurrentUid fun _ => spares_uploadImage hput hurl fun _ _ _ =>
    spares_write (hw _ _) hk

/-- The four deletions of the cascade, with the queries between them. -/
theorem spares_deletePost {postId : String} {completion : Option Error → Program σ}
    (hr : ∀ q, ok (.getDocuments q)) (hpost : ok (.write (.delete ["posts", postId])))
    (hlikes : ∀ uid, ok (.write (.delete ["users", uid, "user-likes", postId])))
    (hfeeds : ∀ uid, ok (.write (.delete ["users", uid, "user-feed", postId])))
    (hnotes : ∀ uid id, ok (.write (.delete ["notifications", uid, "user-notifications", id])))
    (hk : ∀ error, (completion error).Spares ok obs) :
    (PostService.deletePost postId completion).Spares ok obs := by
  refine spares_withCurrentUid fun uid => .andThen ?_ ?_
  · refine spares_getDocuments (hr _) fun snapshot => ?_
    split
    next => trivial
    next documents => exact .forEach fun document => spares_silent (hlikes _)
  · refine spares_write hpost fun _ => spares_getDocuments (hr _) fun snapshot => ?_
    split
    next => trivial
    next documents =>
      refine .andThen (.forEach fun document => spares_silent (hfeeds _)) ?_
      refine spares_getDocuments (hr _) fun snapshot => ?_
      split
      next => trivial
      next documents => exact .forEach fun document => spares_write (hnotes _ _) hk

/-- `updateProfileImage` deletes the old object, uploads the new one and updates the user and his
posts. -/
theorem spares_updateProfileImage {user : User} {image : UIImage}
    {completion : Option String → Option Error → Program σ}
    (hold : ok (.deleteObject user.profileImageUrl))
    (hput : ∀ reference data, ok (.putData reference data))
    (hurl : ∀ reference, ok (.downloadURL reference))
    (huser : ∀ uid url,
      ok (.write (.updateData ["users", uid] (dict [("profileImageUrl", .string url)]))))
    (hr : ∀ q, ok (.getDocuments q))
    (hposts : ∀ id url,
      ok (.write (.updateData ["posts", id] (dict [("ownerImageUrl", .string url)]))))
    (hk : ∀ url error, (completion url error).Spares ok obs) :
    (UserService.updateProfileImage user image completion).Spares ok obs := by
  refine spares_withCurrentUid fun uid => ?_
  split
  -- `reference(forURL:)` ends the process on any other URL
  case isFalse => trivial
  refine ⟨hold, fun _ => trivial, ?_⟩
  refine spares_uploadImage hput hurl fun url => spares_write (huser uid url) fun error => ?_
  cases error with
  | some error => exact hk none (some error)
  | none =>
    -- the posts are updated behind the completion's back
    refine .andThen (spares_getDocuments (hr _) fun snapshot => ?_) (hk (some url) none)
    split
    next => trivial
    next documents => exact .forEach fun document => spares_silent (hposts _ _)

/-- `saveUserData` rewrites `users/{uid}` whole. -/
theorem spares_saveUserData {user : User} {completion : Option Error → Program σ}
    (hw : ∀ uid, ok (.write (.setData ["users", uid]
      (dict [("email", .string user.email),
             ("fullname", .string user.fullname),
             ("profileImageUrl", .string user.profileImageUrl),
             ("uid", .string uid),
             ("username", .string user.username)]))))
    (hk : ∀ error, (completion error).Spares ok obs) :
    (UserService.saveUserData user completion).Spares ok obs :=
  spares_withCurrentUid fun _ => spares_write (hw _) hk

/-- `setUserFCMToken` updates one field, without a completion. -/
theorem spares_setUserFCMToken
    (hw : ∀ uid token,
      ok (.write (.updateData ["users", uid] (dict [("fcmToken", .string token)])))) :
    (UserService.setUserFCMToken : Program σ).Spares ok obs := by
  refine spares_withCurrentUid fun uid turn => ?_
  dsimp only
  split
  next => trivial
  next token _ => exact spares_silent (hw uid token)

end Frames

end InstaClone
