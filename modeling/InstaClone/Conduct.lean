import InstaClone.Async.Contract
import InstaClone.Controllers
import InstaClone.Sessions

/-!
# How the app conducts itself: one contract for all of its code

`conduct env state P W` is a contract for a session of this app: its turns are as `env`
says, its client state stays in `state`, the posts it decodes have `P`, and in a turn
`e` it issues no document write but those with `W e`. Reads, Storage and Auth requests
are free.

Every service has one lemma that says when it keeps the contract, in terms of the
writes it makes and of its completion. On top of them `Action.keeps` says it of all the
controllers at once: with `P` a property of posts that the like completions preserve
(`PostLaw`), an action keeps the contract as soon as `W` allows what `Action.Writes`
lists for it. The invariants about runs of the whole app are instances: choose `P`,
choose `W`, look up which actions write such a thing.
-/

namespace InstaClone

open Async

variable {σ : Type}

/-- What a reply says of posts: everything decoded from it has `P`. -/
def RepliesWith (P : Post → Prop) : (r : Request) → Response r → Prop
  | .getDocument path, y =>
    ∀ postId, path = ["posts", postId] → ∀ snapshot ∈ y, ∀ data ∈ snapshot.data,
      ∀ now, P (Post.init now snapshot.documentID data)
  | .getDocuments q, y =>
    q.collection = ["posts"] → ∀ documents ∈ y, ∀ x ∈ documents, ∀ now, P (Post.init now x.1 x.2)
  | _, _ => True

/-- Nothing is asked of the posts. -/
theorem repliesWith_true (r : Request) (y : Response r) : RepliesWith (fun _ => True) r y := by
  cases r <;> simp [RepliesWith]

/-- The contract of a session whose document writes are those with `W`. -/
def conduct (env : Turn → Prop) (state : σ → Prop) (P : Post → Prop) (W : Turn → Write → Prop) :
    Contract Request Response Turn σ where
  env := env
  state := state
  req e r := ∀ w, r = .write w → W e w
  resp := RepliesWith P

section Services

variable {env : Turn → Prop} {state : σ → Prop} {P : Post → Prop} {W : Turn → Write → Prop}
  {e : Turn}

@[simp] theorem conduct_env : (conduct env state P W).env = env := rfl

@[simp] theorem conduct_state : (conduct env state P W).state = state := rfl

/-- A document write is allowed exactly when `W` allows it. -/
@[simp] theorem conduct_req_write {w : Write} :
    (conduct env state P W).req e (.write w) ↔ W e w := by
  constructor
  · intro h
    exact h w rfl
  · intro h w' hw'
    cases hw'
    exact h

/-- Everything else is allowed. -/
theorem conduct_req_read {r : Request} (hr : r.isWrite = false) :
    (conduct env state P W).req e r := by
  intro w hw
  subst hw
  exact absurd hr (by simp [Request.isWrite])

/-- The guard of `Auth.auth().currentUser?.uid`: only a body that runs has anything to keep. -/
theorem keepsIn_withCurrentUid {body : String → Program σ}
    (h : ∀ uid, e.currentUid = some uid → (body uid).KeepsIn (conduct env state P W) e) :
    (withCurrentUid body).KeepsIn (conduct env state P W) e := by
  unfold withCurrentUid
  rw [Prog.keepsIn_ask]
  split
  next uid huid => exact h uid huid
  next => trivial

theorem keepsIn_write {w : Write} {k : Option Error → Program σ} (hw : W e w)
    (hk : ∀ y, (k y).Keeps (conduct env state P W)) :
    (Prog.call (.write w) k .done : Program σ).KeepsIn (conduct env state P W) e :=
  ⟨conduct_req_write.mpr hw, fun y _ => hk y, trivial⟩

/-- A write whose completion is not given. -/
theorem keepsIn_silent {w : Write} (hw : W e w) :
    (Prog.call (.write w) noCompletion .done : Program σ).KeepsIn (conduct env state P W) e :=
  keepsIn_write hw fun _ => Prog.keeps_done

/-- A read keeps the contract when its callback does, for every reply whose posts have `P`. -/
theorem keepsIn_getDocument {path : Path} {k : Option Snapshot → Program σ}
    (hk : ∀ y, RepliesWith P (.getDocument path) y → (k y).Keeps (conduct env state P W)) :
    (getDocument path k).KeepsIn (conduct env state P W) e :=
  ⟨conduct_req_read rfl, hk, trivial⟩

theorem keepsIn_getDocuments {q : Query} {k : Option (List (String × Doc)) → Program σ}
    (hk : ∀ y, RepliesWith P (.getDocuments q) y → (k y).Keeps (conduct env state P W)) :
    (getDocuments q k).KeepsIn (conduct env state P W) e :=
  ⟨conduct_req_read rfl, hk, trivial⟩

/-! ### Reading services -/

/-- `fetchUser` decodes no post, so its completion is asked about every user. -/
theorem keepsIn_fetchUser {uid : String} {completion : User → Program σ}
    (hk : ∀ user, (completion user).Keeps (conduct env state P W)) :
    (UserService.fetchUser uid completion).KeepsIn (conduct env state P W) e := by
  unfold UserService.fetchUser
  refine keepsIn_getDocument fun y _ => ?_
  split
  next => exact Prog.keeps_done
  next dictionary => exact hk _

/-- `fetchPost` decodes the post the reply holds, if any. -/
theorem keepsIn_fetchPost {postId : String} {completion : Post → Program σ}
    (hk : ∀ post, P post → (completion post).Keeps (conduct env state P W)) :
    (PostService.fetchPost postId completion).KeepsIn (conduct env state P W) e := by
  unfold PostService.fetchPost
  refine keepsIn_getDocument fun y hy => ?_
  split
  next => exact Prog.keeps_done
  next snapshot =>
    split
    next => exact Prog.keeps_done
    next data hdata =>
      intro e' he'
      have hpost : P (Post.init e'.now snapshot.documentID data) :=
        hy postId rfl snapshot rfl data hdata e'.now
      exact hk _ hpost e' he'

/-- The posts of the query have `P`, all of them. -/
theorem keepsIn_fetchPosts {completion : List Post → Program σ}
    (hk : ∀ posts, (∀ post ∈ posts, P post) → (completion posts).Keeps (conduct env state P W)) :
    (PostService.fetchPosts completion).KeepsIn (conduct env state P W) e := by
  unfold PostService.fetchPosts
  refine keepsIn_getDocuments fun y hy => ?_
  split
  next => exact Prog.keeps_done
  next documents =>
    intro e' he'
    refine hk _ ?_ e' he'
    intro post hpost
    obtain ⟨x, hx, rfl⟩ := List.mem_map.mp hpost
    exact hy rfl documents rfl x hx e'.now

/-- So have those of one user, and sorting keeps that. -/
theorem keepsIn_fetchPostsForUser {uid : String} {completion : List Post → Program σ}
    (hk : ∀ posts, (∀ post ∈ posts, P post) → (completion posts).Keeps (conduct env state P W)) :
    (PostService.fetchPostsForUser uid completion).KeepsIn (conduct env state P W) e := by
  unfold PostService.fetchPostsForUser
  refine keepsIn_getDocuments fun y hy => ?_
  split
  next => exact Prog.keeps_done
  next documents =>
    intro e' he'
    refine hk _ ?_ e' he'
    intro post hpost
    rw [List.mem_mergeSort] at hpost
    obtain ⟨x, hx, rfl⟩ := List.mem_map.mp hpost
    exact hy rfl documents rfl x hx e'.now

theorem keepsIn_checkIfUserLikedPost {post : Post} {completion : Bool → Program σ}
    (hk : ∀ didLike, (completion didLike).Keeps (conduct env state P W)) :
    (PostService.checkIfUserLikedPost post completion).KeepsIn (conduct env state P W) e := by
  unfold PostService.checkIfUserLikedPost
  refine keepsIn_withCurrentUid fun uid _ => keepsIn_getDocument fun y _ => ?_
  split
  next => exact Prog.keeps_done
  next snapshot => exact hk _

theorem keepsIn_checkIfUserIsFollowed {uid : String} {completion : Bool → Program σ}
    (hk : ∀ isFollowed, (completion isFollowed).Keeps (conduct env state P W)) :
    (UserService.checkIfUserIsFollowed uid completion).KeepsIn (conduct env state P W) e := by
  unfold UserService.checkIfUserIsFollowed
  refine keepsIn_withCurrentUid fun currentUid _ => keepsIn_getDocument fun y _ => ?_
  split
  next => exact Prog.keeps_done
  next snapshot => exact hk _

/-- The statistics are three queries, one in the callback of the other. -/
theorem keepsIn_fetchUserStats {uid : String} {completion : UserStats → Program σ}
    (hk : ∀ stats, (completion stats).Keeps (conduct env state P W)) :
    (UserService.fetchUserStats uid completion).KeepsIn (conduct env state P W) e := by
  unfold UserService.fetchUserStats
  refine keepsIn_getDocuments fun followers _ e₁ _ => ?_
  refine keepsIn_getDocuments fun following _ e₂ _ => ?_
  exact keepsIn_getDocuments fun posts _ => hk _

theorem keepsIn_fetchNotifications {completion : List Notification → Program σ}
    (hk : ∀ notifications, (completion notifications).Keeps (conduct env state P W)) :
    (NotificationService.fetchNotifications completion).KeepsIn (conduct env state P W) e := by
  unfold NotificationService.fetchNotifications
  refine keepsIn_withCurrentUid fun uid _ => keepsIn_getDocuments fun y _ => ?_
  split
  next => exact Prog.keeps_done
  next documents =>
    intro e' he'
    exact hk _ e' he'

/-! ### Writing services -/

/-- `likePost`: the count and the mark in the turn of the call, the copy of the mark in a later
one. -/
theorem keepsIn_likePost {post : Post} {completion : Option Error → Program σ}
    (hcount : W e (.updateData ["posts", post.postId] (dict [("likes", .int (post.likes + 1))])))
    (hmark : ∀ uid, e.currentUid = some uid →
      W e (.setData ["posts", post.postId, "post-likes", uid] (dict [])))
    (hcopy : ∀ uid, e.currentUid = some uid → ∀ e', env e' →
      W e' (.setData ["users", uid, "user-likes", post.postId] (dict [])))
    (hk : ∀ y, (completion y).Keeps (conduct env state P W)) :
    (PostService.likePost post completion).KeepsIn (conduct env state P W) e := by
  unfold PostService.likePost
  refine keepsIn_withCurrentUid fun uid huid => .andThen (keepsIn_silent hcount) ?_
  exact keepsIn_write (hmark uid huid) fun _ e' he' => keepsIn_write (hcopy uid huid e' he') hk

/-- `unlikePost` writes the same three behind the guard of `likes > 0`. -/
theorem keepsIn_unlikePost {post : Post} {completion : Option Error → Program σ}
    (hcount : post.likes > 0 →
      W e (.updateData ["posts", post.postId] (dict [("likes", .int (post.likes - 1))])))
    (hmark : ∀ uid, e.currentUid = some uid →
      W e (.delete ["posts", post.postId, "post-likes", uid]))
    (hcopy : ∀ uid, e.currentUid = some uid → ∀ e', env e' →
      W e' (.delete ["users", uid, "user-likes", post.postId]))
    (hk : post.likes > 0 → ∀ y, (completion y).Keeps (conduct env state P W)) :
    (PostService.unlikePost post completion).KeepsIn (conduct env state P W) e := by
  unfold PostService.unlikePost
  refine keepsIn_withCurrentUid fun uid huid => ?_
  split
  next hlikes =>
    refine .andThen (keepsIn_silent (hcount hlikes)) ?_
    exact keepsIn_write (hmark uid huid) fun _ e' he' =>
      keepsIn_write (hcopy uid huid e' he') (hk hlikes)
  next => trivial

/-- `follow`: the mark of the follower first, the copy for the followed when it is acknowledged. -/
theorem keepsIn_follow {user : String} {completion : Option Error → Program σ}
    (hmark : ∀ uid, e.currentUid = some uid →
      W e (.setData ["following", uid, "user-following", user] (dict [])))
    (hcopy : ∀ uid, e.currentUid = some uid → ∀ e', env e' →
      W e' (.setData ["followers", user, "user-followers", uid] (dict [])))
    (hk : ∀ y, (completion y).Keeps (conduct env state P W)) :
    (UserService.follow user completion).KeepsIn (conduct env state P W) e := by
  unfold UserService.follow
  refine keepsIn_withCurrentUid fun uid huid => ?_
  exact keepsIn_write (hmark uid huid) fun _ e' he' => keepsIn_write (hcopy uid huid e' he') hk

/-- `unfollow` deletes the two in the same order. -/
theorem keepsIn_unfollow {user : String} {completion : Option Error → Program σ}
    (hmark : ∀ uid, e.currentUid = some uid →
      W e (.delete ["following", uid, "user-following", user]))
    (hcopy : ∀ uid, e.currentUid = some uid → ∀ e', env e' →
      W e' (.delete ["followers", user, "user-followers", uid]))
    (hk : ∀ y, (completion y).Keeps (conduct env state P W)) :
    (UserService.unfollow user completion).KeepsIn (conduct env state P W) e := by
  unfold UserService.unfollow
  refine keepsIn_withCurrentUid fun uid huid => ?_
  exact keepsIn_write (hmark uid huid) fun _ e' he' => keepsIn_write (hcopy uid huid e' he') hk

/-- `uploadNotification` writes one notification, to nobody but another user. -/
theorem keepsIn_uploadNotification {uid : String} {fromUser : User} {type : NotificationType}
    {post : Option Post}
    (hwrite : ∀ currentUid, e.currentUid = some currentUid → uid ≠ currentUid →
      W e (.setData ["notifications", uid, "user-notifications", e.autoId]
        (NotificationService.notificationData currentUid e fromUser type post))) :
    (NotificationService.uploadNotification uid fromUser type post).KeepsIn
      (conduct env state P W) e := by
  unfold NotificationService.uploadNotification
  refine keepsIn_withCurrentUid fun currentUid huid => ?_
  split
  -- nobody is notified of what he does himself
  next => trivial
  next hne => exact keepsIn_silent (hwrite currentUid huid hne)

/-- `deleteNotification` deletes what its query finds in the inbox. -/
theorem keepsIn_deleteNotification {uid : String} {type : NotificationType}
    {postId : Option String}
    (hwrite : ∀ e', env e' → ∀ id,
      W e' (.delete ["notifications", uid, "user-notifications", id])) :
    (NotificationService.deleteNotification uid type postId).KeepsIn (conduct env state P W) e := by
  unfold NotificationService.deleteNotification
  refine keepsIn_withCurrentUid fun currentUid _ => keepsIn_getDocuments fun y _ e' he' => ?_
  rw [Prog.keepsIn_ask]
  -- the query is by sender alone; type and post are compared here
  refine .forEach fun document _ => ?_
  split
  next => exact keepsIn_silent (hwrite e' he' document.1)
  next => trivial

/-- `uploadImage` makes no document write; it hands the download URL on. -/
theorem keepsIn_uploadImage {image : UIImage} {completion : String → Program σ}
    (hk : ∀ url, (completion url).Keeps (conduct env state P W)) :
    (ImageUploader.uploadImage image completion).KeepsIn (conduct env state P W) e := by
  unfold ImageUploader.uploadImage
  split
  next => trivial
  next imageData =>
    rw [Prog.keepsIn_ask]
    refine ⟨conduct_req_read rfl, fun error _ e₁ _ => ?_, trivial⟩
    cases error with
    | some error => trivial
    | none =>
      refine ⟨conduct_req_read rfl, fun url _ e₂ he₂ => ?_, trivial⟩
      cases url with
      | none => trivial
      | some imageUrl => exact hk imageUrl e₂ he₂

/-- The dictionary `uploadPost` stores. -/
def uploadedPost (e : Turn) (caption imageUrl uid : String) (user : User) : Doc :=
  dict [("caption", .string caption),
        ("timestamp", .timestamp e.now),
        ("likes", .int 0),
        ("imageUrl", .string imageUrl),
        ("ownerUid", .string uid),
        ("ownerImageUrl", .string user.profileImageUrl),
        ("ownerUsername", .string user.username)]

/-- `uploadPost` writes the post once the image has its URL, in a turn of its own. -/
theorem keepsIn_uploadPost {caption : String} {image : UIImage} {user : User}
    {completion : Option Error → Program σ}
    (hwrite : ∀ uid, e.currentUid = some uid → ∀ e', env e' → ∀ imageUrl,
      W e' (.setData ["posts", e'.autoId] (uploadedPost e' caption imageUrl uid user)))
    (hk : ∀ y, (completion y).Keeps (conduct env state P W)) :
    (PostService.uploadPost caption image user completion).KeepsIn (conduct env state P W) e := by
  unfold PostService.uploadPost
  refine keepsIn_withCurrentUid fun uid huid => keepsIn_uploadImage fun imageUrl e' he' => ?_
  exact keepsIn_write (hwrite uid huid e' he' imageUrl) hk

/-- The dictionary `uploadComment` stores. -/
def uploadedComment (e : Turn) (comment : String) (post : Post) (user : User) : Doc :=
  dict [("uid", .string user.uid),
        ("comment", .string comment),
        ("timestamp", .timestamp e.now),
        ("username", .string user.username),
        ("profileImageUrl", .string user.profileImageUrl),
        ("postOwnerUid", .string post.ownerUid)]

/-- `uploadComment` writes one comment, under the identifier of the turn. -/
theorem keepsIn_uploadComment {comment : String} {post : Post} {user : User}
    {completion : Option Error → Program σ}
    (hwrite : W e (.setData ["posts", post.postId, "comments", e.autoId]
      (uploadedComment e comment post user)))
    (hk : ∀ y, (completion y).Keeps (conduct env state P W)) :
    (CommentService.uploadComment comment post user completion).KeepsIn
      (conduct env state P W) e :=
  keepsIn_write hwrite hk

/-- `deletePost`: the post itself in the turn of the call, what the cascade finds in later ones. -/
theorem keepsIn_deletePost {postId : String} {completion : Option Error → Program σ}
    (hpost : W e (.delete ["posts", postId]))
    (hlikes : ∀ e', env e' → ∀ u, W e' (.delete ["users", u, "user-likes", postId]))
    (hfeeds : ∀ e', env e' → ∀ u, W e' (.delete ["users", u, "user-feed", postId]))
    (hnotes : ∀ uid, e.currentUid = some uid → ∀ e', env e' → ∀ id,
      W e' (.delete ["notifications", uid, "user-notifications", id]))
    (hk : ∀ y, (completion y).Keeps (conduct env state P W)) :
    (PostService.deletePost postId completion).KeepsIn (conduct env state P W) e := by
  unfold PostService.deletePost
  refine keepsIn_withCurrentUid fun uid huid => .andThen ?_ ?_
  -- the marks are looked up at once, the rest when the post is deleted
  · refine keepsIn_getDocuments fun y _ e₁ he₁ => ?_
    split
    next => trivial
    next documents => exact .forEach fun document _ => keepsIn_silent (hlikes e₁ he₁ document.1)
  · refine keepsIn_write hpost fun _ e₁ _ => keepsIn_getDocuments fun y _ e₂ he₂ => ?_
    split
    next => trivial
    next documents =>
      refine .andThen (.forEach fun document _ => keepsIn_silent (hfeeds e₂ he₂ document.1)) ?_
      -- the inbox is queried after the feeds, whatever these held
      refine keepsIn_getDocuments fun y _ e₃ he₃ => ?_
      split
      next => trivial
      next documents =>
        exact .forEach fun document _ => keepsIn_write (hnotes uid huid e₃ he₃ document.1) hk

/-- `updateUserFeedAfterFollowing` lists the posts its query finds in the feed. -/
theorem keepsIn_updateUserFeedAfterFollowing {user : User}
    (hwrite : ∀ uid, e.currentUid = some uid → ∀ e', env e' → ∀ postId d,
      (∀ now, P (Post.init now postId d)) →
      W e' (.setData ["users", uid, "user-feed", postId] (dict []))) :
    (PostService.updateUserFeedAfterFollowing user).KeepsIn (conduct env state P W) e := by
  unfold PostService.updateUserFeedAfterFollowing
  refine keepsIn_withCurrentUid fun uid huid => keepsIn_getDocuments fun y hy e' he' => ?_
  split
  next => trivial
  next documents =>
    refine .forEach fun document hdocument => keepsIn_silent ?_
    exact hwrite uid huid e' he' document.1 document.2 (hy rfl documents rfl document hdocument)

end Services

/-! ## What a session holds -/

/-- Every post the feed controller and its cells hold has `P`. -/
structure FeedController.Holds (P : Post → Prop) (feed : FeedController) : Prop where
  posts : ∀ post ∈ feed.posts, P post
  post : ∀ post ∈ feed.post, P post
  cells : ∀ cell, ∀ post ∈ (feed.cells cell).post, P post

/-- Every post a session holds has `P`. -/
structure Client.Holds (P : Post → Prop) (client : Client) : Prop where
  feeds : ∀ c, (client.feeds c).Holds P
  profilePosts : ∀ m, ∀ post ∈ (client.profiles m).posts, P post
  profileCells : ∀ m cell, ∀ viewModel ∈ (client.profiles m).cells cell, P viewModel.post
  searchPosts : ∀ n, ∀ post ∈ (client.searches n).posts, P post
  searchCells : ∀ n cell, ∀ viewModel ∈ (client.searches n).cells cell, P viewModel.post
  comments : ∀ d, ∀ post ∈ (client.comments d).post, P post
  sheets : ∀ sheet ∈ client.sheets, P sheet.post

/-- What the code does to a held post: it sets the flag, and a completion writes its own
post's count, plus or minus one, into whatever post the cell then shows. -/
structure PostLaw (P : Post → Prop) : Prop where
  flag : ∀ post didLike, P post → P { post with didLike := didLike }
  liked : ∀ post shown, P post → P shown → P { shown with likes := post.likes + 1 }
  unliked : ∀ post shown, post.likes > 0 → P post → P shown →
    P { shown with likes := post.likes - 1 }

/-- A session that has just started holds nothing. -/
theorem Client.holds_initial (P : Post → Prop) : ({} : Client).Holds P where
  feeds _ := ⟨fun _ h => absurd h (by simp), fun _ h => absurd h (by simp),
    fun _ _ h => absurd h (by simp [FeedCell.post])⟩
  profilePosts _ _ h := absurd h (by simp)
  profileCells _ _ _ h := absurd h (by simp)
  searchPosts _ _ h := absurd h (by simp)
  searchCells _ _ _ h := absurd h (by simp)
  comments _ _ h := absurd h (by simp)
  sheets _ h := absurd h (by simp)

/-- Nothing is asked of the held posts. -/
theorem Client.holds_true (client : Client) : client.Holds fun _ => True where
  feeds _ := ⟨fun _ _ => trivial, fun _ _ => trivial, fun _ _ _ => trivial⟩
  profilePosts _ _ _ := trivial
  profileCells _ _ _ _ := trivial
  searchPosts _ _ _ := trivial
  searchCells _ _ _ _ := trivial
  comments _ _ _ := trivial
  sheets _ _ := trivial

section Holds

variable {P : Post → Prop}

theorem FeedController.Holds.reloadData {feed : FeedController} (h : feed.Holds P) :
    feed.reloadData.Holds P :=
  ⟨h.posts, h.post, fun cell => h.cells cell⟩

/-- The array may be replaced by posts that have `P`. -/
theorem FeedController.Holds.setPosts {feed : FeedController} (h : feed.Holds P)
    {posts : List Post} (hposts : ∀ post ∈ posts, P post) : (feed.setPosts posts).Holds P :=
  ⟨hposts, h.post, fun cell => h.cells cell⟩

/-- A completion sets the flag of one post of the list. -/
theorem FeedController.Holds.setFlag {feed : FeedController} (h : feed.Holds P) (hlaw : PostLaw P)
    {index : Nat} {didLike : Bool} :
    (feed.setPosts (feed.posts.modify index fun post => { post with didLike := didLike })).Holds
      P := by
  refine h.setPosts fun post hpost => ?_
  obtain ⟨i, hi, hget⟩ := List.mem_iff_getElem.mp hpost
  rw [List.length_modify] at hi
  rw [List.getElem_modify] at hget
  have hold := h.posts _ (List.getElem_mem hi)
  split at hget
  next =>
    rw [← hget]
    exact hlaw.flag _ _ hold
  next =>
    rw [← hget]
    exact hold

theorem FeedController.Holds.setPost {feed : FeedController} (h : feed.Holds P)
    {post : Option Post} (hpost : ∀ p ∈ post, P p) : (feed.setPost post).Holds P :=
  ⟨h.posts, hpost, fun cell => h.cells cell⟩

/-- A cell may change as long as its post keeps `P`. -/
theorem FeedController.Holds.mapCell {feed : FeedController} (h : feed.Holds P) {cell : Nat}
    {f : FeedCell → FeedCell} (hf : ∀ x, (∀ post ∈ x.post, P post) → ∀ post ∈ (f x).post, P post) :
    (feed.mapCell cell f).Holds P := by
  refine ⟨h.posts, h.post, fun cell' => ?_⟩
  rw [FeedController.mapCell_cells]
  split
  next => exact hf _ (h.cells cell)
  next => exact h.cells cell'

/-- The post a row shows is one of those held. -/
theorem FeedController.Holds.postAt {feed : FeedController} (h : feed.Holds P) {row : Nat}
    {post : Post} (hpost : feed.postAt row = some post) : P post := by
  unfold FeedController.postAt at hpost
  split at hpost
  next shown hshown =>
    split at hpost
    next => exact h.post post (by rw [hshown]; exact hpost)
    next => exact absurd hpost (by simp)
  next => exact h.posts post (List.mem_of_getElem? hpost)

/-- What keeps `P` in one feed keeps it in the client. -/
theorem Client.Holds.mapFeed {client : Client} (h : client.Holds P) {c : Nat}
    {f : FeedController → FeedController}
    (hf : ∀ feed : FeedController, feed.Holds P → (f feed).Holds P) :
    (client.mapFeed c f).Holds P := by
  refine { h with feeds := fun c' => ?_ }
  rw [Client.mapFeed_feeds]
  split
  next => exact hf _ (h.feeds c)
  next => exact h.feeds c'

/-- A profile holds posts in its grid and in its cells. -/
theorem Client.Holds.mapProfile {client : Client} (h : client.Holds P) {m : Nat}
    {f : ProfileController → ProfileController}
    (hposts : ∀ profile : ProfileController, (∀ post ∈ profile.posts, P post) →
      ∀ post ∈ (f profile).posts, P post)
    (hcells : ∀ profile : ProfileController, (∀ post ∈ profile.posts, P post) →
      (∀ cell, ∀ viewModel ∈ profile.cells cell, P viewModel.post) →
      ∀ cell, ∀ viewModel ∈ (f profile).cells cell, P viewModel.post) :
    (client.mapProfile m f).Holds P := by
  refine { h with profilePosts := fun m' => ?_, profileCells := fun m' => ?_ }
  · rw [Client.mapProfile_profiles]
    split
    next => exact hposts _ (h.profilePosts m)
    next => exact h.profilePosts m'
  · rw [Client.mapProfile_profiles]
    split
    next => exact hcells _ (h.profilePosts m) (h.profileCells m)
    next => exact h.profileCells m'

/-- So does the grid of the search screen. -/
theorem Client.Holds.mapSearch {client : Client} (h : client.Holds P) {n : Nat}
    {f : SearchController → SearchController}
    (hposts : ∀ search : SearchController, (∀ post ∈ search.posts, P post) →
      ∀ post ∈ (f search).posts, P post)
    (hcells : ∀ search : SearchController, (∀ post ∈ search.posts, P post) →
      (∀ cell, ∀ viewModel ∈ search.cells cell, P viewModel.post) →
      ∀ cell, ∀ viewModel ∈ (f search).cells cell, P viewModel.post) :
    (client.mapSearch n f).Holds P := by
  refine { h with searchPosts := fun n' => ?_, searchCells := fun n' => ?_ }
  · rw [Client.mapSearch_searches]
    split
    next => exact hposts _ (h.searchPosts n)
    next => exact h.searchPosts n'
  · rw [Client.mapSearch_searches]
    split
    next => exact hcells _ (h.searchPosts n) (h.searchCells n)
    next => exact h.searchCells n'

/-- An options sheet keeps its post until it is replaced. -/
theorem Client.Holds.mapSheet {client : Client} (h : client.Holds P) {k : Nat}
    {f : OptionsSheet → OptionsSheet} (hf : ∀ sheet, (f sheet).post = sheet.post) :
    (client.mapSheet k f).Holds P := by
  refine { h with sheets := fun sheet hsheet => ?_ }
  obtain ⟨i, hi, hget⟩ := List.mem_iff_getElem.mp hsheet
  unfold Client.mapSheet at hi hget
  rw [List.length_modify] at hi
  rw [List.getElem_modify] at hget
  have hold := h.sheets _ (List.getElem_mem hi)
  split at hget
  next =>
    rw [← hget, hf]
    exact hold
  next =>
    rw [← hget]
    exact hold

end Holds

/-! ## What each action writes -/

/-- The three places from which a user follows or unfollows another. -/
def Action.isFollow : Action → Bool
  | .headerTap _ => true
  | .inboxFollowTap _ _ => true
  | .sheetTap _ .follow => true
  | .sheetTap _ .unfollow => true
  | _ => false

/-- The document writes an action or one of its callbacks may issue in a turn `e` of the
user `me`, over posts with `P`. -/
inductive Action.Writes (P : Post → Prop) (me : String) (e : Turn) : Action → Write → Prop
  | likeCount {c cell : Nat} (post : Post) (hpost : P post) :
      Writes P me e (.likeTap c cell)
        (.updateData ["posts", post.postId] (dict [("likes", .int (post.likes + 1))]))
  | unlikeCount {c cell : Nat} (post : Post) (hpost : P post) (hlikes : post.likes > 0) :
      Writes P me e (.likeTap c cell)
        (.updateData ["posts", post.postId] (dict [("likes", .int (post.likes - 1))]))
  | likeMark {c cell : Nat} (postId : String) (v : Bool) :
      Writes P me e (.likeTap c cell) (markWrite ["posts", postId, "post-likes", me] v)
  | likeCopy {c cell : Nat} (postId : String) (v : Bool) :
      Writes P me e (.likeTap c cell) (markWrite ["users", me, "user-likes", postId] v)
  | likeNotice {c cell : Nat} (post : Post) (user : User) (hpost : P post)
      (hother : post.ownerUid ≠ me) :
      Writes P me e (.likeTap c cell)
        (.setData ["notifications", post.ownerUid, "user-notifications", e.autoId]
          (NotificationService.notificationData me e user .like (some post)))
  | unlikeNotice {c cell : Nat} (post : Post) (id : String) (hpost : P post) :
      Writes P me e (.likeTap c cell)
        (.delete ["notifications", post.ownerUid, "user-notifications", id])
  | followMark {a : Action} (ha : a.isFollow = true) (user : String) (v : Bool) :
      Writes P me e a (markWrite ["following", me, "user-following", user] v)
  | followCopy {a : Action} (ha : a.isFollow = true) (user : String) (v : Bool) :
      Writes P me e a (markWrite ["followers", user, "user-followers", me] v)
  | followNotice {m : Nat} (uid : String) (user : User) (hother : uid ≠ me) :
      Writes P me e (.headerTap m)
        (.setData ["notifications", uid, "user-notifications", e.autoId]
          (NotificationService.notificationData me e user .follow none))
  | unfollowNotice {m : Nat} (uid id : String) :
      Writes P me e (.headerTap m) (.delete ["notifications", uid, "user-notifications", id])
  | comment {d : Nat} {text : String} (post : Post) (user : User) (hpost : P post) :
      Writes P me e (.postComment d text)
        (.setData ["posts", post.postId, "comments", e.autoId] (uploadedComment e text post user))
  | commentNotice {d : Nat} {text : String} (post : Post) (user : User) (hpost : P post)
      (hother : post.ownerUid ≠ me) :
      Writes P me e (.postComment d text)
        (.setData ["notifications", post.ownerUid, "user-notifications", e.autoId]
          (NotificationService.notificationData me e user .comment (some post)))
  | upload {k : Nat} {caption : String} (imageUrl : String) (user : User) :
      Writes P me e (.shareTap k caption)
        (.setData ["posts", e.autoId] (uploadedPost e caption imageUrl me user))
  | deletePost {k : Nat} (postId : String) :
      Writes P me e (.sheetTap k .deletePost) (.delete ["posts", postId])
  | deleteLikes {k : Nat} (u postId : String) :
      Writes P me e (.sheetTap k .deletePost) (.delete ["users", u, "user-likes", postId])
  | deleteFeeds {k : Nat} (u postId : String) :
      Writes P me e (.sheetTap k .deletePost) (.delete ["users", u, "user-feed", postId])
  | deleteNotices {k : Nat} (id : String) :
      Writes P me e (.sheetTap k .deletePost)
        (.delete ["notifications", me, "user-notifications", id])

section Controllers

variable {env : Turn → Prop} {P : Post → Prop} {W : Turn → Write → Prop} {me : String} {e : Turn}

/-- The contract of a session of the app whose held posts have `P`. -/
abbrev appConduct (env : Turn → Prop) (P : Post → Prop) (W : Turn → Write → Prop) :
    Contract Request Response Turn Client :=
  conduct env (Client.Holds P) P W

/-- An assignment in a feed keeps the contract when it keeps the feed's posts. -/
theorem keepsIn_inFeed {c : Nat} {f : FeedController → FeedController} {rest : Program Client}
    (hf : ∀ feed : FeedController, feed.Holds P → (f feed).Holds P)
    (hrest : rest.KeepsIn (appConduct env P W) e) :
    (inFeed c f rest).KeepsIn (appConduct env P W) e :=
  ⟨fun _ h => h.mapFeed hf, hrest⟩

/-- An assignment to a profile controller that leaves its posts and cells alone. -/
theorem keepsIn_inProfile {m : Nat} {f : ProfileController → ProfileController}
    {rest : Program Client} (hposts : ∀ profile, (f profile).posts = profile.posts)
    (hcells : ∀ profile, (f profile).cells = profile.cells)
    (hrest : rest.KeepsIn (appConduct env P W) e) :
    (inProfile m f rest).KeepsIn (appConduct env P W) e := by
  refine ⟨fun _ h => h.mapProfile (fun profile hp => ?_) (fun profile _ hc => ?_), hrest⟩
  · rw [hposts]
    exact hp
  · rw [hcells]
    exact hc

theorem keepsIn_inInbox {n : Nat} {f : NotificationsController → NotificationsController}
    {rest : Program Client} (hrest : rest.KeepsIn (appConduct env P W) e) :
    (inInbox n f rest).KeepsIn (appConduct env P W) e :=
  ⟨fun _ h => { h with }, hrest⟩

theorem keepsIn_showLoader {isShown : Bool} {rest : Program Client}
    (hrest : rest.KeepsIn (appConduct env P W) e) :
    (showLoader isShown rest).KeepsIn (appConduct env P W) e :=
  ⟨fun _ h => { h with }, hrest⟩

/-! ### `FeedController` -/

/-- The answer of a check sets a flag, which `P` is indifferent to. -/
theorem keepsIn_didCheckPost (hlaw : PostLaw P) {c : Nat} {didLike : Bool} :
    (FeedController.didCheckPost c didLike).KeepsIn (appConduct env P W) e := by
  refine keepsIn_inFeed (fun feed hfeed => hfeed.setPost fun post hpost => ?_) trivial
  obtain ⟨shown, hshown, rfl⟩ := Option.map_eq_some_iff.mp hpost
  exact hlaw.flag _ _ (hfeed.post shown hshown)

/-- The same for an entry of the array, found by its identifier. -/
theorem keepsIn_didCheckPosts (hlaw : PostLaw P) {c : Nat} {postId : String} {didLike : Bool} :
    (FeedController.didCheckPosts c postId didLike).KeepsIn (appConduct env P W) e := by
  refine keepsIn_inFeed (fun feed hfeed => ?_) trivial
  split
  next index _ => exact hfeed.setFlag hlaw
  next => exact hfeed

/-- One check for each listed post, or for the single one. -/
theorem keepsIn_checkIfUserLikedPosts (hlaw : PostLaw P) {c : Nat} :
    (FeedController.checkIfUserLikedPosts c).KeepsIn (appConduct env P W) e := by
  unfold FeedController.checkIfUserLikedPosts
  intro client _
  dsimp only
  split
  next post _ =>
    exact keepsIn_checkIfUserLikedPost fun didLike _ _ => keepsIn_didCheckPost hlaw
  next =>
    refine .forEach fun post _ => ?_
    exact keepsIn_checkIfUserLikedPost fun didLike _ _ => keepsIn_didCheckPosts hlaw

/-- `fetchPosts()` of a feed takes the fetched posts and checks each of them. -/
theorem keepsIn_feedFetchPosts (hlaw : PostLaw P) {c : Nat} :
    (FeedController.fetchPosts c).KeepsIn (appConduct env P W) e := by
  unfold FeedController.fetchPosts
  intro client _
  dsimp only
  split
  next => trivial
  next =>
    refine keepsIn_fetchPosts fun posts hposts _ _ => ?_
    exact keepsIn_inFeed (fun feed hfeed => hfeed.setPosts hposts)
      (keepsIn_checkIfUserLikedPosts hlaw)

theorem keepsIn_feedFetchUser {c : Nat} :
    (FeedController.fetchUser c).KeepsIn (appConduct env P W) e := by
  unfold FeedController.fetchUser
  refine keepsIn_withCurrentUid fun uid _ => keepsIn_fetchUser fun user _ _ => ?_
  exact keepsIn_inFeed (fun feed hfeed => ⟨hfeed.posts, hfeed.post, hfeed.cells⟩) trivial

/-- `viewDidLoad()` of a feed. -/
theorem keepsIn_feedDidLoad (hlaw : PostLaw P) {c : Nat} :
    (FeedController.viewDidLoad c).KeepsIn (appConduct env P W) e := by
  unfold FeedController.viewDidLoad
  intro client _
  dsimp only
  split
  next => trivial
  next =>
    refine keepsIn_inFeed (fun feed hfeed => ⟨hfeed.posts, hfeed.post, hfeed.cells⟩) ?_
    refine .andThen (keepsIn_feedFetchPosts hlaw) (.andThen keepsIn_feedFetchUser ?_)
    intro client _
    dsimp only
    -- a single post is checked here, the list in its own callback
    split
    next => exact keepsIn_checkIfUserLikedPosts hlaw
    next => trivial

/-- A feed that is pushed for one post. -/
theorem keepsIn_feedPush (hlaw : PostLaw P) {c : Nat} {post : Post} (hpost : P post) :
    (FeedController.push c post).KeepsIn (appConduct env P W) e := by
  unfold FeedController.push
  intro client _
  dsimp only
  split
  next => trivial
  next =>
    refine keepsIn_inFeed (fun feed hfeed => hfeed.setPost fun p hp => ?_)
      (keepsIn_feedDidLoad hlaw)
    rw [← Option.some.inj hp]
    exact hpost

theorem keepsIn_feedRefresh (hlaw : PostLaw P) {c : Nat} :
    (FeedController.handleRefresh c).KeepsIn (appConduct env P W) e :=
  keepsIn_inFeed (fun feed hfeed => hfeed.setPosts fun _ hp => absurd hp (by simp))
    (keepsIn_feedFetchPosts hlaw)

/-- A cell takes its post from the array, so it has `P` as well. -/
theorem keepsIn_feedCell {c cell row : Nat} :
    (FeedController.cellForItemAt c cell row).KeepsIn (appConduct env P W) e := by
  refine keepsIn_inFeed (fun feed hfeed => ?_) trivial
  split
  next post hpost =>
    refine hfeed.mapCell fun x _ p hp => ?_
    have hshown : p = post := by
      unfold FeedCell.post at hp
      simpa using hp.symm
    rw [hshown]
    exact hfeed.postAt hpost
  next => exact hfeed

/-- A completion writes a count into the cell. -/
theorem holds_mapCell_updatePost {feed : FeedController} (hfeed : feed.Holds P) {cell : Nat}
    {g : FeedCell → FeedCell} (hg : ∀ x, (g x).post = x.post) {f : Post → Post}
    (hf : ∀ shown, P shown → P (f shown)) :
    (feed.mapCell cell fun x => (g x).updatePost f).Holds P := by
  refine hfeed.mapCell fun x hx p hp => ?_
  rw [FeedCell.updatePost_post, hg] at hp
  obtain ⟨shown, hshown, rfl⟩ := Option.map_eq_some_iff.mp hp
  exact hf shown (hx shown hshown)

/-- In every turn the session is signed in to its own account. -/
theorem uid_eq (henv : ∀ e, env e → e.currentUid = some me) (he : env e) {uid : String}
    (huid : e.currentUid = some uid) : uid = me := by
  rw [henv e he] at huid
  exact (Option.some.inj huid).symm

/-- The completion of `unlikePost` counts one less in the cell and takes the notification back. -/
theorem keepsIn_didUnlike (hlaw : PostLaw P) {c cell : Nat} {post : Post} {ownerUid : String}
    {error : Option Error} (hpost : P post) (hlikes : post.likes > 0)
    (hwrite : ∀ e', env e' → ∀ id,
      W e' (.delete ["notifications", ownerUid, "user-notifications", id])) :
    (FeedController.didUnlike c cell post ownerUid error).KeepsIn (appConduct env P W) e := by
  unfold FeedController.didUnlike
  refine keepsIn_inFeed (fun feed hfeed => ?_) ?_
  · exact holds_mapCell_updatePost hfeed (g := FeedCell.setLikeButton .heart .black) (fun _ => rfl)
      fun shown hshown => hlaw.unliked post shown hlikes hpost hshown
  · intro client _
    exact keepsIn_deleteNotification hwrite

/-- That of `likePost` counts one more and notifies the owner. -/
theorem keepsIn_didLike (hlaw : PostLaw P) (henv : ∀ e, env e → e.currentUid = some me)
    (he : env e) {c cell : Nat} {post : Post} {user : User} {error : Option Error} (hpost : P post)
    (hwrite : post.ownerUid ≠ me →
      W e (.setData ["notifications", post.ownerUid, "user-notifications", e.autoId]
        (NotificationService.notificationData me e user .like (some post)))) :
    (FeedController.didLike c cell post user error).KeepsIn (appConduct env P W) e := by
  unfold FeedController.didLike
  refine keepsIn_inFeed (fun feed hfeed => ?_) (keepsIn_uploadNotification fun uid huid hne => ?_)
  · exact holds_mapCell_updatePost hfeed (g := FeedCell.setLikeButton .heartFill .red)
      (fun _ => rfl)
      fun shown hshown => hlaw.liked post shown hpost hshown
  · obtain rfl := uid_eq henv he huid
    exact hwrite hne

/-- The two calls of a like tap. -/
theorem keepsIn_didTapLike (hlaw : PostLaw P) (henv : ∀ e, env e → e.currentUid = some me)
    (he : env e) {c cell : Nat}
    (hW : ∀ e w, env e → (Action.likeTap c cell).Writes P me e w → W e w) :
    (FeedController.didTapLike c cell).KeepsIn (appConduct env P W) e := by
  unfold FeedController.didTapLike
  intro client hclient
  dsimp only
  split
  next post user hpost htab =>
    have hP : P post := (hclient.feeds c).cells cell post hpost
    have hme : ∀ uid, e.currentUid = some uid → uid = me := fun uid => uid_eq henv he
    refine keepsIn_inFeed (fun feed hfeed => ?_) ?_
    · exact holds_mapCell_updatePost hfeed (g := id) (fun _ => rfl)
        fun shown hshown => hlaw.flag _ _ hshown
    · split
      next =>
        -- an unlike: the guard on the count also covers the completion
        refine keepsIn_unlikePost (fun hlikes => hW e _ he (.unlikeCount post hP hlikes)) ?_ ?_ ?_
        · intro uid huid
          rw [hme uid huid]
          exact hW e _ he (.likeMark post.postId false)
        · intro uid huid e' he'
          rw [hme uid huid]
          exact hW e' _ he' (.likeCopy post.postId false)
        · intro hlikes error e' _
          exact keepsIn_didUnlike hlaw hP hlikes fun e'' he'' id =>
            hW e'' _ he'' (.unlikeNotice post id hP)
      next =>
        -- a like: its completion runs in a later turn of the same account
        refine keepsIn_likePost (hW e _ he (.likeCount post hP)) ?_ ?_ ?_
        · intro uid huid
          rw [hme uid huid]
          exact hW e _ he (.likeMark post.postId true)
        · intro uid huid e' he'
          rw [hme uid huid]
          exact hW e' _ he' (.likeCopy post.postId true)
        · intro error e' he'
          exact keepsIn_didLike hlaw henv he' hP fun hne =>
            hW e' _ he' (.likeNotice post user hP hne)
  next => trivial

/-- The options sheet takes the post of the cell. -/
theorem keepsIn_wantsToShowOptions {c cell : Nat} :
    (FeedController.wantsToShowOptions c cell).KeepsIn (appConduct env P W) e := by
  unfold FeedController.wantsToShowOptions
  intro client hclient
  dsimp only
  split
  next => trivial
  next post hpost =>
    have hP : P post := (hclient.feeds c).cells cell post hpost
    have hpresent : ∀ actions : List SheetAction, ∀ client : Client, client.Holds P →
        ({ client with
            sheets := client.sheets ++ [⟨c, post, actions, true⟩] } : Client).Holds P := by
      intro actions client h
      refine { h with sheets := fun sheet hsheet => ?_ }
      rcases List.mem_append.mp hsheet with hsheet | hsheet
      · exact h.sheets sheet hsheet
      · rw [List.mem_singleton.mp hsheet]
        exact hP
    rw [Prog.keepsIn_ask]
    split
    -- the sheet of an own post needs no check
    next => exact ⟨hpresent _, trivial⟩
    next =>
      refine ⟨hpresent _, keepsIn_checkIfUserIsFollowed fun isFollowed _ _ => ?_⟩
      exact ⟨fun _ h => h.mapSheet fun _ => rfl, trivial⟩

/-- The actions of the sheet: follow, unfollow, delete. -/
theorem keepsIn_didTapSheet (hlaw : PostLaw P) (henv : ∀ e, env e → e.currentUid = some me)
    (he : env e) {k : Nat} {action : SheetAction}
    (hW : ∀ e w, env e → (Action.sheetTap k action).Writes P me e w → W e w) :
    (FeedController.didTapSheet k action).KeepsIn (appConduct env P W) e := by
  unfold FeedController.didTapSheet
  intro client _
  dsimp only
  -- the account is the same in every turn of the session
  have hme : ∀ e, env e → ∀ uid, e.currentUid = some uid → uid = me :=
    fun e he uid => uid_eq henv he
  split
  next => trivial
  next sheet _ =>
    split
    next =>
      refine ⟨fun _ h => h.mapSheet fun _ => rfl, ?_⟩
      cases action with
      | editPost => trivial
      | cancel => trivial
      | deletePost =>
        refine keepsIn_showLoader (keepsIn_deletePost (hW e _ he (.deletePost _))
          (fun e' he' u => hW e' _ he' (.deleteLikes u _))
          (fun e' he' u => hW e' _ he' (.deleteFeeds u _)) ?_ ?_)
        · intro uid huid e' he' id
          rw [hme e he uid huid]
          exact hW e' _ he' (.deleteNotices id)
        · intro error e' _
          exact keepsIn_showLoader (keepsIn_feedRefresh hlaw)
      | unfollow =>
        refine keepsIn_showLoader (keepsIn_unfollow ?_ ?_ ?_)
        · intro uid huid
          rw [hme e he uid huid]
          exact hW e _ he (.followMark rfl _ false)
        · intro uid huid e' he'
          rw [hme e he uid huid]
          exact hW e' _ he' (.followCopy rfl _ false)
        · intro error e' _
          exact keepsIn_showLoader trivial
      | follow =>
        refine keepsIn_showLoader (keepsIn_follow ?_ ?_ ?_)
        · intro uid huid
          rw [hme e he uid huid]
          exact hW e _ he (.followMark rfl _ true)
        · intro uid huid e' he'
          rw [hme e he uid huid]
          exact hW e' _ he' (.followCopy rfl _ true)
        · intro error e' _
          exact keepsIn_showLoader trivial
    next => trivial

/-- An assignment that leaves every held post alone. -/
theorem keepsIn_elsewhere {f : Client → Client} {rest : Program Client}
    (hf : ∀ client : Client, client.Holds P → (f client).Holds P)
    (hrest : rest.KeepsIn (appConduct env P W) e) :
    (Prog.modify f rest : Program Client).KeepsIn (appConduct env P W) e :=
  ⟨hf, hrest⟩

theorem keepsIn_tabFetchUser :
    MainTabController.fetchUser.KeepsIn (appConduct env P W) e := by
  unfold MainTabController.fetchUser
  refine keepsIn_withCurrentUid fun uid _ => keepsIn_fetchUser fun user _ _ => ?_
  exact keepsIn_elsewhere (fun _ h => { h with }) trivial

theorem keepsIn_didFinishPickingMedia {c k : Nat} {image : UIImage} :
    (FeedController.didFinishPickingMedia c k image).KeepsIn (appConduct env P W) e :=
  keepsIn_elsewhere (fun _ h => { h with }) trivial

/-! ### `UploadPostController` -/

/-- `didTapDone()` uploads the post under the user of the tab bar. -/
theorem keepsIn_didTapDone (hlaw : PostLaw P) (henv : ∀ e, env e → e.currentUid = some me)
    (he : env e) {k : Nat} {caption : String}
    (hW : ∀ e w, env e → (Action.shareTap k caption).Writes P me e w → W e w) :
    (UploadPostController.didTapDone k caption).KeepsIn (appConduct env P W) e := by
  unfold UploadPostController.didTapDone
  intro client _
  dsimp only
  split
  next image user _ _ =>
    refine keepsIn_showLoader (keepsIn_uploadPost ?_ ?_)
    · intro uid huid e' he' imageUrl
      rw [uid_eq henv he huid]
      exact hW e' _ he' (.upload imageUrl user)
    · intro error e' _
      cases error with
      | some _ => exact keepsIn_showLoader trivial
      | none => exact keepsIn_feedRefresh hlaw
  next => trivial

/-! ### `ProfileController` -/

theorem keepsIn_profileCheck {m : Nat} :
    (ProfileController.checkIfUserIsFollowed m).KeepsIn (appConduct env P W) e := by
  unfold ProfileController.checkIfUserIsFollowed
  intro client _
  refine keepsIn_checkIfUserIsFollowed fun isFollowed _ _ => ?_
  exact keepsIn_inProfile (fun _ => rfl) (fun _ => rfl) trivial

theorem keepsIn_profileStats {m : Nat} :
    (ProfileController.fetchUserStats m).KeepsIn (appConduct env P W) e := by
  unfold ProfileController.fetchUserStats
  intro client _
  refine keepsIn_fetchUserStats fun stats _ _ => ?_
  exact keepsIn_inProfile (fun _ => rfl) (fun _ => rfl) trivial

/-- `fetchPosts()` of a profile fills the grid. -/
theorem keepsIn_profileFetchPosts {m : Nat} :
    (ProfileController.fetchPosts m).KeepsIn (appConduct env P W) e := by
  unfold ProfileController.fetchPosts
  intro client _
  refine keepsIn_fetchPostsForUser fun posts hposts _ _ => ?_
  exact ⟨fun _ h => h.mapProfile (fun _ _ => hposts) (fun _ _ hc => hc), trivial⟩

theorem keepsIn_profileDidLoad {m : Nat} :
    (ProfileController.viewDidLoad m).KeepsIn (appConduct env P W) e :=
  .andThen keepsIn_profileCheck (.andThen keepsIn_profileStats keepsIn_profileFetchPosts)

/-- A profile that is pushed has no posts yet. -/
theorem keepsIn_profilePush {m : Nat} {user : User} :
    (ProfileController.push m user).KeepsIn (appConduct env P W) e := by
  unfold ProfileController.push
  intro client _
  dsimp only
  split
  next => trivial
  next => exact keepsIn_inProfile (fun _ => rfl) (fun _ => rfl) keepsIn_profileDidLoad

theorem keepsIn_showProfile {m : Nat} {uid : String} :
    (wantsToShowProfile m uid).KeepsIn (appConduct env P W) e :=
  keepsIn_fetchUser fun _ _ _ => keepsIn_profilePush

theorem keepsIn_profileRefresh {m : Nat} :
    (ProfileController.handleRefresh m).KeepsIn (appConduct env P W) e := by
  refine ⟨fun _ h => h.mapProfile (fun _ _ post hpost => ?_) (fun _ _ hc => hc), ?_⟩
  · exact absurd hpost (by simp)
  · exact keepsIn_profileFetchPosts

theorem keepsIn_profileHeader {m : Nat} :
    (ProfileController.viewForHeader m).KeepsIn (appConduct env P W) e :=
  keepsIn_inProfile (fun _ => rfl) (fun _ => rfl) trivial

/-- A grid cell takes its post from the array. -/
theorem keepsIn_profileCell {m cell row : Nat} :
    (ProfileController.cellForItemAt m cell row).KeepsIn (appConduct env P W) e := by
  refine ⟨fun _ h => h.mapProfile (fun profile hp => ?_) (fun profile hp hc => ?_), trivial⟩
  · split
    next => exact hp
    next => exact hp
  · split
    next post hpost =>
      intro i viewModel hv
      dsimp only at hv
      rw [Function.update_apply] at hv
      split at hv
      next =>
        rw [Option.mem_some_iff] at hv
        rw [← hv]
        exact hp post (List.mem_of_getElem? hpost)
      next => exact hc i viewModel hv
    next => exact hc

/-- `didSelectItemAt` pushes a feed for the post of the row. -/
theorem keepsIn_profileSelect (hlaw : PostLaw P) {m row c : Nat} :
    (ProfileController.didSelectItemAt m row c).KeepsIn (appConduct env P W) e := by
  unfold ProfileController.didSelectItemAt
  intro client hclient
  dsimp only
  split
  next post hpost =>
    exact keepsIn_feedPush hlaw (hclient.profilePosts m post (List.mem_of_getElem? hpost))
  next => trivial

/-- The header follows or unfollows, and notifies of a follow. -/
theorem keepsIn_headerTap (henv : ∀ e, env e → e.currentUid = some me)
    (he : env e) {m : Nat}
    (hW : ∀ e w, env e → (Action.headerTap m).Writes P me e w → W e w) :
    (ProfileController.didTapActionButton m).KeepsIn (appConduct env P W) e := by
  have hme : ∀ e, env e → ∀ uid, e.currentUid = some uid → uid = me :=
    fun e he uid => uid_eq henv he
  unfold ProfileController.didTapActionButton
  intro client _
  dsimp only
  split
  next user currentUser _ _ =>
    rw [Prog.keepsIn_ask]
    split
    next => trivial
    next =>
      split
      next =>
        refine keepsIn_unfollow ?_ ?_ ?_
        · intro uid huid
          rw [hme e he uid huid]
          exact hW e _ he (.followMark rfl _ false)
        · intro uid huid e' he'
          rw [hme e he uid huid]
          exact hW e' _ he' (.followCopy rfl _ false)
        · intro error e' _
          refine keepsIn_inProfile (fun _ => rfl) (fun _ => rfl) (keepsIn_deleteNotification ?_)
          intro e'' he'' id
          exact hW e'' _ he'' (.unfollowNotice user.uid id)
      next =>
        refine keepsIn_follow ?_ ?_ ?_
        · intro uid huid
          rw [hme e he uid huid]
          exact hW e _ he (.followMark rfl _ true)
        · intro uid huid e' he'
          rw [hme e he uid huid]
          exact hW e' _ he' (.followCopy rfl _ true)
        · intro error e' he'
          refine keepsIn_inProfile (fun _ => rfl) (fun _ => rfl) (keepsIn_uploadNotification ?_)
          intro uid huid hne
          obtain rfl := hme e' he' uid huid
          exact hW e' _ he' (.followNotice user.uid currentUser hne)
  next => trivial

/-! ### `NotificationsController` -/

/-- `fetchNotifications()` checks the sender of each of them. -/
theorem keepsIn_inboxFetch {n : Nat} :
    (NotificationsController.fetchNotifications n).KeepsIn (appConduct env P W) e := by
  unfold NotificationsController.fetchNotifications
  refine keepsIn_fetchNotifications fun notifications _ _ => keepsIn_inInbox ?_
  unfold NotificationsController.checkIfUserIsFollowed
  intro client _
  refine .forEach fun notification _ => ?_
  split
  next => exact keepsIn_checkIfUserIsFollowed fun isFollowed _ _ => keepsIn_inInbox trivial
  next => trivial

theorem keepsIn_inboxDidLoad {n : Nat} :
    (NotificationsController.viewDidLoad n).KeepsIn (appConduct env P W) e := by
  unfold NotificationsController.viewDidLoad
  intro client _
  dsimp only
  split
  next => trivial
  next => exact keepsIn_inInbox keepsIn_inboxFetch

/-- The notification list follows and unfollows, without notifying. -/
theorem keepsIn_inboxFollowTap (henv : ∀ e, env e → e.currentUid = some me)
    (he : env e) {n cell : Nat}
    (hW : ∀ e w, env e → (Action.inboxFollowTap n cell).Writes P me e w → W e w) :
    (NotificationsController.handleFollowTapped n cell).KeepsIn (appConduct env P W) e := by
  have hme : ∀ uid, e.currentUid = some uid → uid = me := fun uid => uid_eq henv he
  unfold NotificationsController.handleFollowTapped
  intro client _
  dsimp only
  split
  next => trivial
  next notification _ =>
    refine keepsIn_showLoader ?_
    split
    next =>
      refine keepsIn_unfollow ?_ ?_ fun _ _ _ => keepsIn_showLoader (keepsIn_inInbox trivial)
      · intro uid huid
        rw [hme uid huid]
        exact hW e _ he (.followMark rfl _ false)
      · intro uid huid e' he'
        rw [hme uid huid]
        exact hW e' _ he' (.followCopy rfl _ false)
    next =>
      refine keepsIn_follow ?_ ?_ fun _ _ _ => keepsIn_showLoader (keepsIn_inInbox trivial)
      · intro uid huid
        rw [hme uid huid]
        exact hW e _ he (.followMark rfl _ true)
      · intro uid huid e' he'
        rw [hme uid huid]
        exact hW e' _ he' (.followCopy rfl _ true)

/-- `handlePostTapped` fetches the post and pushes a feed for it. -/
theorem keepsIn_inboxPostTap (hlaw : PostLaw P) {n cell c : Nat} :
    (NotificationsController.handlePostTapped n cell c).KeepsIn (appConduct env P W) e := by
  unfold NotificationsController.handlePostTapped
  intro client _
  dsimp only
  split
  next => trivial
  next =>
    exact keepsIn_fetchPost fun post hpost _ _ => keepsIn_showLoader (keepsIn_feedPush hlaw hpost)

/-! ### `SearchController` -/

/-- The search screen fetches all posts. -/
theorem keepsIn_searchFetchPosts {n : Nat} :
    (SearchController.fetchPosts n).KeepsIn (appConduct env P W) e := by
  unfold SearchController.fetchPosts
  intro client _
  dsimp only
  split
  next => trivial
  next =>
    refine ⟨fun _ h => h.mapSearch (fun _ hp => hp) (fun _ _ hc => hc), ?_⟩
    refine keepsIn_fetchPosts fun posts hposts _ _ => ?_
    exact ⟨fun _ h => h.mapSearch (fun _ _ => hposts) (fun _ _ hc => hc), trivial⟩

theorem keepsIn_searchCell {n cell item : Nat} :
    (SearchController.cellForItemAt n cell item).KeepsIn (appConduct env P W) e := by
  refine ⟨fun _ h => h.mapSearch (fun search hp => ?_) (fun search hp hc => ?_), trivial⟩
  · split
    next => exact hp
    next => exact hp
  · split
    next post hpost =>
      intro i viewModel hv
      dsimp only at hv
      rw [Function.update_apply] at hv
      split at hv
      next =>
        rw [Option.mem_some_iff] at hv
        rw [← hv]
        exact hp post (List.mem_of_getElem? hpost)
      next => exact hc i viewModel hv
    next => exact hc

/-- It pushes a feed for the post of the item. -/
theorem keepsIn_searchSelect (hlaw : PostLaw P) {n item c : Nat} :
    (SearchController.didSelectItemAt n item c).KeepsIn (appConduct env P W) e := by
  unfold SearchController.didSelectItemAt
  intro client hclient
  dsimp only
  split
  next post hpost =>
    exact keepsIn_feedPush hlaw (hclient.searchPosts n post (List.mem_of_getElem? hpost))
  next => trivial

/-! ### `CommentController` -/

/-- The comment screen takes the post of the cell it was opened from. -/
theorem keepsIn_commentPush {c cell d : Nat} :
    (CommentController.push c cell d).KeepsIn (appConduct env P W) e := by
  refine keepsIn_elsewhere (fun client h => ?_) trivial
  split
  next post _ hpost =>
    refine { h with comments := fun d' p hp => ?_ }
    dsimp only [Client.mapComments] at hp
    rw [Function.update_apply] at hp
    split at hp
    next =>
      obtain rfl : post = p := Option.some.inj hp
      exact (h.feeds c).cells cell post hpost
    next => exact h.comments d' p hp
  next => exact h

theorem keepsIn_inInputView {d : Nat} {text : String} {rest : Program Client}
    (h : rest.KeepsIn (appConduct env P W) e) :
    (inInputView d text rest).KeepsIn (appConduct env P W) e := by
  refine keepsIn_elsewhere (fun client hclient => ?_) h
  refine { hclient with comments := fun d' p hp => ?_ }
  dsimp only [Client.mapComments] at hp
  rw [Function.update_apply] at hp
  split at hp
  next => exact hclient.comments d p hp
  next => exact hclient.comments d' p hp

/-- `handlePostTapped` of the comment screen uploads the comment and notifies the owner. -/
theorem keepsIn_postComment (henv : ∀ e, env e → e.currentUid = some me)
    (he : env e) {d : Nat} {comment : String}
    (hW : ∀ e w, env e → (Action.postComment d comment).Writes P me e w → W e w) :
    (CommentController.handlePostTapped d comment).KeepsIn (appConduct env P W) e := by
  refine keepsIn_inInputView ?_
  unfold CommentController.wantsToUploadComment
  intro client hclient
  dsimp only
  split
  next post currentUser hpost _ =>
    have hP : P post := hclient.comments d post hpost
    refine keepsIn_showLoader (keepsIn_uploadComment (hW e _ he (.comment post currentUser hP)) ?_)
    intro error e' he'
    refine keepsIn_showLoader (keepsIn_inInputView ?_)
    refine keepsIn_uploadNotification fun uid huid hne => ?_
    obtain rfl := uid_eq henv he' huid
    exact hW e' _ he' (.commentNotice post currentUser hP hne)
  next => trivial

/-- **The app keeps its contract.** An action and all its callbacks keep every held post
in `P` and issue only writes that `W` allows, as soon as `W` allows what `Writes` lists
for the action. -/
theorem Action.keeps (hlaw : PostLaw P) (henv : ∀ e, env e → e.currentUid = some me) (a : Action)
    (hW : ∀ e w, env e → a.Writes P me e w → W e w) :
    a.program.Keeps (appConduct env P W) := by
  intro e he
  cases a with
  | tabDidLoad => exact keepsIn_tabFetchUser
  | feedDidLoad c => exact keepsIn_feedDidLoad hlaw
  | feedRefresh c => exact keepsIn_feedRefresh hlaw
  | feedCell c cell row => exact keepsIn_feedCell
  | likeTap c cell => exact keepsIn_didTapLike hlaw henv he hW
  | optionsTap c cell => exact keepsIn_wantsToShowOptions
  | sheetTap k action => exact keepsIn_didTapSheet hlaw henv he hW
  | commentsTap c cell d => exact keepsIn_commentPush
  | postComment d comment => exact keepsIn_postComment henv he hW
  | pickImage c k image => exact keepsIn_didFinishPickingMedia
  | shareTap k caption => exact keepsIn_didTapDone hlaw henv he hW
  | showProfile m uid => exact keepsIn_showProfile
  | profileRefresh m => exact keepsIn_profileRefresh
  | profileHeader m => exact keepsIn_profileHeader
  | profileCell m cell row => exact keepsIn_profileCell
  | profileSelect m row c => exact keepsIn_profileSelect hlaw
  | headerTap m => exact keepsIn_headerTap henv he hW
  | inboxDidLoad n => exact keepsIn_inboxDidLoad
  | inboxRefresh n => exact keepsIn_inInbox keepsIn_inboxFetch
  | inboxCell n cell row => exact keepsIn_inInbox trivial
  | inboxFollowTap n cell => exact keepsIn_inboxFollowTap henv he hW
  | inboxPostTap n cell c => exact keepsIn_inboxPostTap hlaw
  | searchDidLoad n => exact keepsIn_searchFetchPosts
  | searchCell n cell item => exact keepsIn_searchCell
  | searchSelect n item c => exact keepsIn_searchSelect hlaw

end Controllers

end InstaClone
