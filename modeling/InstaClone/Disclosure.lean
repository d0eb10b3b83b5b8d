import InstaClone.Past

/-!
# Who gets to see what

A query is answered whatever it asks for, so it is up to the app what a device gets to see.
`Disclosed` is the policy that the code keeps to when it reads, as `Permitted` is when it
writes. Users, posts, comments and relations are for everybody. A notification is for who has
got it or sent it, a message for the two sides of its conversation, and what somebody likes is
for himself. The feeds that follow a user are for nobody: no screen reads them.

A request is discreet if whatever it may be answered with is disclosed, and every request of
the app is (`ScreenAction.discreet`), also the ones of a listener, which asks again for what a
screen has asked for long ago. With it goes where the notifications of an inbox come from:
they have been sent to an account of the device, by somebody else (`inbox_addressed`).
-/

namespace InstaClone

open Async
open Screens (onClient onEdit)

/-! ## The policy -/

/-- **The policy.** The documents that a device with the accounts `mine` gets to see. -/
inductive Disclosed (mine : String → Prop) : Path → Doc → Prop
  /-- Users, posts, comments, likes and relations are public. -/
  | user (uid : String) (d : Doc) : Disclosed mine ["users", uid] d
  | post (postId : String) (d : Doc) : Disclosed mine ["posts", postId] d
  | comment (postId id : String) (d : Doc) : Disclosed mine ["posts", postId, "comments", id] d
  | liker (postId uid : String) (d : Doc) : Disclosed mine ["posts", postId, "post-likes", uid] d
  | followed (uid user : String) (d : Doc) :
      Disclosed mine ["following", uid, "user-following", user] d
  | follower (user uid : String) (d : Doc) :
      Disclosed mine ["followers", user, "user-followers", uid] d
  /-- What one likes is one's own. -/
  | like {uid : String} (huid : mine uid) (postId : String) (d : Doc) :
      Disclosed mine ["users", uid, "user-likes", postId] d
  /-- A notification is seen by who has got it, -/
  | received {uid : String} (huid : mine uid) (id : String) (d : Doc) :
      Disclosed mine ["notifications", uid, "user-notifications", id] d
  /-- and by who has sent it. -/
  | sent {uid : String} (huid : mine uid) (owner id : String) {d : Doc}
      (hsender : d.string "uid" = some uid) :
      Disclosed mine ["notifications", owner, "user-notifications", id] d
  /-- One's copy of a message that one has sent or received. -/
  | message {uid : String} (huid : mine uid) (coll id : String) {d : Doc}
      (hside : d.string "fromId" = some uid ∨ d.string "toId" = some uid) :
      Disclosed mine ["messages", uid, coll, id] d

/-- Whatever the request may be answered with is disclosed. -/
def Terms.Discreet (T : Terms) : Request → Prop
  | .getDocument path => ∀ d, T.stored path d → Disclosed T.account path d
  | .getDocuments q =>
    ∀ id d, T.stored (q.collection ++ [id]) d → q.selects (id, d) = true →
      Disclosed T.account (q.collection ++ [id]) d
  | _ => True

/-- The documents an answer hands over. -/
def handedOver : (r : Request) → Response r → List (Path × Doc)
  | .getDocument path, y => (y.bind (·.data)).toList.map fun d => (path, d)
  | .getDocuments q, y => (y.getD []).map fun x => (q.collection ++ [x.1], x.2)
  | _, _ => []

/-- What a discreet request is answered with is disclosed. -/
theorem Terms.Discreet.disclosed {T : Terms} {r : Request} (h : T.Discreet r) {y : Response r}
    (hy : T.Replies r y) : ∀ x ∈ handedOver r y, Disclosed T.account x.1 x.2 := by
  intro x hx
  cases r with
  | getDocument path =>
    obtain ⟨d, hd, rfl⟩ := List.mem_map.mp hx
    obtain ⟨snapshot, hsnapshot, hdata⟩ := Option.bind_eq_some_iff.mp (Option.mem_toList.mp hd)
    exact h d ((hy snapshot hsnapshot).2 d hdata)
  | getDocuments q =>
    obtain ⟨document, hdocument, rfl⟩ := List.mem_map.mp hx
    cases y with
    | none => exact absurd hdocument List.not_mem_nil
    | some documents =>
      obtain ⟨hstored, hselects⟩ := hy documents rfl document hdocument
      exact h document.1 document.2 hstored hselects
  | _ => exact absurd hx List.not_mem_nil

/-! ## Queries -/

section Queries

variable {T : Terms}

/-- A query of a collection that is disclosed as a whole. -/
theorem discreet_of_all {q : Query} {collection : Path} (hcoll : q.collection = collection)
    (h : ∀ id d, Disclosed T.account (collection ++ [id]) d) : T.Discreet (.getDocuments q) := by
  subst hcoll
  exact fun id d _ _ => h id d

/-- Any query of the posts, -/
theorem discreet_posts {q : Query} (hcoll : q.collection = ["posts"]) :
    T.Discreet (.getDocuments q) := discreet_of_all hcoll fun id d => .post id d

/-- of the comments on one, -/
theorem discreet_comments {q : Query} {postId : String}
    (hcoll : q.collection = ["posts", postId, "comments"]) : T.Discreet (.getDocuments q) :=
  discreet_of_all hcoll fun id d => .comment postId id d

/-- or of the users is discreet. -/
theorem discreet_users {q : Query} (hcoll : q.collection = ["users"]) :
    T.Discreet (.getDocuments q) := discreet_of_all hcoll fun id d => .user id d

/-- Nothing is stored there. -/
theorem discreet_unstored {q : Query} {uid : String}
    (hT : ∀ path d, T.stored path d → Conforms path d)
    (hcoll : q.collection = ["followers", uid, "user-follwers"]) :
    T.Discreet (.getDocuments q) := by
  intro id d hstored _
  rw [hcoll] at hstored
  obtain ⟨schema, hschema, -⟩ := (hT _ d hstored).fits
  exact absurd hschema (by simp [schemaOf])

/-- The copies of an account are of messages it has sent or received. -/
theorem discreet_messages {q : Query} {uid coll : String}
    (hT : ∀ path d, T.stored path d → Conforms path d) (huid : T.account uid)
    (hcoll : q.collection = ["messages", uid, coll]) : T.Discreet (.getDocuments q) := by
  intro id d hstored _
  rw [hcoll] at hstored ⊢
  refine .message huid coll id ?_
  obtain ⟨sender, receiver, hsender, hreceiver, hsides⟩ :=
    (hT _ d hstored).message uid coll id rfl
  have howner : uid = sender ∨ uid = receiver := by
    rcases hsides with hsides | ⟨-, hsides⟩
    · exact sides_owner hsides
    · exact sides_owner hsides
  rcases howner with rfl | rfl
  · exact Or.inl hsender
  · exact Or.inr hreceiver

end Queries

/-! ## The contract -/

/-- The notification has been decoded from one that is stored for an account of the device. Its
flag is the device's own. -/
def Terms.Addressed (T : Terms) (notification : Notification) : Prop :=
  ∃ uid id d now isFollowed, T.account uid
    ∧ T.stored ["notifications", uid, "user-notifications", id] d
    ∧ notification = { Notification.init now d with userIsFollowed := isFollowed }

/-- Flagging a notification leaves it addressed. -/
theorem Terms.Addressed.flag {T : Terms} {notification : Notification}
    (h : T.Addressed notification) (isFollowed : Bool) :
    T.Addressed { notification with userIsFollowed := isFollowed } := by
  obtain ⟨uid, id, d, now, old, huid, hd, rfl⟩ := h
  exact ⟨uid, id, d, now, isFollowed, huid, hd, rfl⟩

/-- All notifications of the inbox are. -/
structure NotificationsController.Addressed (T : Terms) (inbox : NotificationsController) :
    Prop where
  notifications : ∀ notification ∈ inbox.notifications, T.Addressed notification
  cells : ∀ cell, ∀ notification ∈ (inbox.cells cell).viewModel, T.Addressed notification

/-- The contract of a session that reads what it may. -/
def Terms.reading (T : Terms) : Contract Request Response Turn Client where
  env := T.contract.env
  state client := ∀ n, (client.inboxes n).Addressed T
  req _ r := T.Discreet r
  resp := T.Replies

section Services

variable {T : Terms} {e : Turn} {σ : Type} {C : Contract Request Response Turn σ}

/-- A contract of sessions that read what they may. -/
structure Terms.Oversees (T : Terms) (C : Contract Request Response Turn σ) : Prop where
  env : C.env = T.reading.env
  req : C.req = T.reading.req
  resp : C.resp = T.reading.resp

theorem Terms.oversees_reading (T : Terms) : T.Oversees T.reading := ⟨rfl, rfl, rfl⟩

/-- It stays the contract of reads when more is asked of the state. -/
theorem Terms.oversees_within (T : Terms) (state : σ → Prop) :
    T.Oversees (T.reading.within state) := ⟨rfl, rfl, rfl⟩

variable (hC : T.Oversees C)

include hC

/-- The body reads for an account of the device. -/
theorem discreet_withCurrentUid (he : C.env e) {body : String → Program σ}
    (h : ∀ uid, T.account uid → (body uid).KeepsIn C e) : (withCurrentUid body).KeepsIn C e := by
  unfold withCurrentUid
  rw [Prog.keepsIn_ask]
  rw [hC.env] at he
  split
  next uid huid => exact h uid (he uid huid)
  next => trivial

/-- A discreet request, whose callback may count on what is stored. -/
theorem discreet_call {r : Request} {k : Response r → Program σ} (hr : T.Discreet r)
    (hk : ∀ y, T.Replies r y → (k y).Keeps C) : (Prog.call r k .done : Program σ).KeepsIn C e := by
  refine ⟨?_, fun y hy => hk y ?_, trivial⟩
  · rw [hC.req]
    exact hr
  · rw [hC.resp] at hy
    exact hy

/-- What does not read is discreet. -/
theorem discreet_write {w : Write} {k : Option Error → Program σ} (hk : ∀ y, (k y).Keeps C) :
    (Prog.call (.write w) k .done : Program σ).KeepsIn C e :=
  discreet_call hC trivial fun y _ => hk y

/-- A write discloses nothing. -/
theorem discreet_silent {w : Write} :
    (Prog.call (.write w) noCompletion .done : Program σ).KeepsIn C e :=
  discreet_write hC fun _ => Prog.keeps_done

/-- Users are public, -/
theorem discreet_fetchUser {uid : String} {completion : User → Program σ}
    (hk : ∀ user, (completion user).Keeps C) :
    (UserService.fetchUser uid completion).KeepsIn C e := by
  refine discreet_call hC (fun d _ => .user uid d) fun snapshot _ => ?_
  split
  next => exact Prog.keeps_done
  next => exact hk _

/-- and so are posts, -/
theorem discreet_fetchPost {postId : String} {completion : Post → Program σ}
    (hk : ∀ post, (completion post).Keeps C) :
    (PostService.fetchPost postId completion).KeepsIn C e := by
  refine discreet_call hC (fun d _ => .post postId d) fun snapshot _ => ?_
  split
  next => exact Prog.keeps_done
  next =>
    split
    next => exact Prog.keeps_done
    next => exact fun e' he' => hk _ e' he'

/-- all of them, -/
theorem discreet_fetchPosts {completion : List Post → Program σ}
    (hk : ∀ posts, (completion posts).Keeps C) :
    (PostService.fetchPosts completion).KeepsIn C e := by
  refine discreet_call hC (discreet_posts rfl) fun snapshot _ => ?_
  split
  next => exact Prog.keeps_done
  next => exact fun e' he' => hk _ e' he'

/-- or those of one owner. -/
theorem discreet_fetchPostsForUser {uid : String} {completion : List Post → Program σ}
    (hk : ∀ posts, (completion posts).Keeps C) :
    (PostService.fetchPostsForUser uid completion).KeepsIn C e := by
  refine discreet_call hC (discreet_posts rfl) fun snapshot _ => ?_
  split
  next => exact Prog.keeps_done
  next => exact fun e' he' => hk _ e' he'

/-- Whether the account likes a post is its own affair. -/
theorem discreet_checkIfUserLikedPost {post : Post} {completion : Bool → Program σ}
    (he : C.env e) (hk : ∀ didLike, (completion didLike).Keeps C) :
    (PostService.checkIfUserLikedPost post completion).KeepsIn C e := by
  refine discreet_withCurrentUid hC he fun uid huid => ?_
  refine discreet_call hC (fun d _ => .like huid post.postId d) fun snapshot _ => ?_
  split
  next => exact Prog.keeps_done
  next => exact hk _

/-- Whom it follows is public, -/
theorem discreet_checkIfUserIsFollowed {uid : String} {completion : Bool → Program σ}
    (he : C.env e) (hk : ∀ isFollowed, (completion isFollowed).Keeps C) :
    (UserService.checkIfUserIsFollowed uid completion).KeepsIn C e := by
  refine discreet_withCurrentUid hC he fun currentUid _ => ?_
  refine discreet_call hC (fun d _ => .followed currentUid uid d) fun snapshot _ => ?_
  split
  next => exact Prog.keeps_done
  next => exact hk _

/-- and so is who follows whom, which the statistics count. -/
theorem discreet_fetchUserStats {uid : String} {completion : UserStats → Program σ}
    (hk : ∀ stats, (completion stats).Keeps C) :
    (UserService.fetchUserStats uid completion).KeepsIn C e := by
  refine discreet_call hC (fun id d _ _ => .follower uid id d) fun followers _ e₁ _ => ?_
  refine discreet_call hC (fun id d _ _ => .followed uid id d) fun following _ e₂ _ => ?_
  exact discreet_call hC (discreet_posts rfl) fun posts _ => hk _

/-- A like reads nothing, -/
theorem discreet_likePost {post : Post} {completion : Option Error → Program σ} (he : C.env e)
    (hk : ∀ y, (completion y).Keeps C) :
    (PostService.likePost post completion).KeepsIn C e := by
  refine discreet_withCurrentUid hC he fun uid _ => .andThen (discreet_silent hC) ?_
  exact discreet_write hC fun _ e' _ => discreet_write hC hk

/-- nor does an unlike, -/
theorem discreet_unlikePost {post : Post} {completion : Option Error → Program σ} (he : C.env e)
    (hk : ∀ y, (completion y).Keeps C) :
    (PostService.unlikePost post completion).KeepsIn C e := by
  refine discreet_withCurrentUid hC he fun uid _ => ?_
  split
  next =>
    refine .andThen (discreet_silent hC) ?_
    exact discreet_write hC fun _ e' _ => discreet_write hC hk
  next => trivial

/-- a follow -/
theorem discreet_follow {user : String} {completion : Option Error → Program σ} (he : C.env e)
    (hk : ∀ y, (completion y).Keeps C) : (UserService.follow user completion).KeepsIn C e :=
  discreet_withCurrentUid hC he fun _ _ =>
    discreet_write hC fun _ _ _ => discreet_write hC hk

/-- or an unfollow. -/
theorem discreet_unfollow {user : String} {completion : Option Error → Program σ} (he : C.env e)
    (hk : ∀ y, (completion y).Keeps C) : (UserService.unfollow user completion).KeepsIn C e :=
  discreet_withCurrentUid hC he fun _ _ =>
    discreet_write hC fun _ _ _ => discreet_write hC hk

/-- The inbox of another is written to without being read. -/
theorem discreet_uploadNotification {uid : String} {fromUser : User} {type : NotificationType}
    {post : Option Post} (he : C.env e) :
    (NotificationService.uploadNotification uid fromUser type post).KeepsIn C e := by
  refine discreet_withCurrentUid hC he fun currentUid _ => ?_
  split
  next => trivial
  next => exact discreet_silent hC

/-- The notifications that are taken back are the account's own. -/
theorem discreet_deleteNotification {uid : String} {type : NotificationType}
    {postId : Option String} (he : C.env e) :
    (NotificationService.deleteNotification uid type postId).KeepsIn C e := by
  refine discreet_withCurrentUid hC he fun currentUid hcurrent => ?_
  refine discreet_call hC (fun id d _ hselects => ?_) fun snapshot _ e' _ => ?_
  · refine .sent hcurrent uid id ?_
    have hsender : d "uid" = some (.string currentUid) := by simpa [Query.selects] using hselects
    unfold Doc.string
    rw [hsender]
  · rw [Prog.keepsIn_ask]
    refine .forEach fun document _ => ?_
    split
    next => exact discreet_silent hC
    next => trivial

/-- Storage is asked for no document. -/
theorem discreet_uploadImage {image : UIImage} {completion : String → Program σ}
    (hk : ∀ url, (completion url).Keeps C) :
    (ImageUploader.uploadImage image completion).KeepsIn C e := by
  unfold ImageUploader.uploadImage
  split
  next => trivial
  next =>
    rw [Prog.keepsIn_ask]
    refine discreet_call hC trivial fun error _ e₁ _ => ?_
    cases error with
    | some error => trivial
    | none =>
      refine discreet_call hC trivial fun url _ => ?_
      cases url with
      | none => exact Prog.keeps_done
      | some imageUrl => exact hk imageUrl

/-- An upload reads nothing, -/
theorem discreet_uploadPost {caption : String} {image : UIImage} {user : User}
    {completion : Option Error → Program σ} (he : C.env e) (hk : ∀ y, (completion y).Keeps C) :
    (PostService.uploadPost caption image user completion).KeepsIn C e :=
  discreet_withCurrentUid hC he fun _ _ =>
    discreet_uploadImage hC fun _ _ _ => discreet_write hC hk

/-- nor does a registration, -/
theorem discreet_registerUser {credentials : AuthCredentials}
    {completion : Option Error → Program σ} (hk : ∀ y, (completion y).Keeps C) :
    (AuthService.registerUser credentials completion).KeepsIn C e := by
  -- the picture is stored before there is an account
  refine discreet_uploadImage hC fun imageUrl e₁ _ => ?_
  refine discreet_call hC trivial fun result _ e₂ _ => ?_
  split
  next => trivial
  next =>
    split
    next => trivial
    next => exact discreet_write hC hk

/-- nor the editor when it saves. -/
theorem discreet_saveUserData {user : User} {completion : Option Error → Program σ}
    (he : C.env e) (hk : ∀ y, (completion y).Keeps C) :
    (UserService.saveUserData user completion).KeepsIn C e :=
  discreet_withCurrentUid hC he fun _ _ => discreet_write hC hk

/-- The token comes from the device. -/
theorem discreet_setUserFCMToken (he : C.env e) :
    (UserService.setUserFCMToken : Program σ).KeepsIn C e := by
  refine discreet_withCurrentUid hC he fun uid _ => ?_
  rw [Prog.keepsIn_ask]
  split
  next => trivial
  next => exact discreet_silent hC

/-- A new picture looks up the posts of the account, which are public. -/
theorem discreet_updateProfileImage {user : User} {image : UIImage}
    {completion : Option String → Option Error → Program σ} (he : C.env e)
    (hk : ∀ url error, (completion url error).Keeps C) :
    (UserService.updateProfileImage user image completion).KeepsIn C e := by
  refine discreet_withCurrentUid hC he fun uid _ => ?_
  split
  -- `reference(forURL:)` ends the process
  case isFalse => trivial
  have hdelete := discreet_call (e := e) (r := .deleteObject user.profileImageUrl)
    (k := fun _ => .done) hC trivial fun _ _ => Prog.keeps_done
  refine ⟨hdelete.1, hdelete.2.1, discreet_uploadImage hC fun url e₁ _ => ?_⟩
  refine discreet_write hC fun error e₂ he₂ => ?_
  cases error with
  | some error => exact hk none (some error) e₂ he₂
  | none =>
    refine .andThen (discreet_call hC (discreet_posts rfl) fun y _ e₃ _ => ?_)
      (hk (some url) none e₂ he₂)
    split
    next => trivial
    next => exact .forEach fun document _ => discreet_silent hC

/-- The posts for the feed are public. -/
theorem discreet_updateUserFeedAfterFollowing {user : User} (he : C.env e) :
    (PostService.updateUserFeedAfterFollowing user).KeepsIn C e := by
  refine discreet_withCurrentUid hC he fun uid _ => ?_
  refine discreet_call hC (discreet_posts rfl) fun y _ e' _ => ?_
  split
  next => trivial
  next => exact .forEach fun document _ => discreet_silent hC

/-- A message is sent without reading any. -/
theorem discreet_uploadMessage {message : String} {user : User}
    {completion : Option Error → Program σ} (he : C.env e) (hk : ∀ y, (completion y).Keeps C) :
    (MessagingService.uploadMessage message user completion).KeepsIn C e := by
  refine discreet_withCurrentUid hC he fun uid _ => ?_
  refine discreet_write hC fun error e' _ => ?_
  exact .andThen (discreet_write hC hk) (.andThen (discreet_silent hC) (discreet_silent hC))

variable (hT : ∀ path d, T.stored path d → Conforms path d)

include hT

/-- The account looks up its own copies. -/
theorem discreet_deleteMessages {user : User} {completion : Option Error → Program σ}
    (he : C.env e) (hk : ∀ y, (completion y).Keeps C) :
    (MessagingService.deleteMessages user completion).KeepsIn C e := by
  refine discreet_withCurrentUid hC he fun uid huid => .andThen ?_ (discreet_write hC hk)
  -- stored copies name the account as sender or as receiver
  refine discreet_call hC (discreet_messages hT huid rfl) fun y _ e' _ => ?_
  exact .forEach fun document _ => discreet_silent hC

/-- The cascade reads the likes of the post, a collection that is always empty, and the own inbox.
-/
theorem discreet_deletePost {postId : String} {completion : Option Error → Program σ}
    (he : C.env e) (hk : ∀ y, (completion y).Keeps C) :
    (PostService.deletePost postId completion).KeepsIn C e := by
  refine discreet_withCurrentUid hC he fun uid huid => .andThen ?_ ?_
  · refine discreet_call hC (fun id d _ _ => .liker postId id d) fun snapshot _ e' _ => ?_
    split
    next => trivial
    next => exact .forEach fun document _ => discreet_silent hC
  · refine discreet_write hC fun error e₁ _ => ?_
    -- nothing is ever stored under `user-follwers`
    refine discreet_call hC (discreet_unstored hT rfl) fun snapshot _ e₂ _ => ?_
    split
    next => trivial
    next =>
      refine .andThen (.forEach fun document _ => discreet_silent hC) ?_
      refine discreet_call hC (fun id d _ _ => .received huid id d) fun snapshot _ e₃ _ => ?_
      split
      next => trivial
      next => exact .forEach fun document _ => discreet_write hC hk

end Services

/-! ## The controllers of `Client` -/

section Controllers

variable {T : Terms} {e : Turn} {rest : Program Client}

/-- An assignment to anything but an inbox. -/
theorem discreet_elsewhere {f : Client → Client}
    (hf : ∀ client, (f client).inboxes = client.inboxes)
    (hrest : rest.KeepsIn T.reading e) :
    (Prog.modify f rest : Program Client).KeepsIn T.reading e := by
  refine ⟨fun client h n => ?_, hrest⟩
  rw [hf]
  exact h n

/-- An assignment in a feed touches no inbox, -/
theorem discreet_inFeed {c : Nat} {f : FeedController → FeedController}
    (hrest : rest.KeepsIn T.reading e) : (inFeed c f rest).KeepsIn T.reading e :=
  discreet_elsewhere (fun _ => rfl) hrest

/-- nor does one in a profile. -/
theorem discreet_inProfile {m : Nat} {f : ProfileController → ProfileController}
    (hrest : rest.KeepsIn T.reading e) : (inProfile m f rest).KeepsIn T.reading e :=
  discreet_elsewhere (fun _ => rfl) hrest

theorem discreet_inInputView {d : Nat} {text : String} (hrest : rest.KeepsIn T.reading e) :
    (inInputView d text rest).KeepsIn T.reading e :=
  discreet_elsewhere (fun _ => rfl) hrest

theorem discreet_showLoader {isShown : Bool} (hrest : rest.KeepsIn T.reading e) :
    (showLoader isShown rest).KeepsIn T.reading e :=
  discreet_elsewhere (fun _ => rfl) hrest

/-- The tab bar reads the user of the account. -/
theorem discreet_tabFetchUser (he : T.reading.env e) :
    MainTabController.fetchUser.KeepsIn T.reading e := by
  refine discreet_withCurrentUid T.oversees_reading he fun uid _ => ?_
  exact discreet_fetchUser T.oversees_reading fun user _ _ =>
    discreet_elsewhere (fun _ => rfl) trivial

/-! ### `FeedController` -/

/-- Each check is of what the account likes. -/
theorem discreet_checkIfUserLikedPosts (he : T.reading.env e) {c : Nat} :
    (FeedController.checkIfUserLikedPosts c).KeepsIn T.reading e := by
  intro client _
  dsimp only
  split
  next post _ =>
    exact discreet_checkIfUserLikedPost T.oversees_reading he fun _ _ _ => discreet_inFeed trivial
  next =>
    refine .forEach fun post _ => ?_
    exact discreet_checkIfUserLikedPost T.oversees_reading he fun _ _ _ => discreet_inFeed trivial

/-- The feed shows all posts, not the user's own list. -/
theorem discreet_feedFetchPosts {c : Nat} : (FeedController.fetchPosts c).KeepsIn T.reading e := by
  intro client _
  dsimp only
  split
  next => trivial
  next =>
    refine discreet_fetchPosts T.oversees_reading fun posts e' he' => ?_
    exact discreet_inFeed (discreet_checkIfUserLikedPosts he')

theorem discreet_feedRefresh {c : Nat} : (FeedController.handleRefresh c).KeepsIn T.reading e :=
  discreet_inFeed discreet_feedFetchPosts

/-- A feed that loads reads posts, a user and checks. -/
theorem discreet_feedDidLoad (he : T.reading.env e) {c : Nat} :
    (FeedController.viewDidLoad c).KeepsIn T.reading e := by
  intro client _
  dsimp only
  split
  next => trivial
  next =>
    refine discreet_inFeed (.andThen discreet_feedFetchPosts (.andThen ?_ fun client _ => ?_))
    · refine discreet_withCurrentUid T.oversees_reading he fun uid _ => ?_
      exact discreet_fetchUser T.oversees_reading fun _ _ _ => discreet_inFeed trivial
    · dsimp only
      split
      next => exact discreet_checkIfUserLikedPosts he
      next => trivial

/-- A feed for one post reads the same. -/
theorem discreet_feedPush (he : T.reading.env e) {c : Nat} {post : Post} :
    (FeedController.push c post).KeepsIn T.reading e := by
  intro client _
  dsimp only
  split
  next => trivial
  next => exact discreet_inFeed (discreet_feedDidLoad he)

/-- The completion of an unlike queries the owner's inbox, for what the account has sent. -/
theorem discreet_didTapLike (he : T.reading.env e) {c cell : Nat} :
    (FeedController.didTapLike c cell).KeepsIn T.reading e := by
  intro client _
  dsimp only
  split
  next post user _ _ =>
    refine discreet_inFeed ?_
    split
    next =>
      refine discreet_unlikePost T.oversees_reading he fun error e' he' => ?_
      exact discreet_inFeed fun _ _ => discreet_deleteNotification T.oversees_reading he'
    next =>
      refine discreet_likePost T.oversees_reading he fun error e' he' => ?_
      exact discreet_inFeed (discreet_uploadNotification T.oversees_reading he')
  next => trivial

/-- The sheet checks whom the account follows. -/
theorem discreet_wantsToShowOptions (he : T.reading.env e) {c cell : Nat} :
    (FeedController.wantsToShowOptions c cell).KeepsIn T.reading e := by
  intro client _
  dsimp only
  split
  next => trivial
  next post _ =>
    rw [Prog.keepsIn_ask]
    split
    next => exact discreet_elsewhere (fun _ => rfl) trivial
    next =>
      refine discreet_elsewhere (fun _ => rfl) ?_
      refine discreet_checkIfUserIsFollowed T.oversees_reading he fun _ _ _ => ?_
      exact discreet_elsewhere (fun _ => rfl) trivial

/-- Its actions read what the services read. -/
theorem discreet_didTapSheet (hT : ∀ path d, T.stored path d → Conforms path d)
    (he : T.reading.env e) {k : Nat} {action : SheetAction} :
    (FeedController.didTapSheet k action).KeepsIn T.reading e := by
  have hhide : ∀ e', (showLoader false).KeepsIn T.reading e' := fun _ => discreet_showLoader trivial
  intro client _
  dsimp only
  split
  next => trivial
  next sheet _ =>
    split
    next =>
      refine discreet_elsewhere (fun _ => rfl) ?_
      cases action with
      | editPost => trivial
      | cancel => trivial
      | deletePost =>
        refine discreet_showLoader (discreet_deletePost T.oversees_reading hT he fun _ _ _ => ?_)
        exact discreet_showLoader discreet_feedRefresh
      | unfollow =>
        exact discreet_showLoader (discreet_unfollow T.oversees_reading he fun _ _ _ => hhide _)
      | follow =>
        exact discreet_showLoader (discreet_follow T.oversees_reading he fun _ _ _ => hhide _)
    next => trivial

/-- After an upload the feed is refreshed. -/
theorem discreet_didTapDone (he : T.reading.env e) {k : Nat} {caption : String} :
    (UploadPostController.didTapDone k caption).KeepsIn T.reading e := by
  intro client _
  dsimp only
  split
  next image user _ _ =>
    refine discreet_showLoader (discreet_uploadPost T.oversees_reading he fun error e' _ => ?_)
    cases error with
    | some error => exact discreet_showLoader trivial
    | none => exact discreet_feedRefresh
  next => trivial

/-! ### `ProfileController` -/

theorem discreet_profileFetchPosts {m : Nat} :
    (ProfileController.fetchPosts m).KeepsIn T.reading e :=
  fun _ _ => discreet_fetchPostsForUser T.oversees_reading fun _ _ _ => discreet_inProfile trivial

/-- A profile reads what is public. -/
theorem discreet_profilePush (he : T.reading.env e) {m : Nat} {user : User} :
    (ProfileController.push m user).KeepsIn T.reading e := by
  intro client _
  dsimp only
  split
  next => trivial
  next =>
    refine discreet_inProfile (.andThen (fun client _ => ?_) (.andThen (fun client _ => ?_) ?_))
    · refine discreet_checkIfUserIsFollowed T.oversees_reading he fun _ _ _ => ?_
      exact discreet_inProfile trivial
    · exact discreet_fetchUserStats T.oversees_reading fun _ _ _ => discreet_inProfile trivial
    · exact discreet_profileFetchPosts

/-- So does one whose user is read first. -/
theorem discreet_showProfile {m : Nat} {uid : String} :
    (wantsToShowProfile m uid).KeepsIn T.reading e :=
  discreet_fetchUser T.oversees_reading fun _ _ he' => discreet_profilePush he'

theorem discreet_profileSelect (he : T.reading.env e) {m row c : Nat} :
    (ProfileController.didSelectItemAt m row c).KeepsIn T.reading e := by
  intro client _
  dsimp only
  split
  next => exact discreet_feedPush he
  next => trivial

/-- An unfollow queries the other's inbox, for what the account has sent. -/
theorem discreet_headerTap (he : T.reading.env e) {m : Nat} :
    (ProfileController.didTapActionButton m).KeepsIn T.reading e := by
  intro client _
  dsimp only
  split
  next user currentUser _ _ =>
    rw [Prog.keepsIn_ask]
    split
    next => trivial
    next =>
      split
      next =>
        refine discreet_unfollow T.oversees_reading he fun error e' he' => ?_
        exact discreet_inProfile (discreet_deleteNotification T.oversees_reading he')
      next =>
        refine discreet_follow T.oversees_reading he fun error e' he' => ?_
        exact discreet_inProfile (discreet_uploadNotification T.oversees_reading he')
  next => trivial

/-! ### `NotificationsController` -/

/-- An assignment to an inbox that keeps its notifications addressed. -/
theorem discreet_inInbox {n : Nat} {f : NotificationsController → NotificationsController}
    (hf : ∀ inbox : NotificationsController, inbox.Addressed T → (f inbox).Addressed T)
    (hrest : rest.KeepsIn T.reading e) : (inInbox n f rest).KeepsIn T.reading e := by
  refine ⟨fun client h n' => ?_, hrest⟩
  show NotificationsController.Addressed T (Function.update client.inboxes n _ n')
  by_cases hn : n' = n
  · subst hn
    rw [Function.update_self]
    exact hf _ (h n')
  · rw [Function.update_of_ne hn]
    exact h n'

/-- The array is replaced by notifications that are addressed. -/
theorem addressed_setNotifications {inbox : NotificationsController} (h : inbox.Addressed T)
    {notifications : List Notification}
    (hall : ∀ notification ∈ notifications, T.Addressed notification) :
    (inbox.setNotifications notifications).Addressed T := ⟨hall, h.cells⟩

/-- The flag that is set is none of what makes a notification addressed. -/
theorem discreet_didCheck {n : Nat} {id : String} {isFollowed : Bool} :
    (NotificationsController.didCheck n id isFollowed).KeepsIn T.reading e := by
  refine discreet_inInbox (fun inbox h => ?_) trivial
  split
  next index _ =>
    refine addressed_setNotifications h fun notification hmem => ?_
    obtain ⟨i, hi, rfl⟩ := List.mem_iff_getElem.mp hmem
    rw [List.length_modify] at hi
    rw [List.getElem_modify]
    have hold := h.notifications _ (List.getElem_mem hi)
    split
    next => exact hold.flag isFollowed
    next => exact hold
  next => exact h

/-- The senders are checked, which is public. -/
theorem discreet_checkFollowed (he : T.reading.env e) {n : Nat} :
    (NotificationsController.checkIfUserIsFollowed n).KeepsIn T.reading e := by
  intro client _
  refine .forEach fun notification _ => ?_
  split
  next =>
    exact discreet_checkIfUserIsFollowed T.oversees_reading he fun _ _ _ => discreet_didCheck
  next => trivial

/-- What is fetched is addressed to the account. -/
theorem discreet_inboxFetch (he : T.reading.env e) {n : Nat} :
    (NotificationsController.fetchNotifications n).KeepsIn T.reading e := by
  refine discreet_withCurrentUid T.oversees_reading he fun uid huid => ?_
  refine discreet_call T.oversees_reading (fun id d _ _ => .received huid id d)
    fun snapshot hsnapshot e' he' => ?_
  cases snapshot with
  | none => trivial
  | some documents =>
    refine discreet_inInbox
      (fun inbox h => addressed_setNotifications h fun notification hmem => ?_)
      (discreet_checkFollowed he')
    -- each of them was listed in the inbox of the account that asked
    obtain ⟨document, hdocument, rfl⟩ := List.mem_map.mp hmem
    exact ⟨uid, document.1, document.2, e'.now, false, huid,
      (hsnapshot documents rfl document hdocument).1, rfl⟩

/-- The notification list reads the inbox of the account. -/
theorem discreet_inboxDidLoad (he : T.reading.env e) {n : Nat} :
    (NotificationsController.viewDidLoad n).KeepsIn T.reading e := by
  intro client _
  dsimp only
  split
  next => trivial
  next => exact discreet_inInbox (fun _ h => ⟨h.notifications, h.cells⟩) (discreet_inboxFetch he)

theorem discreet_inboxRefresh (he : T.reading.env e) {n : Nat} :
    (NotificationsController.handleRefresh n).KeepsIn T.reading e :=
  -- the array is emptied before it is fetched again
  discreet_inInbox
    (fun _ h => addressed_setNotifications h fun _ hmem => absurd hmem List.not_mem_nil)
    (discreet_inboxFetch he)

/-- An assignment to a cell. -/
theorem addressed_mapCell {inbox : NotificationsController} (h : inbox.Addressed T) {cell : Nat}
    {f : NotificationCell → NotificationCell}
    (hf : ∀ notification ∈ (f (inbox.cells cell)).viewModel, T.Addressed notification) :
    (inbox.mapCell cell f).Addressed T := by
  refine ⟨h.notifications, fun cell' => ?_⟩
  show ∀ notification ∈ (Function.update inbox.cells cell _ cell').viewModel, _
  by_cases hcell : cell' = cell
  · subst hcell
    rw [Function.update_self]
    exact hf
  · rw [Function.update_of_ne hcell]
    exact h.cells cell'

/-- A cell takes a notification of the array. -/
theorem discreet_inboxCell {n cell row : Nat} :
    (NotificationsController.cellForRowAt n cell row).KeepsIn T.reading e := by
  refine discreet_inInbox (fun inbox h => ?_) trivial
  split
  next notification hrow =>
    refine addressed_mapCell h fun shown hshown => ?_
    rw [← Option.some.inj hshown]
    exact h.notifications notification (List.mem_of_getElem? hrow)
  next => exact h

/-- The completion toggles the flag of a cell. -/
theorem discreet_inboxFollowTap (he : T.reading.env e) {n cell : Nat} :
    (NotificationsController.handleFollowTapped n cell).KeepsIn T.reading e := by
  have htoggle : ∀ error e',
      (NotificationsController.didToggle n cell error).KeepsIn T.reading e' := by
    intro error e'
    refine discreet_showLoader (discreet_inInbox (fun inbox h => ?_) trivial)
    refine addressed_mapCell h fun shown hshown => ?_
    obtain ⟨old, hold, rfl⟩ := Option.map_eq_some_iff.mp hshown
    exact (h.cells cell old hold).flag _
  intro client _
  dsimp only
  split
  next => trivial
  next notification _ =>
    refine discreet_showLoader ?_
    split
    next => exact discreet_unfollow T.oversees_reading he fun error e' _ => htoggle error e'
    next => exact discreet_follow T.oversees_reading he fun error e' _ => htoggle error e'

/-- The post of a notification is public, -/
theorem discreet_inboxPostTap {n cell c : Nat} :
    (NotificationsController.handlePostTapped n cell c).KeepsIn T.reading e := by
  intro client _
  dsimp only
  split
  next => trivial
  next =>
    refine discreet_fetchPost T.oversees_reading fun post _ he' => ?_
    exact discreet_showLoader (discreet_feedPush he')

/-- and so is its sender. -/
theorem discreet_inboxSelect {n row m : Nat} :
    (NotificationsController.didSelectRowAt n row m).KeepsIn T.reading e := by
  intro client _
  dsimp only
  split
  next =>
    refine discreet_showLoader (discreet_fetchUser T.oversees_reading fun user _ he' => ?_)
    exact discreet_showLoader (discreet_profilePush he')
  next => trivial

/-! ### `SearchController` and `CommentController` -/

theorem discreet_searchFetchPosts {n : Nat} :
    (SearchController.fetchPosts n).KeepsIn T.reading e := by
  intro client _
  dsimp only
  split
  next => trivial
  next =>
    refine discreet_elsewhere (fun _ => rfl) ?_
    exact discreet_fetchPosts T.oversees_reading fun _ _ _ =>
      discreet_elsewhere (fun _ => rfl) trivial

/-- The search grid opens a feed of one post. -/
theorem discreet_searchSelect (he : T.reading.env e) {n item c : Nat} :
    (SearchController.didSelectItemAt n item c).KeepsIn T.reading e := by
  intro client _
  dsimp only
  split
  next => exact discreet_feedPush he
  next => trivial

theorem discreet_commentPush {c cell d : Nat} :
    (CommentController.push c cell d).KeepsIn T.reading e := by
  refine discreet_elsewhere (fun client => ?_) trivial
  split
  next => rfl
  next => rfl

/-- A comment is written, and its owner notified, without reading. -/
theorem discreet_postComment {d : Nat} {comment : String} :
    (CommentController.handlePostTapped d comment).KeepsIn T.reading e := by
  refine discreet_inInputView fun client _ => ?_
  dsimp only
  split
  next post currentUser _ _ =>
    refine discreet_showLoader ?_
    show Prog.KeepsIn T.reading (Prog.ask _) e
    rw [Prog.keepsIn_ask]
    refine discreet_write T.oversees_reading fun error e' he' => ?_
    refine discreet_showLoader (discreet_inInputView ?_)
    exact discreet_uploadNotification T.oversees_reading he'
  next => trivial

/-- All actions of the tabs are discreet. -/
theorem Action.discreet (a : Action) (hT : ∀ path d, T.stored path d → Conforms path d) :
    a.program.Keeps T.reading := by
  intro e he
  cases a with
  | tabDidLoad => exact discreet_tabFetchUser he
  | feedDidLoad c => exact discreet_feedDidLoad he
  | feedRefresh c => exact discreet_feedRefresh
  | feedCell c cell row => exact discreet_inFeed trivial
  | likeTap c cell => exact discreet_didTapLike he
  | optionsTap c cell => exact discreet_wantsToShowOptions he
  | sheetTap k action => exact discreet_didTapSheet hT he
  | commentsTap c cell d => exact discreet_commentPush
  | postComment d comment => exact discreet_postComment
  | pickImage c k image => exact discreet_elsewhere (fun _ => rfl) trivial
  | shareTap k caption => exact discreet_didTapDone he
  | showProfile m uid => exact discreet_showProfile
  | profileRefresh m => exact discreet_inProfile discreet_profileFetchPosts
  | profileHeader m => exact discreet_inProfile trivial
  | profileCell m cell row => exact discreet_inProfile trivial
  | profileSelect m row c => exact discreet_profileSelect he
  | headerTap m => exact discreet_headerTap he
  | inboxDidLoad n => exact discreet_inboxDidLoad he
  | inboxRefresh n => exact discreet_inboxRefresh he
  | inboxCell n cell row => exact discreet_inboxCell
  | inboxFollowTap n cell => exact discreet_inboxFollowTap he
  | inboxPostTap n cell c => exact discreet_inboxPostTap
  | searchDidLoad n => exact discreet_searchFetchPosts
  | searchCell n cell item => exact discreet_elsewhere (fun _ => rfl) trivial
  | searchSelect n item c => exact discreet_searchSelect he

end Controllers

/-! ## The other screens -/

/-- What the listeners of a session ask for may be read. -/
structure Terms.Listens (T : Terms) (screens : Screens) : Prop where
  client : T.reading.state screens.client
  comments : ∀ d, ∀ q ∈ (screens.comments d).query, T.Discreet (.getDocuments q)
  conversations : ∀ n, ∀ q ∈ (screens.conversations n).query, T.Discreet (.getDocuments q)
  chats : ∀ k, ∀ q ∈ (screens.chats k).watch.query, T.Discreet (.getDocuments q)

/-- The contract of a session that reads what it may, for all of its screens. -/
def Terms.listening (T : Terms) : Contract Request Response Turn Screens :=
  T.reading.within T.Listens

theorem Terms.oversees_listening (T : Terms) : T.Oversees T.listening := T.oversees_within _

/-- At first nothing is listened to. -/
theorem Terms.listens_initial (T : Terms) : T.Listens {} where
  client _ := ⟨fun _ h => absurd h List.not_mem_nil, fun _ _ h => absurd h (by simp)⟩
  comments _ _ h := absurd h (by simp)
  conversations _ _ h := absurd h (by simp)
  chats _ _ h := absurd h (by simp)

section Screens

variable {T : Terms} {e : Turn}

/-- What is discreet in the tabs is so among all screens. -/
theorem discreet_onClient {p : Program Client} (hp : p.KeepsIn T.reading e) :
    (onClient p).KeepsIn T.listening e := by
  unfold onClient Terms.listening
  refine Prog.KeepsIn.zoom ?_ ?_ hp
  · intro screens h client hclient
    rw [← Option.some.inj hclient]
    exact h.client
  · exact fun client screens h hclient => { h with client := hclient }

/-- An assignment that keeps what the session listens to. -/
theorem discreet_assign {f : Screens → Screens} {rest : Program Screens}
    (hf : ∀ screens, T.Listens screens → T.Listens (f screens))
    (hrest : rest.KeepsIn T.listening e) :
    (Prog.modify f rest : Program Screens).KeepsIn T.listening e := ⟨hf, hrest⟩

section Listeners

variable {ρ : Type} {watch : Var Screens (Watch ρ)}
  {assign : Turn → ρ → Option (List DocumentChange) → ρ}

/-- A listener of the session, which only asks for what it may. -/
structure Terms.Hears (T : Terms) (watch : Var Screens (Watch ρ)) : Prop where
  query : ∀ screens, T.Listens screens → ∀ q ∈ (watch.get screens).query,
    T.Discreet (.getDocuments q)
  set : ∀ screens, T.Listens screens → ∀ x : Watch ρ,
    (∀ q ∈ x.query, T.Discreet (.getDocuments q)) → T.Listens (watch.set x screens)

/-- The comment screen listens, -/
theorem hears_commentWatch (d : Nat) : T.Hears (Screens.commentWatch d) where
  query _ h := h.comments d
  set _ h _ hx := { h with
    comments := forall_update
      (P := fun _ (y : Watch CommentRows) => ∀ q ∈ y.query, T.Discreet (.getDocuments q))
      h.comments hx }

/-- the conversations do, -/
theorem hears_conversationWatch (n : Nat) : T.Hears (Screens.conversationWatch n) where
  query _ h := h.conversations n
  set _ h _ hx := { h with
    conversations := forall_update
      (P := fun _ (y : Watch ConversationRows) => ∀ q ∈ y.query, T.Discreet (.getDocuments q))
      h.conversations hx }

/-- and a chat, whose partner may change with its listener. -/
theorem listens_mapChat {screens : Screens} (h : T.Listens screens) {k : Nat}
    {f : ChatController → ChatController}
    (hf : ∀ q ∈ (f (screens.chats k)).watch.query, T.Discreet (.getDocuments q)) :
    T.Listens (screens.mapChat k f) :=
  { h with
    chats := forall_update
      (P := fun _ (y : ChatController) => ∀ q ∈ y.watch.query, T.Discreet (.getDocuments q))
      h.chats hf }

theorem hears_chatWatch (k : Nat) : T.Hears (Screens.chatWatch k) where
  query _ h := h.chats k
  set _ h x hx := listens_mapChat (f := fun chat => { chat with watch := x }) h hx

/-- A snapshot is asked for by the query that the session listens to. -/
theorem discreet_snapshot (hwatch : T.Hears watch) {modified : List String} :
    (Watch.snapshot watch assign modified).KeepsIn T.listening e := by
  intro screens hscreens
  dsimp only
  split
  next => trivial
  next q hq =>
    -- the listener asks again for what the screen has asked for
    refine discreet_call T.oversees_listening (hwatch.query screens hscreens q hq)
      fun result _ e' _ => ?_
    rw [Prog.keepsIn_ask]
    exact discreet_assign (fun s hs => hwatch.set s hs _ (hwatch.query s hs)) trivial

/-- A discreet query is listened to from now on. -/
theorem discreet_addSnapshotListener (hwatch : T.Hears watch) {q : Query}
    (hq : T.Discreet (.getDocuments q)) :
    (Watch.addSnapshotListener watch assign q).KeepsIn T.listening e := by
  refine discreet_assign (fun s hs => hwatch.set s hs _ fun q' hq' => ?_) (discreet_snapshot hwatch)
  rw [← Option.some.inj hq']
  exact hq

end Listeners

/-! ### Lists of users -/

/-- A list of users listens to nothing. -/
theorem discreet_mapList {n : Nat} {f : UserList → UserList} {rest : Program Screens}
    (hrest : rest.KeepsIn T.listening e) :
    (Prog.modify (·.mapList n f) rest : Program Screens).KeepsIn T.listening e :=
  discreet_assign (fun _ h => { h with }) hrest

/-- It is opened, -/
theorem discreet_listPush {n : Nat} {config : UserFilterConfig} :
    (UserList.push n config).KeepsIn T.listening e := by
  intro screens _
  dsimp only
  split
  next => trivial
  next => exact discreet_mapList trivial

/-- for who likes a post, -/
theorem discreet_pushLikes {c cell n : Nat} :
    (UserList.pushLikes c cell n).KeepsIn T.listening e := by
  intro screens _
  dsimp only
  split
  next => exact discreet_listPush
  next => trivial

/-- or for a relation of a user. -/
theorem discreet_pushRelation {config : String → UserFilterConfig} {m n : Nat} :
    (UserList.pushRelation config m n).KeepsIn T.listening e := by
  intro screens _
  dsimp only
  split
  next => exact discreet_listPush
  next => trivial

/-- A discreet collection, and then the users it lists. -/
theorem discreet_fetchUsersFromCollection {n : Nat} {collection : Path}
    {completion : List User → Program Screens}
    (hcoll : T.Discreet (.getDocuments { collection := collection }))
    (hk : ∀ users, (completion users).Keeps T.listening) :
    (UserService.fetchUsersFromCollection collection (Screens.fetched n) completion).KeepsIn
      T.listening e := by
  refine discreet_assign (fun _ h => { h with }) ?_
  refine discreet_call T.oversees_listening hcoll fun snapshot _ e₁ _ => ?_
  split
  next => trivial
  next documents =>
    refine .forEach fun document _ => ?_
    refine discreet_fetchUser T.oversees_listening fun user e₂ he₂ => ?_
    exact discreet_assign (fun _ h => { h with }) fun screens _ => hk _ e₂ he₂

/-- Every list is of something public; that of the followers is always empty. -/
theorem discreet_fetchUsers {n : Nat} {config : UserFilterConfig}
    {completion : List User → Program Screens}
    (hT : ∀ path d, T.stored path d → Conforms path d)
    (hk : ∀ users, (completion users).Keeps T.listening) :
    (UserService.fetchUsers config (Screens.fetched n) completion).KeepsIn T.listening e := by
  have hall : (UserService.fetchUsers .all (Screens.fetched n) completion).KeepsIn
      T.listening e := by
    refine discreet_call T.oversees_listening (discreet_users rfl) fun snapshot _ => ?_
    split
    next => exact Prog.keeps_done
    next => exact hk _
  cases config with
  -- the same misspelt collection
  | followers uid => exact discreet_fetchUsersFromCollection (discreet_unstored hT rfl) hk
  | following uid =>
    exact discreet_fetchUsersFromCollection (fun id d _ _ => .followed uid id d) hk
  | likes postId =>
    exact discreet_fetchUsersFromCollection (fun id d _ _ => .liker postId id d) hk
  | messages => exact hall
  | all => exact hall

theorem discreet_listDidLoad {strings : StringOps} {n : Nat}
    (hT : ∀ path d, T.stored path d → Conforms path d) :
    (UserList.fetchUsers strings n).KeepsIn T.listening e := by
  intro screens _
  dsimp only
  split
  next => trivial
  next config _ =>
    split
    next => trivial
    next => exact discreet_mapList (discreet_fetchUsers hT fun _ _ _ => discreet_mapList trivial)

/-! ### Chats, conversations and comments -/

/-- A chat listens to the account's copies of its messages. -/
theorem discreet_chatPush (hT : ∀ path d, T.stored path d → Conforms path d)
    (he : T.listening.env e) {k : Nat} {user : User} :
    (ChatController.push k user).KeepsIn T.listening e := by
  intro screens _
  dsimp only
  split
  next => trivial
  next =>
    refine discreet_assign (fun s hs => ?_) ?_
    -- until the listener is added the chat listens to what it did before
    · exact listens_mapChat hs (hs.chats k)
    · refine discreet_withCurrentUid T.oversees_listening he fun uid huid => ?_
      exact discreet_addSnapshotListener (hears_chatWatch k) (discreet_messages hT huid rfl)

/-- A row opens a chat or a profile. -/
theorem discreet_listSelect (hT : ∀ path d, T.stored path d → Conforms path d)
    (he : T.listening.env e) {n row k : Nat} :
    (UserList.didSelectRowAt n row k).KeepsIn T.listening e := by
  intro screens _
  dsimp only
  split
  next => exact discreet_chatPush hT he
  next => exact discreet_onClient (discreet_profilePush he)
  next => trivial

theorem discreet_withUser {k : Nat} {body : User → Program Screens}
    (hbody : ∀ user, (body user).KeepsIn T.listening e) :
    (ChatController.withUser k body).KeepsIn T.listening e := by
  intro screens _
  dsimp only
  split
  next user _ => exact hbody user
  next => trivial

/-- The conversations are the account's own. -/
theorem discreet_conversationsDidLoad (hT : ∀ path d, T.stored path d → Conforms path d)
    (he : T.listening.env e) {n : Nat} :
    (ConversationsController.fetchConversations n).KeepsIn T.listening e := by
  intro screens _
  dsimp only
  split
  next => trivial
  next =>
    refine discreet_withCurrentUid T.oversees_listening he fun uid huid => ?_
    exact discreet_addSnapshotListener (hears_conversationWatch n) (discreet_messages hT huid rfl)

/-- The partner's user is public. -/
theorem discreet_conversationsSelect (hT : ∀ path d, T.stored path d → Conforms path d)
    {n row k : Nat} : (ConversationsController.didSelectRowAt n row k).KeepsIn T.listening e := by
  intro screens _
  dsimp only
  split
  next =>
    refine .andThen (discreet_onClient (discreet_showLoader trivial)) ?_
    refine discreet_fetchUser T.oversees_listening fun user e' he' => ?_
    exact .andThen (discreet_onClient (discreet_showLoader trivial)) (discreet_chatPush hT he')
  next => trivial

/-- Comments are public. -/
theorem discreet_commentsDidLoad {d : Nat} :
    (CommentController.fetchComments d).KeepsIn T.listening e := by
  intro screens _
  dsimp only
  split
  next post _ _ =>
    exact discreet_addSnapshotListener (hears_commentWatch d) (discreet_comments rfl)
  next => trivial

theorem discreet_commentsSelect {d row m : Nat} :
    (CommentController.didSelectItemAt d row m).KeepsIn T.listening e := by
  intro screens _
  dsimp only
  split
  next => exact discreet_onClient discreet_showProfile
  next => trivial

/-! ### Edits -/

/-- The editor reads nothing, -/
theorem discreet_editPresent {m k : Nat} : (EditScreen.present m k).KeepsIn T.listening e := by
  intro screens _
  dsimp only
  split
  next =>
    rw [Prog.keepsIn_ask]
    split
    next => exact discreet_assign (fun _ h => { h with }) trivial
    next => trivial
  next => trivial

/-- nor does the profile when it is handed the user. -/
theorem discreet_editUpdate {k : Nat} : (EditScreen.wantsToUpdate k).KeepsIn T.listening e := by
  intro screens _
  dsimp only
  split
  next => exact discreet_onClient (discreet_inProfile trivial)
  next => trivial

/-- The contract of an edit, which has no inboxes and no listeners. -/
def Terms.editReading (T : Terms) : Contract Request Response Turn EditSession :=
  T.reading.within fun _ => True

theorem Terms.oversees_edit (T : Terms) : T.Oversees T.editReading := T.oversees_within _

theorem discreet_editModify {f : EditSession → EditSession} {rest : Program EditSession}
    (hrest : rest.KeepsIn T.editReading e) :
    (Prog.modify f rest : Program EditSession).KeepsIn T.editReading e :=
  ⟨fun _ _ => trivial, hrest⟩

theorem discreet_onlyIf {condition : EditProfileController → Bool}
    {body : EditProfileController → Program EditSession}
    (h : ∀ controller, (body controller).KeepsIn T.editReading e) :
    (EditProfileController.onlyIf condition body).KeepsIn T.editReading e := by
  intro session _
  dsimp only
  split
  next => exact h _
  next => trivial

/-- The picture goes to Storage and into the own documents. -/
theorem discreet_editImage (he : T.editReading.env e) :
    EditProfileController.updateProfileImage.KeepsIn T.editReading e := by
  intro session _
  dsimp only
  split
  next => trivial
  next image _ =>
    refine discreet_editModify
      (discreet_updateProfileImage T.oversees_edit he fun url error _ _ => ?_)
    refine discreet_editModify ?_
    cases error with
    | some error => exact discreet_editModify trivial
    | none =>
      cases url with
      | none => trivial
      | some url => exact discreet_editModify (discreet_editModify trivial)

theorem discreet_updateUserData (he : T.editReading.env e) :
    EditProfileController.updateUserData.KeepsIn T.editReading e := by
  refine .andThen (discreet_onlyIf fun _ => discreet_editImage he)
    (.andThen (discreet_onlyIf fun controller => ?_) (discreet_onlyIf fun controller => ?_))
  · refine discreet_editModify (discreet_saveUserData T.oversees_edit he fun _ _ _ => ?_)
    exact discreet_editModify (discreet_editModify trivial)
  · exact discreet_editModify
      (discreet_saveUserData T.oversees_edit he fun _ _ he' => discreet_editImage he')

/-- All actions of the editor are discreet. -/
theorem EditAction.discreet (he : T.editReading.env e) (a : EditAction) :
    a.program.KeepsIn T.editReading e := by
  have hinfo : ∀ option text,
      (EditProfileController.updateUserInfo option text).KeepsIn T.editReading e := by
    intro option text
    refine discreet_editModify ?_
    cases text with
    | none => trivial
    | some text => exact discreet_editModify trivial
  cases a with
  | editingDidEnd option text => exact hinfo option text
  | imagePicked image => exact discreet_editModify trivial
  | doneTap focused =>
    refine .andThen ?_ (discreet_onlyIf fun _ => discreet_updateUserData he)
    cases focused with
    | none => trivial
    | some x => exact hinfo x.1 x.2
  | setUserFCMToken => exact discreet_setUserFCMToken T.oversees_edit he

/-- So they are on the screen they are on. -/
theorem discreet_onEdit {k : Nat} {p : Program EditSession} (hp : p.KeepsIn T.editReading e) :
    (onEdit k p).KeepsIn T.listening e := by
  intro screens _
  dsimp only
  split
  next =>
    refine Prog.KeepsIn.zoom ?_ ?_ hp
    · exact fun _ _ _ _ => trivial
    · exact fun _ _ h _ => { h with }
  next => trivial

/-- **Every request of the app is discreet**: that of every action of every screen, and of all
its callbacks. -/
theorem ScreenAction.discreet (strings : StringOps) (a : ScreenAction)
    (hT : ∀ path d, T.stored path d → Conforms path d) :
    (a.program strings).Keeps T.listening := by
  intro e he
  cases a with
  | app a => exact discreet_onClient (a.discreet hT e he)
  | register credentials =>
    refine discreet_onClient (discreet_registerUser T.oversees_reading fun error e' he' => ?_)
    cases error with
    | some error => trivial
    | none => exact discreet_tabFetchUser he'
  | tabProfile m =>
    refine discreet_onClient fun client _ => ?_
    dsimp only
    split
    next => exact discreet_profilePush he
    next => trivial
  | feedProfile c cell m =>
    refine discreet_onClient fun client _ => ?_
    dsimp only
    split
    next => exact discreet_showProfile
    next => trivial
  | feedLikes c cell n => exact discreet_pushLikes
  | inboxSelect n row m => exact discreet_onClient discreet_inboxSelect
  | profileFollowers m n => exact discreet_pushRelation
  | profileFollowing m n => exact discreet_pushRelation
  | searchTab n => exact discreet_listPush
  | newMessage n => exact discreet_listPush
  | usersDidLoad n => exact discreet_listDidLoad hT
  | usersSearch n isActive text => exact discreet_mapList trivial
  | usersCancel n => exact discreet_mapList trivial
  | usersSelect n row k => exact discreet_listSelect hT he
  | commentsDidLoad d => exact discreet_commentsDidLoad
  | commentsSnapshot d modified => exact discreet_snapshot (hears_commentWatch d)
  | commentsSelect d row m => exact discreet_commentsSelect
  | conversationsDidLoad n => exact discreet_conversationsDidLoad hT he
  | conversationsSnapshot n modified => exact discreet_snapshot (hears_conversationWatch n)
  | conversationsSelect n row k => exact discreet_conversationsSelect hT
  | chatSnapshot k modified => exact discreet_snapshot (hears_chatWatch k)
  | chatSend k text =>
    exact discreet_withUser fun user =>
      discreet_uploadMessage T.oversees_listening he fun _ => Prog.keeps_done
  | editPresent m k => exact discreet_editPresent
  | edit k a => exact discreet_onEdit (a.discreet he)
  | editUpdate k => exact discreet_editUpdate
  | chatDelete k =>
    exact discreet_withUser fun user =>
      discreet_deleteMessages T.oversees_listening hT he fun _ => Prog.keeps_done
  | feedAfterFollowing m =>
    refine discreet_onClient fun client _ => ?_
    dsimp only
    split
    next => exact discreet_updateUserFeedAfterFollowing T.oversees_reading he
    next => trivial

end Screens

/-! ## Runs -/

section Runs

variable {S : Type} [DecidableEq S] {strings : StringOps} {V : S → String → Prop}
  {ok : AppWorld Screens S → AppEvent S ScreenAction → Prop} {w : AppWorld Screens S}
  {es : List (AppEvent S ScreenAction)} {s : S}

/-- **What is in flight is discreet**, in runs along which what is stored is known. -/
theorem listening_run {T : S → Terms} (hT : ∀ s path d, (T s).stored path d → Conforms path d)
    (run : Run api (ScreenAction.program strings) ok unused es w)
    (hstored : ∀ w ev, ok w ev → ∀ s path d, w.backend.docs.lookup path = some d →
      (T s).stored path d)
    (hdevices : ∀ w ev, ok w ev → Devices (fun s => (T s).account) w ev) :
    w.Keeps (fun s => (T s).listening) fun _ => True := by
  have hstart : (unused : AppWorld Screens S).Keeps (fun s => (T s).listening) fun _ => True :=
    ⟨trivial, fun s => (T s).listens_initial, fun x hx => absurd hx List.not_mem_nil⟩
  refine run.invariant (I := fun _ w => w.Keeps (fun s => (T s).listening) fun _ => True) hstart
    fun es w ev w' hw hok hstep => hw.step ?_ ?_ ((hdevices w ev hok).1) hstep
  · rintro i o rfl s r k hi e b' y - - hs
    refine ⟨trivial, Terms.replies_of_serve (hstored w _ hok s) ?_ hs⟩
    exact (hdevices w _ hok).2.registers hi (fun _ h => h) hs
  · cases ev with
    | invoke s a e => exact a.discreet strings (hT s)
    | _ => trivial

/-- **Nothing is disclosed to the wrong device.** Whenever a request is served, for whatever
screen and however late, every document that its answer hands over is public, or is a like of
an account of the device, a notification that one of them has got or sent, or a message that one
of them has sent or received. -/
theorem answers_disclosed (run : Run api (ScreenAction.program strings) ok unused es w)
    (hok : ∀ w ev, ok w ev → Devices V w ev) {i : Nat} {o : Outcome} {r : Request}
    {k : Response r → Program Screens} {b' : Backend} {y : Response r}
    (hi : w.pool[i]? = some (s, .issued r k)) (hserve : serve w.backend r o = some (b', y)) :
    ∀ x ∈ handedOver r y, Disclosed (V s) x.1 x.2 := by
  have hkeeps := listening_run (T := fun s => conforming (V s)) (fun _ _ _ h => h)
    (run.always fun _ _ run => stored_conforms run) (fun _ _ hok _ => hok.2)
    fun w ev h => hok w ev h.1
  obtain ⟨⟨e, -, hdiscreet⟩, -⟩ := hkeeps.pool _ (List.mem_of_getElem? hi)
  -- the reply to a registration has no documents
  have hnew : (conforming (V s)).Registers r y ∨ handedOver r y = [] := by
    cases r with
    | createUser email password => exact Or.inr rfl
    | _ => exact Or.inl trivial
  intro x hx
  rcases hnew with hnew | hnil
  · have hy : (conforming (V s)).Replies r y :=
      Terms.replies_of_serve (stored_conforms run) hnew hserve
    exact Terms.Discreet.disclosed hdiscreet hy x hx
  · rw [hnil] at hx
    exact absurd hx List.not_mem_nil

/-- Ann, who has written to Bob, opens the chat. -/
def opening : List (AppEvent String ScreenAction) :=
  chatting ++ [.invoke "a" (.chatSnapshot 0 []) (turnWith "a" "a16")]

/-- She gets to see her message. -/
theorem answers_disclosed_chat :
    ∃ w r k b' y, Run api (ScreenAction.program stringsASCII) OwnDevices unused opening w
      ∧ w.pool[0]? = some ("a", .issued r k)
      ∧ serve w.backend r (.success ["a11"]) = some (b', y) ∧ (handedOver r y).length = 1
      ∧ ∀ x ∈ handedOver r y, Disclosed (· = "a") x.1 x.2 := by
  obtain ⟨w, run, x, hx, hs, hwaits, hone⟩ : ∃ w,
      Run api (ScreenAction.program stringsASCII) OwnDevices unused opening w
      ∧ ∃ x ∈ w.pool.head?, x.1 = "a" ∧ x.2.waits = true
        ∧ (serve w.backend x.2.req (.success ["a11"])).map
            (fun z => (handedOver x.2.req z.2).length) = some 1 :=
    exists_run_of_play (by decide +kernel)
  obtain ⟨z, hz, hone⟩ := Option.map_eq_some_iff.mp hone
  obtain ⟨s, fl⟩ := x
  obtain rfl : s = "a" := hs
  have hx : w.pool[0]? = some ("a", fl) := by simpa [List.head?_eq_getElem?] using hx
  cases fl with
  | issued r k =>
    exact ⟨w, r, k, z.1, z.2, run, hx, hz, hone,
      answers_disclosed (V := fun s uid => uid = s) run (fun _ _ h => h.1) hx hz⟩
  | served r p => exact absurd hwaits (by simp)

/-- **An inbox shows what has been sent to the account**, by somebody else: each of its
notifications has been stored there. -/
theorem inbox_addressed (run : Run api (ScreenAction.program strings) ok unused es w)
    (hok : ∀ w ev, ok w ev → Devices V w ev) {n : Nat} {notification : Notification}
    (h : notification ∈ ((w.client s).client.inboxes n).notifications
      ∨ ∃ cell, notification ∈ (((w.client s).client.inboxes n).cells cell).viewModel) :
    ∃ uid id data now isFollowed, V s uid
      ∧ StoredAlong strings ok es ["notifications", uid, "user-notifications", id] data
      ∧ data.string "uid" ≠ some uid
      ∧ notification = { Notification.init now data with userIsFollowed := isFollowed } := by
  have hkeeps := listening_run (T := fun s => past strings ok es (V s))
    (fun _ _ _ h => h.conforms) run.visited (fun w₁ ev h _ path d hlook => ⟨w₁, h.2, hlook⟩)
    fun w₁ ev h => hok w₁ ev h.1
  have hinbox := (hkeeps.client s).client n
  have haddressed : (past strings ok es (V s)).Addressed notification := by
    rcases h with h | ⟨cell, h⟩
    · exact hinbox.notifications notification h
    · exact hinbox.cells cell notification h
  obtain ⟨uid, id, data, now, isFollowed, huid, hstored, heq⟩ := haddressed
  have hother := (hstored.conforms.notification uid id rfl).other
  exact ⟨uid, id, data, now, isFollowed, huid, hstored, hother, heq⟩

/-- Ann, whom Bob has followed, opens her inbox. -/
def notified : List (AppEvent String ScreenAction) :=
  following ++ [.invoke "a" (.app (.inboxDidLoad 0)) (turnWith "a" "a6")]
    ++ answeredTo "a" "a7" ["b16"]

/-- His follow is in it. -/
theorem inbox_addressed_followed :
    ∃ w, Run api (ScreenAction.program stringsASCII) OwnDevices unused notified w
      ∧ ∃ notification ∈ ((w.client "a").client.inboxes 0).notifications,
        ∃ uid id data now isFollowed, uid = "a"
          ∧ StoredAlong stringsASCII OwnDevices notified
            ["notifications", uid, "user-notifications", id] data
          ∧ data.string "uid" ≠ some uid
          ∧ notification = { Notification.init now data with userIsFollowed := isFollowed } := by
  obtain ⟨w, run, hone⟩ : ∃ w,
      Run api (ScreenAction.program stringsASCII) OwnDevices unused notified w
      ∧ ((w.client "a").client.inboxes 0).notifications.length = 1 :=
    exists_run_of_play (by decide +kernel)
  obtain ⟨notification, hnotification⟩ := List.exists_mem_of_length_eq_add_one hone
  exact ⟨w, run, notification, hnotification,
    inbox_addressed (V := fun s uid => uid = s) run (fun _ _ h => h.1) (.inl hnotification)⟩

end Runs

end InstaClone
