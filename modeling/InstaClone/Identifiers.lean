import InstaClone.Screens

/-!
# Identifiers that are not empty

Every initialiser reads a missing identifier as `""`, and the identifier it has read is the
segment of a path somewhere else. That no path has an empty segment is a property of the
whole store: whatever identifier some reader uses later, every writer has set
(`IdentifiedDoc`), and a record keeps the identifiers it was decoded with.

`identified` is the contract of a session: it relies on turns whose account and fresh
identifier are not empty and on replies from such a store, and it issues only requests
along whole paths that keep the store as it is. Each service has one lemma that says what
it has to be given for that. A notification of a follow is the exception: it has no post,
and is decoded with the post `""`.
-/

namespace InstaClone

open Async

/-! ## Identified records -/

def User.Identified (user : User) : Prop := user.uid ≠ ""

structure Post.Identified (post : Post) : Prop where
  postId : post.postId ≠ ""
  ownerUid : post.ownerUid ≠ ""

def Comment.Identified (comment : Comment) : Prop := comment.uid ≠ ""

/-- A notification that shows its image has a post. -/
structure Notification.Identified (notification : Notification) : Prop where
  uid : notification.uid ≠ ""
  postId : notification.shouldHidePostImage = false → ∀ postId ∈ notification.postId, postId ≠ ""

def Message.Identified (message : Message) : Prop := message.chatPartnerId ≠ ""

def UserFilterConfig.Identified : UserFilterConfig → Prop
  | followers uid | following uid => uid ≠ ""
  | likes postId => postId ≠ ""
  | messages | all => True

/-! ## Identified documents -/

/-- The string under `key` is there and not empty. -/
def Doc.Identifies (d : Doc) (key : String) : Prop := (d.string key).getD "" ≠ ""

/-- A document has the identifiers that the readers of its collection read. -/
structure IdentifiedDoc (path : Path) (d : Doc) : Prop where
  user : ∀ uid, path = ["users", uid] → d.Identifies "uid"
  post : ∀ postId, path = ["posts", postId] → d.Identifies "ownerUid"
  comment : ∀ postId id, path = ["posts", postId, "comments", id] → d.Identifies "uid"
  notification : ∀ uid id, path = ["notifications", uid, "user-notifications", id] →
    ∀ now, (Notification.init now d).Identified
  message : ∀ uid coll id, path = ["messages", uid, coll, id] →
    d.Identifies "toId" ∧ d.Identifies "fromId"

/-- The records decoded from identified documents are identified: users, -/
theorem User.init_identified {d : Doc} {uid : String} (h : IdentifiedDoc ["users", uid] d) :
    (User.init d).Identified := h.user uid rfl

/-- posts, -/
theorem Post.init_identified {d : Doc} {postId : String} (h : IdentifiedDoc ["posts", postId] d)
    (hid : postId ≠ "") (now : Timestamp) : (Post.init now postId d).Identified :=
  ⟨hid, h.post postId rfl⟩

/-- and messages, whichever side reads them. -/
theorem Message.init_identified {d : Doc} (hto : d.Identifies "toId")
    (hfrom : d.Identifies "fromId") (currentUid : Option String) :
    (Message.init currentUid d).Identified := by
  unfold Message.Identified Message.chatPartnerId
  split
  next => exact hto
  next => exact hfrom

/-- The keys of the fields that `IdentifiedDoc` asks about. -/
def identifierKeys : List String := ["uid", "ownerUid", "toId", "fromId", "type", "postId"]

/-- An update of other fields keeps the identifiers. -/
theorem IdentifiedDoc.merge {path : Path} {d fields : Doc} (h : IdentifiedDoc path d)
    (hfields : ∀ key ∈ identifierKeys, fields key = none) :
    IdentifiedDoc path (d.merge fields) := by
  have hkey : ∀ key ∈ identifierKeys, d.merge fields key = d key := by
    intro key hkey
    unfold Doc.merge
    rw [hfields key hkey]
    rfl
  have hstring : ∀ key ∈ identifierKeys, (d.merge fields).string key = d.string key := by
    intro key hmem
    unfold Doc.string
    rw [hkey key hmem]
  have hint : (d.merge fields).int "type" = d.int "type" := by
    unfold Doc.int
    rw [hkey "type" (by decide)]
  refine ⟨fun uid hp => ?_, fun postId hp => ?_, fun postId id hp => ?_, fun uid id hp now => ?_,
    fun uid coll id hp => ?_⟩
  · unfold Doc.Identifies
    rw [hstring _ (by decide)]
    exact h.user uid hp
  · unfold Doc.Identifies
    rw [hstring _ (by decide)]
    exact h.post postId hp
  · unfold Doc.Identifies
    rw [hstring _ (by decide)]
    exact h.comment postId id hp
  · obtain ⟨huid, hpostId⟩ := h.notification uid id hp now
    unfold Notification.init at huid hpostId ⊢
    refine ⟨?_, ?_⟩
    · dsimp only at huid ⊢
      rw [hstring _ (by decide)]
      exact huid
    · dsimp only [Notification.shouldHidePostImage] at hpostId ⊢
      rw [hint, hstring "postId" (by decide)]
      exact hpostId
  · unfold Doc.Identifies
    rw [hstring "toId" (by decide), hstring "fromId" (by decide)]
    exact h.message uid coll id hp

/-! ## Identified requests -/

/-- The segments of the Firestore path of a request. -/
def Request.segments : Request → Path
  | .write w => w.path
  | .getDocument path => path
  | .getDocuments q => q.collection
  | _ => []

/-- A write that leaves its document identified. -/
def Write.Identified : Write → Prop
  | .setData path data => IdentifiedDoc path data
  | .updateData _ fields => ∀ key ∈ identifierKeys, fields key = none
  | .delete _ => True

/-- A request along a whole path, which leaves every document identified. -/
structure Request.Identified (r : Request) : Prop where
  segments : "" ∉ r.segments
  write : ∀ w, r = .write w → w.Identified

/-- The account of the turn, if any, and its fresh identifier are not empty. -/
structure Turn.Identified (turn : Turn) : Prop where
  currentUid : ∀ uid ∈ turn.currentUid, uid ≠ ""
  autoId : turn.autoId ≠ ""

instance (turn : Turn) : Decidable turn.Identified :=
  decidable_of_iff ((∀ uid ∈ turn.currentUid, uid ≠ "") ∧ turn.autoId ≠ "")
    ⟨fun h => ⟨h.1, h.2⟩, fun h => ⟨h.1, h.2⟩⟩

/-- Every document lies under a whole path and has its identifiers. -/
def Store.Identified (docs : Store) : Prop :=
  ∀ path d, docs.lookup path = some d → "" ∉ path ∧ IdentifiedDoc path d

/-- Replies from such a store. -/
def RepliesIdentified : (r : Request) → Response r → Prop
  | .getDocument path, y =>
    ∀ snapshot ∈ y, snapshot.documentID = path.getLastD ""
      ∧ ∀ data ∈ snapshot.data, IdentifiedDoc path data
  | .getDocuments q, y =>
    ∀ documents ∈ y, ∀ x ∈ documents, x.1 ≠ "" ∧ IdentifiedDoc (q.collection ++ [x.1]) x.2
  | .createUser _ _, y => ∀ uid ∈ y.1, uid ≠ ""
  | _, _ => True

/-- The contract of a session whose client state is in `state`. -/
def identified {σ : Type} (state : σ → Prop) : Contract Request Response Turn σ where
  env := Turn.Identified
  state := state
  req _ r := r.Identified
  resp := RepliesIdentified

/-- An empty store has nothing to identify. -/
theorem Store.identified_empty : Store.Identified ∅ := fun path d h => by
  rw [AList.lookup_empty] at h
  exact absurd h (by simp)

/-- A committed write keeps the store identified. -/
theorem Store.Identified.commit {docs docs' : Store} {w : Write} (h : docs.Identified)
    (hw : (Request.write w).Identified) (hcommit : w.apply docs = some docs') :
    docs'.Identified := by
  intro path d hd
  by_cases hpath : path = w.path
  · subst hpath
    refine ⟨hw.segments, ?_⟩
    have hwrite := hw.write w rfl
    rw [Write.lookup_apply hcommit] at hd
    cases w with
    | setData path data =>
      rw [← Option.some.inj hd]
      exact hwrite
    | updateData path fields =>
      obtain ⟨d₀, hd₀, rfl⟩ := Option.map_eq_some_iff.mp hd
      exact (h path d₀ hd₀).2.merge hwrite
    | delete path => exact absurd hd (by simp [Write.effect])
  · rw [Write.lookup_apply_ne hcommit hpath] at hd
    exact h path d hd

/-- A new account has a uid. -/
theorem createUser_identified {b b' : Backend} {email password : String} {o : Outcome}
    {y : Option String × Option Error}
    (hserve : serve b (.createUser email password) o = some (b', y)) {uid : String}
    (huid : uid ∈ y.1) : uid ≠ "" := by
  cases o with
  | failure error =>
    simp only [serve, Option.some.injEq, Prod.mk.injEq] at hserve
    rw [← hserve.2] at huid
    exact absurd huid (by simp)
  | success names =>
    simp only [serve] at hserve
    split at hserve
    next =>
      simp only [Option.some.injEq, Prod.mk.injEq] at hserve
      rw [← hserve.2] at huid
      exact absurd huid (by simp)
    next =>
      split at hserve
      next name =>
        split at hserve
        next => exact absurd hserve (by simp)
        next hname =>
          simp only [Option.some.injEq, Prod.mk.injEq] at hserve
          rw [← hserve.2] at huid
          obtain rfl : name = uid := Option.some.inj huid
          exact fun hempty => hname (Or.inl hempty)
      next => exact absurd hserve (by simp)

/-- The backend keeps its store identified and answers from it. -/
theorem serve_identified {b b' : Backend} {r : Request} {o : Outcome} {y : Response r}
    (h : b.docs.Identified) (hr : r.Identified) (hserve : serve b r o = some (b', y)) :
    b'.docs.Identified ∧ RepliesIdentified r y := by
  cases r with
  | write w =>
    refine ⟨?_, trivial⟩
    rcases serve_write hserve with ⟨-, docs, hdocs, rfl⟩ | ⟨-, rfl⟩
    · exact h.commit hr hdocs
    · exact h
  | getDocument path =>
    obtain ⟨rfl, hy⟩ := serve_getDocument hserve
    refine ⟨h, fun snapshot hsnapshot => ?_⟩
    rw [hy snapshot hsnapshot]
    exact ⟨rfl, fun data hdata => (h path data hdata).2⟩
  | getDocuments q =>
    obtain ⟨rfl, hy⟩ := serve_getDocuments hserve
    refine ⟨h, fun documents hdocuments x hx => ?_⟩
    have hmem := (hy documents hdocuments).mem_iff.mp hx
    obtain ⟨hpath, hdoc⟩ := h _ _ (Query.mem_results.mp hmem).1
    refine ⟨fun hid => hpath ?_, hdoc⟩
    rw [hid]
    exact List.mem_append_right _ (List.mem_singleton_self _)
  | createUser email password =>
    rw [serve_docs hserve fun w hw => by cases hw]
    refine ⟨h, fun uid huid => ?_⟩
    exact createUser_identified hserve huid
  | putData reference data =>
    rw [serve_docs hserve fun w hw => by cases hw]
    exact ⟨h, trivial⟩
  | downloadURL reference =>
    rw [serve_docs hserve fun w hw => by cases hw]
    exact ⟨h, trivial⟩
  | deleteObject url =>
    rw [serve_docs hserve fun w hw => by cases hw]
    exact ⟨h, trivial⟩

/-! ## The services -/

/-- A write along a whole path that leaves its document identified, -/
theorem Request.identified_write {w : Write} (hpath : "" ∉ w.path) (hw : w.Identified) :
    (Request.write w).Identified := by
  refine ⟨hpath, fun w' hw' => ?_⟩
  cases hw'
  exact hw

/-- and anything else along a whole path. -/
theorem Request.identified_read {r : Request} (hpath : "" ∉ r.segments) (hr : r.isWrite = false) :
    r.Identified := by
  refine ⟨hpath, fun w hw => ?_⟩
  rw [hw] at hr
  exact absurd hr (by simp [Request.isWrite])

/-- An update of one field that is no identifier. -/
theorem identified_update {path : Path} {key : String} {v : Value} (hkey : key ∉ identifierKeys) :
    (Write.updateData path (dict [(key, v)])).Identified := by
  intro key' hkey'
  have hne : key' ≠ key := fun heq => hkey (heq ▸ hkey')
  unfold dict
  rw [List.lookup_cons, beq_eq_false_iff_ne.mpr hne]
  rfl

/-- A document whose collection no initialiser reads. -/
theorem identifiedDoc_mark {root uid coll id : String} {d : Doc}
    (hcomment : ¬ (root = "posts" ∧ coll = "comments")) (hnotification : root ≠ "notifications")
    (hmessage : root ≠ "messages") : IdentifiedDoc [root, uid, coll, id] d where
  user _ h := by simp at h
  post _ h := by simp at h
  comment postId id' h := by
    simp only [List.cons.injEq] at h
    exact absurd ⟨h.1, h.2.2.1⟩ hcomment
  notification uid' id' h := by
    simp only [List.cons.injEq] at h
    exact absurd h.1 hnotification
  message uid' coll' id' h := by
    simp only [List.cons.injEq] at h
    exact absurd h.1 hmessage

/-- What each collection asks of its documents is no more than these fields: of a user his own
identifier, -/
theorem identifiedDoc_user {uid : String} {d : Doc} (h : d.Identifies "uid") :
    IdentifiedDoc ["users", uid] d where
  user _ _ := h
  post _ h := by simp at h
  comment _ _ h := by simp at h
  notification _ _ h := by simp at h
  message _ _ _ h := by simp at h

/-- of a post its owner, -/
theorem identifiedDoc_post {postId : String} {d : Doc} (h : d.Identifies "ownerUid") :
    IdentifiedDoc ["posts", postId] d where
  user _ h := by simp at h
  post _ _ := h
  comment _ _ h := by simp at h
  notification _ _ h := by simp at h
  message _ _ _ h := by simp at h

/-- of a comment its author, -/
theorem identifiedDoc_comment {postId id : String} {d : Doc} (h : d.Identifies "uid") :
    IdentifiedDoc ["posts", postId, "comments", id] d where
  user _ h := by simp at h
  post _ h := by simp at h
  comment _ _ _ := h
  notification _ _ h := by simp at h
  message _ _ _ h := by simp at h

/-- of a message both sides. -/
theorem identifiedDoc_message {uid coll id : String} {d : Doc} (hto : d.Identifies "toId")
    (hfrom : d.Identifies "fromId") : IdentifiedDoc ["messages", uid, coll, id] d where
  user _ h := by simp at h
  post _ h := by simp at h
  comment _ _ h := by simp at h
  notification _ _ h := by simp at h
  message _ _ _ _ := ⟨hto, hfrom⟩

/-- What `uploadNotification` stores has a post unless it is about a follow. -/
theorem identifiedDoc_notification {uid id currentUid : String} {turn : Turn} {fromUser : User}
    {type : NotificationType} {post : Option Post} (huid : currentUid ≠ "")
    (hpost : type ≠ .follow → ∃ p, post = some p ∧ p.Identified) :
    IdentifiedDoc ["notifications", uid, "user-notifications", id]
      (NotificationService.notificationData currentUid turn fromUser type post) where
  user _ h := by simp at h
  post _ h := by simp at h
  comment _ _ h := by simp at h
  notification _ _ _ now := by
    refine ⟨huid, fun hshown postId hpostId => ?_⟩
    have htype : (Notification.init now
        (NotificationService.notificationData currentUid turn fromUser type post)).type = type := by
      show (NotificationType.ofRawValue type.rawValue).getD .like = type
      rw [NotificationType.ofRawValue_rawValue]
      rfl
    unfold Notification.shouldHidePostImage at hshown
    rw [htype] at hshown
    obtain ⟨p, rfl, hp⟩ := hpost fun hfollow => by rw [hfollow] at hshown; exact nomatch hshown
    obtain rfl : p.postId = postId := Option.some.inj hpostId
    exact hp.postId
  message _ _ _ h := by simp at h

section Services

variable {σ : Type} {state : σ → Prop} {e : Turn} {Q : σ → Prop} {s : σ}

/-- Whoever is signed in has an identifier. -/
theorem wp_withCurrentUid {body : String → Program σ} (he : e.Identified)
    (hbody : ∀ uid, uid ≠ "" → (body uid).wp (identified state) e Q s) (hQ : Q s) :
    (withCurrentUid body).wp (identified state) e Q s := by
  unfold withCurrentUid
  rw [Prog.wp_ask]
  split
  next uid huid => exact hbody uid (he.currentUid uid huid)
  next => exact hQ

/-- A write, with the state as it is when the call returns. -/
theorem wp_write {w : Write} {k : Option Error → Program σ} (hpath : "" ∉ w.path)
    (hw : w.Identified) (hk : ∀ y, (k y).Meets (identified state)) (hQ : Q s) :
    (Prog.call (.write w) k .done : Program σ).wp (identified state) e Q s :=
  ⟨Request.identified_write hpath hw, fun y _ => hk y, hQ⟩

/-- A completion that is not given does nothing. -/
theorem meets_noCompletion (y : Option Error) :
    (noCompletion y : Program σ).Meets (identified state) := fun _ _ _ hs => hs

/-- A read along a whole path; the callback meets identified documents only. -/
theorem wp_getDocument {path : Path} {k : Option Snapshot → Program σ} (hpath : "" ∉ path)
    (hk : ∀ y, RepliesIdentified (.getDocument path) y → (k y).Meets (identified state))
    (hQ : Q s) : (getDocument path k).wp (identified state) e Q s :=
  ⟨Request.identified_read hpath rfl, hk, hQ⟩

/-- A query of a whole collection. -/
theorem wp_getDocuments {q : Query} {k : Option (List (String × Doc)) → Program σ}
    (hcoll : "" ∉ q.collection)
    (hk : ∀ y, RepliesIdentified (.getDocuments q) y → (k y).Meets (identified state))
    (hQ : Q s) : (getDocuments q k).wp (identified state) e Q s :=
  ⟨Request.identified_read hcoll rfl, hk, hQ⟩

/-! ### Reading services -/

/-- `fetchUser` is called with the identifier of somebody, -/
theorem wp_fetchUser {uid : String} {completion : User → Program σ} (huid : uid ≠ "")
    (hk : ∀ user, user.Identified → (completion user).Meets (identified state)) (hQ : Q s) :
    (UserService.fetchUser uid completion).wp (identified state) e Q s := by
  unfold UserService.fetchUser
  refine wp_getDocument (by simp [huid.symm]) (fun y hy => ?_) hQ
  split
  next => exact fun _ _ _ hs => hs
  next dictionary hdata =>
    obtain ⟨snapshot, hsnapshot, hdictionary⟩ := Option.bind_eq_some_iff.mp hdata
    exact hk _ (User.init_identified ((hy snapshot hsnapshot).2 dictionary hdictionary))

/-- `fetchPost` with that of a post. -/
theorem wp_fetchPost {postId : String} {completion : Post → Program σ} (hpostId : postId ≠ "")
    (hk : ∀ post, post.Identified → (completion post).Meets (identified state)) (hQ : Q s) :
    (PostService.fetchPost postId completion).wp (identified state) e Q s := by
  unfold PostService.fetchPost
  refine wp_getDocument (by simp [hpostId.symm]) (fun y hy => ?_) hQ
  split
  next => exact fun _ _ _ hs => hs
  next snapshot =>
    split
    next => exact fun _ _ _ hs => hs
    next data hdata =>
      obtain ⟨hid, hdoc⟩ := hy snapshot rfl
      intro e' he' s' hs'
      refine hk _ ?_ e' he' s' hs'
      -- a snapshot carries the identifier it was asked for by
      rw [hid]
      exact Post.init_identified (hdoc data hdata) hpostId e'.now

/-- Documents of the collection of posts decode to identified posts. -/
theorem posts_identified {q : Query} (hq : q.collection = ["posts"])
    {documents : List (String × Doc)} (h : RepliesIdentified (.getDocuments q) (some documents))
    (now : Timestamp) : ∀ post ∈ documents.map fun x => Post.init now x.1 x.2, post.Identified := by
  intro post hpost
  obtain ⟨x, hx, rfl⟩ := List.mem_map.mp hpost
  obtain ⟨hid, hdoc⟩ := h documents rfl x hx
  -- the identifier of a post is that of its document
  rw [hq] at hdoc
  exact Post.init_identified hdoc hid now

/-- `posts` is whole as it stands. -/
theorem wp_fetchPosts {completion : List Post → Program σ}
    (hk : ∀ posts : List Post, (∀ post ∈ posts, post.Identified) →
      (completion posts).Meets (identified state)) (hQ : Q s) :
    (PostService.fetchPosts completion).wp (identified state) e Q s := by
  unfold PostService.fetchPosts
  refine wp_getDocuments (by simp) (fun y hy => ?_) hQ
  split
  next => exact fun _ _ _ hs => hs
  next documents =>
    exact fun e' he' s' hs' => hk _ (posts_identified rfl hy e'.now) e' he' s' hs'

/-- So it is when the query is for one owner. -/
theorem wp_fetchPostsForUser {uid : String} {completion : List Post → Program σ}
    (hk : ∀ posts : List Post, (∀ post ∈ posts, post.Identified) →
      (completion posts).Meets (identified state)) (hQ : Q s) :
    (PostService.fetchPostsForUser uid completion).wp (identified state) e Q s := by
  unfold PostService.fetchPostsForUser
  refine wp_getDocuments (by simp) (fun y hy => ?_) hQ
  split
  next => exact fun _ _ _ hs => hs
  next documents =>
    intro e' he' s' hs'
    refine hk _ (fun post hpost => ?_) e' he' s' hs'
    exact posts_identified rfl hy e'.now post (List.mem_mergeSort.mp hpost)

/-- The copy of the mark of an identified post. -/
theorem wp_checkIfUserLikedPost {post : Post} {completion : Bool → Program σ} (he : e.Identified)
    (hpost : post.Identified) (hk : ∀ didLike, (completion didLike).Meets (identified state))
    (hQ : Q s) :
    (PostService.checkIfUserLikedPost post completion).wp (identified state) e Q s := by
  unfold PostService.checkIfUserLikedPost
  refine wp_withCurrentUid he (fun uid huid => ?_) hQ
  refine wp_getDocument (by simp [huid.symm, hpost.postId.symm]) (fun y _ => ?_) hQ
  split
  next => exact fun _ _ _ hs => hs
  next snapshot => exact hk _

/-- The mark of somebody who has an identifier. -/
theorem wp_checkIfUserIsFollowed {uid : String} {completion : Bool → Program σ}
    (he : e.Identified) (huid : uid ≠ "")
    (hk : ∀ isFollowed, (completion isFollowed).Meets (identified state)) (hQ : Q s) :
    (UserService.checkIfUserIsFollowed uid completion).wp (identified state) e Q s := by
  unfold UserService.checkIfUserIsFollowed
  refine wp_withCurrentUid he (fun currentUid hcurrentUid => ?_) hQ
  refine wp_getDocument (by simp [huid.symm, hcurrentUid.symm]) (fun y _ => ?_) hQ
  split
  next => exact fun _ _ _ hs => hs
  next snapshot => exact hk _

/-- The three collections that are counted are the user's own. -/
theorem wp_fetchUserStats {uid : String} {completion : UserStats → Program σ} (huid : uid ≠ "")
    (hk : ∀ stats, (completion stats).Meets (identified state)) (hQ : Q s) :
    (UserService.fetchUserStats uid completion).wp (identified state) e Q s := by
  unfold UserService.fetchUserStats
  refine wp_getDocuments (by simp [huid.symm]) (fun followers _ e₁ _ s₁ hs₁ => ?_) hQ
  refine wp_getDocuments (by simp [huid.symm]) (fun following _ e₂ _ s₂ hs₂ => ?_) hs₁
  exact wp_getDocuments (by simp) (fun posts _ => hk _) hs₂

/-- A notification is identified by its sender, and by its post unless it is of a follow. -/
theorem wp_fetchNotifications {completion : List Notification → Program σ} (he : e.Identified)
    (hk : ∀ notifications : List Notification,
      (∀ notification ∈ notifications, notification.Identified) →
        (completion notifications).Meets (identified state)) (hQ : Q s) :
    (NotificationService.fetchNotifications completion).wp (identified state) e Q s := by
  unfold NotificationService.fetchNotifications
  refine wp_withCurrentUid he (fun uid huid => ?_) hQ
  refine wp_getDocuments (by simp [huid.symm]) (fun y hy => ?_) hQ
  split
  next => exact fun _ _ _ hs => hs
  next documents =>
    intro e' he' s' hs'
    refine hk _ (fun notification hnotification => ?_) e' he' s' hs'
    obtain ⟨x, hx, rfl⟩ := List.mem_map.mp hnotification
    exact (hy documents rfl x hx).2.notification uid x.1 rfl e'.now

/-! ### Writing services -/

/-- The three paths of a like, -/
theorem wp_likePost {post : Post} {completion : Option Error → Program σ} (he : e.Identified)
    (hpost : post.Identified) (hk : ∀ y, (completion y).Meets (identified state)) (hQ : Q s) :
    (PostService.likePost post completion).wp (identified state) e Q s := by
  unfold PostService.likePost
  refine wp_withCurrentUid he (fun uid huid => ?_) hQ
  rw [Prog.wp_andThen]
  refine wp_write (by simp [hpost.postId.symm]) (identified_update (by decide))
    meets_noCompletion ?_
  refine wp_write (by simp [huid.symm, hpost.postId.symm])
    (identifiedDoc_mark (by decide) (by decide) (by decide)) (fun y e' _ s' hs' => ?_) hQ
  exact wp_write (by simp [huid.symm, hpost.postId.symm])
    (identifiedDoc_mark (by decide) (by decide) (by decide)) hk hs'

/-- and of an unlike, are built from the post and the account. -/
theorem wp_unlikePost {post : Post} {completion : Option Error → Program σ} (he : e.Identified)
    (hpost : post.Identified) (hk : ∀ y, (completion y).Meets (identified state)) (hQ : Q s) :
    (PostService.unlikePost post completion).wp (identified state) e Q s := by
  unfold PostService.unlikePost
  refine wp_withCurrentUid he (fun uid huid => ?_) hQ
  split
  next =>
    rw [Prog.wp_andThen]
    refine wp_write (by simp [hpost.postId.symm]) (identified_update (by decide))
      meets_noCompletion ?_
    refine wp_write (by simp [huid.symm, hpost.postId.symm]) trivial (fun y e' _ s' hs' => ?_) hQ
    exact wp_write (by simp [huid.symm, hpost.postId.symm]) trivial hk hs'
  next => exact hQ

/-- Those of a follow, -/
theorem wp_follow {user : String} {completion : Option Error → Program σ} (he : e.Identified)
    (huser : user ≠ "") (hk : ∀ y, (completion y).Meets (identified state)) (hQ : Q s) :
    (UserService.follow user completion).wp (identified state) e Q s := by
  unfold UserService.follow
  refine wp_withCurrentUid he (fun uid huid => ?_) hQ
  refine wp_write (by simp [huid.symm, huser.symm])
    (identifiedDoc_mark (by decide) (by decide) (by decide)) (fun y e' _ s' hs' => ?_) hQ
  exact wp_write (by simp [huid.symm, huser.symm])
    (identifiedDoc_mark (by decide) (by decide) (by decide)) hk hs'

/-- and of an unfollow, from the account and the other. -/
theorem wp_unfollow {user : String} {completion : Option Error → Program σ} (he : e.Identified)
    (huser : user ≠ "") (hk : ∀ y, (completion y).Meets (identified state)) (hQ : Q s) :
    (UserService.unfollow user completion).wp (identified state) e Q s := by
  unfold UserService.unfollow
  refine wp_withCurrentUid he (fun uid huid => ?_) hQ
  refine wp_write (by simp [huid.symm, huser.symm]) trivial (fun y e' _ s' hs' => ?_) hQ
  exact wp_write (by simp [huid.symm, huser.symm]) trivial hk hs'

/-- A write for each document of a reply. -/
theorem meets_forEach {documents : List (String × Doc)} {w : String → Write}
    {k : Option Error → Program σ} (hpath : ∀ x ∈ documents, "" ∉ (w x.1).path)
    (hw : ∀ id, (w id).Identified) (hk : ∀ y, (k y).Meets (identified state)) {s : σ}
    (hs : state s) :
    (Prog.forEach documents fun x =>
      (Prog.call (.write (w x.1)) k .done : Program σ)).wp (identified state) e state s :=
  Prog.wp_forEach (fun x hx _ hs' => wp_write (hpath x hx) (hw x.1) hk hs') hs

/-- The cascade goes by the identifiers of the documents it finds. -/
theorem wp_deletePost {postId : String} {completion : Option Error → Program σ}
    (he : e.Identified) (hpostId : postId ≠ "")
    (hk : ∀ y, (completion y).Meets (identified state)) (hQ : Q s) :
    (PostService.deletePost postId completion).wp (identified state) e Q s := by
  unfold PostService.deletePost
  refine wp_withCurrentUid he (fun uid huid => ?_) hQ
  rw [Prog.wp_andThen]
  refine wp_getDocuments (by simp [hpostId.symm]) (fun y hy e' _ s' hs' => ?_) ?_
  · split
    next => exact hs'
    next documents =>
      exact meets_forEach (w := fun id => .delete ["users", id, "user-likes", postId])
        (fun x hx => by simp [hpostId.symm, (hy documents rfl x hx).1.symm]) (fun _ => trivial)
        meets_noCompletion hs'
  -- the post itself; what follows runs in the turns of the callbacks
  refine wp_write (by simp [hpostId.symm]) trivial (fun _ e₁ _ s₁ hs₁ => ?_) hQ
  refine wp_getDocuments (by simp [huid.symm]) (fun y hy e₂ _ s₂ hs₂ => ?_) hs₁
  split
  next => exact hs₂
  next documents =>
    rw [Prog.wp_andThen]
    refine (meets_forEach (w := fun id => .delete ["users", id, "user-feed", postId])
      (fun x hx => by simp [hpostId.symm, (hy documents rfl x hx).1.symm]) (fun _ => trivial)
      meets_noCompletion hs₂).mono fun s₃ hs₃ => ?_
    -- the inbox of the account that deletes, which owns the post
    refine wp_getDocuments (by simp [huid.symm]) (fun y hy e₄ _ s₄ hs₄ => ?_) hs₃
    split
    next => exact hs₄
    next documents =>
      exact meets_forEach
        (w := fun id => .delete ["notifications", uid, "user-notifications", id])
        (fun x hx => by simp [huid.symm, (hy documents rfl x hx).1.symm]) (fun _ => trivial) hk hs₄

/-- The feed lists the identifiers of the posts that are found. -/
theorem wp_updateUserFeedAfterFollowing {user : User} (he : e.Identified) (hQ : Q s) :
    (PostService.updateUserFeedAfterFollowing user).wp (identified state) e Q s := by
  unfold PostService.updateUserFeedAfterFollowing
  refine wp_withCurrentUid he (fun uid huid => ?_) hQ
  refine wp_getDocuments (by simp) (fun y hy e' _ s' hs' => ?_) hQ
  split
  next => exact hs'
  next documents =>
    exact meets_forEach (w := fun id => .setData ["users", uid, "user-feed", id] (dict []))
      (fun x hx => by simp [huid.symm, (hy documents rfl x hx).1.symm])
      (fun _ => identifiedDoc_mark (by decide) (by decide) (by decide)) meets_noCompletion hs'

/-- A notification is stored under its owner with a new identifier. -/
theorem wp_uploadNotification {uid : String} {fromUser : User} {type : NotificationType}
    {post : Option Post} (he : e.Identified) (huid : uid ≠ "")
    (hpost : type ≠ .follow → ∃ p, post = some p ∧ p.Identified) (hQ : Q s) :
    (NotificationService.uploadNotification uid fromUser type post).wp (identified state) e
      Q s := by
  unfold NotificationService.uploadNotification
  refine wp_withCurrentUid he (fun currentUid hcurrentUid => ?_) hQ
  split
  -- to oneself nothing is sent
  next => exact hQ
  next =>
    rw [Prog.wp_ask]
    exact wp_write (by simp [huid.symm, he.autoId.symm])
      (identifiedDoc_notification hcurrentUid hpost) meets_noCompletion hQ

/-- The notifications to delete are found in the inbox of the owner. -/
theorem wp_deleteNotification {uid : String} {type : NotificationType} {postId : Option String}
    (he : e.Identified) (huid : uid ≠ "") (hQ : Q s) :
    (NotificationService.deleteNotification uid type postId).wp (identified state) e Q s := by
  unfold NotificationService.deleteNotification
  refine wp_withCurrentUid he (fun currentUid _ => ?_) hQ
  refine wp_getDocuments (by simp [huid.symm]) (fun y hy e' _ s' hs' => ?_) hQ
  rw [Prog.wp_ask]
  refine Prog.wp_forEach (fun x hx s₁ hs₁ => ?_) hs'
  split
  next =>
    cases y with
    | none => exact absurd hx List.not_mem_nil
    | some documents =>
      exact wp_write (by simp [huid.symm, (hy documents rfl x hx).1.symm]) trivial
        meets_noCompletion hs₁
  next => exact hs₁

/-- Storage is asked under a new name, which is not empty. -/
theorem wp_uploadImage {image : UIImage} {completion : String → Program σ}
    (hk : ∀ url, (completion url).Meets (identified state)) (hQ : Q s) :
    (ImageUploader.uploadImage image completion).wp (identified state) e Q s := by
  unfold ImageUploader.uploadImage
  split
  next => exact hQ
  next imageData =>
    rw [Prog.wp_ask]
    refine ⟨Request.identified_read List.not_mem_nil rfl, fun error _ e₁ _ s₁ hs₁ => ?_, hQ⟩
    cases error with
    | some error => exact hs₁
    | none =>
      refine ⟨Request.identified_read List.not_mem_nil rfl, fun url _ => ?_, hs₁⟩
      cases url with
      | none => exact fun _ _ _ hs => hs
      | some imageUrl => exact hk imageUrl

/-- The post is stored under a new identifier, with the account as its owner. -/
theorem wp_uploadPost {caption : String} {image : UIImage} {user : User}
    {completion : Option Error → Program σ} (he : e.Identified)
    (hk : ∀ y, (completion y).Meets (identified state)) (hQ : Q s) :
    (PostService.uploadPost caption image user completion).wp (identified state) e Q s := by
  unfold PostService.uploadPost
  refine wp_withCurrentUid he (fun uid huid => ?_) hQ
  refine wp_uploadImage (fun imageUrl e' he' s' hs' => ?_) hQ
  exact wp_write (by simp [he'.autoId.symm]) (identifiedDoc_post huid) hk hs'

/-- A comment goes under an identified post, by an identified user. -/
theorem wp_uploadComment {comment : String} {post : Post} {user : User}
    {completion : Option Error → Program σ} (he : e.Identified) (hpost : post.Identified)
    (huser : user.Identified) (hk : ∀ y, (completion y).Meets (identified state)) (hQ : Q s) :
    (CommentService.uploadComment comment post user completion).wp (identified state) e Q s :=
  wp_write (by simp [hpost.postId.symm, he.autoId.symm]) (identifiedDoc_comment huser) hk hQ

/-- All four copies name both sides. -/
theorem wp_uploadMessage {message : String} {user : User} {completion : Option Error → Program σ}
    (he : e.Identified) (huser : user.Identified)
    (hk : ∀ y, (completion y).Meets (identified state)) (hQ : Q s) :
    (MessagingService.uploadMessage message user completion).wp (identified state) e Q s := by
  have huser' : user.uid ≠ "" := huser
  unfold MessagingService.uploadMessage
  refine wp_withCurrentUid he (fun uid huid => ?_) hQ
  have hdoc : ∀ {uid' coll id : String}, IdentifiedDoc ["messages", uid', coll, id]
      (MessagingService.messageData uid e message user) :=
    identifiedDoc_message huser' huid
  rw [Prog.wp_ask]
  refine wp_write (by simp [huid.symm, huser'.symm, he.autoId.symm]) hdoc
    (fun _ e' he' s' hs' => ?_) hQ
  refine Prog.wp_andThen.mpr ?_
  refine wp_write (by simp [huid.symm, huser'.symm, he'.autoId.symm]) hdoc hk ?_
  refine Prog.wp_andThen.mpr ?_
  refine wp_write (by simp [huid.symm, huser'.symm]) hdoc meets_noCompletion ?_
  exact wp_write (by simp [huid.symm, huser'.symm]) hdoc meets_noCompletion hs'

/-- The copies are deleted under the identifiers the query has found. -/
theorem wp_deleteMessages {user : User} {completion : Option Error → Program σ}
    (he : e.Identified) (huser : user.Identified)
    (hk : ∀ y, (completion y).Meets (identified state)) (hQ : Q s) :
    (MessagingService.deleteMessages user completion).wp (identified state) e Q s := by
  have huser' : user.uid ≠ "" := huser
  unfold MessagingService.deleteMessages
  refine wp_withCurrentUid he (fun uid huid => ?_) hQ
  rw [Prog.wp_andThen]
  refine wp_getDocuments (by simp [huid.symm, huser'.symm]) (fun y hy e' _ s' hs' => ?_) ?_
  · cases y with
    | none => exact hs'
    | some documents =>
      exact meets_forEach (w := fun id => .delete ["messages", uid, user.uid, id])
        (fun x hx => by simp [huid.symm, huser'.symm, (hy documents rfl x hx).1.symm])
        (fun _ => trivial) meets_noCompletion hs'
  · exact wp_write (by simp [huid.symm, huser'.symm]) trivial hk hQ

/-- The document keeps the account as its `uid`. -/
theorem wp_saveUserData {user : User} {completion : Option Error → Program σ} (he : e.Identified)
    (hk : ∀ y, (completion y).Meets (identified state)) (hQ : Q s) :
    (UserService.saveUserData user completion).wp (identified state) e Q s := by
  unfold UserService.saveUserData
  refine wp_withCurrentUid he (fun uid huid => ?_) hQ
  exact wp_write (by simp [huid.symm]) (identifiedDoc_user huid) hk hQ

/-- An update of one field identifies no less than before. -/
theorem wp_setUserFCMToken (he : e.Identified) (hQ : Q s) :
    (UserService.setUserFCMToken : Program σ).wp (identified state) e Q s := by
  unfold UserService.setUserFCMToken
  refine wp_withCurrentUid he (fun uid huid => ?_) hQ
  rw [Prog.wp_ask]
  split
  next => exact hQ
  next fcmToken =>
    exact wp_write (by simp [huid.symm]) (identified_update (by decide)) meets_noCompletion hQ

/-- The old object is deleted by its URL, which is no path. -/
theorem wp_updateProfileImage {user : User} {image : UIImage}
    {completion : Option String → Option Error → Program σ} (he : e.Identified)
    (hk : ∀ url error, (completion url error).Meets (identified state)) (hQ : Q s) :
    (UserService.updateProfileImage user image completion).wp (identified state) e Q s := by
  unfold UserService.updateProfileImage
  refine wp_withCurrentUid he (fun uid huid => ?_) hQ
  split
  -- `reference(forURL:)` ends the process
  case isFalse => exact hQ
  refine ⟨Request.identified_read List.not_mem_nil rfl, fun _ _ _ _ _ hs => hs, ?_⟩
  refine wp_uploadImage (fun imageUrl e₁ _ s₁ hs₁ => ?_) hQ
  refine wp_write (by simp [huid.symm]) (identified_update (by decide))
    (fun error e₂ he₂ s₂ hs₂ => ?_) hs₁
  cases error with
  | some error => exact hk _ _ e₂ he₂ s₂ hs₂
  | none =>
    refine Prog.wp_andThen.mpr ?_
    refine wp_getDocuments (by simp) (fun y hy e₃ _ s₃ hs₃ => ?_) (hk _ _ e₂ he₂ s₂ hs₂)
    split
    next => exact hs₃
    next documents =>
      exact meets_forEach
        (w := fun id => .updateData ["posts", id] (dict [("ownerImageUrl", .string imageUrl)]))
        (fun x hx => by simp [(hy documents rfl x hx).1.symm])
        (fun _ => identified_update (by decide)) meets_noCompletion hs₃

/-- Auth hands out an identifier for the new account. -/
theorem wp_registerUser {credentials : AuthCredentials} {completion : Option Error → Program σ}
    (hk : ∀ y, (completion y).Meets (identified state)) (hQ : Q s) :
    (AuthService.registerUser credentials completion).wp (identified state) e Q s := by
  unfold AuthService.registerUser
  refine wp_uploadImage (fun imageUrl e₁ _ s₁ hs₁ => ?_) hQ
  refine ⟨Request.identified_read List.not_mem_nil rfl, fun result hresult e₂ _ s₂ hs₂ => ?_, hs₁⟩
  obtain ⟨uid, error⟩ := result
  cases error with
  | some error => exact hs₂
  | none =>
    cases uid with
    | none => exact hs₂
    | some uid =>
      have hne : uid ≠ "" := hresult uid rfl
      exact wp_write (by simp [hne.symm]) (identifiedDoc_user hne) hk hs₂

end Services

/-- From the state `s`, in a turn `e`, a program keeps `state` and issues requests along whole
paths only. -/
abbrev Whole {σ : Type} (state : σ → Prop) (p : Program σ) (e : Turn) (s : σ) : Prop :=
  p.wp (identified state) e state s

theorem whole_andThen {σ : Type} {state : σ → Prop} {p q : Program σ} {e : Turn} {s : σ}
    (hp : Whole state p e s) (hq : ∀ s, state s → Whole state q e s) :
    Whole state (p.andThen q) e s :=
  Prog.wp_andThen.mpr (hp.mono hq)

/-- A program that reads the state runs from the one it is in. -/
theorem whole_read {σ : Type} {state : σ → Prop} {k : σ → Program σ} {e : Turn} {s : σ}
    (hk : Whole state (k s) e s) : Whole state (.read k) e s := hk

end InstaClone
