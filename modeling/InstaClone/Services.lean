import InstaClone.Records

/-!
# The services

`PostService`, `UserService`, `NotificationService`, `MessagingService`,
`CommentService`, `AuthService` and `ImageUploader`, statement by statement. A
Swift function with a `completion` is a `Program` with the same completion; the
trailing closures are the callbacks; two statements in a row are `andThen`. The
collection constants are written out (`COLLECTION_POSTS` is `"posts"` and so on)
and every other path segment is the literal of the call site.

A captured `var` that several callbacks share (`posts` in `fetchFeedPosts`,
`users` in `fetchUsers(fromCollection:)`) is a place in the client state, `Var`.
-/

namespace InstaClone

open Async (Prog)

variable {σ : Type}

/-- A captured variable: a place in the client state. -/
structure Var (σ α : Type) where
  get : σ → α
  set : α → σ → σ

/-! ## `ImageUploader` -/

/-- `ImageUploader.uploadImage(image:completion:)`. -/
def ImageUploader.uploadImage (image : UIImage) (completion : String → Program σ) : Program σ :=
  match image.jpegData with
  | none => .done
  | some imageData =>
    .ask fun turn =>
      let reference := "/profile_images/" ++ turn.autoId
      .call (.putData reference imageData)
        (fun error =>
          match error with
          | some _ => .done
          | none =>
            .call (.downloadURL reference)
              (fun url =>
                match url with
                | none => .done
                | some imageUrl => completion imageUrl)
              .done)
        .done

/-! ## `PostService` -/

namespace PostService

/-- `uploadPost(caption:image:user:completion:)`. -/
def uploadPost (caption : String) (image : UIImage) (user : User)
    (completion : Option Error → Program σ) : Program σ :=
  withCurrentUid fun uid =>
    ImageUploader.uploadImage image fun imageUrl =>
      .ask fun turn =>
        addDocument ["posts"]
          (dict [("caption", .string caption),
                 ("timestamp", .timestamp turn.now),
                 ("likes", .int 0),
                 ("imageUrl", .string imageUrl),
                 ("ownerUid", .string uid),
                 ("ownerImageUrl", .string user.profileImageUrl),
                 ("ownerUsername", .string user.username)])
          completion

/-- `fetchPost(withPostId:completion:)`. -/
def fetchPost (postId : String) (completion : Post → Program σ) : Program σ :=
  getDocument ["posts", postId] fun snapshot =>
    match snapshot with
    | none => .done
    | some snapshot =>
      match snapshot.data with
      | none => .done
      | some data => .ask fun turn => completion (Post.init turn.now snapshot.documentID data)

/-- `fetchPosts(completion:)`. -/
def fetchPosts (completion : List Post → Program σ) : Program σ :=
  getDocuments { collection := ["posts"], orderBy := some ("timestamp", true) } fun snapshot =>
    match snapshot with
    | none => .done
    | some documents =>
      .ask fun turn => completion (documents.map fun x => Post.init turn.now x.1 x.2)

/-- The comparator of both client-side sorts: newest second first. -/
def newerFirst (post1 post2 : Post) : Bool :=
  post1.timestamp.seconds ≥ post2.timestamp.seconds

/-- `fetchPosts(forUser:completion:)`. -/
def fetchPostsForUser (uid : String) (completion : List Post → Program σ) : Program σ :=
  getDocuments { collection := ["posts"], whereField := some ("ownerUid", .string uid) }
    fun snapshot =>
      match snapshot with
      | none => .done
      | some documents =>
        .ask fun turn =>
          completion ((documents.map fun x => Post.init turn.now x.1 x.2).mergeSort newerFirst)

/-- `likePost(post:completion:)`. -/
def likePost (post : Post) (completion : Option Error → Program σ) : Program σ :=
  withCurrentUid fun uid =>
    (updateData ["posts", post.postId] (dict [("likes", .int (post.likes + 1))])
      noCompletion).andThen
    (setData ["posts", post.postId, "post-likes", uid] (dict []) fun _ =>
      setData ["users", uid, "user-likes", post.postId] (dict []) completion)

/-- `unlikePost(post:completion:)`. -/
def unlikePost (post : Post) (completion : Option Error → Program σ) : Program σ :=
  withCurrentUid fun uid =>
    if post.likes > 0 then
      (updateData ["posts", post.postId] (dict [("likes", .int (post.likes - 1))])
        noCompletion).andThen
      (delete ["posts", post.postId, "post-likes", uid] fun _ =>
        delete ["users", uid, "user-likes", post.postId] completion)
    else .done

/-- `checkIfUserLikedPost(post:completion:)`. -/
def checkIfUserLikedPost (post : Post) (completion : Bool → Program σ) : Program σ :=
  withCurrentUid fun uid =>
    getDocument ["users", uid, "user-likes", post.postId] fun snapshot =>
      match snapshot with
      | none => .done
      | some snapshot => completion snapshot.data.isSome

/-- `fetchFeedPosts(completion:)`. -/
def fetchFeedPosts (posts : Var σ (List Post)) (completion : List Post → Program σ) :
    Program σ :=
  withCurrentUid fun uid =>
    .modify (posts.set [])
      (getDocuments { collection := ["users", uid, "user-feed"] } fun snapshot =>
        .forEach (snapshot.getD []) fun document =>
          fetchPost document.1 fun post =>
            .modify (fun s => posts.set ((posts.get s ++ [post]).mergeSort newerFirst) s)
              (.read fun s => completion (posts.get s)))

/-- `deletePost(_:completion:)`. -/
def deletePost (postId : String) (completion : Option Error → Program σ) : Program σ :=
  withCurrentUid fun uid =>
    (getDocuments { collection := ["posts", postId, "post-likes"] } fun snapshot =>
      match snapshot with
      | none => .done
      | some documents =>
        .forEach documents fun document =>
          delete ["users", document.1, "user-likes", postId] noCompletion).andThen
    (delete ["posts", postId] fun _ =>
      getDocuments { collection := ["followers", uid, "user-follwers"] } fun snapshot =>
        match snapshot with
        | none => .done
        | some documents =>
          (Prog.forEach documents fun document =>
            delete ["users", document.1, "user-feed", postId] noCompletion).andThen
          (getDocuments
            { collection := ["notifications", uid, "user-notifications"]
              whereField := some ("postId", .string postId) } fun snapshot =>
            match snapshot with
            | none => .done
            | some documents =>
              .forEach documents fun document =>
                delete ["notifications", uid, "user-notifications", document.1] completion))

/-- `updateUserFeedAfterFollowing(user:)`. -/
def updateUserFeedAfterFollowing (user : User) : Program σ :=
  withCurrentUid fun uid =>
    getDocuments { collection := ["posts"], whereField := some ("ownerUid", .string user.uid) }
      fun snapshot =>
        match snapshot with
        | none => .done
        | some documents =>
          .forEach documents fun document =>
            setData ["users", uid, "user-feed", document.1] (dict []) noCompletion

end PostService

/-! ## `UserService` -/

/-- `UserFilterConfig`. -/
inductive UserFilterConfig where
  | followers (uid : String)
  | following (uid : String)
  | likes (postId : String)
  | messages
  | all
deriving DecidableEq

namespace UserService

/-- `fetchUser(withUid:completion:)`. -/
def fetchUser (uid : String) (completion : User → Program σ) : Program σ :=
  getDocument ["users", uid] fun snapshot =>
    match snapshot.bind (·.data) with
    | none => .done
    | some dictionary => completion (User.init dictionary)

/-- `fetchUsers(fromCollection:completion:)`. -/
def fetchUsersFromCollection (collection : Path) (users : Var σ (List User))
    (completion : List User → Program σ) : Program σ :=
  .modify (users.set [])
    (getDocuments { collection := collection } fun snapshot =>
      match snapshot with
      | none => .done
      | some documents =>
        .forEach documents fun document =>
          fetchUser document.1 fun user =>
            .modify (fun s => users.set (users.get s ++ [user]) s)
              (.read fun s => completion (users.get s)))

/-- `fetchUsers(forConfig:completion:)`. -/
def fetchUsers (config : UserFilterConfig) (users : Var σ (List User))
    (completion : List User → Program σ) : Program σ :=
  match config with
  | .followers uid =>
    fetchUsersFromCollection ["followers", uid, "user-follwers"] users completion
  | .following uid =>
    fetchUsersFromCollection ["following", uid, "user-following"] users completion
  | .likes postId =>
    fetchUsersFromCollection ["posts", postId, "post-likes"] users completion
  | .all | .messages =>
    getDocuments { collection := ["users"] } fun snapshot =>
      match snapshot with
      | none => .done
      | some documents => completion (documents.map fun x => User.init x.2)

/-- `follow(uid:completion:)`. -/
def follow (uid : String) (completion : Option Error → Program σ) : Program σ :=
  withCurrentUid fun currentUid =>
    setData ["following", currentUid, "user-following", uid] (dict []) fun _ =>
      setData ["followers", uid, "user-followers", currentUid] (dict []) completion

/-- `unfollow(uid:completion:)`. -/
def unfollow (uid : String) (completion : Option Error → Program σ) : Program σ :=
  withCurrentUid fun currentUid =>
    delete ["following", currentUid, "user-following", uid] fun _ =>
      delete ["followers", uid, "user-followers", currentUid] completion

/-- `checkIfUserIsFollowed(uid:completion:)`. -/
def checkIfUserIsFollowed (uid : String) (completion : Bool → Program σ) : Program σ :=
  withCurrentUid fun currentUid =>
    getDocument ["following", currentUid, "user-following", uid] fun snapshot =>
      match snapshot with
      | none => .done
      | some snapshot => completion snapshot.data.isSome

/-- `snapshot?.documents.count ?? 0`. -/
def count (snapshot : Option (List (String × Doc))) : Nat := (snapshot.map List.length).getD 0

/-- `fetchUserStats(uid:completion:)`. -/
def fetchUserStats (uid : String) (completion : UserStats → Program σ) : Program σ :=
  getDocuments { collection := ["followers", uid, "user-followers"] } fun followers =>
    getDocuments { collection := ["following", uid, "user-following"] } fun following =>
      getDocuments { collection := ["posts"], whereField := some ("ownerUid", .string uid) }
        fun posts =>
          completion ⟨count followers, count following, count posts⟩

/-- `updateProfileImage(forUser:image:completion:)`. `Storage.reference(forURL:)` does not
return for a URL that it rejects. -/
def updateProfileImage (user : User) (image : UIImage)
    (completion : Option String → Option Error → Program σ) : Program σ :=
  withCurrentUid fun uid =>
    if Storage.accepts user.profileImageUrl then
      .call (.deleteObject user.profileImageUrl) (fun _ => .done)
        (ImageUploader.uploadImage image fun profileImageUrl =>
          updateData ["users", uid] (dict [("profileImageUrl", .string profileImageUrl)])
            fun error =>
              match error with
              | some error => completion none (some error)
              | none =>
                (getDocuments
                  { collection := ["posts"], whereField := some ("ownerUid", .string user.uid) }
                  fun snapshot =>
                    match snapshot with
                    | none => .done
                    | some documents =>
                      .forEach documents fun document =>
                        updateData ["posts", document.1]
                          (dict [("ownerImageUrl", .string profileImageUrl)])
                          noCompletion).andThen
                (completion (some profileImageUrl) none))
    else fatalError

/-- `saveUserData(user:completion:)`. -/
def saveUserData (user : User) (completion : Option Error → Program σ) : Program σ :=
  withCurrentUid fun uid =>
    setData ["users", uid]
      (dict [("email", .string user.email),
             ("fullname", .string user.fullname),
             ("profileImageUrl", .string user.profileImageUrl),
             ("uid", .string uid),
             ("username", .string user.username)])
      completion

/-- `setUserFCMToken()`. -/
def setUserFCMToken : Program σ :=
  withCurrentUid fun uid =>
    .ask fun turn =>
      match turn.fcmToken with
      | none => .done
      | some fcmToken =>
        updateData ["users", uid] (dict [("fcmToken", .string fcmToken)]) noCompletion

end UserService

/-! ## `CommentService` -/

/-- `CommentService.uploadComment(comment:post:user:completion:)`. -/
def CommentService.uploadComment (comment : String) (post : Post) (user : User)
    (completion : Option Error → Program σ) : Program σ :=
  .ask fun turn =>
    addDocument ["posts", post.postId, "comments"]
      (dict [("uid", .string user.uid),
             ("comment", .string comment),
             ("timestamp", .timestamp turn.now),
             ("username", .string user.username),
             ("profileImageUrl", .string user.profileImageUrl),
             ("postOwnerUid", .string post.ownerUid)])
      completion

/-! ## `MessagingService` -/

namespace MessagingService

/-- The dictionary `uploadMessage` stores four times. -/
def messageData (currentUid : String) (turn : Turn) (message : String) (user : User) : Doc :=
  dict [("text", .string message),
        ("fromId", .string currentUid),
        ("toId", .string user.uid),
        ("timestamp", .timestamp turn.now),
        ("username", .string user.username),
        ("profileImageUrl", .string user.profileImageUrl)]

/-- `uploadMessage(_:to:completion:)`. -/
def uploadMessage (message : String) (user : User) (completion : Option Error → Program σ) :
    Program σ :=
  withCurrentUid fun currentUid =>
    .ask fun turn =>
      let data := messageData currentUid turn message user
      addDocument ["messages", currentUid, user.uid] data fun _ =>
        (addDocument ["messages", user.uid, currentUid] data completion).andThen
        ((setData ["messages", currentUid, "recent-messages", user.uid] data
          noCompletion).andThen
        (setData ["messages", user.uid, "recent-messages", currentUid] data noCompletion))

/-- `deleteMessages(withUser:completion:)`. -/
def deleteMessages (user : User) (completion : Option Error → Program σ) : Program σ :=
  withCurrentUid fun uid =>
    (getDocuments { collection := ["messages", uid, user.uid] } fun snapshot =>
      .forEach (snapshot.getD []) fun document =>
        delete ["messages", uid, user.uid, document.1] noCompletion).andThen
    (delete ["messages", uid, "recent-messages", user.uid] completion)

end MessagingService

/-! ## `NotificationService` -/

namespace NotificationService

/-- The dictionary `uploadNotification` stores. -/
def notificationData (currentUid : String) (turn : Turn) (fromUser : User)
    (type : NotificationType) (post : Option Post) : Doc :=
  dict
    ([("timestamp", .timestamp turn.now),
      ("uid", .string currentUid),
      ("type", .int type.rawValue),
      ("id", .string turn.autoId),
      ("userProfileImageUrl", .string fromUser.profileImageUrl),
      ("username", .string fromUser.username)]
     ++ match post with
        | some post => [("postId", .string post.postId), ("postImageUrl", .string post.imageUrl)]
        | none => [])

/-- `uploadNotification(toUid:fromUser:type:post:)`. -/
def uploadNotification (uid : String) (fromUser : User) (type : NotificationType)
    (post : Option Post := none) : Program σ :=
  withCurrentUid fun currentUid =>
    if uid = currentUid then .done
    else
      .ask fun turn =>
        setData ["notifications", uid, "user-notifications", turn.autoId]
          (notificationData currentUid turn fromUser type post) noCompletion

/-- `fetchNotifications(completion:)`. -/
def fetchNotifications (completion : List Notification → Program σ) : Program σ :=
  withCurrentUid fun uid =>
    getDocuments
      { collection := ["notifications", uid, "user-notifications"]
        orderBy := some ("timestamp", true) } fun snapshot =>
      match snapshot with
      | none => .done
      | some documents =>
        .ask fun turn => completion (documents.map fun x => Notification.init turn.now x.2)

/-- Is this one of the notifications `deleteNotification` removes? -/
def isRetracted (type : NotificationType) (postId : Option String)
    (notification : Notification) : Bool :=
  notification.type == type && (postId == none || postId == notification.postId)

/-- `deleteNotification(toUid:type:postId:)`. -/
def deleteNotification (uid : String) (type : NotificationType)
    (postId : Option String := none) : Program σ :=
  withCurrentUid fun currentUid =>
    getDocuments
      { collection := ["notifications", uid, "user-notifications"]
        whereField := some ("uid", .string currentUid) } fun snapshot =>
      .ask fun turn =>
        .forEach (snapshot.getD []) fun document =>
          if isRetracted type postId (Notification.init turn.now document.2) then
            delete ["notifications", uid, "user-notifications", document.1] noCompletion
          else .done

end NotificationService

/-! ## `AuthService` -/

/-- `AuthService.registerUser(withCredential:completion:)`. -/
def AuthService.registerUser (credentials : AuthCredentials)
    (completion : Option Error → Program σ) : Program σ :=
  ImageUploader.uploadImage credentials.profileImage fun imageUrl =>
    .call (.createUser credentials.email credentials.password)
      (fun result =>
        match result.2 with
        | some _ => .done
        | none =>
          match result.1 with
          | none => .done
          | some uid =>
            .ask fun turn =>
              setData ["users", uid]
                (dict
                  ([("email", .string credentials.email),
                    ("fullname", .string credentials.fullname),
                    ("username", .string credentials.username),
                    ("profileImageUrl", .string imageUrl),
                    ("uid", .string uid)]
                   ++ match turn.fcmToken with
                      | some fcmToken => [("fcmToken", .string fcmToken)]
                      | none => []))
                completion)
      .done

end InstaClone
