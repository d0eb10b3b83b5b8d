import InstaClone.Client
import InstaClone.Services

/-!
# The controllers, statement by statement

`MainTabController`, `FeedController`, `UploadPostController`, `ProfileController`,
`NotificationsController`, `SearchController` and `CommentController`: what they load,
what their cells and sheets do when tapped, and what the completions do to them. A
completion is a definition of its own, so that the pool can be described by what is
still to run.

`Action` lists the things a user or UIKit can do; `Action.program` is the code each of
them runs. UIKit asks only for rows it has counted, so a cell request outside the list
does nothing. Pushing a controller is choosing an object that has not loaded its view;
a second view load of the same object does nothing.
-/

namespace InstaClone

open Async (Prog)

/-! ## Assignments to one object -/

/-- `self.… = …` in feed controller `c`. -/
def inFeed (c : Nat) (f : FeedController → FeedController) (rest : Program Client := .done) :
    Program Client :=
  .modify (·.mapFeed c f) rest

/-- `self.… = …` in profile controller `m`. -/
def inProfile (m : Nat) (f : ProfileController → ProfileController)
    (rest : Program Client := .done) : Program Client :=
  .modify (·.mapProfile m f) rest

/-- `self.… = …` in notifications controller `n`. -/
def inInbox (n : Nat) (f : NotificationsController → NotificationsController)
    (rest : Program Client := .done) : Program Client :=
  .modify (·.mapInbox n f) rest

/-- The text of the input view of comment controller `d` is set. -/
def inInputView (d : Nat) (text : String) (rest : Program Client := .done) : Program Client :=
  .modify (·.mapComments d fun comments => { comments with text := text }) rest

/-- `showLoader(_:)`. -/
def showLoader (isShown : Bool) (rest : Program Client := .done) : Program Client :=
  .modify (fun client => { client with loader := isShown }) rest

/-! ## `MainTabController` -/

/-- `MainTabController.fetchUser()`. -/
def MainTabController.fetchUser : Program Client :=
  withCurrentUid fun uid =>
    UserService.fetchUser uid fun user =>
      .modify (fun client => { client with tabUser := some user }) .done

/-! ## `FeedController` -/

namespace FeedController

/-- The completion of `checkIfUserLikedPost` in single-post mode. -/
def didCheckPost (c : Nat) (didLike : Bool) : Program Client :=
  inFeed c fun feed => feed.setPost (feed.post.map fun post => { post with didLike := didLike })

/-- The completion of `checkIfUserLikedPost` in list mode. -/
def didCheckPosts (c : Nat) (postId : String) (didLike : Bool) : Program Client :=
  inFeed c fun feed =>
    match feed.posts.findIdx? fun post => post.postId == postId with
    | some index =>
      feed.setPosts (feed.posts.modify index fun post => { post with didLike := didLike })
    | none => feed

/-- `checkIfUserLikedPosts()`. -/
def checkIfUserLikedPosts (c : Nat) : Program Client :=
  .read fun client =>
    match (client.feeds c).post with
    | some post => PostService.checkIfUserLikedPost post (didCheckPost c)
    | none =>
      .forEach (client.feeds c).posts fun post =>
        PostService.checkIfUserLikedPost post (didCheckPosts c post.postId)

/-- `fetchPosts()`. -/
def fetchPosts (c : Nat) : Program Client :=
  .read fun client =>
    match (client.feeds c).post with
    | some _ => .done
    | none =>
      PostService.fetchPosts fun posts =>
        inFeed c (·.setPosts posts) (checkIfUserLikedPosts c)

/-- `fetchUser()`. -/
def fetchUser (c : Nat) : Program Client :=
  withCurrentUid fun uid =>
    UserService.fetchUser uid fun user => inFeed c fun feed => { feed with user := some user }

/-- `viewDidLoad()`, once. -/
def viewDidLoad (c : Nat) : Program Client :=
  .read fun client =>
    if (client.feeds c).loaded then .done
    else
      inFeed c (fun feed => { feed with loaded := true })
        ((fetchPosts c).andThen ((fetchUser c).andThen
          (.read fun client =>
            if (client.feeds c).post.isSome then checkIfUserLikedPosts c else .done)))

/-- `FeedController(…)`, `controller.post = post`, and pushing it. -/
def push (c : Nat) (post : Post) : Program Client :=
  .read fun client =>
    if (client.feeds c).loaded then .done
    else inFeed c (·.setPost (some post)) (viewDidLoad c)

/-- `handleRefresh()`. -/
def handleRefresh (c : Nat) : Program Client :=
  inFeed c (·.setPosts []) (fetchPosts c)

/-- `deletePost(_:)`. -/
def deletePost (c : Nat) (post : Post) : Program Client :=
  showLoader true
    (PostService.deletePost post.postId fun _ => showLoader false (handleRefresh c))

/-- `collectionView(_:cellForItemAt:)`: cell `cell` is dequeued for row `row`. -/
def cellForItemAt (c cell row : Nat) : Program Client :=
  inFeed c fun feed =>
    match feed.postAt row with
    | some post =>
      feed.mapCell cell fun x => { x.setViewModel (some ⟨post⟩) with row := some row }
    | none => feed

/-- The completion of `unlikePost` in `cell(_:didLike:)`. -/
def didUnlike (c cell : Nat) (post : Post) (ownerUid : String) (_ : Option Error) :
    Program Client :=
  inFeed c
    (·.mapCell cell fun x =>
      (x.setLikeButton .heart .black).updatePost fun shown =>
        { shown with likes := post.likes - 1 })
    (.read fun client =>
      NotificationService.deleteNotification ownerUid .like
        (((client.feeds c).cells cell).post.map Post.postId))

/-- The completion of `likePost` in `cell(_:didLike:)`. -/
def didLike (c cell : Nat) (post : Post) (user : User) (_ : Option Error) : Program Client :=
  inFeed c
    (·.mapCell cell fun x =>
      (x.setLikeButton .heartFill .red).updatePost fun shown =>
        { shown with likes := post.likes + 1 })
    (NotificationService.uploadNotification post.ownerUid user .like (some post))

/-- `cell(_:didLike:)`, reached from the cell's `didTapLike()`. -/
def didTapLike (c cell : Nat) : Program Client :=
  .read fun client =>
    match ((client.feeds c).cells cell).post, client.tabUser with
    | some post, some user =>
      inFeed c
        (·.mapCell cell (·.updatePost fun shown => { shown with didLike := !shown.didLike }))
        (if post.didLike then
          PostService.unlikePost post (didUnlike c cell post post.ownerUid)
        else
          PostService.likePost post (didLike c cell post user))
    | _, _ => .done

/-- `alert.addAction(…)` in the callback of `checkIfUserIsFollowed`. -/
def didCheckOwner (k : Nat) (isFollowed : Bool) : Program Client :=
  .modify
    (·.mapSheet k fun sheet =>
      { sheet with
        actions := sheet.actions ++ [if isFollowed then .unfollow else .follow] })
    .done

/-- `cell(_:wantsToShowOptionsForPost:)`. -/
def wantsToShowOptions (c cell : Nat) : Program Client :=
  .read fun client =>
    match ((client.feeds c).cells cell).post with
    | none => .done
    | some post =>
      .ask fun turn =>
        let present (actions : List SheetAction) (rest : Program Client) : Program Client :=
          .modify (fun client =>
            { client with sheets := client.sheets ++ [⟨c, post, actions, true⟩] })
            rest
        if some post.ownerUid = turn.currentUid then
          present [.editPost, .deletePost, .cancel] .done
        else
          present [.cancel]
            (UserService.checkIfUserIsFollowed post.ownerUid (didCheckOwner client.sheets.length))

/-- The handler of a sheet action; the sheet is dismissed. -/
def didTapSheet (k : Nat) (action : SheetAction) : Program Client :=
  .read fun client =>
    match client.sheets[k]? with
    | none => .done
    | some sheet =>
      if sheet.presented ∧ action ∈ sheet.actions then
        .modify (·.mapSheet k fun sheet => { sheet with presented := false })
          (match action with
          | .editPost => .done
          | .deletePost => deletePost sheet.feed sheet.post
          | .unfollow =>
            showLoader true (UserService.unfollow sheet.post.ownerUid fun _ => showLoader false)
          | .follow =>
            showLoader true (UserService.follow sheet.post.ownerUid fun _ => showLoader false)
          | .cancel => .done)
      else .done

/-- `didFinishPickingMedia(_:)`: the picker hands over an image. -/
def didFinishPickingMedia (c k : Nat) (selectedImage : UIImage) : Program Client :=
  .modify
    (fun client =>
      { client with
        uploads := Function.update client.uploads k
          ⟨some selectedImage, (client.feeds c).user, c⟩ })
    .done

end FeedController

/-! ## `UploadPostController` -/

/-- `UploadPostController.didTapDone()`. -/
def UploadPostController.didTapDone (k : Nat) (caption : String) : Program Client :=
  .read fun client =>
    match (client.uploads k).selectedImage, (client.uploads k).currentUser with
    | some image, some user =>
      showLoader true
        (PostService.uploadPost caption image user fun error =>
          match error with
          | some _ => showLoader false
          | none => FeedController.handleRefresh (client.uploads k).delegate)
    | _, _ => .done

/-! ## `ProfileController` -/

namespace ProfileController

/-- `checkIfUserIsFollowed()`. -/
def checkIfUserIsFollowed (m : Nat) : Program Client :=
  .read fun client =>
    UserService.checkIfUserIsFollowed (client.profiles m).user.uid fun isFollowed =>
      inProfile m fun profile => profile.setUser { profile.user with isFollowed := isFollowed }

/-- `fetchUserStats()`. -/
def fetchUserStats (m : Nat) : Program Client :=
  .read fun client =>
    UserService.fetchUserStats (client.profiles m).user.uid fun stats =>
      inProfile m fun profile => profile.setUser { profile.user with stats := stats }

/-- `fetchPosts()`. -/
def fetchPosts (m : Nat) : Program Client :=
  .read fun client =>
    PostService.fetchPostsForUser (client.profiles m).user.uid fun posts =>
      inProfile m fun profile => { profile with posts := posts }.reloadData

/-- `viewDidLoad()`. -/
def viewDidLoad (m : Nat) : Program Client :=
  (checkIfUserIsFollowed m).andThen ((fetchUserStats m).andThen (fetchPosts m))

/-- `ProfileController(user:)` and showing it. -/
def push (m : Nat) (user : User) : Program Client :=
  .read fun client =>
    if (client.profiles m).loaded then .done
    else
      inProfile m (fun profile => { profile with loaded := true, user := user }) (viewDidLoad m)

/-- `handleRefresh()`. -/
def handleRefresh (m : Nat) : Program Client :=
  inProfile m (fun profile => { profile with posts := [] }) (fetchPosts m)

/-- `collectionView(_:viewForSupplementaryElementOfKind:at:)`. -/
def viewForHeader (m : Nat) : Program Client :=
  inProfile m fun profile => { profile with header := some profile.user }

/-- `collectionView(_:cellForItemAt:)`. -/
def cellForItemAt (m cell row : Nat) : Program Client :=
  inProfile m fun profile =>
    match profile.posts[row]? with
    | some post => { profile with cells := Function.update profile.cells cell (some ⟨post⟩) }
    | none => profile

/-- `collectionView(_:didSelectItemAt:)`, pushing feed controller `c`. -/
def didSelectItemAt (m row c : Nat) : Program Client :=
  .read fun client =>
    match (client.profiles m).posts[row]? with
    | some post => FeedController.push c post
    | none => .done

/-- The completion of `unfollow` in `header(_:didTapActionButtonFor:)`. -/
def didUnfollow (m : Nat) (user : User) (_ : Option Error) : Program Client :=
  inProfile m (fun profile => profile.setUser { profile.user with isFollowed := false })
    (NotificationService.deleteNotification user.uid .follow)

/-- The completion of `follow` in `header(_:didTapActionButtonFor:)`. -/
def didFollow (m : Nat) (user currentUser : User) (_ : Option Error) : Program Client :=
  inProfile m (fun profile => profile.setUser { profile.user with isFollowed := true })
    (NotificationService.uploadNotification user.uid currentUser .follow)

/-- `header(_:didTapActionButtonFor:)`, reached from the header's button. Editing the
own profile is a controller of its own. -/
def didTapActionButton (m : Nat) : Program Client :=
  .read fun client =>
    match (client.profiles m).header, client.tabUser with
    | some user, some currentUser =>
      .ask fun turn =>
        if user.isCurrentUser turn.currentUid then .done
        else if user.isFollowed then UserService.unfollow user.uid (didUnfollow m user)
        else UserService.follow user.uid (didFollow m user currentUser)
    | _, _ => .done

end ProfileController

/-- Fetch a user and push his profile: what a feed cell, a comment and a notification row
do. -/
def wantsToShowProfile (m : Nat) (uid : String) : Program Client :=
  UserService.fetchUser uid (ProfileController.push m)

/-! ## `NotificationsController` -/

namespace NotificationsController

/-- The completion of `checkIfUserIsFollowed`. -/
def didCheck (n : Nat) (id : String) (isFollowed : Bool) : Program Client :=
  inInbox n fun inbox =>
    match inbox.notifications.findIdx? fun notification => notification.id == id with
    | some index =>
      inbox.setNotifications
        (inbox.notifications.modify index fun x => { x with userIsFollowed := isFollowed })
    | none => inbox

/-- `checkIfUserIsFollowed()`. -/
def checkIfUserIsFollowed (n : Nat) : Program Client :=
  .read fun client =>
    .forEach (client.inboxes n).notifications fun notification =>
      if notification.type = .follow then
        UserService.checkIfUserIsFollowed notification.uid (didCheck n notification.id)
      else .done

/-- `fetchNotifications()`. -/
def fetchNotifications (n : Nat) : Program Client :=
  NotificationService.fetchNotifications fun notifications =>
    inInbox n (·.setNotifications notifications) (checkIfUserIsFollowed n)

/-- `viewDidLoad()`, once. -/
def viewDidLoad (n : Nat) : Program Client :=
  .read fun client =>
    if (client.inboxes n).loaded then .done
    else inInbox n (fun inbox => { inbox with loaded := true }) (fetchNotifications n)

/-- `handleRefresh()`. -/
def handleRefresh (n : Nat) : Program Client :=
  inInbox n (·.setNotifications []) (fetchNotifications n)

/-- `tableView(_:cellForRowAt:)`. -/
def cellForRowAt (n cell row : Nat) : Program Client :=
  inInbox n fun inbox =>
    match inbox.notifications[row]? with
    | some notification => inbox.mapCell cell fun _ => ⟨some notification, some row⟩
    | none => inbox

/-- The completion of `follow` and `unfollow`. -/
def didToggle (n cell : Nat) (_ : Option Error) : Program Client :=
  showLoader false
    (inInbox n
      (·.mapCell cell fun x =>
        { x with
          viewModel := x.viewModel.map fun shown =>
            { shown with userIsFollowed := !shown.userIsFollowed } }))

/-- `cell(_:wantsToFollow:)` and `cell(_:wantsToUnfollow:)`, reached from the cell's
`handleFollowTapped()`. -/
def handleFollowTapped (n cell : Nat) : Program Client :=
  .read fun client =>
    match ((client.inboxes n).cells cell).viewModel with
    | none => .done
    | some notification =>
      showLoader true
        (if notification.userIsFollowed then
          UserService.unfollow notification.uid (didToggle n cell)
        else
          UserService.follow notification.uid (didToggle n cell))

/-- `cell(_:wantsToViewPost:)`, reached from the cell's `handlePostTapped()`. -/
def handlePostTapped (n cell c : Nat) : Program Client :=
  .read fun client =>
    match ((client.inboxes n).cells cell).viewModel.bind Notification.postId with
    | none => .done
    | some postId =>
      PostService.fetchPost postId fun post => showLoader false (FeedController.push c post)

end NotificationsController

/-! ## `SearchController` -/

namespace SearchController

/-- `fetchPosts()`, from `viewDidLoad`. -/
def fetchPosts (n : Nat) : Program Client :=
  .read fun client =>
    if (client.searches n).loaded then .done
    else
      .modify (·.mapSearch n fun search => { search with loaded := true })
        (PostService.fetchPosts fun posts =>
          .modify (·.mapSearch n fun search => { search with posts := posts }) .done)

/-- `collectionView(_:cellForItemAt:)`. -/
def cellForItemAt (n cell item : Nat) : Program Client :=
  .modify
    (·.mapSearch n fun search =>
      match search.posts[item]? with
      | some post => { search with cells := Function.update search.cells cell (some ⟨post⟩) }
      | none => search)
    .done

/-- `collectionView(_:didSelectItemAt:)`, pushing feed controller `c`. -/
def didSelectItemAt (n item c : Nat) : Program Client :=
  .read fun client =>
    match (client.searches n).posts[item]? with
    | some post => FeedController.push c post
    | none => .done

end SearchController

/-! ## `CommentController` -/

namespace CommentController

/-- `cell(_:wantsToShowCommentsFor:)`: `CommentController(post:)` is pushed. -/
def push (c cell d : Nat) : Program Client :=
  .modify
    (fun client =>
      match (client.comments d).post, ((client.feeds c).cells cell).post with
      | none, some post => client.mapComments d fun comments => { comments with post := some post }
      | _, _ => client)
    .done

/-- The completion of `uploadComment`; `clearCommentTextView()` empties the input view. -/
def didUpload (d : Nat) (post : Post) (currentUser : User) (_ : Option Error) : Program Client :=
  showLoader false
    (inInputView d ""
      (NotificationService.uploadNotification post.ownerUid currentUser .comment (some post)))

/-- `inputView(_:wantsToUploadComment:)`. -/
def wantsToUploadComment (d : Nat) (comment : String) : Program Client :=
  .read fun client =>
    match (client.comments d).post, client.tabUser with
    | some post, some currentUser =>
      showLoader true
        (CommentService.uploadComment comment post currentUser (didUpload d post currentUser))
    | _, _ => .done

/-- `handlePostTapped()` of the input view, in which the user has typed `comment`. -/
def handlePostTapped (d : Nat) (comment : String) : Program Client :=
  inInputView d comment (wantsToUploadComment d comment)

end CommentController

/-! ## What can be done -/

/-- What a user does, or UIKit asks for. The numbers name objects. -/
inductive Action where
  | tabDidLoad
  | feedDidLoad (c : Nat)
  | feedRefresh (c : Nat)
  | feedCell (c cell row : Nat)
  | likeTap (c cell : Nat)
  | optionsTap (c cell : Nat)
  | sheetTap (k : Nat) (action : SheetAction)
  | commentsTap (c cell d : Nat)
  | postComment (d : Nat) (comment : String)
  | pickImage (c k : Nat) (image : UIImage)
  | shareTap (k : Nat) (caption : String)
  | showProfile (m : Nat) (uid : String)
  | profileRefresh (m : Nat)
  | profileHeader (m : Nat)
  | profileCell (m cell row : Nat)
  | profileSelect (m row c : Nat)
  | headerTap (m : Nat)
  | inboxDidLoad (n : Nat)
  | inboxRefresh (n : Nat)
  | inboxCell (n cell row : Nat)
  | inboxFollowTap (n cell : Nat)
  | inboxPostTap (n cell c : Nat)
  | searchDidLoad (n : Nat)
  | searchCell (n cell item : Nat)
  | searchSelect (n item c : Nat)
deriving DecidableEq

/-- The code each action runs. -/
def Action.program : Action → Program Client
  | tabDidLoad => MainTabController.fetchUser
  | feedDidLoad c => FeedController.viewDidLoad c
  | feedRefresh c => FeedController.handleRefresh c
  | feedCell c cell row => FeedController.cellForItemAt c cell row
  | likeTap c cell => FeedController.didTapLike c cell
  | optionsTap c cell => FeedController.wantsToShowOptions c cell
  | sheetTap k action => FeedController.didTapSheet k action
  | commentsTap c cell d => CommentController.push c cell d
  | postComment d comment => CommentController.handlePostTapped d comment
  | pickImage c k image => FeedController.didFinishPickingMedia c k image
  | shareTap k caption => UploadPostController.didTapDone k caption
  | showProfile m uid => wantsToShowProfile m uid
  | profileRefresh m => ProfileController.handleRefresh m
  | profileHeader m => ProfileController.viewForHeader m
  | profileCell m cell row => ProfileController.cellForItemAt m cell row
  | profileSelect m row c => ProfileController.didSelectItemAt m row c
  | headerTap m => ProfileController.didTapActionButton m
  | inboxDidLoad n => NotificationsController.viewDidLoad n
  | inboxRefresh n => NotificationsController.handleRefresh n
  | inboxCell n cell row => NotificationsController.cellForRowAt n cell row
  | inboxFollowTap n cell => NotificationsController.handleFollowTapped n cell
  | inboxPostTap n cell c => NotificationsController.handlePostTapped n cell c
  | searchDidLoad n => SearchController.fetchPosts n
  | searchCell n cell item => SearchController.cellForItemAt n cell item
  | searchSelect n item c => SearchController.didSelectItemAt n item c

end InstaClone
