import InstaClone.Async.Turns
import InstaClone.Chats
import InstaClone.Comments
import InstaClone.Controllers
import InstaClone.Conversations
import InstaClone.Editing
import InstaClone.Search

/-!
# All the screens

`Client` holds the controllers of posts, follows and notifications. `Screens` adds the rest
of the app: registration, the lists of users, the comments, the conversations and the chats,
the editing of a profile. What a screen shows may be selected, and a selection pushes the
next screen, so this is where a record that one service has decoded becomes the argument of
another.

A program on one of the parts is run on it by `zoom`. A snapshot listener is a query that is
asked again for every snapshot: `Watch` keeps it with the result reported last, and what has
changed since then is what the callback is told.

Three screens cannot be reached in this version of the app (nothing calls `showMessages`, and
the taps on the two counts of a profile header do nothing). They are here with the others.
-/

namespace InstaClone

open Async (Prog)

/-! ## Snapshot listeners -/

/-- A snapshot listener: its query, the result it has reported last, and the controller it
reports to. -/
structure Watch (ρ : Type) where
  query : Option Query := none
  shown : List (String × Doc) := []
  controller : ρ

/-- What has changed between two results. Of the documents that are in both, `modified` are
those that Firestore reports. -/
def documentChanges (old new : List (String × Doc)) (modified : List String) :
    List DocumentChange :=
  ((old.filter fun x => x.1 ∉ new.map Prod.fst).map fun x => ⟨.removed, x.2⟩)
    ++ new.filterMap fun x =>
      if x.1 ∉ old.map Prod.fst then some ⟨.added, x.2⟩
      else if x.1 ∈ modified then some ⟨.modified, x.2⟩
      else none

namespace Watch

variable {σ ρ : Type}

/-- The callback of a snapshot, or of the listener's failure. -/
def hear (assign : ρ → Option (List DocumentChange) → ρ) (result : Option (List (String × Doc)))
    (modified : List String) (watch : Watch ρ) : Watch ρ :=
  { watch with
    shown := result.getD watch.shown
    controller :=
      assign watch.controller (result.map fun new => documentChanges watch.shown new modified) }

/-- A snapshot arrives. -/
def snapshot (watch : Var σ (Watch ρ)) (assign : Turn → ρ → Option (List DocumentChange) → ρ)
    (modified : List String) : Program σ :=
  .read fun s =>
    match (watch.get s).query with
    | none => .done
    | some q =>
      getDocuments q fun result =>
        .ask fun turn =>
          .modify (fun s => watch.set ((watch.get s).hear (assign turn) result modified) s) .done

/-- `query.addSnapshotListener`, with its first snapshot. -/
def addSnapshotListener (watch : Var σ (Watch ρ))
    (assign : Turn → ρ → Option (List DocumentChange) → ρ) (q : Query) : Program σ :=
  .modify (fun s => watch.set { watch.get s with query := some q } s) (snapshot watch assign [])

end Watch

/-- The callback of `fetchComments`, and the completion of `CommentController`. -/
def CommentRows.hear (turn : Turn) (controller : CommentRows)
    (changes : Option (List DocumentChange)) : CommentRows :=
  (commentRows.assign controller (.snapshot turn.now changes)).getD controller

/-- The callback of `fetchMessages`, and the completion of `ChatController`. -/
def ChatRows.hear (turn : Turn) (controller : ChatRows)
    (changes : Option (List DocumentChange)) : ChatRows :=
  (chatRows.assign controller (.snapshot turn.currentUid changes)).getD controller

/-- The callback of `fetchRecentMessages`, and the completion of `ConversationsController`. -/
def ConversationRows.hear (turn : Turn) (controller : ConversationRows)
    (changes : Option (List DocumentChange)) : ConversationRows :=
  let messages := (changes.getD []).map fun change => Message.init turn.currentUid change.document
  (conversationRows.assign controller
    (.snapshot turn.currentUid changes
      ((controller.updated messages).entries.map (·.2)))).getD controller

/-- `CommentService.fetchComments(forPost:completion:)`. -/
def CommentService.fetchComments {σ : Type} (postID : String) (watch : Var σ (Watch CommentRows)) :
    Program σ :=
  Watch.addSnapshotListener watch CommentRows.hear (commentsOf postID)

/-- `MessagingService.fetchMessages(forUser:completion:)`. -/
def MessagingService.fetchMessages {σ : Type} (user : User) (watch : Var σ (Watch ChatRows)) :
    Program σ :=
  withCurrentUid fun currentUid =>
    Watch.addSnapshotListener watch ChatRows.hear (conversationOf currentUid user.uid)

/-- `MessagingService.fetchRecentMessages(completion:)`. -/
def MessagingService.fetchRecentMessages {σ : Type} (watch : Var σ (Watch ConversationRows)) :
    Program σ :=
  withCurrentUid fun uid => Watch.addSnapshotListener watch ConversationRows.hear (recentsOf uid)

/-! ## The state -/

/-- `SearchController` as a list of users. `fetched` is the variable the callbacks of
`fetchUsers(fromCollection:)` capture. -/
structure UserList where
  config : Option UserFilterConfig := none
  loaded : Bool := false
  rows : SearchRows := {}
  fetched : List User := []

/-- An event of the rows. -/
def UserList.react (strings : StringOps) (ev : SearchRowsEvent) (list : UserList) :
    UserList :=
  match list.config with
  | some config => { list with rows := (list.rows.step config strings ev).getD list.rows }
  | none => list

structure ChatController where
  user : Option User := none
  watch : Watch ChatRows := { controller := {} }

/-- `EditProfileController` on screen, with the profile that is its delegate. -/
structure EditScreen where
  delegate : Nat
  session : EditSession

/-- The client state of a session, with all of its screens. -/
structure Screens where
  client : Client := {}
  lists : Nat → UserList := fun _ => {}
  comments : Nat → Watch CommentRows := fun _ => { controller := {} }
  conversations : Nat → Watch ConversationRows := fun _ => { controller := {} }
  chats : Nat → ChatController := fun _ => {}
  edits : Nat → Option EditScreen := fun _ => none

namespace Screens

def setClient (client : Client) (screens : Screens) : Screens := { screens with client := client }

def mapList (n : Nat) (f : UserList → UserList) (screens : Screens) : Screens :=
  { screens with lists := Function.update screens.lists n (f (screens.lists n)) }

def mapChat (k : Nat) (f : ChatController → ChatController) (screens : Screens) : Screens :=
  { screens with chats := Function.update screens.chats k (f (screens.chats k)) }

/-- `EditProfileController` number `k`, if it has been presented. -/
def session (k : Nat) (screens : Screens) : Option EditSession :=
  (screens.edits k).map EditScreen.session

def setSession (k : Nat) (session : EditSession) (screens : Screens) : Screens :=
  { screens with
    edits := Function.update screens.edits k
      ((screens.edits k).map fun edit => { edit with session := session }) }

/-- The variable `users` of list `n`. -/
def fetched (n : Nat) : Var Screens (List User) where
  get screens := (screens.lists n).fetched
  set users screens := screens.mapList n fun list => { list with fetched := users }

/-- The listener of comment controller `d`. -/
def commentWatch (d : Nat) : Var Screens (Watch CommentRows) where
  get screens := screens.comments d
  set watch screens := { screens with comments := Function.update screens.comments d watch }

/-- The listener of conversations controller `n`. -/
def conversationWatch (n : Nat) : Var Screens (Watch ConversationRows) where
  get screens := screens.conversations n
  set watch screens :=
    { screens with conversations := Function.update screens.conversations n watch }

/-- The listener of chat controller `k`. -/
def chatWatch (k : Nat) : Var Screens (Watch ChatRows) where
  get screens := (screens.chats k).watch
  set watch screens := screens.mapChat k fun chat => { chat with watch := watch }

/-- A program of the controllers in `Client`. -/
def onClient (p : Program Client) : Program Screens :=
  p.zoom (fun screens => some screens.client) setClient

/-- A program of the profile that is being edited. -/
def onEdit (k : Nat) (p : Program EditSession) : Program Screens :=
  .read fun screens =>
    if (screens.session k).isSome then p.zoom (session k) (setSession k) else .done

end Screens

open Screens (onClient onEdit)

/-! ## Controllers of `Client` that select what they show -/

/-- `RegisterationViewController.handleSignUp()`, up to the tab bar's
`authenticationDidComplete()`. -/
def RegisterationViewController.handleSignUp (credentials : AuthCredentials) : Program Client :=
  AuthService.registerUser credentials fun error =>
    match error with
    | some _ => .done
    | none => MainTabController.fetchUser

/-- The profile tab of `configureViewControllers(withUser:)`. -/
def MainTabController.showProfile (m : Nat) : Program Client :=
  .read fun client =>
    match client.tabUser with
    | some user => ProfileController.push m user
    | none => .done

/-- `cell(_:wantsToShowProfileFor:)`, reached from the cell's `showUserProfile()`. -/
def FeedController.wantsToShowProfileFor (c cell m : Nat) : Program Client :=
  .read fun client =>
    match ((client.feeds c).cells cell).post with
    | some post => wantsToShowProfile m post.ownerUid
    | none => .done

/-- `tableView(_:didSelectRowAt:)` of the notifications. -/
def NotificationsController.didSelectRowAt (n row m : Nat) : Program Client :=
  .read fun client =>
    match (client.inboxes n).notifications[row]? with
    | some notification =>
      showLoader true
        (UserService.fetchUser notification.uid fun user =>
          showLoader false (ProfileController.push m user))
    | none => .done

/-! ## `SearchController` -/

namespace UserList

/-- `SearchController(config:)`, and showing it. -/
def push (n : Nat) (config : UserFilterConfig) : Program Screens :=
  .read fun screens =>
    match (screens.lists n).config with
    | some _ => .done
    | none => .modify (·.mapList n fun list => { list with config := some config }) .done

/-- `fetchUsers()`, from `viewDidLoad`. -/
def fetchUsers (strings : StringOps) (n : Nat) : Program Screens :=
  .read fun screens =>
    match (screens.lists n).config with
    | none => .done
    | some config =>
      if (screens.lists n).loaded then .done
      else
        .modify (·.mapList n fun list => { list with loaded := true })
          (UserService.fetchUsers config (Screens.fetched n) fun users =>
            .modify (·.mapList n (react strings (.didFetchUsers users))) .done)

/-- `cell(_:wantsToViewLikesFor:)` of the feed, reached from the cell's
`handleLikesTapped()`. -/
def pushLikes (c cell n : Nat) : Program Screens :=
  .read fun screens =>
    match ((screens.client.feeds c).cells cell).post with
    | some post => push n (.likes post.postId)
    | none => .done

/-- `header(_:wantsToViewFollowersFor:)` and `header(_:wantsToViewFollowingFor:)`. -/
def pushRelation (config : String → UserFilterConfig) (m n : Nat) : Program Screens :=
  .read fun screens =>
    match (screens.client.profiles m).header with
    | some user => push n (config user.uid)
    | none => .done

end UserList

/-! ## `ChatController` -/

namespace ChatController

/-- `showChatController(forUser:)`: the controller is pushed and loads its view. -/
def push (k : Nat) (user : User) : Program Screens :=
  .read fun screens =>
    match (screens.chats k).user with
    | some _ => .done
    | none =>
      .modify (·.mapChat k fun chat => { chat with user := some user })
        (MessagingService.fetchMessages user (Screens.chatWatch k))

/-- A call about the partner of chat `k`. -/
def withUser (k : Nat) (body : User → Program Screens) : Program Screens :=
  .read fun screens =>
    match (screens.chats k).user with
    | some user => body user
    | none => .done

end ChatController

/-- `tableView(_:didSelectRowAt:)` of a list of users: the chat or the profile that it
pushes has the number `k`. -/
def UserList.didSelectRowAt (n row k : Nat) : Program Screens :=
  .read fun screens =>
    match (screens.lists n).config.bind fun config =>
      SearchRows.didSelectRowAt config (screens.lists n).rows row with
    | some (.startsChat user) => ChatController.push k user
    | some (.opensProfile user) => onClient (ProfileController.push k user)
    | none => .done

/-! ## `ConversationsController` -/

namespace ConversationsController

/-- `fetchConversations()`, from `viewDidLoad`. -/
def fetchConversations (n : Nat) : Program Screens :=
  .read fun screens =>
    match (screens.conversations n).query with
    | some _ => .done
    | none => MessagingService.fetchRecentMessages (Screens.conversationWatch n)

/-- `tableView(_:didSelectRowAt:)`. -/
def didSelectRowAt (n row k : Nat) : Program Screens :=
  .read fun screens =>
    match (screens.conversations n).controller.conversations[row]? with
    | some conversation =>
      (onClient (showLoader true)).andThen
        (UserService.fetchUser conversation.chatPartnerId fun user =>
          (onClient (showLoader false)).andThen (ChatController.push k user))
    | none => .done

end ConversationsController

/-! ## `CommentController` -/

namespace CommentController

/-- `fetchComments()`, from `viewDidLoad`. -/
def fetchComments (d : Nat) : Program Screens :=
  .read fun screens =>
    match (screens.client.comments d).post, (screens.comments d).query with
    | some post, none => CommentService.fetchComments post.postId (Screens.commentWatch d)
    | _, _ => .done

/-- `collectionView(_:didSelectItemAt:)`. -/
def didSelectItemAt (d row m : Nat) : Program Screens :=
  .read fun screens =>
    match (screens.comments d).controller.comments[row]? with
    | some comment => onClient (wantsToShowProfile m comment.uid)
    | none => .done

end CommentController

/-! ## `EditProfileController` and its delegate -/

namespace EditScreen

/-- `showEditProfileController()`, where `header(_:didTapActionButtonFor:)` calls it. -/
def present (m k : Nat) : Program Screens :=
  .read fun screens =>
    match (screens.client.profiles m).header, screens.client.tabUser, screens.edits k with
    | some user, some _, none =>
      .ask fun turn =>
        if user.isCurrentUser turn.currentUid then
          .modify
            (fun screens =>
              { screens with
                edits := Function.update screens.edits k
                  (some ⟨m, EditSession.opened (screens.client.profiles m).user⟩) })
            .done
        else .done
    | _, _, _ => .done

/-- `controller(_:wantsToUpdate:)` of the profile. -/
def wantsToUpdate (k : Nat) : Program Screens :=
  .read fun screens =>
    match screens.edits k with
    | some edit => onClient (inProfile edit.delegate (·.setUser edit.session.profileUser))
    | none => .done

end EditScreen

/-! ## What can be done -/

/-- What a user does, or UIKit or Firestore has the app do. The numbers name objects.
`editUpdate` is the second half of the delegate call that `EditSession` notes down. The last
two are services that no screen calls. -/
inductive ScreenAction where
  | app (a : Action)
  | register (credentials : AuthCredentials)
  | tabProfile (m : Nat)
  | feedProfile (c cell m : Nat)
  | feedLikes (c cell n : Nat)
  | inboxSelect (n row m : Nat)
  | profileFollowers (m n : Nat)
  | profileFollowing (m n : Nat)
  | searchTab (n : Nat)
  | newMessage (n : Nat)
  | usersDidLoad (n : Nat)
  | usersSearch (n : Nat) (isActive : Bool) (text : String)
  | usersCancel (n : Nat)
  | usersSelect (n row k : Nat)
  | commentsDidLoad (d : Nat)
  | commentsSnapshot (d : Nat) (modified : List String)
  | commentsSelect (d row m : Nat)
  | conversationsDidLoad (n : Nat)
  | conversationsSnapshot (n : Nat) (modified : List String)
  | conversationsSelect (n row k : Nat)
  | chatSnapshot (k : Nat) (modified : List String)
  | chatSend (k : Nat) (text : String)
  | editPresent (m k : Nat)
  | edit (k : Nat) (a : EditAction)
  | editUpdate (k : Nat)
  | chatDelete (k : Nat)
  | feedAfterFollowing (m : Nat)

/-- The code each action runs. -/
def ScreenAction.program (strings : StringOps) : ScreenAction → Program Screens
  | app a => onClient a.program
  | register credentials => onClient (RegisterationViewController.handleSignUp credentials)
  | tabProfile m => onClient (MainTabController.showProfile m)
  | feedProfile c cell m => onClient (FeedController.wantsToShowProfileFor c cell m)
  | feedLikes c cell n => UserList.pushLikes c cell n
  | inboxSelect n row m => onClient (NotificationsController.didSelectRowAt n row m)
  | profileFollowers m n => UserList.pushRelation .followers m n
  | profileFollowing m n => UserList.pushRelation .following m n
  | searchTab n => UserList.push n .all
  | newMessage n => UserList.push n .messages
  | usersDidLoad n => UserList.fetchUsers strings n
  | usersSearch n isActive text =>
    .modify (·.mapList n (UserList.react strings (.updateSearchResults isActive text))) .done
  | usersCancel n =>
    .modify (·.mapList n (UserList.react strings .searchBarCancelButtonClicked)) .done
  | usersSelect n row k => UserList.didSelectRowAt n row k
  | commentsDidLoad d => CommentController.fetchComments d
  | commentsSnapshot d modified =>
    Watch.snapshot (Screens.commentWatch d) CommentRows.hear modified
  | commentsSelect d row m => CommentController.didSelectItemAt d row m
  | conversationsDidLoad n => ConversationsController.fetchConversations n
  | conversationsSnapshot n modified =>
    Watch.snapshot (Screens.conversationWatch n) ConversationRows.hear modified
  | conversationsSelect n row k => ConversationsController.didSelectRowAt n row k
  | chatSnapshot k modified => Watch.snapshot (Screens.chatWatch k) ChatRows.hear modified
  | chatSend k text =>
    ChatController.withUser k fun user => MessagingService.uploadMessage text user noCompletion
  | editPresent m k => EditScreen.present m k
  | edit k a => onEdit k a.program
  | editUpdate k => EditScreen.wantsToUpdate k
  | chatDelete k =>
    ChatController.withUser k fun user => MessagingService.deleteMessages user noCompletion
  | feedAfterFollowing m =>
    onClient
      (.read fun client =>
        if (client.profiles m).loaded then
          PostService.updateUserFeedAfterFollowing (client.profiles m).user
        else .done)

/-- `NotificationViewModel.shouldHidePostImage`. -/
def Notification.shouldHidePostImage (notification : Notification) : Bool :=
  notification.type == .follow

/-- Is the action offered? Only a loaded profile has a header, a hidden image receives no
taps, and a profile is only shown of somebody on a screen. -/
def Screens.Offers (screens : Screens) : ScreenAction → Prop
  | .app (.showProfile _ _) => False
  | .app (.profileHeader m) | .editPresent m _ => (screens.client.profiles m).loaded = true
  | .app (.inboxPostTap n cell _) =>
    ∀ notification ∈ ((screens.client.inboxes n).cells cell).viewModel,
      notification.shouldHidePostImage = false
  | _ => True

instance (screens : Screens) (a : ScreenAction) : Decidable (screens.Offers a) := by
  unfold Screens.Offers
  split <;> infer_instance

end InstaClone
