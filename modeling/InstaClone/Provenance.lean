import InstaClone.Async.Ledger
import InstaClone.Copies
import InstaClone.Schema

/-!
# Where every record comes from

A post, a comment, a notification and a message are stored once, under an identifier that
the client draws. `records` is the book of these stores, and every program of the app enters
it at most once in a turn, under the identifier of that turn (`ScreenAction.enters`). As long
as identifiers are not repeated there is a ledger for the run: what was stored under each
path, once and for all.

`Terms.recorded` are the terms of a session that knows the ledger. What is stored is what the
ledger has, up to the count and the owner's picture of a post (`SameRecord`), and every post
that anybody holds, from whatever feed, profile, search, sheet or comment screen, is one of
the ledger (`Post.Recorded`). From that: records are never rewritten (`records_immutable`),
and all copies of a post agree, in all sessions at all times (`posts_agree`).
-/

namespace InstaClone

open Async
open Screens (onClient onEdit)

/-! ## The book of records -/

/-- The document of a post, a comment, a notification or a message. -/
def isRecord : Path → Bool
  | ["posts", _] => true
  | ["posts", _, "comments", _] => true
  | ["notifications", _, "user-notifications", _] => true
  | ["messages", _, coll, _] => coll != recentMessages
  | _ => false

/-- The record that a request stores. -/
def Request.record : Request → Option (Path × Doc)
  | .write (.setData path data) => if isRecord path then some (path, data) else none
  | _ => none

/-- Records are stored under the automatic identifier of the turn. -/
def records : Book Request Turn Path Doc String where
  entry := Request.record
  key := Turn.autoId
  keyOf path := path.getLastD ""

@[simp] theorem record_updateData (path : Path) (fields : Doc) :
    (Request.write (.updateData path fields)).record = none := rfl

@[simp] theorem record_delete (path : Path) : (Request.write (.delete path)).record = none := rfl

/-- A document that is no record is not booked, -/
theorem record_setData {path : Path} {data : Doc} (hpath : isRecord path = false) :
    (Request.write (.setData path data)).record = none := by
  show (if isRecord path then some (path, data) else none) = none
  rw [if_neg (by simp [hpath])]

/-- and one that is, is booked under its path. -/
theorem path_of_record {w : Write} {x : Path × Doc} (h : x ∈ (Request.write w).record) :
    x.1 = w.path ∧ isRecord w.path = true := by
  cases w with
  | setData path data =>
    have h' : (if isRecord path then some (path, data) else none) = some x := h
    split at h'
    next hpath =>
      rw [← Option.some.inj h']
      exact ⟨rfl, hpath⟩
    next => exact absurd h' (by simp)
  | updateData path fields => exact absurd h (by simp)
  | delete path => exact absurd h (by simp)

/-- The request stores no record, and updates only users and posts. -/
def Request.isPlain : Request → Bool
  | .write (.setData path _) => !isRecord path
  | .write (.updateData path _) => path.length == 2
  | _ => true

/-- A plain request books nothing. -/
theorem record_of_plain {r : Request} (h : r.isPlain = true) : r.record = none := by
  cases r with
  | write w =>
    cases w with
    | setData path data => exact record_setData ((Bool.not_eq_true' _).mp h)
    | updateData path fields => rfl
    | delete path => rfl
  | _ => rfl

/-- Reads are plain, -/
theorem plain_read {r : Request} (hr : r.isWrite = false) : r.isPlain = true := by
  cases r with
  | write w => exact absurd hr (by simp [Request.isWrite])
  | _ => rfl

/-- and so is a document that is no record. -/
theorem plain_setData {path : Path} {data : Doc} (hpath : isRecord path = false) :
    (Request.write (.setData path data)).isPlain = true :=
  (Bool.not_eq_true' _).mpr hpath

/-- The program stores no record, whatever is answered. -/
abbrev Recordless {σ : Type} (p : Program σ) : Prop :=
  p.Spares (fun r => r.isPlain = true) fun _ => ()

section Entering

variable {σ : Type} {e : Turn}

/-- The program stores at most one record in a turn. -/
abbrev Enters (e : Turn) (p : Program σ) : Prop := p.EntersIn records e

/-- Code that stores no record stores at most one in each turn, -/
theorem Recordless.enters {p : Program σ} (h : Recordless p) : Enters e p :=
  h.entersIn (fun _ hr => record_of_plain hr) e

/-- and none at all in its own turn. -/
theorem Recordless.blank {p : Program σ} (h : Recordless p) : p.BlankIn records e :=
  h.blankIn (fun _ hr => record_of_plain hr) e

/-- Code that only reads stores none. -/
theorem recordless_of_browses {p : Program Client} (h : Browses (fun _ => ()) p) : Recordless p :=
  h.mono fun _ hr => plain_read hr

/-- Whoever is signed in. -/
theorem enters_withCurrentUid {body : String → Program σ} (h : ∀ uid, Enters e (body uid)) :
    Enters e (withCurrentUid body) := by
  unfold withCurrentUid
  rw [Enters, Prog.entersIn_ask]
  split
  next uid _ => exact h uid
  next => trivial

/-- A request that stores no record. -/
theorem enters_call {r : Request} {k : Response r → Program σ} (hr : r.record = none)
    (hk : ∀ y e', Enters e' (k y)) : Enters e (.call r k .done) := by
  refine ⟨fun x hx => ?_, hk, trivial⟩
  have hx' : r.record = some x := hx
  rw [hr] at hx'
  exact absurd hx' (by simp)

/-- A record stored under the identifier of the turn. -/
theorem enters_addDocument {c : Path} {data : Doc} {k : Option Error → Program σ}
    (hk : ∀ y e', Enters e' (k y)) :
    Enters e (.call (.write (.setData (c ++ [e.autoId]) data)) k .done) := by
  refine ⟨fun x hx => ?_, hk, trivial⟩
  have hx' : (if isRecord (c ++ [e.autoId]) then some (c ++ [e.autoId], data) else none)
      = some x := hx
  split at hx'
  next =>
    rw [← Option.some.inj hx']
    refine ⟨?_, trivial⟩
    show (c ++ [e.autoId]).getLastD "" = e.autoId
    simp
  next => exact absurd hx' (by simp)

theorem recordless_silent {w : Write} (hw : (Request.write w).isPlain = true) :
    Recordless (.call (.write w) noCompletion .done : Program σ) := spares_silent hw

/-- The marks of a like are no records; its completion runs in a later turn. -/
theorem enters_likePost {post : Post} {completion : Option Error → Program σ}
    (hk : ∀ y e', Enters e' (completion y)) : Enters e (PostService.likePost post completion) := by
  refine enters_withCurrentUid fun uid => ?_
  have hcount : Recordless (updateData ["posts", post.postId]
      (dict [("likes", .int (post.likes + 1))]) noCompletion : Program σ) := recordless_silent rfl
  refine .after hcount.blank hcount.enters (enters_call (record_setData rfl) fun _ _ => ?_)
  exact enters_call (record_setData rfl) hk

/-- An unlike deletes. -/
theorem recordless_unlikePost {post : Post} {completion : Option Error → Program σ}
    (hk : ∀ error, Recordless (completion error)) :
    Recordless (PostService.unlikePost post completion) :=
  spares_unlikePost (fun _ => rfl) (fun _ => rfl) (fun _ => rfl) hk

/-- Neither are the marks of a follow. -/
theorem enters_follow {user : String} {completion : Option Error → Program σ}
    (hk : ∀ y e', Enters e' (completion y)) : Enters e (UserService.follow user completion) := by
  refine enters_withCurrentUid fun uid => enters_call (record_setData rfl) fun _ _ => ?_
  exact enters_call (record_setData rfl) hk

/-- So a follow stores no record if its completion stores none. -/
theorem recordless_follow {user : String} {completion : Option Error → Program σ}
    (hk : ∀ error, Recordless (completion error)) :
    Recordless (UserService.follow user completion) :=
  spares_follow (fun _ => plain_setData rfl) (fun _ => plain_setData rfl) hk

/-- An unfollow deletes. -/
theorem recordless_unfollow {user : String} {completion : Option Error → Program σ}
    (hk : ∀ error, Recordless (completion error)) :
    Recordless (UserService.unfollow user completion) :=
  spares_unfollow (fun _ => rfl) (fun _ => rfl) hk

/-- A notification is stored under the identifier of its turn, -/
theorem enters_uploadNotification {uid : String} {fromUser : User} {type : NotificationType}
    {post : Option Post} :
    Enters e (NotificationService.uploadNotification uid fromUser type post : Program σ) := by
  refine enters_withCurrentUid fun currentUid => ?_
  split
  next => trivial
  next =>
    exact enters_addDocument (c := ["notifications", uid, "user-notifications"])
      fun _ _ => trivial

/-- and deleted under the one it was found with. -/
theorem recordless_deleteNotification {uid : String} {type : NotificationType}
    {postId : Option String} :
    Recordless (NotificationService.deleteNotification uid type postId : Program σ) :=
  spares_deleteNotification (fun _ => rfl) fun _ => rfl

/-- A post is stored in the turn in which the image gets its URL. -/
theorem enters_uploadPost {caption : String} {image : UIImage} {user : User}
    {completion : Option Error → Program σ} (hk : ∀ y e', Enters e' (completion y)) :
    Enters e (PostService.uploadPost caption image user completion) := by
  refine enters_withCurrentUid fun uid => ?_
  unfold ImageUploader.uploadImage
  split
  next => trivial
  next imageData =>
    refine enters_call rfl fun error e₁ => ?_
    cases error with
    | some error => trivial
    | none =>
      refine enters_call rfl fun url e₂ => ?_
      cases url with
      | none => trivial
      | some imageUrl => exact enters_addDocument (c := ["posts"]) hk

/-- A comment is stored under the identifier of the turn. -/
theorem enters_uploadComment {comment : String} {post : Post} {user : User}
    {completion : Option Error → Program σ} (hk : ∀ y e', Enters e' (completion y)) :
    Enters e (CommentService.uploadComment comment post user completion) :=
  enters_addDocument (c := ["posts", post.postId, "comments"]) hk

/-- The two copies of a message are stored in two turns. -/
theorem enters_uploadMessage {message : String} {user : User}
    {completion : Option Error → Program σ} (hk : ∀ y e', Enters e' (completion y)) :
    Enters e (MessagingService.uploadMessage message user completion) := by
  refine enters_withCurrentUid fun uid => ?_
  have hentry : ∀ owner partner data, Recordless
      (setData ["messages", owner, "recent-messages", partner] data noCompletion : Program σ) :=
    fun owner partner data => recordless_silent (plain_setData rfl)
  refine enters_addDocument (c := ["messages", uid, user.uid]) fun error e' => ?_
  have hentries : Recordless _ :=
    .andThen (hentry uid user.uid (MessagingService.messageData uid e message user))
      (hentry user.uid uid (MessagingService.messageData uid e message user))
  exact .before (enters_addDocument (c := ["messages", user.uid, uid]) hk) hentries.blank
    hentries.enters

end Entering

/-! ### The app -/

theorem aloof_unit : Aloof fun _ : Client => () where
  feed _ _ _ := rfl
  profile _ _ _ := rfl
  inbox _ _ _ := rfl
  search _ _ _ := rfl
  loader _ _ := rfl

section App

variable {e : Turn}

/-- The notification of a like comes in a later turn. -/
theorem enters_didTapLike {c cell : Nat} : Enters e (FeedController.didTapLike c cell) := by
  intro client
  dsimp only
  split
  next post user _ _ =>
    show Prog.EntersIn records _ e
    dsimp only [inFeed, Prog.EntersIn]
    split
    next =>
      refine Recordless.enters (recordless_unlikePost fun error => ⟨fun _ => rfl, fun client => ?_⟩)
      exact recordless_deleteNotification
    next => exact enters_likePost fun error e' => enters_uploadNotification
  next => trivial

/-- The sheet follows, unfollows and deletes. -/
theorem recordless_didTapSheet {k : Nat} {action : SheetAction} :
    Recordless (FeedController.didTapSheet k action) := by
  have hloader : Recordless (showLoader false) := ⟨fun _ => rfl, trivial⟩
  intro client
  dsimp only
  split
  next => trivial
  next sheet _ =>
    split
    next =>
      refine ⟨fun _ => rfl, ?_⟩
      cases action with
      | editPost => trivial
      | cancel => trivial
      | deletePost =>
        refine ⟨fun _ => rfl, spares_deletePost (fun _ => rfl) rfl (fun _ => rfl) (fun _ => rfl)
          (fun _ _ => rfl) fun error => recordless_of_browses ?_⟩
        exact browses_showLoader aloof_unit.toDistant (browses_feedRefresh aloof_unit.toDistant)
      | unfollow => exact ⟨fun _ => rfl, recordless_unfollow fun _ => hloader⟩
      | follow => exact ⟨fun _ => rfl, recordless_follow fun _ => hloader⟩
    next => trivial

theorem recordless_wantsToShowOptions {c cell : Nat} :
    Recordless (FeedController.wantsToShowOptions c cell) := by
  intro client
  dsimp only
  split
  next => trivial
  next post _ =>
    intro turn
    dsimp only
    split
    next => exact ⟨fun _ => rfl, trivial⟩
    next =>
      refine ⟨fun _ => rfl, spares_checkIfUserIsFollowed (fun _ => rfl) fun isFollowed => ?_⟩
      exact ⟨fun _ => rfl, trivial⟩

/-- One post for each upload. -/
theorem enters_didTapDone {k : Nat} {caption : String} :
    Enters e (UploadPostController.didTapDone k caption) := by
  intro client
  dsimp only
  split
  next image user _ _ =>
    refine enters_uploadPost fun error e' => ?_
    cases error with
    | some error => trivial
    | none => exact (recordless_of_browses (browses_feedRefresh aloof_unit.toDistant)).enters
  next => trivial

/-- The notification of a follow comes in a later turn as well. -/
theorem enters_headerTap {m : Nat} : Enters e (ProfileController.didTapActionButton m) := by
  intro client
  dsimp only
  split
  next user currentUser _ _ =>
    dsimp only [Prog.EntersIn]
    split
    next => trivial
    next =>
      split
      next =>
        refine Recordless.enters (recordless_unfollow fun error => ⟨fun _ => rfl, ?_⟩)
        exact recordless_deleteNotification
      next => exact enters_follow fun error e' => enters_uploadNotification
  next => trivial

theorem recordless_inboxFollowTap {n cell : Nat} :
    Recordless (NotificationsController.handleFollowTapped n cell) := by
  have htoggle : ∀ error, Recordless (NotificationsController.didToggle n cell error) :=
    fun _ => ⟨fun _ => rfl, fun _ => rfl, trivial⟩
  intro client
  dsimp only
  split
  next => trivial
  next notification _ =>
    refine ⟨fun _ => rfl, ?_⟩
    split
    next => exact recordless_unfollow htoggle
    next => exact recordless_follow htoggle

/-- The comment first, its notification when it is acknowledged. -/
theorem enters_postComment {d : Nat} {comment : String} :
    Enters e (CommentController.handlePostTapped d comment) := by
  intro client
  dsimp only
  split
  next post currentUser _ _ =>
    exact enters_uploadComment fun error e' => enters_uploadNotification
  next => trivial

/-- The actions that may store a record. -/
def Action.stores : Action → Bool
  | .likeTap _ _ | .postComment _ _ | .shareTap _ _ | .headerTap _ => true
  | _ => false

/-- The four actions that store records are those with `stores`. -/
theorem Action.recordless {a : Action} (ha : a.stores = false) : Recordless a.program := by
  by_cases hreads : a.reads = true
  · exact recordless_of_browses (a.browses_program aloof_unit hreads)
  · cases a with
    | tabDidLoad =>
      exact spares_withCurrentUid fun _ => spares_fetchUser rfl fun _ => ⟨fun _ => rfl, trivial⟩
    | likeTap c cell => exact absurd ha (by simp [Action.stores])
    | optionsTap c cell => exact recordless_wantsToShowOptions
    | sheetTap k action => exact recordless_didTapSheet
    | commentsTap c cell d => exact ⟨fun _ => rfl, trivial⟩
    | postComment d comment => exact absurd ha (by simp [Action.stores])
    | pickImage c k image => exact ⟨fun _ => rfl, trivial⟩
    | shareTap k caption => exact absurd ha (by simp [Action.stores])
    | headerTap m => exact absurd ha (by simp [Action.stores])
    | inboxFollowTap n cell => exact recordless_inboxFollowTap
    | _ => exact absurd rfl hreads

/-- All of them store one in a turn at most. -/
theorem Action.enters (a : Action) : Enters e a.program := by
  by_cases ha : a.stores = false
  · exact (Action.recordless ha).enters
  · cases a with
    | likeTap c cell => exact enters_didTapLike
    | postComment d comment => exact enters_postComment
    | shareTap k caption => exact enters_didTapDone
    | headerTap m => exact enters_headerTap
    | _ => exact absurd rfl ha

theorem recordless_handleSignUp {credentials : AuthCredentials} :
    Recordless (RegisterationViewController.handleSignUp credentials) := by
  refine spares_uploadImage (fun _ _ => rfl) (fun _ => rfl) fun url => ?_
  refine ⟨rfl, fun result => ?_, trivial⟩
  dsimp only
  split
  next => trivial
  next =>
    split
    next => trivial
    next uid _ =>
      intro turn
      refine spares_write (plain_setData rfl) fun error => ?_
      cases error with
      | some error => trivial
      | none =>
        exact spares_withCurrentUid fun _ => spares_fetchUser rfl fun _ => ⟨fun _ => rfl, trivial⟩

/-- What holds in the tabs holds among all screens. -/
theorem enters_onClient {p : Program Client} (h : Enters e p) : Enters e (onClient p) :=
  Prog.EntersIn.zoom h

/-- A listener only reads. -/
theorem recordless_snapshot {ρ : Type} {watch : Var Screens (Watch ρ)}
    {assign : Turn → ρ → Option (List DocumentChange) → ρ} {modified : List String} :
    Recordless (Watch.snapshot watch assign modified) := by
  intro screens
  dsimp only
  split
  next => trivial
  next q _ => exact spares_getDocuments rfl fun result turn => ⟨fun _ => rfl, trivial⟩

theorem recordless_addSnapshotListener {ρ : Type} {watch : Var Screens (Watch ρ)}
    {assign : Turn → ρ → Option (List DocumentChange) → ρ} {q : Query} :
    Recordless (Watch.addSnapshotListener watch assign q) := ⟨fun _ => rfl, recordless_snapshot⟩

theorem recordless_listPush {n : Nat} {config : UserFilterConfig} :
    Recordless (UserList.push n config) := by
  intro screens
  dsimp only
  split
  next => trivial
  next => exact ⟨fun _ => rfl, trivial⟩

/-- So does a list of users. -/
theorem recordless_fetchUsers {n : Nat} {config : UserFilterConfig}
    {completion : List User → Program Screens} (hk : ∀ users, Recordless (completion users)) :
    Recordless (UserService.fetchUsers config (Screens.fetched n) completion) := by
  have hall : Recordless (UserService.fetchUsers .all (Screens.fetched n) completion) := by
    refine spares_getDocuments rfl fun snapshot => ?_
    split
    next => trivial
    next => exact hk _
  have hcoll : ∀ collection, Recordless
      (UserService.fetchUsersFromCollection collection (Screens.fetched n) completion) := by
    intro collection
    refine ⟨fun _ => rfl, spares_getDocuments rfl fun snapshot => ?_⟩
    split
    next => trivial
    next documents =>
      refine .forEach fun document => spares_fetchUser rfl fun user => ?_
      exact ⟨fun _ => rfl, fun screens => hk _⟩
  cases config with
  | followers uid => exact hcoll _
  | following uid => exact hcoll _
  | likes postId => exact hcoll _
  | messages => exact hall
  | all => exact hall

theorem recordless_chatPush {k : Nat} {user : User} :
    Recordless (ChatController.push k user) := by
  intro screens
  dsimp only
  split
  next => trivial
  next =>
    exact ⟨fun _ => rfl, spares_withCurrentUid fun _ => recordless_addSnapshotListener⟩

theorem recordless_onClient {p : Program Client} (h : Recordless p) :
    Recordless (onClient p) := by
  refine Prog.Spares.zoom ?_ h
  exact fun _ _ _ _ _ => rfl

/-- The editor writes the user, who is no record. -/
theorem recordless_edit (a : EditAction) : Recordless a.program := by
  have hinfo : ∀ option text, Recordless (EditProfileController.updateUserInfo option text) := by
    intro option text
    refine ⟨fun _ => rfl, ?_⟩
    cases text with
    | none => trivial
    | some text => exact ⟨fun _ => rfl, trivial⟩
  have hpicture : Recordless EditProfileController.updateProfileImage := by
    intro session
    dsimp only
    split
    next => trivial
    next image _ =>
      refine ⟨fun _ => rfl, spares_updateProfileImage rfl (fun _ _ => rfl) (fun _ => rfl)
        (fun _ _ => rfl) (fun _ => rfl) (fun _ _ => rfl) fun url error => ⟨fun _ => rfl, ?_⟩⟩
      cases error with
      | some error => exact ⟨fun _ => rfl, trivial⟩
      | none =>
        cases url with
        | none => trivial
        | some url => exact ⟨fun _ => rfl, fun _ => rfl, trivial⟩
  have honly : ∀ condition (body : EditProfileController → Program EditSession),
      (∀ controller, Recordless (body controller)) →
      Recordless (EditProfileController.onlyIf condition body) := by
    intro condition body hbody session
    dsimp only
    split
    next => exact hbody _
    next => trivial
  have hsave : ∀ user (completion : Option Error → Program EditSession),
      (∀ error, Recordless (completion error)) →
      Recordless (EditProfileController.showLoader true
        (UserService.saveUserData user completion)) :=
    fun user completion hk =>
      ⟨fun _ => rfl, spares_saveUserData (fun _ => plain_setData rfl) hk⟩
  cases a with
  | editingDidEnd option text => exact hinfo option text
  | imagePicked image => exact ⟨fun _ => rfl, trivial⟩
  | doneTap focused =>
    refine .andThen ?_ (honly _ _ fun _ => ?_)
    · cases focused with
      | none => trivial
      | some x => exact hinfo x.1 x.2
    · refine .andThen (honly _ _ fun _ => hpicture) (.andThen (honly _ _ fun controller => ?_)
        (honly _ _ fun controller => hsave _ _ fun _ => hpicture))
      exact hsave _ _ fun _ => ⟨fun _ => rfl, fun _ => rfl, trivial⟩
  | setUserFCMToken => exact spares_setUserFCMToken fun _ _ => rfl

/-- What a chat does with its partner it does with anyone. -/
theorem spares_withUser {α : Type} {ok : Request → Prop} {obs : Screens → α} {k : Nat}
    {body : User → Program Screens} (h : ∀ user, (body user).Spares ok obs) :
    (ChatController.withUser k body).Spares ok obs := by
  intro screens
  dsimp only
  split
  next user _ => exact h user
  next => trivial

theorem enters_withUser {k : Nat} {body : User → Program Screens}
    (hbody : ∀ user, Enters e (body user)) : Enters e (ChatController.withUser k body) := by
  intro screens
  dsimp only
  split
  next user _ => exact hbody user
  next => trivial

/-- Fetching the users of a list writes nothing. -/
theorem recordless_usersDidLoad (strings : StringOps) {n : Nat} :
    Recordless (UserList.fetchUsers strings n) := by
  intro screens
  dsimp only
  split
  next => trivial
  next config _ =>
    split
    next => trivial
    next => exact ⟨fun _ => rfl, recordless_fetchUsers fun users => ⟨fun _ => rfl, trivial⟩⟩

/-- A conversation opens a chat, once its partner has been read. -/
theorem recordless_conversationsSelect {n row k : Nat} :
    Recordless (ConversationsController.didSelectRowAt n row k) := by
  -- the `hud` is shown until then
  have hloader : ∀ isShown, Recordless (onClient (showLoader isShown)) :=
    fun isShown => ⟨fun _ => rfl, trivial⟩
  intro screens
  dsimp only
  split
  next conversation _ =>
    have hfetch : Recordless (UserService.fetchUser conversation.chatPartnerId fun user =>
        (onClient (showLoader false)).andThen (ChatController.push k user)) :=
      spares_fetchUser rfl fun user => (hloader false).andThen recordless_chatPush
    exact (hloader true).andThen hfetch
  next => trivial

/-- Only the own profile opens the editor. -/
theorem recordless_editPresent {m k : Nat} : Recordless (EditScreen.present m k) := by
  intro screens
  dsimp only
  split
  next =>
    intro turn
    dsimp only
    split
    next => exact ⟨fun _ => rfl, trivial⟩
    next => trivial
  next => trivial

/-- A conversation is deleted copy by copy, then its entry. -/
theorem recordless_chatDelete (strings : StringOps) {k : Nat} :
    Recordless ((ScreenAction.chatDelete k).program strings) := by
  refine spares_withUser fun user => spares_withCurrentUid fun uid => .andThen ?_ ?_
  · refine spares_getDocuments rfl fun snapshot => ?_
    exact .forEach fun document => spares_silent rfl
  · exact spares_silent rfl

/-- After a follow the feed gets entries, which are no records. -/
theorem recordless_feedAfterFollowing (strings : StringOps) {m : Nat} :
    Recordless ((ScreenAction.feedAfterFollowing m).program strings) := by
  refine recordless_onClient ?_
  intro client
  dsimp only
  split
  next =>
    refine spares_withCurrentUid fun uid => spares_getDocuments rfl fun snapshot => ?_
    split
    next => trivial
    next documents => exact .forEach fun document => spares_silent (plain_setData rfl)
  next => trivial

/-- The actions that may store a record. -/
def ScreenAction.stores : ScreenAction → Bool
  | .app a => a.stores
  | .chatSend _ _ => true
  | _ => false

/-- Besides the four, only a message stores a record. -/
theorem ScreenAction.recordless (strings : StringOps) {a : ScreenAction}
    (ha : a.stores = false) : Recordless (a.program strings) := by
  cases a with
  | app a => exact recordless_onClient (Action.recordless ha)
  | register credentials => exact recordless_onClient recordless_handleSignUp
  | tabProfile m =>
    exact recordless_onClient (recordless_of_browses (browses_tabProfile aloof_unit))
  | feedProfile c cell m =>
    exact recordless_onClient (recordless_of_browses (browses_feedProfile aloof_unit))
  | feedLikes c cell n =>
    intro screens
    dsimp only
    split
    next => exact recordless_listPush
    next => trivial
  | inboxSelect n row m =>
    exact recordless_onClient (recordless_of_browses (browses_inboxSelect aloof_unit))
  | profileFollowers m n =>
    intro screens
    dsimp only
    split
    next => exact recordless_listPush
    next => trivial
  | profileFollowing m n =>
    intro screens
    dsimp only
    split
    next => exact recordless_listPush
    next => trivial
  | searchTab n => exact recordless_listPush
  | newMessage n => exact recordless_listPush
  | usersDidLoad n => exact recordless_usersDidLoad strings
  | usersSearch n isActive text => exact ⟨fun _ => rfl, trivial⟩
  | usersCancel n => exact ⟨fun _ => rfl, trivial⟩
  | usersSelect n row k =>
    intro screens
    dsimp only
    split
    next => exact recordless_chatPush
    next => exact recordless_onClient (recordless_of_browses (browses_profilePush aloof_unit))
    next => trivial
  | commentsDidLoad d =>
    intro screens
    dsimp only
    split
    next => exact recordless_addSnapshotListener
    next => trivial
  | commentsSnapshot d modified => exact recordless_snapshot
  | commentsSelect d row m =>
    intro screens
    dsimp only
    split
    next => exact recordless_onClient (recordless_of_browses (browses_showProfile aloof_unit))
    next => trivial
  | conversationsDidLoad n =>
    intro screens
    dsimp only
    split
    next => trivial
    next =>
      exact spares_withCurrentUid fun _ => recordless_addSnapshotListener
  | conversationsSnapshot n modified => exact recordless_snapshot
  | conversationsSelect n row k => exact recordless_conversationsSelect
  | chatSnapshot k modified => exact recordless_snapshot
  | chatSend k text => exact absurd ha (by simp [ScreenAction.stores])
  | editPresent m k => exact recordless_editPresent
  | edit k a =>
    intro screens
    dsimp only
    split
    next =>
      refine Prog.Spares.zoom ?_ (recordless_edit a)
      exact fun _ _ _ _ _ => rfl
    next => trivial
  | editUpdate k =>
    intro screens
    dsimp only
    split
    next => exact recordless_onClient ⟨fun _ => rfl, trivial⟩
    next => trivial
  | chatDelete k => exact recordless_chatDelete strings
  | feedAfterFollowing m => exact recordless_feedAfterFollowing strings

/-- **At most one record in a turn**, under the identifier of the turn: the whole app. -/
theorem ScreenAction.enters (strings : StringOps) (a : ScreenAction) :
    Enters e (a.program strings) := by
  by_cases ha : a.stores = false
  · exact (ScreenAction.recordless strings ha).enters
  · cases a with
    | app a => exact enters_onClient a.enters
    | chatSend k text => exact enters_withUser fun user => enters_uploadMessage fun _ _ => trivial
    | _ => exact absurd rfl ha

end App

/-! ## The ledger -/

/-- The fields of a record that are changed after it has been stored. -/
def mutableKeys : Path → List String
  | ["posts", _] => ["likes", "ownerImageUrl"]
  | _ => []

/-- The same record at two times. -/
def SameRecord (path : Path) (d d' : Doc) : Prop := ∀ key, key ∉ mutableKeys path → d' key = d key

/-- Having the same record goes both ways, -/
theorem SameRecord.symm {path : Path} {d d' : Doc} (h : SameRecord path d d') :
    SameRecord path d' d := fun key hkey => (h key hkey).symm

/-- and on. -/
theorem SameRecord.trans {path : Path} {d d' d'' : Doc} (h : SameRecord path d d')
    (h' : SameRecord path d' d'') : SameRecord path d d'' :=
  fun key hkey => (h' key hkey).trans (h key hkey)

/-- What is stored is what the ledger has. -/
structure InRecords (ledger : Path → Option Doc) (path : Path) (d : Doc) : Prop where
  conforms : Conforms path d
  same : isRecord path = true → ∃ d₀, ledger path = some d₀ ∧ SameRecord path d₀ d

/-- The post has been uploaded as this dictionary: what never changes of it. -/
structure Post.UploadedAs (post : Post) (d : Doc) : Prop where
  caption : d.string "caption" = some post.caption
  imageUrl : d.string "imageUrl" = some post.imageUrl
  ownerUid : d.string "ownerUid" = some post.ownerUid
  ownerUsername : d.string "ownerUsername" = some post.ownerUsername
  timestamp : d.timestamp "timestamp" = some post.timestamp

/-- The post is one of the ledger. -/
def Post.Recorded (ledger : Path → Option Doc) (post : Post) : Prop :=
  ∃ d, ledger ["posts", post.postId] = some d ∧ post.UploadedAs d

/-- The count and the flag of a post are not in the ledger. -/
theorem postLaw_recorded (ledger : Path → Option Doc) : PostLaw (Post.Recorded ledger) where
  flag _ _ h := by
    obtain ⟨d, hd, hup⟩ := h
    exact ⟨d, hd, { hup with }⟩
  liked _ _ _ h := by
    obtain ⟨d, hd, hup⟩ := h
    exact ⟨d, hd, { hup with }⟩
  unliked _ _ _ _ h := by
    obtain ⟨d, hd, hup⟩ := h
    exact ⟨d, hd, { hup with }⟩

/-- A post that is decoded from a document that conforms has its fields. -/
theorem Post.init_uploadedAs {postId : String} {d : Doc} (h : Conforms ["posts", postId] d)
    (now : Timestamp) : (Post.init now postId d).UploadedAs d := by
  obtain ⟨schema, hschema, hfits⟩ := h.fits
  obtain rfl : postSchema = schema := Option.some.inj hschema
  have hstring : ∀ key, (⟨key, .string, true⟩ : Field) ∈ postSchema →
      d.string key = some ((d.string key).getD "") := by
    intro key hkey
    obtain ⟨s, hs⟩ := hfits.string hkey
    rw [hs]
    rfl
  refine ⟨hstring _ (by decide), hstring _ (by decide), hstring _ (by decide),
    hstring _ (by decide), ?_⟩
  have hmem : (⟨"timestamp", .timestamp, true⟩ : Field) ∈ postSchema := by decide
  obtain ⟨t, ht⟩ := hfits.timestamp hmem
  show d.timestamp "timestamp" = some ((d.timestamp "timestamp").getD now)
  rw [ht]
  rfl

/-- Nothing of that is among what is changed later. -/
theorem Post.UploadedAs.of_same {post : Post} {postId : String} {d d' : Doc}
    (hsame : SameRecord ["posts", postId] d d') (h : post.UploadedAs d') : post.UploadedAs d := by
  have hstring : ∀ key, key ∉ mutableKeys ["posts", postId] → d.string key = d'.string key := by
    intro key hkey
    unfold Doc.string
    rw [hsame key hkey]
  have htime : d.timestamp "timestamp" = d'.timestamp "timestamp" := by
    unfold Doc.timestamp
    rw [hsame "timestamp" (by simp [mutableKeys])]
  refine ⟨?_, ?_, ?_, ?_, htime.trans h.timestamp⟩
  · exact (hstring _ (by simp [mutableKeys])).trans h.caption
  · exact (hstring _ (by simp [mutableKeys])).trans h.imageUrl
  · exact (hstring _ (by simp [mutableKeys])).trans h.ownerUid
  · exact (hstring _ (by simp [mutableKeys])).trans h.ownerUsername

/-- The terms of a session with the accounts `account` that knows the ledger. -/
def Terms.recorded (account : String → Prop) (ledger : Path → Option Doc) : Terms where
  account := account
  stored := InRecords ledger
  post := Post.Recorded ledger
  law := postLaw_recorded ledger
  decoded postId d now h := by
    obtain ⟨d₀, hd₀, hsame⟩ := h.same rfl
    exact ⟨d₀, hd₀, (Post.init_uploadedAs h.conforms now).of_same hsame⟩
  named uid _ h := h.conforms.user uid rfl

/-- What a write updates, if it is an update. -/
def Write.updates : Write → Doc
  | .updateData _ fields => fields
  | _ => fun _ => none

/-- The updates of the inventory change only what may change. -/
theorem Terms.Writes.updates {T : Terms} {e : Turn} {w : Write} (h : T.Writes e w)
    (hpath : isRecord w.path = true) {key : String} (hkey : key ∉ mutableKeys w.path) :
    w.updates key = none := by
  have hone : ∀ {key' : String} {v : Value}, key ≠ key' → dict [(key', v)] key = none := by
    intro key' v hne
    unfold dict
    rw [List.lookup_cons, beq_eq_false_iff_ne.mpr hne]
    rfl
  cases h with
  | picture huid url => exact absurd hpath (by simp [Write.path, isRecord])
  | token huid token => exact absurd hpath (by simp [Write.path, isRecord])
  | count huid hpost likes =>
    exact hone fun heq => hkey (by simp [Write.path, heq, mutableKeys])
  | ownerImage huid postId url =>
    exact hone fun heq => hkey (by simp [Write.path, heq, mutableKeys])
  | likeMark huid postId v => cases v <;> rfl
  | likeCopy huid postId v => cases v <;> rfl
  | followMark huid user v => cases v <;> rfl
  | followCopy huid user v => cases v <;> rfl
  | _ => rfl

/-- The stored documents are what the ledger has. -/
def Store.Recorded (ledger : Path → Option Doc) (docs : Store) : Prop :=
  ∀ path d, docs.lookup path = some d → InRecords ledger path d

/-- A commit keeps the store in step with the ledger. -/
theorem Store.Recorded.commit {ledger : Path → Option Doc} {docs docs' : Store} {w : Write}
    {T : Terms} {e : Turn} (h : docs.Recorded ledger) (hw : T.Writes e w)
    (hledger : records.InLedger ledger (.write w)) (hcommit : w.apply docs = some docs') :
    docs'.Recorded ledger := by
  intro path d hd
  have hconforms : docs'.Conform :=
    Store.Conform.commit (fun path d hd => (h path d hd).conforms) hw.conforms hcommit
  refine ⟨hconforms path d hd, fun hpath => ?_⟩
  by_cases heq : path = w.path
  · subst heq
    rw [Write.lookup_apply hcommit] at hd
    cases w with
    | setData path data =>
      obtain rfl : data = d := Option.some.inj hd
      have hentry : (Request.write (.setData path data)).record = some (path, data) := by
        show (if isRecord path then some (path, data) else none) = some (path, data)
        rw [if_pos (show isRecord path = true from hpath)]
      exact ⟨data, hledger (path, data) hentry, fun _ _ => rfl⟩
    | updateData path fields =>
      obtain ⟨d₁, hd₁, rfl⟩ := Option.map_eq_some_iff.mp hd
      obtain ⟨d₀, hd₀, hsame⟩ := (h path d₁ hd₁).same hpath
      refine ⟨d₀, hd₀, fun key hkey => ?_⟩
      unfold Doc.merge
      rw [show fields key = none from hw.updates hpath hkey]
      exact hsame key hkey
    | delete path => exact absurd hd (by simp [Write.effect])
  · rw [Write.lookup_apply_ne hcommit heq] at hd
    exact (h path d hd).same hpath

/-! ## Runs -/

/-- Is this a registration? -/
def Request.isSignUp : Request → Bool
  | .createUser _ _ => true
  | _ => false

/-- The accounts that a device registers are among its accounts. -/
def Newcomers {S : Type} (V : S → String → Prop) (w : AppWorld Screens S) :
    AppEvent S ScreenAction → Prop
  | .serve i (.success names) =>
    ∀ x ∈ w.pool[i]?, x.2.req.isSignUp = true → ∀ uid ∈ names, V x.1 uid
  | _ => True

instance {S : Type} {V : S → String → Prop} [∀ s uid, Decidable (V s uid)]
    (w : AppWorld Screens S) (ev : AppEvent S ScreenAction) : Decidable (Newcomers V w ev) :=
  match ev with
  | .serve _ (.success _) => inferInstanceAs (Decidable (∀ x ∈ _, _ → ∀ uid ∈ _, _))
  | .serve _ (.failure _) => isTrue trivial
  | .invoke _ _ _ => isTrue trivial
  | .deliver _ _ => isTrue trivial
  | .drop _ => isTrue trivial

/-- Every device is signed in to its own accounts only, and registers no others. -/
def Devices {S : Type} (V : S → String → Prop) (w : AppWorld Screens S)
    (ev : AppEvent S ScreenAction) : Prop :=
  EnvOk (fun s turn => ∀ uid ∈ turn.currentUid, V s uid) w ev ∧ Newcomers V w ev

instance {S : Type} {V : S → String → Prop} [∀ s uid, Decidable (V s uid)]
    (w : AppWorld Screens S) (ev : AppEvent S ScreenAction) : Decidable (Devices V w ev) :=
  inferInstanceAs (Decidable (_ ∧ _))

/-- The uid of a new account is one that the registration has been answered with. -/
theorem createUser_names {b b' : Backend} {email password : String} {names : List String}
    {y : Option String × Option Error}
    (hserve : serve b (.createUser email password) (.success names) = some (b', y)) {uid : String}
    (huid : uid ∈ y.1) : uid ∈ names := by
  simp only [serve] at hserve
  split at hserve
  next =>
    simp only [Option.some.injEq, Prod.mk.injEq] at hserve
    rw [← hserve.2] at huid
    exact absurd huid (by simp)
  next =>
    split at hserve
    next name =>
      split at hserve
      next => exact absurd hserve (by simp)
      next =>
        simp only [Option.some.injEq, Prod.mk.injEq] at hserve
        rw [← hserve.2] at huid
        rw [← Option.some.inj huid]
        exact List.mem_singleton_self _
    next => exact absurd hserve (by simp)

section Runs

variable {S : Type} [DecidableEq S] {strings : StringOps} {V : S → String → Prop}
  {ok : AppWorld Screens S → AppEvent S ScreenAction → Prop} {w w' w₁ w₂ : AppWorld Screens S}
  {es es₁ es₂ : List (AppEvent S ScreenAction)} {ledger : Path → Option Doc}

/-- What is asked to be stored as a record along a list of events, in the order of the requests.
Some of these may be refused, and some are still on the way. -/
def recordsOf (strings : StringOps) (es : List (AppEvent S ScreenAction)) :
    List (Path × Doc) :=
  history api (ScreenAction.program strings)
    (records.entries (ScreenAction.program strings)) unused es

omit [DecidableEq S] in
/-- A new account belongs to the device that has registered it. -/
theorem Newcomers.registers {T : Terms} {i : Nat} {o : Outcome} {s : S} {r : Request}
    {k : Response r → Program Screens} {b' : Backend} {y : Response r}
    (h : Newcomers V w (.serve i o)) (hi : w.pool[i]? = some (s, .issued r k))
    (haccount : ∀ uid, V s uid → T.account uid)
    (hserve : serve w.backend r o = some (b', y)) : T.Registers r y := by
  cases r with
  | createUser email password =>
    intro uid huid
    cases o with
    | success names =>
      exact haccount uid (h _ hi rfl uid (createUser_names hserve huid))
    | failure error =>
      simp only [serve, Option.some.injEq, Prod.mk.injEq] at hserve
      rw [← hserve.2] at huid
      exact absurd huid (by simp)
  | _ => trivial

/-- **What is in flight is in the inventory**, in runs along which what is stored is known. -/
theorem terms_run {T : S → Terms} (run : Run api (ScreenAction.program strings) ok unused es w)
    (hstored : ∀ w ev, ok w ev → ∀ s path d, w.backend.docs.lookup path = some d →
      (T s).stored path d)
    (hdevices : ∀ w ev, ok w ev → Devices (fun s => (T s).account) w ev) :
    w.Keeps (fun s => (T s).screens) fun _ => True := by
  have hstart : (unused : AppWorld Screens S).Keeps (fun s => (T s).screens) fun _ => True :=
    ⟨trivial, fun s => Terms.state_initial _, fun x hx => absurd hx List.not_mem_nil⟩
  refine run.invariant (I := fun _ w => w.Keeps (fun s => (T s).screens) fun _ => True) hstart
    fun es w ev w' hw hok hstep => hw.step ?_ ?_ ((hdevices w ev hok).1) hstep
  · rintro i o rfl s r k hi e b' y - - hs
    refine ⟨trivial, Terms.replies_of_serve (hstored w _ hok s) ?_ hs⟩
    exact (hdevices w _ hok).2.registers hi (fun _ h => h) hs
  · cases ev with
    | invoke s a e => exact a.keeps strings
    | _ => trivial

/-- **The invariant of the app with a ledger**, in runs that enter it. -/
theorem recorded_along
    (run : Run api (ScreenAction.program strings)
      (fun w ev => ok w ev ∧ records.Records (ScreenAction.program strings) ledger w ev)
      unused es w)
    (hok : ∀ w ev, ok w ev → Devices V w ev) :
    w.Keeps (fun s => (Terms.recorded (V s) ledger).screens)
        (fun b => b.docs.Recorded ledger)
      ∧ ∀ x ∈ w.pool, records.InLedger ledger x.2.req := by
  have hstart : (unused : AppWorld Screens S).Keeps
      (fun s => (Terms.recorded (V s) ledger).screens) fun b => b.docs.Recorded ledger := by
    refine ⟨fun path d hd => ?_, fun s => Terms.state_initial _, fun x hx => absurd hx ?_⟩
    · exact absurd hd (by simp [unused, atRest, Backend.empty])
    · exact List.not_mem_nil
  refine hstart.run_recorded (fun x hx => absurd hx List.not_mem_nil) run (fun _ _ h => h.2)
    ?_ ?_ ?_
  · intro w i o s r k e b' y h hi hb he hr hin hs
    refine ⟨?_, Terms.replies_of_serve hb ((hok w _ h.1).2.registers hi (fun _ h => h) hs) hs⟩
    cases r with
    | write wr =>
      rcases serve_write hs with ⟨-, docs, hdocs, rfl⟩ | ⟨-, rfl⟩
      · exact hb.commit (hr wr rfl) hin hdocs
      · exact hb
    | _ =>
      have hdocs := serve_docs hs fun w hw => by cases hw
      rw [hdocs]
      exact hb
  · intro w ev _
    cases ev with
    | invoke s a e => exact a.keeps strings
    | _ => trivial
  · exact fun w ev h => (hok w ev h.1).1

/-- Every run enters a ledger that has its records. -/
theorem recorded_run (run : Run api (ScreenAction.program strings) ok unused es w)
    (hledger : ∀ x ∈ recordsOf strings es, ledger x.1 = some x.2)
    (hok : ∀ w ev, ok w ev → Devices V w ev) :
    w.Keeps (fun s => (Terms.recorded (V s) ledger).screens)
        (fun b => b.docs.Recorded ledger)
      ∧ ∀ x ∈ w.pool, records.InLedger ledger x.2.req :=
  recorded_along (run.recorded hledger) hok

omit [DecidableEq S] in
/-- Whoever the accounts belong to. -/
theorem devices_true (w : AppWorld Screens S) (ev : AppEvent S ScreenAction) :
    Devices (fun _ _ => True) w ev := by
  refine ⟨?_, ?_⟩
  · cases ev with
    | invoke s a e => exact fun _ _ => trivial
    | deliver i e => exact fun _ _ _ _ => trivial
    | _ => trivial
  · unfold Newcomers
    split
    next => exact fun _ _ _ _ _ => trivial
    next => trivial

omit [DecidableEq S] in
/-- The identifiers drawn are the keys of the turns. -/
theorem drawn_eq_keys (es : List (AppEvent S ScreenAction)) :
    (es.filterMap Event.turn).map records.key = drawn es := by
  unfold drawn
  rw [List.map_filterMap]
  refine List.filterMap_congr fun ev _ => ?_
  cases ev <;> rfl

/-- A run in which no identifier is drawn twice has a ledger. -/
theorem exists_recorded (run : Run api (ScreenAction.program strings) ok unused es w)
    (hids : (drawn es).Nodup) :
    ∃ ledger : Path → Option Doc,
      ∀ path d, ledger path = some d ↔ (path, d) ∈ recordsOf strings es := by
  refine run.exists_ledger (L := records) (fun a e => a.enters strings) rfl ?_
  rw [drawn_eq_keys]
  exact hids

/-- A run that goes on asks for more. -/
theorem recordsOf_subset (run₁ : Run api (ScreenAction.program strings) ok unused es₁ w₁)
    (hes : es₁ <+: es) : recordsOf strings es₁ ⊆ recordsOf strings es := by
  obtain ⟨es₂, rfl⟩ := hes
  unfold recordsOf
  rw [run₁.history_append]
  exact List.subset_append_left _ _

/-- A run that goes on has the same ledger for its first part and for all of it. -/
theorem exists_recorded_twice
    (run₁ : Run api (ScreenAction.program strings) ok unused es₁ w₁)
    (run₂ : Run api (ScreenAction.program strings) ok w₁ es₂ w₂)
    (hids : (drawn (es₁ ++ es₂)).Nodup) (hok : ∀ w ev, ok w ev → Devices V w ev) :
    ∃ ledger : Path → Option Doc,
      (w₁.Keeps (fun s => (Terms.recorded (V s) ledger).screens)
          fun b => b.docs.Recorded ledger)
        ∧ w₂.Keeps (fun s => (Terms.recorded (V s) ledger).screens)
          fun b => b.docs.Recorded ledger := by
  obtain ⟨ledger, hledger⟩ := exists_recorded (run₁.append run₂) hids
  refine ⟨ledger, (recorded_run run₁ (fun x hx => (hledger x.1 x.2).mpr ?_) hok).1,
    (recorded_run (run₁.append run₂) (fun x hx => (hledger x.1 x.2).mpr hx) hok).1⟩
  exact recordsOf_subset run₁ (List.prefix_append _ _) hx

/-- **Records are immutable.** Whatever happens in between, a comment, a notification or a
message that is stored at two times is the same, and of a post only the count and the owner's
picture have changed. -/
theorem records_immutable (run₁ : Run api (ScreenAction.program strings) ok unused es₁ w₁)
    (run₂ : Run api (ScreenAction.program strings) ok w₁ es₂ w₂)
    (hids : (drawn (es₁ ++ es₂)).Nodup) {path : Path} (hpath : isRecord path = true) {d₁ d₂ : Doc}
    (h₁ : w₁.backend.docs.lookup path = some d₁) (h₂ : w₂.backend.docs.lookup path = some d₂) :
    SameRecord path d₁ d₂ := by
  obtain ⟨ledger, hkeeps₁, hkeeps₂⟩ :=
    exists_recorded_twice run₁ run₂ hids fun w ev _ => devices_true w ev
  obtain ⟨d, hd, hsame₁⟩ := (hkeeps₁.backend path d₁ h₁).same hpath
  obtain ⟨d', hd', hsame₂⟩ := (hkeeps₂.backend path d₂ h₂).same hpath
  rw [hd] at hd'
  obtain rfl : d = d' := Option.some.inj hd'
  exact hsame₁.symm.trans hsame₂

/-- The oldest request is served, and its callback runs in a turn that draws `id`. -/
def answered (names : List String) (id : String) : List (AppEvent String ScreenAction) :=
  [.serve 0 (.success names), .deliver 0 (turnWith "a" id)]

/-- Ann registers, her feed is loaded, and she shares the post "p". -/
def sharing : List (AppEvent String ScreenAction) :=
  [.invoke "a" (.register ⟨"a@b", "secret", "Ann", "ann", ⟨some "image"⟩⟩)
      { turnWith "a" "t0" with currentUid := none }]
    ++ answered [] "t1" ++ answered [] "t2" ++ answered ["a"] "t3" ++ answered [] "t4"
    ++ answered [] "t5"
    ++ [.invoke "a" (.app (.feedDidLoad 0)) (turnWith "a" "t6")]
    ++ answered [] "t7" ++ answered [] "t8"
    ++ [.invoke "a" (.app (.pickImage 0 0 ⟨some "image"⟩)) (turnWith "a" "t9"),
        .invoke "a" (.app (.shareTap 0 "hello")) (turnWith "a" "t10")]
    ++ answered [] "t11" ++ answered [] "p" ++ answered [] "t13" ++ answered ["p"] "t14"
    ++ answered [] "t15"

/-- She likes it. -/
def liking : List (AppEvent String ScreenAction) :=
  [.invoke "a" (.app (.feedCell 0 0 0)) (turnWith "a" "t16"),
    .invoke "a" (.app (.likeTap 0 0)) (turnWith "a" "t17")]
    ++ answered [] "t18" ++ answered [] "t19" ++ answered [] "t20"

/-- A like changes the count that is stored, and nothing else. -/
theorem records_immutable_liked :
    ∃ w₁ w₂, Run api (ScreenAction.program stringsASCII) (fun _ _ => True) unused sharing w₁
      ∧ Run api (ScreenAction.program stringsASCII) (fun _ _ => True) w₁ liking w₂
      ∧ ∃ d₁ d₂, w₁.backend.docs.lookup ["posts", "p"] = some d₁
        ∧ w₂.backend.docs.lookup ["posts", "p"] = some d₂
        ∧ d₁.int "likes" ≠ d₂.int "likes" ∧ SameRecord ["posts", "p"] d₁ d₂ := by
  obtain ⟨w₁, w₂, run₁, run₂, d₁, h₁, d₂, h₂, hlikes⟩ : ∃ w₁ w₂,
      Run api (ScreenAction.program stringsASCII) (fun _ _ => True) unused sharing w₁
      ∧ Run api (ScreenAction.program stringsASCII) (fun _ _ => True) w₁ liking w₂
      ∧ ∃ d₁ ∈ w₁.backend.docs.lookup ["posts", "p"], ∃ d₂ ∈ w₂.backend.docs.lookup ["posts", "p"],
        d₁.int "likes" ≠ d₂.int "likes" := exists_runs_of_play (by decide +kernel)
  exact ⟨w₁, w₂, run₁, run₂, d₁, d₂, h₁, h₂, hlikes,
    records_immutable run₁ run₂ (by decide +kernel) rfl h₁ h₂⟩

/-! ### The copies of a post -/

/-- The session holds the post: on a feed, a profile, the search grid or a comment screen, or
behind an options sheet. -/
inductive Client.Has (client : Client) (post : Post) : Prop
  | feedPosts (c : Nat) (h : post ∈ (client.feeds c).posts)
  | feedPost (c : Nat) (h : (client.feeds c).post = some post)
  | feedCell (c cell : Nat) (h : ((client.feeds c).cells cell).post = some post)
  | profilePosts (m : Nat) (h : post ∈ (client.profiles m).posts)
  | profileCell (m cell : Nat) (h : (client.profiles m).cells cell = some ⟨post⟩)
  | searchPosts (n : Nat) (h : post ∈ (client.searches n).posts)
  | searchCell (n cell : Nat) (h : (client.searches n).cells cell = some ⟨post⟩)
  | comments (d : Nat) (h : (client.comments d).post = some post)
  | sheet (sheet : OptionsSheet) (h : sheet ∈ client.sheets) (hpost : sheet.post = post)

theorem Client.Holds.of_has {P : Post → Prop} {client : Client} (h : client.Holds P) {post : Post}
    (hpost : client.Has post) : P post := by
  cases hpost with
  | feedPosts c hmem => exact (h.feeds c).posts post hmem
  | feedPost c hsome => exact (h.feeds c).post post hsome
  | feedCell c cell hsome => exact (h.feeds c).cells cell post hsome
  | profilePosts m hmem => exact h.profilePosts m post hmem
  | profileCell m cell hsome => exact h.profileCells m cell ⟨post⟩ hsome
  | searchPosts n hmem => exact h.searchPosts n post hmem
  | searchCell n cell hsome => exact h.searchCells n cell ⟨post⟩ hsome
  | comments d hsome => exact h.comments d post hsome
  | sheet sheet hmem heq =>
    rw [← heq]
    exact h.sheets sheet hmem

/-- The same post, as far as it was uploaded. -/
structure Post.SameUpload (post post' : Post) : Prop where
  caption : post.caption = post'.caption
  imageUrl : post.imageUrl = post'.imageUrl
  ownerUid : post.ownerUid = post'.ownerUid
  ownerUsername : post.ownerUsername = post'.ownerUsername
  timestamp : post.timestamp = post'.timestamp

/-- Two posts decoded from one upload agree in all that the upload says. -/
theorem Post.UploadedAs.same {post post' : Post} {d : Doc} (h : post.UploadedAs d)
    (h' : post'.UploadedAs d) : post.SameUpload post' where
  caption := Option.some.inj (h.caption.symm.trans h'.caption)
  imageUrl := Option.some.inj (h.imageUrl.symm.trans h'.imageUrl)
  ownerUid := Option.some.inj (h.ownerUid.symm.trans h'.ownerUid)
  ownerUsername := Option.some.inj (h.ownerUsername.symm.trans h'.ownerUsername)
  timestamp := Option.some.inj (h.timestamp.symm.trans h'.timestamp)

/-- **All copies of a post agree.** However they were fetched, two posts with one identifier
that any two sessions hold at any two times have the caption, the image, the owner and the
time in common, with each other and with the document that is stored. -/
theorem posts_agree (run₁ : Run api (ScreenAction.program strings) ok unused es₁ w₁)
    (run₂ : Run api (ScreenAction.program strings) ok w₁ es₂ w₂)
    (hids : (drawn (es₁ ++ es₂)).Nodup) {s₁ s₂ : S} {post₁ post₂ : Post}
    (h₁ : (w₁.client s₁).client.Has post₁) (h₂ : (w₂.client s₂).client.Has post₂)
    (hid : post₁.postId = post₂.postId) :
    post₁.SameUpload post₂
      ∧ ∀ d, w₂.backend.docs.lookup ["posts", post₁.postId] = some d → post₁.UploadedAs d := by
  obtain ⟨ledger, hkeeps₁, hkeeps₂⟩ :=
    exists_recorded_twice run₁ run₂ hids fun w ev _ => devices_true w ev
  obtain ⟨d₁, hd₁, hup₁⟩ := (hkeeps₁.client s₁).1.of_has h₁
  obtain ⟨d₂, hd₂, hup₂⟩ := (hkeeps₂.client s₂).1.of_has h₂
  rw [← hid, hd₁] at hd₂
  obtain rfl : d₁ = d₂ := Option.some.inj hd₂
  refine ⟨hup₁.same hup₂, fun d hd => ?_⟩
  obtain ⟨d₀, hd₀, hsame⟩ := (hkeeps₂.backend _ d hd).same rfl
  rw [hd₁] at hd₀
  obtain rfl : d₁ = d₀ := Option.some.inj hd₀
  exact hup₁.of_same hsame.symm

/-- The post that was fetched before the like and the one in the cell after it. -/
theorem posts_agree_liked :
    ∃ w₁ w₂, Run api (ScreenAction.program stringsASCII) (fun _ _ => True) unused sharing w₁
      ∧ Run api (ScreenAction.program stringsASCII) (fun _ _ => True) w₁ liking w₂
      ∧ ∃ post₁ post₂, (w₁.client "a").client.Has post₁ ∧ (w₂.client "a").client.Has post₂
        ∧ post₁.likes ≠ post₂.likes ∧ post₁.SameUpload post₂ := by
  obtain ⟨w₁, w₂, run₁, run₂, post₁, h₁, post₂, h₂, hid, hlikes⟩ : ∃ w₁ w₂,
      Run api (ScreenAction.program stringsASCII) (fun _ _ => True) unused sharing w₁
      ∧ Run api (ScreenAction.program stringsASCII) (fun _ _ => True) w₁ liking w₂
      ∧ ∃ post₁ ∈ ((w₁.client "a").client.feeds 0).posts,
        ∃ post₂ ∈ (((w₂.client "a").client.feeds 0).cells 0).post,
          post₁.postId = post₂.postId ∧ post₁.likes ≠ post₂.likes :=
  exists_runs_of_play (by decide +kernel)
  exact ⟨w₁, w₂, run₁, run₂, post₁, post₂, .feedPosts 0 h₁, .feedCell 0 0 h₂, hlikes,
    (posts_agree run₁ run₂ (by decide +kernel) (.feedPosts 0 h₁) (.feedCell 0 0 h₂) hid).1⟩

end Runs

end InstaClone
