import InstaClone.Conduct
import InstaClone.Identifiers

/-!
# No path is built from an empty identifier

Every record that a screen holds is identified: `Client.Identified` says it of the
controllers of posts, follows and notifications, `Screens.Identified` of all of them. Each
program has one lemma that it keeps this and issues requests along whole paths only
(`Whole`), from the state it is run in: a profile that has just been pushed reads the user
it was given, and the image of a notification is tapped where it is not hidden.

Together with the store that gives an invariant of all runs from an empty backend
(`paths_whole`): no request ever in flight has an empty segment in its path.
-/

namespace InstaClone

open Async

/-! ## The controllers of `Client` -/

/-- The like completions do not touch the identifiers of a post. -/
theorem postLaw_identified : PostLaw Post.Identified where
  flag _ _ h := ⟨h.postId, h.ownerUid⟩
  liked _ _ _ h := ⟨h.postId, h.ownerUid⟩
  unliked _ _ _ _ h := ⟨h.postId, h.ownerUid⟩

/-- A profile has its user once it is loaded. -/
structure ProfileController.Identified (profile : ProfileController) : Prop where
  user : profile.loaded = true → profile.user.Identified
  header : ∀ user ∈ profile.header, user.Identified

structure NotificationsController.Identified (inbox : NotificationsController) : Prop where
  notifications : ∀ notification ∈ inbox.notifications, notification.Identified
  cells : ∀ cell, ∀ notification ∈ (inbox.cells cell).viewModel, notification.Identified

/-- Every record the controllers hold is identified. -/
structure Client.Identified (client : Client) : Prop where
  posts : client.Holds Post.Identified
  tabUser : ∀ user ∈ client.tabUser, user.Identified
  profiles : ∀ m, (client.profiles m).Identified
  inboxes : ∀ n, (client.inboxes n).Identified

/-- A session starts out with no records at all. -/
theorem Client.identified_initial : ({} : Client).Identified where
  posts := Client.holds_initial _
  tabUser _ h := absurd h (by simp)
  profiles _ := ⟨fun h => absurd h (by simp), fun _ h => absurd h (by simp)⟩
  inboxes _ := ⟨fun _ h => absurd h (by simp), fun _ _ h => absurd h (by simp)⟩

section Maps

variable {client : Client}

/-- An assignment keeps of the held posts what it keeps under some contract. -/
theorem Client.Holds.assigned {P : Post → Prop} {f : Client → Client} (h : client.Holds P)
    (hf : (Prog.modify f .done : Program Client).KeepsIn
      (appConduct (fun _ => True) P fun _ _ => True) (turnOf "")) : (f client).Holds P :=
  hf.1 client h

/-- A change of a feed that keeps its posts identified. -/
theorem Client.Identified.mapFeed (h : client.Identified) {c : Nat}
    {f : FeedController → FeedController}
    (hf : ∀ feed : FeedController, feed.Holds Post.Identified →
      (f feed).Holds Post.Identified) : (client.mapFeed c f).Identified :=
  { h with posts := h.posts.mapFeed hf }

/-- A change of a profile that leaves its cells alone. -/
theorem Client.Identified.mapProfile (h : client.Identified) {m : Nat}
    {f : ProfileController → ProfileController}
    (hposts : ∀ profile : ProfileController, (∀ post ∈ profile.posts, post.Identified) →
      ∀ post ∈ (f profile).posts, post.Identified)
    (hcells : ∀ profile, (f profile).cells = profile.cells)
    (hf : (f (client.profiles m)).Identified) : (client.mapProfile m f).Identified := by
  refine { h with
    posts := h.posts.mapProfile hposts fun profile _ hp => ?_
    profiles := fun m' => ?_ }
  · rw [hcells]
    exact hp
  · rw [Client.mapProfile_profiles]
    split
    next => exact hf
    next => exact h.profiles m'

/-- A change of an inbox that leaves it identified. -/
theorem Client.Identified.mapInbox (h : client.Identified) {n : Nat}
    {f : NotificationsController → NotificationsController}
    (hf : (f (client.inboxes n)).Identified) : (client.mapInbox n f).Identified := by
  refine { h with posts := { h.posts with }, inboxes := fun n' => ?_ }
  rw [Client.mapInbox_inboxes]
  split
  next => exact hf
  next => exact h.inboxes n'

/-- The list is replaced by identified notifications, -/
theorem NotificationsController.Identified.setNotifications {inbox : NotificationsController}
    (h : inbox.Identified) {notifications : List Notification}
    (hnotifications : ∀ notification ∈ notifications, notification.Identified) :
    (inbox.setNotifications notifications).Identified :=
  ⟨hnotifications, fun cell => h.cells cell⟩

/-- and a cell by one that shows such a notification. -/
theorem NotificationsController.Identified.mapCell {inbox : NotificationsController}
    (h : inbox.Identified) {cell : Nat} {f : NotificationCell → NotificationCell}
    (hf : ∀ notification ∈ (f (inbox.cells cell)).viewModel, notification.Identified) :
    (inbox.mapCell cell f).Identified := by
  refine ⟨h.notifications, fun cell' => ?_⟩
  show ∀ notification ∈ (Function.update inbox.cells cell (f (inbox.cells cell)) cell').viewModel, _
  rw [Function.update_apply]
  split
  next => exact hf
  next => exact h.cells cell'

end Maps

section Controllers

variable {e : Turn} {client : Client}

/-- The `hud` identifies nothing. -/
theorem whole_showLoader {isShown : Bool} {rest : Program Client} (h : client.Identified)
    (hrest : ∀ client : Client, client.Identified → Whole Client.Identified rest e client) :
    Whole Client.Identified (showLoader isShown rest) e client :=
  hrest _ { h with posts := { h.posts with } }

/-- An assignment in a feed, before the rest of the program. -/
theorem whole_inFeed {c : Nat} {f : FeedController → FeedController} {rest : Program Client}
    (h : client.Identified)
    (hf : ∀ feed : FeedController, feed.Holds Post.Identified → (f feed).Holds Post.Identified)
    (hrest : ∀ client : Client, client.Identified → Whole Client.Identified rest e client) :
    Whole Client.Identified (inFeed c f rest) e client :=
  hrest _ (h.mapFeed hf)

/-- The tab bar reads the document of the account. -/
theorem whole_tabFetchUser (he : e.Identified) (h : client.Identified) :
    Whole Client.Identified MainTabController.fetchUser e client := by
  unfold MainTabController.fetchUser
  refine wp_withCurrentUid he (fun uid huid => ?_) h
  refine wp_fetchUser huid (fun user huser e' _ client' h' => ?_) h
  refine { h' with posts := { h'.posts with }, tabUser := fun user' huser' => ?_ }
  rw [← Option.some.inj huser']
  exact huser

/-! ### `FeedController` -/

/-- Each check reads the copy of the mark of a held post. -/
theorem whole_checkIfUserLikedPosts (he : e.Identified) (h : client.Identified) {c : Nat} :
    Whole Client.Identified (FeedController.checkIfUserLikedPosts c) e client := by
  unfold FeedController.checkIfUserLikedPosts
  refine whole_read ?_
  split
  next post hpost =>
    refine wp_checkIfUserLikedPost he ((h.posts.feeds c).post post hpost) ?_ h
    intro didLike e' _ client' h'
    refine whole_inFeed h' (fun feed hfeed => hfeed.setPost fun p hp => ?_) fun _ h => h
    obtain ⟨shown, hshown, rfl⟩ := Option.map_eq_some_iff.mp hp
    exact postLaw_identified.flag _ _ (hfeed.post shown hshown)
  next =>
    refine Prog.wp_forEach (fun post hpost client' h' => ?_) h
    refine wp_checkIfUserLikedPost he ((h.posts.feeds c).posts post hpost) ?_ h'
    intro didLike e' _ client' h'
    refine whole_inFeed h' (fun feed hfeed => ?_) fun _ h => h
    split
    next => exact hfeed.setFlag postLaw_identified
    next => exact hfeed

/-- All posts are queried, or none. -/
theorem whole_feedFetchPosts (h : client.Identified) {c : Nat} :
    Whole Client.Identified (FeedController.fetchPosts c) e client := by
  unfold FeedController.fetchPosts
  refine whole_read ?_
  split
  next => exact h
  next =>
    refine wp_fetchPosts (fun posts hposts e' he' client' h' => ?_) h
    exact whole_inFeed h' (fun feed hfeed => hfeed.setPosts hposts) fun _ h =>
      whole_checkIfUserLikedPosts he' h

theorem whole_feedFetchUser (he : e.Identified) (h : client.Identified) {c : Nat} :
    Whole Client.Identified (FeedController.fetchUser c) e client := by
  unfold FeedController.fetchUser
  refine wp_withCurrentUid he (fun uid huid => ?_) h
  refine wp_fetchUser huid (fun user _ e' _ client' h' => ?_) h
  exact h'.mapFeed fun _ hfeed => ⟨hfeed.posts, hfeed.post, hfeed.cells⟩

/-- What a feed fetches when it loads. -/
theorem whole_feedDidLoad (he : e.Identified) (h : client.Identified) {c : Nat} :
    Whole Client.Identified (FeedController.viewDidLoad c) e client := by
  unfold FeedController.viewDidLoad
  refine whole_read ?_
  split
  next => exact h
  next =>
    refine whole_inFeed h (fun feed hfeed => ⟨hfeed.posts, hfeed.post, hfeed.cells⟩) ?_
    intro client h
    refine whole_andThen (whole_feedFetchPosts h) fun client h => ?_
    refine whole_andThen (whole_feedFetchUser he h) fun client h => ?_
    refine whole_read ?_
    split
    next => exact whole_checkIfUserLikedPosts he h
    next => exact h

/-- A feed is opened for an identified post. -/
theorem whole_feedPush (he : e.Identified) (h : client.Identified) {c : Nat} {post : Post}
    (hpost : post.Identified) : Whole Client.Identified (FeedController.push c post) e client := by
  unfold FeedController.push
  refine whole_read ?_
  split
  next => exact h
  next =>
    refine whole_inFeed h (fun feed hfeed => hfeed.setPost fun p hp => ?_) fun _ h =>
      whole_feedDidLoad he h
    rw [← Option.some.inj hp]
    exact hpost

theorem whole_feedRefresh (h : client.Identified) {c : Nat} :
    Whole Client.Identified (FeedController.handleRefresh c) e client :=
  whole_inFeed h (fun _ hfeed => hfeed.setPosts fun _ hp => absurd hp List.not_mem_nil)
    fun _ h => whole_feedFetchPosts h

/-- A cell takes a post of the array. -/
theorem whole_feedCell (h : client.Identified) {c cell row : Nat} :
    Whole Client.Identified (FeedController.cellForItemAt c cell row) e client := by
  refine whole_inFeed h (fun feed hfeed => ?_) fun _ h => h
  split
  next post hpost =>
    refine hfeed.mapCell fun x _ p hp => ?_
    have hshown : p = post := by
      unfold FeedCell.post at hp
      simpa using hp.symm
    rw [hshown]
    exact hfeed.postAt hpost
  next => exact hfeed

/-- The completion of `unlikePost` queries the inbox of the owner. -/
theorem whole_didUnlike (he : e.Identified) (h : client.Identified) {c cell : Nat} {post : Post}
    {ownerUid : String} {error : Option Error} (howner : ownerUid ≠ "") :
    Whole Client.Identified (FeedController.didUnlike c cell post ownerUid error) e client := by
  unfold FeedController.didUnlike
  refine whole_inFeed h (fun feed hfeed => ?_) fun client h => ?_
  · exact holds_mapCell_updatePost hfeed (g := FeedCell.setLikeButton .heart .black) (fun _ => rfl)
      fun _ hshown => ⟨hshown.postId, hshown.ownerUid⟩
  · exact whole_read (wp_deleteNotification he howner h)

/-- That of `likePost` writes there. -/
theorem whole_didLike (he : e.Identified) (h : client.Identified) {c cell : Nat} {post : Post}
    {user : User} {error : Option Error} (hpost : post.Identified) :
    Whole Client.Identified (FeedController.didLike c cell post user error) e client := by
  unfold FeedController.didLike
  refine whole_inFeed h (fun feed hfeed => ?_) fun client h => ?_
  · exact holds_mapCell_updatePost hfeed (g := FeedCell.setLikeButton .heartFill .red)
      (fun _ => rfl) fun _ hshown => ⟨hshown.postId, hshown.ownerUid⟩
  · exact wp_uploadNotification he hpost.ownerUid (fun _ => ⟨post, rfl, hpost⟩) h

/-- The paths of a like or unlike are those of the cell's post. -/
theorem whole_didTapLike (he : e.Identified) (h : client.Identified) {c cell : Nat} :
    Whole Client.Identified (FeedController.didTapLike c cell) e client := by
  unfold FeedController.didTapLike
  refine whole_read ?_
  split
  next post user hpost htab =>
    have hidentified : post.Identified := (h.posts.feeds c).cells cell post hpost
    refine whole_inFeed h (fun feed hfeed => ?_) fun client h => ?_
    · exact holds_mapCell_updatePost hfeed (g := id) (fun _ => rfl)
        fun _ hshown => ⟨hshown.postId, hshown.ownerUid⟩
    · split
      next =>
        -- the completion is given the owner of the same post
        exact wp_unlikePost he hidentified
          (fun _ _ he' _ h' => whole_didUnlike he' h' hidentified.ownerUid) h
      next =>
        exact wp_likePost he hidentified (fun _ _ he' _ h' => whole_didLike he' h' hidentified) h
  next => exact h

/-- The sheet keeps the post of the cell and checks its owner. -/
theorem whole_wantsToShowOptions (he : e.Identified) (h : client.Identified) {c cell : Nat} :
    Whole Client.Identified (FeedController.wantsToShowOptions c cell) e client := by
  unfold FeedController.wantsToShowOptions
  refine whole_read ?_
  split
  next => exact h
  next post hpost =>
    have hidentified : post.Identified := (h.posts.feeds c).cells cell post hpost
    have hpresent : ∀ actions : List SheetAction,
        ({ client with
            sheets := client.sheets ++ [⟨c, post, actions, true⟩] } : Client).Identified := by
      intro actions
      refine { h with posts := { h.posts with sheets := fun sheet hsheet => ?_ } }
      rcases List.mem_append.mp hsheet with hsheet | hsheet
      · exact h.posts.sheets sheet hsheet
      · rw [List.mem_singleton.mp hsheet]
        exact hidentified
    refine Prog.wp_ask.mpr ?_
    dsimp only
    split
    next => exact hpresent _
    next =>
      refine wp_checkIfUserIsFollowed he hidentified.ownerUid ?_ (hpresent _)
      exact fun _ _ _ _ h' => { h' with posts := h'.posts.mapSheet fun _ => rfl }

/-- Its actions go by the post it keeps. -/
theorem whole_didTapSheet (he : e.Identified) (h : client.Identified) {k : Nat}
    {action : SheetAction} :
    Whole Client.Identified (FeedController.didTapSheet k action) e client := by
  unfold FeedController.didTapSheet
  refine whole_read ?_
  split
  next => exact h
  next sheet hsheet =>
    have hidentified : sheet.post.Identified :=
      h.posts.sheets sheet (List.mem_of_getElem? hsheet)
    split
    next =>
      refine Prog.wp_modify.mpr ?_
      have h' : (client.mapSheet k fun sheet => { sheet with presented := false }).Identified :=
        { h with posts := h.posts.mapSheet fun _ => rfl }
      -- the completions only hide the `hud`
      have hdismissed : ∀ y : Option Error,
          (showLoader false : Program Client).Meets (identified Client.Identified) :=
        fun _ _ _ _ h => whole_showLoader h fun _ h => h
      cases action with
      | editPost => exact h'
      | cancel => exact h'
      | deletePost =>
        refine whole_showLoader h' fun client h => ?_
        refine wp_deletePost he hidentified.postId (fun _ e' _ client h => ?_) h
        exact whole_showLoader h fun _ h => whole_feedRefresh h
      | unfollow =>
        exact whole_showLoader h' fun _ h => wp_unfollow he hidentified.ownerUid hdismissed h
      | follow =>
        exact whole_showLoader h' fun _ h => wp_follow he hidentified.ownerUid hdismissed h
    next => exact h

/-- The post is uploaded under a new identifier. -/
theorem whole_didTapDone (he : e.Identified) (h : client.Identified) {k : Nat} {caption : String} :
    Whole Client.Identified (UploadPostController.didTapDone k caption) e client := by
  unfold UploadPostController.didTapDone
  refine whole_read ?_
  split
  next image user _ _ =>
    refine whole_showLoader h fun client h => ?_
    refine wp_uploadPost he (fun error _ _ client' h' => ?_) h
    cases error with
    | some error => exact whole_showLoader h' fun _ h => h
    | none => exact whole_feedRefresh h'
  next => exact h

/-! ### `ProfileController` -/

/-- A completion changes the user of a profile, but not who he is. -/
theorem whole_setUser (h : client.Identified) {m : Nat} {f : User → User}
    (hf : ∀ user, (f user).uid = user.uid) {rest : Program Client}
    (hrest : ∀ client : Client, client.Identified → Whole Client.Identified rest e client) :
    Whole Client.Identified
      (inProfile m (fun profile => profile.setUser (f profile.user)) rest) e client := by
  refine hrest _ (h.mapProfile (fun _ hp => hp) (fun _ => rfl) ⟨fun hloaded => ?_, ?_⟩)
  · show (f (client.profiles m).user).uid ≠ ""
    rw [hf]
    exact (h.profiles m).user hloaded
  · exact fun _ huser => absurd huser (by simp [ProfileController.setUser,
      ProfileController.reloadData])

/-- The grid is filled by a query of all posts of an owner. -/
theorem whole_profileFetchPosts (h : client.Identified) {m : Nat} :
    Whole Client.Identified (ProfileController.fetchPosts m) e client := by
  refine whole_read (wp_fetchPostsForUser (fun posts hposts _ _ client' h' => ?_) h)
  exact h'.mapProfile (fun _ _ => hposts) (fun _ => rfl)
    ⟨(h'.profiles m).user, fun _ huser => absurd huser (by simp [ProfileController.reloadData])⟩

/-- A profile that is pushed reads the user it was given, who is identified. -/
theorem whole_profilePush (he : e.Identified) (h : client.Identified) {m : Nat} {user : User}
    (huser : user.Identified) :
    Whole Client.Identified (ProfileController.push m user) e client := by
  unfold ProfileController.push
  refine whole_read ?_
  split
  next => exact h
  next =>
    refine Prog.wp_modify.mpr ?_
    have h' : (client.mapProfile m fun profile =>
        { profile with loaded := true, user := user }).Identified :=
      h.mapProfile (fun _ hp => hp) (fun _ => rfl) ⟨fun _ => huser, (h.profiles m).header⟩
    have hpushed : ((client.mapProfile m fun profile =>
        { profile with loaded := true, user := user }).profiles m).user = user := by
      rw [Client.mapProfile_profiles, if_pos rfl]
    -- the three fetches of `viewDidLoad` read the user that has just been set
    unfold ProfileController.viewDidLoad
    refine Prog.wp_andThen.mpr (Prog.wp_read.mpr ?_)
    rw [hpushed]
    refine wp_checkIfUserIsFollowed he huser (fun isFollowed _ _ client h => ?_) ?_
    · exact whole_setUser (f := fun user => { user with isFollowed := isFollowed }) h
        (fun _ => rfl) fun _ h => h
    refine Prog.wp_andThen.mpr (Prog.wp_read.mpr ?_)
    rw [hpushed]
    refine wp_fetchUserStats huser (fun stats _ _ client h => ?_) ?_
    · exact whole_setUser (f := fun user => { user with stats := stats }) h
        (fun _ => rfl) fun _ h => h
    exact whole_profileFetchPosts h'

/-- The grid is emptied and fetched again. -/
theorem whole_profileRefresh (h : client.Identified) {m : Nat} :
    Whole Client.Identified (ProfileController.handleRefresh m) e client := by
  refine Prog.wp_modify.mpr (whole_profileFetchPosts ?_)
  exact h.mapProfile (fun _ _ _ hp => absurd hp (by simp)) (fun _ => rfl)
    ⟨(h.profiles m).user, (h.profiles m).header⟩

/-- UIKit asks a loaded profile for its header. -/
theorem whole_profileHeader (h : client.Identified) {m : Nat}
    (hloaded : (client.profiles m).loaded = true) :
    Whole Client.Identified (ProfileController.viewForHeader m) e client := by
  refine h.mapProfile (fun _ hp => hp) (fun _ => rfl) ⟨(h.profiles m).user, fun user huser => ?_⟩
  rw [← Option.some.inj huser]
  exact (h.profiles m).user hloaded

theorem whole_profileCell (h : client.Identified) {m cell row : Nat} :
    Whole Client.Identified (ProfileController.cellForItemAt m cell row) e client := by
  refine { h with
    posts := h.posts.assigned keepsIn_profileCell
    profiles := fun m' => ?_ }
  rw [Client.mapProfile_profiles]
  split
  next =>
    split
    next => exact ⟨(h.profiles m).user, (h.profiles m).header⟩
    next => exact h.profiles m
  next => exact h.profiles m'

/-- A grid cell opens a feed for its post. -/
theorem whole_profileSelect (he : e.Identified) (h : client.Identified) {m row c : Nat} :
    Whole Client.Identified (ProfileController.didSelectItemAt m row c) e client := by
  unfold ProfileController.didSelectItemAt
  refine whole_read ?_
  split
  next post hpost =>
    exact whole_feedPush he h (h.posts.profilePosts m post (List.mem_of_getElem? hpost))
  next => exact h

/-- The header follows whom it shows. -/
theorem whole_headerTap (he : e.Identified) (h : client.Identified) {m : Nat} :
    Whole Client.Identified (ProfileController.didTapActionButton m) e client := by
  unfold ProfileController.didTapActionButton
  refine whole_read ?_
  split
  next user currentUser huser _ =>
    -- the header was bound to a loaded profile
    have hidentified : user.uid ≠ "" := (h.profiles m).header user huser
    refine Prog.wp_ask.mpr ?_
    split
    next => exact h
    next =>
      split
      next =>
        refine wp_unfollow he hidentified (fun _ e' he' client' h' => ?_) h
        refine whole_setUser (f := fun user => { user with isFollowed := false }) h'
          (fun _ => rfl) fun _ h => ?_
        exact wp_deleteNotification he' hidentified h
      next =>
        refine wp_follow he hidentified (fun _ e' he' client' h' => ?_) h
        refine whole_setUser (f := fun user => { user with isFollowed := true }) h'
          (fun _ => rfl) fun _ h => ?_
        exact wp_uploadNotification he' hidentified (fun hne => absurd rfl hne) h
  next => exact h

theorem whole_showProfile (h : client.Identified) {m : Nat} {uid : String}
    (huid : uid ≠ "") : Whole Client.Identified (wantsToShowProfile m uid) e client :=
  wp_fetchUser huid (fun _ huser _ he' _ h' => whole_profilePush he' h' huser) h

/-! ### `NotificationsController` -/

/-- The senders that are checked are those of stored notifications. -/
theorem whole_inboxFetch (he : e.Identified) (h : client.Identified) {n : Nat} :
    Whole Client.Identified (NotificationsController.fetchNotifications n) e client := by
  unfold NotificationsController.fetchNotifications
  refine wp_fetchNotifications he (fun notifications hnotifications e' he' client' h' => ?_) h
  refine Prog.wp_modify.mpr (whole_read ?_)
  have hset := h'.mapInbox (f := fun inbox => inbox.setNotifications notifications)
    ((h'.inboxes n).setNotifications hnotifications)
  refine Prog.wp_forEach (fun notification hmem client' h' => ?_) hset
  split
  next =>
    refine wp_checkIfUserIsFollowed he' ((hset.inboxes n).notifications _ hmem).uid ?_ h'
    intro isFollowed _ _ client h
    refine h.mapInbox ?_
    split
    next index _ =>
      refine (h.inboxes n).setNotifications fun x hx => ?_
      obtain ⟨i, hi, hget⟩ := List.mem_iff_getElem.mp hx
      rw [List.length_modify] at hi
      rw [List.getElem_modify] at hget
      have hold := (h.inboxes n).notifications _ (List.getElem_mem hi)
      split at hget
      next =>
        rw [← hget]
        exact ⟨hold.uid, hold.postId⟩
      next =>
        rw [← hget]
        exact hold
    next => exact h.inboxes n
  next => exact h'

/-- The notification list loads once. -/
theorem whole_inboxDidLoad (he : e.Identified) (h : client.Identified) {n : Nat} :
    Whole Client.Identified (NotificationsController.viewDidLoad n) e client := by
  unfold NotificationsController.viewDidLoad
  refine whole_read ?_
  split
  next => exact h
  next =>
    exact whole_inboxFetch he
      (h.mapInbox ⟨(h.inboxes n).notifications, fun cell => (h.inboxes n).cells cell⟩)

theorem whole_inboxRefresh (he : e.Identified) (h : client.Identified) {n : Nat} :
    Whole Client.Identified (NotificationsController.handleRefresh n) e client :=
  whole_inboxFetch he
    (h.mapInbox ((h.inboxes n).setNotifications fun _ hx => absurd hx List.not_mem_nil))

/-- A cell takes a notification of the array. -/
theorem whole_inboxCell (h : client.Identified) {n cell row : Nat} :
    Whole Client.Identified (NotificationsController.cellForRowAt n cell row) e client := by
  refine h.mapInbox ?_
  split
  next notification hrow =>
    refine (h.inboxes n).mapCell fun x hx => ?_
    rw [← Option.some.inj hx]
    exact (h.inboxes n).notifications _ (List.mem_of_getElem? hrow)
  next => exact h.inboxes n

/-- The button follows or unfollows the sender. -/
theorem whole_inboxFollowTap (he : e.Identified) (h : client.Identified) {n cell : Nat} :
    Whole Client.Identified (NotificationsController.handleFollowTapped n cell) e client := by
  unfold NotificationsController.handleFollowTapped
  refine whole_read ?_
  split
  next => exact h
  next notification hcell =>
    have huid : notification.uid ≠ "" := ((h.inboxes n).cells cell notification hcell).uid
    have htoggle : ∀ y, (NotificationsController.didToggle n cell y).Meets
        (identified Client.Identified) := by
      refine fun _ _ _ client h => whole_showLoader h fun client h => ?_
      refine h.mapInbox ((h.inboxes n).mapCell fun x hx => ?_)
      obtain ⟨shown, hshown, rfl⟩ := Option.map_eq_some_iff.mp hx
      have hold := (h.inboxes n).cells cell shown hshown
      exact ⟨hold.uid, hold.postId⟩
    refine whole_showLoader h fun client h => ?_
    split
    next => exact wp_unfollow he huid htoggle h
    next => exact wp_follow he huid htoggle h

/-- A notification whose image is shown has a post. -/
theorem whole_inboxPostTap (h : client.Identified) {n cell c : Nat}
    (hshown : ∀ notification ∈ ((client.inboxes n).cells cell).viewModel,
      notification.shouldHidePostImage = false) :
    Whole Client.Identified (NotificationsController.handlePostTapped n cell c) e client := by
  unfold NotificationsController.handlePostTapped
  refine whole_read ?_
  split
  next => exact h
  next postId hpostId =>
    obtain ⟨notification, hcell, hpost⟩ := Option.bind_eq_some_iff.mp hpostId
    have hidentified := (h.inboxes n).cells cell notification hcell
    refine wp_fetchPost (hidentified.postId (hshown _ hcell) postId hpost) ?_ h
    intro post hpost e' he' client' h'
    exact whole_showLoader h' fun _ h => whole_feedPush he' h hpost

/-- A row opens the profile of its sender. -/
theorem whole_inboxSelect (h : client.Identified) {n row m : Nat} :
    Whole Client.Identified (NotificationsController.didSelectRowAt n row m) e client := by
  unfold NotificationsController.didSelectRowAt
  refine whole_read ?_
  split
  next notification hrow =>
    have hidentified := (h.inboxes n).notifications _ (List.mem_of_getElem? hrow)
    refine whole_showLoader h fun client h => ?_
    refine wp_fetchUser hidentified.uid (fun user huser e' he' client' h' => ?_) h
    exact whole_showLoader h' fun _ h => whole_profilePush he' h huser
  next => exact h

/-! ### `SearchController` and `CommentController` -/

theorem whole_searchFetchPosts (h : client.Identified) {n : Nat} :
    Whole Client.Identified (SearchController.fetchPosts n) e client := by
  unfold SearchController.fetchPosts
  refine whole_read ?_
  split
  next => exact h
  next =>
    refine Prog.wp_modify.mpr (wp_fetchPosts (fun posts hposts _ _ client' h' => ?_) ?_)
    · exact { h' with
        posts := h'.posts.mapSearch (fun _ _ => hposts) (fun _ _ hc => hc) }
    · exact { h with
        posts := h.posts.mapSearch (fun _ hp => hp) (fun _ _ hc => hc) }

/-- A cell of the search grid opens a feed for its post. -/
theorem whole_searchSelect (he : e.Identified) (h : client.Identified) {n item c : Nat} :
    Whole Client.Identified (SearchController.didSelectItemAt n item c) e client := by
  unfold SearchController.didSelectItemAt
  refine whole_read ?_
  split
  next post hpost =>
    exact whole_feedPush he h (h.posts.searchPosts n post (List.mem_of_getElem? hpost))
  next => exact h

/-- The comment screen keeps the post of the cell. -/
theorem whole_commentPush (h : client.Identified) {c cell d : Nat} :
    Whole Client.Identified (CommentController.push c cell d) e client := by
  have hposts := h.posts.assigned (@keepsIn_commentPush (fun _ => True) _ _ _ c cell d)
  refine Prog.wp_modify.mpr ⟨hposts, ?_, ?_, ?_⟩
  · split
    next => exact h.tabUser
    next => exact h.tabUser
  · split
    next => exact h.profiles
    next => exact h.profiles
  · split
    next => exact h.inboxes
    next => exact h.inboxes

theorem whole_inInputView (h : client.Identified) {d : Nat} {text : String}
    {rest : Program Client}
    (hrest : ∀ client : Client, client.Identified → Whole Client.Identified rest e client) :
    Whole Client.Identified (inInputView d text rest) e client :=
  hrest _ { h with posts := h.posts.assigned (keepsIn_inInputView trivial) }

/-- The comment goes under that post, the notification to its owner. -/
theorem whole_postComment (he : e.Identified) (h : client.Identified) {d : Nat}
    {comment : String} :
    Whole Client.Identified (CommentController.handlePostTapped d comment) e client := by
  refine whole_inInputView h fun client h => ?_
  unfold CommentController.wantsToUploadComment
  refine whole_read ?_
  split
  next post currentUser hpost huser =>
    have hidentified : post.Identified := h.posts.comments d post hpost
    have hcurrentUser : currentUser.Identified := h.tabUser currentUser huser
    refine whole_showLoader h fun client h => ?_
    refine wp_uploadComment he hidentified hcurrentUser (fun _ e' he' client' h' => ?_) h
    refine whole_showLoader h' fun client h => whole_inInputView h fun client h => ?_
    exact wp_uploadNotification he' hidentified.ownerUid (fun _ => ⟨post, rfl, hidentified⟩) h
  next => exact h

/-- Every action that is offered keeps the client identified and its paths whole. -/
theorem Action.whole (a : Action) {screens : Screens} (he : e.Identified)
    (h : screens.client.Identified) (hoffers : screens.Offers (.app a)) :
    Whole Client.Identified a.program e screens.client := by
  cases a with
  | tabDidLoad => exact whole_tabFetchUser he h
  | feedDidLoad c => exact whole_feedDidLoad he h
  | feedRefresh c => exact whole_feedRefresh h
  | feedCell c cell row => exact whole_feedCell h
  | likeTap c cell => exact whole_didTapLike he h
  | optionsTap c cell => exact whole_wantsToShowOptions he h
  | sheetTap k action => exact whole_didTapSheet he h
  | commentsTap c cell d => exact whole_commentPush h
  | postComment d comment => exact whole_postComment he h
  | pickImage c k image => exact { h with posts := { h.posts with } }
  | shareTap k caption => exact whole_didTapDone he h
  | showProfile m uid => exact absurd hoffers id
  | profileRefresh m => exact whole_profileRefresh h
  | profileHeader m => exact whole_profileHeader h hoffers
  | profileCell m cell row => exact whole_profileCell h
  | profileSelect m row c => exact whole_profileSelect he h
  | headerTap m => exact whole_headerTap he h
  | inboxDidLoad n => exact whole_inboxDidLoad he h
  | inboxRefresh n => exact whole_inboxRefresh he h
  | inboxCell n cell row => exact whole_inboxCell h
  | inboxFollowTap n cell => exact whole_inboxFollowTap he h
  | inboxPostTap n cell c => exact whole_inboxPostTap h hoffers
  | searchDidLoad n => exact whole_searchFetchPosts h
  | searchCell n cell item => exact { h with posts := h.posts.assigned keepsIn_searchCell }
  | searchSelect n item c => exact whole_searchSelect he h

end Controllers

/-! ## The other screens -/

/-- The rows of a list are identified, and so is what the list is of. -/
structure UserList.Identified (list : UserList) : Prop where
  config : ∀ config ∈ list.config, config.Identified
  users : ∀ user ∈ list.rows.users, user.Identified
  filteredUsers : ∀ user ∈ list.rows.filteredUsers, user.Identified
  fetched : ∀ user ∈ list.fetched, user.Identified

/-- A listener to documents with `doc`, and a controller with `good`. -/
structure Watch.Identified {ρ : Type} (doc : Doc → Prop) (good : ρ → Prop) (watch : Watch ρ) :
    Prop where
  collection : ∀ q ∈ watch.query, "" ∉ q.collection
  documents : ∀ q ∈ watch.query, ∀ id d, IdentifiedDoc (q.collection ++ [id]) d → doc d
  shown : ∀ x ∈ watch.shown, doc x.2
  controller : good watch.controller

structure CommentRows.Identified (controller : CommentRows) : Prop where
  fetched : ∀ comment ∈ controller.fetched, comment.Identified
  comments : ∀ comment ∈ controller.comments, comment.Identified

structure ConversationRows.Identified (controller : ConversationRows) : Prop where
  conversations : ∀ message ∈ controller.conversations, message.Identified
  dictionary : ∀ entry ∈ controller.conversationsDictionary.entries, entry.2.Identified

structure EditSession.Identified (session : EditSession) : Prop where
  user : session.controller.user.Identified
  profileUser : session.profileUser.Identified

/-- The document of a comment names its author. -/
def Doc.OfComment (d : Doc) : Prop := d.Identifies "uid"

/-- The document of a message names both sides. -/
def Doc.OfMessage (d : Doc) : Prop := d.Identifies "toId" ∧ d.Identifies "fromId"

/-- Every record that a screen holds is identified. -/
structure Screens.Identified (screens : Screens) : Prop where
  client : screens.client.Identified
  lists : ∀ n, (screens.lists n).Identified
  comments : ∀ d, (screens.comments d).Identified Doc.OfComment CommentRows.Identified
  conversations :
    ∀ n, (screens.conversations n).Identified Doc.OfMessage ConversationRows.Identified
  partners : ∀ k, ∀ user ∈ (screens.chats k).user, user.Identified
  chats : ∀ k, (screens.chats k).watch.Identified Doc.OfMessage fun _ => True
  edits : ∀ k, ∀ edit ∈ screens.edits k, edit.session.Identified

/-- A listener that has not been added. -/
theorem Watch.identified_initial {ρ : Type} {doc : Doc → Prop} {good : ρ → Prop} {controller : ρ}
    (h : good controller) : ({ controller := controller } : Watch ρ).Identified doc good where
  collection _ hq := absurd hq (by simp)
  documents _ hq := absurd hq (by simp)
  shown _ hx := absurd hx (by simp)
  controller := h

/-- Nor does any other screen start out with a record. -/
theorem Screens.identified_initial : ({} : Screens).Identified where
  client := Client.identified_initial
  lists _ := ⟨fun _ h => absurd h (by simp), fun _ h => absurd h (by simp),
    fun _ h => absurd h (by simp), fun _ h => absurd h (by simp)⟩
  comments _ := Watch.identified_initial ⟨fun _ h => absurd h (by simp),
    fun _ h => absurd h (by simp)⟩
  conversations _ := Watch.identified_initial ⟨fun _ h => absurd h (by simp),
    fun _ h => absurd h (by simp [AList.empty_entries])⟩
  partners _ _ h := absurd h (by simp)
  chats _ := Watch.identified_initial trivial
  edits _ _ h := absurd h (by simp)

/-! ### Listeners -/

section Listeners

variable {σ ρ : Type} {state : σ → Prop} {e : Turn} {s : σ} {doc : Doc → Prop} {good : ρ → Prop}

/-- What is reported is of documents of the two results. -/
theorem documentChanges_doc {old new : List (String × Doc)} {modified : List String}
    (hold : ∀ x ∈ old, doc x.2) (hnew : ∀ x ∈ new, doc x.2) :
    ∀ change ∈ documentChanges old new modified, doc change.document := by
  intro change hchange
  unfold documentChanges at hchange
  rcases List.mem_append.mp hchange with hchange | hchange
  · obtain ⟨x, hx, rfl⟩ := List.mem_map.mp hchange
    exact hold x (List.mem_filter.mp hx).1
  · obtain ⟨x, hx, hchange⟩ := List.mem_filterMap.mp hchange
    split at hchange
    next =>
      rw [← Option.some.inj hchange]
      exact hnew x hx
    next =>
      split at hchange
      next =>
        rw [← Option.some.inj hchange]
        exact hnew x hx
      next => exact absurd hchange (by simp)

/-- The place of a listener in the state, and a callback that keeps its controller good. -/
structure Watched (state : σ → Prop) (doc : Doc → Prop) (good : ρ → Prop)
    (watch : Var σ (Watch ρ)) (assign : Turn → ρ → Option (List DocumentChange) → ρ) : Prop where
  get : ∀ s, state s → (watch.get s).Identified doc good
  set : ∀ s w, state s → w.Identified doc good → state (watch.set w s)
  assign : ∀ turn controller changes, good controller →
    (∀ l ∈ changes, ∀ change ∈ l, doc change.document) → good (assign turn controller changes)

variable {watch : Var σ (Watch ρ)} {assign : Turn → ρ → Option (List DocumentChange) → ρ}

/-- A snapshot shows identified documents, so what the screen takes from it is identified. -/
theorem whole_snapshot (h : Watched state doc good watch assign) {modified : List String}
    (hs : state s) : Whole state (Watch.snapshot watch assign modified) e s := by
  unfold Watch.snapshot
  refine whole_read ?_
  split
  next => exact hs
  next q hq =>
    have hwatch := h.get s hs
    refine wp_getDocuments (hwatch.collection q hq) (fun y hy e' _ s' hs' => ?_) hs
    have hwatch' := h.get s' hs'
    have hresult : ∀ documents ∈ y, ∀ x ∈ documents, doc x.2 := fun documents hdocuments x hx =>
      hwatch.documents q hq x.1 x.2 (hy documents hdocuments x hx).2
    refine h.set s' _ hs' ⟨hwatch'.collection, hwatch'.documents, ?_, ?_⟩
    · cases y with
      | none => exact hwatch'.shown
      | some documents => exact hresult documents rfl
    · refine h.assign e' _ _ hwatch'.controller fun l hl => ?_
      obtain ⟨documents, hdocuments, rfl⟩ := Option.map_eq_some_iff.mp hl
      exact documentChanges_doc hwatch'.shown (hresult documents hdocuments)

/-- A listener of a whole path; what it will hear is identified. -/
theorem whole_addSnapshotListener (h : Watched state doc good watch assign) {q : Query}
    (hcollection : "" ∉ q.collection)
    (hdocuments : ∀ id d, IdentifiedDoc (q.collection ++ [id]) d → doc d) (hs : state s) :
    Whole state (Watch.addSnapshotListener watch assign q) e s := by
  have hwatch := h.get s hs
  refine Prog.wp_modify.mpr (whole_snapshot h (h.set s _ hs ⟨?_, ?_, hwatch.shown,
    hwatch.controller⟩))
  · intro q' hq'
    rw [← Option.some.inj hq']
    exact hcollection
  · intro q' hq'
    rw [← Option.some.inj hq']
    exact hdocuments

end Listeners

/-- The comments that are added are identified. -/
theorem CommentRows.hear_identified {turn : Turn} {controller : CommentRows}
    {changes : Option (List DocumentChange)} (h : controller.Identified)
    (hchanges : ∀ l ∈ changes, ∀ change ∈ l, change.document.OfComment) :
    (CommentRows.hear turn controller changes).Identified := by
  have hfetched : ∀ comment ∈ controller.fetched
      ++ (added (changes.getD [])).map (Comment.init turn.now), comment.Identified := by
    intro comment hcomment
    rcases List.mem_append.mp hcomment with hcomment | hcomment
    · exact h.fetched comment hcomment
    · obtain ⟨d, hd, rfl⟩ := List.mem_map.mp hcomment
      obtain ⟨change, hchange, rfl⟩ := List.mem_map.mp hd
      cases changes with
      | none => exact absurd hchange (by simp)
      | some l => exact hchanges l rfl change (List.mem_filter.mp hchange).1
  exact ⟨hfetched, hfetched⟩

/-- The loop of `fetchConversations` files identified messages. -/
theorem ConversationRows.updated_identified {controller : ConversationRows}
    {messages : List Message} (h : ∀ entry ∈ controller.conversationsDictionary.entries,
      entry.2.Identified) (hmessages : ∀ message ∈ messages, message.Identified) :
    ∀ entry ∈ (controller.updated messages).entries, entry.2.Identified := by
  unfold ConversationRows.updated
  generalize controller.conversationsDictionary = dictionary at h ⊢
  induction messages generalizing dictionary with
  | nil => exact h
  | cons message messages ih =>
    refine ih (fun m hm => hmessages m (List.mem_cons_of_mem _ hm)) _ fun entry hentry => ?_
    rw [AList.entries_insert, List.mem_cons] at hentry
    rcases hentry with rfl | hentry
    · exact hmessages message (List.mem_cons_self ..)
    · exact h entry ((List.kerase_sublist _ _).subset hentry)

/-- The conversations that are set are identified, and so are all rows read from them. -/
theorem ConversationRows.hear_identified {turn : Turn} {controller : ConversationRows}
    {changes : Option (List DocumentChange)} (h : controller.Identified)
    (hchanges : ∀ l ∈ changes, ∀ change ∈ l, change.document.OfMessage) :
    (ConversationRows.hear turn controller changes).Identified := by
  cases changes with
  | none => exact h
  | some l =>
    have hupdated : ∀ entry ∈ (controller.updated
        (l.map fun change => Message.init turn.currentUid change.document)).entries,
        entry.2.Identified := by
      refine ConversationRows.updated_identified h.dictionary fun message hmessage => ?_
      obtain ⟨change, hchange, rfl⟩ := List.mem_map.mp hmessage
      obtain ⟨hto, hfrom⟩ := hchanges l rfl change hchange
      exact Message.init_identified hto hfrom _
    refine ⟨fun message hmessage => ?_, hupdated⟩
    obtain ⟨entry, hentry, rfl⟩ := List.mem_map.mp hmessage
    exact hupdated entry hentry

/-! ### Parts of the state -/

section Parts

variable {screens : Screens} {e : Turn}

theorem Screens.Identified.mapList (h : screens.Identified) {n : Nat}
    {f : UserList → UserList} (hf : (f (screens.lists n)).Identified) :
    (screens.mapList n f).Identified := by
  refine { h with lists := fun n' => ?_ }
  show (Function.update screens.lists n (f (screens.lists n)) n').Identified
  rw [Function.update_apply]
  split
  next => exact hf
  next => exact h.lists n'

/-- The three screens that listen: comments, -/
theorem watched_comments (d : Nat) :
    Watched Screens.Identified Doc.OfComment CommentRows.Identified (Screens.commentWatch d)
      CommentRows.hear where
  get _ h := h.comments d
  set screens w h hw := by
    refine { h with comments := fun d' => ?_ }
    show (Function.update screens.comments d w d').Identified _ _
    rw [Function.update_apply]
    split
    next => exact hw
    next => exact h.comments d'
  assign _ _ _ h hchanges := CommentRows.hear_identified h hchanges

/-- conversations, -/
theorem watched_conversations (n : Nat) :
    Watched Screens.Identified Doc.OfMessage ConversationRows.Identified
      (Screens.conversationWatch n) ConversationRows.hear where
  get _ h := h.conversations n
  set screens w h hw := by
    refine { h with conversations := fun n' => ?_ }
    show (Function.update screens.conversations n w n').Identified _ _
    rw [Function.update_apply]
    split
    next => exact hw
    next => exact h.conversations n'
  assign _ _ _ h hchanges := ConversationRows.hear_identified h hchanges

/-- and the chat, whose messages need no identifier. -/
theorem watched_chat (k : Nat) :
    Watched Screens.Identified Doc.OfMessage (fun _ => True) (Screens.chatWatch k)
      ChatRows.hear where
  get _ h := h.chats k
  set screens w h hw := by
    refine { h with partners := fun k' => ?_, chats := fun k' => ?_ }
    · show ∀ user ∈ (Function.update screens.chats k { screens.chats k with watch := w } k').user, _
      rw [Function.update_apply]
      split
      next => exact h.partners k
      next => exact h.partners k'
    · show (Function.update screens.chats k { screens.chats k with watch := w } k').watch.Identified
        _ _
      rw [Function.update_apply]
      split
      next => exact hw
      next => exact h.chats k'
  assign _ _ _ _ _ := trivial

/-- A program of the controllers in `Client` concerns no other screen. -/
theorem whole_onClient {p : Program Client} (h : screens.Identified)
    (hp : Whole Client.Identified p e screens.client) :
    Whole Screens.Identified (Screens.onClient p) e screens := by
  have hparts : ∀ screens : Screens, screens.Identified
      ↔ (∀ client ∈ some screens.client, client.Identified)
        ∧ (screens.setClient {}).Identified := by
    intro screens
    constructor
    · intro h
      refine ⟨fun client hclient => ?_, { h with client := Client.identified_initial }⟩
      rw [← Option.some.inj hclient]
      exact h.client
    · exact fun h => { h.2 with client := h.1 _ rfl }
  have hset : ∀ client (screens : Screens), (screens.setClient {}).Identified →
      ((screens.setClient client).setClient {}).Identified := fun _ _ h => h
  have hget : ∀ client (screens : Screens), (some screens.client).isSome = true →
      some (screens.setClient client).client = some client := fun _ _ _ => rfl
  exact (Prog.wp.zoom hparts hget hset hp rfl ((hparts screens).mp h).2).mono
    fun screens h => (hparts screens).mpr h

/-- A program of an edit concerns no other screen. -/
theorem whole_onEdit {k : Nat} {p : Program EditSession} (h : screens.Identified)
    (hp : ∀ session : EditSession, session.Identified → Whole EditSession.Identified p e session) :
    Whole Screens.Identified (Screens.onEdit k p) e screens := by
  have hparts : ∀ screens : Screens, screens.Identified
      ↔ (∀ session ∈ screens.session k, session.Identified)
        ∧ Screens.Identified
          { screens with edits := Function.update screens.edits k none } := by
    intro screens
    constructor
    · intro h
      refine ⟨fun session hsession => ?_, { h with edits := fun k' edit hedit => ?_ }⟩
      · obtain ⟨edit, hedit, rfl⟩ := Option.map_eq_some_iff.mp hsession
        exact h.edits k edit hedit
      · dsimp only at hedit
        rw [Function.update_apply] at hedit
        split at hedit
        next => exact absurd hedit (by simp)
        next => exact h.edits k' edit hedit
    · intro h
      refine { h.2 with edits := fun k' edit hedit => ?_ }
      by_cases hk : k' = k
      · subst hk
        exact h.1 edit.session (Option.map_eq_some_iff.mpr ⟨edit, hedit, rfl⟩)
      · refine h.2.edits k' edit ?_
        dsimp only
        rw [Function.update_apply, if_neg hk]
        exact hedit
  refine whole_read ?_
  split
  next hpresented =>
    obtain ⟨session, hsession⟩ := Option.isSome_iff_exists.mp hpresented
    refine (Prog.wp.zoom hparts (fun session screens hsome => ?_) (fun session screens hL => ?_)
      (hp session (((hparts screens).mp h).1 session hsession)) hsession
      ((hparts screens).mp h).2).mono fun screens h => (hparts screens).mpr h
    · obtain ⟨edit, hedit⟩ := Option.isSome_iff_exists.mp (by
        rwa [Screens.session, Option.isSome_map] at hsome)
      show (Function.update screens.edits k _ k).map EditScreen.session = some session
      rw [Function.update_self, hedit]
      rfl
    · unfold Screens.setSession
      dsimp only
      rw [Function.update_idem]
      exact hL
  next => exact h

end Parts

/-! ### Lists of users -/

section Lists

variable {screens : Screens} {e : Turn}

/-- The rows hold users that they have been given. -/
theorem SearchRows.step_identified {config : UserFilterConfig} {strings : StringOps}
    {search search' : SearchRows} {ev : SearchRowsEvent}
    (husers : ∀ user ∈ search.users, user.Identified)
    (hfiltered : ∀ user ∈ search.filteredUsers, user.Identified)
    (hev : ∀ users, ev = .didFetchUsers users → ∀ user ∈ users, user.Identified)
    (hstep : search.step config strings ev = some search') :
    (∀ user ∈ search'.users, user.Identified)
      ∧ ∀ user ∈ search'.filteredUsers, user.Identified := by
  cases ev with
  | didFetchUsers users =>
    rw [← Option.some.inj hstep]
    exact ⟨hev users rfl, hfiltered⟩
  | didFetchPosts posts =>
    rw [← Option.some.inj hstep]
    exact ⟨husers, hfiltered⟩
  | updateSearchResults isActive text =>
    rw [← Option.some.inj hstep]
    exact ⟨husers, fun user huser => husers user (List.mem_filter.mp huser).1⟩
  | searchBarCancelButtonClicked =>
    rw [← Option.some.inj hstep]
    exact ⟨husers, hfiltered⟩
  | cellForRowAt row => rw [eq_of_subscript hstep]; exact ⟨husers, hfiltered⟩
  | didSelectRowAt row =>
    rw [step_didSelectRowAt] at hstep
    obtain ⟨_, -, rfl⟩ := Option.map_eq_some_iff.mp hstep
    exact ⟨husers, hfiltered⟩
  | cellForItemAt item => rw [eq_of_subscript hstep]; exact ⟨husers, hfiltered⟩
  | didSelectItemAt item => rw [eq_of_subscript hstep]; exact ⟨husers, hfiltered⟩

/-- The fetched users are identified, and filtering only leaves some out. -/
theorem UserList.Identified.react {list : UserList} (h : list.Identified)
    {strings : StringOps} {ev : SearchRowsEvent}
    (hev : ∀ users, ev = .didFetchUsers users → ∀ user ∈ users, user.Identified) :
    (list.react strings ev).Identified := by
  unfold UserList.react
  split
  next config hconfig =>
    cases hstep : list.rows.step config strings ev with
    | none => exact h
    | some rows =>
      obtain ⟨husers, hfiltered⟩ := SearchRows.step_identified h.users h.filteredUsers hev hstep
      exact ⟨h.config, husers, hfiltered, h.fetched⟩
  next => exact h

/-- The selected user is one of the rows. -/
theorem SearchRows.mem_of_didSelectRowAt {config : UserFilterConfig} {search : SearchRows}
    {row : Nat} {selection : SearchSelection}
    (h : didSelectRowAt config search row = some selection) :
    selection.user ∈ search.users ∨ selection.user ∈ search.filteredUsers := by
  unfold didSelectRowAt at h
  split at h
  next =>
    obtain ⟨user, huser, rfl⟩ := Option.map_eq_some_iff.mp h
    exact Or.inl (List.mem_of_getElem? huser)
  next =>
    obtain ⟨user, huser, rfl⟩ := Option.map_eq_some_iff.mp h
    have hmem := List.mem_of_getElem? huser
    unfold shown at hmem
    split at hmem
    next => exact Or.inr hmem
    next => exact Or.inl hmem

theorem Screens.Identified.setFetched (h : screens.Identified) {n : Nat} {users : List User}
    (husers : ∀ user ∈ users, user.Identified) :
    ((Screens.fetched n).set users screens).Identified :=
  h.mapList (f := fun list => { list with fetched := users })
    ⟨(h.lists n).config, (h.lists n).users, (h.lists n).filteredUsers, husers⟩

/-- Each document of the collection is named by the user that is read next. -/
theorem whole_fetchUsersFromCollection {n : Nat} {collection : Path}
    {completion : List User → Program Screens} (hcollection : "" ∉ collection)
    (hk : ∀ users : List User, (∀ user ∈ users, user.Identified) →
      (completion users).Meets (identified Screens.Identified)) (h : screens.Identified) :
    Whole Screens.Identified
      (UserService.fetchUsersFromCollection collection (Screens.fetched n) completion)
      e screens := by
  unfold UserService.fetchUsersFromCollection
  have hcleared : ((Screens.fetched n).set [] screens).Identified :=
    h.setFetched fun _ hu => absurd hu List.not_mem_nil
  refine Prog.wp_modify.mpr (wp_getDocuments hcollection (fun y hy e' _ screens h => ?_) hcleared)
  split
  next => exact h
  next documents =>
    refine Prog.wp_forEach (fun x hx screens h => ?_) h
    refine wp_fetchUser (hy documents rfl x hx).1 (fun user huser e he screens h => ?_) h
    have hjoined : ((Screens.fetched n).set ((screens.lists n).fetched ++ [user])
        screens).Identified := by
      refine h.setFetched fun u hu => ?_
      rcases List.mem_append.mp hu with hu | hu
      · exact (h.lists n).fetched u hu
      · rw [List.mem_singleton.mp hu]
        exact huser
    exact hk _ (hjoined.lists n).fetched e he _ hjoined

/-- The list is fetched from where its configuration says. -/
theorem whole_fetchUsers {n : Nat} {config : UserFilterConfig}
    {completion : List User → Program Screens} (hconfig : config.Identified)
    (hk : ∀ users : List User, (∀ user ∈ users, user.Identified) →
      (completion users).Meets (identified Screens.Identified)) (h : screens.Identified) :
    Whole Screens.Identified (UserService.fetchUsers config (Screens.fetched n) completion) e
      screens := by
  have hall : Whole Screens.Identified (UserService.fetchUsers .all (Screens.fetched n) completion)
      e screens := by
    refine wp_getDocuments (by simp) (fun y hy => ?_) h
    split
    next => exact fun _ _ _ h => h
    next documents =>
      refine hk _ fun user huser => ?_
      obtain ⟨x, hx, rfl⟩ := List.mem_map.mp huser
      exact User.init_identified (hy documents rfl x hx).2
  cases config with
  | followers uid => exact whole_fetchUsersFromCollection (by simp [Ne.symm hconfig]) hk h
  | following uid => exact whole_fetchUsersFromCollection (by simp [Ne.symm hconfig]) hk h
  | likes postId => exact whole_fetchUsersFromCollection (by simp [Ne.symm hconfig]) hk h
  | messages => exact hall
  | all => exact hall

theorem whole_listDidLoad {strings : StringOps} {n : Nat} (h : screens.Identified) :
    Whole Screens.Identified (UserList.fetchUsers strings n) e screens := by
  unfold UserList.fetchUsers
  refine whole_read ?_
  split
  next => exact h
  next config hconfig =>
    split
    next => exact h
    next =>
      have hlist := h.lists n
      refine Prog.wp_modify.mpr (whole_fetchUsers (hlist.config config hconfig)
        (fun users husers _ _ screens h => ?_)
        (h.mapList ⟨hlist.config, hlist.users, hlist.filteredUsers, hlist.fetched⟩))
      refine h.mapList ((h.lists n).react fun users' husers' => ?_)
      rw [← SearchRowsEvent.didFetchUsers.inj husers']
      exact husers

/-- A list is opened under an identified configuration. -/
theorem whole_listPush {n : Nat} {config : UserFilterConfig} (hconfig : config.Identified)
    (h : screens.Identified) :
    Whole Screens.Identified (UserList.push n config) e screens := by
  unfold UserList.push
  refine whole_read ?_
  split
  next => exact h
  next =>
    refine h.mapList ⟨fun config' hconfig' => ?_, (h.lists n).users, (h.lists n).filteredUsers,
      (h.lists n).fetched⟩
    rw [← Option.some.inj hconfig']
    exact hconfig

/-- That of the likes is identified by the post of a cell, -/
theorem whole_listPushLikes {c cell n : Nat} (h : screens.Identified) :
    Whole Screens.Identified (UserList.pushLikes c cell n) e screens := by
  unfold UserList.pushLikes
  refine whole_read ?_
  split
  next post hpost =>
    have hidentified : post.Identified := (h.client.posts.feeds c).cells cell post hpost
    have hconfig : (UserFilterConfig.likes post.postId).Identified := hidentified.postId
    exact whole_listPush hconfig h
  next => exact h

/-- those of followers and followed by the user of a header. -/
theorem whole_listPushRelation {config : String → UserFilterConfig} {m n : Nat}
    (hconfig : ∀ uid, uid ≠ "" → (config uid).Identified) (h : screens.Identified) :
    Whole Screens.Identified (UserList.pushRelation config m n) e screens := by
  unfold UserList.pushRelation
  refine whole_read ?_
  split
  next user huser => exact whole_listPush (hconfig _ ((h.client.profiles m).header user huser)) h
  next => exact h

/-! ### Chats, comments and edits -/

/-- A chat listens under the account and the partner. -/
theorem whole_chatPush {k : Nat} {user : User} (he : e.Identified) (huser : user.Identified)
    (h : screens.Identified) : Whole Screens.Identified (ChatController.push k user) e screens := by
  unfold ChatController.push
  refine whole_read ?_
  split
  next => exact h
  next =>
    have hpushed :
        (screens.mapChat k fun chat => { chat with user := some user }).Identified := by
      refine { h with partners := fun k' => ?_, chats := fun k' => ?_ }
      · dsimp only [Screens.mapChat]
        rw [Function.update_apply]
        split
        next =>
          intro user' huser'
          rw [← Option.some.inj huser']
          exact huser
        next => exact h.partners k'
      · dsimp only [Screens.mapChat]
        rw [Function.update_apply]
        split
        next => exact h.chats k
        next => exact h.chats k'
    refine Prog.wp_modify.mpr (wp_withCurrentUid he (fun currentUid hcurrentUid => ?_) hpushed)
    have huid : user.uid ≠ "" := huser
    exact whole_addSnapshotListener (watched_chat k)
      (by simp [conversationOf, hcurrentUid.symm, huid.symm])
      (fun id _ hd => hd.message currentUid user.uid id rfl) hpushed

/-- A row opens the chat with its user, or his profile. -/
theorem whole_listSelect {n row k : Nat} (he : e.Identified) (h : screens.Identified) :
    Whole Screens.Identified (UserList.didSelectRowAt n row k) e screens := by
  unfold UserList.didSelectRowAt
  refine whole_read ?_
  have hselected : ∀ selection : SearchSelection,
      ((screens.lists n).config.bind fun config =>
        SearchRows.didSelectRowAt config (screens.lists n).rows row) = some selection →
      selection.user.Identified := by
    intro selection hselection
    obtain ⟨config, -, hrow⟩ := Option.bind_eq_some_iff.mp hselection
    rcases SearchRows.mem_of_didSelectRowAt hrow with hmem | hmem
    · exact (h.lists n).users _ hmem
    · exact (h.lists n).filteredUsers _ hmem
  split
  next user huser => exact whole_chatPush he (hselected _ huser) h
  next user huser => exact whole_onClient h (whole_profilePush he h.client (hselected _ huser))
  next => exact h

/-- The partner of a chat is identified. -/
theorem whole_withUser {k : Nat} {body : User → Program Screens} (h : screens.Identified)
    (hbody : ∀ user, user.Identified → Whole Screens.Identified (body user) e screens) :
    Whole Screens.Identified (ChatController.withUser k body) e screens := by
  unfold ChatController.withUser
  refine whole_read ?_
  split
  next user huser => exact hbody user (h.partners k user huser)
  next => exact h

/-- The conversations are the account's own. -/
theorem whole_conversationsDidLoad {n : Nat} (he : e.Identified) (h : screens.Identified) :
    Whole Screens.Identified (ConversationsController.fetchConversations n) e screens := by
  unfold ConversationsController.fetchConversations
  refine whole_read ?_
  split
  next => exact h
  next =>
    refine wp_withCurrentUid he (fun uid huid => ?_) h
    exact whole_addSnapshotListener (watched_conversations n)
      (by simp [recentsOf, recentMessages, huid.symm])
      (fun id _ hd => hd.message uid recentMessages id rfl) h

/-- A row names the partner whose user is read. -/
theorem whole_conversationsSelect {n row k : Nat} (h : screens.Identified) :
    Whole Screens.Identified (ConversationsController.didSelectRowAt n row k) e screens := by
  unfold ConversationsController.didSelectRowAt
  refine whole_read ?_
  have hloader : ∀ (isShown : Bool) (e : Turn) (screens : Screens), screens.Identified →
      Whole Screens.Identified (Screens.onClient (showLoader isShown)) e screens :=
    fun _ _ _ h => whole_onClient h (whole_showLoader h.client fun _ h => h)
  split
  next conversation hrow =>
    have hpartner : conversation.chatPartnerId ≠ "" :=
      (h.conversations n).controller.conversations _ (List.mem_of_getElem? hrow)
    refine whole_andThen (hloader true e screens h) fun screens h => ?_
    refine wp_fetchUser hpartner (fun user huser e he screens h => ?_) h
    exact whole_andThen (hloader false e screens h) fun _ h => whole_chatPush he huser h
  next => exact h

/-- The comments listened to are those of the post. -/
theorem whole_commentsDidLoad {d : Nat} (h : screens.Identified) :
    Whole Screens.Identified (CommentController.fetchComments d) e screens := by
  unfold CommentController.fetchComments
  refine whole_read ?_
  split
  next post hpost _ =>
    have hidentified : post.Identified := h.client.posts.comments d post hpost
    exact whole_addSnapshotListener (watched_comments d)
      (by simp [commentsOf, hidentified.postId.symm])
      (fun id _ hd => hd.comment post.postId id rfl) h
  next => exact h

/-- A comment names its author. -/
theorem whole_commentsSelect {d row m : Nat} (h : screens.Identified) :
    Whole Screens.Identified (CommentController.didSelectItemAt d row m) e screens := by
  unfold CommentController.didSelectItemAt
  refine whole_read ?_
  split
  next comment hrow =>
    exact whole_onClient h (whole_showProfile h.client
      ((h.comments d).controller.comments _ (List.mem_of_getElem? hrow)))
  next => exact h

/-- The picture is stored for the account. -/
theorem whole_updateProfileImage {session : EditSession} (he : e.Identified)
    (h : session.Identified) :
    Whole EditSession.Identified EditProfileController.updateProfileImage e session := by
  unfold EditProfileController.updateProfileImage
  refine whole_read ?_
  split
  next => exact h
  next image _ =>
    refine wp_updateProfileImage he (fun url error _ _ session h => ?_) ⟨h.user, h.profileUser⟩
    cases error with
    | some error => exact ⟨h.user, h.profileUser⟩
    | none =>
      cases url with
      | none => exact ⟨h.user, h.profileUser⟩
      | some url => exact ⟨h.user, h.user⟩

theorem whole_onlyIf {condition : EditProfileController → Bool}
    {body : EditProfileController → Program EditSession} {session : EditSession}
    (h : session.Identified)
    (hbody : Whole EditSession.Identified (body session.controller) e session) :
    Whole EditSession.Identified (EditProfileController.onlyIf condition body) e session := by
  unfold EditProfileController.onlyIf
  refine whole_read ?_
  split
  next => exact hbody
  next => exact h

theorem whole_updateUserData {session : EditSession} (he : e.Identified) (h : session.Identified) :
    Whole EditSession.Identified EditProfileController.updateUserData e session := by
  unfold EditProfileController.updateUserData
  refine whole_andThen (whole_onlyIf h (whole_updateProfileImage he h)) fun session h => ?_
  refine whole_andThen (whole_onlyIf h ?_) fun session h => whole_onlyIf h ?_
  · exact wp_saveUserData he (fun _ _ _ _ h => ⟨h.user, h.user⟩) ⟨h.user, h.profileUser⟩
  · exact wp_saveUserData he (fun _ _ he _ h => whole_updateProfileImage he h)
      ⟨h.user, h.profileUser⟩

/-- What is typed into the editor changes no identifier. -/
theorem whole_updateUserInfo {option : EditProfileOptions} {text : Option String}
    {session : EditSession} (h : session.Identified) :
    Whole EditSession.Identified (EditProfileController.updateUserInfo option text) e session := by
  cases text with
  | none => exact ⟨h.user, h.profileUser⟩
  | some text => cases option <;> exact ⟨h.user, h.profileUser⟩

/-- All actions of the editor. -/
theorem EditAction.whole (a : EditAction) {session : EditSession} (he : e.Identified)
    (h : session.Identified) : Whole EditSession.Identified a.program e session := by
  cases a with
  | editingDidEnd option text => exact whole_updateUserInfo h
  | imagePicked image => exact ⟨h.user, h.profileUser⟩
  | doneTap focused =>
    refine whole_andThen ?_ fun session h => whole_onlyIf h (whole_updateUserData he h)
    cases focused with
    | none => exact h
    | some focused => exact whole_updateUserInfo h
  | setUserFCMToken => exact wp_setUserFCMToken he h

/-- The editor takes the user of a loaded profile, -/
theorem whole_editPresent {m k : Nat} (h : screens.Identified)
    (hloaded : (screens.client.profiles m).loaded = true) :
    Whole Screens.Identified (EditScreen.present m k) e screens := by
  unfold EditScreen.present
  refine whole_read ?_
  split
  next =>
    refine Prog.wp_ask.mpr ?_
    split
    next =>
      -- a profile that is not loaded has the empty user; UIKit shows no header of it
      have huser := (h.client.profiles m).user hloaded
      refine { h with edits := fun k' edit hedit => ?_ }
      dsimp only at hedit
      rw [Function.update_apply] at hedit
      split at hedit
      next =>
        rw [← Option.some.inj hedit]
        exact ⟨huser, huser⟩
      next => exact h.edits k' edit hedit
    next => exact h
  next => exact h

/-- and hands back one with the same identifier. -/
theorem whole_editUpdate {k : Nat} (h : screens.Identified) :
    Whole Screens.Identified (EditScreen.wantsToUpdate k) e screens := by
  unfold EditScreen.wantsToUpdate
  refine whole_read ?_
  split
  next edit hedit =>
    refine whole_onClient h (h.client.mapProfile (fun _ hp => hp) (fun _ => rfl) ⟨fun _ => ?_, ?_⟩)
    · exact (h.edits k edit hedit).profileUser
    · exact fun _ huser => absurd huser (by simp [ProfileController.setUser,
        ProfileController.reloadData])
  next => exact h

end Lists

/-! ## All runs -/

/-- Every action that is offered keeps the screens identified and its paths whole. -/
theorem ScreenAction.whole (strings : StringOps) (a : ScreenAction) {screens : Screens}
    {e : Turn} (he : e.Identified) (h : screens.Identified) (hoffers : screens.Offers a) :
    Whole Screens.Identified (a.program strings) e screens := by
  cases a with
  | app a => exact whole_onClient h (a.whole he h.client hoffers)
  | register credentials =>
    refine whole_onClient h (wp_registerUser (fun error _ he _ h => ?_) h.client)
    cases error with
    | some error => exact h
    | none => exact whole_tabFetchUser he h
  | tabProfile m =>
    refine whole_onClient h (whole_read ?_)
    split
    next user huser => exact whole_profilePush he h.client (h.client.tabUser user huser)
    next => exact h.client
  | feedProfile c cell m =>
    refine whole_onClient h (whole_read ?_)
    split
    next post hpost =>
      have hidentified : post.Identified := (h.client.posts.feeds c).cells cell post hpost
      exact whole_showProfile h.client hidentified.ownerUid
    next => exact h.client
  | feedLikes c cell n => exact whole_listPushLikes h
  | inboxSelect n row m => exact whole_onClient h (whole_inboxSelect h.client)
  | profileFollowers m n => exact whole_listPushRelation (fun _ huid => huid) h
  | profileFollowing m n => exact whole_listPushRelation (fun _ huid => huid) h
  | searchTab n => exact whole_listPush (trivial : UserFilterConfig.all.Identified) h
  | newMessage n => exact whole_listPush (trivial : UserFilterConfig.messages.Identified) h
  | usersDidLoad n => exact whole_listDidLoad h
  | usersSearch n isActive text =>
    exact h.mapList ((h.lists n).react fun _ hev => SearchRowsEvent.noConfusion hev)
  | usersCancel n =>
    exact h.mapList ((h.lists n).react fun _ hev => SearchRowsEvent.noConfusion hev)
  | usersSelect n row k => exact whole_listSelect he h
  | commentsDidLoad d => exact whole_commentsDidLoad h
  -- a snapshot is of documents in the store, which are identified
  | commentsSnapshot d modified => exact whole_snapshot (watched_comments d) h
  | commentsSelect d row m => exact whole_commentsSelect h
  | conversationsDidLoad n => exact whole_conversationsDidLoad he h
  | conversationsSnapshot n modified => exact whole_snapshot (watched_conversations n) h
  | conversationsSelect n row k => exact whole_conversationsSelect h
  | chatSnapshot k modified => exact whole_snapshot (watched_chat k) h
  | chatSend k text =>
    exact whole_withUser h fun user huser => wp_uploadMessage he huser meets_noCompletion h
  | editPresent m k => exact whole_editPresent h hoffers
  | edit k a => exact whole_onEdit h fun session hsession => a.whole he hsession
  | editUpdate k => exact whole_editUpdate h
  | chatDelete k =>
    exact whole_withUser h fun user huser => wp_deleteMessages he huser meets_noCompletion h
  | feedAfterFollowing m =>
    refine whole_onClient h (whole_read ?_)
    split
    next => exact wp_updateUserFeedAfterFollowing he h.client
    next => exact h.client

section Runs

variable {S : Type}

/-- The user of a session does what its screens offer. -/
def OnScreen (w : AppWorld Screens S) : AppEvent S ScreenAction → Prop
  | .invoke s a _ => (w.client s).Offers a
  | _ => True

instance (w : AppWorld Screens S) (ev : AppEvent S ScreenAction) : Decidable (OnScreen w ev) :=
  match ev with
  | .invoke s a _ => inferInstanceAs (Decidable ((w.client s).Offers a))
  | .serve _ _ => isTrue trivial
  | .deliver _ _ => isTrue trivial
  | .drop _ => isTrue trivial

/-- Accounts and fresh identifiers are not empty, and users do what their screens offer. -/
def Usual (w : AppWorld Screens S) (ev : AppEvent S ScreenAction) : Prop :=
  EnvOk (fun _ turn => turn.Identified) w ev ∧ OnScreen w ev

instance (w : AppWorld Screens S) (ev : AppEvent S ScreenAction) : Decidable (Usual w ev) :=
  inferInstanceAs (Decidable (_ ∧ _))

/-- The app before anything has happened. -/
def unused : AppWorld Screens S := atRest Backend.empty fun _ => {}

/-- **No path has an empty segment.** In every run from an empty backend, with any requests
failing and any callbacks lost, whatever request is made goes along a whole path. -/
theorem paths_whole [DecidableEq S] (strings : StringOps) {w : AppWorld Screens S}
    {es : List (AppEvent S ScreenAction)}
    (run : Run api (ScreenAction.program strings) Usual unused es w) :
    ∀ x ∈ w.pool, "" ∉ x.2.req.segments := by
  have hstart : (unused : AppWorld Screens S).Meets
      (fun _ => identified Screens.Identified) (fun b => b.docs.Identified) :=
    .start rfl Store.identified_empty fun _ => Screens.identified_initial
  have hinv : w.Meets (fun _ => identified Screens.Identified) fun b => b.docs.Identified := by
    refine hstart.run run (fun _ b _ r _ b' y hb _ hr hserve => serve_identified hb hr hserve) ?_
      fun _ _ hok => hok.1
    intro w ev hw hok
    cases ev with
    | invoke s a e => exact fun he => a.whole strings he (hw.client s) hok.2
    | serve i o => trivial
    | deliver i e => trivial
    | drop i => trivial
  intro x hx
  obtain ⟨e, -, hreq⟩ := (hinv.pool x hx).req
  exact hreq.segments

/-! ## `a` registers and opens his profile -/

/-- The first request is served, and its callback runs in a turn of `a`. -/
def firstAnswer (names : List String) : List (AppEvent String ScreenAction) :=
  [.serve 0 (.success names), .deliver 0 (turnOf "a")]

/-- He registers, the tab bar fetches him, and his profile is shown. -/
def registerAndShow : List (AppEvent String ScreenAction) :=
  [.invoke "a" (.register ⟨"a@b", "secret", "Ann", "ann", ⟨some "image"⟩⟩)
      { turnOf "a" with currentUid := none }]
    ++ firstAnswer [] ++ firstAnswer [] ++ firstAnswer ["a"] ++ firstAnswer [] ++ firstAnswer []
    ++ [.invoke "a" (.tabProfile 0) (turnOf "a")]

/-- The three requests of the profile go along whole paths. -/
theorem paths_whole_profile :
    ∃ w, Run api (ScreenAction.program stringsASCII) Usual unused registerAndShow w
      ∧ w.pool.map (fun x => x.2.req.segments)
          = [["following", "a", "user-following", "a"], ["followers", "a", "user-followers"],
            ["posts"]]
      ∧ ∀ x ∈ w.pool, "" ∉ x.2.req.segments := by
  obtain ⟨w, run, hpool⟩ : ∃ w,
      Run api (ScreenAction.program stringsASCII) Usual unused registerAndShow w
      ∧ w.pool.map (fun x => x.2.req.segments)
          = [["following", "a", "user-following", "a"], ["followers", "a", "user-followers"],
            ["posts"]] := exists_run_of_play (by decide +kernel)
  exact ⟨w, run, hpool, paths_whole stringsASCII run⟩

end Runs

end InstaClone
