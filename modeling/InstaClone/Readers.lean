import InstaClone.Frames
import InstaClone.Screens
import InstaClone.Sessions

/-!
# The programs that only read

Most of what the controllers do is to load and to show: their programs issue no write and
change only a feed, a profile, an inbox, a search grid or the `hud`. `Aloof obs` is a view of
the session that sees none of these, `Distant obs` one that may see the profiles, and
`Browses obs` says of a program that it issues no write and leaves that view alone. There is one
lemma for each such program, for every view at once; what a view is good for is up to the
invariant that takes it.
-/

namespace InstaClone

open Async (Prog)

variable {α : Type} {obs : Client → α}

/-- A view of the session that sees no feed, inbox or search grid, and not the `hud`. -/
structure Distant (obs : Client → α) : Prop where
  feed : ∀ c f client, obs (client.mapFeed c f) = obs client
  inbox : ∀ n f client, obs (client.mapInbox n f) = obs client
  search : ∀ n f client, obs (client.mapSearch n f) = obs client
  loader : ∀ isShown (client : Client), obs { client with loader := isShown } = obs client

/-- One that sees no profile either. -/
structure Aloof (obs : Client → α) : Prop extends Distant obs where
  profile : ∀ m f client, obs (client.mapProfile m f) = obs client

/-- The program issues no write, and `obs` stays as it is. -/
abbrev Browses (obs : Client → α) (p : Program Client) : Prop :=
  p.Spares (fun r => r.isWrite = false) obs

section Statements

variable {rest : Program Client}

/-- An assignment in a feed is none of what `obs` looks at, and issues nothing. -/
theorem browses_inFeed (hobs : Distant obs) {c : Nat} {f : FeedController → FeedController}
    (h : Browses obs rest) : Browses obs (inFeed c f rest) := ⟨hobs.feed c f, h⟩

/-- Nor is one in a profile, for who does not look at profiles. -/
theorem browses_inProfile (hobs : Aloof obs) {m : Nat} {f : ProfileController → ProfileController}
    (h : Browses obs rest) : Browses obs (inProfile m f rest) := ⟨hobs.profile m f, h⟩

theorem browses_inInbox (hobs : Distant obs) {n : Nat}
    {f : NotificationsController → NotificationsController} (h : Browses obs rest) :
    Browses obs (inInbox n f rest) := ⟨hobs.inbox n f, h⟩

theorem browses_showLoader (hobs : Distant obs) {isShown : Bool} (h : Browses obs rest) :
    Browses obs (showLoader isShown rest) := ⟨hobs.loader isShown, h⟩

end Statements

/-! ## `FeedController` -/

section Feed

variable {c : Nat}

/-- The checks of the listed posts are reads. -/
theorem browses_checkIfUserLikedPosts (hobs : Distant obs) :
    Browses obs (FeedController.checkIfUserLikedPosts c) := by
  intro client
  dsimp only
  split
  next post _ =>
    exact spares_checkIfUserLikedPost (fun _ => rfl) fun didLike => browses_inFeed hobs trivial
  next =>
    refine .forEach fun post => ?_
    exact spares_checkIfUserLikedPost (fun _ => rfl) fun didLike => browses_inFeed hobs trivial

/-- The list reads all posts; the single post reads nothing. -/
theorem browses_feedFetchPosts (hobs : Distant obs) :
    Browses obs (FeedController.fetchPosts c) := by
  intro client
  dsimp only
  split
  next => trivial
  next =>
    refine spares_fetchPosts (fun _ => rfl) fun posts => ?_
    exact browses_inFeed hobs (browses_checkIfUserLikedPosts hobs)

theorem browses_feedFetchUser (hobs : Distant obs) : Browses obs (FeedController.fetchUser c) :=
  spares_withCurrentUid fun _ => spares_fetchUser rfl fun _ => browses_inFeed hobs trivial

/-- A feed that loads reads its posts and its user. -/
theorem browses_feedDidLoad (hobs : Distant obs) : Browses obs (FeedController.viewDidLoad c) := by
  intro client
  dsimp only
  split
  next => trivial
  next =>
    refine browses_inFeed hobs (.andThen (browses_feedFetchPosts hobs)
      (.andThen (browses_feedFetchUser hobs) fun client => ?_))
    dsimp only
    split
    next => exact browses_checkIfUserLikedPosts hobs
    next => trivial

/-- So does one that is pushed. -/
theorem browses_feedPush (hobs : Distant obs) {post : Post} :
    Browses obs (FeedController.push c post) := by
  intro client
  dsimp only
  split
  next => trivial
  next => exact browses_inFeed hobs (browses_feedDidLoad hobs)

theorem browses_feedRefresh (hobs : Distant obs) : Browses obs (FeedController.handleRefresh c) :=
  browses_inFeed hobs (browses_feedFetchPosts hobs)

end Feed

/-! ## `ProfileController` -/

section Profile

variable {m : Nat}

/-- The grid of a profile is one query. -/
theorem browses_profileFetchPosts (hobs : Aloof obs) :
    Browses obs (ProfileController.fetchPosts m) := fun _ =>
  spares_fetchPostsForUser (fun _ => rfl) fun _ => browses_inProfile hobs trivial

/-- A profile that loads reads the flag, the statistics and the posts. -/
theorem browses_profileDidLoad (hobs : Aloof obs) :
    Browses obs (ProfileController.viewDidLoad m) := by
  refine .andThen (fun client => ?_) (.andThen (fun client => ?_) (browses_profileFetchPosts hobs))
  · exact spares_checkIfUserIsFollowed (fun _ => rfl) fun _ => browses_inProfile hobs trivial
  · exact spares_fetchUserStats (fun _ => rfl) fun _ => browses_inProfile hobs trivial

/-- A profile is pushed and loads. -/
theorem browses_profilePush (hobs : Aloof obs) {user : User} :
    Browses obs (ProfileController.push m user) := by
  intro client
  dsimp only
  split
  next => trivial
  next => exact browses_inProfile hobs (browses_profileDidLoad hobs)

/-- The user is read first. -/
theorem browses_showProfile (hobs : Aloof obs) {uid : String} :
    Browses obs (wantsToShowProfile m uid) :=
  spares_fetchUser rfl fun _ => browses_profilePush hobs

/-- The tab bar shows the profile of its own user. -/
theorem browses_tabProfile (hobs : Aloof obs) : Browses obs (MainTabController.showProfile m) := by
  intro client
  dsimp only
  split
  next => exact browses_profilePush hobs
  next => trivial

theorem browses_feedProfile (hobs : Aloof obs) {c cell : Nat} :
    Browses obs (FeedController.wantsToShowProfileFor c cell m) := by
  intro client
  dsimp only
  split
  next => exact browses_showProfile hobs
  next => trivial

/-- A grid cell opens a feed of one post. -/
theorem browses_profileSelect (hobs : Distant obs) {row c : Nat} :
    Browses obs (ProfileController.didSelectItemAt m row c) := by
  intro client
  dsimp only
  split
  next => exact browses_feedPush hobs
  next => trivial

end Profile

/-! ## `NotificationsController` and `SearchController` -/

section Inbox

variable {n : Nat}

/-- The notification list reads the inbox and checks every sender. -/
theorem browses_inboxFetch (hobs : Distant obs) :
    Browses obs (NotificationsController.fetchNotifications n) := by
  refine spares_fetchNotifications (fun _ => rfl) fun _ => browses_inInbox hobs fun client => ?_
  refine .forEach fun notification => ?_
  split
  next => exact spares_checkIfUserIsFollowed (fun _ => rfl) fun _ => browses_inInbox hobs trivial
  next => trivial

theorem browses_inboxDidLoad (hobs : Distant obs) :
    Browses obs (NotificationsController.viewDidLoad n) := by
  intro client
  dsimp only
  split
  next => trivial
  next => exact browses_inInbox hobs (browses_inboxFetch hobs)

/-- It opens a feed for the post of a notification, -/
theorem browses_inboxPostTap (hobs : Distant obs) {cell c : Nat} :
    Browses obs (NotificationsController.handlePostTapped n cell c) := by
  intro client
  dsimp only
  split
  next => trivial
  next => exact spares_fetchPost rfl fun _ => browses_showLoader hobs (browses_feedPush hobs)

/-- and a profile for its sender. -/
theorem browses_inboxSelect (hobs : Aloof obs) {row m : Nat} :
    Browses obs (NotificationsController.didSelectRowAt n row m) := by
  intro client
  dsimp only
  split
  next =>
    refine browses_showLoader hobs.toDistant (spares_fetchUser rfl fun _ => ?_)
    exact browses_showLoader hobs.toDistant (browses_profilePush hobs)
  next => trivial

/-- The search grid reads all posts. -/
theorem browses_searchFetchPosts (hobs : Distant obs) :
    Browses obs (SearchController.fetchPosts n) := by
  intro client
  dsimp only
  split
  next => trivial
  next =>
    refine ⟨hobs.search n _, spares_fetchPosts (fun _ => rfl) fun _ => ?_⟩
    exact ⟨hobs.search n _, trivial⟩

/-- Its cells open a feed of one post. -/
theorem browses_searchSelect (hobs : Distant obs) {item c : Nat} :
    Browses obs (SearchController.didSelectItemAt n item c) := by
  intro client
  dsimp only
  split
  next => exact browses_feedPush hobs
  next => trivial

end Inbox

/-- The actions that only read. -/
def Action.reads : Action → Bool
  | .feedDidLoad _ | .feedRefresh _ | .feedCell _ _ _ => true
  | .showProfile _ _ | .profileRefresh _ | .profileHeader _ | .profileCell _ _ _
  | .profileSelect _ _ _ => true
  | .inboxDidLoad _ | .inboxRefresh _ | .inboxCell _ _ _ | .inboxPostTap _ _ _ => true
  | .searchDidLoad _ | .searchCell _ _ _ | .searchSelect _ _ _ => true
  | _ => false

/-- So does the code they run. -/
theorem Action.browses_program (hobs : Aloof obs) {a : Action} (ha : a.reads = true) :
    Browses obs a.program := by
  cases a with
  | feedDidLoad c => exact browses_feedDidLoad hobs.toDistant
  | feedRefresh c => exact browses_feedRefresh hobs.toDistant
  | feedCell c cell row => exact browses_inFeed hobs.toDistant trivial
  | showProfile m uid => exact browses_showProfile hobs
  | profileRefresh m => exact browses_inProfile hobs (browses_profileFetchPosts hobs)
  | profileHeader m => exact browses_inProfile hobs trivial
  | profileCell m cell row => exact browses_inProfile hobs trivial
  | profileSelect m row c => exact browses_profileSelect hobs.toDistant
  | inboxDidLoad n => exact browses_inboxDidLoad hobs.toDistant
  | inboxRefresh n => exact browses_inInbox hobs.toDistant (browses_inboxFetch hobs.toDistant)
  | inboxCell n cell row => exact browses_inInbox hobs.toDistant trivial
  | inboxPostTap n cell c => exact browses_inboxPostTap hobs.toDistant
  | searchDidLoad n => exact browses_searchFetchPosts hobs.toDistant
  | searchCell n cell item => exact ⟨hobs.search n _, trivial⟩
  | searchSelect n item c => exact browses_searchSelect hobs.toDistant
  | _ => exact absurd ha (by simp [Action.reads])

end InstaClone
