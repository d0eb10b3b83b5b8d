import InstaClone.Async.Growth
import InstaClone.Provenance

/-!
# Whose profile is shown

A profile controller asks for the posts of its user, and shows what comes whenever it comes.
By then the user has been given new statistics, has been followed, or has been edited by its
owner, and is the same user still: once a profile is loaded its uid stays. `Terms.profiles` is
the contract of a session in which that only goes up (`Client.Below`), so that the uid a query
was made for is the uid of the profile that the answer finds (`grows_profileFetchPosts`).

That holds for every action on a profile that is on screen (`Client.Displays`): a profile that
is refreshed before it has been loaded is nobody's.
-/

namespace InstaClone

open Async

/-! ## Services whose completion goes up from anywhere -/

section Services

variable {σ : Type} {G : Growth Request Response Turn σ} {e : Turn} {s : σ}

/-- Only a body that runs takes the state anywhere. -/
theorem grows_withCurrentUid {body : String → Program σ}
    (h : ∀ uid, e.currentUid = some uid → (body uid).GrowsFrom G e s) :
    (withCurrentUid body).GrowsFrom G e s := by
  unfold withCurrentUid
  rw [Prog.growsFrom_ask]
  split
  next uid huid => exact h uid huid
  next => trivial

variable (hreq : ∀ e r, G.req e r)
include hreq

/-- A call leaves the state to its callback. -/
theorem grows_call {r : Request} {k : Response r → Program σ}
    (hk : ∀ y e' s', G.state s' → (k y).GrowsFrom G e' s') :
    (Prog.call r k .done).GrowsFrom G e s :=
  ⟨hreq e r, fun y _ e' _ s' _ hs' => hk y e' s' hs', trivial⟩

/-- So do the services: the completion goes up, whenever it runs. -/
theorem grows_fetchUser {uid : String} {completion : User → Program σ}
    (hk : ∀ user e' s', G.state s' → (completion user).GrowsFrom G e' s') :
    (UserService.fetchUser uid completion).GrowsFrom G e s := by
  refine grows_call hreq fun snapshot e' s' hs' => ?_
  split
  next => trivial
  next => exact hk _ e' s' hs'

/-- One read, -/
theorem grows_checkIfUserIsFollowed {uid : String} {completion : Bool → Program σ}
    (hk : ∀ isFollowed e' s', G.state s' → (completion isFollowed).GrowsFrom G e' s') :
    (UserService.checkIfUserIsFollowed uid completion).GrowsFrom G e s := by
  refine grows_withCurrentUid fun _ _ => grows_call hreq fun snapshot e' s' hs' => ?_
  split
  next => trivial
  next => exact hk _ e' s' hs'

/-- three queries, -/
theorem grows_fetchUserStats {uid : String} {completion : UserStats → Program σ}
    (hk : ∀ stats e' s', G.state s' → (completion stats).GrowsFrom G e' s') :
    (UserService.fetchUserStats uid completion).GrowsFrom G e s := by
  refine grows_call hreq fun followers _ _ _ => grows_call hreq fun following _ _ _ => ?_
  exact grows_call hreq fun posts e' s' hs' => hk _ e' s' hs'

/-- two writes, -/
theorem grows_follow {user : String} {completion : Option Error → Program σ}
    (hk : ∀ error e' s', G.state s' → (completion error).GrowsFrom G e' s') :
    (UserService.follow user completion).GrowsFrom G e s :=
  grows_withCurrentUid fun _ _ => grows_call hreq fun _ _ _ _ => grows_call hreq hk

/-- or two deletions before it does. -/
theorem grows_unfollow {user : String} {completion : Option Error → Program σ}
    (hk : ∀ error e' s', G.state s' → (completion error).GrowsFrom G e' s') :
    (UserService.unfollow user completion).GrowsFrom G e s :=
  grows_withCurrentUid fun _ _ => grows_call hreq fun _ _ _ _ => grows_call hreq hk

end Services

/-! ## Profiles -/

/-- A profile shows its own user: in the header, and as the owner of every post of the grid.
Before it is loaded it shows nothing. -/
structure ProfileController.Own (profile : ProfileController) : Prop where
  posts : ∀ post ∈ profile.posts, post.ownerUid = profile.user.uid
  cells : ∀ cell, ∀ viewModel ∈ profile.cells cell, viewModel.post.ownerUid = profile.user.uid
  header : ∀ user ∈ profile.header, user.uid = profile.user.uid
  unloaded : profile.loaded = false →
    profile.posts = [] ∧ profile.header = none ∧ ∀ cell, profile.cells cell = none

/-- A profile that is not loaded shows nothing. -/
theorem ProfileController.own_initial : ({} : ProfileController).Own where
  posts _ h := absurd h (by simp)
  cells _ _ h := absurd h (by simp)
  header _ h := absurd h (by simp)
  unloaded _ := ⟨rfl, rfl, fun _ => rfl⟩

/-- What a session does not take back: whose profile is loaded, and which post a comment screen
is for. -/
structure Client.Below (client client' : Client) : Prop where
  loaded : ∀ m, (client.profiles m).loaded = true →
    (client'.profiles m).loaded = true
      ∧ (client'.profiles m).user.uid = (client.profiles m).user.uid
  comments : ∀ d post, (client.comments d).post = some post → (client'.comments d).post = some post

theorem Client.Below.refl (client : Client) : client.Below client :=
  ⟨fun _ h => ⟨h, rfl⟩, fun _ _ h => h⟩

/-- A profile that stays loaded twice stays loaded. -/
theorem Client.Below.trans {client client' client'' : Client} (h : client.Below client')
    (h' : client'.Below client'') : client.Below client'' := by
  refine ⟨fun m hm => ?_, fun d post hpost => h'.comments d post (h.comments d post hpost)⟩
  obtain ⟨hm', huid⟩ := h.loaded m hm
  obtain ⟨hm'', huid'⟩ := h'.loaded m hm'
  exact ⟨hm'', huid'.trans huid⟩

/-- The contract of a session whose profiles show their own users. -/
def Terms.profiles (T : Terms) : Growth Request Response Turn Client where
  env := T.contract.env
  state client := ∀ m, (client.profiles m).Own
  req _ _ := True
  resp := T.Replies
  le := Client.Below
  refl := Client.Below.refl
  trans h h' := h.trans h'

theorem Terms.profiles_req (T : Terms) (e : Turn) (r : Request) : T.profiles.req e r := trivial

/-- All that this is about. -/
def onShow (client : Client) : (Nat → ProfileController) × (Nat → Option Post) :=
  (client.profiles, fun d => (client.comments d).post)

/-- It sees no feed, inbox or search grid, and not the `hud`. -/
theorem distant_onShow : Distant onShow where
  feed _ _ _ := rfl
  inbox _ _ _ := rfl
  search _ _ _ := rfl
  loader _ _ := rfl

section Programs

variable {T : Terms} {e : Turn} {s : Client} {p rest : Program Client}

/-- A program that changes nothing of it. -/
theorem grows_of_spares (h : p.Spares (fun _ => True) onShow) (hs : T.profiles.state s) :
    p.GrowsFrom T.profiles e s := by
  refine h.growsFrom (fun _ _ _ => trivial) ?_ ?_ hs
  · intro s s' heq
    have hprofiles : s'.profiles = s.profiles := congrArg Prod.fst heq
    have hcomments : ∀ d, (s'.comments d).post = (s.comments d).post :=
      fun d => congrFun (congrArg Prod.snd heq) d
    refine ⟨fun m hm => ?_, fun d post hpost => by rw [hcomments, hpost]⟩
    rw [hprofiles]
    exact ⟨hm, rfl⟩
  · intro s s' heq hs m
    rw [show s'.profiles = s.profiles from congrArg Prod.fst heq]
    exact hs m

/-- In particular one that only reads, and fills other screens. -/
theorem grows_of_browses (h : Browses onShow p) (hs : T.profiles.state s) :
    p.GrowsFrom T.profiles e s := grows_of_spares (h.mono fun _ _ => trivial) hs

/-- An assignment in one profile that leaves its user and what is loaded alone. -/
theorem grows_inProfile {m : Nat} {f : ProfileController → ProfileController}
    (hs : T.profiles.state s) (hloaded : (f (s.profiles m)).loaded = (s.profiles m).loaded)
    (huid : (f (s.profiles m)).user.uid = (s.profiles m).user.uid)
    (hown : (f (s.profiles m)).Own)
    (hrest : T.profiles.state (s.mapProfile m f) → rest.GrowsFrom T.profiles e (s.mapProfile m f)) :
    (inProfile m f rest).GrowsFrom T.profiles e s := by
  have hstate : T.profiles.state (s.mapProfile m f) := by
    intro m'
    rw [Client.mapProfile_profiles]
    split
    next => exact hown
    next => exact hs m'
  refine ⟨⟨fun m' hm' => ?_, fun d post hpost => hpost⟩, hstate, hrest hstate⟩
  rw [Client.mapProfile_profiles]
  split
  next heq =>
    subst heq
    exact ⟨hloaded.trans hm', huid⟩
  next => exact ⟨hm', rfl⟩

/-- `user = …`, for the same user. -/
theorem ProfileController.Own.setUser {profile : ProfileController} (h : profile.Own) {user : User}
    (huid : user.uid = profile.user.uid) : (profile.setUser user).Own where
  posts post hpost := (h.posts post hpost).trans huid.symm
  cells cell viewModel hviewModel := (h.cells cell viewModel hviewModel).trans huid.symm
  header _ hheader := absurd (show _ ∈ (none : Option User) from hheader) (by simp)
  unloaded hloaded := ⟨(h.unloaded hloaded).1, rfl, (h.unloaded hloaded).2.2⟩

/-- A completion may change the user's flag or statistics, not who he is. -/
theorem grows_setUser {m : Nat} {f : User → User} (hf : ∀ user, (f user).uid = user.uid)
    (hs : T.profiles.state s)
    (hrest : ∀ s, T.profiles.state s → rest.GrowsFrom T.profiles e s) :
    (inProfile m (fun profile => profile.setUser (f profile.user)) rest).GrowsFrom T.profiles e
      s :=
  grows_inProfile hs rfl (hf _) ((hs m).setUser (hf _)) fun hs' => hrest _ hs'

/-- The posts of a profile are asked for by its user, who is still the same when they come. -/
theorem grows_profileFetchPosts {m : Nat} (hloaded : (s.profiles m).loaded = true) :
    (ProfileController.fetchPosts m).GrowsFrom T.profiles e s := by
  refine ⟨trivial, fun y hy e' _ s' hle hs' => ?_, trivial⟩
  cases y with
  | none => trivial
  | some documents =>
    have hown : ∀ post ∈ (documents.map fun x => Post.init e'.now x.1 x.2).mergeSort
        PostService.newerFirst, post.ownerUid = (s.profiles m).user.uid := by
      intro post hpost
      obtain ⟨x, hx, rfl⟩ := List.mem_map.mp (List.mem_mergeSort.mp hpost)
      -- the query was by owner, and the profile is still that owner's
      have hselects := (hy documents rfl x hx).2
      have howner : x.2 "ownerUid" = some (.string (s.profiles m).user.uid) := by
        simpa [Query.selects] using hselects
      show (x.2.string "ownerUid").getD "" = _
      unfold Doc.string
      rw [howner]
      rfl
    obtain ⟨hloaded', huid⟩ := hle.loaded m hloaded
    refine grows_inProfile hs' rfl rfl ⟨fun post hpost => ?_, (hs' m).cells, fun _ h => ?_, ?_⟩
      fun _ => trivial
    · exact (hown post hpost).trans huid.symm
    · exact absurd (show _ ∈ (none : Option User) from h) (by simp)
    · intro hunloaded
      exact absurd (hloaded'.symm.trans hunloaded) (by simp)

/-- The three fetches of a loaded profile are of its own user. -/
theorem grows_profileDidLoad {m : Nat} (hs : T.profiles.state s)
    (hloaded : (s.profiles m).loaded = true) :
    (ProfileController.viewDidLoad m).GrowsFrom T.profiles e s := by
  refine .andThen ?_ hs fun s' hle hs' => .andThen ?_ hs' fun s'' hle' _ => ?_
  -- each completion finds the profile loaded with the same user
  · unfold ProfileController.checkIfUserIsFollowed
    rw [Prog.growsFrom_read]
    refine grows_checkIfUserIsFollowed T.profiles_req fun isFollowed e' s' hs' => ?_
    exact grows_setUser (f := fun user => { user with isFollowed := isFollowed }) (fun _ => rfl) hs'
      fun _ _ => trivial
  · unfold ProfileController.fetchUserStats
    rw [Prog.growsFrom_read]
    refine grows_fetchUserStats T.profiles_req fun stats e' s' hs' => ?_
    exact grows_setUser (f := fun user => { user with stats := stats }) (fun _ => rfl) hs'
      fun _ _ => trivial
  · exact grows_profileFetchPosts ((hle.trans hle').loaded m hloaded).1

/-- A profile is pushed once, and keeps its user from then on. -/
theorem grows_profilePush {m : Nat} {user : User} (hs : T.profiles.state s) :
    (ProfileController.push m user).GrowsFrom T.profiles e s := by
  show Prog.GrowsFrom T.profiles (if (s.profiles m).loaded then .done else _) e s
  split
  next => trivial
  next hunloaded =>
    -- nothing has been loaded, so nothing of another user is shown
    obtain ⟨hposts, hheader, hcells⟩ := (hs m).unloaded (by simpa using hunloaded)
    have hstate : T.profiles.state
        (s.mapProfile m fun profile => { profile with loaded := true, user := user }) := by
      intro m'
      rw [Client.mapProfile_profiles]
      split
      next =>
        refine ⟨fun post hpost => ?_, fun cell viewModel hviewModel => ?_, fun _ h => ?_,
          fun h => absurd h (by simp)⟩
        · exact absurd (show post ∈ (s.profiles m).posts from hpost) (by simp [hposts])
        · exact absurd (show viewModel ∈ (s.profiles m).cells cell from hviewModel)
            (by simp [hcells])
        · exact absurd (show _ ∈ (s.profiles m).header from h) (by simp [hheader])
      next => exact hs m'
    refine ⟨⟨fun m' hm' => ?_, fun d post hpost => hpost⟩, hstate, ?_⟩
    · rw [Client.mapProfile_profiles]
      split
      next heq =>
        subst heq
        exact absurd hm' hunloaded
      next => exact ⟨hm', rfl⟩
    · refine grows_profileDidLoad hstate ?_
      rw [Client.mapProfile_profiles, if_pos rfl]

/-- One whose user is read first is pushed by the callback. -/
theorem grows_fetchProfile {m : Nat} {uid : String} :
    (wantsToShowProfile m uid).GrowsFrom T.profiles e s :=
  grows_fetchUser T.profiles_req fun _ _ _ hs' => grows_profilePush hs'

/-- The completions of `follow` and `unfollow` in the header. -/
theorem grows_headerTap {m : Nat} :
    (ProfileController.didTapActionButton m).GrowsFrom T.profiles e s := by
  unfold ProfileController.didTapActionButton
  rw [Prog.growsFrom_read]
  split
  next user currentUser _ _ =>
    rw [Prog.growsFrom_ask]
    split
    next => trivial
    next =>
      split
      next =>
        refine grows_unfollow T.profiles_req fun error e' s' hs' => ?_
        refine grows_setUser (f := fun user => { user with isFollowed := false }) (fun _ => rfl) hs'
          fun _ hs'' => grows_of_spares ?_ hs''
        exact spares_deleteNotification (fun _ => trivial) fun _ => trivial
      next =>
        refine grows_follow T.profiles_req fun error e' s' hs' => ?_
        refine grows_setUser (f := fun user => { user with isFollowed := true }) (fun _ => rfl) hs'
          fun _ hs'' => grows_of_spares ?_ hs''
        exact spares_uploadNotification fun _ _ => trivial
  next => trivial

/-! ### The programs that leave profiles alone -/

/-- The program leaves profiles and comment screens alone. -/
abbrev SparesShow (p : Program Client) : Prop := p.Spares (fun _ => True) onShow

theorem sparesShow_of_browses (h : Browses onShow p) : SparesShow p := h.mono fun _ _ => trivial

/-- The `hud` is not a profile. -/
theorem sparesShow_showLoader {isShown : Bool} (h : SparesShow rest) :
    SparesShow (showLoader isShown rest) :=
  ⟨fun _ => rfl, h⟩

theorem sparesShow_uploadNotification {uid : String} {fromUser : User} {type : NotificationType}
    {post : Option Post} :
    SparesShow (NotificationService.uploadNotification uid fromUser type post) :=
  spares_uploadNotification fun _ _ => trivial

/-- Neither is the tab bar. -/
theorem sparesShow_fetchTabUser : SparesShow MainTabController.fetchUser :=
  spares_withCurrentUid fun _ => spares_fetchUser trivial fun _ => ⟨fun _ => rfl, trivial⟩

/-- A like concerns the feed alone, -/
theorem sparesShow_didTapLike {c cell : Nat} : SparesShow (FeedController.didTapLike c cell) := by
  intro client
  dsimp only
  split
  next post user _ _ =>
    refine ⟨fun _ => rfl, ?_⟩
    split
    next =>
      refine spares_unlikePost (fun _ => trivial) (fun _ => trivial) (fun _ => trivial) fun _ => ?_
      refine ⟨fun _ => rfl, fun _ => ?_⟩
      exact spares_deleteNotification (fun _ => trivial) fun _ => trivial
    next =>
      refine spares_withCurrentUid fun _ => .andThen (spares_silent trivial) ?_
      refine spares_write trivial fun _ => spares_write trivial fun _ => ⟨fun _ => rfl, ?_⟩
      exact sparesShow_uploadNotification
  next => trivial

/-- as do the options -/
theorem sparesShow_wantsToShowOptions {c cell : Nat} :
    SparesShow (FeedController.wantsToShowOptions c cell) := by
  intro client
  dsimp only
  split
  next => trivial
  next post _ =>
    intro turn
    dsimp only
    split
    next => exact ⟨fun _ => rfl, trivial⟩
    next =>
      refine ⟨fun _ => rfl, spares_checkIfUserIsFollowed (fun _ => trivial) fun _ => ?_⟩
      exact ⟨fun _ => rfl, trivial⟩

/-- and the sheet. -/
theorem sparesShow_didTapSheet {k : Nat} {action : SheetAction} :
    SparesShow (FeedController.didTapSheet k action) := by
  intro client
  dsimp only
  split
  next => trivial
  next sheet _ =>
    split
    next =>
      refine ⟨fun _ => rfl, ?_⟩
      cases action with
      | editPost => trivial
      | cancel => trivial
      | deletePost =>
        refine sparesShow_showLoader (spares_deletePost (fun _ => trivial) trivial
          (fun _ => trivial) (fun _ => trivial) (fun _ _ => trivial) fun _ =>
            sparesShow_showLoader ?_)
        exact sparesShow_of_browses (browses_feedRefresh distant_onShow)
      | unfollow =>
        exact sparesShow_showLoader (spares_unfollow (fun _ => trivial) (fun _ => trivial)
          fun _ => sparesShow_showLoader trivial)
      | follow =>
        exact sparesShow_showLoader (spares_follow (fun _ => trivial) (fun _ => trivial)
          fun _ => sparesShow_showLoader trivial)
    next => trivial

/-- An upload refreshes a feed. -/
theorem sparesShow_didTapDone {k : Nat} {caption : String} :
    SparesShow (UploadPostController.didTapDone k caption) := by
  intro client
  dsimp only
  split
  next image user _ _ =>
    refine sparesShow_showLoader (spares_uploadPost (fun _ _ => trivial) (fun _ => trivial)
      (fun _ _ => trivial) fun error => ?_)
    cases error with
    | some error => exact sparesShow_showLoader trivial
    | none => exact sparesShow_of_browses (browses_feedRefresh distant_onShow)
  next => trivial

/-- The notification list follows without the profile hearing of it. -/
theorem sparesShow_handleFollowTapped {n cell : Nat} :
    SparesShow (NotificationsController.handleFollowTapped n cell) := by
  have htoggle : ∀ error, SparesShow (NotificationsController.didToggle n cell error) :=
    fun _ => sparesShow_showLoader ⟨fun _ => rfl, trivial⟩
  intro client
  dsimp only
  split
  next => trivial
  next notification _ =>
    refine sparesShow_showLoader ?_
    split
    next => exact spares_unfollow (fun _ => trivial) (fun _ => trivial) htoggle
    next => exact spares_follow (fun _ => trivial) (fun _ => trivial) htoggle

/-- The text of the input view is not the post of the screen. -/
theorem onShow_text (d : Nat) (text : String) (client : Client) :
    onShow (client.mapComments d fun comments => { comments with text := text })
      = onShow client := by
  refine Prod.ext rfl (funext fun d' => ?_)
  show (Function.update client.comments d _ d').post = (client.comments d').post
  by_cases hd : d' = d
  · rw [hd, Function.update_self]
  · rw [Function.update_of_ne hd]

/-- A comment is no part of a profile. -/
theorem sparesShow_postComment {d : Nat} {comment : String} :
    SparesShow (CommentController.handlePostTapped d comment) := by
  refine ⟨onShow_text d comment, fun client => ?_⟩
  dsimp only
  split
  next post currentUser _ _ =>
    refine sparesShow_showLoader fun _ _ => spares_write trivial fun _ => sparesShow_showLoader ?_
    exact ⟨onShow_text d "", sparesShow_uploadNotification⟩
  next => trivial

/-- A registration fills the tab bar. -/
theorem sparesShow_handleSignUp {credentials : AuthCredentials} :
    SparesShow (RegisterationViewController.handleSignUp credentials) := by
  refine spares_uploadImage (fun _ _ => trivial) (fun _ => trivial) fun url => ?_
  refine ⟨trivial, fun result => ?_, trivial⟩
  dsimp only
  split
  next => trivial
  next =>
    split
    next => trivial
    next uid _ =>
      intro turn
      refine spares_write trivial fun error => ?_
      cases error with
      | some error => trivial
      | none => exact sparesShow_fetchTabUser

/-! ### The others -/

/-- A comment screen is for one post. -/
theorem grows_showComments {c cell d : Nat} (hs : T.profiles.state s) :
    (CommentController.push c cell d).GrowsFrom T.profiles e s := by
  refine ⟨⟨fun m hm => ?_, fun d' post hpost => ?_⟩, ?_, trivial⟩
  · dsimp only
    split
    next => exact ⟨hm, rfl⟩
    next => exact ⟨hm, rfl⟩
  · dsimp only
    split
    next post' hnone _ =>
      by_cases hd : d' = d
      · rw [hd, hnone] at hpost
        exact absurd hpost (by simp)
      · show (Function.update s.comments d _ d').post = some post
        rw [Function.update_of_ne hd]
        exact hpost
    next => exact hpost
  · dsimp only
    split
    next => exact hs
    next => exact hs

/-- A row of the notification list pushes the profile of its sender. -/
theorem grows_inboxSelect {n row m : Nat} (hs : T.profiles.state s) :
    (NotificationsController.didSelectRowAt n row m).GrowsFrom T.profiles e s := by
  unfold NotificationsController.didSelectRowAt
  rw [Prog.growsFrom_read]
  have hloader : ∀ {p : Program Client} {isShown : Bool} {e : Turn} {s : Client},
      T.profiles.state s → (∀ s, T.profiles.state s → p.GrowsFrom T.profiles e s) →
      (showLoader isShown p).GrowsFrom T.profiles e s :=
    fun hs hp => ⟨⟨fun _ h => ⟨h, rfl⟩, fun _ _ h => h⟩, hs, hp _ hs⟩
  split
  next =>
    refine hloader hs fun s hs => grows_fetchUser T.profiles_req fun user e' s' hs' => ?_
    exact hloader hs' fun s hs => grows_profilePush hs
  next => trivial

/-- Cells are filled from the grid. -/
theorem grows_profileCell {m cell row : Nat} (hs : T.profiles.state s) :
    (ProfileController.cellForItemAt m cell row).GrowsFrom T.profiles e s := by
  have hown := hs m
  refine grows_inProfile hs ?_ ?_ ?_ fun _ => trivial
  · split <;> rfl
  · split <;> rfl
  · split
    next post hpost =>
      refine ⟨hown.posts, fun i viewModel hviewModel => ?_, hown.header, fun hunloaded => ?_⟩
      · by_cases hi : i = cell
        · rw [hi] at hviewModel
          obtain rfl : viewModel = ⟨post⟩ := by simpa [eq_comm] using hviewModel
          exact hown.posts post (List.mem_of_getElem? hpost)
        · exact hown.cells i viewModel (by simpa [Function.update_of_ne hi] using hviewModel)
      · rw [(hown.unloaded hunloaded).1] at hpost
        exact absurd hpost (by simp)
    next => exact hown

/-- The profile on which the user pulls to refresh or UIKit asks for the header. -/
def Action.profile : Action → Option Nat
  | .profileRefresh m | .profileHeader m => some m
  | _ => none

/-- Both happen on a profile that is on screen. -/
def Client.Displays (client : Client) (a : Action) : Prop :=
  ∀ m ∈ a.profile, (client.profiles m).loaded = true

instance (client : Client) (a : Action) : Decidable (client.Displays a) :=
  inferInstanceAs (Decidable (∀ m ∈ _, _))

/-- Every action on display takes the profiles up. -/
theorem Action.grows (a : Action) (hs : T.profiles.state s) (ha : s.Displays a) :
    a.program.GrowsFrom T.profiles e s := by
  cases a with
  | tabDidLoad => exact grows_of_spares sparesShow_fetchTabUser hs
  | feedDidLoad c => exact grows_of_browses (browses_feedDidLoad distant_onShow) hs
  | feedRefresh c => exact grows_of_browses (browses_feedRefresh distant_onShow) hs
  | feedCell c cell row => exact grows_of_browses (browses_inFeed distant_onShow trivial) hs
  | likeTap c cell => exact grows_of_spares sparesShow_didTapLike hs
  | optionsTap c cell => exact grows_of_spares sparesShow_wantsToShowOptions hs
  | sheetTap k action => exact grows_of_spares sparesShow_didTapSheet hs
  | commentsTap c cell d => exact grows_showComments hs
  | postComment d comment => exact grows_of_spares sparesShow_postComment hs
  | pickImage c k image => exact grows_of_spares ⟨fun _ => rfl, trivial⟩ hs
  | shareTap k caption => exact grows_of_spares sparesShow_didTapDone hs
  | showProfile m uid => exact grows_fetchProfile
  | profileRefresh m =>
    refine grows_inProfile hs rfl rfl ?_ fun hs' => grows_profileFetchPosts ?_
    · exact ⟨fun post hpost => absurd hpost (by simp), (hs m).cells, (hs m).header,
        fun hunloaded => absurd ((ha m rfl).symm.trans hunloaded) (by simp)⟩
    · rw [Client.mapProfile_profiles, if_pos rfl]
      exact ha m rfl
  | profileHeader m =>
    refine grows_inProfile hs rfl rfl ?_ fun _ => trivial
    refine ⟨(hs m).posts, (hs m).cells, fun user huser => ?_,
      fun hunloaded => absurd ((ha m rfl).symm.trans hunloaded) (by simp)⟩
    rw [← Option.some.inj huser]
  | profileCell m cell row => exact grows_profileCell hs
  | profileSelect m row c => exact grows_of_browses (browses_profileSelect distant_onShow) hs
  | headerTap m => exact grows_headerTap
  | inboxDidLoad n => exact grows_of_browses (browses_inboxDidLoad distant_onShow) hs
  | inboxRefresh n =>
    exact grows_of_browses (browses_inInbox distant_onShow (browses_inboxFetch distant_onShow)) hs
  | inboxCell n cell row => exact grows_of_browses (browses_inInbox distant_onShow trivial) hs
  | inboxFollowTap n cell => exact grows_of_spares sparesShow_handleFollowTapped hs
  | inboxPostTap n cell c => exact grows_of_browses (browses_inboxPostTap distant_onShow) hs
  | searchDidLoad n => exact grows_of_browses (browses_searchFetchPosts distant_onShow) hs
  | searchCell n cell item => exact grows_of_spares ⟨fun _ => rfl, trivial⟩ hs
  | searchSelect n item c => exact grows_of_browses (browses_searchSelect distant_onShow) hs

end Programs

end InstaClone
