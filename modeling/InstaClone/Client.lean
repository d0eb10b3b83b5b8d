import Mathlib.Logic.Function.Basic
import InstaClone.Records

/-!
# The client side of a session: controllers, their cells, and what they hold

The state of the view controllers that load, show and change posts, follows and
notifications. A Swift object is named by its index; an index that no statement has
touched yet is an object in its initial state. `loaded` is `isViewLoaded`: a
controller is set up by its `init` and properties and then loads its view once.

A `didSet` observer is part of the setter (`setPosts`, `setPost`, `setUser`,
`setNotifications`): it reloads the view, which takes every cell off its row until
`cellForItemAt` binds one to it again. A cell taken off its row keeps its view model;
completions that captured the cell still write into it.

What only the screen shows (labels other than the like count, images, layout) is left
out.
-/

namespace InstaClone

/-! ## Feed cells -/

/-- `UIImage(systemName: "heart")` and `"heart.fill"`. -/
inductive HeartImage where
  | heart
  | heartFill
deriving DecidableEq, Repr

/-- The two tint colors of the like button. -/
inductive Tint where
  | black
  | red
deriving DecidableEq, Repr

structure PostViewModel where
  post : Post
deriving DecidableEq

namespace PostViewModel

def likes (viewModel : PostViewModel) : Int := viewModel.post.likes

def likesLabelText (viewModel : PostViewModel) : String :=
  if viewModel.post.likes ≠ 1 then toString viewModel.post.likes ++ " likes"
  else toString viewModel.post.likes ++ " like"

def likeButtonImage (viewModel : PostViewModel) : HeartImage :=
  if viewModel.post.didLike then .heartFill else .heart

def likeButtonTintColor (viewModel : PostViewModel) : Tint :=
  if viewModel.post.didLike then .red else .black

end PostViewModel

/-- `FeedCell`, with the row it is shown in. -/
structure FeedCell where
  viewModel : Option PostViewModel := none
  likesLabel : String := ""
  likeButtonImage : HeartImage := .heart
  likeButtonTintColor : Tint := .black
  row : Option Nat := none
deriving DecidableEq

namespace FeedCell

/-- `configure()`. -/
def configure (cell : FeedCell) : FeedCell :=
  match cell.viewModel with
  | none => cell
  | some viewModel =>
    { cell with
      likesLabel := viewModel.likesLabelText
      likeButtonTintColor := viewModel.likeButtonTintColor
      likeButtonImage := viewModel.likeButtonImage }

/-- `viewModel = …`, with its `didSet`. -/
def setViewModel (viewModel : Option PostViewModel) (cell : FeedCell) : FeedCell :=
  { cell with viewModel := viewModel }.configure

/-- `viewModel?.post.… = …`, with its `didSet`. -/
def updatePost (f : Post → Post) (cell : FeedCell) : FeedCell :=
  match cell.viewModel with
  | none => cell
  | some viewModel => cell.setViewModel (some ⟨f viewModel.post⟩)

/-- `likeButton.setImage(…)` and `likeButton.tintColor = …`. -/
def setLikeButton (image : HeartImage) (tint : Tint) (cell : FeedCell) : FeedCell :=
  { cell with likeButtonImage := image, likeButtonTintColor := tint }

/-- `viewModel?.post`. -/
def post (cell : FeedCell) : Option Post := cell.viewModel.map PostViewModel.post

/-- Configuring a cell changes neither its view model -/
@[simp] theorem configure_viewModel (cell : FeedCell) :
    cell.configure.viewModel = cell.viewModel := by
  unfold configure
  split <;> simp_all

/-- nor the row it shows. -/
@[simp] theorem configure_row (cell : FeedCell) : cell.configure.row = cell.row := by
  unfold configure
  split <;> rfl

/-- A cell has the view model it is given, -/
@[simp] theorem setViewModel_viewModel (viewModel : Option PostViewModel) (cell : FeedCell) :
    (cell.setViewModel viewModel).viewModel = viewModel := by
  rw [setViewModel, configure_viewModel]

/-- stays in its row, -/
@[simp] theorem setViewModel_row (viewModel : Option PostViewModel) (cell : FeedCell) :
    (cell.setViewModel viewModel).row = cell.row := by
  rw [setViewModel, configure_row]

/-- and shows the post of the view model. -/
@[simp] theorem setViewModel_post (viewModel : Option PostViewModel) (cell : FeedCell) :
    (cell.setViewModel viewModel).post = viewModel.map PostViewModel.post := by
  rw [post, setViewModel_viewModel]

/-- The button is apart from the post -/
@[simp] theorem setLikeButton_post (image : HeartImage) (tint : Tint) (cell : FeedCell) :
    (cell.setLikeButton image tint).post = cell.post := rfl

/-- and from the row. -/
@[simp] theorem setLikeButton_row (image : HeartImage) (tint : Tint) (cell : FeedCell) :
    (cell.setLikeButton image tint).row = cell.row := rfl

/-- Assigning through `viewModel?.post` changes the post, if there is one, -/
@[simp] theorem updatePost_post (f : Post → Post) (cell : FeedCell) :
    (cell.updatePost f).post = cell.post.map f := by
  unfold updatePost
  split
  next h => simp [post, h]
  next viewModel h => simp [post, h]

/-- and not the row. -/
@[simp] theorem updatePost_row (f : Post → Post) (cell : FeedCell) :
    (cell.updatePost f).row = cell.row := by
  unfold updatePost
  split
  next => rfl
  next => rw [setViewModel_row]

end FeedCell

/-! ## Controllers -/

structure FeedController where
  loaded : Bool := false
  user : Option User := none
  posts : List Post := []
  post : Option Post := none
  cells : Nat → FeedCell := fun _ => {}

namespace FeedController

/-- `collectionView.reloadData()`. -/
def reloadData (feed : FeedController) : FeedController :=
  { feed with cells := fun i => { feed.cells i with row := none } }

/-- `posts = …`, with its `didSet`. -/
def setPosts (posts : List Post) (feed : FeedController) : FeedController :=
  { feed with posts := posts }.reloadData

/-- `post = …`, with its `didSet`. -/
def setPost (post : Option Post) (feed : FeedController) : FeedController :=
  { feed with post := post }.reloadData

/-- A change of one cell. -/
def mapCell (cell : Nat) (f : FeedCell → FeedCell) (feed : FeedController) : FeedController :=
  { feed with cells := Function.update feed.cells cell (f (feed.cells cell)) }

/-- One cell changes, the others are left alone. -/
theorem mapCell_cells (cell i : Nat) (f : FeedCell → FeedCell) (feed : FeedController) :
    (feed.mapCell cell f).cells i = if i = cell then f (feed.cells cell) else feed.cells i :=
  Function.update_apply ..

/-- The post that row `row` shows: the one post in single-post mode, else the one at that
place of the list. -/
def postAt (feed : FeedController) (row : Nat) : Option Post :=
  match feed.post with
  | some post => if row = 0 then some post else none
  | none => feed.posts[row]?

end FeedController

/-- `ProfileHeader`, `ProfileCell` and what they show. -/
structure ProfileController where
  loaded : Bool := false
  user : User := User.init (dict [])
  posts : List Post := []
  header : Option User := none
  cells : Nat → Option PostViewModel := fun _ => none

namespace ProfileController

/-- `collectionView.reloadData()`: the header is asked for again. -/
def reloadData (profile : ProfileController) : ProfileController :=
  { profile with header := none }

/-- `user = …`, with its `didSet`. -/
def setUser (user : User) (profile : ProfileController) : ProfileController :=
  { profile with user := user }.reloadData

end ProfileController

/-- `NotificationCell`, with the row it is shown in. -/
structure NotificationCell where
  viewModel : Option Notification := none
  row : Option Nat := none
deriving DecidableEq

structure NotificationsController where
  loaded : Bool := false
  notifications : List Notification := []
  cells : Nat → NotificationCell := fun _ => {}

namespace NotificationsController

/-- `tableView.reloadData()`. -/
def reloadData (inbox : NotificationsController) : NotificationsController :=
  { inbox with cells := fun i => { inbox.cells i with row := none } }

/-- `notifications = …`, with its `didSet`. -/
def setNotifications (notifications : List Notification) (inbox : NotificationsController) :
    NotificationsController :=
  { inbox with notifications := notifications }.reloadData

/-- A change of one cell. -/
def mapCell (cell : Nat) (f : NotificationCell → NotificationCell)
    (inbox : NotificationsController) : NotificationsController :=
  { inbox with cells := Function.update inbox.cells cell (f (inbox.cells cell)) }

end NotificationsController

/-- The grid of `SearchController`. -/
structure SearchController where
  loaded : Bool := false
  posts : List Post := []
  cells : Nat → Option PostViewModel := fun _ => none

/-- `CommentController`, with the post it was opened on and the text in its input view. -/
structure CommentController where
  post : Option Post := none
  text : String := ""

/-- `UploadPostController`, with the feed it reports to. -/
structure UploadPostController where
  selectedImage : Option UIImage := none
  currentUser : Option User := none
  delegate : Nat := 0

/-! ## The options sheet -/

inductive SheetAction where
  | editPost
  | deletePost
  | unfollow
  | follow
  | cancel
deriving DecidableEq, Repr

/-- The `UIAlertController` of `wantsToShowOptionsForPost`: the feed that presents it,
the post its actions captured, and the actions added so far. -/
structure OptionsSheet where
  feed : Nat
  post : Post
  actions : List SheetAction
  presented : Bool := true
deriving DecidableEq

/-! ## A session -/

/-- The client state of a session. `loader` is the one shared `hud`. -/
structure Client where
  tabUser : Option User := none
  loader : Bool := false
  feeds : Nat → FeedController := fun _ => {}
  profiles : Nat → ProfileController := fun _ => {}
  inboxes : Nat → NotificationsController := fun _ => {}
  searches : Nat → SearchController := fun _ => {}
  comments : Nat → CommentController := fun _ => {}
  uploads : Nat → UploadPostController := fun _ => {}
  sheets : List OptionsSheet := []

namespace Client

def mapFeed (c : Nat) (f : FeedController → FeedController) (client : Client) : Client :=
  { client with feeds := Function.update client.feeds c (f (client.feeds c)) }

def mapProfile (m : Nat) (f : ProfileController → ProfileController) (client : Client) : Client :=
  { client with profiles := Function.update client.profiles m (f (client.profiles m)) }

def mapInbox (n : Nat) (f : NotificationsController → NotificationsController)
    (client : Client) : Client :=
  { client with inboxes := Function.update client.inboxes n (f (client.inboxes n)) }

def mapSearch (n : Nat) (f : SearchController → SearchController) (client : Client) : Client :=
  { client with searches := Function.update client.searches n (f (client.searches n)) }

def mapComments (d : Nat) (f : CommentController → CommentController) (client : Client) :
    Client :=
  { client with comments := Function.update client.comments d (f (client.comments d)) }

/-- One object changes, the others of its kind are left alone: of the feeds, -/
theorem mapFeed_feeds (c i : Nat) (f : FeedController → FeedController) (client : Client) :
    (client.mapFeed c f).feeds i = if i = c then f (client.feeds c) else client.feeds i :=
  Function.update_apply ..

/-- the profiles, -/
theorem mapProfile_profiles (m i : Nat) (f : ProfileController → ProfileController)
    (client : Client) :
    (client.mapProfile m f).profiles i
      = if i = m then f (client.profiles m) else client.profiles i :=
  Function.update_apply ..

/-- the inboxes -/
theorem mapInbox_inboxes (n i : Nat) (f : NotificationsController → NotificationsController)
    (client : Client) :
    (client.mapInbox n f).inboxes i
      = if i = n then f (client.inboxes n) else client.inboxes i :=
  Function.update_apply ..

/-- and the grids of posts. -/
theorem mapSearch_searches (n i : Nat) (f : SearchController → SearchController)
    (client : Client) :
    (client.mapSearch n f).searches i
      = if i = n then f (client.searches n) else client.searches i :=
  Function.update_apply ..

def mapSheet (k : Nat) (f : OptionsSheet → OptionsSheet) (client : Client) : Client :=
  { client with sheets := client.sheets.modify k f }

end Client

end InstaClone
