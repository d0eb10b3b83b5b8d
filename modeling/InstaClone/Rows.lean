import Mathlib.Data.List.AList
import Mathlib.Data.List.Infix
import InstaClone.Async.Machine
import InstaClone.Services

/-!
# The list controllers and the rows UIKit has counted

UIKit reads the number of rows at every `reloadData` and asks only for rows below the number
it has read last. A controller is safe as long as its array has that length whenever UIKit
asks. `FeedController` and `NotificationsController` see to it with a `didSet` on their
arrays, the others call `reloadData` by hand after each assignment.

Each controller is a machine: its arrays, the count UIKit has read (`rows`), the handlers
that change them, and the accesses of its data source and delegate methods. The handlers'
replies may bring anything. `ProfileController.handleRefresh` empties its array and does not
reload, so until the reply arrives UIKit may ask for rows that are gone.
-/

namespace InstaClone

open Async (Machine subscript subscript_isSome)

/-- `DocumentChangeType`. -/
inductive DocumentChangeType where
  | added
  | modified
  | removed
deriving DecidableEq, Repr

/-- A change a snapshot listener is told of. -/
structure DocumentChange where
  type : DocumentChangeType
  document : Doc

/-! ## `FeedController` -/

structure FeedRows where
  posts : List Post := []
  post : Option Post := none
  rows : Nat := 0

inductive FeedRowsEvent where
  | didFetchPosts (posts : List Post)
  | didCheckPost (didLike : Bool)
  | didCheckPosts (postId : String) (didLike : Bool)
  | setPost (post : Post)
  | handleRefresh
  | cellForItemAt (row : Nat)

namespace FeedRows

/-- `numberOfItemsInSection`. -/
def numberOfItems (feed : FeedRows) : Nat :=
  match feed.post with
  | none => feed.posts.length
  | some _ => 1

def reloadData (feed : FeedRows) : FeedRows := { feed with rows := feed.numberOfItems }

/-- `posts = …`, with its `didSet`. -/
def setPosts (posts : List Post) (feed : FeedRows) : FeedRows :=
  { feed with posts := posts }.reloadData

/-- `post = …`, with its `didSet`. -/
def setPost (post : Option Post) (feed : FeedRows) : FeedRows :=
  { feed with post := post }.reloadData

def step (feed : FeedRows) : FeedRowsEvent → Option FeedRows
  | .didFetchPosts posts => some (feed.setPosts posts)
  | .didCheckPost didLike =>
    match feed.post with
    | some post => some (feed.setPost (some { post with didLike := didLike }))
    | none => some feed
  | .didCheckPosts postId didLike =>
    match feed.posts.findIdx? fun post => post.postId == postId with
    | some index =>
      some (feed.setPosts (feed.posts.modify index fun post => { post with didLike := didLike }))
    | none => some feed
  | .setPost post => some (feed.setPost (some post))
  | .handleRefresh => some (feed.setPosts [])
  | .cellForItemAt row =>
    match feed.post with
    | some _ => some feed
    | none => subscript feed.posts row fun _ => feed

/-- UIKit asks for rows it has counted. -/
def allows (feed : FeedRows) : FeedRowsEvent → Prop
  | .cellForItemAt row => row < feed.rows
  | _ => True

def machine : Machine FeedRows FeedRowsEvent where
  starts feed := feed = {}
  allows := allows
  step := step

variable {feed feed' : FeedRows} {es : List FeedRowsEvent} {ev : FeedRowsEvent}

/-- Every handler reloads what it changes. -/
theorem step_counted (h : feed.rows = feed.numberOfItems) (hstep : feed.step ev = some feed') :
    feed'.rows = feed'.numberOfItems := by
  cases ev with
  | didFetchPosts posts => rw [← Option.some.inj hstep]; rfl
  | didCheckPost didLike =>
    simp only [step] at hstep
    split at hstep
    next => rw [← Option.some.inj hstep]; rfl
    next => rw [← Option.some.inj hstep]; exact h
  | didCheckPosts postId didLike =>
    simp only [step] at hstep
    split at hstep
    next => rw [← Option.some.inj hstep]; rfl
    next => rw [← Option.some.inj hstep]; exact h
  | setPost post => rw [← Option.some.inj hstep]; rfl
  | handleRefresh => rw [← Option.some.inj hstep]; rfl
  | cellForItemAt row =>
    simp only [step] at hstep
    split at hstep
    next => rw [← Option.some.inj hstep]; exact h
    next =>
      obtain ⟨post, -, rfl⟩ := Option.map_eq_some_iff.mp hstep
      exact h

theorem counted (run : machine.Run es feed) : feed.rows = feed.numberOfItems := by
  refine run.invariant (I := fun _ feed => feed.rows = feed.numberOfItems) ?_ ?_
  · intro feed hstart
    rw [hstart]
    rfl
  · exact fun _ _ _ _ h _ hstep => step_counted h hstep

/-- No access traps. -/
theorem inBounds (run : machine.Run es feed) (hallowed : feed.allows ev) :
    (feed.step ev).isSome = true := by
  cases ev with
  | cellForItemAt row =>
    have hrow : row < feed.rows := hallowed
    rw [counted run] at hrow
    simp only [step]
    cases hpost : feed.post with
    | some post => rfl
    | none =>
      unfold numberOfItems at hrow
      rw [hpost] at hrow
      exact subscript_isSome.mpr hrow
  | didCheckPost didLike => unfold step; dsimp only; split <;> rfl
  | didCheckPosts postId didLike => unfold step; dsimp only; split <;> rfl
  | _ => rfl

end FeedRows

/-! ## `ProfileController` -/

structure ProfileRows where
  posts : List Post := []
  rows : Nat := 0

inductive ProfileRowsEvent where
  | didFetchPosts (posts : List Post)
  | setUser
  | handleRefresh
  | cellForItemAt (row : Nat)
  | didSelectItemAt (row : Nat)

/-- Does UIKit ask for a row? -/
def ProfileRowsEvent.asks : ProfileRowsEvent → Bool
  | .cellForItemAt _ | .didSelectItemAt _ => true
  | _ => false

namespace ProfileRows

def reloadData (profile : ProfileRows) : ProfileRows :=
  { profile with rows := profile.posts.length }

def step (profile : ProfileRows) : ProfileRowsEvent → Option ProfileRows
  | .didFetchPosts posts => some { profile with posts := posts }.reloadData
  -- the `didSet` of `user`, whichever reply assigns it
  | .setUser => some profile.reloadData
  | .handleRefresh => some { profile with posts := [] }
  | .cellForItemAt row => subscript profile.posts row fun _ => profile
  | .didSelectItemAt row => subscript profile.posts row fun _ => profile

def allows (profile : ProfileRows) : ProfileRowsEvent → Prop
  | .cellForItemAt row => row < profile.rows
  | .didSelectItemAt row => row < profile.rows
  | _ => True

def machine : Machine ProfileRows ProfileRowsEvent where
  starts profile := profile = {}
  allows := allows
  step := step

/-- Has the array been emptied by `handleRefresh` with no `reloadData` since? -/
def refreshing (es : List ProfileRowsEvent) : Bool :=
  es.foldl
    (fun pending ev =>
      match ev with
      | .handleRefresh => true
      | .didFetchPosts _ | .setUser => false
      | _ => pending)
    false

variable {profile profile' : ProfileRows} {es : List ProfileRowsEvent} {ev : ProfileRowsEvent}

theorem refreshing_snoc :
    refreshing (es ++ [ev])
      = match ev with
        | .handleRefresh => true
        | .didFetchPosts _ | .setUser => false
        | _ => refreshing es := List.foldl_append

/-- The array has the counted length, or it has been emptied. -/
theorem counted (run : machine.Run es profile) :
    if refreshing es then profile.posts = [] else profile.rows = profile.posts.length := by
  refine run.invariant (I := fun es profile =>
    if refreshing es then profile.posts = [] else profile.rows = profile.posts.length) ?_ ?_
  · intro profile hstart
    rw [hstart]
    rfl
  · intro es profile ev profile' h _ hstep
    rw [refreshing_snoc]
    cases ev with
    | didFetchPosts posts => rw [← Option.some.inj hstep]; rfl
    | setUser => rw [← Option.some.inj hstep]; rfl
    | handleRefresh => rw [← Option.some.inj hstep]; rfl
    | cellForItemAt row =>
      obtain ⟨post, -, rfl⟩ := Option.map_eq_some_iff.mp hstep
      exact h
    | didSelectItemAt row =>
      obtain ⟨post, -, rfl⟩ := Option.map_eq_some_iff.mp hstep
      exact h

/-- A row that UIKit has counted is there unless a refresh has emptied the array. -/
theorem row_lt_iff (run : machine.Run es profile) {row : Nat} (hrow : row < profile.rows) :
    row < profile.posts.length ↔ refreshing es = false := by
  have hcounted := counted run
  cases hes : refreshing es with
  | true =>
    rw [hes] at hcounted
    have hnil : profile.posts = [] := hcounted
    rw [hnil]
    simp
  | false =>
    rw [hes] at hcounted
    have hlen : profile.rows = profile.posts.length := hcounted
    exact iff_of_true (hlen ▸ hrow) rfl

/-- An access traps exactly between a refresh and the next reload. -/
theorem inBounds_iff (run : machine.Run es profile) (hallowed : profile.allows ev) :
    (profile.step ev).isSome = true ↔ ¬ (ev.asks = true ∧ refreshing es = true) := by
  cases ev with
  | cellForItemAt row =>
    have hrow : row < profile.rows := hallowed
    unfold step
    rw [subscript_isSome, row_lt_iff run hrow]
    simp [ProfileRowsEvent.asks]
  | didSelectItemAt row =>
    have hrow : row < profile.rows := hallowed
    unfold step
    rw [subscript_isSome, row_lt_iff run hrow]
    simp [ProfileRowsEvent.asks]
  | _ => simp [step, ProfileRowsEvent.asks]

end ProfileRows

/-! ## `SearchController` -/

structure SearchRows where
  users : List User := []
  filteredUsers : List User := []
  posts : List Post := []
  isActive : Bool := false
  text : String := ""
  tableRows : Nat := 0
  gridRows : Nat := 0
  -- has the one reply of `.all` and `.messages` arrived?
  answered : Bool := false

inductive SearchRowsEvent where
  | didFetchUsers (users : List User)
  | didFetchPosts (posts : List Post)
  | updateSearchResults (isActive : Bool) (text : String)
  | searchBarCancelButtonClicked
  | cellForRowAt (row : Nat)
  | didSelectRowAt (row : Nat)
  | cellForItemAt (item : Nat)
  | didSelectItemAt (item : Nat)

/-- What `String` does to text, character by character: `lowercased()`, and `contains(_:)` of
another string. -/
structure StringOps where
  lowercased : String → String
  contains : String → String → Bool

/-- ASCII text, in which every scalar is a character. -/
def stringsASCII : StringOps where
  lowercased text := String.ofList (text.toList.map Char.toLower)
  contains text part := decide (part.toList <:+: text.toList)

namespace SearchRows

/-- `inSearchMode`. -/
def inSearchMode (search : SearchRows) : Bool := search.isActive && search.text != ""

/-- The array the table view reads. -/
def shown (search : SearchRows) : List User :=
  if search.inSearchMode then search.filteredUsers else search.users

/-- `tableView.reloadData()`. -/
def reloadTable (search : SearchRows) : SearchRows :=
  { search with tableRows := search.shown.length }

/-- `collectionView.reloadData()`. -/
def reloadGrid (search : SearchRows) : SearchRows :=
  { search with gridRows := search.posts.length }

/-- The filter of `updateSearchResults`. -/
def filtered (strings : StringOps) (searchText : String) (users : List User) :
    List User :=
  users.filter fun user =>
    strings.contains (strings.lowercased user.username) (strings.lowercased searchText)
      || strings.contains (strings.lowercased user.fullname) (strings.lowercased searchText)

def step (config : UserFilterConfig) (strings : StringOps) (search : SearchRows) :
    SearchRowsEvent → Option SearchRows
  | .didFetchUsers users => some { search with users := users, answered := true }.reloadTable
  | .didFetchPosts posts => some { search with posts := posts }.reloadGrid
  | .updateSearchResults isActive text =>
    some
      { search with
        isActive := isActive
        text := text
        filteredUsers := filtered strings text search.users }.reloadTable
  | .searchBarCancelButtonClicked => some { search with text := "" }.reloadTable
  | .cellForRowAt row => subscript search.shown row fun _ => search
  | .didSelectRowAt row =>
    if config = .messages then subscript search.users row fun _ => search
    else subscript search.shown row fun _ => search
  | .cellForItemAt item => subscript search.posts item fun _ => search
  | .didSelectItemAt item => subscript search.posts item fun _ => search

/-- The query of `.all` and `.messages` is answered once, the documents of the other
collections one after the other. -/
def allows (config : UserFilterConfig) (search : SearchRows) : SearchRowsEvent → Prop
  | .didFetchUsers _ => config = .all ∨ config = .messages → search.answered = false
  | .cellForRowAt row => row < search.tableRows
  | .didSelectRowAt row => row < search.tableRows
  | .cellForItemAt item => item < search.gridRows
  | .didSelectItemAt item => item < search.gridRows
  | _ => True

def machine (config : UserFilterConfig) (strings : StringOps) :
    Machine SearchRows SearchRowsEvent where
  starts search := search = {}
  allows := allows config
  step := step config strings

/-- Both counts are current. A search for a chat partner selects from `users` by a row of
`filteredUsers`, which has no more rows: the users arrive once, before anything is found. -/
structure Counted (config : UserFilterConfig) (search : SearchRows) : Prop where
  table : search.tableRows = search.shown.length
  grid : search.gridRows = search.posts.length
  unanswered : search.answered = false → search.users = []
  found : config = .messages → search.filteredUsers.length ≤ search.users.length

variable {config : UserFilterConfig} {strings : StringOps}
variable {search search' : SearchRows} {es : List SearchRowsEvent} {ev : SearchRowsEvent}

/-- An access leaves the controller as it is. -/
theorem eq_of_subscript {α : Type} {array : List α} {i : Nat}
    (h : subscript array i (fun _ => search) = some search') : search' = search := by
  obtain ⟨x, -, hx⟩ := Option.map_eq_some_iff.mp h
  exact hx.symm

theorem step_counted (h : search.Counted config) (hallowed : search.allows config ev)
    (hstep : search.step config strings ev = some search') : search'.Counted config := by
  cases ev with
  | didFetchUsers users =>
    rw [← Option.some.inj hstep]
    refine ⟨rfl, h.grid, fun hfalse => (nomatch hfalse), ?_⟩
    intro hmessages
    -- nothing can have been found among no users
    have hnil := h.unanswered (hallowed (.inr hmessages))
    have hfound := h.found hmessages
    rw [hnil] at hfound
    exact hfound.trans (Nat.zero_le _)
  | didFetchPosts posts =>
    rw [← Option.some.inj hstep]
    exact ⟨h.table, rfl, h.unanswered, h.found⟩
  | updateSearchResults isActive text =>
    rw [← Option.some.inj hstep]
    exact ⟨rfl, h.grid, h.unanswered, fun _ => List.length_filter_le _ _⟩
  | searchBarCancelButtonClicked =>
    rw [← Option.some.inj hstep]
    exact ⟨rfl, h.grid, h.unanswered, h.found⟩
  | cellForRowAt row => rw [eq_of_subscript hstep]; exact h
  | didSelectRowAt row =>
    simp only [step] at hstep
    by_cases hmessages : config = .messages
    · rw [if_pos hmessages] at hstep
      rw [eq_of_subscript hstep]
      exact h
    · rw [if_neg hmessages] at hstep
      rw [eq_of_subscript hstep]
      exact h
  | cellForItemAt item => rw [eq_of_subscript hstep]; exact h
  | didSelectItemAt item => rw [eq_of_subscript hstep]; exact h

theorem counted (run : (machine config strings).Run es search) : search.Counted config := by
  refine run.invariant (I := fun _ search => search.Counted config) ?_ ?_
  · intro search hstart
    rw [hstart]
    exact ⟨rfl, rfl, fun _ => rfl, fun _ => Nat.le_refl _⟩
  · exact fun _ _ _ _ h hallowed hstep => step_counted h hallowed hstep

/-- No access traps. -/
theorem inBounds (run : (machine config strings).Run es search)
    (hallowed : search.allows config ev) : (search.step config strings ev).isSome = true := by
  have h := counted run
  cases ev with
  | cellForRowAt row =>
    have hrow : row < search.tableRows := hallowed
    exact subscript_isSome.mpr (h.table ▸ hrow)
  | didSelectRowAt row =>
    have hrow : row < search.tableRows := hallowed
    rw [h.table] at hrow
    simp only [step]
    by_cases hmessages : config = .messages
    · rw [if_pos hmessages]
      refine subscript_isSome.mpr ?_
      have hfound := h.found hmessages
      unfold shown at hrow
      cases hmode : search.inSearchMode with
      | true => rw [hmode] at hrow; exact Nat.lt_of_lt_of_le hrow hfound
      | false => rw [hmode] at hrow; exact hrow
    · rw [if_neg hmessages]
      exact subscript_isSome.mpr hrow
  | cellForItemAt item =>
    have hitem : item < search.gridRows := hallowed
    exact subscript_isSome.mpr (h.grid ▸ hitem)
  | didSelectItemAt item =>
    have hitem : item < search.gridRows := hallowed
    exact subscript_isSome.mpr (h.grid ▸ hitem)
  | _ => rfl

end SearchRows

/-! ## The controllers with one array that every handler reloads -/

/-- A controller with one array: what a handler assigns before it calls `reloadData`
(`none` when it returns early), and the row that a data source or delegate method reads. -/
structure RowSource (σ Ev α : Type) where
  initial : σ
  array : σ → List α
  assign : σ → Ev → Option σ
  row : Ev → Option Nat
  permits : σ → Ev → Prop := fun _ _ => True

/-- The controller and the count UIKit has read. -/
structure RowCount (σ : Type) where
  controller : σ
  rows : Nat

namespace RowSource

variable {σ Ev α : Type} {L : RowSource σ Ev α} {s s' : RowCount σ} {es : List Ev} {ev : Ev}

def step (L : RowSource σ Ev α) (s : RowCount σ) (ev : Ev) : Option (RowCount σ) :=
  match L.row ev with
  | some row => subscript (L.array s.controller) row fun _ => s
  | none =>
    match L.assign s.controller ev with
    | some controller => some ⟨controller, (L.array controller).length⟩
    | none => some s

def machine (L : RowSource σ Ev α) : Machine (RowCount σ) Ev where
  starts s := s = ⟨L.initial, (L.array L.initial).length⟩
  allows s ev := L.permits s.controller ev ∧ ∀ row ∈ L.row ev, row < s.rows
  step := L.step

theorem counted (run : L.machine.Run es s) : s.rows = (L.array s.controller).length := by
  refine run.invariant (I := fun _ s => s.rows = (L.array s.controller).length) ?_ ?_
  · intro s hstart
    rw [hstart]
  · intro es s ev s' h _ hstep
    have hstep : L.step s ev = some s' := hstep
    unfold step at hstep
    split at hstep
    next =>
      obtain ⟨x, -, rfl⟩ := Option.map_eq_some_iff.mp hstep
      exact h
    next =>
      split at hstep
      next => rw [← Option.some.inj hstep]
      next => rw [← Option.some.inj hstep]; exact h

/-- No access traps. -/
theorem inBounds (run : L.machine.Run es s) (hallowed : L.machine.allows s ev) :
    (L.machine.step s ev).isSome = true := by
  show (L.step s ev).isSome = true
  unfold step
  cases hrow : L.row ev with
  | some row =>
    have hlt := hallowed.2 row hrow
    rw [counted run] at hlt
    exact subscript_isSome.mpr hlt
  | none =>
    cases L.assign s.controller ev with
    | some controller => rfl
    | none => rfl

end RowSource

/-! ## `CommentController` -/

/-- `fetched` is the variable the listener of `fetchComments` captures. -/
structure CommentRows where
  fetched : List Comment := []
  comments : List Comment := []

inductive CommentRowsEvent where
  | snapshot (now : Timestamp) (documentChanges : Option (List DocumentChange))
  | cellForItemAt (row : Nat)
  | sizeForItemAt (row : Nat)
  | didSelectItemAt (row : Nat)

/-- The documents a snapshot adds. -/
def added (documentChanges : List DocumentChange) : List Doc :=
  (documentChanges.filter fun change => change.type == .added).map (·.document)

/-- `CommentController`: `completion(comments)` runs for a missing snapshot too. -/
def commentRows : RowSource CommentRows CommentRowsEvent Comment where
  initial := {}
  array controller := controller.comments
  assign controller
    | .snapshot now documentChanges =>
      let comments :=
        controller.fetched ++ (added (documentChanges.getD [])).map (Comment.init now)
      some { fetched := comments, comments := comments }
    | _ => none
  row
    | .cellForItemAt row | .sizeForItemAt row | .didSelectItemAt row => some row
    | _ => none

/-! ## `NotificationsController` -/

inductive NotificationRowsEvent where
  | didFetchNotifications (notifications : List Notification)
  | didCheckFollow (id : String) (isFollowed : Bool)
  | handleRefresh
  | cellForRowAt (row : Nat)
  | didSelectRowAt (row : Nat)

/-- `NotificationsController`: the `didSet` of `notifications` reloads. -/
def notificationRows : RowSource (List Notification) NotificationRowsEvent Notification where
  initial := []
  array notifications := notifications
  assign notifications
    | .didFetchNotifications fetched => some fetched
    | .didCheckFollow id isFollowed =>
      (notifications.findIdx? fun notification => notification.id == id).map fun index =>
        notifications.modify index fun notification =>
          { notification with userIsFollowed := isFollowed }
    | .handleRefresh => some []
    | _ => none
  row
    | .cellForRowAt row | .didSelectRowAt row => some row
    | _ => none

/-! ## `ChatController` -/

/-- `fetched` is the variable the listener of `fetchMessages` captures. -/
structure ChatRows where
  fetched : List Message := []
  messages : List Message := []

inductive ChatRowsEvent where
  | snapshot (currentUid : Option String) (documentChanges : Option (List DocumentChange))
  | cellForItemAt (row : Nat)
  | sizeForItemAt (row : Nat)

/-- `ChatController`. -/
def chatRows : RowSource ChatRows ChatRowsEvent Message where
  initial := {}
  array controller := controller.messages
  assign controller
    | .snapshot currentUid documentChanges =>
      documentChanges.map fun documentChanges =>
        let messages :=
          controller.fetched ++ (added documentChanges).map (Message.init currentUid)
        { fetched := messages, messages := messages }
    | _ => none
  row
    | .cellForItemAt row | .sizeForItemAt row => some row
    | _ => none

/-! ## `ConversationsController` -/

structure ConversationRows where
  conversations : List Message := []
  conversationsDictionary : AList (fun _ : String => Message) := ∅

/-- A snapshot comes with the order in which the dictionary lists its values. -/
inductive ConversationRowsEvent where
  | snapshot (currentUid : Option String) (documentChanges : Option (List DocumentChange))
      (values : List Message)
  | cellForRowAt (row : Nat)
  | didSelectRowAt (row : Nat)

/-- The loop of `fetchConversations`. -/
def ConversationRows.updated (controller : ConversationRows) (conversations : List Message) :
    AList (fun _ : String => Message) :=
  conversations.foldl
    (fun dictionary conversation => dictionary.insert conversation.chatPartnerId conversation)
    controller.conversationsDictionary

/-- `ConversationsController`. -/
def conversationRows : RowSource ConversationRows ConversationRowsEvent Message where
  initial := {}
  array controller := controller.conversations
  assign controller
    | .snapshot currentUid documentChanges values =>
      documentChanges.map fun documentChanges =>
        { conversations := values
          conversationsDictionary :=
            controller.updated
              (documentChanges.map fun change => Message.init currentUid change.document) }
    | _ => none
  row
    | .cellForRowAt row | .didSelectRowAt row => some row
    | _ => none
  permits controller
    | .snapshot currentUid documentChanges values =>
      ∀ changes ∈ documentChanges,
        values.Perm
          ((controller.updated
            (changes.map fun change => Message.init currentUid change.document)).entries.map
              (·.2))
    | _ => True

/-! ## All of them -/

/-- The list controllers. -/
inductive ListController where
  | feed
  | profile
  | comments
  | notifications
  | search (config : UserFilterConfig)
  | chat
  | conversations

namespace ListController

abbrev State : ListController → Type
  | feed => FeedRows
  | profile => ProfileRows
  | comments => RowCount CommentRows
  | notifications => RowCount (List Notification)
  | search _ => SearchRows
  | chat => RowCount ChatRows
  | conversations => RowCount ConversationRows

abbrev Event : ListController → Type
  | feed => FeedRowsEvent
  | profile => ProfileRowsEvent
  | comments => CommentRowsEvent
  | notifications => NotificationRowsEvent
  | search _ => SearchRowsEvent
  | chat => ChatRowsEvent
  | conversations => ConversationRowsEvent

def machine (strings : StringOps) : (c : ListController) → Machine c.State c.Event
  | feed => FeedRows.machine
  | profile => ProfileRows.machine
  | comments => commentRows.machine
  | notifications => notificationRows.machine
  | search config => SearchRows.machine config strings
  | chat => chatRows.machine
  | conversations => conversationRows.machine

/-- After `es`, does `ev` ask a profile for a row between a refresh and the reload? -/
def EmptiedUnderUIKit : (c : ListController) → List c.Event → c.Event → Prop
  | profile, es, ev => ev.asks = true ∧ ProfileRows.refreshing es = true
  | _, _, _ => False

end ListController

/-- In every state that a list controller reaches, UIKit's next access is in bounds unless
it reads a profile that a refresh has emptied and nothing has reloaded. -/
theorem rowAccess_inBounds_iff (strings : StringOps) (c : ListController)
    (es : List c.Event) (s : c.State) (run : (c.machine strings).Run es s) (ev : c.Event)
    (hallowed : (c.machine strings).allows s ev) :
    ((c.machine strings).step s ev).isSome = true ↔ ¬ c.EmptiedUnderUIKit es ev := by
  cases c with
  | profile => exact ProfileRows.inBounds_iff run hallowed
  | feed => exact iff_of_true (FeedRows.inBounds run hallowed) not_false
  | search config => exact iff_of_true (SearchRows.inBounds run hallowed) not_false
  | comments => exact iff_of_true (RowSource.inBounds run hallowed) not_false
  | notifications => exact iff_of_true (RowSource.inBounds run hallowed) not_false
  | chat => exact iff_of_true (RowSource.inBounds run hallowed) not_false
  | conversations => exact iff_of_true (RowSource.inBounds run hallowed) not_false

/-- A partner is found and selected while the search is on. -/
theorem rowAccess_inBounds_partner :
    (((ListController.search .messages).machine stringsASCII).step
        { users := [User.init (dict [("username", .string "ann")])]
          filteredUsers := [User.init (dict [("username", .string "ann")])]
          isActive := true
          text := "n"
          tableRows := 1
          answered := true } (.didSelectRowAt 0)).isSome = true := by
  have fetched : ((ListController.search .messages).machine stringsASCII).Run
      [.didFetchUsers [User.init (dict [("username", .string "ann")])]]
      { users := [User.init (dict [("username", .string "ann")])]
        tableRows := 1
        answered := true } := .snoc (.nil rfl) (fun _ => rfl) rfl
  have found : ((ListController.search .messages).machine stringsASCII).Run
      [.didFetchUsers [User.init (dict [("username", .string "ann")])],
        .updateSearchResults true "n"] _ := .snoc fetched trivial rfl
  exact (rowAccess_inBounds_iff stringsASCII (.search .messages) _ _ found (.didSelectRowAt 0)
    Nat.one_pos).mpr not_false

/-- UIKit asks for the one row it has counted after a pull to refresh has emptied the
profile. -/
theorem rowAccess_outOfBounds :
    ∃ profile : ProfileRows,
      (ListController.profile.machine stringsASCII).Run
          [.didFetchPosts [Post.init ⟨0, 0⟩ "p" (dict [])], .handleRefresh] profile
        ∧ (ListController.profile.machine stringsASCII).allows profile (.cellForItemAt 0)
        ∧ (ListController.profile.machine stringsASCII).step profile (.cellForItemAt 0) = none := by
  have fetched : (ListController.profile.machine stringsASCII).Run
      [.didFetchPosts [Post.init ⟨0, 0⟩ "p" (dict [])]]
      ⟨[Post.init ⟨0, 0⟩ "p" (dict [])], 1⟩ := .snoc (.nil rfl) trivial rfl
  exact ⟨⟨[], 1⟩, .snoc fetched trivial rfl, Nat.one_pos, rfl⟩

end InstaClone
