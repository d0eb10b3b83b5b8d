import InstaClone.Answers
import InstaClone.Atomicity
import InstaClone.Conduct

/-!
# Does a failed action have consequences?

Every completion that a controller passes to `likePost`, `unlikePost`, `follow`,
`unfollow` or `uploadComment` has an error as its argument, and every one of them ignores
it: the counts, the flags and the text change, and the notification is sent, as if the
call had succeeded. `Action.use` says what each action does at once, which call it makes
and with which completion. A failure is without consequences only in the two handlers of the
options sheet, whose completions take the loader down and no more, and for a comment without
text whose notification is refused as well.
-/

namespace InstaClone

open Async

/-! ## The calls and their completions -/

/-- The service calls that report to a controller. -/
inductive ReportingCall where
  | likePost (post : Post)
  | unlikePost (post : Post)
  | follow (uid : String)
  | unfollow (uid : String)
  | uploadComment (comment : String) (post : Post) (user : User)

namespace ReportingCall

variable {σ : Type}

/-- The call, made with a completion. -/
def program (completion : Option Error → Program σ) : ReportingCall → Program σ
  | likePost post => PostService.likePost post completion
  | unlikePost post => PostService.unlikePost post completion
  | follow uid => UserService.follow uid completion
  | unfollow uid => UserService.unfollow uid completion
  | uploadComment comment post user => CommentService.uploadComment comment post user completion

/-- The write whose outcome the completion is given. -/
def lastWrite (uid : String) (turn : Turn) : ReportingCall → Write
  | likePost post => .setData ["users", uid, "user-likes", post.postId] (dict [])
  | unlikePost post => .delete ["users", uid, "user-likes", post.postId]
  | follow user => .setData ["followers", user, "user-followers", uid] (dict [])
  | unfollow user => .delete ["followers", user, "user-followers", uid]
  | uploadComment comment post user =>
    .setData ["posts", post.postId, "comments", turn.autoId]
      (uploadedComment turn comment post user)

end ReportingCall

/-- What an action comes to in its own turn: assignments, then a call with a completion. -/
structure ServiceUse where
  before : Client → Client
  call : ReportingCall
  completion : Option Error → Program Client

namespace Action

/-- The service call of a like, unlike, follow, unfollow or comment action. -/
def use (client : Client) (turn : Turn) : Action → Option ServiceUse
  | .likeTap c cell =>
    match ((client.feeds c).cells cell).post, client.tabUser with
    | some post, some user =>
      let before : Client → Client := (·.mapFeed c (·.mapCell cell
        (·.updatePost fun shown => { shown with didLike := !shown.didLike })))
      if post.didLike then
        some ⟨before, .unlikePost post, FeedController.didUnlike c cell post post.ownerUid⟩
      else some ⟨before, .likePost post, FeedController.didLike c cell post user⟩
    | _, _ => none
  | .sheetTap k action =>
    match client.sheets[k]? with
    | none => none
    | some sheet =>
      let before (client : Client) : Client :=
        { client.mapSheet k fun sheet => { sheet with presented := false } with loader := true }
      if sheet.presented ∧ action ∈ sheet.actions then
        match action with
        | .unfollow => some ⟨before, .unfollow sheet.post.ownerUid, fun _ => showLoader false⟩
        | .follow => some ⟨before, .follow sheet.post.ownerUid, fun _ => showLoader false⟩
        | _ => none
      else none
  | .headerTap m =>
    match (client.profiles m).header, client.tabUser with
    | some user, some currentUser =>
      if user.isCurrentUser turn.currentUid then none
      else if user.isFollowed then
        some ⟨id, .unfollow user.uid, ProfileController.didUnfollow m user⟩
      else some ⟨id, .follow user.uid, ProfileController.didFollow m user currentUser⟩
    | _, _ => none
  | .inboxFollowTap n cell =>
    match ((client.inboxes n).cells cell).viewModel with
    | none => none
    | some notification =>
      let before (client : Client) : Client := { client with loader := true }
      if notification.userIsFollowed then
        some ⟨before, .unfollow notification.uid, NotificationsController.didToggle n cell⟩
      else some ⟨before, .follow notification.uid, NotificationsController.didToggle n cell⟩
  | .postComment d comment =>
    match (client.comments d).post, client.tabUser with
    | some post, some currentUser =>
      some
        ⟨fun client =>
          { client.mapComments d fun comments => { comments with text := comment } with
            loader := true },
         .uploadComment comment post currentUser,
         CommentController.didUpload d post currentUser⟩
    | _, _ => none
  | _ => none

end Action

section Use

variable {client : Client} {turn : Turn} {a : Action} {use : ServiceUse}

/-- A like tap assigns the flag the cell shows and calls `likePost` or `unlikePost`. -/
theorem exec_use_likeTap {c cell : Nat}
    (h : (Action.likeTap c cell).use client turn = some use) :
    (Action.likeTap c cell).program.exec turn client
      = (use.call.program use.completion).exec turn (use.before client) := by
  simp only [Action.use] at h
  show (match ((client.feeds c).cells cell).post, client.tabUser with
    | some post, some user => _
    | _, _ => Prog.done : Program Client).exec turn client = _
  split at h
  next post user hpost huser =>
    split at h
    next hlike =>
      obtain rfl := Option.some.inj h
      show (inFeed c _ (if post.didLike then _ else _)).exec turn client = _
      rw [if_pos hlike]
      rfl
    next hlike =>
      obtain rfl := Option.some.inj h
      show (inFeed c _ (if post.didLike then _ else _)).exec turn client = _
      rw [if_neg hlike]
      rfl
  next => exact absurd h (by simp)

/-- The options sheet is dismissed before it calls `follow` or `unfollow`. -/
theorem exec_use_sheetTap {k : Nat} {action : SheetAction}
    (h : (Action.sheetTap k action).use client turn = some use) :
    (Action.sheetTap k action).program.exec turn client
      = (use.call.program use.completion).exec turn (use.before client) := by
  simp only [Action.use] at h
  show (match client.sheets[k]? with
    | none => Prog.done
    | some sheet => _ : Program Client).exec turn client = _
  split at h
  next => exact absurd h (by simp)
  next sheet hsheet =>
    split at h
    next hpresented =>
      show (if sheet.presented ∧ action ∈ sheet.actions then _ else _ : Program Client).exec
        turn client = _
      rw [if_pos hpresented]
      cases action with
      | follow | unfollow =>
        obtain rfl := Option.some.inj h
        rfl
      | _ => exact absurd h (by simp)
    next => exact absurd h (by simp)

/-- The header assigns nothing before its call; the guard is that of `isCurrentUser`. -/
theorem exec_use_headerTap {m : Nat}
    (h : (Action.headerTap m).use client turn = some use) :
    (Action.headerTap m).program.exec turn client
      = (use.call.program use.completion).exec turn (use.before client) := by
  simp only [Action.use] at h
  show (match (client.profiles m).header, client.tabUser with
    | some user, some currentUser => _
    | _, _ => Prog.done : Program Client).exec turn client = _
  split at h
  next user currentUser hheader huser =>
    show (if user.isCurrentUser turn.currentUid then Prog.done else if user.isFollowed then _
      else _ : Program Client).exec turn client = _
    split at h
    next => exact absurd h (by simp)
    next hother =>
      rw [if_neg hother]
      split at h
      next hfollowed =>
        obtain rfl := Option.some.inj h
        rw [if_pos hfollowed]
        rfl
      next hfollowed =>
        obtain rfl := Option.some.inj h
        rw [if_neg hfollowed]
        rfl
  next => exact absurd h (by simp)

/-- The notification list reads the flag from the view model of the tapped cell. -/
theorem exec_use_inboxFollowTap {n cell : Nat}
    (h : (Action.inboxFollowTap n cell).use client turn = some use) :
    (Action.inboxFollowTap n cell).program.exec turn client
      = (use.call.program use.completion).exec turn (use.before client) := by
  simp only [Action.use] at h
  show (match ((client.inboxes n).cells cell).viewModel with
    | none => Prog.done
    | some notification => _ : Program Client).exec turn client = _
  split at h
  next => exact absurd h (by simp)
  next notification hshown =>
    show (showLoader true (if notification.userIsFollowed then _ else _)).exec turn client = _
    split at h
    next hfollowed =>
      obtain rfl := Option.some.inj h
      rw [if_pos hfollowed]
      rfl
    next hfollowed =>
      obtain rfl := Option.some.inj h
      rw [if_neg hfollowed]
      rfl

/-- The comment screen keeps the typed text; the post and the user are read before the call. -/
theorem exec_use_postComment {d : Nat} {comment : String}
    (h : (Action.postComment d comment).use client turn = some use) :
    (Action.postComment d comment).program.exec turn client
      = (use.call.program use.completion).exec turn (use.before client) := by
  simp only [Action.use] at h
  show (match ((client.mapComments d _).comments d).post, client.tabUser with
    | some post, some currentUser => _
    | _, _ => Prog.done : Program Client).exec turn (client.mapComments d _) = _
  have hpost : ((client.mapComments d fun comments => { comments with text := comment }).comments
      d).post = (client.comments d).post := by
    simp [Client.mapComments]
  rw [hpost]
  split at h
  next post currentUser hpost huser =>
    obtain rfl := Option.some.inj h
    rfl
  next => exact absurd h (by simp)

/-- The turn of an action is its assignments and its call. -/
theorem Action.exec_use (h : a.use client turn = some use) :
    a.program.exec turn client
      = (use.call.program use.completion).exec turn (use.before client) := by
  cases a with
  | likeTap c cell => exact exec_use_likeTap h
  | sheetTap k action => exact exec_use_sheetTap h
  | headerTap m => exact exec_use_headerTap h
  | inboxFollowTap n cell => exact exec_use_inboxFollowTap h
  | postComment d comment => exact exec_use_postComment h
  | _ => exact absurd h (by simp [Action.use])

end Use

/-! ## When a failure has no consequences -/

/-- The flags and counts of the posts, users and notifications the controllers and their
cells hold. -/
structure Flags where
  feedPosts : Nat → List (Bool × Int)
  feedPost : Nat → Option (Bool × Int)
  feedCells : Nat → Nat → Option (Bool × Int)
  profileUser : Nat → Bool
  profileHeader : Nat → Option Bool
  notifications : Nat → List Bool
  notificationCells : Nat → Nat → Option Bool

/-- `didLike` and `likes`. -/
def Post.flags (post : Post) : Bool × Int := (post.didLike, post.likes)

/-- What a session holds of them. -/
def Client.flags (client : Client) : Flags where
  feedPosts c := (client.feeds c).posts.map Post.flags
  feedPost c := (client.feeds c).post.map Post.flags
  feedCells c cell := ((client.feeds c).cells cell).post.map Post.flags
  profileUser m := (client.profiles m).user.isFollowed
  profileHeader m := (client.profiles m).header.map User.isFollowed
  notifications n := (client.inboxes n).notifications.map Notification.userIsFollowed
  notificationCells n cell :=
    ((client.inboxes n).cells cell).viewModel.map Notification.userIsFollowed

/-- Is it a write of a notification? -/
def Write.isNotice (w : Write) : Bool :=
  match w.path with
  | ["notifications", _, "user-notifications", _] => true
  | _ => false

/-- The service has reported an error to the completion. -/
def Reported (uid : String) (turn : Turn) (call : ReportingCall) (T : Marks) : Prop :=
  ∃ error, .reply (.write (call.lastWrite uid turn)) (some error) ∈ T

/-- The action has had no consequences: no notification, the same flags and counts, and
the typed comment is still in the input view. -/
structure Inconsequential (a : Action) (before after : Client) (T : Marks) : Prop where
  notices : ∀ w, Committed T w → w.isNotice = false
  flags : after.flags = before.flags
  text : ∀ d comment, a = .postComment d comment → (after.comments d).text = comment

/-- The two handlers of the options sheet, and an empty comment whose notification is
refused as well, if one is sent. -/
def Harmless : Action → Marks → Prop
  | .sheetTap _ _, _ => True
  | .postComment _ comment, T =>
    comment = "" ∧ ∀ w result, .reply (.write w) result ∈ T → w.isNotice = true → result.isSome
  | _, _ => False

/-! ## What each call yields -/

section Yields

variable {turn : Turn} {T : Marks} {fs : List (Client → Client)}

/-- One write and its callback. -/
theorem yields_write {w : Write} {k : Option Error → Program Client}
    (h : (Prog.call (.write w) k .done : Program Client).Yields (fun _ => True) False turn T fs) :
    ∃ result T' turn', T = .reply (.write w) result :: T'
      ∧ (k result).Yields (fun _ => True) False turn' T' fs := by
  obtain ⟨result, T', turn', -, hk, rfl⟩ := Prog.yields_call_done.mp h
  exact ⟨result, T', turn', rfl, hk⟩

/-- What is asked of the signed-in user, or nothing. -/
theorem yields_withCurrentUid {body : String → Program Client}
    (h : (withCurrentUid body).Yields (fun _ => True) False turn T fs) :
    T = [] ∨ ∃ uid, turn.currentUid = some uid
      ∧ (body uid).Yields (fun _ => True) False turn T fs := by
  rw [withCurrentUid, Prog.yields_ask] at h
  split at h
  next uid huid => exact Or.inr ⟨uid, huid, h⟩
  next => exact Or.inl h.1

/-- Replies to writes that are not of notifications. -/
def NoNotice (T : Marks) : Prop :=
  ∀ w result, .reply (.write w) result ∈ T → w.isNotice = false

/-- The marks of writes that are not of notifications. -/
theorem noNotice_writes {l : List (Write × Option Error)} (h : ∀ x ∈ l, x.1.isNotice = false) :
    NoNotice (l.map fun x => .reply (.write x.1) x.2) := by
  intro w result hmem
  obtain ⟨x, hx, heq⟩ := List.mem_map.mp hmem
  injection heq with hreq
  injection hreq with hw
  exact hw ▸ h x hx

/-- Two writes in a row and the completion of the second. -/
theorem yields_chain {w w' : Write} {completion : Option Error → Program Client}
    (hw : w.isNotice = false) (hw' : w'.isNotice = false)
    (h : (Prog.call (.write w) (fun _ => .call (.write w') completion .done) .done
      : Program Client).Yields (fun _ => True) False turn T fs) :
    ∃ result turn' T₁ T₂, T = T₁ ++ T₂ ∧ NoNotice T₁
      ∧ (completion result).Yields (fun _ => True) False turn' T₂ fs := by
  obtain ⟨result, T', turn', rfl, h'⟩ := yields_write h
  obtain ⟨result', T₂, turn₂, rfl, hk⟩ := yields_write h'
  exact ⟨result', turn₂, [(w, result), (w', result')].map fun x => .reply (.write x.1) x.2, T₂, rfl,
    noNotice_writes (by simp [hw, hw']), hk⟩

/-- A write without completion, and then a chain. -/
theorem yields_chain_after {w₀ w w' : Write} {completion : Option Error → Program Client}
    (hw₀ : w₀.isNotice = false) (hw : w.isNotice = false) (hw' : w'.isNotice = false)
    (h : ((Prog.call (.write w₀) noCompletion .done : Program Client).andThen
      (.call (.write w) (fun _ => .call (.write w') completion .done) .done)).Yields
        (fun _ => True) False turn T fs) :
    ∃ result turn' T₁ T₂, T = T₁ ++ T₂ ∧ NoNotice T₁
      ∧ (completion result).Yields (fun _ => True) False turn' T₂ fs := by
  obtain ⟨T₀, fs₀, T', fs', h₀, h', rfl, rfl⟩ := Prog.yields_andThen.mp h
  obtain ⟨result₀, _, turn₀, rfl, rfl, rfl⟩ := yields_write h₀
  obtain ⟨result, turn', T₁, T₂, rfl, hT₁, hk⟩ := yields_chain hw hw' h'
  refine ⟨result, turn', .reply (.write w₀) result₀ :: T₁, T₂, rfl, ?_, hk⟩
  intro c error hmem
  rcases List.mem_cons.mp hmem with heq | hmem
  · injection heq with hreq
    injection hreq with hc
    exact hc ▸ hw₀
  · exact hT₁ c error hmem

/-- A call makes its writes, none of them of a notification, and then its completion runs;
or it does nothing. -/
theorem ReportingCall.yields {call : ReportingCall} {completion : Option Error → Program Client}
    (h : (call.program completion).Yields (fun _ => True) False turn T fs) :
    T = [] ∨ ∃ result turn' T₁ T₂, T = T₁ ++ T₂ ∧ NoNotice T₁
      ∧ (completion result).Yields (fun _ => True) False turn' T₂ fs := by
  cases call with
  | likePost post =>
    rcases yields_withCurrentUid h with hnil | ⟨uid, -, h⟩
    · exact Or.inl hnil
    · exact Or.inr (yields_chain_after rfl rfl rfl h)
  | unlikePost post =>
    rcases yields_withCurrentUid h with hnil | ⟨uid, -, h⟩
    · exact Or.inl hnil
    · split at h
      next => exact Or.inr (yields_chain_after rfl rfl rfl h)
      next => exact Or.inl h.1
  | follow user =>
    rcases yields_withCurrentUid h with hnil | ⟨uid, -, h⟩
    · exact Or.inl hnil
    · exact Or.inr (yields_chain rfl rfl h)
  | unfollow user =>
    rcases yields_withCurrentUid h with hnil | ⟨uid, -, h⟩
    · exact Or.inl hnil
    · exact Or.inr (yields_chain rfl rfl h)
  | uploadComment comment post user =>
    rw [ReportingCall.program, CommentService.uploadComment, Prog.yields_ask, addDocument,
      Prog.yields_ask] at h
    obtain ⟨result, T', turn', rfl, hk⟩ := yields_write h
    exact Or.inr ⟨result, turn', [(_, result)].map fun x => .reply (.write x.1) x.2, T', rfl,
      noNotice_writes (by simp [Write.isNotice]), hk⟩

/-- A notification is sent without a trace in the client. -/
theorem yields_uploadNotification {uid : String} {fromUser : User} {type : NotificationType}
    {post : Option Post}
    (h : (NotificationService.uploadNotification uid fromUser type post : Program Client).Yields
      (fun _ => True) False turn T fs) : fs = [] := by
  rw [NotificationService.uploadNotification, withCurrentUid, Prog.yields_ask] at h
  split at h
  next currentUid _ =>
    split at h
    next => exact h.2
    next =>
      obtain ⟨_, _, _, -, _, hfs⟩ := yields_write (Prog.yields_ask.mp h)
      exact hfs
  next => exact h.2

/-- So are notifications deleted. -/
theorem yields_deleteNotification {uid : String} {type : NotificationType} {postId : Option String}
    (h : (NotificationService.deleteNotification uid type postId : Program Client).Yields
      (fun _ => True) False turn T fs) : fs = [] := by
  rw [NotificationService.deleteNotification, withCurrentUid, Prog.yields_ask] at h
  split at h
  next currentUid _ =>
    obtain ⟨snapshot, T', turn', -, hk, -⟩ := Prog.yields_call_done.mp h
    rw [Prog.yields_ask] at hk
    have hnone := Prog.yields_forEach_replicate (g := id) (n := 0)
      (fun document _ T fs hdocument => by
        split at hdocument
        next =>
          obtain ⟨_, _, _, -, _, hfs⟩ := yields_write hdocument
          exact hfs
        next => exact hdocument.2) hk
    simpa using hnone
  next => exact h.2

end Yields

/-! ## What the completions leave -/

section Completions

variable {client : Client} {turn turn' : Turn} {a : Action} {use : ServiceUse} {T : Marks}
  {fs fs' : List (Client → Client)} {result : Option Error}

/-- A like tap leaves the flag of its cell toggled. -/
theorem flags_likeTap {c cell : Nat} (huse : (Action.likeTap c cell).use client turn = some use)
    (h : (use.completion result).Yields (fun _ => True) False turn' T fs) (hperm : fs.Perm fs') :
    (fs'.foldl (fun x f => f x) (use.before client)).flags ≠ client.flags := by
  simp only [Action.use] at huse
  split at huse
  next post user hpost _ =>
    -- either completion assigns once, to the cell
    have hfs : ∃ likes image tint, fs = [(·.mapFeed c (·.mapCell cell fun x =>
        (x.setLikeButton image tint).updatePost fun shown => { shown with likes := likes }))]
        ∧ use.before = (·.mapFeed c (·.mapCell cell
          (·.updatePost fun shown => { shown with didLike := !shown.didLike }))) := by
      split at huse
      next =>
        obtain rfl := Option.some.inj huse
        obtain ⟨fs₁, ⟨x, hrest⟩, rfl⟩ := Prog.yields_modify.mp h
        rw [yields_deleteNotification hrest]
        exact ⟨_, _, _, rfl, rfl⟩
      next =>
        obtain rfl := Option.some.inj huse
        obtain ⟨fs₁, hrest, rfl⟩ := Prog.yields_modify.mp h
        rw [yields_uploadNotification hrest]
        exact ⟨_, _, _, rfl, rfl⟩
    obtain ⟨likes, image, tint, rfl, hbefore⟩ := hfs
    rw [← List.singleton_perm.mp hperm, hbefore]
    intro heq
    have hcell := congrFun (congrFun (congrArg Flags.feedCells heq) c) cell
    simp [Client.flags, Client.mapFeed, FeedController.mapCell, hpost, Post.flags] at hcell
  next => exact absurd huse (by simp)

/-- A tap on the button of a profile leaves its header taken off. -/
theorem flags_headerTap {m : Nat} (huse : (Action.headerTap m).use client turn = some use)
    (h : (use.completion result).Yields (fun _ => True) False turn' T fs) (hperm : fs.Perm fs') :
    (fs'.foldl (fun x f => f x) (use.before client)).flags ≠ client.flags := by
  simp only [Action.use] at huse
  split at huse
  next user currentUser hheader _ =>
    have hfs : ∃ isFollowed, fs = [(·.mapProfile m fun profile =>
        profile.setUser { profile.user with isFollowed := isFollowed })] ∧ use.before = id := by
      split at huse
      next => exact absurd huse (by simp)
      next =>
        split at huse
        next =>
          obtain rfl := Option.some.inj huse
          obtain ⟨fs₁, hrest, rfl⟩ := Prog.yields_modify.mp h
          rw [yields_deleteNotification hrest]
          exact ⟨_, rfl, rfl⟩
        next =>
          obtain rfl := Option.some.inj huse
          obtain ⟨fs₁, hrest, rfl⟩ := Prog.yields_modify.mp h
          rw [yields_uploadNotification hrest]
          exact ⟨_, rfl, rfl⟩
    obtain ⟨isFollowed, rfl, hbefore⟩ := hfs
    rw [← List.singleton_perm.mp hperm, hbefore]
    intro heq
    have hshown := congrFun (congrArg Flags.profileHeader heq) m
    simp [Client.flags, Client.mapProfile, ProfileController.setUser,
      ProfileController.reloadData, hheader] at hshown
  next => exact absurd huse (by simp)

/-- Two assignments that commute, in either order. -/
theorem foldl_pair {f g : Client → Client} (h : [f, g].Perm fs')
    (hcomm : ∀ x, f (g x) = g (f x)) (x : Client) : fs'.foldl (fun x f => f x) x = g (f x) := by
  have hfold : [f, g].foldl (fun x f => f x) x = fs'.foldl (fun x f => f x) x := by
    refine h.foldl_eq' (fun f₁ hf₁ f₂ hf₂ z => ?_) x
    simp only [List.mem_cons, List.not_mem_nil, or_false] at hf₁ hf₂
    rcases hf₁ with rfl | rfl <;> rcases hf₂ with rfl | rfl
    · rfl
    · exact (hcomm z).symm
    · exact hcomm z
    · rfl
  exact hfold.symm

/-- A follow button in the notification list leaves its flag toggled. -/
theorem flags_inboxFollowTap {n cell : Nat}
    (huse : (Action.inboxFollowTap n cell).use client turn = some use)
    (h : (use.completion result).Yields (fun _ => True) False turn' T fs) (hperm : fs.Perm fs') :
    (fs'.foldl (fun x f => f x) (use.before client)).flags ≠ client.flags := by
  simp only [Action.use] at huse
  split at huse
  next => exact absurd huse (by simp)
  next notification hshown =>
    have hcompletion : use.completion = NotificationsController.didToggle n cell
        ∧ use.before = fun client => { client with loader := true } := by
      split at huse <;> (obtain rfl := Option.some.inj huse; exact ⟨rfl, rfl⟩)
    rw [hcompletion.1] at h
    obtain ⟨fs₁, ⟨fs₂, ⟨-, rfl⟩, rfl⟩, rfl⟩ := h
    rw [foldl_pair hperm fun _ => rfl, hcompletion.2]
    intro heq
    have hcell := congrFun (congrFun (congrArg Flags.notificationCells heq) n) cell
    simp [Client.flags, Client.mapInbox, NotificationsController.mapCell, hshown] at hcell

/-- A handler of the options sheet leaves the flags. -/
theorem flags_sheetTap {k : Nat} {action : SheetAction}
    (huse : (Action.sheetTap k action).use client turn = some use)
    (h : (use.completion result).Yields (fun _ => True) False turn' T fs) (hperm : fs.Perm fs') :
    (fs'.foldl (fun x f => f x) (use.before client)).flags = client.flags ∧ T = [] := by
  simp only [Action.use] at huse
  split at huse
  next => exact absurd huse (by simp)
  next sheet _ =>
    split at huse
    next =>
      have hcompletion : use.completion = (fun _ => showLoader false)
          ∧ (use.before client).flags = client.flags := by
        cases action with
        | follow | unfollow =>
          obtain rfl := Option.some.inj huse
          exact ⟨rfl, rfl⟩
        | _ => exact absurd huse (by simp)
      rw [hcompletion.1] at h
      obtain ⟨fs₁, ⟨rfl, rfl⟩, rfl⟩ := h
      rw [← List.singleton_perm.mp hperm, ← hcompletion.2]
      exact ⟨rfl, rfl⟩
    next => exact absurd huse (by simp)

/-- The completion of a comment leaves the flags and empties the input view. -/
theorem flags_postComment {d : Nat} {comment : String}
    (huse : (Action.postComment d comment).use client turn = some use)
    (h : (use.completion result).Yields (fun _ => True) False turn' T fs) (hperm : fs.Perm fs') :
    (fs'.foldl (fun x f => f x) (use.before client)).flags = client.flags
      ∧ ((fs'.foldl (fun x f => f x) (use.before client)).comments d).text = "" := by
  simp only [Action.use] at huse
  split at huse
  next post currentUser _ _ =>
    obtain rfl := Option.some.inj huse
    obtain ⟨fs₁, ⟨fs₂, hrest, rfl⟩, rfl⟩ := h
    rw [yields_uploadNotification hrest] at hperm
    rw [foldl_pair hperm fun _ => rfl]
    refine ⟨rfl, ?_⟩
    simp [Client.mapComments]
  next => exact absurd huse (by simp)

end Completions

/-! ## A failed action -/

section Runs

variable {S : Type} [DecidableEq S]

/-- **A failed action has consequences**, except for a handler of the options sheet and an
empty comment whose notification is refused: whatever a session holds, in every run of one
action in it, with other sessions doing anything, in which the service reports an error. -/
theorem failed_inconsequential_iff {s : S} {a : Action} {e : Turn} {use : ServiceUse}
    {w₀ w : AppWorld Client S} (hidle : ∀ x ∈ w₀.pool, x.1 ≠ s)
    (huse : a.use (w₀.client s) e = some use) {es : List (AppEvent S Action)}
    (run : Run api Action.program (Confined (fun _ => True) False s)
      (w₀.turn s a.program e w₀.pool) es w)
    (hdone : ∀ x ∈ w.pool, x.1 ≠ s) {uid : String}
    (hreported : Reported uid e use.call
      (trace api Action.program s (w₀.turn s a.program e w₀.pool) es)) :
    Inconsequential a (w₀.client s) (w.client s)
        (trace api Action.program s (w₀.turn s a.program e w₀.pool) es)
      ↔ Harmless a (trace api Action.program s (w₀.turn s a.program e w₀.pool) es) := by
  -- the same turn, with the assignments of the action already made
  obtain ⟨w₁, hclient, hpool, hturn⟩ : ∃ w₁ : AppWorld Client S,
      w₁.client s = use.before (w₀.client s) ∧ w₁.pool = w₀.pool
        ∧ w₀.turn s a.program e w₀.pool
          = w₁.turn s (use.call.program use.completion) e w₁.pool := by
    refine ⟨{ w₀ with client := Function.update w₀.client s (use.before (w₀.client s)) },
      Function.update_self .., rfl, ?_⟩
    unfold World.turn
    rw [Action.exec_use huse]
    simp
  rw [hturn] at run hreported ⊢
  obtain ⟨T, fs, fs', hyields, hT, hperm, hafter⟩ :=
    run.yields (fun _ _ hok => hok) (hpool ▸ hidle) hdone
  generalize trace api Action.program s _ es = marks at hreported hT ⊢
  rw [hafter, hclient]
  obtain ⟨error, herror⟩ := hreported
  rcases use.call.yields hyields with rfl | ⟨result, turn', T₁, T₂, rfl, hT₁, hk⟩
  · exact absurd (hT.mem_iff.mpr herror) List.not_mem_nil
  have hmarks : ∀ m, m ∈ marks ↔ m ∈ T₁ ∨ m ∈ T₂ := fun m =>
    hT.mem_iff.symm.trans List.mem_append
  cases a with
  | likeTap c cell => exact iff_of_false (fun h => flags_likeTap huse hk hperm h.flags) id
  | headerTap m => exact iff_of_false (fun h => flags_headerTap huse hk hperm h.flags) id
  | inboxFollowTap n cell =>
    exact iff_of_false (fun h => flags_inboxFollowTap huse hk hperm h.flags) id
  | sheetTap k action =>
    obtain ⟨hflags, rfl⟩ := flags_sheetTap huse hk hperm
    refine iff_of_true ⟨fun c hc => ?_, hflags, fun d comment h => absurd h (by simp)⟩ trivial
    rcases (hmarks _).mp hc with hmem | hmem
    · exact hT₁ c none hmem
    · exact absurd hmem List.not_mem_nil
  | postComment d comment =>
    obtain ⟨hflags, htext⟩ := flags_postComment huse hk hperm
    constructor
    · intro h
      refine ⟨(h.text d comment rfl).symm.trans htext, fun c result hc hnotice => ?_⟩
      cases result with
      | none => exact absurd hnotice (by rw [h.notices c hc]; simp)
      | some error => rfl
    · intro h
      obtain ⟨rfl, hrefused⟩ := h
      refine ⟨fun c hc => ?_, hflags, fun d' comment h => ?_⟩
      · by_contra hnotice
        have hsome := hrefused c none hc (by simpa using hnotice)
        exact absurd hsome (by simp)
      · injection h with hd hcomment
        rw [← hd, ← hcomment]
        exact htext
  | _ => exact absurd huse (by simp [Action.use])

end Runs

/-! ## Two runs -/

/-- A session of `a` that has the options of a post of `b` on screen. -/
def optionsShown : Client where
  sheets := [⟨0, Post.init ⟨0, 0⟩ "p" (dict [("ownerUid", .string "b")]), [.cancel, .unfollow],
    true⟩]

/-- The second write of the call fails, and what the completion issues goes through. -/
def secondWriteFails : List (AppEvent Unit Action) :=
  [.serve 0 (.success []), .deliver 0 (turnOf "a"), .serve 0 (.failure "unavailable"),
    .deliver 0 (turnOf "a")]

/-- `a` has just chosen to unfollow `b`. -/
def unfollowing : AppWorld Client Unit :=
  (atRest Backend.empty fun _ => optionsShown).turn () (Action.sheetTap 0 .unfollow).program
    (turnOf "a") []

/-- The service reports an error, and nothing has happened. -/
theorem failed_inconsequential_sheet :
    ∃ w, Run api Action.program (Confined (fun _ => True) False ()) unfollowing secondWriteFails w
      ∧ w.Quiescent
      ∧ Inconsequential (.sheetTap 0 .unfollow) optionsShown (w.client ())
        (trace api Action.program () unfollowing secondWriteFails) := by
  obtain ⟨w, run, hquiet⟩ : ∃ w, Run api Action.program (Confined (fun _ => True) False ())
      unfollowing secondWriteFails w ∧ w.Quiescent := exists_run_of_play (by decide)
  have hidle : ∀ x ∈ (atRest Backend.empty fun _ => optionsShown : AppWorld Client Unit).pool,
      x.1 ≠ () := fun x hx => absurd hx (by simp [atRest])
  have htrace : trace api Action.program () unfollowing secondWriteFails
      = [.reply (.write (.delete ["following", "a", "user-following", "b"])) none,
         .reply (.write (.delete ["followers", "b", "user-followers", "a"]))
          (some "unavailable")] := rfl
  have hreported : Reported "a" (turnOf "a") (.unfollow "b")
      (trace api Action.program () unfollowing secondWriteFails) :=
    ⟨_, by rw [htrace]; exact List.mem_cons_of_mem _ (List.mem_cons_self ..)⟩
  exact ⟨w, run, hquiet, (failed_inconsequential_iff hidle rfl run (by rw [hquiet]; simp)
    hreported).mpr trivial⟩

/-- A session of `a` that has the profile of `b` on screen. -/
def profileShown : Client where
  tabUser := some (User.init (dict [("uid", .string "a")]))
  profiles := fun _ =>
    { user := User.init (dict [("uid", .string "b")])
      header := some (User.init (dict [("uid", .string "b")])) }

/-- `a` has just chosen to follow `b`. -/
def followingFromProfile : AppWorld Client Unit :=
  (atRest Backend.empty fun _ => profileShown).turn () (Action.headerTap 0).program (turnOf "a") []

/-- Then the notification of the completion goes through. -/
def noticeSucceeds : List (AppEvent Unit Action) :=
  secondWriteFails ++ [.serve 0 (.success []), .deliver 0 (turnOf "a")]

/-- The service reports an error; `b` is told that `a` follows him, and his profile says so. -/
theorem failed_consequential :
    ∃ w, Run api Action.program (Confined (fun _ => True) False ()) followingFromProfile
        noticeSucceeds w
      ∧ w.Quiescent
      ∧ Reported "a" (turnOf "a") (.follow "b")
        (trace api Action.program () followingFromProfile noticeSucceeds)
      ∧ w.backend.exists ["notifications", "b", "user-notifications", "id"] = true
      ∧ ¬ Inconsequential (.headerTap 0) profileShown (w.client ())
        (trace api Action.program () followingFromProfile noticeSucceeds) := by
  obtain ⟨w, run, hquiet, hnotice, hflag⟩ : ∃ w,
      Run api Action.program (Confined (fun _ => True) False ()) followingFromProfile
        noticeSucceeds w
      ∧ w.Quiescent ∧ w.backend.exists ["notifications", "b", "user-notifications", "id"] = true
      ∧ ((w.client ()).profiles 0).user.isFollowed = true := exists_run_of_play (by decide)
  have htrace : ∃ T, trace api Action.program () followingFromProfile noticeSucceeds
      = .reply (.write (.setData ["following", "a", "user-following", "b"] (dict []))) none
        :: .reply (.write (.setData ["followers", "b", "user-followers", "a"] (dict [])))
          (some "unavailable") :: T := ⟨_, rfl⟩
  obtain ⟨T, htrace⟩ := htrace
  refine ⟨w, run, hquiet, ⟨"unavailable", ?_⟩, hnotice, fun h => ?_⟩
  · rw [htrace]
    exact List.mem_cons_of_mem _ (List.mem_cons_self ..)
  · have hsame := congrFun (congrArg Flags.profileUser h.flags) 0
    have hnot : ((w.client ()).profiles 0).user.isFollowed = false := hsame
    rw [hflag] at hnot
    exact absurd hnot (by simp)

end InstaClone
