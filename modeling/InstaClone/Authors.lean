import InstaClone.Async.Chains
import InstaClone.Likes
import InstaClone.Provenance

/-!
# In whose name is a comment or a notification written?

`Auth.auth().currentUser` changes at once when somebody signs in. `MainTabController.user`
changes when `fetchUser` has its reply, and does not change when the profile is edited.
`uploadComment` takes the author from the second; `uploadNotification` takes the uid from the
first, and the name and the picture from what the second was when the like, the follow or the
comment was tapped. Signing out and in is a turn with another `currentUid`; `tabDidLoad` is
`fetchUser`, which `authenticationDidComplete` calls again; nothing orders its reply. The runs
are those of all the screens, with registrations and edits of profiles among them.

A `Signature` is what such a tap has captured, and it labels whatever descends from the tap.
`Signs` says where comments and notifications come from: a comment from its tap, a notification
from the acknowledgement of the last write (`ScreenAction.chains`). So they are in the right
name if the signature is the right one in these turns (`OwnName`), whoever is signed in
meanwhile, and whatever is written to the profiles.
-/

namespace InstaClone

open Async
open Screens (onClient)

/-! ## Names -/

section Names

variable {S : Type} (w : AppWorld Screens S)

/-- The document of a comment or of a notification. -/
def spoken : Path → Bool
  | ["posts", _, "comments", _] => true
  | ["notifications", _, "user-notifications", _] => true
  | _ => false

/-- The comment has the uid and the username of the user who is signed in. -/
def NamesAuthor (e : Turn) (comment : Doc) : Prop :=
  ∃ uid profile, e.currentUid = some uid ∧ w.backend.docs.lookup ["users", uid] = some profile
    ∧ comment.string "uid" = some uid
    ∧ comment.string "username" = some (User.init profile).username

/-- The name and the picture in the notification belong to its uid. -/
def NamesSender (notification : Doc) : Prop :=
  ∃ uid profile, w.backend.docs.lookup ["users", uid] = some profile
    ∧ notification.string "uid" = some uid
    ∧ notification.string "username" = some (User.init profile).username
    ∧ notification.string "userProfileImageUrl" = some (User.init profile).profileImageUrl

variable [DecidableEq S] (strings : StringOps) (w₀ : AppWorld Screens S)
  (es : List (AppEvent S ScreenAction))

/-- **Nothing is written in another user's name.** Every comment stored along the run was sent in
a turn of the run, in the name of the user who was signed in then, and every notification in one
in which its name and its picture belonged to its uid. The turn has drawn the identifier. -/
structure InOwnName : Prop where
  comments : ∀ post id d, w.backend.docs.lookup ["posts", post, "comments", id] = some d →
    w₀.backend.docs.lookup ["posts", post, "comments", id] = some d
      ∨ ∃ w₁ e, SentAlong api (ScreenAction.program strings) w₀ es w₁ e
          (.write (.setData ["posts", post, "comments", id] d))
        ∧ e.autoId = id ∧ NamesAuthor w₁ e d
  notifications : ∀ owner id d,
    w.backend.docs.lookup ["notifications", owner, "user-notifications", id] = some d →
    w₀.backend.docs.lookup ["notifications", owner, "user-notifications", id] = some d
      ∨ ∃ w₁ e, SentAlong api (ScreenAction.program strings) w₀ es w₁ e
          (.write (.setData ["notifications", owner, "user-notifications", id] d))
        ∧ e.autoId = id ∧ NamesSender w₁ d

end Names

/-! ## Signatures -/

/-- What a tap has captured: what it is, the tab's user, and who is to be notified. -/
structure Signature where
  type : NotificationType
  user : User
  toUid : String
deriving DecidableEq

/-- A like, a follow from a profile or a comment. -/
def Action.signature (client : Client) : Action → Option Signature
  | .likeTap c cell =>
    match ((client.feeds c).cells cell).post, client.tabUser with
    | some post, some user => if post.didLike then none else some ⟨.like, user, post.ownerUid⟩
    | _, _ => none
  | .headerTap m =>
    match (client.profiles m).header, client.tabUser with
    | some user, some currentUser =>
      if user.isFollowed then none else some ⟨.follow, currentUser, user.uid⟩
    | _, _ => none
  | .postComment d _ =>
    match (client.comments d).post, client.tabUser with
    | some post, some currentUser => some ⟨.comment, currentUser, post.ownerUid⟩
    | _, _ => none
  | _ => none

def ScreenAction.signature (screens : Screens) : ScreenAction → Option Signature
  | .app a => a.signature screens.client
  | _ => none

/-- A world of the app whose flights are labelled with the signature they descend from. -/
abbrev SignedWorld (S : Type) := Labelled Request Response Turn Screens S Backend (Option Signature)

/-- The app with these labels. -/
abbrev signed {S : Type} [DecidableEq S] (strings : StringOps)
    (w₀ : AppWorld Screens S) : Machine (SignedWorld S) (AppEvent S ScreenAction) :=
  labelled api (ScreenAction.program strings) ScreenAction.signature w₀

/-- The last write of a like or of a follow, and the write of a comment. -/
def Request.closes : Request → Bool
  | .write (.setData ["users", _, "user-likes", _] _) => true
  | .write (.setData ["followers", _, "user-followers", _] _) => true
  | .write (.setData ["posts", _, "comments", _] _) => true
  | _ => false

section OwnName

variable {S : Type}

/-- The user has the username that is stored. -/
def HasUsername (w : AppWorld Screens S) (user : User) : Prop :=
  ∃ profile ∈ w.backend.docs.lookup ["users", user.uid],
    (User.init profile).username = user.username

/-- The user has the username and the picture that are stored. -/
def HasProfile (w : AppWorld Screens S) (user : User) : Prop :=
  ∃ profile ∈ w.backend.docs.lookup ["users", user.uid],
    (User.init profile).username = user.username
      ∧ (User.init profile).profileImageUrl = user.profileImageUrl

/-- When a comment is posted, the tab's user is the one who is signed in, under the username that
is stored. When the last write of a like, of a follow or of a comment is acknowledged while
somebody is signed in whom it does not notify, that is the user the tab had at the tap, and he
still has the username and the picture that are stored. -/
def OwnName (x : SignedWorld S) : AppEvent S ScreenAction → Prop
  | .invoke s a e => ∀ sig ∈ a.signature (x.world.client s), sig.type = .comment →
    e.currentUid = some sig.user.uid ∧ HasUsername x.world sig.user
  | .deliver i e => ∀ sig ∈ x.labels[i]?.join, ∀ y ∈ x.world.pool[i]?, y.2.req.closes = true →
    ∀ uid ∈ e.currentUid, uid ≠ sig.toUid → uid = sig.user.uid ∧ HasProfile x.world sig.user
  | _ => True

instance (w : AppWorld Screens S) (user : User) : Decidable (HasUsername w user) :=
  inferInstanceAs (Decidable (∃ profile ∈ _, _))

instance (w : AppWorld Screens S) (user : User) : Decidable (HasProfile w user) :=
  inferInstanceAs (Decidable (∃ profile ∈ _, _))

instance (x : SignedWorld S) (ev : AppEvent S ScreenAction) : Decidable (OwnName x ev) :=
  match ev with
  | .invoke _ _ _ => inferInstanceAs (Decidable (∀ sig ∈ _, _ → _))
  | .serve _ _ => isTrue trivial
  | .deliver _ _ => inferInstanceAs (Decidable (∀ sig ∈ _, ∀ y ∈ _, _))
  | .drop _ => isTrue trivial

instance [DecidableEq S] (strings : StringOps) (w₀ : AppWorld Screens S)
    (x : SignedWorld S) (ev : AppEvent S ScreenAction) :
    Decidable ((signed strings w₀).allows x ev) :=
  inferInstanceAs (Decidable True)

end OwnName

/-! ## Where comments and notifications come from -/

/-- The request stores no comment and no notification. -/
def Unsigned : Request → Prop
  | .write (.setData path _) => spoken path = false
  | .write (.updateData path _) => spoken path = false
  | _ => True

/-- The requests under a signature, in the turn `e`: a comment in its name, from the tap itself; a
notification with its name and its picture, and the uid of who is signed in, from the callback of
the last write. -/
inductive Signs (sig : Option Signature) (prev : Option Request) (e : Turn) : Request → Prop
  | unsigned {r : Request} (h : Unsigned r) : Signs sig prev e r
  | comment {s : Signature} (hsig : sig = some s) (htype : s.type = .comment)
      (hprev : prev = none) {post : String} {d : Doc} (huid : d.string "uid" = some s.user.uid)
      (hname : d.string "username" = some s.user.username) :
      Signs sig prev e (.write (.setData ["posts", post, "comments", e.autoId] d))
  | notification {s : Signature} (hsig : sig = some s) {r : Request} (hprev : prev = some r)
      (hcloses : r.closes = true) {uid : String} (hcurrent : e.currentUid = some uid)
      (hother : uid ≠ s.toUid) {d : Doc} (huid : d.string "uid" = some uid)
      (hname : d.string "username" = some s.user.username)
      (himage : d.string "userProfileImageUrl" = some s.user.profileImageUrl) :
      Signs sig prev e
        (.write (.setData ["notifications", s.toUid, "user-notifications", e.autoId] d))

section Chains

variable {sig : Option Signature} {prev : Option Request} {e : Turn}

/-- Comments and notifications are records. -/
theorem isRecord_of_spoken {path : Path} (h : spoken path = true) : isRecord path = true := by
  unfold spoken at h
  split at h
  next => rfl
  next => rfl
  next => exact absurd h (by simp)

theorem length_of_spoken {path : Path} (h : spoken path = true) : path.length = 4 := by
  unfold spoken at h
  split at h
  next => rfl
  next => rfl
  next => exact absurd h (by simp)

theorem unsigned_of_plain {r : Request} (h : r.isPlain = true) : Unsigned r := by
  cases r with
  | write w =>
    cases w with
    | setData path data =>
      refine Bool.eq_false_iff.mpr fun hspoken => ?_
      have hrecord : isRecord path = false := (Bool.not_eq_true' _).mp h
      rw [isRecord_of_spoken hspoken] at hrecord
      exact absurd hrecord (by simp)
    | updateData path fields =>
      refine Bool.eq_false_iff.mpr fun hspoken => ?_
      have hlength : path.length = 2 := by simpa [Request.isPlain] using h
      rw [length_of_spoken hspoken] at hlength
      exact absurd hlength (by decide)
    | delete path => trivial
  | _ => trivial

section Services

variable {σ : Type} {s : σ}

theorem chains_of_unsigned {α : Type} {obs : σ → α} {p : Program σ} (h : p.Spares Unsigned obs) :
    p.ChainsFrom (Signs sig) prev e s :=
  h.chainsFrom (fun _ _ _ hr => .unsigned hr) prev e s

theorem chains_of_recordless {p : Program σ} (h : Recordless p) :
    p.ChainsFrom (Signs sig) prev e s :=
  chains_of_unsigned (h.mono fun _ hr => unsigned_of_plain hr)

/-- The notification takes the uid from the turn, and the rest from the signature. -/
theorem chains_uploadNotification (sg : Signature) {type : NotificationType}
    {post : Option Post} {r : Request} (hcloses : r.closes = true) :
    (NotificationService.uploadNotification sg.toUid sg.user type post : Program σ).ChainsFrom
      (Signs (some sg)) (some r) e s := by
  unfold NotificationService.uploadNotification withCurrentUid
  rw [Prog.chainsFrom_ask]
  cases hcurrent : e.currentUid with
  | none => exact trivial
  | some uid =>
    dsimp only
    split
    next => trivial
    next hne =>
      refine ⟨.notification rfl rfl hcloses hcurrent (Ne.symm hne) ?_ ?_ ?_,
        fun _ _ _ => trivial, trivial⟩
      all_goals cases post <;> rfl

/-- The completion of a like runs when its last write is acknowledged. -/
theorem chains_likePost {post : Post} {completion : Option Error → Program σ}
    (hk : ∀ r y e s, r.closes = true → (completion y).ChainsFrom (Signs sig) (some r) e s) :
    (PostService.likePost post completion).ChainsFrom (Signs sig) prev e s := by
  unfold PostService.likePost withCurrentUid
  rw [Prog.chainsFrom_ask]
  cases e.currentUid with
  | none => exact trivial
  | some uid =>
    refine .andThen ⟨.unsigned rfl, fun _ _ _ => trivial, trivial⟩ ?_
    refine ⟨.unsigned rfl, fun _ _ _ => ⟨.unsigned rfl, fun y e' s' => ?_, trivial⟩, trivial⟩
    exact hk _ y e' s' rfl

/-- So does the completion of a follow. -/
theorem chains_follow {user : String} {completion : Option Error → Program σ}
    (hk : ∀ r y e s, r.closes = true → (completion y).ChainsFrom (Signs sig) (some r) e s) :
    (UserService.follow user completion).ChainsFrom (Signs sig) prev e s := by
  unfold UserService.follow withCurrentUid
  rw [Prog.chainsFrom_ask]
  cases e.currentUid with
  | none => exact trivial
  | some uid =>
    refine ⟨.unsigned rfl, fun _ _ _ => ⟨.unsigned rfl, fun y e' s' => ?_, trivial⟩, trivial⟩
    exact hk _ y e' s' rfl

end Services

variable {client : Client}

theorem chains_didTapLike {c cell : Nat} :
    (FeedController.didTapLike c cell).ChainsFrom
      (Signs ((Action.likeTap c cell).signature client)) none e client := by
  unfold FeedController.didTapLike
  rw [Prog.chainsFrom_read]
  cases hpost : ((client.feeds c).cells cell).post with
  | none => exact trivial
  | some post =>
    cases huser : client.tabUser with
    | none => exact trivial
    | some user =>
      have hsig : (Action.likeTap c cell).signature client
          = if post.didLike then none else some ⟨.like, user, post.ownerUid⟩ := by
        simp only [Action.signature, hpost, huser]
      rw [hsig]
      dsimp only [inFeed]
      rw [Prog.chainsFrom_modify]
      split
      next =>
        have hdelete : ∀ error, Recordless
            (FeedController.didUnlike c cell post post.ownerUid error) :=
          fun error => ⟨fun _ => rfl, fun client => recordless_deleteNotification⟩
        exact chains_of_recordless (recordless_unlikePost hdelete)
      next =>
        refine chains_likePost fun r y e' client' hr => ?_
        exact chains_uploadNotification ⟨.like, user, post.ownerUid⟩ hr

theorem chains_headerTap {m : Nat} :
    (ProfileController.didTapActionButton m).ChainsFrom
      (Signs ((Action.headerTap m).signature client)) none e client := by
  unfold ProfileController.didTapActionButton
  rw [Prog.chainsFrom_read]
  cases huser : (client.profiles m).header with
  | none => exact trivial
  | some user =>
    cases hcurrent : client.tabUser with
    | none => exact trivial
    | some currentUser =>
      have hsig : (Action.headerTap m).signature client
          = if user.isFollowed then none else some ⟨.follow, currentUser, user.uid⟩ := by
        simp only [Action.signature, huser, hcurrent]
      rw [hsig]
      dsimp only
      rw [Prog.chainsFrom_ask]
      by_cases hown : user.isCurrentUser e.currentUid = true
      · rw [if_pos hown]
        exact trivial
      · rw [if_neg hown]
        split
        next =>
          have hdelete : ∀ error, Recordless (ProfileController.didUnfollow m user error) :=
            fun error => ⟨fun _ => rfl, recordless_deleteNotification⟩
          exact chains_of_recordless (recordless_unfollow hdelete)
        next =>
          refine chains_follow fun r y e' client' hr => ?_
          exact chains_uploadNotification ⟨.follow, currentUser, user.uid⟩ hr

/-- The comment is in the name of the signature. -/
theorem chains_wantsToUploadComment {d : Nat} {comment : String} :
    (CommentController.wantsToUploadComment d comment).ChainsFrom
      (Signs ((Action.postComment d comment).signature client)) none e client := by
  unfold CommentController.wantsToUploadComment
  rw [Prog.chainsFrom_read]
  cases hpost : (client.comments d).post with
  | none => exact trivial
  | some post =>
    cases hcurrent : client.tabUser with
    | none => exact trivial
    | some currentUser =>
      have hsig : (Action.postComment d comment).signature client
          = some ⟨.comment, currentUser, post.ownerUid⟩ := by
        simp only [Action.signature, hpost, hcurrent]
      rw [hsig]
      refine ⟨.comment rfl rfl rfl rfl rfl, fun y e' client' => ?_, trivial⟩
      exact chains_uploadNotification ⟨.comment, currentUser, post.ownerUid⟩ rfl

/-- Typing it does not change the signature. -/
theorem chains_postComment {d : Nat} {comment : String} :
    (CommentController.handlePostTapped d comment).ChainsFrom
      (Signs ((Action.postComment d comment).signature client)) none e client := by
  unfold CommentController.handlePostTapped inInputView
  rw [Prog.chainsFrom_modify]
  have hsig : (Action.postComment d comment).signature client
      = (Action.postComment d comment).signature
          (client.mapComments d fun comments => { comments with text := comment }) := by
    simp [Action.signature, Client.mapComments]
  rw [hsig]
  exact chains_wantsToUploadComment

/-- The post that is shared is neither, -/
theorem unsigned_didTapDone {k : Nat} {caption : String} :
    (UploadPostController.didTapDone k caption).Spares Unsigned fun _ => () := by
  intro client
  dsimp only
  split
  next =>
    refine ⟨fun _ => rfl, spares_uploadPost (fun _ _ => trivial) (fun _ => trivial)
      (fun _ _ => rfl) fun error => ?_⟩
    cases error with
    | some error => exact ⟨fun _ => rfl, trivial⟩
    | none =>
      refine (browses_feedRefresh aloof_unit.toDistant).mono fun r hr => ?_
      exact unsigned_of_plain (plain_read hr)
  next => trivial

/-- and so are the copies of a message. -/
theorem unsigned_chatSend {k : Nat} {text : String} (strings : StringOps) :
    ((ScreenAction.chatSend k text).program strings).Spares Unsigned fun _ => () := by
  refine spares_withUser fun user => spares_withCurrentUid fun uid turn turn' => ?_
  refine spares_write rfl fun error => .andThen (fun turn'' => spares_silent rfl) ?_
  exact .andThen (spares_silent rfl) (spares_silent rfl)

theorem Action.chains (a : Action) :
    a.program.ChainsFrom (Signs (a.signature client)) none e client := by
  by_cases ha : a.stores = false
  · exact chains_of_recordless (Action.recordless ha)
  · cases a with
    | likeTap c cell => exact chains_didTapLike
    | postComment d comment => exact chains_postComment
    | shareTap k caption => exact chains_of_unsigned unsigned_didTapDone
    | headerTap m => exact chains_headerTap
    | _ => exact absurd rfl ha

/-- **Where comments and notifications come from**: the whole app. -/
theorem ScreenAction.chains (strings : StringOps) (a : ScreenAction) (screens : Screens) :
    (a.program strings).ChainsFrom (Signs (a.signature screens)) none e screens := by
  by_cases ha : a.stores = false
  · exact chains_of_recordless (ScreenAction.recordless strings ha)
  · cases a with
    | app a =>
      show (onClient a.program).ChainsFrom (Signs (a.signature screens.client)) none e screens
      unfold onClient
      refine Prog.ChainsFrom.zoom ?_ a.chains rfl
      exact fun _ _ _ => rfl
    | chatSend k text => exact chains_of_unsigned (unsigned_chatSend strings)
    | _ => exact absurd rfl ha

end Chains

/-! ## Runs -/

section Runs

variable {S : Type} {x x' : SignedWorld S} {e : Turn}

/-- A request that is in nobody's name, or in the name of its author or sender in the world `w`. -/
inductive InName (w : AppWorld Screens S) (e : Turn) : Request → Prop
  | unsigned {r : Request} (h : Unsigned r) : InName w e r
  | comment {post : String} {d : Doc} (h : NamesAuthor w e d) :
      InName w e (.write (.setData ["posts", post, "comments", e.autoId] d))
  | notification {owner : String} {d : Doc} (h : NamesSender w d) :
      InName w e (.write (.setData ["notifications", owner, "user-notifications", e.autoId] d))

/-- **One step.** Under the condition, what is issued is in the right name. -/
theorem inName_of_links {ev : AppEvent S ScreenAction} {r : Request} (hok : OwnName x ev)
    (h : x.Links ScreenAction.signature Signs ev e r) : InName x.world e r := by
  cases h with
  | action h =>
    cases h with
    | unsigned h => exact .unsigned h
    | comment hsig htype hprev huid hname =>
      obtain ⟨hcurrent, profile, hprofile, husername⟩ := hok _ hsig htype
      refine .comment ⟨_, profile, hcurrent, hprofile, huid, ?_⟩
      rw [husername]
      exact hname
    | notification hsig hprev => exact absurd hprev (by simp)
  | callback hlabel hget h =>
    cases h with
    | unsigned h => exact .unsigned h
    | comment hsig htype hprev => exact absurd hprev (by simp)
    | notification hsig hprev hcloses hcurrent hother huid hname himage =>
      obtain rfl := Option.some.inj hprev
      subst hsig
      obtain ⟨rfl, profile, hprofile, husername, hpicture⟩ :=
        hok _ (by rw [hlabel]; rfl) _ hget hcloses _ hcurrent hother
      refine .notification ⟨_, profile, hprofile, huid, ?_, ?_⟩
      · rw [husername]
        exact hname
      · rw [hpicture]
        exact himage

/-- What stores a comment or a notification is in the name of its author or sender. -/
theorem InName.author {w : AppWorld Screens S} {post id : String} {d : Doc}
    (h : InName w e (.write (.setData ["posts", post, "comments", id] d))) :
    e.autoId = id ∧ NamesAuthor w e d := by
  generalize hr : Request.write (.setData ["posts", post, "comments", id] d) = r at h
  cases h with
  | unsigned h =>
    subst hr
    exact absurd (show spoken _ = false from h) (by simp [spoken])
  | comment h =>
    simp only [Request.write.injEq, Write.setData.injEq, List.cons.injEq] at hr
    obtain ⟨⟨-, -, -, hid, -⟩, rfl⟩ := hr
    exact ⟨hid.symm, h⟩
  | notification h => exact absurd hr (by simp)

theorem InName.sender {w : AppWorld Screens S} {owner id : String} {d : Doc}
    (h : InName w e (.write (.setData ["notifications", owner, "user-notifications", id] d))) :
    e.autoId = id ∧ NamesSender w d := by
  generalize hr : Request.write (.setData ["notifications", owner, "user-notifications", id] d) = r
    at h
  cases h with
  | unsigned h =>
    subst hr
    exact absurd (show spoken _ = false from h) (by simp [spoken])
  | comment h => exact absurd hr (by simp)
  | notification h =>
    simp only [Request.write.injEq, Write.setData.injEq, List.cons.injEq] at hr
    obtain ⟨⟨-, -, -, hid, -⟩, rfl⟩ := hr
    exact ⟨hid.symm, h⟩

/-- A comment or a notification is changed only by the request that stores it. -/
theorem setData_of_inName {w : AppWorld Screens S} {wr : Write} (h : InName w e (.write wr))
    (hspoken : spoken wr.path = true) {before : Option Doc} {d : Doc}
    (hd : wr.effect before = some d) : wr = .setData wr.path d := by
  cases wr with
  | setData path data =>
    obtain rfl : data = d := Option.some.inj hd
    rfl
  | updateData path fields =>
    generalize hr : Request.write (.updateData path fields) = r at h
    cases h with
    | unsigned h =>
      subst hr
      exact absurd (hspoken.symm.trans h) (by simp)
    | _ => exact absurd hr (by simp)
  | delete path => exact absurd hd (by simp [Write.effect])

variable [DecidableEq S] {strings : StringOps} {w₀ : AppWorld Screens S}
  {es : List (AppEvent S ScreenAction)}

/-- Along a run, a comment or a notification that is stored has been sent in the right name. -/
theorem sent_of_stored (hrest : w₀.Quiescent)
    (run : ((signed strings w₀).under OwnName).Run es x) {path : Path}
    (hspoken : spoken path = true) {d : Doc} (hd : x.world.backend.docs.lookup path = some d) :
    w₀.backend.docs.lookup path = some d
      ∨ ∃ w₁ e, SentAlong api (ScreenAction.program strings) w₀ es w₁ e
          (.write (.setData path d))
        ∧ InName w₁ e (.write (.setData path d)) := by
  induction run with
  | nil hstart =>
    rw [show _ = _ from hstart] at hd
    exact Or.inl hd
  | @snoc es x x' ev run hallowed hstep ih =>
    obtain ⟨w, hw, rfl⟩ := Option.map_eq_some_iff.mp hstep
    by_cases hsame : w.backend.docs.lookup path = x.world.backend.docs.lookup path
    · refine (ih (hsame.symm.trans hd)).imp id ?_
      rintro ⟨w₁, e, hsent, hname⟩
      exact ⟨w₁, e, hsent.append [ev], hname⟩
    · obtain ⟨s, wr, hcommits, rfl⟩ := exists_commits (stepped_of_step hw) hsame
      obtain ⟨i, o, k, -, hi⟩ := hcommits.served
      obtain ⟨w₁, e, hsent, hname⟩ := run.sent hrest
        (fun a e screens => a.chains strings screens) (fun x ev e r => inName_of_links) _
        (List.mem_of_getElem? hi)
      have heffect : wr.effect (x.world.backend.docs.lookup wr.path) = some d := by
        rw [← Write.lookup_apply hcommits.commit]
        exact hd
      have hset := setData_of_inName hname hspoken heffect
      refine Or.inr ⟨w₁, e, ?_, ?_⟩
      · rw [← hset]
        exact hsent.append [ev]
      · rw [← hset]
        exact hname

/-- **Nothing is written in another user's name**, in any run in which the tab's user is the one
who is signed in, with the profile that is stored, when a comment is posted, and when the last
write of a like, of a follow or of a comment is acknowledged. -/
theorem stored_inOwnName (hrest : w₀.Quiescent)
    (run : ((signed strings w₀).under OwnName).Run es x) :
    InOwnName x.world strings w₀ es := by
  refine ⟨fun post id d hd => ?_, fun owner id d hd => ?_⟩
  · rcases sent_of_stored hrest run rfl hd with hold | ⟨w₁, e, hsent, hname⟩
    · exact Or.inl hold
    · exact Or.inr ⟨w₁, e, hsent, hname.author⟩
  · rcases sent_of_stored hrest run rfl hd with hold | ⟨w₁, e, hsent, hname⟩
    · exact Or.inl hold
    · exact Or.inr ⟨w₁, e, hsent, hname.sender⟩

end Runs

/-! ## Two runs -/

/-- The app has just been started on a device. There are two users, and a post of a third. -/
def justStarted : AppWorld Screens Unit :=
  atRest
    ⟨(((∅ : Store).insert ["users", "a"] (userDoc "a")).insert ["users", "b"]
      (userDoc "b")).insert ["posts", "p"] (postDoc "o"), [], []⟩
    fun _ => {}

/-- `a` signs in, and his feed shows the post. -/
def browsing : List (AppEvent Unit ScreenAction) :=
  [.invoke () (.app .tabDidLoad) (turnOf "a"), .serve 0 (.success []), .deliver 0 (turnOf "a"),
    .invoke () (.app (.feedDidLoad 0)) (turnOf "a"), .serve 0 (.success ["p"]),
    .deliver 0 (turnOf "a"), .serve 0 (.success []), .deliver 0 (turnOf "a"),
    .serve 0 (.success []), .deliver 0 (turnOf "a"),
    .invoke () (.app (.feedCell 0 0 0)) (turnOf "a")]

/-- He opens the comments and posts one. -/
def ownComment : List (AppEvent Unit ScreenAction) :=
  browsing
    ++ [.invoke () (.app (.commentsTap 0 0 0)) (turnOf "a"),
      .invoke () (.app (.postComment 0 "hi")) (turnWith "a" "c"), .serve 0 (.success []),
      .deliver 0 (turnWith "a" "n"), .serve 0 (.success []), .deliver 0 (turnOf "a")]

/-- His comment and his notification are in his name. -/
theorem stored_inOwnName_comment :
    ∃ x, ((signed stringsASCII justStarted).under OwnName).Run ownComment x
      ∧ x.world.backend.exists ["posts", "p", "comments", "c"] = true
      ∧ x.world.backend.exists ["notifications", "o", "user-notifications", "n"] = true
      ∧ InOwnName x.world stringsASCII justStarted ownComment := by
  obtain ⟨x, run, hcomment, hnotice⟩ : ∃ x,
      ((signed stringsASCII justStarted).under OwnName).Run ownComment x
      ∧ x.world.backend.exists ["posts", "p", "comments", "c"] = true
      ∧ x.world.backend.exists ["notifications", "o", "user-notifications", "n"] = true :=
    Machine.exists_run_of_play rfl (by decide +kernel)
  have hrest : justStarted.Quiescent := rfl
  exact ⟨x, run, hcomment, hnotice, stored_inOwnName hrest run⟩

/-- `a` signs out and `b` signs in. Before the reply to his `fetchUser` arrives, he opens the
comments from the feed that is still on screen, and posts one. -/
def lateReply : List (AppEvent Unit ScreenAction) :=
  browsing
    ++ [.invoke () (.app .tabDidLoad) (turnOf "b"),
      .invoke () (.app (.commentsTap 0 0 0)) (turnOf "b"),
      .invoke () (.app (.postComment 0 "hi")) (turnWith "b" "c"), .serve 1 (.success []),
      .deliver 1 (turnWith "b" "n"), .serve 1 (.success []), .deliver 1 (turnOf "b"),
      .serve 0 (.success []), .deliver 0 (turnOf "b")]

/-- The comment of `b` is in the name of `a`, and the notification has the uid of `b` and the
name of `a`. -/
theorem stored_inOtherName :
    ∃ w, Run api (ScreenAction.program stringsASCII) (fun _ _ => True) justStarted lateReply w
      ∧ w.Quiescent ∧ ¬ InOwnName w stringsASCII justStarted lateReply
      ∧ ∃ d, w.backend.docs.lookup ["notifications", "o", "user-notifications", "n"] = some d
        ∧ d.string "uid" = some "b" ∧ d.string "username" = some "a" := by
  obtain ⟨w, run, hquiet, hauthor, hnotice⟩ : ∃ w,
      Run api (ScreenAction.program stringsASCII) (fun _ _ => True) justStarted lateReply w
      ∧ w.Quiescent
      ∧ (w.backend.docs.lookup ["posts", "p", "comments", "c"]).bind (·.string "uid") = some "a"
      ∧ ∃ d ∈ w.backend.docs.lookup ["notifications", "o", "user-notifications", "n"],
        d.string "uid" = some "b" ∧ d.string "username" = some "a" :=
    exists_run_of_play (by decide +kernel)
  refine ⟨w, run, hquiet, fun h => ?_, hnotice⟩
  obtain ⟨d, hd, hauthor⟩ := Option.bind_eq_some_iff.mp hauthor
  -- the comment has been sent in the turn of `b`
  have hturns : ∀ ev ∈ lateReply, ∀ e ∈ ev.turn, e.autoId = "c" → e.currentUid = some "b" := by
    decide
  rcases h.comments "p" "c" d hd with hold | ⟨w₁, e, hsent, hid, uid, profile, huid, -, hd', -⟩
  · have hnone : justStarted.backend.docs.lookup ["posts", "p", "comments", "c"] = none := rfl
    rw [hnone] at hold
    exact absurd hold (by simp)
  · obtain rfl : "a" = uid := Option.some.inj (hauthor.symm.trans hd')
    obtain ⟨ev, hev, he⟩ := hsent.turn
    rw [hturns ev hev e he hid] at huid
    exact absurd huid (by decide)

end InstaClone
