import InstaClone.Async.Requests
import InstaClone.Past

/-!
# Notifications tell what has happened

A notification is uploaded by the completion of what it tells of: a like, a follow or a comment.
By then the documents of that have been stored, if storing does not fail (when it does, the
completions do not look). So whatever an inbox tells has been done: by the time a notification is
stored, there have been the marks of the like or of the follow, or the comment, and the post in
question was one of the owner of the inbox (`notifications_truthful`).

The states of a session are settled by the terms of the app; what is added here is about
requests only (`Terms.Telling`).
-/

namespace InstaClone

open Async
open Screens (onClient)

/-! ## What a notification tells -/

/-- What the notification to `owner` tells has been done by `uid`. -/
inductive Truthful (stored : Path → Doc → Prop) (uid owner : String) (notification : Notification) :
    Prop
  | like (htype : notification.type = .like) {postId : String}
      (hpost : notification.postId = some postId) (howner : OwnedBy stored postId owner)
      (hmark : ∃ d, stored ["posts", postId, "post-likes", uid] d)
      (hcopy : ∃ d, stored ["users", uid, "user-likes", postId] d)
  | follow (htype : notification.type = .follow)
      (hmark : ∃ d, stored ["following", uid, "user-following", owner] d)
      (hcopy : ∃ d, stored ["followers", owner, "user-followers", uid] d)
  | comment (htype : notification.type = .comment) {postId : String}
      (hpost : notification.postId = some postId) (howner : OwnedBy stored postId owner)
      {id : String} {d : Doc} (hcomment : stored ["posts", postId, "comments", id] d)
      (hauthor : d.string "uid" = some uid)

/-- The dictionary tells what an account of the device has done, in the name of one. -/
def Terms.Tells (T : Terms) (owner : String) (d : Doc) : Prop :=
  ∃ uid, T.account uid ∧ ∀ now, T.account (Notification.init now d).uid
    ∧ Truthful T.stored uid owner (Notification.init now d)

/-- What is decoded from a notification is what was put into it. -/
theorem init_notificationData (now : Timestamp) (uid : String) (turn : Turn) (user : User)
    (type : NotificationType) (post : Option Post) :
    (Notification.init now (NotificationService.notificationData uid turn user type post)).uid = uid
      ∧ (Notification.init now (NotificationService.notificationData uid turn user type post)).type
        = type
      ∧ ∀ p ∈ post, (Notification.init now
          (NotificationService.notificationData uid turn user type post)).postId
        = some p.postId := by
  refine ⟨rfl, ?_, fun p hp => ?_⟩
  · show (NotificationType.ofRawValue type.rawValue).getD .like = type
    rw [NotificationType.ofRawValue_rawValue]
    rfl
  · rw [Option.mem_def.mp hp]
    rfl

/-! ## Requests -/

/-- The request stores a notification only if it tells what has been done. -/
def Terms.Telling (T : Terms) (_ : Turn) (r : Request) : Prop :=
  ∀ owner id d, r = .write (.setData ["notifications", owner, "user-notifications", id] d) →
    T.Tells owner d

/-- A store that has been answered has been carried out. -/
def Terms.Kept (T : Terms) (r : Request) (_ : Response r) : Prop :=
  ∀ path d, r = .write (.setData path d) → T.stored path d

/-- The request stores no notification. -/
def Request.Mute (r : Request) : Prop :=
  ∀ owner id d, r ≠ .write (.setData ["notifications", owner, "user-notifications", id] d)

/-- A request that books no record tells nothing, -/
theorem mute_of_record {r : Request} (h : r.record = none) : r.Mute := by
  rintro owner id d rfl
  exact absurd h (by simp [Request.record, isRecord])

/-- nor does a document outside the inboxes. -/
theorem mute_setData {path : Path} {d : Doc} (h : path.head? ≠ some "notifications") :
    (Request.write (.setData path d)).Mute := by
  rintro owner id d' heq
  injection heq with heq
  injection heq with hpath
  rw [hpath] at h
  exact absurd rfl h

section Programs

variable {σ : Type} {T : Terms} {C : Contract Request Response Turn σ} {e : Turn}

/-- The program uploads a notification only when it tells what has been done. -/
abbrev TellsIn (T : Terms) (C : Contract Request Response Turn σ) (p : Program σ) (e : Turn) :
    Prop := p.RequestsIn C T.Telling T.Kept e

/-- What tells nothing is true, -/
theorem telling_of_mute {r : Request} (h : r.Mute) : T.Telling e r :=
  fun owner id d heq => absurd heq (h owner id d)

/-- and so is code that only does such things. -/
theorem tells_of_mute {p : Program σ} (h : p.Spares (fun r => r.Mute) fun _ => ()) :
    TellsIn T C p e :=
  h.requestsIn fun _ _ hr => telling_of_mute hr

/-- In particular code that stores no record. -/
theorem tells_of_recordless {p : Program σ} (h : Recordless p) : TellsIn T C p e :=
  h.requestsIn fun _ _ hr => telling_of_mute (mute_of_record (record_of_plain hr))

/-- The callback of a store runs when the document has been stored. -/
theorem tells_setData {path : Path} {d : Doc} {k : Option Error → Program σ}
    (hpath : path.head? ≠ some "notifications")
    (hk : T.stored path d → ∀ y e', C.env e' → TellsIn T C (k y) e') :
    TellsIn T C (setData path d k) e := by
  refine ⟨telling_of_mute (mute_setData hpath), fun y _ hy e' he' => ?_, trivial⟩
  exact hk (hy path d rfl) y e' he'

variable (hC : C.env = T.contract.env)

include hC

/-- The body tells in the name of an account. -/
theorem tells_withCurrentUid (he : C.env e) {body : String → Program σ}
    (h : ∀ uid, T.account uid → TellsIn T C (body uid) e) :
    TellsIn T C (withCurrentUid body) e := by
  unfold withCurrentUid
  rw [TellsIn, Prog.requestsIn_ask]
  split
  next uid huid =>
    rw [hC] at he
    exact h uid (he uid huid)
  next => trivial

/-- When a like completes, its mark and the copy of it have been stored. -/
theorem tells_likePost {post : Post} {completion : Option Error → Program σ} (he : C.env e)
    (hk : ∀ uid, T.account uid → (∃ d, T.stored ["posts", post.postId, "post-likes", uid] d) →
      (∃ d, T.stored ["users", uid, "user-likes", post.postId] d) →
      ∀ y e', C.env e' → TellsIn T C (completion y) e') :
    TellsIn T C (PostService.likePost post completion) e := by
  unfold PostService.likePost
  refine tells_withCurrentUid hC he fun uid huid => ?_
  have hcount : Recordless (updateData ["posts", post.postId]
      (dict [("likes", .int (post.likes + 1))]) noCompletion : Program σ) := recordless_silent rfl
  refine Prog.RequestsIn.andThen (tells_of_recordless hcount) ?_
  refine tells_setData (by simp) fun hmark _ e₁ _ => ?_
  exact tells_setData (by simp) fun hcopy y e₂ he₂ => hk uid huid ⟨_, hmark⟩ ⟨_, hcopy⟩ y e₂ he₂

/-- When a follow does, so have its two. -/
theorem tells_follow {user : String} {completion : Option Error → Program σ} (he : C.env e)
    (hk : ∀ uid, T.account uid → (∃ d, T.stored ["following", uid, "user-following", user] d) →
      (∃ d, T.stored ["followers", user, "user-followers", uid] d) →
      ∀ y e', C.env e' → TellsIn T C (completion y) e') :
    TellsIn T C (UserService.follow user completion) e := by
  unfold UserService.follow
  refine tells_withCurrentUid hC he fun uid huid => ?_
  refine tells_setData (by simp) fun hmark _ e₁ _ => ?_
  exact tells_setData (by simp) fun hcopy y e₂ he₂ => hk uid huid ⟨_, hmark⟩ ⟨_, hcopy⟩ y e₂ he₂

/-- A notification of what has been done. -/
theorem tells_uploadNotification {owner uid : String} {user : User} {type : NotificationType}
    {post : Option Post} (he : C.env e) (huid : T.account uid)
    (h : ∀ notification : Notification, notification.type = type →
      (∀ p ∈ post, notification.postId = some p.postId) →
      Truthful T.stored uid owner notification) :
    TellsIn T C (NotificationService.uploadNotification owner user type post) e := by
  unfold NotificationService.uploadNotification
  refine tells_withCurrentUid hC he fun sender hsender => ?_
  split
  next => trivial
  next =>
    refine ⟨?_, fun _ _ _ _ _ => trivial, trivial⟩
    intro owner' id d heq
    injection heq with heq
    injection heq with hpath hdata
    simp only [List.cons.injEq, and_true, true_and] at hpath
    obtain ⟨rfl, -⟩ := hpath
    rw [← hdata]
    refine ⟨uid, huid, fun now => ?_⟩
    obtain ⟨hfrom, htype, hpost⟩ := init_notificationData now sender e user type post
    refine ⟨?_, h _ htype hpost⟩
    rw [hfrom]
    exact hsender

end Programs

/-! ## Controllers -/

section Controllers

variable {T : Terms} {e : Turn}
  (hT : ∀ post, T.post post → OwnedBy T.stored post.postId post.ownerUid)

include hT

/-- The notification of a like comes after the mark it tells of, -/
theorem tells_didTapLike (he : T.contract.env e) {c cell : Nat} :
    TellsIn T T.contract (FeedController.didTapLike c cell) e := by
  unfold FeedController.didTapLike
  intro client hclient
  dsimp only
  split
  next post user hshown _ =>
    have howner := hT post ((hclient.1.feeds c).cells cell post hshown)
    show TellsIn T T.contract (if post.didLike then _ else _) e
    split
    next =>
      refine tells_of_recordless (recordless_unlikePost fun error => ⟨fun _ => rfl, fun _ => ?_⟩)
      exact recordless_deleteNotification
    next =>
      refine tells_likePost rfl he fun uid huid hmark hcopy error e' he' => ?_
      refine tells_uploadNotification rfl he' huid fun notification htype hpost => ?_
      exact .like htype (hpost post rfl) howner hmark hcopy
  next => trivial

omit hT in
/-- that of a follow after the follow, -/
theorem tells_headerTap (he : T.contract.env e) {m : Nat} :
    TellsIn T T.contract (ProfileController.didTapActionButton m) e := by
  unfold ProfileController.didTapActionButton
  intro client _
  dsimp only
  split
  next user currentUser _ _ =>
    rw [Prog.requestsIn_ask]
    split
    next => trivial
    next =>
      split
      next =>
        refine tells_of_recordless (recordless_unfollow fun error => ⟨fun _ => rfl, ?_⟩)
        exact recordless_deleteNotification
      next =>
        refine tells_follow rfl he fun uid huid hmark hcopy error e' he' => ?_
        refine tells_uploadNotification rfl he' huid fun notification htype _ => ?_
        exact .follow htype hmark hcopy
  next => trivial

/-- and that of a comment after the comment. -/
theorem tells_postComment {d : Nat} {comment : String} :
    TellsIn T T.contract (CommentController.handlePostTapped d comment) e := by
  unfold CommentController.handlePostTapped CommentController.wantsToUploadComment
  intro client hclient
  dsimp only
  split
  next post currentUser hpost htab =>
    have howner := hT post (hclient.1.comments d post hpost)
    refine tells_setData (by simp) fun hcomment error e' he' => ?_
    refine tells_uploadNotification rfl he' (hclient.2.tabUser currentUser htab) ?_
    intro notification htype hpost
    exact .comment htype (hpost post rfl) howner hcomment rfl
  next => trivial

omit hT in
/-- A post is no notification. -/
theorem tells_didTapDone {k : Nat} {caption : String} :
    TellsIn T T.contract (UploadPostController.didTapDone k caption) e := by
  refine tells_of_mute ?_
  intro client
  dsimp only
  split
  next image user _ _ =>
    have hpost : ∀ id data, (Request.write (.setData ["posts", id] data)).Mute :=
      fun _ _ => mute_setData (by simp)
    refine ⟨fun _ => rfl, spares_uploadPost (fun _ _ => mute_of_record rfl)
      (fun _ => mute_of_record rfl) hpost fun error => ?_⟩
    cases error with
    | some error => exact ⟨fun _ => rfl, trivial⟩
    | none =>
      refine (browses_feedRefresh aloof_unit.toDistant).mono fun r hr => ?_
      exact mute_of_record (record_of_plain (plain_read hr))
  next => trivial

/-- All actions of the tabs tell the truth, -/
theorem Action.tells (he : T.contract.env e) (a : Action) : TellsIn T T.contract a.program e := by
  by_cases ha : a.stores = false
  · exact tells_of_recordless (Action.recordless ha)
  · cases a with
    | likeTap c cell => exact tells_didTapLike hT he
    | postComment d comment => exact tells_postComment hT
    | shareTap k caption => exact tells_didTapDone
    | headerTap m => exact tells_headerTap he
    | _ => exact absurd rfl ha

/-- and so do those of the other screens, which tell nothing. -/
theorem ScreenAction.tells (strings : StringOps) (he : T.screens.env e)
    (a : ScreenAction) : TellsIn T T.screens (a.program strings) e := by
  by_cases ha : a.stores = false
  · exact tells_of_recordless (ScreenAction.recordless strings ha)
  · cases a with
    | app a =>
      refine Prog.RequestsIn.zoom (fun screens hstate client hclient => ?_) (a.tells hT he)
      rw [← Option.some.inj hclient]
      exact hstate
    | chatSend k text =>
      refine tells_of_mute (spares_withUser fun user => ?_)
      refine spares_withCurrentUid fun uid turn => ?_
      have hsend : ∀ path data, path.head? = some "messages" →
          (Request.write (.setData path data)).Mute := by
        intro path data hpath
        refine mute_setData ?_
        rw [hpath]
        simp
      intro turn'
      refine spares_write (hsend _ _ rfl) fun error => .andThen (fun turn'' => ?_) ?_
      · exact spares_silent (hsend _ _ rfl)
      · exact .andThen (spares_silent (hsend _ _ rfl)) (spares_silent (hsend _ _ rfl))
    | _ => exact absurd rfl ha

end Controllers

/-! ## Runs -/

/-- Does the request store a document? -/
def Request.isStore : Request → Bool
  | .write (.setData _ _) => true
  | _ => false

/-- No store of a document fails. -/
def StoresSucceed {S : Type} (w : AppWorld Screens S) : AppEvent S ScreenAction → Prop
  | .serve i o => ∀ x ∈ w.pool[i]?, x.2.req.isStore = true → o.isSuccess = true
  | _ => True

instance {S : Type} (w : AppWorld Screens S) (ev : AppEvent S ScreenAction) :
    Decidable (StoresSucceed w ev) :=
  match ev with
  | .serve _ _ => inferInstanceAs (Decidable (∀ x ∈ _, _ → _))
  | .invoke _ _ _ => isTrue trivial
  | .deliver _ _ => isTrue trivial
  | .drop _ => isTrue trivial

/-- Every inbox tells what has been done, by an account of some device. -/
def Store.Tells {S : Type} (T : S → Terms) (docs : Store) : Prop :=
  ∀ owner id d, docs.lookup ["notifications", owner, "user-notifications", id] = some d →
    ∃ s, (T s).Tells owner d

/-- A commit adds a notification only if what it tells of has been stored. -/
theorem Store.Tells.commit {S : Type} {T : S → Terms} {docs docs' : Store} {s : S} {e : Turn}
    {w : Write} (h : docs.Tells T) (hw : (T s).Writes e w) (htells : (T s).Telling e (.write w))
    (hcommit : w.apply docs = some docs') : docs'.Tells T := by
  intro owner id d hd
  by_cases hpath : ["notifications", owner, "user-notifications", id] = w.path
  · rw [hpath, Write.lookup_apply hcommit] at hd
    cases w with
    | setData path data =>
      obtain rfl : data = d := Option.some.inj hd
      refine ⟨s, htells owner id data ?_⟩
      rw [hpath]
      rfl
    | updateData path fields =>
      -- nothing of a notification is updated
      have hnone : ∀ key, fields key = none := by
        intro key
        refine hw.updates ?_ ?_
        · rw [← hpath]
          rfl
        · rw [← hpath]
          exact List.not_mem_nil
      obtain ⟨d₀, hd₀, rfl⟩ := Option.map_eq_some_iff.mp hd
      have hsame : d₀.merge fields = d₀ := by
        funext key
        unfold Doc.merge
        rw [hnone]
        rfl
      rw [hsame]
      refine h owner id d₀ ?_
      rw [hpath]
      exact hd₀
    | delete path => exact absurd hd (by simp [Write.effect])
  · rw [Write.lookup_apply_ne hcommit hpath] at hd
    exact h owner id d hd

section Runs

variable {S : Type} [DecidableEq S] {strings : StringOps} {V : S → String → Prop}
  {ok : AppWorld Screens S → AppEvent S ScreenAction → Prop} {w : AppWorld Screens S}
  {es : List (AppEvent S ScreenAction)}

/-- **Notifications tell what has happened.** If no store of a document fails, whatever else may,
every notification that is stored comes from an account of a device, and tells of a like, a
follow or a comment by an account of that device that has been stored before: on a post of the
owner of the inbox, or of the owner himself. -/
theorem notifications_truthful (run : Run api (ScreenAction.program strings) ok unused es w)
    (hok : ∀ w ev, ok w ev → Devices V w ev ∧ StoresSucceed w ev) {owner id : String} {d : Doc}
    (hd : w.backend.docs.lookup ["notifications", owner, "user-notifications", id] = some d)
    (now : Timestamp) :
    ∃ s uid, V s uid ∧ V s (Notification.init now d).uid
      ∧ Truthful (StoredAlong strings ok es) uid owner (Notification.init now d) := by
  let T : S → Terms := fun s => past strings ok es (V s)
  have hstart : (unused : AppWorld Screens S).Keeps
      (fun s => (T s).screens.also (T s).Telling (T s).Kept) fun b => b.docs.Tells T := by
    refine ⟨fun owner id d hd => ?_, fun s => Terms.state_initial _, fun x hx => absurd hx ?_⟩
    · exact absurd hd (by simp [unused, atRest, Backend.empty])
    · exact List.not_mem_nil
  have hkeeps : w.Keeps (fun s => (T s).screens.also (T s).Telling (T s).Kept)
      fun b => b.docs.Tells T := by
    refine hstart.run_visited run List.prefix_rfl ?_ ?_ ?_
    · intro w₁ w₂ i o s r k e y h hv₁ hv₂ hi hI he hr hs
      refine ⟨?_, Terms.replies_of_serve (fun path d hlook => ⟨w₁, hv₁, hlook⟩)
        ((hok _ _ h).1.2.registers hi (fun _ h => h) hs) hs, ?_⟩
      · cases r with
        | write wr =>
          rcases serve_write hs with ⟨-, docs, hdocs, hb⟩ | ⟨-, hb⟩
          · rw [hb]
            exact hI.commit (hr.1 wr rfl) hr.2 hdocs
          · rw [hb]
            exact hI
        | _ =>
          rw [serve_docs hs fun w hw => by cases hw]
          exact hI
      · -- what has been answered has been stored
        rintro path d rfl
        have hsuccess := (hok _ _ h).2 _ hi rfl
        rcases serve_write_success hsuccess hs with ⟨-, docs, hdocs, hb⟩ | ⟨-, hnone, -⟩
        · refine ⟨w₂, hv₂, ?_⟩
          rw [hb]
          exact Write.lookup_apply hdocs
        · exact absurd hnone (by simp [Write.apply])
    · intro w₁ ev _
      cases ev with
      | invoke s a e =>
        intro e' he'
        exact (a.keeps strings e' he').also
          (a.tells (T := T s) (fun _ h => h) strings he')
      | _ => trivial
    · exact fun w₁ ev h => (hok w₁ ev h).1.1
  obtain ⟨s, uid, huid, htells⟩ := hkeeps.backend owner id d hd
  exact ⟨s, uid, huid, htells now⟩

/-- Every device is signed in to the account of its name, and no store fails. -/
def OwnStores (w : AppWorld Screens String) (ev : AppEvent String ScreenAction) : Prop :=
  Devices (fun s uid => uid = s) w ev ∧ StoresSucceed w ev

instance (w : AppWorld Screens String) (ev : AppEvent String ScreenAction) :
    Decidable (OwnStores w ev) :=
  inferInstanceAs (Decidable (_ ∧ _))

/-- Bob has followed Ann, and she is told. -/
theorem notifications_truthful_followed :
    ∃ w, Run api (ScreenAction.program stringsASCII) OwnStores unused following w
      ∧ ∃ d, w.backend.docs.lookup ["notifications", "a", "user-notifications", "b16"] = some d
        ∧ ∃ s uid, uid = s ∧ (Notification.init ⟨0, 0⟩ d).uid = s
          ∧ Truthful (StoredAlong stringsASCII OwnStores following) uid "a"
            (Notification.init ⟨0, 0⟩ d) := by
  obtain ⟨w, run, hexists⟩ : ∃ w,
      Run api (ScreenAction.program stringsASCII) OwnStores unused following w
      ∧ (w.backend.docs.lookup ["notifications", "a", "user-notifications", "b16"]).isSome
        = true := exists_run_of_play (by decide +kernel)
  obtain ⟨d, hd⟩ := Option.isSome_iff_exists.mp hexists
  exact ⟨w, run, d, hd, notifications_truthful run (fun _ _ h => h) hd ⟨0, 0⟩⟩

end Runs

end InstaClone
