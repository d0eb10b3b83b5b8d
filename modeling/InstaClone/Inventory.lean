import InstaClone.Conduct
import InstaClone.Readers
import InstaClone.Registration

/-!
# Everything the app writes, and in whose name

`Terms` is what a session works under: the accounts its device may be signed in to, what is
known of the stored documents, and what that makes of a post that has been decoded. Over it
`Terms.Writes` is the inventory of the whole app: every document write that any of its
screens and services can issue, with the account in whose name it is issued and what the
session knew when it did. Nothing in it depends on which action is run or on what is in
flight.

`Terms.contract` is the contract of a session that holds only good posts (`Client.Holds`),
that has the user of one of its accounts in the tab bar, and whose sheets offer a deletion
only to the owner of the post (`Terms.Aside`). A program that only reads and keeps the posts
keeps it (`Terms.keeps_of_browses`). The others are taken one by one; `ScreenAction.keeps` has
them all.
-/

namespace InstaClone

open Async
open Screens (onClient onEdit)

/-! ## The terms of a session -/

/-- The accounts of the device, what is known of the stored documents, and what holds of the
posts decoded from them. -/
structure Terms where
  account : String → Prop
  stored : Path → Doc → Prop
  post : Post → Prop
  law : PostLaw post
  decoded : ∀ postId d now, stored ["posts", postId] d → post (Post.init now postId d)
  named : ∀ uid d, stored ["users", uid] d → d.string "uid" = some uid

/-- One side of the conversation of `uid` with `user`: whose copies, and of which partner. -/
def Sides (uid user owner partner : String) : Prop :=
  owner = uid ∧ partner = user ∨ owner = user ∧ partner = uid

/-- Either side keeps the copy of one of the two. -/
theorem sides_owner {uid other owner partner : String} (h : Sides uid other owner partner) :
    owner = uid ∨ owner = other := by
  rcases h with ⟨howner, -⟩ | ⟨howner, -⟩
  · exact Or.inl howner
  · exact Or.inr howner

/-- **The inventory.** The document writes of the app in a turn `e`. -/
inductive Terms.Writes (T : Terms) (e : Turn) : Write → Prop
  | register {uid : String} (huid : T.account uid) (credentials : AuthCredentials)
      (imageUrl : String) :
      Writes T e (.setData ["users", uid] (registeredUser credentials imageUrl uid e.fcmToken))
  | save {uid : String} (huid : T.account uid) (user : User) :
      Writes T e (.setData ["users", uid] (savedUser user uid))
  | picture {uid : String} (huid : T.account uid) (url : String) :
      Writes T e (.updateData ["users", uid] (dict [("profileImageUrl", .string url)]))
  | token {uid : String} (huid : T.account uid) (token : String) :
      Writes T e (.updateData ["users", uid] (dict [("fcmToken", .string token)]))
  | upload {uid : String} (huid : T.account uid) (caption imageUrl : String) (user : User) :
      Writes T e (.setData ["posts", e.autoId] (uploadedPost e caption imageUrl uid user))
  | count {uid : String} (huid : T.account uid) {post : Post} (hpost : T.post post)
      (likes : Int) :
      Writes T e (.updateData ["posts", post.postId] (dict [("likes", .int likes)]))
  | ownerImage {uid : String} (huid : T.account uid) (postId url : String) :
      Writes T e (.updateData ["posts", postId] (dict [("ownerImageUrl", .string url)]))
  | removePost {post : Post} (hpost : T.post post) (howner : T.account post.ownerUid) :
      Writes T e (.delete ["posts", post.postId])
  | likeMark {uid : String} (huid : T.account uid) (postId : String) (v : Bool) :
      Writes T e (markWrite ["posts", postId, "post-likes", uid] v)
  | likeCopy {uid : String} (huid : T.account uid) (postId : String) (v : Bool) :
      Writes T e (markWrite ["users", uid, "user-likes", postId] v)
  | removeLike {post : Post} (hpost : T.post post) (howner : T.account post.ownerUid)
      (uid : String) : Writes T e (.delete ["users", uid, "user-likes", post.postId])
  | feedEntry {uid : String} (huid : T.account uid) (postId : String) :
      Writes T e (.setData ["users", uid, "user-feed", postId] (dict []))
  | removeEntry {post : Post} (hpost : T.post post) (howner : T.account post.ownerUid)
      (uid : String) : Writes T e (.delete ["users", uid, "user-feed", post.postId])
  | followMark {uid : String} (huid : T.account uid) (user : String) (v : Bool) :
      Writes T e (markWrite ["following", uid, "user-following", user] v)
  | followCopy {uid : String} (huid : T.account uid) (user : String) (v : Bool) :
      Writes T e (markWrite ["followers", user, "user-followers", uid] v)
  | comment {user : User} (huser : T.account user.uid) {post : Post} (hpost : T.post post)
      (text : String) :
      Writes T e
        (.setData ["posts", post.postId, "comments", e.autoId] (uploadedComment e text post user))
  | notify {uid : String} (huid : T.account uid) {owner : String} (hother : owner ≠ uid)
      (user : User) {type : NotificationType} {post : Option Post}
      (hpost : ∀ p ∈ post, T.post p) (hkind : post = none ↔ type = .follow) :
      Writes T e
        (.setData ["notifications", owner, "user-notifications", e.autoId]
          (NotificationService.notificationData uid e user type post))
  | retract {uid : String} (huid : T.account uid) {owner id : String} {d : Doc}
      (hd : T.stored ["notifications", owner, "user-notifications", id] d)
      (hsender : d "uid" = some (.string uid)) :
      Writes T e (.delete ["notifications", owner, "user-notifications", id])
  | dismiss {uid : String} (huid : T.account uid) (id : String) :
      Writes T e (.delete ["notifications", uid, "user-notifications", id])
  | message {uid : String} (huid : T.account uid) {user : User} {owner partner : String}
      (hsides : Sides uid user.uid owner partner) (turn : Turn) (text : String) :
      Writes T e
        (.setData ["messages", owner, partner, e.autoId]
          (MessagingService.messageData uid turn text user))
  | entry {uid : String} (huid : T.account uid) {user : User} {owner partner : String}
      (hsides : Sides uid user.uid owner partner) (turn : Turn) (text : String) :
      Writes T e
        (.setData ["messages", owner, "recent-messages", partner]
          (MessagingService.messageData uid turn text user))
  | unsend {uid : String} (huid : T.account uid) (coll id : String) :
      Writes T e (.delete ["messages", uid, coll, id])

/-! ## The contract -/

/-- Replies from such a store; a new account is one of the device. -/
def Terms.Replies (T : Terms) : (r : Request) → Response r → Prop
  | .getDocument path, y =>
    ∀ snapshot ∈ y, snapshot.documentID = path.getLastD ""
      ∧ ∀ data ∈ snapshot.data, T.stored path data
  | .getDocuments q, y =>
    ∀ documents ∈ y, ∀ x ∈ documents,
      T.stored (q.collection ++ [x.1]) x.2 ∧ q.selects x = true
  | .createUser _ _, y => ∀ uid ∈ y.1, T.account uid
  | _, _ => True

/-- Posts decoded from such replies are good. -/
theorem Terms.Replies.posts {T : Terms} {r : Request} {y : Response r} (h : T.Replies r y) :
    RepliesWith T.post r y := by
  cases r with
  | getDocument path =>
    rintro postId rfl snapshot hsnapshot data hdata now
    obtain ⟨hid, hstored⟩ := h snapshot hsnapshot
    rw [hid]
    exact T.decoded postId data now (hstored data hdata)
  | getDocuments q =>
    intro hcoll documents hdocuments x hx now
    have hstored := (h documents hdocuments x hx).1
    rw [hcoll] at hstored
    exact T.decoded x.1 x.2 now hstored
  | _ => trivial

/-- A new account is one of the device. -/
def Terms.Registers (T : Terms) : (r : Request) → Response r → Prop
  | .createUser _ _, y => ∀ uid ∈ y.1, T.account uid
  | _, _ => True

/-- What is answered is what is stored. -/
theorem Terms.replies_of_serve {T : Terms} {b b' : Backend} {r : Request} {o : Outcome}
    {y : Response r} (hstored : ∀ path d, b.docs.lookup path = some d → T.stored path d)
    (hnew : T.Registers r y) (hserve : serve b r o = some (b', y)) : T.Replies r y := by
  cases r with
  | getDocument path =>
    obtain ⟨-, hy⟩ := serve_getDocument hserve
    intro snapshot hsnapshot
    rw [hy snapshot hsnapshot]
    exact ⟨rfl, fun data hdata => hstored path data hdata⟩
  | getDocuments q =>
    obtain ⟨-, hy⟩ := serve_getDocuments hserve
    intro documents hdocuments x hx
    obtain ⟨hlook, hselects⟩ :=
      Query.mem_results.mp ((hy documents hdocuments).mem_iff.mp hx)
    exact ⟨hstored _ _ hlook, hselects⟩
  | createUser email password => exact hnew
  | _ => trivial

/-- The tab bar's user and the sheets, which the other screens leave alone. -/
def aside (client : Client) : Option User × List OptionsSheet := (client.tabUser, client.sheets)

/-- The tab bar has the user of an account of the device, and a sheet that offers to delete its
post is for a post of such an account. -/
structure Terms.Aside (T : Terms) (x : Option User × List OptionsSheet) : Prop where
  tabUser : ∀ user ∈ x.1, T.account user.uid
  sheets : ∀ sheet ∈ x.2, .deletePost ∈ sheet.actions → T.account sheet.post.ownerUid

/-- The contract of a session under the terms `T`. -/
def Terms.contract (T : Terms) : Contract Request Response Turn Client where
  env e := ∀ uid ∈ e.currentUid, T.account uid
  state client := client.Holds T.post ∧ T.Aside (aside client)
  req e r := ∀ w, r = .write w → T.Writes e w
  resp := T.Replies

/-- What only reads leaves the tab bar's user and the sheets alone. -/
theorem aloof_aside : Aloof aside where
  feed _ _ _ := rfl
  profile _ _ _ := rfl
  inbox _ _ _ := rfl
  search _ _ _ := rfl
  loader _ _ := rfl

/-- What `Terms.contract` and its extensions to more of the state have in common. -/
abbrev Terms.conduct (T : Terms) : Contract Request Response Turn Client :=
  appConduct T.contract.env T.post T.Writes

variable {T : Terms} {e : Turn}

/-- A program that leaves the tab bar's user and the sheets alone keeps the contract if it
keeps the posts and its writes are in the inventory. -/
theorem Terms.keeps_of_spares {P : Request → Prop} {p : Program Client}
    (hkeeps : p.KeepsIn T.conduct e) (hspares : p.Spares P aside) : p.KeepsIn T.contract e := by
  refine Prog.KeepsIn.mono ?_ ?_ ?_ ?_ (hkeeps.beside (Q := T.Aside) hspares)
  · exact fun _ he => he
  · rfl
  · exact fun _ _ hr => hr
  · intro r y (hy : T.Replies r y)
    exact hy.posts

/-- So does a program that issues no write, if it keeps the posts. -/
theorem Terms.keeps_of_browses {p : Program Client} (hkeeps : p.KeepsIn T.conduct e)
    (hreads : Browses aside p) : p.KeepsIn T.contract e := T.keeps_of_spares hkeeps hreads

section Services

variable {σ : Type} {C : Contract Request Response Turn σ}

/-- A contract of sessions that write what the inventory allows. -/
structure Terms.Governs (T : Terms) (C : Contract Request Response Turn σ) : Prop where
  env : C.env = T.contract.env
  req : C.req = T.contract.req
  resp : C.resp = T.contract.resp

theorem Terms.governs_contract (T : Terms) : T.Governs T.contract := ⟨rfl, rfl, rfl⟩

/-- The contract for more of the state. -/
theorem Terms.governs_within (T : Terms) (state : σ → Prop) :
    T.Governs (T.contract.within state) := ⟨rfl, rfl, rfl⟩

variable (hC : T.Governs C)

include hC

/-- What is no write is free. -/
theorem Terms.Governs.read {r : Request} (hr : r.isWrite = false) : C.req e r := by
  rw [hC.req]
  intro w hw
  rw [hw] at hr
  exact absurd hr (by simp [Request.isWrite])

/-- Whoever is signed in has an account of the device. -/
theorem Terms.Governs.account (he : C.env e) {uid : String} (huid : e.currentUid = some uid) :
    T.account uid := by
  rw [hC.env] at he
  exact he uid huid

/-- The body runs for an account of the device, or not at all. -/
theorem governed_withCurrentUid (he : C.env e) {body : String → Program σ}
    (h : ∀ uid, T.account uid → (body uid).KeepsIn C e) : (withCurrentUid body).KeepsIn C e := by
  unfold withCurrentUid
  rw [Prog.keepsIn_ask]
  split
  next uid huid => exact h uid (hC.account he huid)
  next => trivial

/-- A write of the inventory, with a completion that keeps the contract. -/
theorem governed_write {w : Write} {k : Option Error → Program σ} (hw : T.Writes e w)
    (hk : ∀ y, (k y).Keeps C) : (Prog.call (.write w) k .done : Program σ).KeepsIn C e := by
  refine ⟨?_, fun y _ => hk y, trivial⟩
  rw [hC.req]
  intro w' hw'
  cases hw'
  exact hw

/-- A write whose completion is not given. -/
theorem governed_silent {w : Write} (hw : T.Writes e w) :
    (Prog.call (.write w) noCompletion .done : Program σ).KeepsIn C e :=
  governed_write hC hw fun _ => Prog.keeps_done

/-- The callback of a read may count on what is stored. -/
theorem governed_getDocument {path : Path} {k : Option Snapshot → Program σ}
    (hk : ∀ y, T.Replies (.getDocument path) y → (k y).Keeps C) :
    (getDocument path k).KeepsIn C e := by
  refine ⟨hC.read rfl, fun y hy => hk y ?_, trivial⟩
  rw [hC.resp] at hy
  exact hy

/-- So may that of a query, for every document it found. -/
theorem governed_getDocuments {q : Query} {k : Option (List (String × Doc)) → Program σ}
    (hk : ∀ y, T.Replies (.getDocuments q) y → (k y).Keeps C) :
    (getDocuments q k).KeepsIn C e := by
  refine ⟨hC.read rfl, fun y hy => hk y ?_, trivial⟩
  rw [hC.resp] at hy
  exact hy

/-- The user `fetchUser` brings is the one it was asked for: his document says so. -/
theorem governed_fetchUser {uid : String} {completion : User → Program σ}
    (hk : ∀ user, user.uid = uid → (completion user).Keeps C) :
    (UserService.fetchUser uid completion).KeepsIn C e := by
  unfold UserService.fetchUser
  refine governed_getDocument hC fun y hy => ?_
  split
  next => exact Prog.keeps_done
  next dictionary hdata =>
    obtain ⟨snapshot, hsnapshot, hdictionary⟩ := Option.bind_eq_some_iff.mp hdata
    refine hk _ ?_
    -- `users/{uid}` has its identifier as the field `uid`
    have hname := T.named uid dictionary ((hy snapshot hsnapshot).2 dictionary hdictionary)
    show (dictionary.string "uid").getD "" = uid
    rw [hname]
    rfl

/-- What is deleted names the account as its sender, for the query asked for that. -/
theorem governed_deleteNotification {uid : String} {type : NotificationType}
    {postId : Option String} (he : C.env e) :
    (NotificationService.deleteNotification uid type postId).KeepsIn C e := by
  unfold NotificationService.deleteNotification
  refine governed_withCurrentUid hC he fun currentUid hcurrent => ?_
  refine governed_getDocuments hC fun y hy e' he' => ?_
  rw [Prog.keepsIn_ask]
  refine .forEach fun document hdocument => ?_
  split
  next =>
    cases hdocs : y with
    | none => rw [hdocs] at hdocument; exact absurd hdocument (by simp)
    | some documents =>
      rw [hdocs] at hdocument
      obtain ⟨hstored, hselects⟩ := hy documents hdocs document hdocument
      have hsender : document.2 "uid" = some (.string currentUid) := by
        simpa [Query.selects] using hselects
      exact governed_silent hC (.retract hcurrent hstored hsender)
  next => trivial

/-- A like of a good post. -/
theorem governed_likePost {post : Post} {completion : Option Error → Program σ}
    (he : C.env e) (hpost : T.post post) (hk : ∀ y, (completion y).Keeps C) :
    (PostService.likePost post completion).KeepsIn C e := by
  unfold PostService.likePost
  refine governed_withCurrentUid hC he fun uid huid => ?_
  refine .andThen (governed_silent hC (.count huid hpost _)) ?_
  refine governed_write hC (.likeMark huid post.postId true) fun _ e' _ => ?_
  exact governed_write hC (.likeCopy huid post.postId true) hk

/-- An unlike of one; its completion may count on the guard. -/
theorem governed_unlikePost {post : Post} {completion : Option Error → Program σ}
    (he : C.env e) (hpost : T.post post)
    (hk : post.likes > 0 → ∀ y, (completion y).Keeps C) :
    (PostService.unlikePost post completion).KeepsIn C e := by
  unfold PostService.unlikePost
  refine governed_withCurrentUid hC he fun uid huid => ?_
  split
  next hlikes =>
    refine .andThen (governed_silent hC (.count huid hpost _)) ?_
    refine governed_write hC (.likeMark huid post.postId false) fun _ e' _ => ?_
    exact governed_write hC (.likeCopy huid post.postId false) (hk hlikes)
  next => trivial

/-- The account follows, -/
theorem governed_follow {user : String} {completion : Option Error → Program σ} (he : C.env e)
    (hk : ∀ y, (completion y).Keeps C) :
    (UserService.follow user completion).KeepsIn C e := by
  unfold UserService.follow
  refine governed_withCurrentUid hC he fun uid huid => ?_
  refine governed_write hC (.followMark huid user true) fun _ e' _ => ?_
  exact governed_write hC (.followCopy huid user true) hk

/-- and no longer follows. -/
theorem governed_unfollow {user : String} {completion : Option Error → Program σ} (he : C.env e)
    (hk : ∀ y, (completion y).Keeps C) :
    (UserService.unfollow user completion).KeepsIn C e := by
  unfold UserService.unfollow
  refine governed_withCurrentUid hC he fun uid huid => ?_
  refine governed_write hC (.followMark huid user false) fun _ e' _ => ?_
  exact governed_write hC (.followCopy huid user false) hk

theorem governed_uploadImage {image : UIImage} {completion : String → Program σ}
    (hk : ∀ url, (completion url).Keeps C) :
    (ImageUploader.uploadImage image completion).KeepsIn C e := by
  unfold ImageUploader.uploadImage
  split
  next => trivial
  next imageData =>
    rw [Prog.keepsIn_ask]
    refine ⟨hC.read rfl, fun error _ e₁ _ => ?_, trivial⟩
    cases error with
    | some error => trivial
    | none =>
      refine ⟨hC.read rfl, fun url _ e₂ he₂ => ?_, trivial⟩
      cases url with
      | none => trivial
      | some imageUrl => exact hk imageUrl e₂ he₂

/-- The document of the account that has been created. -/
theorem governed_registerUser {credentials : AuthCredentials}
    {completion : Option Error → Program σ} (hk : ∀ y, (completion y).Keeps C) :
    (AuthService.registerUser credentials completion).KeepsIn C e := by
  unfold AuthService.registerUser
  refine governed_uploadImage hC fun imageUrl e₁ _ => ?_
  refine ⟨hC.read rfl, fun result hresult e₂ _ => ?_, trivial⟩
  obtain ⟨uid, error⟩ := result
  cases error with
  | some error => trivial
  | none =>
    cases uid with
    | none => trivial
    | some uid =>
      rw [hC.resp] at hresult
      have huid : T.account uid := hresult uid rfl
      exact governed_write hC (.register huid credentials imageUrl) hk

/-- The account saves its own document. -/
theorem governed_saveUserData {user : User} {completion : Option Error → Program σ}
    (he : C.env e) (hk : ∀ y, (completion y).Keeps C) :
    (UserService.saveUserData user completion).KeepsIn C e := by
  unfold UserService.saveUserData
  refine governed_withCurrentUid hC he fun uid huid => ?_
  exact governed_write hC (.save huid user) hk

/-- It stores its token, -/
theorem governed_setUserFCMToken (he : C.env e) :
    (UserService.setUserFCMToken : Program σ).KeepsIn C e := by
  unfold UserService.setUserFCMToken
  refine governed_withCurrentUid hC he fun uid huid => ?_
  rw [Prog.keepsIn_ask]
  split
  next => trivial
  next fcmToken _ => exact governed_silent hC (.token huid fcmToken)

/-- and its picture, there and in the posts a query by owner has found. -/
theorem governed_updateProfileImage {user : User} {image : UIImage}
    {completion : Option String → Option Error → Program σ} (he : C.env e)
    (hk : ∀ url error, (completion url error).Keeps C) :
    (UserService.updateProfileImage user image completion).KeepsIn C e := by
  unfold UserService.updateProfileImage
  refine governed_withCurrentUid hC he fun uid huid => ?_
  split
  case isFalse => trivial
  refine ⟨hC.read rfl, fun _ _ _ _ => trivial, governed_uploadImage hC fun url e₁ _ => ?_⟩
  refine governed_write hC (.picture huid url) fun error e₂ he₂ => ?_
  cases error with
  | some error => exact hk none (some error) e₂ he₂
  | none =>
    refine .andThen (governed_getDocuments hC fun y _ e₃ _ => ?_) (hk (some url) none e₂ he₂)
    split
    next => trivial
    next documents =>
      exact .forEach fun document _ => governed_silent hC (.ownerImage huid document.1 url)

/-- Its feed lists the posts that a query has found. -/
theorem governed_updateUserFeedAfterFollowing {user : User} (he : C.env e) :
    (PostService.updateUserFeedAfterFollowing user).KeepsIn C e := by
  unfold PostService.updateUserFeedAfterFollowing
  refine governed_withCurrentUid hC he fun uid huid => ?_
  refine governed_getDocuments hC fun y _ e' _ => ?_
  split
  next => trivial
  next documents =>
    exact .forEach fun document _ => governed_silent hC (.feedEntry huid document.1)

/-- Four copies, on the two sides of one conversation. -/
theorem governed_uploadMessage {message : String} {user : User}
    {completion : Option Error → Program σ} (he : C.env e)
    (hk : ∀ y, (completion y).Keeps C) :
    (MessagingService.uploadMessage message user completion).KeepsIn C e := by
  unfold MessagingService.uploadMessage
  refine governed_withCurrentUid hC he fun uid huid => ?_
  have hnear : Sides uid user.uid uid user.uid := Or.inl ⟨rfl, rfl⟩
  have hfar : Sides uid user.uid user.uid uid := Or.inr ⟨rfl, rfl⟩
  refine governed_write hC (.message huid hnear e message) fun error e' _ => ?_
  refine .andThen (governed_write hC (.message huid hfar e message) hk) (.andThen ?_ ?_)
  · exact governed_silent hC (.entry huid hnear e message)
  · exact governed_silent hC (.entry huid hfar e message)

/-- The account clears its own side. -/
theorem governed_deleteMessages {user : User} {completion : Option Error → Program σ}
    (he : C.env e) (hk : ∀ y, (completion y).Keeps C) :
    (MessagingService.deleteMessages user completion).KeepsIn C e := by
  unfold MessagingService.deleteMessages
  refine governed_withCurrentUid hC he fun uid huid => .andThen ?_ ?_
  · refine governed_getDocuments hC fun y _ e' _ => ?_
    exact .forEach fun document _ => governed_silent hC (.unsend huid user.uid document.1)
  · exact governed_write hC (.unsend huid recentMessages user.uid) hk

/-- A notification from the account, about a good post if it is about one. -/
theorem governed_uploadNotification {uid : String} {fromUser : User} {type : NotificationType}
    {post : Option Post} (he : C.env e) (hpost : ∀ p ∈ post, T.post p)
    (hkind : post = none ↔ type = .follow) :
    (NotificationService.uploadNotification uid fromUser type post).KeepsIn C e := by
  unfold NotificationService.uploadNotification
  refine governed_withCurrentUid hC he fun currentUid hcurrent => ?_
  split
  next => trivial
  next hne => exact governed_silent hC (.notify hcurrent hne fromUser hpost hkind)

end Services

/-! ## The controllers of `Client` -/

section Controllers

/-- An assignment that keeps the posts and leaves the tab bar's user and the sheets alone. -/
theorem contract_elsewhere {f : Client → Client} {rest : Program Client}
    (hholds : ∀ client : Client, client.Holds T.post → (f client).Holds T.post)
    (haside : ∀ client, aside (f client) = aside client)
    (hrest : rest.KeepsIn T.contract e) :
    (Prog.modify f rest : Program Client).KeepsIn T.contract e := by
  refine ⟨fun client h => ⟨hholds client h.1, ?_⟩, hrest⟩
  rw [haside]
  exact h.2

/-- An assignment in a feed that keeps its posts good. -/
theorem contract_inFeed {c : Nat} {f : FeedController → FeedController} {rest : Program Client}
    (hf : ∀ feed : FeedController, feed.Holds T.post → (f feed).Holds T.post)
    (hrest : rest.KeepsIn T.contract e) : (inFeed c f rest).KeepsIn T.contract e :=
  contract_elsewhere (fun _ h => h.mapFeed hf) (fun _ => rfl) hrest

theorem contract_showLoader {isShown : Bool} {rest : Program Client}
    (hrest : rest.KeepsIn T.contract e) : (showLoader isShown rest).KeepsIn T.contract e :=
  contract_elsewhere (fun _ h => { h with }) (fun _ => rfl) hrest

/-- One in a profile that leaves its posts. -/
theorem contract_setUser {m : Nat} {f : ProfileController → ProfileController}
    {rest : Program Client} (hposts : ∀ profile, (f profile).posts = profile.posts)
    (hcells : ∀ profile, (f profile).cells = profile.cells)
    (hrest : rest.KeepsIn T.contract e) : (inProfile m f rest).KeepsIn T.contract e := by
  refine contract_elsewhere (fun client h => h.mapProfile ?_ ?_) (fun _ => rfl) hrest
  · intro profile hp
    rw [hposts]
    exact hp
  · intro profile _ hc
    rw [hcells]
    exact hc

theorem contract_inInbox {n : Nat} {f : NotificationsController → NotificationsController}
    {rest : Program Client} (hrest : rest.KeepsIn T.contract e) :
    (inInbox n f rest).KeepsIn T.contract e :=
  contract_elsewhere (fun _ h => { h with }) (fun _ => rfl) hrest

theorem contract_inInputView {d : Nat} {text : String} {rest : Program Client}
    (hrest : rest.KeepsIn T.contract e) : (inInputView d text rest).KeepsIn T.contract e := by
  refine contract_elsewhere (fun client h => ?_) (fun _ => rfl) hrest
  have hkeeps : (inInputView d text .done).KeepsIn T.conduct e := keepsIn_inInputView trivial
  exact hkeeps.1 client h

/-- `fetchUser` brings the user of the account it was asked for. -/
theorem contract_tabFetchUser (he : T.contract.env e) :
    MainTabController.fetchUser.KeepsIn T.contract e := by
  unfold MainTabController.fetchUser
  refine governed_withCurrentUid T.governs_contract he fun uid huid => ?_
  refine governed_fetchUser T.governs_contract fun user huser e' he' => ?_
  refine ⟨fun client h => ⟨{ h.1 with }, ⟨fun shown hshown => ?_, h.2.sheets⟩⟩, trivial⟩
  obtain rfl : user = shown := Option.some.inj hshown
  rw [huser]
  exact huid

/-! ### `FeedController` -/

/-- The completion of `unlikePost` takes the notification back. -/
theorem contract_didUnlike {c cell : Nat} {post : Post} {ownerUid : String}
    {error : Option Error} (he : T.contract.env e) (hpost : T.post post)
    (hlikes : post.likes > 0) :
    (FeedController.didUnlike c cell post ownerUid error).KeepsIn T.contract e := by
  unfold FeedController.didUnlike
  refine contract_inFeed (fun feed hfeed => ?_) ?_
  · exact holds_mapCell_updatePost hfeed (g := FeedCell.setLikeButton .heart .black) (fun _ => rfl)
      fun shown hshown => T.law.unliked post shown hlikes hpost hshown
  · intro client _
    exact governed_deleteNotification T.governs_contract he

/-- That of `likePost` notifies the owner of a good post. -/
theorem contract_didLike {c cell : Nat} {post : Post} {user : User} {error : Option Error}
    (he : T.contract.env e) (hpost : T.post post) :
    (FeedController.didLike c cell post user error).KeepsIn T.contract e := by
  unfold FeedController.didLike
  refine contract_inFeed (fun feed hfeed => ?_) ?_
  · exact holds_mapCell_updatePost hfeed (g := FeedCell.setLikeButton .heartFill .red)
      (fun _ => rfl) fun shown hshown => T.law.liked post shown hpost hshown
  · refine governed_uploadNotification T.governs_contract he ?_ (by simp)
    intro p hp
    rw [← Option.some.inj hp]
    exact hpost

/-- The post of the cell is good, so both calls are. -/
theorem contract_didTapLike (he : T.contract.env e) {c cell : Nat} :
    (FeedController.didTapLike c cell).KeepsIn T.contract e := by
  unfold FeedController.didTapLike
  intro client hclient
  dsimp only
  split
  next post user hpost _ =>
    have hgood : T.post post := (hclient.1.feeds c).cells cell post hpost
    refine contract_inFeed (fun feed hfeed => ?_) ?_
    · exact holds_mapCell_updatePost hfeed (g := id) (fun _ => rfl)
        fun shown hshown => T.law.flag _ _ hshown
    · split
      next =>
        -- the flag of the cell decides, not what is stored
        refine governed_unlikePost T.governs_contract he hgood fun hlikes error e' he' => ?_
        exact contract_didUnlike he' hgood hlikes
      next =>
        refine governed_likePost T.governs_contract he hgood fun error e' he' => ?_
        exact contract_didLike he' hgood
  next => trivial

/-- A sheet that does not come to offer a deletion. -/
theorem Terms.Aside.mapSheet {client : Client} (h : T.Aside (aside client)) {k : Nat}
    {f : OptionsSheet → OptionsSheet} (hpost : ∀ sheet, (f sheet).post = sheet.post)
    (hactions : ∀ sheet, .deletePost ∈ (f sheet).actions → .deletePost ∈ sheet.actions) :
    T.Aside (aside (client.mapSheet k f)) := by
  refine ⟨h.tabUser, fun sheet hsheet hdelete => ?_⟩
  obtain ⟨i, hi, hget⟩ := List.mem_iff_getElem.mp hsheet
  unfold aside Client.mapSheet at hi hget
  rw [List.length_modify] at hi
  rw [List.getElem_modify] at hget
  have hold := h.sheets _ (List.getElem_mem hi)
  split at hget
  next =>
    rw [← hget] at hdelete ⊢
    rw [hpost]
    exact hold (hactions _ hdelete)
  next =>
    rw [← hget] at hdelete ⊢
    exact hold hdelete

/-- A sheet offers the deletion to the account that owns the post. -/
theorem contract_wantsToShowOptions (he : T.contract.env e) {c cell : Nat} :
    (FeedController.wantsToShowOptions c cell).KeepsIn T.contract e := by
  unfold FeedController.wantsToShowOptions
  intro client hclient
  dsimp only
  split
  next => trivial
  next post hpost =>
    have hgood : T.post post := (hclient.1.feeds c).cells cell post hpost
    have hpresent : ∀ actions : List SheetAction,
        (.deletePost ∈ actions → T.account post.ownerUid) →
        ∀ client : Client, T.contract.state client →
          T.contract.state
            { client with sheets := client.sheets ++ [⟨c, post, actions, true⟩] } := by
      intro actions hactions client h
      refine ⟨{ h.1 with sheets := fun sheet hsheet => ?_ }, h.2.tabUser, fun sheet hsheet => ?_⟩
      · rcases List.mem_append.mp hsheet with hsheet | hsheet
        · exact h.1.sheets sheet hsheet
        · rw [List.mem_singleton.mp hsheet]
          exact hgood
      · rcases List.mem_append.mp hsheet with hsheet | hsheet
        · exact h.2.sheets sheet hsheet
        · rw [List.mem_singleton.mp hsheet]
          exact hactions
    rw [Prog.keepsIn_ask]
    split
    next howner =>
      -- the owner is the account signed in: the sheet may offer the deletion
      exact ⟨hpresent _ fun _ => he post.ownerUid howner.symm, trivial⟩
    next =>
      -- anyone else is offered follow or unfollow, once the check is answered
      refine ⟨hpresent _ fun hmem => absurd hmem (by simp), ?_⟩
      unfold UserService.checkIfUserIsFollowed
      refine governed_withCurrentUid T.governs_contract he fun uid _ => ?_
      refine governed_getDocument T.governs_contract fun y _ => ?_
      split
      next => exact Prog.keeps_done
      next snapshot =>
        intro e' he'
        refine ⟨fun client h => ⟨h.1.mapSheet fun _ => rfl, ?_⟩, trivial⟩
        exact h.2.mapSheet (fun _ => rfl) fun sheet hdelete => by
          rcases List.mem_append.mp hdelete with hold | hnew
          · exact hold
          · split at hnew <;> simp at hnew

/-- The cascade is in the inventory when the post is the account's own. -/
theorem contract_deletePost (he : T.contract.env e) {c : Nat} {post : Post}
    (hpost : T.post post) (howner : T.account post.ownerUid) :
    (FeedController.deletePost c post).KeepsIn T.contract e := by
  refine contract_showLoader (T.keeps_of_spares (P := fun _ => True) ?_ ?_)
  · refine keepsIn_deletePost (.removePost hpost howner)
      (fun e' _ uid => .removeLike hpost howner uid)
      (fun e' _ uid => .removeEntry hpost howner uid) ?_ ?_
    · intro uid huid e' _ id
      exact .dismiss (he uid huid) id
    · intro error e' _
      exact keepsIn_showLoader (keepsIn_feedRefresh T.law)
  -- the refresh behind the completion looks neither at the tab bar nor at the sheets
  · refine spares_deletePost (fun _ => trivial) trivial (fun _ => trivial) (fun _ => trivial)
      (fun _ _ => trivial) fun error => ?_
    have hreads : Browses aside (showLoader false (FeedController.handleRefresh c)) :=
      browses_showLoader aloof_aside.toDistant (browses_feedRefresh aloof_aside.toDistant)
    exact hreads.mono fun _ _ => trivial

/-- The sheet was made for an own post if it offers the deletion. -/
theorem contract_didTapSheet (he : T.contract.env e) {k : Nat} {action : SheetAction} :
    (FeedController.didTapSheet k action).KeepsIn T.contract e := by
  unfold FeedController.didTapSheet
  intro client hclient
  dsimp only
  split
  next => trivial
  next sheet hsheet =>
    split
    next hoffered =>
      have hmem : sheet ∈ client.sheets := List.mem_of_getElem? hsheet
      refine ⟨fun client h => ⟨h.1.mapSheet fun _ => rfl, ?_⟩, ?_⟩
      · exact h.2.mapSheet (fun _ => rfl) fun _ hdelete => hdelete
      · cases action with
        | editPost => trivial
        | cancel => trivial
        | deletePost =>
          exact contract_deletePost he (hclient.1.sheets sheet hmem)
            (hclient.2.sheets sheet hmem hoffered.2)
        | unfollow =>
          refine contract_showLoader (governed_unfollow T.governs_contract he fun _ _ _ => ?_)
          exact contract_showLoader trivial
        | follow =>
          refine contract_showLoader (governed_follow T.governs_contract he fun _ _ _ => ?_)
          exact contract_showLoader trivial
    next => trivial

theorem contract_pickImage {c k : Nat} {image : UIImage} :
    (FeedController.didFinishPickingMedia c k image).KeepsIn T.contract e :=
  contract_elsewhere (fun _ h => { h with }) (fun _ => rfl) trivial

/-- The upload is in the name of the account, whoever the tab bar shows. -/
theorem contract_didTapDone (he : T.contract.env e) {k : Nat} {caption : String} :
    (UploadPostController.didTapDone k caption).KeepsIn T.contract e := by
  unfold UploadPostController.didTapDone
  intro client _
  dsimp only
  split
  next image user _ _ =>
    refine contract_showLoader (T.keeps_of_spares (P := fun _ => True) ?_ ?_)
    · refine keepsIn_uploadPost ?_ fun error e' _ => ?_
      · intro uid huid e' _ imageUrl
        exact .upload (he uid huid) caption imageUrl user
      · cases error with
        | some _ => exact keepsIn_showLoader trivial
        | none => exact keepsIn_feedRefresh T.law
    · refine spares_uploadPost (fun _ _ => trivial) (fun _ => trivial) (fun _ _ => trivial)
        fun error => ?_
      cases error with
      | some _ => exact ⟨fun _ => rfl, trivial⟩
      | none => exact (browses_feedRefresh aloof_aside.toDistant).mono fun _ _ => trivial
  next => trivial

/-! ### `ProfileController`, `NotificationsController` and `CommentController` -/

/-- The header follows or unfollows, and notifies of a follow, which is about no post. -/
theorem contract_headerTap (he : T.contract.env e) {m : Nat} :
    (ProfileController.didTapActionButton m).KeepsIn T.contract e := by
  unfold ProfileController.didTapActionButton
  intro client _
  dsimp only
  split
  next user currentUser _ _ =>
    rw [Prog.keepsIn_ask]
    split
    -- the own header opens the editor
    next => trivial
    next =>
      split
      next =>
        refine governed_unfollow T.governs_contract he fun error e' he' => ?_
        refine contract_setUser (fun _ => rfl) (fun _ => rfl) ?_
        exact governed_deleteNotification T.governs_contract he'
      next =>
        refine governed_follow T.governs_contract he fun error e' he' => ?_
        refine contract_setUser (fun _ => rfl) (fun _ => rfl) ?_
        exact governed_uploadNotification T.governs_contract he' (by simp) (by simp)
  next => trivial

/-- The notification list does not notify. -/
theorem contract_inboxFollowTap (he : T.contract.env e) {n cell : Nat} :
    (NotificationsController.handleFollowTapped n cell).KeepsIn T.contract e := by
  have htoggle : ∀ error e',
      (NotificationsController.didToggle n cell error).KeepsIn T.contract e' :=
    fun _ _ => contract_showLoader (contract_inInbox trivial)
  unfold NotificationsController.handleFollowTapped
  intro client _
  dsimp only
  split
  next => trivial
  next notification _ =>
    refine contract_showLoader ?_
    split
    next => exact governed_unfollow T.governs_contract he fun error e' _ => htoggle error e'
    next => exact governed_follow T.governs_contract he fun error e' _ => htoggle error e'

theorem contract_commentPush {c cell d : Nat} :
    (CommentController.push c cell d).KeepsIn T.contract e := by
  refine T.keeps_of_spares (P := fun _ => True) keepsIn_commentPush ⟨fun client => ?_, trivial⟩
  dsimp only
  split <;> rfl

/-- A comment is written in the name of the tab bar's user. -/
theorem contract_postComment {d : Nat} {comment : String} :
    (CommentController.handlePostTapped d comment).KeepsIn T.contract e := by
  refine contract_inInputView ?_
  unfold CommentController.wantsToUploadComment
  intro client hclient
  dsimp only
  split
  next post currentUser hpost htab =>
    have hgood : T.post post := hclient.1.comments d post hpost
    have hwrite : T.Writes e (.setData ["posts", post.postId, "comments", e.autoId]
        (uploadedComment e comment post currentUser)) :=
      .comment (hclient.2.tabUser currentUser htab) hgood comment
    refine contract_showLoader (governed_write T.governs_contract hwrite fun error e' he' => ?_)
    refine contract_showLoader (contract_inInputView ?_)
    refine governed_uploadNotification T.governs_contract he' ?_ (by simp)
    intro p hp
    rw [← Option.some.inj hp]
    exact hgood
  next => trivial

/-- Every action of the controllers in `Client` keeps the contract. -/
theorem Action.contract (a : Action) : a.program.Keeps T.contract := by
  intro e he
  by_cases hreads : a.reads = true
  · refine T.keeps_of_browses ?_ (a.browses_program aloof_aside hreads)
    cases a with
    | feedDidLoad c => exact keepsIn_feedDidLoad T.law
    | feedRefresh c => exact keepsIn_feedRefresh T.law
    | feedCell c cell row => exact keepsIn_feedCell
    | showProfile m uid => exact keepsIn_showProfile
    | profileRefresh m => exact keepsIn_profileRefresh
    | profileHeader m => exact keepsIn_profileHeader
    | profileCell m cell row => exact keepsIn_profileCell
    | profileSelect m row c => exact keepsIn_profileSelect T.law
    | inboxDidLoad n => exact keepsIn_inboxDidLoad
    | inboxRefresh n => exact keepsIn_inInbox keepsIn_inboxFetch
    | inboxCell n cell row => exact keepsIn_inInbox trivial
    | inboxPostTap n cell c => exact keepsIn_inboxPostTap T.law
    | searchDidLoad n => exact keepsIn_searchFetchPosts
    | searchCell n cell item => exact keepsIn_searchCell
    | searchSelect n item c => exact keepsIn_searchSelect T.law
    | _ => exact absurd hreads (by simp [Action.reads])
  · cases a with
    | tabDidLoad => exact contract_tabFetchUser he
    | likeTap c cell => exact contract_didTapLike he
    | optionsTap c cell => exact contract_wantsToShowOptions he
    | sheetTap k action => exact contract_didTapSheet he
    | commentsTap c cell d => exact contract_commentPush
    | postComment d comment => exact contract_postComment
    | pickImage c k image => exact contract_pickImage
    | shareTap k caption => exact contract_didTapDone he
    | headerTap m => exact contract_headerTap he
    | inboxFollowTap n cell => exact contract_inboxFollowTap he
    | _ => exact absurd rfl hreads

/-- The new account is one of the device, so its document may be stored. -/
theorem contract_handleSignUp {credentials : AuthCredentials} :
    (RegisterationViewController.handleSignUp credentials).KeepsIn T.contract e := by
  refine governed_registerUser T.governs_contract fun error e' he' => ?_
  cases error with
  | some error => trivial
  | none => exact contract_tabFetchUser he'

end Controllers

/-! ## The other screens -/

/-- The contract of a session, for all of its screens. -/
def Terms.screens (T : Terms) : Contract Request Response Turn Screens :=
  T.contract.within fun screens => T.contract.state screens.client

theorem Terms.governs_screens (T : Terms) : T.Governs T.screens := T.governs_within _

section Screens

/-- What keeps the contract in the tabs keeps it among all screens. -/
theorem screens_onClient {p : Program Client} (hp : p.KeepsIn T.contract e) :
    (onClient p).KeepsIn T.screens e := by
  unfold onClient Terms.screens
  refine Prog.KeepsIn.zoom ?_ ?_ hp
  · intro screens h client hclient
    rw [← Option.some.inj hclient]
    exact h
  · exact fun _ _ _ h => h

/-- An assignment to another screen. -/
theorem screens_elsewhere {f : Screens → Screens} {rest : Program Screens}
    (hf : ∀ screens, (f screens).client = screens.client) (hrest : rest.KeepsIn T.screens e) :
    (Prog.modify f rest : Program Screens).KeepsIn T.screens e := by
  refine ⟨fun screens h => ?_, hrest⟩
  show T.contract.state (f screens).client
  rw [hf]
  exact h

/-! ### Lists of users -/

theorem screens_listPush {n : Nat} {config : UserFilterConfig} :
    (UserList.push n config).KeepsIn T.screens e := by
  unfold UserList.push
  intro screens _
  dsimp only
  split
  next => trivial
  next => exact screens_elsewhere (fun _ => rfl) trivial

/-- A list of those who like the post of a cell. -/
theorem screens_pushLikes {c cell n : Nat} :
    (UserList.pushLikes c cell n).KeepsIn T.screens e := by
  unfold UserList.pushLikes
  intro screens _
  dsimp only
  split
  next => exact screens_listPush
  next => trivial

/-- A list of followers or followed of the user of a profile. -/
theorem screens_pushRelation {config : String → UserFilterConfig} {m n : Nat} :
    (UserList.pushRelation config m n).KeepsIn T.screens e := by
  unfold UserList.pushRelation
  intro screens _
  dsimp only
  split
  next => exact screens_listPush
  next => trivial

/-- One query of the collection, then one read for each user it lists. -/
theorem screens_fetchUsersFromCollection {n : Nat} {collection : Path}
    {completion : List User → Program Screens} (hk : ∀ users, (completion users).Keeps T.screens) :
    (UserService.fetchUsersFromCollection collection (Screens.fetched n) completion).KeepsIn
      T.screens e := by
  refine screens_elsewhere (fun _ => rfl) ?_
  refine governed_getDocuments T.governs_screens fun y _ e₁ _ => ?_
  split
  next => trivial
  next documents =>
    refine .forEach fun document _ => governed_fetchUser T.governs_screens fun user _ e₂ he₂ => ?_
    exact screens_elsewhere (fun _ => rfl) fun screens _ => hk _ e₂ he₂

theorem screens_fetchUsers {n : Nat} {config : UserFilterConfig}
    {completion : List User → Program Screens} (hk : ∀ users, (completion users).Keeps T.screens) :
    (UserService.fetchUsers config (Screens.fetched n) completion).KeepsIn T.screens e := by
  have hall : (UserService.fetchUsers .all (Screens.fetched n) completion).KeepsIn
      T.screens e := by
    refine governed_getDocuments T.governs_screens fun y _ => ?_
    split
    next => exact Prog.keeps_done
    next documents => exact hk _
  cases config with
  | followers uid => exact screens_fetchUsersFromCollection hk
  | following uid => exact screens_fetchUsersFromCollection hk
  | likes postId => exact screens_fetchUsersFromCollection hk
  | messages => exact hall
  | all => exact hall

/-- A list of users only reads. -/
theorem screens_listDidLoad {strings : StringOps} {n : Nat} :
    (UserList.fetchUsers strings n).KeepsIn T.screens e := by
  unfold UserList.fetchUsers
  intro screens _
  dsimp only
  split
  next => trivial
  next config _ =>
    split
    next => trivial
    next =>
      refine screens_elsewhere (fun _ => rfl) (screens_fetchUsers fun users _ _ => ?_)
      exact screens_elsewhere (fun _ => rfl) trivial

/-! ### Chats, conversations and comments -/

section Listeners

variable {ρ : Type} {watch : Var Screens (Watch ρ)}
  {assign : Turn → ρ → Option (List DocumentChange) → ρ}

/-- A snapshot changes the screen that listens. -/
theorem screens_snapshot (hset : ∀ w screens, (watch.set w screens).client = screens.client)
    {modified : List String} : (Watch.snapshot watch assign modified).KeepsIn T.screens e := by
  unfold Watch.snapshot
  intro screens _
  dsimp only
  split
  next => trivial
  next q _ =>
    refine governed_getDocuments T.governs_screens fun result _ e' _ => ?_
    rw [Prog.keepsIn_ask]
    exact screens_elsewhere (fun screens => hset _ screens) trivial

theorem screens_addSnapshotListener
    (hset : ∀ w screens, (watch.set w screens).client = screens.client) {q : Query} :
    (Watch.addSnapshotListener watch assign q).KeepsIn T.screens e :=
  screens_elsewhere (fun screens => hset _ screens) (screens_snapshot hset)

end Listeners

/-- A chat listens to the account's side of it. -/
theorem screens_chatPush (he : T.screens.env e) {k : Nat} {user : User} :
    (ChatController.push k user).KeepsIn T.screens e := by
  unfold ChatController.push
  intro screens _
  dsimp only
  split
  next => trivial
  next =>
    refine screens_elsewhere (fun _ => rfl) ?_
    unfold MessagingService.fetchMessages
    refine governed_withCurrentUid T.governs_screens he fun uid _ => ?_
    exact screens_addSnapshotListener fun _ _ => rfl

/-- A row opens a chat or a profile. -/
theorem screens_listSelect (he : T.screens.env e) {n row k : Nat} :
    (UserList.didSelectRowAt n row k).KeepsIn T.screens e := by
  unfold UserList.didSelectRowAt
  intro screens _
  dsimp only
  split
  next => exact screens_chatPush he
  next =>
    refine screens_onClient (T.keeps_of_browses keepsIn_profilePush ?_)
    exact browses_profilePush aloof_aside
  next => trivial

/-- What a chat does with its partner it does with anyone. -/
theorem screens_withUser {k : Nat} {body : User → Program Screens}
    (hbody : ∀ user, (body user).KeepsIn T.screens e) :
    (ChatController.withUser k body).KeepsIn T.screens e := by
  unfold ChatController.withUser
  intro screens _
  dsimp only
  split
  next user _ => exact hbody user
  next => trivial

/-- The conversations of the account are listened to. -/
theorem screens_conversationsDidLoad (he : T.screens.env e) {n : Nat} :
    (ConversationsController.fetchConversations n).KeepsIn T.screens e := by
  unfold ConversationsController.fetchConversations
  intro screens _
  dsimp only
  split
  next => trivial
  next =>
    unfold MessagingService.fetchRecentMessages
    refine governed_withCurrentUid T.governs_screens he fun uid _ => ?_
    exact screens_addSnapshotListener fun _ _ => rfl

/-- A row fetches the partner and opens the chat. -/
theorem screens_conversationsSelect {n row k : Nat} :
    (ConversationsController.didSelectRowAt n row k).KeepsIn T.screens e := by
  unfold ConversationsController.didSelectRowAt
  intro screens _
  dsimp only
  split
  next =>
    refine .andThen (screens_onClient (contract_showLoader trivial)) ?_
    refine governed_fetchUser T.governs_screens fun user _ e' he' => ?_
    exact .andThen (screens_onClient (contract_showLoader trivial)) (screens_chatPush he')
  next => trivial

/-- The comments of the post are listened to. -/
theorem screens_commentsDidLoad {d : Nat} :
    (CommentController.fetchComments d).KeepsIn T.screens e := by
  unfold CommentController.fetchComments
  intro screens _
  dsimp only
  split
  next => exact screens_addSnapshotListener fun _ _ => rfl
  next => trivial

theorem screens_commentsSelect {d row m : Nat} :
    (CommentController.didSelectItemAt d row m).KeepsIn T.screens e := by
  unfold CommentController.didSelectItemAt
  intro screens _
  dsimp only
  split
  next =>
    refine screens_onClient (T.keeps_of_browses keepsIn_showProfile ?_)
    exact browses_showProfile aloof_aside
  next => trivial

/-! ### Edits -/

/-- The editor opens only for whom it belongs to. -/
theorem screens_editPresent {m k : Nat} : (EditScreen.present m k).KeepsIn T.screens e := by
  unfold EditScreen.present
  intro screens _
  dsimp only
  split
  next =>
    rw [Prog.keepsIn_ask]
    split
    next => exact screens_elsewhere (fun _ => rfl) trivial
    next => trivial
  next => trivial

/-- A profile takes the user that the editor hands back. -/
theorem screens_wantsToUpdate {k : Nat} : (EditScreen.wantsToUpdate k).KeepsIn T.screens e := by
  unfold EditScreen.wantsToUpdate
  intro screens _
  dsimp only
  split
  next => exact screens_onClient (contract_setUser (fun _ => rfl) (fun _ => rfl) trivial)
  next => trivial

/-- The contract of an edit, of the user `uid` if there is one. -/
def Terms.edit (T : Terms) (uid : Option String) : Contract Request Response Turn EditSession :=
  T.contract.within fun session =>
    ∀ u ∈ uid, session.controller.user.uid = u ∧ session.profileUser.uid = u

theorem Terms.governs_edit (T : Terms) (uid : Option String) : T.Governs (T.edit uid) :=
  T.governs_within _

section Edit

variable {uid : Option String}

/-- The user stays the same, and so does the one of the profile, unless he is given the first. -/
theorem edit_assign {f : EditSession → EditSession} {rest : Program EditSession}
    (huser : ∀ session, (f session).controller.user.uid = session.controller.user.uid)
    (hprofile : ∀ session, (f session).profileUser = session.profileUser
      ∨ (f session).profileUser = session.controller.user)
    (hrest : rest.KeepsIn (T.edit uid) e) :
    (Prog.modify f rest : Program EditSession).KeepsIn (T.edit uid) e := by
  refine ⟨fun session hsession u hu => ?_, hrest⟩
  obtain ⟨h, h'⟩ := hsession u hu
  refine ⟨(huser session).trans h, ?_⟩
  rcases hprofile session with heq | heq
  · rw [heq]
    exact h'
  · rw [heq]
    exact h

/-- An assignment elsewhere in the session. -/
theorem edit_aside {f : EditSession → EditSession} {rest : Program EditSession}
    (hf : ∀ session, ((f session).controller.user.uid, (f session).profileUser)
      = (session.controller.user.uid, session.profileUser))
    (hrest : rest.KeepsIn (T.edit uid) e) :
    (Prog.modify f rest : Program EditSession).KeepsIn (T.edit uid) e :=
  edit_assign (fun session => congrArg Prod.fst (hf session))
    (fun session => Or.inl (congrArg Prod.snd (hf session))) hrest

/-- The delegate gets the controller's user. -/
theorem edit_wantsToUpdate : EditProfileController.wantsToUpdate.KeepsIn (T.edit uid) e :=
  edit_assign (fun _ => rfl) (fun _ => Or.inr rfl) trivial

/-- The picture is replaced in the name of the account; the user stays the same. -/
theorem edit_updateProfileImage (he : (T.edit uid).env e) :
    EditProfileController.updateProfileImage.KeepsIn (T.edit uid) e := by
  unfold EditProfileController.updateProfileImage
  intro session _
  dsimp only
  split
  next => trivial
  next image _ =>
    refine edit_aside (fun _ => rfl)
      (governed_updateProfileImage (T.governs_edit uid) he fun url error _ _ => ?_)
    refine edit_aside (fun _ => rfl) ?_
    cases error with
    | some error => exact edit_aside (fun _ => rfl) trivial
    | none =>
      cases url with
      | none => trivial
      | some url => exact edit_aside (fun _ => rfl) edit_wantsToUpdate

/-- A branch of the editor. -/
theorem edit_onlyIf {condition : EditProfileController → Bool}
    {body : EditProfileController → Program EditSession}
    (h : ∀ controller, (body controller).KeepsIn (T.edit uid) e) :
    (EditProfileController.onlyIf condition body).KeepsIn (T.edit uid) e := by
  intro session _
  dsimp only
  split
  next => exact h _
  next => trivial

/-- Picture only, data only, or the data and then the picture. -/
theorem edit_updateUserData (he : (T.edit uid).env e) :
    EditProfileController.updateUserData.KeepsIn (T.edit uid) e := by
  refine .andThen (edit_onlyIf fun _ => edit_updateProfileImage he)
    (.andThen (edit_onlyIf fun controller => ?_) (edit_onlyIf fun controller => ?_))
  · refine edit_aside (fun _ => rfl)
      (governed_saveUserData (T.governs_edit uid) he fun _ _ _ => ?_)
    exact edit_aside (fun _ => rfl) edit_wantsToUpdate
  -- the picture goes after the data, in the completion
  · exact edit_aside (fun _ => rfl)
      (governed_saveUserData (T.governs_edit uid) he fun _ _ he' => edit_updateProfileImage he')

/-- All actions of the editor keep the contract. -/
theorem EditAction.contract (he : (T.edit uid).env e) (a : EditAction) :
    a.program.KeepsIn (T.edit uid) e := by
  have hinfo : ∀ option text,
      (EditProfileController.updateUserInfo option text).KeepsIn (T.edit uid) e := by
    intro option text
    refine edit_aside (fun _ => rfl) ?_
    cases text with
    | none => trivial
    | some text => exact edit_aside (fun _ => by cases option <;> rfl) trivial
  cases a with
  | editingDidEnd option text => exact hinfo option text
  | imagePicked image => exact edit_aside (fun _ => rfl) trivial
  -- the field that has the focus ends its editing first
  | doneTap focused =>
    refine .andThen ?_ (edit_onlyIf fun _ => edit_updateUserData he)
    cases focused with
    | none => trivial
    | some x => exact hinfo x.1 x.2
  | setUserFCMToken => exact governed_setUserFCMToken (T.governs_edit uid) he

end Edit

/-- So they do on the screen they are on. -/
theorem screens_onEdit {k : Nat} {p : Program EditSession} (hp : p.KeepsIn (T.edit none) e) :
    (onEdit k p).KeepsIn T.screens e := by
  intro screens _
  dsimp only
  split
  next =>
    refine Prog.KeepsIn.zoom (C := T.edit none) ?_ ?_ hp
    · exact fun _ _ _ _ _ h => absurd h (by simp)
    · exact fun _ _ h _ => h
  next => trivial

/-- **The app keeps to its inventory.** Every action of every screen, with all its callbacks,
keeps the contract. -/
theorem ScreenAction.keeps (strings : StringOps) (a : ScreenAction) :
    (a.program strings).Keeps T.screens := by
  intro e he
  cases a with
  | app a => exact screens_onClient (a.contract e he)
  | register credentials => exact screens_onClient contract_handleSignUp
  | tabProfile m =>
    refine screens_onClient (T.keeps_of_browses ?_ (browses_tabProfile aloof_aside))
    unfold MainTabController.showProfile
    intro client _
    dsimp only
    split
    next => exact keepsIn_profilePush
    next => trivial
  | feedProfile c cell m =>
    refine screens_onClient (T.keeps_of_browses ?_ (browses_feedProfile aloof_aside))
    unfold FeedController.wantsToShowProfileFor
    intro client _
    dsimp only
    split
    next => exact keepsIn_showProfile
    next => trivial
  | feedLikes c cell n => exact screens_pushLikes
  | inboxSelect n row m =>
    refine screens_onClient (T.keeps_of_browses ?_ (browses_inboxSelect aloof_aside))
    unfold NotificationsController.didSelectRowAt
    intro client _
    dsimp only
    split
    next =>
      refine keepsIn_showLoader (keepsIn_fetchUser fun user _ _ => ?_)
      exact keepsIn_showLoader keepsIn_profilePush
    next => trivial
  | profileFollowers m n => exact screens_pushRelation
  | profileFollowing m n => exact screens_pushRelation
  | searchTab n => exact screens_listPush
  | newMessage n => exact screens_listPush
  | usersDidLoad n => exact screens_listDidLoad
  | usersSearch n isActive text => exact screens_elsewhere (fun _ => rfl) trivial
  | usersCancel n => exact screens_elsewhere (fun _ => rfl) trivial
  | usersSelect n row k => exact screens_listSelect he
  | commentsDidLoad d => exact screens_commentsDidLoad
  | commentsSnapshot d modified => exact screens_snapshot fun _ _ => rfl
  | commentsSelect d row m => exact screens_commentsSelect
  | conversationsDidLoad n => exact screens_conversationsDidLoad he
  | conversationsSnapshot n modified => exact screens_snapshot fun _ _ => rfl
  | conversationsSelect n row k => exact screens_conversationsSelect
  | chatSnapshot k modified => exact screens_snapshot fun _ _ => rfl
  | chatSend k text =>
    exact screens_withUser fun user =>
      governed_uploadMessage T.governs_screens he fun _ => Prog.keeps_done
  | editPresent m k => exact screens_editPresent
  | edit k a => exact screens_onEdit (a.contract he)
  | editUpdate k => exact screens_wantsToUpdate
  | chatDelete k =>
    exact screens_withUser fun user =>
      governed_deleteMessages T.governs_screens he fun _ => Prog.keeps_done
  | feedAfterFollowing m =>
    refine screens_onClient ?_
    intro client _
    dsimp only
    split
    next => exact governed_updateUserFeedAfterFollowing T.governs_contract he
    next => trivial

end Screens

end InstaClone
