import Mathlib.Data.List.Induction
import InstaClone.Async.Replies
import InstaClone.Likes
import InstaClone.Relations

/-!
# Lists of users and the displayed statistics

What `fetchUsers(forConfig:)` and `fetchUserStats` show of the two relations, after any
history of follows and likes. Each is a query, and the lists fan out into one `fetchUser`
per member whose callback appends to a captured variable (`Async.Gather`), so the last
list handed out has every member of the queried collection once, in the order of the
replies.

The lists are right when the queried collection is the one the writers keep. It is for
`.following` and `.likes`, once both halves of the relations agree. For `.followers` it is
not: `fetchUsers` reads `user-follwers`, `follow` writes `user-followers`.
-/

namespace InstaClone

open Async
open Async.Mirror (Alone)

/-! ## The requests -/

/-- What the caller of a list or of the statistics keeps: the variable `fetchUsers`
captures, the last list its completion got, and the statistics. -/
structure Listing where
  users : List User := []
  last : Option (List User) := none
  stats : Option UserStats := none

/-- `var users` of `fetchUsers(fromCollection:)`. -/
def Listing.captured : Var Listing (List User) where
  get := Listing.users
  set users x := { x with users := users }

/-- The number of users in the list shown. -/
def Listing.length (x : Listing) : Nat := (x.last.getD []).length

/-- A request for a list: nothing is shown until the completion gets one. -/
def listRequest (config : UserFilterConfig) : Program Listing :=
  .modify (fun x => { x with last := none })
    (UserService.fetchUsers config Listing.captured fun users =>
      .modify (fun x => { x with last := some users }) .done)

/-- A request for the statistics of `uid`. -/
def statsRequest (uid : String) : Program Listing :=
  UserService.fetchUserStats uid fun stats =>
    .modify (fun x => { x with stats := some stats }) .done

/-- The three lists that are about a relation. -/
inductive RelationList where
  | followers (uid : String)
  | following (uid : String)
  | likes (postId : String)

namespace RelationList

/-- The list as `fetchUsers(forConfig:)` takes it. -/
def config : RelationList → UserFilterConfig
  | followers uid => .followers uid
  | following uid => .following uid
  | likes postId => .likes postId

/-- The collection `fetchUsers(forConfig:)` reads. -/
def collection : RelationList → Path
  | followers uid => ["followers", uid, "user-follwers"]
  | following uid => ["following", uid, "user-following"]
  | likes postId => ["posts", postId, "post-likes"]

/-- The users who should be in the list. -/
def Matches (b : Backend) : RelationList → String → Prop
  | followers uid, a => b.exists ["following", a, "user-following", uid] = true
  | following uid, a => b.exists ["following", uid, "user-following", a] = true
  | likes postId, a => b.exists ["users", a, "user-likes", postId] = true

/-- The last list handed out has each matching user once and nobody else; if there is
none, no user matches. -/
def Exact (b : Backend) (l : RelationList) : Option (List User) → Prop
  | none => ∀ u, ¬ l.Matches b u
  | some users => (users.map User.uid).Nodup ∧ ∀ u, u ∈ users.map User.uid ↔ l.Matches b u

end RelationList

/-- Every user that the two relations mention has a document with his uid. -/
def Backend.HasUsers (b : Backend) : Prop :=
  ∀ l : RelationList, ∀ u ∈ b.docs.ids l.collection,
    ∃ d, b.docs.lookup ["users", u] = some d ∧ d.string "uid" = some u

/-! ## The fan-out of a list -/

/-- The user read from the document of `uid`. -/
def Backend.user (b : Backend) (uid : String) : User :=
  User.init ((b.docs.lookup ["users", uid]).getD (dict []))

theorem Backend.user_uid {b : Backend} {uid : String} {d : Doc}
    (hd : b.docs.lookup ["users", uid] = some d) (huid : d.string "uid" = some uid) :
    (b.user uid).uid = uid := by
  show (((b.docs.lookup ["users", uid]).getD (dict [])).string "uid").getD "" = uid
  rw [hd, Option.getD_some, huid, Option.getD_some]

/-- The callback of `fetchUser` in `fetchUsers(fromCollection:)`. -/
def appendUser (user : User) : Program Listing :=
  .modify (fun x => { x with users := x.users ++ [user] })
    (.read fun x => .modify (fun y => { y with last := some x.users }) .done)

/-- One `fetchUser` per uid, over the backend `b`. -/
def gatherUsers (b : Backend) : Gather Request Response Turn Listing String where
  ask uid := .getDocument ["users", uid]
  got uid := appendUser (b.user uid)
  collect x uid _ :=
    { x with users := x.users ++ [b.user uid], last := some (x.users ++ [b.user uid]) }
  got_exec _ _ _ := rfl

/-- What has been collected is the list of users, and the last list handed out. -/
theorem collectAll_users (b : Backend) (received : List (String × Turn)) (x : Listing) :
    ((gatherUsers b).collectAll x received).users
        = x.users ++ (received.map Prod.fst).map b.user
      ∧ ((gatherUsers b).collectAll x received).last
        = if received.map Prod.fst = [] then x.last
          else some (x.users ++ (received.map Prod.fst).map b.user) := by
  induction received using List.reverseRecOn with
  | nil => exact ⟨by simp, by simp⟩
  | append_singleton received item ih =>
    obtain ⟨husers, -⟩ := ih
    have hcollect : ((gatherUsers b).collectAll x (received ++ [item])).users
        = x.users ++ ((received ++ [item]).map Prod.fst).map b.user := by
      rw [Gather.collectAll_snoc]
      show ((gatherUsers b).collectAll x received).users ++ [b.user item.1] = _
      rw [husers]
      simp
    refine ⟨hcollect, ?_⟩
    rw [if_neg (by simp), ← hcollect, Gather.collectAll_snoc]
    rfl

/-- The callback of the query of `fetchUsers(fromCollection:)`. -/
def fetchMembers (snapshot : Option (List (String × Doc))) : Program Listing :=
  match snapshot with
  | none => .done
  | some documents => .forEach documents fun document => UserService.fetchUser document.1 appendUser

/-- A listing before its list is asked for. -/
def Listing.cleared (x : Listing) : Listing := { x with users := [], last := none }

/-- One turn of a request for a list: it clears the listing and issues the query. -/
theorem exec_listRequest (l : RelationList) (e : Turn) (x : Listing) :
    (listRequest l.config).exec e x
      = (x.cleared, [.issued (.getDocuments { collection := l.collection }) fetchMembers]) := by
  cases l <;> rfl

/-- The callback of one `fetchUser`. -/
def didFetchUser (snapshot : Option Snapshot) : Program Listing :=
  match snapshot.bind (·.data) with
  | none => .done
  | some dictionary => appendUser (User.init dictionary)

/-- The loop over the members issues one `fetchUser` for each. -/
theorem exec_fetchMembers (documents : List (String × Doc)) (e : Turn) (x : Listing) :
    (fetchMembers (some documents)).exec e x
      = (x, (documents.map Prod.fst).map fun uid =>
          .issued (.getDocument ["users", uid]) didFetchUser) := by
  dsimp only [fetchMembers]
  have hone : ∀ document : String × Doc, (UserService.fetchUser document.1 appendUser).exec e x
      = (x, [.issued (.getDocument ["users", document.1]) didFetchUser]) := fun _ => rfl
  rw [Prog.exec_forEach_issue hone, List.map_map]
  rfl

/-- A `fetchUser` of a user with a document is answered with that document. -/
theorem awaits_fetchUser {b : Backend} {uid : String} {d : Doc}
    (hd : b.docs.lookup ["users", uid] = some d) :
    (gatherUsers b).Awaits api (fun o => o.isSuccess = true) b
      (.issued (.getDocument ["users", uid]) didFetchUser) uid := by
  refine .asked (G := gatherUsers b) fun o b' y ho h => ?_
  cases o with
  | failure error => exact absurd ho (by simp [Outcome.isSuccess])
  | success names =>
    have hanswer :
        some (b, some (⟨uid, b.docs.lookup ["users", uid]⟩ : Snapshot)) = some (b', y) := h
    obtain ⟨rfl, rfl⟩ := Prod.mk.inj (Option.some.inj hanswer)
    refine ⟨rfl, ?_⟩
    show didFetchUser (some ⟨uid, b.docs.lookup ["users", uid]⟩) = appendUser (b.user uid)
    unfold Backend.user
    rw [hd]
    rfl

section Requests

variable {S A : Type} [DecidableEq S] {uidOf : S → String} {act : A → Program Listing}

/-- `x` is what a session holds after the request `p` was made in `w`, with nothing else
going on, and all its replies have come, in any order. -/
def Answered (uidOf : S → String) (act : A → Program Listing) (w : AppWorld Listing S)
    (p : Program Listing) (x : Listing) : Prop :=
  ∃ s e es w', SignedIn uidOf s e
    ∧ Run api act (Replying (SignedIn uidOf) fun o => o.isSuccess = true) (w.turn s p e []) es w'
    ∧ w'.Quiescent ∧ w'.client s = x

/-- A query made alone is answered with the selected documents, and the run goes on from
its callback over the same backend. -/
theorem Run.query {w w' : AppWorld Listing S} {s : S} {q : Query}
    {k : Option (List (String × Doc)) → Program Listing}
    (hpool : w.pool = [(s, .issued (.getDocuments q) k)]) {es : List (AppEvent S A)}
    (run : Run api act (Replying (SignedIn uidOf) fun o => o.isSuccess = true) w es w')
    (hquiet : w'.Quiescent) :
    ∃ docs e es', docs.Perm (q.results w.backend.docs) ∧ SignedIn uidOf s e
      ∧ Run api act (Replying (SignedIn uidOf) fun o => o.isSuccess = true)
        (({ w with pool := [] } : AppWorld Listing S).turn s (k (some docs)) e []) es' w' := by
  obtain ⟨o, b, y, e, es', ho, hserve, he, run'⟩ := run.solo hpool hquiet
  obtain ⟨rfl, docs, rfl, hperm⟩ := serve_getDocuments_success ho hserve
  exact ⟨docs, e, es', hperm, he, run'⟩

/-- **A list, whatever the order of the replies**: the last list handed out has each
member of the queried collection once. -/
theorem list_answered {w : AppWorld Listing S} {l : RelationList} {x : Listing}
    (husers : w.backend.HasUsers) (h : Answered uidOf act w (listRequest l.config) x) :
    ∃ received : List String, received.Perm (w.backend.docs.ids l.collection)
      ∧ x.last = if received = [] then none else some (received.map w.backend.user) := by
  obtain ⟨s, e, es, w', he, run, hquiet, rfl⟩ := h
  have hpool : (w.turn s (listRequest l.config) e []).pool
      = [(s, .issued (.getDocuments { collection := l.collection }) fetchMembers)] := by
    rw [World.turn_pool, exec_listRequest]
    rfl
  have hclient : (w.turn s (listRequest l.config) e []).client s = (w.client s).cleared := by
    rw [World.turn_client, if_pos rfl, exec_listRequest]
  obtain ⟨docs, e₁, es₁, hperm, he₁, run₁⟩ := Run.query hpool run hquiet
  rw [Query.results_all] at hperm
  have hids : (docs.map Prod.fst).Perm (w.backend.docs.ids l.collection) := hperm.map Prod.fst
  have hrunning : (gatherUsers w.backend).Running api (fun o => o.isSuccess = true) w.backend s
      (w.client s).cleared (docs.map Prod.fst)
      (({ w.turn s (listRequest l.config) e [] with pool := [] } : AppWorld Listing S).turn s
        (fetchMembers (some docs)) e₁ []) := by
    refine Gather.Running.start rfl (by rw [exec_fetchMembers, hclient]) fun uid huid => ?_
    obtain ⟨d, hd, -⟩ := husers l uid (hids.mem_iff.mp huid)
    exact awaits_fetchUser hd
  obtain ⟨received, hreceived, hlast⟩ := hrunning.settled run₁ hquiet
  refine ⟨received.map Prod.fst, hreceived.trans hids, ?_⟩
  rw [hlast, (collectAll_users w.backend received _).2]
  rfl

/-- **The statistics**: how many documents the two collections of the user have. -/
theorem stats_answered {w : AppWorld Listing S} {uid : String} {x : Listing}
    (h : Answered uidOf act w (statsRequest uid) x) :
    ∃ stats, x.stats = some stats
      ∧ stats.followers = (w.backend.docs.ids ["followers", uid, "user-followers"]).length
      ∧ stats.following = (w.backend.docs.ids ["following", uid, "user-following"]).length := by
  obtain ⟨s, e, es, w', he, run, hquiet, rfl⟩ := h
  have hlength : ∀ {coll : Path} {docs : List (String × Doc)},
      docs.Perm (Query.results { collection := coll } w.backend.docs) →
        docs.length = (w.backend.docs.ids coll).length := by
    intro coll docs hperm
    rw [Query.results_all] at hperm
    rw [hperm.length_eq, Store.ids, List.length_map]
  obtain ⟨followers, e₁, es₁, hfollowers, -, run₁⟩ := Run.query rfl run hquiet
  obtain ⟨following, e₂, es₂, hfollowing, -, run₂⟩ := Run.query rfl run₁ hquiet
  obtain ⟨posts, e₃, es₃, -, -, run₃⟩ := Run.query rfl run₂ hquiet
  have hend := run₃.idle rfl
  refine ⟨⟨followers.length, following.length, posts.length⟩, ?_, hlength hfollowers,
    hlength hfollowing⟩
  rw [hend, World.turn_client, if_pos rfl]
  rfl

end Requests

/-! ## Histories -/

section Histories

variable {S : Type} [DecidableEq S] {uidOf : S → String}
  {completion : RelationCall → Option Error → Program Listing}

/-- When a session starts a `likePost`, or an `unlikePost` that gets past its guard, no
other session has one of the same user and post in flight. -/
def LikesAlone (uidOf : S → String) (w : AppWorld Listing S) : AppEvent S RelationCall → Prop
  | .invoke s (.likePost post) _ => Alone (likeMark (uidOf s) post.postId) (SignedIn uidOf) s w
  | .invoke s (.unlikePost post) _ =>
    post.likes > 0 → Alone (likeMark (uidOf s) post.postId) (SignedIn uidOf) s w
  | _ => True

/-- The side condition of a history: no write fails, and the calls of one user on one
target or post do not overlap across sessions. -/
def History (uidOf : S → String) (w : AppWorld Listing S) (ev : AppEvent S RelationCall) : Prop :=
  Plain uidOf w ev ∧ FollowsAlone uidOf w ev ∧ LikesAlone uidOf w ev

/-- The caller's completions write neither relation, nor under the collection that only
`fetchUsers(forConfig: .followers)` and `deletePost` read. -/
structure Aside (uidOf : S → String)
    (completion : RelationCall → Option Error → Program Listing) : Prop where
  neutral : Neutral uidOf completion
  spelled : ∀ c y s, (completion c y).Keeps (conduct (SignedIn uidOf s) (fun _ => True)
    (fun _ => True) fun _ w => ∀ u a, w.path ≠ ["followers", u, "user-follwers", a])

/-- What histories start from and keep: equal halves, and nothing in the collection that
nobody writes. -/
structure Backend.Related (b : Backend) : Prop where
  follows : ∀ a u, b.exists ["following", a, "user-following", u]
    = b.exists ["followers", u, "user-followers", a]
  likes : ∀ u p, b.exists ["posts", p, "post-likes", u] = b.exists ["users", u, "user-likes", p]
  unwritten : ∀ u a, b.exists ["followers", u, "user-follwers", a] = false

omit [DecidableEq S] in
/-- The four calls write nothing under `user-follwers`. -/
theorem RelationCall.keeps_spelled (haside : Aside uidOf completion) (s : S) (c : RelationCall) :
    (c.program completion).Keeps (conduct (SignedIn uidOf s) (fun _ => True) (fun _ => True)
      fun _ w => ∀ u a, w.path ≠ ["followers", u, "user-follwers", a]) := by
  intro e _
  have hk := fun y => haside.spelled c y s
  cases c with
  | follow b =>
    refine keepsIn_follow ?_ ?_ hk
    · intro uid _ u a
      simp
    · intro uid _ _ _ u a
      simp
  | unfollow b =>
    refine keepsIn_unfollow ?_ ?_ hk
    · intro uid _ u a
      simp
    · intro uid _ _ _ u a
      simp
  | likePost post =>
    refine keepsIn_likePost ?_ ?_ ?_ hk
    · intro u a
      simp
    · intro uid _ u a
      simp
    · intro uid _ _ _ u a
      simp
  | unlikePost post =>
    refine keepsIn_unlikePost ?_ ?_ ?_ fun _ => hk
    · intro _ u a
      simp
    · intro uid _ u a
      simp
    · intro uid _ _ _ u a
      simp

/-- **Histories keep the relations**: whenever nothing is in flight the halves agree and
the misspelt collection is empty. -/
theorem related_history (haside : Aside uidOf completion) {w₀ w : AppWorld Listing S}
    (hrest : w₀.Quiescent) (hrelated : w₀.backend.Related) {es : List (AppEvent S RelationCall)}
    (run : Run api (RelationCall.program completion) (History uidOf) w₀ es w)
    (hquiet : w.Quiescent) : w.backend.Related := by
  refine ⟨fun a u => ?_, fun u p => ?_, ?_⟩
  · have htracked := tracked_run ["following", a, "user-following", u]
      ["followers", u, "user-followers", a] (by simp) (fun uid => followStarts uid a u)
      (P := fun s => uidOf s = a)
      (fun s turn c x hturn => follow_stages haside.neutral hturn a u c x) (fun _ _ hok => hok.1)
      (fun s c hc => (followStarts_isSome hc).1)
      (fun w s c turn hok hc => by
        left
        obtain ⟨rfl, rfl | rfl⟩ := followStarts_isSome hc
        · exact hok.2.1
        · exact hok.2.1)
      (tracked_atRest hrest (hrelated.follows a u)) run
    obtain ⟨hnear, hfar⟩ := htracked.settled hquiet
    exact hnear.trans hfar.symm
  · have htracked := tracked_run ["posts", p, "post-likes", u] ["users", u, "user-likes", p]
      (by simp) (fun uid => likeStarts uid u p) (P := fun s => uidOf s = u)
      (fun s turn c x hturn => like_stages haside.neutral hturn u p c x) (fun _ _ hok => hok.1)
      (fun s c hc => likeStarts_isSome hc)
      (fun w s c turn hok hc => by
        left
        obtain ⟨rfl, hcall⟩ := likeStarts_cases hc
        rcases hcall with ⟨post, rfl, rfl⟩ | ⟨post, rfl, rfl, hlikes⟩
        · exact hok.2.2
        · exact hok.2.2 hlikes)
      (tracked_atRest hrest (hrelated.likes u p)) run
    obtain ⟨hnear, hfar⟩ := htracked.settled hquiet
    exact hnear.trans hfar.symm
  · have hinit : w₀.Keeps (fun s => conduct (SignedIn uidOf s) (fun _ => True) (fun _ => True)
        fun _ w => ∀ u a, w.path ≠ ["followers", u, "user-follwers", a])
        fun b => ∀ u a, b.exists ["followers", u, "user-follwers", a] = false := by
      refine ⟨hrelated.unwritten, fun _ => trivial, fun x hx => ?_⟩
      rw [hrest] at hx
      exact absurd hx (by simp)
    refine (hinit.run run ?_ ?_ fun _ _ hok => hok.1.1).backend
    · intro s b e r o b' y hb _ hreq h
      refine ⟨fun u a => ?_, ?_⟩
      · show (b'.docs.lookup _).isSome = false
        rw [serve_lookup_ne h fun w hw => (hreq w hw u a).symm]
        exact hb u a
      · exact repliesWith_true r y
    · intro w ev _
      cases ev with
      | invoke s c e => exact c.keeps_spelled haside s
      | serve i o => trivial
      | deliver i e => trivial
      | drop i => trivial

end Histories

/-! ## Lists and statistics after a history -/

section Law

variable {S A : Type} [DecidableEq S] {uidOf : S → String}
  {completion : RelationCall → Option Error → Program Listing} {act : A → Program Listing}

/-- Membership in a queried collection is a document in it. -/
theorem Backend.mem_ids {b : Backend} {coll : Path} {u : String} :
    u ∈ b.docs.ids coll ↔ b.exists (coll ++ [u]) = true := Store.mem_ids

/-- A list whose collection has the matching users is exact. -/
theorem RelationList.Exact.of_answered {w : AppWorld Listing S} {l : RelationList} {x : Listing}
    (husers : w.backend.HasUsers) (h : Answered uidOf act w (listRequest l.config) x)
    (hmatches : ∀ u, u ∈ w.backend.docs.ids l.collection ↔ l.Matches w.backend u) :
    l.Exact w.backend x.last := by
  obtain ⟨received, hperm, hlast⟩ := list_answered husers h
  rw [hlast]
  split
  next hnil =>
    rw [hnil] at hperm
    intro u hu
    rw [← hmatches u, ← hperm.mem_iff] at hu
    exact absurd hu (by simp)
  next =>
    have huids : (received.map w.backend.user).map User.uid = received := by
      rw [List.map_map]
      refine (List.map_congr_left fun u hu => ?_).trans (List.map_id received)
      obtain ⟨d, hd, huid⟩ := husers l u (hperm.mem_iff.mp hu)
      exact Backend.user_uid hd huid
    show (List.map User.uid _).Nodup ∧ ∀ u, u ∈ List.map User.uid _ ↔ l.Matches w.backend u
    rw [huids]
    exact ⟨hperm.nodup_iff.mpr (w.backend.docs.nodup_ids _), fun u => by
      rw [hperm.mem_iff, hmatches]⟩

/-- The length of a list is the number of members of its collection. -/
theorem length_answered {w : AppWorld Listing S} {l : RelationList} {x : Listing}
    (husers : w.backend.HasUsers) (h : Answered uidOf act w (listRequest l.config) x) :
    x.length = (w.backend.docs.ids l.collection).length := by
  obtain ⟨received, hperm, hlast⟩ := list_answered husers h
  unfold Listing.length
  rw [hlast, ← hperm.length_eq]
  split
  next hnil => rw [hnil]; rfl
  next => rw [Option.getD_some, List.length_map]

/-- **Lists and statistics against the relations.** After any history, with nothing in
flight and every listed user having his document, for every order of the replies: the
following list and the likes list are exact and the statistics count what they should,
and all of the law holds, the followers list included, exactly when nobody follows the
user. -/
theorem userLists_exact_iff (haside : Aside uidOf completion) {w₀ w : AppWorld Listing S}
    (hrest : w₀.Quiescent) (hrelated : w₀.backend.Related) {es : List (AppEvent S RelationCall)}
    (run : Run api (RelationCall.program completion) (History uidOf) w₀ es w)
    (hquiet : w.Quiescent) (husers : w.backend.HasUsers) (uid postId : String)
    {x y z t : Listing}
    (hfollowers : Answered uidOf act w (listRequest (.followers uid)) x)
    (hfollowing : Answered uidOf act w (listRequest (.following uid)) y)
    (hlikes : Answered uidOf act w (listRequest (.likes postId)) z)
    (hstats : Answered uidOf act w (statsRequest uid) t) :
    ((RelationList.followers uid).Exact w.backend x.last
        ∧ (RelationList.following uid).Exact w.backend y.last
        ∧ (RelationList.likes postId).Exact w.backend z.last
        ∧ ∃ stats, t.stats = some stats ∧ stats.followers = x.length ∧ stats.following = y.length)
      ↔ ∀ a, w.backend.exists ["following", a, "user-following", uid] = false := by
  have hrel := related_history haside hrest hrelated run hquiet
  have hnone : w.backend.docs.ids (RelationList.followers uid).collection = [] := by
    refine List.eq_nil_iff_forall_not_mem.mpr fun a ha => ?_
    rw [Backend.mem_ids] at ha
    have hunwritten := hrel.unwritten uid a
    exact absurd (hunwritten.symm.trans ha) (by simp)
  have hlast : x.last = none := by
    obtain ⟨received, hperm, hlast⟩ := list_answered (l := .followers uid) husers hfollowers
    rw [hnone] at hperm
    rw [hlast, if_pos (List.Perm.eq_nil hperm)]
  constructor
  · intro h a
    have hexact := h.1
    rw [hlast] at hexact
    exact Bool.eq_false_iff.mpr (hexact a)
  · intro hnobody
    refine ⟨?_, ?_, ?_, ?_⟩
    · rw [hlast]
      intro a ha
      exact absurd ((hnobody a).symm.trans ha) (by simp)
    · exact .of_answered husers hfollowing fun u => Backend.mem_ids
    · refine .of_answered husers hlikes fun u => ?_
      rw [Backend.mem_ids]
      show w.backend.exists ["posts", postId, "post-likes", u] = true ↔ _
      rw [hrel.likes]
      rfl
    · obtain ⟨stats, hstats, hcount, hcount'⟩ := stats_answered hstats
      refine ⟨stats, hstats, ?_, ?_⟩
      · have hfans : w.backend.docs.ids ["followers", uid, "user-followers"] = [] := by
          refine List.eq_nil_iff_forall_not_mem.mpr fun a ha => ?_
          rw [Backend.mem_ids] at ha
          have hfollows := hrel.follows a uid
          exact absurd ((hnobody a).symm.trans (hfollows.trans ha)) (by simp)
        rw [hcount, hfans, Listing.length, hlast]
        rfl
      · rw [hcount', length_answered (l := .following uid) husers hfollowing]
        rfl

end Law

/-! ## `a` follows `b` and likes `p` -/

/-- The town with listings as client states. -/
def townListing : AppWorld Listing String := atRest town fun _ => {}

/-- `a` follows `b` and then likes `p`; each call runs until it is done. -/
def followAndLike : List (AppEvent String RelationCall) :=
  [.invoke "a" (.follow "b") (turnOf "a"), .serve 0 (.success []), .deliver 0 (turnOf "a"),
    .serve 0 (.success []), .deliver 0 (turnOf "a"),
    .invoke "a" (.likePost (heldPost 0)) (turnOf "a"), .serve 0 (.success []),
    .serve 1 (.success []), .deliver 0 (turnOf "a"), .deliver 0 (turnOf "a"),
    .serve 0 (.success []), .deliver 0 (turnOf "a")]

/-- The replies to a list request: the query returns `names`, each member is fetched. -/
def listReplies (names : List String) : List (AppEvent String RelationCall) :=
  [.serve 0 (.success names), .deliver 0 (turnOf "a")]
    ++ names.flatMap fun _ => [.serve 0 (.success []), .deliver 0 (turnOf "a")]

/-- The replies to a request for the statistics. -/
def statsReplies (followers following posts : List String) :
    List (AppEvent String RelationCall) :=
  [.serve 0 (.success followers), .deliver 0 (turnOf "a"), .serve 0 (.success following),
    .deliver 0 (turnOf "a"), .serve 0 (.success posts), .deliver 0 (turnOf "a")]

/-- Does `p` made in `w` by `a` come to an end, with these replies, in a listing with `P`? -/
def answers (w : AppWorld Listing String) (p : Program Listing)
    (es : List (AppEvent String RelationCall)) (P : Listing → Prop) [DecidablePred P] : Bool :=
  (play api (RelationCall.program fun _ => noCompletion)
    (Replying (SignedIn id) fun o => o.isSuccess = true) (w.turn "a" p (turnOf "a") []) es).any
    fun w' => decide (w'.Quiescent ∧ P (w'.client "a"))

/-- An evaluation exhibits an answer. -/
theorem answered_of_answers {w : AppWorld Listing String} {p : Program Listing}
    {es : List (AppEvent String RelationCall)} {P : Listing → Prop} [DecidablePred P]
    (h : answers w p es P = true) :
    ∃ x, Answered id (RelationCall.program fun _ => noCompletion) w p x ∧ P x := by
  obtain ⟨w', run, hquiet, hP⟩ := exists_run_of_play h
  exact ⟨_, ⟨"a", turnOf "a", es, w', rfl, run, hquiet, rfl⟩, hP⟩

/-- The town starts with no follows and no likes. -/
theorem town_related : town.Related := by
  have hkeys : town.docs.keys = [["posts", "p"], ["users", "b"], ["users", "a"]] := rfl
  have hnone : ∀ c u coll a, town.exists [c, u, coll, a] = false := by
    intro c u coll a
    refine Backend.exists_eq_false ?_
    rw [hkeys]
    simp
  exact ⟨fun a u => by rw [hnone, hnone], fun u p => by rw [hnone, hnone], fun u a => hnone ..⟩

/-- A caller without completions writes nothing. -/
theorem aside_noCompletion : Aside (S := String) id fun _ => noCompletion :=
  ⟨neutral_noCompletion _, fun _ _ _ => Prog.keeps_done⟩

/-- What one session does at a time is a history. -/
theorem OneAtATime.history {w₀ w : AppWorld Listing String}
    {es : List (AppEvent String RelationCall)}
    (run : Run api (RelationCall.program fun _ => noCompletion)
      (fun w ev => Plain (fun x : String => x) w ev ∧ OneAtATime w ev) w₀ es w) :
    Run api (RelationCall.program fun _ => noCompletion) (History id) w₀ es w := by
  refine run.mono fun w ev hok => ⟨hok.1, ?_⟩
  cases ev with
  | invoke s c e =>
    cases c with
    | follow b => exact ⟨hok.2.alone, trivial⟩
    | unfollow b => exact ⟨hok.2.alone, trivial⟩
    | likePost post => exact ⟨trivial, hok.2.alone⟩
    | unlikePost post => exact ⟨trivial, fun _ => hok.2.alone⟩
  | serve i o => exact ⟨trivial, trivial⟩
  | deliver i e => exact ⟨trivial, trivial⟩
  | drop i => exact ⟨trivial, trivial⟩

/-- What is stored after `followAndLike`. -/
def afterFollowAndLike : List Path :=
  [["users", "a", "user-likes", "p"], ["posts", "p", "post-likes", "a"], ["posts", "p"],
    ["followers", "b", "user-followers", "a"], ["following", "a", "user-following", "b"],
    ["users", "b"], ["users", "a"]]

/-- After `followAndLike` every listed user has his document. -/
theorem hasUsers_of_keys {b : Backend} (hkeys : b.docs.keys = afterFollowAndLike)
    (ha : (b.docs.lookup ["users", "a"]).bind (·.string "uid") = some "a")
    (hb : (b.docs.lookup ["users", "b"]).bind (·.string "uid") = some "b") : b.HasUsers := by
  intro l u hu
  have hstored : l.collection ++ [u] ∈ afterFollowAndLike := by
    rw [← hkeys, ← AList.mem_keys, ← AList.lookup_isSome]
    exact Store.mem_ids.mp hu
  have hu' : u = "a" ∨ u = "b" := by
    cases l <;> simp [afterFollowAndLike, RelationList.collection] at hstored <;> tauto
  obtain rfl | rfl := hu'
  · exact Option.bind_eq_some_iff.mp ha
  · exact Option.bind_eq_some_iff.mp hb

/-- Nobody follows `a`: all of the law holds of him and of the post he likes. -/
theorem userLists_exact_followAndLike :
    ∃ w x y z t, Run api (RelationCall.program fun _ => noCompletion) (History id) townListing
        followAndLike w
      ∧ w.Quiescent
      ∧ Answered id (RelationCall.program fun _ => noCompletion) w
          (listRequest (.followers "a")) x
      ∧ Answered id (RelationCall.program fun _ => noCompletion) w
          (listRequest (.following "a")) y
      ∧ Answered id (RelationCall.program fun _ => noCompletion) w (listRequest (.likes "p")) z
      ∧ Answered id (RelationCall.program fun _ => noCompletion) w (statsRequest "a") t
      ∧ y.length = 1 ∧ z.length = 1
      ∧ ((RelationList.followers "a").Exact w.backend x.last
          ∧ (RelationList.following "a").Exact w.backend y.last
          ∧ (RelationList.likes "p").Exact w.backend z.last
          ∧ ∃ stats, t.stats = some stats ∧ stats.followers = x.length
            ∧ stats.following = y.length) := by
  obtain ⟨w, run, hquiet, hkeys, ha, hb, hx, hy, hz, ht⟩ : ∃ w,
      Run api (RelationCall.program fun _ => noCompletion)
        (fun w ev => Plain (fun x : String => x) w ev ∧ OneAtATime w ev) townListing
        followAndLike w
      ∧ w.Quiescent ∧ w.backend.docs.keys = afterFollowAndLike
      ∧ (w.backend.docs.lookup ["users", "a"]).bind (·.string "uid") = some "a"
      ∧ (w.backend.docs.lookup ["users", "b"]).bind (·.string "uid") = some "b"
      ∧ answers w (listRequest (.followers "a")) (listReplies []) (fun _ => True) = true
      ∧ answers w (listRequest (.following "a")) (listReplies ["b"]) (·.length = 1) = true
      ∧ answers w (listRequest (.likes "p")) (listReplies ["a"]) (·.length = 1) = true
      ∧ answers w (statsRequest "a") (statsReplies [] ["b"] []) (fun _ => True) = true :=
    exists_run_of_play (by decide)
  obtain ⟨x, hx, -⟩ := answered_of_answers hx
  obtain ⟨y, hy, hylen⟩ := answered_of_answers hy
  obtain ⟨z, hz, hzlen⟩ := answered_of_answers hz
  obtain ⟨t, ht, -⟩ := answered_of_answers ht
  have hrest : townListing.Quiescent := rfl
  have hlaw := userLists_exact_iff aside_noCompletion hrest town_related (OneAtATime.history run)
    hquiet (hasUsers_of_keys hkeys ha hb) "a" "p" hx hy hz ht
  refine ⟨w, x, y, z, t, OneAtATime.history run, hquiet, hx, hy, hz, ht, hylen, hzlen,
    hlaw.mpr fun u => Backend.exists_eq_false ?_⟩
  rw [hkeys]
  simp [afterFollowAndLike]

/-- `a` follows `b`, and the statistics of `b` count him; the list of the followers of `b`
is never handed out. -/
theorem followersList_missing :
    ∃ w x t, Run api (RelationCall.program fun _ => noCompletion) (History id) townListing
        followAndLike w
      ∧ w.Quiescent
      ∧ Answered id (RelationCall.program fun _ => noCompletion) w
          (listRequest (.followers "b")) x
      ∧ Answered id (RelationCall.program fun _ => noCompletion) w (statsRequest "b") t
      ∧ ¬ (RelationList.followers "b").Exact w.backend x.last
      ∧ x.length = 0 ∧ t.stats.map UserStats.followers = some 1 := by
  obtain ⟨w, run, hquiet, hfollows, hx, ht⟩ : ∃ w,
      Run api (RelationCall.program fun _ => noCompletion)
        (fun w ev => Plain (fun x : String => x) w ev ∧ OneAtATime w ev) townListing
        followAndLike w
      ∧ w.Quiescent ∧ w.backend.exists ["following", "a", "user-following", "b"] = true
      ∧ answers w (listRequest (.followers "b")) (listReplies []) (·.last = none) = true
      ∧ answers w (statsRequest "b") (statsReplies ["a"] [] ["p"])
          (·.stats.map UserStats.followers = some 1) = true :=
    exists_run_of_play (by decide)
  obtain ⟨x, hx, hlast⟩ := answered_of_answers hx
  obtain ⟨t, ht, hcount⟩ := answered_of_answers ht
  refine ⟨w, x, t, OneAtATime.history run, hquiet, hx, ht, ?_, ?_, hcount⟩
  · rw [hlast]
    intro hexact
    exact hexact "a" hfollows
  · unfold Listing.length
    rw [hlast]
    rfl

end InstaClone
