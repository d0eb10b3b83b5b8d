import InstaClone.Frames
import InstaClone.Taps

/-!
# The header of a profile

A profile controller holds one `user`. When its view loads it asks whether he is followed and
for his statistics; each reply assigns its own field. A tap on the button changes the relation,
and its completion assigns the flag again. An editor hands back a whole user, which replaces the
one that is held.

What is in flight is read off the pool as stages (`HeaderStage`). `HeaderInv` says what the user
shows in terms of them: the flag is that of the last tap whose completion is outstanding, or it
is stored, or it is still to be read; what has been counted is what is stored. A step keeps this
as long as it is `HeaderOk`: nothing that has been read is changed or put back afterwards.
-/

namespace InstaClone

open Async

/-! ## What happens to a profile -/

/-- `controller(_:wantsToUpdate:)`: the editor hands back its copy of the user. -/
def ProfileController.wantsToUpdate (m : Nat) (user : User) : Program Client :=
  inProfile m (·.setUser user)

/-- The header is bound, its button is tapped, an editor hands back a user. -/
inductive HeaderAction where
  | bind
  | tap
  | handBack (user : User)
deriving DecidableEq

/-- The code each of them runs in profile controller `m`. -/
def HeaderAction.program (m : Nat) : HeaderAction → Program Client
  | bind => ProfileController.viewForHeader m
  | tap => ProfileController.didTapActionButton m
  | handBack user => ProfileController.wantsToUpdate m user

/-- How many documents the `user-followers` collection of `uid` has. -/
def Backend.followers (b : Backend) (uid : String) : Nat :=
  (b.docs.ids ["followers", uid, "user-followers"]).length

/-- How many documents the `user-following` collection of `uid` has. -/
def Backend.following (b : Backend) (uid : String) : Nat :=
  (b.docs.ids ["following", uid, "user-following"]).length

/-- The user has the relation and the counts that are stored. -/
def HeaderShows (me : String) (b : Backend) (user : User) : Prop :=
  user.isFollowed = b.exists ["following", me, "user-following", user.uid]
    ∧ user.stats.followers = b.followers user.uid
    ∧ user.stats.following = b.following user.uid

/-! ## Replies and completions -/

/-- The query of the followers. -/
def followersQuery (uid : String) : Query := { collection := ["followers", uid, "user-followers"] }

/-- The query of those who are followed. -/
def followingQuery (uid : String) : Query := { collection := ["following", uid, "user-following"] }

/-- The query of the posts. -/
def ownPostsQuery (uid : String) : Query :=
  { collection := ["posts"], whereField := some ("ownerUid", .string uid) }

namespace ProfileController

/-- The callback of the read of `checkIfUserIsFollowed`. -/
def didReadFollow (m : Nat) (snapshot : Option Snapshot) : Program Client :=
  match snapshot with
  | none => .done
  | some snapshot =>
    inProfile m fun profile =>
      profile.setUser { profile.user with isFollowed := snapshot.data.isSome }

/-- The callback of the third query of `fetchUserStats`. -/
def didCountPosts (m followers following : Nat) (snapshot : Option (List (String × Doc))) :
    Program Client :=
  inProfile m fun profile =>
    profile.setUser
      { profile.user with stats := ⟨followers, following, UserService.count snapshot⟩ }

/-- The callback of the second. -/
def didCountFollowing (m : Nat) (uid : String) (followers : Nat)
    (snapshot : Option (List (String × Doc))) : Program Client :=
  getDocuments (ownPostsQuery uid) (didCountPosts m followers (UserService.count snapshot))

/-- The callback of the first. -/
def didCountFollowers (m : Nat) (uid : String) (snapshot : Option (List (String × Doc))) :
    Program Client :=
  getDocuments (followingQuery uid) (didCountFollowing m uid (UserService.count snapshot))

/-- The callback of the query of `fetchPosts`. -/
def didFetchOwnPosts (m : Nat) (snapshot : Option (List (String × Doc))) : Program Client :=
  match snapshot with
  | none => .done
  | some documents =>
    .ask fun turn =>
      inProfile m fun profile =>
        { profile with
          posts :=
            (documents.map fun x : String × Doc => Post.init turn.now x.1 x.2).mergeSort
              PostService.newerFirst }.reloadData

/-- The completion of `follow` and of `unfollow`. -/
def didChange (m : Nat) (user currentUser : User) (v : Bool) : Option Error → Program Client :=
  if v then didFollow m user currentUser else didUnfollow m user

end ProfileController

open ProfileController

section Turns

variable {m : Nat} {me uid : String} {e : Turn} {client : Client}

theorem exec_checkIfUserIsFollowed (he : e.currentUid = some me)
    (huid : (client.profiles m).user.uid = uid) :
    (checkIfUserIsFollowed m).exec e client
      = (client,
          [.issued (.getDocument ["following", me, "user-following", uid]) (didReadFollow m)]) := by
  subst huid
  unfold checkIfUserIsFollowed UserService.checkIfUserIsFollowed withCurrentUid
  rw [Prog.exec_read, Prog.exec_ask, he]
  refine congrArg (fun k => (client, [Flight.issued _ k])) (funext fun snapshot => ?_)
  cases snapshot with
  | none => rfl
  | some snapshot => rfl

theorem exec_fetchUserStats (huid : (client.profiles m).user.uid = uid) :
    (fetchUserStats m).exec e client
      = (client, [.issued (.getDocuments (followersQuery uid)) (didCountFollowers m uid)]) := by
  subst huid
  rfl

theorem exec_fetchOwnPosts (huid : (client.profiles m).user.uid = uid) :
    (ProfileController.fetchPosts m).exec e client
      = (client, [.issued (.getDocuments (ownPostsQuery uid)) (didFetchOwnPosts m)]) := by
  subst huid
  unfold ProfileController.fetchPosts PostService.fetchPostsForUser
  rw [Prog.exec_read]
  refine congrArg (fun k => (client, [Flight.issued _ k])) (funext fun snapshot => ?_)
  cases snapshot with
  | none => rfl
  | some documents => rfl

/-- The turn in which the view loads. -/
theorem exec_push (hfresh : (client.profiles m).loaded = false) (he : e.currentUid = some me)
    (user : User) :
    (push m user).exec e client
      = (client.mapProfile m fun profile => { profile with loaded := true, user := user },
          [.issued (.getDocument ["following", me, "user-following", user.uid]) (didReadFollow m),
           .issued (.getDocuments (followersQuery user.uid)) (didCountFollowers m user.uid),
           .issued (.getDocuments (ownPostsQuery user.uid)) (didFetchOwnPosts m)]) := by
  unfold push
  rw [Prog.exec_read, hfresh, if_neg (by simp)]
  unfold inProfile ProfileController.viewDidLoad
  have huid : ((client.mapProfile m fun profile =>
      { profile with loaded := true, user := user }).profiles m).user.uid = user.uid := by
    rw [Client.mapProfile_profiles, if_pos rfl]
  rw [Prog.exec_modify, Prog.exec_andThen, Prog.exec_andThen, exec_checkIfUserIsFollowed he huid,
    exec_fetchUserStats huid, exec_fetchOwnPosts huid]
  rfl

/-- The turns that only assign. -/
theorem exec_viewForHeader :
    (viewForHeader m).exec e client
      = (client.mapProfile m fun profile => { profile with header := some profile.user }, []) := rfl

theorem exec_wantsToUpdate (user : User) :
    (ProfileController.wantsToUpdate m user).exec e client
      = (client.mapProfile m (·.setUser user), []) := rfl

/-- The turn of a tap. -/
theorem exec_didTapActionButton (client : Client) (he : e.currentUid = some me) :
    (didTapActionButton m).exec e client =
      (client,
        match (client.profiles m).header, client.tabUser with
        | some user, some currentUser =>
          if user.uid = me then []
          else
            [markFlight ["following", me, "user-following", user.uid]
              ["followers", user.uid, "user-followers", me] (!user.isFollowed)
              (didChange m user currentUser (!user.isFollowed))]
        | _, _ => []) := by
  unfold didTapActionButton
  rw [Prog.exec_read]
  cases hheader : (client.profiles m).header with
  | none => rfl
  | some user =>
    cases htab : client.tabUser with
    | none => rfl
    | some currentUser =>
      dsimp only
      rw [Prog.exec_ask]
      have hcurrent : user.isCurrentUser e.currentUid = decide (user.uid = me) := by
        unfold User.isCurrentUser
        rw [he, Bool.eq_iff_iff, beq_iff_eq, decide_eq_true_iff, Option.some.injEq, eq_comm]
      rw [hcurrent]
      by_cases hme : user.uid = me
      · rw [if_pos (by simpa using hme), if_pos hme]
        rfl
      · rw [if_neg (by simpa using hme), if_neg hme]
        cases hflag : user.isFollowed with
        | false =>
          simp only [Bool.false_eq_true, if_false, UserService.follow, withCurrentUid,
            Prog.exec_ask, he]
          rfl
        | true =>
          simp only [if_true, UserService.unfollow, withCurrentUid, Prog.exec_ask, he]
          rfl

end Turns
/-! ## What is in flight -/

/-- The requests of a notification. -/
def NoticeRequest : Request → Prop
  | .write w => ∃ u id, w.path = ["notifications", u, "user-notifications", id]
  | .getDocuments q => ∃ u, q.collection = ["notifications", u, "user-notifications"]
  | _ => False

/-- The program assigns the flag and then sees to the notification. -/
def SetsFlag (m : Nat) (v : Bool) (p : Program Client) : Prop :=
  ∃ rest, rest.Spares NoticeRequest id
    ∧ p = inProfile m (fun profile => profile.setUser { profile.user with isFollowed := v }) rest

theorem setsFlag_didChange (m : Nat) (user currentUser : User) (v : Bool) (error : Option Error) :
    SetsFlag m v (didChange m user currentUser v error) := by
  cases v with
  | true => exact ⟨_, spares_uploadNotification fun id _ => ⟨_, id, rfl⟩, rfl⟩
  | false =>
    exact ⟨_, spares_deleteNotification (fun _ => ⟨_, rfl⟩) fun id => ⟨_, id, rfl⟩, rfl⟩

/-- What the session waits for: whether the user is followed, or the answer has come; the
statistics, with the counts that are known; the posts; the two writes of a tap. -/
inductive HeaderStage where
  | checking
  | checked (isFollowed : Bool)
  | counting (counts : List Nat)
  | loading
  | marking (v : Bool)
  | copying (v : Bool)

/-- The flights at each stage. -/
inductive HeaderFlight (m : Nat) (me uid : String) :
    Flight Request Response Turn Client → HeaderStage → Prop
  | checking :
      HeaderFlight m me uid
        (.issued (.getDocument ["following", me, "user-following", uid]) (didReadFollow m))
        .checking
  | checked (snapshot) :
      HeaderFlight m me uid
        (.served (.getDocument ["following", me, "user-following", uid])
          (didReadFollow m (some snapshot)))
        (.checked snapshot.data.isSome)
  | counting :
      HeaderFlight m me uid
        (.issued (.getDocuments (followersQuery uid)) (didCountFollowers m uid)) (.counting [])
  | counted (snapshot) :
      HeaderFlight m me uid
        (.served (.getDocuments (followersQuery uid)) (didCountFollowers m uid snapshot))
        (.counting [UserService.count snapshot])
  | countingFollowing (followers) :
      HeaderFlight m me uid
        (.issued (.getDocuments (followingQuery uid)) (didCountFollowing m uid followers))
        (.counting [followers])
  | countedFollowing (followers snapshot) :
      HeaderFlight m me uid
        (.served (.getDocuments (followingQuery uid)) (didCountFollowing m uid followers snapshot))
        (.counting [followers, UserService.count snapshot])
  | countingPosts (followers following) :
      HeaderFlight m me uid
        (.issued (.getDocuments (ownPostsQuery uid)) (didCountPosts m followers following))
        (.counting [followers, following])
  | countedPosts (followers following snapshot) :
      HeaderFlight m me uid
        (.served (.getDocuments (ownPostsQuery uid)) (didCountPosts m followers following snapshot))
        (.counting [followers, following])
  | loading :
      HeaderFlight m me uid
        (.issued (.getDocuments (ownPostsQuery uid)) (didFetchOwnPosts m)) .loading
  | loaded (snapshot) :
      HeaderFlight m me uid
        (.served (.getDocuments (ownPostsQuery uid)) (didFetchOwnPosts m snapshot)) .loading
  | marking (v k) (hk : ∀ error, SetsFlag m v (k error)) :
      HeaderFlight m me uid
        (markFlight ["following", me, "user-following", uid]
          ["followers", uid, "user-followers", me] v k)
        (.marking v)
  | marked (v k) (hk : ∀ error, SetsFlag m v (k error)) :
      HeaderFlight m me uid
        (.served (.write (markWrite ["following", me, "user-following", uid] v))
          (.call (.write (markWrite ["followers", uid, "user-followers", me] v)) k .done))
        (.marking v)
  | copying (v k) (hk : ∀ error, SetsFlag m v (k error)) :
      HeaderFlight m me uid
        (.issued (.write (markWrite ["followers", uid, "user-followers", me] v)) k) (.copying v)
  | copied (v p) (hp : SetsFlag m v p) :
      HeaderFlight m me uid
        (.served (.write (markWrite ["followers", uid, "user-followers", me] v)) p) (.copying v)

namespace HeaderStage

/-- The values of the taps whose second write is under way. -/
def copies (stages : List (Unit × HeaderStage)) : List Bool :=
  stages.filterMap fun x =>
    match x.2 with
    | .copying v => some v
    | _ => none

/-- The values of those whose first write is. -/
def marks (stages : List (Unit × HeaderStage)) : List Bool :=
  stages.filterMap fun x =>
    match x.2 with
    | .marking v => some v
    | _ => none

/-- The flags that are to be assigned by completions, in the order in which they will be. -/
def outstanding (stages : List (Unit × HeaderStage)) : List Bool := copies stages ++ marks stages

/-- The checks under way. -/
def checks (stages : List (Unit × HeaderStage)) : List HeaderStage :=
  stages.filterMap fun x =>
    match x.2 with
    | .checking => some x.2
    | .checked _ => some x.2
    | _ => none

/-- The counts that are known, for each fetch of the statistics under way. -/
def counts (stages : List (Unit × HeaderStage)) : List (List Nat) :=
  stages.filterMap fun x =>
    match x.2 with
    | .counting counts => some counts
    | _ => none

@[simp] theorem copies_nil : copies [] = [] := rfl

@[simp] theorem marks_nil : marks [] = [] := rfl

@[simp] theorem checks_nil : checks [] = [] := rfl

@[simp] theorem counts_nil : counts [] = [] := rfl

@[simp] theorem copies_append (l l' : List (Unit × HeaderStage)) :
    copies (l ++ l') = copies l ++ copies l' := List.filterMap_append

@[simp] theorem marks_append (l l' : List (Unit × HeaderStage)) :
    marks (l ++ l') = marks l ++ marks l' := List.filterMap_append

@[simp] theorem checks_append (l l' : List (Unit × HeaderStage)) :
    checks (l ++ l') = checks l ++ checks l' := List.filterMap_append

@[simp] theorem counts_append (l l' : List (Unit × HeaderStage)) :
    counts (l ++ l') = counts l ++ counts l' := List.filterMap_append

@[simp] theorem copies_cons (t : HeaderStage) (l : List (Unit × HeaderStage)) :
    copies (((), t) :: l) = (match t with | .copying v => [v] | _ => []) ++ copies l := by
  cases t <;> rfl

@[simp] theorem marks_cons (t : HeaderStage) (l : List (Unit × HeaderStage)) :
    marks (((), t) :: l) = (match t with | .marking v => [v] | _ => []) ++ marks l := by
  cases t <;> rfl

@[simp] theorem checks_cons (t : HeaderStage) (l : List (Unit × HeaderStage)) :
    checks (((), t) :: l)
      = (match t with | .checking => [t] | .checked _ => [t] | _ => []) ++ checks l := by
  cases t <;> rfl

@[simp] theorem counts_cons (t : HeaderStage) (l : List (Unit × HeaderStage)) :
    counts (((), t) :: l) = (match t with | .counting known => [known] | _ => []) ++ counts l := by
  cases t <;> rfl

end HeaderStage

/-! ## When it comes out right -/

/-- Is it the read of the document at `path`? -/
def Request.reads (path : Path) : Request → Bool
  | .getDocument p => decide (p = path)
  | _ => false

/-- Is it the query `q`? -/
def Request.queries (q : Query) : Request → Bool
  | .getDocuments q' => decide (q' = q)
  | _ => false

/-- A tap is under way: one of its two writes is in flight. -/
def Toggling (me uid : String) (w : AppWorld Client Unit) : Prop :=
  ∃ x ∈ w.pool, (document ["following", me, "user-following", uid]).touches x.2.req
    ∨ (document ["followers", uid, "user-followers", me]).touches x.2.req

/-- The check is under way. -/
def Checking (me uid : String) (w : AppWorld Client Unit) : Prop :=
  ∃ x ∈ w.pool, x.2.req.reads ["following", me, "user-following", uid] = true

/-- The followers are still to be counted. -/
def Uncounted (uid : String) (w : AppWorld Client Unit) : Prop :=
  ∃ x ∈ w.pool, x.2.waits = true ∧ x.2.req.queries (followersQuery uid) = true

/-- The statistics are under way. -/
def Counting (m : Nat) (uid : String) (w : AppWorld Client Unit) : Prop :=
  ∃ x ∈ w.pool, x.2.req.queries (followersQuery uid) = true
    ∨ x.2.req.queries (followingQuery uid) = true
    ∨ ∃ followers following,
        x.2 = .issued (.getDocuments (ownPostsQuery uid)) (didCountPosts m followers following)
          ∨ ∃ snapshot, x.2 = .served (.getDocuments (ownPostsQuery uid))
            (didCountPosts m followers following snapshot)

instance (me uid : String) (w : AppWorld Client Unit) : Decidable (Toggling me uid w) :=
  inferInstanceAs (Decidable (∃ x ∈ w.pool, _))

instance (uid : String) (w : AppWorld Client Unit) : Decidable (Uncounted uid w) :=
  inferInstanceAs (Decidable (∃ x ∈ w.pool, _))

/-- The reads the header depends on are answered, and the followers of the user change only as
long as they have not been counted. -/
def ReadsInTime (me uid : String) (w : AppWorld Client Unit) : AppEvent Unit HeaderAction → Prop
  | .serve i o => ∀ x ∈ w.pool[i]?,
      (x.2.req.reads ["following", me, "user-following", uid] = true
          ∨ x.2.req.queries (followersQuery uid) = true
          ∨ x.2.req.queries (followingQuery uid) = true → o.isSuccess = true)
        ∧ ∀ v ∈ x.2.req.leaves ["followers", uid, "user-followers", me],
          v = w.backend.exists ["followers", uid, "user-followers", me] ∨ Uncounted uid w
  | _ => True

instance (me uid : String) (w : AppWorld Client Unit) (ev : AppEvent Unit HeaderAction) :
    Decidable (ReadsInTime me uid w ev) :=
  match ev with
  | .invoke _ _ _ => isTrue trivial
  | .serve _ _ => inferInstanceAs (Decidable (∀ x ∈ _, _ ∧ ∀ v ∈ _, _))
  | .deliver _ _ => isTrue trivial
  | .drop _ => isTrue trivial

/-- Nothing else fails. The answer to the check is still right when it comes in, or a tap is
under way that will assign the flag after it. A user that is handed back has the flag and the
counts of the one he replaces, or these are still to be assigned. -/
def HeaderOk (m : Nat) (me uid : String) (w : AppWorld Client Unit)
    (ev : AppEvent Unit HeaderAction) : Prop :=
  Plain (fun _ => me) w ev ∧ ReadsInTime me uid w ev
    ∧ match ev with
      | .deliver i _ => ∀ x ∈ w.pool[i]?, ∀ snapshot,
          x.2 = .served (.getDocument ["following", me, "user-following", uid])
              (didReadFollow m (some snapshot)) →
            Toggling me uid w
              ∨ snapshot.data.isSome = w.backend.exists ["following", me, "user-following", uid]
      | .invoke _ (.handBack user) _ =>
        user.uid = uid
          ∧ (Toggling me uid w ∨ Checking me uid w
            ∨ user.isFollowed = ((w.client ()).profiles m).user.isFollowed)
          ∧ (Counting m uid w
            ∨ user.stats.followers = ((w.client ()).profiles m).user.stats.followers
              ∧ user.stats.following = ((w.client ()).profiles m).user.stats.following)
      | _ => True

/-! ## What the header shows, stage by stage -/

open HeaderStage

/-- What the user shows, with `toBe` the relation once the pending writes are committed. -/
structure HeaderInv (me uid : String) (profile : ProfileController) (b : Backend) (toBe : Bool)
    (stages : List (Unit × HeaderStage)) : Prop where
  tapped : HeaderStage.outstanding stages ≠ [] → uid ≠ me
  user : profile.user.uid = uid
  header : ∀ user, profile.header = some user → user.uid = uid
  coming : ∀ v, (HeaderStage.outstanding stages).getLast? = some v → v = toBe
  followed : HeaderStage.outstanding stages = [] → checks stages = [] →
    profile.user.isFollowed = toBe
  counted : ∀ known ∈ counts stages, known <+: [b.followers uid, b.following uid]
  shown : counts stages = [] →
    profile.user.stats.followers = b.followers uid ∧ profile.user.stats.following = b.following uid
  once : (counts stages).length ≤ 1

/-- Is `uid` followed once the pending writes are committed? -/
def toBeFollowed (me uid : String) (w : AppWorld Client Unit) : Bool :=
  ((document ["following", me, "user-following", uid]).settled w).isSome

/-- What is in flight, as far as the header is concerned. -/
abbrev HeaderTracks (m : Nat) (me uid : String) :
    List (Unit × Flight Request Response Turn Client) → List (Unit × HeaderStage) → Prop :=
  Tracks (fun _ fl => fl.Spares NoticeRequest id) fun _ fl t => HeaderFlight m me uid fl t

/-- The profile `m` of `uid` shows what it should. -/
def HeaderAt (m : Nat) (me uid : String) (w : AppWorld Client Unit) : Prop :=
  ∃ stages, HeaderTracks m me uid w.pool stages
    ∧ HeaderInv me uid ((w.client ()).profiles m) w.backend (toBeFollowed me uid w) stages

section Stages

variable {m : Nat} {me uid : String} {profile profile' : ProfileController} {b b' : Backend}
variable {toBe : Bool} {pool : List (Unit × Flight Request Response Turn Client)}
variable {stages stages' : List (Unit × HeaderStage)}

/-- The writes of a session in front of an ordered request: with none there, no tap is. -/
theorem outstanding_unordered (h : HeaderTracks m me uid pool stages)
    (hpool : ∀ x ∈ pool, api.ordered x.2.req = false) : copies stages = [] ∧ marks stages = [] := by
  induction h with
  | nil => exact ⟨rfl, rfl⟩
  | quiet _ _ ih => exact ih fun x hx => hpool x (List.mem_cons_of_mem _ hx)
  | stage hfl _ ih =>
    obtain ⟨hcopies, hmarks⟩ := ih fun x hx => hpool x (List.mem_cons_of_mem _ hx)
    have hhead := hpool _ (List.mem_cons_self ..)
    cases hfl with
    | marking => exact absurd hhead (by simp [markFlight])
    | marked => exact absurd hhead (by simp)
    | copying => exact absurd hhead (by simp)
    | copied => exact absurd hhead (by simp)
    | _ => exact ⟨hcopies, hmarks⟩

theorem mem_copies {v : Bool} : v ∈ copies stages ↔ ((), HeaderStage.copying v) ∈ stages := by
  unfold copies
  rw [List.mem_filterMap]
  constructor
  · rintro ⟨⟨⟨⟩, t⟩, hmem, ht⟩
    cases t <;> simp_all
  · exact fun hmem => ⟨_, hmem, rfl⟩

theorem mem_marks {v : Bool} : v ∈ marks stages ↔ ((), HeaderStage.marking v) ∈ stages := by
  unfold marks
  rw [List.mem_filterMap]
  constructor
  · rintro ⟨⟨⟨⟩, t⟩, hmem, ht⟩
    cases t <;> simp_all
  · exact fun hmem => ⟨_, hmem, rfl⟩

theorem mem_counts {known : List Nat} :
    known ∈ counts stages ↔ ((), HeaderStage.counting known) ∈ stages := by
  unfold counts
  rw [List.mem_filterMap]
  constructor
  · rintro ⟨⟨⟨⟩, t⟩, hmem, ht⟩
    cases t <;> simp_all
  · exact fun hmem => ⟨_, hmem, rfl⟩

/-- A notification is none of the requests the header depends on. -/
theorem NoticeRequest.aside {r : Request} (h : NoticeRequest r) (path : Path) (q : Query)
    (hpath : path.head? ≠ some "notifications")
    (hq : q.collection.head? ≠ some "notifications") :
    ¬ (document path).touches r ∧ r.reads path = false ∧ r.queries q = false := by
  cases r with
  | write w =>
    obtain ⟨u, id, hw⟩ := h
    refine ⟨fun htouch => hpath ?_, rfl, rfl⟩
    rw [← document_touches_write.mp htouch, hw]
    rfl
  | getDocuments q' =>
    obtain ⟨u, hcoll⟩ := h
    refine ⟨fun ⟨w, hw, _⟩ => Request.noConfusion hw, rfl, decide_eq_false fun heq => hq ?_⟩
    rw [← heq, hcoll]
    rfl
  | _ => exact h.elim

variable {w : AppWorld Client Unit}

theorem Toggling.outstanding (h : Toggling me uid w)
    (htracks : HeaderTracks m me uid w.pool stages) :
    HeaderStage.outstanding stages ≠ [] := by
  obtain ⟨x, hx, htouch⟩ := h
  unfold HeaderStage.outstanding
  rcases htracks.of_mem hx with hquiet | ⟨t, ht, hflight⟩
  · have haside := fun path hpath => (hquiet.req.aside path (followersQuery uid) hpath
      (by simp [followersQuery])).1
    rcases htouch with htouch | htouch
    · exact absurd htouch (haside _ (by simp))
    · exact absurd htouch (haside _ (by simp))
  · generalize hfl : x.2 = fl at hflight htouch
    cases hflight with
    | marking v => exact List.ne_nil_of_mem (List.mem_append_right _ (mem_marks.mpr ht))
    | marked v => exact List.ne_nil_of_mem (List.mem_append_right _ (mem_marks.mpr ht))
    | copying v => exact List.ne_nil_of_mem (List.mem_append_left _ (mem_copies.mpr ht))
    | copied v => exact List.ne_nil_of_mem (List.mem_append_left _ (mem_copies.mpr ht))
    | _ => exact absurd htouch (by simp [document])

theorem Checking.checks (h : Checking me uid w) (htracks : HeaderTracks m me uid w.pool stages) :
    HeaderStage.checks stages ≠ [] := by
  obtain ⟨x, hx, hreads⟩ := h
  rcases htracks.of_mem hx with hquiet | ⟨t, ht, hflight⟩
  · have haside := (hquiet.req.aside ["following", me, "user-following", uid]
      (followersQuery uid) (by simp) (by simp [followersQuery])).2.1
    exact absurd hreads (by rw [haside]; simp)
  · generalize hfl : x.2 = fl at hflight hreads
    cases hflight with
    | checking => exact List.ne_nil_of_mem (List.mem_filterMap.mpr ⟨_, ht, rfl⟩)
    | checked => exact List.ne_nil_of_mem (List.mem_filterMap.mpr ⟨_, ht, rfl⟩)
    | _ => exact absurd hreads (by simp [Request.reads, markFlight])

theorem Uncounted.counts (h : Uncounted uid w) (htracks : HeaderTracks m me uid w.pool stages) :
    [] ∈ HeaderStage.counts stages := by
  obtain ⟨x, hx, hwaits, hqueries⟩ := h
  rcases htracks.of_mem hx with hquiet | ⟨t, ht, hflight⟩
  · have haside := (hquiet.req.aside [] (followersQuery uid) (by simp)
      (by simp [followersQuery])).2.2
    exact absurd hqueries (by rw [haside]; simp)
  · generalize hfl : x.2 = fl at hflight hqueries hwaits
    cases hflight with
    | counting => exact mem_counts.mpr ht
    | counted => exact absurd hwaits (by simp)
    | _ =>
      exact absurd hqueries (by
        simp [Request.queries, followersQuery, followingQuery, ownPostsQuery, markFlight])

/-- The posts of the controller are not those of the statistics. -/
theorem didFetchOwnPosts_ne {followers following : Nat}
    {documents snapshot : Option (List (String × Doc))} :
    didFetchOwnPosts m documents ≠ didCountPosts m followers following snapshot := by
  unfold didCountPosts inProfile
  cases documents with
  | none => exact fun h => by cases h
  | some documents => exact fun h => by cases h

theorem Counting.counts (h : Counting m uid w) (htracks : HeaderTracks m me uid w.pool stages) :
    HeaderStage.counts stages ≠ [] := by
  obtain ⟨x, hx, hcounting⟩ := h
  rcases htracks.of_mem hx with hquiet | ⟨t, ht, hflight⟩
  · have haside := fun q hq => (hquiet.req.aside [] q (by simp) hq).2.2
    rcases hcounting with h | h | ⟨followers, following, h | ⟨snapshot, h⟩⟩
    · exact absurd h (by rw [haside _ (by simp [followersQuery])]; simp)
    · exact absurd h (by rw [haside _ (by simp [followingQuery])]; simp)
    · have hq := haside (ownPostsQuery uid) (by simp [ownPostsQuery])
      rw [h] at hq
      exact absurd hq (by simp [Request.queries])
    · have hq := haside (ownPostsQuery uid) (by simp [ownPostsQuery])
      rw [h] at hq
      exact absurd hq (by simp [Request.queries])
  · generalize hfl : x.2 = fl at hflight hcounting
    cases hflight with
    | counting => exact List.ne_nil_of_mem (mem_counts.mpr ht)
    | counted => exact List.ne_nil_of_mem (mem_counts.mpr ht)
    | countingFollowing => exact List.ne_nil_of_mem (mem_counts.mpr ht)
    | countedFollowing => exact List.ne_nil_of_mem (mem_counts.mpr ht)
    | countingPosts => exact List.ne_nil_of_mem (mem_counts.mpr ht)
    | countedPosts => exact List.ne_nil_of_mem (mem_counts.mpr ht)
    | loading =>
      rcases hcounting with h | h | ⟨followers, following, h | ⟨snapshot, h⟩⟩
      · exact absurd h (by simp [Request.queries, followersQuery, ownPostsQuery])
      · exact absurd h (by simp [Request.queries, followingQuery, ownPostsQuery])
      · obtain ⟨-, hk⟩ := Flight.issued.inj h
        exact absurd (congrFun (eq_of_heq hk) none) didFetchOwnPosts_ne
      · exact absurd h (by simp)
    | loaded documents =>
      rcases hcounting with h | h | ⟨followers, following, h | ⟨snapshot, h⟩⟩
      · exact absurd h (by simp [Request.queries, followersQuery, ownPostsQuery])
      · exact absurd h (by simp [Request.queries, followingQuery, ownPostsQuery])
      · exact absurd h (by simp)
      · exact absurd (Flight.served.inj h).2 didFetchOwnPosts_ne
    | _ =>
      refine absurd hcounting ?_
      simp [Request.queries, markFlight]

/-- With no tap under way the relation is the stored one. -/
theorem toBeFollowed_stored (htracks : HeaderTracks m me uid w.pool stages)
    (hnone : HeaderStage.outstanding stages = []) :
    toBeFollowed me uid w = w.backend.exists ["following", me, "user-following", uid] := by
  unfold toBeFollowed Register.settled
  rw [Register.after_quiet (document_lawful _)]
  · rfl
  · intro x hx _ htouch
    exact Toggling.outstanding ⟨x, hx, Or.inl htouch⟩ htracks hnone

/-! ## A request is served -/

/-- Stages that come to the same. -/
theorem HeaderInv.restage (h : HeaderInv me uid profile b toBe stages)
    (houtstanding : HeaderStage.outstanding stages' = HeaderStage.outstanding stages)
    (hchecks : checks stages' = [] → checks stages = [])
    (hcounts : (counts stages').Perm (counts stages)) :
    HeaderInv me uid profile b toBe stages' where
  tapped := by rw [houtstanding]; exact h.tapped
  user := h.user
  header := h.header
  coming := by rw [houtstanding]; exact h.coming
  followed := fun hnone hchecked => h.followed (houtstanding ▸ hnone) (hchecks hchecked)
  counted := fun known hknown => h.counted known (hcounts.mem_iff.mp hknown)
  shown := fun hnone => h.shown (List.nil_perm.mp (hnone ▸ hcounts))
  once := by rw [hcounts.length_eq]; exact h.once

/-- A store with as many followers. -/
theorem HeaderInv.stored (h : HeaderInv me uid profile b toBe stages)
    (hfollowers : b'.followers uid = b.followers uid)
    (hfollowing : b'.following uid = b.following uid) :
    HeaderInv me uid profile b' toBe stages :=
  { h with
    counted := by rw [hfollowers, hfollowing]; exact h.counted
    shown := by rw [hfollowers, hfollowing]; exact h.shown }

/-- One more count is known. -/
theorem HeaderInv.recount {l l' : List (Unit × HeaderStage)} {known known' : List Nat}
    (h : HeaderInv me uid profile b toBe (l ++ ((), .counting known) :: l'))
    (hknown : known' <+: [b.followers uid, b.following uid]) :
    HeaderInv me uid profile b toBe (l ++ ((), .counting known') :: l') where
  tapped := by simpa [HeaderStage.outstanding] using h.tapped
  user := h.user
  header := h.header
  coming := by simpa [HeaderStage.outstanding] using h.coming
  followed := by simpa [HeaderStage.outstanding] using h.followed
  counted := by
    intro known'' hmem
    have hold := h.counted known''
    simp only [counts_append, counts_cons, List.mem_append, List.mem_singleton] at hmem hold
    rcases hmem with hmem | rfl | hmem
    · exact hold (Or.inl hmem)
    · exact hknown
    · exact hold (Or.inr (Or.inr hmem))
  shown := fun hnone => absurd hnone (by simp)
  once := by simpa using h.once

/-- A request that writes no document of a collection leaves their number. -/
theorem serve_length_ids {r : Request} {o : Outcome} {y : Response r} {coll : Path}
    (hserve : serve b r o = some (b', y))
    (hr : ∀ wr, r = .write wr → ∀ id, coll ++ [id] ≠ wr.path) :
    (b'.docs.ids coll).length = (b.docs.ids coll).length :=
  Store.length_ids fun id => by rw [serve_lookup_ne hserve fun wr hwr => hr wr hwr id]

/-- The number of documents a query of a whole collection answers with. -/
theorem serve_count {coll : Path} {o : Outcome} {y : Option (List (String × Doc))}
    (ho : o.isSuccess = true)
    (hserve : serve b (.getDocuments { collection := coll }) o = some (b', y)) :
    b' = b ∧ UserService.count y = (b.docs.ids coll).length := by
  obtain ⟨rfl, documents, rfl, hperm⟩ := serve_getDocuments_success ho hserve
  rw [Query.results_all] at hperm
  refine ⟨rfl, ?_⟩
  show documents.length = _
  rw [hperm.length_eq, Store.ids, List.length_map]

/-- Neither count changes when a request that writes nothing is served. -/
theorem HeaderInv.serve_read {r : Request} {o : Outcome} {y : Response r}
    (h : HeaderInv me uid profile b toBe stages) (hserve : serve b r o = some (b', y))
    (hr : ∀ wr, r ≠ .write wr) : HeaderInv me uid profile b' toBe stages :=
  h.stored (serve_length_ids hserve fun wr hwr => absurd hwr (hr wr))
    (serve_length_ids hserve fun wr hwr => absurd hwr (hr wr))

/-- The first write of a tap counts for neither. -/
theorem HeaderInv.serve_mark {v : Bool} {o : Outcome} {y : Option Error}
    (h : HeaderInv me uid profile b toBe stages) (hne : uid ≠ me)
    (hserve : serve b (.write (markWrite ["following", me, "user-following", uid] v)) o
      = some (b', y)) : HeaderInv me uid profile b' toBe stages := by
  refine h.stored (serve_length_ids hserve ?_) (serve_length_ids hserve ?_)
  · intro wr hwr id
    obtain rfl := Request.write.inj hwr
    simp
  · intro wr hwr id
    obtain rfl := Request.write.inj hwr
    simp [hne]

/-- The second write is one more follower or one less, or it changes nothing. -/
theorem HeaderInv.serve_copy {v : Bool} {o : Outcome} {y : Option Error}
    (h : HeaderInv me uid profile b toBe stages) (ho : o.isSuccess = true)
    (hserve : serve b (.write (markWrite ["followers", uid, "user-followers", me] v)) o
      = some (b', y))
    (hfar : v = b.exists ["followers", uid, "user-followers", me] ∨ [] ∈ counts stages) :
    HeaderInv me uid profile b' toBe stages := by
  have hfollowing : b'.following uid = b.following uid := by
    refine serve_length_ids hserve fun wr hwr id => ?_
    obtain rfl := Request.write.inj hwr
    simp
  rcases hfar with hsame | huncounted
  · refine h.stored (Store.length_ids fun id => ?_) hfollowing
    by_cases hid : id = me
    · subst hid
      exact (serve_markWrite ho hserve).trans hsame
    · have hother : b'.docs.lookup (["followers", uid, "user-followers"] ++ [id])
          = b.docs.lookup (["followers", uid, "user-followers"] ++ [id]) := by
        refine serve_lookup_ne hserve fun wr hwr => ?_
        obtain rfl := Request.write.inj hwr
        simp [hid]
      rw [hother]
  · -- the only fetch of the statistics still has to count
    obtain ⟨known, hcounts⟩ := List.length_eq_one_iff.mp
      (Nat.le_antisymm h.once (List.length_pos_of_mem huncounted))
    have hknown : known = [] := by
      rw [hcounts] at huncounted
      exact (List.mem_singleton.mp huncounted).symm
    subst hknown
    refine { h with counted := fun known hmem => ?_, shown := fun hnone => ?_ }
    · rw [hcounts] at hmem
      rw [List.mem_singleton.mp hmem]
      exact List.nil_prefix
    · rw [hcounts] at hnone
      exact absurd hnone (by simp)

/-- The request of a stage is served. -/
theorem HeaderInv.serve {l l' : List (Unit × HeaderStage)} {t : HeaderStage} {r : Request}
    {k : Response r → Program Client} {o : Outcome} {y : Response r}
    (h : HeaderInv me uid profile b toBe (l ++ ((), t) :: l'))
    (hflight : HeaderFlight m me uid (.issued r k) t) (hserve : serve b r o = some (b', y))
    (hwrite : r.isWrite = true → o.isSuccess = true)
    (hread : r.reads ["following", me, "user-following", uid] = true
      ∨ r.queries (followersQuery uid) = true ∨ r.queries (followingQuery uid) = true →
        o.isSuccess = true)
    (hfar : ∀ v ∈ r.leaves ["followers", uid, "user-followers", me],
      v = b.exists ["followers", uid, "user-followers", me]
        ∨ [] ∈ counts (l ++ ((), t) :: l')) :
    ∃ t', HeaderFlight m me uid (.served r (k y)) t'
      ∧ HeaderInv me uid profile b' toBe (l ++ ((), t') :: l') := by
  generalize hfl : Flight.issued r k = fl at hflight
  cases hflight with
  | checking =>
    obtain ⟨rfl, hk⟩ := Flight.issued.inj hfl
    obtain rfl := eq_of_heq hk
    obtain ⟨rfl, rfl⟩ :=
      serve_getDocument_success (hread (Or.inl (by simp [Request.reads]))) hserve
    exact ⟨_, .checked _, h.restage (by simp [HeaderStage.outstanding]) (by simp) (by simp)⟩
  | counting =>
    obtain ⟨rfl, hk⟩ := Flight.issued.inj hfl
    obtain rfl := eq_of_heq hk
    obtain ⟨rfl, hcount⟩ := serve_count (hread (Or.inr (Or.inl (by simp [Request.queries])))) hserve
    refine ⟨_, .counted y, h.recount ?_⟩
    rw [hcount]
    exact ⟨[b'.following uid], rfl⟩
  | countingFollowing followers =>
    obtain ⟨rfl, hk⟩ := Flight.issued.inj hfl
    obtain rfl := eq_of_heq hk
    obtain ⟨rfl, hcount⟩ := serve_count (hread (Or.inr (Or.inr (by simp [Request.queries])))) hserve
    refine ⟨_, .countedFollowing followers y, h.recount ?_⟩
    obtain ⟨known, hknown⟩ := h.counted [followers] (by simp)
    rw [hcount, (List.cons.inj hknown).1]
    exact List.prefix_rfl
  | countingPosts followers following =>
    obtain ⟨rfl, hk⟩ := Flight.issued.inj hfl
    obtain rfl := eq_of_heq hk
    exact ⟨_, .countedPosts followers following y, h.serve_read hserve (by simp)⟩
  | loading =>
    obtain ⟨rfl, hk⟩ := Flight.issued.inj hfl
    obtain rfl := eq_of_heq hk
    exact ⟨_, .loaded y, h.serve_read hserve (by simp)⟩
  | marking v k hk =>
    obtain ⟨rfl, hk'⟩ := Flight.issued.inj hfl
    obtain rfl := eq_of_heq hk'
    exact ⟨_, .marked v k hk, h.serve_mark (h.tapped (by simp [HeaderStage.outstanding])) hserve⟩
  | copying v k hk =>
    obtain ⟨rfl, hk'⟩ := Flight.issued.inj hfl
    obtain rfl := eq_of_heq hk'
    exact ⟨_, .copied v (k y) (hk y), h.serve_copy (hwrite rfl) hserve (hfar v (by simp))⟩
  | _ => exact absurd hfl (by simp)

/-! ## A callback runs -/

/-- The user is assigned, and some of the stages are over. -/
theorem HeaderInv.assign (h : HeaderInv me uid profile b toBe stages) {user : User}
    (huid : user.uid = uid)
    (htapped : HeaderStage.outstanding stages' ≠ [] → HeaderStage.outstanding stages ≠ [])
    (hcoming : ∀ v, (HeaderStage.outstanding stages').getLast? = some v →
      (HeaderStage.outstanding stages).getLast? = some v)
    (hfollowed : HeaderStage.outstanding stages' = [] → checks stages' = [] →
      user.isFollowed = toBe)
    (hcounts : (counts stages').Sublist (counts stages))
    (hshown : counts stages' = [] →
      user.stats.followers = b.followers uid ∧ user.stats.following = b.following uid) :
    HeaderInv me uid (profile.setUser user) b toBe stages' where
  tapped hsome := h.tapped (htapped hsome)
  user := huid
  header _ hheader :=
    absurd hheader (by simp [ProfileController.setUser, ProfileController.reloadData])
  coming v hlast := h.coming v (hcoming v hlast)
  followed := hfollowed
  counted known hknown := h.counted known (hcounts.subset hknown)
  shown := hshown
  once := le_trans hcounts.length_le h.once

/-- The view is reloaded. -/
theorem HeaderInv.reload (h : HeaderInv me uid profile b toBe stages)
    (huser : profile'.user = profile.user) (hheader : profile'.header = none) :
    HeaderInv me uid profile' b toBe stages :=
  { h with
    user := huser ▸ h.user
    header := fun _ hsome => absurd (hheader.symm.trans hsome) (by simp)
    followed := huser ▸ h.followed
    shown := huser ▸ h.shown }

/-- Flights of notifications. -/
theorem headerTracks_quiet {fls : List (Flight Request Response Turn Client)}
    (h : ∀ fl ∈ fls, fl.Spares NoticeRequest id) :
    HeaderTracks m me uid (fls.map fun fl => ((), fl)) [] :=
  Tracks.of_quiet fun x hx => by
    obtain ⟨fl, hfl, rfl⟩ := List.mem_map.mp hx
    exact h fl hfl

section Finish

variable {l l' : List (Unit × HeaderStage)}

/-- The answer to the check is assigned. If no tap is under way it is right. -/
theorem HeaderInv.finish_check {isFollowed : Bool}
    (h : HeaderInv me uid profile b toBe (l ++ ((), .checked isFollowed) :: l'))
    (hright : HeaderStage.outstanding (l ++ ((), .checked isFollowed) :: l') = [] →
      isFollowed = toBe) :
    HeaderInv me uid (profile.setUser { profile.user with isFollowed := isFollowed }) b toBe
      (l ++ l' ++ []) := by
  refine h.assign h.user ?_ ?_ ?_ ?_ ?_
  · simp [HeaderStage.outstanding]
  · simp [HeaderStage.outstanding]
  · intro hnone _
    refine hright ?_
    simpa [HeaderStage.outstanding] using hnone
  · simp
  · intro hnone
    exact h.shown (by simpa using hnone)

/-- The statistics go on to their next query. -/
theorem HeaderInv.next_count {known : List Nat}
    (h : HeaderInv me uid profile b toBe (l ++ ((), .counting known) :: l')) :
    HeaderInv me uid profile b toBe (l ++ l' ++ [((), .counting known)]) := by
  refine h.restage (by simp [HeaderStage.outstanding]) (by simp) ?_
  simp only [counts_append, counts_cons, counts_nil, List.append_nil, List.append_assoc,
    List.singleton_append]
  exact (List.perm_append_singleton _ _).append_left _

/-- The statistics are assigned. -/
theorem HeaderInv.finish_count {followers following posts : Nat}
    (h : HeaderInv me uid profile b toBe (l ++ ((), .counting [followers, following]) :: l')) :
    HeaderInv me uid
      (profile.setUser { profile.user with stats := ⟨followers, following, posts⟩ }) b toBe
      (l ++ l' ++ []) := by
  refine h.assign h.user ?_ ?_ ?_ ?_ ?_
  · simp [HeaderStage.outstanding]
  · simp [HeaderStage.outstanding]
  · intro hnone hchecked
    exact h.followed (by simpa [HeaderStage.outstanding] using hnone) (by simpa using hchecked)
  · simp
  · intro _
    obtain ⟨known, hknown⟩ := h.counted [followers, following] (by simp)
    obtain ⟨hfollowers, hrest⟩ := List.cons.inj hknown
    exact ⟨hfollowers, (List.cons.inj hrest).1⟩

/-- The oldest tap is through, and assigns what it has written. -/
theorem HeaderInv.finish_tap {v : Bool}
    (h : HeaderInv me uid profile b toBe (l ++ ((), .copying v) :: l')) (hcopies : copies l = [])
    (hmarks : marks l = []) :
    HeaderInv me uid (profile.setUser { profile.user with isFollowed := v }) b toBe
      (l ++ l' ++ []) := by
  have hold : HeaderStage.outstanding (l ++ ((), .copying v) :: l')
      = v :: HeaderStage.outstanding (l ++ l' ++ []) := by
    simp [HeaderStage.outstanding, hcopies, hmarks]
  refine h.assign h.user ?_ ?_ ?_ ?_ ?_
  · rw [hold]
    simp
  · intro v' hlast
    rw [hold, List.getLast?_cons, hlast]
    rfl
  · -- it was the last one too
    intro hnone _
    exact h.coming v (by rw [hold, hnone]; rfl)
  · simp
  · intro hnone
    exact h.shown (by simpa using hnone)

/-- The posts of the user replace the old ones, or are not read. -/
theorem HeaderInv.finish_load {client : Client}
    (h : HeaderInv me uid (client.profiles m) b toBe (l ++ ((), .loading) :: l'))
    (snapshot : Option (List (String × Doc))) (e : Turn) :
    ((didFetchOwnPosts m snapshot).exec e client).2 = []
      ∧ HeaderInv me uid (((didFetchOwnPosts m snapshot).exec e client).1.profiles m) b toBe
          (l ++ l' ++ []) := by
  have hsame : HeaderInv me uid (client.profiles m) b toBe (l ++ l' ++ []) :=
    h.restage (by simp [HeaderStage.outstanding]) (by simp) (by simp)
  cases snapshot with
  | none => exact ⟨rfl, hsame⟩
  | some documents =>
    have hexec : ((didFetchOwnPosts m (some documents)).exec e client).1
        = client.mapProfile m fun profile =>
            { profile with
              posts :=
                (documents.map fun x : String × Doc => Post.init e.now x.1 x.2).mergeSort
                  PostService.newerFirst }.reloadData := rfl
    rw [hexec, Client.mapProfile_profiles, if_pos rfl]
    exact ⟨rfl, hsame.reload rfl rfl⟩

/-- The completion of a tap assigns its flag, and starts only notifications. -/
theorem HeaderInv.finish_copy {client : Client} {v : Bool} {p : Program Client}
    (h : HeaderInv me uid (client.profiles m) b toBe (l ++ ((), .copying v) :: l'))
    (hcopies : copies l = []) (hmarks : marks l = []) (hp : SetsFlag m v p) (e : Turn) :
    (∀ fl ∈ (p.exec e client).2, fl.Spares NoticeRequest id)
      ∧ HeaderInv me uid ((p.exec e client).1.profiles m) b toBe (l ++ l' ++ []) := by
  obtain ⟨rest, hrest, rfl⟩ := hp
  obtain ⟨hclient, hissues⟩ := hrest.exec e (client.mapProfile m fun profile =>
    profile.setUser { profile.user with isFollowed := v })
  refine ⟨hissues, ?_⟩
  show HeaderInv me uid ((rest.exec e _).1.profiles m) b toBe _
  rw [show (rest.exec e _).1 = _ from hclient]
  show HeaderInv me uid ((client.mapProfile m _).profiles m) b toBe _
  rw [Client.mapProfile_profiles, if_pos rfl]
  exact h.finish_tap hcopies hmarks

end Finish

/-- The callback of a stage runs. -/
theorem HeaderInv.deliver {client : Client} {l l' : List (Unit × HeaderStage)} {t : HeaderStage}
    {r : Request} {p : Program Client}
    (h : HeaderInv me uid (client.profiles m) b toBe (l ++ ((), t) :: l'))
    (hflight : HeaderFlight m me uid (.served r p) t)
    (hfifo : r.isWrite = true → copies l = [] ∧ marks l = [])
    (hcheck : ∀ snapshot, r = .getDocument ["following", me, "user-following", uid] →
      p = didReadFollow m (some snapshot) → HeaderStage.outstanding (l ++ ((), t) :: l') = [] →
        snapshot.data.isSome = toBe) (e : Turn) :
    ∃ stages',
      HeaderTracks m me uid ((p.exec e client).2.map fun fl => ((), fl)) stages'
        ∧ HeaderInv me uid ((p.exec e client).1.profiles m) b toBe (l ++ l' ++ stages')
        ∧ ∀ fl ∈ (p.exec e client).2,
          ¬ (document ["following", me, "user-following", uid]).touches fl.req := by
  generalize hfl : Flight.served r p = fl at hflight
  cases hflight with
  | checked snapshot =>
    obtain ⟨rfl, rfl⟩ := Flight.served.inj hfl
    refine ⟨[], .nil, ?_, fun fl hfl => absurd hfl List.not_mem_nil⟩
    show HeaderInv me uid ((client.mapProfile m _).profiles m) b toBe _
    rw [Client.mapProfile_profiles, if_pos rfl]
    exact h.finish_check (hcheck snapshot rfl rfl)
  | counted snapshot =>
    obtain ⟨rfl, rfl⟩ := Flight.served.inj hfl
    refine ⟨[((), .counting [_])], Tracks.single (.countingFollowing _), h.next_count,
      fun fl hfl => ?_⟩
    obtain rfl := List.mem_singleton.mp hfl
    simp [document]
  | countedFollowing followers snapshot =>
    obtain ⟨rfl, rfl⟩ := Flight.served.inj hfl
    refine ⟨[((), .counting [followers, _])], Tracks.single (.countingPosts followers _),
      h.next_count, fun fl hfl => ?_⟩
    obtain rfl := List.mem_singleton.mp hfl
    simp [document]
  | countedPosts followers following snapshot =>
    obtain ⟨rfl, rfl⟩ := Flight.served.inj hfl
    refine ⟨[], .nil, ?_, fun fl hfl => absurd hfl List.not_mem_nil⟩
    show HeaderInv me uid ((client.mapProfile m _).profiles m) b toBe _
    rw [Client.mapProfile_profiles, if_pos rfl]
    exact h.finish_count
  | loaded documents =>
    obtain ⟨rfl, rfl⟩ := Flight.served.inj hfl
    obtain ⟨hnone, hinv⟩ := h.finish_load documents e
    rw [hnone]
    exact ⟨[], .nil, hinv, fun fl hfl => absurd hfl List.not_mem_nil⟩
  | marked v k hk =>
    obtain ⟨rfl, rfl⟩ := Flight.served.inj hfl
    obtain ⟨hcopies, hmarks⟩ := hfifo rfl
    refine ⟨[((), .copying v)], Tracks.single (.copying v k hk), ?_, ?_⟩
    · refine h.restage ?_ (by simp) (by simp)
      simp [HeaderStage.outstanding, hcopies, hmarks]
    · intro fl hfl
      obtain rfl := List.mem_singleton.mp hfl
      simp
  | copied v p hp =>
    obtain ⟨rfl, rfl⟩ := Flight.served.inj hfl
    obtain ⟨hcopies, hmarks⟩ := hfifo rfl
    obtain ⟨hissues, hinv⟩ := h.finish_copy hcopies hmarks hp e
    refine ⟨[], headerTracks_quiet hissues, hinv, fun fl hfl => ?_⟩
    exact ((hissues fl hfl).req.aside _ (followersQuery uid) (by simp)
      (by simp [followersQuery])).1
  | _ => exact absurd hfl (by simp [markFlight])

/-! ## Something happens -/

/-- Serving a request leaves the relation that is coming. -/
theorem toBeFollowed_serve {pre post : List (Unit × Flight Request Response Turn Client)}
    {r : Request} {k : Response r → Program Client} {o : Outcome} {y : Response r}
    (hpool : w.pool = pre ++ ((), .issued r k) :: post)
    (hfifo : api.ordered r = true → ∀ x ∈ pre, x.1 = () → x.2.waits = true →
      api.ordered x.2.req = false)
    (hserve : api.serve w.backend r o = some (b, y))
    (hgood : r.isWrite = true → o.isSuccess = true) :
    toBeFollowed me uid { w with backend := b, pool := pre ++ ((), .served r (k y)) :: post }
      = toBeFollowed me uid w := by
  refine congrArg Option.isSome (Register.settled_serve (document_lawful _) hpool hfifo hserve ?_
    fun _ _ _ _ _ _ _ _ => rfl)
  rintro ⟨wr, rfl, -⟩
  exact hgood rfl

/-- So does a callback that issues no write of it. -/
theorem toBeFollowed_deliver {pre post : List (Unit × Flight Request Response Turn Client)}
    {r : Request} {p : Program Client} {e : Turn}
    (hpool : w.pool = pre ++ ((), .served r p) :: post)
    (hissues : ∀ fl ∈ (p.exec e (w.client ())).2,
      ¬ (document ["following", me, "user-following", uid]).touches fl.req) :
    toBeFollowed me uid (w.turn () p e (pre ++ post)) = toBeFollowed me uid w := by
  refine congrArg Option.isSome ?_
  unfold Register.settled
  rw [World.turn_pool, World.turn_backend, hpool, Register.after_append, Register.after_append,
    Register.after_append, Register.after_served,
    Register.after_quiet (document_lawful _) fun x hx _ => ?_]
  obtain ⟨fl, hfl, rfl⟩ := List.mem_map.mp hx
  exact hissues fl hfl

/-- And an action that issues nothing. -/
theorem toBeFollowed_idle {p : Program Client} {e : Turn}
    (hexec : (p.exec e (w.client ())).2 = []) :
    toBeFollowed me uid (w.turn () p e w.pool) = toBeFollowed me uid w := by
  refine congrArg Option.isSome ?_
  rw [Register.settled_invoke, hexec]
  rfl

/-- A tap. -/
theorem HeaderAt.tap (h : HeaderAt m me uid w) {e : Turn} (he : e.currentUid = some me) :
    HeaderAt m me uid (w.turn () (didTapActionButton m) e w.pool) := by
  obtain ⟨stages, htracks, hinv⟩ := h
  have hexec := exec_didTapActionButton (m := m) (w.client ()) he
  have hnothing : ((didTapActionButton m).exec e (w.client ())).2 = [] →
      HeaderAt m me uid (w.turn () (didTapActionButton m) e w.pool) := by
    intro hnone
    refine ⟨stages, ?_, ?_⟩
    · rw [World.turn_pool, hnone]
      simpa using htracks
    · rw [World.turn_client, if_pos rfl, World.turn_backend, toBeFollowed_idle hnone, hexec]
      exact hinv
  cases hheader : ((w.client ()).profiles m).header with
  | none => exact hnothing (by rw [hexec, hheader])
  | some user =>
    cases htab : (w.client ()).tabUser with
    | none => exact hnothing (by rw [hexec, hheader, htab])
    | some currentUser =>
      obtain rfl := hinv.header user hheader
      by_cases hme : user.uid = me
      · exact hnothing (by rw [hexec, hheader, htab]; exact if_pos hme)
      rw [hheader, htab] at hexec
      dsimp only at hexec
      rw [if_neg hme] at hexec
      have htoBe : toBeFollowed me user.uid (w.turn () (didTapActionButton m) e w.pool)
          = !user.isFollowed := by
        unfold toBeFollowed
        rw [Register.settled_invoke, hexec]
        simp only [List.map_cons, List.map_nil, markFlight, Register.after_issued,
          Register.after_nil, document_effect_write, markWrite_path, if_true]
        cases user.isFollowed <;> rfl
      refine ⟨stages ++ [((), .marking (!user.isFollowed))], ?_, ?_⟩
      · rw [World.turn_pool, hexec]
        exact htracks.append (Tracks.single (.marking _ _ fun error =>
          setsFlag_didChange m user currentUser _ error))
      · rw [World.turn_client, if_pos rfl, World.turn_backend, htoBe, hexec]
        have hlast : HeaderStage.outstanding (stages ++ [((), .marking (!user.isFollowed))])
            = HeaderStage.outstanding stages ++ [!user.isFollowed] := by
          simp [HeaderStage.outstanding]
        refine { hinv with
          tapped := fun _ => hme
          coming := fun v hv => ?_
          followed := fun hnone => absurd hnone (by rw [hlast]; simp)
          counted := by simpa using hinv.counted
          shown := by simpa using hinv.shown
          once := by simpa using hinv.once }
        rw [hlast, List.getLast?_append] at hv
        simpa using hv.symm

/-- The header is bound: it takes the user of the controller. -/
theorem HeaderAt.bind (h : HeaderAt m me uid w) {e : Turn} :
    HeaderAt m me uid (w.turn () (HeaderAction.program m .bind) e w.pool) := by
  obtain ⟨stages, htracks, hinv⟩ := h
  refine ⟨stages, ?_, ?_⟩
  · rw [World.turn_pool, HeaderAction.program, exec_viewForHeader]
    simpa using htracks
  rw [World.turn_backend, toBeFollowed_idle rfl, World.turn_client, if_pos rfl,
    HeaderAction.program, exec_viewForHeader, Client.mapProfile_profiles, if_pos rfl]
  exact { hinv with header := fun user huser => Option.some.inj huser ▸ hinv.user }

/-- A user is handed back whose flag and counts are those shown, or still to be assigned. -/
theorem HeaderAt.handBack (h : HeaderAt m me uid w) {e : Turn} {user : User}
    (huid : user.uid = uid)
    (hflag : Toggling me uid w ∨ Checking me uid w
      ∨ user.isFollowed = ((w.client ()).profiles m).user.isFollowed)
    (hstats : Counting m uid w
      ∨ user.stats.followers = ((w.client ()).profiles m).user.stats.followers
        ∧ user.stats.following = ((w.client ()).profiles m).user.stats.following) :
    HeaderAt m me uid (w.turn () (HeaderAction.program m (.handBack user)) e w.pool) := by
  obtain ⟨stages, htracks, hinv⟩ := h
  refine ⟨stages, ?_, ?_⟩
  · rw [World.turn_pool, HeaderAction.program, exec_wantsToUpdate]
    simpa using htracks
  rw [World.turn_backend, toBeFollowed_idle rfl, World.turn_client, if_pos rfl,
    HeaderAction.program, exec_wantsToUpdate, Client.mapProfile_profiles, if_pos rfl]
  refine hinv.assign huid id (fun _ => id) (fun hnone hchecked => ?_) (List.Sublist.refl _)
    fun hcounted => ?_
  · rcases hflag with htoggling | hchecking | hsame
    · exact absurd hnone (htoggling.outstanding htracks)
    · exact absurd hchecked (hchecking.checks htracks)
    · rw [hsame]
      exact hinv.followed hnone hchecked
  · rcases hstats with hcounting | ⟨hfollowers, hfollowing⟩
    · exact absurd hcounted (hcounting.counts htracks)
    · rw [hfollowers, hfollowing]
      exact hinv.shown hcounted

section Serviced

variable {pre post : List (Unit × Flight Request Response Turn Client)} {r : Request}

/-- A request is served: it is quiet, or the stage it is in moves on. -/
theorem HeaderAt.serve {k : Response r → Program Client} {o : Outcome} {y : Response r}
    (h : HeaderAt m me uid w) (hpool : w.pool = pre ++ ((), .issued r k) :: post)
    (hfifo : api.ordered r = true → ∀ x ∈ pre, x.1 = () → x.2.waits = true →
      api.ordered x.2.req = false)
    (hserve : api.serve w.backend r o = some (b, y))
    (hgood : r.isWrite = true → o.isSuccess = true)
    (hread : r.reads ["following", me, "user-following", uid] = true
      ∨ r.queries (followersQuery uid) = true ∨ r.queries (followingQuery uid) = true →
        o.isSuccess = true)
    (hfar : ∀ v ∈ r.leaves ["followers", uid, "user-followers", me],
      v = w.backend.exists ["followers", uid, "user-followers", me] ∨ Uncounted uid w) :
    HeaderAt m me uid { w with backend := b, pool := pre ++ ((), .served r (k y)) :: post } := by
  obtain ⟨stages, htracks, hinv⟩ := h
  have htoBe : toBeFollowed me uid _ = toBeFollowed me uid w :=
    toBeFollowed_serve hpool hfifo hserve hgood
  have htracks' := htracks
  rw [hpool] at htracks'
  obtain ⟨l, l', hpre, hpost, hcase⟩ := htracks'.split
  rcases hcase with ⟨hquiet, rfl⟩ | ⟨t, hflight, rfl⟩
  · -- a quiet write is of a notification, so neither collection grows
    have hnotice : ∀ wr, r = .write wr → ∀ id,
        ["followers", uid, "user-followers"] ++ [id] ≠ wr.path
          ∧ ["following", uid, "user-following"] ++ [id] ≠ wr.path := by
      rintro wr rfl id
      obtain ⟨u, id', hwr⟩ := hquiet.1
      rw [hwr]
      exact ⟨by simp, by simp⟩
    refine ⟨l ++ l', hpre.append (.quiet ⟨hquiet.1, hquiet.2 y⟩ hpost), ?_⟩
    rw [htoBe]
    exact hinv.stored (serve_length_ids hserve fun wr hwr id => (hnotice wr hwr id).1)
      (serve_length_ids hserve fun wr hwr id => (hnotice wr hwr id).2)
  · obtain ⟨t', hflight', hinv'⟩ := hinv.serve hflight hserve hgood hread fun v hv =>
      (hfar v hv).imp_right fun huncounted => huncounted.counts htracks
    refine ⟨l ++ ((), t') :: l', hpre.append (.stage hflight' hpost), ?_⟩
    rw [htoBe]
    exact hinv'

/-- A callback runs: it is quiet, or it is the next stage's. -/
theorem HeaderAt.deliver {p : Program Client} {e : Turn} (h : HeaderAt m me uid w)
    (hpool : w.pool = pre ++ ((), .served r p) :: post)
    (hfifo : api.ordered r = true → ∀ x ∈ pre, x.1 = () → api.ordered x.2.req = false)
    (hright : ∀ snapshot, r = .getDocument ["following", me, "user-following", uid] →
      p = didReadFollow m (some snapshot) → Toggling me uid w
        ∨ snapshot.data.isSome = w.backend.exists ["following", me, "user-following", uid]) :
    HeaderAt m me uid (w.turn () p e (pre ++ post)) := by
  obtain ⟨stages, htracks, hinv⟩ := h
  have htracks' := htracks
  rw [hpool] at htracks'
  obtain ⟨l, l', hpre, hpost, hcase⟩ := htracks'.split
  rcases hcase with ⟨hquiet, rfl⟩ | ⟨t, hflight, rfl⟩
  · obtain ⟨hclient, hissues⟩ := Prog.Spares.exec hquiet.2 e (w.client ())
    refine ⟨l ++ l' ++ [], (hpre.append hpost).append (headerTracks_quiet hissues), ?_⟩
    rw [toBeFollowed_deliver hpool fun fl hfl => ((hissues fl hfl).req.aside _
      (followersQuery uid) (by simp) (by simp [followersQuery])).1, World.turn_client,
      if_pos rfl, List.append_nil]
    rw [show (p.exec e (w.client ())).1 = w.client () from hclient]
    exact hinv
  · -- the acknowledgement of a write finds no earlier tap outstanding
    have hfront : r.isWrite = true → copies l = [] ∧ marks l = [] := by
      intro hwrite
      refine outstanding_unordered hpre fun x hx => hfifo ?_ x hx rfl
      cases r with
      | write wr => rfl
      | _ => exact absurd hwrite (by simp [Request.isWrite])
    have hchecked : ∀ snapshot, r = .getDocument ["following", me, "user-following", uid] →
        p = didReadFollow m (some snapshot) → HeaderStage.outstanding (l ++ ((), t) :: l') = [] →
          snapshot.data.isSome = toBeFollowed me uid w := by
      intro snapshot hr hp hnone
      rcases hright snapshot hr hp with htoggling | hstored
      · exact absurd hnone (htoggling.outstanding htracks)
      · rw [hstored, toBeFollowed_stored htracks hnone]
    obtain ⟨stages', hissues, hinv', hnear⟩ := hinv.deliver hflight hfront hchecked e
    refine ⟨l ++ l' ++ stages', (hpre.append hpost).append hissues, ?_⟩
    rw [toBeFollowed_deliver hpool hnear, World.turn_client, if_pos rfl]
    exact hinv'

end Serviced

/-- A step that meets the condition. -/
theorem HeaderAt.step {w' : AppWorld Client Unit} {ev : AppEvent Unit HeaderAction}
    (h : HeaderAt m me uid w) (hok : HeaderOk m me uid w ev)
    (hstep : Stepped api (HeaderAction.program m) w ev w') : HeaderAt m me uid w' := by
  obtain ⟨⟨henv, hhealthy⟩, htime, hright⟩ := hok
  cases hstep with
  | invoke s action e =>
    cases action with
    | tap => exact h.tap henv
    | bind => exact h.bind
    | handBack user =>
      obtain ⟨huid, hflag, hstats⟩ := hright
      exact h.handBack huid hflag hstats
  | serve hpool hfifo hserve =>
    have hget := getElem?_split hpool
    obtain ⟨hread, hfar⟩ := htime _ hget
    exact h.serve hpool hfifo hserve (hhealthy _ hget) hread hfar
  | deliver hpool hfifo =>
    refine h.deliver hpool hfifo ?_
    rintro snapshot rfl rfl
    exact hright _ (getElem?_split hpool) snapshot rfl
  | drop hpool => exact hhealthy.elim

/-- The view has loaded. -/
theorem headerAt_push {w₀ : AppWorld Client Unit} {user : User} {turn : Turn}
    (hrest : w₀.Quiescent) (hfresh : (w₀.client ()).profiles m = {})
    (hturn : turn.currentUid = some me) :
    HeaderAt m me user.uid (w₀.turn () (push m user) turn w₀.pool) := by
  have hloaded : ((w₀.client ()).profiles m).loaded = false := by rw [hfresh]
  have hexec := exec_push hloaded hturn user
  refine ⟨[((), .checking), ((), .counting []), ((), .loading)], ?_, ?_⟩
  · rw [World.turn_pool, hrest, hexec]
    exact .stage .checking (.stage .counting (.stage .loading .nil))
  · rw [World.turn_client, if_pos rfl, hexec, Client.mapProfile_profiles, if_pos rfl, hfresh]
    refine ⟨fun h => absurd rfl h, rfl, ?_, ?_, ?_, by simp, ?_, by simp⟩
    · exact fun _ h => absurd h (by simp)
    · exact fun _ h => absurd h (by simp [HeaderStage.outstanding])
    · exact fun _ h => absurd h (by simp)
    · exact fun h => absurd h (by simp)

end Stages

/-- **The header of a profile.** In every run whose steps keep what has been read, whenever
nothing is in flight the user has the relation and the counts that are stored. -/
theorem header_shows {m : Nat} {me : String} {user : User} {turn : Turn}
    {w₀ w : AppWorld Client Unit} (hrest : w₀.Quiescent)
    (hfresh : (w₀.client ()).profiles m = {}) (hturn : turn.currentUid = some me)
    {es : List (AppEvent Unit HeaderAction)}
    (run : Run api (HeaderAction.program m) (HeaderOk m me user.uid)
      (w₀.turn () (push m user) turn w₀.pool) es w)
    (hquiet : w.Quiescent) : HeaderShows me w.backend ((w.client ()).profiles m).user := by
  have hend : HeaderAt m me user.uid w :=
    run.invariant (I := fun _ w => HeaderAt m me user.uid w) (headerAt_push hrest hfresh hturn)
      fun _ _ _ _ h hok hstep => h.step hok hstep
  obtain ⟨stages, htracks, hinv⟩ := hend
  rw [World.Quiescent] at hquiet
  have hstored := fun hnone => toBeFollowed_stored htracks hnone
  rw [hquiet] at htracks
  cases htracks
  unfold HeaderShows
  rw [hinv.user]
  exact ⟨(hinv.followed rfl rfl).trans (hstored rfl), hinv.shown rfl⟩

/-! ## Two visits -/

/-- A stricter condition: the check comes in while a tap is under way, and nothing is handed
back. -/
def HeaderCalm (me uid : String) (w : AppWorld Client Unit) (ev : AppEvent Unit HeaderAction) :
    Prop :=
  Plain (fun _ => me) w ev ∧ ReadsInTime me uid w ev
    ∧ match ev with
      | .deliver i _ => ∀ x ∈ w.pool[i]?,
          x.2.req.reads ["following", me, "user-following", uid] = true → Toggling me uid w
      | .invoke _ (.handBack _) _ => False
      | _ => True

instance (me uid : String) (w : AppWorld Client Unit) (ev : AppEvent Unit HeaderAction) :
    Decidable (HeaderCalm me uid w ev) :=
  match ev with
  | .invoke _ .bind _ => inferInstanceAs (Decidable (_ ∧ _ ∧ True))
  | .invoke _ .tap _ => inferInstanceAs (Decidable (_ ∧ _ ∧ True))
  | .invoke _ (.handBack _) _ => inferInstanceAs (Decidable (_ ∧ _ ∧ False))
  | .serve _ _ => inferInstanceAs (Decidable (_ ∧ _ ∧ True))
  | .deliver _ _ => inferInstanceAs (Decidable (_ ∧ _ ∧ ∀ x ∈ _, _))
  | .drop _ => inferInstanceAs (Decidable (_ ∧ _ ∧ True))

theorem headerOk_of_calm {m : Nat} {me uid : String} {w : AppWorld Client Unit}
    {ev : AppEvent Unit HeaderAction} (h : HeaderCalm me uid w ev) : HeaderOk m me uid w ev := by
  obtain ⟨hplain, htime, hcalm⟩ := h
  refine ⟨hplain, htime, ?_⟩
  cases ev with
  | invoke s action e =>
    cases action with
    | handBack user => exact hcalm.elim
    | _ => trivial
  | deliver i e =>
    refine fun x hx snapshot heq => Or.inl (hcalm x hx ?_)
    rw [heq]
    simp [Request.reads]
  | _ => trivial

/-- `a` is signed in, and nobody follows anybody. -/
def visitor : AppWorld Client Unit :=
  atRest .empty fun _ => { tabUser := some (User.init (dict [("uid", .string "a")])) }

/-- `b`, as he was fetched. -/
def visited : User := User.init (dict [("uid", .string "b")])

/-- His profile is pushed. -/
def visit : AppWorld Client Unit := visitor.turn () (push 0 visited) (turnOf "a") visitor.pool

/-- The first flight is served and its callback runs. -/
def answerNext (names : List String := []) : List (AppEvent Unit HeaderAction) :=
  [.serve 0 (.success names), .deliver 0 (turnOf "a")]

/-- The header is bound and its button tapped. -/
def followTap : List (AppEvent Unit HeaderAction) :=
  [.invoke () .bind (turnOf "a"), .invoke () .tap (turnOf "a")]

/-- The tap comes first, the check is answered before its write and comes in after it, and then
the statistics are read. -/
def tapFirst : List (AppEvent Unit HeaderAction) :=
  followTap
    ++ [.serve 0 (.success []), .serve 3 (.success []), .deliver 3 (turnOf "a"),
        .deliver 0 (turnOf "a"), .serve 2 (.success []), .deliver 2 (turnOf "a")]
    ++ answerNext ["a"] ++ answerNext ++ answerNext ++ answerNext ++ answerNext

/-- Then the header shows the follow. -/
theorem header_shows_tapFirst :
    ∃ w, Run api (HeaderAction.program 0) (HeaderOk 0 "a" visited.uid) visit tapFirst w
      ∧ w.Quiescent ∧ ((w.client ()).profiles 0).user.isFollowed = true
      ∧ ((w.client ()).profiles 0).user.stats.followers = 1
      ∧ HeaderShows "a" w.backend ((w.client ()).profiles 0).user := by
  obtain ⟨w, run, hquiet, hflag, hstats⟩ :
      ∃ w, Run api (HeaderAction.program 0) (HeaderCalm "a" visited.uid) visit tapFirst w
        ∧ w.Quiescent ∧ ((w.client ()).profiles 0).user.isFollowed = true
        ∧ ((w.client ()).profiles 0).user.stats.followers = 1 := exists_run_of_play (by decide)
  have hrest : visitor.Quiescent := rfl
  have run' : Run api (HeaderAction.program 0) (HeaderOk 0 "a" visited.uid)
      (visitor.turn () (push 0 visited) (turnOf "a") visitor.pool) tapFirst w :=
    run.mono fun _ _ h => headerOk_of_calm h
  exact ⟨w, run', hquiet, hflag, hstats, header_shows hrest rfl rfl run' hquiet⟩

/-- Everything is read and shown before the tap. -/
def tapLast : List (AppEvent Unit HeaderAction) :=
  answerNext ++ answerNext ++ answerNext ++ answerNext ++ answerNext ++ followTap
    ++ answerNext ++ answerNext ++ answerNext

/-- `b` has a follower, and the header says that he has none. -/
theorem header_outdated :
    ∃ w, Run api (HeaderAction.program 0) (Plain fun _ => "a") visit tapLast w
      ∧ w.Quiescent ∧ ((w.client ()).profiles 0).user.isFollowed = true
      ∧ w.backend.followers "b" = 1
      ∧ ((w.client ()).profiles 0).user.stats.followers = 0
      ∧ ¬ HeaderShows "a" w.backend ((w.client ()).profiles 0).user := by
  obtain ⟨w, run, hquiet, hflag, huid, hstored, hstats⟩ :
      ∃ w, Run api (HeaderAction.program 0) (Plain fun _ => "a") visit tapLast w
        ∧ w.Quiescent ∧ ((w.client ()).profiles 0).user.isFollowed = true
        ∧ ((w.client ()).profiles 0).user.uid = "b"
        ∧ w.backend.followers "b" = 1
        ∧ ((w.client ()).profiles 0).user.stats.followers = 0 := exists_run_of_play (by decide)
  refine ⟨w, run, hquiet, hflag, hstored, hstats, fun h => ?_⟩
  have hfollowers := h.2.1
  rw [huid, hstored, hstats] at hfollowers
  exact absurd hfollowers (by decide)

end InstaClone
