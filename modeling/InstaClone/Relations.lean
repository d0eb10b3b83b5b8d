import InstaClone.Services
import InstaClone.Sessions

/-!
# The follow and like relations, each stored in two halves

`follow` writes `following/{a}/user-following/{b}` and then, from the
acknowledgement, `followers/{b}/user-followers/{a}`; `likePost` writes
`posts/{p}/post-likes/{u}` and then `users/{u}/user-likes/{p}`. Both are the
mirrored marks of `Sessions`, so everything here is an instance of
`Async.Mirror`: a call either starts one operation on a pair or is quiet about it
(`followStarts`, `likeStarts`), and that is all the protocol asks.

The runs are of all four calls by any number of sessions. What a call's
`completion` does is a parameter; it may do anything but write the two relations.
-/

namespace InstaClone

open Async
open Async.Mirror (Alone Stages Tracked)

/-- The calls that change the two relations. -/
inductive RelationCall where
  | follow (uid : String)
  | unfollow (uid : String)
  | likePost (post : Post)
  | unlikePost (post : Post)

variable {σ S A : Type}

/-- The service function behind a call; `completion` is the caller's. -/
def RelationCall.program (completion : RelationCall → Option Error → Program σ) :
    RelationCall → Program σ
  | .follow uid => UserService.follow uid (completion (.follow uid))
  | .unfollow uid => UserService.unfollow uid (completion (.unfollow uid))
  | .likePost post => PostService.likePost post (completion (.likePost post))
  | .unlikePost post => PostService.unlikePost post (completion (.unlikePost post))

/-- `following/{a}/user-following/{b}` and its mirror. -/
def followMark (a b : String) : Mirror.Spec Request Backend :=
  presence ["following", a, "user-following", b] ["followers", b, "user-followers", a]

/-- `posts/{p}/post-likes/{u}` and its mirror. -/
def likeMark (u p : String) : Mirror.Spec Request Backend :=
  presence ["posts", p, "post-likes", u] ["users", u, "user-likes", p]

/-- The caller's completions leave both relations alone. -/
def Neutral (uidOf : S → String) (completion : RelationCall → Option Error → Program σ) : Prop :=
  ∀ c y s u x, (completion c y).Keeps ((followMark u x).quiet (SignedIn uidOf s))
    ∧ (completion c y).Keeps ((likeMark u x).quiet (SignedIn uidOf s))

theorem neutral_noCompletion (uidOf : S → String) :
    Neutral (σ := σ) uidOf fun _ => noCompletion :=
  fun _ _ _ _ _ => ⟨Prog.keeps_done, Prog.keeps_done⟩

/-! ## What each call does to a mirrored mark -/

/-- A write in flight that nothing waits for. -/
def writeFlight (w : Write) : Flight Request Response Turn σ :=
  .issued (.write w) noCompletion

/-- A mark in flight whose acknowledgement issues its mirror. -/
def markFlight (nearPath farPath : Path) (v : Bool) (k : Option Error → Program σ) :
    Flight Request Response Turn σ :=
  .issued (.write (markWrite nearPath v)) fun _ => .call (.write (markWrite farPath v)) k .done

section Chain

variable {nearPath farPath near' far' : Path} {env : Turn → Prop} {v : Bool}
  {k : Option Error → Program σ} {turn : Turn}

/-- Two marks one after the other, on this very pair: an operation in its first
stage. -/
theorem stages_chain {V : S → Turn → Prop} {s : S}
    (hk : ∀ y, (k y).Keeps ((presence nearPath farPath).quiet (V s))) :
    Stages (presence nearPath farPath) V [(s, markFlight nearPath farPath v k)]
      [(s, .first v)] :=
  .single (.first (M := presence nearPath farPath) fun _ => ⟨k, rfl, hk⟩)

/-- Two marks one after the other, on other documents: quiet. -/
theorem keeps_chain (hturn : env turn) (hnear : near' ≠ nearPath ∧ near' ≠ farPath)
    (hfar : far' ≠ nearPath ∧ far' ≠ farPath)
    (hk : ∀ y, (k y).Keeps ((presence nearPath farPath).quiet env)) :
    (markFlight near' far' v k).Keeps ((presence nearPath farPath).quiet env) := by
  refine ⟨⟨turn, hturn, ?_⟩, fun _ _ _ _ => ⟨?_, fun y _ => hk y, trivial⟩⟩
  · show ¬ (presence nearPath farPath).touches _
    simp [hnear]
  · show ¬ (presence nearPath farPath).touches _
    simp [hfar]

/-- A single write of another document is quiet. -/
theorem keeps_write {w : Write} (hturn : env turn) (hw : w.path ≠ nearPath ∧ w.path ≠ farPath) :
    (writeFlight w : Flight Request Response Turn σ).Keeps
      ((presence nearPath farPath).quiet env) := by
  refine ⟨⟨turn, hturn, ?_⟩, fun _ _ => Prog.keeps_done⟩
  show ¬ (presence nearPath farPath).touches _
  simp [hw]

end Chain

/-- The requests a call issues when `uid` is signed in. -/
theorem program_issues {completion : RelationCall → Option Error → Program σ}
    {turn : Turn} {uid : String} (hturn : turn.currentUid = some uid) (c : RelationCall) (x : σ) :
    ((c.program completion).exec turn x).2 =
      match c with
      | .follow b =>
        [markFlight ["following", uid, "user-following", b] ["followers", b, "user-followers", uid]
          true (completion c)]
      | .unfollow b =>
        [markFlight ["following", uid, "user-following", b] ["followers", b, "user-followers", uid]
          false (completion c)]
      | .likePost post =>
        [writeFlight (.updateData ["posts", post.postId]
            (dict [("likes", .int (post.likes + 1))])),
         markFlight ["posts", post.postId, "post-likes", uid]
          ["users", uid, "user-likes", post.postId] true (completion c)]
      | .unlikePost post =>
        if post.likes > 0 then
          [writeFlight (.updateData ["posts", post.postId]
              (dict [("likes", .int (post.likes - 1))])),
           markFlight ["posts", post.postId, "post-likes", uid]
            ["users", uid, "user-likes", post.postId] false (completion c)]
        else [] := by
  cases c with
  | follow b => simp only [RelationCall.program, UserService.follow, withCurrentUid,
      Prog.exec_ask, hturn]; rfl
  | unfollow b => simp only [RelationCall.program, UserService.unfollow, withCurrentUid,
      Prog.exec_ask, hturn]; rfl
  | likePost post => simp only [RelationCall.program, PostService.likePost, withCurrentUid,
      Prog.exec_ask, hturn]; rfl
  | unlikePost post =>
    simp only [RelationCall.program, PostService.unlikePost, withCurrentUid, Prog.exec_ask, hturn]
    split <;> rfl

/-- The operation a call starts on the follow relation of `a` and `b`. -/
def followStarts (uid a b : String) : RelationCall → Option Bool
  | .follow c => if uid = a ∧ c = b then some true else none
  | .unfollow c => if uid = a ∧ c = b then some false else none
  | .likePost _ => none
  | .unlikePost _ => none

/-- The operation a call starts on the like relation of `u` and `p`: every
`likePost`, and an `unlikePost` that gets past its guard. -/
def likeStarts (uid u p : String) : RelationCall → Option Bool
  | .follow _ => none
  | .unfollow _ => none
  | .likePost post => if uid = u ∧ post.postId = p then some true else none
  | .unlikePost post => if uid = u ∧ post.postId = p ∧ post.likes > 0 then some false else none

/-- Only `a` starts operations on `a`'s follow relations, and only by `follow` and
`unfollow`. -/
theorem followStarts_isSome {uid a b : String} {c : RelationCall}
    (h : (followStarts uid a b c).isSome = true) : uid = a ∧ (c = .follow b ∨ c = .unfollow b) := by
  cases c with
  | follow c =>
    simp only [followStarts] at h
    split at h
    next heq => exact ⟨heq.1, Or.inl (by rw [heq.2])⟩
    next => exact absurd h (by simp)
  | unfollow c =>
    simp only [followStarts] at h
    split at h
    next heq => exact ⟨heq.1, Or.inr (by rw [heq.2])⟩
    next => exact absurd h (by simp)
  | likePost post => exact absurd h (by simp [followStarts])
  | unlikePost post => exact absurd h (by simp [followStarts])

/-- Only `u` starts operations on `u`'s likes. -/
theorem likeStarts_isSome {uid u p : String} {c : RelationCall}
    (h : (likeStarts uid u p c).isSome = true) : uid = u := by
  cases c with
  | follow c => exact absurd h (by simp [likeStarts])
  | unfollow c => exact absurd h (by simp [likeStarts])
  | likePost post =>
    simp only [likeStarts] at h
    split at h
    next heq => exact heq.1
    next => exact absurd h (by simp)
  | unlikePost post =>
    simp only [likeStarts] at h
    split at h
    next heq => exact heq.1
    next => exact absurd h (by simp)

/-- What starts an operation on the likes of `u` on `p`. -/
theorem likeStarts_cases {uid u p : String} {c : RelationCall}
    (h : (likeStarts uid u p c).isSome = true) :
    uid = u ∧ ((∃ post, c = .likePost post ∧ post.postId = p)
      ∨ ∃ post, c = .unlikePost post ∧ post.postId = p ∧ post.likes > 0) := by
  refine ⟨likeStarts_isSome h, ?_⟩
  cases c with
  | follow c => exact absurd h (by simp [likeStarts])
  | unfollow c => exact absurd h (by simp [likeStarts])
  | likePost post =>
    simp only [likeStarts] at h
    split at h
    next heq => exact Or.inl ⟨post, rfl, heq.2⟩
    next => exact absurd h (by simp)
  | unlikePost post =>
    simp only [likeStarts] at h
    split at h
    next heq => exact Or.inr ⟨post, rfl, heq.2⟩
    next => exact absurd h (by simp)

section Starts

variable {uidOf : S → String} {completion : RelationCall → Option Error → Program σ}

/-- A call starts one operation on a follow pair, or is quiet about it. -/
theorem follow_stages (hcompl : Neutral uidOf completion) {s : S} {turn : Turn}
    (hturn : SignedIn uidOf s turn) (a b : String) (c : RelationCall) (x : σ) :
    Stages (followMark a b) (SignedIn uidOf)
      ((((c.program completion).exec turn x).2).map fun fl => (s, fl))
      ((followStarts (uidOf s) a b c).toList.map fun v => (s, .first v)) := by
  rw [program_issues hturn]
  have hk : ∀ c y, (completion c y).Keeps ((followMark a b).quiet (SignedIn uidOf s)) :=
    fun c y => (hcompl c y s a b).1
  cases c with
  | follow c =>
    by_cases h : uidOf s = a ∧ c = b
    · obtain ⟨rfl, rfl⟩ := h
      rw [followStarts, if_pos ⟨rfl, rfl⟩]
      exact stages_chain (hk _)
    · rw [followStarts, if_neg h]
      refine .quiet (keeps_chain hturn ⟨?_, ?_⟩ ⟨?_, ?_⟩ (hk _)) .nil <;> simp <;> tauto
  | unfollow c =>
    by_cases h : uidOf s = a ∧ c = b
    · obtain ⟨rfl, rfl⟩ := h
      rw [followStarts, if_pos ⟨rfl, rfl⟩]
      exact stages_chain (hk _)
    · rw [followStarts, if_neg h]
      refine .quiet (keeps_chain hturn ⟨?_, ?_⟩ ⟨?_, ?_⟩ (hk _)) .nil <;> simp <;> tauto
  | likePost post =>
    exact .quiet (keeps_write hturn (by simp))
      (.quiet (keeps_chain hturn (by simp) (by simp) (hk _)) .nil)
  | unlikePost post =>
    dsimp only
    split
    · exact .quiet (keeps_write hturn (by simp))
        (.quiet (keeps_chain hturn (by simp) (by simp) (hk _)) .nil)
    · exact .nil

/-- A call starts one operation on a like pair, or is quiet about it. -/
theorem like_stages (hcompl : Neutral uidOf completion) {s : S} {turn : Turn}
    (hturn : SignedIn uidOf s turn) (u p : String) (c : RelationCall) (x : σ) :
    Stages (likeMark u p) (SignedIn uidOf)
      ((((c.program completion).exec turn x).2).map fun fl => (s, fl))
      ((likeStarts (uidOf s) u p c).toList.map fun v => (s, .first v)) := by
  rw [program_issues hturn]
  have hk : ∀ c y, (completion c y).Keeps ((likeMark u p).quiet (SignedIn uidOf s)) :=
    fun c y => (hcompl c y s u p).2
  cases c with
  | follow c => exact .quiet (keeps_chain hturn (by simp) (by simp) (hk _)) .nil
  | unfollow c => exact .quiet (keeps_chain hturn (by simp) (by simp) (hk _)) .nil
  | likePost post =>
    refine .quiet (keeps_write hturn (by simp)) ?_
    by_cases h : uidOf s = u ∧ post.postId = p
    · obtain ⟨rfl, rfl⟩ := h
      rw [likeStarts, if_pos ⟨rfl, rfl⟩]
      exact stages_chain (hk _)
    · rw [likeStarts, if_neg h]
      refine .quiet (keeps_chain hturn ⟨?_, ?_⟩ ⟨?_, ?_⟩ (hk _)) .nil <;> simp <;> tauto
  | unlikePost post =>
    dsimp only
    by_cases hlikes : post.likes > 0
    · rw [if_pos hlikes]
      refine .quiet (keeps_write hturn (by simp)) ?_
      by_cases h : uidOf s = u ∧ post.postId = p
      · obtain ⟨rfl, rfl⟩ := h
        rw [likeStarts, if_pos ⟨rfl, rfl, hlikes⟩]
        exact stages_chain (hk _)
      · rw [likeStarts, if_neg (by tauto)]
        refine .quiet (keeps_chain hturn ⟨?_, ?_⟩ ⟨?_, ?_⟩ (hk _)) .nil <;> simp <;> tauto
    · rw [if_neg hlikes, likeStarts, if_neg (by tauto)]
      exact .nil

end Starts

/-! ## Runs -/

section Runs

variable [DecidableEq S] {uidOf : S → String}
  {completion : RelationCall → Option Error → Program σ}

/-- The value of the last operation that a run has started, `v` if there is none. -/
def lastStarted (uidOf : S → String) (starts : String → RelationCall → Option Bool) (v : Bool)
    (es : List (AppEvent S RelationCall)) : Bool :=
  es.foldl (fun v ev =>
    match ev with
    | .invoke s c _ => (starts (uidOf s) c).getD v
    | _ => v) v

omit [DecidableEq S] in
theorem lastStarted_snoc (starts : String → RelationCall → Option Bool) (v : Bool)
    (es : List (AppEvent S RelationCall)) (ev : AppEvent S RelationCall) :
    lastStarted uidOf starts v (es ++ [ev]) =
      match ev with
      | .invoke s c _ => (starts (uidOf s) c).getD (lastStarted uidOf starts v es)
      | _ => lastStarted uidOf starts v es := by
  rw [lastStarted, List.foldl_append]
  rfl

/-- A run in which each operation starts alone on its fact ends up, at every
moment, with both halves on their way to the value of the last operation. -/
theorem tracked_run (nearPath farPath : Path) (hne : nearPath ≠ farPath)
    (starts : String → RelationCall → Option Bool) {P : S → Prop}
    (hstages : ∀ s turn c x, SignedIn uidOf s turn →
      Stages (presence nearPath farPath) (SignedIn uidOf)
        ((((RelationCall.program completion c).exec turn x).2).map fun fl => (s, fl))
        ((starts (uidOf s) c).toList.map fun v => (s, .first v)))
    {ok : AppWorld σ S → AppEvent S RelationCall → Prop}
    (hplain : ∀ w ev, ok w ev → Plain uidOf w ev)
    (howner : ∀ s c, (starts (uidOf s) c).isSome = true → P s)
    (halone : ∀ w s c turn, ok w (.invoke s c turn) → (starts (uidOf s) c).isSome = true →
      Alone (presence nearPath farPath) (SignedIn uidOf) s w ∨ ∀ t, P t → t = s)
    {w₀ w : AppWorld σ S} {v : Bool} {es : List (AppEvent S RelationCall)}
    (hinit : Tracked (presence nearPath farPath) (SignedIn uidOf) P v w₀)
    (run : Run api (RelationCall.program completion) ok w₀ es w) :
    Tracked (presence nearPath farPath) (SignedIn uidOf) P (lastStarted uidOf starts v es) w := by
  refine run.invariant (I := fun es w =>
    Tracked (presence nearPath farPath) (SignedIn uidOf) P (lastStarted uidOf starts v es) w)
    hinit ?_
  intro es w ev w' hw hok hstep
  obtain ⟨henv, hhealthy⟩ := hplain w ev hok
  rw [lastStarted_snoc]
  cases ev with
  | invoke s c turn =>
    cases hstep
    have hturns : ∀ t, ∃ e, SignedIn uidOf t e := fun t => ⟨turnOf (uidOf t), rfl⟩
    exact hw.invoke (presence_lawful hne) hturns _ (hstages s turn c _ henv) (howner s c)
      (halone w s c turn hok)
  | serve i o =>
    refine hw.stepped (presence_lawful hne) hstep (by simp) (hhealthy.not_drop) henv ?_
    rintro i' o' ⟨rfl, rfl⟩ x hx htouch
    obtain ⟨write, hwrite, -⟩ := htouch
    exact hhealthy x hx (by rw [hwrite]; rfl)
  | deliver i turn =>
    exact hw.stepped (presence_lawful hne) hstep (by simp) (hhealthy.not_drop) henv (by simp)
  | drop i => exact absurd hhealthy id

omit [DecidableEq S] in
/-- At rest the world implements the protocol with no operation under way. -/
theorem tracked_atRest {nearPath farPath : Path} {P : S → Prop} {w : AppWorld σ S}
    (hrest : w.Quiescent) (hagree : w.backend.exists nearPath = w.backend.exists farPath) :
    Tracked (presence nearPath farPath) (SignedIn uidOf) P (w.backend.exists nearPath) w := by
  refine ⟨[], ?_, ⟨by simp, by simp, rfl, hagree.symm⟩⟩
  rw [hrest]
  exact .nil

end Runs

/-! ## The follow relation -/

section Follows

variable [DecidableEq S] {uidOf : S → String}
  {completion : RelationCall → Option Error → Program σ}

/-- The side condition on follows: when a session starts a `follow` or `unfollow`
as `a` of `b`, no other session has one of `a` and `b` in flight. -/
def FollowsAlone (uidOf : S → String) (w : AppWorld σ S) : AppEvent S RelationCall → Prop
  | .invoke s (.follow b) _ => Alone (followMark (uidOf s) b) (SignedIn uidOf) s w
  | .invoke s (.unfollow b) _ => Alone (followMark (uidOf s) b) (SignedIn uidOf) s w
  | _ => True

/-- What a client can see of the follow relation of `a` and `b`: the two documents,
the reply `checkIfUserIsFollowed` reads, and the documents `fetchUserStats`
counts as followers. -/
structure FollowHalvesAgree (backend : Backend) (a b : String) : Prop where
  /-- The two documents exist together. -/
  halves : backend.exists ["following", a, "user-following", b]
    = backend.exists ["followers", b, "user-followers", a]
  /-- `checkIfUserIsFollowed` answers whether `a` is among the followers counted. -/
  checked : ∀ o backend' snapshot docs backend'' o',
    serve backend (.getDocument ["following", a, "user-following", b]) o
      = some (backend', some snapshot) →
    serve backend (.getDocuments { collection := ["followers", b, "user-followers"] }) o'
      = some (backend'', some docs) →
    (snapshot.data.isSome = true ↔ a ∈ docs.map Prod.fst)

/-- Equal halves are seen as equal. -/
theorem FollowHalvesAgree.of_halves {backend : Backend} {a b : String}
    (h : backend.exists ["following", a, "user-following", b]
      = backend.exists ["followers", b, "user-followers", a]) : FollowHalvesAgree backend a b where
  halves := h
  checked := by
    intro o backend' snapshot docs backend'' o' hcheck hcount
    obtain ⟨-, hsnapshot⟩ := serve_getDocument hcheck
    obtain ⟨-, hdocs⟩ := serve_getDocuments hcount
    have hids : (docs.map Prod.fst).Perm (backend.docs.ids ["followers", b, "user-followers"]) := by
      have := (hdocs docs rfl).map Prod.fst
      rwa [Query.results_all] at this
    rw [hids.mem_iff, Store.mem_ids, hsnapshot snapshot rfl]
    show backend.exists ["following", a, "user-following", b] = true ↔ _
    rw [h]
    rfl

/-- **The two halves of the follow relation.** Any number of users and sessions,
no write failing, calls of one user on one target not overlapping across
sessions: whenever nothing is in flight the two halves agree, and the followers
that `fetchUserStats` counts are those `checkIfUserIsFollowed` finds. -/
theorem followHalves_agree (hcompl : Neutral uidOf completion) {w₀ w : AppWorld σ S}
    (hrest : w₀.Quiescent)
    (hagree : ∀ a b, w₀.backend.exists ["following", a, "user-following", b]
      = w₀.backend.exists ["followers", b, "user-followers", a])
    {es : List (AppEvent S RelationCall)}
    (run : Run api (RelationCall.program completion)
      (fun w ev => Plain uidOf w ev ∧ FollowsAlone uidOf w ev) w₀ es w)
    (hquiet : w.Quiescent) (a b : String) : FollowHalvesAgree w.backend a b := by
  have htracked := tracked_run ["following", a, "user-following", b]
    ["followers", b, "user-followers", a] (by simp) (fun uid => followStarts uid a b)
    (P := fun s => uidOf s = a)
    (fun s turn c x hturn => follow_stages hcompl hturn a b c x) (fun _ _ hok => hok.1)
    (fun s c hc => (followStarts_isSome hc).1)
    (fun w s c turn hok hc => by
      left
      obtain ⟨rfl, rfl | rfl⟩ := followStarts_isSome hc
      · exact hok.2
      · exact hok.2)
    (tracked_atRest hrest (hagree a b)) run
  obtain ⟨hnear, hfar⟩ := htracked.settled hquiet
  exact .of_halves (hnear.trans hfar.symm)

end Follows

/-- `a` follows `b` in one session and unfollows in another; each session runs on
its own until it is done. -/
def followThenUnfollow : List (AppEvent Nat RelationCall) :=
  [.invoke 0 (.follow "b") (turnOf "a"), .serve 0 (.success []), .deliver 0 (turnOf "a"),
    .serve 0 (.success []), .deliver 0 (turnOf "a"),
    .invoke 1 (.unfollow "b") (turnOf "a"), .serve 0 (.success []), .deliver 0 (turnOf "a"),
    .serve 0 (.success []), .deliver 0 (turnOf "a")]

/-- The first session of `followThenUnfollow` sleeps between its two writes. -/
def followAcrossUnfollow : List (AppEvent Nat RelationCall) :=
  [.invoke 0 (.follow "b") (turnOf "a"), .invoke 1 (.unfollow "b") (turnOf "a"),
    .serve 0 (.success []), .serve 1 (.success []), .deliver 1 (turnOf "a"),
    .serve 1 (.success []), .deliver 1 (turnOf "a"),
    .deliver 0 (turnOf "a"), .serve 0 (.success []), .deliver 0 (turnOf "a")]

/-- The start of the runs below: empty, nothing in flight. -/
def emptyWorld : AppWorld Unit Nat := atRest Backend.empty fun _ => ()

/-- Calls of one session, no other session having anything in flight. -/
def OneAtATime (w : AppWorld σ S) : AppEvent S A → Prop
  | .invoke s _ _ => ∀ x ∈ w.pool, x.1 = s
  | _ => True

instance [DecidableEq S] (w : AppWorld σ S) (ev : AppEvent S A) : Decidable (OneAtATime w ev) :=
  match ev with
  | .invoke _ _ _ => inferInstanceAs (Decidable (∀ x ∈ w.pool, _))
  | .serve _ _ => isTrue trivial
  | .deliver _ _ => isTrue trivial
  | .drop _ => isTrue trivial

/-- Nothing of another session overlaps what one session does at a time. -/
theorem OneAtATime.alone {M : Mirror.Spec Request Backend} {V : S → Turn → Prop}
    {w : AppWorld σ S} {s : S} {a : A} {e : Turn} (h : OneAtATime w (.invoke s a e)) :
    Alone M V s w :=
  fun x hx hne => absurd (h x hx) hne

/-- Two sessions of one user that take turns leave the halves equal. -/
theorem followHalves_agree_inTurn :
    ∃ w, Run api (RelationCall.program fun _ => noCompletion)
        (fun w ev => Plain (fun _ : Nat => "a") w ev ∧ FollowsAlone (fun _ => "a") w ev)
        emptyWorld followThenUnfollow w
      ∧ w.Quiescent ∧ FollowHalvesAgree w.backend "a" "b" := by
  have hplay : ∃ w, Run api (RelationCall.program fun _ => noCompletion)
      (fun w ev => Plain (fun _ : Nat => "a") w ev ∧ OneAtATime w ev)
      emptyWorld followThenUnfollow w ∧ w.Quiescent := exists_run_of_play (by decide)
  obtain ⟨w, run, hquiet⟩ := hplay
  have run' : Run api (RelationCall.program fun _ => noCompletion)
      (fun w ev => Plain (fun _ : Nat => "a") w ev ∧ FollowsAlone (fun _ => "a") w ev)
      emptyWorld followThenUnfollow w := by
    refine run.mono fun w ev hok => ⟨hok.1, ?_⟩
    cases ev with
    | invoke s c turn =>
      cases c with
      | follow b => exact hok.2.alone
      | unfollow b => exact hok.2.alone
      | likePost post => trivial
      | unlikePost post => trivial
    | serve i o => trivial
    | deliver i turn => trivial
    | drop i => trivial
  have hrest : emptyWorld.Quiescent := rfl
  exact ⟨w, run', hquiet, followHalves_agree (neutral_noCompletion _) hrest
    (fun _ _ => rfl) run' hquiet "a" "b"⟩

/-- Two sessions of one user that overlap leave a follower who follows nobody. -/
theorem followHalves_differ :
    ∃ w, Run api (RelationCall.program fun _ => noCompletion) (Plain fun _ : Nat => "a")
        emptyWorld followAcrossUnfollow w
      ∧ w.Quiescent
      ∧ w.backend.exists ["following", "a", "user-following", "b"] = false
      ∧ w.backend.exists ["followers", "b", "user-followers", "a"] = true :=
  exists_run_of_play (by decide)

/-! ## The like relation -/

section Likes

variable [DecidableEq S] {uidOf : S → String}
  {completion : RelationCall → Option Error → Program σ}

/-- **The two halves of the like relation.** Every user in one session, no write
failing: whenever nothing is in flight the two halves agree, and they exist
exactly when the last `likePost` or unguarded `unlikePost` of that user on that
post was a `likePost`. -/
theorem likeHalves_agree (huniq : Function.Injective uidOf) (hcompl : Neutral uidOf completion)
    {w₀ w : AppWorld σ S} (hrest : w₀.Quiescent)
    (hagree : ∀ u p, w₀.backend.exists ["posts", p, "post-likes", u]
      = w₀.backend.exists ["users", u, "user-likes", p])
    {es : List (AppEvent S RelationCall)}
    (run : Run api (RelationCall.program completion) (Plain uidOf) w₀ es w)
    (hquiet : w.Quiescent) (u p : String) :
    w.backend.exists ["posts", p, "post-likes", u]
      = w.backend.exists ["users", u, "user-likes", p]
    ∧ w.backend.exists ["posts", p, "post-likes", u]
      = lastStarted uidOf (fun uid => likeStarts uid u p)
          (w₀.backend.exists ["posts", p, "post-likes", u]) es := by
  have howner : ∀ s c, (likeStarts (uidOf s) u p c).isSome = true → uidOf s = u :=
    fun _ _ => likeStarts_isSome
  have htracked := tracked_run ["posts", p, "post-likes", u] ["users", u, "user-likes", p]
    (by simp) (fun uid => likeStarts uid u p) (P := fun s => uidOf s = u)
    (fun s turn c x hturn => like_stages hcompl hturn u p c x) (fun _ _ hok => hok) howner
    (fun w s c turn _ hc =>
      Or.inr fun t ht => huniq (ht.trans (howner s c hc).symm))
    (tracked_atRest hrest (hagree u p)) run
  obtain ⟨hnear, hfar⟩ := htracked.settled hquiet
  exact ⟨hnear.trans hfar.symm, hnear⟩

end Likes

/-- A post as a client may hold it, with `likes` likes. -/
def heldPost (likes : Int) : Post where
  caption := ""
  likes := likes
  imageUrl := ""
  ownerUid := "b"
  timestamp := ⟨0, 0⟩
  postId := "p"
  ownerImageUrl := ""
  ownerUsername := ""
  hashtags := none

/-- A like and an unlike of `a`, the second issued before the first has completed. -/
def likeUnderUnlike : List (AppEvent String RelationCall) :=
  [.invoke "a" (.likePost (heldPost 0)) (turnOf "a"), .serve 0 (.success []),
    .serve 1 (.success []), .invoke "a" (.unlikePost (heldPost 1)) (turnOf "a"),
    .deliver 0 (turnOf "a"), .deliver 0 (turnOf "a"), .serve 0 (.success []),
    .serve 1 (.success []), .serve 2 (.success []), .deliver 0 (turnOf "a"),
    .deliver 0 (turnOf "a"), .deliver 0 (turnOf "a"), .serve 0 (.success []),
    .deliver 0 (turnOf "a")]

/-- Two overlapping calls of one session leave the halves equal, both absent. -/
theorem likeHalves_agree_overlapping :
    ∃ w, Run api (RelationCall.program fun _ => noCompletion) (Plain id)
        (atRest Backend.empty fun _ => ()) likeUnderUnlike w
      ∧ w.Quiescent
      ∧ w.backend.exists ["posts", "p", "post-likes", "a"]
        = w.backend.exists ["users", "a", "user-likes", "p"]
      ∧ w.backend.exists ["posts", "p", "post-likes", "a"] = false := by
  have hplay : ∃ w, Run api (RelationCall.program fun _ => noCompletion) (Plain id)
      (atRest Backend.empty fun _ => ()) likeUnderUnlike w ∧ w.Quiescent :=
    exists_run_of_play (by decide)
  obtain ⟨w, run, hquiet⟩ := hplay
  have hrest : (atRest Backend.empty fun _ => () : AppWorld Unit String).Quiescent := rfl
  obtain ⟨hagree, hlast⟩ := likeHalves_agree (fun _ _ => id) (neutral_noCompletion _) hrest
    (fun _ _ => rfl) run hquiet "a" "p"
  exact ⟨w, run, hquiet, hagree, hlast.trans (by decide)⟩

end InstaClone
