import InstaClone.Conduct

/-!
# Like counts are never negative

`unlikePost` tests the count of the post its caller holds, not the stored one, and the
completions of a like tap write that held count, plus or minus one, into whatever post
the cell shows by then. What makes the counts safe is not the order of these steps: a
count is only ever made from a count by adding one, or by taking one from a positive
count. So the contract of the app with "at least 0" for every held post and every
written count is kept by all of its code, whatever fails or is lost.
-/

namespace InstaClone

open Async

/-- Where the document has a `likes` it is at least 0. -/
def NonnegLikes (d : Doc) : Prop := ∀ likes, d.int "likes" = some likes → 0 ≤ likes

/-- The fields a write stores. -/
def Write.fields : Write → Doc
  | .setData _ data => data
  | .updateData _ fields => fields
  | .delete _ => dict []

/-- A stored count at least 0, or none, is what a post decodes to. -/
theorem NonnegLikes.init {d : Doc} (h : NonnegLikes d) (now : Timestamp) (postId : String) :
    0 ≤ (Post.init now postId d).likes := by
  rw [Post.init_likes]
  cases hlikes : d.int "likes" with
  | none => exact Int.le_refl 0
  | some likes => exact h likes hlikes

/-- An update leaves a count at least 0 that was, if it writes one that is. -/
theorem NonnegLikes.merge {d fields : Doc} (hd : NonnegLikes d) (hfields : NonnegLikes fields) :
    NonnegLikes (d.merge fields) := by
  intro likes h
  unfold Doc.int Doc.merge at h
  cases hv : fields "likes" with
  | none =>
    rw [hv, Option.none_or] at h
    exact hd likes h
  | some v =>
    rw [hv, Option.some_or] at h
    refine hfields likes ?_
    unfold Doc.int
    rw [hv]
    exact h

/-- Every stored document's count is at least 0. -/
def Backend.NonnegLikes (b : Backend) : Prop :=
  ∀ path d, b.docs.lookup path = some d → InstaClone.NonnegLikes d

/-- A committed write of a count at least 0 keeps them so. -/
theorem Backend.NonnegLikes.apply {b : Backend} (h : b.NonnegLikes) {w : Write} {docs : Store}
    (hdocs : w.apply b.docs = some docs) (hw : InstaClone.NonnegLikes w.fields) :
    ({ b with docs := docs } : Backend).NonnegLikes := by
  intro path d hd
  by_cases hpath : path = w.path
  · rw [hpath, Write.lookup_apply hdocs] at hd
    cases w with
    | setData p data =>
      rw [← Option.some.inj hd]
      exact hw
    | updateData p fields =>
      obtain ⟨old, hold, rfl⟩ := Option.map_eq_some_iff.mp hd
      exact (h p old hold).merge hw
    | delete p => exact absurd hd (by simp [Write.effect])
  · rw [Write.lookup_apply_ne hdocs hpath] at hd
    exact h path d hd

/-- What the app may write: no count below 0. -/
def WritesNonneg (_ : Turn) (w : Write) : Prop := NonnegLikes w.fields

/-- The contract of a session signed in as `me` whose counts are at least 0. -/
abbrev countConduct (me : String) : Contract Request Response Turn Client :=
  appConduct (fun e => e.currentUid = some me) (fun post => 0 ≤ post.likes) WritesNonneg

/-- Served under the contract, the backend keeps its counts at least 0 and decodes to
posts with such counts. -/
theorem serve_nonneg {me : String} {b b' : Backend} {e : Turn} {r : Request} {o : Outcome}
    {y : Response r} (hb : b.NonnegLikes) (hreq : (countConduct me).req e r)
    (h : serve b r o = some (b', y)) :
    b'.NonnegLikes ∧ RepliesWith (fun post => 0 ≤ post.likes) r y := by
  cases r with
  | write w =>
    refine ⟨?_, trivial⟩
    rcases serve_write h with ⟨-, docs, hdocs, rfl⟩ | ⟨-, rfl⟩
    · exact hb.apply hdocs (conduct_req_write.mp hreq)
    · exact hb
  | getDocument path =>
    obtain ⟨rfl, hsnapshot⟩ := serve_getDocument h
    refine ⟨hb, fun postId _ snapshot hy data hdata now => ?_⟩
    rw [hsnapshot snapshot hy] at hdata
    exact (hb path data hdata).init now _
  | getDocuments q =>
    obtain ⟨rfl, hdocs⟩ := serve_getDocuments h
    refine ⟨hb, fun _ documents hy x hx now => ?_⟩
    have hmem : (x.1, x.2) ∈ q.results b'.docs := (hdocs documents hy).mem_iff.mp hx
    exact (hb _ x.2 (Query.mem_results.mp hmem).1).init now _
  | _ =>
    refine ⟨?_, trivial⟩
    intro path d hd
    rw [serve_docs h fun w hw => by cases hw] at hd
    exact hb path d hd

/-- The completions of a tap keep a count at least 0: plus one, or minus one from a
positive count. -/
theorem postLaw_nonneg : PostLaw fun post => 0 ≤ post.likes where
  flag _ _ h := h
  liked post shown h _ := by
    show 0 ≤ post.likes + 1
    omega
  unliked post shown hlikes _ _ := by
    show 0 ≤ post.likes - 1
    omega

/-- Fields without a `likes` say nothing of it. -/
theorem NonnegLikes.of_none {d : Doc} (h : d "likes" = none) : NonnegLikes d := by
  intro likes hlikes
  unfold Doc.int at hlikes
  rw [h] at hlikes
  exact absurd hlikes (by simp)

/-- The one field of a count update. -/
theorem nonnegLikes_count {likes : Int} (h : 0 ≤ likes) :
    NonnegLikes (dict [("likes", .int likes)]) := by
  intro x hx
  obtain rfl : likes = x := Option.some.inj hx
  exact h

/-- A mark has no fields. -/
theorem nonnegLikes_mark (path : Path) (v : Bool) : NonnegLikes (markWrite path v).fields := by
  cases v <;> exact .of_none rfl

/-- A notification has no count. -/
theorem nonnegLikes_notice (me : String) (e : Turn) (user : User) (type : NotificationType)
    (post : Option Post) :
    NonnegLikes (NotificationService.notificationData me e user type post) := by
  cases post <;> exact .of_none rfl

/-- Every write of every action stores a count at least 0, or none. -/
theorem Action.Writes.nonneg {me : String} {e : Turn} {a : Action} {w : Write}
    (h : a.Writes (fun post => 0 ≤ post.likes) me e w) : WritesNonneg e w := by
  unfold WritesNonneg
  cases h with
  | likeCount post hpost => exact nonnegLikes_count (by omega)
  | unlikeCount post hpost hlikes => exact nonnegLikes_count (by omega)
  | likeMark postId v => exact nonnegLikes_mark _ v
  | likeCopy postId v => exact nonnegLikes_mark _ v
  | likeNotice post user hpost hother => exact nonnegLikes_notice me e user .like (some post)
  | unlikeNotice post id hpost => exact .of_none rfl
  | followMark ha user v => exact nonnegLikes_mark _ v
  | followCopy ha user v => exact nonnegLikes_mark _ v
  | followNotice uid user hother => exact nonnegLikes_notice me e user .follow none
  | unfollowNotice uid id => exact .of_none rfl
  | comment post user hpost => exact .of_none rfl
  | commentNotice post user hpost hother =>
    exact nonnegLikes_notice me e user .comment (some post)
  | upload imageUrl user =>
    intro likes hlikes
    obtain rfl : 0 = likes := Option.some.inj hlikes
    exact Int.le_refl 0
  | deletePost postId => exact .of_none rfl
  | deleteLikes u postId => exact .of_none rfl
  | deleteFeeds u postId => exact .of_none rfl
  | deleteNotices id => exact .of_none rfl

/-- What is at least 0 in a world of the app: every stored count, the count of every post
a session holds, and every count a waiting write would store. -/
structure LikesNonneg {S : Type} (w : AppWorld Client S) : Prop where
  stored : ∀ postId d likes, w.backend.docs.lookup ["posts", postId] = some d →
    d.int "likes" = some likes → 0 ≤ likes
  held : ∀ s, (w.client s).Holds fun post => 0 ≤ post.likes
  pending : ∀ x ∈ w.pool, x.2.waits = true → ∀ path fields likes,
    x.2.req = .write (.updateData path fields) → fields.int "likes" = some likes → 0 ≤ likes

section Runs

variable {S : Type} [DecidableEq S] {uidOf : S → String}

omit [DecidableEq S] in
/-- A world in which every session keeps the contract has no count below 0. -/
theorem LikesNonneg.of_keeps {w : AppWorld Client S}
    (h : w.Keeps (fun s => countConduct (uidOf s)) Backend.NonnegLikes) : LikesNonneg w where
  stored postId d likes hd := h.backend _ d hd likes
  held := h.client
  pending := by
    intro x hx hwait path fields likes hreq hlikes
    have hkeeps := h.pool x hx
    obtain ⟨s, fl⟩ := x
    cases fl with
    | served r p => exact absurd hwait (by simp)
    | issued r k =>
      rw [Flight.req_issued] at hreq
      subst hreq
      obtain ⟨⟨e, -, hwrite⟩, -⟩ := hkeeps
      exact conduct_req_write.mp hwrite likes hlikes

/-- **Like counts never become negative.** Any number of sessions, every action of the app,
any interleaving, with any requests failing and any callbacks lost: from a store whose
counts are at least 0 and sessions that hold only such posts, in every reachable world
every stored, held and pending count is at least 0. -/
theorem likes_nonneg {w₀ w : AppWorld Client S} (hrest : w₀.Quiescent)
    (hstored : w₀.backend.NonnegLikes)
    (hheld : ∀ s, (w₀.client s).Holds fun post => 0 ≤ post.likes)
    {es : List (AppEvent S Action)}
    (run : Run api Action.program (EnvOk (SignedIn uidOf)) w₀ es w) : LikesNonneg w := by
  have hinit : w₀.Keeps (fun s => countConduct (uidOf s)) Backend.NonnegLikes := by
    refine ⟨hstored, hheld, fun x hx => ?_⟩
    rw [hrest] at hx
    exact absurd hx (by simp)
  refine .of_keeps (hinit.run run ?_ ?_ ?_)
  · intro s b e r o b' y hb _ hreq h
    exact serve_nonneg hb hreq h
  · intro w ev _
    cases ev with
    | invoke s a e => exact Action.keeps postLaw_nonneg (fun _ he => he) a fun _ _ _ h => h.nonneg
    | serve i o => trivial
    | deliver i e => trivial
    | drop i => trivial
  · exact fun _ _ h => h

end Runs

/-! ## A small town -/

/-- The document of a user. -/
def userDoc (uid : String) : Doc := dict [("uid", .string uid), ("username", .string uid)]

/-- The document of a post of `uid`, as uploaded. -/
def postDoc (uid : String) : Doc :=
  uploadedPost (turnOf uid) "caption" "url" uid (User.init (userDoc uid))

/-- Users `a` and `b`, and a post `p` of `b` with no likes. -/
def town : Backend where
  docs := (((∅ : Store).insert ["users", "a"] (userDoc "a")).insert ["users", "b"]
    (userDoc "b")).insert ["posts", "p"] (postDoc "b")
  objects := []
  accounts := []

/-- Every session has just started, nothing is in flight. -/
def townAtRest : AppWorld Client String := atRest town fun _ => {}

/-- User `uid` opens the app and the feed; its first cell shows `p`. -/
def openFeed (uid : String) : List (AppEvent String Action) :=
  [.invoke uid .tabDidLoad (turnOf uid), .serve 0 (.success []), .deliver 0 (turnOf uid),
    .invoke uid (.feedDidLoad 0) (turnOf uid), .serve 0 (.success ["p"]), .deliver 0 (turnOf uid),
    .serve 0 (.success []), .deliver 0 (turnOf uid), .serve 0 (.success []),
    .deliver 0 (turnOf uid), .invoke uid (.feedCell 0 0 0) (turnOf uid)]

theorem town_nonneg : town.NonnegLikes := by
  intro path d hd
  have hmem : (⟨path, d⟩ : Sigma fun _ : Path => Doc) ∈ town.docs.entries :=
    AList.mem_lookup_iff.mp hd
  have hentries : town.docs.entries
      = [⟨["posts", "p"], postDoc "b"⟩, ⟨["users", "b"], userDoc "b"⟩,
          ⟨["users", "a"], userDoc "a"⟩] := rfl
  rw [hentries] at hmem
  simp only [List.mem_cons, List.not_mem_nil, or_false, Sigma.mk.injEq, heq_eq_eq] at hmem
  rcases hmem with ⟨-, rfl⟩ | ⟨-, rfl⟩ | ⟨-, rfl⟩
  · intro likes hlikes
    obtain rfl : 0 = likes := Option.some.inj hlikes
    exact Int.le_refl 0
  · exact .of_none rfl
  · exact .of_none rfl

/-- A like whose mark fails: the count is stored, the copy is still waiting. -/
theorem likes_nonneg_markFails :
    ∃ w, Run api Action.program (EnvOk (SignedIn id)) townAtRest
        (openFeed "a" ++
          [.invoke "a" (.likeTap 0 0) (turnOf "a"), .serve 0 (.success []),
            .serve 1 (.failure "unavailable"), .deliver 0 (turnOf "a"), .deliver 0 (turnOf "a")]) w
      ∧ w.pool.length = 1
      ∧ (w.backend.docs.lookup ["posts", "p"]).bind (·.int "likes") = some 1
      ∧ LikesNonneg w := by
  obtain ⟨w, run, hpool, hlikes⟩ : ∃ w, Run api Action.program (EnvOk (SignedIn id)) townAtRest
      (openFeed "a" ++
        [.invoke "a" (.likeTap 0 0) (turnOf "a"), .serve 0 (.success []),
          .serve 1 (.failure "unavailable"), .deliver 0 (turnOf "a"), .deliver 0 (turnOf "a")]) w
      ∧ w.pool.length = 1
      ∧ (w.backend.docs.lookup ["posts", "p"]).bind (·.int "likes") = some 1 :=
    exists_run_of_play (by decide)
  have hrest : townAtRest.Quiescent := rfl
  exact ⟨w, run, hpool, hlikes,
    likes_nonneg hrest town_nonneg (fun _ => Client.holds_initial _) run⟩

end InstaClone
