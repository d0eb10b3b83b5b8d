import InstaClone.Display
import InstaClone.Frames
import InstaClone.LikeCount

/-!
# A feed over the backend shows the stored like state

The events of one feed of one session: it loads and refreshes, `checkIfUserLikedPost`
replies arrive, cells are bound and tapped, completions run. Everything the session has in
flight is at a `FeedStage` or spares the feed; `feedView` reads the abstract `View` off a
world, and every step of the world is a step of the view.

So the cells show the stored state in every run whose taps pass the guard of `unlikePost`
and whose bindings find a current entry. Bindings that do not are what breaks it: a tap
never updates the arrays of the controller, so a cell bound again shows the state before
the tap.
-/

namespace InstaClone

open Async

/-! ## The replies and completions of a feed -/

/-- The callback of the query of `fetchPosts`. -/
def didFetchPosts (c : Nat) (snapshot : Option (List (String × Doc))) : Program Client :=
  match snapshot with
  | none => .done
  | some documents =>
    .ask fun turn =>
      inFeed c (·.setPosts (documents.map fun x => Post.init turn.now x.1 x.2))
        (FeedController.checkIfUserLikedPosts c)

/-- What a check does with its answer, in single-post mode and in list mode. -/
def didCheck (c : Nat) (single : Bool) (p : String) (didLike : Bool) : Program Client :=
  match single with
  | true => FeedController.didCheckPost c didLike
  | false => FeedController.didCheckPosts c p didLike

/-- The callback of the read of `checkIfUserLikedPost`. -/
def didReadLike (completion : Bool → Program Client) (snapshot : Option Snapshot) :
    Program Client :=
  match snapshot with
  | none => .done
  | some snapshot => completion snapshot.data.isSome

/-- What a feed's session waits for. -/
inductive FeedStage where
  | fetching
  | checking (p : String)
  | counting (p : String) (likes : Int)
  | marking (tap : Tap)
  | copying (tap : Tap)

/-- The query of `fetchPosts`. -/
def postsQuery : Query := { collection := ["posts"], orderBy := some ("timestamp", true) }

def FeedStage.req (uid : String) : FeedStage → Request
  | .fetching => .getDocuments postsQuery
  | .checking p => .getDocument ["users", uid, "user-likes", p]
  | .counting p likes => .write (.updateData ["posts", p] (dict [("likes", .int likes)]))
  | .marking tap =>
    .write (markWrite ["posts", tap.post.postId, "post-likes", uid] (!tap.post.didLike))
  | .copying tap =>
    .write (markWrite ["users", uid, "user-likes", tap.post.postId] (!tap.post.didLike))

/-- The completion of a tap. -/
def Tap.completion (c : Nat) (tap : Tap) : Option Error → Program Client :=
  didTap c tap.cell tap.post tap.user

def FeedStage.callback (uid : String) (c : Nat) (single : Bool) :
    (t : FeedStage) → Response (t.req uid) → Program Client
  | .fetching => didFetchPosts c
  | .checking p => didReadLike (didCheck c single p)
  | .counting _ _ => noCompletion
  | .marking tap => fun _ =>
    .call (.write (markWrite ["users", uid, "user-likes", tap.post.postId] (!tap.post.didLike)))
      (tap.completion c) .done
  | .copying tap => tap.completion c

/-- The flight of a stage that begins. -/
def FeedStage.asked (uid : String) (c : Nat) (single : Bool) (t : FeedStage) :
    Flight Request Response Turn Client :=
  .issued (t.req uid) (t.callback uid c single)

/-- Reads are answered, and no document is listed twice. -/
def InReply : (r : Request) → Response r → Prop
  | .getDocument _, y => y.isSome = true
  | .getDocuments _, y => ∃ documents, y = some documents ∧ (documents.map Prod.fst).Nodup
  | _, _ => True

/-- What the session of `uid` does to feed `c`, stage by stage. -/
def feedScript (uid : String) (c : Nat) (single : Bool) :
    Script Request Response Turn Client FeedStage where
  req := FeedStage.req uid
  callback := FeedStage.callback uid c single
  reply := InReply

/-- A successful request is answered. -/
theorem inReply_of_serve {b b' : Backend} {r : Request} {o : Outcome} {y : Response r}
    (ho : o.isSuccess = true) (h : serve b r o = some (b', y)) : InReply r y := by
  cases r with
  | getDocument path =>
    cases o with
    | success names =>
      simp only [serve, Option.some.injEq, Prod.mk.injEq] at h
      show y.isSome = true
      rw [← h.2]
      rfl
    | failure error => exact absurd ho (by simp [Outcome.isSuccess])
  | getDocuments q =>
    obtain ⟨-, documents, hy, hperm⟩ := serve_getDocuments_success ho h
    refine ⟨documents, hy, (hperm.map Prod.fst).nodup_iff.mpr ?_⟩
    exact (b.docs.nodup_ids q.collection).sublist (List.filter_sublist.map Prod.fst)
  | _ => trivial

/-! ## What the cells depend on -/

/-- Not a write of a count, of a mark, or of a copy of a mark of `uid`. -/
def NoLikeWrite (uid : String) (r : Request) : Prop :=
  ∀ w, r = .write w → ¬ IsLikePath w.path ∧ ∀ p, w.path ≠ ["users", uid, "user-likes", p]

/-- Neither a check of a like of `uid` nor a write of his likes. -/
def AsideFromLikes (uid : String) (r : Request) : Prop :=
  (∀ p, r ≠ .getDocument ["users", uid, "user-likes", p]) ∧ NoLikeWrite uid r

/-- What a feed shows: its cells and its arrays. -/
def FeedController.display (feed : FeedController) :
    (Nat → FeedCell) × List Post × Option Post :=
  (feed.cells, feed.posts, feed.post)

/-- What feed `c` of a client shows. -/
def displayOf (c : Nat) (client : Client) : (Nat → FeedCell) × List Post × Option Post :=
  (client.feeds c).display

section Pending

variable {S : Type}

/-- The mark of `uid` on `p` once the operations under way are through: what the last of
them that has not issued its copy will write, else what the pending copies leave. -/
def markToBe (uid p : String) (docs : Store)
    (own : List (S × Flight Request Response Turn Client)) :
    Bool :=
  (own.filterMap fun x => x.2.req.leaves ["posts", p, "post-likes", uid]).getLastD
    ((document ["users", uid, "user-likes", p]).after own
      (docs.lookup ["users", uid, "user-likes", p])).isSome

/-- The count of `p` once the pending writes are committed, if there is such a post. -/
def countToBe (p : String) (docs : Store) (own : List (S × Flight Request Response Turn Client)) :
    Option Int :=
  (docs.lookup ["posts", p]).bind fun _ =>
    ((document ["posts", p]).after own (docs.lookup ["posts", p])).bind (·.int "likes")

/-- Is `p` the post of the feed, or in its list? -/
def FeedController.Lists (feed : FeedController) (p : String) : Prop :=
  feed.post.isSome = true ∨ ∃ post ∈ feed.posts, post.postId = p

/-- A check of a post of the feed is under way. -/
def Rechecking (uid : String) (feed : FeedController)
    (own : List (S × Flight Request Response Turn Client)) : Prop :=
  ∃ x ∈ own, ∃ p, x.2.req = .getDocument ["users", uid, "user-likes", p] ∧ feed.Lists p

/-- The taps of the stages whose second write is under way. -/
def copies (stages : List (S × FeedStage)) : List Tap :=
  stages.filterMap fun x =>
    match x.2 with
    | .copying tap => some tap
    | _ => none

/-- The taps of the stages whose first write is under way. -/
def marks (stages : List (S × FeedStage)) : List Tap :=
  stages.filterMap fun x =>
    match x.2 with
    | .marking tap => some tap
    | _ => none

/-- The taps whose completions are outstanding, in the order they will run. -/
def outstanding (stages : List (S × FeedStage)) : List Tap := copies stages ++ marks stages

@[simp] theorem copies_append (l l' : List (S × FeedStage)) :
    copies (l ++ l') = copies l ++ copies l' := List.filterMap_append

@[simp] theorem marks_append (l l' : List (S × FeedStage)) :
    marks (l ++ l') = marks l ++ marks l' := List.filterMap_append

variable [DecidableEq S]

/-- The view of feed `c` of session `s`. -/
def feedView (s : S) (uid : String) (c : Nat) (w : AppWorld Client S) (taps : List Tap) : View where
  cells := ((w.client s).feeds c).cells
  taps := taps
  mark p := markToBe uid p w.backend.docs (ofSession s w.pool)
  count p := countToBe p w.backend.docs (ofSession s w.pool)
  checking := Rechecking uid ((w.client s).feeds c) (ofSession s w.pool)

/-- What is in flight, as far as feed `c` is concerned: flights of other sessions, flights of
session `s` that leave the feed and the likes alone, and the stages. -/
abbrev Reads (s : S) (uid : String) (c : Nat) (single : Bool) :
    List (S × Flight Request Response Turn Client) → List (S × FeedStage) → Prop :=
  Tracks (fun t fl => t = s → fl.Spares (AsideFromLikes uid) (displayOf c))
    fun t fl stage => t = s ∧ (feedScript uid c single).At fl stage

omit [DecidableEq S] in
/-- Flights that are asked now are at their stages. -/
theorem reads_asked [DecidableEq S] {s : S} {uid : String} {c : Nat} {single : Bool}
    (stages : List FeedStage) :
    Reads s uid c single
      ((stages.map (FeedStage.asked uid c single)).map fun fl => (s, fl))
      (stages.map fun t => (s, t)) := by
  induction stages with
  | nil => exact .nil
  | cons t stages ih => exact .stage ⟨rfl, .asked (P := feedScript uid c single) t⟩ ih

end Pending

/-! ## Turns that leave the likes alone -/

section Frame

variable {S : Type} {uid : String}
  {own pre post new : List (S × Flight Request Response Turn Client)}
  {docs : Store} {s : S} {r : Request} {prog : Program Client}

theorem NoLikeWrite.not_touches {path : Path} (h : NoLikeWrite uid r)
    (hpath : IsLikePath path ∨ ∃ p, path = ["users", uid, "user-likes", p]) :
    ¬ (document path).touches r := by
  intro htouch
  obtain ⟨w, rfl, rfl⟩ := htouch
  obtain ⟨hlike, hcopy⟩ := h w rfl
  rcases hpath with hpath | ⟨p, hpath⟩
  · exact hlike hpath
  · exact hcopy p hpath

theorem NoLikeWrite.leaves {p u : String} (h : NoLikeWrite uid r) :
    r.leaves ["posts", p, "post-likes", u] = none :=
  Request.leaves_eq_none fun w hw hpath => (h w hw).1 (hpath ▸ Or.inr ⟨p, u, rfl⟩)

/-- A callback whose request is not a mark, and that writes no likes, leaves what the marks
and the counts will be. -/
theorem pending_turn (hr : ∀ p, r.leaves ["posts", p, "post-likes", uid] = none)
    (hnew : ∀ x ∈ new, NoLikeWrite uid x.2.req) (p : String) :
    markToBe uid p docs (pre ++ post ++ new)
        = markToBe uid p docs (pre ++ (s, .served r prog) :: post)
      ∧ countToBe p docs (pre ++ post ++ new)
        = countToBe p docs (pre ++ (s, .served r prog) :: post) := by
  have hafter : ∀ path v, (IsLikePath path ∨ ∃ p, path = ["users", uid, "user-likes", p]) →
      (document path).after (pre ++ post ++ new) v
        = (document path).after (pre ++ (s, .served r prog) :: post) v := by
    intro path v hpath
    rw [Register.after_append, Register.after_quiet (document_lawful path)
      (fun x hx _ => (hnew x hx).not_touches hpath), Register.after_append,
      Register.after_append, Register.after_served]
  have hleaves : (new.filterMap fun x => x.2.req.leaves ["posts", p, "post-likes", uid]) = [] :=
    List.filterMap_eq_nil_iff.mpr fun x hx => (hnew x hx).leaves
  refine ⟨?_, ?_⟩
  · unfold markToBe
    rw [hafter _ _ (Or.inr ⟨p, rfl⟩)]
    congr 1
    rw [List.filterMap_append, List.filterMap_append, List.filterMap_append, hleaves,
      List.append_nil, List.filterMap_cons, Flight.req_served, hr p]
  · unfold countToBe
    rw [hafter _ _ (Or.inl (Or.inl ⟨p, rfl⟩))]

/-- So does an action that writes no likes. -/
theorem pending_issue (hnew : ∀ x ∈ new, NoLikeWrite uid x.2.req) (p : String) :
    markToBe uid p docs (own ++ new) = markToBe uid p docs own
      ∧ countToBe p docs (own ++ new) = countToBe p docs own := by
  have hafter : ∀ path v, (IsLikePath path ∨ ∃ p, path = ["users", uid, "user-likes", p]) →
      (document path).after (own ++ new) v = (document path).after own v := by
    intro path v hpath
    rw [Register.after_append, Register.after_quiet (document_lawful path)
      (fun x hx _ => (hnew x hx).not_touches hpath)]
  have hleaves : (new.filterMap fun x => x.2.req.leaves ["posts", p, "post-likes", uid]) = [] :=
    List.filterMap_eq_nil_iff.mpr fun x hx => (hnew x hx).leaves
  refine ⟨?_, ?_⟩
  · unfold markToBe
    rw [hafter _ _ (Or.inr ⟨p, rfl⟩), List.filterMap_append, hleaves, List.append_nil]
  · unfold countToBe
    rw [hafter _ _ (Or.inl (Or.inl ⟨p, rfl⟩))]

/-- A callback that passes the mark of `q` on to its copy changes neither. -/
theorem pending_pass {q : String} {v : Bool} {k : Option Error → Program Client}
    (hpre : ∀ x ∈ pre, ∀ p, x.2.req.leaves ["posts", p, "post-likes", uid] = none) (p : String) :
    markToBe uid p docs
        (pre ++ post ++ [(s, .issued (.write (markWrite ["users", uid, "user-likes", q] v)) k)])
      = markToBe uid p docs
        (pre ++ (s, .served (.write (markWrite ["posts", q, "post-likes", uid] v)) prog) :: post)
      ∧ countToBe p docs
        (pre ++ post ++ [(s, .issued (.write (markWrite ["users", uid, "user-likes", q] v)) k)])
      = countToBe p docs
        (pre ++ (s, .served (.write (markWrite ["posts", q, "post-likes", uid] v)) prog)
          :: post) := by
  have hnone : (pre.filterMap fun x => x.2.req.leaves ["posts", p, "post-likes", uid]) = [] :=
    List.filterMap_eq_nil_iff.mpr fun x hx => hpre x hx p
  refine ⟨?_, ?_⟩
  · unfold markToBe
    simp only [List.filterMap_append, List.filterMap_cons, List.filterMap_nil, hnone,
      Flight.req_served, Flight.req_issued, Request.leaves_markWrite, Register.after_append,
      Register.after_issued, Register.after_served, Register.after_nil, document_effect_write,
      markWrite_path, List.nil_append]
    rw [if_neg (by simp)]
    by_cases hq : q = p
    · subst hq
      rw [if_pos rfl, if_pos rfl, List.append_nil]
      dsimp only
      rw [List.getLastD_cons]
      -- what is left when no later mark is under way is the copy itself
      have hcopy : ∀ d, ((markWrite ["users", uid, "user-likes", q] v).effect d).isSome = v := by
        intro d
        cases v <;> rfl
      rw [hcopy]
    · rw [if_neg (by simpa using hq), if_neg (by simpa using hq), List.append_nil]
  · unfold countToBe
    simp only [Register.after_append, Register.after_issued, Register.after_served,
      Register.after_nil, document_effect_write, markWrite_path]
    rw [if_neg (by simp)]

/-- A tap that passes changes the mark and the count of its post, as the user sees them
change. -/
theorem pending_tap {post : Post} {k : Option Error → Program Client}
    (hpasses : post.tapPasses = true) (p : String) :
    markToBe uid p docs (own ++ (tapFlights uid post k).map fun fl => (s, fl))
        = (if p = post.postId then !post.didLike else markToBe uid p docs own)
      ∧ ∀ n, countToBe p docs own = some n →
        countToBe p docs (own ++ (tapFlights uid post k).map fun fl => (s, fl))
          = some (if p = post.postId then post.tapCount else n) := by
  have hleaves : (((tapFlights uid post k).map fun fl => (s, fl)).filterMap
      fun x => x.2.req.leaves ["posts", p, "post-likes", uid])
      = if p = post.postId then [!post.didLike] else [] := by
    have hmark := Request.leaves_markWrite ["posts", p, "post-likes", uid]
      ["posts", post.postId, "post-likes", uid] (!post.didLike)
    have hcount : (Request.write (.updateData ["posts", post.postId]
        (dict [("likes", .int post.tapCount)]))).leaves ["posts", p, "post-likes", uid]
      = none := rfl
    unfold tapFlights
    rw [if_pos hpasses]
    simp only [writeFlight, markFlight, List.map_cons, List.map_nil, List.filterMap_cons,
      List.filterMap_nil, Flight.req_issued, hcount, hmark]
    by_cases hp : p = post.postId
    · rw [if_pos (by rw [hp]), if_pos hp]
    · rw [if_neg (by simpa using Ne.symm hp), if_neg hp]
  have hcopy : (document ["users", uid, "user-likes", p]).after
      (own ++ (tapFlights uid post k).map fun fl => (s, fl))
        (docs.lookup ["users", uid, "user-likes", p])
      = (document ["users", uid, "user-likes", p]).after own
        (docs.lookup ["users", uid, "user-likes", p]) := by
    rw [Register.after_append, after_tap hpasses, if_neg (by simp), if_neg (by simp)]
  refine ⟨?_, fun n hn => ?_⟩
  · unfold markToBe
    rw [List.filterMap_append, hleaves, hcopy]
    by_cases hp : p = post.postId
    · rw [if_pos hp, if_pos hp, List.getLastD_concat]
    · rw [if_neg hp, if_neg hp, List.append_nil]
  · obtain ⟨d, hd, hcount⟩ := Option.bind_eq_some_iff.mp hn
    obtain ⟨d', hd', hlikes⟩ := Option.bind_eq_some_iff.mp hcount
    unfold countToBe
    rw [Register.after_append, after_tap hpasses, hd', hd, Option.bind_some, if_neg (by simp)]
    by_cases hp : p = post.postId
    · rw [if_pos (by rw [hp]), if_pos hp]
      rfl
    · rw [if_neg (by simpa using hp), if_neg hp]
      exact hlikes

/-- A check under way is still under way when another flight is done and the arrays are as
they were. -/
theorem Rechecking.turn {feed feed' : FeedController}
    (h : Rechecking uid feed (pre ++ (s, .served r prog) :: post))
    (hr : ∀ p, r = .getDocument ["users", uid, "user-likes", p] → ¬ feed.Lists p)
    (hfeed : feed'.posts = feed.posts ∧ feed'.post = feed.post) :
    Rechecking uid feed' (pre ++ post ++ new) := by
  obtain ⟨x, hx, p, hreq, hlists⟩ := h
  refine ⟨x, ?_, p, hreq, ?_⟩
  · simp only [List.mem_append, List.mem_cons] at hx ⊢
    rcases hx with hx | rfl | hx
    · exact Or.inl (Or.inl hx)
    · exact absurd hlists (hr p hreq)
    · exact Or.inl (Or.inr hx)
  · unfold FeedController.Lists at hlists ⊢
    rwa [hfeed.1, hfeed.2]

theorem Rechecking.issue {feed feed' : FeedController} (h : Rechecking uid feed own)
    (hfeed : feed'.posts = feed.posts ∧ feed'.post = feed.post) :
    Rechecking uid feed' (own ++ new) := by
  obtain ⟨x, hx, p, hreq, hlists⟩ := h
  refine ⟨x, List.mem_append_left _ hx, p, hreq, ?_⟩
  unfold FeedController.Lists at hlists ⊢
  rwa [hfeed.1, hfeed.2]

end Frame

/-! ## What the turns of the session do -/

section Turns

variable {uid : String} {c : Nat} {e : Turn}

/-- A read that is no check of a like is aside. -/
theorem aside_read {r : Request} (hcheck : ∀ p, r ≠ .getDocument ["users", uid, "user-likes", p])
    (hread : ∀ w, r ≠ .write w) : AsideFromLikes uid r :=
  ⟨hcheck, fun w hw => absurd hw (hread w)⟩

theorem spares_tabFetchUser :
    MainTabController.fetchUser.Spares (AsideFromLikes uid) (displayOf c) :=
  spares_withCurrentUid fun _ => spares_fetchUser (aside_read (by simp) (by simp)) fun _ =>
    ⟨fun _ => rfl, trivial⟩

theorem spares_feedFetchUser :
    (FeedController.fetchUser c).Spares (AsideFromLikes uid) (displayOf c) := by
  refine spares_withCurrentUid fun _ => spares_fetchUser (aside_read (by simp) (by simp)) fun _ =>
    ⟨fun client => ?_, trivial⟩
  unfold displayOf
  rw [Client.mapFeed_feeds, if_pos rfl]
  rfl

/-- A write of a notification is aside. -/
theorem aside_notice {w : Write} {owner id : String}
    (h : w.path = ["notifications", owner, "user-notifications", id]) :
    AsideFromLikes uid (.write w) := by
  refine ⟨by simp, fun w' hw' => ?_⟩
  obtain rfl := Request.write.inj hw'
  rw [h]
  exact ⟨not_isLikePath (by simp) (by simp), by simp⟩

/-- An assignment to the feed, and then code that spares it. -/
theorem exec_inFeed {f : FeedController → FeedController} {rest : Program Client}
    (hrest : rest.Spares (AsideFromLikes uid) (displayOf c)) (client : Client) :
    displayOf c ((inFeed c f rest).exec e client).1 = (f (client.feeds c)).display
      ∧ ∀ fl ∈ ((inFeed c f rest).exec e client).2,
        fl.Spares (AsideFromLikes uid) (displayOf c) := by
  obtain ⟨hobs, hissues⟩ := hrest.exec e (client.mapFeed c f)
  refine ⟨?_, hissues⟩
  have hassign : displayOf c (client.mapFeed c f) = (f (client.feeds c)).display := by
    unfold displayOf
    rw [Client.mapFeed_feeds, if_pos rfl]
  exact hobs.trans hassign

/-- The completion of a tap writes its count into the cell it captured. -/
theorem exec_completion (tap : Tap) (error : Option Error) (client : Client) :
    displayOf c ((tap.completion c error).exec e client).1
        = ((client.feeds c).mapCell tap.cell tap.finished).display
      ∧ ∀ fl ∈ ((tap.completion c error).exec e client).2,
        fl.Spares (AsideFromLikes uid) (displayOf c) := by
  unfold Tap.completion didTap
  cases hlike : tap.post.didLike with
  | true =>
    have hcell : tap.finished = fun x => (x.setLikeButton .heart .black).updatePost fun shown =>
        { shown with likes := tap.post.likes - 1 } :=
      funext fun x => if_pos hlike
    have hrest : (Prog.read fun shown : Client =>
        NotificationService.deleteNotification tap.post.ownerUid .like
          (((shown.feeds c).cells tap.cell).post.map Post.postId) :
        Program Client).Spares (AsideFromLikes uid) (displayOf c) :=
      fun _ => spares_deleteNotification (fun _ => aside_read (by simp) (by simp))
        fun _ => aside_notice rfl
    rw [hcell]
    exact exec_inFeed hrest client
  | false =>
    have hcell : tap.finished = fun x => (x.setLikeButton .heartFill .red).updatePost fun shown =>
        { shown with likes := tap.post.likes + 1 } :=
      funext fun x => if_neg (by simp [hlike])
    rw [hcell]
    exact exec_inFeed (spares_uploadNotification fun _ _ => aside_notice rfl) client

/-- The checks `checkIfUserLikedPosts` makes. -/
def FeedController.checks (feed : FeedController) : List FeedStage :=
  match feed.post with
  | some post => [.checking post.postId]
  | none => feed.posts.map fun post => .checking post.postId

theorem exec_checkIfUserLikedPosts (he : e.currentUid = some uid) {single : Bool} (client : Client)
    (hmode : (client.feeds c).post.isSome = single) :
    (FeedController.checkIfUserLikedPosts c).exec e client
      = (client, (client.feeds c).checks.map (FeedStage.asked uid c single)) := by
  unfold FeedController.checkIfUserLikedPosts FeedController.checks
  rw [Prog.exec_read]
  have hone : ∀ (post : Post) (completion : Bool → Program Client),
      (PostService.checkIfUserLikedPost post completion).exec e client
        = (client, [.issued (.getDocument ["users", uid, "user-likes", post.postId])
            (didReadLike completion)]) := by
    intro post completion
    simp only [PostService.checkIfUserLikedPost, withCurrentUid, Prog.exec_ask, he, getDocument,
      Prog.exec_call, Prog.exec_done]
    congr 3
  cases hpost : (client.feeds c).post with
  | some post =>
    rw [hpost] at hmode
    subst hmode
    exact hone post (FeedController.didCheckPost c)
  | none =>
    rw [hpost] at hmode
    subst hmode
    dsimp only
    rw [Prog.exec_forEach_issue fun post => hone post (FeedController.didCheckPosts c post.postId),
      List.map_map]
    rfl

theorem exec_fetchPosts (client : Client) {single : Bool}
    (hmode : (client.feeds c).post.isSome = single) :
    (FeedController.fetchPosts c).exec e client
      = (client, if single then [] else [FeedStage.fetching.asked uid c single]) := by
  unfold FeedController.fetchPosts
  rw [Prog.exec_read]
  cases hpost : (client.feeds c).post with
  | some post =>
    rw [hpost] at hmode
    subst hmode
    rfl
  | none =>
    rw [hpost] at hmode
    subst hmode
    rfl

end Turns

/-! ## Rows and their posts -/

/-- No post is listed twice, and a bound cell shows the post of its row. -/
structure FeedController.Placed (feed : FeedController) : Prop where
  distinct : (feed.posts.map Post.postId).Nodup
  rows : ∀ i row, (feed.cells i).row = some row →
    ∃ post shown, feed.postAt row = some post ∧ (feed.cells i).post = some shown
      ∧ shown.postId = post.postId

namespace FeedController

variable {feed feed' : FeedController}

/-- Different rows show different posts. -/
theorem Placed.row_eq (h : feed.Placed) {row row' : Nat} {post post' : Post}
    (hpost : feed.postAt row = some post) (hpost' : feed.postAt row' = some post')
    (hid : post.postId = post'.postId) : row = row' := by
  unfold postAt at hpost hpost'
  split at hpost
  next single hsingle =>
    rw [hsingle] at hpost'
    dsimp only at hpost'
    split at hpost
    next hrow =>
      split at hpost'
      next hrow' => rw [hrow, hrow']
      next => exact absurd hpost' (by simp)
    next => exact absurd hpost (by simp)
  next hsingle =>
    rw [hsingle] at hpost'
    dsimp only at hpost'
    obtain ⟨hlt, hget⟩ := List.getElem?_eq_some_iff.mp hpost
    obtain ⟨hlt', hget'⟩ := List.getElem?_eq_some_iff.mp hpost'
    have hlen : row < (feed.posts.map Post.postId).length := by rwa [List.length_map]
    have hlen' : row' < (feed.posts.map Post.postId).length := by rwa [List.length_map]
    have hids : (feed.posts.map Post.postId)[row] = (feed.posts.map Post.postId)[row'] := by
      rw [List.getElem_map, List.getElem_map, hget, hget', hid]
    exact h.distinct.getElem_inj_iff.mp hids

/-- Only what is displayed matters. -/
theorem Placed.of_display (h : feed.Placed) (heq : feed'.display = feed.display) :
    feed'.Placed := by
  obtain ⟨hcells, hrest⟩ := Prod.mk.inj heq
  obtain ⟨hposts, hpost⟩ := Prod.mk.inj hrest
  have hat : ∀ row, feed'.postAt row = feed.postAt row := by
    intro row
    unfold postAt
    rw [hpost, hposts]
  refine ⟨by rw [hposts]; exact h.distinct, fun i row hi => ?_⟩
  rw [hcells] at hi ⊢
  rw [hat]
  exact h.rows i row hi

/-- Assigning an array takes every cell off its row. -/
theorem Placed.of_unbound (hdistinct : (feed.posts.map Post.postId).Nodup)
    (h : ∀ i, (feed.cells i).row = none) : feed.Placed :=
  ⟨hdistinct, fun i _ hi => absurd hi (by simp [h i])⟩

/-- A change of a cell that keeps its row and the identifier of its post. -/
theorem Placed.mapCell (h : feed.Placed) {cell : Nat} {f : FeedCell → FeedCell} {g : Post → Post}
    (hrow : ∀ x, (f x).row = x.row) (hpost : ∀ x, (f x).post = x.post.map g)
    (hid : ∀ post, (g post).postId = post.postId) : (feed.mapCell cell f).Placed := by
  refine ⟨h.distinct, fun i row hi => ?_⟩
  rw [mapCell_cells] at hi ⊢
  have hrows := h.rows i row
  split at hi
  next hcell =>
    rw [hcell, if_pos rfl, hpost]
    rw [hrow] at hi
    rw [hcell] at hrows
    obtain ⟨post, shown, hat, hshown, heq⟩ := hrows hi
    exact ⟨post, g shown, hat, by rw [hshown]; rfl, by rw [hid, heq]⟩
  next hcell =>
    rw [if_neg hcell]
    exact hrows hi

/-- Binding a cell to a row. -/
theorem Placed.bind (h : feed.Placed) {cell row : Nat} {post : Post}
    (hpost : feed.postAt row = some post) : (feed.mapCell cell (·.bound post row)).Placed := by
  refine ⟨h.distinct, fun i row' hi => ?_⟩
  rw [mapCell_cells] at hi ⊢
  split at hi
  next hcell =>
    rw [if_pos hcell, FeedCell.bound_post]
    rw [FeedCell.bound_row, Option.some.injEq] at hi
    exact ⟨post, post, by rw [← hi]; exact hpost, rfl, rfl⟩
  next hcell =>
    rw [if_neg hcell]
    exact h.rows i row' hi

end FeedController

/-! ## The runs -/

section Runs

variable {S : Type} [DecidableEq S] {s : S} {uid : String} {c : Nat} {single : Bool}
  {w w' : AppWorld Client S}

/-- Session `s` gets a reply to everything it asks, without failures, and lives on. -/
def Replied (s : S) (w : AppWorld Client S) : AppEvent S Action → Prop
  | .serve i o => ∀ x ∈ w.pool[i]?, x.1 = s → o.isSuccess = true
  | .drop i => ∀ x ∈ w.pool[i]?, x.1 ≠ s
  | _ => True

/-- No other session changes likes: it commits no write of a copy of a mark of `uid`, nor of
a post that exists. -/
def Undisturbed (s : S) (uid : String) (w : AppWorld Client S) : AppEvent S Action → Prop
  | .serve i _ => ∀ x ∈ w.pool[i]?, x.1 ≠ s → ∀ write, x.2.req = .write write →
    (∀ p, write.path ≠ ["users", uid, "user-likes", p])
      ∧ ∀ p, write.path = ["posts", p] → w.backend.docs.lookup ["posts", p] = none
  | _ => True

/-- What session `s` does is load, refresh, bind and tap feed `c`. UIKit shows a row in one
cell at a time, and only cells that are shown are tapped. -/
def OnFeed (s : S) (c : Nat) (w : AppWorld Client S) : AppEvent S Action → Prop
  | .invoke t a _ => t = s →
    match a with
    | .tabDidLoad => True
    | .feedDidLoad c' => c' = c
    | .feedRefresh c' => c' = c
    | .feedCell c' cell row =>
      c' = c ∧ ∀ j, j ≠ cell → (((w.client s).feeds c).cells j).row ≠ some row
    | .likeTap c' cell => c' = c ∧ (((w.client s).feeds c).cells cell).row.isSome = true
    | _ => False
  | _ => True

/-- The events of feed `c` in session `s` of `uid`, nobody else changing likes and nothing
failing. -/
structure FeedRun (s : S) (uid : String) (c : Nat) (w : AppWorld Client S)
    (ev : AppEvent S Action) : Prop where
  signedIn : EnvOk (fun t e => t = s → e.currentUid = some uid) w ev
  replied : Replied s w ev
  undisturbed : Undisturbed s uid w ev
  onFeed : OnFeed s c w ev

/-- The completion of the flight will write into this cell. -/
def Captured (uid : String) (c cell : Nat) (fl : Flight Request Response Turn Client) : Prop :=
  ∃ single tap, tap.cell = cell ∧ ((feedScript uid c single).At fl (.marking tap)
    ∨ (feedScript uid c single).At fl (.copying tap))

/-- The entry a cell gets bound to is current: its flag and its count are what will be stored
once what is pending is committed, and no outstanding completion will write into the cell. -/
structure EntryCurrent (s : S) (uid : String) (c : Nat) (w : AppWorld Client S) (cell : Nat)
    (post : Post) : Prop where
  flag : post.didLike = markToBe uid post.postId w.backend.docs (ofSession s w.pool)
  likes : countToBe post.postId w.backend.docs (ofSession s w.pool) = some post.likes
  free : ∀ x ∈ w.pool, x.1 = s → ¬ Captured uid c cell x.2

/-- Unless a check is under way whose reply will reload the feed, cells are bound to current
entries, and the guard of `unlikePost` lets every tap pass. -/
def FeedCurrent (s : S) (uid : String) (c : Nat) (w : AppWorld Client S) :
    AppEvent S Action → Prop
  | .invoke t (.feedCell _ cell row) _ => t = s →
    Rechecking uid ((w.client s).feeds c) (ofSession s w.pool)
      ∨ ∀ post ∈ ((w.client s).feeds c).postAt row, EntryCurrent s uid c w cell post
  | .invoke t (.likeTap _ cell) _ => t = s →
    Rechecking uid ((w.client s).feeds c) (ofSession s w.pool)
      ∨ ∀ post ∈ (((w.client s).feeds c).cells cell).post, ∀ _user ∈ (w.client s).tabUser,
        post.tapPasses = true
  | _ => True

/-- The invariant of a feed. -/
structure FeedInv (s : S) (uid : String) (c : Nat) (single : Bool) (w : AppWorld Client S) :
    Prop where
  mode : ((w.client s).feeds c).post.isSome = single
  placed : ((w.client s).feeds c).Placed
  view : ∃ stages, Reads s uid c single w.pool stages
    ∧ (feedView s uid c w (outstanding stages)).Good

/-- A step of the view, with what it rests on. -/
theorem FeedInv.of_step {stages stages' : List (S × FeedStage)}
    (hgood : (feedView s uid c w (outstanding stages)).Good)
    (hstep : (feedView s uid c w (outstanding stages)).Step
      (feedView s uid c w' (outstanding stages')))
    (hmode : ((w'.client s).feeds c).post.isSome = single)
    (hplaced : ((w'.client s).feeds c).Placed)
    (hreads : Reads s uid c single w'.pool stages') : FeedInv s uid c single w' :=
  ⟨hmode, hplaced, stages', hreads, hstep.good hgood⟩

/-! ### Steps of other sessions -/

/-- What leaves the session, its flights and the likes alone. -/
theorem FeedInv.aside (h : FeedInv s uid c single w) (hclient : w'.client s = w.client s)
    (hown : ofSession s w'.pool = ofSession s w.pool)
    (hreads : ∀ stages, Reads s uid c single w.pool stages → Reads s uid c single w'.pool stages)
    (hcopies : ∀ p, w'.backend.docs.lookup ["users", uid, "user-likes", p]
      = w.backend.docs.lookup ["users", uid, "user-likes", p])
    (hposts : ∀ p d, w.backend.docs.lookup ["posts", p] = some d →
      w'.backend.docs.lookup ["posts", p] = some d) : FeedInv s uid c single w' := by
  obtain ⟨hmode, hplaced, stages, htracks, hgood⟩ := h
  have hframe : (feedView s uid c w (outstanding stages)).Frame
      (feedView s uid c w' (outstanding stages)) := by
    refine ⟨fun p => ?_, fun p n hn => ?_, fun hchecking => ?_⟩
    · show markToBe uid p w'.backend.docs (ofSession s w'.pool) = markToBe uid p _ _
      unfold markToBe
      rw [hown, hcopies]
    · show countToBe p w'.backend.docs (ofSession s w'.pool) = some n
      obtain ⟨d, hd, hcount⟩ := Option.bind_eq_some_iff.mp hn
      rw [hd] at hcount
      unfold countToBe
      rw [hown, hposts p d hd]
      exact hcount
    · show Rechecking uid ((w'.client s).feeds c) (ofSession s w'.pool)
      rw [hown, hclient]
      exact hchecking
  have hcells : ((w'.client s).feeds c).cells = ((w.client s).feeds c).cells := by rw [hclient]
  exact .of_step hgood (.same hcells rfl hframe) (by rw [hclient]; exact hmode)
    (by rw [hclient]; exact hplaced) (hreads stages htracks)

omit [DecidableEq S] in
/-- A flight of another session is no stage, so it may change, -/
theorem Reads.other {t : S} (hne : t ≠ s) {fl fl' : Flight Request Response Turn Client}
    {pre post : List (S × Flight Request Response Turn Client)} {stages : List (S × FeedStage)}
    (h : Reads s uid c single (pre ++ (t, fl) :: post) stages) :
    Reads s uid c single (pre ++ (t, fl') :: post) stages :=
  h.serve (fun _ hts => absurd hts hne) fun _ hst => absurd hst.1 hne

omit [DecidableEq S] in
/-- and it may go. -/
theorem Reads.other_gone {t : S} (hne : t ≠ s) {fl : Flight Request Response Turn Client}
    {pre post : List (S × Flight Request Response Turn Client)} {stages : List (S × FeedStage)}
    (h : Reads s uid c single (pre ++ (t, fl) :: post) stages) :
    Reads s uid c single (pre ++ post) stages :=
  h.remove_quiet fun _ hst => hne hst.1

/-- A turn of another session. -/
theorem FeedInv.turn_other {t : S} (hne : t ≠ s) {prog : Program Client} {e : Turn}
    {pool : List (S × Flight Request Response Turn Client)} (h : FeedInv s uid c single w)
    (hown : ofSession s pool = ofSession s w.pool)
    (hreads : ∀ stages, Reads s uid c single w.pool stages → Reads s uid c single pool stages) :
    FeedInv s uid c single (w.turn t prog e pool) := by
  refine h.aside ?_ ?_ (fun stages hst => ?_) (fun _ => rfl) (fun _ _ hd => hd)
  · rw [World.turn_client, if_neg (Ne.symm hne)]
  · rw [World.turn_pool, ofSession_append, ofSession_issues_ne hne, List.append_nil, hown]
  · rw [World.turn_pool]
    refine (hreads stages hst).append_quiet fun x hx hts => ?_
    obtain ⟨fl, -, rfl⟩ := List.mem_map.mp hx
    exact absurd hts hne

/-! ### The session's requests are served -/

omit [DecidableEq S] in
/-- A write of a post by the session is an update. -/
theorem Reads.updates {pre post : List (S × Flight Request Response Turn Client)}
    {fl : Flight Request Response Turn Client} {stages : List (S × FeedStage)}
    (h : Reads s uid c single (pre ++ (s, fl) :: post) stages) {p : String} {write : Write}
    (hreq : fl.req = .write write) (hpath : write.path = ["posts", p]) :
    ∃ fields, write = .updateData ["posts", p] fields := by
  rcases h.remove with ⟨hfl, -⟩ | ⟨l, t, l', -, ⟨-, hat⟩, -⟩
  · have haside := (hfl rfl).req
    rw [hreq] at haside
    exact absurd (Or.inl ⟨p, hpath⟩) (haside.2 write rfl).1
  · have heq : Request.write write = t.req uid := by rw [← hreq, hat.req_eq]; rfl
    cases t with
    | fetching => exact absurd heq (by simp [FeedStage.req])
    | checking q => exact absurd heq (by simp [FeedStage.req])
    | counting q likes =>
      obtain rfl := Request.write.inj heq
      obtain rfl : q = p := by simpa using hpath
      exact ⟨_, rfl⟩
    | marking tap =>
      obtain rfl := Request.write.inj heq
      exact absurd hpath (by simp)
    | copying tap =>
      obtain rfl := Request.write.inj heq
      exact absurd hpath (by simp)

/-- An update leaves a document where there is one. -/
theorem lookup_isSome_of_serve {b b' : Backend} {r : Request} {o : Outcome} {y : Response r}
    {path : Path} (h : serve b r o = some (b', y))
    (hr : ∀ write, r = .write write → write.path = path → ∃ fields, write = .updateData path fields)
    (hsome : (b.docs.lookup path).isSome = true) : (b'.docs.lookup path).isSome = true := by
  by_cases hpath : ∃ write, r = .write write ∧ write.path = path
  · obtain ⟨write, rfl, hwrite⟩ := hpath
    obtain ⟨fields, rfl⟩ := hr write rfl hwrite
    rcases serve_write h with ⟨-, docs, hdocs, rfl⟩ | ⟨-, rfl⟩
    · have hlook := Write.lookup_apply hdocs
      rw [Write.path_updateData] at hlook
      show (docs.lookup path).isSome = true
      rw [hlook]
      show ((b.docs.lookup path).map _).isSome = true
      rw [Option.isSome_map]
      exact hsome
    · exact hsome
  · rw [serve_lookup_ne h fun write hwrite heq => hpath ⟨write, hwrite, heq.symm⟩]
    exact hsome

/-- Serving a request of the session changes nothing of the view. -/
theorem FeedInv.served (h : FeedInv s uid c single w)
    {pre post : List (S × Flight Request Response Turn Client)} {r : Request}
    {k : Response r → Program Client} {o : Outcome} {b : Backend} {y : Response r}
    (hpool : w.pool = pre ++ (s, .issued r k) :: post)
    (hfifo : api.ordered r = true → ∀ x ∈ pre, x.1 = s → x.2.waits = true →
      api.ordered x.2.req = false)
    (hserve : api.serve w.backend r o = some (b, y)) (hsuccess : o.isSuccess = true) :
    FeedInv s uid c single
      { w with backend := b, pool := pre ++ (s, .served r (k y)) :: post } := by
  obtain ⟨hmode, hplaced, stages, htracks, hgood⟩ := h
  rw [hpool] at htracks
  have hafter : ∀ path,
      (document path).after (ofSession s (pre ++ (s, .served r (k y)) :: post)) (b.docs.lookup path)
        = (document path).after (ofSession s w.pool) (w.backend.docs.lookup path) := by
    intro path
    rw [hpool]
    exact Register.only_serve (document_lawful path) hfifo hserve fun _ => hsuccess
  have hframe : (feedView s uid c w (outstanding stages)).Frame
      (feedView s uid c { w with backend := b, pool := pre ++ (s, .served r (k y)) :: post }
        (outstanding stages)) := by
    refine ⟨fun p => ?_, fun p n hn => ?_, fun hchecking => ?_⟩
    · show markToBe uid p b.docs (ofSession s (pre ++ (s, .served r (k y)) :: post))
        = markToBe uid p w.backend.docs (ofSession s w.pool)
      unfold markToBe
      rw [hafter, hpool]
      simp
    · show countToBe p b.docs (ofSession s (pre ++ (s, .served r (k y)) :: post)) = some n
      obtain ⟨d, hd, hcount⟩ := Option.bind_eq_some_iff.mp hn
      have hstored : (b.docs.lookup ["posts", p]).isSome = true := lookup_isSome_of_serve hserve
        (fun write hwrite hpath => htracks.updates hwrite hpath) (by rw [hd]; rfl)
      obtain ⟨d', hd'⟩ := Option.isSome_iff_exists.mp hstored
      unfold countToBe
      rw [hafter, hd', Option.bind_some]
      exact hcount
    · obtain ⟨x, hx, p, hreq, hlists⟩ := hchecking
      show Rechecking uid ((w.client s).feeds c) (ofSession s (pre ++ (s, .served r (k y)) :: post))
      rw [hpool] at hx
      simp only [ofSession_append, ofSession_cons_self, List.mem_append, List.mem_cons] at hx
      rcases hx with hx | rfl | hx
      · exact ⟨x, by simp [hx], p, hreq, hlists⟩
      · exact ⟨(s, .served r (k y)), by simp, p, hreq, hlists⟩
      · exact ⟨x, by simp [hx], p, hreq, hlists⟩
  refine .of_step hgood (.same rfl rfl hframe) hmode hplaced (htracks.serve ?_ ?_)
  · exact fun hfl hs => ⟨(hfl hs).1, (hfl hs).2 y⟩
  · exact fun t ht => ⟨ht.1, ht.2.serve (inReply_of_serve hsuccess hserve)⟩

/-! ### The session's callbacks run -/

section Deliver

variable {pre post : List (S × Flight Request Response Turn Client)} {r : Request}
  {prog : Program Client} {e : Turn}

theorem turn_client_self (pool : List (S × Flight Request Response Turn Client)) :
    (w.turn s prog e pool).client s = (prog.exec e (w.client s)).1 := by
  rw [World.turn_client, if_pos rfl]

/-- A callback that writes no likes and leaves the arrays alone keeps everything a cell
depends on. -/
theorem feedFrame_deliver {taps taps' : List Tap}
    (hpool : w.pool = pre ++ (s, .served r prog) :: post)
    (hr : ∀ p, r.leaves ["posts", p, "post-likes", uid] = none)
    (hcheck : ∀ p, r = .getDocument ["users", uid, "user-likes", p] →
      ¬ ((w.client s).feeds c).Lists p)
    (hissues : ∀ fl ∈ (prog.exec e (w.client s)).2, NoLikeWrite uid fl.req)
    (hposts : ((prog.exec e (w.client s)).1.feeds c).posts = ((w.client s).feeds c).posts)
    (hpost : ((prog.exec e (w.client s)).1.feeds c).post = ((w.client s).feeds c).post) :
    (feedView s uid c w taps).Frame
      (feedView s uid c (w.turn s prog e (pre ++ post)) taps') := by
  have hown : ofSession s w.pool
      = ofSession s pre ++ (s, .served r prog) :: ofSession s post := by
    rw [hpool, ofSession_append, ofSession_cons_self]
  have hown' : ofSession s (w.turn s prog e (pre ++ post)).pool
      = ofSession s pre ++ ofSession s post
        ++ (prog.exec e (w.client s)).2.map fun fl => (s, fl) := by
    rw [World.turn_pool, ofSession_append, ofSession_append, ofSession_issues_self]
  have hnew : ∀ x ∈ (prog.exec e (w.client s)).2.map fun fl => (s, fl),
      NoLikeWrite uid x.2.req := by
    intro x hx
    obtain ⟨fl, hfl, rfl⟩ := List.mem_map.mp hx
    exact hissues fl hfl
  refine ⟨fun p => ?_, fun p n hn => ?_, fun hchecking => ?_⟩
  · show markToBe uid p w.backend.docs (ofSession s _)
      = markToBe uid p w.backend.docs (ofSession s w.pool)
    rw [hown', hown]
    exact (pending_turn hr hnew p).1
  · have hcount : countToBe p w.backend.docs (ofSession s w.pool) = some n := hn
    show countToBe p w.backend.docs (ofSession s _) = some n
    rw [hown] at hcount
    rw [hown', (pending_turn hr hnew p).2]
    exact hcount
  · have hcheckings : Rechecking uid ((w.client s).feeds c) (ofSession s w.pool) := hchecking
    show Rechecking uid (((w.turn s prog e (pre ++ post)).client s).feeds c) (ofSession s _)
    rw [hown] at hcheckings
    rw [hown', turn_client_self]
    exact hcheckings.turn hcheck ⟨hposts, hpost⟩

/-- A callback that spares the feed. -/
theorem FeedInv.deliver_quiet {stages : List (S × FeedStage)}
    (hgood : (feedView s uid c w (outstanding stages)).Good)
    (hmode : ((w.client s).feeds c).post.isSome = single)
    (hplaced : ((w.client s).feeds c).Placed)
    (hpool : w.pool = pre ++ (s, .served r prog) :: post)
    (hfl : (Flight.served r prog).Spares (AsideFromLikes uid) (displayOf c))
    (hreads : Reads s uid c single (pre ++ post) stages) :
    FeedInv s uid c single (w.turn s prog e (pre ++ post)) := by
  obtain ⟨hobs, hissues⟩ := hfl.2.exec e (w.client s)
  obtain ⟨hcells, harrays⟩ := Prod.mk.inj hobs
  obtain ⟨hposts, hpost⟩ := Prod.mk.inj harrays
  have hframe : (feedView s uid c w (outstanding stages)).Frame
      (feedView s uid c (w.turn s prog e (pre ++ post)) (outstanding stages)) :=
    feedFrame_deliver hpool (fun _ => hfl.req.2.leaves) (fun p hp => absurd hp (hfl.req.1 p))
      (fun fl h => (hissues fl h).req.2) hposts hpost
  refine .of_step hgood (.same ?_ rfl hframe) ?_ ?_ (hreads.append_quiet fun x hx _ => ?_)
  · show (((w.turn s prog e (pre ++ post)).client s).feeds c).cells = ((w.client s).feeds c).cells
    rw [turn_client_self]
    exact hcells
  · rw [turn_client_self, hpost]
    exact hmode
  · rw [turn_client_self]
    exact hplaced.of_display hobs
  · obtain ⟨fl, hmem, rfl⟩ := List.mem_map.mp hx
    exact hissues fl hmem

/-- The arrays are assigned: the cells come off their rows. -/
theorem FeedInv.deliver_reload {stages new : List (S × FeedStage)}
    (hgood : (feedView s uid c w (outstanding stages)).Good)
    (hmode : ((prog.exec e (w.client s)).1.feeds c).post.isSome = single)
    (hdistinct : (((prog.exec e (w.client s)).1.feeds c).posts.map Post.postId).Nodup)
    (hrows : ∀ i, (((prog.exec e (w.client s)).1.feeds c).cells i).row = none)
    {pool : List (S × Flight Request Response Turn Client)}
    (hreads : Reads s uid c single (w.turn s prog e pool).pool new) :
    FeedInv s uid c single (w.turn s prog e pool) := by
  refine .of_step hgood (.reload fun i => ?_) ?_ ?_ hreads
  · show ((((w.turn s prog e pool).client s).feeds c).cells i).row = none
    rw [turn_client_self]
    exact hrows i
  · rw [turn_client_self]
    exact hmode
  · rw [turn_client_self]
    exact .of_unbound hdistinct hrows

/-- The list of posts arrives. -/
theorem FeedInv.deliver_fetching {stages : List (S × FeedStage)} (he : e.currentUid = some uid)
    (hgood : (feedView s uid c w (outstanding stages)).Good)
    (hmode : ((w.client s).feeds c).post.isSome = single)
    {documents : List (String × Doc)} (hdistinct : (documents.map Prod.fst).Nodup)
    {pool : List (S × Flight Request Response Turn Client)} {rest : List (S × FeedStage)}
    (hreads : Reads s uid c single pool rest) :
    FeedInv s uid c single (w.turn s (didFetchPosts c (some documents)) e pool) := by
  have hfeed : ((w.client s).mapFeed c
      (·.setPosts (documents.map fun x => Post.init e.now x.1 x.2))).feeds c
      = ((w.client s).feeds c).setPosts (documents.map fun x => Post.init e.now x.1 x.2) := by
    rw [Client.mapFeed_feeds, if_pos rfl]
  have hmode' : (((w.client s).mapFeed c
      (·.setPosts (documents.map fun x => Post.init e.now x.1 x.2))).feeds c).post.isSome
        = single := by
    rw [hfeed]
    exact hmode
  have hexec : (didFetchPosts c (some documents)).exec e (w.client s)
      = (FeedController.checkIfUserLikedPosts c).exec e ((w.client s).mapFeed c
        (·.setPosts (documents.map fun x => Post.init e.now x.1 x.2))) := rfl
  rw [exec_checkIfUserLikedPosts he _ hmode'] at hexec
  have hids : (documents.map fun x => Post.init e.now x.1 x.2).map Post.postId
      = documents.map Prod.fst := by
    rw [List.map_map]
    rfl
  have hchecks : Reads s uid c single _ _ := reads_asked
    (((w.client s).feeds c).setPosts (documents.map fun x => Post.init e.now x.1 x.2)).checks
  have hpool := hreads.append hchecks
  refine FeedInv.deliver_reload hgood ?_ ?_ (fun i => ?_) (by
    rw [World.turn_pool, hexec, hfeed]
    exact hpool)
  · rw [hexec]
    exact hmode'
  · rw [hexec, hfeed]
    show ((documents.map fun x => Post.init e.now x.1 x.2).map Post.postId).Nodup
    rw [hids]
    exact hdistinct
  · rw [hexec, hfeed]
    rfl

omit [DecidableEq S] in
/-- Setting a flag changes no identifier. -/
theorem map_postId_modify (posts : List Post) (index : Nat) (didLike : Bool) :
    (posts.modify index fun post => { post with didLike := didLike }).map Post.postId
      = posts.map Post.postId := by
  refine List.ext_getElem (by simp) fun i hi hi' => ?_
  rw [List.getElem_map, List.getElem_map, List.getElem_modify]
  split <;> rfl

/-- The answer to a check arrives. -/
theorem FeedInv.deliver_checking {stages : List (S × FeedStage)} {p : String}
    (hgood : (feedView s uid c w (outstanding stages)).Good)
    (hmode : ((w.client s).feeds c).post.isSome = single)
    (hplaced : ((w.client s).feeds c).Placed) {didLike : Bool}
    {prog : Program Client} (hprog : prog = didCheck c single p didLike)
    (hpool : w.pool
      = pre ++ (s, .served (.getDocument ["users", uid, "user-likes", p]) prog) :: post)
    {rest : List (S × FeedStage)} (htaps : outstanding rest = outstanding stages)
    (hreads : Reads s uid c single (pre ++ post) rest) :
    FeedInv s uid c single (w.turn s prog e (pre ++ post)) := by
  have hturn : ∀ f : FeedController → FeedController, prog = inFeed c f →
      ((prog.exec e (w.client s)).1.feeds c = f ((w.client s).feeds c))
        ∧ (prog.exec e (w.client s)).2 = [] := by
    intro f hf
    rw [hf]
    refine ⟨?_, rfl⟩
    show ((w.client s).mapFeed c f).feeds c = _
    rw [Client.mapFeed_feeds, if_pos rfl]
  have hpool' : (prog.exec e (w.client s)).2 = [] →
      (w.turn s prog e (pre ++ post)).pool = pre ++ post := by
    intro hnil
    rw [World.turn_pool, hnil, List.map_nil, List.append_nil]
  cases single with
  | true =>
    obtain ⟨hfeed, hnil⟩ := hturn _ hprog
    refine FeedInv.deliver_reload hgood ?_ ?_ (fun i => ?_) (by rw [hpool' hnil]; exact hreads)
    · rw [hfeed]
      show (((w.client s).feeds c).post.map _).isSome = true
      rw [Option.isSome_map]
      exact hmode
    · rw [hfeed]
      exact hplaced.distinct
    · rw [hfeed]
      rfl
  | false =>
    obtain ⟨hfeed, hnil⟩ := hturn _ hprog
    split at hfeed
    next index _ =>
      refine FeedInv.deliver_reload hgood ?_ ?_ (fun i => ?_) (by rw [hpool' hnil]; exact hreads)
      · rw [hfeed]
        exact hmode
      · rw [hfeed]
        show ((((w.client s).feeds c).posts.modify index _).map Post.postId).Nodup
        rw [map_postId_modify]
        exact hplaced.distinct
      · rw [hfeed]
        rfl
    next hnone =>
      -- the post has left the list, and the answer changes nothing
      have hgone : ¬ ((w.client s).feeds c).Lists p := by
        intro hlists
        rcases hlists with hsingle | ⟨post, hmem, hid⟩
        · rw [hmode] at hsingle
          exact absurd hsingle (by simp)
        · have hne := List.findIdx?_eq_none_iff.mp hnone post hmem
          rw [hid] at hne
          exact absurd hne (by simp)
      have hframe : (feedView s uid c w (outstanding stages)).Frame
          (feedView s uid c (w.turn s prog e (pre ++ post)) (outstanding rest)) := by
        refine feedFrame_deliver hpool (fun _ => rfl) (fun q hq => ?_) (fun fl hfl => ?_) ?_ ?_
        · have hqp : p = q := by simpa using hq
          rw [← hqp]
          exact hgone
        · rw [hnil] at hfl
          exact absurd hfl (by simp)
        · rw [hfeed]
        · rw [hfeed]
      refine .of_step hgood (.same ?_ htaps hframe) ?_ ?_ (by rw [hpool' hnil]; exact hreads)
      · show (((w.turn s prog e (pre ++ post)).client s).feeds c).cells
          = ((w.client s).feeds c).cells
        rw [turn_client_self, hfeed]
      · rw [turn_client_self, hfeed]
        exact hmode
      · rw [turn_client_self, hfeed]
        exact hplaced

/-- The acknowledgement of a count arrives: nobody waits for it. -/
theorem FeedInv.deliver_counting {stages : List (S × FeedStage)} {p : String} {likes : Int}
    (hgood : (feedView s uid c w (outstanding stages)).Good)
    (hmode : ((w.client s).feeds c).post.isSome = single)
    (hplaced : ((w.client s).feeds c).Placed)
    (hpool : w.pool = pre ++ (s, .served (.write (.updateData ["posts", p]
      (dict [("likes", .int likes)]))) .done) :: post)
    {rest : List (S × FeedStage)} (htaps : outstanding rest = outstanding stages)
    (hreads : Reads s uid c single (pre ++ post) rest) :
    FeedInv s uid c single (w.turn s .done e (pre ++ post)) := by
  have hframe : (feedView s uid c w (outstanding stages)).Frame
      (feedView s uid c (w.turn s .done e (pre ++ post)) (outstanding rest)) :=
    feedFrame_deliver hpool (fun _ => rfl) (fun _ hq => by cases hq)
      (fun fl hfl => absurd hfl (by simp)) rfl rfl
  refine .of_step hgood (.same ?_ htaps hframe) ?_ ?_ ?_
  · show (((w.turn s .done e (pre ++ post)).client s).feeds c).cells = ((w.client s).feeds c).cells
    rw [turn_client_self]
    rfl
  · rw [turn_client_self]
    exact hmode
  · rw [turn_client_self]
    exact hplaced
  · rw [World.turn_pool, Prog.exec_done, List.map_nil, List.append_nil]
    exact hreads

omit [DecidableEq S] in
/-- Stages that are not ordered are no taps. -/
theorem Reads.no_taps {stages : List (S × FeedStage)} (h : Reads s uid c single pre stages)
    (hfifo : ∀ x ∈ pre, x.1 = s → api.ordered x.2.req = false) :
    copies stages = [] ∧ marks stages = [] := by
  have hnone : ∀ x ∈ stages, (∀ tap, x.2 ≠ .copying tap) ∧ ∀ tap, x.2 ≠ .marking tap := by
    intro x hx
    obtain ⟨fl, hmem, hs, hat⟩ := h.mem hx
    have hfree := hfifo _ hmem hs
    rw [hat.req_eq] at hfree
    refine ⟨fun tap htap => ?_, fun tap htap => ?_⟩ <;>
      · rw [htap] at hfree
        exact absurd hfree (by simp [feedScript, FeedStage.req])
  refine ⟨List.filterMap_eq_nil_iff.mpr fun x hx => ?_,
    List.filterMap_eq_nil_iff.mpr fun x hx => ?_⟩
  · split
    next tap htap => exact absurd htap ((hnone x hx).1 tap)
    next => rfl
  · split
    next tap htap => exact absurd htap ((hnone x hx).2 tap)
    next => rfl

/-- The completion of a tap runs. -/
theorem FeedInv.deliver_copying {l l' : List (S × FeedStage)} {tap : Tap} {error : Option Error}
    (hgood : (feedView s uid c w (outstanding (l ++ (s, .copying tap) :: l'))).Good)
    (hmode : ((w.client s).feeds c).post.isSome = single)
    (hplaced : ((w.client s).feeds c).Placed)
    (hpool : w.pool = pre ++ (s, .served (.write (markWrite
      ["users", uid, "user-likes", tap.post.postId] (!tap.post.didLike))) (tap.completion c error))
        :: post)
    (hfifo : ∀ x ∈ pre, x.1 = s → api.ordered x.2.req = false)
    (hpre : Reads s uid c single pre l) (hpost : Reads s uid c single post l') :
    FeedInv s uid c single (w.turn s (tap.completion c error) e (pre ++ post)) := by
  obtain ⟨hcopies, hmarks⟩ := hpre.no_taps hfifo
  have hqueue : outstanding (l ++ (s, .copying tap) :: l') = tap :: outstanding (l ++ l') := by
    unfold outstanding
    rw [copies_append, marks_append, copies_append, marks_append, hcopies, hmarks]
    rfl
  obtain ⟨hobs, hissues⟩ := (exec_completion tap error (w.client s) :
    displayOf c ((tap.completion c error).exec e (w.client s)).1 = _
      ∧ ∀ fl ∈ ((tap.completion c error).exec e (w.client s)).2,
        fl.Spares (AsideFromLikes uid) (displayOf c))
  obtain ⟨hcells, harrays⟩ := Prod.mk.inj hobs
  obtain ⟨hposts, hpost'⟩ := Prod.mk.inj harrays
  have hframe : (feedView s uid c w (outstanding (l ++ (s, .copying tap) :: l'))).Frame
      (feedView s uid c (w.turn s (tap.completion c error) e (pre ++ post))
        (outstanding (l ++ l'))) := by
    refine feedFrame_deliver hpool (fun p => ?_) (fun _ hq => by cases hq)
      (fun fl hfl => (hissues fl hfl).req.2) hposts hpost'
    rw [Request.leaves_markWrite, if_neg (by simp)]
  refine .of_step hgood (.finish tap (outstanding (l ++ l')) hqueue ?_ rfl hframe) ?_ ?_
    ((hpre.append hpost).append_quiet fun x hx _ => ?_)
  · show (((w.turn s (tap.completion c error) e (pre ++ post)).client s).feeds c).cells = _
    rw [turn_client_self]
    exact hcells
  · rw [turn_client_self, hpost']
    exact hmode
  · rw [turn_client_self]
    have hcell : (((w.client s).feeds c).mapCell tap.cell tap.finished).Placed :=
      hplaced.mapCell tap.finished_row tap.finished_post fun _ => rfl
    exact hcell.of_display hobs
  · obtain ⟨fl, hmem, rfl⟩ := List.mem_map.mp hx
    exact hissues fl hmem

/-- The mark of a tap is acknowledged and its copy is issued. -/
theorem FeedInv.deliver_marking {l l' : List (S × FeedStage)} {tap : Tap}
    (hgood : (feedView s uid c w (outstanding (l ++ (s, .marking tap) :: l'))).Good)
    (hmode : ((w.client s).feeds c).post.isSome = single)
    (hplaced : ((w.client s).feeds c).Placed)
    (hprog : prog = .call (.write (markWrite ["users", uid, "user-likes", tap.post.postId]
      (!tap.post.didLike))) (tap.completion c) .done)
    (hpool : w.pool = pre ++ (s, .served (.write (markWrite
      ["posts", tap.post.postId, "post-likes", uid] (!tap.post.didLike))) prog) :: post)
    (hfifo : ∀ x ∈ pre, x.1 = s → api.ordered x.2.req = false)
    (hpre : Reads s uid c single pre l) (hpost : Reads s uid c single post l') :
    FeedInv s uid c single (w.turn s prog e (pre ++ post)) := by
  obtain ⟨hcopies, hmarks⟩ := hpre.no_taps hfifo
  have hqueue : outstanding (l ++ l' ++ [(s, FeedStage.copying tap)])
      = outstanding (l ++ (s, .marking tap) :: l') := by
    unfold outstanding
    simp only [copies_append, marks_append, hcopies, hmarks]
    show copies l' ++ [tap] ++ (marks l' ++ []) = copies l' ++ (tap :: marks l')
    simp
  have hissue : (prog.exec e (w.client s))
      = (w.client s, [(FeedStage.copying tap).asked uid c single]) := by
    rw [hprog]
    rfl
  have hpool' : (w.turn s prog e (pre ++ post)).pool
      = pre ++ post ++ [(s, (FeedStage.copying tap).asked uid c single)] := by
    rw [World.turn_pool, hissue]
    rfl
  have hleaves : ∀ x ∈ ofSession s pre, ∀ p,
      x.2.req.leaves ["posts", p, "post-likes", uid] = none := by
    intro x hx p
    obtain ⟨hmem, hs⟩ := mem_ofSession.mp hx
    refine Request.leaves_eq_none fun write hwrite => ?_
    have hfree := hfifo x hmem hs
    rw [hwrite] at hfree
    exact absurd hfree (by simp)
  have hown : ofSession s w.pool = ofSession s pre
      ++ (s, .served (.write (markWrite ["posts", tap.post.postId, "post-likes", uid]
        (!tap.post.didLike))) prog) :: ofSession s post := by
    rw [hpool, ofSession_append, ofSession_cons_self]
  have hown' : ofSession s (w.turn s prog e (pre ++ post)).pool
      = ofSession s pre ++ ofSession s post
        ++ [(s, .issued (.write (markWrite ["users", uid, "user-likes", tap.post.postId]
          (!tap.post.didLike))) (tap.completion c))] := by
    rw [hpool', ofSession_append, ofSession_append, ofSession_cons_self]
    rfl
  have hclient : (w.turn s prog e (pre ++ post)).client s = w.client s := by
    rw [turn_client_self, hissue]
  have hframe : (feedView s uid c w (outstanding (l ++ (s, .marking tap) :: l'))).Frame
      (feedView s uid c (w.turn s prog e (pre ++ post))
        (outstanding (l ++ l' ++ [(s, FeedStage.copying tap)]))) := by
    refine ⟨fun p => ?_, fun p n hn => ?_, fun hchecking => ?_⟩
    · show markToBe uid p w.backend.docs (ofSession s _)
      = markToBe uid p w.backend.docs (ofSession s w.pool)
      rw [hown', hown]
      exact (pending_pass hleaves p).1
    · have hcount : countToBe p w.backend.docs (ofSession s w.pool) = some n := hn
      show countToBe p w.backend.docs (ofSession s _) = some n
      rw [hown] at hcount
      rw [hown', (pending_pass hleaves p).2]
      exact hcount
    · have hcheckings : Rechecking uid ((w.client s).feeds c) (ofSession s w.pool) := hchecking
      show Rechecking uid (((w.turn s prog e (pre ++ post)).client s).feeds c) (ofSession s _)
      rw [hown] at hcheckings
      rw [hown', hclient]
      exact hcheckings.turn (fun _ hq => by cases hq) ⟨rfl, rfl⟩
  refine .of_step hgood (.same ?_ hqueue hframe) ?_ ?_ ?_
  · show (((w.turn s prog e (pre ++ post)).client s).feeds c).cells = ((w.client s).feeds c).cells
    rw [hclient]
  · rw [hclient]
    exact hmode
  · rw [hclient]
    exact hplaced
  · rw [hpool']
    exact (hpre.append hpost).append (reads_asked [FeedStage.copying tap])

/-- A callback of the session runs. -/
theorem FeedInv.delivered (h : FeedInv s uid c single w) (he : e.currentUid = some uid)
    (hpool : w.pool = pre ++ (s, .served r prog) :: post)
    (hfifo : api.ordered r = true → ∀ x ∈ pre, x.1 = s → api.ordered x.2.req = false) :
    FeedInv s uid c single (w.turn s prog e (pre ++ post)) := by
  obtain ⟨hmode, hplaced, stages, htracks, hgood⟩ := h
  have hsplit := htracks
  rw [hpool] at hsplit
  rcases hsplit.remove with ⟨hfl, hrest⟩ | ⟨l, t, l', rfl, ⟨-, hat⟩, hpre, hpost⟩
  · exact FeedInv.deliver_quiet hgood hmode hplaced hpool (hfl rfl) hrest
  · have hrest := hpre.append hpost
    cases hat with
    | answered t y hy =>
      cases t with
      | fetching =>
        obtain ⟨documents, rfl, hdistinct⟩ := hy
        exact FeedInv.deliver_fetching he hgood hmode hdistinct hrest
      | checking p =>
        obtain ⟨snapshot, rfl⟩ := Option.isSome_iff_exists.mp hy
        refine FeedInv.deliver_checking hgood hmode hplaced rfl hpool ?_ hrest
        unfold outstanding
        rw [copies_append, copies_append, marks_append, marks_append]
        rfl
      | counting p likes =>
        refine FeedInv.deliver_counting hgood hmode hplaced hpool ?_ hrest
        unfold outstanding
        rw [copies_append, copies_append, marks_append, marks_append]
        rfl
      | marking tap =>
        exact FeedInv.deliver_marking hgood hmode hplaced rfl hpool (hfifo rfl) hpre hpost
      | copying tap =>
        exact FeedInv.deliver_copying hgood hmode hplaced hpool (hfifo rfl) hpre hpost

end Deliver

/-! ### The session's actions -/

section Invoke

variable {prog : Program Client} {e : Turn}

/-- An action that writes no likes and leaves the arrays alone keeps everything a cell depends
on. -/
theorem feedFrame_invoke {taps taps' : List Tap}
    (hissues : ∀ fl ∈ (prog.exec e (w.client s)).2, NoLikeWrite uid fl.req)
    (hposts : ((prog.exec e (w.client s)).1.feeds c).posts = ((w.client s).feeds c).posts)
    (hpost : ((prog.exec e (w.client s)).1.feeds c).post = ((w.client s).feeds c).post) :
    (feedView s uid c w taps).Frame (feedView s uid c (w.turn s prog e w.pool) taps') := by
  have hown : ofSession s (w.turn s prog e w.pool).pool
      = ofSession s w.pool ++ (prog.exec e (w.client s)).2.map fun fl => (s, fl) := by
    rw [World.turn_pool, ofSession_append, ofSession_issues_self]
  have hnew : ∀ x ∈ (prog.exec e (w.client s)).2.map fun fl => (s, fl),
      NoLikeWrite uid x.2.req := by
    intro x hx
    obtain ⟨fl, hfl, rfl⟩ := List.mem_map.mp hx
    exact hissues fl hfl
  refine ⟨fun p => ?_, fun p n hn => ?_, fun hchecking => ?_⟩
  · show markToBe uid p w.backend.docs (ofSession s _)
      = markToBe uid p w.backend.docs (ofSession s w.pool)
    rw [hown]
    exact (pending_issue hnew p).1
  · show countToBe p w.backend.docs (ofSession s _) = some n
    rw [hown, (pending_issue hnew p).2]
    exact hn
  · have hcheckings : Rechecking uid ((w.client s).feeds c) (ofSession s w.pool) := hchecking
    show Rechecking uid (((w.turn s prog e w.pool).client s).feeds c) (ofSession s _)
    rw [hown, turn_client_self]
    exact hcheckings.issue ⟨hposts, hpost⟩

/-- An action that leaves the feed as it is, and starts no tap. -/
theorem FeedInv.invoke_same (h : FeedInv s uid c single w) {new : List (S × FeedStage)}
    (hdisplay : displayOf c (prog.exec e (w.client s)).1 = displayOf c (w.client s))
    (hissues : ∀ fl ∈ (prog.exec e (w.client s)).2, NoLikeWrite uid fl.req)
    (hreads : Reads s uid c single ((prog.exec e (w.client s)).2.map fun fl => (s, fl)) new)
    (hnew : copies new = [] ∧ marks new = []) :
    FeedInv s uid c single (w.turn s prog e w.pool) := by
  obtain ⟨hmode, hplaced, stages, htracks, hgood⟩ := h
  obtain ⟨hcells, harrays⟩ := Prod.mk.inj hdisplay
  obtain ⟨hposts, hpost⟩ := Prod.mk.inj harrays
  have hframe : (feedView s uid c w (outstanding stages)).Frame
      (feedView s uid c (w.turn s prog e w.pool) (outstanding (stages ++ new))) :=
    feedFrame_invoke hissues hposts hpost
  have htaps : outstanding (stages ++ new) = outstanding stages := by
    unfold outstanding
    rw [copies_append, marks_append, hnew.1, hnew.2, List.append_nil, List.append_nil]
  refine .of_step hgood (.same ?_ htaps hframe) ?_ ?_ (htracks.append hreads)
  · show (((w.turn s prog e w.pool).client s).feeds c).cells = ((w.client s).feeds c).cells
    rw [turn_client_self]
    exact hcells
  · rw [turn_client_self, hpost]
    exact hmode
  · rw [turn_client_self]
    exact hplaced.of_display hdisplay

/-- An action that does nothing. -/
theorem FeedInv.invoke_idle (h : FeedInv s uid c single w)
    (hexec : prog.exec e (w.client s) = (w.client s, [])) :
    FeedInv s uid c single (w.turn s prog e w.pool) := by
  refine h.invoke_same (by rw [hexec]) (fun fl hfl => ?_) (?_ : Reads s uid c single _ [])
    ⟨rfl, rfl⟩
  · rw [hexec] at hfl
    exact absurd hfl List.not_mem_nil
  · rw [hexec]
    exact .nil

/-- The stages that a feed asks for when it loads are no writes. -/
theorem noLikeWrite_asked {t : FeedStage} (ht : t = .fetching ∨ ∃ p, t = .checking p) :
    NoLikeWrite uid (t.asked uid c single).req := by
  intro write hwrite
  rcases ht with rfl | ⟨p, rfl⟩ <;> cases hwrite

theorem FeedController.checking_of_mem {feed : FeedController} {t : FeedStage}
    (h : t ∈ feed.checks) : ∃ p, t = .checking p := by
  unfold checks at h
  split at h
  next post _ => exact ⟨post.postId, List.mem_singleton.mp h⟩
  next =>
    obtain ⟨post, -, rfl⟩ := List.mem_map.mp h
    exact ⟨post.postId, rfl⟩

omit [DecidableEq S] in
/-- Checks are no taps. -/
theorem no_taps_checks (feed : FeedController) :
    copies (feed.checks.map fun t => (s, t)) = []
      ∧ marks (feed.checks.map fun t => (s, t)) = [] := by
  have hchecks : ∀ x ∈ feed.checks.map fun t => (s, t), ∃ p, x.2 = .checking p := by
    intro x hx
    obtain ⟨t, ht, rfl⟩ := List.mem_map.mp hx
    exact FeedController.checking_of_mem ht
  refine ⟨List.filterMap_eq_nil_iff.mpr fun x hx => ?_,
    List.filterMap_eq_nil_iff.mpr fun x hx => ?_⟩ <;>
  · obtain ⟨p, hp⟩ := hchecks x hx
    rw [hp]

/-! #### The feed loads -/

section Loaded

/-- What the fetch of the user comes to, in the turn that marks the feed as loaded. -/
def loadedFeed (c : Nat) (e : Turn) (client : Client) :
    Client × List (Flight Request Response Turn Client) :=
  (FeedController.fetchUser c).exec e (client.mapFeed c fun feed => { feed with loaded := true })

/-- It shows what the feed showed, -/
theorem loadedFeed_display (client : Client) :
    displayOf c (loadedFeed c e client).1 = displayOf c client := by
  have hloaded : displayOf c (client.mapFeed c fun feed => { feed with loaded := true })
      = displayOf c client := by
    unfold displayOf
    rw [Client.mapFeed_feeds, if_pos rfl]
    rfl
  -- whose likes the request stays clear of plays no part here
  have hspares : (FeedController.fetchUser c).Spares (AsideFromLikes "") (displayOf c) :=
    spares_feedFetchUser
  exact (hspares.exec e _).1.trans hloaded

/-- in the same mode, -/
theorem loadedFeed_mode {client : Client} (hmode : (client.feeds c).post.isSome = single) :
    ((loadedFeed c e client).1.feeds c).post.isSome = single := by
  have hdisplay := loadedFeed_display (c := c) (e := e) client
  rw [(Prod.mk.inj (Prod.mk.inj hdisplay).2).2]
  exact hmode

/-- and its request has nothing to do with likes. -/
theorem loadedFeed_spares {client : Client} :
    ∀ fl ∈ (loadedFeed c e client).2, fl.Spares (AsideFromLikes uid) (displayOf c) :=
  (spares_feedFetchUser.exec e _).2

/-- The turn of a feed that loads for the first time: the list asks for the posts, the single
post for its check. -/
theorem exec_viewDidLoad (he : e.currentUid = some uid) {client : Client}
    (hloaded : ¬ (client.feeds c).loaded = true)
    (hmode : (client.feeds c).post.isSome = single) :
    (FeedController.viewDidLoad c).exec e client
      = ((loadedFeed c e client).1,
        (if single then [] else [FeedStage.fetching.asked uid c single])
          ++ ((loadedFeed c e client).2
            ++ if single then
              ((loadedFeed c e client).1.feeds c).checks.map (FeedStage.asked uid c single)
            else [])) := by
  have hopened : ((client.mapFeed c fun feed => { feed with loaded := true }).feeds c).post.isSome
      = single := by
    rw [Client.mapFeed_feeds, if_pos rfl]
    exact hmode
  have hmode' := loadedFeed_mode (e := e) hmode
  unfold FeedController.viewDidLoad
  rw [Prog.exec_read, if_neg hloaded]
  show ((FeedController.fetchPosts c).andThen _).exec e _ = _
  rw [Prog.exec_andThen, exec_fetchPosts _ hopened, Prog.exec_andThen, Prog.exec_read]
  unfold loadedFeed at hmode' ⊢
  dsimp only
  rw [hmode']
  by_cases hsingle : single = true
  · simp only [if_pos hsingle]
    rw [exec_checkIfUserLikedPosts he _ hmode']
  · simp only [if_neg hsingle]
    rfl

/-- The stages these requests are in. -/
theorem reads_viewDidLoad (s : S) (client : Client) :
    Reads s uid c single
      (((if single then [] else [FeedStage.fetching.asked uid c single])
        ++ ((loadedFeed c e client).2
          ++ if single then
            ((loadedFeed c e client).1.feeds c).checks.map (FeedStage.asked uid c single)
          else [])).map fun fl => (s, fl))
      ((if single then [] else [(s, FeedStage.fetching)])
        ++ if single then ((loadedFeed c e client).1.feeds c).checks.map fun t => (s, t)
          else []) := by
  have hquiet : Reads s uid c single ((loadedFeed c e client).2.map fun fl => (s, fl)) [] := by
    refine .of_quiet fun x hx _ => ?_
    obtain ⟨fl, hfl, rfl⟩ := List.mem_map.mp hx
    exact loadedFeed_spares fl hfl
  rw [List.map_append, List.map_append]
  by_cases hsingle : single = true
  · simp only [if_pos hsingle]
    exact (Tracks.nil).append (hquiet.append (reads_asked _))
  · simp only [if_neg hsingle]
    exact (reads_asked [FeedStage.fetching]).append (hquiet.append .nil)

/-- They write nothing. -/
theorem noLikeWrite_viewDidLoad {client : Client} {fl : Flight Request Response Turn Client}
    (hfl : fl ∈ (if single then [] else [FeedStage.fetching.asked uid c single])
      ++ ((loadedFeed c e client).2
        ++ if single then
          ((loadedFeed c e client).1.feeds c).checks.map (FeedStage.asked uid c single)
        else [])) : NoLikeWrite uid fl.req := by
  rcases List.mem_append.mp hfl with hfetch | hfl
  · split at hfetch
    next => exact absurd hfetch (by simp)
    next =>
      rw [List.mem_singleton.mp hfetch]
      exact noLikeWrite_asked (Or.inl rfl)
  rcases List.mem_append.mp hfl with huser | hchecks
  · exact (loadedFeed_spares fl huser).req.2
  · split at hchecks
    next =>
      obtain ⟨t, ht, rfl⟩ := List.mem_map.mp hchecks
      exact noLikeWrite_asked (Or.inr (FeedController.checking_of_mem ht))
    next => exact absurd hchecks (by simp)

end Loaded

/-- `viewDidLoad()`. -/
theorem FeedInv.didLoad (h : FeedInv s uid c single w) (he : e.currentUid = some uid) :
    FeedInv s uid c single (w.turn s (FeedController.viewDidLoad c) e w.pool) := by
  by_cases hloaded : ((w.client s).feeds c).loaded = true
  · have hexec : (FeedController.viewDidLoad c).exec e (w.client s) = (w.client s, []) := by
      unfold FeedController.viewDidLoad
      rw [Prog.exec_read, if_pos hloaded]
      rfl
    exact h.invoke_idle hexec
  · have hexec := exec_viewDidLoad he hloaded h.mode
    refine h.invoke_same (by rw [hexec]; exact loadedFeed_display _) (fun fl hfl => ?_)
      (by rw [hexec]; exact reads_viewDidLoad s (w.client s)) ?_
    · rw [hexec] at hfl
      exact noLikeWrite_viewDidLoad hfl
    · obtain ⟨hcopies, hmarks⟩ :=
        no_taps_checks (s := s) ((loadedFeed c e (w.client s)).1.feeds c)
      rw [copies_append, marks_append]
      by_cases hsingle : single = true
      · simp only [if_pos hsingle]
        exact ⟨hcopies, hmarks⟩
      · simp only [if_neg hsingle]
        exact ⟨rfl, rfl⟩

/-- `handleRefresh()`. -/
theorem FeedInv.refresh (h : FeedInv s uid c single w) :
    FeedInv s uid c single (w.turn s (FeedController.handleRefresh c) e w.pool) := by
  obtain ⟨hmode, hplaced, stages, htracks, hgood⟩ := h
  have hfeed : ((w.client s).mapFeed c (·.setPosts [])).feeds c
      = ((w.client s).feeds c).setPosts [] := by
    rw [Client.mapFeed_feeds, if_pos rfl]
  have hmode' : (((w.client s).mapFeed c (·.setPosts [])).feeds c).post.isSome = single := by
    rw [hfeed]
    exact hmode
  have hexec : (FeedController.handleRefresh c).exec e (w.client s)
      = ((w.client s).mapFeed c (·.setPosts []),
        if single then [] else [FeedStage.fetching.asked uid c single]) :=
    exec_fetchPosts _ hmode'
  have hreads : Reads s uid c single (w.turn s (FeedController.handleRefresh c) e w.pool).pool
      (stages ++ if single then [] else [(s, FeedStage.fetching)]) := by
    rw [World.turn_pool, hexec]
    refine htracks.append ?_
    by_cases hsingle : single = true
    · simp only [if_pos hsingle]
      exact .nil
    · simp only [if_neg hsingle]
      exact reads_asked [FeedStage.fetching]
  refine FeedInv.deliver_reload hgood ?_ ?_ (fun i => ?_) hreads
  · rw [hexec]
    exact hmode'
  · rw [hexec, hfeed]
    exact List.nodup_nil
  · rw [hexec, hfeed]
    rfl

omit [DecidableEq S] in
/-- An outstanding completion will write into the cell of its tap. -/
theorem Reads.captured {pool : List (S × Flight Request Response Turn Client)}
    {stages : List (S × FeedStage)} (h : Reads s uid c single pool stages) {tap : Tap}
    (htap : tap ∈ outstanding stages) : ∃ x ∈ pool, x.1 = s ∧ Captured uid c tap.cell x.2 := by
  have hstage : ∃ x ∈ stages, x.2 = .marking tap ∨ x.2 = .copying tap := by
    rcases List.mem_append.mp htap with hcopy | hmark
    · obtain ⟨x, hx, hsome⟩ := List.mem_filterMap.mp hcopy
      refine ⟨x, hx, Or.inr ?_⟩
      split at hsome
      next stage hstage =>
        rw [hstage, Option.some.inj hsome]
      next => exact absurd hsome (by simp)
    · obtain ⟨x, hx, hsome⟩ := List.mem_filterMap.mp hmark
      refine ⟨x, hx, Or.inl ?_⟩
      split at hsome
      next stage hstage =>
        rw [hstage, Option.some.inj hsome]
      next => exact absurd hsome (by simp)
  obtain ⟨x, hx, hcases⟩ := hstage
  obtain ⟨fl, hmem, hs, hat⟩ := h.mem hx
  refine ⟨(x.1, fl), hmem, hs, single, tap, rfl, ?_⟩
  rcases hcases with hmark | hcopy
  · exact Or.inl (hmark ▸ hat)
  · exact Or.inr (hcopy ▸ hat)

/-- `cellForItemAt` binds a cell. -/
theorem FeedInv.bind (h : FeedInv s uid c single w) {cell row : Nat}
    (halone : ∀ j, j ≠ cell → (((w.client s).feeds c).cells j).row ≠ some row)
    (hcurrent : Rechecking uid ((w.client s).feeds c) (ofSession s w.pool)
      ∨ ∀ post ∈ ((w.client s).feeds c).postAt row, EntryCurrent s uid c w cell post) :
    FeedInv s uid c single (w.turn s (FeedController.cellForItemAt c cell row) e w.pool) := by
  cases hpost : ((w.client s).feeds c).postAt row with
  | none =>
    have hexec : displayOf c ((FeedController.cellForItemAt c cell row).exec e (w.client s)).1
        = displayOf c (w.client s) := by
      unfold FeedController.cellForItemAt inFeed displayOf
      rw [Prog.exec_modify, Prog.exec_done, Client.mapFeed_feeds, if_pos rfl, hpost]
    exact h.invoke_same hexec (fun fl hfl => absurd hfl List.not_mem_nil) .nil ⟨rfl, rfl⟩
  | some post =>
    obtain ⟨hmode, hplaced, stages, htracks, hgood⟩ := h
    have hfeed : ((FeedController.cellForItemAt c cell row).exec e (w.client s)).1.feeds c
        = ((w.client s).feeds c).mapCell cell (·.bound post row) := by
      unfold FeedController.cellForItemAt inFeed
      rw [Prog.exec_modify, Prog.exec_done, Client.mapFeed_feeds, if_pos rfl, hpost]
      rfl
    have hpool : (w.turn s (FeedController.cellForItemAt c cell row) e w.pool).pool = w.pool :=
      List.append_nil _
    have hframe : (feedView s uid c w (outstanding stages)).Frame
        (feedView s uid c (w.turn s (FeedController.cellForItemAt c cell row) e w.pool)
          (outstanding stages)) :=
      feedFrame_invoke (fun fl hfl => absurd hfl List.not_mem_nil) (by rw [hfeed]; rfl)
        (by rw [hfeed]; rfl)
    refine .of_step hgood (.bind cell row post ?_ rfl hframe ?_ ?_) ?_ ?_
      (by rw [hpool]; exact htracks)
    · show
        (((w.turn s (FeedController.cellForItemAt c cell row) e w.pool).client s).feeds c).cells = _
      rw [turn_client_self, hfeed]
      rfl
    · intro j hj hbound shown hshown heq
      -- the cell would show another row with the same post
      obtain ⟨row', hrow'⟩ := Option.isSome_iff_exists.mp hbound
      obtain ⟨post', shown', hat, hshown', hid⟩ := hplaced.rows j row' hrow'
      obtain rfl : shown' = shown := Option.some.inj (hshown'.symm.trans hshown)
      have hsame : row' = row := hplaced.row_eq hat hpost (hid.symm.trans heq)
      exact halone j hj (hsame ▸ hrow')
    · rcases hcurrent with hcheck | hentry
      · exact Or.inl hcheck
      · obtain ⟨hflag, hlikes, hfree⟩ := hentry post hpost
        refine Or.inr ⟨hflag, hlikes, fun tap htap hcell => ?_⟩
        obtain ⟨x, hx, hs, hcaptured⟩ := htracks.captured htap
        exact hfree x hx hs (hcell ▸ hcaptured)
    · rw [turn_client_self, hfeed]
      exact hmode
    · rw [turn_client_self, hfeed]
      exact hplaced.bind hpost

/-! #### A tap -/

section Tapped

variable {cell : Nat} {flights : List (Flight Request Response Turn Client)}

/-- The feed after a tap: only the tapped cell has changed. -/
theorem toggled_feeds (c cell : Nat) (client : Client) :
    (toggled c cell client).feeds c = (client.feeds c).mapCell cell FeedCell.toggled := by
  unfold toggled
  rw [Client.mapFeed_feeds, if_pos rfl]
  rfl

theorem tapped_feeds (hexec : prog.exec e (w.client s) = (toggled c cell (w.client s), flights)) :
    ((w.turn s prog e w.pool).client s).feeds c
      = ((w.client s).feeds c).mapCell cell FeedCell.toggled := by
  rw [turn_client_self, hexec, toggled_feeds]

/-- The requests of the tap are under way with the session's own. -/
theorem tapped_own (hexec : prog.exec e (w.client s) = (toggled c cell (w.client s), flights)) :
    ofSession s (w.turn s prog e w.pool).pool
      = ofSession s w.pool ++ flights.map fun fl => (s, fl) := by
  rw [World.turn_pool, hexec, ofSession_append, ofSession_issues_self]

/-- The view after a tap shows the cell toggled. -/
theorem tapped_cells (hexec : prog.exec e (w.client s) = (toggled c cell (w.client s), flights))
    (taps : List Tap) :
    (feedView s uid c (w.turn s prog e w.pool) taps).cells
      = Function.update ((w.client s).feeds c).cells cell
        (((w.client s).feeds c).cells cell).toggled := by
  show (((w.turn s prog e w.pool).client s).feeds c).cells = _
  rw [tapped_feeds hexec]
  rfl

/-- A check under way stays under way. -/
theorem Rechecking.tapped (h : Rechecking uid ((w.client s).feeds c) (ofSession s w.pool))
    (hexec : prog.exec e (w.client s) = (toggled c cell (w.client s), flights)) :
    Rechecking uid (((w.turn s prog e w.pool).client s).feeds c)
      (ofSession s (w.turn s prog e w.pool).pool) := by
  rw [tapped_own hexec, tapped_feeds hexec]
  exact h.issue ⟨rfl, rfl⟩

/-- A step of the view that a tap makes carries the invariant: mode and rows stay. -/
theorem FeedInv.of_tapped {stages stages' : List (S × FeedStage)}
    (hgood : (feedView s uid c w (outstanding stages)).Good)
    (hmode : ((w.client s).feeds c).post.isSome = single)
    (hplaced : ((w.client s).feeds c).Placed)
    (hexec : prog.exec e (w.client s) = (toggled c cell (w.client s), flights))
    (hstep : (feedView s uid c w (outstanding stages)).Step
      (feedView s uid c (w.turn s prog e w.pool) (outstanding stages')))
    (hreads : Reads s uid c single (w.pool ++ flights.map fun fl => (s, fl)) stages') :
    FeedInv s uid c single (w.turn s prog e w.pool) := by
  refine .of_step hgood hstep ?_ ?_ ?_
  · rw [tapped_feeds hexec]
    exact hmode
  · rw [tapped_feeds hexec]
    exact hplaced.mapCell (FeedCell.updatePost_row _) (FeedCell.updatePost_post _) fun _ => rfl
  · rw [World.turn_pool, hexec]
    exact hreads

/-- A tap that passes the guard: the count and the mark are under way, and the completion
waits for the mark's copy. -/
theorem FeedInv.tap_passed {post : Post} {user : User} (h : FeedInv s uid c single w)
    (hbound : (((w.client s).feeds c).cells cell).row.isSome = true)
    (hpost : (((w.client s).feeds c).cells cell).post = some post)
    (hpass : post.tapPasses = true)
    (hexec : prog.exec e (w.client s)
      = (toggled c cell (w.client s), tapFlights uid post (didTap c cell post user))) :
    FeedInv s uid c single (w.turn s prog e w.pool) := by
  obtain ⟨hmode, hplaced, stages, htracks, hgood⟩ := h
  let tap : Tap := ⟨cell, post, user⟩
  have hqueue : outstanding (stages
      ++ [(s, FeedStage.counting post.postId post.tapCount), (s, .marking tap)])
      = outstanding stages ++ [tap] := by
    unfold outstanding
    rw [copies_append, marks_append]
    show (copies stages ++ []) ++ (marks stages ++ [tap]) = _
    rw [List.append_nil, List.append_assoc]
  have hflights : tapFlights uid post (didTap c cell post user)
      = [FeedStage.counting post.postId post.tapCount, .marking tap].map
        (FeedStage.asked uid c single) := by
    unfold tapFlights
    rw [if_pos hpass]
    rfl
  refine .of_tapped hgood hmode hplaced hexec
    (.tap tap hbound hpost (tapped_cells hexec _) hqueue ?_ ?_ (·.tapped hexec)) ?_
  · intro p
    show markToBe uid p w.backend.docs (ofSession s _) = _
    rw [tapped_own hexec]
    exact (pending_tap hpass p).1
  · intro p n hn
    show countToBe p w.backend.docs (ofSession s _) = _
    rw [tapped_own hexec]
    exact (pending_tap hpass p).2 n hn
  · rw [hflights]
    exact htracks.append (reads_asked [.counting post.postId post.tapCount, .marking tap])

/-- A tap the guard of `unlikePost` refuses: only the cell changes, which a check under way
will reload. -/
theorem FeedInv.tap_refused {post : Post} {k : Option Error → Program Client}
    (h : FeedInv s uid c single w)
    (hcheck : Rechecking uid ((w.client s).feeds c) (ofSession s w.pool))
    (hpass : ¬ post.tapPasses = true)
    (hexec : prog.exec e (w.client s) = (toggled c cell (w.client s), tapFlights uid post k)) :
    FeedInv s uid c single (w.turn s prog e w.pool) := by
  obtain ⟨hmode, hplaced, stages, htracks, hgood⟩ := h
  have hnone : tapFlights uid post k = [] := if_neg hpass
  refine .of_tapped hgood hmode hplaced hexec
    (.refused cell (tapped_cells hexec (outstanding stages)) (hcheck.tapped hexec)) ?_
  rw [hnone, List.map_nil, List.append_nil]
  exact htracks

end Tapped

/-- `didTapLike()`. -/
theorem FeedInv.tap (h : FeedInv s uid c single w) (he : e.currentUid = some uid) {cell : Nat}
    (hbound : (((w.client s).feeds c).cells cell).row.isSome = true)
    (hpasses : Rechecking uid ((w.client s).feeds c) (ofSession s w.pool)
      ∨ ∀ post ∈ (((w.client s).feeds c).cells cell).post, ∀ _user ∈ (w.client s).tabUser,
        post.tapPasses = true) :
    FeedInv s uid c single (w.turn s (FeedController.didTapLike c cell) e w.pool) := by
  have hexec := exec_didTapLike he c cell (w.client s)
  cases hpost : (((w.client s).feeds c).cells cell).post with
  | none =>
    rw [hpost] at hexec
    exact h.invoke_idle hexec
  | some post =>
  cases htab : (w.client s).tabUser with
  | none =>
    rw [hpost, htab] at hexec
    exact h.invoke_idle hexec
  | some user =>
    rw [hpost, htab] at hexec
    dsimp only at hexec
    by_cases hpass : post.tapPasses = true
    · exact h.tap_passed hbound hpost hpass hexec
    · have hcheck : Rechecking uid ((w.client s).feeds c) (ofSession s w.pool) := by
        rcases hpasses with hcheck | hall
        · exact hcheck
        · exact absurd (hall post hpost user htab) hpass
      exact h.tap_refused hcheck hpass hexec

/-- `MainTabController` loads. -/
theorem FeedInv.tabDidLoad (h : FeedInv s uid c single w) :
    FeedInv s uid c single (w.turn s MainTabController.fetchUser e w.pool) := by
  have hspares : MainTabController.fetchUser.Spares (AsideFromLikes uid) (displayOf c) :=
    spares_tabFetchUser
  obtain ⟨hdisplay, hissues⟩ := hspares.exec e (w.client s)
  refine h.invoke_same hdisplay (fun fl hfl => (hissues fl hfl).req.2) (.of_quiet fun x hx _ => ?_)
    ⟨rfl, rfl⟩
  obtain ⟨fl, hfl, rfl⟩ := List.mem_map.mp hx
  exact hissues fl hfl

end Invoke

/-! ### Whole runs -/

/-- **One step.** -/
theorem FeedInv.stepped {ev : AppEvent S Action} (h : FeedInv s uid c single w)
    (hrun : FeedRun s uid c w ev) (hcurrent : FeedCurrent s uid c w ev)
    (hstep : Stepped api Action.program w ev w') : FeedInv s uid c single w' := by
  obtain ⟨henv, hreplied, hundisturbed, hfeed⟩ := hrun
  cases hstep with
  | invoke t a e =>
    by_cases ht : t = s
    · subst ht
      have hwhat := hfeed rfl
      have he : e.currentUid = some uid := henv rfl
      cases a with
      | tabDidLoad => exact h.tabDidLoad
      | feedDidLoad c' =>
        obtain rfl : c' = c := hwhat
        exact h.didLoad he
      | feedRefresh c' =>
        obtain rfl : c' = c := hwhat
        exact h.refresh
      | feedCell c' cell row =>
        obtain ⟨rfl, halone⟩ := hwhat
        exact h.bind halone (hcurrent rfl)
      | likeTap c' cell =>
        obtain ⟨rfl, hbound⟩ := hwhat
        exact h.tap he hbound (hcurrent rfl)
      | _ => exact absurd hwhat id
    · exact h.turn_other ht rfl fun _ hreads => hreads
  | serve hpool hfifo hserve =>
    rename_i pre post t r k o b y
    have hget : w.pool[pre.length]? = some (t, .issued r k) := getElem?_split hpool
    by_cases ht : t = s
    · subst ht
      exact h.served hpool hfifo hserve (hreplied _ hget rfl)
    · have hquiet := hundisturbed _ hget ht
      refine h.aside rfl ?_ (fun stages hreads => ?_) (fun p => ?_) (fun p d hd => ?_)
      · exact ofSession_serve_ne ht hpool _
      · rw [hpool] at hreads
        exact Reads.other ht hreads
      · exact serve_lookup_ne hserve fun write hwrite heq => (hquiet write hwrite).1 p heq.symm
      · rw [← hd]
        refine serve_lookup_ne hserve fun write hwrite heq => ?_
        rw [(hquiet write hwrite).2 p heq.symm] at hd
        exact absurd hd (by simp)
  | deliver hpool hfifo =>
    rename_i pre post t r prog e
    have hget : w.pool[pre.length]? = some (t, .served r prog) := getElem?_split hpool
    by_cases ht : t = s
    · subst ht
      exact h.delivered (henv _ hget rfl) hpool hfifo
    · refine h.turn_other ht ?_ fun stages hreads => ?_
      · exact ofSession_remove_ne ht hpool
      · rw [hpool] at hreads
        exact Reads.other_gone ht hreads
  | drop hpool =>
    rename_i pre post t r prog
    have hget : w.pool[pre.length]? = some (t, .served r prog) := getElem?_split hpool
    have ht : t ≠ s := hreplied _ hget
    refine h.aside rfl ?_ (fun stages hreads => ?_) (fun _ => rfl) fun _ _ hd => hd
    · exact ofSession_remove_ne ht hpool
    · rw [hpool] at hreads
      exact Reads.other_gone ht hreads

/-- A cell shows the stored state of some post: whether `uid` likes it, how many do, and
label and heart accordingly. -/
def ShowsStored (b : Backend) (uid : String) (cell : FeedCell) : Prop :=
  ∃ post, cell.post = some post
    ∧ post.didLike = b.exists ["users", uid, "user-likes", post.postId]
    ∧ storedLikes b post.postId = some post.likes ∧ cell.configure = cell

/-- **The feed shows the stored like state.** In every run of one feed, in list or single-post
mode, in which cells are bound to current entries and `unlikePost` refuses no tap: whenever
nothing is in flight, every bound cell shows the stored mark and the stored count of its
post. -/
theorem feedShows_stored {w₀ : AppWorld Client S} (hrest : w₀.Quiescent)
    (hdistinct : (((w₀.client s).feeds c).posts.map Post.postId).Nodup)
    (hunbound : ∀ i, (((w₀.client s).feeds c).cells i).row = none)
    {es : List (AppEvent S Action)}
    (run : Run api Action.program (fun w ev => FeedRun s uid c w ev ∧ FeedCurrent s uid c w ev)
      w₀ es w)
    (hquiet : w.Quiescent) (i : Nat) (hbound : (((w.client s).feeds c).cells i).row.isSome = true) :
    ShowsStored w.backend uid (((w.client s).feeds c).cells i) := by
  have hinit : FeedInv s uid c ((w₀.client s).feeds c).post.isSome w₀ := by
    refine ⟨rfl, .of_unbound hdistinct hunbound, [], ?_, .of_unbound hunbound⟩
    rw [hrest]
    exact .nil
  have hinv : FeedInv s uid c ((w₀.client s).feeds c).post.isSome w := by
    refine run.invariant (I := fun _ w => FeedInv s uid c ((w₀.client s).feeds c).post.isSome w)
      hinit ?_
    exact fun _ _ _ _ h hok hstep => h.stepped hok.1 hok.2 hstep
  obtain ⟨-, -, stages, htracks, hgood⟩ := hinv
  rw [hquiet] at htracks
  cases htracks
  obtain ⟨post, hpost⟩ := Option.isSome_iff_exists.mp (hgood.shown i hbound)
  refine ⟨post, hpost, ?_⟩
  rcases hgood.current with ⟨x, hx, -⟩ | hcurrent
  · rw [hquiet] at hx
    exact absurd hx List.not_mem_nil
  obtain ⟨hmark, hcount⟩ := hcurrent i hbound post hpost
  have hown : ofSession s w.pool = [] := by
    rw [hquiet]
    rfl
  refine ⟨?_, ?_, hgood.configured i hbound⟩
  · rw [hmark]
    show markToBe uid post.postId w.backend.docs (ofSession s w.pool) = _
    rw [hown]
    rfl
  · have hlikes : countToBe post.postId w.backend.docs (ofSession s w.pool)
        = some post.likes := hcount
    rw [hown] at hlikes
    obtain ⟨d, hd, hstored⟩ := Option.bind_eq_some_iff.mp hlikes
    exact hstored

end Runs

/-! ## A feed of the town -/

/-- The feed of `a` has loaded `p`, and shows nothing yet. -/
def feedLoaded : AppWorld Client String :=
  atRest town fun _ =>
    { tabUser := some (User.init (userDoc "a"))
      feeds := fun _ => { posts := [Post.init ⟨0, 0⟩ "p" (postDoc "b")] } }

/-- What of the conditions on a run can be evaluated: user `uid` alone is at work in session
`s`, he taps bound cells, and everything is answered. -/
def OnlyTaps (s uid : String) (c : Nat) (w : AppWorld Client String) :
    AppEvent String Action → Prop
  | .invoke t (.likeTap c' cell) e =>
    t = s ∧ e.currentUid = some uid ∧ c' = c
      ∧ (((w.client s).feeds c).cells cell).row.isSome = true
      ∧ ∀ post ∈ (((w.client s).feeds c).cells cell).post, post.tapPasses = true
  | .invoke _ _ _ => False
  | .serve i o => o.isSuccess = true ∧ ∀ x ∈ w.pool[i]?, x.1 = s
  | .deliver _ e => e.currentUid = some uid
  | .drop _ => False

instance (s uid : String) (c : Nat) (w : AppWorld Client String) (ev : AppEvent String Action) :
    Decidable (OnlyTaps s uid c w ev) :=
  match ev with
  | .invoke t a e => by
    apply Action.casesOn (motive := fun a => Decidable (OnlyTaps s uid c w (.invoke t a e))) a
      <;> intros <;> unfold OnlyTaps <;> infer_instance
  | .serve _ _ => inferInstanceAs (Decidable (_ ∧ ∀ x ∈ _, _))
  | .deliver _ _ => inferInstanceAs (Decidable (_ = some uid))
  | .drop _ => inferInstanceAs (Decidable False)

theorem OnlyTaps.run {s uid : String} {c : Nat} {w : AppWorld Client String}
    {ev : AppEvent String Action} (h : OnlyTaps s uid c w ev) :
    FeedRun s uid c w ev ∧ FeedCurrent s uid c w ev := by
  cases ev with
  | invoke t a e =>
    cases a with
    | likeTap c' cell =>
      obtain ⟨rfl, he, rfl, hbound, hpasses⟩ := h
      exact ⟨⟨fun _ => he, trivial, trivial, fun _ => ⟨rfl, hbound⟩⟩,
        fun _ => Or.inr fun post hpost _ _ => hpasses post hpost⟩
    | _ => exact absurd h id
  | serve i o =>
    refine ⟨⟨trivial, fun _ _ _ => h.1, fun x hx hne => absurd (h.2 x hx) hne, trivial⟩, trivial⟩
  | deliver i e => exact ⟨⟨fun _ _ _ => h, trivial, trivial, trivial⟩, trivial⟩
  | drop i => exact absurd h id

/-- A like of the first cell, all of it answered. -/
def likeFirst : List (AppEvent String Action) :=
  [.invoke "a" (.likeTap 0 0) (turnOf "a")] ++ likeReplies "a"
    ++ [.deliver 0 (turnWith "a" "n"), .serve 0 (.success []), .deliver 0 (turnOf "a")]

/-- A world in which the first cell shows the first row, and no other cell any. -/
def feedBound : AppWorld Client String :=
  feedLoaded.turn "a" (FeedController.cellForItemAt 0 0 0) (turnOf "a") feedLoaded.pool

theorem run_bindFirst : Run api Action.program
    (fun w ev => FeedRun "a" "a" 0 w ev ∧ FeedCurrent "a" "a" 0 w ev) feedLoaded
    [.invoke "a" (.feedCell 0 0 0) (turnOf "a")] feedBound := by
  refine .snoc .nil ⟨⟨fun _ => rfl, trivial, trivial, fun _ => ⟨rfl, fun j _ => ?_⟩⟩,
    fun _ => Or.inr ?_⟩ rfl
  · exact fun h => absurd h (by simp [feedLoaded, atRest])
  · intro post hpost
    obtain rfl : Post.init ⟨0, 0⟩ "p" (postDoc "b") = post := Option.some.inj hpost
    exact ⟨rfl, rfl, fun x hx => absurd hx List.not_mem_nil⟩

/-- A like of a bound cell shows in the cell and in the store. -/
theorem feedShows_stored_like :
    ∃ w, Run api Action.program
        (fun w ev => FeedRun "a" "a" 0 w ev ∧ FeedCurrent "a" "a" 0 w ev) feedLoaded
        ([.invoke "a" (.feedCell 0 0 0) (turnOf "a")] ++ likeFirst) w
      ∧ w.Quiescent ∧ storedLikes w.backend "p" = some 1
      ∧ ShowsStored w.backend "a" (((w.client "a").feeds 0).cells 0) := by
  obtain ⟨w, run, hquiet, hlikes, hbound⟩ : ∃ w, Run api Action.program (OnlyTaps "a" "a" 0)
      feedBound likeFirst w ∧ w.Quiescent ∧ storedLikes w.backend "p" = some 1
      ∧ (((w.client "a").feeds 0).cells 0).row.isSome = true :=
    exists_run_of_play (by decide)
  have hrun := run_bindFirst.append (run.mono fun _ _ h => h.run)
  have hrest : feedLoaded.Quiescent := rfl
  exact ⟨w, hrun, hquiet, hlikes,
    feedShows_stored hrest (by decide) (fun _ => rfl) hrun hquiet 0 hbound⟩

/-- The world after the like. -/
def feedLiked : AppWorld Client String :=
  (play api Action.program (OnlyTaps "a" "a" 0) feedBound likeFirst).getD feedBound

/-- The cell bound again to its row shows the state before the tap. -/
theorem feedShows_stale :
    ∃ w, Run api Action.program (FeedRun "a" "a" 0) feedLoaded
        ([.invoke "a" (.feedCell 0 0 0) (turnOf "a")] ++ likeFirst
          ++ [.invoke "a" (.feedCell 0 0 0) (turnOf "a")]) w
      ∧ w.Quiescent ∧ (((w.client "a").feeds 0).cells 0).row = some 0
      ∧ ¬ ShowsStored w.backend "a" (((w.client "a").feeds 0).cells 0) := by
  have hplay : play api Action.program (OnlyTaps "a" "a" 0) feedBound likeFirst
      = some feedLiked := by
    obtain ⟨w, hw⟩ := Option.isSome_iff_exists.mp
      (show (play api Action.program (OnlyTaps "a" "a" 0) feedBound likeFirst).isSome = true by
        decide)
    unfold feedLiked
    rw [hw]
    rfl
  have hrun := (run_bindFirst.mono fun _ _ h => h.1).append
    ((run_of_play hplay).mono fun _ _ h => h.run.1)
  refine ⟨_, .snoc hrun ⟨fun _ => rfl, trivial, trivial, fun _ => ⟨rfl, fun j hj => ?_⟩⟩ rfl,
    rfl, rfl, ?_⟩
  · obtain ⟨i, rfl⟩ := Nat.exists_eq_succ_of_ne_zero hj
    have hrow : (((feedLiked.client "a").feeds 0).cells i.succ).row = none := rfl
    rw [hrow]
    simp
  · intro hshows
    obtain ⟨post, hpost, hflag, -⟩ := hshows
    obtain rfl : Post.init ⟨0, 0⟩ "p" (postDoc "b") = post := Option.some.inj hpost
    exact absurd hflag (by decide)

end InstaClone
