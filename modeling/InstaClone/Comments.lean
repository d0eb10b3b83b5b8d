import InstaClone.Listeners

/-!
# Whether the list of comments follows its query

`CommentService.fetchComments` listens to the comments of a post, newest first, and appends
what a snapshot adds to the array it hands on. The first snapshot brings the comments in the
order of the query; a later one brings what has been written since, which as a rule is newer
than everything shown and belongs in front of it.

Comments are only ever added, so a snapshot never takes anything away (`CommentInv.shown`),
and the list is the result of the query as long as the comments arrive newest first
(`Listener.AddsAtEnd`).
-/

namespace InstaClone

open Async (Machine)

/-! ## The comments of a post -/

/-- The dictionary `uploadComment` stores. -/
def commentData (turn : Turn) (comment : String) (post : Post) (user : User) : Doc :=
  dict [("uid", .string user.uid),
        ("comment", .string comment),
        ("timestamp", .timestamp turn.now),
        ("username", .string user.username),
        ("profileImageUrl", .string user.profileImageUrl),
        ("postOwnerUid", .string post.ownerUid)]

/-- The write of `uploadComment`. -/
def commentWrite (turn : Turn) (comment : String) (post : Post) (user : User) : Write :=
  .setData ["posts", post.postId, "comments", turn.autoId] (commentData turn comment post user)

example {σ : Type} (comment : String) (post : Post) (user : User)
    (completion : Option Error → Program σ) (turn : Turn) (s : σ) :
    (CommentService.uploadComment comment post user completion).exec turn s
      = (s, [.issued (.write (commentWrite turn comment post user)) completion]) := rfl

/-- The query of `fetchComments`. -/
def commentsOf (postID : String) : Query :=
  { collection := ["posts", postID, "comments"], orderBy := some ("timestamp", true) }

/-- `CommentController`, which listens to that query. Beside the snapshot the callback reads
the clock. -/
def commentListener (postID : String) :
    Listener CommentRows CommentRowsEvent Comment Timestamp where
  source := commentRows
  query := commentsOf postID
  hear now changes := .snapshot now changes

theorem commentListener_appends (postID : String) :
    (commentListener postID).Appends CommentRows.fetched Comment.init where
  init := rfl
  append _ _ _ := rfl
  array _ _ _ := rfl
  fail _ _ := List.append_nil _

/-- The dictionary of a comment. -/
def IsComment (d : Doc) : Prop :=
  ∃ turn comment post user, d = commentData turn comment post user

/-- What the clock says does not matter to a comment. -/
theorem IsComment.init {d : Doc} (h : IsComment d) (now now' : Timestamp) :
    Comment.init now d = Comment.init now' d := by
  obtain ⟨turn, comment, post, user, rfl⟩ := h
  rfl

/-- The post has comments only. -/
def StoresComments (postID : String) (docs : Store) : Prop :=
  ∀ x ∈ docs.documents (commentsOf postID).collection, IsComment x.2

/-- The query finds all comments. -/
theorem StoresComments.results {postID : String} {docs : Store} (h : StoresComments postID docs) :
    (commentsOf postID).results docs = docs.documents (commentsOf postID).collection := by
  refine List.filter_eq_self.mpr fun x hx => ?_
  obtain ⟨turn, comment, post, user, heq⟩ := h x hx
  simp [commentsOf, Query.selects, heq, commentData, dict]

/-- A comment is written, on any post, under an identifier not yet used there. -/
def UploadsComment (docs : Store) (w : Write) : Prop :=
  ∃ turn comment post user, w = commentWrite turn comment post user
    ∧ docs.lookup w.path = none

theorem StoresComments.commit {postID : String} {docs docs' : Store} {w : Write}
    (h : StoresComments postID docs) (hw : UploadsComment docs w)
    (hdocs : w.apply docs = some docs') :
    StoresComments postID docs'
      ∧ ∀ x ∈ docs.documents (commentsOf postID).collection,
        x ∈ docs'.documents (commentsOf postID).collection := by
  obtain ⟨turn, comment, post, user, rfl, hfresh⟩ := hw
  constructor
  · rintro ⟨id, d⟩ hx
    rw [Store.mem_documents] at hx
    by_cases hpath : (commentsOf postID).collection ++ [id]
        = (commentWrite turn comment post user).path
    · rw [hpath, Write.lookup_apply hdocs] at hx
      exact ⟨turn, comment, post, user, (Option.some.inj hx).symm⟩
    · rw [Write.lookup_apply_ne hdocs hpath] at hx
      exact h _ (Store.mem_documents.mpr hx)
  · rintro ⟨id, d⟩ hx
    rw [Store.mem_documents] at hx ⊢
    rw [Write.lookup_apply_ne hdocs]
    · exact hx
    · rintro heq
      rw [heq, hfresh] at hx
      exact absurd hx (by simp)

/-! ## The list -/

/-- The comment controller next to a store in which comments are written. -/
def commentMachine (postID : String) : Machine (Listening CommentRows) (ListeningEvent Timestamp) :=
  (commentListener postID).listening (StoresComments postID) UploadsComment

/-- The array is right, and what is shown is still stored. -/
structure CommentInv (postID : String) (s : Listening CommentRows) : Prop where
  append : (commentListener postID).AppendInv CommentRows.fetched IsComment (Comment.init ⟨0, 0⟩) s
  stored : StoresComments postID s.docs
  shown : ∀ x ∈ s.shown, x ∈ s.docs.documents (commentsOf postID).collection

theorem CommentInv.step {postID : String} {s s' : Listening CommentRows}
    {ev : ListeningEvent Timestamp} (h : CommentInv postID s)
    (hallowed : (commentMachine postID).allows s ev)
    (horder : (commentListener postID).AddsAtEnd s ev)
    (hstep : (commentMachine postID).step s ev = some s') : CommentInv postID s' := by
  cases ev with
  | commit w =>
    obtain ⟨docs, hdocs, rfl⟩ := Option.map_eq_some_iff.mp hstep
    obtain ⟨hstored, hkept⟩ := h.stored.commit hallowed hdocs
    refine ⟨h.append.commit ?_, hstored, fun x hx => hkept x (h.shown x hx)⟩
    exact fun x hx => hstored x (List.mem_of_mem_filter hx)
  | snapshot now result changes =>
    obtain ⟨hanswers, hchanges, -⟩ := hallowed
    obtain rfl := Option.some.inj hstep
    have hresult : ∀ x, x ∈ result ↔ x ∈ s.docs.documents (commentsOf postID).collection := by
      intro x
      rw [← h.stored.results]
      exact hanswers.perm.mem_iff
    refine ⟨h.append.snapshot (commentListener_appends postID) rfl (fun now d hd => hd.init _ _)
      hanswers hchanges (fun x hx => (hresult x).mpr (h.shown x hx)) horder, h.stored, ?_⟩
    exact fun x hx => (hresult x).mp hx
  | failed now =>
    obtain rfl := Option.some.inj hstep
    exact ⟨h.append.fail (commentListener_appends postID), h.stored, h.shown⟩

theorem commentInv {postID : String} {es : List (ListeningEvent Timestamp)}
    {s : Listening CommentRows}
    (run : ((commentMachine postID).under (commentListener postID).AddsAtEnd).Run es s) :
    CommentInv postID s := by
  refine run.invariant (I := fun _ s => CommentInv postID s) ?_ ?_
  · rintro s ⟨hstored, hshown, hcontroller⟩
    refine ⟨.start (commentListener_appends postID) ?_ hshown hcontroller, hstored, ?_⟩
    · exact fun x hx => hstored x (List.mem_of_mem_filter hx)
    · rw [hshown]
      exact fun x hx => absurd hx List.not_mem_nil
  · exact fun _ _ _ _ h hallowed hstep => h.step hallowed.1 hallowed.2 hstep

/-- **The list of comments follows its query.** Comments are written, and snapshots bring them
in any grouping: as long as each brings what comes after everything shown, older than it or of
the same time and with a smaller identifier, the list is the result of the query, which is
every stored comment once, newest first. -/
theorem comments_follow {postID : String} {es : List (ListeningEvent Timestamp)} {now : Timestamp}
    {result : List (String × Doc)} {changes : List (String × DocumentChange)}
    {s : Listening CommentRows}
    (run : ((commentMachine postID).under (commentListener postID).AddsAtEnd).Run
      (es ++ [.snapshot now result changes]) s) :
    result.Perm (s.docs.documents (commentsOf postID).collection)
      ∧ result.Pairwise (fun x y => (commentsOf postID).inOrder x y = true)
      ∧ ∀ now, s.controller.comments = result.map fun x => Comment.init now x.2 := by
  have hinv := commentInv run
  obtain ⟨_, -, hallowed, hstep⟩ := run.last
  obtain ⟨hanswers, hshows⟩ :=
    hinv.append.shows (commentListener_appends postID) hallowed.1 hstep
  have hperm := hanswers.perm
  have hresults : (commentListener postID).query.results s.docs
      = s.docs.documents (commentsOf postID).collection := hinv.stored.results
  rw [hresults] at hperm
  refine ⟨hperm, hanswers.sorted, fun now => hshows.trans ?_⟩
  exact List.map_congr_left fun x hx => (hinv.stored x (hperm.mem_iff.mp hx)).init _ _

/-! ## Two runs -/

/-- A comment on `p`, written when the clock of its author shows `seconds`. -/
def noted (id : String) (seconds : Int) : Write :=
  commentWrite ⟨some "a", none, ⟨seconds, 0⟩, id⟩ id (Post.init ⟨0, 0⟩ "p" (dict []))
    (User.init (dict []))

/-- Its dictionary. -/
def noteData (id : String) (seconds : Int) : Doc :=
  commentData ⟨some "a", none, ⟨seconds, 0⟩, id⟩ id (Post.init ⟨0, 0⟩ "p" (dict []))
    (User.init (dict []))

/-- The comment `c` is written and shown, then `d` is written and `result` arrives. -/
def noteEvents (seconds : Int) (result : List (String × Doc)) : List (ListeningEvent Timestamp) :=
  [.commit (noted "c" 1),
    .snapshot ⟨0, 0⟩ [("c", noteData "c" 1)] [("c", ⟨.added, noteData "c" 1⟩)],
    .commit (noted "d" seconds),
    .snapshot ⟨0, 0⟩ result [("d", ⟨.added, noteData "d" seconds⟩)]]

/-- The store with both. -/
def notes (seconds : Int) : Store :=
  ((∅ : Store).insert ["posts", "p", "comments", "c"] (noteData "c" 1)).insert
    ["posts", "p", "comments", "d"] (noteData "d" seconds)

theorem results_notes (seconds : Int) :
    (commentsOf "p").results (notes seconds)
      = [("d", noteData "d" seconds), ("c", noteData "c" 1)] := rfl

/-- `c` is shown, `d` is written. -/
def noteShown (seconds : Int) : Listening CommentRows where
  docs := notes seconds
  shown := [("c", noteData "c" 1)]
  controller :=
    { fetched := [Comment.init ⟨0, 0⟩ (noteData "c" 1)]
      comments := [Comment.init ⟨0, 0⟩ (noteData "c" 1)] }

theorem run_noted (ok : Listening CommentRows → ListeningEvent Timestamp → Prop)
    (hcommit : ∀ s w, ok s (.commit w)) (hfirst : ∀ s now result changes, s.shown = [] →
      ok s (.snapshot now result changes)) (seconds : Int) :
    ((commentMachine "p").under ok).Run
      [.commit (noted "c" 1),
        .snapshot ⟨0, 0⟩ [("c", noteData "c" 1)] [("c", ⟨.added, noteData "c" 1⟩)],
        .commit (noted "d" seconds)] (noteShown seconds) := by
  have hstart : ((commentMachine "p").under ok).Run [] ⟨∅, [], {}⟩ :=
    .nil ⟨fun x hx => absurd hx List.not_mem_nil, rfl, rfl⟩
  have hchanges : ChangesTo [] [("c", noteData "c" 1)] [("c", ⟨.added, noteData "c" 1⟩)] :=
    .ofAdded (fun x hx => absurd hx List.not_mem_nil) (List.nodup_singleton _)
  have hwritten := Listener.run_commit (w := noted "c" 1) hstart ⟨_, _, _, _, rfl, rfl⟩
    (hcommit _ _) rfl
  have hshown := Listener.run_snapshot (e := ⟨0, 0⟩) hwritten
    ⟨.refl _, List.pairwise_singleton ..⟩ hchanges trivial (hfirst _ _ _ _ rfl)
  exact Listener.run_commit (w := noted "d" seconds) hshown ⟨_, _, _, _, rfl, rfl⟩
    (hcommit _ _) rfl

theorem changes_noted {seconds : Int} {result : List (String × Doc)}
    (hanswers : (commentsOf "p").Answers (notes seconds) result)
    (hnew : result.filter (fun x => x.1 ∉ [("c", noteData "c" 1)].map Prod.fst)
      = [("d", noteData "d" seconds)]) :
    ChangesTo [("c", noteData "c" 1)] result [("d", ⟨.added, noteData "d" seconds⟩)] := by
  have hkept : ∀ x ∈ [("c", noteData "c" 1)], x ∈ result := by
    intro x hx
    obtain rfl := List.mem_singleton.mp hx
    exact hanswers.perm.mem_iff.mpr (by simp [results_notes])
  have h := ChangesTo.ofAdded hkept hanswers.nodup
  rwa [hnew] at h

/-- The clock of the second author is slow: his comment belongs at the end. -/
theorem comments_follow_slow :
    ∃ s, ((commentMachine "p").under (commentListener "p").AddsAtEnd).Run
        (noteEvents 0 [("c", noteData "c" 1), ("d", noteData "d" 0)]) s
      ∧ s.controller.comments.map Comment.commentText = ["c", "d"]
      ∧ ∀ now, s.controller.comments
        = [("c", noteData "c" 1), ("d", noteData "d" 0)].map fun x => Comment.init now x.2 := by
  have hanswers : (commentsOf "p").Answers (notes 0)
      [("c", noteData "c" 1), ("d", noteData "d" 0)] := by
    refine ⟨.swap .., List.pairwise_pair.mpr rfl⟩
  have hatEnd : (commentListener "p").AddsAtEnd (noteShown 0) (.snapshot ⟨0, 0⟩
      [("c", noteData "c" 1), ("d", noteData "d" 0)] [("d", ⟨.added, noteData "d" 0⟩)]) := by
    intro x hx y hy
    obtain rfl := List.mem_singleton.mp hx
    obtain rfl := List.mem_singleton.mp hy
    rfl
  have hshown := run_noted (commentListener "p").AddsAtEnd (fun _ _ => trivial)
    (fun s _ _ _ h x hx => absurd hx (by rw [h]; exact List.not_mem_nil)) 0
  have run := Listener.run_snapshot hshown hanswers (changes_noted hanswers rfl) trivial hatEnd
  exact ⟨_, run, rfl, (comments_follow run).2.2⟩

/-- A newer comment is shown below the older one. -/
theorem comments_appended :
    ∃ s, (commentMachine "p").Run
        (noteEvents 2 [("d", noteData "d" 2), ("c", noteData "c" 1)]) s
      ∧ (commentsOf "p").Answers s.docs [("d", noteData "d" 2), ("c", noteData "c" 1)]
      ∧ s.controller.comments.map Comment.commentText = ["c", "d"]
      ∧ ¬ s.controller.comments.Pairwise fun x y => y.timestamp.le x.timestamp = true := by
  have hanswers : (commentsOf "p").Answers (notes 2)
      [("d", noteData "d" 2), ("c", noteData "c" 1)] := by
    refine ⟨.refl _, List.pairwise_pair.mpr rfl⟩
  have hshown := run_noted (fun _ _ => True) (fun _ _ => trivial)
    (fun _ _ _ _ _ => trivial) 2
  have run := Listener.run_snapshot (e := ⟨0, 0⟩) hshown hanswers (changes_noted hanswers rfl)
    trivial trivial
  exact ⟨_, run.of_under, hanswers, rfl, by decide⟩

end InstaClone
