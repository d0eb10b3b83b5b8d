import Mathlib.Data.Int.Order.Basic
import InstaClone.Conduct
import InstaClone.Feed
import InstaClone.Lists
import InstaClone.Sorting

/-!
# The order in which posts are handed on

`fetchPosts()` has the server sort by the whole timestamp. `fetchPosts(forUser:)` gets its
documents in no particular order and sorts them itself, by the seconds. So a profile's grid and
the global list agree exactly when the reply lists the posts of each second newest first
(`grid_iff`).

`fetchFeedPosts` sorts by the seconds too, after each reply of its fan-out, and hands on every
list in between. Each is sorted and holds exactly the posts that have arrived, so the last one is
the same for every order of arrival up to the order within a second (`feedPosts_assembled`).
-/

namespace InstaClone

open Async Sorting
open PostService (newerFirst)

/-! ## Requests for posts -/

/-- What the caller keeps: the variable `fetchFeedPosts` captures, and every list its completion
has got. -/
structure PostLists where
  posts : List Post := []
  delivered : List (List Post) := []

/-- `var posts` of `fetchFeedPosts`. -/
def PostLists.captured : Var PostLists (List Post) where
  get := PostLists.posts
  set posts x := { x with posts := posts }

/-- The completion of the caller. -/
def deliverPosts (posts : List Post) : Program PostLists :=
  .modify (fun x => { x with delivered := x.delivered ++ [posts] }) .done

inductive PostRequest where
  | all
  | ofUser (uid : String)
  | feed

def PostRequest.program : PostRequest → Program PostLists
  | all => PostService.fetchPosts deliverPosts
  | ofUser uid => PostService.fetchPostsForUser uid deliverPosts
  | feed => PostService.fetchFeedPosts PostLists.captured deliverPosts

/-- Newest second first is an order to sort by. -/
theorem newerFirst_comparator : Comparator newerFirst where
  trans p q r hpq hqr := by
    simp only [newerFirst, decide_eq_true_eq] at *
    omega
  total p q := by
    simp only [newerFirst, Bool.or_eq_true, decide_eq_true_eq]
    omega

/-! ## Stored posts -/

/-- What `uploadPost` writes into a post and no update takes away: its time and its owner. -/
structure IsPost (d : Doc) : Prop where
  timestamp : ∃ t, d "timestamp" = some (.timestamp t)
  ownerUid : ∃ uid, d "ownerUid" = some (.string uid)

theorem uploadedPost_isPost (e : Turn) (caption imageUrl uid : String) (user : User) :
    IsPost (uploadedPost e caption imageUrl uid user) := ⟨⟨e.now, rfl⟩, ⟨uid, rfl⟩⟩

/-- The posts of the store. -/
def Backend.StoresPosts (b : Backend) : Prop := ∀ x ∈ b.docs.documents ["posts"], IsPost x.2

/-- No two posts have the same full timestamp. -/
def Backend.DistinctTimes (b : Backend) : Prop :=
  ∀ x ∈ b.docs.documents ["posts"], ∀ y ∈ b.docs.documents ["posts"],
    x.2.timestamp "timestamp" = y.2.timestamp "timestamp" → x = y

/-- The post read from a document that has a time. -/
def storedPost (x : String × Doc) : Post := Post.init ⟨0, 0⟩ x.1 x.2

/-- Its time is the stored one. -/
theorem IsPost.time {x : String × Doc} (h : IsPost x.2) :
    x.2 "timestamp" = some (.timestamp (storedPost x).timestamp) := by
  obtain ⟨t, ht⟩ := h.timestamp
  simp [storedPost, Post.init, Doc.timestamp, ht]

theorem IsPost.doc_time {x : String × Doc} (h : IsPost x.2) :
    x.2.timestamp "timestamp" = some (storedPost x).timestamp := by
  simp [Doc.timestamp, h.time]

/-- It does not depend on the time it is read at. -/
theorem post_init_eq {id : String} {d : Doc} (h : (d.timestamp "timestamp").isSome = true)
    (now : Timestamp) : Post.init now id d = storedPost (id, d) := by
  obtain ⟨t, ht⟩ := Option.isSome_iff_exists.mp h
  simp [storedPost, Post.init, ht]

/-- The query of `fetchPosts(forUser:)` selects the posts the owner's name is read from. -/
theorem storedPost_ownerUid {x : String × Doc} (h : IsPost x.2) (uid : String) :
    ((storedPost x).ownerUid = uid) ↔ x.2 "ownerUid" = some (.string uid) := by
  obtain ⟨owner, howner⟩ := h.ownerUid
  simp [storedPost, Post.init, Doc.string, howner]

/-! ## The profile grid and the global list -/

/-- The query of `fetchPosts(forUser:)`. -/
def gridQuery (uid : String) : Query :=
  { collection := ["posts"], whereField := some ("ownerUid", .string uid) }

/-- Posts of one second are listed newest first. -/
def NewestFirst (documents : List (String × Doc)) : Prop :=
  documents.Pairwise fun x y => ∀ t u, x.2.timestamp "timestamp" = some t →
    y.2.timestamp "timestamp" = some u → t.seconds = u.seconds → u.nanoseconds ≤ t.nanoseconds

section Grid

variable {S : Type} [DecidableEq S] {w w' : AppWorld PostLists S}
  {ok : AppWorld PostLists S → AppEvent S PostRequest → Prop}

/-- A request of one query, made of a world at rest and answered: the reply lists the selected
documents in an admitted order, and the callback runs. -/
theorem answered_query {q : Query} {k : Option (List (String × Doc)) → Program PostLists}
    {request : PostRequest} {s : S} {e e' : Turn} {names : List String} (hrest : w.Quiescent)
    (hexec : ∀ x, request.program.exec e x = (x, [.issued (.getDocuments q) k]))
    (run : Run api PostRequest.program ok w
      [.invoke s request e, .serve 0 (.success names), .deliver 0 e'] w') :
    q.admits w.backend.docs names = true
      ∧ w'.client s = ((k (some (q.fetch w.backend.docs names))).exec e' (w.client s)).1 := by
  obtain ⟨w₁, hask, run₁⟩ := run.cons
  obtain ⟨w₂, hserve, run₂⟩ := run₁.cons
  obtain ⟨w₃, hdeliver, run₃⟩ := run₂.cons
  obtain rfl := run₃.nil_eq
  -- one flight, on its own
  obtain rfl := Option.some.inj hask
  have hpool : (w.turn s request.program e w.pool).pool = [(s, .issued (.getDocuments q) k)] := by
    rw [World.turn_pool, hexec, hrest]
    rfl
  have hclient : (w.turn s request.program e w.pool).client s = w.client s := by
    rw [World.turn_client, if_pos rfl, hexec]
  rw [step_serve_single hpool] at hserve
  obtain ⟨⟨b, y⟩, hreply, rfl⟩ := Option.map_eq_some_iff.mp hserve
  rw [step_deliver_single rfl] at hdeliver
  obtain rfl := Option.some.inj hdeliver
  have hreply : (if q.admits w.backend.docs names = true then
      some (w.backend, some (q.fetch w.backend.docs names)) else none) = some (b, y) := hreply
  by_cases hadmits : q.admits w.backend.docs names = true
  · rw [if_pos hadmits] at hreply
    obtain ⟨rfl, rfl⟩ := Prod.mk.inj (Option.some.inj hreply)
    refine ⟨hadmits, ?_⟩
    rw [World.turn_client, if_pos rfl]
    show ((k (some (q.fetch w.backend.docs names))).exec e'
      ((w.turn s request.program e w.pool).client s)).1 = _
    rw [hclient]
  · rw [if_neg hadmits] at hreply
    exact absurd hreply (by simp)

/-- The callback of the query of `fetchPosts()`. -/
def didFetchAll (snapshot : Option (List (String × Doc))) : Program PostLists :=
  match snapshot with
  | none => .done
  | some documents =>
    .ask fun turn => deliverPosts (documents.map fun x => Post.init turn.now x.1 x.2)

/-- The callback of the query of `fetchPosts(forUser:)`. -/
def didFetchOfUser (snapshot : Option (List (String × Doc))) : Program PostLists :=
  match snapshot with
  | none => .done
  | some documents =>
    .ask fun turn =>
      deliverPosts ((documents.map fun x => Post.init turn.now x.1 x.2).mergeSort newerFirst)

omit [DecidableEq S] in
/-- The time of a reply does not show in posts that have their own. -/
theorem map_post_init {documents : List (String × Doc)} (h : ∀ x ∈ documents, IsPost x.2)
    (now : Timestamp) :
    (documents.map fun x => Post.init now x.1 x.2) = documents.map storedPost :=
  List.map_congr_left fun x hx => post_init_eq (by rw [(h x hx).doc_time]; rfl) now

/-- Newest first, by the whole timestamp. -/
def ByTime (post1 post2 : Post) : Prop := post2.timestamp.le post1.timestamp = true

theorem ByTime.of_not_newerFirst {post1 post2 : Post} (h : newerFirst post2 post1 = false) :
    ByTime post1 post2 := by
  simp only [newerFirst, decide_eq_false_iff_not] at h
  simp only [ByTime, Timestamp.le, Bool.or_eq_true, decide_eq_true_eq]
  omega

theorem ByTime.antisymm {post1 post2 : Post} (h : ByTime post1 post2) (h' : ByTime post2 post1) :
    post1.timestamp = post2.timestamp := by
  simp only [ByTime, Timestamp.le, Bool.or_eq_true, decide_eq_true_eq, Bool.and_eq_true,
    beq_iff_eq] at h h'
  obtain ⟨hseconds, hnanoseconds⟩ : post1.timestamp.seconds = post2.timestamp.seconds
      ∧ post1.timestamp.nanoseconds = post2.timestamp.nanoseconds := by omega
  calc
    post1.timestamp = ⟨post1.timestamp.seconds, post1.timestamp.nanoseconds⟩ := rfl
    _ = post2.timestamp := by rw [hseconds, hnanoseconds]

/-- Of two posts of one second the one with more nanoseconds is newer. -/
theorem ByTime.of_tied {post1 post2 : Post} :
    (Tied newerFirst post1 post2 → ByTime post1 post2)
      ↔ (post1.timestamp.seconds = post2.timestamp.seconds →
        post2.timestamp.nanoseconds ≤ post1.timestamp.nanoseconds) := by
  simp only [Tied, newerFirst, ByTime, Timestamp.le, Bool.or_eq_true, decide_eq_true_eq,
    Bool.and_eq_true, beq_iff_eq]
  omega

/-- The posts of a user, fetched and sorted by their seconds, come in the order of the global
list exactly if the reply lists those of each second newest first. -/
theorem sorted_grid_iff {stored documents documents' : List (String × Doc)} {uid : String}
    (hposts : ∀ x ∈ stored, IsPost x.2) (hnodup : (stored.map Prod.fst).Nodup)
    (hdistinct : ∀ x ∈ stored, ∀ y ∈ stored,
      x.2.timestamp "timestamp" = y.2.timestamp "timestamp" → x = y)
    (hall : documents.Perm stored)
    (hsorted : documents.Pairwise fun x y => postsQuery.inOrder x y = true)
    (hgrid : documents'.Perm (stored.filter (gridQuery uid).selects)) :
    (documents'.map storedPost).mergeSort newerFirst
        = (documents.map storedPost).filter (fun post => post.ownerUid = uid)
      ↔ NewestFirst documents' := by
  have hmem : ∀ x ∈ documents', x ∈ stored := fun x hx =>
    List.mem_of_mem_filter (hgrid.mem_iff.mp hx)
  have htime : ∀ x ∈ documents', x.2.timestamp "timestamp" = some (storedPost x).timestamp :=
    fun x hx => (hposts x (hmem x hx)).doc_time
  have hids : (documents'.map storedPost).Nodup := by
    refine List.Nodup.of_map Post.postId ?_
    rw [List.map_map]
    exact (hgrid.map Prod.fst).nodup_iff.mpr (hnodup.sublist (List.filter_sublist.map _))
  have hrefines : Refines ByTime newerFirst (documents'.map storedPost) := by
    refine ⟨fun p _ q _ h => ByTime.of_not_newerFirst h, fun p hp q hq hpq hqp => ?_⟩
    obtain ⟨x, hx, rfl⟩ := List.mem_map.mp hp
    obtain ⟨y, hy, rfl⟩ := List.mem_map.mp hq
    refine congrArg storedPost (hdistinct x (hmem x hx) y (hmem y hy) ?_)
    rw [htime x hx, htime y hy, hpq.antisymm hqp]
  -- the global list holds the same posts of the user
  have hsame : ((documents.map storedPost).filter fun post => post.ownerUid = uid).Perm
      (documents'.map storedPost) := by
    rw [List.filter_map]
    refine List.Perm.map _ ((hall.filter _).trans (.trans (.of_eq ?_) hgrid.symm))
    refine List.filter_congr fun x hx => ?_
    rw [Bool.eq_iff_iff]
    simp [gridQuery, Query.selects, storedPost_ownerUid (hposts x hx)]
  have hordered : ((documents.map storedPost).filter fun post => post.ownerUid = uid).Pairwise
      ByTime := by
    refine (List.pairwise_map.mpr (hsorted.imp_of_mem fun {x y} hx hy hxy => ?_)).filter _
    have hposted := hposts x (hall.mem_iff.mp hx)
    have hposted' := hposts y (hall.mem_iff.mp hy)
    have hle : (storedPost y).timestamp.le (storedPost x).timestamp = true := by
      simpa [postsQuery, Query.byField, hposted.time, hposted'.time, Value.le] using
        Query.byField_of_inOrder hxy
    exact hle
  rw [mergeSort_eq_iff newerFirst_comparator hids hrefines hsame hordered, List.pairwise_map]
  refine List.Pairwise.iff_of_mem fun {x y} hx hy => ?_
  rw [htime x hx, htime y hy, ByTime.of_tied]
  simp

/-- **The profile grid and the global list.** Over stored posts with distinct times, whatever
order the replies come in: the two lists agree exactly if the reply to `fetchPosts(forUser:)`
lists the posts of each second newest first. -/
theorem grid_iff {wAll wGrid : AppWorld PostLists S} {s t : S} {e₁ e₂ e₃ e₄ : Turn} {uid : String}
    {names names' : List String} (hrest : w.Quiescent) (hposts : w.backend.StoresPosts)
    (hdistinct : w.backend.DistinctTimes)
    (hall : Run api PostRequest.program ok w
      [.invoke s .all e₁, .serve 0 (.success names), .deliver 0 e₂] wAll)
    (hgrid : Run api PostRequest.program ok w
      [.invoke t (.ofUser uid) e₃, .serve 0 (.success names'), .deliver 0 e₄] wGrid) :
    ∃ all grid, (wAll.client s).delivered = (w.client s).delivered ++ [all]
      ∧ (wGrid.client t).delivered = (w.client t).delivered ++ [grid]
      ∧ (grid = all.filter (fun post => post.ownerUid = uid)
        ↔ NewestFirst ((gridQuery uid).fetch w.backend.docs names')) := by
  obtain ⟨hadmits, hclient⟩ :=
    answered_query (q := postsQuery) (k := didFetchAll) hrest (fun _ => rfl) hall
  obtain ⟨hadmits', hclient'⟩ :=
    answered_query (q := gridQuery uid) (k := didFetchOfUser) hrest (fun _ => rfl) hgrid
  have hperm := Query.fetch_perm hadmits
  have hperm' := Query.fetch_perm hadmits'
  have hselects : postsQuery.results w.backend.docs = w.backend.docs.documents ["posts"] := by
    refine List.filter_eq_self.mpr fun x hx => ?_
    obtain ⟨t, ht⟩ := (hposts x hx).timestamp
    simp [postsQuery, Query.selects, ht]
  rw [hselects] at hperm
  refine ⟨_, _, by rw [hclient]; rfl, by rw [hclient']; rfl, ?_⟩
  rw [map_post_init fun x hx => hposts x (hperm.mem_iff.mp hx),
    map_post_init fun x hx => hposts x (List.mem_of_mem_filter (hperm'.mem_iff.mp hx))]
  refine sorted_grid_iff hposts (w.backend.docs.nodup_ids ["posts"]) hdistinct hperm ?_ hperm'
  rw [Query.admits, Bool.and_eq_true] at hadmits
  exact of_decide_eq_true hadmits.2

end Grid

/-- A post of `a`, uploaded in the first second. -/
def postData (caption : String) (nanoseconds : Int) : Doc :=
  uploadedPost { turnOf "a" with now := ⟨1, nanoseconds⟩ } caption "" "a" (User.init (dict []))

/-- Two posts of one second. -/
def gridTown : AppWorld PostLists String :=
  atRest
    ⟨((∅ : Store).insert ["posts", "p"] (postData "p" 5)).insert ["posts", "q"] (postData "q" 9),
      [], []⟩
    fun _ => {}

theorem gridTown_quiescent : gridTown.Quiescent := rfl

theorem gridTown_documents :
    gridTown.backend.docs.documents ["posts"] = [("q", postData "q" 9), ("p", postData "p" 5)] :=
  rfl

theorem gridTown_storesPosts : gridTown.backend.StoresPosts := by
  intro x hx
  rw [gridTown_documents, List.mem_cons, List.mem_singleton] at hx
  rcases hx with rfl | rfl
  · exact uploadedPost_isPost ..
  · exact uploadedPost_isPost ..

theorem gridTown_distinctTimes : gridTown.backend.DistinctTimes := by
  intro x hx y hy h
  rw [gridTown_documents, List.mem_cons, List.mem_singleton] at hx hy
  rcases hx with rfl | rfl <;> rcases hy with rfl | rfl
  · rfl
  · exact absurd h (by decide)
  · exact absurd h (by decide)
  · rfl

/-- Ask, and have the query return `names`. -/
def askPosts (request : PostRequest) (names : List String) : List (AppEvent String PostRequest) :=
  [.invoke "a" request (turnOf "a"), .serve 0 (.success names), .deliver 0 (turnOf "a")]

/-- A run of `askPosts`. -/
theorem run_askPosts (request : PostRequest) (names : List String)
    (h : (play api PostRequest.program (fun _ _ => True) gridTown (askPosts request names)).any
      (fun _ => decide True) = true) :
    ∃ w, Run api PostRequest.program (fun _ _ => True) gridTown (askPosts request names) w := by
  obtain ⟨w, run, -⟩ := exists_run_of_play (P := fun _ => True) h
  exact ⟨w, run⟩

/-- The replies list the newer post first. -/
theorem grid_iff_newest :
    ∃ wAll wGrid : AppWorld PostLists String,
      Run api PostRequest.program (fun _ _ => True) gridTown (askPosts .all ["q", "p"]) wAll
        ∧ Run api PostRequest.program (fun _ _ => True) gridTown
          (askPosts (.ofUser "a") ["q", "p"]) wGrid
        ∧ ∃ all grid, (wAll.client "a").delivered = [all] ∧ (wGrid.client "a").delivered = [grid]
          ∧ grid = all.filter fun post => post.ownerUid = "a" := by
  obtain ⟨wAll, hall⟩ := run_askPosts .all ["q", "p"] (by decide)
  obtain ⟨wGrid, hgrid⟩ := run_askPosts (.ofUser "a") ["q", "p"] (by decide)
  obtain ⟨all, grid, hdelivered, hdelivered', hiff⟩ :=
    grid_iff gridTown_quiescent gridTown_storesPosts gridTown_distinctTimes hall hgrid
  refine ⟨wAll, wGrid, hall, hgrid, all, grid, hdelivered, hdelivered', hiff.mpr ?_⟩
  refine List.pairwise_pair.mpr fun t u ht hu _ => ?_
  obtain rfl := Option.some.inj ht
  obtain rfl := Option.some.inj hu
  decide

/-- The reply to `fetchPosts(forUser:)` lists the older post first. -/
theorem grid_differs :
    ∃ wAll wGrid : AppWorld PostLists String,
      gridTown.backend.StoresPosts ∧ gridTown.backend.DistinctTimes
        ∧ Run api PostRequest.program (fun _ _ => True) gridTown (askPosts .all ["q", "p"]) wAll
        ∧ Run api PostRequest.program (fun _ _ => True) gridTown
          (askPosts (.ofUser "a") ["p", "q"]) wGrid
        ∧ ∃ all grid, (wAll.client "a").delivered = [all] ∧ (wGrid.client "a").delivered = [grid]
          ∧ grid ≠ all.filter fun post => post.ownerUid = "a" := by
  obtain ⟨wAll, hall⟩ := run_askPosts .all ["q", "p"] (by decide)
  obtain ⟨wGrid, hgrid⟩ := run_askPosts (.ofUser "a") ["p", "q"] (by decide)
  obtain ⟨-, hclient⟩ :=
    answered_query (q := postsQuery) (k := didFetchAll) gridTown_quiescent (fun _ => rfl) hall
  obtain ⟨-, hclient'⟩ :=
    answered_query (q := gridQuery "a") (k := didFetchOfUser) gridTown_quiescent (fun _ => rfl)
      hgrid
  refine ⟨wAll, wGrid, gridTown_storesPosts, gridTown_distinctTimes, hall, hgrid, _, _,
    by rw [hclient]; rfl, by rw [hclient']; rfl, ?_⟩
  have hfetch : (gridQuery "a").fetch gridTown.backend.docs ["p", "q"]
      = [("p", postData "p" 5), ("q", postData "q" 9)] := rfl
  -- the two are tied, so the sort leaves them as they are
  rw [hfetch, List.map_cons, List.map_cons, List.map_nil,
    List.mergeSort_of_pairwise (List.pairwise_pair.mpr (by decide))]
  decide

/-! ## The assembly of a feed -/

/-- The query of `fetchFeedPosts`. -/
def feedQuery (uid : String) : Query := { collection := ["users", uid, "user-feed"] }

/-- The completion of `fetchPost` in `fetchFeedPosts`. -/
def appendPost (post : Post) : Program PostLists :=
  .modify (fun x => PostLists.captured.set
      ((PostLists.captured.get x ++ [post]).mergeSort newerFirst) x)
    (.read fun x => deliverPosts (PostLists.captured.get x))

/-- The callback of `fetchPost`. -/
def didFetchPost (snapshot : Option Snapshot) : Program PostLists :=
  match snapshot with
  | none => .done
  | some snapshot =>
    match snapshot.data with
    | none => .done
    | some data => .ask fun turn => appendPost (Post.init turn.now snapshot.documentID data)

/-- The callback of the query of `fetchFeedPosts`. -/
def didFetchFeed (snapshot : Option (List (String × Doc))) : Program PostLists :=
  .forEach (snapshot.getD []) fun document => PostService.fetchPost document.1 appendPost

/-- The post `id`, if there is one, as it is read in a turn. -/
def Backend.post (b : Backend) (item : String × Turn) : Option Post :=
  (b.docs.lookup ["posts", item.1]).map (Post.init item.2.now item.1)

/-- A post joins the captured list, and the list is handed on. -/
def PostLists.insert (x : PostLists) (post : Post) : PostLists where
  posts := insertSorted newerFirst x.posts post
  delivered := x.delivered ++ [insertSorted newerFirst x.posts post]

/-- One `fetchPost` per identifier, over the backend `b`. Missing posts come to nothing. -/
def gatherPosts (b : Backend) : Gather Request Response Turn PostLists String where
  ask id := .getDocument ["posts", id]
  got id := didFetchPost (some ⟨id, b.docs.lookup ["posts", id]⟩)
  collect x id turn := (b.post (id, turn)).elim x x.insert
  got_exec id e x := by
    unfold didFetchPost Backend.post
    cases b.docs.lookup ["posts", id] with
    | none => rfl
    | some data => rfl

/-- The lists handed on when `arrived` have come, in this order. -/
structure Assembled (arrived : List Post) (delivered : List (List Post)) : Prop where
  length : delivered.length = arrived.length
  sorted : ∀ posts ∈ delivered,
    posts.Pairwise fun p q => q.timestamp.seconds ≤ p.timestamp.seconds
  exact : ∀ (k : Nat) posts, delivered[k]? = some posts → posts.Perm (arrived.take (k + 1))

theorem insertAll_newerFirst (posts : List Post) :
    (insertAll newerFirst posts).Pairwise fun p q => q.timestamp.seconds ≤ p.timestamp.seconds :=
  (insertAll_sorted newerFirst_comparator posts).imp of_decide_eq_true

/-- The next post arrives. -/
theorem Assembled.snoc {arrived : List Post} {delivered : List (List Post)}
    (h : Assembled arrived delivered) (post : Post) :
    Assembled (arrived ++ [post]) (delivered ++ [insertAll newerFirst (arrived ++ [post])]) where
  length := by simp [h.length]
  sorted posts hposts := by
    rcases List.mem_append.mp hposts with hposts | hposts
    · exact h.sorted posts hposts
    · obtain rfl := List.mem_singleton.mp hposts
      exact insertAll_newerFirst _
  exact k posts hk := by
    rcases Nat.lt_trichotomy k delivered.length with hlt | heq | hgt
    · rw [List.getElem?_append_left hlt] at hk
      rw [List.take_append_of_le_length (by rw [← h.length]; exact hlt)]
      exact h.exact k posts hk
    · rw [heq, List.getElem?_concat_length] at hk
      obtain rfl := Option.some.inj hk
      rw [heq, h.length, List.take_of_length_le (by simp)]
      exact insertAll_perm newerFirst _
    · rw [List.getElem?_eq_none (by simp; omega)] at hk
      exact absurd hk (by simp)

/-- After any replies the captured list is the sorted list of what has arrived, and every list
handed on was one. -/
theorem collectAll_posts (b : Backend) (received : List (String × Turn)) :
    ((gatherPosts b).collectAll {} received).posts
        = insertAll newerFirst (received.filterMap b.post)
      ∧ Assembled (received.filterMap b.post) ((gatherPosts b).collectAll {} received).delivered
      ∧ ((gatherPosts b).collectAll {} received).delivered.getLastD []
        = insertAll newerFirst (received.filterMap b.post) := by
  induction received using List.reverseRecOn with
  | nil => exact ⟨rfl, ⟨rfl, fun _ h => absurd h List.not_mem_nil, by simp⟩, rfl⟩
  | append_singleton received item ih =>
    obtain ⟨hposts, hassembled, hlast⟩ := ih
    rw [Gather.collectAll_snoc, List.filterMap_append]
    have hcollect : ∀ x, (gatherPosts b).collect x item.1 item.2
        = (b.post item).elim x x.insert := fun _ => rfl
    rw [hcollect]
    cases hpost : b.post item with
    | none =>
      have hnone : [item].filterMap b.post = [] := by simp [hpost]
      rw [hnone, List.append_nil]
      exact ⟨hposts, hassembled, hlast⟩
    | some post =>
      have hsome : [item].filterMap b.post = [post] := by simp [hpost]
      have hnext : insertSorted newerFirst ((gatherPosts b).collectAll {} received).posts post
          = insertAll newerFirst (received.filterMap b.post ++ [post]) := by
        rw [insertAll_append, hposts]
      rw [hsome]
      refine ⟨hnext, ?_, ?_⟩
      · show Assembled _ (_ ++ [insertSorted newerFirst _ post])
        rw [hnext]
        exact hassembled.snoc post
      · show (_ ++ [insertSorted newerFirst _ post]).getLastD [] = _
        rw [hnext]
        simp

section Feed

variable {S A : Type} [DecidableEq S] {uidOf : S → String} {act : A → Program PostLists}
  {w₀ w : AppWorld PostLists S} {s : S} {e : Turn} {es : List (AppEvent S A)}

omit [DecidableEq S] in
theorem exec_fetchFeedPosts (he : SignedIn uidOf s e) (x : PostLists) :
    PostRequest.feed.program.exec e x
      = ({ x with posts := [] },
          [.issued (.getDocuments (feedQuery (uidOf s))) didFetchFeed]) := by
  have he : e.currentUid = some (uidOf s) := he
  unfold PostRequest.program PostService.fetchFeedPosts withCurrentUid
  rw [Prog.exec_ask, he]
  rfl

/-- The callback of the query issues one `fetchPost` for each identifier. -/
theorem exec_didFetchFeed (documents : List (String × Doc)) (e : Turn) (x : PostLists) :
    (didFetchFeed (some documents)).exec e x
      = (x, (documents.map Prod.fst).map fun id =>
          .issued (.getDocument ["posts", id]) didFetchPost) := by
  have hone : ∀ document : String × Doc, (PostService.fetchPost document.1 appendPost).exec e x
      = (x, [.issued (.getDocument ["posts", document.1]) didFetchPost]) := fun _ => rfl
  unfold didFetchFeed
  rw [Option.getD_some, Prog.exec_forEach_issue hone, List.map_map]
  rfl

theorem awaits_fetchPost (b : Backend) (id : String) :
    (gatherPosts b).Awaits api (fun o => o.isSuccess = true) b
      (.issued (.getDocument ["posts", id]) didFetchPost) id := by
  refine .asked (G := gatherPosts b) fun o b' y ho h => ?_
  obtain ⟨rfl, rfl⟩ := serve_getDocument_success ho h
  exact ⟨rfl, rfl⟩

/-- The identifiers in the feed of `uid`. -/
def Backend.feedIds (b : Backend) (uid : String) : List String :=
  b.docs.ids (feedQuery uid).collection

/-- Of the feed of `uid` the replies `received` have arrived, in this order, and the pool awaits
the others. -/
def Arrived (b : Backend) (uid : String) (pool : List (S × Flight Request Response Turn PostLists))
    (received : List (String × Turn)) : Prop :=
  ∃ awaited : List String,
    pool.map (fun x => x.2.req) = awaited.map (fun id => .getDocument ["posts", id])
      ∧ (received.map Prod.fst ++ awaited).Perm (b.feedIds uid)

/-- The request, followed through a run: the query is not answered yet, or the fan-out runs. -/
theorem feed_run (he : SignedIn uidOf s e) (hclient : w₀.client s = {})
    (run : Run api act (Replying (SignedIn uidOf) fun o => o.isSuccess = true)
      (w₀.turn s PostRequest.feed.program e []) es w) :
    ((w.client s).delivered = []
        ∧ w.pool.map (fun x => x.2.req) = [.getDocuments (feedQuery (uidOf s))])
      ∨ ∃ received, Arrived w₀.backend (uidOf s) w.pool received
        ∧ w.client s = (gatherPosts w₀.backend).collectAll {} received := by
  have hclient₁ : (w₀.turn s PostRequest.feed.program e []).client s = {} := by
    rw [World.turn_client, if_pos rfl, exec_fetchFeedPosts he, hclient]
  have hpool : (w₀.turn s PostRequest.feed.program e []).pool
      = [(s, .issued (.getDocuments (feedQuery (uidOf s))) didFetchFeed)] := by
    rw [World.turn_pool, exec_fetchFeedPosts he]
    rfl
  have hafter : (w.client = (w₀.turn s PostRequest.feed.program e []).client
        ∧ w.pool.map (fun x => x.2.req) = [.getDocuments (feedQuery (uidOf s))])
      ∨ ∃ ids : List String, ids.Perm (w₀.backend.feedIds (uidOf s))
        ∧ (gatherPosts w₀.backend).Running api (fun o => o.isSuccess = true) w₀.backend s {}
          ids w := by
    refine Gather.Running.after hpool (fun o b y e₁ ho hserve _ => ?_) run
    obtain ⟨rfl, documents, rfl, hdocuments⟩ := serve_getDocuments_success ho hserve
    refine ⟨documents.map Prod.fst, ?_, ?_⟩
    · have hids := hdocuments.map Prod.fst
      rw [feedQuery, Query.results_all] at hids
      exact hids
    · refine Gather.Running.start rfl ?_ fun id _ => awaits_fetchPost _ id
      rw [exec_didFetchFeed]
      exact Prod.ext hclient₁ rfl
  rcases hafter with ⟨hsame, hreq⟩ | ⟨ids, hids, hrunning⟩
  · refine Or.inl ⟨?_, hreq⟩
    rw [hsame, hclient₁]
  · obtain ⟨received, awaited, hawaited, hperm, hcollected⟩ := hrunning.collected
    exact Or.inr ⟨received, ⟨awaited, hawaited, hperm.trans hids⟩, hcollected⟩

/-- The identifiers of the posts that have come are those of the stored posts among them. -/
theorem map_postId_arrived (b : Backend) (received : List (String × Turn)) :
    (received.filterMap b.post).map Post.postId
      = (received.map Prod.fst).filter fun id => b.exists ["posts", id] := by
  induction received with
  | nil => rfl
  | cons item received ih =>
    unfold Backend.post Backend.exists at *
    cases hd : b.docs.lookup ["posts", item.1] with
    | none => simpa [hd] using ih
    | some d => simpa [hd] using ih

/-- When all replies have come, the last list holds the posts of the feed. -/
theorem feed_settled (he : SignedIn uidOf s e) (hclient : w₀.client s = {})
    (run : Run api act (Replying (SignedIn uidOf) fun o => o.isSuccess = true)
      (w₀.turn s PostRequest.feed.program e []) es w) (hquiet : w.Quiescent) :
    ∃ received : List (String × Turn),
      (received.map Prod.fst).Perm (w₀.backend.feedIds (uidOf s))
      ∧ (w.client s).delivered.getLastD []
        = insertAll newerFirst (received.filterMap w₀.backend.post) := by
  rcases feed_run he hclient run with ⟨-, hpool⟩ | ⟨received, ⟨awaited, hpool, hperm⟩, hcollected⟩
  · rw [hquiet] at hpool
    exact absurd hpool (by simp)
  · rw [hquiet] at hpool
    obtain rfl := List.map_eq_nil_iff.mp hpool.symm
    rw [List.append_nil] at hperm
    refine ⟨received, hperm, ?_⟩
    rw [hcollected]
    exact (collectAll_posts w₀.backend received).2.2

/-- Posts that have their times are read the same whenever their replies arrive. -/
theorem filterMap_post {b : Backend} {received : List (String × Turn)}
    (h : ∀ id ∈ received.map Prod.fst, ∀ d, b.docs.lookup ["posts", id] = some d →
      (d.timestamp "timestamp").isSome = true) :
    received.filterMap b.post
      = (received.map Prod.fst).filterMap fun id =>
          (b.docs.lookup ["posts", id]).map fun d => storedPost (id, d) := by
  rw [List.filterMap_map]
  refine List.filterMap_congr fun item hitem => ?_
  unfold Backend.post
  rw [Function.comp_apply]
  cases hd : b.docs.lookup ["posts", item.1] with
  | none => rfl
  | some d =>
    rw [Option.map_some, Option.map_some,
      post_init_eq (h item.1 (List.mem_map_of_mem hitem) d hd) item.2.now]

/-- **The assembly of a feed.** As the replies to `fetchFeedPosts` come in, in any order: the
lists handed on are sorted, each holds exactly the stored posts that have arrived by then, each
once, and there is one for each of them. When all have come the last list holds every stored post
of the feed, and, if they have their times, it is the same for every order of arrival up to the
order within a second. -/
theorem feedPosts_assembled (he : SignedIn uidOf s e) (hclient : w₀.client s = {})
    (run : Run api act (Replying (SignedIn uidOf) fun o => o.isSuccess = true)
      (w₀.turn s PostRequest.feed.program e []) es w) :
    (((w.client s).delivered = []
          ∧ w.pool.map (fun x => x.2.req) = [.getDocuments (feedQuery (uidOf s))])
        ∨ ∃ received, Arrived w₀.backend (uidOf s) w.pool received
          ∧ (received.map Prod.fst).Nodup
          ∧ Assembled (received.filterMap w₀.backend.post) (w.client s).delivered)
      ∧ (w.Quiescent →
        (((w.client s).delivered.getLastD []).map Post.postId).Perm
            ((w₀.backend.feedIds (uidOf s)).filter fun id => w₀.backend.exists ["posts", id])
          ∧ ∀ es' w', Run api act (Replying (SignedIn uidOf) fun o => o.isSuccess = true)
              (w₀.turn s PostRequest.feed.program e []) es' w' → w'.Quiescent →
            (∀ id ∈ w₀.backend.feedIds (uidOf s), ∀ d,
              w₀.backend.docs.lookup ["posts", id] = some d →
                (d.timestamp "timestamp").isSome = true) →
            SameUpToTies (fun post => post.timestamp.seconds)
              ((w.client s).delivered.getLastD []) ((w'.client s).delivered.getLastD [])) := by
  constructor
  · refine (feed_run he hclient run).imp_right ?_
    rintro ⟨received, harrived, hcollected⟩
    refine ⟨received, harrived, ?_, ?_⟩
    · obtain ⟨awaited, -, hperm⟩ := harrived
      exact (hperm.nodup_iff.mpr (w₀.backend.docs.nodup_ids _)).of_append_left
    · rw [hcollected]
      exact (collectAll_posts w₀.backend received).2.1
  · intro hquiet
    obtain ⟨received, hreceived, hlast⟩ := feed_settled he hclient run hquiet
    refine ⟨?_, fun es' w' run' hquiet' hstamped => ?_⟩
    · rw [hlast]
      have hall := (insertAll_perm newerFirst (received.filterMap w₀.backend.post)).map Post.postId
      rw [map_postId_arrived] at hall
      exact hall.trans (hreceived.filter _)
    · obtain ⟨received', hreceived', hlast'⟩ := feed_settled he hclient run' hquiet'
      rw [hlast, hlast']
      refine .of_sorted ?_ (insertAll_newerFirst _) (insertAll_newerFirst _)
      have hsame : (received.filterMap w₀.backend.post).Perm
          (received'.filterMap w₀.backend.post) := by
        rw [filterMap_post fun id hid => hstamped id (hreceived.mem_iff.mp hid),
          filterMap_post fun id hid => hstamped id (hreceived'.mem_iff.mp hid)]
        exact (hreceived.trans hreceived'.symm).filterMap _
      exact (insertAll_perm _ _).trans (hsame.trans (insertAll_perm _ _).symm)

end Feed

/-- The feed of `a` lists the two posts and one that is gone. -/
def feedTown : AppWorld PostLists String :=
  atRest
    { gridTown.backend with
      docs := ((gridTown.backend.docs.insert ["users", "a", "user-feed", "p"] (dict [])).insert
        ["users", "a", "user-feed", "gone"] (dict [])).insert
        ["users", "a", "user-feed", "q"] (dict []) }
    fun _ => {}

/-- The replies come in the opposite order. -/
def feedReplies : List (AppEvent String PostRequest) :=
  [.serve 0 (.success ["p", "gone", "q"]), .deliver 0 (turnOf "a"), .serve 2 (.success []),
    .deliver 2 (turnOf "a"), .serve 1 (.success []), .deliver 1 (turnOf "a"),
    .serve 0 (.success []), .deliver 0 (turnOf "a")]

theorem feedPosts_assembled_opposite :
    ∃ w, Run api PostRequest.program (Replying (SignedIn id) fun o => o.isSuccess = true)
        (feedTown.turn "a" PostRequest.feed.program (turnOf "a") []) feedReplies w
      ∧ w.Quiescent
      ∧ (((w.client "a").delivered.getLastD []).map Post.postId).Perm ["q", "p"] := by
  obtain ⟨w, run, hquiet⟩ : ∃ w, Run api PostRequest.program
      (Replying (SignedIn id) fun o => o.isSuccess = true)
      (feedTown.turn "a" PostRequest.feed.program (turnOf "a") []) feedReplies w ∧ w.Quiescent :=
    exists_run_of_play (by decide)
  have hclient : feedTown.client "a" = {} := rfl
  have hsigned : SignedIn (S := String) id "a" (turnOf "a") := rfl
  exact ⟨w, run, hquiet, ((feedPosts_assembled hsigned hclient run).2 hquiet).1⟩

end InstaClone
