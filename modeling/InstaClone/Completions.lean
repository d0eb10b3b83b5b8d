import InstaClone.Async.Origins
import InstaClone.Display
import InstaClone.LikeCount

/-!
# What the completion of a like touches

The completion of a like has captured the tapped cell. It writes its count and its button into
whatever that cell shows by then, and after an unlike it is the post of the cell that says which
notifications go. So it stays with its own post exactly if the cell does.

`tapped` labels each flight with the tap it descends from: the count, the two marks, the
completion, the notification or the query for notifications, their deletions. `LikeFlight` is
the form such a flight has, as long as the cell shows the post of the tap whenever the
completion runs (`CellStays`), and `OwnPost` what then holds of each step: no other cell
changes, and the notifications uploaded or deleted are about that post.
-/

namespace InstaClone

open Async

/-! ## Taps and what descends from them -/

/-- A like tap: the feed, the cell and the post it showed. -/
structure LikeTap where
  feed : Nat
  cell : Nat
  postId : String
deriving DecidableEq

/-- The like tap that an action is. -/
def likeTapOf (client : Client) : Action → Option LikeTap
  | .likeTap c cell => ((client.feeds c).cells cell).post.map fun post => ⟨c, cell, post.postId⟩
  | _ => none

/-- A world of the app whose flights are labelled with the tap they descend from. -/
abbrev TappedWorld (S : Type) := Labelled Request Response Turn Client S Backend (Option LikeTap)

/-- The app with these labels. -/
abbrev tapped {S : Type} [DecidableEq S] (w₀ : AppWorld Client S) :
    Machine (TappedWorld S) (AppEvent S Action) :=
  labelled api Action.program likeTapOf w₀

/-- Does the cell show post `p`? -/
def FeedCell.Shows (p : String) (cell : FeedCell) : Prop := cell.post.map Post.postId = some p

instance FeedCell.decidableShows (p : String) (cell : FeedCell) : Decidable (cell.Shows p) :=
  inferInstanceAs (Decidable (_ = _))

/-- Is the notification about post `p`? -/
def AboutPost (p : String) (d : Doc) : Prop :=
  ∀ now, (Notification.init now d).postId = some p

/-- Is something stored among the notifications there? -/
def IsNoticePath (path : Path) : Prop := path.head? = some "notifications"

/-- The callback of the query of `deleteNotification`. -/
def didFindNotices (uid : String) (type : NotificationType) (postId : Option String)
    (snapshot : Option (List (String × Doc))) : Program Client :=
  .ask fun turn =>
    .forEach (snapshot.getD []) fun document =>
      if NotificationService.isRetracted type postId (Notification.init turn.now document.2) then
        delete ["notifications", uid, "user-notifications", document.1] noCompletion
      else .done

/-- The query of `deleteNotification`. -/
def retractQuery (uid currentUid : String) : Query where
  collection := ["notifications", uid, "user-notifications"]
  whereField := some ("uid", .string currentUid)

/-- What a flight that descends from a tap is. -/
inductive LikeFlight (tap : LikeTap) : Flight Request Response Turn Client → Prop
  /-- The count, a notification, or the deletion of one. -/
  | silent {w : Write} (hcopy : w.path.head? ≠ some "users")
      (habout : ∀ path data, w = .setData path data → IsNoticePath path →
        AboutPost tap.postId data) :
      LikeFlight tap (writeFlight w)
  | silenced {w : Write} (habout : ∀ path data, w = .setData path data → IsNoticePath path →
      AboutPost tap.postId data) : LikeFlight tap (.served (.write w) .done)
  /-- The two marks. -/
  | marking (uid : String) (v : Bool) {post : Post} {user : User}
      (hpost : post.postId = tap.postId) :
      LikeFlight tap (markFlight ["posts", tap.postId, "post-likes", uid]
        ["users", uid, "user-likes", tap.postId] v (didTap tap.feed tap.cell post user))
  | marked (uid : String) (v : Bool) {post : Post} {user : User}
      (hpost : post.postId = tap.postId) :
      LikeFlight tap (.served (.write (markWrite ["posts", tap.postId, "post-likes", uid] v))
        (.call (.write (markWrite ["users", uid, "user-likes", tap.postId] v))
          (didTap tap.feed tap.cell post user) .done))
  | copying (uid : String) (v : Bool) {post : Post} {user : User}
      (hpost : post.postId = tap.postId) :
      LikeFlight tap (.issued (.write (markWrite ["users", uid, "user-likes", tap.postId] v))
        (didTap tap.feed tap.cell post user))
  | copied (uid : String) (v : Bool) {post : Post} {user : User}
      (hpost : post.postId = tap.postId) (error : Option Error) :
      LikeFlight tap (.served (.write (markWrite ["users", uid, "user-likes", tap.postId] v))
        (didTap tap.feed tap.cell post user error))
  /-- The query for the notifications of an unliked post. -/
  | finding (owner uid : String) :
      LikeFlight tap (.issued (.getDocuments (retractQuery owner uid))
        (didFindNotices owner .like (some tap.postId)))
  | found (owner uid : String) (snapshot : Option (List (String × Doc))) :
      LikeFlight tap (.served (.getDocuments (retractQuery owner uid))
        (didFindNotices owner .like (some tap.postId) snapshot))

/-! ## The turns -/

section Turns

variable {c cell : Nat} {post : Post} {user : User} {e : Turn} {client : Client}

/-- What `deleteNotification` asks for. -/
theorem exec_deleteNotification {owner : String} {type : NotificationType}
    {postId : Option String} :
    (NotificationService.deleteNotification owner type postId).exec e client
      = (client, match e.currentUid with
        | none => []
        | some uid => [.issued (.getDocuments (retractQuery owner uid))
            (didFindNotices owner type postId)]) := by
  unfold NotificationService.deleteNotification withCurrentUid
  rw [Prog.exec_ask]
  cases e.currentUid <;> rfl

/-- What its callback deletes. -/
theorem exec_didFindNotices {owner : String} {type : NotificationType} {postId : Option String}
    {snapshot : Option (List (String × Doc))} :
    (didFindNotices owner type postId snapshot).exec e client
      = (client, (snapshot.getD []).flatMap fun document =>
          if NotificationService.isRetracted type postId (Notification.init e.now document.2) then
            [writeFlight (.delete ["notifications", owner, "user-notifications", document.1])]
          else []) := by
  unfold didFindNotices
  rw [Prog.exec_ask]
  refine Prog.exec_forEach (fun document => ?_) _
  split
  next => rfl
  next => rfl

/-- A flight of that callback is the deletion of a listed notification about the post. -/
theorem mem_didFindNotices {owner p : String} {snapshot : Option (List (String × Doc))}
    {fl : Flight Request Response Turn Client}
    (hfl : fl ∈ ((didFindNotices owner .like (some p) snapshot).exec e client).2) :
    ∃ document ∈ snapshot.getD [], AboutPost p document.2
      ∧ fl = writeFlight (.delete ["notifications", owner, "user-notifications", document.1]) := by
  rw [exec_didFindNotices] at hfl
  obtain ⟨document, hdocument, hfl⟩ := List.mem_flatMap.mp hfl
  split at hfl
  next hretracted =>
    refine ⟨document, hdocument, fun now => ?_, List.mem_singleton.mp hfl⟩
    have hboth := Bool.and_eq_true_iff.mp hretracted
    have hpost : some p = (Notification.init e.now document.2).postId := by simpa using hboth.2
    exact hpost.symm
  next => exact absurd hfl List.not_mem_nil

/-- The upload of a notification stores it with its owner, unless the owner is oneself. -/
theorem exec_uploadNotification {me : String} (he : e.currentUid = some me) (toUid : String)
    (user : User) (type : NotificationType) (post : Option Post) (client : Client) :
    (NotificationService.uploadNotification toUid user type post).exec e client
      = (client, if toUid = me then []
        else [writeFlight (.setData ["notifications", toUid, "user-notifications", e.autoId]
          (NotificationService.notificationData me e user type post))]) := by
  unfold NotificationService.uploadNotification withCurrentUid
  rw [Prog.exec_ask, he]
  dsimp only
  split
  next => rfl
  next => rfl

/-- The upload of a notification about a post. -/
theorem uploadNotification_about (owner : String) (user : User) (type : NotificationType)
    (post : Post) (client : Client) :
    ((NotificationService.uploadNotification owner user type (some post)).exec e client).1 = client
      ∧ ∀ fl ∈ ((NotificationService.uploadNotification owner user type (some post)).exec e
            client).2,
          ∃ id data, fl = writeFlight (.setData ["notifications", owner, "user-notifications", id]
            data) ∧ AboutPost post.postId data := by
  cases he : e.currentUid with
  | none =>
    unfold NotificationService.uploadNotification withCurrentUid
    rw [Prog.exec_ask, he]
    exact ⟨rfl, fun fl hfl => absurd hfl List.not_mem_nil⟩
  | some uid =>
    rw [exec_uploadNotification he]
    refine ⟨rfl, fun fl hfl => ?_⟩
    split at hfl
    next => exact absurd hfl List.not_mem_nil
    next => exact ⟨e.autoId, _, List.mem_singleton.mp hfl, fun _ => rfl⟩

/-- What the completion changes in the tapped cell. -/
def finished (post : Post) (user : User) (cell : Nat) : FeedCell → FeedCell :=
  Tap.finished ⟨cell, post, user⟩

/-- The completion of an unlike asks for the notifications about the post of the cell. -/
theorem exec_didUnlike (c cell : Nat) (post : Post) (ownerUid : String) (error : Option Error) :
    (FeedController.didUnlike c cell post ownerUid error).exec e client
      = (client.mapFeed c (·.mapCell cell fun x =>
          (x.setLikeButton .heart .black).updatePost fun shown =>
            { shown with likes := post.likes - 1 }),
        match e.currentUid with
        | none => []
        | some uid => [.issued (.getDocuments (retractQuery ownerUid uid))
            (didFindNotices ownerUid .like
              (((client.feeds c).cells cell).post.map Post.postId))]) := by
  have hshown : (((client.mapFeed c (·.mapCell cell fun x =>
        (x.setLikeButton .heart .black).updatePost fun shown =>
          { shown with likes := post.likes - 1 })).feeds c).cells cell).post.map Post.postId
      = ((client.feeds c).cells cell).post.map Post.postId := by
    rw [Client.mapFeed_feeds, if_pos rfl, FeedController.mapCell_cells, if_pos rfl,
      FeedCell.updatePost_post, FeedCell.setLikeButton_post, Option.map_map]
    rfl
  unfold FeedController.didUnlike inFeed
  rw [Prog.exec_modify, Prog.exec_read, exec_deleteNotification, hshown]

/-- The completion writes into the cell it captured, uploads a notification about its own post,
or asks for those about the post of the cell. -/
theorem exec_didTap (c cell : Nat) (post : Post) (user : User) (error : Option Error) (e : Turn)
    (client : Client) :
    ((didTap c cell post user error).exec e client).1
        = client.mapFeed c (·.mapCell cell (finished post user cell))
      ∧ ∀ fl ∈ ((didTap c cell post user error).exec e client).2,
        (∃ owner id data, fl = writeFlight
            (.setData ["notifications", owner, "user-notifications", id] data)
              ∧ AboutPost post.postId data)
        ∨ ∃ owner uid, fl = .issued (.getDocuments (retractQuery owner uid))
            (didFindNotices owner .like (((client.feeds c).cells cell).post.map Post.postId)) := by
  unfold didTap
  cases hlike : post.didLike with
  | true =>
    have hcell : finished post user cell = fun x =>
        (x.setLikeButton .heart .black).updatePost fun shown =>
          { shown with likes := post.likes - 1 } :=
      funext fun x => if_pos hlike
    rw [if_pos rfl, hcell, exec_didUnlike]
    refine ⟨rfl, fun fl hfl => Or.inr ?_⟩
    cases hcurrent : e.currentUid with
    | none =>
      rw [hcurrent] at hfl
      exact absurd hfl List.not_mem_nil
    | some uid =>
      rw [hcurrent] at hfl
      exact ⟨_, uid, List.mem_singleton.mp hfl⟩
  | false =>
    have hcell : finished post user cell = fun x =>
        (x.setLikeButton .heartFill .red).updatePost fun shown =>
          { shown with likes := post.likes + 1 } :=
      funext fun x => if_neg (by simp [hlike])
    rw [if_neg (by simp), hcell]
    unfold FeedController.didLike inFeed
    rw [Prog.exec_modify]
    obtain ⟨hclient, hissues⟩ := uploadNotification_about (e := e) post.ownerUid user .like post
      (client.mapFeed c (·.mapCell cell fun x =>
        (x.setLikeButton .heartFill .red).updatePost fun shown =>
          { shown with likes := post.likes + 1 }))
    refine ⟨hclient, fun fl hfl => Or.inl ?_⟩
    obtain ⟨id, data, hfl, habout⟩ := hissues fl hfl
    exact ⟨_, id, data, hfl, habout⟩

/-- A cell that shows `p` goes on showing it. -/
theorem FeedCell.Shows.finished {p : String} {x : FeedCell} (h : x.Shows p) :
    (InstaClone.finished post user cell x).Shows p := by
  unfold Shows at h ⊢
  unfold InstaClone.finished
  rw [Tap.finished_post, Option.map_map]
  exact h

/-- What a tap issues. -/
theorem likeFlight_didTapLike {fl : Flight Request Response Turn Client}
    (hfl : fl ∈ ((FeedController.didTapLike c cell).exec e client).2) :
    ∃ tap, likeTapOf client (.likeTap c cell) = some tap ∧ LikeFlight tap fl := by
  cases hcurrent : e.currentUid with
  | none =>
    -- nobody is signed in
    refine absurd hfl ?_
    unfold FeedController.didTapLike PostService.unlikePost PostService.likePost withCurrentUid
    rw [Prog.exec_read]
    cases ((client.feeds c).cells cell).post with
    | none => exact List.not_mem_nil
    | some post =>
      cases client.tabUser with
      | none => exact List.not_mem_nil
      | some user =>
        dsimp only [inFeed]
        rw [Prog.exec_modify]
        split
        next =>
          rw [Prog.exec_ask, hcurrent]
          exact List.not_mem_nil
        next =>
          rw [Prog.exec_ask, hcurrent]
          exact List.not_mem_nil
  | some uid =>
    rw [exec_didTapLike hcurrent] at hfl
    cases hpost : ((client.feeds c).cells cell).post with
    | none =>
      rw [hpost] at hfl
      exact absurd hfl List.not_mem_nil
    | some post =>
      rw [hpost] at hfl
      have hlabel : likeTapOf client (.likeTap c cell) = some ⟨c, cell, post.postId⟩ := by
        show ((client.feeds c).cells cell).post.map _ = _
        rw [hpost]
        rfl
      refine ⟨⟨c, cell, post.postId⟩, hlabel, ?_⟩
      cases htab : client.tabUser with
      | none =>
        rw [htab] at hfl
        exact absurd hfl List.not_mem_nil
      | some user =>
        rw [htab] at hfl
        dsimp only [tapFlights] at hfl
        split at hfl
        next =>
          rcases List.mem_cons.mp hfl with rfl | hfl
          · exact .silent (by simp) fun path data hw => by cases hw
          · obtain rfl := List.mem_singleton.mp hfl
            exact @LikeFlight.marking ⟨c, cell, post.postId⟩ uid _ post user rfl
        next => exact absurd hfl List.not_mem_nil

end Turns

/-! ## The steps -/

section Steps

variable {S : Type} [DecidableEq S] {x x' : TappedWorld S} {ev : AppEvent S Action}

/-- What is known of a flight with a label. -/
def Descends (label : Option LikeTap) (y : S × Flight Request Response Turn Client) : Prop :=
  ∀ tap ∈ label, LikeFlight tap y.2

/-- Is the request the second mark of a like? -/
def Request.isCopy : Request → Bool
  | .write w => w.path.head? == some "users"
  | _ => false

/-- The cell shows the post of the tap when the completion runs. -/
def CellStays (x : TappedWorld S) : AppEvent S Action → Prop
  | .deliver i _ => ∀ tap ∈ x.labels[i]?.join, ∀ y ∈ x.world.pool[i]?, y.2.req.isCopy = true →
    (((x.world.client y.1).feeds tap.feed).cells tap.cell).Shows tap.postId
  | _ => True

/-- What a callback deletes are notifications about `p` that are stored. -/
def DeletesAbout (b : Backend) (p : String) (q : Program Client) : Prop :=
  ∀ e client, ∀ fl ∈ (q.exec e client).2, ∀ path, fl.req = .write (.delete path) →
    IsNoticePath path → ∃ d, b.docs.lookup path = some d ∧ AboutPost p d

/-- What a step does in the name of a tap concerns the post of the tap: its callbacks change at
most the tapped cell while that shows the post, the notifications it has uploaded are about it,
and so are those, of the store its query is answered from, that it deletes. -/
structure OwnPost (x : TappedWorld S) (ev : AppEvent S Action) (x' : TappedWorld S) : Prop where
  shown : ∀ i e tap, ev = .deliver i e → x.labels[i]? = some (some tap) → ∀ s,
    x'.world.client s = x.world.client s
      ∨ (((x.world.client s).feeds tap.feed).cells tap.cell).Shows tap.postId
        ∧ ∃ cell : FeedCell, cell.Shows tap.postId ∧ x'.world.client s
          = (x.world.client s).mapFeed tap.feed (·.mapCell tap.cell fun _ => cell)
  uploaded : ∀ (i : Nat) (tap : LikeTap) (y : S × Flight Request Response Turn Client),
    x'.labels[i]? = some (some tap) → x'.world.pool[i]? = some y →
      ∀ path data, y.2.req = .write (.setData path data) → IsNoticePath path →
        AboutPost tap.postId data
  deleted : ∀ i o tap s r q, ev = .serve i o → x.labels[i]? = some (some tap) →
    x'.world.pool[i]? = some (s, .served r q) → DeletesAbout x'.world.backend tap.postId q

omit [DecidableEq S] in
/-- The forms of flights pass from a request to its reply. -/
theorem LikeFlight.serve {tap : LikeTap} {r : Request} {k : Response r → Program Client}
    (h : LikeFlight tap (.issued r k)) (y : Response r) : LikeFlight tap (.served r (k y)) := by
  generalize hfl : Flight.issued r k = fl at h
  cases h with
  | silent hcopy habout =>
    obtain ⟨rfl, hk⟩ := Flight.issued.inj hfl
    obtain rfl := eq_of_heq hk
    exact .silenced habout
  | marking uid v hpost =>
    obtain ⟨rfl, hk⟩ := Flight.issued.inj hfl
    obtain rfl := eq_of_heq hk
    exact .marked uid v hpost
  | copying uid v hpost =>
    obtain ⟨rfl, hk⟩ := Flight.issued.inj hfl
    obtain rfl := eq_of_heq hk
    exact .copied uid v hpost y
  | finding owner uid =>
    obtain ⟨rfl, hk⟩ := Flight.issued.inj hfl
    obtain rfl := eq_of_heq hk
    exact .found owner uid y
  | _ => exact absurd hfl (by simp)

/-- What a callback issues, and what it changes, if the cell shows the post of the tap when the
completion runs. -/
theorem LikeFlight.deliver {tap : LikeTap} {r : Request} {p : Program Client}
    (h : LikeFlight tap (.served r p)) (client : Client)
    (hstays : r.isCopy = true → ((client.feeds tap.feed).cells tap.cell).Shows tap.postId)
    (e : Turn) :
    (∀ fl ∈ (p.exec e client).2, LikeFlight tap fl)
      ∧ ((p.exec e client).1 = client
        ∨ ((client.feeds tap.feed).cells tap.cell).Shows tap.postId
          ∧ ∃ cell : FeedCell, cell.Shows tap.postId
            ∧ (p.exec e client).1
              = client.mapFeed tap.feed (·.mapCell tap.cell fun _ => cell)) := by
  generalize hfl : Flight.served r p = fl at h
  cases h with
  | silenced =>
    obtain ⟨rfl, rfl⟩ := Flight.served.inj hfl
    exact ⟨fun fl hfl => absurd hfl List.not_mem_nil, Or.inl rfl⟩
  | marked uid v hpost =>
    obtain ⟨rfl, rfl⟩ := Flight.served.inj hfl
    refine ⟨fun fl hfl => ?_, Or.inl rfl⟩
    obtain rfl := List.mem_singleton.mp hfl
    exact .copying uid v hpost
  | @copied uid v post user hpost error =>
    obtain ⟨rfl, rfl⟩ := Flight.served.inj hfl
    have hshows := hstays (by simp [Request.isCopy])
    obtain ⟨hclient, hissues⟩ := exec_didTap tap.feed tap.cell post user error e client
    refine ⟨fun fl hfl => ?_, Or.inr ⟨hshows, _, hshows.finished, hclient⟩⟩
    rcases hissues fl hfl with ⟨owner, id, data, rfl, habout⟩ | ⟨owner, me, rfl⟩
    · refine .silent (by simp [Write.path]) fun path data' hw _ => ?_
      obtain ⟨-, rfl⟩ := Write.setData.inj hw
      rw [← hpost]
      exact habout
    · rw [hshows]
      exact .finding owner me
  | found owner uid snapshot =>
    obtain ⟨rfl, rfl⟩ := Flight.served.inj hfl
    refine ⟨fun fl hfl => ?_, Or.inl ?_⟩
    · obtain ⟨document, -, -, rfl⟩ := mem_didFindNotices hfl
      exact .silent (by simp [Write.path]) fun path data hw => by cases hw
    · rw [exec_didFindNotices]
  | _ => exact absurd hfl (by simp [writeFlight, markFlight])

omit [DecidableEq S] in
/-- The notifications a flight uploads are about its post. -/
theorem LikeFlight.uploads {tap : LikeTap} {fl : Flight Request Response Turn Client}
    (h : LikeFlight tap fl) {path : Path} {data : Doc}
    (hreq : fl.req = .write (.setData path data)) (hpath : IsNoticePath path) :
    AboutPost tap.postId data := by
  have hmark : ∀ (near : Path) (v : Bool), near.head? ≠ some "notifications" →
      Request.write (markWrite near v) ≠ .write (.setData path data) := by
    intro near v hnear heq
    refine hnear ?_
    rw [← markWrite_path near v, Request.write.inj heq]
    exact hpath
  cases h with
  | silent hcopy habout => exact habout path data (Request.write.inj hreq) hpath
  | silenced habout => exact habout path data (Request.write.inj hreq) hpath
  | marking uid v hpost => exact absurd hreq (hmark _ v (by simp))
  | marked uid v hpost => exact absurd hreq (hmark _ v (by simp))
  | copying uid v hpost => exact absurd hreq (hmark _ v (by simp))
  | copied uid v hpost error => exact absurd hreq (hmark _ v (by simp))
  | finding owner uid => exact absurd hreq (by simp)
  | found owner uid snapshot => exact absurd hreq (by simp)

omit [DecidableEq S] in
/-- What the callback of a reply deletes is, in the store the reply was made from, about the
post. -/
theorem LikeFlight.deletes {tap : LikeTap} {r : Request} {k : Response r → Program Client}
    (h : LikeFlight tap (.issued r k)) {b b' : Backend} {o : Outcome} {y : Response r}
    (hserve : api.serve b r o = some (b', y)) : DeletesAbout b' tap.postId (k y) := by
  intro e client fl hfl path hreq hpath
  generalize heq : Flight.issued r k = fl' at h
  cases h with
  | silent hcopy habout =>
    obtain ⟨rfl, hk⟩ := Flight.issued.inj heq
    obtain rfl := eq_of_heq hk
    exact absurd hfl List.not_mem_nil
  | marking uid v hpost =>
    obtain ⟨rfl, hk⟩ := Flight.issued.inj heq
    obtain rfl := eq_of_heq hk
    obtain rfl := List.mem_singleton.mp hfl
    -- the mark is not among the notifications
    have hmark : (markWrite ["users", uid, "user-likes", tap.postId] v).path = path := by
      rw [Request.write.inj hreq]
      rfl
    rw [markWrite_path] at hmark
    subst hmark
    exact absurd hpath (by simp [IsNoticePath])
  | copying uid v hpost =>
    obtain ⟨rfl, hk⟩ := Flight.issued.inj heq
    obtain rfl := eq_of_heq hk
    rcases (exec_didTap _ _ _ _ _ _ _).2 fl hfl with ⟨owner, id, data, rfl, -⟩ | ⟨owner, me, rfl⟩
    · exact absurd hreq (by simp [writeFlight])
    · exact absurd hreq (by simp)
  | finding owner uid =>
    obtain ⟨rfl, hk⟩ := Flight.issued.inj heq
    obtain rfl := eq_of_heq hk
    obtain ⟨rfl, hdocs⟩ := serve_getDocuments hserve
    obtain ⟨document, hdocument, habout, rfl⟩ := mem_didFindNotices hfl
    obtain rfl := Write.delete.inj (Request.write.inj hreq)
    cases y with
    | none => exact absurd hdocument List.not_mem_nil
    | some documents =>
      have hlisted := (hdocs documents rfl).mem_iff.mp hdocument
      exact ⟨document.2, (Query.mem_results.mp hlisted).1, habout⟩
  | _ => exact absurd heq (by simp)

/-- Every flight is as its label says. -/
theorem descends_step (h : x.Flights Descends) (hstays : CellStays x ev)
    (hstep : Labelled.step api Action.program likeTapOf x ev = some x') :
    x'.Flights Descends := by
  refine h.step hstep ?_ ?_ ?_
  · intro s a e _ fl hfl tap htap
    cases a with
    | likeTap c cell =>
      obtain ⟨tap', hlabel, hflight⟩ := likeFlight_didTapLike hfl
      rw [hlabel] at htap
      obtain rfl := Option.some.inj htap
      exact hflight
    | _ => exact absurd htap (by simp [likeTapOf])
  · exact fun l s r k o b y hl _ tap htap => (hl tap htap).serve y
  · intro i e l s r p hev hlabel hget hl fl hfl tap htap
    subst hev
    obtain rfl : l = some tap := htap
    refine ((hl tap rfl).deliver (x.world.client s) (fun hcopy => ?_) e).1 fl hfl
    exact hstays tap (by rw [hlabel]; rfl) _ hget hcopy

/-- **Likes keep to their post.** In every run in which each completion of a like finds the
tapped cell still showing the post: what is done in the name of a tap, in each of its steps,
concerns that post alone. -/
theorem likes_ownPost {w₀ : AppWorld Client S} (hrest : w₀.Quiescent)
    {es : List (AppEvent S Action)} (run : ((tapped w₀).under CellStays).Run es x)
    (hstays : CellStays x ev) (hstep : (tapped w₀).step x ev = some x') : OwnPost x ev x' := by
  have hflights : x.Flights Descends := by
    refine Machine.Run.invariant (M := (tapped w₀).under CellStays)
      (I := fun _ x => x.Flights Descends) ?_
      (fun _ _ _ _ h hallowed hs => descends_step h hallowed.2 hs) run
    rintro _ rfl
    show List.Forall₂ _ [] w₀.pool
    rw [hrest]
    exact .nil
  have hflights' := descends_step hflights hstays hstep
  refine ⟨fun i e tap hev hlabel s => ?_, fun i tap y hlabel hget path data hreq hpath => ?_,
    fun i o tap s r q hev hlabel hget => ?_⟩
  · subst hev
    obtain ⟨w, hw, rfl⟩ := Option.map_eq_some_iff.mp hstep
    cases stepped_of_step hw with
    | deliver hpool hfifo =>
      rename_i pre post t r p
      have hget : x.world.pool[pre.length]? = some (t, .served r p) := getElem?_split hpool
      have hflight : LikeFlight tap (.served r p) := hflights.get hlabel hget tap rfl
      by_cases hs : s = t
      · subst hs
        have hclient := (hflight.deliver (x.world.client s) (fun hcopy =>
          hstays tap (by rw [hlabel]; rfl) _ hget hcopy) e).2
        rw [World.turn_client, if_pos rfl]
        exact hclient
      · refine Or.inl ?_
        rw [World.turn_client, if_neg hs]
  · exact (hflights'.get hlabel hget tap rfl).uploads hreq hpath
  · subst hev
    obtain ⟨w, hw, rfl⟩ := Option.map_eq_some_iff.mp hstep
    cases stepped_of_step hw with
    | serve hpool hfifo hserve =>
      rename_i pre post t r' k b y
      have hissued : x.world.pool[pre.length]? = some (t, .issued r' k) := getElem?_split hpool
      have hflight : LikeFlight tap (.issued r' k) := hflights.get hlabel hissued tap rfl
      have hserved : some (t, Flight.served r' (k y)) = some (s, Flight.served r q) := by
        rw [← hget]
        simp
      obtain ⟨-, hq⟩ := Prod.mk.inj (Option.some.inj hserved)
      obtain ⟨-, rfl⟩ := Flight.served.inj hq
      exact hflight.deletes hserve

end Steps

/-! ## A feed with two posts -/

instance (x : TappedWorld String) (ev : AppEvent String Action) : Decidable (CellStays x ev) :=
  match ev with
  | .invoke _ _ _ => isTrue trivial
  | .serve _ _ => isTrue trivial
  | .deliver _ _ => inferInstanceAs (Decidable (∀ tap ∈ _, ∀ y ∈ _, _))
  | .drop _ => isTrue trivial

instance (w₀ : AppWorld Client String) (x : TappedWorld String) (ev : AppEvent String Action) :
    Decidable ((tapped w₀).allows x ev) :=
  inferInstanceAs (Decidable True)

/-- The feed of `a` has loaded `p` and `q`, and shows nothing yet. -/
def feedOfTwo : AppWorld Client String :=
  atRest town fun _ =>
    { tabUser := some (User.init (userDoc "a"))
      feeds := fun _ =>
        { posts := [Post.init ⟨0, 0⟩ "p" (postDoc "b"), Post.init ⟨0, 0⟩ "q" (postDoc "b")] } }

/-- `a` likes `p`, and the replies to both marks come in. -/
def likeUpToCompletion : List (AppEvent String Action) :=
  [.invoke "a" (.feedCell 0 0 0) (turnOf "a"), .invoke "a" (.likeTap 0 0) (turnOf "a")]
    ++ likeReplies "a"

/-- In between, the cell is given the other post. -/
def likeAndRebind : List (AppEvent String Action) :=
  likeUpToCompletion ++ [.invoke "a" (.feedCell 0 0 1) (turnOf "a")]

/-- The completion of a like, run in the cell that still shows the post. -/
theorem likes_ownPost_liked :
    ∃ x x', ((tapped feedOfTwo).under CellStays).Run likeUpToCompletion x
      ∧ (tapped feedOfTwo).step x (.deliver 0 (turnOf "a")) = some x'
      ∧ (((x'.world.client "a").feeds 0).cells 0).post.map Post.likes = some 1
      ∧ OwnPost x (.deliver 0 (turnOf "a")) x' := by
  obtain ⟨x, run, hstays, x', hstep, hlikes⟩ : ∃ x,
      ((tapped feedOfTwo).under CellStays).Run likeUpToCompletion x
        ∧ CellStays x (.deliver 0 (turnOf "a"))
        ∧ ∃ x' ∈ (tapped feedOfTwo).step x (.deliver 0 (turnOf "a")),
          (((x'.world.client "a").feeds 0).cells 0).post.map Post.likes = some 1 :=
    Machine.exists_run_of_play rfl (by decide)
  have hrest : feedOfTwo.Quiescent := rfl
  exact ⟨x, x', run, hstep, hlikes, likes_ownPost hrest run hstays hstep⟩

/-- Run after the cell was given the other post, it changes that one. -/
theorem likes_otherPost :
    ∃ x x', (tapped feedOfTwo).Run likeAndRebind x
      ∧ (tapped feedOfTwo).step x (.deliver 0 (turnOf "a")) = some x'
      ∧ ¬ OwnPost x (.deliver 0 (turnOf "a")) x' := by
  obtain ⟨x, run, hlabel, hbefore, x', hstep, hafter⟩ : ∃ x, (tapped feedOfTwo).Run likeAndRebind x
      ∧ x.labels[0]? = some (some ⟨0, 0, "p"⟩)
      ∧ (((x.world.client "a").feeds 0).cells 0).post.map
          (fun post => (post.postId, post.likes)) = some ("q", 0)
      ∧ ∃ x' ∈ (tapped feedOfTwo).step x (.deliver 0 (turnOf "a")),
        (((x'.world.client "a").feeds 0).cells 0).post.map
          (fun post => (post.postId, post.likes)) = some ("q", 1) :=
    Machine.exists_run_of_play rfl (by decide)
  refine ⟨x, x', run, hstep, fun hown => ?_⟩
  rcases hown.shown 0 _ _ rfl hlabel "a" with hsame | ⟨hshows, -⟩
  · rw [hsame, hbefore] at hafter
    exact absurd hafter (by decide)
  · unfold FeedCell.Shows at hshows
    obtain ⟨post, hpost, hid⟩ := Option.map_eq_some_iff.mp hshows
    rw [hpost] at hbefore
    have hq : post.postId = "q" := (Prod.mk.inj (Option.some.inj hbefore)).1
    rw [hq] at hid
    exact absurd hid (by decide)

end InstaClone
