import InstaClone.Likes
import InstaClone.Taps

/-!
# The like counter against the set of likes

`posts/{p}.likes` is written as an absolute value computed from the copy a cell holds;
the marks under `post-likes` are written per user. The counter equals the number of marks
in every run whose taps find a current copy: the count and the mark that will be stored
once the pending writes are committed, with no other session writing either of them.
Under that condition the invariant is about settled values: for every post the settled
count is the number of settled marks (`CountInv`). Only a tap changes either, by one
each.

A tap on a stale copy loses the likes that were made since it was fetched.
-/

namespace InstaClone

open Async

/-! ## Counts and sets of marks -/

/-- A post's count is the number of users with a mark. -/
def Counted (post : Option Doc) (mark : String → Option Doc) : Prop :=
  ∀ d ∈ post, ∃ likers : List String, likers.Nodup ∧ (∀ u, u ∈ likers ↔ (mark u).isSome = true)
    ∧ d.int "likes" = some (likers.length : Int)

/-- Writing a count leaves that count. -/
theorem int_merge_likes (d : Doc) (likes : Int) :
    (d.merge (dict [("likes", .int likes)])).int "likes" = some likes := rfl

/-- One more mark, and a count one larger. -/
theorem Counted.like {d : Doc} {mark mark' : String → Option Doc} {u : String} {likes : Int}
    (h : Counted (some d) mark) (hlikes : d.int "likes" = some likes) (hu : mark u = none)
    (hmark : ∀ v, (mark' v).isSome = if v = u then true else (mark v).isSome) :
    Counted (some (d.merge (dict [("likes", .int (likes + 1))]))) mark' := by
  obtain ⟨likers, hnodup, hmem, hcount⟩ := h d rfl
  intro d' hd'
  obtain rfl := Option.some.inj hd'
  have hnot : u ∉ likers := by
    rw [hmem, hu]
    simp
  refine ⟨u :: likers, List.nodup_cons.mpr ⟨hnot, hnodup⟩, fun v => ?_, ?_⟩
  · rw [List.mem_cons, hmem, hmark]
    by_cases hv : v = u
    · simp [hv]
    · simp [hv]
  · rw [int_merge_likes, List.length_cons]
    rw [hlikes, Option.some.injEq] at hcount
    rw [hcount]
    rfl

/-- One mark less, and a count one smaller. -/
theorem Counted.unlike {d : Doc} {mark mark' : String → Option Doc} {u : String} {likes : Int}
    (h : Counted (some d) mark) (hlikes : d.int "likes" = some likes)
    (hu : (mark u).isSome = true)
    (hmark : ∀ v, (mark' v).isSome = if v = u then false else (mark v).isSome) :
    Counted (some (d.merge (dict [("likes", .int (likes - 1))]))) mark' := by
  obtain ⟨likers, hnodup, hmem, hcount⟩ := h d rfl
  intro d' hd'
  obtain rfl := Option.some.inj hd'
  have hin : u ∈ likers := (hmem u).mpr hu
  refine ⟨likers.erase u, hnodup.erase u, fun v => ?_, ?_⟩
  · rw [hnodup.mem_erase_iff, hmem, hmark]
    by_cases hv : v = u
    · simp [hv]
    · simp [hv]
  · rw [int_merge_likes, List.length_erase_of_mem hin]
    rw [hlikes, Option.some.injEq] at hcount
    have hpos : 0 < likers.length := List.length_pos_of_mem hin
    rw [hcount, Option.some.injEq]
    omega

/-- What a tap makes of them, when its copy has the right count and flag. -/
theorem Counted.tap {d : Doc} {mark mark' : String → Option Doc} {u : String} {post : Post}
    (h : Counted (some d) mark) (hlikes : d.int "likes" = some post.likes)
    (hflag : (mark u).isSome = post.didLike)
    (hmark : ∀ v, (mark' v).isSome = if v = u then !post.didLike else (mark v).isSome) :
    Counted (some (d.merge (dict [("likes", .int post.tapCount)]))) mark' := by
  unfold Post.tapCount
  cases hlike : post.didLike with
  | false =>
    rw [hlike] at hflag hmark
    exact h.like hlikes (by simpa using hflag) hmark
  | true =>
    rw [hlike] at hflag hmark
    exact h.unlike hlikes hflag hmark

/-- A user with a mark finds a positive count. -/
theorem Counted.pos {d : Doc} {mark : String → Option Doc} {u : String} {likes : Int}
    (h : Counted (some d) mark) (hlikes : d.int "likes" = some likes)
    (hu : (mark u).isSome = true) : 0 < likes := by
  obtain ⟨likers, -, hmem, hcount⟩ := h d rfl
  have hpos : 0 < likers.length := List.length_pos_of_mem ((hmem u).mpr hu)
  rw [hlikes, Option.some.injEq] at hcount
  omega

/-! ## Who writes counts and marks -/

/-- The documents that hold counts and marks. -/
def IsLikePath (path : Path) : Prop :=
  (∃ p, path = ["posts", p]) ∨ ∃ p u, path = ["posts", p, "post-likes", u]

/-- Outside the turn of a tap, a count is written only by creating a post without likes,
and no mark is written. -/
def Uploads (e : Turn) (w : Write) : Prop :=
  IsLikePath w.path → ∃ d, w = .setData ["posts", e.autoId] d ∧ d.int "likes" = some 0

/-- The contract of a session of `me` outside the turns of its taps. -/
abbrev uploadConduct (me : String) : Contract Request Response Turn Client :=
  appConduct (fun e => e.currentUid = some me) (fun _ => True) Uploads

/-- The actions other than like taps that may not be among the steps. -/
def Action.isDelete : Action → Bool
  | .sheetTap _ .deletePost => true
  | _ => false

def Action.isLikeTap : Action → Bool
  | .likeTap _ _ => true
  | _ => false

theorem uploads_of_not {e : Turn} {w : Write} (h : ¬ IsLikePath w.path) : Uploads e w :=
  fun hpath => absurd hpath h

theorem not_isLikePath {path : Path} (h : ∀ p, path ≠ ["posts", p])
    (h' : ∀ p u, path ≠ ["posts", p, "post-likes", u]) : ¬ IsLikePath path := by
  intro hpath
  rcases hpath with ⟨p, hp⟩ | ⟨p, u, hp⟩
  · exact h p hp
  · exact h' p u hp

theorem postLaw_true : PostLaw fun _ => True :=
  ⟨fun _ _ _ => trivial, fun _ _ _ _ => trivial, fun _ _ _ _ _ => trivial⟩

/-- Everything but a like tap and a deletion keeps to uploads. -/
theorem Action.keeps_uploads {me : String} {a : Action} (hlike : a.isLikeTap = false)
    (hdelete : a.isDelete = false) : a.program.Keeps (uploadConduct me) := by
  refine a.keeps postLaw_true (fun _ he => he) fun e w _ hw => ?_
  cases hw with
  | likeCount post hpost => exact absurd hlike (by simp [Action.isLikeTap])
  | unlikeCount post hpost hlikes => exact absurd hlike (by simp [Action.isLikeTap])
  | likeMark postId v => exact absurd hlike (by simp [Action.isLikeTap])
  | likeCopy postId v => exact absurd hlike (by simp [Action.isLikeTap])
  | likeNotice post user hpost hother => exact absurd hlike (by simp [Action.isLikeTap])
  | unlikeNotice post id hpost => exact absurd hlike (by simp [Action.isLikeTap])
  | followMark ha user v => exact uploads_of_not (not_isLikePath (by simp) (by simp))
  | followCopy ha user v => exact uploads_of_not (not_isLikePath (by simp) (by simp))
  | followNotice uid user hother => exact uploads_of_not (not_isLikePath (by simp) (by simp))
  | unfollowNotice uid id => exact uploads_of_not (not_isLikePath (by simp) (by simp))
  | comment post user hpost => exact uploads_of_not (not_isLikePath (by simp) (by simp))
  | commentNotice post user hpost hother =>
    exact uploads_of_not (not_isLikePath (by simp) (by simp))
  | upload imageUrl user => exact fun _ => ⟨_, rfl, rfl⟩
  | deletePost postId => exact absurd hdelete (by simp [Action.isDelete])
  | deleteLikes u postId => exact absurd hdelete (by simp [Action.isDelete])
  | deleteFeeds u postId => exact absurd hdelete (by simp [Action.isDelete])
  | deleteNotices id => exact absurd hdelete (by simp [Action.isDelete])

/-- After its own requests, a tap keeps to uploads too. -/
theorem tail_tapFlights {me : String} {post : Post} {c cell : Nat} {user : User}
    {fl : Flight Request Response Turn Client}
    (hfl : fl ∈ tapFlights me post (didTap c cell post user)) : fl.Tail (uploadConduct me) := by
  unfold tapFlights at hfl
  split at hfl
  next hpasses =>
    rcases List.mem_cons.mp hfl with rfl | hfl
    · exact fun _ _ => Prog.keeps_done
    rw [List.mem_singleton.mp hfl]
    intro y _ e _
    refine keepsIn_write (uploads_of_not ?_) fun error e' he' => ?_
    · rw [markWrite_path]
      exact not_isLikePath (by simp) (by simp)
    · unfold didTap
      unfold Post.tapPasses at hpasses
      split
      next hlike =>
        have hlikes : post.likes > 0 := by simpa [hlike] using hpasses
        exact keepsIn_didUnlike postLaw_true trivial hlikes fun e'' _ id =>
          uploads_of_not (not_isLikePath (by simp) (by simp))
      next =>
        exact keepsIn_didLike postLaw_true (fun _ he => he) he' trivial fun _ =>
          uploads_of_not (not_isLikePath (by simp) (by simp))
  next => exact absurd hfl (by simp)

/-! ## The condition on taps -/

section Runs

variable {S : Type} {uidOf : S → String}

/-- The copy a tap of `uid` in session `s` works on is current: its count and its flag are
what will be stored once the pending writes are committed, and no other session has a
write of either pending. -/
structure CopyCurrent (w : AppWorld Client S) (s : S) (uid : String) (post : Post) : Prop where
  likes : ((document ["posts", post.postId]).settled w).bind (·.int "likes") = some post.likes
  flag : ((document ["posts", post.postId, "post-likes", uid]).settled w).isSome = post.didLike
  count_alone : ∀ x ∈ w.pool, x.2.waits = true →
    (document ["posts", post.postId]).touches x.2.req → x.1 = s
  mark_alone : ∀ x ∈ w.pool, x.2.waits = true →
    (document ["posts", post.postId, "post-likes", uid]).touches x.2.req → x.1 = s

/-- Every like tap works on a current copy. -/
def TapsCurrent (uidOf : S → String) (w : AppWorld Client S) : AppEvent S Action → Prop
  | .invoke s (.likeTap c cell) _ =>
    ∀ post ∈ (((w.client s).feeds c).cells cell).post, CopyCurrent w s (uidOf s) post
  | _ => True

/-- No post is deleted. -/
def NoDeletes (w : AppWorld Client S) (ev : AppEvent S Action) : Prop :=
  ActOk (fun _ a => a.isDelete = false) w ev

/-! ## The invariant -/

/-- Everything in flight keeps to uploads, counts and marks have one writer each, and each
settled count is the number of settled marks. -/
structure CountInv (uidOf : S → String) (w : AppWorld Client S) : Prop where
  tails : ∀ x ∈ w.pool, x.2.Tail (uploadConduct (uidOf x.1))
  solo : ∀ path, IsLikePath path → (document path).Solo w.pool
  counted : ∀ p, Counted ((document ["posts", p]).settled w)
    fun u => (document ["posts", p, "post-likes", u]).settled w

/-- Flights that create posts leave a document as it was, or as they create it. -/
theorem after_uploads {σ : Type} {path : Path} {Q : Doc → Prop}
    {issues : List (S × Flight Request Response Turn σ)} {v : Option Doc}
    (h : ∀ x ∈ issues, (document path).touches x.2.req →
      ∃ d, x.2.req = .write (.setData path d) ∧ Q d) :
    (document path).after issues v = v
      ∨ ∃ d, (document path).after issues v = some d ∧ Q d := by
  induction issues generalizing v with
  | nil => exact Or.inl rfl
  | cons x issues ih =>
    have hrest := fun {v} => ih (v := v) fun y hy => h y (List.mem_cons_of_mem _ hy)
    have hx := h x (List.mem_cons_self ..)
    obtain ⟨s, fl⟩ := x
    cases fl with
    | served r p => exact hrest
    | issued r k =>
      rw [Register.after_issued]
      by_cases htouch : (document path).touches r
      · obtain ⟨d, hr, hd⟩ := hx htouch
        rw [Flight.req_issued] at hr
        subst hr
        have heffect : (document path).effect (.write (.setData path d)) v = some d := if_pos rfl
        rw [heffect]
        right
        rcases hrest (v := some d) with hsame | hother
        · exact ⟨d, hsame, hd⟩
        · exact hother
      · rw [(document_lawful path).quiet r v htouch]
        exact hrest

variable [DecidableEq S]

/-- A turn that keeps to uploads keeps the invariant. -/
theorem CountInv.turn {w : AppWorld Client S} (h : CountInv uidOf w) {s : S} {p : Program Client}
    {e : Turn} {pool : List (S × Flight Request Response Turn Client)}
    (hsub : ∀ x ∈ pool, x ∈ w.pool)
    (hsettled : ∀ path, (document path).after pool (w.backend.docs.lookup path)
      = (document path).settled w)
    (hp : p.Keeps (uploadConduct (uidOf s)))
    (he : SignedIn uidOf s e) (hfresh : Unused w e.autoId) :
    CountInv uidOf (w.turn s p e pool) := by
  obtain ⟨-, hissues⟩ := (hp e he).exec he (w.client s).holds_true
  have hafter : ∀ path, (document path).settled (w.turn s p e pool)
      = (document path).after ((p.exec e (w.client s)).2.map fun fl => (s, fl))
        ((document path).settled w) := by
    intro path
    rw [← hsettled]
    exact Register.after_append _ _ _
  have huploads : ∀ fl ∈ (p.exec e (w.client s)).2, ∀ path, IsLikePath path →
      (document path).touches fl.req →
      ∃ d, path = ["posts", e.autoId] ∧ fl.req = .write (.setData path d)
        ∧ d.int "likes" = some 0 := by
    intro fl hfl path hpath htouch
    obtain ⟨write, hwrite, rfl⟩ := htouch
    have hreq := (hissues fl hfl).2.1
    rw [hwrite] at hreq
    obtain ⟨d, rfl, hd⟩ := conduct_req_write.mp hreq hpath
    exact ⟨d, rfl, hwrite, hd⟩
  refine ⟨fun x hx => ?_, fun path hpath => ?_, fun q => ?_⟩
  · rcases List.mem_append.mp hx with hx | hx
    · exact h.tails x (hsub x hx)
    · obtain ⟨fl, hfl, rfl⟩ := List.mem_map.mp hx
      exact (hissues fl hfl).1.tail
  · rw [World.turn_pool]
    refine ((h.solo path hpath).of_waiting fun x hx _ => hsub x hx).issue ?_
    by_cases hnew : path = ["posts", e.autoId]
    · -- nothing else writes a document under a fresh identifier
      right
      intro x hx _ htouch
      exact absurd htouch (hfresh.not_touches (by rw [hnew]; simp) (hsub x hx))
    · left
      intro fl hfl htouch
      obtain ⟨d, hpath', -⟩ := huploads fl hfl path hpath htouch
      exact hnew hpath'
  · have hmark : ∀ u, (document ["posts", q, "post-likes", u]).settled (w.turn s p e pool)
        = (document ["posts", q, "post-likes", u]).settled w := by
      intro u
      rw [hafter, Register.after_quiet (document_lawful _)]
      intro x hx _ htouch
      obtain ⟨fl, hfl, rfl⟩ := List.mem_map.mp hx
      obtain ⟨d, hpath, -⟩ := huploads fl hfl _ (Or.inr ⟨q, u, rfl⟩) htouch
      exact absurd hpath (by simp)
    simp only [hmark]
    have hcreated : ∀ x ∈ (p.exec e (w.client s)).2.map fun fl => (s, fl),
        (document ["posts", q]).touches x.2.req →
        ∃ d, x.2.req = .write (.setData ["posts", q] d) ∧ q = e.autoId
          ∧ d.int "likes" = some 0 := by
      intro x hx htouch
      obtain ⟨fl, hfl, rfl⟩ := List.mem_map.mp hx
      obtain ⟨d, hpath, hreq, hlikes⟩ := huploads fl hfl _ (Or.inl ⟨q, rfl⟩) htouch
      exact ⟨d, hreq, by simpa using hpath, hlikes⟩
    rw [hafter]
    rcases after_uploads (v := (document ["posts", q]).settled w) hcreated with
      hsame | ⟨d, hd, hq, hlikes⟩
    · rw [hsame]
      exact h.counted q
    · -- the new post has no marks
      rw [hd]
      intro d' hd'
      obtain rfl := Option.some.inj hd'
      refine ⟨[], List.nodup_nil, fun u => ?_, hlikes⟩
      have hnone : (document ["posts", q, "post-likes", u]).settled w = none :=
        hfresh.settled (by rw [hq]; simp)
      dsimp only
      rw [hnone]
      simp

omit [DecidableEq S] in
/-- What a tap that passes leaves of a document. -/
theorem after_tap {s : S} {uid : String} {post : Post} {k : Option Error → Program Client}
    (hpasses : post.tapPasses = true) (path : Path) (v : Option Doc) :
    (document path).after ((tapFlights uid post k).map fun fl => (s, fl)) v
      = if path = ["posts", post.postId, "post-likes", uid] then
          if post.didLike then none else some (dict [])
        else if path = ["posts", post.postId] then
          v.map fun d => d.merge (dict [("likes", .int post.tapCount)])
        else v := by
  unfold tapFlights
  rw [if_pos hpasses]
  show (document path).effect (.write (markWrite _ _)) ((document path).effect (.write _) v) = _
  rw [document_effect_write, document_effect_write, markWrite_path, Write.path_updateData]
  by_cases hmark : path = ["posts", post.postId, "post-likes", uid]
  · rw [if_pos hmark.symm, if_pos hmark]
    cases post.didLike <;> rfl
  · rw [if_neg (Ne.symm hmark), if_neg hmark]
    by_cases hcount : path = ["posts", post.postId]
    · rw [if_pos hcount.symm, if_pos hcount]
      rfl
    · rw [if_neg (Ne.symm hcount), if_neg hcount]

omit [DecidableEq S] in
/-- A tap that passes writes the count and the user's mark, and nothing else that counts. -/
theorem touches_tap {uid : String} {post : Post} {k : Option Error → Program Client}
    {fl : Flight Request Response Turn Client} (hfl : fl ∈ tapFlights uid post k) {path : Path}
    (htouch : (document path).touches fl.req) :
    path = ["posts", post.postId] ∨ path = ["posts", post.postId, "post-likes", uid] := by
  unfold tapFlights at hfl
  split at hfl
  next =>
    simp only [List.mem_cons, List.not_mem_nil, or_false] at hfl
    rcases hfl with rfl | rfl
    · exact Or.inl (document_touches_write.mp htouch).symm
    · refine Or.inr ?_
      have hpath := document_touches_write.mp htouch
      rw [markWrite_path] at hpath
      exact hpath.symm
  next => exact absurd hfl (by simp)

section Tap

variable {w : AppWorld Client S} {s : S} {post : Post} {k : Option Error → Program Client}

omit [DecidableEq S] in
/-- The count of a current copy is that of the post, so the guard lets an unlike pass. -/
theorem CountInv.tapPasses (h : CountInv uidOf w) (hcopy : CopyCurrent w s (uidOf s) post) :
    post.tapPasses = true := by
  obtain ⟨d, hd, hlikes⟩ := Option.bind_eq_some_iff.mp hcopy.likes
  have hcounted := h.counted post.postId
  rw [hd] at hcounted
  unfold Post.tapPasses
  cases hlike : post.didLike with
  | false => rfl
  | true =>
    have hpos := hcounted.pos (u := uidOf s) hlikes (by rw [hcopy.flag, hlike])
    simpa using hpos

omit [DecidableEq S] in
/-- Nobody else is writing what the tap writes. -/
theorem CountInv.solo_tap (h : CountInv uidOf w) (hcopy : CopyCurrent w s (uidOf s) post)
    {path : Path} (hpath : IsLikePath path) :
    (document path).Solo (w.pool ++ (tapFlights (uidOf s) post k).map fun fl => (s, fl)) := by
  refine (h.solo path hpath).issue ?_
  by_cases hcount : path = ["posts", post.postId]
  · right
    rw [hcount]
    exact hcopy.count_alone
  by_cases hmark : path = ["posts", post.postId, "post-likes", uidOf s]
  · right
    rw [hmark]
    exact hcopy.mark_alone
  · left
    intro fl hfl htouch
    rcases touches_tap hfl htouch with hpath | hpath
    · exact hcount hpath
    · exact hmark hpath

omit [DecidableEq S] in
/-- The count and the mark go together, and no other post is concerned. -/
theorem CountInv.counted_tap (h : CountInv uidOf w) (hcopy : CopyCurrent w s (uidOf s) post)
    (q : String) :
    let taps := (tapFlights (uidOf s) post k).map fun fl => (s, fl)
    Counted ((document ["posts", q]).after taps ((document ["posts", q]).settled w))
      fun u => (document ["posts", q, "post-likes", u]).after taps
        ((document ["posts", q, "post-likes", u]).settled w) := by
  intro taps
  obtain ⟨d, hd, hlikes⟩ := Option.bind_eq_some_iff.mp hcopy.likes
  simp only [taps, after_tap (h.tapPasses hcopy)]
  by_cases hq : q = post.postId
  · subst hq
    have hcounted := h.counted post.postId
    rw [hd] at hcounted
    rw [if_neg (by simp), if_pos rfl, hd, Option.map_some]
    refine hcounted.tap hlikes hcopy.flag fun v => ?_
    by_cases hv : v = uidOf s
    · rw [if_pos (by rw [hv]), if_pos hv]
      cases post.didLike <;> rfl
    · rw [if_neg (by simpa using hv), if_neg (by simp), if_neg hv]
  · have hother : ∀ u, (["posts", q, "post-likes", u] : Path)
        ≠ ["posts", post.postId, "post-likes", uidOf s] := by
      intro u
      simp [hq]
    have hmark : ∀ u, (["posts", q, "post-likes", u] : Path) ≠ ["posts", post.postId] := by
      intro u
      simp
    simp only [if_neg (hother _), if_neg (hmark _)]
    rw [if_neg (by simp), if_neg (by simpa using hq)]
    exact h.counted q

end Tap

/-- A tap on a current copy keeps the invariant. -/
theorem CountInv.tap {w : AppWorld Client S} (h : CountInv uidOf w) {s : S} {c cell : Nat}
    {e : Turn} (he : SignedIn uidOf s e)
    (hcurrent : ∀ post ∈ (((w.client s).feeds c).cells cell).post,
      CopyCurrent w s (uidOf s) post) :
    CountInv uidOf (w.turn s (FeedController.didTapLike c cell) e w.pool) := by
  have hexec := exec_didTapLike he c cell (w.client s)
  split at hexec
  next post user hpost htab =>
    have hcopy := hcurrent post hpost
    have hpool : (w.turn s (FeedController.didTapLike c cell) e w.pool).pool
        = w.pool
          ++ (tapFlights (uidOf s) post (didTap c cell post user)).map fun fl => (s, fl) := by
      rw [World.turn_pool, hexec]
    have hsettled : ∀ path, (document path).settled
        (w.turn s (FeedController.didTapLike c cell) e w.pool)
        = (document path).after ((tapFlights (uidOf s) post (didTap c cell post user)).map
          fun fl => (s, fl)) ((document path).settled w) := by
      intro path
      rw [Register.settled_invoke, hexec]
    refine ⟨fun x hx => ?_, fun path hpath => ?_, fun q => ?_⟩
    · rw [hpool] at hx
      rcases List.mem_append.mp hx with hx | hx
      · exact h.tails x hx
      · obtain ⟨fl, hfl, rfl⟩ := List.mem_map.mp hx
        exact tail_tapFlights hfl
    · rw [hpool]
      exact h.solo_tap hcopy hpath
    · simp only [hsettled]
      exact h.counted_tap hcopy q
  next =>
    have hpool : (w.turn s (FeedController.didTapLike c cell) e w.pool).pool = w.pool := by
      rw [World.turn_pool, hexec]
      simp
    have hsettled : ∀ path, (document path).settled
        (w.turn s (FeedController.didTapLike c cell) e w.pool) = (document path).settled w := by
      intro path
      rw [Register.settled, hpool]
      rfl
    refine ⟨?_, ?_, fun q => ?_⟩
    · rw [hpool]
      exact h.tails
    · rw [hpool]
      exact h.solo
    · simp only [hsettled]
      exact h.counted q

/-- The side condition of the runs: no write fails, automatic identifiers are fresh, no
post is deleted, and every tap works on a current copy. -/
def CurrentTaps (uidOf : S → String) (w : AppWorld Client S) (ev : AppEvent S Action) : Prop :=
  Plain uidOf w ev ∧ FreshIds w ev ∧ NoDeletes w ev ∧ TapsCurrent uidOf w ev

/-- **One step.** -/
theorem CountInv.stepped {w w' : AppWorld Client S} {ev : AppEvent S Action}
    (h : CountInv uidOf w) (hok : CurrentTaps uidOf w ev)
    (hstep : Stepped api Action.program w ev w') : CountInv uidOf w' := by
  obtain ⟨⟨henv, hhealthy⟩, hfresh, hdelete, hcurrent⟩ := hok
  cases hstep with
  | invoke s a e =>
    by_cases hlike : a.isLikeTap = true
    · cases a with
      | likeTap c cell => exact h.tap henv hcurrent
      | _ => exact absurd hlike (by simp [Action.isLikeTap])
    · refine h.turn (fun _ hx => hx) (fun _ => rfl) ?_ henv hfresh
      exact a.keeps_uploads (by simpa using hlike) hdelete
  | serve hpool hfifo hserve =>
    rename_i pre post s r k o b y
    have hsettled : ∀ path, IsLikePath path → (document path).settled
        ({ w with backend := b, pool := pre ++ (s, .served r (k y)) :: post } :
          AppWorld Client S) = (document path).settled w := by
      intro path hpath
      refine Register.settled_serve (document_lawful path) hpool hfifo hserve ?_ (h.solo path hpath)
      rintro ⟨write, rfl, -⟩
      exact hhealthy (s, .issued (.write write) k) (getElem?_split hpool) rfl
    refine ⟨fun x hx => ?_, fun path hpath => ?_, fun q => ?_⟩
    · simp only [List.mem_append, List.mem_cons] at hx
      rcases hx with hx | rfl | hx
      · exact h.tails x (mem_split_left hpool hx)
      · exact h.tails (s, .issued r k) (mem_split hpool) y (repliesWith_true r y)
      · exact h.tails x (mem_split_right hpool hx)
    · have hsolo := h.solo path hpath
      rw [hpool] at hsolo
      exact hsolo.serve
    · have hmarks := fun u => hsettled ["posts", q, "post-likes", u] (Or.inr ⟨q, u, rfl⟩)
      rw [hsettled _ (Or.inl ⟨q, rfl⟩)]
      simp only [hmarks]
      exact h.counted q
  | deliver hpool hfifo =>
    rename_i pre post s r p e
    have hmem : (s, Flight.served r p) ∈ w.pool := mem_split hpool
    refine h.turn (fun x hx => ?_) (fun path => ?_) (h.tails _ hmem) (henv.deliver hpool) hfresh
    · exact mem_split_rest hpool hx
    · rw [Register.settled, hpool, Register.after_append, Register.after_append,
        Register.after_served]
      rfl
  | drop hpool => exact absurd hhealthy id

omit [DecidableEq S] in
/-- The number of marks of a post is the number of documents in `post-likes`. -/
theorem Counted.of_store {b : Backend} {p : String}
    (h : Counted (b.docs.lookup ["posts", p])
      fun u => b.docs.lookup ["posts", p, "post-likes", u]) :
    ∀ d, b.docs.lookup ["posts", p] = some d →
      d.int "likes" = some ((b.docs.ids ["posts", p, "post-likes"]).length : Int) := by
  intro d hd
  obtain ⟨likers, hnodup, hmem, hcount⟩ := h d hd
  have hperm : likers.Perm (b.docs.ids ["posts", p, "post-likes"]) := by
    refine (List.perm_ext_iff_of_nodup hnodup (b.docs.nodup_ids _)).mpr fun u => ?_
    rw [hmem, Store.mem_ids]
    rfl
  rw [hcount, hperm.length_eq]

omit [DecidableEq S] in
theorem Counted.to_store {b : Backend} {p : String}
    (h : ∀ d, b.docs.lookup ["posts", p] = some d →
      d.int "likes" = some ((b.docs.ids ["posts", p, "post-likes"]).length : Int)) :
    Counted (b.docs.lookup ["posts", p])
      fun u => b.docs.lookup ["posts", p, "post-likes", u] := by
  intro d hd
  refine ⟨b.docs.ids ["posts", p, "post-likes"], b.docs.nodup_ids _, fun u => ?_, h d hd⟩
  rw [Store.mem_ids]
  rfl

/-- The counter of a post is right, and a user with a mark is not held up by the guard of
`unlikePost` when he works on a fresh copy. -/
structure LikesCounted (b : Backend) (p : String) : Prop where
  count : ∀ d, b.docs.lookup ["posts", p] = some d →
    d.int "likes" = some ((b.docs.ids ["posts", p, "post-likes"]).length : Int)
  unblocked : ∀ d u now, b.docs.lookup ["posts", p] = some d →
    b.exists ["posts", p, "post-likes", u] = true → 0 < (Post.init now p d).likes

/-- **Like counter equals like set.** Any number of users, sessions and posts, every
action but a deletion, any interleaving: when every tap works on a current copy, then
whenever nothing is in flight every post's counter is the number of its marks. -/
theorem likeCount_eq {w₀ w : AppWorld Client S} (hrest : w₀.Quiescent)
    (hcounted : ∀ p d, w₀.backend.docs.lookup ["posts", p] = some d →
      d.int "likes" = some ((w₀.backend.docs.ids ["posts", p, "post-likes"]).length : Int))
    {es : List (AppEvent S Action)}
    (run : Run api Action.program (CurrentTaps uidOf) w₀ es w) (hquiet : w.Quiescent)
    (p : String) : LikesCounted w.backend p := by
  have hinit : CountInv uidOf w₀ := by
    have hsettled : ∀ path, (document path).settled w₀ = w₀.backend.docs.lookup path :=
      fun path => Register.settled_rest hrest
    refine ⟨fun x hx => ?_, fun path _ => ?_, fun q => ?_⟩
    · rw [hrest] at hx
      exact absurd hx (by simp)
    · rw [hrest]
      exact Register.Solo.nil
    · simp only [hsettled]
      exact Counted.to_store (hcounted q)
  have hend : CountInv uidOf w :=
    run.invariant (I := fun _ w => CountInv uidOf w) hinit
      fun _ _ _ _ hw hok hstep => hw.stepped hok hstep
  have hsettled : ∀ path, (document path).settled w = w.backend.docs.lookup path :=
    fun path => Register.settled_rest hquiet
  have hfinal := hend.counted p
  simp only [hsettled] at hfinal
  refine ⟨hfinal.of_store, fun d u now hd hu => ?_⟩
  have hlikes := hfinal.of_store d hd
  rw [hd] at hfinal
  rw [Post.init_likes, hlikes, Option.getD_some]
  exact hfinal.pos hlikes hu

end Runs

/-! ## Taps on current and on stale copies -/

instance {S : Type} (w : AppWorld Client S) (ev : AppEvent S Action) :
    Decidable (NoDeletes w ev) :=
  inferInstanceAs (Decidable (ActOk _ w ev))

instance {S : Type} [DecidableEq S] (w : AppWorld Client S) (s : S) (uid : String) (post : Post) :
    Decidable (CopyCurrent w s uid post) :=
  decidable_of_iff
    (((document ["posts", post.postId]).settled w).bind (·.int "likes") = some post.likes
      ∧ ((document ["posts", post.postId, "post-likes", uid]).settled w).isSome = post.didLike
      ∧ (∀ x ∈ w.pool, x.2.waits = true →
        (document ["posts", post.postId]).touches x.2.req → x.1 = s)
      ∧ ∀ x ∈ w.pool, x.2.waits = true →
        (document ["posts", post.postId, "post-likes", uid]).touches x.2.req → x.1 = s)
    ⟨fun ⟨h₁, h₂, h₃, h₄⟩ => ⟨h₁, h₂, h₃, h₄⟩, fun ⟨h₁, h₂, h₃, h₄⟩ => ⟨h₁, h₂, h₃, h₄⟩⟩

instance {S : Type} [DecidableEq S] {uidOf : S → String} (w : AppWorld Client S)
    (ev : AppEvent S Action) : Decidable (TapsCurrent uidOf w ev) :=
  match ev with
  | .invoke s a e => by
    apply Action.casesOn (motive := fun a => Decidable (TapsCurrent uidOf w (.invoke s a e))) a
      <;> intros <;> unfold TapsCurrent <;> infer_instance
  | .serve _ _ => isTrue trivial
  | .deliver _ _ => isTrue trivial
  | .drop _ => isTrue trivial

instance {S : Type} [DecidableEq S] {uidOf : S → String} (w : AppWorld Client S)
    (ev : AppEvent S Action) : Decidable (CurrentTaps uidOf w ev) :=
  inferInstanceAs (Decidable (_ ∧ _))

/-- The replies to a like of `p` by the one session at work. -/
def likeReplies (uid : String) : List (AppEvent String Action) :=
  [.serve 0 (.success []), .serve 1 (.success []), .deliver 0 (turnOf uid), .deliver 0 (turnOf uid),
    .serve 0 (.success [])]

/-- `a` likes `p` in the feed, and the notice of it arrives. -/
def likeAlone : List (AppEvent String Action) :=
  openFeed "a" ++ [.invoke "a" (.likeTap 0 0) (turnOf "a")] ++ likeReplies "a"
    ++ [.deliver 0 (turnWith "a" "n"), .serve 0 (.success []), .deliver 0 (turnOf "a")]

/-- `a` and `b` fetch `p` without likes, and both like it. -/
def likeTogether : List (AppEvent String Action) :=
  openFeed "a" ++ openFeed "b"
    ++ [.invoke "a" (.likeTap 0 0) (turnOf "a"), .invoke "b" (.likeTap 0 0) (turnOf "b"),
      .serve 0 (.success []), .serve 1 (.success []), .serve 2 (.success []),
      .serve 3 (.success []), .deliver 0 (turnOf "a"), .deliver 0 (turnOf "a"),
      .deliver 0 (turnOf "b"), .deliver 0 (turnOf "b"), .serve 0 (.success []),
      .serve 1 (.success []), .deliver 0 (turnWith "a" "n"), .deliver 0 (turnOf "b"),
      .serve 0 (.success []), .deliver 0 (turnOf "a")]

/-- The town's counts are right: its post has no likes and no marks. -/
theorem town_counted (p : String) (d : Doc) (hd : town.docs.lookup ["posts", p] = some d) :
    d.int "likes" = some ((town.docs.ids ["posts", p, "post-likes"]).length : Int) := by
  have hmem : (⟨["posts", p], d⟩ : Sigma fun _ : Path => Doc) ∈ town.docs.entries :=
    AList.mem_lookup_iff.mp hd
  have hentries : town.docs.entries
      = [⟨["posts", "p"], postDoc "b"⟩, ⟨["users", "b"], userDoc "b"⟩,
          ⟨["users", "a"], userDoc "a"⟩] := rfl
  rw [hentries] at hmem
  simp only [List.mem_cons, List.not_mem_nil, or_false, Sigma.mk.injEq, heq_eq_eq] at hmem
  rcases hmem with ⟨hp, rfl⟩ | ⟨hp, -⟩ | ⟨hp, -⟩
  · obtain rfl : p = "p" := by simpa using hp
    rfl
  · exact absurd hp (by simp)
  · exact absurd hp (by simp)

/-- A like from a current copy is counted. -/
theorem likeCount_eq_alone :
    ∃ w, Run api Action.program (CurrentTaps id) townAtRest likeAlone w ∧ w.Quiescent
      ∧ storedLikes w.backend "p" = some 1 ∧ LikesCounted w.backend "p" := by
  obtain ⟨w, run, hquiet, hlikes⟩ : ∃ w, Run api Action.program (CurrentTaps id) townAtRest
      likeAlone w ∧ w.Quiescent ∧ storedLikes w.backend "p" = some 1 :=
    exists_run_of_play (by decide)
  have hrest : townAtRest.Quiescent := rfl
  exact ⟨w, run, hquiet, hlikes, likeCount_eq hrest town_counted run hquiet "p"⟩

/-- Two likes from stale copies count once. -/
theorem likeCount_lost :
    ∃ w, Run api Action.program
        (fun w ev => Plain id w ev ∧ FreshIds w ev ∧ NoDeletes w ev) townAtRest likeTogether w
      ∧ w.Quiescent ∧ storedLikes w.backend "p" = some 1
      ∧ (w.backend.docs.ids ["posts", "p", "post-likes"]).length = 2 :=
  exists_run_of_play (by decide)

end InstaClone
