import InstaClone.Pictures

/-!
# Whether posts carry their owner's name and picture

`uploadPost` writes the name and the picture URL of the `User` it is given into the post.
`updateProfileImage` writes a new URL into the user's document, then asks for the user's
posts and writes it into each of those. `saveUserData` writes the whole document of the
user, and into no post.

So a post whose owner has a new picture is wrong (`Outdated`) until the last of these
writes, and it is the rest of a call of `updateProfileImage` that mends it. `Propagates`
are the flights that bring a URL to a post: from the moment the owner's document has it,
over the query that finds the post, to the write of the post. A wrong name is never mended.
`KeepsOwners` says what every step has to leave to these flights.
-/

namespace InstaClone

open Async

/-! ## The calls -/

/-- The calls that have to do with what a post carries of its owner. -/
inductive OwnerCall where
  | uploadPost (caption : String) (image : UIImage) (user : User)
  | updateProfileImage (user : User) (image : UIImage)
  | saveUserData (user : User)

/-- The code of a call. -/
def OwnerCall.program : OwnerCall → Program Unit
  | uploadPost caption image user => PostService.uploadPost caption image user noCompletion
  | updateProfileImage user image => UserService.updateProfileImage user image fun _ _ => .done
  | saveUserData user => UserService.saveUserData user noCompletion

/-- The write of a new picture into the document of `uid`. -/
abbrev pictureOf (uid url : String) : Write :=
  .updateData ["users", uid] (dict [("profileImageUrl", .string url)])

/-- The write of the picture of its owner into the post `id`. -/
abbrev pictureOn (id url : String) : Write :=
  .updateData ["posts", id] (dict [("ownerImageUrl", .string url)])

/-- The posts of `owner`. -/
def postsOf (owner : String) : Query :=
  { collection := ["posts"], whereField := some ("ownerUid", .string owner) }

/-- The callback of that query in `updateProfileImage`. -/
def didFindPosts (profileImageUrl : String) (snapshot : Option (List (String × Doc))) :
    Program Unit :=
  match snapshot with
  | none => .done
  | some documents =>
    .forEach documents fun document =>
      updateData ["posts", document.1] (dict [("ownerImageUrl", .string profileImageUrl)])
        noCompletion

theorem didUpdatePicture_none (user : User) (profileImageUrl : String) :
    didUpdatePicture user profileImageUrl none
      = .call (.getDocuments (postsOf user.uid)) (didFindPosts profileImageUrl) .done := by
  refine congrArg (fun k => Prog.call _ k _) (funext fun snapshot => ?_)
  cases snapshot <;> rfl

/-! ## What is in flight -/

/-- The flight brings the picture `url` of `uid` to the post `id`. -/
inductive Propagates :
    Flight Request Response Turn Unit → (id uid url : String) → Prop
  | updated (r user url id) :
      Propagates (.served r (didUpdatePicture user url none)) id user.uid url
  | querying (id uid url) :
      Propagates (.issued (.getDocuments (postsOf uid)) (didFindPosts url)) id uid url
  | found (r documents id uid url) (hid : id ∈ documents.map Prod.fst) :
      Propagates (.served r (didFindPosts url (some documents))) id uid url
  | copying (id uid url) :
      Propagates (.issued (.write (pictureOn id url)) noCompletion) id uid url

/-- It does not update or delete a document. -/
def WritesWhole : Request → Prop
  | .write (.updateData _ _) => False
  | .write (.delete _) => False
  | _ => True

/-- What the calls issue: the two writes of `updateProfileImage`, and what neither updates
nor deletes a document. -/
inductive OwnerRequest : (r : Request) → (Response r → Program Unit) → Prop
  | whole {r k} (h : WritesWhole r) : OwnerRequest r k
  | picture (user : User) (url : String) :
      OwnerRequest (.write (pictureOf user.uid url)) (didUpdatePicture user url)
  | copy (id url : String) {k} : OwnerRequest (.write (pictureOn id url)) k

/-! ## When posts carry their owner's name and picture -/

/-- The post `id` is `d`, of the owner with the document `u`, and carries his name. -/
structure Signed (b : Backend) (id uid : String) (d u : Doc) : Prop where
  post : b.docs.lookup ["posts", id] = some d
  owner : d "ownerUid" = some (.string uid)
  user : b.docs.lookup ["users", uid] = some u
  name : d "ownerUsername" = u "username"

/-- The post does not carry the name and the picture of its owner. -/
def Outdated (b : Backend) (id : String) : Prop :=
  ∃ d, b.docs.lookup ["posts", id] = some d
    ∧ ¬ ∃ uid u, Signed b id uid d u ∧ d "ownerImageUrl" = u "profileImageUrl"

/-- The post carries the name of its owner, and the flight brings his picture to it. -/
def Mends (b : Backend) (id : String) (fl : Flight Request Response Turn Unit) : Prop :=
  ∃ uid d u url, Signed b id uid d u ∧ u "profileImageUrl" = some (.string url)
    ∧ Propagates fl id uid url

variable {S : Type}

/-- Whatever post is outdated, something in `pool` brings it up to date. -/
def OutdatedMended (b : Backend) (pool : List (S × Flight Request Response Turn Unit)) : Prop :=
  ∀ id, Outdated b id → ∃ x ∈ pool, Mends b id x.2

/-- Something in `pool` brings the picture in `u`, the document of `uid`, to the post `id`. -/
def OnItsWay (pool : List (S × Flight Request Response Turn Unit)) (id uid : String) (u : Doc) :
    Prop :=
  ∃ url, u "profileImageUrl" = some (.string url) ∧ ∃ x ∈ pool, Propagates x.2 id uid url

/-- The post `d` at `id` carries the picture in `u`, the document of `uid`, or that is on its
way to it. -/
def Pictured (pool : List (S × Flight Request Response Turn Unit)) (id uid : String) (d u : Doc) :
    Prop :=
  d "ownerImageUrl" = u "profileImageUrl" ∨ OnItsWay pool id uid u

/-- The write may succeed, while `others` is in flight. The whole document of a user: it has
the name that his posts carry, and a picture that they carry or that is on its way to them.
A whole post, or the picture of a post: it carries what its owner's document has, or that
picture is on its way to it. -/
def MayCommit (b : Backend) (others : List (S × Flight Request Response Turn Unit)) :
    Request → Prop
  | .write (.setData ["users", uid] saved) =>
    ∀ id d, b.docs.lookup ["posts", id] = some d → d "ownerUid" = some (.string uid) →
      d "ownerUsername" = saved "username" ∧ Pictured others id uid d saved
  | .write (.setData ["posts", id] data) =>
    ∃ uid u, data "ownerUid" = some (.string uid) ∧ b.docs.lookup ["users", uid] = some u
      ∧ data "ownerUsername" = u "username" ∧ Pictured others id uid data u
  | .write (.updateData ["posts", id] fields) =>
    ∀ uid d u, Signed b id uid d u → Pictured others id uid fields u
  | _ => True

/-- A picture is changed by its own user, every write that succeeds may, and no request fails
and no callback is lost that alone brings a post up to date. -/
def KeepsOwners (w : AppWorld Unit S) : AppEvent S OwnerCall → Prop
  | .invoke _ (.updateProfileImage user _) turn => ∀ uid ∈ turn.currentUid, user.uid = uid
  | .serve i o =>
    (o.isSuccess = true → ∀ x ∈ w.pool[i]?, MayCommit w.backend (w.pool.eraseIdx i) x.2.req)
      ∧ (o.isSuccess = false → OutdatedMended w.backend (w.pool.eraseIdx i))
  | .drop i => OutdatedMended w.backend (w.pool.eraseIdx i)
  | _ => True

/-! ## The turns -/

theorem calls_didUpdatePicture (user : User) (url : String) (error : Option Error) :
    (didUpdatePicture user url error).Calls OwnerRequest := by
  cases error with
  | some error => trivial
  | none =>
    rw [didUpdatePicture_none]
    refine ⟨.whole trivial, fun snapshot => ?_, trivial⟩
    cases snapshot with
    | none => trivial
    | some documents =>
      exact .forEach fun document => ⟨.copy document.1 url, fun _ => trivial, trivial⟩

/-- The upload of a picture issues nothing else, and the turn after it writes the URL. -/
theorem calls_writePicture (user : User) (image : UIImage) :
    (ImageUploader.uploadImage image (writePicture user.uid user)).Calls OwnerRequest := by
  unfold ImageUploader.uploadImage
  split
  next => trivial
  next imageData =>
    refine fun turn => ⟨.whole trivial, fun error => ?_, trivial⟩
    cases error with
    | some error => trivial
    | none =>
      refine ⟨.whole trivial, fun url => ?_, trivial⟩
      cases url with
      | none => trivial
      | some url => exact ⟨.picture user url, calls_didUpdatePicture user url, trivial⟩

/-- What an action has in flight are such calls. -/
theorem calls_program {w : AppWorld Unit S} {s : S} {call : OwnerCall} {turn : Turn}
    (hok : KeepsOwners w (.invoke s call turn)) :
    ∀ fl ∈ (call.program.exec turn (w.client s)).2, fl.Calls OwnerRequest := by
  cases call with
  | uploadPost caption image user =>
    have hspares : (OwnerCall.uploadPost caption image user).program.Spares WritesWhole id :=
      spares_uploadPost (fun _ _ => trivial) (fun _ => trivial) (fun _ _ => trivial)
        fun _ => trivial
    exact (hspares.calls fun r h k => .whole h).exec turn _
  | saveUserData user =>
    have hspares : (OwnerCall.saveUserData user).program.Spares WritesWhole id :=
      spares_saveUserData (fun _ => trivial) fun _ => trivial
    exact (hspares.calls fun r h k => .whole h).exec turn _
  | updateProfileImage user image =>
    have hprogram : (OwnerCall.updateProfileImage user image).program
        = (PictureCall.updateProfileImage user image).program := rfl
    rw [hprogram, program_updateProfileImage]
    unfold withCurrentUid
    rw [Prog.exec_ask]
    cases hcurrent : turn.currentUid with
    | none => exact fun fl hfl => absurd hfl (by simp)
    | some uid =>
      obtain rfl : user.uid = uid := hok uid hcurrent
      dsimp only
      split
      case isFalse => exact fun fl hfl => absurd hfl (List.not_mem_nil)
      have hcalls : (Prog.call (.deleteObject user.profileImageUrl) (fun _ => .done)
          (ImageUploader.uploadImage image (writePicture user.uid user)) : Program Unit).Calls
            OwnerRequest :=
        ⟨.whole trivial, fun _ => trivial, calls_writePicture user image⟩
      exact hcalls.exec turn _

/-- A callback on the way to the post issues the next request. -/
theorem Propagates.deliver {r : Request} {p : Program Unit} {id uid url : String}
    (h : Propagates (.served r p) id uid url) (turn : Turn) (s : Unit) :
    ∃ fl ∈ (p.exec turn s).2, Propagates fl id uid url := by
  generalize hfl : Flight.served r p = fl at h
  cases h with
  | updated r user url id =>
    obtain ⟨rfl, rfl⟩ := Flight.served.inj hfl
    rw [didUpdatePicture_none, Prog.exec_call]
    exact ⟨_, List.mem_cons_self .., .querying id user.uid url⟩
  | found r documents id uid url hid =>
    obtain ⟨rfl, rfl⟩ := Flight.served.inj hfl
    obtain ⟨document, hdocument, rfl⟩ := List.mem_map.mp hid
    unfold didFindPosts
    dsimp only
    rw [Prog.exec_forEach_issue (fun _ => rfl)]
    exact ⟨_, List.mem_map_of_mem hdocument, .copying document.1 uid url⟩
  | _ => exact absurd hfl (by simp)

/-! ## Serving a request -/

/-- What waits on the way to a post is the query for it, or the write of it. -/
theorem Propagates.request {r : Request} {k : Response r → Program Unit} {id uid url : String}
    (h : Propagates (.issued r k) id uid url) :
    r = .getDocuments (postsOf uid) ∨ ∃ fields, r = .write (.updateData ["posts", id] fields) := by
  generalize hfl : Flight.issued r k = fl at h
  cases h with
  | querying id uid url => exact Or.inl (congrArg Flight.req hfl)
  | copying id uid url => exact Or.inr ⟨_, congrArg Flight.req hfl⟩
  | _ => exact absurd hfl (by simp)

/-- The query finds the post. -/
theorem Propagates.query {b b' : Backend} {q : Query}
    {k : Response (.getDocuments q) → Program Unit} {o : Outcome}
    {y : Option (List (String × Doc))} {id uid url : String} {d u : Doc}
    (h : Propagates (.issued (.getDocuments q) k) id uid url) (hsigned : Signed b id uid d u)
    (ho : o.isSuccess = true) (hserve : serve b (.getDocuments q) o = some (b', y)) :
    Propagates (.served (.getDocuments q) (k y)) id uid url := by
  generalize hfl : Flight.issued (Request.getDocuments q) k = fl at h
  cases h with
  | querying id uid url =>
    obtain ⟨hq, hk⟩ := Flight.issued.inj hfl
    obtain rfl := Request.getDocuments.inj hq
    obtain rfl := eq_of_heq hk
    obtain ⟨-, documents, rfl, hperm⟩ := serve_getDocuments_success ho hserve
    refine .found _ documents id uid url (List.mem_map.mpr ⟨(id, d), ?_, rfl⟩)
    refine hperm.mem_iff.mpr (Query.mem_results.mpr ⟨hsigned.post, ?_⟩)
    simp [postsOf, Query.selects, hsigned.owner]
  | _ => exact absurd hfl (by simp)

/-- Serving something else on the way to a post, or nothing, keeps its picture on the way. -/
theorem Pictured.mono {pool pool' : List (S × Flight Request Response Turn Unit)}
    {id uid : String} {d u : Doc} (h : Pictured pool id uid d u)
    (hsub : ∀ url, ∀ x ∈ pool, Propagates x.2 id uid url →
      ∃ x' ∈ pool', Propagates x'.2 id uid url) : Pictured pool' id uid d u := by
  rcases h with heq | ⟨url, hu, x, hx, hprop⟩
  · exact Or.inl heq
  · exact Or.inr ⟨url, hu, hsub url x hx hprop⟩

section Runs

variable {w₀ w w' : AppWorld Unit S} {es : List (AppEvent S OwnerCall)}
  {pre post : List (S × Flight Request Response Turn Unit)} {s : S} {r : Request}
  {k : Response r → Program Unit} {o : Outcome} {b : Backend} {y : Response r}

/-- While outdated posts are mended, every post carries the name of its owner, and his
picture or that is on its way. -/
theorem signed_of_mending (h : Mending Outdated Mends w) {id : String} {d : Doc}
    (hd : w.backend.docs.lookup ["posts", id] = some d) :
    ∃ uid u, Signed w.backend id uid d u ∧ Pictured w.pool id uid d u := by
  by_cases hout : Outdated w.backend id
  · obtain ⟨x, hx, uid, d', u, url, hsigned, hu, hprop⟩ := h id hout
    obtain rfl := Option.some.inj (hd.symm.trans hsigned.post)
    exact ⟨uid, u, hsigned, Or.inr ⟨url, hu, x, hx, hprop⟩⟩
  · have hcurrent : ∃ uid u, Signed w.backend id uid d u
        ∧ d "ownerImageUrl" = u "profileImageUrl" := by
      by_contra hnone
      exact hout ⟨d, hd, hnone⟩
    obtain ⟨uid, u, hsigned, heq⟩ := hcurrent
    exact ⟨uid, u, hsigned, Or.inl heq⟩

/-- And the other way round. -/
theorem mended_of_signed {pool : List (S × Flight Request Response Turn Unit)} {id : String}
    (h : ∀ d, b.docs.lookup ["posts", id] = some d →
      ∃ uid u, Signed b id uid d u ∧ Pictured pool id uid d u) (hout : Outdated b id) :
    ∃ x ∈ pool, Mends b id x.2 := by
  obtain ⟨d, hd, hnot⟩ := hout
  obtain ⟨uid, u, hsigned, heq | ⟨url, hu, x, hx, hprop⟩⟩ := h d hd
  · exact absurd ⟨uid, u, hsigned, heq⟩ hnot
  · exact ⟨x, hx, uid, d, u, url, hsigned, hu, hprop⟩

/-- A post that stays as it is, like the document of its owner, is outdated only if it was,
and what was on its way to it still is. -/
theorem signed_of_same (h : Mending Outdated Mends w)
    (hpool : w.pool = pre ++ (s, .issued r k) :: post) {id : String} {d : Doc}
    (hd : b.docs.lookup ["posts", id] = some d)
    (hposts : b.docs.lookup ["posts", id] = w.backend.docs.lookup ["posts", id])
    (husers : ∀ uid, d "ownerUid" = some (.string uid) →
      b.docs.lookup ["users", uid] = w.backend.docs.lookup ["users", uid])
    (hprop : ∀ uid u url, Signed w.backend id uid d u → Propagates (.issued r k) id uid url →
      Propagates (.served r (k y)) id uid url) :
    ∃ uid u, Signed b id uid d u ∧ Pictured (pre ++ (s, .served r (k y)) :: post) id uid d u := by
  obtain ⟨uid, u, hsigned, hpictured⟩ := signed_of_mending h (hposts.symm.trans hd)
  refine ⟨uid, u, ⟨hd, hsigned.owner, (husers uid hsigned.owner).trans hsigned.user,
    hsigned.name⟩, hpictured.mono fun url x hx hx' => ?_⟩
  rw [hpool, List.mem_append, List.mem_cons] at hx
  rcases hx with hx | rfl | hx
  · exact ⟨x, by simp [hx], hx'⟩
  · exact ⟨(s, .served r (k y)), by simp, hprop uid u url hsigned hx'⟩
  · exact ⟨x, by simp [hx], hx'⟩

/-- What others bring to a post they still do, whatever happens to one flight. -/
theorem Pictured.others {x : S × Flight Request Response Turn Unit} {id uid : String} {d u : Doc}
    (h : Pictured (pre ++ post) id uid d u) : Pictured (pre ++ x :: post) id uid d u := by
  refine h.mono fun url y hy hprop => ⟨y, ?_, hprop⟩
  rcases List.mem_append.mp hy with hy | hy <;> simp [hy]

/-- A committed write touches no other document. -/
theorem serve_write_ne {b b' : Backend} {write : Write} {o : Outcome} {y : Option Error}
    (hserve : serve b (.write write) o = some (b', y)) {path : Path} (hne : path ≠ write.path) :
    b'.docs.lookup path = b.docs.lookup path := by
  refine serve_lookup_ne hserve ?_
  rintro write' ⟨rfl⟩
  exact hne

/-- A whole document is written. -/
theorem signed_setData {path : Path} {data : Doc} {k : Option Error → Program Unit}
    {y : Option Error} (h : Mending Outdated Mends w)
    (hpool : w.pool = pre ++ (s, .issued (.write (.setData path data)) k) :: post)
    (hserve : serve w.backend (.write (.setData path data)) o = some (b, y))
    (hsuccess : o.isSuccess = true)
    (hok : MayCommit w.backend (pre ++ post) (.write (.setData path data))) {id : String} {d : Doc}
    (hd : b.docs.lookup ["posts", id] = some d) :
    ∃ uid u, Signed b id uid d u
      ∧ Pictured (pre ++ (s, .served (.write (.setData path data)) (k y)) :: post) id uid d u := by
  have hne : ∀ path', path' ≠ path → b.docs.lookup path' = w.backend.docs.lookup path' :=
    fun _ => serve_write_ne hserve
  have hlook : b.docs.lookup path = some data := by
    rcases serve_write_success hsuccess hserve with ⟨-, docs, hdocs, rfl⟩ | ⟨-, hnone, -⟩
    · exact Write.lookup_apply hdocs
    · exact absurd hnone (by simp [Write.apply])
  by_cases hpost : path = ["posts", id]
  · -- the post itself
    subst hpost
    obtain rfl := Option.some.inj (hlook.symm.trans hd)
    obtain ⟨uid, u, howner, hu, hname, hpictured⟩ := hok
    exact ⟨uid, u, ⟨hd, howner, (hne _ (by simp)).trans hu, hname⟩, hpictured.others⟩
  · have hposts := hne _ (Ne.symm hpost)
    by_cases huser : ∃ uid, path = ["users", uid] ∧ d "ownerUid" = some (.string uid)
    · -- the document of its owner
      obtain ⟨uid, rfl, howner⟩ := huser
      obtain ⟨hname, hpictured⟩ := hok id d (hposts.symm.trans hd) howner
      exact ⟨uid, data, ⟨hd, howner, hlook, hname⟩, hpictured.others⟩
    · refine signed_of_same h hpool hd hposts (fun uid howner => hne _ ?_) ?_
      · rintro rfl
        exact huser ⟨uid, rfl, howner⟩
      · intro uid u url _ hprop
        rcases hprop.request with hreq | ⟨fields, hreq⟩ <;> exact absurd hreq (by simp)

/-- The document of a user gets a new picture: that is now on its way to all of his posts. -/
theorem signed_pictureOf {user : User} {url : String} {y : Option Error}
    (h : Mending Outdated Mends w)
    (hpool : w.pool
      = pre ++ (s, .issued (.write (pictureOf user.uid url)) (didUpdatePicture user url)) :: post)
    (hserve : serve w.backend (.write (pictureOf user.uid url)) o = some (b, y))
    {id : String} {d : Doc} (hd : b.docs.lookup ["posts", id] = some d) :
    ∃ uid u, Signed b id uid d u
      ∧ Pictured (pre ++ (s, .served (.write (pictureOf user.uid url))
          (didUpdatePicture user url y)) :: post) id uid d u := by
  have hne : ∀ path, path ≠ ["users", user.uid] →
      b.docs.lookup path = w.backend.docs.lookup path := fun _ => serve_write_ne hserve
  have hposts := hne ["posts", id] (by simp)
  by_cases hcommitted : y = none ∧ d "ownerUid" = some (.string user.uid)
  · obtain ⟨rfl, howner⟩ := hcommitted
    obtain ⟨uid, u, hsigned, -⟩ := signed_of_mending h (hposts.symm.trans hd)
    obtain rfl : user.uid = uid := by simpa using howner.symm.trans hsigned.owner
    have hlook : b.docs.lookup ["users", user.uid]
        = some (u.merge (dict [("profileImageUrl", .string url)])) := by
      rcases serve_write hserve with ⟨-, docs, hdocs, rfl⟩ | ⟨⟨error, herror⟩, -⟩
      · exact (Write.lookup_apply hdocs).trans (congrArg _ hsigned.user)
      · exact absurd herror (by simp)
    exact ⟨user.uid, _, ⟨hd, howner, hlook, hsigned.name⟩,
      Or.inr ⟨url, rfl, _, List.mem_append_right _ (List.mem_cons_self ..),
        .updated _ user url id⟩⟩
  · refine signed_of_same h hpool hd hposts (fun uid howner => ?_) ?_
    · rcases serve_write hserve with ⟨rfl, -⟩ | ⟨-, rfl⟩
      · refine hne _ ?_
        rintro ⟨rfl⟩
        exact hcommitted ⟨rfl, howner⟩
      · rfl
    · intro uid u url' _ hprop
      rcases hprop.request with hreq | ⟨fields, hreq⟩ <;> exact absurd hreq (by simp)

/-- The picture on a post is written. -/
theorem signed_pictureOn {id' url : String} {k : Option Error → Program Unit} {y : Option Error}
    (h : Mending Outdated Mends w)
    (hpool : w.pool = pre ++ (s, .issued (.write (pictureOn id' url)) k) :: post)
    (hserve : serve w.backend (.write (pictureOn id' url)) o = some (b, y))
    (hsuccess : o.isSuccess = true)
    (hok : MayCommit w.backend (pre ++ post) (.write (pictureOn id' url)))
    {id : String} {d : Doc} (hd : b.docs.lookup ["posts", id] = some d) :
    ∃ uid u, Signed b id uid d u
      ∧ Pictured (pre ++ (s, .served (.write (pictureOn id' url)) (k y)) :: post) id uid d u := by
  have hne : ∀ path, path ≠ ["posts", id'] →
      b.docs.lookup path = w.backend.docs.lookup path := fun _ => serve_write_ne hserve
  by_cases hid : id = id'
  · subst hid
    rcases serve_write_success hsuccess hserve with ⟨-, docs, hdocs, rfl⟩ | ⟨-, hnone, rfl⟩
    · obtain ⟨d', hd', rfl⟩ := Option.map_eq_some_iff.mp
        ((Write.lookup_apply hdocs).symm.trans hd)
      obtain ⟨uid, u, hsigned, -⟩ := signed_of_mending h hd'
      -- the rest of the post is as it was
      exact ⟨uid, u, ⟨hd, hsigned.owner, (hne _ (by simp)).trans hsigned.user, hsigned.name⟩,
        Pictured.others (hok uid d' u hsigned)⟩
    · rw [Write.apply, hd] at hnone
      exact absurd hnone (by simp)
  · refine signed_of_same h hpool hd (hne _ (by simp [hid])) (fun uid _ => hne _ (by simp)) ?_
    intro uid u url' _ hprop
    rcases hprop.request with hreq | ⟨fields, hreq⟩
    · exact absurd hreq (by simp)
    · exact absurd hreq (by simp [Ne.symm hid])

/-- A request has been answered: every post carries the name of its owner, and his picture or
that is on its way. -/
theorem signed_serve (hrequest : OwnerRequest r k) (h : Mending Outdated Mends w)
    (hpool : w.pool = pre ++ (s, .issued r k) :: post)
    (hserve : serve w.backend r o = some (b, y)) (hsuccess : o.isSuccess = true)
    (hok : MayCommit w.backend (pre ++ post) r) {id : String} {d : Doc}
    (hd : b.docs.lookup ["posts", id] = some d) :
    ∃ uid u, Signed b id uid d u ∧ Pictured (pre ++ (s, .served r (k y)) :: post) id uid d u := by
  cases hrequest with
  | picture user url => exact signed_pictureOf h hpool hserve hd
  | copy id url => exact signed_pictureOn h hpool hserve hsuccess hok hd
  | whole hwhole =>
    -- where nothing is written, only the query for the posts of a user matters
    have hreads : (∀ write, r ≠ .write write) → (∀ q, r ≠ .getDocuments q) →
        ∃ uid u, Signed b id uid d u
          ∧ Pictured (pre ++ (s, .served r (k y)) :: post) id uid d u := by
      intro hwrite hquery
      have hdocs := serve_docs hserve hwrite
      refine signed_of_same h hpool hd (by rw [hdocs]) (fun _ _ => by rw [hdocs]) ?_
      intro uid u url _ hprop
      rcases hprop.request with hreq | ⟨fields, hreq⟩
      · exact absurd hreq (hquery _)
      · exact absurd hreq (hwrite _)
    cases r with
    | write write =>
      cases write with
      | setData path data => exact signed_setData h hpool hserve hsuccess hok hd
      | updateData path fields => exact hwhole.elim
      | delete path => exact hwhole.elim
    | getDocuments q =>
      have hdocs := serve_docs hserve (by simp)
      refine signed_of_same h hpool hd (by rw [hdocs]) (fun _ _ => by rw [hdocs]) ?_
      exact fun uid u url hsigned hprop => hprop.query hsigned hsuccess hserve
    | _ => exact hreads (by simp) (by simp)

variable [DecidableEq S]

/-- What is in flight issues the requests of these calls only, and outdated posts are
mended. -/
structure OwnerInv (w : AppWorld Unit S) : Prop where
  calls : ∀ x ∈ w.pool, x.2.Calls OwnerRequest
  mending : Mending Outdated Mends w

omit [DecidableEq S] in
theorem OwnerInv.serve (h : OwnerInv w) (hpool : w.pool = pre ++ (s, .issued r k) :: post)
    (hserve : api.serve w.backend r o = some (b, y))
    (hok : KeepsOwners w (.serve pre.length o)) :
    OwnerInv { w with backend := b, pool := pre ++ (s, .served r (k y)) :: post } := by
  have hget : w.pool[pre.length]? = some (s, .issued r k) := getElem?_split hpool
  have hothers : w.pool.eraseIdx pre.length = pre ++ post := by rw [hpool, eraseIdx_middle]
  have hcalls : (Flight.issued r k).Calls OwnerRequest := h.calls _ (List.mem_of_getElem? hget)
  constructor
  · intro x hx
    simp only [List.mem_append, List.mem_cons] at hx
    rcases hx with hx | rfl | hx
    · exact h.calls x (mem_split_left hpool hx)
    · exact hcalls.2 y
    · exact h.calls x (mem_split_right hpool hx)
  · cases hsuccess : o.isSuccess with
    | false =>
      obtain rfl := serve_failure hsuccess hserve
      refine Mending.serve fun id hout => Or.inr ?_
      obtain ⟨x, hx, hmends⟩ := hok.2 hsuccess id hout
      rw [hothers] at hx
      exact ⟨x, hx, hmends⟩
    | true =>
      have hmay : MayCommit w.backend (w.pool.eraseIdx pre.length) r := hok.1 hsuccess _ hget
      rw [hothers] at hmay
      exact fun id hout => mended_of_signed
        (fun d hd => signed_serve hcalls.1 h.mending hpool hserve hsuccess hmay hd) hout

theorem OwnerInv.step {ev : AppEvent S OwnerCall} (h : OwnerInv w) (hok : KeepsOwners w ev)
    (hstep : Stepped api OwnerCall.program w ev w') : OwnerInv w' := by
  cases hstep with
  | invoke t call turn =>
    refine ⟨fun x hx => ?_, h.mending.invoke t call.program turn⟩
    rcases List.mem_append.mp hx with hx | hx
    · exact h.calls x hx
    · obtain ⟨fl, hfl, rfl⟩ := List.mem_map.mp hx
      exact calls_program hok fl hfl
  | serve hpool hfifo hserve => exact h.serve hpool hserve hok
  | deliver hpool hfifo =>
    rename_i pre post t r p turn
    have hcalls : (Flight.served r p).Calls OwnerRequest :=
      h.calls (t, .served r p) (mem_split hpool)
    refine ⟨fun x hx => ?_, h.mending.deliver hpool fun id _ hmends => ?_⟩
    · rcases List.mem_append.mp hx with hx | hx
      · exact h.calls x (mem_split_rest hpool hx)
      · obtain ⟨fl, hfl, rfl⟩ := List.mem_map.mp hx
        exact hcalls.exec turn _ fl hfl
    · obtain ⟨uid, d, u, url, hsigned, hu, hprop⟩ := hmends
      obtain ⟨fl, hfl, hprop'⟩ := hprop.deliver turn (w.client t)
      exact ⟨fl, hfl, uid, d, u, url, hsigned, hu, hprop'⟩
  | drop hpool =>
    rename_i pre post t r p
    have hmended : OutdatedMended w.backend (w.pool.eraseIdx pre.length) := hok
    rw [hpool, eraseIdx_middle] at hmended
    exact ⟨fun x hx => h.calls x (mem_split_rest hpool hx), Mending.drop hmended⟩

/-- **Posts carry their owner's name and picture.** Any calls of `uploadPost`,
`updateProfileImage` and `saveUserData` from any sessions, in any interleaving: as long as
every step keeps the owners, whenever nothing is in flight every post carries the name and
the picture that its owner's document has. -/
theorem owners_current (hrest : w₀.Quiescent) (hstart : ∀ id, ¬ Outdated w₀.backend id)
    (run : Run api OwnerCall.program KeepsOwners w₀ es w) (hquiet : w.Quiescent) {id : String}
    {d : Doc} (hd : w.backend.docs.lookup ["posts", id] = some d) :
    ∃ uid u, d "ownerUid" = some (.string uid) ∧ w.backend.docs.lookup ["users", uid] = some u
      ∧ d "ownerImageUrl" = u "profileImageUrl" ∧ d "ownerUsername" = u "username" := by
  have hinv : OwnerInv w := by
    refine run.invariant (I := fun _ w => OwnerInv w) ⟨?_, fun id h => absurd h (hstart id)⟩
      fun _ _ _ _ h hok hstep => h.step hok hstep
    rw [hrest]
    exact fun x hx => absurd hx List.not_mem_nil
  by_contra hnone
  refine hinv.mending.rest hquiet id ⟨d, hd, ?_⟩
  rintro ⟨uid, u, hsigned, heq⟩
  exact hnone ⟨uid, u, hsigned.owner, hsigned.user, heq, hsigned.name⟩

end Runs

/-! ## Two runs -/

/-- The document of `a`, who calls herself `username`. -/
def namedAnna (username : String) : Doc :=
  dict [("uid", .string "a"), ("username", .string username),
    ("profileImageUrl", .string oldPictureUrl)]

/-- The post of `a`, who calls herself `ann`. -/
def annasPost : Doc :=
  dict [("ownerUid", .string "a"), ("ownerUsername", .string "ann"),
        ("ownerImageUrl", .string oldPictureUrl)]

/-- `a` has one post, which carries her name and picture. -/
def owned : AppWorld Unit Unit :=
  atRest ⟨((∅ : Store).insert ["users", "a"] (namedAnna "ann")).insert ["posts", "p"] annasPost,
    [oldPictureUrl], []⟩ fun _ => ()

theorem owned_current (id : String) : ¬ Outdated owned.backend id := by
  rintro ⟨d, hd, hnot⟩
  by_cases hid : id = "p"
  · subst hid
    obtain rfl : annasPost = d := Option.some.inj hd
    exact hnot ⟨"a", namedAnna "ann", ⟨rfl, rfl, rfl, rfl⟩, rfl⟩
  · have hnone : owned.backend.docs.lookup ["posts", id] = none := by
      unfold owned atRest
      rw [AList.lookup_insert_ne (by simp [hid]), AList.lookup_insert_ne (by simp)]
      rfl
    rw [hnone] at hd
    exact absurd hd (by simp)

/-- `a` changes her picture. -/
def pictureChanged : List (AppEvent Unit OwnerCall) :=
  [.invoke () (.updateProfileImage (User.init (namedAnna "ann")) ⟨some "jpeg"⟩)
      (turnWith "a" "new"),
    .serve 0 (.success []), .deliver 0 (turnOf "a"), .serve 0 (.success []),
    .deliver 0 (turnOf "a"), .serve 0 (.success []), .deliver 0 (turnOf "a"),
    .serve 0 (.success []), .deliver 0 (turnOf "a"), .serve 0 (.success ["p"]),
    .deliver 0 (turnOf "a"), .serve 0 (.success []), .deliver 0 (turnOf "a")]

/-- The request writes no whole document, and onto a post only the picture that its owner's
document has. -/
def Request.copiesCurrent (b : Backend) : Request → Bool
  | .write (.setData _ _) => false
  | .write (.updateData ["posts", id] fields) =>
    (b.docs.lookup ["posts", id]).all fun d =>
      match d "ownerUid" with
      | some (.string uid) =>
        (b.docs.lookup ["users", uid]).all fun u =>
          decide (fields "ownerImageUrl" = u "profileImageUrl")
      | _ => true
  | _ => true

/-- Users change their own pictures, everything succeeds, and the posts get the current
ones. -/
def CopiesCurrent (w : AppWorld Unit S) : AppEvent S OwnerCall → Prop
  | .invoke _ (.updateProfileImage user _) turn => turn.currentUid = some user.uid
  | .serve i o => o.isSuccess = true ∧ ∀ x ∈ w.pool[i]?, x.2.req.copiesCurrent w.backend = true
  | .drop _ => False
  | _ => True

instance (w : AppWorld Unit S) (ev : AppEvent S OwnerCall) : Decidable (CopiesCurrent w ev) := by
  unfold CopiesCurrent
  split <;> infer_instance

theorem CopiesCurrent.keepsOwners {w : AppWorld Unit S} {ev : AppEvent S OwnerCall}
    (h : CopiesCurrent w ev) : KeepsOwners w ev := by
  cases ev with
  | invoke s call turn =>
    cases call with
    | updateProfileImage user image =>
      intro uid huid
      exact Option.some.inj (h.symm.trans huid)
    | _ => trivial
  | serve i o =>
    refine ⟨fun _ x hx => ?_, fun ho => absurd (h.1.symm.trans ho) (by simp)⟩
    have hreq := h.2 x hx
    unfold MayCommit
    split
    next uid saved heq => exact absurd (heq ▸ hreq) (by simp [Request.copiesCurrent])
    next id data heq => exact absurd (heq ▸ hreq) (by simp [Request.copiesCurrent])
    next id fields heq =>
      intro uid d u hsigned
      rw [heq] at hreq
      simp only [Request.copiesCurrent, hsigned.post, hsigned.owner, hsigned.user,
        Option.all_some, decide_eq_true_eq] at hreq
      exact Or.inl hreq
    next => trivial
  | drop i => exact h.elim
  | deliver i turn => trivial

/-- The new picture of `a` reaches her post. -/
theorem owners_current_pictured :
    ∃ w, Run api OwnerCall.program KeepsOwners owned pictureChanged w ∧ w.Quiescent
      ∧ (w.backend.docs.lookup ["posts", "p"]).bind (· "ownerImageUrl")
          = some (.string (objectUrl "/profile_images/new"))
      ∧ ∀ d, w.backend.docs.lookup ["posts", "p"] = some d →
        ∃ uid u, d "ownerUid" = some (.string uid) ∧ w.backend.docs.lookup ["users", uid] = some u
          ∧ d "ownerImageUrl" = u "profileImageUrl" ∧ d "ownerUsername" = u "username" := by
  obtain ⟨w, run, hquiet, hpicture⟩ : ∃ w,
      Run api OwnerCall.program CopiesCurrent owned pictureChanged w ∧ w.Quiescent
      ∧ (w.backend.docs.lookup ["posts", "p"]).bind (· "ownerImageUrl")
          = some (.string (objectUrl "/profile_images/new")) :=
  exists_run_of_play (by decide +kernel)
  have hrest : owned.Quiescent := rfl
  have hrun := run.mono fun _ _ => CopiesCurrent.keepsOwners
  exact ⟨w, hrun, hquiet, hpicture, fun d hd => owners_current hrest owned_current hrun hquiet hd⟩

/-- `a` saves another name: her post still carries the old one. -/
theorem owners_renamed :
    (∀ id, ¬ Outdated owned.backend id)
      ∧ ∃ w, Run api OwnerCall.program Healthy owned
          [.invoke () (.saveUserData (User.init (namedAnna "anna"))) (turnOf "a"),
            .serve 0 (.success []), .deliver 0 (turnOf "a")] w
        ∧ w.Quiescent
        ∧ (w.backend.docs.lookup ["posts", "p"]).bind (· "ownerUid") = some (.string "a")
        ∧ (w.backend.docs.lookup ["posts", "p"]).bind (· "ownerUsername") = some (.string "ann")
        ∧ (w.backend.docs.lookup ["users", "a"]).bind (· "username") = some (.string "anna") :=
  ⟨owned_current, exists_run_of_play (by decide +kernel)⟩

end InstaClone
