import InstaClone.Async.Mending
import InstaClone.Frames
import InstaClone.Uploads

/-!
# Whether a stored profile picture exists

`updateProfileImage` deletes the old object first, then stores the new one, asks for its
URL and writes it into the user's document, and gives up where one of these fails.
`registerUser` and `saveUserData` write a whole document, with the URL of a new object and
with whatever URL the caller has cached.

So between the deletion and the write the document names nothing (`Dangling`), and it is the
rest of the call that mends it. `PictureAt` are the flights of a call that is going well,
with the object it holds; `KnownFlight` says that nothing else in flight updates a user, and
that the objects held are stored. Every step leaves the dangling documents to calls that
mend them under `KeepsPictures`: a deletion spares the objects that other users name and
that calls hold, a document that is written whole names an object, and a call that is needed
does not fail.
-/

namespace InstaClone

open Async

/-! ## The calls -/

/-- The calls that have to do with the picture of a user. -/
inductive PictureCall where
  | registerUser (credentials : AuthCredentials)
  | updateProfileImage (user : User) (image : UIImage)
  | saveUserData (user : User)

/-- The code of a call. -/
def PictureCall.program : PictureCall → Program Unit
  | registerUser credentials => AuthService.registerUser credentials noCompletion
  | updateProfileImage user image => UserService.updateProfileImage user image fun _ _ => .done
  | saveUserData user => UserService.saveUserData user noCompletion

/-- The callback of the `updateData` of `updateProfileImage`. -/
def didUpdatePicture (user : User) (profileImageUrl : String) (error : Option Error) :
    Program Unit :=
  match error with
  | some _ => .done
  | none =>
    (getDocuments
      { collection := ["posts"], whereField := some ("ownerUid", .string user.uid) } fun snapshot =>
        match snapshot with
        | none => .done
        | some documents =>
          .forEach documents fun document =>
            updateData ["posts", document.1]
              (dict [("ownerImageUrl", .string profileImageUrl)]) noCompletion).andThen
    .done

/-- What `updateProfileImage` does with the URL of the new object. -/
def writePicture (uid : String) (user : User) (profileImageUrl : String) : Program Unit :=
  updateData ["users", uid] (dict [("profileImageUrl", .string profileImageUrl)])
    (didUpdatePicture user profileImageUrl)

theorem program_updateProfileImage (user : User) (image : UIImage) :
    (PictureCall.updateProfileImage user image).program
      = withCurrentUid fun uid =>
        if Storage.accepts user.profileImageUrl then
          .call (.deleteObject user.profileImageUrl) (fun _ => .done)
            (ImageUploader.uploadImage image (writePicture uid user))
        else fatalError := by
  refine congrArg withCurrentUid (funext fun uid => ?_)
  refine congrArg (fun p => ite _ p _) (congrArg (Prog.call _ _) ?_)
  refine congrArg (ImageUploader.uploadImage image) (funext fun url => ?_)
  refine congrArg (fun k => Prog.call _ k _) (funext fun error => ?_)
  cases error <;> rfl

/-! ## What is in flight -/

/-- The flights of a call of `updateProfileImage` that is going well, and the object it
holds. -/
inductive PictureAt : Flight Request Response Turn Unit → String → Option String → Prop
  | uploading {fl uid user u} (h : UploadAt (writePicture uid user) fl u) : PictureAt fl uid u
  | updating (uid user url) :
      PictureAt
        (.issued (.write (.updateData ["users", uid] (dict [("profileImageUrl", .string url)])))
          (didUpdatePicture user url))
        uid (some url)

/-- The flight belongs to a call that is going to update the picture of `uid`; its object, if
it has one by now, is stored. -/
def UpdatesPicture (b : Backend) (uid : String) (fl : Flight Request Response Turn Unit) : Prop :=
  ∃ u, PictureAt fl uid u ∧ ∀ url ∈ u, url ∈ b.objects

/-- The flight belongs to a call that holds the object with this URL. -/
def HoldsPicture (url : String) (fl : Flight Request Response Turn Unit) : Prop :=
  ∃ uid u, PictureAt fl uid u ∧ url ∈ u

/-- It does not update the document of a user, and does not delete it. -/
def AsidePictures : Request → Prop
  | .write (.updateData ["users", _] _) => False
  | .write (.delete ["users", _]) => False
  | _ => True

/-- What is left of the flight makes only such requests. -/
def AsideFlight : Flight Request Response Turn Unit → Prop
  | .issued r k => AsidePictures r ∧ ∀ y, (k y).Spares AsidePictures id
  | .served _ p => p.Spares AsidePictures id

/-- What can be in flight: updates of a picture, and what updates no user. -/
def KnownFlight (b : Backend) (fl : Flight Request Response Turn Unit) : Prop :=
  AsideFlight fl ∨ ∃ uid, UpdatesPicture b uid fl

/-! ## When the picture of a user exists -/

/-- The document of `uid` names the object with this URL. -/
def NamesPicture (b : Backend) (uid url : String) : Prop :=
  ∃ d, b.docs.lookup ["users", uid] = some d ∧ d.string "profileImageUrl" = some url

/-- The document of `uid` names no object in Storage. -/
def Dangling (b : Backend) (uid : String) : Prop :=
  ∃ d, b.docs.lookup ["users", uid] = some d
    ∧ ∀ url, d.string "profileImageUrl" = some url → url ∉ b.objects

variable {S : Type}

/-- Whoever's document names no object, something in `pool` updates his picture. -/
def MendedIn (b : Backend) (pool : List (S × Flight Request Response Turn Unit)) : Prop :=
  ∀ uid, Dangling b uid → ∃ x ∈ pool, UpdatesPicture b uid x.2

/-- The request may succeed. A deletion: whoever's document names the object, an update of
his picture is under way, and no call holds the object. A whole document of a user: it names
a stored object, or an update of the picture is under way. -/
def MaySucceed (w : AppWorld Unit S) : Request → Prop
  | .deleteObject url =>
    (∀ uid, NamesPicture w.backend uid url → ∃ x ∈ w.pool, UpdatesPicture w.backend uid x.2)
      ∧ ∀ x ∈ w.pool, ¬ HoldsPicture url x.2
  | .write (.setData ["users", uid] saved) =>
    (∃ url ∈ w.backend.objects, saved.string "profileImageUrl" = some url)
      ∨ ∃ x ∈ w.pool, UpdatesPicture w.backend uid x.2
  | _ => True

/-- Every request that succeeds may, and no request fails and no callback is lost that is the
only one to mend a document. -/
def KeepsPictures (w : AppWorld Unit S) : AppEvent S PictureCall → Prop
  | .serve i o =>
    (o.isSuccess = true → ∀ x ∈ w.pool[i]?, MaySucceed w x.2.req)
      ∧ (o.isSuccess = false → MendedIn w.backend (w.pool.eraseIdx i))
  | .drop i => MendedIn w.backend (w.pool.eraseIdx i)
  | _ => True

/-! ## The turns -/

theorem asideFlight_of_spares {p : Program Unit} (h : p.Spares AsidePictures id) (e : Turn)
    (s : Unit) : ∀ fl ∈ (p.exec e s).2, AsideFlight fl := by
  intro fl hfl
  have hspares := (h.exec e s).2 fl hfl
  cases fl with
  | issued r k => exact hspares
  | served r p => exact hspares.2

theorem aside_didUpdatePicture (user : User) (url : String) (error : Option Error) :
    (didUpdatePicture user url error).Spares AsidePictures id := by
  cases error with
  | some error => trivial
  | none =>
    refine .andThen (spares_getDocuments trivial fun snapshot => ?_) trivial
    split
    next => trivial
    next documents => exact .forEach fun document => spares_silent trivial

theorem aside_registerUser (credentials : AuthCredentials) :
    (PictureCall.registerUser credentials).program.Spares AsidePictures id := by
  refine spares_uploadImage (fun _ _ => trivial) (fun _ => trivial) fun imageUrl => ?_
  refine ⟨trivial, fun result => ?_, trivial⟩
  dsimp only
  split
  next => trivial
  next =>
    split
    next => trivial
    next uid _ => exact fun turn => spares_write trivial fun _ => trivial

/-- The first turn of an update deletes the old object and stores the new one. -/
theorem issues_updateProfileImage {user : User} {image : UIImage} {imageData uid : String}
    {e : Turn} (hurl : Storage.accepts user.profileImageUrl = true)
    (hdata : image.jpegData = some imageData) (huid : e.currentUid = some uid) (s : Unit) :
    ((PictureCall.updateProfileImage user image).program.exec e s).2
      = [.issued (.deleteObject user.profileImageUrl) fun _ => .done,
          .issued (.putData ("/profile_images/" ++ e.autoId) imageData)
            (didStoreImage (writePicture uid user) ("/profile_images/" ++ e.autoId))] := by
  rw [program_updateProfileImage]
  unfold withCurrentUid
  rw [Prog.exec_ask, huid]
  dsimp only
  rw [if_pos hurl, Prog.exec_call, exec_uploadImage, hdata]

/-- An update begins with the upload of the picture. -/
theorem updates_program (b : Backend) {user : User} {image : UIImage} {imageData uid : String}
    {e : Turn} (hurl : Storage.accepts user.profileImageUrl = true)
    (hdata : image.jpegData = some imageData) (huid : e.currentUid = some uid) (s : Unit) :
    ∃ fl ∈ ((PictureCall.updateProfileImage user image).program.exec e s).2,
      UpdatesPicture b uid fl := by
  refine ⟨.issued (.putData ("/profile_images/" ++ e.autoId) imageData)
    (didStoreImage (writePicture uid user) ("/profile_images/" ++ e.autoId)), ?_,
    none, .uploading (.storing ..), by simp⟩
  rw [issues_updateProfileImage hurl hdata huid]
  simp

/-- What an action has in flight is known. -/
theorem known_program (b : Backend) (call : PictureCall) (e : Turn) (s : Unit) :
    ∀ fl ∈ (call.program.exec e s).2, KnownFlight b fl := by
  intro fl hfl
  cases call with
  | registerUser credentials =>
    exact Or.inl (asideFlight_of_spares (aside_registerUser credentials) e s fl hfl)
  | updateProfileImage user image =>
    rw [program_updateProfileImage] at hfl
    unfold withCurrentUid at hfl
    rw [Prog.exec_ask] at hfl
    cases hcurrent : e.currentUid with
    | none =>
      rw [hcurrent] at hfl
      exact absurd hfl (by simp)
    | some uid =>
      rw [hcurrent] at hfl
      dsimp only at hfl
      split at hfl
      case isFalse => exact absurd hfl (List.not_mem_nil)
      rw [Prog.exec_call, exec_uploadImage] at hfl
      rcases List.mem_cons.mp hfl with rfl | hfl
      · exact Or.inl ⟨trivial, fun _ => trivial⟩
      · cases hdata : image.jpegData with
        | none =>
          rw [hdata] at hfl
          exact absurd hfl (by simp)
        | some imageData =>
          rw [hdata] at hfl
          obtain rfl := List.mem_singleton.mp hfl
          exact Or.inr ⟨uid, none, .uploading (.storing ..), by simp⟩
  | saveUserData user =>
    have hsave : (UserService.saveUserData user noCompletion : Program Unit).Spares
        AsidePictures id :=
      spares_saveUserData (fun _ => trivial) fun _ => trivial
    exact Or.inl (asideFlight_of_spares hsave e s fl hfl)

/-- The turn of a callback of an update: it goes on with the same object. -/
theorem PictureAt.deliver {r : Request} {p : Program Unit} {uid : String} {u : Option String}
    (h : PictureAt (.served r p) uid u) (e : Turn) (s : Unit) :
    ∃ fl, (p.exec e s).2 = [fl] ∧ PictureAt fl uid u := by
  generalize hfl : Flight.served r p = fl at h
  cases h with
  | uploading h =>
    subst hfl
    rcases h.deliver e s with ⟨reference, hexec, rfl⟩ | ⟨url, rfl, rfl⟩
    · exact ⟨_, by rw [hexec], .uploading (.locating reference)⟩
    · exact ⟨_, rfl, .updating uid _ url⟩
  | _ => exact absurd hfl (by simp)

theorem UpdatesPicture.deliver {b : Backend} {r : Request} {p : Program Unit} {uid : String}
    (h : UpdatesPicture b uid (.served r p)) (e : Turn) (s : Unit) :
    ∃ fl ∈ (p.exec e s).2, UpdatesPicture b uid fl := by
  obtain ⟨u, hat, hheld⟩ := h
  obtain ⟨fl, hissued, hat'⟩ := hat.deliver e s
  exact ⟨fl, by rw [hissued]; exact List.mem_singleton_self fl, u, hat', hheld⟩

/-- What a callback has in flight is known. -/
theorem KnownFlight.deliver {b : Backend} {r : Request} {p : Program Unit}
    (h : KnownFlight b (.served r p)) (e : Turn) (s : Unit) :
    ∀ fl ∈ (p.exec e s).2, KnownFlight b fl := by
  intro fl hfl
  rcases h with haside | ⟨uid, u, hat, hheld⟩
  · exact Or.inl (asideFlight_of_spares haside e s fl hfl)
  · obtain ⟨fl', hissued, hat'⟩ := hat.deliver e s
    rw [hissued] at hfl
    obtain rfl := List.mem_singleton.mp hfl
    exact Or.inr ⟨uid, u, hat', hheld⟩

/-! ## Serving a request -/

/-- The objects that calls hold stay. -/
theorem UpdatesPicture.mono {b b' : Backend} {uid : String} {fl : Flight Request Response Turn Unit}
    (h : UpdatesPicture b uid fl)
    (hsub : ∀ url ∈ b.objects, HoldsPicture url fl → url ∈ b'.objects) :
    UpdatesPicture b' uid fl := by
  obtain ⟨u, hat, hheld⟩ := h
  exact ⟨u, hat, fun url hurl => hsub url (hheld url hurl) ⟨uid, u, hat, hurl⟩⟩

theorem KnownFlight.mono {b b' : Backend} {fl : Flight Request Response Turn Unit}
    (h : KnownFlight b fl) (hsub : ∀ url ∈ b.objects, HoldsPicture url fl → url ∈ b'.objects) :
    KnownFlight b' fl :=
  h.imp id fun ⟨uid, hupdates⟩ => ⟨uid, hupdates.mono hsub⟩

/-- A request that is no deletion takes no object away. -/
theorem serve_objects {b b' : Backend} {r : Request} {o : Outcome} {y : Response r}
    (hserve : serve b r o = some (b', y)) (hr : ∀ url, r ≠ .deleteObject url) :
    ∀ url ∈ b.objects, url ∈ b'.objects := by
  intro url hurl
  cases r with
  | deleteObject url => exact absurd rfl (hr url)
  | write write =>
    rcases serve_write hserve with ⟨-, docs, -, rfl⟩ | ⟨-, rfl⟩ <;> exact hurl
  | getDocument path =>
    obtain ⟨rfl, -⟩ := serve_getDocument hserve
    exact hurl
  | getDocuments q =>
    obtain ⟨rfl, -⟩ := serve_getDocuments hserve
    exact hurl
  | putData reference data =>
    cases o <;> simp only [serve, Option.some.injEq, Prod.mk.injEq] at hserve <;>
      obtain ⟨rfl, -⟩ := hserve
    · exact List.mem_cons_of_mem _ hurl
    · exact hurl
  | downloadURL reference =>
    cases o <;> simp only [serve] at hserve
    · split at hserve <;> simp only [Option.some.injEq, Prod.mk.injEq] at hserve <;>
        obtain ⟨rfl, -⟩ := hserve <;> exact hurl
    · simp only [Option.some.injEq, Prod.mk.injEq] at hserve
      obtain ⟨rfl, -⟩ := hserve
      exact hurl
  | createUser email password =>
    cases o with
    | failure error =>
      simp only [serve, Option.some.injEq, Prod.mk.injEq] at hserve
      obtain ⟨rfl, -⟩ := hserve
      exact hurl
    | success names =>
      simp only [serve] at hserve
      split at hserve
      next =>
        simp only [Option.some.injEq, Prod.mk.injEq] at hserve
        obtain ⟨rfl, -⟩ := hserve
        exact hurl
      next =>
        split at hserve
        next =>
          split at hserve
          next => exact absurd hserve (by simp)
          next =>
            simp only [Option.some.injEq, Prod.mk.injEq] at hserve
            obtain ⟨rfl, -⟩ := hserve
            exact hurl
        next => exact absurd hserve (by simp)

/-- A deletion takes away at most its own object, and changes no document. -/
theorem serve_deleteObject {b b' : Backend} {url : String} {o : Outcome} {y : Option Error}
    (hserve : serve b (.deleteObject url) o = some (b', y)) :
    b'.docs = b.docs ∧ (∀ url' ∈ b'.objects, url' ∈ b.objects)
      ∧ (b' = b ∨ o.isSuccess = true ∧ ∀ url' ∈ b.objects, url' ≠ url → url' ∈ b'.objects) := by
  cases o with
  | failure error =>
    obtain ⟨rfl, -⟩ : b = b' ∧ some error = y := by simpa [serve] using hserve
    exact ⟨rfl, fun _ h => h, Or.inl rfl⟩
  | success names =>
    simp only [serve] at hserve
    split at hserve
    next =>
      simp only [Option.some.injEq, Prod.mk.injEq] at hserve
      obtain ⟨rfl, -⟩ := hserve
      refine ⟨rfl, fun url' h => (List.mem_filter.mp h).1, Or.inr ⟨rfl, fun url' h hne => ?_⟩⟩
      exact List.mem_filter.mpr ⟨h, by simpa using hne⟩
    next =>
      simp only [Option.some.injEq, Prod.mk.injEq] at hserve
      obtain ⟨rfl, -⟩ := hserve
      exact ⟨rfl, fun _ h => h, Or.inl rfl⟩

/-- A request of an update is served: the update goes on, or fails, or the document of the
user names the new object. -/
theorem UpdatesPicture.serve {b b' : Backend} {r : Request} {k : Response r → Program Unit}
    {o : Outcome} {y : Response r} {uid : String} (h : UpdatesPicture b uid (.issued r k))
    (hserve : InstaClone.serve b r o = some (b', y)) :
    UpdatesPicture b' uid (.served r (k y))
      ∨ AsideFlight (.served r (k y)) ∧ (o.isSuccess = true → ¬ Dangling b' uid) := by
  obtain ⟨u, hat, hheld⟩ := h
  generalize hfl : Flight.issued r k = fl at hat
  cases hat with
  | uploading hupload =>
    subst hfl
    rcases hupload.serve hheld hserve with ⟨u', hupload', hheld'⟩ | ⟨hfail, hdone⟩
    · exact Or.inl ⟨u', .uploading hupload', hheld'⟩
    · refine Or.inr ⟨?_, fun hsuccess => ?_⟩
      · show (k y).Spares AsidePictures id
        rw [hdone]
        trivial
      · rw [hfail] at hsuccess
        exact absurd hsuccess (by simp)
  | updating uid user url =>
    obtain ⟨rfl, hk⟩ := Flight.issued.inj hfl
    obtain rfl := eq_of_heq hk
    refine Or.inr ⟨aside_didUpdatePicture user url y, fun hsuccess hdangling => ?_⟩
    obtain ⟨d, hd, hnone⟩ := hdangling
    have hstored := serve_objects hserve (by simp) url (hheld url rfl)
    cases o with
    | failure error => exact absurd hsuccess (by simp [Outcome.isSuccess])
    | success names =>
      simp only [InstaClone.serve] at hserve
      split at hserve
      next docs hdocs =>
        simp only [Option.some.injEq, Prod.mk.injEq] at hserve
        obtain ⟨rfl, -⟩ := hserve
        -- the document now names the object of the call
        have hlook := Write.lookup_apply hdocs
        obtain ⟨d', -, rfl⟩ := Option.map_eq_some_iff.mp (hlook.symm.trans hd)
        exact hnone url rfl hstored
      next hdocs =>
        simp only [Option.some.injEq, Prod.mk.injEq] at hserve
        obtain ⟨rfl, -⟩ := hserve
        -- the user has no document
        have hmissing := Option.map_eq_none_iff.mp hdocs
        rw [hmissing] at hd
        exact absurd hd (by simp)

/-- A request that fails changes nothing. -/
theorem serve_failure {b b' : Backend} {r : Request} {o : Outcome} {y : Response r}
    (ho : o.isSuccess = false) (hserve : serve b r o = some (b', y)) : b' = b := by
  cases o with
  | success names => exact absurd ho (by simp [Outcome.isSuccess])
  | failure error =>
    cases r <;> simp only [serve, Option.some.injEq, Prod.mk.injEq] at hserve <;>
      exact hserve.1.symm

/-- A request that updates a user's document is one of an update of his picture. -/
theorem KnownFlight.updates {b : Backend} {uid : String} {fields : Doc}
    {k : Response (.write (.updateData ["users", uid] fields)) → Program Unit}
    (h : KnownFlight b (.issued (.write (.updateData ["users", uid] fields)) k)) :
    UpdatesPicture b uid (.issued (.write (.updateData ["users", uid] fields)) k) := by
  rcases h with haside | ⟨uid', u, hat, hheld⟩
  · exact haside.1.elim
  · refine ⟨u, ?_, hheld⟩
    generalize hfl : Flight.issued (Request.write (.updateData ["users", uid] fields)) k = fl at hat
    cases hat with
    | uploading hupload =>
      subst hfl
      rcases hupload.req with ⟨reference, data, hreq⟩ | ⟨reference, hreq⟩ <;>
        exact absurd hreq (by simp)
    | updating uid' user url =>
      have hreq := congrArg Flight.req hfl
      simp only [Flight.req_issued, Request.write.injEq, Write.updateData.injEq, List.cons.injEq,
        and_true, true_and] at hreq
      obtain ⟨rfl, rfl⟩ := hreq
      exact .updating uid user url

/-- Nobody deletes the document of a user. -/
theorem KnownFlight.not_deletes {b : Backend} {uid : String}
    {k : Response (.write (.delete ["users", uid])) → Program Unit} :
    ¬ KnownFlight b (.issued (.write (.delete ["users", uid])) k) := by
  rintro (haside | ⟨uid', u, hat, -⟩)
  · exact haside.1
  · generalize hfl : Flight.issued (Request.write (.delete ["users", uid])) k = fl at hat
    cases hat with
    | uploading hupload =>
      subst hfl
      rcases hupload.req with ⟨reference, data, hreq⟩ | ⟨reference, hreq⟩ <;>
        exact absurd hreq (by simp)
    | updating uid' user url => exact absurd (congrArg Flight.req hfl) (by simp)

/-! ## The runs -/

section Runs

variable {w₀ w w' : AppWorld Unit S} {es : List (AppEvent S PictureCall)}
  {pre post : List (S × Flight Request Response Turn Unit)} {s : S} {r : Request}
  {k : Response r → Program Unit} {o : Outcome} {b : Backend} {y : Response r}

/-- The objects that calls hold are not taken away. -/
theorem held_serve (hpool : w.pool = pre ++ (s, .issued r k) :: post)
    (hserve : api.serve w.backend r o = some (b, y))
    (hok : o.isSuccess = true → MaySucceed w r) :
    ∀ x ∈ w.pool, ∀ url ∈ w.backend.objects, HoldsPicture url x.2 → url ∈ b.objects := by
  intro x hx url hurl hholds
  by_cases hdelete : ∃ url', r = .deleteObject url'
  · obtain ⟨url', rfl⟩ := hdelete
    obtain ⟨-, -, rfl | ⟨hsuccess, hkept⟩⟩ := serve_deleteObject hserve
    · exact hurl
    · refine hkept url hurl ?_
      rintro rfl
      exact (hok hsuccess).2 x hx hholds
  · exact serve_objects hserve (fun url' h => hdelete ⟨url', h⟩) url hurl

/-- Whoever's document names no object after a request has succeeded, an update of his
picture was under way before. -/
theorem underWay_of_dangling (hknown : KnownFlight w.backend (.issued r k))
    (hmem : (s, .issued r k) ∈ w.pool) (h : Mending Dangling UpdatesPicture w)
    (hserve : api.serve w.backend r o = some (b, y)) (hok : MaySucceed w r) {uid : String}
    (hdangling : Dangling b uid) :
    ∃ x ∈ w.pool, UpdatesPicture w.backend uid x.2 := by
  obtain ⟨d, hd, hnone⟩ := hdangling
  -- where the document is the same and no object is gone, nothing changes
  have hsame : b.docs.lookup ["users", uid] = w.backend.docs.lookup ["users", uid] →
      (∀ url ∈ w.backend.objects, url ∈ b.objects) →
      ∃ x ∈ w.pool, UpdatesPicture w.backend uid x.2 := by
    intro hdocs hobjects
    exact h uid ⟨d, hdocs ▸ hd, fun url hurl hmem => hnone url hurl (hobjects url hmem)⟩
  cases r with
  | deleteObject url =>
    obtain ⟨hdocs, -, rfl | ⟨-, hkept⟩⟩ := serve_deleteObject hserve
    · exact hsame rfl fun _ h => h
    · rw [hdocs] at hd
      by_cases hnames : d.string "profileImageUrl" = some url
      · exact hok.1 uid ⟨d, hd, hnames⟩
      · refine h uid ⟨d, hd, fun url' hurl' hmem => hnone url' hurl' (hkept url' hmem ?_)⟩
        rintro rfl
        exact hnames hurl'
  | write write =>
    have hobjects := serve_objects hserve (by simp)
    by_cases hpath : write.path = ["users", uid]
    · cases write with
      | setData path saved =>
        obtain rfl : path = ["users", uid] := hpath
        rcases hok with ⟨url, hurl, hsaved⟩ | hupdates
        · rcases serve_write hserve with ⟨-, docs, hdocs, rfl⟩ | ⟨-, rfl⟩
          · have hlook : docs.lookup ["users", uid] = some saved := Write.lookup_apply hdocs
            obtain rfl := Option.some.inj (hlook.symm.trans hd)
            exact absurd hurl (hnone url hsaved)
          · exact hsame rfl fun _ h => h
        · exact hupdates
      | updateData path fields =>
        obtain rfl : path = ["users", uid] := hpath
        exact ⟨_, hmem, hknown.updates⟩
      | delete path =>
        obtain rfl : path = ["users", uid] := hpath
        exact absurd hknown KnownFlight.not_deletes
    · refine hsame (serve_lookup_ne hserve ?_) hobjects
      rintro write' ⟨rfl⟩
      exact Ne.symm hpath
  | _ => exact hsame (by rw [serve_docs hserve (by simp)]) (serve_objects hserve (by simp))

variable [DecidableEq S]

/-- What is in flight is known, and whoever's document names no object, his picture is being
updated. -/
structure PictureInv (w : AppWorld Unit S) : Prop where
  known : ∀ x ∈ w.pool, KnownFlight w.backend x.2
  mending : Mending Dangling UpdatesPicture w

omit [DecidableEq S] in
theorem PictureInv.serve (h : PictureInv w) (hpool : w.pool = pre ++ (s, .issued r k) :: post)
    (hserve : api.serve w.backend r o = some (b, y))
    (hok : KeepsPictures w (.serve pre.length o)) :
    PictureInv { w with backend := b, pool := pre ++ (s, .served r (k y)) :: post } := by
  have hget : w.pool[pre.length]? = some (s, .issued r k) := getElem?_split hpool
  have hmem : (s, Flight.issued r k) ∈ w.pool := mem_split hpool
  have hold : ∀ x ∈ pre ++ post, x ∈ w.pool := fun _ => mem_split_rest hpool
  have hmay : o.isSuccess = true → MaySucceed w r := fun ho => hok.1 ho _ hget
  have hheld := held_serve hpool hserve hmay
  constructor
  · intro x hx
    have hcases : x = (s, .served r (k y)) ∨ x ∈ pre ++ post := by
      simp only [List.mem_append, List.mem_cons] at hx ⊢
      rcases hx with hx | hx | hx <;> simp [hx]
    rcases hcases with rfl | hx
    · rcases h.known _ hmem with haside | ⟨uid, hupdates⟩
      · exact Or.inl (haside.2 y)
      · rcases hupdates.serve hserve with hupdates | ⟨haside, -⟩
        · exact Or.inr ⟨uid, hupdates⟩
        · exact Or.inl haside
    · exact (h.known x (hold x hx)).mono (hheld x (hold x hx))
  · refine Mending.serve fun uid hdangling => ?_
    cases ho : o.isSuccess with
    | false =>
      obtain rfl := serve_failure ho hserve
      obtain ⟨x, hx, hupdates⟩ := hok.2 ho uid hdangling
      rw [hpool, eraseIdx_middle] at hx
      exact Or.inr ⟨x, hx, hupdates⟩
    | true =>
      obtain ⟨x, hx, hupdates⟩ := underWay_of_dangling (h.known _ hmem) hmem h.mending hserve
        (hmay ho) hdangling
      rw [hpool, List.mem_append, List.mem_cons] at hx
      rcases hx with hx | rfl | hx
      · exact Or.inr ⟨x, List.mem_append_left _ hx,
          hupdates.mono (hheld x (hold x (List.mem_append_left _ hx)))⟩
      · rcases hupdates.serve hserve with hupdates | ⟨-, hnot⟩
        · exact Or.inl hupdates
        · exact absurd hdangling (hnot ho)
      · exact Or.inr ⟨x, List.mem_append_right _ hx,
          hupdates.mono (hheld x (hold x (List.mem_append_right _ hx)))⟩

theorem PictureInv.step {ev : AppEvent S PictureCall} (h : PictureInv w)
    (hok : KeepsPictures w ev) (hstep : Stepped api PictureCall.program w ev w') :
    PictureInv w' := by
  cases hstep with
  | invoke t a e =>
    refine ⟨fun x hx => ?_, h.mending.invoke t a.program e⟩
    rcases List.mem_append.mp hx with hx | hx
    · exact h.known x hx
    · obtain ⟨fl, hfl, rfl⟩ := List.mem_map.mp hx
      exact known_program _ a e _ fl hfl
  | serve hpool hfifo hserve => exact h.serve hpool hserve hok
  | deliver hpool hfifo =>
    rename_i pre post t r p e
    have hmem : (t, Flight.served r p) ∈ w.pool := mem_split hpool
    refine ⟨fun x hx => ?_, h.mending.deliver hpool fun uid _ hupdates => hupdates.deliver e _⟩
    rcases List.mem_append.mp hx with hx | hx
    · exact h.known x (mem_split_rest hpool hx)
    · obtain ⟨fl, hfl, rfl⟩ := List.mem_map.mp hx
      exact (h.known _ hmem).deliver e _ fl hfl
  | drop hpool =>
    rename_i pre post t r p
    have hmended : MendedIn w.backend (w.pool.eraseIdx pre.length) := hok
    rw [hpool, eraseIdx_middle] at hmended
    exact ⟨fun x hx => h.known x (mem_split_rest hpool hx), Mending.drop hmended⟩

/-- **A stored profile picture exists.** Any calls of `registerUser`, `updateProfileImage` and
`saveUserData` from any sessions, in any interleaving: as long as every step keeps the
pictures, whenever nothing is in flight the picture of every user is stored. -/
theorem pictures_stored (hrest : w₀.Quiescent) (hstart : ∀ uid, ¬ Dangling w₀.backend uid)
    (run : Run api PictureCall.program KeepsPictures w₀ es w) (hquiet : w.Quiescent) {uid : String}
    {d : Doc} (hd : w.backend.docs.lookup ["users", uid] = some d) :
    ∃ url ∈ w.backend.objects, d.string "profileImageUrl" = some url := by
  have hinv : PictureInv w := by
    refine run.invariant (I := fun _ w => PictureInv w) ⟨?_, fun uid h => absurd h (hstart uid)⟩
      fun _ _ _ _ h hok hstep => h.step hok hstep
    rw [hrest]
    exact fun x hx => absurd hx List.not_mem_nil
  by_contra hnone
  refine hinv.mending.rest hquiet uid ⟨d, hd, fun url hurl hmem => hnone ⟨url, hmem, hurl⟩⟩

end Runs

/-! ## Two runs -/

/-- The document of `a`, whose picture is stored. -/
def picturedAnna : Doc := dict [("uid", .string "a"), ("profileImageUrl", .string oldPictureUrl)]

def pictured : AppWorld Unit Unit :=
  atRest ⟨AList.insert ["users", "a"] picturedAnna ∅, [oldPictureUrl], []⟩ fun _ => ()

theorem pictured_lookup {uid : String} {d : Doc}
    (h : pictured.backend.docs.lookup ["users", uid] = some d) : uid = "a" ∧ d = picturedAnna := by
  by_cases ha : uid = "a"
  · subst ha
    exact ⟨rfl, (Option.some.inj h).symm⟩
  · have hnone : pictured.backend.docs.lookup ["users", uid] = none := by
      unfold pictured atRest
      rw [AList.lookup_insert_ne (by simp [ha])]
      rfl
    rw [hnone] at h
    exact absurd h (by simp)

/-- The picture is replaced. -/
def replacing : PictureCall := .updateProfileImage (User.init picturedAnna) ⟨some "jpeg"⟩

/-- The call has started. -/
def pictureReplaced : AppWorld Unit Unit :=
  pictured.turn () replacing.program (turnWith "a" "new") pictured.pool

/-- The old object has been deleted. -/
def pictureDeleted : AppWorld Unit Unit :=
  (step api PictureCall.program pictureReplaced (.serve 0 (.success []))).getD pictureReplaced

/-- The rest of the call. -/
def pictureUploaded : List (AppEvent Unit PictureCall) :=
  [.deliver 0 (turnOf "a"), .serve 0 (.success []), .deliver 0 (turnOf "a"),
    .serve 0 (.success []), .deliver 0 (turnOf "a"), .serve 0 (.success []),
    .deliver 0 (turnOf "a"), .serve 0 (.success []), .deliver 0 (turnOf "a")]

/-- A deletion, or a whole document. -/
def Request.breaksPictures : Request → Bool
  | .deleteObject _ => true
  | .write (.setData _ _) => true
  | _ => false

/-- Everything succeeds, and nothing is deleted and no whole document written. -/
def GoesOn (w : AppWorld Unit S) : AppEvent S PictureCall → Prop
  | .serve i o => o.isSuccess = true ∧ ∀ x ∈ w.pool[i]?, x.2.req.breaksPictures = false
  | .drop _ => False
  | _ => True

instance (w : AppWorld Unit S) (ev : AppEvent S PictureCall) : Decidable (GoesOn w ev) :=
  match ev with
  | .invoke _ _ _ => isTrue trivial
  | .serve _ _ => inferInstanceAs (Decidable (_ ∧ ∀ x ∈ _, _))
  | .deliver _ _ => isTrue trivial
  | .drop _ => inferInstanceAs (Decidable False)

theorem GoesOn.keepsPictures {w : AppWorld Unit S} {ev : AppEvent S PictureCall}
    (h : GoesOn w ev) : KeepsPictures w ev := by
  cases ev with
  | serve i o =>
    refine ⟨fun _ x hx => ?_, fun ho => absurd (h.1.symm.trans ho) (by simp)⟩
    have hreq := h.2 x hx
    unfold MaySucceed
    split
    next url heq => exact absurd (heq ▸ hreq) (by simp [Request.breaksPictures])
    next uid saved heq => exact absurd (heq ▸ hreq) (by simp [Request.breaksPictures])
    next => trivial
  | drop i => exact h.elim
  | _ => trivial

/-- What holds an object and still waits asks for its URL, or writes it. -/
theorem HoldsPicture.request {url : String} {r : Request} {k : Response r → Program Unit}
    (h : HoldsPicture url (.issued r k)) :
    (∃ reference, r = .downloadURL reference)
      ∨ ∃ uid fields, r = .write (.updateData ["users", uid] fields) := by
  obtain ⟨uid, u, hat, hurl⟩ := h
  generalize hfl : Flight.issued r k = fl at hat
  cases hat with
  | uploading hupload =>
    cases hupload with
    | storing reference data => exact absurd hurl (by simp)
    | locating reference => exact Or.inl ⟨reference, congrArg Flight.req hfl⟩
    | _ => exact absurd hfl (by simp)
  | updating uid user url => exact Or.inr ⟨uid, _, congrArg Flight.req hfl⟩

/-- The deletion and the upload are in flight. -/
theorem pool_pictureReplaced :
    pictureReplaced.pool
      = [((), .issued (.deleteObject oldPictureUrl) fun _ => .done),
          ((), .issued (.putData "/profile_images/new" "jpeg")
            (didStoreImage (writePicture "a" (User.init picturedAnna))
              "/profile_images/new"))] := by
  have hissues := @issues_updateProfileImage (User.init picturedAnna) ⟨some "jpeg"⟩ "jpeg" "a"
    (turnWith "a" "new") accepts_oldPictureUrl rfl rfl ()
  exact congrArg (fun fls => fls.map fun fl => ((), fl)) hissues

/-- Right after it has been asked for, the old object may be deleted: the new one is on its
way. -/
theorem mayDelete_replaced : MaySucceed pictureReplaced (.deleteObject oldPictureUrl) := by
  refine ⟨fun uid hnames => ?_, fun x hx hholds => ?_⟩
  · obtain ⟨d, hd, -⟩ := hnames
    obtain ⟨rfl, -⟩ := pictured_lookup hd
    obtain ⟨fl, hfl, hupdates⟩ : ∃ fl ∈ (replacing.program.exec (turnWith "a" "new") ()).2,
        UpdatesPicture pictureReplaced.backend "a" fl := 
          updates_program _ accepts_oldPictureUrl rfl rfl ()
    exact ⟨((), fl), List.mem_append_right _ (List.mem_map_of_mem hfl), hupdates⟩
  · rw [pool_pictureReplaced] at hx
    -- neither of the two holds an object
    have hreq : ∀ {r : Request} {k : Response r → Program Unit}, x.2 = .issued r k →
        (∃ reference, r = .downloadURL reference)
          ∨ ∃ uid fields, r = .write (.updateData ["users", uid] fields) :=
      fun heq => HoldsPicture.request (heq ▸ hholds)
    rcases List.mem_cons.mp hx with rfl | hx
    · exact absurd (hreq rfl) (by simp)
    · obtain rfl := List.mem_singleton.mp hx
      exact absurd (hreq rfl) (by simp)

/-- The picture is replaced, the old object first. -/
theorem pictures_stored_replaced :
    ∃ es w, Run api PictureCall.program KeepsPictures pictured es w ∧ w.Quiescent
      ∧ w.backend.objects = [objectUrl "/profile_images/new"]
      ∧ ∀ d, w.backend.docs.lookup ["users", "a"] = some d →
        ∃ url ∈ w.backend.objects, d.string "profileImageUrl" = some url := by
  have hdeleted : Run api PictureCall.program KeepsPictures pictured
      ([] ++ [.invoke () replacing (turnWith "a" "new")] ++ [.serve 0 (.success [])])
      pictureDeleted := by
    have hserved : (step api PictureCall.program pictureReplaced (.serve 0 (.success []))).isSome
        = true := by decide +kernel
    obtain ⟨w, hstep⟩ := Option.isSome_iff_exists.mp hserved
    have hdeleted : pictureDeleted = w := by
      unfold pictureDeleted
      rw [hstep, Option.getD_some]
    rw [← hdeleted] at hstep
    refine .snoc (.snoc .nil trivial rfl) ⟨fun _ x hx => ?_, fun h => absurd h (by decide)⟩ hstep
    change x ∈ pictureReplaced.pool[0]? at hx
    rw [pool_pictureReplaced] at hx
    obtain rfl := Option.some.inj hx
    exact mayDelete_replaced
  obtain ⟨w, run, hquiet, hobjects⟩ : ∃ w,
      Run api PictureCall.program GoesOn pictureDeleted pictureUploaded w ∧ w.Quiescent
      ∧ w.backend.objects = [objectUrl "/profile_images/new"] :=
  exists_run_of_play (by decide +kernel)
  have hstart : ∀ uid, ¬ Dangling pictured.backend uid := by
    rintro uid ⟨d, hd, hnone⟩
    obtain ⟨rfl, rfl⟩ := pictured_lookup hd
    exact hnone oldPictureUrl rfl (List.mem_cons_self ..)
  have hrest : pictured.Quiescent := rfl
  have hrun := hdeleted.append (run.mono fun _ _ => GoesOn.keepsPictures)
  exact ⟨_, w, hrun, hquiet, hobjects, fun d hd => pictures_stored hrest hstart hrun hquiet hd⟩

/-- The old object is deleted, and then the new one is not stored: the document of `a` names
nothing any more. -/
theorem pictures_deleted :
    ∃ w, Run api PictureCall.program (fun _ _ => True) pictured
        [.invoke () replacing (turnWith "a" "new"), .serve 0 (.success []),
          .deliver 0 (turnOf "a"), .serve 0 (.failure "offline"), .deliver 0 (turnOf "a")] w
      ∧ w.Quiescent ∧ w.backend.objects = [] ∧ Dangling w.backend "a" := by
  obtain ⟨w, run, hquiet, hobjects, hdoc⟩ : ∃ w,
      Run api PictureCall.program (fun _ _ => True) pictured
        [.invoke () replacing (turnWith "a" "new"), .serve 0 (.success []),
          .deliver 0 (turnOf "a"), .serve 0 (.failure "offline"), .deliver 0 (turnOf "a")] w
      ∧ w.Quiescent ∧ w.backend.objects = []
      ∧ (w.backend.docs.lookup ["users", "a"]).isSome = true :=
  exists_run_of_play (by decide +kernel)
  obtain ⟨d, hd⟩ := Option.isSome_iff_exists.mp hdoc
  refine ⟨w, run, hquiet, hobjects, d, hd, fun url _ => ?_⟩
  rw [hobjects]
  exact List.not_mem_nil

end InstaClone
