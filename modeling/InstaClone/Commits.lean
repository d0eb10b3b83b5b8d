import InstaClone.Editing
import InstaClone.Uploads

/-!
# Committing a profile edit

`updateUserData` makes up to two changes of the user's document, one after the other:
`saveUserData` replaces it, and `updateProfileImage` deletes the old picture, uploads the new
one and updates one field. The error of the save is not looked at, an upload that fails ends
without a word, and the deletion and the posts that show the picture are not waited for.

A commit is one thread of requests (`CommitStage`) with those of no consequence beside it.
`Standing` says what has come of it at each stage and at each of its ends, in terms of what
has failed so far (`CommitPart`). `commit_iff` reads off the ends when the delegate is told
what is stored.

Other sessions may do anything that leaves the document of the user alone.
-/

namespace InstaClone

open Async

/-! ## What may fail -/

/-- The steps of a commit that change something. -/
inductive CommitPart where
  | save
  | deletion
  | upload
  | update
  | posts
deriving DecidableEq

/-- The step that a reply says has failed. -/
def failedPart : Mark Request Response → Option CommitPart
  | .reply (.write (.setData _ _)) (some _) => some .save
  | .reply (.write (.updateData ["users", _] _)) (some _) => some .update
  | .reply (.write _) (some _) => some .posts
  | .reply (.putData _ _) (some _) => some .upload
  | .reply (.downloadURL _) none => some .upload
  | .reply (.deleteObject _) (some _) => some .deletion
  | _ => none

/-! ## When the delegate is told what is stored -/

/-- Does the assignment call the delegate? The profile controller takes the user it is given. -/
def CallsDelegate (f : EditSession → EditSession) : Prop :=
  ∃ session, (f session).profileUser ≠ session.profileUser

/-- The user has the full name, the username and the picture of the document. -/
def User.AgreesWith (user : User) (stored : Doc) : Prop :=
  user.fullname = (User.init stored).fullname
    ∧ user.username = (User.init stored).username
    ∧ user.profileImageUrl = (User.init stored).profileImageUrl

/-- Something of the commit has failed: a request, or there is an image that is not uploaded
because it has no data or because Storage rejects the URL of the old picture, which ends the
process. -/
def CommitFailed (controller : EditProfileController) (failed : List CommitPart) : Prop :=
  failed ≠ [] ∨ ∃ image, controller.selectedImage = some image
    ∧ (image.jpegData = none ∨ Storage.accepts controller.user.profileImageUrl = false)

/-- The delegate has been called at most once and with the user that is stored; and if
something has failed, it has not been called, the document `d` is as it was, and the loader is
gone. -/
structure Reports (controller : EditProfileController) (d : Doc) (failed : List CommitPart)
    (stored : Option Doc) (session : EditSession) (assigned : List (EditSession → EditSession)) :
    Prop where
  once : assigned.Pairwise fun f g => ¬ (CallsDelegate f ∧ CallsDelegate g)
  agrees : ∀ f ∈ assigned, CallsDelegate f →
    ∃ d', stored = some d' ∧ session.profileUser.AgreesWith d'
  failed : CommitFailed controller failed →
    (∀ f ∈ assigned, ¬ CallsDelegate f) ∧ stored = some d ∧ session.loader = false

/-- Without a picture nothing fails. With one, Storage accepts the URL of the old one, the new
one is uploaded, and either nothing else fails, or the update of the document does and the
save has not changed it. -/
def CommitSound (controller : EditProfileController) (uid : String) (d : Doc)
    (failed : List CommitPart) : Prop :=
  match controller.selectedImage with
  | none => controller.userInfoChanged = true → failed = []
  | some image =>
    Storage.accepts controller.user.profileImageUrl = true
      ∧ image.jpegData.isSome = true ∧ .upload ∉ failed
      ∧ (failed = [] ∨ .update ∈ failed
        ∧ (controller.userInfoChanged = true →
          .save ∈ failed ∨ savedUser controller.user uid = d))

/-- The session shows the user of the document, edited or not, and no loader. -/
structure EditOf (d : Doc) (session : EditSession) : Prop where
  loader : session.loader = false
  unedited : session.controller.userInfoChanged = false →
    session.controller.user.fullname = (User.init d).fullname
      ∧ session.controller.user.username = (User.init d).username

/-- Does the request write the document at `path`? -/
def Request.writes (path : Path) : Request → Bool
  | .write w => decide (w.path = path)
  | _ => false

/-- Session `s` does nothing but commit, as the user `uid`, and no other session writes his
document. -/
def Committing {S A : Type} (uid : String) (s : S) (w : AppWorld EditSession S)
    (ev : AppEvent S A) : Prop :=
  Confined (fun e => e.currentUid = some uid) False s w ev
    ∧ match ev with
      | .serve i _ => ∀ x ∈ w.pool[i]?, x.1 ≠ s → x.2.req.writes ["users", uid] = false
      | _ => True

instance {S A : Type} [DecidableEq S] {uid : String} {s : S} (w : AppWorld EditSession S)
    (ev : AppEvent S A) : Decidable (Committing uid s w ev) :=
  match ev with
  | .invoke _ _ _ => inferInstanceAs (Decidable (_ ∧ True))
  | .serve _ _ => inferInstanceAs (Decidable (_ ∧ ∀ x ∈ _, _))
  | .deliver _ _ => inferInstanceAs (Decidable (_ ∧ True))
  | .drop _ => inferInstanceAs (Decidable (_ ∧ True))

/-! ## The commit -/

namespace EditProfileController

/-- The completion of `saveUserData`. -/
def didSave (controller : EditProfileController) : Option Error → Program EditSession :=
  fun _ => if controller.imageChanged then updateProfileImage else showLoader false wantsToUpdate

/-- The completion of the update of the user's document. -/
def didUpdate (user : User) (url : String) : Option Error → Program EditSession
  | some error => didUpdateProfileImage none (some error)
  | none =>
    (getDocuments { collection := ["posts"], whereField := some ("ownerUid", .string user.uid) }
      fun snapshot =>
        match snapshot with
        | none => .done
        | some documents =>
          .forEach documents fun document =>
            updateData ["posts", document.1] (dict [("ownerImageUrl", .string url)])
              noCompletion).andThen
    (didUpdateProfileImage (some url) none)

/-- The completion of the upload. -/
def didUpload (user : User) (uid url : String) : Program EditSession :=
  updateData ["users", uid] (dict [("profileImageUrl", .string url)]) (didUpdate user url)

end EditProfileController

open EditProfileController

section Turns

variable {controller : EditProfileController} {session : EditSession} {e : Turn} {uid : String}

/-- The turn that starts on the picture. -/
theorem exec_updateProfileImage {image : UIImage}
    (hsession : session.controller.selectedImage = some image) (he : e.currentUid = some uid)
    (hurl : Storage.accepts session.controller.user.profileImageUrl = true) :
    updateProfileImage.exec e session
      = ({ session with loader := true },
          .issued (.deleteObject session.controller.user.profileImageUrl) (fun _ => .done)
            :: match image.jpegData with
              | none => []
              | some imageData =>
                [.issued (.putData ("/profile_images/" ++ e.autoId) imageData)
                  (didStoreImage (didUpload session.controller.user uid)
                    ("/profile_images/" ++ e.autoId))]) := by
  unfold updateProfileImage
  rw [Prog.exec_read, hsession]
  dsimp only [EditProfileController.showLoader]
  rw [Prog.exec_modify]
  unfold UserService.updateProfileImage withCurrentUid
  rw [Prog.exec_ask, he]
  dsimp only
  rw [if_pos hurl, Prog.exec_call]
  have hnext : (fun url => updateData ["users", uid] (dict [("profileImageUrl", .string url)])
      fun error => match error with
        | some error => didUpdateProfileImage none (some error)
        | none => didUpdate session.controller.user url none)
      = didUpload session.controller.user uid := by
    funext url
    refine congrArg (updateData _ _) (funext fun error => ?_)
    cases error with
    | some error => rfl
    | none => rfl
  have hupload := exec_uploadImage image (didUpload session.controller.user uid) e
    { session with loader := true }
  rw [← hnext] at hupload ⊢
  exact congrArg₂ _ (congrArg Prod.fst hupload) (congrArg _ (congrArg Prod.snd hupload))

/-- The process ends when Storage rejects the URL of the old picture. -/
theorem exec_updateProfileImage_rejected {image : UIImage}
    (hsession : session.controller.selectedImage = some image) (he : e.currentUid = some uid)
    (hurl : ¬ Storage.accepts session.controller.user.profileImageUrl = true) :
    updateProfileImage.exec e session = ({ session with loader := true }, []) := by
  unfold updateProfileImage
  rw [Prog.exec_read, hsession]
  dsimp only [EditProfileController.showLoader]
  rw [Prog.exec_modify]
  unfold UserService.updateProfileImage withCurrentUid
  rw [Prog.exec_ask, he]
  dsimp only
  rw [if_neg hurl]
  rfl

theorem session_updateProfileImage {image : UIImage}
    (hsession : session.controller.selectedImage = some image) (he : e.currentUid = some uid) :
    (updateProfileImage.exec e session).1 = { session with loader := true } := by
  by_cases hurl : Storage.accepts session.controller.user.profileImageUrl = true
  · rw [exec_updateProfileImage hsession he hurl]
  · rw [exec_updateProfileImage_rejected hsession he hurl]

/-- An assignment that keeps the profile's user does not call the delegate. -/
theorem not_callsDelegate {f : EditSession → EditSession}
    (h : ∀ session, (f session).profileUser = session.profileUser) : ¬ CallsDelegate f := by
  rintro ⟨session, hsession⟩
  exact hsession (h session)

theorem callsDelegate_wantsToUpdate :
    CallsDelegate fun session => { session with profileUser := session.controller.user } := by
  refine ⟨{ controller := { user := User.init (dict []) }
            profileUser := User.init (dict [("uid", .string "a")]) }, ?_⟩
  decide

/-- That turn only shows the loader. -/
theorem silent_updateProfileImage {image : UIImage}
    (hsession : session.controller.selectedImage = some image) (he : e.currentUid = some uid) :
    ∀ f ∈ updateProfileImage.assigns e session, ¬ CallsDelegate f := by
  have hupload : ∀ next : String → Program EditSession, ∀ x,
      (ImageUploader.uploadImage image next).assigns e x = [] := by
    intro next x
    unfold ImageUploader.uploadImage
    cases image.jpegData with
    | none => rfl
    | some imageData => rfl
  have hassigns : updateProfileImage.assigns e session
      = [fun session => { session with loader := true }] := by
    unfold updateProfileImage
    simp only [Prog.assigns, hsession, EditProfileController.showLoader,
      UserService.updateProfileImage, withCurrentUid, he]
    split
    case isTrue => rw [Prog.assigns, hupload]
    case isFalse => rfl
  rw [hassigns]
  intro f hf
  obtain rfl := List.mem_singleton.mp hf
  exact not_callsDelegate fun _ => rfl

theorem exec_onlyIf {condition : EditProfileController → Bool}
    {body : EditProfileController → Program EditSession} :
    (onlyIf condition body).exec e session
      = if condition session.controller then (body session.controller).exec e session
        else (session, []) := by
  unfold onlyIf
  rw [Prog.exec_read]
  split <;> rfl

theorem assigns_onlyIf {condition : EditProfileController → Bool}
    {body : EditProfileController → Program EditSession} :
    (onlyIf condition body).assigns e session
      = if condition session.controller then (body session.controller).assigns e session
        else [] := by
  unfold onlyIf
  rw [Prog.assigns]
  split <;> rfl

/-- The turn that saves. -/
theorem exec_saveUserData (session : EditSession) (user : User)
    (completion : Option Error → Program EditSession) (he : e.currentUid = some uid) :
    (EditProfileController.showLoader true (UserService.saveUserData user completion)).exec e
          session
        = ({ session with loader := true },
            [.issued (.write (.setData ["users", uid] (savedUser user uid))) completion])
      ∧ ∀ f ∈ (EditProfileController.showLoader true
          (UserService.saveUserData user completion)).assigns e session, ¬ CallsDelegate f := by
  unfold EditProfileController.showLoader UserService.saveUserData withCurrentUid
  rw [Prog.exec_modify, Prog.exec_ask, he]
  refine ⟨rfl, fun f hf => ?_⟩
  simp only [Prog.assigns, he] at hf
  obtain rfl := List.mem_singleton.mp hf
  exact not_callsDelegate fun _ => rfl

/-- The first turn of a commit: it saves, or starts on the picture. -/
theorem exec_updateUserData (session : EditSession) (he : e.currentUid = some uid) :
    updateUserData.exec e session
        = (if session.controller.userInfoChanged then
            ({ session with loader := true },
              [.issued (.write (.setData ["users", uid] (savedUser session.controller.user uid)))
                (didSave session.controller)])
          else if session.controller.imageChanged then updateProfileImage.exec e session
          else (session, []))
      ∧ ∀ f ∈ updateUserData.assigns e session, ¬ CallsDelegate f := by
  have hsave := fun completion => exec_saveUserData session
    session.controller.user completion he
  unfold updateUserData didSave
  rw [Prog.exec_andThen, Prog.assigns_andThen, Prog.exec_andThen, Prog.assigns_andThen]
  simp only [exec_onlyIf, assigns_onlyIf]
  cases hinfo : session.controller.userInfoChanged with
  | true =>
    cases himage : session.controller.imageChanged with
    | true =>
      obtain ⟨hexec, hsilent⟩ := hsave fun _ => updateProfileImage
      simp [hinfo, himage, hexec]
      exact hsilent
    | false =>
      obtain ⟨hexec, hsilent⟩ := hsave fun _ => EditProfileController.showLoader false wantsToUpdate
      simp [hinfo, himage, hexec]
      exact hsilent
  | false =>
    cases himage : session.controller.imageChanged with
    | true =>
      obtain ⟨image, himage'⟩ := Option.isSome_iff_exists.mp himage
      have hsession := session_updateProfileImage himage' he
      have hsilent := silent_updateProfileImage himage' he
      simp [hinfo, himage, hsession]
      exact ⟨Prod.ext hsession.symm rfl, hsilent⟩
    | false => simp [hinfo, himage]

/-- The delegate is called once the save has returned. -/
theorem exec_didSave (himage : controller.imageChanged = false) (error : Option Error) (e : Turn)
    (session : EditSession) :
    (didSave controller error).exec e session
        = ({ session with loader := false, profileUser := session.controller.user }, [])
      ∧ (didSave controller error).assigns e session
        = [fun session => { session with loader := false },
            fun session => { session with profileUser := session.controller.user }] := by
  unfold didSave
  rw [himage]
  exact ⟨rfl, rfl⟩

theorem exec_didUpdate_some (user : User) (url : String) (error : Error) (e : Turn)
    (session : EditSession) :
    (didUpdate user url (some error)).exec e session
        = ({ session with loader := false, message := some error }, [])
      ∧ ∀ f ∈ (didUpdate user url (some error)).assigns e session, ¬ CallsDelegate f := by
  refine ⟨rfl, fun f hf => ?_⟩
  have hf : f ∈ [fun session : EditSession => { session with loader := false },
      fun session => { session with message := some error }] := hf
  rcases List.mem_cons.mp hf with rfl | hf
  · exact not_callsDelegate fun _ => rfl
  · obtain rfl := List.mem_singleton.mp hf
    exact not_callsDelegate fun _ => rfl

end Turns

/-! ## What is in flight -/

/-- The requests beside the thread of a commit. -/
def SideRequest : Request → Prop
  | .write (.updateData ["posts", _] _) => True
  | .getDocuments _ => True
  | .deleteObject _ => True
  | _ => False

/-- A flight beside it: it assigns nothing. -/
def Beside : Flight Request Response Turn EditSession → Prop
  | .issued r k => SideRequest r ∧ ∀ y, (k y).Spares SideRequest id
  | .served _ p => p.Spares SideRequest id

theorem Beside.deliver {r : Request} {p : Program EditSession} (h : Beside (.served r p)) (e : Turn)
    (session : EditSession) :
    (p.exec e session).1 = session ∧ (∀ fl ∈ (p.exec e session).2, Beside fl)
      ∧ ∀ f ∈ p.assigns e session, ¬ CallsDelegate f := by
  have h : p.Spares SideRequest id := h
  obtain ⟨hsession, hissues⟩ := h.exec e session
  refine ⟨hsession, fun fl hfl => ?_, fun f hf => ?_⟩
  · have hspares := hissues fl hfl
    cases fl with
    | issued r k => exact hspares
    | served r p => exact hspares.2
  · exact not_callsDelegate fun x => congrArg _ (h.assigns e session f hf x)

/-- The update of the document is reported, and the posts are looked for. -/
theorem exec_didUpdate_none (user : User) (url : String) (e : Turn) (session : EditSession) :
    ∃ fl, Beside fl
      ∧ (didUpdate user url none).exec e session
        = ({ session.mapUser fun user => { user with profileImageUrl := url } with
              loader := false
              profileUser := { session.controller.user with profileImageUrl := url } },
            [fl])
      ∧ (didUpdate user url none).assigns e session
        = [fun session => { session with loader := false },
            (·.mapUser fun user => { user with profileImageUrl := url }),
            fun session => { session with profileUser := session.controller.user }] := by
  refine ⟨.issued (.getDocuments _) _, ⟨trivial, fun snapshot => ?_⟩, rfl, rfl⟩
  cases snapshot with
  | none => trivial
  | some documents => exact .forEach fun document => ⟨trivial, fun _ => trivial, trivial⟩

/-- Where the thread of a commit is. -/
inductive CommitStage where
  | saving
  | saved (error : Option Error)
  | uploading
  | updating (url : String)
  | updated (url : String) (error : Option Error)

section Commits

variable {S : Type} {s : S} {uid : String} {controller : EditProfileController} {d : Doc}

/-- Its flight at each stage. -/
inductive CommitFlight (controller : EditProfileController) (uid : String) :
    Flight Request Response Turn EditSession → CommitStage → Prop
  | saving :
      CommitFlight controller uid
        (.issued (.write (.setData ["users", uid] (savedUser controller.user uid)))
          (didSave controller)) .saving
  | saved (r error) :
      CommitFlight controller uid (.served r (didSave controller error)) (.saved error)
  | uploading {fl u} (h : UploadAt (didUpload controller.user uid) fl u) :
      CommitFlight controller uid fl .uploading
  | updating (url) :
      CommitFlight controller uid
        (.issued (.write (.updateData ["users", uid] (dict [("profileImageUrl", .string url)])))
          (didUpdate controller.user url)) (.updating url)
  | updated (r url error) :
      CommitFlight controller uid (.served r (didUpdate controller.user url error))
        (.updated url error)

/-- The thread of session `s` is at `stage`, or it is over. -/
def Follows (s : S) (controller : EditProfileController) (uid : String)
    (pool : List (S × Flight Request Response Turn EditSession)) (stage : Option CommitStage) :
    Prop :=
  Tracks (fun t fl => t = s → Beside fl) (fun t fl st => t = s ∧ CommitFlight controller uid fl st)
    pool (stage.toList.map fun st => (s, st))

/-! ## What has come of it -/

/-- What the save has left of the document `d`. -/
def afterSave (controller : EditProfileController) (uid : String) (d : Doc)
    (failed : List CommitPart) : Doc :=
  if controller.userInfoChanged = true ∧ .save ∉ failed then savedUser controller.user uid else d

/-- The document with the new picture. -/
def withPicture (url : String) (stored : Doc) : Doc :=
  stored.merge (dict [("profileImageUrl", .string url)])

/-- What the update has left of the document. -/
def afterUpdate (url : String) (error : Option Error) (stored : Doc) : Doc :=
  if error.isSome then stored else withPicture url stored

/-- There is an image, it has data, and Storage accepts the URL of the one it replaces. -/
def Encodes (controller : EditProfileController) : Prop :=
  ∃ image, controller.selectedImage = some image ∧ image.jpegData.isSome = true
    ∧ Storage.accepts controller.user.profileImageUrl = true

/-- The commit is going on: the loader is shown, and the delegate has not been called. -/
structure Waiting (controller : EditProfileController) (session : EditSession)
    (assigned : List (EditSession → EditSession)) : Prop where
  controller : session.controller = controller
  loader : session.loader = true
  silent : ∀ f ∈ assigned, ¬ CallsDelegate f

/-- The delegate has been called once, with `user`. -/
structure Told (user : User) (session : EditSession)
    (assigned : List (EditSession → EditSession)) : Prop where
  once : assigned.Pairwise fun f g => ¬ (CallsDelegate f ∧ CallsDelegate g)
  called : ∃ f ∈ assigned, CallsDelegate f
  user : session.profileUser = user

/-- What has failed so far, what is stored, and what the session knows, at each stage and at
each end. -/
inductive Standing (controller : EditProfileController) (uid : String) (d : Doc) :
    Option CommitStage → List CommitPart → Doc → EditSession →
      List (EditSession → EditSession) → Prop
  | saving {failed session assigned} (hinfo : controller.userInfoChanged = true)
      (hfailed : .save ∉ failed ∧ .upload ∉ failed ∧ .update ∉ failed)
      (hwaiting : Waiting controller session assigned) :
      Standing controller uid d (some .saving) failed d session assigned
  | saved {failed session assigned} (error) (hinfo : controller.userInfoChanged = true)
      (hfailed : .upload ∉ failed ∧ .update ∉ failed)
      (hwaiting : Waiting controller session assigned) :
      Standing controller uid d (some (.saved error)) failed (afterSave controller uid d failed)
        session assigned
  | uploading {failed session assigned} (himage : Encodes controller)
      (hfailed : .upload ∉ failed ∧ .update ∉ failed)
      (hwaiting : Waiting controller session assigned) :
      Standing controller uid d (some .uploading) failed (afterSave controller uid d failed)
        session assigned
  | updating {failed session assigned} (url) (himage : Encodes controller)
      (hfailed : .upload ∉ failed ∧ .update ∉ failed)
      (hwaiting : Waiting controller session assigned) :
      Standing controller uid d (some (.updating url)) failed (afterSave controller uid d failed)
        session assigned
  | updated {failed session assigned} (url error) (himage : Encodes controller)
      (hfailed : .upload ∉ failed ∧ (.update ∈ failed ↔ error.isSome = true))
      (hwaiting : Waiting controller session assigned) :
      Standing controller uid d (some (.updated url error)) failed
        (afterUpdate url error (afterSave controller uid d failed)) session assigned
  -- nothing to commit
  | idle {failed session assigned} (hinfo : controller.userInfoChanged = false)
      (himage : controller.selectedImage = none) (hloader : session.loader = false)
      (hsilent : ∀ f ∈ assigned, ¬ CallsDelegate f) :
      Standing controller uid d none failed d session assigned
  -- the user has been saved, or not
  | returned {failed session assigned} (hinfo : controller.userInfoChanged = true)
      (himage : controller.selectedImage = none) (htold : Told controller.user session assigned) :
      Standing controller uid d none failed (afterSave controller uid d failed) session assigned
  -- the upload has ended without a word, or the process has
  | stuck {failed session assigned} (stored) (hupload : ¬ Encodes controller ∨ .upload ∈ failed)
      (himage : controller.imageChanged = true) (hwaiting : Waiting controller session assigned) :
      Standing controller uid d none failed stored session assigned
  -- the update has failed
  | refused {failed session assigned} (himage : Encodes controller)
      (hfailed : .upload ∉ failed ∧ .update ∈ failed) (hloader : session.loader = false)
      (hsilent : ∀ f ∈ assigned, ¬ CallsDelegate f) :
      Standing controller uid d none failed (afterSave controller uid d failed) session assigned
  -- the picture has been updated
  | reported {failed session assigned} (url) (himage : Encodes controller)
      (hfailed : .upload ∉ failed ∧ .update ∉ failed)
      (htold : Told { controller.user with profileImageUrl := url } session assigned) :
      Standing controller uid d none failed (withPicture url (afterSave controller uid d failed))
        session assigned

/-- What fails beside the thread makes no difference. -/
theorem Standing.beside {stage : Option CommitStage} {failed failed' : List CommitPart}
    {stored : Doc} {session : EditSession} {assigned : List (EditSession → EditSession)}
    (h : Standing controller uid d stage failed stored session assigned)
    (hfailed : ∀ part, part = .save ∨ part = .upload ∨ part = .update →
      (part ∈ failed' ↔ part ∈ failed)) :
    Standing controller uid d stage failed' stored session assigned := by
  have hsave := hfailed .save (by simp)
  have hupload := hfailed .upload (by simp)
  have hupdate := hfailed .update (by simp)
  have hafter : afterSave controller uid d failed' = afterSave controller uid d failed := by
    simp only [afterSave, hsave]
  cases h with
  | saving hinfo hnone hwaiting =>
    exact .saving hinfo (by rwa [hsave, hupload, hupdate]) hwaiting
  | saved error hinfo hnone hwaiting =>
    exact hafter ▸ .saved error hinfo (by rwa [hupload, hupdate]) hwaiting
  | uploading himage hnone hwaiting =>
    exact hafter ▸ .uploading himage (by rwa [hupload, hupdate]) hwaiting
  | updating url himage hnone hwaiting =>
    exact hafter ▸ .updating url himage (by rwa [hupload, hupdate]) hwaiting
  | updated url error himage hnone hwaiting =>
    exact hafter ▸ .updated url error himage (by rwa [hupload, hupdate]) hwaiting
  | idle hinfo himage hloader hsilent => exact .idle hinfo himage hloader hsilent
  | returned hinfo himage htold => exact hafter ▸ .returned hinfo himage htold
  | stuck stored hended himage hwaiting => exact .stuck stored (by rwa [hupload]) himage hwaiting
  | refused himage hnone hloader hsilent =>
    exact hafter ▸ .refused himage (by rwa [hupload, hupdate]) hloader hsilent
  | reported url himage hnone htold =>
    exact hafter ▸ .reported url himage (by rwa [hupload, hupdate]) htold

/-- Assignments that call nobody. -/
theorem silent_append {assigned assigned' : List (EditSession → EditSession)}
    (h : ∀ f ∈ assigned, ¬ CallsDelegate f) (h' : ∀ f ∈ assigned', ¬ CallsDelegate f) :
    ∀ f ∈ assigned ++ assigned', ¬ CallsDelegate f := by
  intro f hf
  rcases List.mem_append.mp hf with hf | hf
  · exact h f hf
  · exact h' f hf

theorem Told.append {user : User} {session : EditSession}
    {assigned assigned' : List (EditSession → EditSession)} (h : Told user session assigned)
    (hsilent : ∀ f ∈ assigned', ¬ CallsDelegate f) : Told user session (assigned ++ assigned') := by
  obtain ⟨f, hf, hcalls⟩ := h.called
  refine ⟨List.pairwise_append.mpr ⟨h.once, ?_, ?_⟩, ⟨f, List.mem_append_left _ hf, hcalls⟩, h.user⟩
  · exact List.pairwise_of_forall_mem_list fun g hg _ _ hboth => hsilent g hg hboth.1
  · exact fun _ _ g hg hboth => hsilent g hg hboth.2

/-- The last assignment of a turn calls the delegate. -/
theorem Told.last {user : User} {session : EditSession}
    {assigned : List (EditSession → EditSession)} (turn : List (EditSession → EditSession))
    {f : EditSession → EditSession} (hassigned : ∀ f ∈ assigned, ¬ CallsDelegate f)
    (hturn : ∀ f ∈ turn, ¬ CallsDelegate f)
    (hf : CallsDelegate f) (huser : session.profileUser = user) :
    Told user session (assigned ++ (turn ++ [f])) := by
  have hsilent := silent_append hassigned hturn
  rw [← List.append_assoc]
  refine ⟨List.pairwise_append.mpr ⟨?_, List.pairwise_singleton _ _, ?_⟩, ⟨f, by simp, hf⟩, huser⟩
  · exact List.pairwise_of_forall_mem_list fun g hg _ _ hboth => hsilent g hg hboth.1
  · exact fun g hg _ _ hboth => hsilent g hg hboth.1

/-- Assignments that call nobody make no difference. -/
theorem Standing.quietly {stage : Option CommitStage} {failed : List CommitPart}
    {stored : Doc} {session : EditSession} {assigned assigned' : List (EditSession → EditSession)}
    (h : Standing controller uid d stage failed stored session assigned)
    (hsilent : ∀ f ∈ assigned', ¬ CallsDelegate f) :
    Standing controller uid d stage failed stored session (assigned ++ assigned') := by
  have hwaiting : Waiting controller session assigned →
      Waiting controller session (assigned ++ assigned') :=
    fun h => ⟨h.controller, h.loader, silent_append h.silent hsilent⟩
  cases h with
  | saving hinfo hnone h => exact .saving hinfo hnone (hwaiting h)
  | saved error hinfo hnone h => exact .saved error hinfo hnone (hwaiting h)
  | uploading himage hnone h => exact .uploading himage hnone (hwaiting h)
  | updating url himage hnone h => exact .updating url himage hnone (hwaiting h)
  | updated url error himage hnone h => exact .updated url error himage hnone (hwaiting h)
  | idle hinfo himage hloader h =>
    exact .idle hinfo himage hloader (silent_append h hsilent)
  | returned hinfo himage h => exact .returned hinfo himage (h.append hsilent)
  | stuck stored hended himage h => exact .stuck stored hended himage (hwaiting h)
  | refused himage hnone hloader h =>
    exact .refused himage hnone hloader (silent_append h hsilent)
  | reported url himage hnone h => exact .reported url himage hnone (h.append hsilent)

/-- What a reply adds to what has failed. -/
def failedNow {r : Request} (y : Response r) : List CommitPart :=
  (failedPart (.reply r y)).toList

/-- A request beside the thread is served: the document stays as it is. -/
theorem Beside.serve {b b' : Backend} {r : Request} {k : Response r → Program EditSession}
    {o : Outcome} {y : Response r} (h : Beside (.issued r k)) (uid : String)
    (hserve : serve b r o = some (b', y)) :
    Beside (.served r (k y)) ∧ b'.docs.lookup ["users", uid] = b.docs.lookup ["users", uid]
      ∧ ∀ part ∈ failedNow y, part = .deletion ∨ part = .posts := by
  obtain ⟨hside, hk⟩ := h
  refine ⟨hk y, serve_lookup_ne hserve ?_, ?_⟩
  · rintro w rfl heq
    unfold SideRequest at hside
    split at hside
    next hw =>
      obtain rfl := Request.write.inj hw
      exact absurd heq (by simp)
    next hw => exact absurd hw (by simp)
    next hw => exact absurd hw (by simp)
    next => exact hside
  · intro part hpart
    unfold SideRequest at hside
    split at hside
    next => cases y <;> simp_all [failedNow, failedPart]
    next => simp_all [failedNow, failedPart]
    next => cases y <;> simp_all [failedNow, failedPart]
    next => exact hside.elim

/-- A request of the upload is served: it goes on, or it fails and that is the end. -/
theorem uploading_serve {next : String → Program EditSession} {b b' : Backend} {r : Request}
    {k : Response r → Program EditSession} {o : Outcome} {y : Response r} {u : Option String}
    (h : UploadAt next (.issued r k) u) (hserve : serve b r o = some (b', y)) :
    b'.docs = b.docs
      ∧ ((∃ u', UploadAt next (.served r (k y)) u') ∧ failedNow y = []
        ∨ k y = .done ∧ failedNow y = [.upload]) := by
  generalize hfl : Flight.issued r k = fl at h
  cases h with
  | storing reference data =>
    obtain ⟨rfl, hk⟩ := Flight.issued.inj hfl
    obtain rfl := eq_of_heq hk
    refine ⟨serve_docs hserve fun w hw => (nomatch hw), ?_⟩
    cases y with
    | none => exact Or.inl ⟨⟨_, .stored reference data⟩, rfl⟩
    | some error => exact Or.inr ⟨rfl, rfl⟩
  | locating reference =>
    obtain ⟨rfl, hk⟩ := Flight.issued.inj hfl
    obtain rfl := eq_of_heq hk
    refine ⟨serve_docs hserve fun w hw => (nomatch hw), ?_⟩
    cases y with
    | none => exact Or.inr ⟨rfl, rfl⟩
    | some url =>
      -- the URL is that of the reference
      obtain rfl : url = objectUrl reference := by
        cases o <;> simp [InstaClone.serve] at hserve
        split at hserve <;> simp_all
      exact Or.inl ⟨⟨_, .located reference⟩, rfl⟩
  | _ => exact absurd hfl (by simp)

/-- The request of the thread is served. -/
theorem Standing.serve {stage : CommitStage} {failed : List CommitPart} {stored : Doc}
    {session : EditSession} {assigned : List (EditSession → EditSession)}
    (h : Standing controller uid d (some stage) failed stored session assigned)
    {b b' : Backend} {r : Request} {k : Response r → Program EditSession} {o : Outcome}
    {y : Response r} (hflight : CommitFlight controller uid (.issued r k) stage)
    (hstored : b.docs.lookup ["users", uid] = some stored)
    (hserve : serve b r o = some (b', y)) :
    ∃ stored', b'.docs.lookup ["users", uid] = some stored'
      ∧ ((∃ stage', CommitFlight controller uid (.served r (k y)) stage'
          ∧ Standing controller uid d (some stage') (failed ++ failedNow y) stored' session
              assigned)
        ∨ Beside (.served r (k y))
          ∧ Standing controller uid d none (failed ++ failedNow y) stored' session assigned) := by
  generalize hfl : Flight.issued r k = fl at hflight
  cases hflight with
  | saving =>
    obtain ⟨rfl, hk⟩ := Flight.issued.inj hfl
    obtain rfl := eq_of_heq hk
    cases h with
    | saving hinfo hnone hwaiting =>
      obtain ⟨hsave, hupload, hupdate⟩ := hnone
      rcases serve_write hserve with ⟨rfl, docs, hdocs, rfl⟩ | ⟨⟨error, rfl⟩, rfl⟩
      · refine ⟨savedUser controller.user uid, Write.lookup_apply hdocs, Or.inl ⟨_, .saved _ _, ?_⟩⟩
        have hafter : savedUser controller.user uid
            = afterSave controller uid d (failed ++ []) := by
          unfold afterSave
          rw [if_pos ⟨hinfo, by simpa using hsave⟩]
        rw [hafter]
        exact .saved none hinfo (by simpa [failedNow, failedPart] using ⟨hupload, hupdate⟩) hwaiting
      · refine ⟨d, hstored, Or.inl ⟨_, .saved _ _, ?_⟩⟩
        have hafter : d = afterSave controller uid d (failed ++ [.save]) := by
          unfold afterSave
          rw [if_neg (by simp)]
        nth_rewrite 2 [hafter]
        exact .saved (some error) hinfo
          (by simpa [failedNow, failedPart] using ⟨hupload, hupdate⟩) hwaiting
  | uploading hupload =>
    obtain rfl := hfl
    obtain ⟨hdocs, hnext⟩ := uploading_serve hupload hserve
    refine ⟨stored, by rw [hdocs]; exact hstored, ?_⟩
    cases h with
    | uploading himage hnone hwaiting =>
      rcases hnext with ⟨⟨u', hnext⟩, hfailed⟩ | ⟨hdone, hfailed⟩
      · rw [hfailed, List.append_nil]
        exact Or.inl ⟨_, .uploading hnext, .uploading himage hnone hwaiting⟩
      · rw [hfailed, hdone]
        obtain ⟨image, himage, -⟩ := himage
        refine Or.inr ⟨trivial, .stuck _ (Or.inr (by simp)) ?_ hwaiting⟩
        exact Option.isSome_iff_exists.mpr ⟨image, himage⟩
  | updating url =>
    obtain ⟨rfl, hk⟩ := Flight.issued.inj hfl
    obtain rfl := eq_of_heq hk
    cases h with
    | updating url himage hnone hwaiting =>
      obtain ⟨hupload, hupdate⟩ := hnone
      rcases serve_write hserve with ⟨rfl, docs, hdocs, rfl⟩ | ⟨⟨error, rfl⟩, rfl⟩
      · refine ⟨withPicture url (afterSave controller uid d failed), ?_,
          Or.inl ⟨_, .updated _ _ _, ?_⟩⟩
        · have hlook := Write.lookup_apply hdocs
          rw [Write.path_updateData, hstored] at hlook
          exact hlook
        · show Standing controller uid d _ (failed ++ []) _ session assigned
          rw [List.append_nil]
          exact .updated url none himage ⟨hupload, iff_of_false hupdate (by simp)⟩ hwaiting
      · refine ⟨_, hstored, Or.inl ⟨_, .updated _ _ _, ?_⟩⟩
        have hafter : afterSave controller uid d failed
            = afterSave controller uid d (failed ++ [.update]) := by
          simp [afterSave]
        rw [hafter]
        exact .updated url (some error) himage
          ⟨by simpa [failedNow, failedPart] using hupload, by simp [failedNow, failedPart]⟩ hwaiting
  | _ => exact absurd hfl (by simp)

theorem follows_append {pool pool' : List (S × Flight Request Response Turn EditSession)}
    {stage : Option CommitStage} (h : Follows s controller uid pool none)
    (h' : Follows s controller uid pool' stage) :
    Follows s controller uid (pool ++ pool') stage :=
  Tracks.append h h'

theorem Follows.append {pool pool' : List (S × Flight Request Response Turn EditSession)}
    {stage : Option CommitStage} (h : Follows s controller uid pool stage)
    (h' : Follows s controller uid pool' none) :
    Follows s controller uid (pool ++ pool') stage := by
  have happ := Tracks.append h h'
  rwa [Option.toList_none, List.map_nil, List.append_nil] at happ

/-- Flights beside the thread. -/
theorem follows_beside {fls : List (Flight Request Response Turn EditSession)}
    (h : ∀ fl ∈ fls, Beside fl) :
    Follows s controller uid (fls.map fun fl => (s, fl)) none := by
  refine Tracks.of_quiet fun x hx => ?_
  obtain ⟨fl, hfl, rfl⟩ := List.mem_map.mp hx
  exact fun _ => h fl hfl

theorem follows_beside_one {fl : Flight Request Response Turn EditSession} (h : Beside fl) :
    Follows s controller uid [(s, fl)] none :=
  Tracks.of_quiet fun x hx heq => by
    obtain rfl := List.mem_singleton.mp hx
    exact h

/-- A flight of the thread. -/
theorem follows_thread {fl : Flight Request Response Turn EditSession} {stage : CommitStage}
    (h : CommitFlight controller uid fl stage) :
    Follows s controller uid [(s, fl)] (some stage) :=
  Tracks.single ⟨rfl, h⟩

/-- The flight of a step is beside the thread, or it is the thread's. -/
theorem Follows.split {pre post : List (S × Flight Request Response Turn EditSession)} {t : S}
    {fl : Flight Request Response Turn EditSession} {stage : Option CommitStage}
    (h : Follows s controller uid (pre ++ (t, fl) :: post) stage) :
    ((t = s → Beside fl) ∧ ∀ pool, Follows s controller uid pool none →
        Follows s controller uid (pre ++ (pool ++ post)) stage)
      ∨ ∃ st, stage = some st ∧ t = s ∧ CommitFlight controller uid fl st
        ∧ ∀ pool stage', Follows s controller uid pool stage' →
          Follows s controller uid (pre ++ (pool ++ post)) stage' := by
  obtain ⟨l, l', hpre, hpost, hcase⟩ := Tracks.split h
  rcases hcase with ⟨hquiet, hstages⟩ | ⟨st, ⟨rfl, hflight⟩, hstages⟩
  · refine Or.inl ⟨hquiet, fun pool hpool => ?_⟩
    unfold Follows
    rw [hstages]
    exact hpre.append (Tracks.append hpool hpost)
  · cases stage with
    | none => exact absurd hstages (by simp)
    | some stage =>
      have hone : [(t, stage)] = l ++ (t, st) :: l' := hstages
      cases l with
      | cons x l => exact absurd (List.cons.inj hone).2 (by simp)
      | nil =>
        obtain ⟨heq, rfl⟩ := List.cons.inj hone
        obtain rfl := (Prod.mk.inj heq).2
        refine Or.inr ⟨stage, rfl, rfl, hflight, fun pool stage' hpool => ?_⟩
        have happ := hpre.append (Tracks.append hpool hpost)
        rwa [List.nil_append, List.append_nil] at happ

/-- The commit turns to the picture. -/
theorem standing_picture {failed : List CommitPart} {session : EditSession} {e : Turn}
    {assigned : List (EditSession → EditSession)} (hcontroller : session.controller = controller)
    (himage : controller.imageChanged = true) (hfailed : .upload ∉ failed ∧ .update ∉ failed)
    (hsilent : ∀ f ∈ assigned, ¬ CallsDelegate f) (he : e.currentUid = some uid) :
    ∃ stage,
      Follows s controller uid ((updateProfileImage.exec e session).2.map fun fl => (s, fl)) stage
      ∧ Standing controller uid d stage failed (afterSave controller uid d failed)
        (updateProfileImage.exec e session).1 assigned := by
  subst hcontroller
  obtain ⟨image, hselected⟩ := Option.isSome_iff_exists.mp himage
  have hwaiting : Waiting session.controller { session with loader := true } assigned :=
    ⟨rfl, rfl, hsilent⟩
  have hdeletion : Follows s session.controller uid
      [(s, .issued (.deleteObject session.controller.user.profileImageUrl) fun _ => .done)] none :=
    follows_beside_one ⟨trivial, fun _ => trivial⟩
  by_cases hurl : Storage.accepts session.controller.user.profileImageUrl = true
  case neg =>
    rw [exec_updateProfileImage_rejected hselected he hurl]
    exact ⟨none, .nil, .stuck _ (Or.inl fun ⟨_, _, _, h⟩ => hurl h) himage hwaiting⟩
  rw [exec_updateProfileImage hselected he hurl]
  cases hjpeg : image.jpegData with
  | none =>
    refine ⟨none, hdeletion, .stuck _ (Or.inl ?_) himage hwaiting⟩
    rintro ⟨image', hselected', hsome, -⟩
    obtain rfl := Option.some.inj (hselected.symm.trans hselected')
    rw [hjpeg] at hsome
    exact absurd hsome (by simp)
  | some imageData =>
    exact ⟨some .uploading,
      follows_append hdeletion (follows_thread (.uploading (.storing _ imageData))),
      .uploading ⟨image, hselected, by rw [hjpeg]; rfl, hurl⟩ hfailed hwaiting⟩

/-- The callback of the thread runs. -/
theorem Standing.deliver {stage : CommitStage} {failed : List CommitPart} {stored : Doc}
    {session : EditSession} {assigned : List (EditSession → EditSession)}
    (h : Standing controller uid d (some stage) failed stored session assigned)
    {r : Request} {p : Program EditSession} {e : Turn}
    (hflight : CommitFlight controller uid (.served r p) stage) (he : e.currentUid = some uid) :
    ∃ stage', Follows s controller uid ((p.exec e session).2.map fun fl => (s, fl)) stage'
      ∧ Standing controller uid d stage' failed stored (p.exec e session).1
        (assigned ++ p.assigns e session) := by
  generalize hfl : Flight.served r p = fl at hflight
  cases hflight with
  | saved r error =>
    obtain ⟨rfl, rfl⟩ := Flight.served.inj hfl
    cases h with
    | saved error hinfo hfailed hwaiting =>
      cases himage : controller.imageChanged with
      | true =>
        have hpicture : didSave controller error = updateProfileImage := by
          unfold didSave
          rw [if_pos himage]
        rw [hpicture]
        obtain ⟨image, hselected⟩ := Option.isSome_iff_exists.mp himage
        have hsession : session.controller.selectedImage = some image :=
          hwaiting.controller.symm ▸ hselected
        exact standing_picture hwaiting.controller himage hfailed
          (silent_append hwaiting.silent (silent_updateProfileImage hsession he)) he
      | false =>
        obtain ⟨hexec, hassigns⟩ := exec_didSave himage error e session
        rw [hexec, hassigns]
        have hnone : controller.selectedImage = none :=
          Option.not_isSome_iff_eq_none.mp (Bool.eq_false_iff.mp himage)
        refine ⟨none, .nil, .returned hinfo hnone ?_⟩
        refine Told.last [_] hwaiting.silent (fun f hf => ?_) callsDelegate_wantsToUpdate
          (congrArg EditProfileController.user hwaiting.controller)
        obtain rfl := List.mem_singleton.mp hf
        exact not_callsDelegate fun _ => rfl
  | uploading hupload =>
    obtain rfl := hfl
    cases h with
    | uploading himage hfailed hwaiting =>
      have hsame : assigned ++ [] = assigned := List.append_nil _
      generalize hfl : Flight.served r p = fl at hupload
      cases hupload with
      | stored reference data =>
        obtain ⟨rfl, rfl⟩ := Flight.served.inj hfl
        refine ⟨_, follows_thread (.uploading (.locating reference)), ?_⟩
        exact hsame.symm ▸ .uploading himage hfailed hwaiting
      | located reference =>
        obtain ⟨rfl, rfl⟩ := Flight.served.inj hfl
        refine ⟨_, follows_thread (.updating (objectUrl reference)), ?_⟩
        exact hsame.symm ▸ .updating _ himage hfailed hwaiting
      | _ => exact absurd hfl (by simp)
  | updated r url error =>
    obtain ⟨rfl, rfl⟩ := Flight.served.inj hfl
    cases h with
    | updated url error himage hfailed hwaiting =>
      cases error with
      | some error =>
        obtain ⟨hexec, hsilent⟩ :=
          exec_didUpdate_some controller.user url error e session
        rw [hexec]
        exact ⟨none, .nil, .refused himage ⟨hfailed.1, hfailed.2.mpr rfl⟩ rfl
          (silent_append hwaiting.silent hsilent)⟩
      | none =>
        obtain ⟨fl, hbeside, hexec, hassigns⟩ :=
          exec_didUpdate_none controller.user url e session
        rw [hexec, hassigns]
        refine ⟨none, follows_beside_one hbeside,
          .reported url himage ⟨hfailed.1, fun hmem => ?_⟩ ?_⟩
        · exact absurd (hfailed.2.mp hmem) (by simp)
        · refine Told.last [_, _] hwaiting.silent (fun f hf => ?_)
            callsDelegate_wantsToUpdate
            (congrArg (fun c => { c.user with profileImageUrl := url }) hwaiting.controller)
          rcases List.mem_cons.mp hf with rfl | hf
          · exact not_callsDelegate fun _ => rfl
          · obtain rfl := List.mem_singleton.mp hf
            exact not_callsDelegate fun _ => rfl
  | _ => exact absurd hfl (by simp)

end Commits

/-! ## Runs -/

section Runs

variable {S A : Type} {act : A → Program EditSession} {s : S} {uid : String}
variable {controller : EditProfileController} {d : Doc} {w w' : AppWorld EditSession S}

/-- What has come of the commit of session `s` so far. -/
def CommitInv (s : S) (controller : EditProfileController) (uid : String) (d : Doc)
    (w : AppWorld EditSession S) (T : List (Mark Request Response))
    (assigned : List (EditSession → EditSession)) :
    Prop :=
  ∃ stage stored, Follows s controller uid w.pool stage
    ∧ w.backend.docs.lookup ["users", uid] = some stored
    ∧ Standing controller uid d stage (T.filterMap failedPart) stored (w.client s) assigned

/-- The stage does not depend on what another session does. -/
theorem CommitInv.other {T : List (Mark Request Response)}
    {assigned : List (EditSession → EditSession)}
    (h : CommitInv s controller uid d w T assigned)
    (hpool : ∀ stage,
      Follows s controller uid w.pool stage → Follows s controller uid w'.pool stage)
    (hdocs : w'.backend.docs.lookup ["users", uid] = w.backend.docs.lookup ["users", uid])
    (hclient : w'.client s = w.client s) : CommitInv s controller uid d w' T assigned := by
  obtain ⟨stage, stored, hfollows, hstored, hstanding⟩ := h
  exact ⟨stage, stored, hpool stage hfollows, hdocs.trans hstored, hclient.symm ▸ hstanding⟩

/-- The flights of another session. -/
theorem follows_other {t : S} (hne : t ≠ s)
    (fls : List (Flight Request Response Turn EditSession)) :
    Follows s controller uid (fls.map fun fl => (t, fl)) none := by
  refine Tracks.of_quiet fun x hx => ?_
  obtain ⟨fl, -, rfl⟩ := List.mem_map.mp hx
  exact fun heq => absurd heq hne

/-- A flight of another session goes on as flights of that session. -/
theorem Follows.replace_other {t : S} (hne : t ≠ s)
    {fl : Flight Request Response Turn EditSession}
    {pre post : List (S × Flight Request Response Turn EditSession)} {stage : Option CommitStage}
    (h : Follows s controller uid (pre ++ (t, fl) :: post) stage)
    (fls : List (Flight Request Response Turn EditSession)) :
    Follows s controller uid (pre ++ (fls.map (fun fl => (t, fl)) ++ post)) stage := by
  rcases h.split with ⟨-, hrest⟩ | ⟨st, -, heq, -⟩
  · exact hrest _ (follows_other hne fls)
  · exact absurd heq hne

/-- A request of the commit is served. -/
theorem CommitInv.serve {T : List (Mark Request Response)}
    {assigned : List (EditSession → EditSession)} (h : CommitInv s controller uid d w T assigned)
    {pre post : List (S × Flight Request Response Turn EditSession)} {r : Request}
    {k : Response r → Program EditSession} {o : Outcome} {b : Backend} {y : Response r}
    (hpool : w.pool = pre ++ (s, .issued r k) :: post)
    (hpool' : w'.pool = pre ++ (s, .served r (k y)) :: post) (hbackend : w'.backend = b)
    (hclient : w'.client = w.client) (hserve : serve w.backend r o = some (b, y)) :
    CommitInv s controller uid d w' (T ++ [.reply r y]) assigned := by
  obtain ⟨stage, stored, hfollows, hstored, hstanding⟩ := h
  have hfailed : (T ++ [Mark.reply r y]).filterMap failedPart
      = T.filterMap failedPart ++ failedNow y := by
    rw [List.filterMap_append]
    refine congrArg (_ ++ ·) ?_
    unfold failedNow
    rw [List.filterMap_cons, List.filterMap_nil]
    cases failedPart (.reply r y) <;> rfl
  rw [hpool] at hfollows
  unfold CommitInv
  rw [hfailed, hpool', hbackend, hclient]
  rcases hfollows.split with ⟨hbeside, hrest⟩ | ⟨st, rfl, -, hflight, hrest⟩
  · -- beside the thread
    obtain ⟨hserved, hdocs, hparts⟩ := (hbeside rfl).serve uid hserve
    refine ⟨stage, stored, ?_, hdocs.trans hstored, hstanding.beside fun part hpart => ?_⟩
    · exact hrest [(s, .served r (k y))] (follows_beside_one hserved)
    · rw [List.mem_append, or_iff_left_iff_imp]
      intro hmem
      rcases hparts part hmem with rfl | rfl <;> simp at hpart
  · -- the thread goes on, or is over
    obtain ⟨stored', hstored', hnext⟩ := hstanding.serve hflight hstored hserve
    rcases hnext with ⟨st', hflight', hstanding'⟩ | ⟨hserved, hstanding'⟩
    · exact ⟨some st', stored', hrest [(s, .served r (k y))] _ (follows_thread hflight'),
        hstored', hstanding'⟩
    · exact ⟨none, stored', hrest [(s, .served r (k y))] _ (follows_beside_one hserved),
        hstored', hstanding'⟩

variable [DecidableEq S]

/-- A callback of the commit runs. -/
theorem CommitInv.deliver {T : List (Mark Request Response)}
    {assigned : List (EditSession → EditSession)} (h : CommitInv s controller uid d w T assigned)
    {pre post : List (S × Flight Request Response Turn EditSession)} {r : Request}
    {p : Program EditSession} {e : Turn} (hpool : w.pool = pre ++ (s, .served r p) :: post)
    (he : e.currentUid = some uid) :
    CommitInv s controller uid d (w.turn s p e (pre ++ post)) T
      (assigned ++ p.assigns e (w.client s)) := by
  obtain ⟨stage, stored, hfollows, hstored, hstanding⟩ := h
  rw [hpool] at hfollows
  unfold CommitInv
  rw [World.turn_pool, World.turn_client, if_pos rfl, World.turn_backend]
  rcases hfollows.split with ⟨hbeside, hrest⟩ | ⟨st, rfl, -, hflight, hrest⟩
  · -- beside the thread
    obtain ⟨hsession, hissues, hsilent⟩ := (hbeside rfl).deliver e (w.client s)
    rw [hsession]
    exact ⟨stage, stored, Follows.append (hrest [] .nil) (follows_beside hissues), hstored,
      hstanding.quietly hsilent⟩
  · -- the thread goes on, or is over
    obtain ⟨stage', hissues, hstanding'⟩ := hstanding.deliver hflight he
    exact ⟨stage', stored, follows_append (hrest [] none .nil) hissues, hstored, hstanding'⟩

/-- Every step of a commit keeps it. -/
theorem CommitInv.step {T : List (Mark Request Response)}
    {assigned : List (EditSession → EditSession)}
    (h : CommitInv s controller uid d w T assigned) {ev : AppEvent S A}
    (hok : Committing uid s w ev) (hstep : Stepped api act w ev w') :
    CommitInv s controller uid d w' (T ++ w.marks api s ev)
      (assigned ++ w.assigned act s ev) := by
  obtain ⟨hconfined, hunwritten⟩ := hok
  cases hstep with
  | invoke t a e =>
    have hne : t ≠ s := hconfined
    simp only [World.marks, World.assigned, if_neg hne, List.append_nil]
    refine h.other (fun stage hfollows => hfollows.append (follows_other hne _)) rfl ?_
    rw [World.turn_client, if_neg hne.symm]
  | serve hpool hfifo hserve =>
    rename_i pre post t r k o b y
    rw [World.marks_serve hpool hserve]
    simp only [World.assigned, List.append_nil]
    by_cases hts : t = s
    · subst hts
      rw [if_pos rfl]
      exact h.serve hpool rfl rfl rfl hserve
    · rw [if_neg hts, List.append_nil]
      refine h.other (fun stage hfollows => ?_) ?_ rfl
      · rw [hpool] at hfollows
        exact hfollows.replace_other hts [_]
      · refine serve_lookup_ne hserve ?_
        rintro write rfl heq
        have hother := hunwritten _ (getElem?_split hpool) hts
        exact absurd heq.symm (of_decide_eq_false hother)
  | deliver hpool hfifo =>
    rename_i pre post t r p e
    rw [World.assigned_deliver hpool]
    simp only [World.marks, List.append_nil]
    by_cases hts : t = s
    · subst hts
      rw [if_pos rfl]
      exact h.deliver hpool (hconfined _ (getElem?_split hpool) rfl)
    · rw [if_neg hts, List.append_nil]
      refine h.other (fun stage hfollows => ?_) rfl ?_
      · rw [hpool] at hfollows
        exact Follows.append (hfollows.replace_other hts []) (follows_other hts _)
      · rw [World.turn_client, if_neg (Ne.symm hts)]
  | drop hpool =>
    rename_i pre post t r p
    have hne : t ≠ s := fun hts => hconfined _ (getElem?_split hpool) hts
    rw [World.marks_drop hpool, if_neg hne]
    simp only [World.assigned, List.append_nil]
    refine h.other (fun stage hfollows => ?_) rfl rfl
    rw [hpool] at hfollows
    exact hfollows.replace_other hne []

/-- The commit starts. -/
theorem commitInv_start {w₀ : AppWorld EditSession S} {turn : Turn} (hidle : ∀ x ∈ w₀.pool, x.1 ≠ s)
    (hstored : w₀.backend.docs.lookup ["users", uid] = some d) (hedit : EditOf d (w₀.client s))
    (hturn : turn.currentUid = some uid) :
    CommitInv s (w₀.client s).controller uid d (w₀.turn s updateUserData turn w₀.pool) []
      (updateUserData.assigns turn (w₀.client s)) := by
  have hbefore : Follows s (w₀.client s).controller uid w₀.pool none :=
    Tracks.of_quiet fun x hx heq => absurd heq (hidle x hx)
  obtain ⟨hexec, hsilent⟩ := exec_updateUserData (w₀.client s) hturn
  unfold CommitInv
  rw [World.turn_pool, World.turn_client, if_pos rfl, World.turn_backend, hexec]
  cases hinfo : (w₀.client s).controller.userInfoChanged with
  | true =>
    rw [if_pos rfl]
    exact ⟨some .saving, d, follows_append hbefore (follows_thread .saving), hstored,
      .saving hinfo (by simp) ⟨rfl, rfl, hsilent⟩⟩
  | false =>
    rw [if_neg (by simp)]
    cases himage : (w₀.client s).controller.imageChanged with
    | true =>
      rw [if_pos rfl]
      have hafter : afterSave (w₀.client s).controller uid d [] = d := by
        unfold afterSave
        rw [if_neg (by simp [hinfo])]
      have hnone : CommitPart.upload ∉ ([] : List CommitPart)
          ∧ CommitPart.update ∉ ([] : List CommitPart) := by decide
      obtain ⟨stage, hissues, hstanding⟩ :=
        standing_picture (s := s) (d := d) rfl himage hnone hsilent hturn
      rw [hafter] at hstanding
      exact ⟨stage, d, follows_append hbefore hissues, hstored, hstanding⟩
    | false =>
      rw [if_neg (by simp)]
      exact ⟨none, d, hbefore.append .nil, hstored,
        .idle hinfo (Option.not_isSome_iff_eq_none.mp (Bool.eq_false_iff.mp himage)) hedit.loader
          hsilent⟩

omit [DecidableEq S] in
/-- With nothing in flight the thread is over. -/
theorem CommitInv.over {T : List (Mark Request Response)}
    {assigned : List (EditSession → EditSession)}
    (h : CommitInv s controller uid d w T assigned) (hdone : ∀ x ∈ w.pool, x.1 ≠ s) :
    ∃ stored, w.backend.docs.lookup ["users", uid] = some stored
      ∧ Standing controller uid d none (T.filterMap failedPart) stored (w.client s) assigned := by
  obtain ⟨stage, stored, hfollows, hstored, hstanding⟩ := h
  cases stage with
  | none => exact ⟨stored, hstored, hstanding⟩
  | some stage =>
    obtain ⟨fl, hmem, -⟩ := Tracks.mem hfollows (x := (s, stage)) (List.mem_singleton.mpr rfl)
    exact absurd rfl (hdone _ hmem)

end Runs

/-! ## What is reported -/

section Reports

variable {controller : EditProfileController} {uid : String} {d stored : Doc}
variable {failed : List CommitPart} {session : EditSession}
variable {assigned : List (EditSession → EditSession)}

theorem agreesWith_savedUser (user : User) (uid : String) : user.AgreesWith (savedUser user uid) :=
  ⟨rfl, rfl, rfl⟩

/-- The picture is that of the update, the names are those that were there. -/
theorem agreesWith_withPicture {user : User} {url : String}
    (hname : user.fullname = (User.init stored).fullname)
    (husername : user.username = (User.init stored).username) :
    { user with profileImageUrl := url }.AgreesWith (withPicture url stored) :=
  ⟨hname, husername, rfl⟩

/-- Once the delegate has been told, nothing may have failed. -/
theorem Told.reports_iff {user : User} (htold : Told user session assigned)
    (hagrees : failed = [] → user.AgreesWith stored)
    (himage : ∀ image, controller.selectedImage = some image →
      image.jpegData ≠ none ∧ Storage.accepts controller.user.profileImageUrl = true) :
    Reports controller d failed (some stored) session assigned ↔ failed = [] := by
  obtain ⟨f, hf, hcalls⟩ := htold.called
  constructor
  · intro h
    by_contra hfailed
    exact (h.failed (Or.inl hfailed)).1 f hf hcalls
  · intro hnone
    refine ⟨htold.once, fun _ _ _ => ⟨stored, rfl, htold.user ▸ hagrees hnone⟩, ?_⟩
    rintro (hfailed | ⟨image, hselected, hjpeg | hurl⟩)
    · exact absurd hnone hfailed
    · exact absurd hjpeg (himage image hselected).1
    · exact absurd (himage image hselected).2 (by rw [hurl]; simp)

/-- While the delegate has not been called, the report is about the failures. -/
theorem Reports.of_silent (hsilent : ∀ f ∈ assigned, ¬ CallsDelegate f)
    (hfailed : CommitFailed controller failed → stored = d ∧ session.loader = false) :
    Reports controller d failed (some stored) session assigned where
  once := List.pairwise_of_forall_mem_list fun f hf _ _ hboth => hsilent f hf hboth.1
  agrees f hf hcalls := absurd hcalls (hsilent f hf)
  failed h := ⟨hsilent, congrArg some (hfailed h).1, (hfailed h).2⟩

/-- An image that is not encoded is a failure. -/
theorem commitFailed_of_not_encodes (himage : controller.imageChanged = true)
    (hencodes : ¬ Encodes controller) : CommitFailed controller failed := by
  obtain ⟨image, hselected⟩ := Option.isSome_iff_exists.mp himage
  refine Or.inr ⟨image, hselected, ?_⟩
  by_contra hall
  rw [not_or, Bool.not_eq_false] at hall
  exact hencodes ⟨image, hselected, Option.isSome_iff_ne_none.mpr hall.1, hall.2⟩

/-- What is sound with an image has encoded and uploaded it. -/
theorem CommitSound.uploads (h : CommitSound controller uid d failed)
    (himage : controller.imageChanged = true) : Encodes controller ∧ .upload ∉ failed := by
  obtain ⟨image, hselected⟩ := Option.isSome_iff_exists.mp himage
  unfold CommitSound at h
  rw [hselected] at h
  exact ⟨⟨image, hselected, h.2.1, h.1⟩, h.2.2.1⟩

/-- The document is as it was if the save has not been made, has failed, or stores the same. -/
theorem afterSave_eq_iff : afterSave controller uid d failed = d
    ↔ (controller.userInfoChanged = true →
      .save ∈ failed ∨ savedUser controller.user uid = d) := by
  unfold afterSave
  by_cases hsaved : controller.userInfoChanged = true ∧ .save ∉ failed
  · rw [if_pos hsaved]
    constructor
    · exact fun h _ => Or.inr h
    · exact fun h => (h hsaved.1).resolve_left hsaved.2
  · rw [if_neg hsaved]
    exact iff_of_true rfl fun hinfo => Or.inl (by_contra fun hsave => hsaved ⟨hinfo, hsave⟩)

/-- With the new picture, and no failed save, the document is the user's. -/
theorem agreesWith_updated {url : String} (hnone : failed = [])
    (hunedited : controller.userInfoChanged = false →
      controller.user.fullname = (User.init d).fullname
        ∧ controller.user.username = (User.init d).username) :
    { controller.user with profileImageUrl := url }.AgreesWith
      (withPicture url (afterSave controller uid d failed)) := by
  unfold afterSave
  cases hinfo : controller.userInfoChanged with
  | true =>
    rw [if_pos ⟨rfl, by simp [hnone]⟩]
    obtain ⟨hname, husername, -⟩ := agreesWith_savedUser controller.user uid
    exact agreesWith_withPicture hname husername
  | false =>
    rw [if_neg (by simp)]
    exact agreesWith_withPicture (hunedited hinfo).1 (hunedited hinfo).2

/-- At each end of the commit. -/
theorem Standing.reports_iff
    (h : Standing controller uid d none failed stored session assigned)
    (hunedited : controller.userInfoChanged = false →
      controller.user.fullname = (User.init d).fullname
        ∧ controller.user.username = (User.init d).username) :
    Reports controller d failed (some stored) session assigned
      ↔ CommitSound controller uid d failed := by
  cases h with
  | idle hinfo himage hloader hsilent =>
    unfold CommitSound
    rw [himage]
    refine iff_of_true ?_ fun hchanged => absurd hchanged (by simp [hinfo])
    exact .of_silent hsilent fun _ => ⟨rfl, hloader⟩
  | returned hinfo himage htold =>
    unfold CommitSound
    rw [himage]
    rw [htold.reports_iff (fun hnone => ?_) (fun image hselected => ?_)]
    · exact ⟨fun hnone _ => hnone, fun hnone => hnone hinfo⟩
    · unfold afterSave
      rw [if_pos ⟨hinfo, by simp [hnone]⟩]
      exact agreesWith_savedUser controller.user uid
    · exact absurd (himage.symm.trans hselected) (by simp)
  | stuck stored hupload himage hwaiting =>
    -- the loader is still shown, though the upload has failed
    refine iff_of_false (fun h => ?_) fun h => ?_
    · have hfailed : CommitFailed controller failed := by
        rcases hupload with hencodes | hupload
        · exact commitFailed_of_not_encodes himage hencodes
        · exact Or.inl (List.ne_nil_of_mem hupload)
      exact absurd (h.failed hfailed).2.2 (by simp [hwaiting.loader])
    · obtain ⟨hencodes, hnot⟩ := h.uploads himage
      rcases hupload with hstuck | hupload
      · exact hstuck hencodes
      · exact hnot hupload
  | refused himage hfailed hloader hsilent =>
    obtain ⟨image, hselected, hjpeg, hurl⟩ := himage
    unfold CommitSound
    rw [hselected]
    have hsome : failed ≠ [] := List.ne_nil_of_mem hfailed.2
    constructor
    · intro h
      have hstored := Option.some.inj (h.failed (Or.inl hsome)).2.1
      exact ⟨hurl, hjpeg, hfailed.1, Or.inr ⟨hfailed.2, afterSave_eq_iff.mp hstored⟩⟩
    · rintro ⟨-, -, -, hnone | ⟨-, hunchanged⟩⟩
      · exact absurd hnone hsome
      · exact .of_silent hsilent fun _ => ⟨afterSave_eq_iff.mpr hunchanged, hloader⟩
  | reported url himage hfailed htold =>
    obtain ⟨image, hselected, hjpeg, hurl⟩ := himage
    unfold CommitSound
    rw [hselected]
    rw [htold.reports_iff (fun hnone => agreesWith_updated hnone hunedited)
      (fun image' hselected' => ⟨fun hnone => ?_, hurl⟩)]
    · constructor
      · exact fun hnone => ⟨hurl, hjpeg, hfailed.1, Or.inl hnone⟩
      · rintro ⟨-, -, -, hnone | ⟨hupdate, -⟩⟩
        · exact hnone
        · exact absurd hupdate hfailed.2
    · obtain rfl := Option.some.inj (hselected.symm.trans hselected')
      rw [hnone] at hjpeg
      exact absurd hjpeg (by simp)

end Reports

/-- The assignments of the commit of session `s`. -/
def commitAssigned {S A : Type} [DecidableEq S] (act : A → Program EditSession) (s : S)
    (turn : Turn) (w₀ : AppWorld EditSession S) (es : List (AppEvent S A)) :
    List (EditSession → EditSession) :=
  updateUserData.assigns turn (w₀.client s)
    ++ history api act (World.assigned act s) (w₀.turn s updateUserData turn w₀.pool) es

/-- What has failed of it. -/
def commitFailed {S A : Type} [DecidableEq S] (act : A → Program EditSession) (s : S)
    (turn : Turn) (w₀ : AppWorld EditSession S) (es : List (AppEvent S A)) : List CommitPart :=
  (trace api act s (w₀.turn s updateUserData turn w₀.pool) es).filterMap failedPart

/-- **What a commit reports.** Whatever other sessions do elsewhere and whatever fails: when
nothing of the commit is in flight, the delegate and the loader say what has been stored if and
only if the commit is sound. -/
theorem commit_iff {S A : Type} [DecidableEq S] {act : A → Program EditSession} {s : S}
    {uid : String} {d : Doc} {turn : Turn} {w₀ w : AppWorld EditSession S}
    (hidle : ∀ x ∈ w₀.pool, x.1 ≠ s)
    (hstored : w₀.backend.docs.lookup ["users", uid] = some d) (hedit : EditOf d (w₀.client s))
    (hturn : turn.currentUid = some uid) {es : List (AppEvent S A)}
    (run : Run api act (Committing uid s) (w₀.turn s updateUserData turn w₀.pool) es w)
    (hdone : ∀ x ∈ w.pool, x.1 ≠ s) :
    Reports (w₀.client s).controller d (commitFailed act s turn w₀ es)
        (w.backend.docs.lookup ["users", uid]) (w.client s) (commitAssigned act s turn w₀ es)
      ↔ CommitSound (w₀.client s).controller uid d (commitFailed act s turn w₀ es) := by
  have hinv : CommitInv s (w₀.client s).controller uid d w
      (trace api act s (w₀.turn s updateUserData turn w₀.pool) es)
      (commitAssigned act s turn w₀ es) := by
    clear hdone
    induction run with
    | nil =>
      unfold commitAssigned
      rw [history, List.append_nil]
      exact commitInv_start hidle hstored hedit hturn
    | snoc run hok hstep ih =>
      unfold commitAssigned at ih ⊢
      rw [run.trace_snoc hstep, run.history_snoc hstep, ← List.append_assoc]
      exact ih.step hok (stepped_of_step hstep)
  obtain ⟨stored, hend, hstanding⟩ := hinv.over hdone
  rw [hend]
  exact hstanding.reports_iff hedit.unedited

/-! ## Two commits -/

/-- `a` has changed her username, and picked the image or not. -/
def annChanged (image : Option UIImage) : EditSession where
  controller :=
    { user := { User.init (registeredAnna none) with username := "ann" }
      userInfoChanged := true
      selectedImage := image }
  profileUser := User.init (registeredAnna none)

/-- She is about to commit. -/
def annCommits (image : Option UIImage) : AppWorld EditSession String :=
  atRest ⟨AList.insert ["users", "a"] (registeredAnna none) ∅, [oldPictureUrl], []⟩ fun _ =>
    annChanged image

/-- The save is served, then the upload and the update. -/
def commitAnswered : List (AppEvent String EditAction) :=
  answerFirst ++ uploadPicture

/-- Nothing fails, and the profile shows the new name and the new picture. -/
theorem commit_iff_answered :
    ∃ w, Run api EditAction.program (Committing "a" "s")
        ((annCommits (some ⟨some "jpeg"⟩)).turn "s" updateUserData (turnOf "a") []) commitAnswered w
      ∧ w.Quiescent
      ∧ (w.client "s").profileUser.username = "ann"
      ∧ Reports (annChanged (some ⟨some "jpeg"⟩)).controller (registeredAnna none)
        (commitFailed EditAction.program "s" (turnOf "a") (annCommits (some ⟨some "jpeg"⟩))
          commitAnswered)
        (w.backend.docs.lookup ["users", "a"]) (w.client "s")
        (commitAssigned EditAction.program "s" (turnOf "a") (annCommits (some ⟨some "jpeg"⟩))
          commitAnswered) := by
  obtain ⟨w, run, hquiet, hname⟩ : ∃ w, Run api EditAction.program (Committing "a" "s")
        ((annCommits (some ⟨some "jpeg"⟩)).turn "s" updateUserData (turnOf "a") []) commitAnswered w
      ∧ w.Quiescent ∧ (w.client "s").profileUser.username = "ann" :=
    exists_run_of_play (by decide +kernel)
  refine ⟨w, run, hquiet, hname, ?_⟩
  have hidle : ∀ x ∈ (annCommits (some ⟨some "jpeg"⟩)).pool, x.1 ≠ "s" :=
    fun x hx => absurd hx List.not_mem_nil
  have hdone : ∀ x ∈ w.pool, x.1 ≠ "s" := by
    rw [hquiet]
    exact fun x hx => absurd hx List.not_mem_nil
  have hnone : commitFailed EditAction.program "s" (turnOf "a")
      (annCommits (some ⟨some "jpeg"⟩)) commitAnswered = [] := by decide +kernel
  refine (commit_iff hidle rfl ⟨rfl, fun h => (nomatch h)⟩ rfl run hdone).mpr ?_
  rw [hnone]
  exact ⟨accepts_oldPictureUrl, rfl, List.not_mem_nil, Or.inl rfl⟩

/-- The save fails, and the profile shows the new name. -/
theorem commit_unsaved :
    ∃ w, Run api EditAction.program (Committing "a" "s")
        ((annCommits none).turn "s" updateUserData (turnOf "a") [])
        [.serve 0 (.failure "offline"), .deliver 0 (turnOf "a")] w
      ∧ w.Quiescent
      ∧ (w.backend.docs.lookup ["users", "a"]).bind (·.string "username") = some "anna"
      ∧ (w.client "s").profileUser.username = "ann"
      ∧ ¬ Reports (annChanged none).controller (registeredAnna none)
        (commitFailed EditAction.program "s" (turnOf "a") (annCommits none)
          [.serve 0 (.failure "offline"), .deliver 0 (turnOf "a")])
        (w.backend.docs.lookup ["users", "a"]) (w.client "s")
        (commitAssigned EditAction.program "s" (turnOf "a") (annCommits none)
          [.serve 0 (.failure "offline"), .deliver 0 (turnOf "a")]) := by
  obtain ⟨w, run, hquiet, hstored, hname⟩ : ∃ w, Run api EditAction.program (Committing "a" "s")
        ((annCommits none).turn "s" updateUserData (turnOf "a") [])
        [.serve 0 (.failure "offline"), .deliver 0 (turnOf "a")] w
      ∧ w.Quiescent
      ∧ (w.backend.docs.lookup ["users", "a"]).bind (·.string "username") = some "anna"
      ∧ (w.client "s").profileUser.username = "ann" := exists_run_of_play (by decide +kernel)
  refine ⟨w, run, hquiet, hstored, hname, fun h => ?_⟩
  have hfailed : commitFailed EditAction.program "s" (turnOf "a") (annCommits none)
      [.serve 0 (.failure "offline"), .deliver 0 (turnOf "a")] = [.save] := rfl
  refine (h.failed (Or.inl (by rw [hfailed]; simp))).1
    (fun session => { session with profileUser := session.controller.user }) ?_
    callsDelegate_wantsToUpdate
  exact List.mem_of_getElem? (i := 2) rfl

end InstaClone
