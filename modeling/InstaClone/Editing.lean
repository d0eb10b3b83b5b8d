import InstaClone.Async.Guard
import InstaClone.Async.Trace
import InstaClone.Frames
import InstaClone.Sessions

/-!
# Editing a profile

`EditProfileController` keeps a copy of the user it was opened with, lets the user change
the full name, the username and the picture, and commits the changes through
`updateUserData`. `saveUserData` does not send the changes: it replaces the whole document
by five fields of the copy. `updateProfileImage` and `setUserFCMToken` update one field.

`lastWritten` is the document as everybody else left it: every committed write but those of
the edit itself, one after the other. The fields that the edit did not touch agree with it
if every save finds them, when it is committed, as the copy has them, and no token
(`UpToDate`). `SameBut` is kept by one committed write at a time; the rest is that a session
whose user has not picked a picture sends no picture (`Pictureless`).

The other sessions are arbitrary: they edit, save and set tokens as they like, signed in as
anybody. A device that edits twice is two sessions here, which only makes for more runs.
-/

namespace InstaClone

open Async

/-! ## `EditProfileController` -/

/-- `EditProfileOptions`: the fields with a text field of their own. -/
inductive EditProfileOptions where
  | fullname
  | username
deriving DecidableEq, Repr

/-- The key of an option in the document. -/
def EditProfileOptions.key : EditProfileOptions → String
  | fullname => "fullname"
  | username => "username"

structure EditProfileController where
  user : User
  userInfoChanged : Bool := false
  selectedImage : Option UIImage := none

/-- `imageChanged`. -/
def EditProfileController.imageChanged (controller : EditProfileController) : Bool :=
  controller.selectedImage.isSome

/-- A session with the controller on screen: the shared `hud`, the message shown last, and
the user of the profile controller underneath. `edited` is what the user has typed into, for
the record; no statement reads it. -/
structure EditSession where
  controller : EditProfileController
  profileUser : User
  loader : Bool := false
  message : Option Error := none
  edited : List EditProfileOptions := []

namespace EditSession

/-- `ProfileController.showEditProfileController()`. -/
def opened (user : User) : EditSession where
  controller := { user := user }
  profileUser := user

/-- The fields of the document that the edit has touched. -/
def touched (session : EditSession) : List String :=
  session.edited.map EditProfileOptions.key
    ++ if session.controller.imageChanged then ["profileImageUrl"] else []

def mapController (f : EditProfileController → EditProfileController) (session : EditSession) :
    EditSession :=
  { session with controller := f session.controller }

def mapUser (f : User → User) (session : EditSession) : EditSession :=
  session.mapController fun controller => { controller with user := f controller.user }

end EditSession

namespace EditProfileController

/-- `showLoader(_:)`. -/
def showLoader (isShown : Bool) (rest : Program EditSession := .done) : Program EditSession :=
  .modify (fun session => { session with loader := isShown }) rest

/-- `delegate?.controller(self, wantsToUpdate: user)`. -/
def wantsToUpdate : Program EditSession :=
  .modify (fun session => { session with profileUser := session.controller.user }) .done

/-- `updateUserInfo(_:)`, for the cell of `option` with the text `text`. -/
def updateUserInfo (option : EditProfileOptions) (text : Option String) : Program EditSession :=
  .modify (·.mapController fun controller => { controller with userInfoChanged := true })
    (match text with
    | none => .done
    | some text =>
      .modify
        (fun session =>
          { session.mapUser fun user =>
              match option with
              | .fullname => { user with fullname := text }
              | .username => { user with username := text } with
            edited := session.edited ++ [option] })
        .done)

/-- `imagePickerController(_:didFinishPickingMediaWithInfo:)`. -/
def didFinishPickingMedia (image : UIImage) : Program EditSession :=
  .modify (·.mapController fun controller => { controller with selectedImage := some image }) .done

/-- The completion of `updateProfileImage`. -/
def didUpdateProfileImage (profileImageUrl : Option String) (error : Option Error) :
    Program EditSession :=
  showLoader false
    (match error with
    | some error => .modify (fun session => { session with message := some error }) .done
    | none =>
      match profileImageUrl with
      | none => .done
      | some profileImageUrl =>
        .modify (·.mapUser fun user => { user with profileImageUrl := profileImageUrl })
          wantsToUpdate)

/-- `updateProfileImage()`. -/
def updateProfileImage : Program EditSession :=
  .read fun session =>
    match session.controller.selectedImage with
    | none => .done
    | some image =>
      showLoader true
        (UserService.updateProfileImage session.controller.user image didUpdateProfileImage)

/-- `if condition { … }`. -/
def onlyIf (condition : EditProfileController → Bool)
    (body : EditProfileController → Program EditSession) : Program EditSession :=
  .read fun session =>
    if condition session.controller then body session.controller else .done

/-- `updateUserData()`. -/
def updateUserData : Program EditSession :=
  (onlyIf (fun controller => controller.imageChanged && !controller.userInfoChanged)
    fun _ => updateProfileImage).andThen
  ((onlyIf (fun controller => controller.userInfoChanged && !controller.imageChanged)
    fun controller =>
      showLoader true
        (UserService.saveUserData controller.user fun _ => showLoader false wantsToUpdate)).andThen
  (onlyIf (fun controller => controller.userInfoChanged && controller.imageChanged)
    fun controller =>
      showLoader true (UserService.saveUserData controller.user fun _ => updateProfileImage)))

/-- `handleDone()`. `view.endEditing(true)` ends the editing of the text field that has the
focus, if there is one. -/
def handleDone (focused : Option (EditProfileOptions × Option String)) : Program EditSession :=
  (match focused with
  | none => .done
  | some (option, text) => updateUserInfo option text : Program EditSession).andThen
  (onlyIf (fun controller => controller.imageChanged || controller.userInfoChanged)
    fun _ => updateUserData)

end EditProfileController

/-- What the user of a session does, and `setUserFCMToken`. -/
inductive EditAction where
  | editingDidEnd (option : EditProfileOptions) (text : Option String)
  | imagePicked (image : UIImage)
  | doneTap (focused : Option (EditProfileOptions × Option String))
  | setUserFCMToken

/-- The code each action runs. -/
def EditAction.program : EditAction → Program EditSession
  | editingDidEnd option text => EditProfileController.updateUserInfo option text
  | imagePicked image => EditProfileController.didFinishPickingMedia image
  | doneTap focused => EditProfileController.handleDone focused
  | setUserFCMToken => UserService.setUserFCMToken

/-! ## When the fields that are not touched stay -/

/-- The write that an event commits, with its session. -/
def commitOf {σ S A : Type} (w : AppWorld σ S) : AppEvent S A → List (S × Write)
  | .serve i o =>
    match w.pool[i]? with
    | some (s, .issued (.write write) _) =>
      if o.isSuccess && (write.apply w.backend.docs).isSome then [(s, write)] else []
    | _ => []
  | _ => []

/-- Is this how an edit writes a user's document? `setUserFCMToken` does not. -/
def Write.isEdit : Write → Bool
  | .setData _ _ => true
  | .updateData _ fields => (fields "profileImageUrl").isSome
  | .delete _ => false

/-- What everybody but the edit of session `s` has made of the document of `uid`: the
committed writes of the others, and the tokens. -/
def lastWritten {S : Type} [DecidableEq S] (s : S) (uid : String) (d₀ : Option Doc)
    (log : List (S × Write)) : Option Doc :=
  log.foldl
    (fun d x =>
      if x.2.path = ["users", uid] ∧ ¬ (x.1 = s ∧ x.2.isEdit = true) then x.2.effect d else d) d₀

/-- Both documents are there, and agree in the fields that are not touched. -/
def SameBut (touched : List String) (d d' : Option Doc) : Prop :=
  ∃ stored written, d = some stored ∧ d' = some written
    ∧ ∀ key, key ∉ touched → stored key = written key

/-- The five fields `saveUserData` sends. -/
def savedKeys : List String := ["email", "fullname", "profileImageUrl", "uid", "username"]

/-- A document of a user has these fields and may have a token, as the writers of this
collection leave it. -/
def IsUserDoc (d : Doc) : Prop := ∀ key, key ∉ "fcmToken" :: savedKeys → d key = none

/-- The stored document has no token, and in the fields that the edit has not touched it is
what the save was made from. -/
structure UpToDate (touched : List String) (stored saved : Doc) : Prop where
  token : stored "fcmToken" = none
  fields : ∀ key ∈ savedKeys, key ∉ touched → stored key = saved key

instance (touched : List String) (stored saved : Doc) : Decidable (UpToDate touched stored saved) :=
  decidable_of_iff
    (stored "fcmToken" = none ∧ ∀ key ∈ savedKeys, key ∉ touched → stored key = saved key)
    ⟨fun h => ⟨h.1, h.2⟩, fun h => ⟨h.token, h.fields⟩⟩

/-- The document a save replaces, and what it puts there. -/
def Request.saves : Request → Option (Path × Doc)
  | .write (.setData path saved) => some (path, saved)
  | _ => none

/-- A save of session `s` that is committed is up to date. -/
def SavesUpToDate {S : Type} (s : S) (w : AppWorld EditSession S) : AppEvent S EditAction → Prop
  | .serve i o => o.isSuccess = true → ∀ x ∈ w.pool[i]?, x.1 = s → ∀ y ∈ x.2.req.saves,
    ∀ stored ∈ w.backend.docs.lookup y.1, UpToDate (w.client s).touched stored y.2
  | _ => True

instance {S : Type} [DecidableEq S] (s : S) (w : AppWorld EditSession S)
    (ev : AppEvent S EditAction) : Decidable (SavesUpToDate s w ev) :=
  match ev with
  | .invoke _ _ _ => isTrue trivial
  | .serve _ o => inferInstanceAs (Decidable (o.isSuccess = true → _))
  | .deliver _ _ => isTrue trivial
  | .drop _ => isTrue trivial

/-! ## What the code writes -/

/-- The dictionary of `saveUserData`. -/
def savedUser (user : User) (uid : String) : Doc :=
  dict [("email", .string user.email),
        ("fullname", .string user.fullname),
        ("profileImageUrl", .string user.profileImageUrl),
        ("uid", .string uid),
        ("username", .string user.username)]

theorem savedUser_eq_none {user : User} {uid key : String} (h : key ∉ savedKeys) :
    savedUser user uid key = none := by
  refine List.lookup_eq_none_iff.mpr fun field hfield => ?_
  have hmem := List.mem_map_of_mem (f := Prod.fst) hfield
  simp only [List.map_cons, List.map_nil] at hmem
  simpa using fun heq : key = field.1 => h (heq ▸ hmem)

/-- A request writes a user's document only as one of the services does. -/
def ServedWrite : Request → Prop
  | .write (.setData ["users", uid] saved) => ∃ user, saved = savedUser user uid
  | .write (.updateData ["users", _] fields) =>
    (∃ url, fields = dict [("profileImageUrl", .string url)])
      ∨ ∃ token, fields = dict [("fcmToken", .string token)]
  | .write (.delete ["users", _]) => False
  | _ => True

/-- It does not write a picture into a user's document. -/
def NoPicture : Request → Prop
  | .write (.updateData ["users", _] fields) => fields "profileImageUrl" = none
  | _ => True

/-- A session whose user has not picked a picture writes none. -/
def pictureless : Guard Request Response Turn EditSession where
  state session := "profileImageUrl" ∉ session.touched
  req _ r := NoPicture r
  resp _ _ := True
  env _ _ := True

theorem not_touched_picture {session : EditSession} :
    "profileImageUrl" ∉ session.touched ↔ session.controller.selectedImage = none := by
  have hkeys : "profileImageUrl" ∉ session.edited.map EditProfileOptions.key := by
    intro h
    obtain ⟨option, -, hkey⟩ := List.mem_map.mp h
    cases option <;> exact absurd hkey (by decide)
  unfold EditSession.touched EditProfileController.imageChanged
  cases session.controller.selectedImage with
  | none => simp [hkeys]
  | some image => simp

section Frame

variable {rest : Program EditSession}

/-- What a program leaves alone here: it writes users as the services do, and touches
nothing. -/
abbrev Touchless (p : Program EditSession) : Prop := p.Spares ServedWrite EditSession.touched

theorem touchless_wantsToUpdate : Touchless EditProfileController.wantsToUpdate :=
  ⟨fun _ => rfl, trivial⟩

theorem touchless_updateProfileImage : Touchless EditProfileController.updateProfileImage := by
  intro session
  dsimp only
  split
  next => trivial
  next image _ =>
    refine ⟨fun _ => rfl, ?_⟩
    refine spares_updateProfileImage trivial (fun _ _ => trivial) (fun _ => trivial)
      (fun _ url => Or.inl ⟨url, rfl⟩) (fun _ => trivial) (fun _ _ => trivial) fun url error => ?_
    refine ⟨fun _ => rfl, ?_⟩
    cases error with
    | some error => exact ⟨fun _ => rfl, trivial⟩
    | none =>
      cases url with
      | none => trivial
      | some url => exact ⟨fun _ => rfl, touchless_wantsToUpdate⟩

theorem touchless_updateUserData : Touchless EditProfileController.updateUserData := by
  have hsave : ∀ (user : User) (completion : Option Error → Program EditSession),
      (∀ error, Touchless (completion error)) →
      Touchless
        (EditProfileController.showLoader true (UserService.saveUserData user completion)) :=
    fun user _ hk => ⟨fun _ => rfl, spares_saveUserData (fun _ => ⟨user, rfl⟩) hk⟩
  refine .andThen ?_ (.andThen ?_ ?_) <;> intro session <;> dsimp only <;> split
  · exact touchless_updateProfileImage
  · trivial
  · exact hsave _ _ fun _ => ⟨fun _ => rfl, touchless_wantsToUpdate⟩
  · trivial
  · exact hsave _ _ fun _ => touchless_updateProfileImage
  · trivial

theorem touchless_setUserFCMToken : Touchless UserService.setUserFCMToken :=
  spares_setUserFCMToken fun _ token => Or.inr ⟨token, rfl⟩

/-- Nothing is uploaded by a controller without a picture. -/
theorem guarded_updateProfileImage (e : Turn) :
    EditProfileController.updateProfileImage.GuardedIn pictureless e := by
  intro session hsession
  dsimp only
  rw [not_touched_picture.mp hsession]
  trivial

theorem guarded_updateUserData (e : Turn) :
    EditProfileController.updateUserData.GuardedIn pictureless e := by
  have hsave : ∀ (user : User) (completion : Option Error → Program EditSession),
      (∀ error e, (completion error).GuardedIn pictureless e) →
      (EditProfileController.showLoader true
        (UserService.saveUserData user completion)).GuardedIn pictureless e := by
    refine fun user completion hk => ⟨fun _ h => h, ?_⟩
    show (UserService.saveUserData user completion).GuardedIn pictureless e
    unfold UserService.saveUserData withCurrentUid
    rw [Prog.guardedIn_ask]
    split
    next => exact ⟨trivial, fun error _ e' _ => hk error e', trivial⟩
    next => trivial
  refine .andThen ?_ (.andThen ?_ ?_) <;> intro session hsession <;> dsimp only <;> split
  · exact guarded_updateProfileImage e
  · trivial
  · exact hsave _ _ fun _ _ => ⟨fun _ h => h, fun _ h => h, trivial⟩
  · trivial
  · exact hsave _ _ fun _ e' => guarded_updateProfileImage e'
  · trivial

end Frame

/-! ## One turn -/

/-- What a turn does to the record, and what it issues. -/
structure Turned (session : EditSession)
    (out : EditSession × List (Flight Request Response Turn EditSession)) : Prop where
  grows : ∀ key ∈ session.touched, key ∈ out.1.touched
  spares : ∀ fl ∈ out.2, fl.Spares ServedWrite EditSession.touched
  guarded : "profileImageUrl" ∉ out.1.touched → ∀ fl ∈ out.2, fl.Guarded pictureless

/-- A turn that touches nothing. -/
theorem Turned.of_touchless {p : Program EditSession} {e : Turn} {session : EditSession}
    (htouchless : Touchless p)
    (hguarded : "profileImageUrl" ∉ session.touched → p.GuardedIn pictureless e) :
    Turned session (p.exec e session) := by
  obtain ⟨htouched, hissues⟩ := Prog.Spares.exec htouchless e session
  refine ⟨fun key hkey => htouched ▸ hkey, hissues, fun hpicture fl hfl => ?_⟩
  rw [htouched] at hpicture
  exact ((Prog.GuardedIn.exec (hguarded hpicture) hpicture).2 fl hfl).1

/-- A field is typed into: nothing is issued. -/
theorem exec_updateUserInfo (option : EditProfileOptions) (text : Option String) (e : Turn)
    (session : EditSession) :
    ∃ session', (EditProfileController.updateUserInfo option text).exec e session = (session', [])
      ∧ ∀ key ∈ session.touched, key ∈ session'.touched := by
  cases text with
  | none => exact ⟨_, rfl, fun key hkey => hkey⟩
  | some text =>
    refine ⟨_, rfl, fun key hkey => ?_⟩
    rcases List.mem_append.mp hkey with hkey | hkey
    · exact List.mem_append_left _ (by rw [List.map_append]; exact List.mem_append_left _ hkey)
    · exact List.mem_append_right _ hkey

theorem turned_action (a : EditAction) (e : Turn) (session : EditSession) :
    Turned session (a.program.exec e session) := by
  have hquiet : ∀ session', (∀ key ∈ session.touched, key ∈ session'.touched) →
      Turned session (session', []) := fun session' hgrows =>
    ⟨hgrows, fun fl hfl => absurd hfl (by simp), fun _ fl hfl => absurd hfl (by simp)⟩
  cases a with
  | editingDidEnd option text =>
    obtain ⟨session', hexec, hgrows⟩ := exec_updateUserInfo option text e session
    rw [EditAction.program, hexec]
    exact hquiet session' hgrows
  | imagePicked image =>
    refine hquiet _ fun key hkey => ?_
    rcases List.mem_append.mp hkey with hkey | hkey
    · exact List.mem_append_left _ hkey
    · refine List.mem_append_right _ ?_
      split at hkey
      next => exact hkey
      next => exact absurd hkey (by simp)
  | doneTap focused =>
    obtain ⟨session', hexec, hgrows⟩ : ∃ session',
        (match focused with
          | none => .done
          | some (option, text) => EditProfileController.updateUserInfo option text :
          Program EditSession).exec e session = (session', [])
        ∧ ∀ key ∈ session.touched, key ∈ session'.touched := by
      cases focused with
      | none => exact ⟨session, rfl, fun key hkey => hkey⟩
      | some field => exact exec_updateUserInfo field.1 field.2 e session
    have hdone : Turned session' ((EditProfileController.onlyIf
        (fun controller => controller.imageChanged || controller.userInfoChanged)
        fun _ => EditProfileController.updateUserData).exec e session') := by
      refine .of_touchless (fun session => ?_) fun _ session hsession => ?_ <;> dsimp only <;> split
      · exact touchless_updateUserData
      · trivial
      · exact guarded_updateUserData e
      · trivial
    unfold EditAction.program EditProfileController.handleDone
    rw [Prog.exec_andThen, hexec]
    exact ⟨fun key hkey => hdone.grows key (hgrows key hkey), hdone.spares, hdone.guarded⟩
  | setUserFCMToken =>
    have hspares : (UserService.setUserFCMToken : Program EditSession).Spares NoPicture
        EditSession.touched := spares_setUserFCMToken fun _ _ => rfl
    refine .of_touchless touchless_setUserFCMToken fun _ => ?_
    refine hspares.guardedIn (fun _ _ h => h) (fun s s' hsame hs => ?_) e
    show "profileImageUrl" ∉ s'.touched
    rw [hsame]
    exact hs

/-! ## The runs -/

section Runs

variable {S : Type} [DecidableEq S] {w₀ w w' : AppWorld EditSession S} {s : S} {uid : String}
  {es : List (AppEvent S EditAction)}

/-- What is in flight, and the document of the user. -/
structure EditInv (s : S) (uid : String) (w : AppWorld EditSession S) (written : Option Doc) :
    Prop where
  spares : ∀ x ∈ w.pool, x.2.Spares ServedWrite EditSession.touched
  guarded : ∀ x ∈ w.pool, "profileImageUrl" ∉ (w.client x.1).touched → x.2.Guarded pictureless
  isUserDoc : ∀ stored ∈ w.backend.docs.lookup ["users", uid], IsUserDoc stored
  same : SameBut (w.client s).touched (w.backend.docs.lookup ["users", uid]) written

/-- Touching more promises less. -/
theorem SameBut.mono {touched touched' : List String} {d d' : Option Doc}
    (h : SameBut touched d d') (hsub : ∀ key ∈ touched, key ∈ touched') :
    SameBut touched' d d' := by
  obtain ⟨stored, written, hstored, hwritten, hsame⟩ := h
  exact ⟨stored, written, hstored, hwritten, fun key hkey => hsame key fun h => hkey (hsub key h)⟩

/-- A turn of some session. -/
theorem EditInv.turn {written : Option Doc} (h : EditInv s uid w written) {t : S}
    {p : Program EditSession} {e : Turn}
    {pool : List (S × Flight Request Response Turn EditSession)}
    (hpool : ∀ x ∈ pool, x ∈ w.pool) (hturned : Turned (w.client t) (p.exec e (w.client t))) :
    EditInv s uid (w.turn t p e pool) written := by
  have hgrows : ∀ u, ∀ key ∈ (w.client u).touched,
      key ∈ ((w.turn t p e pool).client u).touched := by
    intro u key hkey
    rw [World.turn_client]
    split
    next hut => exact hturned.grows key (hut ▸ hkey)
    next => exact hkey
  refine ⟨fun x hx => ?_, fun x hx hpicture => ?_, h.isUserDoc, h.same.mono (hgrows s)⟩
  · rcases List.mem_append.mp hx with hx | hx
    · exact h.spares x (hpool x hx)
    · obtain ⟨fl, hfl, rfl⟩ := List.mem_map.mp hx
      exact hturned.spares fl hfl
  · rcases List.mem_append.mp hx with hx | hx
    · exact h.guarded x (hpool x hx) fun hkey => hpicture (hgrows _ _ hkey)
    · obtain ⟨fl, hfl, rfl⟩ := List.mem_map.mp hx
      rw [World.turn_client, if_pos rfl] at hpicture
      exact hturned.guarded hpicture fl hfl

/-- A save is up to date exactly if it puts what was there, but for what the edit has touched. -/
theorem upToDate_iff {touched : List String} {stored : Doc} {user : User} (huser : IsUserDoc stored)
    (htouched : "fcmToken" ∉ touched) :
    UpToDate touched stored (savedUser user uid)
      ↔ ∀ key, key ∉ touched → savedUser user uid key = stored key := by
  have htoken : "fcmToken" ∉ savedKeys := by decide
  constructor
  · intro h key hkey
    by_cases hsaved : key ∈ savedKeys
    · exact (h.fields key hsaved hkey).symm
    · rw [savedUser_eq_none hsaved]
      by_cases hkey' : key = "fcmToken"
      · rw [hkey', h.token]
      · exact (huser key (by simp [hkey', hsaved])).symm
  · intro h
    exact ⟨(h _ htouched).symm.trans (savedUser_eq_none htoken),
      fun key _ hkey => (h key hkey).symm⟩

theorem not_touched_token (session : EditSession) : "fcmToken" ∉ session.touched := by
  intro h
  rcases List.mem_append.mp h with h | h
  · obtain ⟨option, -, hkey⟩ := List.mem_map.mp h
    cases option <;> exact absurd hkey (by decide)
  · split at h
    next => exact absurd h (by decide)
    next => exact absurd h (by simp)

/-- The effect of a write of a user's document keeps it one. -/
theorem IsUserDoc.effect {write : Write} (hpath : write.path = ["users", uid])
    (hserved : ServedWrite (.write write)) {d : Option Doc} (h : ∀ stored ∈ d, IsUserDoc stored) :
    ∀ stored ∈ write.effect d, IsUserDoc stored := by
  intro stored hstored
  cases write with
  | setData path saved =>
    obtain rfl : path = ["users", uid] := hpath
    obtain ⟨user, rfl⟩ := hserved
    obtain rfl := Option.some.inj hstored
    exact fun key hkey => savedUser_eq_none fun h => hkey (List.mem_cons_of_mem _ h)
  | updateData path fields =>
    obtain rfl : path = ["users", uid] := hpath
    obtain ⟨d', hd', rfl⟩ := Option.map_eq_some_iff.mp hstored
    intro key hkey
    have hfields : fields key = none := by
      rcases hserved with ⟨url, rfl⟩ | ⟨token, rfl⟩ <;>
        exact List.lookup_eq_none_iff.mpr (by simp [savedKeys] at hkey ⊢; simp [hkey])
    show (fields key).or (d' key) = none
    rw [hfields, h d' hd' key hkey]
    rfl
  | delete path =>
    obtain rfl : path = ["users", uid] := hpath
    exact hserved.elim

/-- A write of the edit itself changes only what it has touched. -/
theorem SameBut.edit {touched : List String} {d written : Option Doc} {write : Write}
    (h : SameBut touched d written) (htouched : "fcmToken" ∉ touched)
    (huser : ∀ stored ∈ d, IsUserDoc stored)
    (hpath : write.path = ["users", uid]) (hserved : ServedWrite (.write write))
    (hedit : write.isEdit = true)
    (hdate : ∀ y ∈ Request.saves (.write write), ∀ stored ∈ d, UpToDate touched stored y.2)
    (hpicture : "profileImageUrl" ∉ touched → NoPicture (.write write)) :
    SameBut touched (write.effect d) written := by
  obtain ⟨stored, doc, rfl, rfl, hsame⟩ := h
  cases write with
  | setData path saved =>
    obtain rfl : path = ["users", uid] := hpath
    obtain ⟨user, rfl⟩ := hserved
    refine ⟨savedUser user uid, doc, rfl, rfl, fun key hkey => ?_⟩
    have hsaved := (upToDate_iff (huser stored rfl) htouched).mp (hdate _ rfl stored rfl) key hkey
    exact hsaved.trans (hsame key hkey)
  | updateData path fields =>
    obtain rfl : path = ["users", uid] := hpath
    rcases hserved with ⟨url, rfl⟩ | ⟨token, rfl⟩
    · refine ⟨_, doc, rfl, rfl, fun key hkey => ?_⟩
      have hne : key ≠ "profileImageUrl" := by
        rintro rfl
        exact absurd (hpicture hkey) (by simp [NoPicture, dict])
      have hfields : dict [("profileImageUrl", .string url)] key = none :=
        List.lookup_eq_none_iff.mpr (by simpa using hne)
      show (dict [("profileImageUrl", .string url)] key).or (stored key) = doc key
      rw [hfields]
      exact hsame key hkey
    · exact absurd hedit (by simp [Write.isEdit, dict, List.lookup_cons])
  | delete path => exact absurd hedit (by simp [Write.isEdit])

/-- A write that both see. -/
theorem SameBut.effect {touched : List String} {d written : Option Doc} {write : Write}
    (h : SameBut touched d written) (hpath : write.path = ["users", uid])
    (hserved : ServedWrite (.write write)) :
    SameBut touched (write.effect d) (write.effect written) := by
  obtain ⟨stored, doc, rfl, rfl, hsame⟩ := h
  cases write with
  | setData path saved => exact ⟨saved, saved, rfl, rfl, fun _ _ => rfl⟩
  | updateData path fields =>
    refine ⟨_, _, rfl, rfl, fun key hkey => ?_⟩
    show (fields key).or (stored key) = (fields key).or (doc key)
    rw [hsame key hkey]
  | delete path =>
    obtain rfl : path = ["users", uid] := hpath
    exact hserved.elim

omit [DecidableEq S] in
/-- Serving a request commits its write, or changes no document. -/
theorem serve_commitOf {σ A : Type} {w : AppWorld σ S} {t : S} {r : Request}
    {k : Response r → Program σ} {o : Outcome} {b : Backend} {y : Response r}
    {pre post : List (S × Flight Request Response Turn σ)}
    (hpool : w.pool = pre ++ (t, .issued r k) :: post)
    (hserve : api.serve w.backend r o = some (b, y)) :
    (commitOf w (.serve (A := A) pre.length o) = [] ∧ b.docs = w.backend.docs)
      ∨ ∃ write docs, r = .write write ∧ o.isSuccess = true
        ∧ write.apply w.backend.docs = some docs ∧ b.docs = docs
        ∧ commitOf w (.serve (A := A) pre.length o) = [(t, write)] := by
  have hget : w.pool[pre.length]? = some (t, .issued r k) := getElem?_split hpool
  cases r with
  | write write =>
    cases o with
    | failure error =>
      obtain ⟨rfl, -⟩ : w.backend = b ∧ some error = y := by simpa [serve] using hserve
      exact Or.inl ⟨by simp [commitOf, hget, Outcome.isSuccess], rfl⟩
    | success names =>
      cases hdocs : write.apply w.backend.docs with
      | none =>
        obtain ⟨rfl, -⟩ : w.backend = b ∧ some notFound = y := by simpa [serve, hdocs] using hserve
        exact Or.inl ⟨by simp [commitOf, hget, hdocs], rfl⟩
      | some docs =>
        obtain ⟨rfl, -⟩ : { w.backend with docs := docs } = b ∧ none = y := by
          simpa [serve, hdocs] using hserve
        exact Or.inr ⟨write, docs, rfl, rfl, hdocs, rfl,
          by simp [commitOf, hget, hdocs, Outcome.isSuccess]⟩
  | _ => exact Or.inl ⟨by simp [commitOf, hget], serve_docs hserve (by simp)⟩

/-- A committed write leaves a user's document, the same but for what the edit has touched. -/
theorem EditInv.commit {written : Option Doc} (h : EditInv s uid w written) {t : S} {write : Write}
    {k : Option Error → Program EditSession} {o : Outcome} {docs : Store}
    {pre post : List (S × Flight Request Response Turn EditSession)}
    (hpool : w.pool = pre ++ (t, .issued (.write write) k) :: post)
    (happly : write.apply w.backend.docs = some docs) (hsuccess : o.isSuccess = true)
    (hok : SavesUpToDate s w (.serve pre.length o)) :
    (∀ stored ∈ docs.lookup ["users", uid], IsUserDoc stored)
      ∧ SameBut (w.client s).touched (docs.lookup ["users", uid])
          (lastWritten s uid written [(t, write)]) := by
  have hmem : (t, Flight.issued (.write write) k) ∈ w.pool := mem_split hpool
  have hserved : ServedWrite (.write write) := (h.spares _ hmem).1
  show _ ∧ SameBut _ _ (if write.path = ["users", uid] ∧ ¬ (t = s ∧ write.isEdit = true) then
    write.effect written else written)
  by_cases hpath : write.path = ["users", uid]
  · have heffect : docs.lookup ["users", uid]
        = write.effect (w.backend.docs.lookup ["users", uid]) := by
      rw [← hpath]
      exact Write.lookup_apply happly
    rw [heffect]
    refine ⟨IsUserDoc.effect hpath hserved h.isUserDoc, ?_⟩
    by_cases hedit : t = s ∧ write.isEdit = true
    · obtain ⟨rfl, hedit⟩ := hedit
      rw [if_neg (by simp [hedit])]
      refine h.same.edit (not_touched_token _) h.isUserDoc hpath hserved hedit
        (fun y hy stored hstored => ?_) fun hpicture => ?_
      · refine hok hsuccess (t, .issued (.write write) k) (getElem?_split hpool) rfl y hy stored ?_
        have hy' : y.1 = ["users", uid] := by
          cases write with
          | setData path saved =>
            obtain rfl := Option.some.inj hy
            exact hpath
          | _ => exact absurd hy (by simp [Request.saves])
        rw [hy']
        exact hstored
      · obtain ⟨⟨_, hreq⟩, -⟩ := h.guarded _ hmem hpicture
        exact hreq
    · rw [if_pos ⟨hpath, hedit⟩]
      exact h.same.effect hpath hserved
  · rw [Write.lookup_apply_ne happly (Ne.symm hpath), if_neg fun h => hpath h.1]
    exact ⟨h.isUserDoc, h.same⟩

/-- A request is served. -/
theorem EditInv.serve {written : Option Doc} (h : EditInv s uid w written) {t : S} {r : Request}
    {k : Response r → Program EditSession} {o : Outcome} {b : Backend} {y : Response r}
    {pre post : List (S × Flight Request Response Turn EditSession)}
    (hpool : w.pool = pre ++ (t, .issued r k) :: post)
    (hserve : api.serve w.backend r o = some (b, y))
    (hok : SavesUpToDate s w (.serve pre.length o)) :
    EditInv s uid { w with backend := b, pool := pre ++ (t, .served r (k y)) :: post }
      (lastWritten s uid written (commitOf w (.serve (A := EditAction) pre.length o))) := by
  have hmem : (t, Flight.issued r k) ∈ w.pool := mem_split hpool
  have hold : ∀ x ∈ pre ++ (t, Flight.served r (k y)) :: post,
      x = (t, .served r (k y)) ∨ x ∈ w.pool := by
    intro x hx
    simp only [List.mem_append, List.mem_cons] at hx
    rcases hx with hx | rfl | hx
    · exact Or.inr (mem_split_left hpool hx)
    · exact Or.inl rfl
    · exact Or.inr (mem_split_right hpool hx)
  have hspares : ∀ x ∈ pre ++ (t, Flight.served r (k y)) :: post,
      x.2.Spares ServedWrite EditSession.touched := by
    intro x hx
    rcases hold x hx with rfl | hx
    · exact ⟨(h.spares _ hmem).1, (h.spares _ hmem).2 y⟩
    · exact h.spares x hx
  have hguarded : ∀ x ∈ pre ++ (t, Flight.served r (k y)) :: post,
      "profileImageUrl" ∉ (w.client x.1).touched → x.2.Guarded pictureless := by
    intro x hx hpicture
    rcases hold x hx with rfl | hx
    · exact (h.guarded _ hmem hpicture).2 y trivial
    · exact h.guarded x hx hpicture
  rcases serve_commitOf (A := EditAction) hpool hserve with
    ⟨hnone, hdocs⟩ | ⟨write, docs, rfl, hsuccess, happly, hdocs, hone⟩
  · rw [hnone]
    refine ⟨hspares, hguarded, ?_, ?_⟩
    · show ∀ stored ∈ b.docs.lookup _, _
      rw [hdocs]
      exact h.isUserDoc
    · show SameBut _ (b.docs.lookup _) _
      rw [hdocs]
      exact h.same
  · rw [hone]
    obtain ⟨hdoc, hsame⟩ := h.commit hpool happly hsuccess hok
    subst hdocs
    exact ⟨hspares, hguarded, hdoc, hsame⟩

/-- Every step keeps it. -/
theorem EditInv.step {written : Option Doc} (h : EditInv s uid w written)
    {ev : AppEvent S EditAction} (hok : SavesUpToDate s w ev)
    (hstep : Stepped api EditAction.program w ev w') :
    EditInv s uid w' (lastWritten s uid written (commitOf w ev)) := by
  cases hstep with
  | invoke t a e => exact h.turn (fun x hx => hx) (turned_action a e _)
  | serve hpool hfifo hserve => exact h.serve hpool hserve hok
  | deliver hpool hfifo =>
    rename_i pre post t r p e
    have hmem : (t, Flight.served r p) ∈ w.pool := mem_split hpool
    refine h.turn (fun x hx => ?_) (.of_touchless (h.spares _ hmem).2 fun hpicture => ?_)
    · exact mem_split_rest hpool hx
    · exact h.guarded _ hmem hpicture e trivial
  | drop hpool =>
    rename_i pre post t r p
    have hold : ∀ x ∈ pre ++ post, x ∈ w.pool := fun _ => mem_split_rest hpool
    exact ⟨fun x hx => h.spares x (hold x hx), fun x hx => h.guarded x (hold x hx), h.isUserDoc,
      h.same⟩

/-- **Editing a profile changes only what was edited.** Whatever the other sessions do, in
any interleaving: if every save of the edit is up to date when it is committed, every field that
the edit has not touched is as everybody else has left it. -/
theorem untouched_lastWritten {d₀ : Doc} (hrest : w₀.Quiescent)
    (hstored : w₀.backend.docs.lookup ["users", uid] = some d₀) (huser : IsUserDoc d₀)
    (run : Run api EditAction.program (SavesUpToDate s) w₀ es w) :
    SameBut (w.client s).touched (w.backend.docs.lookup ["users", uid])
      (lastWritten s uid (some d₀) (history api EditAction.program commitOf w₀ es)) := by
  have hinv : EditInv s uid w
      (lastWritten s uid (some d₀) (history api EditAction.program commitOf w₀ es)) := by
    induction run with
    | nil =>
      refine ⟨?_, ?_, ?_, ?_⟩
      · rw [hrest]
        exact fun x hx => absurd hx List.not_mem_nil
      · rw [hrest]
        exact fun x hx => absurd hx List.not_mem_nil
      · rw [hstored]
        exact fun stored h => Option.some.inj h ▸ huser
      · exact ⟨d₀, d₀, hstored, rfl, fun _ _ => rfl⟩
    | snoc run hok hstep ih =>
      rw [run.history_snoc hstep]
      unfold lastWritten at ih ⊢
      rw [List.foldl_append]
      exact ih.step hok (stepped_of_step hstep)
  exact hinv.same

end Runs

/-! ## Two runs -/

/-- What `registerUser` has stored for `a`, on a device with the token `token`. -/
def registeredAnna (token : Option String) : Doc :=
  dict ([("email", .string "a@mail"), ("fullname", .string "Anna"), ("username", .string "anna"),
      ("profileImageUrl", .string oldPictureUrl), ("uid", .string "a")]
    ++ match token with
      | some token => [("fcmToken", .string token)]
      | none => [])

theorem isUserDoc_registeredAnna (token : Option String) : IsUserDoc (registeredAnna token) := by
  intro key hkey
  refine List.lookup_eq_none_iff.mpr ?_
  cases token <;> simp [savedKeys] at hkey ⊢ <;> simp [hkey]

/-- The two devices of `a`, with the controller open on both. -/
def annaEdits (token : Option String) : AppWorld EditSession String :=
  atRest ⟨AList.insert ["users", "a"] (registeredAnna token) ∅, [oldPictureUrl], []⟩
    fun _ => .opened (User.init (registeredAnna token))

/-- Serve the first request in flight, and run its callback. -/
def answerFirst : List (AppEvent String EditAction) :=
  [.serve 0 (.success []), .deliver 0 (turnWith "a" "new")]

/-- The picture picked on a device is uploaded: the old object is deleted, the new one stored
and located, and the document updated; `a` has no posts. -/
def uploadPicture : List (AppEvent String EditAction) :=
  answerFirst ++ answerFirst ++ answerFirst ++ answerFirst ++ answerFirst

/-- On `s` the user name is changed and a picture picked; the save is committed, then `t`
sets the token, and the picture is uploaded. -/
def editThenToken : List (AppEvent String EditAction) :=
  [.invoke "s" (.imagePicked ⟨some "jpeg"⟩) (turnOf "a"),
    .invoke "s" (.doneTap (some (.username, some "ann"))) (turnOf "a")]
    ++ answerFirst
    ++ [.invoke "t" .setUserFCMToken { turnOf "a" with fcmToken := some "token" }]
    ++ answerFirst ++ answerFirst ++ answerFirst ++ answerFirst ++ answerFirst ++ answerFirst

/-- On `t` a picture is picked and uploaded; then on `s`, which still shows the old user, the
user name is changed. -/
def editAfterPicture : List (AppEvent String EditAction) :=
  [.invoke "t" (.imagePicked ⟨some "jpeg"⟩) (turnOf "a"),
    .invoke "t" (.doneTap none) (turnWith "a" "new")]
    ++ uploadPicture
    ++ [.invoke "s" (.doneTap (some (.username, some "ann"))) (turnOf "a")] ++ answerFirst

/-- The e-mail, the name and the token are as they were written by `registerUser` and by `t`. -/
theorem untouched_lastWritten_ann :
    ∃ w, Run api EditAction.program (SavesUpToDate "s") (annaEdits none) editThenToken w
      ∧ w.Quiescent
      ∧ (w.backend.docs.lookup ["users", "a"]).bind (·.string "username") = some "ann"
      ∧ (w.backend.docs.lookup ["users", "a"]).bind (·.string "fcmToken") = some "token"
      ∧ SameBut (w.client "s").touched (w.backend.docs.lookup ["users", "a"])
        (lastWritten "s" "a" (some (registeredAnna none))
          (history api EditAction.program commitOf (annaEdits none) editThenToken)) := by
  obtain ⟨w, run, hquiet, husername, htoken⟩ : ∃ w,
      Run api EditAction.program (SavesUpToDate "s") (annaEdits none) editThenToken w
      ∧ w.Quiescent
      ∧ (w.backend.docs.lookup ["users", "a"]).bind (·.string "username") = some "ann"
      ∧ (w.backend.docs.lookup ["users", "a"]).bind (·.string "fcmToken") = some "token" :=
    exists_run_of_play (by decide +kernel)
  have hrest : (annaEdits none).Quiescent := rfl
  exact ⟨w, run, hquiet, husername, htoken,
    untouched_lastWritten hrest rfl (isUserDoc_registeredAnna none) run⟩

/-- The save takes the token away and brings the old picture back, which is not even stored
any more. -/
theorem untouched_overwritten :
    ∃ w, Run api EditAction.program Healthy (annaEdits (some "token")) editAfterPicture w
      ∧ w.Quiescent
      ∧ (w.backend.docs.lookup ["users", "a"]).bind (·.string "fcmToken") = none
      ∧ (w.backend.docs.lookup ["users", "a"]).bind (·.string "profileImageUrl")
        = some oldPictureUrl
      ∧ ¬ SameBut (w.client "s").touched (w.backend.docs.lookup ["users", "a"])
        (lastWritten "s" "a" (some (registeredAnna (some "token")))
          (history api EditAction.program commitOf (annaEdits (some "token"))
            editAfterPicture)) := by
  obtain ⟨w, run, hquiet, htoken, himage, htouched⟩ : ∃ w,
      Run api EditAction.program Healthy (annaEdits (some "token")) editAfterPicture w
      ∧ w.Quiescent
      ∧ (w.backend.docs.lookup ["users", "a"]).bind (·.string "fcmToken") = none
      ∧ (w.backend.docs.lookup ["users", "a"]).bind (·.string "profileImageUrl")
        = some oldPictureUrl
      ∧ (w.client "s").touched = ["username"] := exists_run_of_play (by decide +kernel)
  refine ⟨w, run, hquiet, htoken, himage, fun h => ?_⟩
  obtain ⟨stored, written, hstored, hwritten, hsame⟩ := h
  have hold : written.string "fcmToken" = some "token" := by
    have hlog : (lastWritten "s" "a" (some (registeredAnna (some "token")))
        (history api EditAction.program commitOf (annaEdits (some "token"))
          editAfterPicture)).bind (·.string "fcmToken") = some "token" := by decide +kernel
    rw [hwritten] at hlog
    exact hlog
  have hkey := hsame "fcmToken" (by rw [htouched]; decide)
  rw [hstored, Option.bind_some] at htoken
  unfold Doc.string at htoken hold
  rw [hkey] at htoken
  rw [htoken] at hold
  exact absurd hold (by simp)

end InstaClone
