import InstaClone.Async.Trace
import InstaClone.Services
import InstaClone.Sessions

/-!
# Does a mutating call answer exactly once?

A controller shows its loader, makes one service call and takes the loader down
in the completion. The completion is threaded through up to four levels of
callbacks: guards return before a callback is registered, error branches return
without calling it, and `deletePost` hands it to every one of the deletions of
its last loop.

`MutatingCall` lists the calls, each made with the completion `answer`, which
counts. `AnswersOnce` says of each, from its arguments and the replies it gets,
whether the count ends at one: most calls always answer, an upload answers when
the upload itself succeeds, `unlikePost` when its guard passes, `deletePost` when
both of its last queries answer and exactly one notification is found.
`answered_once_iff` is the theorem, over every run of the call, whatever other
sessions do.
-/

namespace InstaClone

open Async

/-- The service calls that change something. -/
inductive MutatingCall where
  | registerUser (credentials : AuthCredentials)
  | uploadPost (caption : String) (image : UIImage) (user : User)
  | likePost (post : Post)
  | unlikePost (post : Post)
  | deletePost (postId : String)
  | follow (uid : String)
  | unfollow (uid : String)
  | saveUserData (user : User)
  | updateProfileImage (user : User) (image : UIImage)
  | uploadComment (comment : String) (post : Post) (user : User)
  | uploadMessage (message : String) (user : User)
  | deleteMessages (user : User)

/-- A completion that counts how often it runs. -/
def answer : Program Nat := .modify (· + 1) .done

/-- The call, made with the counting completion. -/
def MutatingCall.program : MutatingCall → Program Nat
  | registerUser credentials => AuthService.registerUser credentials fun _ => answer
  | uploadPost caption image user => PostService.uploadPost caption image user fun _ => answer
  | likePost post => PostService.likePost post fun _ => answer
  | unlikePost post => PostService.unlikePost post fun _ => answer
  | deletePost postId => PostService.deletePost postId fun _ => answer
  | follow uid => UserService.follow uid fun _ => answer
  | unfollow uid => UserService.unfollow uid fun _ => answer
  | saveUserData user => UserService.saveUserData user fun _ => answer
  | updateProfileImage user image => UserService.updateProfileImage user image fun _ _ => answer
  | uploadComment comment post user =>
    CommentService.uploadComment comment post user fun _ => answer
  | uploadMessage message user => MessagingService.uploadMessage message user fun _ => answer
  | deleteMessages user => MessagingService.deleteMessages user fun _ => answer

/-- Does the call ask who is signed in? -/
def MutatingCall.asksUser : MutatingCall → Bool
  | registerUser _ => false
  | uploadComment _ _ _ => false
  | _ => true

/-! ## When a call answers once -/

/-- The marks of a call. -/
abbrev Marks := List (Mark Request Response)

/-- A `putData` or `downloadURL` that succeeded, or something else. -/
def uploadOk : Mark Request Response → Prop
  | .reply (.putData _ _) error => error = none
  | .reply (.downloadURL _) url => url.isSome = true
  | _ => True

/-- A `createUser` that made an account, or something else. -/
def accountOk : Mark Request Response → Prop
  | .reply (.createUser _ _) result => result.2 = none ∧ result.1.isSome = true
  | _ => True

/-- The query for followers in `deletePost`, with the path spelled as there. -/
def deletedPostFollowers (uid : String) : Query :=
  { collection := ["followers", uid, "user-follwers"] }

/-- The query for notifications in `deletePost`. -/
def deletedPostNotifications (uid postId : String) : Query where
  collection := ["notifications", uid, "user-notifications"]
  whereField := some ("postId", .string postId)

/-- A followers query that answered, and a notifications query that found exactly
one notification, or something else. -/
def cascadeOk (uid postId : String) : Mark Request Response → Prop
  | .reply (.getDocuments q) snapshot =>
    (q = deletedPostFollowers uid → snapshot.isSome = true)
      ∧ (q = deletedPostNotifications uid postId → ∃ document, snapshot = some [document])
  | _ => True

/-- The upload of `image` succeeded. -/
def UploadSucceeds (image : UIImage) (T : Marks) : Prop :=
  image.jpegData.isSome = true ∧ ∀ m ∈ T, uploadOk m

/-- The condition, on the arguments and the replies, under which a call of the
signed-in user `uid` answers exactly once. A new profile image asks that Storage accept the
URL of the old one: otherwise the process ends. -/
def AnswersOnce (uid : String) : MutatingCall → Marks → Prop
  | .registerUser credentials, T =>
    UploadSucceeds credentials.profileImage T ∧ ∀ m ∈ T, accountOk m
  | .uploadPost _ image _, T => UploadSucceeds image T
  | .unlikePost post, _ => post.likes > 0
  | .deletePost postId, T => ∀ m ∈ T, cascadeOk uid postId m
  | .updateProfileImage user image, T =>
    Storage.accepts user.profileImageUrl = true ∧ UploadSucceeds image T
  | _, _ => True

/-- The condition does not depend on the order of the replies. -/
theorem AnswersOnce.perm_iff {uid : String} {call : MutatingCall} {T T' : Marks} (h : T.Perm T') :
    AnswersOnce uid call T ↔ AnswersOnce uid call T' := by
  have hmem : ∀ P : Mark Request Response → Prop, (∀ m ∈ T, P m) ↔ ∀ m ∈ T', P m := by
    intro P
    constructor
    · intro hT m hm
      exact hT m (h.mem_iff.mpr hm)
    · intro hT m hm
      exact hT m (h.mem_iff.mp hm)
  cases call <;> simp only [AnswersOnce, UploadSucceeds, hmem]

/-! ## What each call yields -/

section Yields

variable {turn : Turn} {T : Marks} {fs : List (Nat → Nat)}

/-- The program with the replies of a whole run, no callback lost. -/
abbrev Comes (p : Program Nat) (turn : Turn) (T : Marks) (fs : List (Nat → Nat)) : Prop :=
  p.Yields (fun _ => True) False turn T fs

@[simp] theorem comes_answer : Comes answer turn T fs ↔ T = [] ∧ fs = [(· + 1)] := by
  constructor
  · rintro ⟨fs', ⟨rfl, rfl⟩, rfl⟩
    exact ⟨rfl, rfl⟩
  · rintro ⟨rfl, rfl⟩
    exact ⟨[], ⟨rfl, rfl⟩, rfl⟩

@[simp] theorem comes_noCompletion {error : Option Error} :
    Comes (noCompletion error) turn T fs ↔ T = [] ∧ fs = [] := Iff.rfl

/-- One write, its completion run after it. -/
theorem comes_write {w : Write} {k : Option Error → Program Nat}
    (h : Comes (.call (.write w) k .done) turn T fs) :
    ∃ error T' turn', Comes (k error) turn' T' fs ∧ T = .reply (.write w) error :: T' := by
  obtain ⟨error, T', turn', -, hk, rfl⟩ := Prog.yields_call_done.mp h
  exact ⟨error, T', turn', hk, rfl⟩

/-- One write that answers with the counting completion. -/
theorem comes_write_answer {w : Write}
    (h : Comes (.call (.write w) (fun _ => answer) .done) turn T fs) :
    (∃ error, T = [.reply (.write w) error]) ∧ fs = [(· + 1)] := by
  obtain ⟨error, T', turn', hk, rfl⟩ := comes_write h
  obtain ⟨rfl, rfl⟩ := comes_answer.mp hk
  exact ⟨⟨error, rfl⟩, rfl⟩

/-- One write without a completion. -/
theorem comes_write_silent {w : Write}
    (h : Comes (.call (.write w) noCompletion .done) turn T fs) :
    (∃ error, T = [.reply (.write w) error]) ∧ fs = [] := by
  obtain ⟨error, T', turn', hk, rfl⟩ := comes_write h
  obtain ⟨rfl, rfl⟩ := comes_noCompletion.mp hk
  exact ⟨⟨error, rfl⟩, rfl⟩

/-- What is asked of the signed-in user runs with his uid. -/
theorem comes_withCurrentUid {uid : String} (hturn : turn.currentUid = some uid)
    {body : String → Program Nat} (h : Comes (withCurrentUid body) turn T fs) :
    Comes (body uid) turn T fs := by
  rw [withCurrentUid, Comes, Prog.yields_ask, hturn] at h
  exact h

/-- Nothing but writes. -/
def writesOnly : Contract Request Response Turn Nat where
  env _ := True
  state _ := True
  req _ r := r.isWrite = true
  resp _ _ := True

/-- A loop of writes leaves only marks of writes. -/
theorem comes_forEach_marks {α : Type} {l : List α} {w : α → Write}
    {completion : Option Error → Program Nat}
    (hcompl : ∀ error, (completion error).Keeps writesOnly)
    (h : Comes (.forEach l fun a => .call (.write (w a)) completion .done) turn T fs) :
    ∀ m ∈ T, m.req.isWrite = true := by
  have hkeeps : (Prog.forEach l fun a => Prog.call (.write (w a)) completion .done).KeepsIn
      writesOnly turn := by
    refine .forEach fun a _ => ⟨rfl, ?_, trivial⟩
    intro error _
    exact hcompl error
  intro m hm
  obtain ⟨_, hreq⟩ :=
    hkeeps.marks (fun _ _ => trivial) (fun _ => trivial) (fun _ _ => trivial) trivial h m hm
  exact hreq

/-- A loop of writes without completion answers nothing. -/
theorem comes_forEach_silent {α : Type} {l : List α} {w : α → Write}
    (h : Comes (.forEach l fun a => .call (.write (w a)) noCompletion .done) turn T fs) :
    fs = [] ∧ ∀ m ∈ T, m.req.isWrite = true := by
  have hsilent : ∀ error, (noCompletion error : Program Nat).Keeps writesOnly :=
    fun _ => Prog.keeps_done
  refine ⟨?_, comes_forEach_marks hsilent h⟩
  have hround := Prog.yields_forEach_replicate (g := (· + 1)) (n := 0)
    (fun a _ T fs h => (comes_write_silent h).2) h
  simpa using hround

theorem uploadOk_of_isWrite {m : Mark Request Response} (h : m.req.isWrite = true) :
    uploadOk m := by
  match m with
  | .reply (.putData _ _) _ => exact absurd h (by simp [Request.isWrite])
  | .reply (.downloadURL _) _ => exact absurd h (by simp [Request.isWrite])
  | .reply (.write _) _ | .reply (.getDocument _) _ | .reply (.getDocuments _) _
  | .reply (.deleteObject _) _ | .reply (.createUser _ _) _ | .lost _ => trivial

theorem cascadeOk_of_isWrite {uid postId : String} {m : Mark Request Response}
    (h : m.req.isWrite = true) : cascadeOk uid postId m := by
  match m with
  | .reply (.getDocuments _) _ => exact absurd h (by simp [Request.isWrite])
  | .reply (.putData _ _) _ | .reply (.downloadURL _) _ | .reply (.write _) _
  | .reply (.getDocument _) _ | .reply (.deleteObject _) _ | .reply (.createUser _ _) _
  | .lost _ => trivial

/-- An upload goes on with its completion, after two replies that are fine, or ends
without it, and then the upload has not succeeded. -/
theorem comes_uploadImage {image : UIImage} {completion : String → Program Nat}
    (h : Comes (ImageUploader.uploadImage image completion) turn T fs) :
    (fs = [] ∧ ¬ UploadSucceeds image T)
      ∨ image.jpegData.isSome = true ∧ ∃ url T' turn' m m', Comes (completion url) turn' T' fs
        ∧ T = m :: m' :: T' ∧ uploadOk m ∧ uploadOk m' ∧ accountOk m ∧ accountOk m' := by
  rw [ImageUploader.uploadImage] at h
  split at h
  next hjpeg =>
    obtain ⟨rfl, rfl⟩ := h
    exact Or.inl ⟨rfl, fun hok => absurd hok.1 (by simp [hjpeg])⟩
  next imageData hjpeg =>
    obtain ⟨error, T₁, turn₁, -, hput, rfl⟩ := Prog.yields_call_done.mp (Prog.yields_ask.mp h)
    split at hput
    next error =>
      obtain ⟨rfl, rfl⟩ := hput
      refine Or.inl ⟨rfl, fun hok => ?_⟩
      have hfailed : some error = none := hok.2 _ (List.mem_cons_self ..)
      exact absurd hfailed (by simp)
    next =>
      obtain ⟨url, T₂, turn₂, -, hurl, rfl⟩ := Prog.yields_call_done.mp hput
      split at hurl
      next =>
        obtain ⟨rfl, rfl⟩ := hurl
        refine Or.inl ⟨rfl, fun hok => ?_⟩
        have hfailed : (none : Option String).isSome = true :=
          hok.2 _ (List.mem_cons_of_mem _ (List.mem_cons_self ..))
        exact absurd hfailed (by simp)
      next imageUrl =>
        exact Or.inr ⟨by simp [hjpeg], imageUrl, T₂, turn₂, _, _, hurl, rfl, rfl, rfl, trivial,
          trivial⟩

/-- The call answers `n` times, once exactly when `P`. -/
def Counts (P : Prop) (fs : List (Nat → Nat)) : Prop :=
  ∃ n, fs = List.replicate n (· + 1) ∧ (n = 1 ↔ P)

theorem Counts.once {P : Prop} (h : P) (hfs : fs = [(· + 1)]) : Counts P fs :=
  ⟨1, hfs, iff_of_true rfl h⟩

theorem Counts.never {P : Prop} (h : ¬ P) (hfs : fs = []) : Counts P fs :=
  ⟨0, hfs, iff_of_false (by simp) h⟩

/-- What the last callbacks of an upload do not spoil. -/
theorem UploadSucceeds.cons_cons {image : UIImage} {m m' : Mark Request Response}
    (hjpeg : image.jpegData.isSome = true) (hm : uploadOk m) (hm' : uploadOk m')
    (hT : ∀ x ∈ T, uploadOk x) : UploadSucceeds image (m :: m' :: T) := by
  refine ⟨hjpeg, ?_⟩
  intro x hx
  rcases List.mem_cons.mp hx with rfl | hx
  · exact hm
  · rcases List.mem_cons.mp hx with rfl | hx
    · exact hm'
    · exact hT x hx

theorem counts_registerUser {credentials : AuthCredentials}
    (h : Comes (AuthService.registerUser credentials fun _ => answer) turn T fs) :
    Counts (UploadSucceeds credentials.profileImage T ∧ ∀ m ∈ T, accountOk m) fs := by
  rcases comes_uploadImage h with ⟨hfs, hfailed⟩ | ⟨hjpeg, url, T', turn', m, m', hk, rfl, hm,
    hm', ha, ha'⟩
  · exact .never (fun hok => hfailed hok.1) hfs
  · obtain ⟨result, T₁, turn₁, -, hcreate, rfl⟩ := Prog.yields_call_done.mp hk
    have hmem : Mark.reply (.createUser credentials.email credentials.password) result
        ∈ m :: m' :: Mark.reply (.createUser credentials.email credentials.password) result :: T₁ :=
      by simp
    split at hcreate
    next error herror =>
      obtain ⟨rfl, rfl⟩ := hcreate
      refine .never (fun hok => ?_) rfl
      have hnone := (hok.2 _ hmem).1
      exact absurd (herror.symm.trans hnone) (by simp)
    next herror =>
      split at hcreate
      next huid =>
        obtain ⟨rfl, rfl⟩ := hcreate
        refine .never (fun hok => ?_) rfl
        have hsome := (hok.2 _ hmem).2
        exact absurd hsome (by simp [huid])
      next uid huid =>
        obtain ⟨⟨error, rfl⟩, hfs⟩ := comes_write_answer (Prog.yields_ask.mp hcreate)
        refine .once ⟨.cons_cons hjpeg hm hm' ?_, ?_⟩ hfs
        · intro x hx
          simp only [List.mem_cons, List.not_mem_nil, or_false] at hx
          rcases hx with rfl | rfl <;> trivial
        · intro x hx
          simp only [List.mem_cons, List.not_mem_nil, or_false] at hx
          rcases hx with rfl | rfl | rfl | rfl
          · exact ha
          · exact ha'
          · exact ⟨herror, by simp [huid]⟩
          · trivial

theorem counts_uploadPost {uid : String} (hturn : turn.currentUid = some uid) {caption : String}
    {image : UIImage} {user : User}
    (h : Comes (PostService.uploadPost caption image user fun _ => answer) turn T fs) :
    Counts (UploadSucceeds image T) fs := by
  rcases comes_uploadImage (comes_withCurrentUid hturn h) with ⟨hfs, hfailed⟩ | ⟨hjpeg, url, T',
    turn', m, m', hk, rfl, hm, hm', -, -⟩
  · exact .never hfailed hfs
  · obtain ⟨⟨error, rfl⟩, hfs⟩ := comes_write_answer (Prog.yields_ask.mp (Prog.yields_ask.mp hk))
    refine .once (.cons_cons hjpeg hm hm' ?_) hfs
    intro x hx
    rw [List.mem_singleton.mp hx]
    trivial

/-- Two writes, the second answering, after writes without a completion. -/
theorem comes_chain {w w' : Write}
    (h : Comes (.call (.write w) (fun _ => .call (.write w') (fun _ => answer) .done) .done)
      turn T fs) : fs = [(· + 1)] := by
  obtain ⟨error, T', turn', hk, rfl⟩ := comes_write h
  exact (comes_write_answer hk).2

theorem counts_likePost {uid : String} (hturn : turn.currentUid = some uid) {post : Post}
    (h : Comes (PostService.likePost post fun _ => answer) turn T fs) : Counts True fs := by
  obtain ⟨T₁, fs₁, T₂, fs₂, h₁, h₂, rfl, rfl⟩ :=
    Prog.yields_andThen.mp (comes_withCurrentUid hturn h)
  rw [(comes_write_silent h₁).2, comes_chain h₂]
  exact .once trivial rfl

theorem counts_unlikePost {uid : String} (hturn : turn.currentUid = some uid) {post : Post}
    (h : Comes (PostService.unlikePost post fun _ => answer) turn T fs) :
    Counts (post.likes > 0) fs := by
  have hbody := comes_withCurrentUid hturn h
  split at hbody
  next hlikes =>
    obtain ⟨T₁, fs₁, T₂, fs₂, h₁, h₂, rfl, rfl⟩ := Prog.yields_andThen.mp hbody
    rw [(comes_write_silent h₁).2, comes_chain h₂]
    exact .once hlikes rfl
  next hlikes =>
    obtain ⟨rfl, rfl⟩ := hbody
    exact .never hlikes rfl

theorem counts_deletePost {uid : String} (hturn : turn.currentUid = some uid) {postId : String}
    (h : Comes (PostService.deletePost postId fun _ => answer) turn T fs) :
    Counts (∀ m ∈ T, cascadeOk uid postId m) fs := by
  obtain ⟨T₁, fs₁, T₂, fs₂, hlikes, hdelete, rfl, rfl⟩ :=
    Prog.yields_andThen.mp (comes_withCurrentUid hturn h)
  -- the marks of the first query and its deletions decide nothing
  have hfirst : fs₁ = [] ∧ ∀ m ∈ T₁, cascadeOk uid postId m := by
    obtain ⟨snapshot, T₃, turn₃, -, hk, rfl⟩ := Prog.yields_call_done.mp hlikes
    have hquery : cascadeOk uid postId
        (.reply (.getDocuments { collection := ["posts", postId, "post-likes"] }) snapshot) :=
      ⟨fun heq => absurd heq (by simp [deletedPostFollowers]),
        fun heq => absurd heq (by simp [deletedPostNotifications])⟩
    split at hk
    next =>
      obtain ⟨rfl, rfl⟩ := hk
      exact ⟨rfl, by simpa using hquery⟩
    next documents =>
      obtain ⟨hfs, hwrites⟩ := comes_forEach_silent hk
      refine ⟨hfs, fun m hm => ?_⟩
      rcases List.mem_cons.mp hm with rfl | hm
      · exact hquery
      · exact cascadeOk_of_isWrite (hwrites m hm)
  obtain ⟨rfl, hT₁⟩ := hfirst
  obtain ⟨error, T₄, turn₄, hk, rfl⟩ := comes_write hdelete
  obtain ⟨snapshot, T₅, turn₅, -, hfollowers, rfl⟩ := Prog.yields_call_done.mp hk
  rw [List.nil_append]
  split at hfollowers
  next =>
    obtain ⟨rfl, rfl⟩ := hfollowers
    refine .never (fun hok => ?_) rfl
    have hmark := hok (.reply (.getDocuments (deletedPostFollowers uid)) none)
      (by simp [deletedPostFollowers])
    exact absurd (hmark.1 rfl) (by simp)
  next documents =>
    obtain ⟨T₆, fs₆, T₇, fs₇, hfeeds, hnotifications, rfl, rfl⟩ :=
      Prog.yields_andThen.mp hfollowers
    obtain ⟨rfl, hwrites⟩ := comes_forEach_silent hfeeds
    obtain ⟨found, T₈, turn₈, -, hdeletes, rfl⟩ := Prog.yields_call_done.mp hnotifications
    rw [List.nil_append]
    split at hdeletes
    next =>
      obtain ⟨rfl, rfl⟩ := hdeletes
      refine .never (fun hok => ?_) rfl
      have hmark := hok (.reply (.getDocuments (deletedPostNotifications uid postId)) none)
        (by simp [deletedPostNotifications])
      obtain ⟨document, hdocument⟩ := hmark.2 rfl
      exact absurd hdocument (by simp)
    next found =>
      refine ⟨found.length, ?_, ?_⟩
      · have hloop := Prog.yields_forEach_replicate (g := (· + 1)) (n := 1)
          (fun a _ T fs h => (comes_write_answer h).2) hdeletes
        rw [hloop, Nat.mul_one]
      · constructor
        · intro hone
          obtain ⟨document, rfl⟩ := List.length_eq_one_iff.mp hone
          have hanswer : ∀ _ : Option Error, answer.Keeps writesOnly :=
            fun _ _ _ => ⟨fun _ _ => trivial, trivial⟩
          have hdeleted := comes_forEach_marks hanswer hdeletes
          intro m hm
          simp only [List.mem_append, List.mem_cons] at hm
          rcases hm with hm | rfl | rfl | hm | rfl | hm
          · exact hT₁ m hm
          · trivial
          · exact ⟨fun _ => rfl, fun heq => absurd heq (by simp [deletedPostNotifications])⟩
          · exact cascadeOk_of_isWrite (hwrites m hm)
          · exact ⟨fun heq => absurd heq (by simp [deletedPostFollowers]), fun _ => ⟨document, rfl⟩⟩
          · exact cascadeOk_of_isWrite (hdeleted m hm)
        · intro hok
          have hmark := hok (.reply (.getDocuments (deletedPostNotifications uid postId))
            (some found))
            (by simp [deletedPostNotifications])
          obtain ⟨document, hdocument⟩ := hmark.2 rfl
          rw [Option.some.inj hdocument]
          rfl

theorem counts_updateProfileImage {uid : String} (hturn : turn.currentUid = some uid)
    {user : User} {image : UIImage}
    (h : Comes (UserService.updateProfileImage user image fun _ _ => answer) turn T fs) :
    Counts (Storage.accepts user.profileImageUrl = true ∧ UploadSucceeds image T) fs := by
  have hcall := comes_withCurrentUid hturn h
  split at hcall
  case isFalse hurl => exact .never (fun hall => hurl hall.1) hcall.2
  case isTrue hurl =>
  obtain ⟨y, T₁, fs₁, T₂, fs₂, hdeleted, hupload, rfl, rfl⟩ := hcall
  -- the callback of the deletion does nothing
  have hnothing : T₁ = [] ∧ fs₁ = [] := by
    rcases hdeleted with ⟨hlost, -⟩ | ⟨turn', -, rfl, rfl⟩
    · exact hlost.elim
    · exact ⟨rfl, rfl⟩
  obtain ⟨rfl, rfl⟩ := hnothing
  rw [List.nil_append, List.nil_append]
  have hdeletion : uploadOk (.reply (.deleteObject user.profileImageUrl) y) := trivial
  have hcons : ∀ T, UploadSucceeds image (.reply (.deleteObject user.profileImageUrl) y :: T)
      ↔ UploadSucceeds image T := by
    intro T
    simp only [UploadSucceeds, List.forall_mem_cons, hdeletion, true_and]
  rw [hcons, and_iff_right hurl]
  rcases comes_uploadImage hupload with ⟨hfs, hfailed⟩ | ⟨hjpeg, url, T', turn', m, m', hk, rfl,
    hm, hm', -, -⟩
  · exact .never hfailed hfs
  · obtain ⟨error, T₃, turn₃, hupdated, rfl⟩ := comes_write hk
    have hrest : fs₂ = [(· + 1)] ∧ ∀ x ∈ T₃, uploadOk x := by
      split at hupdated
      next =>
        obtain ⟨rfl, rfl⟩ := comes_answer.mp hupdated
        exact ⟨rfl, by simp⟩
      next =>
        obtain ⟨T₄, fs₄, T₅, fs₅, hposts, hanswer, rfl, rfl⟩ := Prog.yields_andThen.mp hupdated
        obtain ⟨rfl, rfl⟩ := comes_answer.mp hanswer
        obtain ⟨snapshot, T₆, turn₆, -, hloop, rfl⟩ := Prog.yields_call_done.mp hposts
        rw [List.append_nil]
        split at hloop
        next =>
          obtain ⟨rfl, rfl⟩ := hloop
          exact ⟨rfl, by simp [uploadOk]⟩
        next documents =>
          obtain ⟨rfl, hwrites⟩ := comes_forEach_silent hloop
          refine ⟨rfl, ?_⟩
          intro x hx
          rcases List.mem_cons.mp hx with rfl | hx
          · trivial
          · exact uploadOk_of_isWrite (hwrites x hx)
    obtain ⟨hfs, hT₃⟩ := hrest
    refine .once (.cons_cons hjpeg hm hm' ?_) hfs
    intro x hx
    rcases List.mem_cons.mp hx with rfl | hx
    · trivial
    · exact hT₃ x hx

theorem counts_uploadMessage {uid : String} (hturn : turn.currentUid = some uid)
    {message : String} {user : User}
    (h : Comes (MessagingService.uploadMessage message user fun _ => answer) turn T fs) :
    Counts True fs := by
  obtain ⟨error, T', turn', hk, rfl⟩ :=
    comes_write (Prog.yields_ask.mp (Prog.yields_ask.mp (comes_withCurrentUid hturn h)))
  obtain ⟨T₁, fs₁, T₂, fs₂, hcopy, hrecent, rfl, rfl⟩ := Prog.yields_andThen.mp hk
  obtain ⟨T₃, fs₃, T₄, fs₄, h₃, h₄, rfl, rfl⟩ := Prog.yields_andThen.mp hrecent
  rw [(comes_write_answer (Prog.yields_ask.mp hcopy)).2, (comes_write_silent h₃).2,
    (comes_write_silent h₄).2]
  exact .once trivial rfl

theorem counts_deleteMessages {uid : String} (hturn : turn.currentUid = some uid) {user : User}
    (h : Comes (MessagingService.deleteMessages user fun _ => answer) turn T fs) :
    Counts True fs := by
  obtain ⟨T₁, fs₁, T₂, fs₂, hmessages, hrecent, rfl, rfl⟩ :=
    Prog.yields_andThen.mp (comes_withCurrentUid hturn h)
  obtain ⟨snapshot, T₃, turn₃, -, hloop, rfl⟩ := Prog.yields_call_done.mp hmessages
  rw [(comes_forEach_silent hloop).1, (comes_write_answer hrecent).2]
  exact .once trivial rfl

/-- **What each call answers**, over all replies. -/
theorem MutatingCall.counts {uid : String} (call : MutatingCall)
    (hturn : call.asksUser = true → turn.currentUid = some uid)
    (h : Comes call.program turn T fs) : Counts (AnswersOnce uid call T) fs := by
  cases call with
  | registerUser credentials => exact counts_registerUser h
  | uploadPost caption image user => exact counts_uploadPost (hturn rfl) h
  | likePost post => exact counts_likePost (hturn rfl) h
  | unlikePost post => exact counts_unlikePost (hturn rfl) h
  | deletePost postId => exact counts_deletePost (hturn rfl) h
  | follow user => exact .once trivial (comes_chain (comes_withCurrentUid (hturn rfl) h))
  | unfollow user => exact .once trivial (comes_chain (comes_withCurrentUid (hturn rfl) h))
  | saveUserData user =>
    exact .once trivial (comes_write_answer (comes_withCurrentUid (hturn rfl) h)).2
  | updateProfileImage user image => exact counts_updateProfileImage (hturn rfl) h
  | uploadComment comment post user => exact .once trivial (comes_write_answer h).2
  | uploadMessage message user => exact counts_uploadMessage (hturn rfl) h
  | deleteMessages user => exact counts_deleteMessages (hturn rfl) h

end Yields

/-! ## Runs -/

/-- The signed-in user `a` deletes his post `p`, in a backend with the given
documents and nothing else going on. -/
def deletingPost (docs : Store) : AppWorld Nat Unit :=
  let w : AppWorld Nat Unit := atRest ⟨docs, [], []⟩ fun _ => 0
  w.turn () (MutatingCall.program (.deletePost "p")) (turnOf "a") w.pool

/-- The backend serves the oldest request and its callback runs. -/
def serveOldest (names : List String) : List (AppEvent Unit Empty) :=
  [.serve 0 (.success names), .deliver 0 (turnOf "a")]

/-- The notification of a like of `p`, in `a`'s inbox. -/
def likedPost : Store :=
  AList.insert ["notifications", "a", "user-notifications", "n"]
    (dict [("uid", .string "b"), ("type", .int 0), ("postId", .string "p")]) ∅

/-- The likes query, the deletion of the post, the followers query, the notifications
query, and the deletion of the one notification it finds. -/
def oneNotification : List (AppEvent Unit Empty) :=
  serveOldest [] ++ serveOldest [] ++ serveOldest [] ++ serveOldest ["n"] ++ serveOldest []

section Runs

variable {S A : Type} [DecidableEq S]

/-- Counting `n` times adds `n`. -/
theorem foldl_count (n x : Nat) :
    (List.replicate n (· + 1)).foldl (fun x f => f x) x = x + n := by
  induction n generalizing x with
  | zero => rfl
  | succ n ih =>
    rw [List.replicate_succ, List.foldl_cons, ih]
    show x + 1 + n = x + (n + 1)
    omega

/-- **One call, one answer.** A session makes a mutating call; other sessions do
anything. When nothing of the call is in flight any more, its completion has run
exactly once if and only if the condition `AnswersOnce` holds of its arguments and
of the replies it got. -/
theorem answered_once_iff {act : A → Program Nat} {call : MutatingCall} {s : S} {uid : String}
    {turn : Turn} (hturn : call.asksUser = true → turn.currentUid = some uid)
    {w₀ w : AppWorld Nat S} (hidle : ∀ x ∈ w₀.pool, x.1 ≠ s) {es : List (AppEvent S A)}
    (run : Run api act (Confined (fun _ => True) False s)
      (w₀.turn s call.program turn w₀.pool) es w)
    (hdone : ∀ x ∈ w.pool, x.1 ≠ s) :
    w.client s = w₀.client s + 1
      ↔ AnswersOnce uid call (trace api act s (w₀.turn s call.program turn w₀.pool) es) := by
  obtain ⟨T, fs, fs', hyields, hperm, hfs, hclient⟩ :=
    run.yields (fun _ _ hok => hok) hidle hdone
  obtain ⟨n, rfl, hcount⟩ := call.counts hturn hyields
  have hreplicate : fs' = List.replicate n (· + 1) := by
    have := List.replicate_perm.mp hfs
    exact this.symm
  rw [hclient, hreplicate, foldl_count, ← AnswersOnce.perm_iff hperm, ← hcount]
  omega

end Runs

/-- With one notification about the post, deleting it answers once. -/
theorem deletePost_answers_once :
    ∃ w, Run api Empty.elim (Confined (fun _ => True) False ()) (deletingPost likedPost)
        oneNotification w
      ∧ w.Quiescent ∧ w.client () = 1
      ∧ AnswersOnce "a" (.deletePost "p")
          (trace api Empty.elim () (deletingPost likedPost) oneNotification) := by
  have hplay : ∃ w, Run api Empty.elim (Confined (fun _ => True) False ()) (deletingPost likedPost)
      oneNotification w ∧ w.Quiescent ∧ w.client () = 1 := exists_run_of_play (by decide)
  obtain ⟨w, run, hquiet, hone⟩ := hplay
  have hidle : ∀ x ∈ (atRest ⟨likedPost, [], []⟩ fun _ => 0 : AppWorld Nat Unit).pool, x.1 ≠ () :=
    fun x hx => absurd hx (by simp [atRest])
  have honce := answered_once_iff (fun _ => rfl) hidle run (by rw [hquiet]; simp)
  exact ⟨w, run, hquiet, hone, honce.mp hone⟩

/-- With no notification about the post, deleting it never answers. -/
theorem deletePost_never_answers :
    ∃ w, Run api Empty.elim (Confined (fun _ => True) False ()) (deletingPost ∅)
        (serveOldest [] ++ serveOldest [] ++ serveOldest [] ++ serveOldest []) w
      ∧ w.Quiescent ∧ w.client () = 0 :=
  exists_run_of_play (by decide)

end InstaClone
