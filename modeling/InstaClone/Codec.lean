import InstaClone.Services

/-!
# What the initialisers read of what the writers store

Six writers store dictionaries and five initialisers read them, and they agree only by
string keys and dynamic casts. `RecordWriter` is the table of the writers;
`RecordWriter.Stores` says which dictionaries each of them can store, over all replies and
turns. Each record lists its `fields` under their keys; `ReadsBack` asks that every key of
the stored dictionary be one of these with the stored value, so that a key which only one
side knows does not go unseen. `LeftOut` is about the optional fields that were not written.

Every field reads back but one: a message's time is stored as a `Timestamp` and read as a
`Double`. Of the optional fields that a writer leaves out none is nil: each initialiser
has a default for them.
-/

namespace InstaClone

open Async

/-! ## The laws of the records -/

/-- Every field that `d` sets reads as it was set, where `fields` are the fields of the
record that was read, each under the key it is stored under. A key that no field is read
from has no value there. -/
def Doc.ReadsAs (d fields : Doc) : Prop := ∀ key v, d key = some v → fields key = some v

/-- An optional field, which is there if it is not nil. -/
def optionalField (key : String) (v : Option Value) : List (String × Value) :=
  (v.map fun v => (key, v)).toList

def User.fields (user : User) : Doc :=
  dict [("email", .string user.email), ("fullname", .string user.fullname),
    ("username", .string user.username), ("profileImageUrl", .string user.profileImageUrl),
    ("uid", .string user.uid), ("fcmToken", .string user.fcmToken)]

def Post.fields (post : Post) : Doc :=
  dict ([("caption", .string post.caption), ("likes", .int post.likes),
    ("imageUrl", .string post.imageUrl), ("ownerUid", .string post.ownerUid),
    ("timestamp", .timestamp post.timestamp), ("ownerImageUrl", .string post.ownerImageUrl),
    ("ownerUsername", .string post.ownerUsername)]
    ++ optionalField "hashtags" (post.hashtags.map Value.strings))

def Comment.fields (comment : Comment) : Doc :=
  dict [("uid", .string comment.uid), ("username", .string comment.username),
    ("profileImageUrl", .string comment.profileImageUrl),
    ("timestamp", .timestamp comment.timestamp), ("comment", .string comment.commentText),
    ("postOwnerUid", .string comment.postOwnerUid)]

/-- The fields of a message but its time, which is a `Date` and no stored value. -/
def Message.fields (message : Message) : Doc :=
  dict [("text", .string message.text), ("toId", .string message.toId),
    ("fromId", .string message.fromId), ("username", .string message.username),
    ("profileImageUrl", .string message.profileImageUrl)]

/-- The type of a notification is stored as its raw value, so that equal values are the
same case. -/
def Notification.fields (notification : Notification) : Doc :=
  dict ([("uid", .string notification.uid), ("timestamp", .timestamp notification.timestamp),
    ("type", .int notification.type.rawValue), ("id", .string notification.id),
    ("userProfileImageUrl", .string notification.userProfileImageUrl),
    ("username", .string notification.username)]
    ++ optionalField "postId" (notification.postId.map Value.string)
    ++ optionalField "postImageUrl" (notification.postImageUrl.map Value.string))

/-- The time of a message reads back as the same instant. -/
structure Message.ReadsBack (d : Doc) (message : Message) : Prop where
  fields : ∀ key v, key ≠ "timestamp" → d key = some v → message.fields key = some v
  timestamp : ∀ v, d "timestamp" = some v →
    ∃ t, v = .timestamp t ∧ message.timestamp = some t.date

/-- `stats` is declared `UserStats!`: an optional. -/
def User.statsIfAny (user : User) : Option UserStats := some user.stats

/-- No writer of a user sets `stats`. -/
def User.LeftOut (user : User) : Prop := user.statsIfAny = none

def Post.LeftOut (d : Doc) (post : Post) : Prop := d "hashtags" = none → post.hashtags = none

def Message.LeftOut (d : Doc) (message : Message) : Prop :=
  d "timestamp" = none → message.timestamp = none

structure Notification.LeftOut (d : Doc) (notification : Notification) : Prop where
  postId : d "postId" = none → notification.postId = none
  postImageUrl : d "postImageUrl" = none → notification.postImageUrl = none

/-! ## The writers -/

/-- The writers and their arguments. -/
inductive RecordWriter where
  | registerUser (credentials : AuthCredentials)
  | saveUserData (user : User)
  | uploadPost (caption : String) (image : UIImage) (user : User)
  | uploadComment (comment : String) (post : Post) (user : User)
  | uploadMessage (message : String) (user : User)
  | uploadNotification (uid : String) (fromUser : User) (type : NotificationType)
      (post : Option Post)

namespace RecordWriter

/-- The call. -/
def program : RecordWriter → Program Unit
  | registerUser credentials => AuthService.registerUser credentials noCompletion
  | saveUserData user => UserService.saveUserData user noCompletion
  | uploadPost caption image user => PostService.uploadPost caption image user noCompletion
  | uploadComment comment post user =>
    CommentService.uploadComment comment post user noCompletion
  | uploadMessage message user => MessagingService.uploadMessage message user noCompletion
  | uploadNotification uid fromUser type post =>
    NotificationService.uploadNotification uid fromUser type post

/-- The call can store the dictionary `d`. -/
def Stores (writer : RecordWriter) (d : Doc) : Prop :=
  ∃ e e' path, writer.program.Issues e e' (.write (.setData path d))

/-- What the writer wrote reads back, in the turn `turn` of the reader. -/
def ReadsBack (turn : Turn) (d : Doc) : RecordWriter → Prop
  | registerUser _ | saveUserData _ => d.ReadsAs (User.init d).fields
  | uploadPost _ _ _ => ∀ postId, d.ReadsAs (Post.init turn.now postId d).fields
  | uploadComment _ _ _ => d.ReadsAs (Comment.init turn.now d).fields
  | uploadMessage _ _ => (Message.init turn.currentUid d).ReadsBack d
  | uploadNotification _ _ _ _ => d.ReadsAs (Notification.init turn.now d).fields

/-- What the writer left out is nil. -/
def LeftOut (turn : Turn) (d : Doc) : RecordWriter → Prop
  | registerUser _ | saveUserData _ => (User.init d).LeftOut
  | uploadPost _ _ _ => ∀ postId, (Post.init turn.now postId d).LeftOut d
  | uploadComment _ _ _ => True
  | uploadMessage _ _ => (Message.init turn.currentUid d).LeftOut d
  | uploadNotification _ _ _ _ => (Notification.init turn.now d).LeftOut d

/-- Decoding undoes encoding. -/
def RoundTrips (turn : Turn) (d : Doc) (writer : RecordWriter) : Prop :=
  writer.ReadsBack turn d ∧ writer.LeftOut turn d

/-- The writers whose records decode to what was written: a comment, and a notification
about a post. -/
def isFaithful : RecordWriter → Bool
  | uploadComment _ _ _ => true
  | uploadNotification _ _ _ post => post.isSome
  | _ => false

/-! ## The dictionaries -/

section Stored

variable {d : Doc}

/-- What `uploadImage` writes, its completion writes. -/
theorem issues_uploadImage {σ : Type} {image : UIImage} {completion : String → Program σ}
    {e e' : Turn} {w : Write}
    (h : (ImageUploader.uploadImage image completion).Issues e e' (.write w)) :
    ∃ imageUrl f, (completion imageUrl).Issues f e' (.write w) := by
  unfold ImageUploader.uploadImage at h
  cases himage : image.jpegData with
  | none =>
    rw [himage] at h
    exact absurd h id
  | some imageData =>
    rw [himage] at h
    simp only [Prog.issues_ask, Prog.issues_call, Prog.issues_done, reduceCtorEq, false_and,
      false_or, or_false] at h
    obtain ⟨error, f, h⟩ := h
    cases error with
    | some error => exact absurd h id
    | none =>
      simp only [Prog.issues_call, Prog.issues_done, reduceCtorEq, false_and, false_or,
        or_false] at h
      obtain ⟨url, f', h⟩ := h
      cases url with
      | none => exact absurd h id
      | some imageUrl => exact ⟨imageUrl, f', h⟩

/-- A call behind `guard let uid = …` runs for some `uid`. -/
theorem issues_withCurrentUid {σ : Type} {body : String → Program σ} {e e' : Turn} {r : Request}
    (h : (withCurrentUid body).Issues e e' r) : ∃ uid, (body uid).Issues e e' r := by
  unfold withCurrentUid at h
  rw [Prog.issues_ask] at h
  cases huid : e.currentUid with
  | none =>
    rw [huid] at h
    exact absurd h id
  | some uid =>
    rw [huid] at h
    exact ⟨uid, h⟩

/-- A `setData` without more stores its data. -/
theorem issues_setData {σ : Type} {path path' : Path} {data : Doc} {e e' : Turn}
    (h : (setData path data noCompletion : Program σ).Issues e e' (.write (.setData path' d))) :
    d = data := by
  simp only [setData, Prog.issues_call, Prog.issues_done, noCompletion, exists_false, or_false,
    Request.write.injEq, Write.setData.injEq] at h
  exact h.1.2.symm

/-- The fields of a user that are not his token. -/
def userFields (email fullname username profileImageUrl uid : String) : List (String × Value) :=
  [("email", .string email), ("fullname", .string fullname), ("username", .string username),
    ("profileImageUrl", .string profileImageUrl), ("uid", .string uid)]

theorem stores_registerUser {credentials : AuthCredentials}
    (h : (registerUser credentials).Stores d) :
    ∃ imageUrl uid token, (token = [] ∨ ∃ t, token = [("fcmToken", Value.string t)])
      ∧ d = dict (userFields credentials.email credentials.fullname credentials.username imageUrl
        uid ++ token) := by
  obtain ⟨e, e', path, h⟩ := h
  obtain ⟨imageUrl, f, h⟩ := issues_uploadImage h
  simp only [Prog.issues_call, Prog.issues_done, reduceCtorEq, false_and, false_or, or_false] at h
  obtain ⟨⟨uid, error⟩, g, h⟩ := h
  cases error with
  | some error => exact absurd h id
  | none =>
    cases uid with
    | none => exact absurd h id
    | some uid =>
      refine ⟨imageUrl, uid, _, ?_, issues_setData h⟩
      cases g.fcmToken with
      | none => exact Or.inl rfl
      | some token => exact Or.inr ⟨token, rfl⟩

theorem stores_saveUserData {user : User} (h : (saveUserData user).Stores d) :
    ∃ uid, d = dict [("email", .string user.email), ("fullname", .string user.fullname),
      ("profileImageUrl", .string user.profileImageUrl), ("uid", .string uid),
      ("username", .string user.username)] := by
  obtain ⟨e, e', path, h⟩ := h
  obtain ⟨uid, h⟩ := issues_withCurrentUid h
  exact ⟨uid, issues_setData h⟩

theorem stores_uploadPost {caption : String} {image : UIImage} {user : User}
    (h : (uploadPost caption image user).Stores d) :
    ∃ (now : Timestamp) (imageUrl uid : String),
      d = dict [("caption", .string caption), ("timestamp", .timestamp now), ("likes", .int 0),
        ("imageUrl", .string imageUrl), ("ownerUid", .string uid),
        ("ownerImageUrl", .string user.profileImageUrl),
        ("ownerUsername", .string user.username)] := by
  obtain ⟨e, e', path, h⟩ := h
  obtain ⟨uid, h⟩ := issues_withCurrentUid h
  obtain ⟨imageUrl, f, h⟩ := issues_uploadImage h
  exact ⟨f.now, imageUrl, uid, issues_setData h⟩

theorem stores_uploadComment {comment : String} {post : Post} {user : User}
    (h : (uploadComment comment post user).Stores d) :
    ∃ now : Timestamp,
      d = dict [("uid", .string user.uid), ("comment", .string comment),
        ("timestamp", .timestamp now), ("username", .string user.username),
        ("profileImageUrl", .string user.profileImageUrl),
        ("postOwnerUid", .string post.ownerUid)] := by
  obtain ⟨e, e', path, h⟩ := h
  exact ⟨e.now, issues_setData h⟩

theorem stores_uploadMessage {message : String} {user : User}
    (h : (uploadMessage message user).Stores d) :
    ∃ uid turn, d = MessagingService.messageData uid turn message user := by
  obtain ⟨e, e', path, h⟩ := h
  obtain ⟨uid, h⟩ := issues_withCurrentUid h
  refine ⟨uid, e, ?_⟩
  simp only [addDocument, setData, Prog.issues_ask, Prog.issues_call, Prog.issues_done,
    Prog.call_andThen, Prog.done_andThen, or_false, Request.write.injEq,
    Write.setData.injEq] at h
  -- the same dictionary goes to both sides of the conversation and to both recent entries
  rcases h with h | ⟨y, f, h⟩
  · exact h.1.2.symm
  · have hdata : ∀ {path' : Path} {data : Doc},
        Request.write (.setData path' data) = .write (.setData path d) → d = data :=
      fun heq => (Write.setData.inj (Request.write.inj heq)).2.symm
    rcases h with h | ⟨_, _, h⟩ | h | ⟨_, _, h⟩ | h | ⟨_, _, h⟩ | h
    · exact hdata h.1
    · exact absurd h id
    · exact hdata h.1
    · exact absurd h id
    · exact hdata h.1
    · exact absurd h id
    · exact absurd h id

theorem stores_uploadNotification {uid : String} {fromUser : User} {type : NotificationType}
    {post : Option Post} (h : (uploadNotification uid fromUser type post).Stores d) :
    ∃ currentUid turn,
      d = NotificationService.notificationData currentUid turn fromUser type post := by
  obtain ⟨e, e', path, h⟩ := h
  obtain ⟨currentUid, h⟩ := issues_withCurrentUid h
  split at h
  next => exact absurd h id
  next => exact ⟨currentUid, e, issues_setData h⟩

/-! ## The law -/

/-- A dictionary literal reads back as soon as each of its entries does. -/
theorem readsAs_dict {written : List (String × Value)} {fields : Doc}
    (h : ∀ x ∈ written, fields x.1 = some x.2) : (dict written).ReadsAs fields :=
  fun key v hv => h (key, v) (mem_of_dict hv)

/-- **What is written reads back, but for the time of a message.** -/
theorem readsBack_iff {writer : RecordWriter} (h : writer.Stores d) (turn : Turn) :
    writer.ReadsBack turn d ↔ ∀ message user, writer ≠ uploadMessage message user := by
  cases writer with
  | registerUser credentials =>
    refine iff_of_true ?_ (by simp)
    obtain ⟨imageUrl, uid, token, htoken, rfl⟩ := stores_registerUser h
    refine readsAs_dict ?_
    rcases htoken with rfl | ⟨t, rfl⟩
    · simp only [userFields, List.forall_mem_append, List.forall_mem_cons, List.not_mem_nil,
        false_imp_iff, implies_true, and_true]
      exact ⟨rfl, rfl, rfl, rfl, rfl⟩
    · simp only [userFields, List.forall_mem_append, List.forall_mem_cons, List.not_mem_nil,
        false_imp_iff, implies_true, and_true]
      exact ⟨⟨rfl, rfl, rfl, rfl, rfl⟩, rfl⟩
  | saveUserData user =>
    refine iff_of_true ?_ (by simp)
    obtain ⟨uid, rfl⟩ := stores_saveUserData h
    refine readsAs_dict ?_
    simp only [List.forall_mem_cons, List.not_mem_nil, false_imp_iff, implies_true, and_true]
    exact ⟨rfl, rfl, rfl, rfl, rfl⟩
  | uploadPost caption image user =>
    refine iff_of_true (fun postId => ?_) (by simp)
    obtain ⟨now, imageUrl, uid, rfl⟩ := stores_uploadPost h
    refine readsAs_dict ?_
    simp only [List.forall_mem_cons, List.not_mem_nil, false_imp_iff, implies_true, and_true]
    exact ⟨rfl, rfl, rfl, rfl, rfl, rfl, rfl⟩
  | uploadComment comment post user =>
    refine iff_of_true ?_ (by simp)
    obtain ⟨now, rfl⟩ := stores_uploadComment h
    refine readsAs_dict ?_
    simp only [List.forall_mem_cons, List.not_mem_nil, false_imp_iff, implies_true, and_true]
    exact ⟨rfl, rfl, rfl, rfl, rfl, rfl⟩
  | uploadMessage message user =>
    refine iff_of_false (fun hreads => ?_) (fun hne => hne message user rfl)
    obtain ⟨uid, sent, rfl⟩ := stores_uploadMessage h
    -- the cast of the stored `Timestamp` to a `Double` fails
    obtain ⟨t, -, htime⟩ := hreads.timestamp (.timestamp sent.now) rfl
    have hnone : (Message.init turn.currentUid
        (MessagingService.messageData uid sent message user)).timestamp = none := rfl
    rw [hnone] at htime
    exact absurd htime (by simp)
  | uploadNotification uid fromUser type post =>
    refine iff_of_true ?_ (by simp)
    obtain ⟨currentUid, sent, rfl⟩ := stores_uploadNotification h
    refine readsAs_dict ?_
    cases post with
    | none =>
      simp only [List.forall_mem_append, List.forall_mem_cons, List.not_mem_nil, false_imp_iff,
        implies_true, and_true]
      refine ⟨rfl, rfl, ?_, rfl, rfl, rfl⟩
      cases type <;> rfl
    | some post =>
      simp only [List.forall_mem_append, List.forall_mem_cons, List.not_mem_nil, false_imp_iff,
        implies_true, and_true]
      refine ⟨⟨rfl, rfl, ?_, rfl, rfl, rfl⟩, rfl, rfl⟩
      cases type <;> rfl

/-- **What is left out is nil only where nothing is left out.** -/
theorem leftOut_iff {writer : RecordWriter} (h : writer.Stores d) (turn : Turn) :
    writer.LeftOut turn d
      ↔ writer.isFaithful = true ∨ ∃ message user, writer = uploadMessage message user := by
  cases writer with
  | registerUser credentials => exact iff_of_false (fun h => by cases h) (by simp [isFaithful])
  | saveUserData user => exact iff_of_false (fun h => by cases h) (by simp [isFaithful])
  | uploadPost caption image user =>
    refine iff_of_false (fun hleft => ?_) (by simp [isFaithful])
    obtain ⟨now, imageUrl, uid, rfl⟩ := stores_uploadPost h
    exact absurd (hleft "" rfl) (by simp [Post.init])
  | uploadComment comment post user => exact iff_of_true trivial (Or.inl rfl)
  | uploadMessage message user =>
    refine iff_of_true (fun hnone => ?_) (Or.inr ⟨message, user, rfl⟩)
    obtain ⟨uid, sent, rfl⟩ := stores_uploadMessage h
    exact absurd hnone (by simp [MessagingService.messageData, dict])
  | uploadNotification uid fromUser type post =>
    obtain ⟨currentUid, sent, rfl⟩ := stores_uploadNotification h
    cases post with
    | none =>
      refine iff_of_false (fun hleft => ?_) (by simp [isFaithful])
      exact absurd (hleft.postId rfl) (by simp [Notification.init])
    | some post =>
      refine iff_of_true ⟨fun hnone => ?_, fun hnone => ?_⟩ (Or.inl rfl)
      · exact absurd hnone (by simp [NotificationService.notificationData, dict, List.lookup_cons])
      · exact absurd hnone (by simp [NotificationService.notificationData, dict, List.lookup_cons])

/-- **Decoding undoes encoding for comments and for notifications about a post**, and for no
other record: whatever dictionary the writer stored, in whatever turn it is read. -/
theorem roundTrips_iff {writer : RecordWriter} (h : writer.Stores d) (turn : Turn) :
    writer.RoundTrips turn d ↔ writer.isFaithful = true := by
  unfold RoundTrips
  rw [readsBack_iff h turn, leftOut_iff h turn]
  cases writer with
  | uploadMessage message user =>
    exact iff_of_false (fun hall => hall.1 message user rfl) (by simp [isFaithful])
  | _ => simp

/-! ## Two records -/

/-- The comment of `a` on a post of `b`. -/
def someComment : RecordWriter :=
  uploadComment "hello" (Post.init ⟨0, 0⟩ "p" (dict [("ownerUid", .string "b")]))
    (User.init (dict [("uid", .string "a"), ("username", .string "a")]))

/-- A comment decodes to what was written. -/
theorem roundTrips_comment :
    ∃ d, someComment.Stores d ∧ someComment.RoundTrips ⟨some "b", none, ⟨9, 0⟩, "id"⟩ d := by
  have hstores : someComment.Stores _ :=
    ⟨⟨some "a", none, ⟨7, 0⟩, "id"⟩, _, _, Or.inl ⟨rfl, rfl⟩⟩
  exact ⟨_, hstores, (roundTrips_iff hstores _).mpr rfl⟩

/-- The time of a message is lost: it was stored, and the decoded message has none. -/
theorem roundTrips_lost :
    ∃ d, (uploadMessage "hello" (User.init (dict [("uid", .string "b")]))).Stores d
      ∧ d.timestamp "timestamp" = some ⟨7, 0⟩
      ∧ (Message.init (some "b") d).timestamp = none
      ∧ ¬ (uploadMessage "hello" (User.init (dict [("uid", .string "b")]))).RoundTrips
        ⟨some "b", none, ⟨9, 0⟩, "id"⟩ d := by
  have hstores : (uploadMessage "hello" (User.init (dict [("uid", .string "b")]))).Stores _ :=
    ⟨⟨some "a", none, ⟨7, 0⟩, "id"⟩, _, _, Or.inl ⟨rfl, rfl⟩⟩
  refine ⟨_, hstores, rfl, rfl, fun hround => ?_⟩
  obtain ⟨t, -, htime⟩ := hround.1.timestamp (.timestamp ⟨7, 0⟩) rfl
  have hnone : (none : Option Date) = some t.date := htime
  exact absurd hnone (by simp)

end Stored

end RecordWriter

end InstaClone
