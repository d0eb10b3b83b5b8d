import Mathlib.Data.Rat.Defs
import InstaClone.Backend

/-!
# The records of the app and how they are read from documents

`Post`, `User`, `Notification`, `Message` and `Comment` with their
`init(dictionary:)`. Every field is read by key and dynamic cast and falls back to
a default when the key is missing or holds another type. The default of a missing
timestamp is `Timestamp(date: Date())`, so those initialisers take the time of the
turn they run in.
-/

namespace InstaClone

/-! ## Posts -/

structure Post where
  caption : String
  likes : Int
  imageUrl : String
  ownerUid : String
  timestamp : Timestamp
  postId : String
  ownerImageUrl : String
  ownerUsername : String
  didLike : Bool := false
  hashtags : Option (List String)
deriving DecidableEq

/-- `Post.init(postId:dictionary:)`. -/
def Post.init (now : Timestamp) (postId : String) (dictionary : Doc) : Post where
  postId := postId
  caption := (dictionary.string "caption").getD ""
  likes := (dictionary.int "likes").getD 0
  imageUrl := (dictionary.string "imageUrl").getD ""
  ownerUid := (dictionary.string "ownerUid").getD ""
  timestamp := (dictionary.timestamp "timestamp").getD now
  ownerImageUrl := (dictionary.string "ownerImageUrl").getD ""
  ownerUsername := (dictionary.string "ownerUsername").getD ""
  hashtags := some ((dictionary.strings "hashtags").getD [])

@[simp] theorem Post.init_postId (now : Timestamp) (postId : String) (d : Doc) :
    (Post.init now postId d).postId = postId := rfl

@[simp] theorem Post.init_didLike (now : Timestamp) (postId : String) (d : Doc) :
    (Post.init now postId d).didLike = false := rfl

@[simp] theorem Post.init_likes (now : Timestamp) (postId : String) (d : Doc) :
    (Post.init now postId d).likes = (d.int "likes").getD 0 := rfl

@[simp] theorem Post.init_ownerUid (now : Timestamp) (postId : String) (d : Doc) :
    (Post.init now postId d).ownerUid = (d.string "ownerUid").getD "" := rfl

/-! ## Users -/

structure UserStats where
  followers : Nat
  following : Nat
  posts : Nat
deriving DecidableEq, Repr

structure User where
  email : String
  fullname : String
  username : String
  profileImageUrl : String
  uid : String
  fcmToken : String
  isFollowed : Bool := false
  stats : UserStats := ⟨0, 0, 0⟩
deriving DecidableEq

/-- `User.init(dictionary:)`. -/
def User.init (dictionary : Doc) : User where
  email := (dictionary.string "email").getD ""
  fullname := (dictionary.string "fullname").getD ""
  username := (dictionary.string "username").getD ""
  uid := (dictionary.string "uid").getD ""
  profileImageUrl := (dictionary.string "profileImageUrl").getD ""
  fcmToken := (dictionary.string "fcmToken").getD ""

/-- `User.isCurrentUser`. -/
def User.isCurrentUser (user : User) (currentUid : Option String) : Bool :=
  currentUid == some user.uid

/-! ## Notifications -/

inductive NotificationType where
  | like
  | follow
  | comment
deriving DecidableEq, Repr

def NotificationType.rawValue : NotificationType → Int
  | .like => 0
  | .follow => 1
  | .comment => 2

/-- `NotificationType(rawValue:)`. -/
def NotificationType.ofRawValue : Int → Option NotificationType
  | 0 => some .like
  | 1 => some .follow
  | 2 => some .comment
  | _ => none

@[simp] theorem NotificationType.ofRawValue_rawValue (t : NotificationType) :
    NotificationType.ofRawValue t.rawValue = some t := by
  cases t <;> rfl

structure Notification where
  uid : String
  postImageUrl : Option String
  postId : Option String
  timestamp : Timestamp
  type : NotificationType
  id : String
  userProfileImageUrl : String
  username : String
  userIsFollowed : Bool := false
deriving DecidableEq

/-- `Notification.init(dictionary:)`. -/
def Notification.init (now : Timestamp) (dictionary : Doc) : Notification where
  timestamp := (dictionary.timestamp "timestamp").getD now
  id := (dictionary.string "id").getD ""
  uid := (dictionary.string "uid").getD ""
  postId := some ((dictionary.string "postId").getD "")
  postImageUrl := some ((dictionary.string "postImageUrl").getD "")
  type := (NotificationType.ofRawValue ((dictionary.int "type").getD 0)).getD .like
  userProfileImageUrl := (dictionary.string "userProfileImageUrl").getD ""
  username := (dictionary.string "username").getD ""

/-! ## Comments and messages -/

structure Comment where
  uid : String
  username : String
  profileImageUrl : String
  timestamp : Timestamp
  commentText : String
  postOwnerUid : String
deriving DecidableEq

/-- `Comment.init(dictionary:)`. -/
def Comment.init (now : Timestamp) (dictionary : Doc) : Comment where
  uid := (dictionary.string "uid").getD ""
  postOwnerUid := (dictionary.string "postOwnerUid").getD ""
  username := (dictionary.string "username").getD ""
  profileImageUrl := (dictionary.string "profileImageUrl").getD ""
  commentText := (dictionary.string "comment").getD ""
  timestamp := (dictionary.timestamp "timestamp").getD now

/-- `Date`, as seconds since 1970. -/
abbrev Date := Rat

/-- The instant of a `Timestamp`. -/
def Timestamp.date (t : Timestamp) : Date := t.seconds + t.nanoseconds / 1000000000

/-- `dictionary[key] as? Double`. Numbers bridge to `Double`, a `Timestamp` does not. -/
def Doc.double (d : Doc) (key : String) : Option Rat :=
  match d key with
  | some (.int i) => some i
  | _ => none

structure Message where
  text : String
  toId : String
  fromId : String
  username : String
  timestamp : Option Date
  profileImageUrl : String
  isFromCurrentUser : Bool
deriving DecidableEq

/-- `Message.init(dictionary:)`, run while `currentUid` is signed in. -/
def Message.init (currentUid : Option String) (dictionary : Doc) : Message where
  text := (dictionary.string "text").getD ""
  toId := (dictionary.string "toId").getD ""
  fromId := (dictionary.string "fromId").getD ""
  username := (dictionary.string "username").getD ""
  timestamp := dictionary.double "timestamp"
  profileImageUrl := (dictionary.string "profileImageUrl").getD ""
  isFromCurrentUser := some ((dictionary.string "fromId").getD "") == currentUid

/-- `Message.chatPartnerId`. -/
def Message.chatPartnerId (message : Message) : String :=
  if message.isFromCurrentUser then message.toId else message.fromId

/-! ## Images and credentials -/

/-- `UIImage`, as far as this code uses it: its `jpegData(compressionQuality:)`. -/
structure UIImage where
  jpegData : Option String
deriving DecidableEq

structure AuthCredentials where
  email : String
  password : String
  fullname : String
  username : String
  profileImage : UIImage

end InstaClone
