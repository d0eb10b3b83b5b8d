import InstaClone.Inventory
import InstaClone.Paths

/-!
# What is stored fits its collection

Firestore has no schema and the initialisers fall back to a default for whatever is missing
or of another type. `schemaOf` is the schema that the writers of the app follow without
saying so: which collections there are, which fields a document of each has, and of which
type. `Conforms` adds what the path of a document says of its fields: the uid of a user, the
identifier and the addressee of a notification, the two sides of a message.

That a literal dictionary fits is a computation on its keys and types (`fits_dict`); an
update of known fields keeps what it updates fitting (`Doc.Fits.merge`). So it holds of
every document in every run of the whole app (`stored_conforms`), with every interleaving,
failure and loss: no initialiser ever has to fall back.
-/

namespace InstaClone

open Async

/-! ## Schemas -/

/-- The types of the values stored here. -/
inductive Kind where
  | string
  | int
  | timestamp
  | strings
deriving DecidableEq, Repr

def Value.kind : Value → Kind
  | string _ => .string
  | int _ => .int
  | timestamp _ => .timestamp
  | strings _ => .strings

/-- A field of a schema: its key and type, and whether every document has it. -/
structure Field where
  key : String
  kind : Kind
  required : Bool := true
deriving DecidableEq, Repr

/-- The field is one of the schema, with its type. -/
def InSchema (schema : List Field) (key : String) (kind : Kind) : Prop :=
  ∃ f ∈ schema, f.key = key ∧ f.kind = kind

instance (schema : List Field) (key : String) (kind : Kind) :
    Decidable (InSchema schema key kind) :=
  inferInstanceAs (Decidable (∃ f ∈ schema, _))

/-- The document has the required fields and no unknown ones, all of their types. -/
structure Doc.Fits (d : Doc) (schema : List Field) : Prop where
  required : ∀ f ∈ schema, f.required = true → ∃ v, d f.key = some v ∧ v.kind = f.kind
  known : ∀ key v, d key = some v → InSchema schema key v.kind

/-- A dictionary literal with these keys and types fits the schema. -/
def FitsShape (shape : List (String × Kind)) (schema : List Field) : Prop :=
  (shape.map Prod.fst).Nodup ∧ (∀ f ∈ schema, f.required = true → (f.key, f.kind) ∈ shape)
    ∧ ∀ x ∈ shape, InSchema schema x.1 x.2

instance (shape : List (String × Kind)) (schema : List Field) :
    Decidable (FitsShape shape schema) :=
  inferInstanceAs (Decidable (_ ∧ _))

/-- The keys and types of a dictionary literal. -/
def shape (fields : List (String × Value)) : List (String × Kind) :=
  fields.map fun x => (x.1, x.2.kind)

/-- A dictionary literal fits as soon as its shape does. -/
theorem fits_dict {fields : List (String × Value)} {schema : List Field}
    (h : FitsShape (shape fields) schema) : (dict fields).Fits schema := by
  obtain ⟨hnodup, hrequired, hfield⟩ := h
  have hkeys : (fields.map Prod.fst).Nodup := by
    have hfst : (shape fields).map Prod.fst = fields.map Prod.fst := by
      unfold shape
      rw [List.map_map]
      rfl
    rw [← hfst]
    exact hnodup
  refine ⟨fun f hf hreq => ?_, fun key v hv => ?_⟩
  · obtain ⟨x, hx, heq⟩ := List.mem_map.mp (hrequired f hf hreq)
    rw [Prod.mk.injEq] at heq
    rw [← heq.1]
    exact ⟨x.2, dict_of_mem hkeys hx, heq.2⟩
  · exact hfield (key, v.kind) (List.mem_map.mpr ⟨(key, v), mem_of_dict hv, rfl⟩)

/-- An update of known fields. -/
theorem Doc.Fits.merge {d fields : Doc} {schema : List Field} (h : d.Fits schema)
    (hnodup : (schema.map Field.key).Nodup)
    (hfields : ∀ key v, fields key = some v → InSchema schema key v.kind) :
    (d.merge fields).Fits schema := by
  refine ⟨fun f hf hreq => ?_, fun key v hv => ?_⟩
  · unfold Doc.merge
    cases hv : fields f.key with
    | none => exact h.required f hf hreq
    | some v =>
      obtain ⟨g, hg, hkey, hkind⟩ := hfields f.key v hv
      obtain rfl : g = f := List.inj_on_of_nodup_map hnodup hg hf hkey
      exact ⟨v, rfl, hkind.symm⟩
  · unfold Doc.merge at hv
    cases hf : fields key with
    | none =>
      rw [hf] at hv
      exact h.known key v hv
    | some u =>
      rw [hf] at hv
      obtain rfl : u = v := Option.some.inj hv
      exact hfields key u hf

/-- A required string is there, -/
theorem Doc.Fits.string {d : Doc} {schema : List Field} (h : d.Fits schema) {key : String}
    (hf : ⟨key, .string, true⟩ ∈ schema) : ∃ s, d.string key = some s := by
  obtain ⟨v, hv, hkind⟩ := h.required _ hf rfl
  cases v with
  | string s => exact ⟨s, by unfold Doc.string; rw [hv]⟩
  | _ => exact absurd hkind (by simp [Value.kind])

/-- and so is a required timestamp. -/
theorem Doc.Fits.timestamp {d : Doc} {schema : List Field} (h : d.Fits schema) {key : String}
    (hf : ⟨key, .timestamp, true⟩ ∈ schema) : ∃ t, d.timestamp key = some t := by
  obtain ⟨v, hv, hkind⟩ := h.required _ hf rfl
  cases v with
  | timestamp t => exact ⟨t, by unfold Doc.timestamp; rw [hv]⟩
  | _ => exact absurd hkind (by simp [Value.kind])

/-! ## The collections of the app -/

def userSchema : List Field :=
  [⟨"email", .string, true⟩, ⟨"fullname", .string, true⟩, ⟨"username", .string, true⟩,
    ⟨"profileImageUrl", .string, true⟩, ⟨"uid", .string, true⟩, ⟨"fcmToken", .string, false⟩]

def postSchema : List Field :=
  [⟨"caption", .string, true⟩, ⟨"timestamp", .timestamp, true⟩, ⟨"likes", .int, true⟩,
    ⟨"imageUrl", .string, true⟩, ⟨"ownerUid", .string, true⟩, ⟨"ownerImageUrl", .string, true⟩,
    ⟨"ownerUsername", .string, true⟩]

def commentSchema : List Field :=
  [⟨"uid", .string, true⟩, ⟨"comment", .string, true⟩, ⟨"timestamp", .timestamp, true⟩,
    ⟨"username", .string, true⟩, ⟨"profileImageUrl", .string, true⟩,
    ⟨"postOwnerUid", .string, true⟩]

def notificationSchema : List Field :=
  [⟨"timestamp", .timestamp, true⟩, ⟨"uid", .string, true⟩, ⟨"type", .int, true⟩,
    ⟨"id", .string, true⟩, ⟨"userProfileImageUrl", .string, true⟩, ⟨"username", .string, true⟩,
    ⟨"postId", .string, false⟩, ⟨"postImageUrl", .string, false⟩]

def messageSchema : List Field :=
  [⟨"text", .string, true⟩, ⟨"fromId", .string, true⟩, ⟨"toId", .string, true⟩,
    ⟨"timestamp", .timestamp, true⟩, ⟨"username", .string, true⟩,
    ⟨"profileImageUrl", .string, true⟩]

/-- The schema of the collection that a document is in. -/
def schemaOf : Path → Option (List Field)
  | ["users", _] => some userSchema
  | ["users", _, "user-likes", _] | ["users", _, "user-feed", _] => some []
  | ["posts", _] => some postSchema
  | ["posts", _, "post-likes", _] => some []
  | ["posts", _, "comments", _] => some commentSchema
  | ["following", _, "user-following", _] | ["followers", _, "user-followers", _] => some []
  | ["notifications", _, "user-notifications", _] => some notificationSchema
  | ["messages", _, _, _] => some messageSchema
  | _ => none

/-- What a notification to `owner` under `id` says. -/
structure NotificationFields (owner id : String) (d : Doc) : Prop where
  id : d.string "id" = some id
  other : d.string "uid" ≠ some owner
  type : ∃ type : NotificationType, d.int "type" = some type.rawValue
    ∧ ((d "postId").isSome ↔ type ≠ .follow) ∧ ((d "postImageUrl").isSome ↔ type ≠ .follow)

/-- The document fits the schema of its collection, and its fields say what its path says. -/
structure Conforms (path : Path) (d : Doc) : Prop where
  fits : ∃ schema, schemaOf path = some schema ∧ d.Fits schema
  user : ∀ uid, path = ["users", uid] → d.string "uid" = some uid
  notification : ∀ owner id, path = ["notifications", owner, "user-notifications", id] →
    NotificationFields owner id d
  message : ∀ owner coll id, path = ["messages", owner, coll, id] →
    ∃ sender receiver, d.string "fromId" = some sender ∧ d.string "toId" = some receiver
      ∧ (Sides sender receiver owner coll
        ∨ coll = recentMessages ∧ Sides sender receiver owner id)

/-! ## The writers -/

/-- A user names himself. -/
theorem conforms_user {uid : String} {d : Doc} (hfits : d.Fits userSchema)
    (huid : d.string "uid" = some uid) : Conforms ["users", uid] d where
  fits := ⟨userSchema, rfl, hfits⟩
  user uid' h := by
    obtain rfl : uid = uid' := by simpa using h
    exact huid
  notification _ _ h := by simp at h
  message _ _ _ h := by simp at h

/-- What registration stores conforms, -/
theorem conforms_registered {e : Turn} {credentials : AuthCredentials} {imageUrl uid : String} :
    Conforms ["users", uid] (registeredUser credentials imageUrl uid e.fcmToken) := by
  refine conforms_user ?_ rfl
  unfold registeredUser
  refine fits_dict ?_
  cases e.fcmToken with
  | none => exact (by decide : FitsShape [("email", .string), ("fullname", .string),
      ("username", .string), ("profileImageUrl", .string), ("uid", .string)] userSchema)
  | some token => exact (by decide : FitsShape [("email", .string), ("fullname", .string),
      ("username", .string), ("profileImageUrl", .string), ("uid", .string),
      ("fcmToken", .string)] userSchema)

/-- what the editor saves, -/
theorem conforms_saved {user : User} {uid : String} :
    Conforms ["users", uid] (savedUser user uid) := by
  refine conforms_user (fits_dict ?_) rfl
  exact (by decide : FitsShape [("email", .string), ("fullname", .string),
      ("profileImageUrl", .string), ("uid", .string), ("username", .string)] userSchema)

/-- what an upload stores, -/
theorem conforms_post {e : Turn} {postId caption imageUrl uid : String} {user : User} :
    Conforms ["posts", postId] (uploadedPost e caption imageUrl uid user) where
  fits := by
    refine ⟨postSchema, rfl, fits_dict ?_⟩
    exact (by decide : FitsShape [("caption", .string), ("timestamp", .timestamp),
      ("likes", .int), ("imageUrl", .string), ("ownerUid", .string), ("ownerImageUrl", .string),
      ("ownerUsername", .string)] postSchema)
  user _ h := by simp at h
  notification _ _ h := by simp at h
  message _ _ _ h := by simp at h

/-- a comment, -/
theorem conforms_comment {e : Turn} {postId id text : String} {post : Post} {user : User} :
    Conforms ["posts", postId, "comments", id] (uploadedComment e text post user) where
  fits := by
    refine ⟨commentSchema, rfl, fits_dict ?_⟩
    exact (by decide : FitsShape [("uid", .string), ("comment", .string),
      ("timestamp", .timestamp), ("username", .string), ("profileImageUrl", .string),
      ("postOwnerUid", .string)] commentSchema)
  user _ h := by simp at h
  notification _ _ h := by simp at h
  message _ _ _ h := by simp at h

/-- A mark: an empty document in a collection of marks. -/
theorem conforms_mark {path : Path} (hschema : schemaOf path = some [])
    (hroot : path.head? ≠ some "notifications" ∧ path.head? ≠ some "messages") :
    Conforms path (dict []) where
  fits := by
    refine ⟨[], hschema, fits_dict ?_⟩
    exact (by decide : FitsShape [] [])
  user uid h := by
    rw [h] at hschema
    exact absurd hschema (by simp [schemaOf, userSchema])
  notification owner id h := by
    rw [h] at hroot
    exact absurd rfl hroot.1
  message owner coll id h := by
    rw [h] at hroot
    exact absurd rfl hroot.2

/-- a notification to somebody else, with a post unless it is of a follow, -/
theorem conforms_notification {e : Turn} {owner uid : String} {user : User}
    {type : NotificationType} {post : Option Post} (hother : owner ≠ uid)
    (hkind : post = none ↔ type = .follow) :
    Conforms ["notifications", owner, "user-notifications", e.autoId]
      (NotificationService.notificationData uid e user type post) where
  fits := by
    refine ⟨notificationSchema, rfl, ?_⟩
    unfold NotificationService.notificationData
    refine fits_dict ?_
    cases post with
    | none => exact (by decide : FitsShape [("timestamp", .timestamp), ("uid", .string),
        ("type", .int), ("id", .string), ("userProfileImageUrl", .string),
        ("username", .string)] notificationSchema)
    | some post => exact (by decide : FitsShape [("timestamp", .timestamp), ("uid", .string),
        ("type", .int), ("id", .string), ("userProfileImageUrl", .string),
        ("username", .string), ("postId", .string), ("postImageUrl", .string)]
        notificationSchema)
  user _ h := by simp at h
  notification owner' id h := by
    simp only [List.cons.injEq, and_true, true_and] at h
    obtain ⟨rfl, rfl⟩ := h
    refine ⟨rfl, ?_, type, rfl, ?_, ?_⟩
    · show some uid ≠ some owner
      simpa using hother.symm
    · cases post with
      | none => simp [NotificationService.notificationData, dict, hkind.mp rfl]
      | some post =>
        have hne : type ≠ .follow := fun heq => absurd (hkind.mpr heq) (by simp)
        simp [NotificationService.notificationData, dict, hne]
    · cases post with
      | none => simp [NotificationService.notificationData, dict, hkind.mp rfl]
      | some post =>
        have hne : type ≠ .follow := fun heq => absurd (hkind.mpr heq) (by simp)
        simp [NotificationService.notificationData, dict, hne]
  message _ _ _ h := by simp at h

/-- and each of the four copies of a message. -/
theorem conforms_message {turn : Turn} {uid owner coll id text : String} {user : User}
    (hsides : Sides uid user.uid owner coll
      ∨ coll = recentMessages ∧ Sides uid user.uid owner id) :
    Conforms ["messages", owner, coll, id]
      (MessagingService.messageData uid turn text user) where
  fits := by
    refine ⟨messageSchema, rfl, fits_dict ?_⟩
    exact (by decide : FitsShape [("text", .string), ("fromId", .string), ("toId", .string),
      ("timestamp", .timestamp), ("username", .string), ("profileImageUrl", .string)]
      messageSchema)
  user _ h := by simp at h
  notification _ _ h := by simp at h
  message owner' coll' id' h := by
    simp only [List.cons.injEq, and_true, true_and] at h
    obtain ⟨rfl, rfl, rfl⟩ := h
    exact ⟨uid, user.uid, rfl, rfl, hsides⟩

/-- An update of one known field of a user or of a post. -/
theorem Conforms.merge {path : Path} {d : Doc} (h : Conforms path d) {schema : List Field}
    (hschema : schemaOf path = some schema) (hnodup : (schema.map Field.key).Nodup)
    (hroot : path.head? ≠ some "notifications" ∧ path.head? ≠ some "messages") {key : String}
    {v : Value} (hfield : InSchema schema key v.kind) (hkey : key ≠ "uid") :
    Conforms path (d.merge (dict [(key, v)])) where
  fits := by
    obtain ⟨schema', hschema', hfits⟩ := h.fits
    rw [hschema] at hschema'
    obtain rfl : schema = schema' := Option.some.inj hschema'
    refine ⟨schema, hschema, hfits.merge hnodup fun key' v' hv => ?_⟩
    have hmem := mem_of_dict hv
    rw [List.mem_singleton, Prod.mk.injEq] at hmem
    rw [hmem.1, hmem.2]
    exact hfield
  user uid hp := by
    have hold := h.user uid hp
    unfold Doc.string Doc.merge dict
    rw [List.lookup_cons, beq_eq_false_iff_ne.mpr hkey.symm]
    exact hold
  notification owner id hp := by
    rw [hp] at hroot
    exact absurd rfl hroot.1
  message owner coll id hp := by
    rw [hp] at hroot
    exact absurd rfl hroot.2

/-- The write leaves a document that conforms. -/
def Write.Conforms : Write → Prop
  | .setData path data => InstaClone.Conforms path data
  | .updateData path fields =>
    ∀ d, InstaClone.Conforms path d → InstaClone.Conforms path (d.merge fields)
  | .delete _ => True

/-- A mark is an empty document, and its deletion leaves nothing. -/
theorem conforms_markWrite {path : Path} (hschema : schemaOf path = some [])
    (hroot : path.head? ≠ some "notifications" ∧ path.head? ≠ some "messages") (v : Bool) :
    (markWrite path v).Conforms := by
  cases v with
  | true => exact conforms_mark hschema hroot
  | false => trivial

/-- An update of one field of the schema keeps the document conforming. -/
theorem conforms_update {path : Path} {schema : List Field}
    (hschema : schemaOf path = some schema) (hnodup : (schema.map Field.key).Nodup)
    (hroot : path.head? ≠ some "notifications" ∧ path.head? ≠ some "messages") {key : String}
    {v : Value} (hfield : InSchema schema key v.kind) (hkey : key ≠ "uid") :
    (Write.updateData path (dict [(key, v)])).Conforms :=
  fun _ hd => hd.merge hschema hnodup hroot hfield hkey

/-- **Every write of the inventory conforms.** -/
theorem Terms.Writes.conforms {T : Terms} {e : Turn} {w : Write} (h : T.Writes e w) :
    w.Conforms := by
  cases h with
  | register huid credentials imageUrl => exact conforms_registered
  | save huid user => exact conforms_saved
  | picture huid url =>
    exact conforms_update rfl (by decide) (by simp)
      (by exact (by decide : InSchema userSchema "profileImageUrl" .string)) (by decide)
  | token huid token =>
    exact conforms_update rfl (by decide) (by simp)
      (by exact (by decide : InSchema userSchema "fcmToken" .string)) (by decide)
  | upload huid caption imageUrl user => exact conforms_post
  | count huid hpost likes =>
    exact conforms_update rfl (by decide) (by simp)
      (by exact (by decide : InSchema postSchema "likes" .int)) (by decide)
  | ownerImage huid postId url =>
    exact conforms_update rfl (by decide) (by simp)
      (by exact (by decide : InSchema postSchema "ownerImageUrl" .string)) (by decide)
  | removePost hpost howner => trivial
  | likeMark huid postId v => exact conforms_markWrite rfl (by simp) v
  | likeCopy huid postId v => exact conforms_markWrite rfl (by simp) v
  | removeLike hpost howner uid => trivial
  | feedEntry huid postId => exact conforms_mark rfl (by simp)
  | removeEntry hpost howner uid => trivial
  | followMark huid user v => exact conforms_markWrite rfl (by simp) v
  | followCopy huid user v => exact conforms_markWrite rfl (by simp) v
  | comment huser hpost text => exact conforms_comment
  | notify huid hother user hpost hkind => exact conforms_notification hother hkind
  | retract huid hd hsender => trivial
  | dismiss huid id => trivial
  | message huid hsides turn text => exact conforms_message (Or.inl hsides)
  | entry huid hsides turn text => exact conforms_message (Or.inr ⟨rfl, hsides⟩)
  | unsend huid coll id => trivial

/-! ## Runs -/

/-- Every stored document conforms. -/
def Store.Conform (docs : Store) : Prop :=
  ∀ path d, docs.lookup path = some d → Conforms path d

/-- A commit of a conforming write keeps the store conforming. -/
theorem Store.Conform.commit {docs docs' : Store} {w : Write} (h : docs.Conform)
    (hw : w.Conforms) (hcommit : w.apply docs = some docs') : docs'.Conform := by
  intro path d hd
  by_cases hpath : path = w.path
  · subst hpath
    rw [Write.lookup_apply hcommit] at hd
    cases w with
    | setData path data =>
      rw [← Option.some.inj hd]
      exact hw
    | updateData path fields =>
      obtain ⟨d₀, hd₀, rfl⟩ := Option.map_eq_some_iff.mp hd
      exact hw d₀ (h path d₀ hd₀)
    | delete path => exact absurd hd (by simp [Write.effect])
  · rw [Write.lookup_apply_ne hcommit hpath] at hd
    exact h path d hd

/-- A session that knows only that what is stored conforms. -/
def conforming (account : String → Prop) : Terms where
  account := account
  stored := Conforms
  post _ := True
  law := ⟨fun _ _ _ => trivial, fun _ _ _ _ => trivial, fun _ _ _ _ _ => trivial⟩
  decoded _ _ _ _ := trivial
  named uid _ h := h.user uid rfl

theorem Terms.state_initial (T : Terms) : T.screens.state {} :=
  ⟨Client.holds_initial T.post, fun _ h => absurd h (by simp [aside]),
    fun _ h => absurd h (by simp [aside])⟩

/-- The backend keeps its store conforming, and answers from it. -/
theorem serve_conforming {b b' : Backend} {e : Turn} {r : Request} {o : Outcome}
    {y : Response r} (h : b.docs.Conform) (hr : (conforming fun _ => True).screens.req e r)
    (hserve : serve b r o = some (b', y)) :
    b'.docs.Conform ∧ (conforming fun _ => True).screens.resp r y := by
  refine ⟨?_, (conforming fun _ => True).replies_of_serve h ?_ hserve⟩
  · cases r with
    | write w =>
      rcases serve_write hserve with ⟨-, docs, hdocs, rfl⟩ | ⟨-, rfl⟩
      · exact h.commit (hr w rfl).conforms hdocs
      · exact h
    | _ =>
      rw [serve_docs hserve fun w hw => by cases hw]
      exact h
  · cases r with
    | createUser email password => exact fun _ _ => trivial
    | _ => trivial

section Runs

variable {S : Type} [DecidableEq S] {strings : StringOps}
  {ok : AppWorld Screens S → AppEvent S ScreenAction → Prop} {w : AppWorld Screens S}
  {es : List (AppEvent S ScreenAction)}

/-- **Whatever is stored fits its collection.** In every run of the app from an empty backend,
with any accounts, failures and losses, every document is in one of its collections, has the
fields of that collection with their types and no others, and says what its path says. -/
theorem stored_conforms
    (run : Run api (ScreenAction.program strings) ok unused es w) : w.backend.docs.Conform := by
  have hstart : (unused : AppWorld Screens S).Keeps
      (fun _ => (conforming fun _ => True).screens) fun b => b.docs.Conform := by
    refine ⟨fun path d hd => ?_, fun _ => Terms.state_initial _, fun x hx => absurd hx ?_⟩
    · exact absurd hd (by simp [unused, atRest, Backend.empty])
    · exact List.not_mem_nil
  refine (hstart.run run ?_ ?_ ?_).backend
  · exact fun _ b _ r _ b' y hb _ hr hserve => serve_conforming hb hr hserve
  · intro w ev _
    cases ev with
    | invoke s a e => exact a.keeps strings
    | _ => trivial
  · intro w ev _
    cases ev with
    | invoke s a e => exact fun _ _ => trivial
    | deliver i e => exact fun _ _ _ _ => trivial
    | _ => trivial

/-- The document of a new user. -/
theorem stored_conforms_registered :
    ∃ w, Run api (ScreenAction.program stringsASCII) Usual unused registerAndShow w
      ∧ w.backend.exists ["users", "a"] = true ∧ w.backend.docs.Conform := by
  obtain ⟨w, run, hstored⟩ : ∃ w,
      Run api (ScreenAction.program stringsASCII) Usual unused registerAndShow w
      ∧ w.backend.exists ["users", "a"] = true := exists_run_of_play (by decide +kernel)
  exact ⟨w, run, hstored, stored_conforms run⟩

end Runs

end InstaClone
