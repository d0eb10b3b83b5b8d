import InstaClone.Completions
import InstaClone.Headers

/-!
# What the inbox tells

A follow or a like (`Deed`) leaves two marks, and a notification in the inbox of the user it is
about; taking it back removes the marks and, by a query, the notifications that tell of it. The
notification comes after both marks, under an identifier of its own, and only where the
controller sees to it: the options sheet and the notification list follow without one.

Where every deed is done by a tap that sees to it, on what is current, and while nothing of an
earlier tap on the same deed is in flight, each deed has at most one flight at a time. `DeedStage`
is what that flight does, and says what the store holds (`DeedStage.Holds`); a deed without a
flight has exactly the notifications it should have. One step changes the documents of one deed
(`Within`), so the others keep what they have.
-/

namespace InstaClone

open Async

/-! ## Deeds and what tells of them -/

/-- A user follows another one, or likes a post. -/
inductive Deed where
  | follow (uid toUid : String)
  | like (uid postId : String)
deriving DecidableEq

/-- Who owns the stored posts. -/
def Backend.owners (b : Backend) (postId : String) : Option String :=
  (b.docs.lookup ["posts", postId]).map fun d => (d.string "ownerUid").getD ""

namespace Deed

def uid : Deed → String
  | follow uid _ => uid
  | like uid _ => uid

/-- Whose inbox it concerns. -/
def toUid (owner : String → Option String) : Deed → String
  | follow _ toUid => toUid
  | like _ postId => (owner postId).getD ""

def type : Deed → NotificationType
  | follow _ _ => .follow
  | like _ _ => .like

def postId : Deed → Option String
  | follow _ _ => none
  | like _ postId => some postId

/-- The mark that says it is done. -/
def mark : Deed → Path
  | follow uid toUid => ["following", uid, "user-following", toUid]
  | like uid postId => ["posts", postId, "post-likes", uid]

/-- The mark that repeats it. -/
def copy : Deed → Path
  | follow uid toUid => ["followers", toUid, "user-followers", uid]
  | like uid postId => ["users", uid, "user-likes", postId]

/-- Where a notification is stored. -/
def notice (owner : String → Option String) (d : Deed) (id : String) : Path :=
  ["notifications", d.toUid owner, "user-notifications", id]

/-- The post is one that is stored. -/
def Real (owner : String → Option String) (d : Deed) : Prop :=
  ∀ postId ∈ d.postId, (owner postId).isSome = true

/-- Does the document tell of it? -/
def Tells (d : Deed) (doc : Doc) : Prop :=
  doc "uid" = some (.string d.uid)
    ∧ ∀ now, (Notification.init now doc).type = d.type
      ∧ ∀ postId ∈ d.postId, (Notification.init now doc).postId = some postId

/-- The notification `id` tells of it. -/
def Noticed (owner : String → Option String) (b : Backend) (d : Deed) (id : String) : Prop :=
  ∃ doc, b.docs.lookup (d.notice owner id) = some doc ∧ d.Tells doc

/-- Exactly one notification tells of a deed that is done to someone else, and none of any
other. -/
structure Mirrored (owner : String → Option String) (b : Backend) (d : Deed) : Prop where
  done : b.exists d.mark = true → d.uid ≠ d.toUid owner → ∃! id, d.Noticed owner b id
  undone : b.exists d.mark = false ∨ d.uid = d.toUid owner → ∀ id, ¬ d.Noticed owner b id

end Deed

/-- The inboxes mirror who follows whom, and who likes which of the stored posts. -/
def InboxMirrors (b : Backend) : Prop :=
  ∀ d : Deed, d.Real b.owners → d.Mirrored b.owners b

/-! ## The runs -/

/-- Is the flight about the deed: one of its marks, a notification that tells of it, the deletion
of one, or the query for these? -/
inductive Deed.Concerns (owner : String → Option String) (b : Backend) (d : Deed) :
    Flight Request Response Turn Client → Prop
  | mark {fl} (w : Write) (hreq : fl.req = .write w) (hpath : w.path = d.mark ∨ w.path = d.copy) :
      Concerns owner b d fl
  | upload (id : String) (doc : Doc) (htells : d.Tells doc) :
      Concerns owner b d (writeFlight (.setData (d.notice owner id) doc))
  | finding :
      Concerns owner b d (.issued (.getDocuments (retractQuery (d.toUid owner) d.uid))
        (didFindNotices (d.toUid owner) d.type d.postId))
  | found (snapshot : Option (List (String × Doc))) :
      Concerns owner b d (.served (.getDocuments (retractQuery (d.toUid owner) d.uid))
        (didFindNotices (d.toUid owner) d.type d.postId snapshot))
  | deletion (id : String) (hnoticed : d.Noticed owner b id) :
      Concerns owner b d (writeFlight (.delete (d.notice owner id)))

/-- Is it the query of `deleteNotification`? -/
def Request.retracts : Request → Bool
  | .getDocuments q => q.collection.head? == some "notifications" && q.whereField.isSome
  | _ => false

/-- What is done besides following and liking only shows things. -/
def Action.onlyShows : Action → Bool
  | .postComment _ _ => false
  | .shareTap _ _ => false
  | .sheetTap _ .deletePost => false
  | _ => true

section Conditions

variable {S : Type} (uidOf : S → String)

/-- No writes fail, identifiers are fresh, and nobody comments, uploads or deletes posts. -/
def Noticing (w : AppWorld Client S) (ev : AppEvent S Action) : Prop :=
  Plain uidOf w ev ∧ FreshIds w ev ∧ ActOk (fun _ a => a.onlyShows = true) w ev

/-- The deed may be done or taken back: it is stored as it is shown, and nothing about it is in
flight. -/
def Deed.Ready (w : AppWorld Client S) (d : Deed) (shown : Bool) : Prop :=
  shown = w.backend.exists d.mark
    ∧ ∀ x ∈ w.pool, ¬ d.Concerns w.backend.owners w.backend x.2

/-- Follows go through the header, every tap finds its deed ready, the query for notifications to
delete does not fail, and the cell of an unlike still shows its post when the completion runs. -/
def SeenTo (w : AppWorld Client S) : AppEvent S Action → Prop
  | .invoke s (.headerTap m) _ => ∀ user ∈ ((w.client s).profiles m).header, user.uid ≠ uidOf s →
    (Deed.follow (uidOf s) user.uid).Ready w user.isFollowed
  | .invoke s (.likeTap c cell) _ => ∀ post ∈ (((w.client s).feeds c).cells cell).post,
    post.tapPasses = true → (Deed.like (uidOf s) post.postId).Ready w post.didLike
  | .invoke _ (.sheetTap _ .follow) _ => False
  | .invoke _ (.sheetTap _ .unfollow) _ => False
  | .invoke _ (.inboxFollowTap _ _) _ => False
  | .serve i o => ∀ x ∈ w.pool[i]?, x.2.req.retracts = true → o.isSuccess = true
  | .deliver i _ => ∀ x ∈ w.pool[i]?, ∀ uid c cell post user error,
    x.2 = .served (.write (.delete ["users", uid, "user-likes", post.postId]))
      (didTap c cell post user error) → post.didLike = true →
    (((w.client x.1).feeds c).cells cell).Shows post.postId
  | _ => True

end Conditions

/-! ## What the store holds of a deed -/

section Store

variable {owner : String → Option String} {b b' : Backend} {d d' : Deed} {v : Bool} {id : String}

/-- How many notifications there should be. -/
def Deed.due (owner : String → Option String) (d : Deed) (v : Bool) : Nat :=
  if v = true ∧ d.uid ≠ d.toUid owner then 1 else 0

/-- The notifications are those of a deed that is done (`v`) or not. -/
def Deed.Told (owner : String → Option String) (b : Backend) (d : Deed) (v : Bool) : Prop :=
  ∃ ids : List String, (∀ id, d.Noticed owner b id ↔ id ∈ ids) ∧ ids.length = d.due owner v

theorem Deed.due_le_one : d.due owner v ≤ 1 := by
  unfold due
  split <;> simp

/-- However they are listed, there are as many as there should be. -/
theorem Deed.Told.length (h : d.Told owner b v) {l : List String} (hnodup : l.Nodup)
    (hl : ∀ id, d.Noticed owner b id ↔ id ∈ l) : l.length = d.due owner v := by
  obtain ⟨ids, hids, hlength⟩ := h
  have hids' : ids.Nodup := by
    have hle : ids.length ≤ 1 := hlength ▸ due_le_one
    match ids, hle with
    | [], _ => exact .nil
    | [id], _ => exact List.nodup_singleton id
  rw [← hlength]
  refine List.Perm.length_eq ((List.perm_ext_iff_of_nodup hnodup hids').mpr fun id => ?_)
  rw [← hl, hids]

theorem Deed.mirrored_iff_told : d.Mirrored owner b ↔ d.Told owner b (b.exists d.mark) := by
  constructor
  · rintro ⟨hdone, hundone⟩
    by_cases h : b.exists d.mark = true ∧ d.uid ≠ d.toUid owner
    · obtain ⟨id, hid, hunique⟩ := hdone h.1 h.2
      refine ⟨[id], fun id' => ?_, (if_pos h).symm⟩
      rw [List.mem_singleton]
      exact ⟨hunique id', fun heq => heq ▸ hid⟩
    · have hnone := hundone (by
        rcases not_and_or.mp h with h | h
        · exact Or.inl (by simpa using h)
        · exact Or.inr (not_not.mp h))
      refine ⟨[], fun id => ?_, (if_neg h).symm⟩
      simp [hnone id]
  · rintro ⟨ids, hids, hlength⟩
    unfold due at hlength
    refine ⟨fun hmark hother => ?_, fun hcases id hid => ?_⟩
    · rw [if_pos ⟨hmark, hother⟩] at hlength
      obtain ⟨id, rfl⟩ := List.length_eq_one_iff.mp hlength
      refine ⟨id, (hids id).mpr (List.mem_singleton_self id), fun id' hid' => ?_⟩
      exact List.mem_singleton.mp ((hids id').mp hid')
    · rw [if_neg (by rintro ⟨hmark, hother⟩; simp_all)] at hlength
      -- nothing is due
      obtain rfl := List.eq_nil_of_length_eq_zero hlength
      exact absurd ((hids id).mp hid) List.not_mem_nil

/-- Only one deed is told of by a document of an inbox. -/
theorem Deed.eq_of_tells {doc : Doc} (h : d.Tells doc) (h' : d'.Tells doc)
    (hto : d.toUid owner = d'.toUid owner) : d = d' := by
  have huid : d.uid = d'.uid := by
    have heq := h.1.symm.trans h'.1
    simpa using heq
  obtain ⟨htype, hpost⟩ := h.2 ⟨0, 0⟩
  obtain ⟨htype', hpost'⟩ := h'.2 ⟨0, 0⟩
  -- the sender is who acts; the type tells the two kinds apart, and the post two likes
  have hsame : d.type = d'.type := htype.symm.trans htype'
  cases d with
  | follow uid toUid =>
    cases d' with
    | follow uid' toUid' =>
      obtain rfl : uid = uid' := huid
      obtain rfl : toUid = toUid' := hto
      rfl
    | like uid' postId' => exact absurd hsame (by simp [type])
  | like uid postId =>
    cases d' with
    | follow uid' toUid' => exact absurd hsame (by simp [type])
    | like uid' postId' =>
      obtain rfl : uid = uid' := huid
      have heq := (hpost postId rfl).symm.trans (hpost' postId' rfl)
      obtain rfl : postId = postId' := by simpa using heq
      rfl

theorem Deed.toUid_like {uid postId ownerUid : String} (h : owner postId = some ownerUid) :
    (like uid postId).toUid owner = ownerUid := by
  show (owner postId).getD "" = ownerUid
  rw [h]
  rfl

theorem Deed.mark_injective (h : d.mark = d'.mark) : d = d' := by
  cases d <;> cases d' <;> simp_all [mark]

theorem Deed.mark_ne_copy : d.mark ≠ d'.copy := by
  cases d <;> cases d' <;> simp [mark, copy]

theorem Deed.mark_ne_notice : d.mark ≠ d'.notice owner id := by
  cases d <;> simp [mark, notice]

theorem Deed.copy_ne_notice : d.copy ≠ d'.notice owner id := by
  cases d <;> simp [copy, notice]

theorem Deed.notice_inj {id' : String} (h : d.notice owner id = d'.notice owner id') :
    d.toUid owner = d'.toUid owner ∧ id = id' := by
  simpa [notice] using h

/-- Nothing but documents of this deed has changed. -/
def Within (owner : String → Option String) (d : Deed) (b b' : Backend) : Prop :=
  ∀ path, b'.docs.lookup path = b.docs.lookup path ∨ path = d.mark ∨ path = d.copy
    ∨ ∃ id, path = d.notice owner id ∧ (∀ doc, b.docs.lookup path = some doc → d.Tells doc)
      ∧ ∀ doc, b'.docs.lookup path = some doc → d.Tells doc

/-- The others have their marks, -/
theorem Within.exists_mark (h : Within owner d b b') (hne : d' ≠ d) :
    b'.exists d'.mark = b.exists d'.mark := by
  unfold Backend.exists
  rcases h d'.mark with heq | heq | heq | ⟨id, heq, -⟩
  · rw [heq]
  · exact absurd (Deed.mark_injective heq) hne
  · exact absurd heq Deed.mark_ne_copy
  · exact absurd heq Deed.mark_ne_notice

/-- and what tells of them. -/
theorem Within.noticed (h : Within owner d b b') (hne : d' ≠ d) :
    d'.Noticed owner b' id ↔ d'.Noticed owner b id := by
  unfold Deed.Noticed
  rcases h (d'.notice owner id) with heq | heq | heq | ⟨id', heq, hold, hnew⟩
  · rw [heq]
  · exact absurd heq.symm Deed.mark_ne_notice
  · exact absurd heq.symm Deed.copy_ne_notice
  · -- a document there tells of this deed only
    have hto := (Deed.notice_inj heq).1
    constructor
    · rintro ⟨doc, hdoc, htells⟩
      exact absurd (Deed.eq_of_tells htells (hnew doc hdoc) hto) hne
    · rintro ⟨doc, hdoc, htells⟩
      exact absurd (Deed.eq_of_tells htells (hold doc hdoc) hto) hne

theorem Within.told (h : Within owner d b b') (hne : d' ≠ d) :
    d'.Told owner b' v ↔ d'.Told owner b v := by
  unfold Deed.Told
  simp only [h.noticed hne]

theorem Within.refl (d : Deed) (b : Backend) : Within owner d b b := fun _ => Or.inl rfl

/-- A mark is written. -/
theorem within_mark {path : Path} (hpath : path = d.mark ∨ path = d.copy)
    (h : ∀ p, p ≠ path → b'.docs.lookup p = b.docs.lookup p) : Within owner d b b' := by
  intro p
  by_cases hp : p = path
  · rw [hp]
    rcases hpath with hpath | hpath
    · exact Or.inr (Or.inl hpath)
    · exact Or.inr (Or.inr (Or.inl hpath))
  · exact Or.inl (h p hp)

/-- A notification is written. -/
theorem within_notice (h : ∀ p, p ≠ d.notice owner id → b'.docs.lookup p = b.docs.lookup p)
    (hold : ∀ doc, b.docs.lookup (d.notice owner id) = some doc → d.Tells doc)
    (hnew : ∀ doc, b'.docs.lookup (d.notice owner id) = some doc → d.Tells doc) :
    Within owner d b b' := by
  intro p
  by_cases hp : p = d.notice owner id
  · rw [hp]
    exact Or.inr (Or.inr (Or.inr ⟨id, rfl, hold, hnew⟩))
  · exact Or.inl (h p hp)

/-- The marks say nothing of the notifications. -/
theorem noticed_of_mark {path : Path} (hpath : path = d.mark ∨ path = d.copy)
    (h : ∀ p, p ≠ path → b'.docs.lookup p = b.docs.lookup p) :
    d.Noticed owner b' id ↔ d.Noticed owner b id := by
  unfold Deed.Noticed
  rw [h]
  rcases hpath with rfl | rfl
  · exact Deed.mark_ne_notice.symm
  · exact Deed.copy_ne_notice.symm

end Store

/-! ## What is in flight of a deed -/

/-- The completion of a tap that does the deed (`v`) or takes it back. -/
inductive Completes (owner : String → Option String) :
    Deed → Bool → (Option Error → Program Client) → Prop
  | changed (uid : String) (m : Nat) (user currentUser : User) (v : Bool) :
      Completes owner (.follow uid user.uid) v (ProfileController.didChange m user currentUser v)
  | tapped (uid : String) (c cell : Nat) (post : Post) (user : User)
      (howner : owner post.postId = some post.ownerUid) :
      Completes owner (.like uid post.postId) (!post.didLike) (didTap c cell post user)

/-- What the flight of a deed does: the mark is to be written; it is written, and its copy is
not, or the completion has not run; the notification is to be stored; the notifications are to be
found, have been found, one is to be deleted. -/
inductive DeedStage where
  | marking (v : Bool)
  | marked (v : Bool)
  | noticing (id : String)
  | finding
  | found (documents : List (String × Doc))
  | deleting (id : String)

/-- The identifiers of the documents that a callback of `deleteNotification` deletes. -/
def Deed.retracted (d : Deed) (documents : List (String × Doc)) : List String :=
  (documents.filter fun x =>
    NotificationService.isRetracted d.type d.postId (Notification.init ⟨0, 0⟩ x.2)).map Prod.fst

/-- The flights at each stage. -/
inductive DeedFlight (owner : String → Option String) (d : Deed) :
    Flight Request Response Turn Client → DeedStage → Prop
  | marking {v k} (hk : Completes owner d v k) :
      DeedFlight owner d (markFlight d.mark d.copy v k) (.marking v)
  | marked {v k} (hk : Completes owner d v k) :
      DeedFlight owner d (.served (.write (markWrite d.mark v))
        (.call (.write (markWrite d.copy v)) k .done)) (.marked v)
  | copying {v k} (hk : Completes owner d v k) :
      DeedFlight owner d (.issued (.write (markWrite d.copy v)) k) (.marked v)
  | copied {v k} (hk : Completes owner d v k) (error : Option Error) :
      DeedFlight owner d (.served (.write (markWrite d.copy v)) (k error)) (.marked v)
  | noticing {doc} (id : String) (htells : d.Tells doc) :
      DeedFlight owner d (writeFlight (.setData (d.notice owner id) doc)) (.noticing id)
  | finding :
      DeedFlight owner d (.issued (.getDocuments (retractQuery (d.toUid owner) d.uid))
        (didFindNotices (d.toUid owner) d.type d.postId)) .finding
  | found (documents : List (String × Doc)) :
      DeedFlight owner d (.served (.getDocuments (retractQuery (d.toUid owner) d.uid))
        (didFindNotices (d.toUid owner) d.type d.postId (some documents))) (.found documents)
  | deleting (id : String) :
      DeedFlight owner d (writeFlight (.delete (d.notice owner id))) (.deleting id)

/-- What the store holds meanwhile. -/
def DeedStage.Holds (owner : String → Option String) (b : Backend) (d : Deed) : DeedStage → Prop
  | .marking v => d.Told owner b (!v)
  | .marked v => b.exists d.mark = v ∧ d.Told owner b (!v)
  | .noticing id => b.exists d.mark = true ∧ d.uid ≠ d.toUid owner
      ∧ (∀ id', ¬ d.Noticed owner b id') ∧ b.docs.lookup (d.notice owner id) = none
  | .finding => b.exists d.mark = false ∧ d.Told owner b true
  | .found documents => b.exists d.mark = false
      ∧ (∀ id, d.Noticed owner b id ↔ id ∈ d.retracted documents)
      ∧ (d.retracted documents).length = d.due owner true
  | .deleting id => b.exists d.mark = false ∧ ∀ id', d.Noticed owner b id' ↔ id' = id

/-- The path where a notification is to be stored. -/
def DeedStage.claims (owner : String → Option String) (d : Deed) : DeedStage → Option Path
  | .noticing id => some (d.notice owner id)
  | _ => none

section Stages

variable {owner : String → Option String} {b b' : Backend} {d d' : Deed} {v : Bool} {id : String}

theorem DeedStage.claims_notice {t : DeedStage} {path : Path} (h : path ∈ t.claims owner d) :
    ∃ id, path = d.notice owner id := by
  cases t with
  | noticing id => exact ⟨id, (Option.some.inj h).symm⟩
  | _ => exact absurd h (by simp [claims])

/-- Another deed keeps what it has, if the place for its notification stays free. -/
theorem DeedStage.Holds.within {t : DeedStage} (h : t.Holds owner b d') (hw : Within owner d b b')
    (hne : d' ≠ d) (hfree : ∀ path ∈ t.claims owner d', b'.docs.lookup path = none) :
    t.Holds owner b' d' := by
  cases t with
  | marking v => exact (hw.told hne).mpr h
  | marked v => exact ⟨(hw.exists_mark hne).trans h.1, (hw.told hne).mpr h.2⟩
  | noticing id =>
    refine ⟨(hw.exists_mark hne).trans h.1, h.2.1, fun id' hid' => ?_, hfree _ rfl⟩
    exact h.2.2.1 id' ((hw.noticed hne).mp hid')
  | finding => exact ⟨(hw.exists_mark hne).trans h.1, (hw.told hne).mpr h.2⟩
  | found documents =>
    exact ⟨(hw.exists_mark hne).trans h.1, fun id => (hw.noticed hne).trans (h.2.1 id), h.2.2⟩
  | deleting id =>
    exact ⟨(hw.exists_mark hne).trans h.1, fun id' => (hw.noticed hne).trans (h.2 id')⟩

/-- The flight is one that a tap on the deed would wait for. -/
theorem DeedFlight.concerns {fl : Flight Request Response Turn Client} {t : DeedStage}
    (h : DeedFlight owner d fl t) (hholds : t.Holds owner b d) : d.Concerns owner b fl := by
  cases h with
  | marking hk => exact .mark _ rfl (Or.inl (markWrite_path _ _))
  | marked hk => exact .mark _ rfl (Or.inl (markWrite_path _ _))
  | copying hk => exact .mark _ rfl (Or.inr (markWrite_path _ _))
  | copied hk error => exact .mark _ rfl (Or.inr (markWrite_path _ _))
  | noticing id htells => exact .upload id _ htells
  | finding => exact .finding
  | found documents => exact .found _
  | deleting id => exact .deletion id ((hholds.2 id).mpr rfl)

/-- The place for a notification is in the path of its write. -/
theorem DeedFlight.claims {fl : Flight Request Response Turn Client} {t : DeedStage}
    (h : DeedFlight owner d fl t) {path : Path} (hpath : path ∈ t.claims owner d) :
    ∃ w, fl.req = .write w ∧ w.path = path := by
  cases h with
  | noticing id htells => exact ⟨_, rfl, Option.some.inj hpath⟩
  | _ => exact absurd hpath (by simp [DeedStage.claims])

end Stages

/-- The deeds with a flight, and what is known of the store. Two of them are different, and so
are the places their notifications will be stored at. -/
structure DeedsInv {S : Type} (owner : String → Option String) (b : Backend)
    (stages : List (S × Deed × DeedStage)) : Prop where
  apart : stages.Pairwise fun x y => x.2.1 ≠ y.2.1
    ∧ ∀ path ∈ x.2.2.claims owner x.2.1, path ∉ y.2.2.claims owner y.2.1
  holds : ∀ x ∈ stages, x.2.1.Real owner ∧ x.2.2.Holds owner b x.2.1
  idle : ∀ d : Deed, d.Real owner → (∀ x ∈ stages, x.2.1 ≠ d) → d.Told owner b (b.exists d.mark)

section Deeds

variable {S : Type} {owner : String → Option String} {b b' : Backend} {d : Deed} {t : DeedStage}
  {s : S} {stages stages' : List (S × Deed × DeedStage)}

theorem DeedsInv.perm (h : DeedsInv owner b stages) (hperm : stages.Perm stages') :
    DeedsInv owner b stages' where
  apart := by
    refine (hperm.pairwise_iff ?_).mp h.apart
    rintro x y ⟨hne, hclaims⟩
    exact ⟨hne.symm, fun path hy hx => hclaims path hx hy⟩
  holds x hx := h.holds x (hperm.mem_iff.mpr hx)
  idle d hreal hd := h.idle d hreal fun x hx => hd x (hperm.mem_iff.mp hx)

/-- The places for notifications are free. -/
theorem DeedsInv.free (h : DeedsInv owner b stages) {x : S × Deed × DeedStage} (hx : x ∈ stages)
    {path : Path} (hpath : path ∈ x.2.2.claims owner x.2.1) : b.docs.lookup path = none := by
  obtain ⟨s, d, t⟩ := x
  cases t with
  | noticing id =>
    obtain rfl := Option.some.inj hpath
    exact (h.holds _ hx).2.2.2.2
  | _ => exact absurd hpath (by simp [DeedStage.claims])

/-- The flight of a deed goes on to another stage. -/
theorem DeedsInv.advance (h : DeedsInv owner b ((s, d, t) :: stages)) (hw : Within owner d b b')
    (hfree : ∀ x ∈ stages, ∀ path ∈ x.2.2.claims owner x.2.1, b'.docs.lookup path = none)
    {t' : DeedStage} (ht' : t'.Holds owner b' d)
    (hclaims : ∀ path ∈ t'.claims owner d, ∀ x ∈ stages, path ∉ x.2.2.claims owner x.2.1) :
    DeedsInv owner b' ((s, d, t') :: stages) := by
  obtain ⟨hapart, hstages⟩ := List.pairwise_cons.mp h.apart
  have hreal := (h.holds (s, d, t) (List.mem_cons_self ..)).1
  refine ⟨List.pairwise_cons.mpr ⟨fun x hx => ?_, hstages⟩, fun x hx => ?_, fun d' hd' hne => ?_⟩
  · exact ⟨(hapart x hx).1, fun path hpath => hclaims path hpath x hx⟩
  · rcases List.mem_cons.mp hx with rfl | hx
    · exact ⟨hreal, ht'⟩
    -- the other stages are about documents of other deeds
    · obtain ⟨hrealx, hholds⟩ := h.holds x (List.mem_cons_of_mem _ hx)
      exact ⟨hrealx, hholds.within hw (hapart x hx).1.symm (hfree x hx)⟩
  · have hne' : d' ≠ d := (hne (s, d, t') (List.mem_cons_self ..)).symm
    rw [hw.exists_mark hne']
    refine (hw.told hne').mpr (h.idle d' hd' fun x hx => ?_)
    rcases List.mem_cons.mp hx with rfl | hx
    · exact hne'.symm
    · exact hne x (List.mem_cons_of_mem _ hx)

/-- It is the last one. -/
theorem DeedsInv.finish (h : DeedsInv owner b ((s, d, t) :: stages)) (hw : Within owner d b b')
    (hfree : ∀ x ∈ stages, ∀ path ∈ x.2.2.claims owner x.2.1, b'.docs.lookup path = none)
    (htold : d.Told owner b' (b'.exists d.mark)) : DeedsInv owner b' stages := by
  obtain ⟨hapart, hstages⟩ := List.pairwise_cons.mp h.apart
  refine ⟨hstages, fun x hx => ?_, fun d' hd' hne => ?_⟩
  · obtain ⟨hrealx, hholds⟩ := h.holds x (List.mem_cons_of_mem _ hx)
    exact ⟨hrealx, hholds.within hw (hapart x hx).1.symm (hfree x hx)⟩
  · by_cases hsame : d' = d
    · rw [hsame]
      exact htold
    · rw [hw.exists_mark hsame]
      refine (hw.told hsame).mpr (h.idle d' hd' fun x hx => ?_)
      rcases List.mem_cons.mp hx with rfl | hx
      · exact Ne.symm hsame
      · exact hne x hx

/-- A tap begins one. -/
theorem DeedsInv.begin (h : DeedsInv owner b stages) (hreal : d.Real owner)
    (hnone : ∀ x ∈ stages, x.2.1 ≠ d) :
    DeedsInv owner b ((s, d, .marking (!b.exists d.mark)) :: stages) := by
  refine ⟨List.pairwise_cons.mpr ⟨fun x hx => ⟨(hnone x hx).symm, ?_⟩, h.apart⟩, fun x hx => ?_,
    fun d' hd' hne => h.idle d' hd' fun x hx => hne x (List.mem_cons_of_mem _ hx)⟩
  · exact fun path hpath => absurd hpath (by simp [DeedStage.claims])
  · rcases List.mem_cons.mp hx with rfl | hx
    · refine ⟨hreal, ?_⟩
      show d.Told owner b (!!b.exists d.mark)
      rw [Bool.not_not]
      exact h.idle d hreal hnone
    · exact h.holds x hx

/-- What is no deed changes no deed. -/
theorem DeedsInv.aside (h : DeedsInv owner b stages)
    (hsame : ∀ path, path.length = 4 → b'.docs.lookup path = b.docs.lookup path) :
    DeedsInv owner b' stages := by
  have hmark : ∀ d : Deed, b'.exists d.mark = b.exists d.mark := by
    intro d
    unfold Backend.exists
    rw [hsame _ (by cases d <;> rfl)]
  have hnotice : ∀ (d : Deed) (id : String), b'.docs.lookup (d.notice owner id)
      = b.docs.lookup (d.notice owner id) := fun d id => hsame _ rfl
  have hwithin : ∀ d : Deed, ∀ id, d.Noticed owner b' id ↔ d.Noticed owner b id := by
    intro d id
    unfold Deed.Noticed
    rw [hnotice]
  have htold : ∀ (d : Deed) (v : Bool), d.Told owner b' v ↔ d.Told owner b v := by
    intro d v
    unfold Deed.Told
    simp only [hwithin]
  refine ⟨h.apart, fun x hx => ⟨(h.holds x hx).1, ?_⟩, fun d hd hne => ?_⟩
  · obtain ⟨s, d, t⟩ := x
    have hholds : t.Holds owner b d := (h.holds _ hx).2
    show t.Holds owner b' d
    cases t <;> simpa only [DeedStage.Holds, hmark, htold, hwithin, hnotice] using hholds
  · rw [hmark, htold]
    exact h.idle d hd hne

end Deeds

/-! ## Serving -/

section Serving

variable {owner : String → Option String} {b b' : Backend} {d : Deed} {v : Bool}
  {S : Type} {s : S} {t : DeedStage} {stages : List (S × Deed × DeedStage)}

/-- A successful write has its effect. -/
theorem lookup_of_serve {w : Write} {o : Outcome} {y : Option Error} (ho : o.isSuccess = true)
    (h : serve b (.write w) o = some (b', y)) :
    b'.docs.lookup w.path = w.effect (b.docs.lookup w.path) := by
  have hval := (document_lawful w.path).serve b (.write w) o b' y (fun _ => ho) h
  rwa [document_effect_write, if_pos rfl] at hval

/-- It has none on other documents. -/
theorem lookup_of_serve_ne {w : Write} {o : Outcome} {y : Option Error} {path : Path}
    (h : serve b (.write w) o = some (b', y)) (hne : path ≠ w.path) :
    b'.docs.lookup path = b.docs.lookup path :=
  serve_lookup_ne h fun _ heq => Request.write.inj heq ▸ hne

/-- `deleteNotification` picks the notifications that tell of the deed. -/
theorem Deed.isRetracted_iff {doc : Doc} :
    NotificationService.isRetracted d.type d.postId (Notification.init ⟨0, 0⟩ doc) = true
      ↔ ∀ now, (Notification.init now doc).type = d.type
        ∧ ∀ postId ∈ d.postId, (Notification.init now doc).postId = some postId := by
  unfold NotificationService.isRetracted
  cases d with
  | follow uid toUid =>
    simp only [type, Deed.postId, Notification.init, Bool.and_eq_true, beq_iff_eq]
    simp only [beq_self_eq_true, Bool.true_or, and_true, Option.mem_def, reduceCtorEq,
      false_implies, implies_true]
    exact ⟨fun h _ => h, fun h => h ⟨0, 0⟩⟩
  | like uid postId =>
    simp only [type, Deed.postId, Notification.init, Bool.and_eq_true, Bool.or_eq_true,
      beq_iff_eq, Option.mem_def, Option.some.injEq, forall_eq']
    constructor
    · rintro ⟨htype, hpost | hpost⟩
      · exact absurd hpost (by simp)
      · exact fun _ => ⟨htype, hpost.symm⟩
    · intro h
      exact ⟨(h ⟨0, 0⟩).1, Or.inr (h ⟨0, 0⟩).2.symm⟩

/-- Of a query's results it picks those that tell of it. -/
theorem Deed.mem_retracted {documents : List (String × Doc)}
    (hperm : documents.Perm ((retractQuery (d.toUid owner) d.uid).results b.docs)) (id : String) :
    id ∈ d.retracted documents ↔ d.Noticed owner b id := by
  unfold retracted Noticed Tells
  simp only [List.mem_map, List.mem_filter]
  constructor
  · rintro ⟨x, ⟨hx, hretracted⟩, rfl⟩
    obtain ⟨hstored, hselects⟩ := Query.mem_results.mp (hperm.mem_iff.mp hx)
    refine ⟨x.2, hstored, ?_, isRetracted_iff.mp hretracted⟩
    simpa [Query.selects, retractQuery] using hselects
  · rintro ⟨doc, hstored, huid, htells⟩
    refine ⟨(id, doc), ⟨hperm.mem_iff.mpr (Query.mem_results.mpr ⟨hstored, ?_⟩),
      isRetracted_iff.mpr htells⟩, rfl⟩
    simpa [Query.selects, retractQuery] using huid

/-- None of them twice. -/
theorem Deed.nodup_retracted {q : Query} {documents : List (String × Doc)}
    (hperm : documents.Perm (q.results b.docs)) : (d.retracted documents).Nodup := by
  have hids : (documents.map Prod.fst).Nodup := by
    refine (hperm.map Prod.fst).nodup_iff.mpr ?_
    exact (b.docs.nodup_ids q.collection).sublist (List.filter_sublist.map _)
  exact hids.sublist (List.filter_sublist.map _)

/-- The places for the notifications of the others are still free. -/
theorem DeedsInv.free_after {x : S × Deed × DeedStage} (h : DeedsInv owner b (x :: stages))
    {path : Path} (hne : ∀ x ∈ stages, path ∉ x.2.2.claims owner x.2.1)
    (hsame : ∀ p, p ≠ path → b'.docs.lookup p = b.docs.lookup p) :
    ∀ x ∈ stages, ∀ p ∈ x.2.2.claims owner x.2.1, b'.docs.lookup p = none := by
  intro x hx p hp
  rw [hsame p fun heq => hne x hx (heq ▸ hp)]
  exact h.free (List.mem_cons_of_mem _ hx) hp

/-- A mark is committed. -/
theorem DeedsInv.commit_mark (h : DeedsInv owner b ((s, d, t) :: stages)) {path : Path}
    (hpath : path = d.mark ∨ path = d.copy)
    (hsame : ∀ p, p ≠ path → b'.docs.lookup p = b.docs.lookup p)
    (hmark : b'.exists d.mark = v) (htold : d.Told owner b (!v)) :
    DeedsInv owner b' ((s, d, .marked v) :: stages) := by
  have hne : ∀ x ∈ stages, path ∉ x.2.2.claims owner x.2.1 := by
    intro x _ hclaimed
    obtain ⟨id, heq⟩ := DeedStage.claims_notice hclaimed
    rcases hpath with rfl | rfl
    · exact Deed.mark_ne_notice heq
    · exact Deed.copy_ne_notice heq
  obtain ⟨ids, hids, hlength⟩ := htold
  refine h.advance (within_mark hpath hsame) (h.free_after hne hsame) ⟨hmark, ?_⟩
    fun p hp => absurd hp (by simp [DeedStage.claims])
  exact ⟨ids, fun id => (noticed_of_mark hpath hsame).trans (hids id), hlength⟩

/-- The notification is committed, and is the only one. -/
theorem DeedsInv.commit_notice {id : String} {doc : Doc}
    (h : DeedsInv owner b ((s, d, .noticing id) :: stages)) (htells : d.Tells doc)
    (hsame : ∀ p, p ≠ d.notice owner id → b'.docs.lookup p = b.docs.lookup p)
    (hstored : b'.docs.lookup (d.notice owner id) = some doc) : DeedsInv owner b' stages := by
  obtain ⟨-, hmark, hother, hnone, hfree⟩ := h.holds (s, d, .noticing id) (List.mem_cons_self ..)
  have hwithin : Within owner d b b' := by
    refine within_notice hsame (fun doc' hdoc' => ?_) fun doc' hdoc' => ?_
    · rw [hfree] at hdoc'
      exact absurd hdoc' (by simp)
    · rw [hstored] at hdoc'
      rwa [← Option.some.inj hdoc']
  have hne : ∀ x ∈ stages, d.notice owner id ∉ x.2.2.claims owner x.2.1 :=
    fun x hx => ((List.pairwise_cons.mp h.apart).1 x hx).2 _ rfl
  refine h.finish hwithin (h.free_after hne hsame) ?_
  have hmark' : b'.exists d.mark = true := by
    unfold Backend.exists
    rw [hsame _ Deed.mark_ne_notice]
    exact hmark
  rw [hmark']
  -- nothing told of the deed before, so what does now is the new document
  refine ⟨[id], fun id' => ?_, (if_pos ⟨rfl, hother⟩).symm⟩
  rw [List.mem_singleton]
  constructor
  · rintro ⟨doc', hdoc', htells'⟩
    by_contra hid
    rw [hsame _ fun heq => hid (Deed.notice_inj heq).2] at hdoc'
    exact hnone id' ⟨doc', hdoc', htells'⟩
  · rintro rfl
    exact ⟨doc, hstored, htells⟩

/-- The only notification is deleted. -/
theorem DeedsInv.commit_deletion {id : String}
    (h : DeedsInv owner b ((s, d, .deleting id) :: stages))
    (hsame : ∀ p, p ≠ d.notice owner id → b'.docs.lookup p = b.docs.lookup p)
    (hgone : b'.docs.lookup (d.notice owner id) = none) : DeedsInv owner b' stages := by
  obtain ⟨-, hmark, hids⟩ := h.holds (s, d, .deleting id) (List.mem_cons_self ..)
  have hwithin : Within owner d b b' := by
    refine within_notice hsame (fun doc hdoc => ?_) fun doc hdoc => ?_
    · obtain ⟨doc', hdoc', htells⟩ := (hids id).mpr rfl
      rw [hdoc'] at hdoc
      rwa [← Option.some.inj hdoc]
    · rw [hgone] at hdoc
      exact absurd hdoc (by simp)
  refine h.finish hwithin (fun x hx p hp => ?_) ?_
  · by_cases hp' : p = d.notice owner id
    · rw [hp']
      exact hgone
    · rw [hsame p hp']
      exact h.free (List.mem_cons_of_mem _ hx) hp
  · have hmark' : b'.exists d.mark = false := by
      unfold Backend.exists
      rw [hsame _ Deed.mark_ne_notice]
      exact hmark
    rw [hmark']
    -- it was the only one that told of the deed
    refine ⟨[], fun id' => ?_, (if_neg (by simp)).symm⟩
    simp only [List.not_mem_nil, iff_false]
    rintro ⟨doc, hdoc, htells⟩
    have hne : id' ≠ id := by
      rintro rfl
      rw [hgone] at hdoc
      exact absurd hdoc (by simp)
    rw [hsame _ fun heq => hne (Deed.notice_inj heq).2] at hdoc
    exact hne ((hids id').mp ⟨doc, hdoc, htells⟩)

/-- The request of a deed's flight is served. -/
theorem DeedFlight.serve {r : Request} {k : Response r → Program Client} {o : Outcome}
    {y : Response r} (h : DeedFlight owner d (.issued r k) t)
    (hinv : DeedsInv owner b ((s, d, t) :: stages))
    (ho : r.isWrite = true ∨ r.retracts = true → o.isSuccess = true)
    (hserve : InstaClone.serve b r o = some (b', y)) :
    (∃ t', DeedFlight owner d (.served r (k y)) t' ∧ DeedsInv owner b' ((s, d, t') :: stages))
      ∨ k y = .done ∧ DeedsInv owner b' stages := by
  have hholds := (hinv.holds (s, d, t) (List.mem_cons_self ..)).2
  generalize hfl : Flight.issued r k = fl at h
  cases h with
  | @marking v k' hk =>
    obtain ⟨rfl, hk'⟩ := Flight.issued.inj hfl
    obtain rfl := eq_of_heq hk'
    -- the first of the two marks: from here on the store has the deed done or undone
    have hsame : ∀ p, p ≠ d.mark → b'.docs.lookup p = b.docs.lookup p := fun p hp =>
      lookup_of_serve_ne hserve (by rwa [markWrite_path])
    have hmark := serve_markWrite (ho (Or.inl rfl)) hserve
    exact Or.inl ⟨.marked v, .marked hk, hinv.commit_mark (Or.inl rfl) hsame hmark hholds⟩
  | @copying v k' hk =>
    obtain ⟨rfl, hk'⟩ := Flight.issued.inj hfl
    obtain rfl := eq_of_heq hk'
    have hsame : ∀ p, p ≠ d.copy → b'.docs.lookup p = b.docs.lookup p := fun p hp =>
      lookup_of_serve_ne hserve (by rwa [markWrite_path])
    -- the second mark is no part of the deed
    have hmark : b'.exists d.mark = v := by
      unfold Backend.exists
      rw [hsame _ Deed.mark_ne_copy]
      exact hholds.1
    exact Or.inl ⟨.marked v, .copied hk y, hinv.commit_mark (Or.inr rfl) hsame hmark hholds.2⟩
  | @noticing doc id htells =>
    obtain ⟨rfl, hk'⟩ := Flight.issued.inj hfl
    obtain rfl := eq_of_heq hk'
    exact Or.inr ⟨rfl, hinv.commit_notice htells (fun p hp => lookup_of_serve_ne hserve hp)
      (lookup_of_serve (ho (Or.inl rfl)) hserve)⟩
  | finding =>
    obtain ⟨rfl, hk'⟩ := Flight.issued.inj hfl
    obtain rfl := eq_of_heq hk'
    -- the answer lists what told of the deed when it was given
    obtain ⟨rfl, documents, rfl, hperm⟩ := serve_getDocuments_success (ho (Or.inr rfl)) hserve
    refine Or.inl ⟨.found documents, .found documents, ?_⟩
    have hmem := fun id => (Deed.mem_retracted hperm id).symm
    exact hinv.advance (.refl d b') (fun x hx p hp => hinv.free (List.mem_cons_of_mem _ hx) hp)
      ⟨hholds.1, hmem, hholds.2.length (Deed.nodup_retracted hperm) hmem⟩
      fun p hp => absurd hp (by simp [DeedStage.claims])
  | deleting id =>
    obtain ⟨rfl, hk'⟩ := Flight.issued.inj hfl
    obtain rfl := eq_of_heq hk'
    exact Or.inr ⟨rfl, hinv.commit_deletion (fun p hp => lookup_of_serve_ne hserve hp)
      (lookup_of_serve (ho (Or.inl rfl)) hserve)⟩
  | _ => exact absurd hfl (by simp)

end Serving

/-! ## Turns -/

section Turns

variable {owner : String → Option String} {b : Backend} {d : Deed} {v : Bool} {e : Turn}
  {client : Client} {S : Type} {s : S} {t : DeedStage} {stages : List (S × Deed × DeedStage)}
  {k : Option Error → Program Client}

/-- The completion of a deed stores a notification that tells of it, unless it is done to
oneself. -/
theorem Completes.exec_done (h : Completes owner d v k) (hv : v = true)
    (he : e.currentUid = some d.uid) (error : Option Error) (client : Client) :
    ∃ doc, d.Tells doc ∧ ((k error).exec e client).2
      = if d.toUid owner = d.uid then []
        else [writeFlight (.setData (d.notice owner e.autoId) doc)] := by
  cases h with
  | changed uid m user currentUser v =>
    subst hv
    refine ⟨NotificationService.notificationData uid e currentUser .follow none, ?_, ?_⟩
    · refine ⟨rfl, fun now => ⟨?_, by simp [Deed.postId]⟩⟩
      rfl
    · exact congrArg Prod.snd (exec_uploadNotification he user.uid currentUser .follow none _)
  | tapped uid c cell post user howner =>
    have hlike : post.didLike = false := by simpa using hv
    refine ⟨NotificationService.notificationData uid e user .like (some post), ?_, ?_⟩
    · refine ⟨rfl, fun now => ⟨rfl, fun postId hpostId => ?_⟩⟩
      obtain rfl := Option.some.inj hpostId
      rfl
    · unfold didTap Deed.notice
      rw [hlike, if_neg (by simp), Deed.toUid_like howner]
      exact congrArg Prod.snd (exec_uploadNotification he post.ownerUid user .like (some post) _)

/-- The completion of taking it back asks for the notifications that tell of it, as long as the
cell of an unlike shows its post. -/
theorem Completes.exec_undone (h : Completes owner d v k) (hv : v = false)
    (he : e.currentUid = some d.uid) (error : Option Error)
    (hcell : ∀ c cell post user, k = didTap c cell post user → d = .like d.uid post.postId →
      post.didLike = true → ((client.feeds c).cells cell).Shows post.postId) :
    ((k error).exec e client).2
      = [.issued (.getDocuments (retractQuery (d.toUid owner) d.uid))
          (didFindNotices (d.toUid owner) d.type d.postId)] := by
  cases h with
  | changed uid m user currentUser v =>
    subst hv
    show ((NotificationService.deleteNotification user.uid .follow).exec e
      (client.mapProfile m _)).2 = _
    rw [exec_deleteNotification, he]
    rfl
  | tapped uid c cell post user howner =>
    have hlike : post.didLike = true := by simpa using hv
    have hshows := hcell c cell post user rfl rfl hlike
    unfold didTap
    rw [hlike, if_pos rfl, exec_didUnlike, he, hshows, Deed.toUid_like howner]
    rfl

/-- The callback of the query deletes what tells of the deed. -/
theorem exec_didFindNotices_deed (documents : List (String × Doc)) :
    ((didFindNotices (d.toUid owner) d.type d.postId (some documents)).exec e client).2
      = (d.retracted documents).map fun id => writeFlight (.delete (d.notice owner id)) := by
  rw [exec_didFindNotices]
  dsimp only [Option.getD_some]
  unfold Deed.retracted
  induction documents with
  | nil => rfl
  | cons x documents ih =>
    have hnow : NotificationService.isRetracted d.type d.postId (Notification.init e.now x.2)
        = NotificationService.isRetracted d.type d.postId (Notification.init ⟨0, 0⟩ x.2) := rfl
    rw [List.flatMap_cons, ih, List.filter_cons, hnow]
    split
    next => rfl
    next => rfl

/-- The callback of a deed's flight runs. -/
theorem DeedFlight.deliver {r : Request} {p : Program Client}
    (h : DeedFlight owner d (.served r p) t) (hinv : DeedsInv owner b ((s, d, t) :: stages))
    (he : e.currentUid = some d.uid)
    (hcell : ∀ c cell post user error, r = .write (.delete d.copy) →
      p = didTap c cell post user error → d = .like d.uid post.postId → post.didLike = true →
      ((client.feeds c).cells cell).Shows post.postId)
    (hunused : b.docs.lookup (d.notice owner e.autoId) = none)
    (hunclaimed : ∀ x ∈ stages, d.notice owner e.autoId ∉ x.2.2.claims owner x.2.1) :
    (∃ fl t', (p.exec e client).2 = [fl] ∧ DeedFlight owner d fl t'
        ∧ DeedsInv owner b ((s, d, t') :: stages))
      ∨ (p.exec e client).2 = [] ∧ DeedsInv owner b stages := by
  obtain ⟨hreal, hholds⟩ := hinv.holds (s, d, t) (List.mem_cons_self ..)
  have hfree : ∀ x ∈ stages, ∀ path ∈ x.2.2.claims owner x.2.1, b.docs.lookup path = none :=
    fun x hx path hpath => hinv.free (List.mem_cons_of_mem _ hx) hpath
  generalize hfl : Flight.served r p = fl at h
  cases h with
  | @marked v k hk =>
    obtain ⟨rfl, rfl⟩ := Flight.served.inj hfl
    exact Or.inl ⟨_, .marked v, rfl, .copying hk, hinv⟩
  | @copied v k hk error =>
    obtain ⟨rfl, rfl⟩ := Flight.served.inj hfl
    obtain ⟨hmark, htold⟩ := hholds
    cases v with
    | true =>
      obtain ⟨doc, htells, hexec⟩ := hk.exec_done rfl he error client
      rw [hexec]
      have hnone : ∀ id, ¬ d.Noticed owner b id := by
        obtain ⟨ids, hids, hlength⟩ := htold
        obtain rfl := List.eq_nil_of_length_eq_zero (hlength.trans (if_neg (by simp)))
        exact fun id hid => absurd ((hids id).mp hid) List.not_mem_nil
      -- no notification of what one does to oneself
      by_cases hown : d.toUid owner = d.uid
      · rw [if_pos hown]
        refine Or.inr ⟨rfl, hinv.finish (.refl d b) hfree ?_⟩
        refine ⟨[], fun id => by simp [hnone id], (if_neg ?_).symm⟩
        exact fun hdue => hdue.2 hown.symm
      · rw [if_neg hown]
        refine Or.inl ⟨_, .noticing e.autoId, rfl, .noticing _ htells, ?_⟩
        refine hinv.advance (.refl d b) hfree ⟨hmark, Ne.symm hown, hnone, hunused⟩ ?_
        intro path hpath x hx
        obtain rfl := Option.some.inj hpath
        exact hunclaimed x hx
    | false =>
      -- it has been taken back, and what tells of it is looked for
      have hexec := hk.exec_undone rfl he error fun c cell post user hk' hd hlike =>
        hcell c cell post user error rfl (by rw [hk']) hd hlike
      rw [hexec]
      refine Or.inl ⟨_, .finding, rfl, .finding, ?_⟩
      exact hinv.advance (.refl d b) hfree ⟨hmark, htold⟩
        fun path hpath => absurd hpath (by simp [DeedStage.claims])
  | found documents =>
    obtain ⟨rfl, rfl⟩ := Flight.served.inj hfl
    obtain ⟨hmark, hids, hlength⟩ := hholds
    rw [exec_didFindNotices_deed]
    have hle : (d.retracted documents).length ≤ 1 := hlength ▸ Deed.due_le_one
    -- at most one notification told of the deed, so at most one deletion is issued
    match hretracted : d.retracted documents, hle with
    | [], _ =>
      refine Or.inr ⟨rfl, hinv.finish (.refl d b) hfree ?_⟩
      rw [hmark]
      exact ⟨[], hretracted ▸ hids, (if_neg (by simp)).symm⟩
    | [id], _ =>
      refine Or.inl ⟨_, .deleting id, rfl, .deleting id, ?_⟩
      refine hinv.advance (.refl d b) hfree ⟨hmark, fun id' => ?_⟩
        fun path hpath => absurd hpath (by simp [DeedStage.claims])
      rw [hids, hretracted, List.mem_singleton]
  | _ => exact absurd hfl (by simp [writeFlight, markFlight])

end Turns

/-! ## Posts and their owners -/

/-- The post is held with its owner. -/
def Owned (owner : String → Option String) (post : Post) : Prop :=
  owner post.postId = some post.ownerUid

/-- What is written at a post is its count. -/
def LeavesOwners (_ : Turn) (w : Write) : Prop :=
  ∀ postId, w.path = ["posts", postId] →
    ∃ likes : Int, w = .updateData ["posts", postId] (dict [("likes", .int likes)])

/-- The count of a post is written. -/
def WritesCount (_ : Turn) (w : Write) : Prop :=
  ∃ (postId : String) (likes : Int),
    w = .updateData ["posts", postId] (dict [("likes", .int likes)])

/-- The contract of a session that leaves the owners of posts alone. -/
abbrev ownersConduct (owner : String → Option String) (me : String) :
    Contract Request Response Turn Client :=
  appConduct (fun e => e.currentUid = some me) (Owned owner) LeavesOwners

/-- The contract of what is done besides deeds. -/
abbrev asideConduct (owner : String → Option String) (me : String) :
    Contract Request Response Turn Client :=
  appConduct (fun e => e.currentUid = some me) (Owned owner) WritesCount

/-- Is it a tap that does a deed or takes it back? -/
def Action.tapsDeed : Action → Bool
  | .likeTap _ _ => true
  | a => a.isFollow

section Owners

variable {owner : String → Option String} {b b' : Backend} {me : String} {e : Turn} {a : Action}
  {w : Write}

theorem postLaw_owned : PostLaw (Owned owner) where
  flag _ _ h := h
  liked _ _ _ h := h
  unliked _ _ _ _ h := h

theorem WritesCount.leavesOwners (h : WritesCount e w) : LeavesOwners e w := by
  obtain ⟨postId, likes, rfl⟩ := h
  intro postId' hpath
  obtain rfl : postId = postId' := by simpa using hpath
  exact ⟨likes, rfl⟩

/-- Every post that is decoded is held with its owner, and no post gets another one. -/
theorem serve_owned (hb : b.owners = owner) {r : Request} {o : Outcome} {y : Response r}
    (hreq : (ownersConduct owner me).req e r) (h : serve b r o = some (b', y)) :
    b'.owners = owner ∧ RepliesWith (Owned owner) r y := by
  subst hb
  have howned : ∀ postId doc now, b.docs.lookup ["posts", postId] = some doc →
      Owned b.owners (Post.init now postId doc) := by
    intro postId doc now hdoc
    show b.owners postId = some ((doc.string "ownerUid").getD "")
    unfold Backend.owners
    rw [hdoc]
    rfl
  cases r with
  | write w =>
    refine ⟨funext fun postId => ?_, trivial⟩
    unfold Backend.owners
    by_cases hpath : w.path = ["posts", postId]
    · obtain ⟨likes, rfl⟩ := conduct_req_write.mp hreq postId hpath
      rcases serve_write h with ⟨-, docs, hdocs, rfl⟩ | ⟨-, rfl⟩
      · have hlookup := Write.lookup_apply hdocs
        rw [Write.path_updateData] at hlookup
        show (docs.lookup ["posts", postId]).map _ = _
        rw [hlookup]
        show ((b.docs.lookup ["posts", postId]).map _).map _ = _
        rw [Option.map_map]
        rfl
      · rfl
    · rw [serve_lookup_ne h fun w' hw' => Request.write.inj hw' ▸ Ne.symm hpath]
  | getDocument path =>
    obtain ⟨rfl, hsnapshot⟩ := serve_getDocument h
    refine ⟨rfl, fun postId hpath snapshot hy data hdata now => ?_⟩
    subst hpath
    rw [hsnapshot snapshot hy] at hdata ⊢
    exact howned postId data now hdata
  | getDocuments q =>
    obtain ⟨rfl, hdocs⟩ := serve_getDocuments h
    refine ⟨rfl, fun hq documents hy x hx now => ?_⟩
    have hmem : (x.1, x.2) ∈ q.results b'.docs := (hdocs documents hy).mem_iff.mp hx
    have hstored := (Query.mem_results.mp hmem).1
    rw [hq] at hstored
    exact howned x.1 x.2 now hstored
  | _ =>
    refine ⟨funext fun postId => ?_, trivial⟩
    unfold Backend.owners
    rw [serve_docs h fun w hw => by cases hw]

theorem Action.Writes.leavesOwners {P : Post → Prop} (h : a.Writes P me e w)
    (hshows : a.onlyShows = true) : LeavesOwners e w := by
  cases h with
  | likeCount post hpost => exact WritesCount.leavesOwners (e := e) ⟨_, _, rfl⟩
  | unlikeCount post hpost hlikes => exact WritesCount.leavesOwners (e := e) ⟨_, _, rfl⟩
  | upload imageUrl user => exact absurd hshows (by simp [onlyShows])
  | deletePost postId => exact absurd hshows (by simp [onlyShows])
  | deleteLikes u postId => exact absurd hshows (by simp [onlyShows])
  | deleteFeeds u postId => exact absurd hshows (by simp [onlyShows])
  | deleteNotices id => exact absurd hshows (by simp [onlyShows])
  | _ =>
    intro postId hpath
    exact absurd hpath (by simp)

/-- Whoever takes part leaves the owners of posts alone. -/
theorem Action.leaves_owners (hshows : a.onlyShows = true) :
    a.program.Keeps (ownersConduct owner me) :=
  Action.keeps postLaw_owned (fun _ he => he) a fun _ _ _ h => h.leavesOwners hshows

/-- What is done besides deeds writes no marks and no notifications. -/
theorem Action.keeps_aside (hshows : a.onlyShows = true) (hdeed : a.tapsDeed = false) :
    a.program.Keeps (asideConduct owner me) := by
  refine Action.keeps postLaw_owned (fun _ he => he) a fun e w _ h => ?_
  have hfollow : a.isFollow ≠ true := by
    intro ha
    cases a <;> exact absurd hdeed (by simp [tapsDeed, ha])
  cases h with
  | followMark ha user v => exact absurd ha hfollow
  | followCopy ha user v => exact absurd ha hfollow
  | followNotice uid user hother => exact absurd hdeed (by simp [tapsDeed, isFollow])
  | unfollowNotice uid id => exact absurd hdeed (by simp [tapsDeed, isFollow])
  | comment post user hpost => exact absurd hshows (by simp [onlyShows])
  | commentNotice post user hpost hother => exact absurd hshows (by simp [onlyShows])
  | upload imageUrl user => exact absurd hshows (by simp [onlyShows])
  | deletePost postId => exact absurd hshows (by simp [onlyShows])
  | deleteLikes u postId => exact absurd hshows (by simp [onlyShows])
  | deleteFeeds u postId => exact absurd hshows (by simp [onlyShows])
  | deleteNotices id => exact absurd hshows (by simp [onlyShows])
  | _ => exact absurd hdeed (by simp [tapsDeed])

end Owners

/-! ## Whole runs -/

/-- The flights that belong to no deed. -/
abbrev UndeededFlight {S : Type} (owner : String → Option String) (uidOf : S → String) (s : S)
    (fl : Flight Request Response Turn Client) : Prop :=
  fl.Keeps (asideConduct owner (uidOf s))

/-- A flight of a deed of the session's user. -/
def OwnDeed {S : Type} (owner : String → Option String) (uidOf : S → String) (s : S)
    (fl : Flight Request Response Turn Client) (x : Deed × DeedStage) : Prop :=
  x.1.uid = uidOf s ∧ DeedFlight owner x.1 fl x.2

/-- The invariant: sessions hold posts with their owners, and the deeds are followed by what is
in flight. -/
structure NoticesInv {S : Type} (owner : String → Option String) (uidOf : S → String)
    (w : AppWorld Client S) : Prop where
  keeps : w.Keeps (fun s => ownersConduct owner (uidOf s)) fun b => b.owners = owner
  deeds : ∃ stages, Tracks (UndeededFlight owner uidOf) (OwnDeed owner uidOf) w.pool stages
    ∧ DeedsInv owner w.backend stages

section Runs

variable {S : Type} [DecidableEq S] {owner : String → Option String} {uidOf : S → String}
  {w w' : AppWorld Client S} {ev : AppEvent S Action}

omit [DecidableEq S] in
/-- A deed that is ready has no flight. -/
theorem Deed.Ready.idle {d : Deed} {shown : Bool} (h : d.Ready w shown)
    {stages : List (S × Deed × DeedStage)} (howner : w.backend.owners = owner)
    (htracks : Tracks (UndeededFlight owner uidOf) (OwnDeed owner uidOf) w.pool stages)
    (hinv : DeedsInv owner w.backend stages) : ∀ x ∈ stages, x.2.1 ≠ d := by
  rintro ⟨t, d', stage⟩ hx heq
  obtain rfl : d' = d := heq
  obtain ⟨fl, hmem, -, hfl⟩ := htracks.mem hx
  refine h.2 _ hmem ?_
  rw [howner]
  exact hfl.concerns (hinv.holds _ hx).2

/-- What a session issues belongs to no deed, or begins one beside those that have a flight. -/
def Begins (owner : String → Option String) (uidOf : S → String) (b : Backend) (s : S)
    (stages : List (S × Deed × DeedStage))
    (flights : List (Flight Request Response Turn Client)) : Prop :=
  ∃ new, Tracks (UndeededFlight owner uidOf) (OwnDeed owner uidOf)
      (flights.map fun fl => (s, fl)) new
    ∧ DeedsInv owner b (new ++ stages)

section Begins

variable {s : S} {e : Turn} {stages : List (S × Deed × DeedStage)}

omit [DecidableEq S] in
theorem begins_nil (hinv : DeedsInv owner w.backend stages) :
    Begins owner uidOf w.backend s stages [] := ⟨[], .nil, hinv⟩

omit [DecidableEq S] in
/-- The mark that a tap sets out to write. -/
theorem begins_mark {d : Deed} {k : Option Error → Program Client} {shown : Bool}
    (hinv : DeedsInv owner w.backend stages) (hreal : d.Real owner)
    (hnone : ∀ x ∈ stages, x.2.1 ≠ d) (huid : d.uid = uidOf s)
    (hshown : shown = w.backend.exists d.mark) (hk : Completes owner d (!shown) k) :
    Begins owner uidOf w.backend s stages [markFlight d.mark d.copy (!shown) k] := by
  subst hshown
  exact ⟨[(s, d, .marking (!w.backend.exists d.mark))], .single ⟨huid, .marking hk⟩,
    hinv.begin hreal hnone⟩

variable (h : NoticesInv owner uidOf w) (he : SignedIn uidOf s e)
  (htracks : Tracks (UndeededFlight owner uidOf) (OwnDeed owner uidOf) w.pool stages)
  (hinv : DeedsInv owner w.backend stages)
include h he htracks hinv

omit [DecidableEq S] in
theorem begins_likeTap {c cell : Nat}
    (hready : ∀ post ∈ (((w.client s).feeds c).cells cell).post, post.tapPasses = true →
      (Deed.like (uidOf s) post.postId).Ready w post.didLike) :
    Begins owner uidOf w.backend s stages
      ((FeedController.didTapLike c cell).exec e (w.client s)).2 := by
  rw [exec_didTapLike he]
  cases hpost : (((w.client s).feeds c).cells cell).post with
  | none => exact begins_nil hinv
  | some post =>
    cases htab : (w.client s).tabUser with
    | none => exact begins_nil hinv
    | some user =>
      dsimp only
      unfold tapFlights
      split
      next hpasses =>
        have howned : Owned owner post := ((h.keeps.client s).feeds c).cells cell post hpost
        have hreal : (Deed.like (uidOf s) post.postId).Real owner := by
          intro postId hpostId
          obtain rfl := Option.some.inj hpostId
          rw [howned]
          rfl
        have htap := hready post hpost hpasses
        obtain ⟨new, hnew, hbegun⟩ := begins_mark (s := s) hinv hreal
          (htap.idle h.keeps.backend htracks hinv) rfl htap.1
          (.tapped (uidOf s) c cell post user howned)
        -- the count is of no deed
        refine ⟨new, .quiet ⟨⟨e, he, ?_⟩, fun _ _ => Prog.keeps_done⟩ hnew, hbegun⟩
        exact conduct_req_write.mpr ⟨post.postId, post.tapCount, rfl⟩
      next => exact begins_nil hinv

omit [DecidableEq S] in
theorem begins_headerTap {m : Nat}
    (hready : ∀ user ∈ ((w.client s).profiles m).header, user.uid ≠ uidOf s →
      (Deed.follow (uidOf s) user.uid).Ready w user.isFollowed) :
    Begins owner uidOf w.backend s stages
      ((ProfileController.didTapActionButton m).exec e (w.client s)).2 := by
  rw [exec_didTapActionButton _ he]
  cases hheader : ((w.client s).profiles m).header with
  | none => exact begins_nil hinv
  | some user =>
    cases htab : (w.client s).tabUser with
    | none => exact begins_nil hinv
    | some currentUser =>
      dsimp only
      split
      next => exact begins_nil hinv
      next hother =>
        have hreal : (Deed.follow (uidOf s) user.uid).Real owner :=
          fun postId hpostId => absurd hpostId (by simp [Deed.postId])
        have htap := hready user hheader hother
        exact begins_mark hinv hreal (htap.idle h.keeps.backend htracks hinv) rfl htap.1
          (.changed (uidOf s) m user currentUser _)

omit [DecidableEq S] in
/-- What an action issues begins a deed, or belongs to none. -/
theorem begins_action {a : Action} (hshows : a.onlyShows = true)
    (hseen : SeenTo uidOf w (.invoke s a e)) :
    Begins owner uidOf w.backend s stages (a.program.exec e (w.client s)).2 := by
  by_cases hdeed : a.tapsDeed = false
  · -- it only reads
    have hkeeps : a.program.Keeps (asideConduct owner (uidOf s)) :=
      Action.keeps_aside hshows hdeed
    have hexec := (hkeeps e he).exec he (h.keeps.client s)
    refine ⟨[], .of_quiet fun x hx => ?_, hinv⟩
    obtain ⟨fl, hmem, rfl⟩ := List.mem_map.mp hx
    exact (hexec.2 fl hmem).1
  cases a with
  | likeTap c cell => exact begins_likeTap h he htracks hinv hseen
  | headerTap m => exact begins_headerTap h he htracks hinv hseen
  | inboxFollowTap n cell => exact absurd hseen id
  | sheetTap k action =>
    cases action with
    | follow => exact absurd hseen id
    | unfollow => exact absurd hseen id
    | _ => exact absurd rfl hdeed
  | _ => exact absurd rfl hdeed

end Begins

omit [DecidableEq S] in
/-- A fresh identifier is claimed by no flight. -/
theorem unclaimed_of_unused {d : Deed} {id : String} {stages : List (S × Deed × DeedStage)}
    (htracks : Tracks (UndeededFlight owner uidOf) (OwnDeed owner uidOf) w.pool stages)
    (hunused : Unused w id) : ∀ x ∈ stages, d.notice owner id ∉ x.2.2.claims owner x.2.1 := by
  intro x hx hpath
  obtain ⟨fl, hmem, -, hfl⟩ := htracks.mem hx
  obtain ⟨write, hreq, hwrite⟩ := hfl.claims hpath
  have hmention := hunused.2 _ hmem
  rw [hreq] at hmention
  refine absurd hmention ?_
  show ¬ decide (id ∈ write.path) = false
  rw [hwrite]
  simp [Deed.notice]

omit [DecidableEq S] in
/-- The invariant under serving a request. -/
theorem DeedsInv.served {pre post : List (S × Flight Request Response Turn Client)} {s : S}
    {r : Request} {k : Response r → Program Client} {b' : Backend} {o : Outcome} {y : Response r}
    {stages : List (S × Deed × DeedStage)} (h : DeedsInv owner w.backend stages)
    (howner : w.backend.owners = owner)
    (htracks : Tracks (UndeededFlight owner uidOf) (OwnDeed owner uidOf)
      (pre ++ (s, .issued r k) :: post) stages)
    (ho : r.isWrite = true ∨ r.retracts = true → o.isSuccess = true)
    (hserve : serve w.backend r o = some (b', y)) :
    ∃ stages', Tracks (UndeededFlight owner uidOf) (OwnDeed owner uidOf)
      (pre ++ (s, .served r (k y)) :: post) stages' ∧ DeedsInv owner b' stages' := by
  obtain ⟨l, l', hpre, hpost, ⟨hquiet, rfl⟩ | ⟨⟨d, t⟩, ⟨huid, hfl⟩, rfl⟩⟩ := htracks.split
  · obtain ⟨⟨e, -, hreq⟩, hk⟩ := hquiet
    have howners : (ownersConduct owner (uidOf s)).req e r :=
      fun write hwrite => (hreq write hwrite).leavesOwners
    refine ⟨l ++ l', hpre.append (.quiet (hk y (serve_owned howner howners hserve).2) hpost), ?_⟩
    refine h.aside fun path hpath => serve_lookup_ne hserve fun write hwrite heq => ?_
    obtain ⟨postId, likes, rfl⟩ := hreq write hwrite
    rw [heq] at hpath
    exact absurd hpath (by simp)
  · have hperm : (l ++ (s, d, t) :: l').Perm ((s, d, t) :: (l ++ l')) := List.perm_middle
    rcases hfl.serve (h.perm hperm) ho hserve with ⟨t', hfl', hinv⟩ | ⟨hdone, hinv⟩
    · refine ⟨l ++ (s, d, t') :: l', hpre.append (.stage ⟨huid, hfl'⟩ hpost), ?_⟩
      exact hinv.perm List.perm_middle.symm
    · refine ⟨l ++ l', hpre.append (.quiet ?_ hpost), hinv⟩
      rw [hdone]
      exact Prog.keeps_done

/-- **One step.** -/
theorem NoticesInv.step (h : NoticesInv owner uidOf w) (hok : Noticing uidOf w ev)
    (hseen : SeenTo uidOf w ev) (hstep : Stepped api Action.program w ev w') :
    NoticesInv owner uidOf w' := by
  obtain ⟨⟨henv, hhealthy⟩, hfresh, hshows⟩ := hok
  have hkeeps : w'.Keeps (fun s => ownersConduct owner (uidOf s)) fun b => b.owners = owner := by
    refine h.keeps.step (fun i o _ s r k _ e b' y _ hreq hserve =>
      serve_owned h.keeps.backend hreq hserve) ?_ henv hstep
    cases ev with
    | invoke s a e => exact Action.leaves_owners hshows
    | serve i o => trivial
    | deliver i e => trivial
    | drop i => trivial
  obtain ⟨stages, htracks, hinv⟩ := h.deeds
  refine ⟨hkeeps, ?_⟩
  cases hstep with
  | invoke s a e =>
    obtain ⟨new, hnew, hbegun⟩ := begins_action h henv htracks hinv hshows hseen
    exact ⟨stages ++ new, htracks.append hnew, hbegun.perm List.perm_append_comm⟩
  | serve hpool hfifo hserve =>
    rename_i pre post s r k o b y
    have hget : w.pool[pre.length]? = some (s, .issued r k) := getElem?_split hpool
    rw [hpool] at htracks
    exact hinv.served h.keeps.backend htracks
      (fun hr => hr.elim (hhealthy _ hget) (hseen _ hget)) hserve
  | deliver hpool hfifo =>
    rename_i pre post s r p e
    have hget : w.pool[pre.length]? = some (s, .served r p) := getElem?_split hpool
    have he : SignedIn uidOf s e := henv _ hget
    have hunclaimed := fun d : Deed => unclaimed_of_unused (d := d) htracks hfresh
    rw [hpool] at htracks
    obtain ⟨l, l', hpre, hpost, ⟨hquiet, rfl⟩ | ⟨⟨d, t⟩, ⟨huid, hfl⟩, rfl⟩⟩ := htracks.split
    -- a callback of no deed starts none
    · have hexec := (hquiet e he).exec he (h.keeps.client s)
      refine ⟨l ++ l', (hpre.append hpost).append_quiet fun x hx => ?_, hinv⟩
      obtain ⟨fl, hmem, rfl⟩ := List.mem_map.mp hx
      exact (hexec.2 fl hmem).1
    -- the callback of a deed takes it to its next stage, or ends it
    · have hperm : (l ++ (s, d, t) :: l').Perm ((s, d, t) :: (l ++ l')) := List.perm_middle
      have he' : e.currentUid = some d.uid := by rw [huid]; exact he
      have hunused : w.backend.docs.lookup (d.notice owner e.autoId) = none :=
        AList.lookup_eq_none.mpr fun hmem => hfresh.1 _ hmem (by simp [Deed.notice])
      have hcell : ∀ c cell post user error, r = .write (.delete d.copy) →
          p = didTap c cell post user error → d = .like d.uid post.postId → post.didLike = true →
          (((w.client s).feeds c).cells cell).Shows post.postId := by
        rintro c cell post user error rfl rfl hd hlike
        refine hseen _ hget d.uid c cell post user error ?_ hlike
        rw [hd]
        rfl
      rcases hfl.deliver (hinv.perm hperm) he' hcell hunused
          (fun x hx => hunclaimed d x (hperm.mem_iff.mpr (List.mem_cons_of_mem _ hx)))
        with ⟨fl, t', hexec, hfl', hinv'⟩ | ⟨hexec, hinv'⟩
      · refine ⟨l ++ l' ++ [(s, d, t')], ?_, hinv'.perm (List.perm_append_singleton _ _).symm⟩
        rw [World.turn_pool, hexec]
        exact (hpre.append hpost).append (.single ⟨huid, hfl'⟩)
      · refine ⟨l ++ l', ?_, hinv'⟩
        rw [World.turn_pool, hexec, List.map_nil, List.append_nil]
        exact hpre.append hpost
  | drop hpool => exact absurd hhealthy id

/-- **The inbox mirrors what happened.** Any number of users and sessions, no write failing:
as long as follows go through the header, every tap finds its deed ready, and the completions of
unlikes find their cell and their notifications, whenever nothing is in flight each deed done to
someone else has exactly one notification, and no other deed has any. -/
theorem inbox_mirrors {w₀ : AppWorld Client S} (hrest : w₀.Quiescent)
    (hmirrors : InboxMirrors w₀.backend)
    (hheld : ∀ s, (w₀.client s).Holds (Owned w₀.backend.owners)) {es : List (AppEvent S Action)}
    (run : Run api Action.program (fun w ev => Noticing uidOf w ev ∧ SeenTo uidOf w ev) w₀ es w)
    (hquiet : w.Quiescent) : InboxMirrors w.backend := by
  have hinit : NoticesInv w₀.backend.owners uidOf w₀ := by
    refine ⟨⟨rfl, hheld, fun x hx => ?_⟩, [], ?_, .nil, ?_, fun d hd _ => ?_⟩
    · rw [hrest] at hx
      exact absurd hx List.not_mem_nil
    · rw [hrest]
      exact .nil
    · exact fun x hx => absurd hx List.not_mem_nil
    · exact Deed.mirrored_iff_told.mp (hmirrors d hd)
  obtain ⟨⟨howners, -, -⟩, stages, htracks, hinv⟩ := run.invariant
    (I := fun _ w => NoticesInv w₀.backend.owners uidOf w) hinit
    fun _ _ _ _ h hok hstep => h.step hok.1 hok.2 hstep
  -- with nothing in flight every deed is idle
  rw [hquiet] at htracks
  cases htracks
  intro d hd
  rw [howners] at hd ⊢
  exact Deed.mirrored_iff_told.mpr (hinv.idle d hd fun x hx => absurd hx List.not_mem_nil)

end Runs

/-! ## A follow and a like, seen to -/

/-- Is it the deletion of the second mark of a like? -/
def Request.isUncopy : Request → Bool
  | .write (.delete path) => path.head? == some "users"
  | _ => false

instance (w : AppWorld Client String) (ev : AppEvent String Action) :
    Decidable (Noticing id w ev) :=
  inferInstanceAs (Decidable (_ ∧ _ ∧ _))

/-- Only reads that have nothing to do with notifications are in flight. -/
def ReadsAside {S : Type} (w : AppWorld Client S) : Prop :=
  ∀ x ∈ w.pool, x.2.req.isWrite = false ∧ x.2.req.retracts = false

instance {S : Type} (w : AppWorld Client S) : Decidable (ReadsAside w) :=
  inferInstanceAs (Decidable (∀ x ∈ w.pool, _))

theorem ReadsAside.not_concerns {S : Type} {w : AppWorld Client S} (h : ReadsAside w) {d : Deed}
    {owner : String → Option String} : ∀ x ∈ w.pool, ¬ d.Concerns owner w.backend x.2 := by
  rintro ⟨s, fl⟩ hx hconcerns
  obtain ⟨hwrite, hretracts⟩ := h _ hx
  cases hconcerns with
  | mark w hreq hpath =>
    rw [hreq] at hwrite
    exact absurd hwrite (by simp [Request.isWrite])
  | upload id doc htells => exact absurd hwrite (by simp [Request.isWrite])
  | finding => exact absurd hretracts (by simp [retractQuery, Request.retracts])
  | found snapshot => exact absurd hretracts (by simp [retractQuery, Request.retracts])
  | deletion id hnoticed => exact absurd hwrite (by simp [Request.isWrite])

/-- Taps on what is current, one after the other, nothing failing. -/
def OneByOne (w : AppWorld Client String) : AppEvent String Action → Prop
  | .invoke s (.headerTap m) _ => ∀ user ∈ ((w.client s).profiles m).header,
    user.isFollowed = w.backend.exists ["following", s, "user-following", user.uid] ∧ ReadsAside w
  | .invoke s (.likeTap c cell) _ => ∀ post ∈ (((w.client s).feeds c).cells cell).post,
    post.didLike = w.backend.exists ["posts", post.postId, "post-likes", s] ∧ ReadsAside w
  | .invoke _ (.sheetTap _ _) _ => False
  | .invoke _ (.inboxFollowTap _ _) _ => False
  | .serve _ o => o.isSuccess = true
  | .deliver i _ => ∀ x ∈ w.pool[i]?, x.2.req.isUncopy = false
  | _ => True

instance (w : AppWorld Client String) (ev : AppEvent String Action) :
    Decidable (OneByOne w ev) :=
  match ev with
  | .invoke s a e => by
    apply Action.casesOn (motive := fun a => Decidable (OneByOne w (.invoke s a e))) a
      <;> intros <;> unfold OneByOne <;> infer_instance
  | .serve _ o => inferInstanceAs (Decidable (o.isSuccess = true))
  | .deliver _ _ => inferInstanceAs (Decidable (∀ x ∈ _, _))
  | .drop _ => isTrue trivial

theorem OneByOne.seenTo {w : AppWorld Client String} {ev : AppEvent String Action}
    (h : OneByOne w ev) : SeenTo id w ev := by
  cases ev with
  | invoke s a e =>
    cases a with
    | headerTap m => exact fun user huser _ => ⟨(h user huser).1, (h user huser).2.not_concerns⟩
    | likeTap c cell => exact fun post hpost _ => ⟨(h post hpost).1, (h post hpost).2.not_concerns⟩
    | sheetTap k action => exact absurd h id
    | inboxFollowTap n cell => exact absurd h id
    | _ => trivial
  | serve i o => exact fun _ _ _ => h
  | deliver i e =>
    intro x hx uid c cell post user error heq _
    have hcopy := h x hx
    rw [heq] at hcopy
    exact absurd hcopy (by simp [Request.isUncopy])
  | drop i => trivial

/-- `a` likes the post in the first cell, up to the notification `id`. -/
def likeUpToNotice (id : String) : List (AppEvent String Action) :=
  [.invoke "a" (.likeTap 0 0) (turnOf "a"), .serve 0 (.success []), .serve 1 (.success []),
    .deliver 0 (turnOf "a"), .deliver 0 (turnOf "a"), .serve 0 (.success []),
    .deliver 0 (turnWith "a" id), .serve 0 (.success []), .deliver 0 (turnOf "a")]

/-- `a` opens the profile of `b` and follows him. -/
def followFromHeader : List (AppEvent String Action) :=
  [.invoke "a" (.showProfile 0 "b") (turnOf "a"), .serve 0 (.success []), .deliver 0 (turnOf "a"),
    .serve 0 (.success []), .deliver 0 (turnOf "a"), .serve 0 (.success []),
    .deliver 0 (turnOf "a"), .serve 0 (.success ["p"]), .deliver 0 (turnOf "a"),
    .serve 0 (.success []), .deliver 0 (turnOf "a"), .serve 0 (.success ["p"]),
    .deliver 0 (turnOf "a"),
    .invoke "a" (.profileHeader 0) (turnOf "a"), .invoke "a" (.headerTap 0) (turnOf "a"),
    .serve 0 (.success []), .deliver 0 (turnOf "a"), .serve 0 (.success []),
    .deliver 0 (turnWith "a" "n"), .serve 0 (.success []), .deliver 0 (turnOf "a")]

theorem inboxMirrors_town : InboxMirrors town := by
  have hnone : ∀ path, path.length = 4 → town.docs.lookup path = none := by
    intro path hpath
    refine AList.lookup_eq_none.mpr fun hmem => ?_
    have hkeys : town.docs.keys = [["posts", "p"], ["users", "b"], ["users", "a"]] := rfl
    have hmem : path ∈ town.docs.keys := hmem
    rw [hkeys] at hmem
    simp only [List.mem_cons, List.not_mem_nil, or_false] at hmem
    rcases hmem with rfl | rfl | rfl <;> exact absurd hpath (by decide)
  intro d _
  refine ⟨fun hmark => ?_, fun _ id => ?_⟩
  · unfold Backend.exists at hmark
    rw [hnone _ (by cases d <;> rfl)] at hmark
    exact absurd hmark (by simp)
  · rintro ⟨doc, hdoc, -⟩
    rw [hnone _ rfl] at hdoc
    exact absurd hdoc (by simp)

/-- `a` likes the post of `b` and follows him. -/
def likeAndFollow : List (AppEvent String Action) :=
  openFeed "a" ++ likeUpToNotice "m" ++ followFromHeader

/-- The inbox of `b` says both. -/
theorem inbox_mirrors_both :
    ∃ w, Run api Action.program (fun w ev => Noticing id w ev ∧ SeenTo id w ev) townAtRest
        likeAndFollow w
      ∧ w.Quiescent ∧ w.backend.docs.ids ["notifications", "b", "user-notifications"] = ["n", "m"]
      ∧ InboxMirrors w.backend := by
  obtain ⟨w, run, hquiet, hids⟩ : ∃ w, Run api Action.program
      (fun w ev => Noticing id w ev ∧ OneByOne w ev) townAtRest likeAndFollow w
      ∧ w.Quiescent
      ∧ w.backend.docs.ids ["notifications", "b", "user-notifications"] = ["n", "m"] :=
    exists_run_of_play (by decide)
  have run' : Run api Action.program (fun w ev => Noticing id w ev ∧ SeenTo id w ev) townAtRest
      likeAndFollow w :=
    run.mono fun _ _ hok => ⟨hok.1, hok.2.seenTo⟩
  have hrest : townAtRest.Quiescent := rfl
  exact ⟨w, run', hquiet, hids,
    inbox_mirrors hrest inboxMirrors_town (fun _ => Client.holds_initial _) run' hquiet⟩

/-- `a` follows `b` from the options of his post. -/
def followFromSheet : List (AppEvent String Action) :=
  openFeed "a" ++
    [.invoke "a" (.optionsTap 0 0) (turnOf "a"), .serve 0 (.success []), .deliver 0 (turnOf "a"),
      .invoke "a" (.sheetTap 0 .follow) (turnOf "a"), .serve 0 (.success []),
      .deliver 0 (turnOf "a"), .serve 0 (.success []), .deliver 0 (turnOf "a")]

/-- The inbox of `b` does not say so. -/
theorem not_inbox_mirrors :
    ¬ ∀ (es : List (AppEvent String Action)) (w : AppWorld Client String),
      Run api Action.program (Noticing id) townAtRest es w → w.Quiescent →
        InboxMirrors w.backend := by
  intro h
  obtain ⟨w, run, hquiet, hfollows, hids⟩ : ∃ w, Run api Action.program (Noticing id) townAtRest
      followFromSheet w
      ∧ w.Quiescent ∧ w.backend.exists ["following", "a", "user-following", "b"] = true
      ∧ w.backend.docs.ids ["notifications", "b", "user-notifications"] = [] :=
    exists_run_of_play (by decide)
  have hreal : (Deed.follow "a" "b").Real w.backend.owners :=
    fun postId hpostId => absurd hpostId (by simp [Deed.postId])
  have hother : (Deed.follow "a" "b").uid ≠ (Deed.follow "a" "b").toUid w.backend.owners := by
    show "a" ≠ "b"
    decide
  obtain ⟨id, ⟨doc, hdoc, -⟩, -⟩ := (h followFromSheet w run hquiet _ hreal).done hfollows hother
  have hmem : id ∈ w.backend.docs.ids ["notifications", "b", "user-notifications"] := by
    refine Store.mem_ids.mpr (Option.isSome_iff_exists.mpr ⟨doc, ?_⟩)
    exact hdoc
  rw [hids] at hmem
  exact absurd hmem List.not_mem_nil

end InstaClone
