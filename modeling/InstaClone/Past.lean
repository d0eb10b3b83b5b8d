import InstaClone.Shown

/-!
# What is on a screen has been stored

A list of users is fetched in two rounds: the documents of its collection, and for each of them
the user of that name. In between anything may happen, to the collection as to the users. What
remains true is about the past: `StoredAlong` says that a document has been stored at a moment of
the run, and `past` are the terms of a session that knows of the backend only that. So whoever a
list shows had his mark in its collection once, and is shown as he was stored once
(`lists_related`). The comments of a screen have been stored under its post (`comments_of_post`).
-/

namespace InstaClone

open Async

/-- The post has been stored, as one of the owner. -/
def OwnedBy (stored : Path → Doc → Prop) (postId owner : String) : Prop :=
  ∃ d, stored ["posts", postId] d ∧ d.string "ownerUid" = some owner

section Past

variable {S : Type} [DecidableEq S] (strings : StringOps)
  (ok : AppWorld Screens S → AppEvent S ScreenAction → Prop) (es : List (AppEvent S ScreenAction))

/-- At a moment of the run, the document has been stored at the path. -/
def StoredAlong (path : Path) (d : Doc) : Prop :=
  ∃ w, Visited api (ScreenAction.program strings) ok unused es w
    ∧ w.backend.docs.lookup path = some d

variable {strings ok es}

theorem StoredAlong.conforms {path : Path} {d : Doc} (h : StoredAlong strings ok es path d) :
    Conforms path d := by
  obtain ⟨w, ⟨es₁, -, run⟩, hlook⟩ := h
  exact stored_conforms run path d hlook

variable (strings ok es)

/-- A session that knows of the backend what has been stored along the run. The posts that it
holds belong to whom they have been stored for. -/
def past (account : String → Prop) : Terms where
  account := account
  stored := StoredAlong strings ok es
  post post := OwnedBy (StoredAlong strings ok es) post.postId post.ownerUid
  law := ⟨fun _ _ h => h, fun _ _ _ h => h, fun _ _ _ _ h => h⟩
  decoded _ d now h := ⟨d, h, (Post.init_uploadedAs h.conforms now).ownerUid⟩
  named uid _ h := h.conforms.user uid rfl

variable {strings ok es} {V : S → String → Prop} {w : AppWorld Screens S} {s : S}

/-- The screens show what has been stored. -/
theorem shows_past (run : Run api (ScreenAction.program strings) ok unused es w)
    (hdevices : ∀ w ev, ok w ev → Devices V w ev)
    (hdisplayed : ∀ w ev, ok w ev → Displayed w ev) (s : S) :
    (past strings ok es (V s)).Shows (w.client s) := by
  refine shows_run (T := fun s => past strings ok es (V s)) run.visited ?_
    (fun w ev h => hdevices w ev h.1) (fun w ev h => hdisplayed w ev h.1) s
  intro w₁ ev h _ path d hlook
  exact ⟨w₁, h.2, hlook⟩

/-- **Whoever a list shows has been on it.** A user on a list of likes or of followed users, as
much as one on the list of everybody, is shown as he has been stored, and there has been a mark
with his name in the collection of the list. -/
theorem lists_related (run : Run api (ScreenAction.program strings) ok unused es w)
    (hok : ∀ w ev, ok w ev → Displayed w ev) {n : Nat} {user : User}
    (h : user ∈ ((w.client s).lists n).rows.shown) :
    ∃ config, ((w.client s).lists n).config = some config
      ∧ (∃ d, StoredAlong strings ok es ["users", user.uid] d ∧ user = User.init d)
      ∧ ∀ collection ∈ config.collection,
        ∃ d, StoredAlong strings ok es (collection ++ [user.uid]) d := by
  have hshows := shows_past run (fun w ev _ => devices_true w ev) hok s
  obtain ⟨config, hconfig, hlists⟩ := (hshows.lists n).shown user h
  exact ⟨config, hconfig, hlists.decoded, hlists.marked⟩

/-- Bob looks whom he follows. -/
def lookingUp : List (AppEvent String ScreenAction) :=
  [.invoke "b" (.tabProfile 1) (turnWith "b" "b18"),
    .invoke "b" (.app (.profileHeader 1)) (turnWith "b" "b19"),
    .invoke "b" (.profileFollowing 1 0) (turnWith "b" "b20"),
    .invoke "b" (.usersDidLoad 0) (turnWith "b" "b21"), .serve 3 (.success ["a"]),
    .deliver 3 (turnWith "b" "b22"), .serve 3 (.success []), .deliver 3 (turnWith "b" "b23")]

/-- Ann is on the list, and he has followed her. -/
theorem lists_related_followed :
    ∃ w, Run api (ScreenAction.program stringsASCII) Displayed unused (following ++ lookingUp) w
      ∧ ∃ user ∈ ((w.client "b").lists 0).rows.shown,
        ∃ config, ((w.client "b").lists 0).config = some config
          ∧ (∃ d, StoredAlong stringsASCII Displayed (following ++ lookingUp)
              ["users", user.uid] d ∧ user = User.init d)
          ∧ ∀ collection ∈ config.collection,
            ∃ d, StoredAlong stringsASCII Displayed (following ++ lookingUp)
              (collection ++ [user.uid]) d := by
  obtain ⟨w, run, hone⟩ : ∃ w, Run api (ScreenAction.program stringsASCII) Displayed unused
      (following ++ lookingUp) w ∧ ((w.client "b").lists 0).rows.shown.length = 1 :=
    exists_run_of_play (by decide +kernel)
  obtain ⟨user, huser⟩ := List.exists_mem_of_length_eq_add_one hone
  exact ⟨w, run, user, huser, lists_related run (fun _ _ h => h) huser⟩

/-- **A comment screen shows comments on its post**: each has been stored under it. -/
theorem comments_of_post (run : Run api (ScreenAction.program strings) ok unused es w)
    (hok : ∀ w ev, ok w ev → Displayed w ev) {d : Nat} {comment : Comment}
    (h : comment ∈ ((w.client s).comments d).controller.comments) :
    ∃ post id data now, ((w.client s).client.comments d).post = some post
      ∧ StoredAlong strings ok es ["posts", post.postId, "comments", id] data
      ∧ comment = Comment.init now data := by
  have hshows := shows_past run (fun w ev _ => devices_true w ev) hok s
  have hrows := (hshows.comments d).rows
  rw [hrows.2] at h
  obtain ⟨now, data, ⟨q, hq, id, hstored⟩, rfl⟩ := hrows.1 comment h
  -- the query is still the one of the post that the screen is for
  obtain ⟨post, hpost, rfl⟩ := hshows.commentQuery d q hq
  exact ⟨post, id, data, now, hpost, hstored, rfl⟩

/-- The comment of Ann is shown under her post. -/
theorem comments_of_post_commented :
    ∃ w, Run api (ScreenAction.program stringsASCII) Displayed unused (sharing ++ commenting) w
      ∧ ∃ comment ∈ ((w.client "a").comments 0).controller.comments,
        ∃ post id data now, ((w.client "a").client.comments 0).post = some post
          ∧ StoredAlong stringsASCII Displayed (sharing ++ commenting)
            ["posts", post.postId, "comments", id] data
          ∧ comment = Comment.init now data := by
  obtain ⟨w, run, hone⟩ : ∃ w, Run api (ScreenAction.program stringsASCII) Displayed unused
      (sharing ++ commenting) w ∧ ((w.client "a").comments 0).controller.comments.length = 1 :=
    exists_run_of_play (by decide +kernel)
  obtain ⟨comment, hcomment⟩ := List.exists_mem_of_length_eq_add_one hone
  exact ⟨w, run, comment, hcomment, comments_of_post run (fun _ _ h => h) hcomment⟩

end Past

end InstaClone
