import InstaClone.Async.Visited
import InstaClone.Profiles

/-!
# Screens show what they are about

A list of users, the comments on a post, a chat and the list of conversations are opened for
something: a user, a post, a partner, an account. A callback that arrives later shows what it
has got on the screen of that number. `Screens.Below` is what stays as it is meanwhile (what a
screen is for, and which query it listens to) or only grows (a thread), and `Terms.Shows` is what
is shown: only documents of the collection that the screen listens to.

So a grid shows posts of the profile's user (`profiles_own`), and a chat messages between the
account and the partner (`chat_sides`). A list of followers shows nobody (`followers_empty`): it
reads a collection that nothing writes.
-/

namespace InstaClone

open Async
open Screens (onClient onEdit)

/-! ## What has been decoded from what -/

/-- Everything in the list has been decoded from documents with `P`. -/
def Decoded {κ α : Type} (init : κ → Doc → α) (P : Doc → Prop) (l : List α) : Prop :=
  ∀ x ∈ l, ∃ t d, P d ∧ x = init t d

section Decoded

variable {κ α : Type} {init : κ → Doc → α} {P P' : Doc → Prop} {l l' : List α}

theorem decoded_nil : Decoded init P [] := fun _ h => absurd h List.not_mem_nil

theorem Decoded.mono (h : Decoded init P l) (hP : ∀ d, P d → P' d) : Decoded init P' l := by
  intro x hx
  obtain ⟨t, d, hd, heq⟩ := h x hx
  exact ⟨t, d, hP d hd, heq⟩

theorem Decoded.append (h : Decoded init P l) (h' : Decoded init P l') :
    Decoded init P (l ++ l') := by
  intro x hx
  rcases List.mem_append.mp hx with hx | hx
  · exact h x hx
  · exact h' x hx

theorem decoded_map {docs : List Doc} (h : ∀ d ∈ docs, P d) (t : κ) :
    Decoded init P (docs.map (init t)) := by
  intro x hx
  obtain ⟨d, hd, rfl⟩ := List.mem_map.mp hx
  exact ⟨t, d, h d hd, rfl⟩

end Decoded

/-- A controller takes what a snapshot adds, and keeps what it has. What it shows grows in the
sense of `upTo`. -/
structure Hears {ρ : Type} (fits : (Doc → Prop) → ρ → Prop) (upTo : ρ → ρ → Prop)
    (assign : Turn → ρ → Option (List DocumentChange) → ρ) : Prop where
  mono : ∀ {P P' : Doc → Prop} {rows : ρ}, (∀ d, P d → P' d) → fits P rows → fits P' rows
  hear : ∀ {P : Doc → Prop} {rows : ρ} (turn : Turn) (changes : Option (List DocumentChange)),
    fits P rows → (∀ change ∈ changes.getD [], P change.document) →
    fits P (assign turn rows changes)
  grow : ∀ {P : Doc → Prop} {rows : ρ} (turn : Turn) (changes : Option (List DocumentChange)),
    fits P rows → upTo rows (assign turn rows changes)

/-- What is shown is all that has been fetched. -/
def CommentRows.From (P : Doc → Prop) (rows : CommentRows) : Prop :=
  Decoded Comment.init P rows.fetched ∧ rows.comments = rows.fetched

def ChatRows.From (P : Doc → Prop) (rows : ChatRows) : Prop :=
  Decoded Message.init P rows.fetched ∧ rows.messages = rows.fetched

/-- A thread is added to at its end. -/
def CommentRows.UpTo (rows rows' : CommentRows) : Prop := rows.comments <+: rows'.comments

def ChatRows.UpTo (rows rows' : ChatRows) : Prop := rows.messages <+: rows'.messages

/-- The list of conversations is rewritten as a whole. -/
def ConversationRows.UpTo (_ _ : ConversationRows) : Prop := True

def ConversationRows.From (P : Doc → Prop) (rows : ConversationRows) : Prop :=
  Decoded Message.init P (rows.conversationsDictionary.entries.map (·.2))
    ∧ Decoded Message.init P rows.conversations

theorem added_of_changes {P : Doc → Prop} {changes : List DocumentChange}
    (h : ∀ change ∈ changes, P change.document) : ∀ d ∈ added changes, P d := by
  intro d hd
  obtain ⟨change, hchange, rfl⟩ := List.mem_map.mp hd
  exact h change (List.mem_filter.mp hchange).1

theorem decoded_changes {P : Doc → Prop} {changes : List DocumentChange}
    (h : ∀ change ∈ changes, P change.document) (uid : Option String) :
    Decoded Message.init P (changes.map fun change => Message.init uid change.document) := by
  intro x hx
  obtain ⟨change, hchange, rfl⟩ := List.mem_map.mp hx
  exact ⟨uid, change.document, h change hchange, rfl⟩

theorem hears_comments : Hears CommentRows.From CommentRows.UpTo CommentRows.hear where
  mono hP h := ⟨h.1.mono hP, h.2⟩
  hear turn changes h hchanges :=
    ⟨h.1.append (decoded_map (added_of_changes hchanges) turn.now), rfl⟩
  grow {P rows} turn changes h := by
    show rows.comments <+: rows.fetched ++ _
    rw [h.2]
    exact List.prefix_append _ _

theorem hears_chats : Hears ChatRows.From ChatRows.UpTo ChatRows.hear where
  mono hP h := ⟨h.1.mono hP, h.2⟩
  hear turn changes h hchanges := by
    cases changes with
    | none => exact h
    | some changes =>
      exact ⟨h.1.append (decoded_map (added_of_changes hchanges) turn.currentUid), rfl⟩
  grow {P rows} turn changes h := by
    cases changes with
    | none => exact List.prefix_rfl
    | some changes =>
      show rows.messages <+: rows.fetched ++ _
      rw [h.2]
      exact List.prefix_append _ _

/-- The dictionary of the conversations takes its values from the old ones and the new. -/
theorem ConversationRows.From.updated {P : Doc → Prop} {rows : ConversationRows}
    {messages : List Message} (h : rows.From P) (hmessages : Decoded Message.init P messages) :
    Decoded Message.init P ((rows.updated messages).entries.map (·.2)) := by
  unfold ConversationRows.updated
  have hdictionary := h.1
  generalize rows.conversationsDictionary = dictionary at hdictionary ⊢
  induction messages generalizing dictionary with
  | nil => exact hdictionary
  | cons message messages ih =>
    refine ih (fun x hx => hmessages x (List.mem_cons_of_mem _ hx)) _ fun x hx => ?_
    obtain ⟨entry, hentry, rfl⟩ := List.mem_map.mp hx
    rw [AList.entries_insert, List.mem_cons] at hentry
    rcases hentry with rfl | hentry
    · exact hmessages message (List.mem_cons_self ..)
    · refine hdictionary _ (List.mem_map_of_mem ?_)
      exact (List.kerase_sublist _ _).subset hentry

theorem hears_conversations :
    Hears ConversationRows.From ConversationRows.UpTo ConversationRows.hear where
  mono hP h := ⟨h.1.mono hP, h.2.mono hP⟩
  hear turn changes h hchanges := by
    cases changes with
    | none => exact h
    | some changes =>
      have hall := h.updated (decoded_changes hchanges turn.currentUid)
      exact ⟨hall, hall⟩
  grow _ _ _ := trivial

/-! ## Listeners -/

section Watch

variable {ρ : Type} {T : Terms} {fits : (Doc → Prop) → ρ → Prop} {upTo : ρ → ρ → Prop}
  {assign : Turn → ρ → Option (List DocumentChange) → ρ} {watch : Watch ρ} {q : Query}

/-- A document of the collection that is listened to. -/
def Watch.Heard (T : Terms) (watch : Watch ρ) (d : Doc) : Prop :=
  ∃ q, watch.query = some q ∧ ∃ id, T.stored (q.collection ++ [id]) d

/-- The listener has reported such documents only, and only they are on the screen. -/
structure Watch.Shows (T : Terms) (fits : (Doc → Prop) → ρ → Prop) (watch : Watch ρ) : Prop where
  shown : ∀ x ∈ watch.shown, watch.Heard T x.2
  rows : fits (watch.Heard T) watch.controller

theorem document_of_documentChanges {old new : List (String × Doc)} {modified : List String}
    {change : DocumentChange} (h : change ∈ documentChanges old new modified) :
    ∃ x, (x ∈ old ∨ x ∈ new) ∧ change.document = x.2 := by
  rcases List.mem_append.mp h with h | h
  · obtain ⟨x, hx, rfl⟩ := List.mem_map.mp h
    exact ⟨x, Or.inl (List.mem_filter.mp hx).1, rfl⟩
  · obtain ⟨x, hx, heq⟩ := List.mem_filterMap.mp h
    refine ⟨x, Or.inr hx, ?_⟩
    split at heq
    next => rw [← Option.some.inj heq]
    next =>
      split at heq
      next => rw [← Option.some.inj heq]
      next => exact absurd heq (by simp)

/-- A snapshot of the query keeps it so. -/
theorem Watch.Shows.hear (h : watch.Shows T fits) (hfits : Hears fits upTo assign)
    (hq : watch.query = some q) {result : Option (List (String × Doc))}
    (hresult : ∀ documents ∈ result, ∀ x ∈ documents, T.stored (q.collection ++ [x.1]) x.2)
    (turn : Turn) (modified : List String) :
    (watch.hear (assign turn) result modified).Shows T fits := by
  have hnew : ∀ documents ∈ result, ∀ x ∈ documents, watch.Heard T x.2 :=
    fun documents hdocuments x hx => ⟨q, hq, x.1, hresult documents hdocuments x hx⟩
  refine ⟨fun x hx => ?_, hfits.hear turn _ h.rows fun change hchange => ?_⟩
  · cases result with
    | none => exact h.shown x hx
    | some documents => exact hnew documents rfl x hx
  · cases result with
    | none => exact absurd hchange List.not_mem_nil
    | some documents =>
      obtain ⟨x, hx, heq⟩ := document_of_documentChanges hchange
      rw [heq]
      rcases hx with hx | hx
      · exact h.shown x hx
      · exact hnew documents rfl x hx

/-- A listener that is added has nothing to show yet. -/
theorem Watch.Shows.listen (h : watch.Shows T fits) (hfits : Hears fits upTo assign)
    (hnone : watch.query = none) (q : Query) :
    ({ watch with query := some q } : Watch ρ).Shows T fits := by
  have hempty : ∀ d, ¬ watch.Heard T d := by
    rintro d ⟨q', hq', -⟩
    rw [hnone] at hq'
    exact absurd hq' (by simp)
  refine ⟨fun x hx => absurd (h.shown x hx) (hempty x.2), ?_⟩
  exact hfits.mono (fun d hd => absurd hd (hempty d)) h.rows

end Watch

/-! ## Sessions -/

/-- The collection whose documents are named after the users of a list. -/
def UserFilterConfig.collection : UserFilterConfig → Option Path
  | followers uid => some ["followers", uid, "user-follwers"]
  | following uid => some ["following", uid, "user-following"]
  | likes postId => some ["posts", postId, "post-likes"]
  | messages => none
  | all => none

/-- The user is one of a list: he is stored, and his mark is in the collection of the list. -/
structure Terms.Lists (T : Terms) (config : UserFilterConfig) (user : User) : Prop where
  decoded : ∃ d, T.stored ["users", user.uid] d ∧ user = User.init d
  marked : ∀ collection ∈ config.collection, ∃ d, T.stored (collection ++ [user.uid]) d

/-- Everybody a list has fetched, shown and found is one of it. -/
structure UserList.Holds (T : Terms) (list : UserList) : Prop where
  fetched : ∀ user ∈ list.fetched, ∃ config, list.config = some config ∧ T.Lists config user
  users : ∀ user ∈ list.rows.users, ∃ config, list.config = some config ∧ T.Lists config user
  filteredUsers : ∀ user ∈ list.rows.filteredUsers,
    ∃ config, list.config = some config ∧ T.Lists config user

theorem UserList.Holds.shown {T : Terms} {list : UserList} (h : list.Holds T) :
    ∀ user ∈ list.rows.shown, ∃ config, list.config = some config ∧ T.Lists config user := by
  unfold SearchRows.shown
  split
  next => exact h.filteredUsers
  next => exact h.users

/-- The edit is of the profile that has opened it. -/
structure EditScreen.Edits (edit : EditScreen) (client : Client) : Prop where
  loaded : (client.profiles edit.delegate).loaded = true
  user : edit.session.controller.user.uid = (client.profiles edit.delegate).user.uid
  profileUser : edit.session.profileUser.uid = (client.profiles edit.delegate).user.uid

/-- **What the screens show.** -/
structure Terms.Shows (T : Terms) (screens : Screens) : Prop where
  profiles : T.profiles.state screens.client
  lists : ∀ n, (screens.lists n).Holds T
  comments : ∀ d, (screens.comments d).Shows T CommentRows.From
  commentQuery : ∀ d, ∀ q ∈ (screens.comments d).query,
    ∃ post, (screens.client.comments d).post = some post ∧ q = commentsOf post.postId
  conversations : ∀ n, (screens.conversations n).Shows T ConversationRows.From
  conversationQuery : ∀ n, ∀ q ∈ (screens.conversations n).query,
    ∃ uid, T.account uid ∧ q = recentsOf uid
  chats : ∀ k, (screens.chats k).watch.Shows T ChatRows.From
  chatQuery : ∀ k, ∀ q ∈ (screens.chats k).watch.query,
    ∃ uid user, T.account uid ∧ (screens.chats k).user = some user
      ∧ q = conversationOf uid user.uid
  edits : ∀ k, ∀ edit ∈ screens.edits k, edit.Edits screens.client

/-- What stays as it is, which is what a screen is for and what it listens to, and the threads,
which only grow. -/
structure Screens.Below (screens screens' : Screens) : Prop where
  client : screens.client.Below screens'.client
  lists : ∀ n, ∀ config ∈ (screens.lists n).config, (screens'.lists n).config = some config
  comments : ∀ d, ∀ q ∈ (screens.comments d).query, (screens'.comments d).query = some q
  conversations : ∀ n, ∀ q ∈ (screens.conversations n).query,
    (screens'.conversations n).query = some q
  users : ∀ k, ∀ user ∈ (screens.chats k).user, (screens'.chats k).user = some user
  chats : ∀ k, ∀ q ∈ (screens.chats k).watch.query, (screens'.chats k).watch.query = some q
  edits : ∀ k, ∀ edit ∈ screens.edits k,
    ∃ edit', screens'.edits k = some edit' ∧ edit'.delegate = edit.delegate
  thread : ∀ d, (screens.comments d).controller.UpTo (screens'.comments d).controller
  chat : ∀ k, (screens.chats k).watch.controller.UpTo (screens'.chats k).watch.controller

theorem Screens.Below.refl (screens : Screens) : screens.Below screens where
  client := .refl _
  lists _ _ h := h
  comments _ _ h := h
  conversations _ _ h := h
  users _ _ h := h
  chats _ _ h := h
  edits _ edit h := ⟨edit, h, rfl⟩
  thread _ := List.prefix_rfl
  chat _ := List.prefix_rfl

theorem Screens.Below.trans {screens screens' screens'' : Screens} (h : screens.Below screens')
    (h' : screens'.Below screens'') : screens.Below screens'' where
  client := h.client.trans h'.client
  lists n config hconfig := h'.lists n config (h.lists n config hconfig)
  comments d q hq := h'.comments d q (h.comments d q hq)
  conversations n q hq := h'.conversations n q (h.conversations n q hq)
  users k user huser := h'.users k user (h.users k user huser)
  chats k q hq := h'.chats k q (h.chats k q hq)
  edits k edit hedit := by
    obtain ⟨edit', hedit', hdelegate⟩ := h.edits k edit hedit
    obtain ⟨edit'', hedit'', hdelegate'⟩ := h'.edits k edit' hedit'
    exact ⟨edit'', hedit'', hdelegate'.trans hdelegate⟩
  thread d := (h.thread d).trans (h'.thread d)
  chat k := (h.chat k).trans (h'.chat k)

/-- The contract of a session whose screens show what they are about. -/
def Terms.showing (T : Terms) : Growth Request Response Turn Screens where
  env := T.contract.env
  state := T.Shows
  req _ _ := True
  resp := T.Replies
  le := Screens.Below
  refl := Screens.Below.refl
  trans h h' := h.trans h'

theorem Terms.shows_initial (T : Terms) : T.Shows {} where
  profiles _ := ProfileController.own_initial
  lists _ :=
    ⟨fun _ h => absurd h List.not_mem_nil, fun _ h => absurd h List.not_mem_nil,
      fun _ h => absurd h List.not_mem_nil⟩
  comments _ := ⟨fun _ h => absurd h List.not_mem_nil, decoded_nil, rfl⟩
  commentQuery _ _ h := absurd h (by simp)
  conversations _ := ⟨fun _ h => absurd h List.not_mem_nil, decoded_nil, decoded_nil⟩
  conversationQuery _ _ h := absurd h (by simp)
  chats _ := ⟨fun _ h => absurd h List.not_mem_nil, decoded_nil, rfl⟩
  chatQuery _ _ h := absurd h (by simp)
  edits _ _ h := absurd h (by simp)

/-- The client may be assigned as long as it goes up. -/
theorem Terms.Shows.setClient {T : Terms} {screens : Screens} (h : T.Shows screens)
    {client : Client} (hle : screens.client.Below client) (hstate : T.profiles.state client) :
    T.Shows (screens.setClient client) where
  profiles := hstate
  lists := h.lists
  comments := h.comments
  commentQuery d q hq := by
    obtain ⟨post, hpost, heq⟩ := h.commentQuery d q hq
    exact ⟨post, hle.comments d post hpost, heq⟩
  conversations := h.conversations
  conversationQuery := h.conversationQuery
  chats := h.chats
  chatQuery := h.chatQuery
  edits k edit hedit := by
    obtain ⟨hloaded, huser, hprofileUser⟩ := h.edits k edit hedit
    obtain ⟨hloaded', huid⟩ := hle.loaded edit.delegate hloaded
    exact ⟨hloaded', huser.trans huid.symm, hprofileUser.trans huid.symm⟩

theorem Screens.below_setClient {screens : Screens} {client : Client}
    (hle : screens.client.Below client) : screens.Below (screens.setClient client) :=
  { Screens.Below.refl screens with client := hle }

section Programs

variable {T : Terms} {e : Turn} {s : Screens}

/-- The client is under a contract of its own. -/
theorem part_client (screens : Screens) :
    T.profiles.Part T.showing (fun screens => some screens.client) Screens.setClient screens where
  env _ h := h
  req _ _ _ := trivial
  resp _ _ h := h
  state u _ hu s hs := by
    rw [← Option.some.inj hs]
    exact hu.profiles
  le u v _ _ hle _ s s' hs hs' := by
    rw [← Option.some.inj hs, ← Option.some.inj hs']
    exact hle.client
  set u _ hu s s' hs hle hstate := by
    rw [← Option.some.inj hs] at hle
    exact ⟨Screens.below_setClient hle, hu.setClient hle hstate, rfl⟩

theorem shows_onClient {p : Program Client} (hp : p.GrowsFrom T.profiles e s.client)
    (hs : T.Shows s) : (onClient p).GrowsFrom T.showing e s :=
  hp.zoom (part_client s) rfl hs

/-! ### Listeners -/

/-- What holds at every number still does when one of them is assigned. -/
theorem forall_update {β : Type} {P : Nat → β → Prop} {f : Nat → β} {d : Nat} {x : β}
    (h : ∀ i, P i (f i)) (hx : P d x) : ∀ i, P i (Function.update f d x i) :=
  (Function.forall_update_iff f P).mpr ⟨hx, fun i _ => h i⟩

/-- Nothing is kept from a variable that is empty. -/
theorem of_mem_none {α : Type} {P : α → Prop} {o : Option α} (h : o = none) : ∀ x ∈ o, P x := by
  subst h
  exact fun x hx => absurd hx (by simp)

theorem assign_comments {d : Nat} {x : Watch CommentRows} (hs : T.Shows s)
    (hkeep : ∀ q ∈ (s.comments d).query, x.query = some q) (hx : x.Shows T CommentRows.From)
    (hup : (s.comments d).controller.UpTo x.controller)
    (hquery : ∀ q ∈ x.query,
      ∃ post, (s.client.comments d).post = some post ∧ q = commentsOf post.postId) :
    s.Below ((Screens.commentWatch d).set x s) ∧ T.Shows ((Screens.commentWatch d).set x s) := by
  refine ⟨{ Screens.Below.refl s with comments := ?_, thread := ?_ },
    { hs with comments := ?_, commentQuery := ?_ }⟩
  · exact forall_update
      (P := fun d (y : Watch CommentRows) => ∀ q ∈ (s.comments d).query, y.query = some q)
      (fun _ _ h => h) hkeep
  · exact forall_update
      (P := fun d (y : Watch CommentRows) => (s.comments d).controller.UpTo y.controller)
      (fun _ => List.prefix_rfl) hup
  · exact forall_update (P := fun _ (y : Watch CommentRows) => y.Shows T CommentRows.From)
      hs.comments hx
  · exact forall_update
      (P := fun d (y : Watch CommentRows) => ∀ q ∈ y.query,
        ∃ post, (s.client.comments d).post = some post ∧ q = commentsOf post.postId)
      hs.commentQuery hquery

theorem assign_conversations {n : Nat} {x : Watch ConversationRows} (hs : T.Shows s)
    (hkeep : ∀ q ∈ (s.conversations n).query, x.query = some q)
    (hx : x.Shows T ConversationRows.From)
    (hquery : ∀ q ∈ x.query, ∃ uid, T.account uid ∧ q = recentsOf uid) :
    s.Below ((Screens.conversationWatch n).set x s)
      ∧ T.Shows ((Screens.conversationWatch n).set x s) := by
  refine ⟨{ Screens.Below.refl s with conversations := ?_ },
    { hs with conversations := ?_, conversationQuery := ?_ }⟩
  · exact forall_update
      (P := fun n (y : Watch ConversationRows) =>
        ∀ q ∈ (s.conversations n).query, y.query = some q)
      (fun _ _ h => h) hkeep
  · exact forall_update
      (P := fun _ (y : Watch ConversationRows) => y.Shows T ConversationRows.From)
      hs.conversations hx
  · exact forall_update
      (P := fun _ (y : Watch ConversationRows) =>
        ∀ q ∈ y.query, ∃ uid, T.account uid ∧ q = recentsOf uid)
      hs.conversationQuery hquery

theorem assign_chats {k : Nat} {x : ChatController} (hs : T.Shows s)
    (huser : ∀ user ∈ (s.chats k).user, x.user = some user)
    (hkeep : ∀ q ∈ (s.chats k).watch.query, x.watch.query = some q)
    (hx : x.watch.Shows T ChatRows.From)
    (hup : (s.chats k).watch.controller.UpTo x.watch.controller)
    (hquery : ∀ q ∈ x.watch.query,
      ∃ uid user, T.account uid ∧ x.user = some user ∧ q = conversationOf uid user.uid) :
    s.Below (s.mapChat k fun _ => x) ∧ T.Shows (s.mapChat k fun _ => x) := by
  refine ⟨{ Screens.Below.refl s with users := ?_, chats := ?_, chat := ?_ },
    { hs with chats := ?_, chatQuery := ?_ }⟩
  · exact forall_update
      (P := fun k (y : ChatController) => ∀ user ∈ (s.chats k).user, y.user = some user)
      (fun _ _ h => h) huser
  · exact forall_update
      (P := fun k (y : ChatController) =>
        ∀ q ∈ (s.chats k).watch.query, y.watch.query = some q)
      (fun _ _ h => h) hkeep
  · exact forall_update
      (P := fun k (y : ChatController) =>
        (s.chats k).watch.controller.UpTo y.watch.controller)
      (fun _ => List.prefix_rfl) hup
  · exact forall_update (P := fun _ (y : ChatController) => y.watch.Shows T ChatRows.From)
      hs.chats hx
  · exact forall_update
      (P := fun _ (y : ChatController) => ∀ q ∈ y.watch.query,
        ∃ uid user, T.account uid ∧ y.user = some user ∧ q = conversationOf uid user.uid)
      hs.chatQuery hquery

variable {ρ : Type} {watch : Var Screens (Watch ρ)} {fits : (Doc → Prop) → ρ → Prop}
  {upTo : ρ → ρ → Prop} {assign : Turn → ρ → Option (List DocumentChange) → ρ}

/-- A listener of the session, which may report while its query stays. -/
structure Terms.Watches (T : Terms) (watch : Var Screens (Watch ρ))
    (fits : (Doc → Prop) → ρ → Prop) (upTo : ρ → ρ → Prop) : Prop where
  query : ∀ {s s' : Screens}, s.Below s' → ∀ q ∈ (watch.get s).query, (watch.get s').query = some q
  shows : ∀ {s : Screens}, T.Shows s → (watch.get s).Shows T fits
  set : ∀ {s : Screens}, T.Shows s → ∀ {x : Watch ρ}, x.query = (watch.get s).query →
    x.Shows T fits → upTo (watch.get s).controller x.controller →
    s.Below (watch.set x s) ∧ T.Shows (watch.set x s)

theorem watches_comments (d : Nat) :
    T.Watches (Screens.commentWatch d) CommentRows.From CommentRows.UpTo where
  query h q hq := h.comments d q hq
  shows h := h.comments d
  set {s} hs {x} hquery hx hup := by
    refine assign_comments hs (fun q hq => hquery.trans hq) hx hup fun q hq => ?_
    rw [hquery] at hq
    exact hs.commentQuery d q hq

theorem watches_conversations (n : Nat) :
    T.Watches (Screens.conversationWatch n) ConversationRows.From ConversationRows.UpTo where
  query h q hq := h.conversations n q hq
  shows h := h.conversations n
  set {s} hs {x} hquery hx _ := by
    refine assign_conversations hs (fun q hq => hquery.trans hq) hx fun q hq => ?_
    rw [hquery] at hq
    exact hs.conversationQuery n q hq

theorem watches_chats (k : Nat) :
    T.Watches (Screens.chatWatch k) ChatRows.From ChatRows.UpTo where
  query h q hq := h.chats k q hq
  shows h := h.chats k
  set {s} hs {x} hquery hx hup := by
    refine assign_chats (x := { s.chats k with watch := x }) hs (fun _ h => h)
      (fun q hq => hquery.trans hq) hx hup fun q hq => ?_
    rw [show ({ s.chats k with watch := x } : ChatController).watch.query = x.query from rfl,
      hquery] at hq
    exact hs.chatQuery k q hq

/-- A snapshot is of the query that has been asked, and that is still listened to. -/
theorem shows_snapshot (hwatch : T.Watches watch fits upTo)
    (hfits : Hears fits upTo assign)
    {modified : List String} : (Watch.snapshot watch assign modified).GrowsFrom T.showing e s := by
  unfold Watch.snapshot
  rw [Prog.growsFrom_read]
  split
  next => trivial
  next q hq =>
    refine ⟨trivial, fun result hresult e' _ s' hle hs' => ?_, trivial⟩
    have hq' := hwatch.query hle q hq
    have hstored : ∀ documents ∈ result, ∀ x ∈ documents,
        T.stored (q.collection ++ [x.1]) x.2 :=
      fun documents hdocuments x hx => (hresult documents hdocuments x hx).1
    have hshows := (hwatch.shows hs').hear hfits hq' hstored e' modified
    obtain ⟨hbelow, hstate⟩ := hwatch.set hs'
      (x := (watch.get s').hear (assign e') result modified) rfl hshows
      (hfits.grow e' _ (hwatch.shows hs').rows)
    exact ⟨hbelow, hstate, trivial⟩

/-- The first listener of a controller. -/
theorem shows_addSnapshotListener (hwatch : T.Watches watch fits upTo)
    (hfits : Hears fits upTo assign)
    {q : Query}
    (hnew : s.Below (watch.set { watch.get s with query := some q } s)
      ∧ T.Shows (watch.set { watch.get s with query := some q } s)) :
    (Watch.addSnapshotListener watch assign q).GrowsFrom T.showing e s :=
  ⟨hnew.1, hnew.2, shows_snapshot hwatch hfits⟩

theorem shows_fetchComments {d : Nat} (hs : T.Shows s) :
    (CommentController.fetchComments d).GrowsFrom T.showing e s := by
  unfold CommentController.fetchComments
  rw [Prog.growsFrom_read]
  split
  next post hpost hnone =>
    have hwatch := (hs.comments d).listen hears_comments hnone (commentsOf post.postId)
    exact shows_addSnapshotListener (watches_comments d) hears_comments
      (assign_comments hs (of_mem_none hnone) hwatch List.prefix_rfl
        fun q hq => ⟨post, hpost, (Option.some.inj hq).symm⟩)
  next => trivial

theorem shows_fetchConversations {n : Nat} (he : T.contract.env e) (hs : T.Shows s) :
    (ConversationsController.fetchConversations n).GrowsFrom T.showing e s := by
  unfold ConversationsController.fetchConversations
  rw [Prog.growsFrom_read]
  split
  next => trivial
  next hnone =>
    refine grows_withCurrentUid fun uid huid => ?_
    have hwatch := (hs.conversations n).listen hears_conversations hnone (recentsOf uid)
    exact shows_addSnapshotListener (watches_conversations n) hears_conversations
      (assign_conversations hs (of_mem_none hnone) hwatch
        fun q hq => ⟨uid, he uid huid, (Option.some.inj hq).symm⟩)

/-- A chat listens to the conversation of the account with its partner. -/
theorem shows_fetchMessages {k : Nat} {user : User} (he : T.contract.env e) (hs : T.Shows s)
    (huser : (s.chats k).user = some user) (hnone : (s.chats k).watch.query = none) :
    (MessagingService.fetchMessages user (Screens.chatWatch k)).GrowsFrom T.showing e s := by
  refine grows_withCurrentUid fun uid huid => ?_
  have hwatch := (hs.chats k).listen hears_chats hnone (conversationOf uid user.uid)
  exact shows_addSnapshotListener (watches_chats k) hears_chats
    (assign_chats (x := { s.chats k with watch := _ }) hs (fun _ h => h) (of_mem_none hnone)
      hwatch List.prefix_rfl fun q hq => ⟨uid, user, he uid huid, huser, (Option.some.inj hq).symm⟩)

/-- It is pushed once, for one partner. -/
theorem shows_chatPush {k : Nat} {user : User} (he : T.contract.env e) (hs : T.Shows s) :
    (ChatController.push k user).GrowsFrom T.showing e s := by
  unfold ChatController.push
  rw [Prog.growsFrom_read]
  split
  next => trivial
  next hnone =>
    have hquery : (s.chats k).watch.query = none := by
      cases hq : (s.chats k).watch.query with
      | none => rfl
      | some q =>
        obtain ⟨uid, user, -, huser, -⟩ := hs.chatQuery k q hq
        rw [hnone] at huser
        exact absurd huser (by simp)
    obtain ⟨hbelow, hstate⟩ := assign_chats (x := { s.chats k with user := some user }) hs
      (of_mem_none hnone) (fun _ h => h) (hs.chats k) List.prefix_rfl (of_mem_none hquery)
    have hchat : (s.mapChat k fun chat => { chat with user := some user }).chats k
        = { s.chats k with user := some user } := Function.update_self ..
    refine ⟨hbelow, hstate, shows_fetchMessages he hstate ?_ ?_⟩
    · rw [hchat]
    · rw [hchat]
      exact hquery

/-! ### Lists of users -/

/-- A user that has been decoded has the uid of his document. -/
theorem Terms.lists_decoded {uid : String} {d : Doc} (h : T.stored ["users", uid] d) :
    (User.init d).uid = uid ∧ ∃ d', T.stored ["users", (User.init d).uid] d'
      ∧ User.init d = User.init d' := by
  have huid : (User.init d).uid = uid := by
    show (d.string "uid").getD "" = uid
    rw [T.named uid d h]
    rfl
  refine ⟨huid, d, ?_, rfl⟩
  rw [huid]
  exact h

/-- A list may be assigned as long as it keeps what it is of, and holds only who belongs there. -/
theorem shows_mapList {n : Nat} {f : UserList → UserList} {rest : Program Screens} (hs : T.Shows s)
    (hconfig : ∀ config ∈ (s.lists n).config, (f (s.lists n)).config = some config)
    (hholds : (f (s.lists n)).Holds T)
    (hrest : s.Below (s.mapList n f) → T.Shows (s.mapList n f) →
      rest.GrowsFrom T.showing e (s.mapList n f)) :
    (Prog.modify (·.mapList n f) rest : Program Screens).GrowsFrom T.showing e s := by
  have hstate : T.Shows (s.mapList n f) := by
    refine { hs with lists := ?_ }
    exact forall_update (P := fun _ (y : UserList) => y.Holds T) hs.lists hholds
  have hbelow : s.Below (s.mapList n f) := by
    refine { Screens.Below.refl s with lists := ?_ }
    exact forall_update
      (P := fun n (y : UserList) => ∀ config ∈ (s.lists n).config, y.config = some config)
      (fun _ _ h => h) hconfig
  exact ⟨hbelow, hstate, hrest hbelow hstate⟩

theorem shows_listPush {n : Nat} {config : UserFilterConfig} (hs : T.Shows s) :
    (UserList.push n config).GrowsFrom T.showing e s := by
  unfold UserList.push
  rw [Prog.growsFrom_read]
  split
  next => trivial
  next hnone =>
    have hnobody : ∀ {user : User}, ¬ ∃ config, (s.lists n).config = some config
        ∧ T.Lists config user := by
      rintro user ⟨config', hconfig, -⟩
      rw [hnone] at hconfig
      exact absurd hconfig (by simp)
    obtain ⟨hfetched, husers, hfiltered⟩ := hs.lists n
    refine shows_mapList hs (of_mem_none hnone) ⟨?_, ?_, ?_⟩ fun _ _ => trivial
    · exact fun user h => absurd (hfetched user h) hnobody
    · exact fun user h => absurd (husers user h) hnobody
    · exact fun user h => absurd (hfiltered user h) hnobody

/-- From the header of a profile. -/
theorem shows_pushRelation {config : String → UserFilterConfig} {m n : Nat} (hs : T.Shows s) :
    (UserList.pushRelation config m n).GrowsFrom T.showing e s := by
  unfold UserList.pushRelation
  rw [Prog.growsFrom_read]
  split
  next => exact shows_listPush hs
  next => trivial

/-- The rows react to what the user types, and to what has been fetched. -/
theorem shows_react {strings : StringOps} {n : Nat} {ev : SearchRowsEvent}
    (hs : T.Shows s)
    (hholds : (s.lists n).Holds T → ((s.lists n).react strings ev).Holds T) :
    (Prog.modify (·.mapList n (UserList.react strings ev)) .done : Program Screens).GrowsFrom
      T.showing e s := by
  have hconfig : ((s.lists n).react strings ev).config = (s.lists n).config := by
    unfold UserList.react
    split
    next => rfl
    next => rfl
  exact shows_mapList hs (fun config h => hconfig.trans h) (hholds (hs.lists n)) fun _ _ => trivial

/-- What is found is among the users. -/
theorem UserList.Holds.search {strings : StringOps} {list : UserList} (h : list.Holds T)
    (isActive : Bool) (text : String) :
    (list.react strings (.updateSearchResults isActive text)).Holds T := by
  unfold UserList.react
  split
  next =>
    exact ⟨h.fetched, h.users, fun user huser => h.users user (List.mem_of_mem_filter huser)⟩
  next => exact h

theorem UserList.Holds.cancel {strings : StringOps} {list : UserList} (h : list.Holds T) :
    (list.react strings .searchBarCancelButtonClicked).Holds T := by
  unfold UserList.react
  split
  next => exact ⟨h.fetched, h.users, h.filteredUsers⟩
  next => exact h

/-- Users of the list may be shown. -/
theorem UserList.Holds.didFetchUsers {strings : StringOps} {list : UserList}
    (h : list.Holds T) {users : List User}
    (husers : ∀ user ∈ users, ∃ config, list.config = some config ∧ T.Lists config user) :
    (list.react strings (.didFetchUsers users)).Holds T := by
  unfold UserList.react
  split
  next => exact ⟨h.fetched, husers, h.filteredUsers⟩
  next => exact h

/-- The users of the collection of a list, one after the other. -/
theorem shows_fetchUsersFromCollection {strings : StringOps} {n : Nat}
    {config : UserFilterConfig} {collection : Path} (hs : T.Shows s)
    (hconfig : (s.lists n).config = some config)
    (hcollection : config.collection = some collection) :
    (UserService.fetchUsersFromCollection collection (Screens.fetched n) fun users =>
      .modify (·.mapList n (UserList.react strings (.didFetchUsers users))) .done).GrowsFrom
      T.showing e s := by
  refine shows_mapList (f := fun list => { list with fetched := [] }) hs (fun _ h => h)
    ⟨fun _ h => absurd h List.not_mem_nil, (hs.lists n).users, (hs.lists n).filteredUsers⟩
    fun hbelow hs' => ?_
  refine ⟨trivial, fun snapshot hsnapshot e' _ t ht hst => ?_, trivial⟩
  cases snapshot with
  | none => trivial
  | some documents =>
    refine Prog.growsFrom_forEach hst fun document hdocument t' ht' hst' => ?_
    have hmark := (hsnapshot documents rfl document hdocument).1
    refine ⟨trivial, fun snapshot hsnapshot e'' _ u hu hsu => ?_, trivial⟩
    dsimp only
    split
    next => trivial
    next dictionary hdictionary =>
      obtain ⟨found, hfound, hdata⟩ := Option.bind_eq_some_iff.mp hdictionary
      -- the list is still of the same collection
      have hconfig' : (u.lists n).config = some config := by
        have hle : s.Below u := hbelow.trans (Screens.Below.trans ht (ht'.trans hu))
        exact hle.lists n config hconfig
      obtain ⟨huid, hdecoded⟩ := T.lists_decoded ((hsnapshot found hfound).2 dictionary hdata)
      have hlists : T.Lists config (User.init dictionary) := by
        refine ⟨hdecoded, fun collection' hcollection' => ⟨document.2, ?_⟩⟩
        rw [huid, Option.some.inj (hcollection'.symm.trans hcollection)]
        exact hmark
      refine shows_mapList (f := fun list =>
        { list with fetched := (u.lists n).fetched ++ [User.init dictionary] }) hsu (fun _ h => h)
        ⟨fun user huser => ?_, (hsu.lists n).users, (hsu.lists n).filteredUsers⟩
        fun hbelow' hsv => ?_
      · rcases List.mem_append.mp huser with huser | huser
        · exact (hsu.lists n).fetched user huser
        · rw [List.mem_singleton.mp huser]
          exact ⟨config, hconfig', hlists⟩
      · rw [Prog.growsFrom_read]
        exact shows_react hsv fun h => h.didFetchUsers h.fetched

/-- `viewDidLoad` of a list. -/
theorem shows_fetchUsers {strings : StringOps} {n : Nat} (hs : T.Shows s) :
    (UserList.fetchUsers strings n).GrowsFrom T.showing e s := by
  unfold UserList.fetchUsers
  rw [Prog.growsFrom_read]
  split
  next => trivial
  next config hconfig =>
    split
    next => trivial
    next =>
      obtain ⟨hfetched, husers, hfiltered⟩ := hs.lists n
      refine shows_mapList hs (fun _ h => h) ⟨hfetched, husers, hfiltered⟩ fun hbelow hs' => ?_
      have hconfig' := hbelow.lists n config hconfig
      have hall : config.collection = none →
          (UserService.fetchUsers .all (Screens.fetched n) fun users =>
            (.modify (·.mapList n (UserList.react strings (.didFetchUsers users))) .done :
              Program Screens)).GrowsFrom T.showing e
            (s.mapList n fun list => { list with loaded := true }) := by
        intro hnone
        refine ⟨trivial, fun snapshot hsnapshot e' _ t ht hst => ?_, trivial⟩
        cases snapshot with
        | none => trivial
        | some documents =>
          refine shows_react hst fun h => h.didFetchUsers fun user huser => ?_
          obtain ⟨document, hdocument, rfl⟩ := List.mem_map.mp huser
          have hstored := (hsnapshot documents rfl document hdocument).1
          exact ⟨config, ht.lists n config hconfig', (T.lists_decoded hstored).2,
            of_mem_none hnone⟩
      cases config with
      | followers uid => exact shows_fetchUsersFromCollection hs' hconfig' rfl
      | following uid => exact shows_fetchUsersFromCollection hs' hconfig' rfl
      | likes postId => exact shows_fetchUsersFromCollection hs' hconfig' rfl
      | messages => exact hall rfl
      | all => exact hall rfl

/-! ### Edits -/

/-- The edit of a profile of `uid`, as a part of the session. -/
def Terms.editing (T : Terms) (uid : String) : Growth Request Response Turn EditSession where
  toContract := T.edit (some uid)
  le _ _ := True
  refl _ := trivial
  trans _ _ := trivial

/-- An edit is assigned. -/
theorem below_edits {k : Nat} (edit : EditScreen) (hs : T.Shows s) (hedit : edit.Edits s.client)
    (hdelegate : ∀ old ∈ s.edits k, edit.delegate = old.delegate) :
    s.Below { s with edits := Function.update s.edits k (some edit) }
      ∧ T.Shows { s with edits := Function.update s.edits k (some edit) } := by
  refine ⟨{ Screens.Below.refl s with edits := ?_ }, { hs with edits := ?_ }⟩
  · refine forall_update (P := fun k (y : Option EditScreen) => ∀ edit ∈ s.edits k,
      ∃ edit', y = some edit' ∧ edit'.delegate = edit.delegate) (fun _ edit h => ⟨edit, h, rfl⟩)
      fun old hold => ⟨edit, rfl, hdelegate old hold⟩
  · refine forall_update (P := fun _ (y : Option EditScreen) => ∀ edit ∈ y, edit.Edits s.client)
      hs.edits fun new hnew => ?_
    rw [← Option.some.inj hnew]
    exact hedit

/-- While an edit is on screen, its profile stays the same. -/
theorem part_edit {k : Nat} {edit : EditScreen} (hs : T.Shows s) (hedit : s.edits k = some edit) :
    (T.editing (s.client.profiles edit.delegate).user.uid).Part T.showing (Screens.session k)
      (Screens.setSession k) s := by
  have hstate : ∀ u, s.Below u → T.Shows u → ∃ edit', u.edits k = some edit'
      ∧ edit'.Edits u.client
      ∧ (u.client.profiles edit'.delegate).user.uid
          = (s.client.profiles edit.delegate).user.uid := by
    intro u hle hu
    obtain ⟨edit', hedit', hdelegate⟩ := hle.edits k edit hedit
    refine ⟨edit', hedit', hu.edits k edit' hedit', ?_⟩
    rw [hdelegate]
    exact (hle.client.loaded edit.delegate (hs.edits k edit hedit).loaded).2
  refine ⟨fun _ h => h, fun _ _ _ => trivial, fun _ _ h => h, ?_,
    fun _ _ _ _ _ _ _ _ _ _ => trivial, ?_⟩
  · intro u hle hu session hsession uid huid
    obtain ⟨edit', hedit', hedits, hsame⟩ := hstate u hle hu
    unfold Screens.session at hsession
    rw [hedit'] at hsession
    rw [← Option.some.inj hsession, ← Option.some.inj huid, ← hsame]
    exact ⟨hedits.user, hedits.profileUser⟩
  · intro u hle hu session session' hsession _ hsession'
    obtain ⟨edit', hedit', hedits, hsame⟩ := hstate u hle hu
    obtain ⟨huser, hprofileUser⟩ := hsession' _ rfl
    have hset : Screens.setSession k session' u = { u with
        edits := Function.update u.edits k (some { edit' with session := session' }) } := by
      unfold Screens.setSession
      rw [hedit']
      rfl
    have hassigned := below_edits (k := k) { edit' with session := session' } hu
      ⟨hedits.loaded, huser.trans hsame.symm, hprofileUser.trans hsame.symm⟩ fun old hold => by
        rw [hedit'] at hold
        rw [← Option.some.inj hold]
    rw [hset]
    refine ⟨hassigned.1, hassigned.2, ?_⟩
    unfold Screens.session
    rw [show ({ u with edits := Function.update u.edits k _ } : Screens).edits k = _ from
      Function.update_self ..]
    rfl

theorem shows_edit {k : Nat} (a : EditAction) (he : T.contract.env e) (hs : T.Shows s) :
    (onEdit k a.program).GrowsFrom T.showing e s := by
  unfold onEdit
  rw [Prog.growsFrom_read]
  split
  next hsome =>
    obtain ⟨session, hsession⟩ := Option.isSome_iff_exists.mp hsome
    obtain ⟨edit, hedit, heq⟩ := Option.map_eq_some_iff.mp hsession
    have hpart := part_edit hs hedit
    have hgood := hpart.state s (.refl s) hs session hsession
    exact Prog.GrowsFrom.zoom ((a.contract he).growsFrom (fun _ _ => trivial) hgood) hpart
      hsession hs
  next => trivial

/-- The profile whose header has been tapped is loaded. -/
theorem shows_editPresent {m k : Nat} (hs : T.Shows s) :
    (EditScreen.present m k).GrowsFrom T.showing e s := by
  unfold EditScreen.present
  rw [Prog.growsFrom_read]
  split
  next user tabUser hheader _ hnone =>
    rw [Prog.growsFrom_ask]
    split
    next =>
      have hloaded : (s.client.profiles m).loaded = true := by
        by_contra hunloaded
        have hnothing := ((hs.profiles m).unloaded (by simpa using hunloaded)).2.1
        rw [hheader] at hnothing
        exact absurd hnothing (by simp)
      have hassigned := below_edits (k := k)
        ⟨m, EditSession.opened (s.client.profiles m).user⟩ hs ⟨hloaded, rfl, rfl⟩
        fun old hold => by
          rw [hnone] at hold
          exact absurd hold (by simp)
      exact ⟨hassigned.1, hassigned.2, trivial⟩
    next => trivial
  next => trivial

/-- The profile is given the edited user, who is its own. -/
theorem shows_editUpdate {k : Nat} (hs : T.Shows s) :
    (EditScreen.wantsToUpdate k).GrowsFrom T.showing e s := by
  unfold EditScreen.wantsToUpdate
  rw [Prog.growsFrom_read]
  split
  next edit hedit =>
    have huid := (hs.edits k edit hedit).profileUser
    refine shows_onClient (grows_inProfile hs.profiles rfl huid ?_ fun _ => trivial) hs
    exact (hs.profiles edit.delegate).setUser huid
  next => trivial

/-! ### All of them -/

/-- The services that change nothing on screen. -/
theorem shows_of_spares {p : Program Screens} (h : p.Spares (fun _ => True) id) (hs : T.Shows s) :
    p.GrowsFrom T.showing e s := by
  refine h.growsFrom (fun _ _ _ => trivial) (fun s s' heq => ?_) (fun s s' heq hs => ?_) hs
  · rw [show s' = s from heq]
    exact .refl s
  · rw [show s' = s from heq]
    exact hs

theorem shows_conversationsSelect {n row k : Nat} (hs : T.Shows s) :
    (ConversationsController.didSelectRowAt n row k).GrowsFrom T.showing e s := by
  have hloader : ∀ {e : Turn} {s : Screens} (isShown : Bool), T.Shows s →
      (onClient (showLoader isShown)).GrowsFrom T.showing e s :=
    fun isShown hs =>
      shows_onClient (grows_of_spares (sparesShow_showLoader trivial) hs.profiles) hs
  unfold ConversationsController.didSelectRowAt
  rw [Prog.growsFrom_read]
  split
  next conversation _ =>
    refine (hloader true hs).andThen hs fun s' _ _ => ?_
    refine ⟨trivial, fun snapshot _ e' he' s'' _ hs'' => ?_, trivial⟩
    dsimp only
    split
    next => trivial
    next => exact (hloader false hs'').andThen hs'' fun t _ ht => shows_chatPush he' ht
  next => trivial

/-- Has the profile that the action is about been loaded? -/
def Screens.Displays (screens : Screens) : ScreenAction → Prop
  | .app a => screens.client.Displays a
  | _ => True

instance (screens : Screens) (a : ScreenAction) : Decidable (screens.Displays a) := by
  unfold Screens.Displays
  split <;> infer_instance

theorem ScreenAction.shows (strings : StringOps) (a : ScreenAction)
    (he : T.contract.env e) (hs : T.Shows s) (ha : s.Displays a) :
    (a.program strings).GrowsFrom T.showing e s := by
  cases a with
  | app a => exact shows_onClient (a.grows hs.profiles ha) hs
  | register credentials =>
    exact shows_onClient (grows_of_spares sparesShow_handleSignUp hs.profiles) hs
  | tabProfile m =>
    refine shows_onClient ?_ hs
    unfold MainTabController.showProfile
    rw [Prog.growsFrom_read]
    split
    next => exact grows_profilePush hs.profiles
    next => trivial
  | feedProfile c cell m =>
    refine shows_onClient ?_ hs
    unfold FeedController.wantsToShowProfileFor
    rw [Prog.growsFrom_read]
    split
    next => exact grows_fetchProfile
    next => trivial
  | feedLikes c cell n =>
    show (UserList.pushLikes c cell n).GrowsFrom T.showing e s
    unfold UserList.pushLikes
    rw [Prog.growsFrom_read]
    split
    next => exact shows_listPush hs
    next => trivial
  | inboxSelect n row m => exact shows_onClient (grows_inboxSelect hs.profiles) hs
  | profileFollowers m n => exact shows_pushRelation hs
  | profileFollowing m n => exact shows_pushRelation hs
  | searchTab n => exact shows_listPush hs
  | newMessage n => exact shows_listPush hs
  | usersDidLoad n => exact shows_fetchUsers hs
  | usersSearch n isActive text => exact shows_react hs fun h => h.search isActive text
  | usersCancel n => exact shows_react hs fun h => h.cancel
  | usersSelect n row k =>
    show (UserList.didSelectRowAt n row k).GrowsFrom T.showing e s
    unfold UserList.didSelectRowAt
    rw [Prog.growsFrom_read]
    split
    next => exact shows_chatPush he hs
    next => exact shows_onClient (grows_profilePush hs.profiles) hs
    next => trivial
  | commentsDidLoad d => exact shows_fetchComments hs
  | commentsSnapshot d modified => exact shows_snapshot (watches_comments d) hears_comments
  | commentsSelect d row m =>
    show (CommentController.didSelectItemAt d row m).GrowsFrom T.showing e s
    unfold CommentController.didSelectItemAt
    rw [Prog.growsFrom_read]
    split
    next => exact shows_onClient grows_fetchProfile hs
    next => trivial
  | conversationsDidLoad n => exact shows_fetchConversations he hs
  | conversationsSnapshot n modified =>
    exact shows_snapshot (watches_conversations n) hears_conversations
  | conversationsSelect n row k => exact shows_conversationsSelect hs
  | chatSnapshot k modified => exact shows_snapshot (watches_chats k) hears_chats
  | chatSend k text =>
    refine shows_of_spares (spares_withUser fun user => spares_withCurrentUid fun uid => ?_) hs
    intro turn turn'
    refine spares_write trivial fun error => .andThen (fun turn => spares_silent trivial) ?_
    exact .andThen (spares_silent trivial) (spares_silent trivial)
  | editPresent m k => exact shows_editPresent hs
  | edit k a => exact shows_edit a he hs
  | editUpdate k => exact shows_editUpdate hs
  | chatDelete k =>
    refine shows_of_spares (spares_withUser fun user => spares_withCurrentUid fun uid => ?_) hs
    refine .andThen (spares_getDocuments trivial fun snapshot => ?_) (spares_silent trivial)
    exact .forEach fun document => spares_silent trivial
  | feedAfterFollowing m =>
    refine shows_onClient (grows_of_spares (fun client => ?_) hs.profiles) hs
    dsimp only
    split
    next =>
      refine spares_withCurrentUid fun uid => spares_getDocuments trivial fun snapshot => ?_
      split
      next => trivial
      next => exact .forEach fun document => spares_silent trivial
    next => trivial

end Programs

/-! ## Runs -/

/-- Profiles are used when they are on screen. -/
def Displayed {S : Type} (w : AppWorld Screens S) : AppEvent S ScreenAction → Prop
  | .invoke s a _ => (w.client s).Displays a
  | _ => True

instance {S : Type} (w : AppWorld Screens S) (ev : AppEvent S ScreenAction) :
    Decidable (Displayed w ev) :=
  match ev with
  | .invoke _ _ _ => inferInstanceAs (Decidable (Screens.Displays _ _))
  | .serve _ _ => isTrue trivial
  | .deliver _ _ => isTrue trivial
  | .drop _ => isTrue trivial

section Runs

variable {S : Type} [DecidableEq S] {strings : StringOps} {V : S → String → Prop}
  {ok : AppWorld Screens S → AppEvent S ScreenAction → Prop} {w : AppWorld Screens S}
  {es : List (AppEvent S ScreenAction)} {s : S}

/-- The screens go up, in runs along which what is stored is known. -/
theorem grows_run {T : S → Terms} {w₀ : AppWorld Screens S}
    (h : w₀.Grows fun s => (T s).showing)
    (run : Run api (ScreenAction.program strings) ok w₀ es w)
    (hstored : ∀ w ev, ok w ev → ∀ s path d, w.backend.docs.lookup path = some d →
      (T s).stored path d)
    (hdevices : ∀ w ev, ok w ev → Devices (fun s => (T s).account) w ev)
    (hdisplayed : ∀ w ev, ok w ev → Displayed w ev) :
    w₀.GrowsTo (fun s => (T s).showing) w := by
  refine h.run run ?_ ?_ ?_
  · intro w i o s r k b' y hok hi hs
    exact Terms.replies_of_serve (hstored w _ hok s)
      ((hdevices w _ hok).2.registers hi (fun _ h => h) hs) hs
  · intro w s a e hok hstate he
    exact a.shows strings he hstate (hdisplayed w _ hok)
  · exact fun w ev hok => (hdevices w ev hok).1

omit [DecidableEq S] in
theorem grows_unused (T : S → Terms) :
    (unused : AppWorld Screens S).Grows fun s => (T s).showing :=
  ⟨fun s => (T s).shows_initial, fun _ hx => absurd hx List.not_mem_nil⟩

/-- **The screens show what they are about.** -/
theorem shows_run {T : S → Terms}
    (run : Run api (ScreenAction.program strings) ok unused es w)
    (hstored : ∀ w ev, ok w ev → ∀ s path d, w.backend.docs.lookup path = some d →
      (T s).stored path d)
    (hdevices : ∀ w ev, ok w ev → Devices (fun s => (T s).account) w ev)
    (hdisplayed : ∀ w ev, ok w ev → Displayed w ev) (s : S) : (T s).Shows (w.client s) :=
  (grows_run (grows_unused T) run hstored hdevices hdisplayed).grows.client s

/-- With the schema. -/
theorem shows_conforming (run : Run api (ScreenAction.program strings) ok unused es w)
    (hdevices : ∀ w ev, ok w ev → Devices V w ev)
    (hdisplayed : ∀ w ev, ok w ev → Displayed w ev) (s : S) :
    (conforming (V s)).Shows (w.client s) :=
  shows_run (T := fun s => conforming (V s))
    (run.always fun _ _ run => stored_conforms run) (fun _ _ hok _ => hok.2)
    (fun w ev hok => hdevices w ev hok.1) (fun w ev hok => hdisplayed w ev hok.1) s

/-- When a run goes on, the screens go up. -/
theorem screens_below {w₁ w₂ : AppWorld Screens S} {es₁ es₂ : List (AppEvent S ScreenAction)}
    (run₁ : Run api (ScreenAction.program strings) ok unused es₁ w₁)
    (run₂ : Run api (ScreenAction.program strings) ok w₁ es₂ w₂)
    (hok : ∀ w ev, ok w ev → Displayed w ev) (s : S) : (w₁.client s).Below (w₂.client s) := by
  have hstart : w₁.Grows fun _ => (conforming fun _ => True).showing :=
    (grows_run (grows_unused fun _ => conforming fun _ => True)
      (run₁.always fun _ _ run => stored_conforms run) (fun _ _ h _ => h.2)
      (fun w ev _ => devices_true w ev) fun w ev h => hok w ev h.1).grows
  exact (grows_run hstart
    (run₂.always fun _ _ run => stored_conforms (run₁.append run)) (fun _ _ h _ => h.2)
    (fun w ev _ => devices_true w ev) fun w ev h => hok w ev h.1).above s

/-- **A profile shows its own user**: his name in the header and his posts in the grid, however
late they come and whatever has been done with the profile meanwhile. And whatever is done with
it later, it stays the profile of the user it has been opened for. -/
theorem profiles_own (run : Run api (ScreenAction.program strings) ok unused es w)
    (hok : ∀ w ev, ok w ev → Displayed w ev) (s : S) (m : Nat) :
    ((w.client s).client.profiles m).Own
      ∧ ∀ es' w', Run api (ScreenAction.program strings) ok w es' w' →
        ((w.client s).client.profiles m).loaded = true →
        ((w'.client s).client.profiles m).loaded = true
          ∧ ((w'.client s).client.profiles m).user.uid
            = ((w.client s).client.profiles m).user.uid :=
  ⟨(shows_conforming run (fun w ev _ => devices_true w ev) hok s).profiles m,
    fun _ _ run' => (screens_below run run' hok s).client.loaded m⟩

/-- Ann, who has shared a post, opens her profile. -/
def profiling : List (AppEvent String ScreenAction) :=
  [.invoke "a" (.tabProfile 0) (turnWith "a" "t16")] ++ answered [] "t17" ++ answered [] "t18"
    ++ answered ["p"] "t19"

/-- Her post is in the grid, and the profile stays hers when she opens her list of followers. -/
theorem profiles_own_shared :
    ∃ w w', Run api (ScreenAction.program stringsASCII) Displayed unused (sharing ++ profiling) w
      ∧ Run api (ScreenAction.program stringsASCII) Displayed w
        [.invoke "a" (.profileFollowers 0 0) (turnWith "a" "t20")] w'
      ∧ ((w.client "a").client.profiles 0).posts ≠ []
      ∧ ((w.client "a").client.profiles 0).Own
      ∧ ((w'.client "a").client.profiles 0).user.uid
        = ((w.client "a").client.profiles 0).user.uid := by
  obtain ⟨w, w', run, run', hposts, hloaded⟩ : ∃ w w',
      Run api (ScreenAction.program stringsASCII) Displayed unused (sharing ++ profiling) w
      ∧ Run api (ScreenAction.program stringsASCII) Displayed w
        [.invoke "a" (.profileFollowers 0 0) (turnWith "a" "t20")] w'
      ∧ (((w.client "a").client.profiles 0).posts.map Post.postId) = ["p"]
      ∧ ((w.client "a").client.profiles 0).loaded = true :=
    exists_runs_of_play (by decide +kernel)
  obtain ⟨hown, hlater⟩ := profiles_own run (fun _ _ h => h) "a" 0
  refine ⟨w, w', run, run', fun hnil => ?_, hown, (hlater _ _ run' hloaded).2⟩
  rw [hnil] at hposts
  exact absurd hposts (by simp)

/-- **A list of followers shows nobody**, whoever follows whom: it reads a collection that
nothing is written to. -/
theorem followers_empty (run : Run api (ScreenAction.program strings) ok unused es w)
    (hok : ∀ w ev, ok w ev → Displayed w ev) {n : Nat} {uid : String}
    (hconfig : ((w.client s).lists n).config = some (.followers uid)) :
    ((w.client s).lists n).rows.shown = [] := by
  refine List.eq_nil_iff_forall_not_mem.mpr fun user huser => ?_
  obtain ⟨config, hconfig', hlists⟩ :=
    ((shows_conforming run (fun w ev _ => devices_true w ev) hok s).lists n).shown user huser
  rw [hconfig] at hconfig'
  obtain rfl := Option.some.inj hconfig'
  -- such a document would be in no collection of the app
  obtain ⟨d, hd⟩ := hlists.marked _ rfl
  obtain ⟨schema, hschema, -⟩ := (show Conforms _ d from hd).fits
  exact absurd hschema (by simp [schemaOf])

/-- The oldest request is served, and its callback runs in a turn of `uid` that draws `id`. -/
def answeredTo (uid id : String) (names : List String) : List (AppEvent String ScreenAction) :=
  [.serve 0 (.success names), .deliver 0 (turnWith uid id)]

/-- A user registers. -/
def joining (uid : String) : List (AppEvent String ScreenAction) :=
  [.invoke uid (.register ⟨uid ++ "@b", "secret", uid, uid, ⟨some "image"⟩⟩)
      { turnWith uid (uid ++ "0") with currentUid := none }]
    ++ answeredTo uid (uid ++ "1") [] ++ answeredTo uid (uid ++ "2") []
    ++ answeredTo uid (uid ++ "3") [uid] ++ answeredTo uid (uid ++ "4") []
    ++ answeredTo uid (uid ++ "5") []

/-- Bob follows Ann from her profile, -/
def following : List (AppEvent String ScreenAction) :=
  joining "a" ++ joining "b"
    ++ [.invoke "b" (.app (.showProfile 0 "a")) (turnWith "b" "b6")]
    ++ answeredTo "b" "b7" [] ++ answeredTo "b" "b8" [] ++ answeredTo "b" "b9" []
    ++ answeredTo "b" "b10" [] ++ answeredTo "b" "b11" [] ++ answeredTo "b" "b12" []
    ++ [.invoke "b" (.app (.profileHeader 0)) (turnWith "b" "b13"),
        .invoke "b" (.app (.headerTap 0)) (turnWith "b" "b14")]
    ++ answeredTo "b" "b15" [] ++ answeredTo "b" "b16" [] ++ answeredTo "b" "b17" []

/-- and she looks who follows her. -/
def counting : List (AppEvent String ScreenAction) :=
  [.invoke "a" (.tabProfile 0) (turnWith "a" "a6"),
    .invoke "a" (.app (.profileHeader 0)) (turnWith "a" "a7"),
    .invoke "a" (.profileFollowers 0 0) (turnWith "a" "a8"),
    .invoke "a" (.usersDidLoad 0) (turnWith "a" "a9"), .serve 3 (.success []),
    .deliver 3 (turnWith "a" "a10")]

/-- Bob is not in Ann's list. -/
theorem followers_empty_followed :
    ∃ w, Run api (ScreenAction.program stringsASCII) Displayed unused (following ++ counting) w
      ∧ w.backend.exists ["followers", "a", "user-followers", "b"] = true
      ∧ ((w.client "a").lists 0).loaded = true ∧ ((w.client "a").lists 0).rows.shown = [] := by
  obtain ⟨w, run, hfollows, hloaded, hconfig⟩ : ∃ w,
      Run api (ScreenAction.program stringsASCII) Displayed unused (following ++ counting) w
      ∧ w.backend.exists ["followers", "a", "user-followers", "b"] = true
      ∧ ((w.client "a").lists 0).loaded = true
      ∧ ((w.client "a").lists 0).config = some (.followers "a") :=
  exists_run_of_play (by decide +kernel)
  exact ⟨w, run, hfollows, hloaded, followers_empty run (fun _ _ h => h) hconfig⟩


/-- Ann comments on her post from the feed. -/
def commenting : List (AppEvent String ScreenAction) :=
  [.invoke "a" (.app (.feedCell 0 0 0)) (turnWith "a" "t16"),
    .invoke "a" (.app (.commentsTap 0 0 0)) (turnWith "a" "t17"),
    .invoke "a" (.commentsDidLoad 0) (turnWith "a" "t18"),
    .invoke "a" (.app (.postComment 0 "hi")) (turnWith "a" "t19")]
    ++ answered [] "t20" ++ answered [] "t21"
    ++ [.invoke "a" (.commentsSnapshot 0 []) (turnWith "a" "t22")] ++ answered ["t19"] "t23"

/-- **A chat shows messages between the account and its partner**, in either direction. -/
theorem chat_sides (run : Run api (ScreenAction.program strings) ok unused es w)
    (hok : ∀ w ev, ok w ev → Devices V w ev ∧ Displayed w ev) {k : Nat} {message : Message}
    (h : message ∈ ((w.client s).chats k).watch.controller.messages) :
    ∃ uid user, V s uid ∧ ((w.client s).chats k).user = some user
      ∧ (user.uid ≠ recentMessages → Sides message.fromId message.toId uid user.uid) := by
  have hshows :=
    shows_conforming run (fun w ev h => (hok w ev h).1) (fun w ev h => (hok w ev h).2) s
  obtain ⟨currentUid, data, ⟨q, hq, id, hconforms⟩, rfl⟩ := (hshows.chats k).rows.1 message
    ((hshows.chats k).rows.2 ▸ h)
  obtain ⟨uid, user, huid, huser, rfl⟩ := hshows.chatQuery k q hq
  refine ⟨uid, user, huid, huser, fun hname => ?_⟩
  obtain ⟨sender, receiver, hsender, hreceiver, hsides⟩ := hconforms.message uid user.uid id rfl
  show Sides ((data.string "fromId").getD "") ((data.string "toId").getD "") uid user.uid
  rw [hsender, hreceiver]
  exact hsides.resolve_right fun h => hname h.1

/-- Ann writes to Bob. -/
def chatting : List (AppEvent String ScreenAction) :=
  joining "a" ++ joining "b"
    ++ [.invoke "a" (.newMessage 0) (turnWith "a" "a6"),
        .invoke "a" (.usersDidLoad 0) (turnWith "a" "a7")]
    ++ answeredTo "a" "a8" ["a", "b"] ++ [.invoke "a" (.usersSelect 0 1 0) (turnWith "a" "a9")]
    ++ answeredTo "a" "a10" [] ++ [.invoke "a" (.chatSend 0 "hi") (turnWith "a" "a11")]
    ++ answeredTo "a" "a12" [] ++ answeredTo "a" "a13" [] ++ answeredTo "a" "a14" []
    ++ answeredTo "a" "a15" []

/-- Every device is signed in to the account of its name, and profiles are used on screen. -/
def OwnDevices (w : AppWorld Screens String) (ev : AppEvent String ScreenAction) : Prop :=
  Devices (fun s uid => uid = s) w ev ∧ Displayed w ev

instance (w : AppWorld Screens String) (ev : AppEvent String ScreenAction) :
    Decidable (OwnDevices w ev) :=
  inferInstanceAs (Decidable (_ ∧ _))

/-- Her chat with him shows the message. -/
theorem chat_sides_sent :
    ∃ w, Run api (ScreenAction.program stringsASCII) OwnDevices unused
        (chatting ++ [.invoke "a" (.chatSnapshot 0 []) (turnWith "a" "a16")]
          ++ answeredTo "a" "a17" ["a11"]) w
      ∧ ∃ message ∈ ((w.client "a").chats 0).watch.controller.messages,
        ∃ uid user, uid = "a" ∧ ((w.client "a").chats 0).user = some user
          ∧ (user.uid ≠ recentMessages → Sides message.fromId message.toId uid user.uid) := by
  obtain ⟨w, run, hone⟩ : ∃ w, Run api (ScreenAction.program stringsASCII) OwnDevices unused
      (chatting ++ [.invoke "a" (.chatSnapshot 0 []) (turnWith "a" "a16")]
        ++ answeredTo "a" "a17" ["a11"]) w
      ∧ ((w.client "a").chats 0).watch.controller.messages.length = 1 :=
    exists_run_of_play (by decide +kernel)
  obtain ⟨message, hmessage⟩ := List.exists_mem_of_length_eq_add_one hone
  exact ⟨w, run, message, hmessage, chat_sides run (fun _ _ h => h) hmessage⟩


/-- **The list of conversations is of the account**: every entry is a message from it or to
it. -/
theorem conversations_of_account (run : Run api (ScreenAction.program strings) ok unused es w)
    (hok : ∀ w ev, ok w ev → Devices V w ev ∧ Displayed w ev) {n : Nat} {message : Message}
    (h : message ∈ ((w.client s).conversations n).controller.conversations) :
    ∃ uid, V s uid ∧ (uid = message.fromId ∨ uid = message.toId) := by
  have hshows :=
    shows_conforming run (fun w ev h => (hok w ev h).1) (fun w ev h => (hok w ev h).2) s
  obtain ⟨currentUid, data, ⟨q, hq, id, hconforms⟩, rfl⟩ :=
    (hshows.conversations n).rows.2 message h
  obtain ⟨uid, huid, rfl⟩ := hshows.conversationQuery n q hq
  refine ⟨uid, huid, ?_⟩
  obtain ⟨sender, receiver, hsender, hreceiver, hsides⟩ :=
    hconforms.message uid recentMessages id rfl
  show uid = (data.string "fromId").getD "" ∨ uid = (data.string "toId").getD ""
  rw [hsender, hreceiver]
  rcases hsides with hsides | ⟨-, hsides⟩
  · exact sides_owner hsides
  · exact sides_owner hsides

/-- And her list of conversations has Bob in it. -/
theorem conversations_of_account_sent :
    ∃ w, Run api (ScreenAction.program stringsASCII) OwnDevices unused
        (chatting ++ [.invoke "a" (.conversationsDidLoad 0) (turnWith "a" "a16")]
          ++ answeredTo "a" "a17" ["b"]) w
      ∧ ∃ message ∈ ((w.client "a").conversations 0).controller.conversations,
        ∃ uid, uid = "a" ∧ (uid = message.fromId ∨ uid = message.toId) := by
  obtain ⟨w, run, hone⟩ : ∃ w, Run api (ScreenAction.program stringsASCII) OwnDevices unused
      (chatting ++ [.invoke "a" (.conversationsDidLoad 0) (turnWith "a" "a16")]
        ++ answeredTo "a" "a17" ["b"]) w
      ∧ ((w.client "a").conversations 0).controller.conversations.length = 1 :=
    exists_run_of_play (by decide +kernel)
  obtain ⟨message, hmessage⟩ := List.exists_mem_of_length_eq_add_one hone
  exact ⟨w, run, message, hmessage, conversations_of_account run (fun _ _ h => h) hmessage⟩

/-- **A thread that is open is only added to**: a comment screen stays under its post and a chat
with its partner, and what either has shown stays where it was, whatever is in flight, refreshed
or reported again. -/
theorem threads_append {w₁ w₂ : AppWorld Screens S} {es₁ es₂ : List (AppEvent S ScreenAction)}
    (run₁ : Run api (ScreenAction.program strings) ok unused es₁ w₁)
    (run₂ : Run api (ScreenAction.program strings) ok w₁ es₂ w₂)
    (hok : ∀ w ev, ok w ev → Displayed w ev) (s : S) :
    (∀ d post, ((w₁.client s).client.comments d).post = some post →
        ((w₂.client s).client.comments d).post = some post)
      ∧ (∀ d, ((w₁.client s).comments d).controller.comments
          <+: ((w₂.client s).comments d).controller.comments)
      ∧ (∀ k user, ((w₁.client s).chats k).user = some user →
        ((w₂.client s).chats k).user = some user)
      ∧ ∀ k, ((w₁.client s).chats k).watch.controller.messages
          <+: ((w₂.client s).chats k).watch.controller.messages := by
  have habove := screens_below run₁ run₂ hok s
  exact ⟨habove.client.comments, habove.thread, habove.users, habove.chat⟩

/-- Ann comments once more. -/
def commentingAgain : List (AppEvent String ScreenAction) :=
  [.invoke "a" (.app (.postComment 0 "again")) (turnWith "a" "t24")]
    ++ answered [] "t25" ++ [.invoke "a" (.commentsSnapshot 0 []) (turnWith "a" "t26")]
    ++ answered ["t24", "t19"] "t27"

/-- Her first comment stays where it was. -/
theorem threads_append_commented :
    ∃ w₁ w₂, Run api (ScreenAction.program stringsASCII) Displayed unused
        (sharing ++ commenting) w₁
      ∧ Run api (ScreenAction.program stringsASCII) Displayed w₁ commentingAgain w₂
      ∧ ((w₁.client "a").comments 0).controller.comments.length = 1
      ∧ ((w₂.client "a").comments 0).controller.comments.length = 2
      ∧ ((w₁.client "a").comments 0).controller.comments
        <+: ((w₂.client "a").comments 0).controller.comments := by
  obtain ⟨w₁, w₂, run₁, run₂, hone, htwo⟩ : ∃ w₁ w₂,
      Run api (ScreenAction.program stringsASCII) Displayed unused (sharing ++ commenting) w₁
      ∧ Run api (ScreenAction.program stringsASCII) Displayed w₁ commentingAgain w₂
      ∧ ((w₁.client "a").comments 0).controller.comments.length = 1
      ∧ ((w₂.client "a").comments 0).controller.comments.length = 2 :=
    exists_runs_of_play (by decide +kernel)
  exact ⟨w₁, w₂, run₁, run₂, hone, htwo,
    (threads_append run₁ run₂ (fun _ _ h => h) "a").2.1 0⟩

end Runs

end InstaClone
