import InstaClone.Past

/-!
# Who may change what

The app leaves access control to rules that Firestore is configured with, and these are not
part of it. `Permitted` is the policy that the code itself keeps to: the changes of each kind
of document that a device may bring about, given the accounts it is signed in to and what has
been stored before. So the session works under the terms of the ledger and of the past at once
(`Terms.and`). Every change in every run is a write that is served, and it is permitted
to the device that has issued it (`changes_permitted`), whatever the other devices do
meanwhile and however late the write is served.

A record is stored only where there is none, because its identifier is fresh and each request
is served at most once. So a record that has been removed never comes back
(`records_never_return`).
-/

namespace InstaClone

open Async

/-! ## The policy -/

/-- The account whose mark this is: a like or a follow. -/
def markedBy : Path → Option String
  | ["users", uid, "user-likes", _] => some uid
  | ["posts", _, "post-likes", uid] => some uid
  | ["following", uid, "user-following", _] => some uid
  | ["followers", _, "user-followers", uid] => some uid
  | _ => none

/-- **The policy.** How a device with the accounts `mine` may change the document at a path, when
the documents of `stored` have been stored so far. -/
inductive Permitted (mine : String → Prop) (stored : Path → Doc → Prop) :
    Path → Option Doc → Option Doc → Prop
  /-- A user's document is his own, and is never removed. -/
  | user {uid : String} (huid : mine uid) (before : Option Doc) (d : Doc) :
      Permitted mine stored ["users", uid] before (some d)
  /-- Likes and follows are marked and unmarked by who likes and follows. -/
  | mark {uid : String} (huid : mine uid) {path : Path} (hmark : markedBy path = some uid)
      (before after : Option Doc) : Permitted mine stored path before after
  /-- Everybody fills his own feed. -/
  | feedEntry {uid : String} (huid : mine uid) (postId : String) (before : Option Doc) (d : Doc) :
      Permitted mine stored ["users", uid, "user-feed", postId] before (some d)
  /-- What others have of a post is cleared away by its owner. -/
  | clear {uid : String} (huid : mine uid) {postId : String} {post : Doc}
      (hpost : stored ["posts", postId] post) (howner : post.string "ownerUid" = some uid)
      {coll : String} (hcoll : coll = "user-likes" ∨ coll = "user-feed") (other : String)
      (before : Option Doc) : Permitted mine stored ["users", other, coll, postId] before none
  /-- A post is made in one's own name, -/
  | newPost {uid : String} (huid : mine uid) {postId : String} {d : Doc}
      (howner : d.string "ownerUid" = some uid) :
      Permitted mine stored ["posts", postId] none (some d)
  /-- its count and its picture may be changed by any account, -/
  | editPost {uid : String} (huid : mine uid) {postId : String} {d d' : Doc}
      (hsame : SameRecord ["posts", postId] d d') :
      Permitted mine stored ["posts", postId] (some d) (some d')
  /-- and it is removed by its owner. -/
  | removePost {uid : String} (huid : mine uid) {postId : String} {d : Doc}
      (howner : d.string "ownerUid" = some uid) :
      Permitted mine stored ["posts", postId] (some d) none
  /-- A comment is made in one's own name, and stays. -/
  | comment {uid : String} (huid : mine uid) {postId id : String} {d : Doc}
      (hauthor : d.string "uid" = some uid) :
      Permitted mine stored ["posts", postId, "comments", id] none (some d)
  /-- A notification is sent in one's own name to somebody else, -/
  | notify {uid : String} (huid : mine uid) {owner id : String} (hother : owner ≠ uid) {d : Doc}
      (hsender : d.string "uid" = some uid) :
      Permitted mine stored ["notifications", owner, "user-notifications", id] none (some d)
  /-- and taken back by who has sent it, -/
  | retract {uid : String} (huid : mine uid) {owner id : String} {d : Doc}
      (hsender : d.string "uid" = some uid) :
      Permitted mine stored ["notifications", owner, "user-notifications", id] (some d) none
  /-- or removed by who has got it. -/
  | dismiss {uid : String} (huid : mine uid) (id : String) (before : Option Doc) :
      Permitted mine stored ["notifications", uid, "user-notifications", id] before none
  /-- A message is sent in one's own name, to both sides of the conversation, -/
  | message {uid : String} (huid : mine uid) {other owner partner id : String}
      (hsides : Sides uid other owner partner) {d : Doc} (hsender : d.string "fromId" = some uid)
      (hreceiver : d.string "toId" = some other) :
      Permitted mine stored ["messages", owner, partner, id] none (some d)
  /-- as is the latest message in the list of conversations of each, -/
  | entry {uid : String} (huid : mine uid) {other owner : String}
      (howner : owner = uid ∨ owner = other) (name : String) (before : Option Doc) {d : Doc}
      (hsender : d.string "fromId" = some uid) (hreceiver : d.string "toId" = some other) :
      Permitted mine stored ["messages", owner, recentMessages, name] before (some d)
  /-- and everybody removes his own copies. -/
  | unsend {uid : String} (huid : mine uid) (coll id : String) (before : Option Doc) :
      Permitted mine stored ["messages", uid, coll, id] before none

/-! ## The inventory keeps to it -/

theorem string_of_eq {d : Doc} {key s : String} (h : d key = some (.string s)) :
    d.string key = some s := by
  unfold Doc.string
  rw [h]

/-- A session that knows two things of what is stored. -/
def Terms.and (T T' : Terms) : Terms where
  account := T.account
  stored path d := T.stored path d ∧ T'.stored path d
  post post := T.post post ∧ T'.post post
  law := ⟨fun post didLike h => ⟨T.law.flag post didLike h.1, T'.law.flag post didLike h.2⟩,
    fun post shown h h' => ⟨T.law.liked post shown h.1 h'.1, T'.law.liked post shown h.2 h'.2⟩,
    fun post shown hlikes h h' =>
      ⟨T.law.unliked post shown hlikes h.1 h'.1, T'.law.unliked post shown hlikes h.2 h'.2⟩⟩
  decoded postId d now h := ⟨T.decoded postId d now h.1, T'.decoded postId d now h.2⟩
  named uid d h := T.named uid d h.1

section Inventory

variable {T : Terms} {ledger : Path → Option Doc} {stored : Path → Doc → Prop}
  {before : Option Doc} {e : Turn}

/-- The owner of a post that is in the ledger owns what is stored of it. -/
theorem Post.Recorded.owner {post : Post} (h : post.Recorded ledger) {d : Doc}
    (hd : InRecords ledger ["posts", post.postId] d) :
    d.string "ownerUid" = some post.ownerUid := by
  obtain ⟨d₀, hd₀, hup⟩ := h
  obtain ⟨d₁, hd₁, hsame⟩ := hd.same rfl
  rw [hd₀] at hd₁
  obtain rfl : d₀ = d₁ := Option.some.inj hd₁
  exact (hup.of_same hsame.symm).ownerUid

/-- A record does not change its sender. -/
theorem InRecords.string_eq {path : Path} {d d' : Doc} (h : InRecords ledger path d)
    (h' : InRecords ledger path d') (hpath : isRecord path = true) {key : String}
    (hkey : key ∉ mutableKeys path) : d.string key = d'.string key := by
  obtain ⟨d₀, hd₀, hsame⟩ := h.same hpath
  obtain ⟨d₁, hd₁, hsame'⟩ := h'.same hpath
  rw [hd₀] at hd₁
  obtain rfl : d₀ = d₁ := Option.some.inj hd₁
  unfold Doc.string
  rw [hsame key hkey, hsame' key hkey]

/-- **Every write of the inventory is permitted** to a session that knows the ledger and what has
been stored, if it changes anything and stores no record where there is one. -/
theorem Terms.Writes.permitted {w : Write} (h : T.Writes e w)
    (hpast : ∀ post, T.post post → OwnedBy stored post.postId post.ownerUid)
    (hrecorded : ∀ post, T.post post → post.Recorded ledger)
    (hstored : ∀ path d, T.stored path d → InRecords ledger path d)
    (hbefore : ∀ d, before = some d → InRecords ledger w.path d)
    (hnew : ∀ x ∈ (Request.write w).record, before = none) (hne : w.effect before ≠ before) :
    Permitted T.account stored w.path before (w.effect before) := by
  have hfresh : ∀ {path : Path} {data : Doc}, w = .setData path data → isRecord path = true →
      before = none := by
    rintro path data rfl hpath
    refine hnew (path, data) ?_
    show (if isRecord path then some (path, data) else none) = some (path, data)
    rw [if_pos hpath]
  -- an update that changes nothing is not asked for
  have hsome : w.effect none = none → ∃ d, before = some d := by
    intro hnone
    cases hb : before with
    | none => exact absurd (by rw [hb, hnone]) hne
    | some d => exact ⟨d, rfl⟩
  have hsame : ∀ d, isRecord w.path = true → SameRecord w.path d (d.merge w.updates) := by
    intro d hpath key hkey
    unfold Doc.merge
    rw [h.updates hpath hkey]
    rfl
  cases h with
  | register huid credentials imageUrl => exact .user huid _ _
  | save huid user => exact .user huid _ _
  | picture huid url =>
    obtain ⟨d, rfl⟩ := hsome rfl
    exact .user huid _ _
  | token huid token =>
    obtain ⟨d, rfl⟩ := hsome rfl
    exact .user huid _ _
  | upload huid caption imageUrl user =>
    obtain rfl := hfresh rfl rfl
    exact .newPost huid rfl
  | count huid hpost likes =>
    obtain ⟨d, rfl⟩ := hsome rfl
    exact .editPost huid (hsame d rfl)
  | ownerImage huid postId url =>
    obtain ⟨d, rfl⟩ := hsome rfl
    exact .editPost huid (hsame d rfl)
  | removePost hpost howner =>
    obtain ⟨d, rfl⟩ := hsome rfl
    exact .removePost howner ((hrecorded _ hpost).owner (hbefore d rfl))
  | likeMark huid postId v => cases v <;> exact .mark huid rfl _ _
  | likeCopy huid postId v => cases v <;> exact .mark huid rfl _ _
  | removeLike hpost howner uid =>
    obtain ⟨d, hd, hown⟩ := hpast _ hpost
    exact .clear howner hd hown (Or.inl rfl) uid _
  | feedEntry huid postId => exact .feedEntry huid postId _ _
  | removeEntry hpost howner uid =>
    obtain ⟨d, hd, hown⟩ := hpast _ hpost
    exact .clear howner hd hown (Or.inr rfl) uid _
  | followMark huid user v => cases v <;> exact .mark huid rfl _ _
  | followCopy huid user v => cases v <;> exact .mark huid rfl _ _
  | comment huser hpost text =>
    obtain rfl := hfresh rfl rfl
    exact .comment huser rfl
  | notify huid hother user hpost hkind =>
    obtain rfl := hfresh rfl rfl
    exact .notify huid hother rfl
  | retract huid hd hsender =>
    obtain ⟨d, rfl⟩ := hsome rfl
    refine .retract huid ?_
    rw [(hbefore d rfl).string_eq (hstored _ _ hd) rfl (by simp [mutableKeys])]
    exact string_of_eq hsender
  | dismiss huid id => exact .dismiss huid id _
  | message huid hsides turn text =>
    rename_i user owner partner
    by_cases hpartner : partner = recentMessages
    · subst hpartner
      exact .entry huid (sides_owner hsides) _ _ rfl rfl
    · obtain rfl := hfresh rfl (by simpa [isRecord] using hpartner)
      exact .message huid hsides rfl rfl
  | entry huid hsides turn text => exact .entry huid (sides_owner hsides) _ _ rfl rfl
  | unsend huid coll id => exact .unsend huid coll id _

end Inventory

/-! ## Runs -/

section Steps

variable {S A : Type} {act : A → Program Screens} {w w' : AppWorld Screens S}
  {ev : AppEvent S A}

/-- The record that such an event stores has been served. -/
theorem Commits.record {s : S} {wr : Write} {docs : Store} (h : Commits w ev s wr docs) :
    records.served w ev = (Request.write wr).record.toList := by
  obtain ⟨i, o, k, rfl, hi⟩ := h.served
  simp only [Book.served, hi]
  rfl

/-- A record appears only when it is served. -/
theorem mem_served_of_appears [DecidableEq S] (hstep : Stepped api act w ev w') {path : Path}
    (hpath : isRecord path = true) (hnone : w.backend.docs.lookup path = none)
    (hsome : w'.backend.docs.lookup path ≠ none) :
    path ∈ (records.served w ev).map Prod.fst := by
  obtain ⟨s, wr, hcommits, rfl⟩ := exists_commits hstep (by rwa [hnone])
  rw [Write.lookup_apply hcommits.commit, hnone] at hsome
  rw [hcommits.record]
  cases wr with
  | setData path data =>
    show path ∈ (if isRecord path then some (path, data) else none).toList.map Prod.fst
    rw [if_pos (show isRecord path = true from hpath)]
    exact List.mem_singleton_self _
  | updateData path fields => exact absurd rfl hsome
  | delete path => exact absurd rfl hsome

end Steps

section Runs

variable {S : Type} [DecidableEq S] {strings : StringOps} {V : S → String → Prop}
  {ok : AppWorld Screens S → AppEvent S ScreenAction → Prop} {w₀ w w' w₁ w₂ w₃ : AppWorld Screens S}
  {es es₁ es₂ es₃ : List (AppEvent S ScreenAction)} {ev : AppEvent S ScreenAction}

/-- The paths of the records that are served along a list of events. -/
def servedRecords (strings : StringOps) (w : AppWorld Screens S)
    (es : List (AppEvent S ScreenAction)) : List Path :=
  (history api (ScreenAction.program strings) (fun w ev => records.served w ev) w es).map
    Prod.fst

/-- They are different. -/
theorem servedRecords_nodup (run : Run api (ScreenAction.program strings) ok unused es w)
    (hids : (drawn es).Nodup) : (servedRecords strings unused es).Nodup := by
  refine run.served_nodup (L := records) (fun a e => a.enters strings) rfl ?_
  rw [drawn_eq_keys]
  exact hids

/-- A record that is stored has been stored before, or served since. -/
theorem stored_or_served (run : Run api (ScreenAction.program strings) ok w₀ es w) {path : Path}
    (hpath : isRecord path = true) (h : w.backend.docs.lookup path ≠ none) :
    w₀.backend.docs.lookup path ≠ none ∨ path ∈ servedRecords strings w₀ es := by
  induction run with
  | nil => exact Or.inl h
  | snoc run hok hstep ih =>
    rename_i es w w' ev
    unfold servedRecords
    rw [run.history_snoc hstep, List.map_append, List.mem_append]
    by_cases hnone : w.backend.docs.lookup path = none
    · exact Or.inr (Or.inr (mem_served_of_appears (stepped_of_step hstep) hpath hnone h))
    · exact (ih hnone).imp_right Or.inl

/-- From the start, it has been served. -/
theorem served_of_stored (run : Run api (ScreenAction.program strings) ok unused es w)
    {path : Path} (hpath : isRecord path = true) (h : w.backend.docs.lookup path ≠ none) :
    path ∈ servedRecords strings unused es := by
  refine (stored_or_served run hpath h).resolve_left fun hne => hne ?_
  simp [unused, atRest, Backend.empty]

/-- **A record that is gone stays gone.** Its identifier is not drawn again, and no request
that stores it is served again. -/
theorem records_never_return
    (run₁ : Run api (ScreenAction.program strings) ok unused es₁ w₁)
    (run₂ : Run api (ScreenAction.program strings) ok w₁ es₂ w₂)
    (run₃ : Run api (ScreenAction.program strings) ok w₂ es₃ w₃)
    (hids : (drawn (es₁ ++ es₂ ++ es₃)).Nodup) {path : Path} (hpath : isRecord path = true)
    (h₁ : w₁.backend.docs.lookup path ≠ none) (h₂ : w₂.backend.docs.lookup path = none) :
    w₃.backend.docs.lookup path = none := by
  by_contra h₃
  have hfirst := served_of_stored run₁ hpath h₁
  have hlater : path ∈ servedRecords strings w₂ es₃ :=
    (stored_or_served run₃ hpath h₃).resolve_left fun hne => hne h₂
  have hnodup := servedRecords_nodup ((run₁.append run₂).append run₃) hids
  unfold servedRecords at hfirst hlater hnodup
  rw [(run₁.append run₂).history_append, run₁.history_append, List.map_append, List.map_append,
    List.append_assoc] at hnodup
  exact (List.disjoint_of_nodup_append hnodup) hfirst (List.mem_append_right _ hlater)

/-- Ann deletes her post, -/
def removing : List (AppEvent String ScreenAction) :=
  [.invoke "a" (.app (.feedCell 0 0 0)) (turnWith "a" "t16"),
    .invoke "a" (.app (.optionsTap 0 0)) (turnWith "a" "t17"),
    .invoke "a" (.app (.sheetTap 0 .deletePost)) (turnWith "a" "t18")]
    ++ answered [] "t19" ++ answered [] "t20" ++ answered [] "t21" ++ answered [] "t22"

/-- and reloads her feed. -/
def reloading : List (AppEvent String ScreenAction) :=
  [.invoke "a" (.app (.feedRefresh 0)) (turnWith "a" "t23")] ++ answered [] "t24"

/-- The post does not come back. -/
theorem records_never_return_removed :
    ∃ w₂ w₃, Run api (ScreenAction.program stringsASCII) (fun _ _ => True) unused
        (sharing ++ removing) w₂
      ∧ Run api (ScreenAction.program stringsASCII) (fun _ _ => True) w₂ reloading w₃
      ∧ w₃.backend.docs.lookup ["posts", "p"] = none := by
  obtain ⟨w₁, w₂, run₁, run₂, hstored, hgone, hmore⟩ : ∃ w₁ w₂,
      Run api (ScreenAction.program stringsASCII) (fun _ _ => True) unused sharing w₁
      ∧ Run api (ScreenAction.program stringsASCII) (fun _ _ => True) w₁ removing w₂
      ∧ (w₁.backend.docs.lookup ["posts", "p"]).isSome = true
      ∧ (w₂.backend.docs.lookup ["posts", "p"]).isSome = false
      ∧ (play api (ScreenAction.program stringsASCII) (fun _ _ => True) w₂ reloading).isSome
          = true := exists_runs_of_play (by decide +kernel)
  obtain ⟨w₃, hw₃⟩ := Option.isSome_iff_exists.mp hmore
  have run₃ := run_of_play hw₃
  exact ⟨w₂, w₃, run₁.append run₂, run₃,
    records_never_return run₁ run₂ run₃ (by decide) rfl (Option.isSome_iff_ne_none.mp hstored)
      (by simpa using hgone)⟩

/-- Nothing is stored yet where a record is served. -/
theorem lookup_of_record (run : Run api (ScreenAction.program strings) ok unused es w)
    (hids : (drawn es).Nodup) (hstep : step api (ScreenAction.program strings) w ev = some w')
    {s : S} {wr : Write} {docs : Store} (hcommits : Commits w ev s wr docs) :
    ∀ x ∈ (Request.write wr).record, w.backend.docs.lookup wr.path = none := by
  intro x hx
  by_contra hne
  obtain ⟨hx1, hpath⟩ := path_of_record hx
  have hbefore := served_of_stored run hpath hne
  have hdrawn : (drawn (es ++ [ev])).Nodup := by
    obtain ⟨i, o, k, rfl, -⟩ := hcommits.served
    unfold drawn
    rw [List.filterMap_append]
    show (drawn es ++ []).Nodup
    rw [List.append_nil]
    exact hids
  have hrun : Run api (ScreenAction.program strings) (fun _ _ => True) unused (es ++ [ev]) w' :=
    .snoc (run.mono fun _ _ _ => trivial) trivial hstep
  have hnodup := servedRecords_nodup hrun hdrawn
  unfold servedRecords at hbefore hnodup
  rw [run.history_snoc hstep, List.map_append, hcommits.record, Option.mem_def.mp hx] at hnodup
  refine (List.disjoint_of_nodup_append hnodup) hbefore ?_
  rw [← hx1]
  exact List.mem_singleton_self _

/-- **Whatever changes is permitted.** When every device is signed in to its own accounts only
and no identifier is drawn twice, every change of a document is a write that is served for a
device which is permitted to make it. -/
theorem changes_permitted (run : Run api (ScreenAction.program strings) ok unused es w)
    (hids : (drawn es).Nodup) (hok : ∀ w ev, ok w ev → Devices V w ev)
    (hstep : step api (ScreenAction.program strings) w ev = some w') {path : Path}
    (hne : w'.backend.docs.lookup path ≠ w.backend.docs.lookup path) :
    ∃ s wr, Commits w ev s wr w'.backend.docs
      ∧ Permitted (V s) (StoredAlong strings ok es) path (w.backend.docs.lookup path)
          (w'.backend.docs.lookup path) := by
  obtain ⟨s, wr, hcommits, rfl⟩ := exists_commits (stepped_of_step hstep) hne
  obtain ⟨ledger, hledger⟩ := exists_recorded run hids
  -- the ledger of the run has the records of each of its beginnings
  have hrecorded : ∀ w₁, Visited api (ScreenAction.program strings) ok unused es w₁ →
      w₁.backend.docs.Recorded ledger := by
    rintro w₁ ⟨es₁, hes, run₁⟩
    refine (recorded_run run₁ (fun x hx => (hledger x.1 x.2).mpr ?_) hok).1.backend
    exact recordsOf_subset run₁ hes hx
  have hkeeps := terms_run
    (T := fun s => (Terms.recorded (V s) ledger).and (past strings ok es (V s))) run.visited
    (fun w₁ ev h _ path d hlook => ⟨hrecorded w₁ h.2 path d hlook, w₁, h.2, hlook⟩)
    fun w₁ ev h => hok w₁ ev h.1
  refine ⟨s, wr, hcommits, ?_⟩
  obtain ⟨i, o, k, -, hi⟩ := hcommits.served
  obtain ⟨⟨e, -, hwrites⟩, -⟩ := hkeeps.pool _ (List.mem_of_getElem? hi)
  have hrecord := lookup_of_record run hids hstep hcommits
  have hbefore := hrecorded w ⟨es, List.prefix_rfl, run⟩
  rw [Write.lookup_apply hcommits.commit] at hne ⊢
  exact (hwrites wr rfl).permitted (fun _ h => h.2) (fun _ h => h.1) (fun _ _ h => h.1)
    (fun d hd => hbefore _ d hd) hrecord hne

/-- Ann may change the count of her post when she likes it. -/
theorem changes_permitted_liked :
    ∃ w w', step api (ScreenAction.program stringsASCII) w (.serve 0 (.success [])) = some w'
      ∧ ∃ d d', w.backend.docs.lookup ["posts", "p"] = some d
        ∧ w'.backend.docs.lookup ["posts", "p"] = some d' ∧ d.int "likes" ≠ d'.int "likes"
        ∧ ∃ s wr, Commits (A := ScreenAction) w (.serve 0 (.success [])) s wr w'.backend.docs
          ∧ Permitted (· = s)
              (StoredAlong stringsASCII (Devices fun s uid => uid = s)
                (sharing ++ liking.take 2))
              ["posts", "p"] (some d) (some d') := by
  obtain ⟨w, w', run, hstep, d, hd, d', hd', hlikes⟩ : ∃ w w',
      Run api (ScreenAction.program stringsASCII) (Devices fun s uid => uid = s) unused
        (sharing ++ liking.take 2) w
      ∧ step api (ScreenAction.program stringsASCII) w (.serve 0 (.success [])) = some w'
      ∧ ∃ d ∈ w.backend.docs.lookup ["posts", "p"], ∃ d' ∈ w'.backend.docs.lookup ["posts", "p"],
        d.int "likes" ≠ d'.int "likes" := exists_step_of_play (by decide +kernel)
  have hne : w'.backend.docs.lookup ["posts", "p"] ≠ w.backend.docs.lookup ["posts", "p"] := by
    intro heq
    rw [hd, hd'] at heq
    exact hlikes (by rw [Option.some.inj heq])
  obtain ⟨s, wr, hcommits, hpermitted⟩ :=
    changes_permitted run (by decide) (fun _ _ h => h) hstep hne
  rw [hd, hd'] at hpermitted
  exact ⟨w, w', hstep, d, d', hd, hd', hlikes, s, wr, hcommits, hpermitted⟩

end Runs

end InstaClone
