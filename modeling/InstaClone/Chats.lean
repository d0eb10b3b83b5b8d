import InstaClone.Listeners
import InstaClone.Messaging

/-!
# Whether an open chat shows the stored conversation

`MessagingService.fetchMessages` listens to a user's copies of a conversation, oldest first,
and appends what a snapshot adds to the array it hands on. It takes no notice of what a
snapshot removes, and puts a message that has come late, from a client with a slow clock,
below the ones already shown.

So the chat is the result of the query as long as no snapshot removes anything, and each adds
what comes after everything shown (`OnlyAdds`).

After every delivery `ChatController` scrolls to the last of its messages. A conversation that
is empty when the chat opens has none, and its first snapshot is delivered all the same.
-/

namespace InstaClone

open Async (Machine)

/-- The query of `fetchMessages`. -/
def conversationOf (owner partner : String) : Query :=
  { collection := ["messages", owner, partner], orderBy := some ("timestamp", false) }

/-- `ChatController` in the session of `owner`, which listens to that query. -/
def chatListener (owner partner : String) : Listener ChatRows ChatRowsEvent Message Unit where
  source := chatRows
  query := conversationOf owner partner
  hear _ changes := .snapshot (some owner) changes

theorem chatListener_appends (owner partner : String) :
    (chatListener owner partner).Appends ChatRows.fetched fun _ => Message.init (some owner) where
  init := rfl
  append _ _ _ := rfl
  array _ _ _ := rfl
  fail _ _ := rfl

/-- The dictionary of a message. -/
def IsMessage (d : Doc) : Prop :=
  ∃ sender turn text user, d = MessagingService.messageData sender turn text user

/-- The conversation has messages only. -/
def StoresMessages (owner partner : String) (docs : Store) : Prop :=
  ∀ x ∈ docs.documents (conversationOf owner partner).collection, IsMessage x.2

/-- The query finds all messages. -/
theorem StoresMessages.results {owner partner : String} {docs : Store}
    (h : StoresMessages owner partner docs) :
    (conversationOf owner partner).results docs
      = docs.documents (conversationOf owner partner).collection := by
  refine List.filter_eq_self.mpr fun x hx => ?_
  obtain ⟨sender, turn, text, user, heq⟩ := h x hx
  simp [conversationOf, Query.selects, heq, MessagingService.messageData, dict]

/-- What the calls of the two participants write: the owner's copy of a message that he has
sent or received, under an identifier not in use, and its deletion. Elsewhere anything may be
written. -/
inductive WritesChat (owner partner : String) (docs : Store) : Write → Prop
  | sent (turn : Turn) (text : String) (user : User) (huser : user.uid = partner)
      (hfresh : docs.lookup (messagePath owner partner turn.autoId) = none) :
      WritesChat owner partner docs (.setData (messagePath owner partner turn.autoId)
        (MessagingService.messageData owner turn text user))
  | received (turn : Turn) (text : String) (user : User) (id : String) (huser : user.uid = owner)
      (hfresh : docs.lookup (messagePath owner partner id) = none) :
      WritesChat owner partner docs (.setData (messagePath owner partner id)
        (MessagingService.messageData partner turn text user))
  | removed (id : String) : WritesChat owner partner docs (.delete (messagePath owner partner id))
  | other {w : Write} (h : ∀ id, messagePath owner partner id ≠ w.path) :
      WritesChat owner partner docs w

theorem StoresMessages.commit {owner partner : String} {docs docs' : Store} {w : Write}
    (h : StoresMessages owner partner docs) (hw : WritesChat owner partner docs w)
    (hdocs : w.apply docs = some docs') : StoresMessages owner partner docs' := by
  rintro ⟨id, d⟩ hx
  rw [Store.mem_documents] at hx
  by_cases hpath : messagePath owner partner id = w.path
  · have hlook : w.effect (docs.lookup w.path) = some d := by
      rw [← Write.lookup_apply hdocs, ← hpath]
      exact hx
    cases hw with
    | sent turn text user => exact ⟨owner, turn, text, user, (Option.some.inj hlook).symm⟩
    | received turn text user id' => exact ⟨partner, turn, text, user, (Option.some.inj hlook).symm⟩
    | removed id' => exact absurd hlook (by simp [Write.effect])
    | other hother => exact absurd hpath (hother id)
  · exact h (id, d) (Store.mem_documents.mpr ((Write.lookup_apply_ne hdocs hpath).symm.trans hx))

/-- The chat next to a store. -/
def chatMachine (owner partner : String) : Machine (Listening ChatRows) (ListeningEvent Unit) :=
  (chatListener owner partner).listening (StoresMessages owner partner) (WritesChat owner partner)

/-- Every snapshot only adds, and what it adds comes after everything shown. -/
def OnlyAdds (owner partner : String) (s : Listening ChatRows) : ListeningEvent Unit → Prop
  | .snapshot _ _ changes =>
    reported .removed changes = [] ∧ reported .modified changes = []
      ∧ ∀ x ∈ s.shown, ∀ y ∈ reported .added changes,
        (conversationOf owner partner).inOrder x y = true
  | _ => True

/-- The array is right. -/
structure ChatInv (owner partner : String) (s : Listening ChatRows) : Prop where
  append : (chatListener owner partner).AppendInv ChatRows.fetched IsMessage
    (Message.init (some owner)) s
  stored : StoresMessages owner partner s.docs

theorem ChatInv.step {owner partner : String} {s s' : Listening ChatRows}
    {ev : ListeningEvent Unit} (h : ChatInv owner partner s)
    (hallowed : (chatMachine owner partner).allows s ev) (hadds : OnlyAdds owner partner s ev)
    (hstep : (chatMachine owner partner).step s ev = some s') : ChatInv owner partner s' := by
  cases ev with
  | commit w =>
    obtain ⟨docs, hdocs, rfl⟩ := Option.map_eq_some_iff.mp hstep
    have hstored := h.stored.commit hallowed hdocs
    exact ⟨h.append.commit fun x hx => hstored x (List.mem_of_mem_filter hx), hstored⟩
  | snapshot _ result changes =>
    obtain ⟨hanswers, hchanges, -⟩ := hallowed
    obtain ⟨hremoved, hmodified, horder⟩ := hadds
    obtain rfl := Option.some.inj hstep
    have hkept : ∀ x ∈ s.shown, x ∈ result := fun x hx =>
      hchanges.kept hx (by simp [hremoved]) (by simp [hmodified]) h.append.nodup
    exact ⟨h.append.snapshot (chatListener_appends owner partner) rfl (fun _ _ _ => rfl) hanswers
      hchanges hkept horder, h.stored⟩
  | failed _ =>
    obtain rfl := Option.some.inj hstep
    exact ⟨h.append.fail (chatListener_appends owner partner), h.stored⟩

theorem chatInv {owner partner : String} {es : List (ListeningEvent Unit)} {s : Listening ChatRows}
    (run : ((chatMachine owner partner).under (OnlyAdds owner partner)).Run es s) :
    ChatInv owner partner s := by
  refine run.invariant (I := fun _ s => ChatInv owner partner s) ?_ ?_
  · rintro s ⟨hstored, hshown, hcontroller⟩
    refine ⟨.start (chatListener_appends owner partner) ?_ hshown hcontroller, hstored⟩
    exact fun x hx => hstored x (List.mem_of_mem_filter hx)
  · exact fun _ _ _ _ h hallowed hstep => h.step hallowed.1 hallowed.2 hstep

/-- **An open chat shows the stored conversation.** Messages are sent, received and deleted,
and snapshots bring the changes in any grouping: as long as each only adds, and adds what comes
after everything shown, newer than it or of the same time and with a greater identifier, the
chat is the result of the query, which is every stored message once, oldest first. -/
theorem chats_follow {owner partner : String} {es : List (ListeningEvent Unit)}
    {result : List (String × Doc)} {changes : List (String × DocumentChange)}
    {s : Listening ChatRows}
    (run : ((chatMachine owner partner).under (OnlyAdds owner partner)).Run
      (es ++ [.snapshot () result changes]) s) :
    result.Perm (s.docs.documents (conversationOf owner partner).collection)
      ∧ result.Pairwise (fun x y => (conversationOf owner partner).inOrder x y = true)
      ∧ s.controller.messages = result.map fun x => Message.init (some owner) x.2 := by
  have hinv := chatInv run
  obtain ⟨_, -, hallowed, hstep⟩ := run.last
  obtain ⟨hanswers, hshows⟩ :=
    hinv.append.shows (chatListener_appends owner partner) hallowed.1 hstep
  have hperm := hanswers.perm
  have hresults : (chatListener owner partner).query.results s.docs
      = s.docs.documents (conversationOf owner partner).collection := hinv.stored.results
  rw [hresults] at hperm
  exact ⟨hperm, hanswers.sorted, hshows⟩

/-! ## Two runs -/

/-- What `a` writes to `b` when the clock of `a` shows `seconds`. -/
def chatData (text : String) (seconds : Int) : Doc :=
  MessagingService.messageData "a" ⟨some "a", none, ⟨seconds, 0⟩, text⟩ text
    (User.init (dict [("uid", .string "b")]))

/-- `a` has the chat with `b` open, and one message is shown. -/
def chatShown (docs : Store) : Listening ChatRows where
  docs := docs
  shown := [("m", chatData "m" 1)]
  controller :=
    { fetched := [Message.init (some "a") (chatData "m" 1)]
      messages := [Message.init (some "a") (chatData "m" 1)] }

/-- The store with that message. -/
def chatDocs : Store := (∅ : Store).insert (messagePath "a" "b" "m") (chatData "m" 1)

/-- The message is sent and shown. -/
def chatSent : List (ListeningEvent Unit) :=
  [.commit (.setData (messagePath "a" "b" "m") (chatData "m" 1)),
    .snapshot () [("m", chatData "m" 1)] [("m", ⟨.added, chatData "m" 1⟩)]]

theorem run_chatSent (ok : Listening ChatRows → ListeningEvent Unit → Prop)
    (hcommit : ∀ s w, ok s (.commit w)) (hfirst : ∀ s, s.shown = [] →
      ok s (.snapshot () [("m", chatData "m" 1)] [("m", ⟨.added, chatData "m" 1⟩)])) :
    ((chatMachine "a" "b").under ok).Run chatSent (chatShown chatDocs) := by
  have hstart : ((chatMachine "a" "b").under ok).Run [] ⟨∅, [], {}⟩ :=
    .nil ⟨fun x hx => absurd hx List.not_mem_nil, rfl, rfl⟩
  have hchanges : ChangesTo [] [("m", chatData "m" 1)] [("m", ⟨.added, chatData "m" 1⟩)] :=
    .ofAdded (fun x hx => absurd hx List.not_mem_nil) (List.nodup_singleton _)
  have hwritten := Listener.run_commit (w := .setData (messagePath "a" "b" "m") (chatData "m" 1))
    hstart (.sent ⟨some "a", none, ⟨1, 0⟩, "m"⟩ "m" _ rfl rfl) (hcommit _ _) rfl
  exact Listener.run_snapshot (e := ()) hwritten ⟨.refl _, List.pairwise_singleton ..⟩ hchanges
    trivial (hfirst _ rfl)

/-- A second message follows. -/
theorem chats_follow_second :
    ∃ s, ((chatMachine "a" "b").under (OnlyAdds "a" "b")).Run
        (chatSent ++ [.commit (.setData (messagePath "a" "b" "n") (chatData "n" 2))]
          ++ [.snapshot () [("m", chatData "m" 1), ("n", chatData "n" 2)]
            [("n", ⟨.added, chatData "n" 2⟩)]]) s
      ∧ s.controller.messages.map Message.text = ["m", "n"]
      ∧ s.controller.messages
        = [("m", chatData "m" 1), ("n", chatData "n" 2)].map
          fun x => Message.init (some "a") x.2 := by
  have hanswers : (conversationOf "a" "b").Answers
      (chatDocs.insert (messagePath "a" "b" "n") (chatData "n" 2))
      [("m", chatData "m" 1), ("n", chatData "n" 2)] := by
    exact ⟨.swap .., List.pairwise_pair.mpr rfl⟩
  have hchanges : ChangesTo [("m", chatData "m" 1)]
      [("m", chatData "m" 1), ("n", chatData "n" 2)] [("n", ⟨.added, chatData "n" 2⟩)] :=
    .ofAdded (by simp) hanswers.nodup
  have hsent := run_chatSent (OnlyAdds "a" "b") (fun _ _ => trivial)
    fun s h => ⟨rfl, rfl, fun x hx => absurd hx (by rw [h]; exact List.not_mem_nil)⟩
  have hwritten := Listener.run_commit (w := .setData (messagePath "a" "b" "n") (chatData "n" 2))
    hsent (.sent ⟨some "a", none, ⟨2, 0⟩, "n"⟩ "n" _ rfl rfl) trivial rfl
  have hadds : OnlyAdds "a" "b" (chatShown (chatDocs.insert (messagePath "a" "b" "n")
      (chatData "n" 2))) (.snapshot () [("m", chatData "m" 1), ("n", chatData "n" 2)]
        [("n", ⟨.added, chatData "n" 2⟩)]) := by
    refine ⟨rfl, rfl, fun x hx y hy => ?_⟩
    obtain rfl := List.mem_singleton.mp hx
    obtain rfl := List.mem_singleton.mp hy
    rfl
  have run := Listener.run_snapshot (e := ()) hwritten hanswers hchanges trivial hadds
  exact ⟨_, run, rfl, (chats_follow run).2.2⟩

/-- The change that tells of its deletion. -/
theorem chatRemoved :
    ChangesTo [("m", chatData "m" 1)] [] [("m", ⟨.removed, chatData "m" 1⟩)] where
  added := rfl
  modified x := by simp [reported]
  removed x := by simp [reported]
  nodup := List.nodup_singleton _

/-- The message is deleted, and the chat still shows it. -/
theorem chats_deleted :
    ∃ s, (chatMachine "a" "b").Run
        (chatSent ++ [.commit (.delete (messagePath "a" "b" "m"))]
          ++ [.snapshot () [] [("m", ⟨.removed, chatData "m" 1⟩)]]) s
      ∧ s.docs.documents (conversationOf "a" "b").collection = []
      ∧ s.controller.messages.map Message.text = ["m"] := by
  have hsent := run_chatSent (fun _ _ => True) (fun _ _ => trivial) fun _ _ => trivial
  have hdeleted := Listener.run_commit (w := .delete (messagePath "a" "b" "m")) hsent
    (.removed "m") trivial rfl
  have run := Listener.run_snapshot (e := ()) hdeleted ⟨.refl _, .nil⟩ chatRemoved trivial
    trivial
  exact ⟨_, run.of_under, rfl, rfl⟩

/-! ## Where the chat scrolls to -/

/-- The item of an index path `[0, item]` handed to `scrollToItem`, and the number of items
of the view. -/
structure Scroll where
  item : Int
  items : Nat

/-- The index path names an item. -/
def Scroll.Valid (scroll : Scroll) : Prop := 0 ≤ scroll.item ∧ scroll.item < scroll.items

/-- `numberOfItemsInSection` of `ChatController`. -/
def ChatRows.numberOfItems (chat : ChatRows) : Nat := chat.messages.length

/-- `scrollToItem(at: [0, self.messages.count - 1], …)`, right after `reloadData()`. -/
def ChatRows.scrollToLast (chat : ChatRows) : Scroll where
  item := (chat.messages.length : Int) - 1
  items := chat.numberOfItems

theorem ChatRows.scrollToLast_valid (chat : ChatRows) :
    chat.scrollToLast.Valid ↔ chat.messages ≠ [] := by
  rw [← List.length_pos_iff]
  unfold Scroll.Valid scrollToLast numberOfItems
  constructor
  · intro h
    have hitem : 0 ≤ (chat.messages.length : Int) - 1 := h.1
    omega
  · intro h
    dsimp only
    omega

/-- `ChatController` and where it has scrolled to so far. -/
structure ScrolledChat where
  chat : ChatRows := {}
  scrolls : List Scroll := []

/-- `ChatController` with the last statement of its completion. -/
def scrolledChatRows : RowSource ScrolledChat ChatRowsEvent Message where
  initial := {}
  array controller := controller.chat.messages
  assign controller ev := (chatRows.assign controller.chat ev).map fun chat =>
    { chat := chat, scrolls := controller.scrolls ++ [chat.scrollToLast] }
  row := chatRows.row

/-- It listens to the same query. -/
def scrolledChatListener (owner partner : String) :
    Listener ScrolledChat ChatRowsEvent Message Unit where
  source := scrolledChatRows
  query := conversationOf owner partner
  hear _ changes := .snapshot (some owner) changes

/-- The chat next to a store in which anything may be stored and written. -/
def scrolledChatMachine (owner partner : String) :
    Machine (Listening ScrolledChat) (ListeningEvent Unit) :=
  (scrolledChatListener owner partner).listening (fun _ => True) fun _ _ => True

/-- The result of the first snapshot. -/
def firstResult (es : List (ListeningEvent Unit)) : Option (List (String × Doc)) :=
  es.findSome? fun
    | .snapshot _ result _ => some result
    | _ => none

@[simp] theorem firstResult_commit (es : List (ListeningEvent Unit)) (w : Write) :
    firstResult (es ++ [.commit w]) = firstResult es := by
  simp [firstResult]

@[simp] theorem firstResult_failed (es : List (ListeningEvent Unit)) :
    firstResult (es ++ [.failed ()]) = firstResult es := by
  simp [firstResult]

@[simp] theorem firstResult_snapshot (es : List (ListeningEvent Unit))
    (result : List (String × Doc)) (changes : List (String × DocumentChange)) :
    firstResult (es ++ [.snapshot () result changes]) = (firstResult es).or (some result) := by
  simp [firstResult, List.findSome?_append]

/-- The messages shown are the messages fetched. Before the first snapshot there are none; a
first result with messages puts some there for good, and an empty one has scrolled to an item
that is not there. -/
structure ScrollInv (es : List (ListeningEvent Unit)) (s : Listening ScrolledChat) : Prop where
  waiting : firstResult es = none →
    s.shown = [] ∧ s.controller.chat.fetched = [] ∧ s.controller.scrolls = []
  opened : ∀ result, firstResult es = some result → result ≠ [] →
    s.controller.chat.fetched ≠ [] ∧ ∀ scroll ∈ s.controller.scrolls, scroll.Valid
  empty : firstResult es = some [] → ∃ scroll ∈ s.controller.scrolls, ¬ scroll.Valid

/-- The first snapshot adds its whole result. -/
theorem added_first {result : List (String × Doc)}
    {changes : List (String × DocumentChange)} (h : ChangesTo [] result changes) :
    added (changes.map Prod.snd) = result.map Prod.snd := by
  rw [added_map_snd, h.added]
  simp

theorem ScrollInv.snapshot {owner partner : String} {es : List (ListeningEvent Unit)}
    {s : Listening ScrolledChat} {result : List (String × Doc)}
    {changes : List (String × DocumentChange)} (h : ScrollInv es s)
    (hchanges : ChangesTo s.shown result changes) :
    ScrollInv (es ++ [.snapshot () result changes])
      { s with
        shown := result
        controller := (scrolledChatListener owner partner).react s.controller ()
          (some (changes.map Prod.snd)) } := by
  -- the chat after the snapshot
  have hscroll : ∀ messages : List Message,
      (ChatRows.scrollToLast ⟨messages, messages⟩).Valid ↔ messages ≠ [] :=
    fun _ => ChatRows.scrollToLast_valid _
  have hscrolls : ((scrolledChatListener owner partner).react s.controller ()
      (some (changes.map Prod.snd))).scrolls
      = s.controller.scrolls ++ [ChatRows.scrollToLast
          ⟨s.controller.chat.fetched
              ++ (added (changes.map Prod.snd)).map (Message.init (some owner)),
            s.controller.chat.fetched
              ++ (added (changes.map Prod.snd)).map (Message.init (some owner))⟩] := rfl
  have hfetched : ((scrolledChatListener owner partner).react s.controller ()
      (some (changes.map Prod.snd))).chat.fetched
      = s.controller.chat.fetched
        ++ (added (changes.map Prod.snd)).map (Message.init (some owner)) := rfl
  cases hfirst : firstResult es with
  | none =>
    obtain ⟨hshown, hnone, hunscrolled⟩ := h.waiting hfirst
    rw [hshown] at hchanges
    rw [hnone, added_first hchanges, List.nil_append] at hscrolls hfetched
    rw [hunscrolled, List.nil_append] at hscrolls
    refine ⟨fun hwaiting => ?_, fun first hopened hne => ?_, fun hempty => ?_⟩
    · simp [hfirst] at hwaiting
    · obtain rfl : result = first := by simpa [hfirst] using hopened
      have hmessages : (result.map Prod.snd).map (Message.init (some owner)) ≠ [] := by
        simpa using hne
      refine ⟨by rw [hfetched]; exact hmessages, fun scroll hmem => ?_⟩
      rw [hscrolls, List.mem_singleton] at hmem
      rw [hmem, hscroll]
      exact hmessages
    · obtain rfl : result = [] := by simpa [hfirst] using hempty
      refine ⟨_, by rw [hscrolls]; exact List.mem_singleton_self _, ?_⟩
      rw [hscroll]
      simp
  | some first =>
    refine ⟨fun hwaiting => ?_, fun first' hopened hne => ?_, fun hempty => ?_⟩
    · simp [hfirst] at hwaiting
    · obtain rfl : first = first' := by simpa [hfirst] using hopened
      obtain ⟨hsome, hvalid⟩ := h.opened first hfirst hne
      refine ⟨by rw [hfetched]; simp [hsome], fun scroll hmem => ?_⟩
      rw [hscrolls, List.mem_append, List.mem_singleton] at hmem
      rcases hmem with hmem | rfl
      · exact hvalid scroll hmem
      · rw [hscroll]
        simp [hsome]
    · obtain ⟨scroll, hmem, hinvalid⟩ := h.empty (by simpa [hfirst] using hempty)
      exact ⟨scroll, by rw [hscrolls]; exact List.mem_append_left _ hmem, hinvalid⟩

theorem scrollInv {owner partner : String} {es : List (ListeningEvent Unit)}
    {s : Listening ScrolledChat} (run : (scrolledChatMachine owner partner).Run es s) :
    ScrollInv es s := by
  refine run.invariant ?_ ?_
  · rintro s ⟨-, hshown, hcontroller⟩
    refine ⟨fun _ => ⟨hshown, ?_, ?_⟩, fun _ h => (nomatch h), fun h => (nomatch h)⟩
    · rw [hcontroller]
      rfl
    · rw [hcontroller]
      rfl
  · intro es s ev s' h hallowed hstep
    cases ev with
    | commit w =>
      obtain ⟨docs, -, rfl⟩ := Option.map_eq_some_iff.mp hstep
      refine ⟨?_, ?_, ?_⟩
      · rw [firstResult_commit]
        exact h.waiting
      · rw [firstResult_commit]
        exact h.opened
      · rw [firstResult_commit]
        exact h.empty
    | snapshot _ result changes =>
      obtain rfl := Option.some.inj hstep
      exact h.snapshot hallowed.2.1
    | failed _ =>
      obtain rfl := Option.some.inj hstep
      refine ⟨?_, ?_, ?_⟩
      · rw [firstResult_failed]
        exact h.waiting
      · rw [firstResult_failed]
        exact h.opened
      · rw [firstResult_failed]
        exact h.empty

/-- **Where an open chat scrolls to.** Whatever is written and however the snapshots come, every
index path is valid exactly if the conversation has messages when the first snapshot is
taken. -/
theorem scrolls_valid_iff {owner partner : String} {es : List (ListeningEvent Unit)}
    {s : Listening ScrolledChat} (run : (scrolledChatMachine owner partner).Run es s) :
    (∀ scroll ∈ s.controller.scrolls, scroll.Valid) ↔ firstResult es ≠ some [] := by
  have h := scrollInv run
  constructor
  · intro hvalid hempty
    obtain ⟨scroll, hmem, hinvalid⟩ := h.empty hempty
    exact hinvalid (hvalid scroll hmem)
  · intro hne
    cases hfirst : firstResult es with
    | none =>
      rw [(h.waiting hfirst).2.2]
      exact fun scroll hmem => absurd hmem List.not_mem_nil
    | some result =>
      refine (h.opened result hfirst ?_).2
      rintro rfl
      exact hne hfirst

/-- The first message is sent and shown; it is deleted again, and the chat stays where it is. -/
theorem scrolls_valid_sent :
    ∃ s, (scrolledChatMachine "a" "b").Run
        (chatSent ++ [.commit (.delete (messagePath "a" "b" "m"))]
          ++ [.snapshot () [] [("m", ⟨.removed, chatData "m" 1⟩)]]) s
      ∧ s.controller.scrolls.map Scroll.item = [0, 0]
      ∧ ∀ scroll ∈ s.controller.scrolls, scroll.Valid := by
  have hstart : ((scrolledChatMachine "a" "b").under fun _ _ => True).Run [] ⟨∅, [], {}⟩ :=
    .nil ⟨trivial, rfl, rfl⟩
  have hadded : ChangesTo [] [("m", chatData "m" 1)] [("m", ⟨.added, chatData "m" 1⟩)] :=
    .ofAdded (fun x hx => absurd hx List.not_mem_nil) (List.nodup_singleton _)
  have hsent := Listener.run_commit (w := .setData (messagePath "a" "b" "m") (chatData "m" 1))
    hstart trivial trivial rfl
  have hshown := Listener.run_snapshot (e := ()) hsent ⟨.refl _, List.pairwise_singleton ..⟩ hadded
    trivial trivial
  have hdeleted := Listener.run_commit (w := .delete (messagePath "a" "b" "m")) hshown trivial
    trivial rfl
  have run := Listener.run_snapshot (e := ()) hdeleted ⟨.refl _, .nil⟩ chatRemoved trivial trivial
  refine ⟨_, run.of_under, rfl, (scrolls_valid_iff run.of_under).mpr fun hempty => ?_⟩
  exact absurd (Option.some.inj hempty) (List.cons_ne_nil _ _)

/-- `a` opens the chat with `b` before anything has been written. -/
theorem scrolls_invalid :
    ∃ s, (scrolledChatMachine "a" "b").Run [.snapshot () [] []] s
      ∧ s.controller.scrolls = [⟨-1, 0⟩]
      ∧ ¬ ∀ scroll ∈ s.controller.scrolls, scroll.Valid := by
  have hstart : ((scrolledChatMachine "a" "b").under fun _ _ => True).Run [] ⟨∅, [], {}⟩ :=
    .nil ⟨trivial, rfl, rfl⟩
  have hnothing : ChangesTo [] [] [] :=
    .ofAdded (fun x hx => absurd hx List.not_mem_nil) List.nodup_nil
  have run := Listener.run_snapshot (e := ()) hstart ⟨.refl _, .nil⟩ hnothing trivial trivial
  refine ⟨_, run.of_under, rfl, fun hvalid => ?_⟩
  have hitem := (hvalid ⟨-1, 0⟩ (List.mem_singleton_self _)).1
  exact absurd hitem (by decide)

end InstaClone
