import InstaClone.Listeners
import InstaClone.Messaging

/-!
# Whether the conversation list equals the stored entries

`ConversationsController` puts every document that a snapshot reports, whatever has happened
to it, into a dictionary under the partner's identifier, and shows the dictionary's values in
the order in which the dictionary lists them.

An entry's dictionary names its owner and his partner, so the partner's identifier is that of
the entry (`IsEntry.chatPartnerId`), and a document that has been set or overwritten replaces
the row of its conversation. A document that has been deleted does too, so its row stays; and
a dictionary lists its values in any order (`KeepsRows`).
-/

namespace InstaClone

open Async (Machine)

/-! ## The entries of a user -/

/-- The query of `fetchRecentMessages`. -/
def recentsOf (owner : String) : Query :=
  { collection := ["messages", owner, recentMessages], orderBy := some ("timestamp", false) }

/-- `ConversationsController` in the session of `owner`, which listens to that query. Beside
the snapshot the callback gets the values of its dictionary in some order. -/
def conversationListener (owner : String) :
    Listener ConversationRows ConversationRowsEvent Message (List Message) where
  source := conversationRows
  query := recentsOf owner
  hear values changes := .snapshot (some owner) changes values

/-- The dictionary of a message between `owner` and `partner`. -/
def IsEntry (owner partner : String) (d : Doc) : Prop :=
  ∃ sender turn text user, d = MessagingService.messageData sender turn text user
    ∧ (sender = owner ∧ user.uid = partner ∨ sender = partner ∧ user.uid = owner)

/-- The row of an entry is filed under the partner. -/
theorem IsEntry.chatPartnerId {owner partner : String} {d : Doc} (h : IsEntry owner partner d) :
    (Message.init (some owner) d).chatPartnerId = partner := by
  obtain ⟨sender, turn, text, user, rfl, hbetween⟩ := h
  have hmessage : (Message.init (some owner)
      (MessagingService.messageData sender turn text user)).chatPartnerId
        = if (some sender == some owner) = true then user.uid else sender := rfl
  rw [hmessage]
  rcases hbetween with ⟨rfl, rfl⟩ | ⟨rfl, rfl⟩
  · rw [if_pos (by simp)]
  · split
    next heq => exact (by simpa using heq : sender = user.uid).symm
    next => rfl

/-- The collection has entries only. -/
def StoresEntries (owner : String) (docs : Store) : Prop :=
  ∀ x ∈ docs.documents (recentsOf owner).collection, IsEntry owner x.1 x.2

/-- The query finds all entries. -/
theorem StoresEntries.results {owner : String} {docs : Store} (h : StoresEntries owner docs) :
    (recentsOf owner).results docs = docs.documents (recentsOf owner).collection := by
  refine List.filter_eq_self.mpr fun x hx => ?_
  obtain ⟨sender, turn, text, user, heq, -⟩ := h x hx
  simp [recentsOf, Query.selects, heq, MessagingService.messageData, dict]

/-- What `uploadMessage` and `deleteMessages` write: an entry of a message between the owner
and the partner, and its deletion. Elsewhere anything may be written. -/
inductive WritesEntry (owner : String) (docs : Store) : Write → Prop
  | set (partner : String) (d : Doc) (h : IsEntry owner partner d) :
      WritesEntry owner docs (.setData (entryPath owner partner) d)
  | removed (partner : String) : WritesEntry owner docs (.delete (entryPath owner partner))
  | other {w : Write} (h : ∀ partner, entryPath owner partner ≠ w.path) :
      WritesEntry owner docs w

theorem StoresEntries.commit {owner : String} {docs docs' : Store} {w : Write}
    (h : StoresEntries owner docs) (hw : WritesEntry owner docs w)
    (hdocs : w.apply docs = some docs') : StoresEntries owner docs' := by
  rintro ⟨partner, d⟩ hx
  rw [Store.mem_documents] at hx
  by_cases hpath : entryPath owner partner = w.path
  · have hlook : w.effect (docs.lookup w.path) = some d := by
      rw [← Write.lookup_apply hdocs, ← hpath]
      exact hx
    cases hw with
    | set partner' d' hentry =>
      obtain rfl : partner = partner' := by simpa [entryPath] using hpath
      obtain rfl := Option.some.inj hlook
      exact hentry
    | removed partner' => exact absurd hlook (by simp [Write.effect])
    | other hother => exact absurd hpath (hother partner)
  · exact h (partner, d)
      (Store.mem_documents.mpr ((Write.lookup_apply_ne hdocs hpath).symm.trans hx))

/-- The conversation list next to a store. -/
def conversationMachine (owner : String) :
    Machine (Listening ConversationRows) (ListeningEvent (List Message)) :=
  (conversationListener owner).listening (StoresEntries owner) (WritesEntry owner)

/-- No snapshot removes anything, and the dictionary lists its values in the order of their
documents' timestamps. -/
def KeepsRows (owner : String) (_ : Listening ConversationRows) :
    ListeningEvent (List Message) → Prop
  | .snapshot values result changes =>
    reported .removed changes = []
      ∧ values.Pairwise fun m m' => ∀ x ∈ result, ∀ y ∈ result,
        x.1 = m.chatPartnerId → y.1 = m'.chatPartnerId → (recentsOf owner).byField x y = true
  | _ => True

/-! ## The dictionary -/

/-- Filing messages of different conversations. -/
theorem lookup_updated (controller : ConversationRows) {messages : List Message}
    (hnodup : (messages.map Message.chatPartnerId).Nodup) (partner : String) :
    (∀ message ∈ messages, message.chatPartnerId = partner →
        (controller.updated messages).lookup partner = some message)
      ∧ (partner ∉ messages.map Message.chatPartnerId →
        (controller.updated messages).lookup partner
          = controller.conversationsDictionary.lookup partner) := by
  unfold ConversationRows.updated
  generalize controller.conversationsDictionary = dictionary
  induction messages generalizing dictionary with
  | nil => exact ⟨fun _ h => absurd h List.not_mem_nil, fun _ => rfl⟩
  | cons message messages ih =>
    rw [List.map_cons, List.nodup_cons] at hnodup
    obtain ⟨hfiled, hother⟩ := ih hnodup.2 (dictionary.insert message.chatPartnerId message)
    constructor
    · intro message' hmem hpartner
      rcases List.mem_cons.mp hmem with rfl | hmem
      · -- the later messages belong to other conversations
        subst hpartner
        rw [List.foldl_cons, hother hnodup.1]
        exact AList.lookup_insert dictionary
      · exact hfiled message' hmem hpartner
    · intro hnone
      rw [List.map_cons, List.mem_cons, not_or] at hnone
      rw [List.foldl_cons, hother hnone.2]
      exact AList.lookup_insert_ne hnone.1

/-- The dictionary files the row of everything shown under its partner, and nothing else. -/
structure ConversationInv (owner : String) (s : Listening ConversationRows) : Prop where
  filed : ∀ partner message, s.controller.conversationsDictionary.lookup partner = some message ↔
    ∃ d, (partner, d) ∈ s.shown ∧ Message.init (some owner) d = message
  nodup : (s.shown.map Prod.fst).Nodup
  entries : ∀ x ∈ s.shown, IsEntry owner x.1 x.2
  stored : StoresEntries owner s.docs

variable {owner : String} {s s' : Listening ConversationRows} {values : List Message}
  {result : List (String × Doc)} {changes : List (String × DocumentChange)}

/-- Where nothing is removed, every document reported is there now. -/
theorem mem_of_reported (hchanges : ChangesTo s.shown result changes)
    (hremoved : reported .removed changes = []) {change : String × DocumentChange}
    (h : change ∈ changes) : (change.1, change.2.document) ∈ result := by
  have hreported := mem_reported h
  cases htype : change.2.type with
  | added =>
    rw [htype, hchanges.added] at hreported
    exact List.mem_of_mem_filter hreported
  | modified =>
    rw [htype] at hreported
    exact ((hchanges.modified _).mp hreported).1
  | removed =>
    rw [htype, hremoved] at hreported
    exact absurd hreported List.not_mem_nil

/-- The messages of the documents reported. -/
def heard (owner : String) (changes : List (String × DocumentChange)) : List Message :=
  (changes.map Prod.snd).map fun change => Message.init (some owner) change.document

/-- Where nothing is removed, the dictionary files what is there now. -/
theorem ConversationInv.filed_snapshot (h : ConversationInv owner s)
    (hanswers : (recentsOf owner).Answers s.docs result)
    (hentries : ∀ x ∈ result, IsEntry owner x.1 x.2) (hchanges : ChangesTo s.shown result changes)
    (hremoved : reported .removed changes = []) (partner : String) (message : Message) :
    (s.controller.updated (heard owner changes)).lookup partner = some message ↔
      ∃ d, (partner, d) ∈ result ∧ Message.init (some owner) d = message := by
  have hthere : ∀ change ∈ changes, (change.1, change.2.document) ∈ result :=
    fun change hchange => mem_of_reported hchanges hremoved hchange
  have hids : (heard owner changes).map Message.chatPartnerId = changes.map Prod.fst := by
    rw [heard, List.map_map, List.map_map]
    exact List.map_congr_left fun change hchange =>
      (hentries _ (hthere change hchange)).chatPartnerId
  obtain ⟨hfiled, hother⟩ := lookup_updated s.controller
    (hids ▸ hchanges.nodup) partner
  by_cases hpartner : partner ∈ changes.map Prod.fst
  · -- the document is reported
    obtain ⟨change, hchange, rfl⟩ := List.mem_map.mp hpartner
    have hmem : Message.init (some owner) change.2.document ∈ heard owner changes :=
      List.mem_map_of_mem (List.mem_map_of_mem hchange)
    rw [hfiled _ hmem (hentries _ (hthere change hchange)).chatPartnerId, Option.some.injEq]
    constructor
    · exact fun heq => ⟨_, hthere change hchange, heq⟩
    · rintro ⟨d, hd, heq⟩
      have hsame := List.inj_on_of_nodup_map hanswers.nodup hd (hthere change hchange) rfl
      rw [← heq, (Prod.mk.inj hsame).2]
  · rw [hother (hids ▸ hpartner), h.filed]
    have hsame : ∀ d, (partner, d) ∈ s.shown ↔ (partner, d) ∈ result :=
      fun d => hchanges.unchanged h.nodup hpartner
    simp only [hsame]

/-- The dictionary's values are the rows of what is there. -/
theorem ConversationInv.values_perm (h : ConversationInv owner s) :
    (s.controller.conversationsDictionary.entries.map (·.2)).Perm
      (s.shown.map fun x => Message.init (some owner) x.2) := by
  have hentries : s.controller.conversationsDictionary.entries.Perm
      (s.shown.map fun x => ⟨x.1, Message.init (some owner) x.2⟩) := by
    have hkeys : (s.shown.map fun x =>
        (⟨x.1, Message.init (some owner) x.2⟩ : (_ : String) × Message)).Nodup := by
      refine List.Nodup.of_map Sigma.fst ?_
      rw [List.map_map]
      exact h.nodup
    refine (List.perm_ext_iff_of_nodup (s.controller.conversationsDictionary.nodupKeys.nodup)
      hkeys).mpr ?_
    rintro ⟨partner, message⟩
    rw [← AList.mem_lookup_iff, Option.mem_def, h.filed]
    simp [eq_comm]
  have hmap := hentries.map Sigma.snd
  rwa [List.map_map] at hmap

theorem ConversationInv.step {ev : ListeningEvent (List Message)} (h : ConversationInv owner s)
    (hallowed : (conversationMachine owner).allows s ev) (hkeeps : KeepsRows owner s ev)
    (hstep : (conversationMachine owner).step s ev = some s') : ConversationInv owner s' := by
  cases ev with
  | commit w =>
    obtain ⟨docs, hdocs, rfl⟩ := Option.map_eq_some_iff.mp hstep
    exact ⟨h.filed, h.nodup, h.entries, h.stored.commit hallowed hdocs⟩
  | snapshot values result changes =>
    obtain ⟨hanswers, hchanges, -⟩ := hallowed
    obtain rfl := Option.some.inj hstep
    have hentries : ∀ x ∈ result, IsEntry owner x.1 x.2 := fun x hx =>
      h.stored x (List.mem_of_mem_filter (hanswers.perm.mem_iff.mp hx))
    exact ⟨h.filed_snapshot hanswers hentries hchanges hkeeps.1, hanswers.nodup, hentries,
      h.stored⟩
  | failed values =>
    obtain rfl := Option.some.inj hstep
    exact h

theorem conversationInv {es : List (ListeningEvent (List Message))}
    (run : ((conversationMachine owner).under (KeepsRows owner)).Run es s) :
    ConversationInv owner s := by
  refine run.invariant (I := fun _ s => ConversationInv owner s) ?_ ?_
  · rintro s ⟨hstored, hshown, hcontroller⟩
    refine ⟨fun partner message => ?_, ?_, ?_, hstored⟩
    · rw [hcontroller, hshown]
      refine iff_of_false (by simp [conversationListener, conversationRows]) ?_
      rintro ⟨d, hd, -⟩
      exact absurd hd List.not_mem_nil
    · rw [hshown]
      exact .nil
    · rw [hshown]
      exact fun x hx => absurd hx List.not_mem_nil
  · exact fun _ _ _ _ h hallowed hstep => h.step hallowed.1 hallowed.2 hstep

/-- **The conversation list equals the stored entries.** Entries are set, overwritten and
deleted, and snapshots bring the changes in any grouping: as long as none of them removes
anything and the dictionary lists its values in the order of the timestamps, there is one row
for every stored entry, with its current data, oldest first. -/
theorem conversations_follow {es : List (ListeningEvent (List Message))}
    (run : ((conversationMachine owner).under (KeepsRows owner)).Run
      (es ++ [.snapshot values result changes]) s) :
    ∃ array : List (String × Doc), array.Perm (s.docs.documents (recentsOf owner).collection)
      ∧ array.Pairwise (fun x y => (recentsOf owner).byField x y = true)
      ∧ s.controller.conversations = array.map fun x => Message.init (some owner) x.2 := by
  have hinv := conversationInv run
  obtain ⟨s₀, -, ⟨⟨hanswers, hchanges, hvalues⟩, -, hsorted⟩, hstep⟩ := run.last
  obtain rfl := Option.some.inj hstep
  have hperm : values.Perm (result.map fun x => Message.init (some owner) x.2) :=
    List.Perm.trans (hvalues _ rfl) hinv.values_perm
  obtain ⟨array, rfl, harray⟩ :=
    (congrFun (congrFun (List.eq_map_comp_perm _) values) result).mpr hperm
  have hdocs : array.Perm (s₀.docs.documents (recentsOf owner).collection) := by
    have hresults := hanswers.perm
    rw [show (conversationListener owner).query.results s₀.docs
      = s₀.docs.documents (recentsOf owner).collection from hinv.stored.results] at hresults
    exact harray.trans hresults
  refine ⟨array, hdocs, ?_, rfl⟩
  rw [List.pairwise_map] at hsorted
  refine hsorted.imp_of_mem fun {x y} hx hy hbyField => ?_
  have hresult : ∀ z ∈ array, z ∈ result
      ∧ z.1 = (Message.init (some owner) z.2).chatPartnerId := fun z hz =>
    ⟨harray.mem_iff.mp hz, (hinv.entries z (harray.mem_iff.mp hz)).chatPartnerId.symm⟩
  exact hbyField x (hresult x hx).1 y (hresult y hy).1 (hresult x hx).2 (hresult y hy).2

/-! ## Two runs -/

/-- What `a` writes to `partner` when the clock of `a` shows `seconds`. -/
def lastWord (partner : String) (seconds : Int) : Doc :=
  MessagingService.messageData "a" ⟨some "a", none, ⟨seconds, 0⟩, "id"⟩ "hello"
    (User.init (dict [("uid", .string partner)]))

theorem isEntry_lastWord (partner : String) (seconds : Int) :
    IsEntry "a" partner (lastWord partner seconds) :=
  ⟨"a", _, _, _, rfl, Or.inl ⟨rfl, rfl⟩⟩

/-- The row of that message. -/
def lastRow (partner : String) (seconds : Int) : Message :=
  Message.init (some "a") (lastWord partner seconds)

/-- `a` writes to `b`, and the row of the conversation appears. -/
def firstRow : List (ListeningEvent (List Message)) :=
  [.commit (.setData (entryPath "a" "b") (lastWord "b" 1)),
    .snapshot [lastRow "b" 1] [("b", lastWord "b" 1)] [("b", ⟨.added, lastWord "b" 1⟩)]]

def rowShown (docs : Store) : Listening ConversationRows where
  docs := docs
  shown := [("b", lastWord "b" 1)]
  controller :=
    { conversations := [lastRow "b" 1]
      conversationsDictionary := AList.insert "b" (lastRow "b" 1) ∅ }

def rowDocs : Store := (∅ : Store).insert (entryPath "a" "b") (lastWord "b" 1)

theorem run_firstRow (ok : Listening ConversationRows → ListeningEvent (List Message) → Prop)
    (hcommit : ∀ s w, ok s (.commit w)) (hfirst : ∀ s, s.shown = [] →
      ok s (.snapshot [lastRow "b" 1] [("b", lastWord "b" 1)] [("b", ⟨.added, lastWord "b" 1⟩)])) :
    ((conversationMachine "a").under ok).Run firstRow (rowShown rowDocs) := by
  have hstart : ((conversationMachine "a").under ok).Run [] ⟨∅, [], {}⟩ :=
    .nil ⟨fun x hx => absurd hx List.not_mem_nil, rfl, rfl⟩
  have hchanges : ChangesTo [] [("b", lastWord "b" 1)] [("b", ⟨.added, lastWord "b" 1⟩)] :=
    .ofAdded (fun x hx => absurd hx List.not_mem_nil) (List.nodup_singleton _)
  have hwritten := Listener.run_commit (w := .setData (entryPath "a" "b") (lastWord "b" 1))
    hstart (.set "b" _ (isEntry_lastWord "b" 1)) (hcommit _ _) rfl
  refine Listener.run_snapshot (e := [lastRow "b" 1]) hwritten
    ⟨.refl _, List.pairwise_singleton ..⟩ hchanges ?_ (hfirst _ rfl)
  rintro changes ⟨rfl⟩
  exact .refl _

/-- `a` writes to `c`, whose row comes second. -/
theorem conversations_follow_second :
    ∃ s, ((conversationMachine "a").under (KeepsRows "a")).Run
        (firstRow ++ [.commit (.setData (entryPath "a" "c") (lastWord "c" 2))]
          ++ [.snapshot [lastRow "b" 1, lastRow "c" 2]
            [("b", lastWord "b" 1), ("c", lastWord "c" 2)] [("c", ⟨.added, lastWord "c" 2⟩)]]) s
      ∧ s.controller.conversations.map Message.toId = ["b", "c"]
      ∧ ∃ array : List (String × Doc), array.Perm (s.docs.documents (recentsOf "a").collection)
        ∧ array.Pairwise (fun x y => (recentsOf "a").byField x y = true)
        ∧ s.controller.conversations = array.map fun x => Message.init (some "a") x.2 := by
  have hanswers : (recentsOf "a").Answers
      (rowDocs.insert (entryPath "a" "c") (lastWord "c" 2))
      [("b", lastWord "b" 1), ("c", lastWord "c" 2)] := by
    exact ⟨.swap .., List.pairwise_pair.mpr rfl⟩
  have hchanges : ChangesTo [("b", lastWord "b" 1)]
      [("b", lastWord "b" 1), ("c", lastWord "c" 2)] [("c", ⟨.added, lastWord "c" 2⟩)] :=
    .ofAdded (by simp) hanswers.nodup
  have hfirst := run_firstRow (KeepsRows "a") (fun _ _ => trivial)
    fun _ _ => ⟨rfl, List.pairwise_singleton ..⟩
  have hwritten := Listener.run_commit (w := .setData (entryPath "a" "c") (lastWord "c" 2))
    hfirst (.set "c" _ (isEntry_lastWord "c" 2)) trivial rfl
  have hkeeps : KeepsRows "a" (rowShown (rowDocs.insert (entryPath "a" "c") (lastWord "c" 2)))
      (.snapshot [lastRow "b" 1, lastRow "c" 2]
        [("b", lastWord "b" 1), ("c", lastWord "c" 2)] [("c", ⟨.added, lastWord "c" 2⟩)]) := by
    refine ⟨rfl, List.pairwise_pair.mpr ?_⟩
    intro x hx y hy hx1 hy1
    obtain rfl : x = ("b", lastWord "b" 1) :=
      List.inj_on_of_nodup_map hanswers.nodup hx (by simp) hx1
    obtain rfl : y = ("c", lastWord "c" 2) :=
      List.inj_on_of_nodup_map hanswers.nodup hy (by simp) hy1
    rfl
  have run := Listener.run_snapshot (e := [lastRow "b" 1, lastRow "c" 2]) hwritten hanswers
    hchanges (by rintro changes ⟨rfl⟩; exact .swap ..) hkeeps
  exact ⟨_, run, rfl, conversations_follow run⟩

/-- The conversation is deleted, and its row stays. -/
theorem conversations_deleted :
    ∃ s, (conversationMachine "a").Run
        (firstRow ++ [.commit (.delete (entryPath "a" "b"))]
          ++ [.snapshot [lastRow "b" 1] [] [("b", ⟨.removed, lastWord "b" 1⟩)]]) s
      ∧ s.docs.documents (recentsOf "a").collection = []
      ∧ s.controller.conversations.map Message.chatPartnerId = ["b"] := by
  have hchanges : ChangesTo [("b", lastWord "b" 1)] [] [("b", ⟨.removed, lastWord "b" 1⟩)] :=
    { added := rfl
      modified := fun x => by simp [reported]
      removed := fun x => by simp [reported]
      nodup := List.nodup_singleton _ }
  have hfirst := run_firstRow (fun _ _ => True) (fun _ _ => trivial) fun _ _ => trivial
  have hdeleted := Listener.run_commit (w := .delete (entryPath "a" "b")) hfirst (.removed "b")
    trivial rfl
  have run := Listener.run_snapshot (e := [lastRow "b" 1]) hdeleted ⟨.refl _, .nil⟩ hchanges
    (by rintro changes ⟨rfl⟩; exact .refl _) trivial
  exact ⟨_, run.of_under, rfl, rfl⟩

end InstaClone
