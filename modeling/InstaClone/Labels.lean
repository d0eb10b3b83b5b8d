import InstaClone.Copies
import InstaClone.Frames

/-!
# Who a conversation is labelled with

`uploadMessage` stores one dictionary four times, with the name and the picture of the `User`
it is given, the receiver. A row of the conversation list shows that name and that picture in
the session of the sender and in that of the receiver alike, and a chat shows that picture
beside the messages that have come in.

Whatever is stored of a message is what some call has sent (`Stores`), to its sender or its
receiver. So the label is the partner's in the session of the sender, and in the session of
the receiver only if the sender looks the same as he (`LooksLike`).
-/

namespace InstaClone

open Async

/-! ## What the cells show -/

structure MessageViewModel where
  message : Message

namespace MessageViewModel

def shouldHideProfileImage (viewModel : MessageViewModel) : Bool :=
  viewModel.message.isFromCurrentUser

def messageText (viewModel : MessageViewModel) : String := viewModel.message.text

def username (viewModel : MessageViewModel) : String := viewModel.message.username

/-- The string that `URL(string:)` is called with. -/
def profileImageUrl (viewModel : MessageViewModel) : String := viewModel.message.profileImageUrl

end MessageViewModel

/-- `ConversationCell`: its labels, and the URL its image is loaded from. -/
structure ConversationCell where
  usernameLabel : String
  messageTextLabel : String
  profileImageView : String

/-- `ConversationCell.configure()`, with a view model. -/
def ConversationCell.configure (viewModel : MessageViewModel) : ConversationCell where
  usernameLabel := viewModel.username
  messageTextLabel := viewModel.messageText
  profileImageView := viewModel.profileImageUrl

/-- `MessageCell` of a chat. -/
structure MessageCell where
  textView : String
  profileImageIsHidden : Bool
  profileImageView : String

/-- `MessageCell.configure()`, with a view model. -/
def MessageCell.configure (viewModel : MessageViewModel) : MessageCell where
  textView := viewModel.messageText
  profileImageIsHidden := viewModel.shouldHideProfileImage
  profileImageView := viewModel.profileImageUrl

/-! ## The name and the picture of the partner -/

/-- The two users have the same name and the same picture. -/
def User.LooksLike (user user' : User) : Prop :=
  user.username = user'.username ∧ user.profileImageUrl = user'.profileImageUrl

/-- In the session of `viewer` the row of the message shows the name and the picture of the
partner, who is the user `profile` has under his uid. -/
def RowShowsPartner (profile : String → User) (viewer : String) (d : Doc) : Prop :=
  let message := Message.init (some viewer) d
  let cell := ConversationCell.configure ⟨message⟩
  cell.usernameLabel = (profile message.chatPartnerId).username
    ∧ cell.profileImageView = (profile message.chatPartnerId).profileImageUrl

/-- In the session of `viewer` the chat shows the picture of the sender beside the message if
it has come in. -/
def ChatShowsSender (profile : String → User) (viewer : String) (d : Doc) : Prop :=
  let message := Message.init (some viewer) d
  let cell := MessageCell.configure ⟨message⟩
  cell.profileImageIsHidden = false →
    cell.profileImageView = (profile message.fromId).profileImageUrl

/-- The user that `uploadMessage` was given looks like the partner of `viewer`: like the
receiver of the message for the sender, like the sender for the receiver. -/
def GivenPartner (profile : String → User) (viewer sender : String) (user : User) : Prop :=
  if viewer = sender then user.LooksLike (profile user.uid) else user.LooksLike (profile sender)

/-- The viewer has sent the message, or the user that `uploadMessage` was given has the picture
of the sender. -/
def GivenSender (profile : String → User) (viewer sender : String) (user : User) : Prop :=
  viewer = sender ∨ user.profileImageUrl = (profile sender).profileImageUrl

variable {profile : String → User} {viewer sender text : String} {turn : Turn} {user : User}

theorem rowShowsPartner_iff :
    RowShowsPartner profile viewer (MessagingService.messageData sender turn text user)
      ↔ GivenPartner profile viewer sender user := by
  have hpartner : (Message.init (some viewer)
      (MessagingService.messageData sender turn text user)).chatPartnerId
        = if (some sender == some viewer) = true then user.uid else sender := rfl
  unfold RowShowsPartner GivenPartner User.LooksLike
  dsimp only
  rw [hpartner]
  by_cases hsender : viewer = sender
  · rw [if_pos (by simp [hsender]), if_pos hsender]
    exact Iff.rfl
  · rw [if_neg (by simpa using Ne.symm hsender), if_neg hsender]
    exact Iff.rfl

theorem chatShowsSender_iff :
    ChatShowsSender profile viewer (MessagingService.messageData sender turn text user)
      ↔ GivenSender profile viewer sender user := by
  have hhidden : (MessageCell.configure ⟨Message.init (some viewer)
      (MessagingService.messageData sender turn text user)⟩).profileImageIsHidden
        = (some sender == some viewer) := rfl
  unfold ChatShowsSender GivenSender
  dsimp only
  rw [hhidden]
  by_cases hsender : viewer = sender
  · exact iff_of_true (fun h => absurd h (by simp [hsender])) (Or.inl hsender)
  · constructor
    · exact fun h => Or.inr (h (by simpa using Ne.symm hsender))
    · rintro (h | h) -
      · exact absurd h hsender
      · exact h

/-! ## What is stored of the messages -/

/-- A document that `uploadMessage` stores the message in: a copy under either user, or the
entry of either. -/
inductive Sent.Stores (m : Sent) : Path → Prop
  | near (id) : m.Stores (messagePath m.sender m.receiver id)
  | far (id) : m.Stores (messagePath m.receiver m.sender id)
  | nearEntry : m.Stores (entryPath m.sender m.receiver)
  | farEntry : m.Stores (entryPath m.receiver m.sender)

/-- The owner of the document is one of the two. -/
theorem Sent.Stores.owner {m : Sent} {owner : String} {path : Path}
    (h : m.Stores ("messages" :: owner :: path)) : owner = m.sender ∨ owner = m.receiver := by
  generalize hpath : "messages" :: owner :: path = path' at h
  cases h with
  | near id => exact Or.inl (List.cons.inj (List.cons.inj hpath).2).1
  | far id => exact Or.inr (List.cons.inj (List.cons.inj hpath).2).1
  | nearEntry => exact Or.inl (List.cons.inj (List.cons.inj hpath).2).1
  | farEntry => exact Or.inr (List.cons.inj (List.cons.inj hpath).2).1

variable {S : Type}

/-- Whatever is set is one of the messages sent so far. -/
def StoresSent (es : List (AppEvent S MessageAction)) : Request → Prop
  | .write (.setData path d) => ∃ m ∈ sent es, m.Stores path ∧ d = m.data
  | .write (.updateData _ _) => False
  | _ => True

theorem StoresSent.snoc {es : List (AppEvent S MessageAction)} {r : Request}
    (h : StoresSent es r) (ev : AppEvent S MessageAction) : StoresSent (es ++ [ev]) r := by
  unfold StoresSent at h ⊢
  split at h
  next path d =>
    obtain ⟨m, hm, hstores⟩ := h
    exact ⟨m, by rw [sent_snoc]; exact List.mem_append_left _ hm, hstores⟩
  next => exact h.elim
  next => trivial

/-- What is in flight sets only messages sent so far. -/
abbrev SetsSent (es : List (AppEvent S MessageAction)) (fl : Flight Request Response Turn String) :
    Prop :=
  fl.Spares (StoresSent es) fun _ => ()

/-- A call sets only what it sends. -/
theorem setsSent_program (es : List (AppEvent S MessageAction)) (s : S) (a : MessageAction)
    (turn : Turn) (text : String) :
    ∀ fl ∈ (a.program.exec turn text).2, SetsSent (es ++ [.invoke s a turn]) fl := by
  intro fl hfl
  cases hin : turn.currentUid with
  | none =>
    rw [exec_signedOut hin] at hfl
    exact absurd hfl List.not_mem_nil
  | some uid =>
    cases a with
    | deleteMessages user =>
      rw [exec_deleteMessages hin] at hfl
      rcases List.mem_cons.mp hfl with rfl | hfl
      · exact ⟨trivial, fun snapshot => .forEach fun document => spares_silent trivial⟩
      · obtain rfl := List.mem_singleton.mp hfl
        exact ⟨trivial, fun _ => trivial⟩
    | uploadMessage message user =>
      rw [exec_uploadMessage hin] at hfl
      obtain rfl := List.mem_singleton.mp hfl
      let m : Sent := ⟨turn.autoId, uid, user.uid,
        MessagingService.messageData uid turn message user⟩
      have hsent : m ∈ sent (es ++ [.invoke s (.uploadMessage message user) turn]) := by
        rw [sent_snoc]
        refine List.mem_append_right _ ?_
        simp [sentBy, hin, m]
      have hsets : ∀ path, m.Stores path →
          StoresSent (es ++ [.invoke s (.uploadMessage message user) turn])
            (.write (.setData path m.data)) := fun path h => ⟨m, hsent, h, rfl⟩
      refine ⟨hsets _ (.near _), fun _ => .andThen (fun turn' => ?_) (.andThen ?_ ?_)⟩
      · refine spares_write (hsets _ (.far turn'.autoId)) fun error => ?_
        cases error with
        | some error => trivial
        | none => exact ⟨fun _ => rfl, trivial⟩
      · exact spares_silent (hsets _ .nearEntry)
      · exact spares_silent (hsets _ .farEntry)

/-- What is in flight sets only messages sent so far, and nothing else is stored. -/
structure SentInv (es : List (AppEvent S MessageAction)) (w : AppWorld String S) : Prop where
  pool : ∀ x ∈ w.pool, SetsSent es x.2
  docs : ∀ path d, w.backend.docs.lookup ("messages" :: path) = some d →
    ∃ m ∈ sent es, m.Stores ("messages" :: path) ∧ d = m.data

theorem SentInv.step [DecidableEq S] {es : List (AppEvent S MessageAction)}
    {w w' : AppWorld String S} {ev : AppEvent S MessageAction} (h : SentInv es w)
    (hstep : Stepped api MessageAction.program w ev w') : SentInv (es ++ [ev]) w' := by
  have hsnoc : ∀ m ∈ sent es, m ∈ sent (es ++ [ev]) := by
    intro m hm
    rw [sent_snoc]
    exact List.mem_append_left _ hm
  constructor
  · refine hstep.flights (P := SetsSent (es ++ [ev]))
      (fun x hx => (h.pool x hx).mono fun r hr => hr.snoc ev) ?_ (fun r k y hfl => ⟨hfl.1, hfl.2 y⟩)
      fun r p e text hfl => (hfl.2.exec e text).2
    rintro s a e rfl
    exact setsSent_program es s a e _
  · intro path d hd
    cases hstep with
    | serve hpool hfifo hserve =>
      rename_i pre post s r k o b y
      have hreq : StoresSent es r :=
        (h.pool (s, .issued r k) (mem_split hpool)).req
      have hold : b.docs.lookup ("messages" :: path)
          = w.backend.docs.lookup ("messages" :: path) →
          ∃ m ∈ sent (es ++ [.serve pre.length o]), m.Stores ("messages" :: path) ∧ d = m.data := by
        intro hsame
        obtain ⟨m, hm, hstores⟩ := h.docs path d (hsame.symm.trans hd)
        exact ⟨m, hsnoc m hm, hstores⟩
      by_cases hpath : ∃ write, r = .write write ∧ "messages" :: path = write.path
      · obtain ⟨write, rfl, heq⟩ := hpath
        rcases serve_write hserve with ⟨-, docs, hdocs, rfl⟩ | ⟨-, rfl⟩
        · have hlook := Write.lookup_apply hdocs
          rw [← heq] at hlook
          have heffect := hlook.symm.trans hd
          cases write with
          | setData path' data =>
            obtain rfl : "messages" :: path = path' := heq
            obtain rfl := Option.some.inj heffect
            obtain ⟨m, hm, hstores⟩ := hreq
            exact ⟨m, hsnoc m hm, hstores⟩
          | updateData path' fields => exact hreq.elim
          | delete path' => exact absurd heffect (by simp [Write.effect])
        · exact hold rfl
      · exact hold (serve_lookup_ne hserve fun write hwrite heq => hpath ⟨write, hwrite, heq⟩)
    | _ =>
      obtain ⟨m, hm, hstores⟩ := h.docs path d hd
      exact ⟨m, hsnoc m hm, hstores⟩

/-- The event sends the message stored as `d`. -/
def Sends (ev : AppEvent S MessageAction) (sender : String) (user : User) (d : Doc) : Prop :=
  ∃ s text turn, ev = .invoke s (.uploadMessage text user) turn ∧ turn.currentUid = some sender
    ∧ d = MessagingService.messageData sender turn text user

/-- **Conversations are labelled with the partner.** In every run of calls to `uploadMessage`
and `deleteMessages`, whatever fails or is lost: whatever is stored for a user has been sent
by or to him, and whoever else the users are when it is sent, its row shows the partner
exactly if `uploadMessage` was given somebody who looks like the partner, and the chat shows
the sender exactly if the user himself has sent it or `uploadMessage` was given somebody with
the sender's picture. -/
theorem labels_iff [DecidableEq S] {ok : AppWorld String S → AppEvent S MessageAction → Prop}
    {w₀ w : AppWorld String S} {es : List (AppEvent S MessageAction)} (hrest : w₀.Quiescent)
    (hempty : ∀ path, w₀.backend.docs.lookup ("messages" :: path) = none)
    (run : Run api MessageAction.program ok w₀ es w) {viewer : String} {path : Path} {d : Doc}
    (hd : w.backend.docs.lookup ("messages" :: viewer :: path) = some d)
    (profile : Nat → String → User) :
    (∃ (i : Nat) (ev : AppEvent S MessageAction) (sender : String) (user : User),
        es[i]? = some ev ∧ Sends ev sender user d ∧ (viewer = sender ∨ viewer = user.uid))
      ∧ ∀ (i : Nat) (ev : AppEvent S MessageAction) (sender : String) (user : User),
        es[i]? = some ev → Sends ev sender user d →
        (RowShowsPartner (profile i) viewer d ↔ GivenPartner (profile i) viewer sender user)
          ∧ (ChatShowsSender (profile i) viewer d
            ↔ GivenSender (profile i) viewer sender user) := by
  constructor
  · have hinv : SentInv es w := by
      refine run.invariant (I := SentInv) ⟨?_, fun path d hd => ?_⟩
        fun _ _ _ _ h _ hstep => h.step hstep
      · rw [hrest]
        exact fun x hx => absurd hx List.not_mem_nil
      · rw [hempty] at hd
        exact absurd hd (by simp)
    obtain ⟨m, hm, hstores, rfl⟩ := hinv.docs _ _ hd
    obtain ⟨ev, hev, hsent⟩ := List.mem_filterMap.mp hm
    obtain ⟨i, hi⟩ := List.mem_iff_getElem?.mp hev
    unfold sentBy at hsent
    split at hsent
    next s text user turn =>
      obtain ⟨uid, huid, rfl⟩ := Option.map_eq_some_iff.mp hsent
      exact ⟨i, _, uid, user, hi, ⟨s, text, turn, rfl, huid, rfl⟩, hstores.owner⟩
    next => exact absurd hsent (by simp)
  · rintro i ev sender user - ⟨s, text, turn, -, -, rfl⟩
    exact ⟨rowShowsPartner_iff, chatShowsSender_iff⟩

/-! ## One message -/

/-- The users `a`, who is called Ann, and `b`, who is called Bob. -/
def annAndBob : Store :=
  ((∅ : Store).insert ["users", "a"] (dict [("uid", .string "a"), ("username", .string "ann"),
      ("profileImageUrl", .string "ann.jpg")])).insert
    ["users", "b"] (dict [("uid", .string "b"), ("username", .string "bob"),
      ("profileImageUrl", .string "bob.jpg")])

/-- Who they are. -/
def whoIs (uid : String) : User := User.init ((annAndBob.lookup ["users", uid]).getD (dict []))

/-- Ann writes to Bob, and everything succeeds. -/
def annWrites : List (AppEvent Unit MessageAction) :=
  [.invoke () (.uploadMessage "hello" (whoIs "b")) (turnWith "a" "m"), .serve 0 (.success []),
    .deliver 0 (turnWith "a" "n"), .serve 0 (.success []), .serve 1 (.success []),
    .serve 2 (.success []), .deliver 0 (turnOf "a"), .deliver 0 (turnOf "a"),
    .deliver 0 (turnOf "a")]

/-- What is stored of it. -/
def hello : Doc :=
  MessagingService.messageData "a" (turnWith "a" "m") "hello" (whoIs "b")

theorem run_annWrites :
    ∃ w, Run api MessageAction.program Healthy
        (atRest ⟨annAndBob, [], []⟩ fun _ => "" : AppWorld String Unit) annWrites w
      ∧ w.Quiescent
      ∧ w.backend.docs.lookup (entryPath "a" "b") = some hello
      ∧ w.backend.docs.lookup (entryPath "b" "a") = some hello := by
  exact ⟨_, run_of_play rfl, rfl, rfl, rfl⟩

/-- In the session of Ann the conversation is labelled with Bob. -/
theorem labels_iff_sender :
    ∃ w, Run api MessageAction.program Healthy
        (atRest ⟨annAndBob, [], []⟩ fun _ => "" : AppWorld String Unit) annWrites w
      ∧ w.Quiescent
      ∧ w.backend.docs.lookup (entryPath "a" "b") = some hello
      ∧ RowShowsPartner whoIs "a" hello := by
  obtain ⟨w, run, hquiet, hd, -⟩ := run_annWrites
  have hempty : ∀ path, annAndBob.lookup ("messages" :: path) = none := by
    intro path
    unfold annAndBob
    rw [AList.lookup_insert_ne (by simp), AList.lookup_insert_ne (by simp)]
    rfl
  have hrest : (atRest ⟨annAndBob, [], []⟩ fun _ => "" : AppWorld String Unit).Quiescent := rfl
  have hlabels := labels_iff hrest hempty run hd fun _ => whoIs
  have hgiven : GivenPartner whoIs "a" "a" (whoIs "b") := ⟨rfl, rfl⟩
  exact ⟨w, run, hquiet, hd, (hlabels.2 0 _ "a" (whoIs "b") rfl ⟨_, _, _, rfl, rfl, rfl⟩).1.mpr
    hgiven⟩

/-- In the session of Bob it is labelled with Bob too, and the chat shows Bob's picture beside
what Ann has written. -/
theorem labels_receiver :
    ∃ w, Run api MessageAction.program Healthy
        (atRest ⟨annAndBob, [], []⟩ fun _ => "" : AppWorld String Unit) annWrites w
      ∧ w.Quiescent
      ∧ w.backend.docs.lookup (entryPath "b" "a") = some hello
      ∧ (Message.init (some "b") hello).chatPartnerId = "a"
      ∧ ¬ RowShowsPartner whoIs "b" hello ∧ ¬ ChatShowsSender whoIs "b" hello := by
  obtain ⟨w, run, hquiet, -, hd⟩ := run_annWrites
  refine ⟨w, run, hquiet, hd, rfl, fun h => ?_, fun h => ?_⟩
  · exact absurd h.1 (by decide)
  · exact absurd (h rfl) (by decide)

end InstaClone
