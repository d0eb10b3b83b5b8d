import InstaClone.Async.Tracks
import InstaClone.Async.Trace
import InstaClone.Services
import InstaClone.Taps

/-!
# The message store, errand by errand

Each message is stored twice, under its sender and under its receiver, and the newest one of
a conversation once more for each of the two. `uploadMessage` writes its first copy and, once
that is acknowledged, the second copy and both entries; `deleteMessages` lists one user's
copies and deletes what it has listed, and that user's entry at once.

An `Errand` is a request of such a call with what its callback will do. `Mail` is what
happens to the stored documents and to the errands under way, read off the world:
`mail_of_stepped` says that every step of a world is one of its steps.
-/

namespace InstaClone

open Async

/-! ## The calls -/

/-- The completion of `ChatController.inputView(_:wantsToUploadComment:)`; the client state is
the text in the input view. -/
def ChatController.didUpload (error : Option Error) : Program String :=
  match error with
  | some _ => .done
  | none => .modify (fun _ => "") .done

inductive MessageAction where
  | uploadMessage (message : String) (user : User)
  | deleteMessages (user : User)

/-- The partner of the conversation. -/
def MessageAction.partner : MessageAction → String
  | uploadMessage _ user => user.uid
  | deleteMessages user => user.uid

def MessageAction.program : MessageAction → Program String
  | uploadMessage message user =>
    MessagingService.uploadMessage message user ChatController.didUpload
  | deleteMessages user => MessagingService.deleteMessages user noCompletion

/-- The collection of the entries, among those of the conversations. -/
abbrev recentMessages : String := "recent-messages"

/-- A copy of a message under `owner`. -/
abbrev messagePath (owner partner id : String) : Path := ["messages", owner, partner, id]

theorem messagePath_inj {owner partner id owner' partner' id' : String}
    (h : messagePath owner partner id = messagePath owner' partner' id') :
    owner = owner' ∧ partner = partner' ∧ id = id' := by
  simpa [messagePath] using h

/-- The entry of a conversation under `owner`. -/
abbrev entryPath (owner partner : String) : Path := ["messages", owner, recentMessages, partner]

/-- The copies under `owner`. -/
abbrev messagesOf (owner partner : String) : Query :=
  { collection := ["messages", owner, partner] }

/-- A message that has been sent: the identifier of its first copy, and its dictionary. -/
structure Sent where
  id : String
  sender : String
  receiver : String
  data : Doc

/-- The copy of the sender. -/
def Sent.near (m : Sent) : Path := messagePath m.sender m.receiver m.id

/-- The copy of the receiver. -/
def Sent.far (m : Sent) (id : String) : Path := messagePath m.receiver m.sender id

/-- The message an event sends. -/
def sentBy {S : Type} : AppEvent S MessageAction → Option Sent
  | .invoke _ (.uploadMessage message user) e =>
    e.currentUid.map fun uid =>
      ⟨e.autoId, uid, user.uid, MessagingService.messageData uid e message user⟩
  | _ => none

/-! ## Errands -/

/-- The callback of the first copy. -/
def didStoreNear (m : Sent) (_ : Option Error) : Program String :=
  (addDocument ["messages", m.receiver, m.sender] m.data ChatController.didUpload).andThen
  ((setData (entryPath m.sender m.receiver) m.data noCompletion).andThen
  (setData (entryPath m.receiver m.sender) m.data noCompletion))

/-- The callback of the query of `deleteMessages`. -/
def didList (owner partner : String) (snapshot : Option (List (String × Doc))) :
    Program String :=
  .forEach (snapshot.getD []) fun document =>
    delete (messagePath owner partner document.1) noCompletion

/-- What a request of a call is for. -/
inductive Errand where
  /-- Store the first copy. -/
  | near (m : Sent)
  /-- Store the second copy. -/
  | far (m : Sent) (id : String)
  /-- Set an entry. -/
  | entry (owner partner : String) (data : Doc)
  /-- List a user's copies. -/
  | list (owner partner : String)
  /-- Delete the copies that were listed. -/
  | listed (owner partner : String) (ids : List String)
  /-- Delete a copy. -/
  | remove (owner partner id : String)
  /-- Delete an entry. -/
  | removeEntry (owner partner : String)

namespace Errand

/-- The write an errand waits for. -/
def write : Errand → Option Write
  | near m => some (.setData m.near m.data)
  | far m id => some (.setData (m.far id) m.data)
  | entry owner partner data => some (.setData (entryPath owner partner) data)
  | list _ _ | listed _ _ _ => none
  | remove owner partner id => some (.delete (messagePath owner partner id))
  | removeEntry owner partner => some (.delete (entryPath owner partner))

/-- The errands its callback goes on with, in a turn that draws `id`. -/
def next (id : String) : Errand → List Errand
  | near m =>
    [far m id, entry m.sender m.receiver m.data, entry m.receiver m.sender m.data]
  | listed owner partner ids => ids.map (remove owner partner)
  | _ => []

/-- The flights of an errand; the flag says whether it waits to be served. -/
inductive At : Flight Request Response Turn String → Errand × Bool → Prop
  | near (m : Sent) : At (.issued (.write (.setData m.near m.data)) (didStoreNear m)) (near m, true)
  | nearDone (m : Sent) (y) :
      At (.served (.write (.setData m.near m.data)) (didStoreNear m y)) (near m, false)
  | far (m : Sent) (id) :
      At (.issued (.write (.setData (m.far id) m.data)) ChatController.didUpload) (far m id, true)
  | farDone (m : Sent) (id y) :
      At (.served (.write (.setData (m.far id) m.data)) (ChatController.didUpload y))
        (far m id, false)
  | entry (owner partner data) :
      At (.issued (.write (.setData (entryPath owner partner) data)) noCompletion)
        (entry owner partner data, true)
  | entryDone (owner partner data) :
      At (.served (.write (.setData (entryPath owner partner) data)) .done)
        (entry owner partner data, false)
  | list (owner partner) :
      At (.issued (.getDocuments (messagesOf owner partner)) (didList owner partner))
        (list owner partner, true)
  | listed (owner partner snapshot) :
      At (.served (.getDocuments (messagesOf owner partner)) (didList owner partner snapshot))
        (listed owner partner ((snapshot.getD []).map Prod.fst), false)
  | remove (owner partner id) :
      At (.issued (.write (.delete (messagePath owner partner id))) noCompletion)
        (remove owner partner id, true)
  | removed (owner partner id) :
      At (.served (.write (.delete (messagePath owner partner id))) .done)
        (remove owner partner id, false)
  | removeEntry (owner partner) :
      At (.issued (.write (.delete (entryPath owner partner))) noCompletion)
        (removeEntry owner partner, true)
  | removedEntry (owner partner) :
      At (.served (.write (.delete (entryPath owner partner))) .done)
        (removeEntry owner partner, false)

end Errand

section Mail

variable {S : Type}

/-- What is in flight, errand by errand. -/
abbrev Errands : List (S × Flight Request Response Turn String) →
    List (S × (Errand × Bool)) → Prop :=
  Tracks (fun _ _ => False) fun _ fl t => Errand.At fl t

/-- The stored documents. -/
abbrev Stored := Path → Option Doc

/-- A write is committed. -/
def Stored.commit (docs : Stored) (w : Write) : Stored := fun path =>
  if path = w.path then w.effect (docs path) else docs path

/-- What a step does to the stored documents and the errands under way, and the write it
commits. -/
inductive Mail : Stored → List (S × (Errand × Bool)) → AppEvent S MessageAction →
    Option (S × Write) → Stored → List (S × (Errand × Bool)) → Prop
  | idle {docs errands s a e} (hout : e.currentUid = none) :
      Mail docs errands (.invoke s a e) none docs errands
  | send {docs errands s message user e uid} (hin : e.currentUid = some uid) :
      Mail docs errands (.invoke s (.uploadMessage message user) e) none docs
        (errands ++ [(s, .near ⟨e.autoId, uid, user.uid,
          MessagingService.messageData uid e message user⟩, true)])
  | clear {docs errands s user e uid} (hin : e.currentUid = some uid) :
      Mail docs errands (.invoke s (.deleteMessages user) e) none docs
        (errands ++ [(s, .list uid user.uid, true), (s, .removeEntry uid user.uid, true)])
  | commit {docs l l' s i o} {t : Errand} {w : Write} (hi : i = l.length)
      (hwrite : t.write = some w)
      (hfifo : ∀ x ∈ l, x.1 = s → x.2.2 = true → x.2.1.write = none) :
      Mail docs (l ++ (s, t, true) :: l') (.serve i o) (some (s, w)) (docs.commit w)
        (l ++ (s, t, false) :: l')
  | answer {docs l l' s i o owner partner ids} (hi : i = l.length)
      (hids : ids = [] ∧ o.isSuccess = false
        ∨ ∀ id, id ∈ ids ↔ (docs (messagePath owner partner id)).isSome) :
      Mail docs (l ++ (s, .list owner partner, true) :: l') (.serve i o) none docs
        (l ++ (s, .listed owner partner ids, false) :: l')
  | resume {docs l l' s i e} {t : Errand} (ht : ∀ owner partner, t ≠ .list owner partner)
      (hfifo : t.write.isSome → ∀ x ∈ l, x.1 = s → x.2.1.write = none) :
      Mail docs (l ++ (s, t, false) :: l') (.deliver i e) none docs
        (l ++ l' ++ (t.next e.autoId).map fun t' => (s, t', true))

/-- The events so far, the writes committed, and what they have led to. -/
inductive MailRun (docs₀ : Stored) : List (AppEvent S MessageAction) → List (S × Write) →
    Stored → List (S × (Errand × Bool)) → Prop
  | nil : MailRun docs₀ [] [] docs₀ []
  | snoc {es log docs errands ev out docs' errands'} (run : MailRun docs₀ es log docs errands)
      (step : Mail docs errands ev out docs' errands') :
      MailRun docs₀ (es ++ [ev]) (log ++ out.toList) docs' errands'

variable [DecidableEq S]

/-- The turn of a call to `uploadMessage`. -/
theorem exec_uploadMessage {e : Turn} {uid : String} (he : e.currentUid = some uid)
    (message : String) (user : User) (text : String) :
    (MessageAction.uploadMessage message user).program.exec e text
      = (text, [.issued
          (.write (.setData (messagePath uid user.uid e.autoId)
            (MessagingService.messageData uid e message user)))
          (didStoreNear ⟨e.autoId, uid, user.uid,
            MessagingService.messageData uid e message user⟩)]) := by
  unfold MessageAction.program MessagingService.uploadMessage withCurrentUid
  rw [Prog.exec_ask, he]
  rfl

/-- The turn of a call to `deleteMessages`. -/
theorem exec_deleteMessages {e : Turn} {uid : String} (he : e.currentUid = some uid)
    (user : User) (text : String) :
    (MessageAction.deleteMessages user).program.exec e text
      = (text, [.issued (.getDocuments (messagesOf uid user.uid)) (didList uid user.uid),
          .issued (.write (.delete (entryPath uid user.uid))) noCompletion]) := by
  unfold MessageAction.program MessagingService.deleteMessages withCurrentUid
  rw [Prog.exec_ask, he]
  rfl

/-- Signed out, a call does nothing. -/
theorem exec_signedOut {e : Turn} (he : e.currentUid = none) (a : MessageAction)
    (text : String) : a.program.exec e text = (text, []) := by
  cases a <;>
  · unfold MessageAction.program
    simp only [MessagingService.uploadMessage, MessagingService.deleteMessages, withCurrentUid]
    rw [Prog.exec_ask, he]
    rfl

omit [DecidableEq S] in
/-- The turn of a callback issues the next errands. -/
theorem Errand.At.next {r : Request} {p : Program String} {t : Errand}
    (h : Errand.At (.served r p) (t, false)) (s : S) (e : Turn) (text : String) :
    Errands ((p.exec e text).2.map fun fl => (s, fl))
      ((t.next e.autoId).map fun t' => (s, t', true)) := by
  generalize hfl : Flight.served r p = fl at h
  generalize hstage : (t, false) = stage at h
  cases h with
  | nearDone m y =>
    obtain ⟨rfl, rfl⟩ := Flight.served.inj hfl
    obtain ⟨rfl, -⟩ := Prod.mk.inj hstage
    exact .stage (.far m e.autoId) (.stage (.entry ..) (.stage (.entry ..) .nil))
  | farDone m id y =>
    obtain ⟨rfl, rfl⟩ := Flight.served.inj hfl
    obtain ⟨rfl, -⟩ := Prod.mk.inj hstage
    cases y <;> exact .nil
  | listed owner partner snapshot =>
    obtain ⟨rfl, rfl⟩ := Flight.served.inj hfl
    obtain ⟨rfl, -⟩ := Prod.mk.inj hstage
    have hexec : (didList owner partner snapshot).exec e text
        = (text, (snapshot.getD []).map fun document =>
            .issued (.write (.delete (messagePath owner partner document.1))) noCompletion) :=
      Prog.exec_forEach_issue (fun _ => rfl) _
    rw [hexec]
    simp only [Errand.next, List.map_map]
    induction snapshot.getD [] with
    | nil => exact .nil
    | cons document documents ih => exact .stage (.remove ..) ih
  | entryDone | removed | removedEntry =>
    obtain ⟨rfl, rfl⟩ := Flight.served.inj hfl
    obtain ⟨rfl, -⟩ := Prod.mk.inj hstage
    exact .nil
  | _ => exact absurd hfl (by simp)

/-- A flight of an errand is ordered if the errand writes. -/
theorem Errand.At.ordered {fl : Flight Request Response Turn String} {t : Errand × Bool}
    (h : Errand.At fl t) : api.ordered fl.req = t.1.write.isSome ∧ fl.waits = t.2 := by
  cases h <;> exact ⟨rfl, rfl⟩

omit [DecidableEq S] in
/-- Every flight is an errand's. -/
theorem errands_length {pool : List (S × Flight Request Response Turn String)}
    {errands : List (S × (Errand × Bool))} (h : Errands pool errands) :
    pool.length = errands.length := by
  induction h with
  | nil => rfl
  | quiet hfl _ _ => exact absurd hfl id
  | stage _ _ ih => rw [List.length_cons, List.length_cons, ih]

omit [DecidableEq S] in
/-- The flight of an errand, by position. -/
theorem errands_flight {pool : List (S × Flight Request Response Turn String)}
    {l l' : List (S × (Errand × Bool))} {s : S} {t : Errand × Bool}
    (h : Errands pool (l ++ (s, t) :: l')) :
    ∃ fl, pool[l.length]? = some (s, fl) ∧ Errand.At fl t := by
  induction l generalizing pool with
  | nil =>
    cases h with
    | quiet hfl _ => exact absurd hfl id
    | stage hfl _ => exact ⟨_, rfl, hfl⟩
  | cons x l ih =>
    cases h with
    | quiet hfl _ => exact absurd hfl id
    | stage hfl h =>
      obtain ⟨fl, hget, hat⟩ := ih h
      exact ⟨fl, hget, hat⟩

omit [DecidableEq S] in
/-- What waits at the front of an errand's own channel writes nothing. -/
theorem errands_free {pre : List (S × Flight Request Response Turn String)}
    {l : List (S × (Errand × Bool))} (hpre : Errands pre l) {x : S × (Errand × Bool)}
    (hx : x ∈ l) (hfree : ∀ fl, (x.1, fl) ∈ pre → fl.waits = x.2.2 → api.ordered fl.req = false) :
    x.2.1.write = none := by
  obtain ⟨fl, hmem, hat⟩ := hpre.mem hx
  have hordered := hfree fl hmem hat.ordered.2
  rw [hat.ordered.1] at hordered
  exact Option.not_isSome_iff_eq_none.mp (by simp [hordered])

/-- A write that is served. -/
theorem Errand.At.commit {w : Write} {k : Option Error → Program String} {t : Errand × Bool}
    (h : Errand.At (.issued (.write w) k) t) :
    t.2 = true ∧ t.1.write = some w ∧ ∀ y, Errand.At (.served (.write w) (k y)) (t.1, false) := by
  cases h with
  | near m => exact ⟨rfl, rfl, fun y => .nearDone m y⟩
  | far m id => exact ⟨rfl, rfl, fun y => .farDone m id y⟩
  | entry => exact ⟨rfl, rfl, fun y => .entryDone ..⟩
  | remove => exact ⟨rfl, rfl, fun y => .removed ..⟩
  | removeEntry => exact ⟨rfl, rfl, fun y => .removedEntry ..⟩

/-- The write of an errand is committed when it is served. -/
theorem serve_setOrDelete {t : Errand} {w : Write} (hwrite : t.write = some w) {b b' : Backend}
    {o : Outcome} {y : Option Error} (ho : o.isSuccess = true)
    (h : serve b (.write w) o = some (b', y)) :
    y = none ∧ b'.docs.lookup = Stored.commit b.docs.lookup w := by
  cases o with
  | failure error => exact absurd ho (by simp [Outcome.isSuccess])
  | success names =>
    rcases serve_write h with ⟨rfl, docs, hdocs, rfl⟩ | ⟨⟨error, rfl⟩, rfl⟩
    · refine ⟨rfl, funext fun path => ?_⟩
      unfold Stored.commit
      by_cases hpath : path = w.path
      · rw [if_pos hpath, hpath]
        exact Write.lookup_apply hdocs
      · rw [if_neg hpath]
        exact Write.lookup_apply_ne hdocs hpath
    · cases t <;> simp [Errand.write] at hwrite <;> subst hwrite <;>
        simp [serve, Write.apply] at h

/-- A call starts its errands, if somebody is signed in. -/
theorem mail_invoke {w : AppWorld String S} {errands : List (S × (Errand × Bool))}
    (hat : Errands w.pool errands) (s : S) (a : MessageAction) (e : Turn) :
    ∃ errands', Errands (w.turn s a.program e w.pool).pool errands'
      ∧ Mail w.backend.docs.lookup errands (.invoke s a e) none w.backend.docs.lookup
          errands' := by
  rw [World.turn_pool]
  cases hin : e.currentUid with
  | none =>
    rw [exec_signedOut hin, List.map_nil, List.append_nil]
    exact ⟨errands, hat, .idle hin⟩
  | some uid =>
    cases a with
    | uploadMessage message user =>
      rw [exec_uploadMessage hin]
      exact ⟨_, hat.append (.single (.near ⟨e.autoId, uid, user.uid,
        MessagingService.messageData uid e message user⟩)), .send hin⟩
    | deleteMessages user =>
      rw [exec_deleteMessages hin]
      exact ⟨_, hat.append (.stage (.list ..) (.single (.removeEntry ..))), .clear hin⟩

section Turns

variable {pre post : List (S × Flight Request Response Turn String)} {s : S}
variable {errands : List (S × (Errand × Bool))} {b b' : Backend} {o : Outcome}

omit [DecidableEq S] in
/-- A write is committed, after the writes of its session that were issued before it. -/
theorem mail_commit {write : Write} {k : Option Error → Program String} {y : Option Error}
    (hat : Errands (pre ++ (s, .issued (.write write) k) :: post) errands)
    (hfifo : ∀ x ∈ pre, x.1 = s → x.2.waits = true → api.ordered x.2.req = false)
    (ho : o.isSuccess = true) (hserve : serve b (.write write) o = some (b', y)) :
    y = none ∧ ∃ errands', Errands (pre ++ (s, .served (.write write) (k y)) :: post) errands'
      ∧ Mail b.docs.lookup errands (.serve pre.length o) (some (s, write)) b'.docs.lookup
          errands' := by
  obtain ⟨l, l', hpre, hpost, ⟨hquiet, -⟩ | ⟨⟨t, waits⟩, hfl, rfl⟩⟩ := hat.split
  · exact absurd hquiet id
  obtain ⟨rfl, hwrite, hserved⟩ := hfl.commit
  obtain ⟨rfl, hdocs⟩ := serve_setOrDelete hwrite ho hserve
  refine ⟨rfl, _, hpre.append (.stage (hserved none) hpost), ?_⟩
  rw [hdocs]
  refine .commit (errands_length hpre) hwrite fun x hx hs hwaits =>
    errands_free hpre hx fun fl hmem hfl => ?_
  refine hfifo (x.1, fl) hmem hs ?_
  rw [hfl, hwaits]

omit [DecidableEq S] in
/-- A query lists what is stored, or fails and lists nothing. -/
theorem mail_answer {q : Query} {k : Response (.getDocuments q) → Program String}
    {y : Response (.getDocuments q)}
    (hat : Errands (pre ++ (s, .issued (.getDocuments q) k) :: post) errands)
    (hserve : serve b (.getDocuments q) o = some (b', y)) :
    ∃ errands', Errands (pre ++ (s, .served (.getDocuments q) (k y)) :: post) errands'
      ∧ Mail b.docs.lookup errands (.serve pre.length o) none b'.docs.lookup errands' := by
  obtain ⟨l, l', hpre, hpost, ⟨hquiet, -⟩ | ⟨⟨t, waits⟩, hfl, rfl⟩⟩ := hat.split
  · exact absurd hquiet id
  cases hfl with
  | list owner partner =>
    obtain ⟨rfl, hdocs⟩ := serve_getDocuments hserve
    refine ⟨_, hpre.append (.stage (.listed owner partner y) hpost),
      .answer (errands_length hpre) ?_⟩
    cases y with
    | none =>
      refine Or.inl ⟨rfl, ?_⟩
      cases o with
      | failure error => rfl
      | success names =>
        exfalso
        simp only [serve] at hserve
        split at hserve <;> simp at hserve
    | some documents =>
      refine Or.inr fun id => ?_
      have hperm := hdocs documents rfl
      rw [Query.results_all] at hperm
      rw [Option.getD_some, (hperm.map Prod.fst).mem_iff]
      exact Store.mem_ids

/-- A callback issues the next errands, after the writes of its session that were served
before it. -/
theorem mail_resume {w : AppWorld String S} {r : Request} {p : Program String}
    (hat : Errands (pre ++ (s, .served r p) :: post) errands)
    (hfifo : api.ordered r = true → ∀ x ∈ pre, x.1 = s → api.ordered x.2.req = false)
    (e : Turn) :
    ∃ errands', Errands (w.turn s p e (pre ++ post)).pool errands'
      ∧ Mail b.docs.lookup errands (.deliver pre.length e) none b.docs.lookup errands' := by
  obtain ⟨l, l', hpre, hpost, ⟨hquiet, -⟩ | ⟨⟨t, waits⟩, hfl, rfl⟩⟩ := hat.split
  · exact absurd hquiet id
  obtain rfl : waits = false := hfl.ordered.2.symm
  refine ⟨_, (hpre.append hpost).append (hfl.next s e (w.client s)), .resume ?_ ?_⟩
  · rintro owner partner rfl
    cases hfl
  intro hwrite x hx hs
  refine errands_free hpre hx fun fl hmem _ => ?_
  refine hfifo ?_ (x.1, fl) hmem hs
  have hordered := hfl.ordered.1
  rwa [hwrite] at hordered

end Turns

/-- **Every step of a world is one of the errands'.** -/
theorem mail_of_stepped {w w' : AppWorld String S} {ev : AppEvent S MessageAction}
    {errands : List (S × (Errand × Bool))} (hat : Errands w.pool errands) (hok : Healthy w ev)
    (hstep : Stepped api MessageAction.program w ev w') :
    ∃ errands' out, Errands w'.pool errands'
      ∧ Mail w.backend.docs.lookup errands ev out w'.backend.docs.lookup errands'
      ∧ ∀ s write, Mark.reply (.write write) none ∈ w.marks api s ev ↔ out = some (s, write) := by
  cases hstep with
  | invoke s a e =>
    obtain ⟨errands', hat', hmail⟩ := mail_invoke hat s a e
    rw [World.turn_backend]
    exact ⟨errands', none, hat', hmail, by simp [World.marks]⟩
  | serve hpool hfifo hserve =>
    rename_i pre post s r k o b y
    have hget : w.pool[pre.length]? = some (s, .issued r k) := getElem?_split hpool
    have hmarks := World.marks_serve (A := MessageAction) hpool hserve
    rw [hpool] at hat
    cases r with
    | write write =>
      obtain ⟨rfl, errands', hat', hmail⟩ := mail_commit hat (hfifo rfl) (hok _ hget rfl) hserve
      refine ⟨errands', some (s, write), hat', hmail, ?_⟩
      intro s' write'
      rw [hmarks]
      by_cases hs : s = s'
      · simp [hs, eq_comm]
      · simp [hs]
    | getDocuments q =>
      obtain ⟨errands', hat', hmail⟩ := mail_answer hat hserve
      refine ⟨errands', none, hat', hmail, ?_⟩
      intro s' write'
      rw [hmarks]
      split <;> simp
    | _ =>
      -- no errand asks for anything else
      obtain ⟨l, l', -, -, ⟨hquiet, -⟩ | ⟨t, hfl, -⟩⟩ := hat.split
      · exact absurd hquiet id
      · cases hfl
  | deliver hpool hfifo =>
    rename_i pre post s r p e
    rw [hpool] at hat
    obtain ⟨errands', hat', hmail⟩ := mail_resume hat hfifo e
    exact ⟨errands', none, hat', hmail, by simp [World.marks]⟩
  | drop hpool => exact absurd hok id

/-- **A run of a world, errand by errand.** -/
theorem mailRun_of_run {ok : AppWorld String S → AppEvent S MessageAction → Prop}
    (hok : ∀ w ev, ok w ev → Healthy w ev) {w₀ w : AppWorld String S} (hrest : w₀.Quiescent)
    {es : List (AppEvent S MessageAction)} (run : Run api MessageAction.program ok w₀ es w) :
    ∃ errands log, Errands w.pool errands
      ∧ MailRun w₀.backend.docs.lookup es log w.backend.docs.lookup errands
      ∧ ∀ s write, Mark.reply (.write write) none ∈ trace api MessageAction.program s w₀ es
        ↔ (s, write) ∈ log := by
  induction run with
  | nil =>
    refine ⟨[], [], ?_, .nil, by simp [trace]⟩
    rw [hrest]
    exact .nil
  | snoc run hev hstep ih =>
    obtain ⟨errands, log, hat, hrun, hlog⟩ := ih
    obtain ⟨errands', out, hat', hmail, hout⟩ :=
      mail_of_stepped hat (hok _ _ hev) (stepped_of_step hstep)
    refine ⟨errands', _, hat', .snoc hrun hmail, fun s write => ?_⟩
    rw [run.trace_snoc hstep, List.mem_append, List.mem_append, hlog, hout, Option.mem_toList]

end Mail

end InstaClone
