import InstaClone.Async.Trace
import InstaClone.Services
import InstaClone.Sessions

/-!
# Are the mirrored writes all-or-nothing?

`likePost`, `unlikePost`, `follow`, `unfollow` and `uploadMessage` store one event
in two to four documents by separate writes. Each intermediate callback takes its
error as `_` and issues the next write regardless, and only the last write of the
chain reports to the completion.

`MirroredCall.writes` lists what a call means to write. A write `Took` when its
document is as the write makes it; it is `Held` when it was so before. Along the
trace of a run the stored documents are the committed writes applied in order
(`lookup_trace`), and the writes of one call that meet on a document are equal, so
the final store is read off the replies: `mirrored_iff` says exactly for which
replies, and from which stored documents, a call is all-or-nothing and reports its
failures.
-/

namespace InstaClone

open Async

/-- The calls that store one event in several documents. -/
inductive MirroredCall where
  | likePost (post : Post)
  | unlikePost (post : Post)
  | follow (uid : String)
  | unfollow (uid : String)
  | uploadMessage (message : String) (user : User)

/-- A completion that logs what it is called with. -/
def report (error : Option Error) : Program (List (Option Error)) :=
  .modify (· ++ [error]) .done

/-- The call, made with the logging completion. -/
def MirroredCall.program : MirroredCall → Program (List (Option Error))
  | likePost post => PostService.likePost post report
  | unlikePost post => PostService.unlikePost post report
  | follow uid => UserService.follow uid report
  | unfollow uid => UserService.unfollow uid report
  | uploadMessage message user => MessagingService.uploadMessage message user report

/-- The write whose outcome the completion receives. `turn` is the turn of the call,
`turn'` that of the callback which draws the second message's identifier. -/
def MirroredCall.lastWrite (uid : String) (turn turn' : Turn) : MirroredCall → Write
  | likePost post => .setData ["users", uid, "user-likes", post.postId] (dict [])
  | unlikePost post => .delete ["users", uid, "user-likes", post.postId]
  | follow user => .setData ["followers", user, "user-followers", uid] (dict [])
  | unfollow user => .delete ["followers", user, "user-followers", uid]
  | uploadMessage message user =>
    .setData ["messages", user.uid, uid, turn'.autoId]
      (MessagingService.messageData uid turn message user)

/-- Everything the call means to write. -/
def MirroredCall.writes (uid : String) (turn turn' : Turn) (call : MirroredCall) : List Write :=
  match call with
  | likePost post =>
    [.updateData ["posts", post.postId] (dict [("likes", .int (post.likes + 1))]),
     .setData ["posts", post.postId, "post-likes", uid] (dict []),
     call.lastWrite uid turn turn']
  | unlikePost post =>
    [.updateData ["posts", post.postId] (dict [("likes", .int (post.likes - 1))]),
     .delete ["posts", post.postId, "post-likes", uid],
     call.lastWrite uid turn turn']
  | follow user =>
    [.setData ["following", uid, "user-following", user] (dict []),
     call.lastWrite uid turn turn']
  | unfollow user =>
    [.delete ["following", uid, "user-following", user],
     call.lastWrite uid turn turn']
  | uploadMessage message user =>
    let data := MessagingService.messageData uid turn message user
    [.setData ["messages", uid, user.uid, turn.autoId] data,
     call.lastWrite uid turn turn',
     .setData ["messages", uid, "recent-messages", user.uid] data,
     .setData ["messages", user.uid, "recent-messages", uid] data]

/-- The identifier drawn in `turn'` is a fresh one: not the one drawn in `turn`, and
not a uid. -/
def Fresh (uid : String) (turn turn' : Turn) : Prop :=
  turn'.autoId ≠ turn.autoId ∧ turn'.autoId ≠ uid

/-- The identifier of the second message copy was drawn in `turn'`: the trace has the
reply to its write. The other calls draw no identifier. -/
def MirroredCall.Drew (uid : String) (turn turn' : Turn) (T : List (Mark Request Response))
    (call : MirroredCall) : Prop :=
  match call with
  | uploadMessage _ _ =>
    Fresh uid turn turn' ∧ ∃ y, .reply (.write (call.lastWrite uid turn turn')) y ∈ T
  | _ => True

/-! ## All or nothing -/

/-- What a write leaves of its document, if it can be applied to it. -/
def Write.result : Write → Option Doc → Option (Option Doc)
  | .setData _ data, _ => some (some data)
  | .updateData _ fields, d => d.map fun d => some (d.merge fields)
  | .delete _, _ => some none

/-- The document of `w` is as `w` makes it from what it was. -/
def Took (w : Write) (before after : Store) : Prop :=
  w.result (before.lookup w.path) = some (after.lookup w.path)

/-- The document of `w` is already as `w` makes it. -/
def Held (w : Write) (before : Store) : Prop := Took w before before

/-- Every document the call is meant to change has changed, the second message copy
under the identifier drawn for it. -/
def AllChanged (uid : String) (turn : Turn) (call : MirroredCall)
    (T : List (Mark Request Response)) (before after : Store) : Prop :=
  ∃ turn', call.Drew uid turn turn' T ∧ ∀ w ∈ call.writes uid turn turn', Took w before after

/-- The store is exactly as it was. -/
def Unchanged (before after : Store) : Prop := ∀ path, after.lookup path = before.lookup path

/-- The write was committed. -/
def Committed (T : List (Mark Request Response)) (w : Write) : Prop :=
  .reply (.write w) none ∈ T

/-- The replies, and the documents before, that leave all or nothing: every write was
committed unless its document was already so, or every committed write found its
document already so. -/
def WholeReplies (uid : String) (turn : Turn) (call : MirroredCall) (before : Store)
    (T : List (Mark Request Response)) : Prop :=
  (∃ turn', call.Drew uid turn turn' T
      ∧ ∀ w ∈ call.writes uid turn turn', Committed T w ∨ Held w before)
    ∨ ∀ w, Committed T w → Held w before

/-- The replies that report a failure: if any write failed, the last one did, and its
callback was not lost. -/
def HeardReplies (uid : String) (turn : Turn) (call : MirroredCall)
    (T : List (Mark Request Response)) : Prop :=
  (∃ w e, .reply (.write w) (some e) ∈ T) →
    ∃ turn' e, Fresh uid turn turn'
      ∧ .reply (.write (call.lastWrite uid turn turn')) (some e) ∈ T
      ∧ .lost (.write (call.lastWrite uid turn turn')) ∉ T

/-! ## The store along a trace -/

theorem Write.result_of_apply {w : Write} {s s' : Store} (h : w.apply s = some s') :
    w.result (s.lookup w.path) = some (s'.lookup w.path) := by
  rw [Write.lookup_apply h]
  cases w with
  | setData path data => rfl
  | updateData path fields =>
    obtain ⟨d, hd, -⟩ := Option.map_eq_some_iff.mp h
    simp only [Write.path_updateData, Write.result, Write.effect, hd, Option.map_some]
  | delete path => rfl

/-- A write made twice makes no difference. -/
theorem Write.result_idem {w : Write} {d d' : Option Doc} (h : w.result d = some d') :
    w.result d' = some d' := by
  cases w with
  | setData path data => exact h
  | updateData path fields =>
    obtain ⟨d₀, rfl, rfl⟩ := Option.map_eq_some_iff.mp h
    have hmerge : (d₀.merge fields).merge fields = d₀.merge fields := by
      funext key
      show (fields key).or ((fields key).or (d₀ key)) = (fields key).or (d₀ key)
      cases fields key <;> rfl
    simp only [Write.result, Option.map_some, hmerge]
  | delete path => exact h

/-- The committed writes of a trace, in order. -/
def commits (T : List (Mark Request Response)) : List Write :=
  T.filterMap fun
    | .reply (.write w) none => some w
    | _ => none

theorem mem_commits {T : List (Mark Request Response)} {w : Write} :
    w ∈ commits T ↔ Committed T w := by
  rw [commits, List.mem_filterMap, Committed]
  constructor
  · rintro ⟨m, hm, hw⟩
    split at hw
    next w' =>
      rw [← Option.some.inj hw]
      exact hm
    next => exact absurd hw (by simp)
  · intro h
    exact ⟨_, h, rfl⟩

theorem commits_append (T T' : List (Mark Request Response)) :
    commits (T ++ T') = commits T ++ commits T' := List.filterMap_append

/-- The document at `path` after the writes `l`, `none` if one of them cannot be
applied. -/
def settle (path : Path) (d : Option Doc) : List Write → Option (Option Doc)
  | [] => some d
  | w :: l => if w.path = path then (w.result d).bind fun d => settle path d l else settle path d l

theorem settle_append (path : Path) (d : Option Doc) (l l' : List Write) :
    settle path d (l ++ l') = (settle path d l).bind fun d => settle path d l' := by
  induction l generalizing d with
  | nil => rfl
  | cons w l ih =>
    rw [List.cons_append, settle, settle]
    split
    next =>
      cases w.result d with
      | none => rfl
      | some d' => exact ih d'
    next => exact ih d

/-- Writes that are all `w` where they meet `w`'s document leave what `w` leaves. -/
theorem settle_of_agree {w : Write} {d d' : Option Doc} {l : List Write}
    (hagree : ∀ c ∈ l, c.path = w.path → c = w) (h : settle w.path d l = some d') :
    (w ∈ l → w.result d = some d') ∧ (w ∉ l → d' = d) := by
  induction l generalizing d with
  | nil => exact ⟨fun hw => absurd hw (by simp), fun _ => (Option.some.inj h).symm⟩
  | cons c l ih =>
    have hrest : ∀ c ∈ l, c.path = w.path → c = w := fun x hx => hagree x (by simp [hx])
    rw [settle] at h
    split at h
    next hpath =>
      obtain rfl : c = w := hagree c (List.mem_cons_self ..) hpath
      obtain ⟨d₁, hd₁, hl⟩ := Option.bind_eq_some_iff.mp h
      obtain ⟨hin, hout⟩ := ih hrest hl
      refine ⟨fun _ => ?_, fun hnot => absurd (List.mem_cons_self ..) hnot⟩
      by_cases hc : c ∈ l
      · have hagain := hin hc
        rw [Write.result_idem hd₁] at hagain
        rw [hd₁, hagain]
      · rw [hd₁, hout hc]
    next hpath =>
      obtain ⟨hin, hout⟩ := ih hrest h
      refine ⟨fun hw => ?_, fun hw => hout fun hl => hw (List.mem_cons_of_mem _ hl)⟩
      rcases List.mem_cons.mp hw with rfl | hw
      · exact absurd rfl hpath
      · exact hin hw

/-- The mark of one step, and the documents it leaves. -/
theorem lookup_marks {σ S : Type} [DecidableEq S] {act : Empty → Program σ} {s : S}
    {w w' : AppWorld σ S} {ev : AppEvent S Empty} (hmine : ∀ x ∈ w.pool, x.1 = s)
    (hstep : Stepped api act w ev w') (path : Path) :
    (∀ x ∈ w'.pool, x.1 = s)
      ∧ settle path (w.backend.docs.lookup path) (commits (w.marks api s ev))
        = some (w'.backend.docs.lookup path) := by
  cases hstep with
  | invoke t a e => exact a.elim
  | serve hpool hfifo hserve =>
    rename_i pre post t r k o b y
    obtain rfl : t = s := hmine (t, .issued r k) (mem_split hpool)
    refine ⟨?_, ?_⟩
    · intro x hx
      simp only [List.mem_append, List.mem_cons] at hx
      rcases hx with hx | rfl | hx
      · exact hmine x (mem_split_left hpool hx)
      · rfl
      · exact hmine x (mem_split_right hpool hx)
    · rw [World.marks_serve hpool hserve, if_pos rfl]
      show _ = some (b.docs.lookup path)
      cases r with
      | write c =>
        rcases serve_write hserve with ⟨rfl, docs, hdocs, rfl⟩ | ⟨⟨e, rfl⟩, rfl⟩
        · have hcommits : commits [.reply (.write c) none] = [c] := rfl
          rw [hcommits, settle]
          by_cases hpath : c.path = path
          · rw [if_pos hpath, ← hpath, Write.result_of_apply hdocs]
            rfl
          · rw [if_neg hpath, Write.lookup_apply_ne hdocs (Ne.symm hpath)]
            rfl
        · rfl
      | _ =>
        rw [serve_docs hserve fun w hw => by cases hw]
        rfl
  | deliver hpool hfifo =>
    rename_i pre post t r q e
    obtain rfl : t = s := hmine (t, .served r q) (mem_split hpool)
    refine ⟨?_, rfl⟩
    intro x hx
    rcases List.mem_append.mp hx with hx | hx
    · exact hmine x (mem_split_rest hpool hx)
    · obtain ⟨fl, -, rfl⟩ := List.mem_map.mp hx
      rfl
  | drop hpool =>
    rename_i pre post t r q
    obtain rfl : t = s := hmine (t, .served r q) (mem_split hpool)
    refine ⟨?_, ?_⟩
    · intro x hx
      exact hmine x (mem_split_rest hpool hx)
    · rw [World.marks_drop hpool, if_pos rfl]
      rfl

/-- **The store along a run.** While only session `s` has requests in flight, every
document is what the committed writes of its trace leave. -/
theorem lookup_trace {σ S : Type} [DecidableEq S] {act : Empty → Program σ}
    {ok : AppWorld σ S → AppEvent S Empty → Prop} {s : S} {w₀ w : AppWorld σ S}
    (hmine : ∀ x ∈ w₀.pool, x.1 = s) {es : List (AppEvent S Empty)}
    (run : Run api act ok w₀ es w) (path : Path) :
    (∀ x ∈ w.pool, x.1 = s)
      ∧ settle path (w₀.backend.docs.lookup path) (commits (trace api act s w₀ es))
        = some (w.backend.docs.lookup path) := by
  induction run with
  | nil => exact ⟨hmine, rfl⟩
  | snoc run _ hstep ih =>
    obtain ⟨hpool, hsettle⟩ := ih
    obtain ⟨hpool', hsettle'⟩ := lookup_marks hpool (stepped_of_step hstep) path
    refine ⟨hpool', ?_⟩
    rw [run.trace_snoc hstep, commits_append, settle_append, hsettle]
    exact hsettle'

/-! ## What each call yields -/

section Yields

variable {uid : String} {turn : Turn} {T : List (Mark Request Response)}
  {fs : List (List (Option Error) → List (Option Error))}

/-- The program with the replies of a whole run; callbacks may be lost, and those that
run draw fresh identifiers. -/
abbrev Goes (uid : String) (first : Turn) (p : Program (List (Option Error))) (turn : Turn)
    (T : List (Mark Request Response))
    (fs : List (List (Option Error) → List (Option Error))) : Prop :=
  p.Yields (Fresh uid first) True turn T fs

/-- One write: its reply, and then its callback or the loss of it. -/
theorem goes_write {first : Turn} {w : Write} {k : Option Error → Program (List (Option Error))}
    (h : Goes uid first (.call (.write w) k .done) turn T fs) :
    ∃ y T', T = .reply (.write w) y :: T'
      ∧ ((T' = [.lost (.write w)] ∧ fs = [])
        ∨ ∃ turn', Fresh uid first turn' ∧ Goes uid first (k y) turn' T' fs) := by
  obtain ⟨y, T₁, fs₁, T₂, fs₂, hk, ⟨rfl, rfl⟩, rfl, rfl⟩ := h
  rw [List.append_nil, List.append_nil]
  refine ⟨y, T₁, rfl, ?_⟩
  rcases hk with ⟨-, hlost⟩ | hk
  · exact Or.inl hlost
  · exact Or.inr hk

/-- A write without completion logs nothing. -/
theorem goes_silent {first : Turn} {w : Write}
    (h : Goes uid first (.call (.write w) noCompletion .done) turn T fs) :
    fs = [] ∧ ∀ m ∈ T, m.req = .write w := by
  obtain ⟨y, T', rfl, ⟨rfl, rfl⟩ | ⟨turn', -, rfl, rfl⟩⟩ := goes_write h
  · exact ⟨rfl, by simp⟩
  · exact ⟨rfl, by simp⟩

/-- A write that reports logs its error, unless its callback is lost. -/
theorem goes_report {first : Turn} {w : Write}
    (h : Goes uid first (.call (.write w) report .done) turn T fs) :
    ∃ y, (T = [.reply (.write w) y, .lost (.write w)] ∧ fs = [])
      ∨ (T = [.reply (.write w) y] ∧ fs = [(· ++ [y])]) := by
  obtain ⟨y, T', rfl, ⟨rfl, rfl⟩ | ⟨turn', -, fs', ⟨rfl, rfl⟩, rfl⟩⟩ := goes_write h
  · exact ⟨y, Or.inl ⟨rfl, rfl⟩⟩
  · exact ⟨y, Or.inr ⟨rfl, rfl⟩⟩

/-- What the log of a call says of its last write. -/
def Logs (uid : String) (turn : Turn) (call : MirroredCall) (T : List (Mark Request Response))
    (fs : List (List (Option Error) → List (Option Error))) : Prop :=
  (fs = [] ∧ ∀ turn', Fresh uid turn turn' → ∀ y,
      .reply (.write (call.lastWrite uid turn turn')) y ∈ T →
      .lost (.write (call.lastWrite uid turn turn')) ∈ T)
    ∨ ∃ y turn', fs = [(· ++ [y])] ∧ Fresh uid turn turn'
      ∧ .reply (.write (call.lastWrite uid turn turn')) y ∈ T
      ∧ .lost (.write (call.lastWrite uid turn turn')) ∉ T
      ∧ ∀ turn'', Fresh uid turn turn'' → ∀ y',
        .reply (.write (call.lastWrite uid turn turn'')) y' ∈ T → y' = y

/-- The marks are about other requests than the last write. -/
def Apart (uid : String) (turn : Turn) (call : MirroredCall) (T : List (Mark Request Response)) :
    Prop :=
  ∀ m ∈ T, ∀ turn', Fresh uid turn turn' → m.req ≠ .write (call.lastWrite uid turn turn')

theorem Apart.append {call : MirroredCall} {T T' : List (Mark Request Response)}
    (h : Apart uid turn call T) (h' : Apart uid turn call T') : Apart uid turn call (T ++ T') := by
  intro m hm
  rcases List.mem_append.mp hm with hm | hm
  · exact h m hm
  · exact h' m hm

theorem Apart.of_req {call : MirroredCall} {w : Write} {T : List (Mark Request Response)}
    (hT : ∀ m ∈ T, m.req = .write w)
    (hw : ∀ turn', Fresh uid turn turn' → w ≠ call.lastWrite uid turn turn') :
    Apart uid turn call T := by
  intro m hm turn' hfresh heq
  rw [hT m hm] at heq
  exact hw turn' hfresh (by injection heq)

/-- A call whose last write was never issued. -/
theorem Logs.of_apart {call : MirroredCall} (hapart : Apart uid turn call T) (hfs : fs = []) :
    Logs uid turn call T fs := by
  refine Or.inl ⟨hfs, ?_⟩
  intro turn' hfresh y hy
  exact absurd rfl (hapart _ hy turn' hfresh)

/-- A call whose last write was issued, among marks about other requests. -/
theorem Logs.of_report {call : MirroredCall} {turn' : Turn} (hfresh : Fresh uid turn turn')
    (pre post : List (Mark Request Response)) {T' : List (Mark Request Response)}
    (hpre : Apart uid turn call pre)
    (hpost : Apart uid turn call post)
    (h : ∃ y, (T' = [.reply (.write (call.lastWrite uid turn turn')) y,
          .lost (.write (call.lastWrite uid turn turn'))] ∧ fs = [])
      ∨ (T' = [.reply (.write (call.lastWrite uid turn turn')) y] ∧ fs = [(· ++ [y])])) :
    Logs uid turn call (pre ++ (T' ++ post)) fs := by
  have hmem : ∀ m, (∃ turn', Fresh uid turn turn'
      ∧ m.req = .write (call.lastWrite uid turn turn')) → m ∈ pre ++ (T' ++ post) → m ∈ T' := by
    rintro m ⟨turn'', hfresh'', hreq⟩ hm
    simp only [List.mem_append] at hm
    rcases hm with hm | hm | hm
    · exact absurd hreq (hpre m hm turn'' hfresh'')
    · exact hm
    · exact absurd hreq (hpost m hm turn'' hfresh'')
  obtain ⟨y, ⟨rfl, rfl⟩ | ⟨rfl, rfl⟩⟩ := h
  · refine Or.inl ⟨rfl, ?_⟩
    intro turn'' hfresh'' y' hy'
    have hin := hmem _ ⟨turn'', hfresh'', rfl⟩ hy'
    simp only [List.mem_cons, List.not_mem_nil, or_false, reduceCtorEq, Mark.reply.injEq,
      Request.write.injEq] at hin
    rw [hin.1]
    simp
  · refine Or.inr ⟨y, turn', rfl, hfresh, by simp, ?_, ?_⟩
    · intro hlost
      have hin := hmem _ ⟨turn', hfresh, rfl⟩ hlost
      simp at hin
    · intro turn'' hfresh'' y' hy'
      have hin := hmem _ ⟨turn'', hfresh'', rfl⟩ hy'
      simp only [List.mem_singleton, Mark.reply.injEq, Request.write.injEq] at hin
      exact eq_of_heq hin.2

/-- A write and, from its callback, the last write, after marks about other requests. -/
theorem goes_chain (call : MirroredCall) {w c : Write}
    (hlast : ∀ turn', call.lastWrite uid turn turn' = c) (hne : w ≠ c)
    (pre : List (Mark Request Response)) (hpre : Apart uid turn call pre)
    (h : Goes uid turn (.call (.write w) (fun _ => .call (.write c) report .done) .done) turn
      T fs) :
    (∀ m ∈ T, m.req = .write w ∨ m.req = .write c) ∧ Logs uid turn call (pre ++ T) fs := by
  have hapart : ∀ {l : List (Mark Request Response)}, (∀ m ∈ l, m.req = .write w) →
      Apart uid turn call l := by
    intro l hl
    refine .of_req hl fun turn' _ => ?_
    rw [hlast]
    exact hne
  obtain ⟨y, T', rfl, ⟨rfl, rfl⟩ | ⟨turn', hfresh, hk⟩⟩ := goes_write h
  · refine ⟨by simp, .of_apart (hpre.append (hapart (by simp))) rfl⟩
  · have hreport := goes_report hk
    refine ⟨?_, ?_⟩
    · intro m hm
      rcases List.mem_cons.mp hm with rfl | hm
      · exact Or.inl rfl
      · right
        obtain ⟨y', ⟨rfl, -⟩ | ⟨rfl, -⟩⟩ := hreport
        · simp only [List.mem_cons, List.not_mem_nil, or_false] at hm
          rcases hm with rfl | rfl <;> rfl
        · rw [List.mem_singleton.mp hm]
          rfl
    · rw [← hlast turn'] at hreport
      have hfirst : Apart uid turn call [.reply (.write w) y] := hapart (by simp)
      have hlogs := Logs.of_report hfresh _ [] (hpre.append hfirst)
        (fun _ hm => absurd hm (by simp)) hreport
      simpa using hlogs

/-- The same after a write that nothing waits for. -/
theorem goes_counted (call : MirroredCall) {w₀ w c : Write}
    (hlast : ∀ turn', call.lastWrite uid turn turn' = c) (hne₀ : w₀ ≠ c) (hne : w ≠ c)
    (h : Goes uid turn ((Prog.call (.write w₀) noCompletion .done).andThen
      (.call (.write w) (fun _ => .call (.write c) report .done) .done)) turn T fs) :
    (∀ m ∈ T, m.req = .write w₀ ∨ m.req = .write w ∨ m.req = .write c)
      ∧ Logs uid turn call T fs := by
  obtain ⟨T₁, fs₁, T₂, fs₂, h₁, h₂, rfl, rfl⟩ := Prog.yields_andThen.mp h
  obtain ⟨rfl, hreq₁⟩ := goes_silent h₁
  have hapart : Apart uid turn call T₁ := by
    refine .of_req hreq₁ fun turn' _ => ?_
    rw [hlast]
    exact hne₀
  obtain ⟨hreq₂, hlogs⟩ := goes_chain call hlast hne T₁ hapart h₂
  refine ⟨?_, hlogs⟩
  intro m hm
  rcases List.mem_append.mp hm with hm | hm
  · exact Or.inl (hreq₁ m hm)
  · exact Or.inr (hreq₂ m hm)

theorem goes_uploadMessage (hturn : turn.currentUid = some uid) {message : String} {user : User}
    (h : Goes uid turn (MirroredCall.uploadMessage message user).program turn T fs) :
    (∃ turn', ∀ m ∈ T, ∃ w ∈ (MirroredCall.uploadMessage message user).writes uid turn turn',
        m.req = .write w)
      ∧ Logs uid turn (.uploadMessage message user) T fs := by
  rw [MirroredCall.program, MessagingService.uploadMessage, withCurrentUid, Goes, Prog.yields_ask,
    hturn] at h
  -- the copy's identifier is fresh, so the copy is none of the other writes
  have hfirst : ∀ turn', Fresh uid turn turn' →
      Write.setData ["messages", uid, user.uid, turn.autoId]
          (MessagingService.messageData uid turn message user)
        ≠ (MirroredCall.uploadMessage message user).lastWrite uid turn turn' := by
    intro turn' hfresh heq
    simp only [MirroredCall.lastWrite, Write.setData.injEq, List.cons.injEq, true_and,
      and_true] at heq
    exact hfresh.1 heq.2.2.symm
  have hrecent : ∀ turn', Fresh uid turn turn' →
      Write.setData ["messages", uid, "recent-messages", user.uid]
          (MessagingService.messageData uid turn message user)
        ≠ (MirroredCall.uploadMessage message user).lastWrite uid turn turn' := by
    intro turn' hfresh heq
    simp only [MirroredCall.lastWrite, Write.setData.injEq, List.cons.injEq, true_and,
      and_true] at heq
    exact hfresh.2 (heq.2.2.symm.trans heq.1.symm)
  have hrecent' : ∀ turn', Fresh uid turn turn' →
      Write.setData ["messages", user.uid, "recent-messages", uid]
          (MessagingService.messageData uid turn message user)
        ≠ (MirroredCall.uploadMessage message user).lastWrite uid turn turn' := by
    intro turn' hfresh heq
    simp only [MirroredCall.lastWrite, Write.setData.injEq, List.cons.injEq, true_and,
      and_true] at heq
    exact hfresh.2 heq.2.symm
  obtain ⟨y, T', rfl, ⟨rfl, rfl⟩ | ⟨turn', hfresh, hk⟩⟩ := goes_write (Prog.yields_ask.mp h)
  · refine ⟨⟨turn, ?_⟩, .of_apart (.of_req (by simp) hfirst) rfl⟩
    intro m hm
    refine ⟨_, List.mem_cons_self .., ?_⟩
    simp only [List.mem_cons, List.not_mem_nil, or_false] at hm
    rcases hm with rfl | rfl <;> rfl
  · obtain ⟨T₁, fs₁, T₂, fs₂, hcopy, hrest, rfl, rfl⟩ := Prog.yields_andThen.mp hk
    obtain ⟨T₃, fs₃, T₄, fs₄, h₃, h₄, rfl, rfl⟩ := Prog.yields_andThen.mp hrest
    have hreport := goes_report (Prog.yields_ask.mp hcopy)
    obtain ⟨rfl, hreq₃⟩ := goes_silent h₃
    obtain ⟨rfl, hreq₄⟩ := goes_silent h₄
    rw [List.append_nil, List.append_nil]
    refine ⟨⟨turn', ?_⟩, ?_⟩
    · intro m hm
      simp only [List.mem_cons, List.mem_append] at hm
      simp only [MirroredCall.writes, List.mem_cons, List.not_mem_nil, or_false]
      rcases hm with rfl | hm | hm | hm
      · exact ⟨_, Or.inl rfl, rfl⟩
      · refine ⟨_, Or.inr (Or.inl rfl), ?_⟩
        obtain ⟨y', ⟨rfl, -⟩ | ⟨rfl, -⟩⟩ := hreport
        · simp only [List.mem_cons, List.not_mem_nil, or_false] at hm
          rcases hm with rfl | rfl <;> rfl
        · rw [List.mem_singleton.mp hm]
          rfl
      · exact ⟨_, Or.inr (Or.inr (Or.inl rfl)), hreq₃ m hm⟩
      · exact ⟨_, Or.inr (Or.inr (Or.inr rfl)), hreq₄ m hm⟩
    · exact Logs.of_report hfresh [.reply _ y] _ (.of_req (by simp) hfirst)
        ((Apart.of_req hreq₃ hrecent).append (.of_req hreq₄ hrecent')) hreport

/-- What a call has issued, and what it has logged. -/
theorem goes_call (call : MirroredCall) (hturn : turn.currentUid = some uid)
    (h : Goes uid turn call.program turn T fs) :
    (∃ turn', ∀ m ∈ T, ∃ w ∈ call.writes uid turn turn', m.req = .write w)
      ∧ Logs uid turn call T fs := by
  have hbody : ∀ {body : String → Program (List (Option Error))},
      Goes uid turn (withCurrentUid body) turn T fs → Goes uid turn (body uid) turn T fs := by
    intro body hb
    rw [withCurrentUid, Goes, Prog.yields_ask, hturn] at hb
    exact hb
  cases call with
  | follow user =>
    obtain ⟨hreq, hlogs⟩ := goes_chain (.follow user) (fun _ => rfl) (by simp) []
      (fun _ hm => absurd hm (by simp)) (hbody h)
    refine ⟨⟨turn, fun m hm => ?_⟩, hlogs⟩
    rcases hreq m hm with hm | hm
    · exact ⟨_, by simp [MirroredCall.writes], hm⟩
    · exact ⟨_, by simp [MirroredCall.writes, MirroredCall.lastWrite], hm⟩
  | unfollow user =>
    obtain ⟨hreq, hlogs⟩ := goes_chain (.unfollow user) (fun _ => rfl) (by simp) []
      (fun _ hm => absurd hm (by simp)) (hbody h)
    refine ⟨⟨turn, fun m hm => ?_⟩, hlogs⟩
    rcases hreq m hm with hm | hm
    · exact ⟨_, by simp [MirroredCall.writes], hm⟩
    · exact ⟨_, by simp [MirroredCall.writes, MirroredCall.lastWrite], hm⟩
  | likePost post =>
    obtain ⟨hreq, hlogs⟩ := goes_counted (.likePost post) (fun _ => rfl) (by simp)
      (by simp) (hbody h)
    refine ⟨⟨turn, fun m hm => ?_⟩, hlogs⟩
    rcases hreq m hm with hm | hm | hm
    · exact ⟨_, by simp [MirroredCall.writes], hm⟩
    · exact ⟨_, by simp [MirroredCall.writes], hm⟩
    · exact ⟨_, by simp [MirroredCall.writes, MirroredCall.lastWrite], hm⟩
  | unlikePost post =>
    have hguarded := hbody h
    split at hguarded
    next =>
      obtain ⟨hreq, hlogs⟩ := goes_counted (.unlikePost post) (fun _ => rfl) (by simp)
        (by simp) hguarded
      refine ⟨⟨turn, fun m hm => ?_⟩, hlogs⟩
      rcases hreq m hm with hm | hm | hm
      · exact ⟨_, by simp [MirroredCall.writes], hm⟩
      · exact ⟨_, by simp [MirroredCall.writes], hm⟩
      · exact ⟨_, by simp [MirroredCall.writes, MirroredCall.lastWrite], hm⟩
    next =>
      obtain ⟨rfl, rfl⟩ := hguarded
      exact ⟨⟨turn, by simp⟩, .of_apart (fun _ hm => absurd hm (by simp)) rfl⟩
  | uploadMessage message user => exact goes_uploadMessage hturn h

end Yields

/-! ## Runs -/

/-- The writes of one call that meet on a document are equal. -/
theorem MirroredCall.writes_agree {uid : String} {turn t t' : Turn} {call : MirroredCall}
    {w w' : Write} (hw : w ∈ call.writes uid turn t) (hw' : w' ∈ call.writes uid turn t')
    (hpath : w.path = w'.path) : w = w' := by
  cases call with
  | likePost post =>
    simp only [writes, lastWrite, List.mem_cons, List.not_mem_nil, or_false] at hw hw'
    rcases hw with rfl | rfl | rfl <;> rcases hw' with rfl | rfl | rfl <;> simp_all
  | unlikePost post =>
    simp only [writes, lastWrite, List.mem_cons, List.not_mem_nil, or_false] at hw hw'
    rcases hw with rfl | rfl | rfl <;> rcases hw' with rfl | rfl | rfl <;> simp_all
  | follow user =>
    simp only [writes, lastWrite, List.mem_cons, List.not_mem_nil, or_false] at hw hw'
    rcases hw with rfl | rfl <;> rcases hw' with rfl | rfl <;> simp_all
  | unfollow user =>
    simp only [writes, lastWrite, List.mem_cons, List.not_mem_nil, or_false] at hw hw'
    rcases hw with rfl | rfl <;> rcases hw' with rfl | rfl <;> simp_all
  | uploadMessage message user =>
    -- all four store the same dictionary
    have hdata : ∀ t, ∀ w ∈ (MirroredCall.uploadMessage message user).writes uid turn t,
        w = .setData w.path (MessagingService.messageData uid turn message user) := by
      intro t w hw
      simp only [writes, lastWrite, List.mem_cons, List.not_mem_nil, or_false] at hw
      rcases hw with rfl | rfl | rfl | rfl <;> rfl
    rw [hdata t w hw, hdata t' w' hw', hpath]

/-- Writes elsewhere leave a document alone. -/
theorem settle_of_ne {path : Path} {l : List Write} (d : Option Doc)
    (h : ∀ w ∈ l, w.path ≠ path) : settle path d l = some d := by
  induction l with
  | nil => rfl
  | cons w l ih =>
    rw [settle, if_neg (h w (List.mem_cons_self ..))]
    exact ih fun x hx => h x (List.mem_cons_of_mem _ hx)

/-- **The store after a call**, read off its replies. -/
theorem wholeReplies_iff {uid : String} {turn t : Turn} {call : MirroredCall}
    {before after : Store} {T : List (Mark Request Response)}
    (hissued : ∀ w, Committed T w → w ∈ call.writes uid turn t)
    (hsettle : ∀ path, settle path (before.lookup path) (commits T) = some (after.lookup path)) :
    (AllChanged uid turn call T before after ∨ Unchanged before after)
      ↔ WholeReplies uid turn call before T := by
  have hagree : ∀ t' w, w ∈ call.writes uid turn t' → ∀ c ∈ commits T, c.path = w.path → c = w :=
    fun t' w hw c hc hpath => MirroredCall.writes_agree (hissued c (mem_commits.mp hc)) hw hpath
  have htook : ∀ t', ∀ w ∈ call.writes uid turn t',
      (Committed T w → Took w before after)
        ∧ (¬ Committed T w → after.lookup w.path = before.lookup w.path) := by
    intro t' w hw
    obtain ⟨hin, hout⟩ := settle_of_agree (hagree t' w hw) (hsettle w.path)
    exact ⟨fun hc => hin (mem_commits.mpr hc), fun hc => hout fun h => hc (mem_commits.mp h)⟩
  constructor
  · rintro (⟨t', hdrew, hall⟩ | hunchanged)
    · refine Or.inl ⟨t', hdrew, fun w hw => ?_⟩
      by_cases hc : Committed T w
      · exact Or.inl hc
      · right
        have hsame := (htook t' w hw).2 hc
        have htaken := hall w hw
        rw [Took, hsame] at htaken
        exact htaken
    · refine Or.inr fun w hc => ?_
      have htaken := (htook t w (hissued w hc)).1 hc
      rw [Took, hunchanged] at htaken
      exact htaken
  · rintro (⟨t', hdrew, hall⟩ | hheld)
    · refine Or.inl ⟨t', hdrew, fun w hw => ?_⟩
      by_cases hc : Committed T w
      · exact (htook t' w hw).1 hc
      · rcases hall w hw with hc' | hheld
        · exact absurd hc' hc
        · rw [Took, (htook t' w hw).2 hc]
          exact hheld
    · refine Or.inr fun path => ?_
      by_cases hc : ∃ c ∈ commits T, c.path = path
      · obtain ⟨c, hc, rfl⟩ := hc
        have hcommitted := mem_commits.mp hc
        have htaken := (htook t c (hissued c hcommitted)).1 hcommitted
        have hsame := hheld c hcommitted
        rw [Held, Took] at hsame
        rw [Took, hsame] at htaken
        exact (Option.some.inj htaken).symm
      · have hnone := settle_of_ne (before.lookup path) fun c hmem hpath => hc ⟨c, hmem, hpath⟩
        exact Option.some.inj ((hsettle path).symm.trans hnone)

/-- **The error after a call**, read off its replies. -/
theorem heardReplies_iff {uid : String} {turn : Turn} {call : MirroredCall}
    {T : List (Mark Request Response)} {fs : List (List (Option Error) → List (Option Error))}
    (hlogs : Logs uid turn call T fs) :
    ((∃ w e, .reply (.write w) (some e) ∈ T) → ∃ e, some e ∈ fs.foldl (fun x f => f x) [])
      ↔ HeardReplies uid turn call T := by
  refine imp_congr_right fun _ => ?_
  rcases hlogs with ⟨rfl, hlost⟩ | ⟨y, turn', rfl, hfresh, hreply, hnot, huniq⟩
  · constructor
    · rintro ⟨e, he⟩
      exact absurd he (by simp)
    · rintro ⟨turn', e, hfresh, hreply, hnot⟩
      exact absurd (hlost turn' hfresh _ hreply) hnot
  · constructor
    · rintro ⟨e, he⟩
      have hy : some e = y := by simpa using he
      exact ⟨turn', e, hfresh, hy ▸ hreply, hnot⟩
    · rintro ⟨turn'', e, hfresh'', hreply'', -⟩
      refine ⟨e, ?_⟩
      rw [huniq turn'' hfresh'' _ hreply'']
      simp

theorem HeardReplies.perm_iff {uid : String} {turn : Turn} {call : MirroredCall}
    {T T' : List (Mark Request Response)} (h : T.Perm T') :
    HeardReplies uid turn call T ↔ HeardReplies uid turn call T' := by
  simp only [HeardReplies, h.mem_iff]

/-- The start of the runs below: an empty backend, an empty log. -/
def silentWorld : AppWorld (List (Option Error)) Unit := atRest Backend.empty fun _ => []

/-- `a` follows `b`, in the turn with identifier `id`; nothing else is going on. -/
def followingB : AppWorld (List (Option Error)) Unit :=
  silentWorld.turn () (MirroredCall.program (.follow "b")) (turnOf "a") silentWorld.pool

/-- A later turn of `a`, with a fresh identifier. -/
def laterTurn : Turn := ⟨some "a", none, ⟨0, 0⟩, "id'"⟩

instance (uid : String) (turn turn' : Turn) : Decidable (Fresh uid turn turn') :=
  inferInstanceAs (Decidable (_ ∧ _))

/-- The two writes of `followingB`, ending as given. -/
def twoWrites (first second : Outcome) : List (AppEvent Unit Empty) :=
  [.serve 0 first, .deliver 0 laterTurn, .serve 0 second, .deliver 0 laterTurn]

section Runs

variable {S : Type} [DecidableEq S]

/-- **All or nothing, and heard of.** A session makes one of the calls while nothing
else is going on; writes may fail and callbacks may be lost. When nothing of the call
is in flight any more: either everything the call means to write is written or the
store is as before, and a failed write has been reported to the completion, if and only
if the replies are `WholeReplies` and `HeardReplies`. -/
theorem mirrored_iff {act : Empty → Program (List (Option Error))} {call : MirroredCall} {s : S}
    {uid : String} {turn : Turn} (hturn : turn.currentUid = some uid)
    {w₀ w : AppWorld (List (Option Error)) S} (hrest : w₀.Quiescent) (hlog : w₀.client s = [])
    {es : List (AppEvent S Empty)}
    (run : Run api act (Confined (Fresh uid turn) True s)
      (w₀.turn s call.program turn w₀.pool) es w)
    (hquiet : w.Quiescent) :
    let T := trace api act s (w₀.turn s call.program turn w₀.pool) es
    ((AllChanged uid turn call T w₀.backend.docs w.backend.docs
          ∨ Unchanged w₀.backend.docs w.backend.docs)
        ∧ ((∃ write e, .reply (.write write) (some e) ∈ T) → ∃ e, some e ∈ w.client s))
      ↔ WholeReplies uid turn call w₀.backend.docs T ∧ HeardReplies uid turn call T := by
  intro T
  rw [World.Quiescent] at hrest hquiet
  obtain ⟨T', fs, fs', hyields, hperm, hfs, hclient⟩ :=
    run.yields (fun _ _ hok => hok) (by rw [hrest]; simp) (by rw [hquiet]; simp)
  obtain ⟨⟨t, hissued⟩, hlogs⟩ := goes_call call hturn hyields
  have hwhole : (AllChanged uid turn call T w₀.backend.docs w.backend.docs
      ∨ Unchanged w₀.backend.docs w.backend.docs)
        ↔ WholeReplies uid turn call w₀.backend.docs T := by
    have hmine : ∀ x ∈ (w₀.turn s call.program turn w₀.pool).pool, x.1 = s := by
      intro x hx
      rw [World.turn_pool, hrest, List.nil_append] at hx
      obtain ⟨fl, -, rfl⟩ := List.mem_map.mp hx
      rfl
    refine wholeReplies_iff (t := t) ?_ fun path => (lookup_trace hmine run path).2
    intro write hwrite
    obtain ⟨write', hmem, hreq⟩ := hissued _ (hperm.mem_iff.mpr hwrite)
    have heq : write = write' := by simpa using hreq
    rwa [heq]
  have hlogged : w.client s = fs.foldl (fun x f => f x) [] := by
    have hsame : fs' = fs := by
      rcases hlogs with ⟨rfl, -⟩ | ⟨y, turn', rfl, -⟩
      · exact List.nil_perm.mp hfs
      · exact (List.perm_singleton.mp hfs.symm)
    rw [hclient, hlog, hsame]
  have hheard := heardReplies_iff hlogs
  rw [HeardReplies.perm_iff hperm] at hheard
  simp only [hperm.mem_iff] at hheard
  rw [hwhole, hlogged]
  exact and_congr_right fun _ => hheard

end Runs

/-- When both writes of a follow succeed, everything has changed. -/
theorem follow_allOrNothing :
    ∃ w, Run api Empty.elim (Confined (Fresh "a" (turnOf "a")) True ()) followingB
        (twoWrites (.success []) (.success [])) w
      ∧ w.Quiescent
      ∧ (AllChanged "a" (turnOf "a") (.follow "b")
          (trace api Empty.elim () followingB (twoWrites (.success []) (.success [])))
          silentWorld.backend.docs w.backend.docs
        ∨ Unchanged silentWorld.backend.docs w.backend.docs) := by
  have hplay : ∃ w, Run api Empty.elim (Confined (Fresh "a" (turnOf "a")) True ()) followingB
      (twoWrites (.success []) (.success [])) w ∧ w.Quiescent := exists_run_of_play (by decide)
  obtain ⟨w, run, hquiet⟩ := hplay
  have hrest : silentWorld.Quiescent := rfl
  have hiff := mirrored_iff rfl hrest rfl run hquiet
  have htrace : trace api Empty.elim () followingB (twoWrites (.success []) (.success []))
      = [.reply (.write (.setData ["following", "a", "user-following", "b"] (dict []))) none,
         .reply (.write (.setData ["followers", "b", "user-followers", "a"] (dict []))) none] := rfl
  refine ⟨w, run, hquiet, (hiff.mpr ⟨?_, ?_⟩).1⟩
  · refine Or.inl ⟨turnOf "a", trivial, fun write hwrite => Or.inl ?_⟩
    change Committed (trace api Empty.elim () followingB _) write
    rw [Committed, htrace]
    simp only [MirroredCall.writes, MirroredCall.lastWrite, List.mem_cons, List.not_mem_nil,
      or_false] at hwrite
    rcases hwrite with rfl | rfl
    · exact List.mem_cons_self ..
    · exact List.mem_cons_of_mem _ (List.mem_cons_self ..)
  · change HeardReplies _ _ _ (trace api Empty.elim () followingB _)
    rw [HeardReplies, htrace]
    rintro ⟨write, e, hfailed⟩
    simp at hfailed

/-- When the first write of a follow fails and the second does not, `b` has a follower
who does not follow him, and the completion hears of no error. -/
theorem follow_not_allOrNothing :
    ∃ w, Run api Empty.elim (Confined (Fresh "a" (turnOf "a")) True ()) followingB
        (twoWrites (.failure "unavailable") (.success [])) w
      ∧ w.Quiescent
      ∧ ¬ (AllChanged "a" (turnOf "a") (.follow "b")
          (trace api Empty.elim () followingB (twoWrites (.failure "unavailable") (.success [])))
          silentWorld.backend.docs w.backend.docs
        ∨ Unchanged silentWorld.backend.docs w.backend.docs)
      ∧ w.client () = [none] := by
  have hplay : ∃ w, Run api Empty.elim (Confined (Fresh "a" (turnOf "a")) True ()) followingB
      (twoWrites (.failure "unavailable") (.success [])) w
    ∧ w.Quiescent ∧ w.backend.exists ["following", "a", "user-following", "b"] = false
    ∧ w.backend.exists ["followers", "b", "user-followers", "a"] = true
    ∧ w.client () = [none] := exists_run_of_play (by decide)
  obtain ⟨w, run, hquiet, hfollowing, hfollowers, hclient⟩ := hplay
  refine ⟨w, run, hquiet, ?_, hclient⟩
  rintro (⟨t, -, hall⟩ | hunchanged)
  · have htook := hall (.setData ["following", "a", "user-following", "b"] (dict []))
      (by simp [MirroredCall.writes])
    have hdoc : w.backend.docs.lookup ["following", "a", "user-following", "b"] = some (dict []) :=
      (Option.some.inj htook).symm
    rw [Backend.exists, hdoc] at hfollowing
    exact absurd hfollowing (by simp)
  · rw [Backend.exists, hunchanged] at hfollowers
    exact absurd hfollowers (by decide)

end InstaClone
