import Mathlib.Logic.Function.Iterate
import InstaClone.Feed

/-!
# The notification list and the follow relation

A row of type follow shows whether its sender is followed. The flag comes from the controller's
array, where the replies of `checkIfUserIsFollowed` put it; each of them reloads the table. A tap
changes the relation, and its completion toggles the flag of the view model of the cell it
captured, whatever that cell shows by then. The array is left as it is.

`InboxView` keeps what decides what the rows will show: the cells, the cells that outstanding
completions will toggle, whom the user will follow once the pending writes are committed, and
whether a check is under way that will reload the table. Unless one is, every bound row of type
follow has, after its outstanding toggles, the flag that will be stored (`InboxView.Good`). This
is kept by steps that bind rows to current entries and tap rows whose sender no other row shows.
-/

namespace InstaClone

open Async

/-! ## Replies and stages -/

namespace NotificationsController

/-- The callback of the query of `fetchNotifications`. -/
def didFetch (n : Nat) (snapshot : Option (List (String × Doc))) : Program Client :=
  match snapshot with
  | none => .done
  | some documents =>
    .ask fun turn =>
      inInbox n
        (·.setNotifications
          (documents.map fun x : String × Doc => Notification.init turn.now x.2))
        (checkIfUserIsFollowed n)

/-- The callback of the read of `checkIfUserIsFollowed` for the notification `id`. -/
def didReadSender (n : Nat) (id : String) (snapshot : Option Snapshot) : Program Client :=
  match snapshot with
  | none => .done
  | some snapshot => didCheck n id snapshot.data.isSome

end NotificationsController

open NotificationsController

/-- The query of `fetchNotifications`. -/
def inboxQuery (me : String) : Query where
  collection := ["notifications", me, "user-notifications"]
  orderBy := some ("timestamp", true)

/-- What the list waits for: the notifications, the check of one of them, and the two writes of
a tap on the cell that shows one from `sender`. -/
inductive InboxStage where
  | fetching
  | checking (id sender : String)
  | marking (v : Bool) (sender : String) (cell : Nat)
  | copying (v : Bool) (sender : String) (cell : Nat)

def InboxStage.req (me : String) : InboxStage → Request
  | .fetching => .getDocuments (inboxQuery me)
  | .checking _ sender => .getDocument ["following", me, "user-following", sender]
  | .marking v sender _ => .write (markWrite ["following", me, "user-following", sender] v)
  | .copying v sender _ => .write (markWrite ["followers", sender, "user-followers", me] v)

def InboxStage.callback (me : String) (n : Nat) :
    (t : InboxStage) → Response (t.req me) → Program Client
  | .fetching => didFetch n
  | .checking id _ => didReadSender n id
  | .marking v sender cell => fun _ =>
    .call (.write (markWrite ["followers", sender, "user-followers", me] v)) (didToggle n cell)
      .done
  | .copying _ _ cell => didToggle n cell

/-- What the session of `me` does to inbox `n`, stage by stage. -/
def inboxScript (me : String) (n : Nat) : Script Request Response Turn Client InboxStage where
  req := InboxStage.req me
  callback := InboxStage.callback me n
  reply := InReply

/-- The flight of a stage that begins. -/
def InboxStage.asked (me : String) (n : Nat) (t : InboxStage) :
    Flight Request Response Turn Client :=
  .issued (t.req me) (t.callback me n)

/-- The checks of a list. -/
def inboxChecks (notifications : List Notification) : List InboxStage :=
  (notifications.filter fun x => x.type = .follow).map fun x => .checking x.id x.uid

/-! ## Turns -/

section Turns

variable {me : String} {n : Nat} {e : Turn} {client : Client}

theorem exec_inInbox {f : NotificationsController → NotificationsController}
    {rest : Program Client} :
    (inInbox n f rest).exec e client = rest.exec e (client.mapInbox n f) := rfl

/-- The loop of `checkIfUserIsFollowed` asks for each notification of type follow. -/
theorem exec_checkSenders (he : e.currentUid = some me) :
    (NotificationsController.checkIfUserIsFollowed n).exec e client
      = (client,
          (inboxChecks (client.inboxes n).notifications).map (InboxStage.asked me n)) := by
  unfold NotificationsController.checkIfUserIsFollowed
  rw [Prog.exec_read]
  generalize (client.inboxes n).notifications = notifications
  induction notifications with
  | nil => rfl
  | cons x notifications ih =>
    rw [Prog.forEach_cons, Prog.exec_andThen]
    have hone : (if x.type = .follow then
          UserService.checkIfUserIsFollowed x.uid (NotificationsController.didCheck n x.id)
        else .done).exec e client
        = (client, (inboxChecks [x]).map (InboxStage.asked me n)) := by
      unfold inboxChecks
      by_cases hfollow : x.type = .follow
      · rw [if_pos hfollow]
        unfold UserService.checkIfUserIsFollowed withCurrentUid
        rw [Prog.exec_ask, he]
        simp only [hfollow, decide_true, List.filter_cons_of_pos, List.filter_nil, List.map_cons,
          List.map_nil]
        refine congrArg (fun k => (client, [Flight.issued _ k])) (funext fun snapshot => ?_)
        cases snapshot with
        | none => rfl
        | some snapshot => rfl
      · rw [if_neg hfollow, List.filter_cons_of_neg (by simpa using hfollow)]
        rfl
    have hchecks : inboxChecks (x :: notifications)
        = inboxChecks [x] ++ inboxChecks notifications := by
      unfold inboxChecks
      rw [← List.map_append, ← List.filter_append]
      rfl
    rw [hone, ih, hchecks, List.map_append]

theorem exec_fetchNotifications (he : e.currentUid = some me) :
    (NotificationsController.fetchNotifications n).exec e client
      = (client, [InboxStage.fetching.asked me n]) := by
  unfold NotificationsController.fetchNotifications NotificationService.fetchNotifications
    withCurrentUid
  rw [Prog.exec_ask, he]
  refine congrArg (fun k => (client, [Flight.issued _ k])) (funext fun snapshot => ?_)
  cases snapshot with
  | none => rfl
  | some documents => rfl

/-- The turn of a tap. -/
theorem exec_handleFollowTapped (he : e.currentUid = some me) {cell : Nat} {x : Notification}
    (hx : ((client.inboxes n).cells cell).viewModel = some x) :
    (handleFollowTapped n cell).exec e client
      = ({ client with loader := true },
          [InboxStage.asked me n (.marking (!x.userIsFollowed) x.uid cell)]) := by
  unfold handleFollowTapped
  rw [Prog.exec_read, hx]
  dsimp only [showLoader]
  rw [Prog.exec_modify]
  cases hflag : x.userIsFollowed with
  | false =>
    rw [if_neg (by simp)]
    unfold UserService.follow withCurrentUid
    rw [Prog.exec_ask, he]
    rfl
  | true =>
    rw [if_pos rfl]
    unfold UserService.unfollow withCurrentUid
    rw [Prog.exec_ask, he]
    rfl

end Turns

/-! ## The view -/

/-- The cells, the cells that the outstanding completions will toggle, whom the user follows once
what is pending is committed, and whether a reply is under way that will reload the table. -/
structure InboxView where
  cells : Nat → NotificationCell
  captured : List Nat
  follows : String → Bool
  reloading : Prop

namespace InboxView

variable {v v' : InboxView}

/-- What a flag in cell `i` will be when all outstanding completions have run. -/
def settles (v : InboxView) (i : Nat) (flag : Bool) : Bool := not^[v.captured.count i] flag

/-- A notification of type follow that is shown in cell `i` will show what is stored. -/
def Current (v : InboxView) (i : Nat) (x : Notification) : Prop :=
  x.type = .follow → v.settles i x.userIsFollowed = v.follows x.uid

/-- All bound rows do. -/
def AllCurrent (v : InboxView) : Prop :=
  ∀ i, (v.cells i).row.isSome = true → ∀ x ∈ (v.cells i).viewModel, v.Current i x

/-- The invariant: they do, or the table will be reloaded. -/
def Good (v : InboxView) : Prop := v.reloading ∨ v.AllCurrent

/-- No cell is bound. -/
theorem Good.of_unbound (h : ∀ i, (v.cells i).row = none) : v.Good :=
  Or.inr fun i hi => absurd hi (by simp [h i])

/-- Nothing a row depends on has changed. -/
theorem Good.same (h : v.Good) (hcells : v'.cells = v.cells)
    (hcaptured : v'.captured.Perm v.captured) (hfollows : ∀ u, v'.follows u = v.follows u)
    (hreloading : v.reloading → v'.reloading) : v'.Good := by
  refine h.imp hreloading fun hall i hi x hx hfollow => ?_
  rw [hcells] at hi hx
  have hcurrent := hall i hi x hx hfollow
  unfold settles at hcurrent ⊢
  rw [hcaptured.count_eq, hfollows]
  exact hcurrent

/-- A cell is bound to a current entry. -/
theorem Good.bind (h : v.Good) (cell row : Nat) {x : Notification}
    (hcells : v'.cells = Function.update v.cells cell ⟨some x, some row⟩)
    (hcaptured : v'.captured = v.captured) (hfollows : ∀ u, v'.follows u = v.follows u)
    (hreloading : v.reloading → v'.reloading) (hx : v.reloading ∨ v.Current cell x) :
    v'.Good := by
  have hsettles : ∀ i flag, v'.settles i flag = v.settles i flag := by
    intro i flag
    unfold settles
    rw [hcaptured]
  rcases hx with hsoon | hx
  · exact Or.inl (hreloading hsoon)
  refine h.imp hreloading fun hall i hi y hy hfollow => ?_
  rw [hcells, Function.update_apply] at hi hy
  rw [hsettles, hfollows]
  split at hy
  next hcell =>
    obtain rfl := Option.some.inj hy
    rw [hcell]
    exact hx hfollow
  next hcell =>
    rw [if_neg hcell] at hi
    exact hall i hi y hy hfollow

/-- A completion runs: it toggles the flag of the cell it captured. -/
theorem Good.toggle (h : v.Good) (cell : Nat)
    (hcells : v'.cells = Function.update v.cells cell
      { v.cells cell with
        viewModel := (v.cells cell).viewModel.map fun shown =>
          { shown with userIsFollowed := !shown.userIsFollowed } })
    (hcaptured : v.captured.Perm (cell :: v'.captured))
    (hfollows : ∀ u, v'.follows u = v.follows u) (hreloading : v.reloading → v'.reloading) :
    v'.Good := by
  refine h.imp hreloading fun hall i hi y hy hfollow => ?_
  rw [hcells, Function.update_apply] at hi hy
  unfold settles
  unfold AllCurrent Current settles at hall
  rw [hfollows]
  have hcount := hcaptured.count_eq i
  split at hy
  next hcell =>
    subst hcell
    rw [if_pos rfl] at hi
    obtain ⟨x, hx, rfl⟩ := Option.map_eq_some_iff.mp hy
    have hcurrent := hall i hi x hx hfollow
    rw [List.count_cons_self] at hcount
    rw [hcount, Function.iterate_succ_apply] at hcurrent
    exact hcurrent
  next hcell =>
    rw [if_neg hcell] at hi
    have hcurrent := hall i hi y hy hfollow
    rw [List.count_cons_of_ne (Ne.symm hcell)] at hcount
    rw [hcount] at hcurrent
    exact hcurrent

/-- A tap changes whether the sender is followed. Its cell will show that if its outstanding
toggles cancel out, and no other row is his. -/
theorem Good.tap (h : v.Good) (cell : Nat) {x : Notification}
    (hcells : v'.cells = v.cells) (hcaptured : v'.captured.Perm (cell :: v.captured))
    (hfollows : ∀ u, v'.follows u = if u = x.uid then !x.userIsFollowed else v.follows u)
    (hreloading : v.reloading → v'.reloading)
    (hshown : (v.cells cell).viewModel = some x)
    (halone : v.reloading ∨ (v.settles cell x.userIsFollowed = x.userIsFollowed
      ∧ ∀ i, i ≠ cell → (v.cells i).row.isSome = true → ∀ y ∈ (v.cells i).viewModel,
        y.type = .follow → y.uid ≠ x.uid)) : v'.Good := by
  rcases halone with hsoon | ⟨heven, halone⟩
  · exact Or.inl (hreloading hsoon)
  refine h.imp hreloading fun hall i hi y hy hfollow => ?_
  rw [hcells] at hi hy
  unfold Current settles at *
  have hcount := hcaptured.count_eq i
  by_cases hcell : i = cell
  · subst hcell
    obtain rfl := Option.some.inj (hshown.symm.trans hy)
    rw [hfollows, if_pos rfl, hcount, List.count_cons_self, Function.iterate_succ_apply', heven]
  · rw [hfollows, if_neg (halone i hcell hi y hy hfollow), hcount,
      List.count_cons_of_ne (Ne.symm hcell)]
    exact hall i hi y hy hfollow

end InboxView

/-! ## The runs -/

section Runs

variable {S : Type} {s : S} {me : String} {n : Nat}
  {own pre post new : List (S × Flight Request Response Turn Client)}

/-- Does the user follow `u` once his pending writes are committed? -/
def followsToBe (me u : String) (docs : Store)
    (own : List (S × Flight Request Response Turn Client)) : Bool :=
  ((document ["following", me, "user-following", u]).after own
    (docs.lookup ["following", me, "user-following", u])).isSome

/-- A check of a notification of the list is under way. -/
def Reloading (me : String) (n : Nat) (inbox : NotificationsController)
    (own : List (S × Flight Request Response Turn Client)) : Prop :=
  ∃ x ∈ own, ∃ id sender, (inboxScript me n).At x.2 (.checking id sender)
    ∧ id ∈ inbox.notifications.map Notification.id

/-- The cells that the completions of the taps under way will toggle. -/
def capturedCells (stages : List (S × InboxStage)) : List Nat :=
  stages.filterMap fun x =>
    match x.2 with
    | .marking _ _ cell => some cell
    | .copying _ _ cell => some cell
    | _ => none

@[simp] theorem capturedCells_append (l l' : List (S × InboxStage)) :
    capturedCells (l ++ l') = capturedCells l ++ capturedCells l' := List.filterMap_append

/-- What is in flight: flights of other sessions, and the stages of session `s`. -/
abbrev InboxTracks (s : S) (me : String) (n : Nat) :
    List (S × Flight Request Response Turn Client) → List (S × InboxStage) → Prop :=
  Tracks (fun t _ => t ≠ s) fun t fl stage => t = s ∧ (inboxScript me n).At fl stage

/-- A write of a stage that is no tap's first is none of whom the user follows. -/
theorem InboxStage.not_touches {t : InboxStage} (ht : ∀ v sender cell, t ≠ .marking v sender cell)
    (u : String) : ¬ (document ["following", me, "user-following", u]).touches (t.req me) := by
  cases t with
  | marking v sender cell => exact absurd rfl (ht v sender cell)
  | fetching => exact fun h => by simp [document, InboxStage.req] at h
  | checking id sender => exact fun h => by simp [document, InboxStage.req] at h
  | copying v sender cell => simp [InboxStage.req]

theorem followsToBe_issue {u : String} {docs : Store}
    (hnew : ∀ x ∈ new, ¬ (document ["following", me, "user-following", u]).touches x.2.req) :
    followsToBe me u docs (own ++ new) = followsToBe me u docs own := by
  unfold followsToBe
  rw [Register.after_append, Register.after_quiet (document_lawful _) fun x hx _ => hnew x hx]

theorem followsToBe_served {u : String} {docs : Store} {r : Request} {p : Program Client} :
    followsToBe me u docs (pre ++ (s, .served r p) :: post)
      = followsToBe me u docs (pre ++ post) := by
  unfold followsToBe
  rw [Register.after_append, Register.after_append, Register.after_served]

/-- A tap decides it for its sender. -/
theorem followsToBe_tap {u sender : String} {docs : Store} {v : Bool} {cell : Nat} :
    followsToBe me u docs (own ++ [(s, InboxStage.asked me n (.marking v sender cell))])
      = if u = sender then v else followsToBe me u docs own := by
  unfold followsToBe
  rw [Register.after_append]
  show (if (markWrite ["following", me, "user-following", sender] v).path
        = ["following", me, "user-following", u] then _ else _ : Option Doc).isSome = _
  rw [markWrite_path]
  by_cases hu : u = sender
  · subst hu
    rw [if_pos rfl, if_pos rfl]
    cases v <;> rfl
  · rw [if_neg (by simpa using Ne.symm hu), if_neg hu]

/-- A check stays under way. -/
theorem Reloading.mono {inbox inbox' : NotificationsController}
    {own' : List (S × Flight Request Response Turn Client)} (h : Reloading me n inbox own)
    (hlist : inbox'.notifications = inbox.notifications)
    (hown : ∀ x ∈ own, ∀ id sender, (inboxScript me n).At x.2 (.checking id sender) →
      id ∈ inbox.notifications.map Notification.id →
        ∃ y ∈ own', (inboxScript me n).At y.2 (.checking id sender)) :
    Reloading me n inbox' own' := by
  obtain ⟨x, hx, id, sender, hat, hid⟩ := h
  obtain ⟨y, hy, hat'⟩ := hown x hx id sender hat hid
  exact ⟨y, hy, id, sender, hat', by rw [hlist]; exact hid⟩

variable [DecidableEq S] {w w' : AppWorld Client S}

/-- The view of inbox `n` of session `s`. -/
def inboxView (s : S) (me : String) (n : Nat) (w : AppWorld Client S)
    (stages : List (S × InboxStage)) : InboxView where
  cells := ((w.client s).inboxes n).cells
  captured := capturedCells stages
  follows u := followsToBe me u w.backend.docs (ofSession s w.pool)
  reloading := Reloading me n ((w.client s).inboxes n) (ofSession s w.pool)

/-- The invariant of an inbox. -/
def InboxInv (s : S) (me : String) (n : Nat) (w : AppWorld Client S) : Prop :=
  ∃ stages, InboxTracks s me n w.pool stages ∧ (inboxView s me n w stages).Good

/-- Nobody else changes whom the user follows. -/
def FollowsAreMine (s : S) (me : String) (w : AppWorld Client S) : AppEvent S Action → Prop
  | .serve i _ => ∀ x ∈ w.pool[i]?, x.1 ≠ s → ∀ write, x.2.req = .write write →
    ∀ u, write.path ≠ ["following", me, "user-following", u]
  | _ => True

/-- What session `s` does is load, refresh, bind and tap in inbox `n`. Only cells that are shown
are tapped, and only rows of type follow show the button. -/
def OnInbox (s : S) (n : Nat) (w : AppWorld Client S) : AppEvent S Action → Prop
  | .invoke t a _ => t = s →
    match a with
    | .inboxDidLoad n' => n' = n
    | .inboxRefresh n' => n' = n
    | .inboxCell n' _ _ => n' = n
    | .inboxFollowTap n' cell =>
      n' = n ∧ (((w.client s).inboxes n).cells cell).row.isSome = true
        ∧ ∀ x ∈ (((w.client s).inboxes n).cells cell).viewModel, x.type = .follow
    | _ => False
  | _ => True

/-- The events of inbox `n` in session `s` of `me`, nobody else changing whom he follows and
nothing failing. -/
structure InboxRun (s : S) (me : String) (n : Nat) (w : AppWorld Client S)
    (ev : AppEvent S Action) : Prop where
  signedIn : EnvOk (fun t e => t = s → e.currentUid = some me) w ev
  replied : Replied s w ev
  mine : FollowsAreMine s me w ev
  onInbox : OnInbox s n w ev

/-- Unless a check is under way that will reload the table: a cell is bound to an entry whose
flag, once the outstanding completions have toggled it, is what will be stored; and a tap finds
no odd number of such completions on its cell, and no other row that shows the sender's follow. -/
def InboxCurrent (s : S) (me : String) (n : Nat) (w : AppWorld Client S) :
    AppEvent S Action → Prop
  | .invoke t (.inboxCell _ cell row) _ => t = s → ∀ stages, InboxTracks s me n w.pool stages →
    Reloading me n ((w.client s).inboxes n) (ofSession s w.pool)
      ∨ ∀ x ∈ ((w.client s).inboxes n).notifications[row]?,
        (inboxView s me n w stages).Current cell x
  | .invoke t (.inboxFollowTap _ cell) _ => t = s → ∀ stages, InboxTracks s me n w.pool stages →
    Reloading me n ((w.client s).inboxes n) (ofSession s w.pool)
      ∨ ∀ x ∈ (((w.client s).inboxes n).cells cell).viewModel,
        (inboxView s me n w stages).settles cell x.userIsFollowed = x.userIsFollowed
          ∧ ∀ i, i ≠ cell → (((w.client s).inboxes n).cells i).row.isSome = true →
            ∀ y ∈ (((w.client s).inboxes n).cells i).viewModel, y.type = .follow → y.uid ≠ x.uid
  | _ => True

/-! ### Steps of other sessions -/

/-- What leaves the session, its flights and whom the user follows alone. -/
theorem InboxInv.aside (h : InboxInv s me n w) (hclient : w'.client s = w.client s)
    (hown : ofSession s w'.pool = ofSession s w.pool)
    (htracks : ∀ stages, InboxTracks s me n w.pool stages → InboxTracks s me n w'.pool stages)
    (hfollows : ∀ u, w'.backend.docs.lookup ["following", me, "user-following", u]
      = w.backend.docs.lookup ["following", me, "user-following", u]) : InboxInv s me n w' := by
  obtain ⟨stages, hstages, hgood⟩ := h
  refine ⟨stages, htracks stages hstages, hgood.same ?_ (List.Perm.refl _) (fun u => ?_) ?_⟩
  · show ((w'.client s).inboxes n).cells = ((w.client s).inboxes n).cells
    rw [hclient]
  · show followsToBe me u w'.backend.docs (ofSession s w'.pool) = followsToBe me u _ _
    unfold followsToBe
    rw [hown, hfollows]
  · show Reloading me n ((w.client s).inboxes n) (ofSession s w.pool) → Reloading me n _ _
    rw [hown, hclient]
    exact id

omit [DecidableEq S] in
/-- A flight of another session is no stage, so it may change, -/
theorem InboxTracks.other {t : S} (hne : t ≠ s) {fl fl' : Flight Request Response Turn Client}
    {stages : List (S × InboxStage)} (h : InboxTracks s me n (pre ++ (t, fl) :: post) stages) :
    InboxTracks s me n (pre ++ (t, fl') :: post) stages :=
  Tracks.serve h (fun hts => hts) fun _ hst => absurd hst.1 hne

omit [DecidableEq S] in
/-- and it may go. -/
theorem InboxTracks.other_gone {t : S} (hne : t ≠ s) {fl : Flight Request Response Turn Client}
    {stages : List (S × InboxStage)} (h : InboxTracks s me n (pre ++ (t, fl) :: post) stages) :
    InboxTracks s me n (pre ++ post) stages :=
  Tracks.remove_quiet h fun _ hst => hne hst.1

/-- A turn of another session. -/
theorem InboxInv.turn_other {t : S} (hne : t ≠ s) {p : Program Client} {e : Turn}
    {pool : List (S × Flight Request Response Turn Client)} (h : InboxInv s me n w)
    (hown : ofSession s pool = ofSession s w.pool)
    (htracks : ∀ stages, InboxTracks s me n w.pool stages → InboxTracks s me n pool stages) :
    InboxInv s me n (w.turn t p e pool) := by
  refine h.aside ?_ ?_ (fun stages hst => ?_) fun _ => rfl
  · rw [World.turn_client, if_neg (Ne.symm hne)]
  · rw [World.turn_pool, ofSession_append, ofSession_issues_ne hne, List.append_nil, hown]
  · rw [World.turn_pool]
    refine (htracks stages hst).append_quiet fun x hx => ?_
    obtain ⟨fl, -, rfl⟩ := List.mem_map.mp hx
    exact hne

/-! ### Steps of the session -/

/-- Serving a request of the session changes nothing of the view. -/
theorem InboxInv.served (h : InboxInv s me n w) {r : Request} {k : Response r → Program Client}
    {o : Outcome} {b : Backend} {y : Response r} (hpool : w.pool = pre ++ (s, .issued r k) :: post)
    (hfifo : api.ordered r = true → ∀ x ∈ pre, x.1 = s → x.2.waits = true →
      api.ordered x.2.req = false)
    (hserve : api.serve w.backend r o = some (b, y)) (hsuccess : o.isSuccess = true) :
    InboxInv s me n { w with backend := b, pool := pre ++ (s, .served r (k y)) :: post } := by
  obtain ⟨stages, htracks, hgood⟩ := h
  have hreply := inReply_of_serve hsuccess hserve
  have hown : ofSession s w.pool = ofSession s pre ++ (s, .issued r k) :: ofSession s post := by
    rw [hpool, ofSession_append, ofSession_cons_self]
  rw [hpool] at htracks
  refine ⟨stages, htracks.serve id fun t ht => ⟨ht.1, ht.2.serve hreply⟩,
    hgood.same rfl (List.Perm.refl _) (fun u => ?_) fun hreloading => ?_⟩
  · refine congrArg Option.isSome ?_
    rw [hpool]
    exact Register.only_serve (document_lawful _) hfifo hserve fun _ => hsuccess
  · have hreloading : Reloading me n ((w.client s).inboxes n) (ofSession s w.pool) := hreloading
    show Reloading me n ((w.client s).inboxes n) (ofSession s (pre ++ (s, .served r (k y)) :: post))
    rw [ofSession_append, ofSession_cons_self]
    refine hreloading.mono rfl fun x hx id sender hat _ => ?_
    rw [hown] at hx
    rcases List.mem_append.mp hx with hx | hx
    · exact ⟨x, List.mem_append_left _ hx, hat⟩
    rcases List.mem_cons.mp hx with rfl | hx
    · exact ⟨(s, .served r (k y)), by simp, hat.serve hreply⟩
    · exact ⟨x, List.mem_append_right _ (List.mem_cons_of_mem _ hx), hat⟩

section Turns

variable {r : Request} {p : Program Client} {e : Turn}

/-- The table is reloaded. -/
theorem inboxInv_reload {pool : List (S × Flight Request Response Turn Client)}
    (stages : List (S × InboxStage))
    (hcells : ∀ i, (((p.exec e (w.client s)).1.inboxes n).cells i).row = none)
    (htracks : InboxTracks s me n
      (pool ++ (p.exec e (w.client s)).2.map fun fl => (s, fl)) stages) :
    InboxInv s me n (w.turn s p e pool) := by
  refine ⟨stages, htracks, .of_unbound fun i => ?_⟩
  show (((((w.turn s p e pool).client s).inboxes n).cells i).row = none)
  rw [turn_client_self]
  exact hcells i

/-- What a callback that issues no mark leaves, if its own flight is no check of the list. -/
theorem inboxView_deliver (stages stages' : List (S × InboxStage))
    (hpool : w.pool = pre ++ (s, .served r p) :: post)
    (hcheck : ∀ id sender, (inboxScript me n).At (.served r p) (.checking id sender) →
      id ∉ ((w.client s).inboxes n).notifications.map Notification.id)
    (hissues : ∀ fl ∈ (p.exec e (w.client s)).2, ∀ u,
      ¬ (document ["following", me, "user-following", u]).touches fl.req)
    (hlist : ((p.exec e (w.client s)).1.inboxes n).notifications
      = ((w.client s).inboxes n).notifications) :
    (∀ u, (inboxView s me n (w.turn s p e (pre ++ post)) stages').follows u
        = (inboxView s me n w stages).follows u)
      ∧ ((inboxView s me n w stages).reloading →
        (inboxView s me n (w.turn s p e (pre ++ post)) stages').reloading) := by
  have hown : ofSession s w.pool = ofSession s pre ++ (s, .served r p) :: ofSession s post := by
    rw [hpool, ofSession_append, ofSession_cons_self]
  have hown' : ofSession s (w.turn s p e (pre ++ post)).pool
      = ofSession s pre ++ ofSession s post
        ++ (p.exec e (w.client s)).2.map fun fl => (s, fl) := by
    rw [World.turn_pool, ofSession_append, ofSession_append, ofSession_issues_self]
  refine ⟨fun u => ?_, fun hreloading => ?_⟩
  · show followsToBe me u w.backend.docs (ofSession s _)
      = followsToBe me u w.backend.docs (ofSession s w.pool)
    rw [hown', hown, followsToBe_served, followsToBe_issue]
    intro x hx
    obtain ⟨fl, hfl, rfl⟩ := List.mem_map.mp hx
    exact hissues fl hfl u
  · have hreloading : Reloading me n ((w.client s).inboxes n) (ofSession s w.pool) := hreloading
    show Reloading me n (((w.turn s p e (pre ++ post)).client s).inboxes n) (ofSession s _)
    rw [hown', turn_client_self]
    refine hreloading.mono hlist fun x hx id sender hat hid => ?_
    rw [hown] at hx
    rcases List.mem_append.mp hx with hx | hx
    · exact ⟨x, by simp [hx], hat⟩
    rcases List.mem_cons.mp hx with rfl | hx
    · exact absurd hid (hcheck id sender hat)
    · exact ⟨x, by simp [hx], hat⟩

/-- The same for an action. -/
theorem inboxView_invoke {stages stages' : List (S × InboxStage)}
    (hlist : ((p.exec e (w.client s)).1.inboxes n).notifications
      = ((w.client s).inboxes n).notifications) :
    (inboxView s me n w stages).reloading →
      (inboxView s me n (w.turn s p e w.pool) stages').reloading := by
  intro hreloading
  have hreloading : Reloading me n ((w.client s).inboxes n) (ofSession s w.pool) := hreloading
  show Reloading me n (((w.turn s p e w.pool).client s).inboxes n) (ofSession s _)
  rw [World.turn_pool, ofSession_append, turn_client_self]
  exact hreloading.mono hlist fun x hx id sender hat _ => ⟨x, List.mem_append_left _ hx, hat⟩

omit [DecidableEq S] in
/-- Stages that are asked for now. -/
theorem inboxTracks_asked (stages : List InboxStage) :
    InboxTracks s me n ((stages.map (InboxStage.asked me n)).map fun fl => (s, fl))
      (stages.map fun t => (s, t)) := by
  induction stages with
  | nil => exact .nil
  | cons t stages ih => exact .stage ⟨rfl, .asked (P := inboxScript me n) t⟩ ih

/-- What the reply of a check of a listed notification leaves: no cell is bound. -/
theorem checked_listed {id : String} {snapshot : Snapshot} {client : Client}
    (hid : id ∈ (client.inboxes n).notifications.map Notification.id) (i : Nat) :
    ((((didReadSender n id (some snapshot)).exec e client).1.inboxes n).cells i).row = none := by
  unfold didReadSender NotificationsController.didCheck
  rw [exec_inInbox, Prog.exec_done, Client.mapInbox_inboxes, if_pos rfl]
  split
  next => rfl
  next hnone =>
    obtain ⟨x, hx, hxid⟩ := List.mem_map.mp hid
    have hne := List.findIdx?_eq_none_iff.mp hnone x hx
    exact absurd hxid (by simpa using hne)

/-- One of a notification that is not listed leaves the list as it is. -/
theorem checked_unlisted {id : String} {snapshot : Snapshot} {client : Client}
    (hid : id ∉ (client.inboxes n).notifications.map Notification.id) :
    ((didReadSender n id (some snapshot)).exec e client).1.inboxes n = client.inboxes n := by
  unfold didReadSender NotificationsController.didCheck
  rw [exec_inInbox, Prog.exec_done, Client.mapInbox_inboxes, if_pos rfl]
  split
  next index hindex =>
    obtain ⟨hlt, hid', -⟩ := List.findIdx?_eq_some_iff_getElem.mp hindex
    refine absurd (List.mem_map.mpr ⟨_, List.getElem_mem hlt, ?_⟩) hid
    simpa using hid'
  next => rfl

end Turns

/-- A callback that leaves the array, and of the cells changes what the view allows. -/
theorem InboxInv.deliver_same {r : Request} {p : Program Client} {e : Turn}
    {stages : List (S × InboxStage)} (stages' : List (S × InboxStage))
    (hgood : (inboxView s me n w stages).Good)
    (hpool : w.pool = pre ++ (s, .served r p) :: post)
    (hcheck : ∀ id sender, (inboxScript me n).At (.served r p) (.checking id sender) →
      id ∉ ((w.client s).inboxes n).notifications.map Notification.id)
    (hissues : ∀ fl ∈ (p.exec e (w.client s)).2, ∀ u,
      ¬ (document ["following", me, "user-following", u]).touches fl.req)
    (hinbox : (p.exec e (w.client s)).1.inboxes n = (w.client s).inboxes n)
    (hcaptured : (capturedCells stages').Perm (capturedCells stages))
    (htracks : InboxTracks s me n
      (pre ++ post ++ (p.exec e (w.client s)).2.map fun fl => (s, fl)) stages') :
    InboxInv s me n (w.turn s p e (pre ++ post)) := by
  obtain ⟨hfollows, hreloading⟩ := inboxView_deliver stages stages'
    hpool hcheck hissues (by rw [hinbox])
  refine ⟨stages', htracks, hgood.same ?_ hcaptured hfollows hreloading⟩
  show (((w.turn s p e (pre ++ post)).client s).inboxes n).cells = _
  rw [turn_client_self, hinbox]
  rfl

section Delivered

variable {stages l l' : List (S × InboxStage)} {r : Request} {p : Program Client} {e : Turn}

omit [DecidableEq S] in
/-- A callback that issues nothing leaves the other stages. -/
theorem InboxTracks.turn_done (h : InboxTracks s me n (pre ++ post) (l ++ l'))
    (hissues : (p.exec e (w.client s)).2 = []) :
    InboxTracks s me n (pre ++ post ++ (p.exec e (w.client s)).2.map fun fl => (s, fl))
      (l ++ l') := by
  rw [hissues, List.map_nil, List.append_nil]
  exact h

/-- The list is fetched: it is reloaded with a check for each sender. -/
theorem InboxInv.delivered_fetching (he : e.currentUid = some me)
    (hrest : InboxTracks s me n (pre ++ post) (l ++ l')) (documents : List (String × Doc)) :
    InboxInv s me n (w.turn s (didFetch n (some documents)) e (pre ++ post)) := by
  let notifications := documents.map fun x : String × Doc => Notification.init e.now x.2
  have hexec : (didFetch n (some documents)).exec e (w.client s)
      = ((w.client s).mapInbox n (·.setNotifications notifications),
        (inboxChecks notifications).map (InboxStage.asked me n)) := by
    unfold didFetch
    rw [Prog.exec_ask, exec_inInbox, exec_checkSenders he, Client.mapInbox_inboxes, if_pos rfl]
    rfl
  refine inboxInv_reload (p := didFetch n (some documents))
    (l ++ l' ++ (inboxChecks notifications).map fun t => (s, t)) (fun i => ?_) ?_
  · rw [hexec, Client.mapInbox_inboxes, if_pos rfl]
    rfl
  · rw [hexec]
    exact hrest.append (inboxTracks_asked _)

/-- The check of a listed notification is answered: the list is reloaded. -/
theorem InboxInv.delivered_listed {id : String} {snapshot : Snapshot}
    (hid : id ∈ ((w.client s).inboxes n).notifications.map Notification.id)
    (hrest : InboxTracks s me n (pre ++ post) (l ++ l')) :
    InboxInv s me n (w.turn s (didReadSender n id (some snapshot)) e (pre ++ post)) :=
  inboxInv_reload (l ++ l') (checked_listed hid) (hrest.turn_done rfl)

/-- The check of one that is no longer listed is answered: nothing changes. -/
theorem InboxInv.delivered_unlisted {id sender : String} {snapshot : Snapshot}
    (hgood : (inboxView s me n w (l ++ (s, .checking id sender) :: l')).Good)
    (hpool : w.pool = pre ++ (s, .served r (didReadSender n id (some snapshot))) :: post)
    (hunlisted : ∀ id' sender', (inboxScript me n).At
      (.served r (didReadSender n id (some snapshot))) (.checking id' sender') →
        id' ∉ ((w.client s).inboxes n).notifications.map Notification.id)
    (hid : id ∉ ((w.client s).inboxes n).notifications.map Notification.id)
    (hrest : InboxTracks s me n (pre ++ post) (l ++ l')) :
    InboxInv s me n (w.turn s (didReadSender n id (some snapshot)) e (pre ++ post)) := by
  refine .deliver_same (l ++ l') hgood hpool hunlisted (fun fl hfl => ?_) (checked_unlisted hid) ?_
    (hrest.turn_done rfl)
  · exact absurd hfl List.not_mem_nil
  · rw [capturedCells_append, capturedCells_append]
    exact List.Perm.refl _

/-- The mark is acknowledged: its copy is issued, and the completion stays captured. -/
theorem InboxInv.delivered_marking {v : Bool} {sender : String} {cell : Nat}
    (hgood : (inboxView s me n w (l ++ (s, .marking v sender cell) :: l')).Good)
    (hpool : w.pool = pre ++ (s, .served r p) :: post)
    (hunlisted : ∀ id sender', (inboxScript me n).At (.served r p) (.checking id sender') →
      id ∉ ((w.client s).inboxes n).notifications.map Notification.id)
    (hexec : p.exec e (w.client s)
      = (w.client s, [InboxStage.asked me n (.copying v sender cell)]))
    (hrest : InboxTracks s me n (pre ++ post) (l ++ l')) :
    InboxInv s me n (w.turn s p e (pre ++ post)) := by
  refine .deliver_same (l ++ l' ++ [(s, .copying v sender cell)]) hgood hpool hunlisted
    (fun fl hfl u => ?_) (by rw [hexec]) ?_ ?_
  · rw [hexec] at hfl
    obtain rfl := List.mem_singleton.mp hfl
    exact InboxStage.not_touches (t := .copying v sender cell) (by simp) u
  · simp only [capturedCells_append]
    show (capturedCells l ++ capturedCells l' ++ [cell]).Perm
      (capturedCells l ++ cell :: capturedCells l')
    rw [List.append_assoc]
    exact (List.perm_append_singleton cell _).append_left _
  · rw [hexec]
    exact hrest.append (inboxTracks_asked (n := n) [.copying v sender cell])

/-- The copy is acknowledged: the completion toggles the flag of the cell it captured. -/
theorem InboxInv.delivered_copying {v : Bool} {sender : String} {cell : Nat} {y : Option Error}
    (hgood : (inboxView s me n w (l ++ (s, .copying v sender cell) :: l')).Good)
    (hpool : w.pool = pre ++ (s, .served r (didToggle n cell y)) :: post)
    (hunlisted : ∀ id sender', (inboxScript me n).At (.served r (didToggle n cell y))
      (.checking id sender') → id ∉ ((w.client s).inboxes n).notifications.map Notification.id)
    (hrest : InboxTracks s me n (pre ++ post) (l ++ l')) :
    InboxInv s me n (w.turn s (didToggle n cell y) e (pre ++ post)) := by
  have hinbox : ((((didToggle n cell y).exec e (w.client s)).1).inboxes n)
      = ((w.client s).inboxes n).mapCell cell fun x =>
          { x with
            viewModel := x.viewModel.map fun shown =>
              { shown with userIsFollowed := !shown.userIsFollowed } } := by
    unfold didToggle showLoader
    rw [Prog.exec_modify, exec_inInbox, Prog.exec_done, Client.mapInbox_inboxes, if_pos rfl]
  have hlist : ((((didToggle n cell y).exec e (w.client s)).1).inboxes n).notifications
      = ((w.client s).inboxes n).notifications := by
    rw [hinbox]
    rfl
  obtain ⟨hfollows, hreloading⟩ := inboxView_deliver (e := e)
    (l ++ (s, .copying v sender cell) :: l') (l ++ l') hpool hunlisted
    (fun fl hfl => absurd hfl List.not_mem_nil) hlist
  refine ⟨l ++ l', hrest.turn_done rfl, hgood.toggle cell ?_ ?_ hfollows hreloading⟩
  · show (((w.turn s (didToggle n cell y) e (pre ++ post)).client s).inboxes n).cells = _
    rw [turn_client_self, hinbox]
    rfl
  · simp only [inboxView, capturedCells_append]
    exact List.perm_middle

end Delivered

/-- A callback of the session runs. -/
theorem InboxInv.delivered {r : Request} {p : Program Client} {e : Turn} (h : InboxInv s me n w)
    (he : e.currentUid = some me) (hpool : w.pool = pre ++ (s, .served r p) :: post) :
    InboxInv s me n (w.turn s p e (pre ++ post)) := by
  obtain ⟨stages, htracks, hgood⟩ := h
  rw [hpool] at htracks
  obtain ⟨l, l', hpre, hpost, ⟨hother, -⟩ | ⟨t, ⟨-, hat⟩, rfl⟩⟩ := htracks.split
  · exact absurd rfl hother
  have hrest : InboxTracks s me n (pre ++ post) (l ++ l') := hpre.append hpost
  by_cases hlisted : ∃ id sender, (inboxScript me n).At (.served r p) (.checking id sender)
      ∧ id ∈ ((w.client s).inboxes n).notifications.map Notification.id
  · obtain ⟨id, sender, hcheck, hid⟩ := hlisted
    generalize hfl : Flight.served r p = fl at hcheck
    cases hcheck with
    | asked => exact absurd hfl (by simp)
    | answered t y hy =>
      obtain ⟨rfl, rfl⟩ := Flight.served.inj hfl
      obtain ⟨snapshot, rfl⟩ := Option.isSome_iff_exists.mp hy
      exact .delivered_listed hid hrest
  have hunlisted : ∀ id sender, (inboxScript me n).At (.served r p) (.checking id sender) →
      id ∉ ((w.client s).inboxes n).notifications.map Notification.id :=
    fun id sender hcheck hid => hlisted ⟨id, sender, hcheck, hid⟩
  have hat' := hat
  generalize hfl : Flight.served r p = fl at hat'
  cases hat' with
  | asked => exact absurd hfl (by simp)
  | answered t y hy =>
    obtain ⟨rfl, rfl⟩ := Flight.served.inj hfl
    cases t with
    | fetching =>
      obtain ⟨documents, rfl, -⟩ := hy
      exact .delivered_fetching he hrest documents
    | checking id sender =>
      obtain ⟨snapshot, rfl⟩ := Option.isSome_iff_exists.mp hy
      exact .delivered_unlisted hgood hpool hunlisted (hunlisted id sender hat) hrest
    | marking v sender cell => exact .delivered_marking hgood hpool hunlisted rfl hrest
    | copying v sender cell => exact .delivered_copying (y := y) hgood hpool hunlisted hrest

/-- An action that issues no mark leaves whom the user follows. -/
theorem followsToBe_invoke {p : Program Client} {e : Turn}
    (hissues : ∀ fl ∈ (p.exec e (w.client s)).2, ∀ u,
      ¬ (document ["following", me, "user-following", u]).touches fl.req) (u : String) :
    followsToBe me u w.backend.docs (ofSession s (w.turn s p e w.pool).pool)
      = followsToBe me u w.backend.docs (ofSession s w.pool) := by
  rw [World.turn_pool, ofSession_append, ofSession_issues_self, followsToBe_issue]
  intro x hx
  obtain ⟨fl, hfl, rfl⟩ := List.mem_map.mp hx
  exact hissues fl hfl u

/-- The view loads. -/
theorem InboxInv.didLoad {e : Turn} (h : InboxInv s me n w) (he : e.currentUid = some me) :
    InboxInv s me n (w.turn s (NotificationsController.viewDidLoad n) e w.pool) := by
  obtain ⟨stages, htracks, hgood⟩ := h
  have hexec : (NotificationsController.viewDidLoad n).exec e (w.client s)
      = if ((w.client s).inboxes n).loaded then (w.client s, [])
        else ((w.client s).mapInbox n fun inbox => { inbox with loaded := true },
          [InboxStage.fetching.asked me n]) := by
    unfold NotificationsController.viewDidLoad
    rw [Prog.exec_read]
    split
    next => rfl
    next => rw [exec_inInbox, exec_fetchNotifications he]
  have hnotes : ∀ fl ∈ ((NotificationsController.viewDidLoad n).exec e (w.client s)).2, ∀ u,
      ¬ (document ["following", me, "user-following", u]).touches fl.req := by
    rw [hexec]
    split
    next => exact fun fl hfl => absurd hfl List.not_mem_nil
    next =>
      intro fl hfl u
      obtain rfl := List.mem_singleton.mp hfl
      exact InboxStage.not_touches (t := .fetching) (by simp) u
  have hlist : (((NotificationsController.viewDidLoad n).exec e (w.client s)).1.inboxes n).cells
        = ((w.client s).inboxes n).cells
      ∧ (((NotificationsController.viewDidLoad n).exec e (w.client s)).1.inboxes n).notifications
        = ((w.client s).inboxes n).notifications := by
    rw [hexec]
    split
    next => exact ⟨rfl, rfl⟩
    next =>
      rw [Client.mapInbox_inboxes, if_pos rfl]
      exact ⟨rfl, rfl⟩
  have hgood' : ∀ stages', capturedCells stages' = capturedCells stages →
      (inboxView s me n
        (w.turn s (NotificationsController.viewDidLoad n) e w.pool) stages').Good := by
    intro stages' hcaptured
    refine hgood.same ?_ (List.Perm.of_eq hcaptured) (followsToBe_invoke hnotes)
      (inboxView_invoke hlist.2)
    show ((((w.turn s (NotificationsController.viewDidLoad n) e w.pool).client s).inboxes n).cells
      = _)
    rw [turn_client_self, hlist.1]
    rfl
  by_cases hloaded : ((w.client s).inboxes n).loaded = true
  · refine ⟨stages, ?_, hgood' stages rfl⟩
    rw [World.turn_pool, hexec, if_pos hloaded, List.map_nil, List.append_nil]
    exact htracks
  · refine ⟨stages ++ [(s, .fetching)], ?_, hgood' _ (by simp [capturedCells])⟩
    rw [World.turn_pool, hexec, if_neg hloaded]
    exact htracks.append (inboxTracks_asked [.fetching])

/-- It is refreshed: the array is emptied. -/
theorem InboxInv.refresh {e : Turn} (h : InboxInv s me n w) (he : e.currentUid = some me) :
    InboxInv s me n (w.turn s (NotificationsController.handleRefresh n) e w.pool) := by
  obtain ⟨stages, htracks, -⟩ := h
  have hexec : (NotificationsController.handleRefresh n).exec e (w.client s)
      = ((w.client s).mapInbox n (·.setNotifications []), [InboxStage.fetching.asked me n]) := by
    unfold NotificationsController.handleRefresh
    rw [exec_inInbox, exec_fetchNotifications he]
  refine inboxInv_reload (stages ++ [(s, .fetching)]) (fun i => ?_) ?_
  · rw [hexec, Client.mapInbox_inboxes, if_pos rfl]
    rfl
  · rw [hexec]
    exact htracks.append (inboxTracks_asked [.fetching])

/-- A cell is bound. -/
theorem InboxInv.bind {e : Turn} (h : InboxInv s me n w) {cell row : Nat}
    (hcurrent : ∀ stages, InboxTracks s me n w.pool stages →
      Reloading me n ((w.client s).inboxes n) (ofSession s w.pool)
        ∨ ∀ x ∈ ((w.client s).inboxes n).notifications[row]?,
          (inboxView s me n w stages).Current cell x) :
    InboxInv s me n (w.turn s (NotificationsController.cellForRowAt n cell row) e w.pool) := by
  obtain ⟨stages, htracks, hgood⟩ := h
  have hinbox : ((NotificationsController.cellForRowAt n cell row).exec e (w.client s)).1.inboxes n
      = (((w.client s).inboxes n).notifications[row]?).elim ((w.client s).inboxes n) fun x =>
          ((w.client s).inboxes n).mapCell cell fun _ => ⟨some x, some row⟩ := by
    unfold NotificationsController.cellForRowAt
    rw [exec_inInbox, Prog.exec_done, Client.mapInbox_inboxes, if_pos rfl]
    cases ((w.client s).inboxes n).notifications[row]? <;> rfl
  have hfollows : ∀ u, followsToBe me u w.backend.docs (ofSession s
        (w.turn s (NotificationsController.cellForRowAt n cell row) e w.pool).pool)
      = followsToBe me u w.backend.docs (ofSession s w.pool) :=
    followsToBe_invoke fun fl hfl => absurd hfl List.not_mem_nil
  refine ⟨stages, ?_, ?_⟩
  · show InboxTracks s me n (w.pool ++ []) stages
    rw [List.append_nil]
    exact htracks
  cases hx : ((w.client s).inboxes n).notifications[row]? with
  | none =>
    rw [hx, Option.elim_none] at hinbox
    refine hgood.same ?_ (List.Perm.refl _) hfollows (inboxView_invoke (by rw [hinbox]))
    show (((w.turn s _ e w.pool).client s).inboxes n).cells = _
    rw [turn_client_self, hinbox]
    rfl
  | some x =>
    rw [hx, Option.elim_some] at hinbox
    refine hgood.bind cell row (x := x) ?_ rfl hfollows
      (inboxView_invoke (by rw [hinbox]; rfl)) ((hcurrent stages htracks).imp_right fun h => h x hx)
    show (((w.turn s _ e w.pool).client s).inboxes n).cells = _
    rw [turn_client_self, hinbox]
    rfl

/-- A row is tapped. -/
theorem InboxInv.tap {e : Turn} (h : InboxInv s me n w) (he : e.currentUid = some me) {cell : Nat}
    (hcurrent : ∀ stages, InboxTracks s me n w.pool stages →
      Reloading me n ((w.client s).inboxes n) (ofSession s w.pool)
        ∨ ∀ x ∈ (((w.client s).inboxes n).cells cell).viewModel,
          (inboxView s me n w stages).settles cell x.userIsFollowed = x.userIsFollowed
            ∧ ∀ i, i ≠ cell → (((w.client s).inboxes n).cells i).row.isSome = true →
              ∀ y ∈ (((w.client s).inboxes n).cells i).viewModel,
                y.type = .follow → y.uid ≠ x.uid) :
    InboxInv s me n (w.turn s (handleFollowTapped n cell) e w.pool) := by
  obtain ⟨stages, htracks, hgood⟩ := h
  cases hx : (((w.client s).inboxes n).cells cell).viewModel with
  | none =>
    have hexec : (handleFollowTapped n cell).exec e (w.client s) = (w.client s, []) := by
      unfold handleFollowTapped
      rw [Prog.exec_read, hx]
      rfl
    refine ⟨stages, ?_, hgood.same ?_ (List.Perm.refl _) (followsToBe_invoke ?_)
      (inboxView_invoke (by rw [hexec]))⟩
    · rw [World.turn_pool, hexec, List.map_nil, List.append_nil]
      exact htracks
    · show (((w.turn s _ e w.pool).client s).inboxes n).cells = _
      rw [turn_client_self, hexec]
      rfl
    · rw [hexec]
      exact fun fl hfl => absurd hfl List.not_mem_nil
  | some x =>
    have hexec := exec_handleFollowTapped he hx
    refine ⟨stages ++ [(s, .marking (!x.userIsFollowed) x.uid cell)], ?_, ?_⟩
    · rw [World.turn_pool, hexec]
      exact htracks.append (inboxTracks_asked [.marking (!x.userIsFollowed) x.uid cell])
    refine hgood.tap cell (x := x) ?_ ?_ (fun u => ?_)
      (inboxView_invoke (by rw [hexec])) hx ((hcurrent stages htracks).imp_right fun h => h x hx)
    · show (((w.turn s _ e w.pool).client s).inboxes n).cells = _
      rw [turn_client_self, hexec]
      rfl
    · show (capturedCells (stages ++ _)).Perm (cell :: capturedCells stages)
      rw [capturedCells_append]
      exact List.perm_append_singleton cell _
    · show followsToBe me u w.backend.docs (ofSession s _) = _
      rw [World.turn_pool, ofSession_append, ofSession_issues_self, hexec]
      exact followsToBe_tap

/-! ### Whole runs -/

/-- **One step.** -/
theorem InboxInv.stepped {ev : AppEvent S Action} (h : InboxInv s me n w)
    (hrun : InboxRun s me n w ev) (hcurrent : InboxCurrent s me n w ev)
    (hstep : Stepped api Action.program w ev w') : InboxInv s me n w' := by
  obtain ⟨henv, hreplied, hmine, hinbox⟩ := hrun
  cases hstep with
  | invoke t a e =>
    by_cases ht : t = s
    · subst ht
      have hwhat := hinbox rfl
      have he : e.currentUid = some me := henv rfl
      cases a with
      | inboxDidLoad n' =>
        obtain rfl : n' = n := hwhat
        exact h.didLoad he
      | inboxRefresh n' =>
        obtain rfl : n' = n := hwhat
        exact h.refresh he
      | inboxCell n' cell row =>
        obtain rfl : n' = n := hwhat
        exact h.bind (hcurrent rfl)
      | inboxFollowTap n' cell =>
        obtain ⟨rfl, -⟩ := hwhat
        exact h.tap he (hcurrent rfl)
      | _ => exact absurd hwhat id
    · exact h.turn_other ht rfl fun _ hst => hst
  | serve hpool hfifo hserve =>
    rename_i pre post t r k o b y
    have hget : w.pool[pre.length]? = some (t, .issued r k) := getElem?_split hpool
    by_cases ht : t = s
    · subst ht
      exact h.served hpool hfifo hserve (hreplied _ hget rfl)
    · refine h.aside rfl ?_ (fun stages hst => ?_) (fun u => ?_)
      · exact ofSession_serve_ne ht hpool _
      · rw [hpool] at hst
        exact InboxTracks.other ht hst
      · exact serve_lookup_ne hserve fun write hwrite heq =>
          hmine _ hget ht write hwrite u heq.symm
  | deliver hpool hfifo =>
    rename_i pre post t r p e
    have hget : w.pool[pre.length]? = some (t, .served r p) := getElem?_split hpool
    by_cases ht : t = s
    · subst ht
      exact h.delivered (henv _ hget rfl) hpool
    · refine h.turn_other ht ?_ fun stages hst => ?_
      · exact ofSession_remove_ne ht hpool
      · rw [hpool] at hst
        exact InboxTracks.other_gone ht hst
  | drop hpool =>
    rename_i pre post t r p
    have hget : w.pool[pre.length]? = some (t, .served r p) := getElem?_split hpool
    have ht : t ≠ s := hreplied _ hget
    refine h.aside rfl ?_ (fun stages hst => ?_) fun _ => rfl
    · exact ofSession_remove_ne ht hpool
    · rw [hpool] at hst
      exact InboxTracks.other_gone ht hst

/-- **The notification list.** In every run of it whose steps bind current entries and tap rows
that nothing else concerns: when nothing of the session is in flight, every bound row of type
follow shows whether its sender is followed. -/
theorem inboxShows_stored {w₀ : AppWorld Client S} (hidle : ∀ x ∈ w₀.pool, x.1 ≠ s)
    (hunbound : ∀ i, (((w₀.client s).inboxes n).cells i).row = none)
    {es : List (AppEvent S Action)}
    (run : Run api Action.program (fun w ev => InboxRun s me n w ev ∧ InboxCurrent s me n w ev)
      w₀ es w)
    (hdone : ∀ x ∈ w.pool, x.1 ≠ s) (i : Nat)
    (hbound : (((w.client s).inboxes n).cells i).row.isSome = true) :
    ∀ x ∈ (((w.client s).inboxes n).cells i).viewModel, x.type = .follow →
      x.userIsFollowed = w.backend.exists ["following", me, "user-following", x.uid] := by
  have hinv : InboxInv s me n w := by
    refine run.invariant (I := fun _ w => InboxInv s me n w) ?_
      fun _ _ _ _ h hok hstep => h.stepped hok.1 hok.2 hstep
    exact ⟨[], .of_quiet hidle, .of_unbound hunbound⟩
  obtain ⟨stages, htracks, hgood⟩ := hinv
  have hown : ofSession s w.pool = [] :=
    List.filter_eq_nil_iff.mpr fun x hx => by simpa using hdone x hx
  have hnone : stages = [] := by
    refine List.eq_nil_iff_forall_not_mem.mpr fun x hx => ?_
    obtain ⟨fl, hmem, heq, -⟩ := htracks.mem hx
    exact hdone _ hmem heq
  subst hnone
  intro x hx hfollow
  rcases hgood with ⟨y, hy, -⟩ | hall
  · rw [hown] at hy
    exact absurd hy List.not_mem_nil
  · have hcurrent := hall i hbound x hx hfollow
    have hstored : x.userIsFollowed = followsToBe me x.uid w.backend.docs (ofSession s w.pool) :=
      hcurrent
    rw [hstored, hown]
    rfl

end Runs

/-! ## Two lists -/

/-- Requests are answered, and callbacks run. -/
def InboxReplies (s me : String) (w : AppWorld Client String) : AppEvent String Action → Prop
  | .serve _ o => o.isSuccess = true ∧ ∀ x ∈ w.pool, x.1 = s
  | .deliver _ e => e.currentUid = some me
  | _ => False

instance (s me : String) (w : AppWorld Client String) (ev : AppEvent String Action) :
    Decidable (InboxReplies s me w ev) :=
  match ev with
  | .invoke _ _ _ => inferInstanceAs (Decidable False)
  | .serve _ _ => inferInstanceAs (Decidable (_ ∧ ∀ x ∈ w.pool, _))
  | .deliver _ _ => inferInstanceAs (Decidable (_ = some me))
  | .drop _ => inferInstanceAs (Decidable False)

theorem InboxReplies.run {s me : String} {n : Nat} {w : AppWorld Client String}
    {ev : AppEvent String Action} (h : InboxReplies s me w ev) :
    InboxRun s me n w ev ∧ InboxCurrent s me n w ev := by
  cases ev with
  | serve i o =>
    refine ⟨⟨trivial, fun _ _ _ => h.1, fun x hx hne => ?_, trivial⟩, trivial⟩
    exact absurd (h.2 x (List.mem_of_getElem? hx)) hne
  | deliver i e => exact ⟨⟨fun _ _ _ => h, trivial, trivial, trivial⟩, trivial⟩
  | invoke t a e => exact h.elim
  | drop i => exact h.elim

/-- `b` has followed. -/
def followNotice (id : String) : Notification :=
  Notification.init ⟨0, 0⟩ (dict [("type", .int 1), ("uid", .string "b"), ("id", .string id)])

/-- `a`, who follows nobody, has loaded her notifications. -/
def inboxOf (ids : List String) : AppWorld Client String :=
  atRest .empty fun _ =>
    { inboxes := fun _ => { loaded := true, notifications := ids.map followNotice } }

/-- A cell is bound to the row of its number. -/
def bindRow (cell : Nat) (w : AppWorld Client String) : AppWorld Client String :=
  w.turn "a" (NotificationsController.cellForRowAt 0 cell cell) (turnOf "a") w.pool

/-- The first cell is tapped. -/
def tapFirstRow (w : AppWorld Client String) : AppWorld Client String :=
  w.turn "a" (handleFollowTapped 0 0) (turnOf "a") w.pool

/-- Both writes of the tap are answered. -/
def answerTap : List (AppEvent String Action) :=
  [.serve 0 (.success []), .deliver 0 (turnOf "a"), .serve 0 (.success []),
    .deliver 0 (turnOf "a")]

/-- With one notification from `b`, the row shows the follow. -/
theorem inboxShows_stored_one :
    ∃ w, Run api Action.program
        (fun w ev => InboxRun "a" "a" 0 w ev ∧ InboxCurrent "a" "a" 0 w ev) (inboxOf ["n"])
        ([.invoke "a" (.inboxCell 0 0 0) (turnOf "a"),
          .invoke "a" (.inboxFollowTap 0 0) (turnOf "a")] ++ answerTap) w
      ∧ w.Quiescent ∧ w.backend.exists ["following", "a", "user-following", "b"] = true
      ∧ ∀ x ∈ (((w.client "a").inboxes 0).cells 0).viewModel, x.type = .follow →
        x.userIsFollowed = w.backend.exists ["following", "a", "user-following", x.uid] := by
  have hnone : ∀ stages, InboxTracks (S := String) "a" "a" 0 [] stages → stages = [] := by
    intro stages h
    cases h
    rfl
  have hbind : Run api Action.program
      (fun w ev => InboxRun "a" "a" 0 w ev ∧ InboxCurrent "a" "a" 0 w ev) (inboxOf ["n"])
      [.invoke "a" (.inboxCell 0 0 0) (turnOf "a")] (bindRow 0 (inboxOf ["n"])) := by
    refine .snoc .nil ⟨⟨fun _ => rfl, trivial, trivial, fun _ => rfl⟩, fun _ stages h => ?_⟩ rfl
    obtain rfl := hnone stages h
    refine Or.inr fun x hx _ => ?_
    obtain rfl : followNotice "n" = x := Option.some.inj hx
    rfl
  have htap : Run api Action.program
      (fun w ev => InboxRun "a" "a" 0 w ev ∧ InboxCurrent "a" "a" 0 w ev) (inboxOf ["n"])
      [.invoke "a" (.inboxCell 0 0 0) (turnOf "a"), .invoke "a" (.inboxFollowTap 0 0) (turnOf "a")]
      (tapFirstRow (bindRow 0 (inboxOf ["n"]))) := by
    refine .snoc hbind ⟨⟨fun _ => rfl, trivial, trivial, fun _ => ⟨rfl, rfl, ?_⟩⟩,
      fun _ stages h => ?_⟩ rfl
    · intro x hx
      obtain rfl : followNotice "n" = x := Option.some.inj hx
      rfl
    · obtain rfl := hnone stages h
      refine Or.inr fun x _ => ⟨rfl, fun i hi hbound => ?_⟩
      -- no other cell is bound
      obtain ⟨j, rfl⟩ := Nat.exists_eq_succ_of_ne_zero hi
      exact absurd (show (none : Option Nat).isSome = true from hbound) (by simp)
  obtain ⟨w, run, hquiet, hstored, hbound⟩ : ∃ w, Run api Action.program (InboxReplies "a" "a")
      (tapFirstRow (bindRow 0 (inboxOf ["n"]))) answerTap w
        ∧ w.Quiescent ∧ w.backend.exists ["following", "a", "user-following", "b"] = true
        ∧ (((w.client "a").inboxes 0).cells 0).row.isSome = true := exists_run_of_play (by decide)
  have hrun := htap.append (run.mono fun _ _ h => h.run)
  refine ⟨w, hrun, hquiet, hstored, inboxShows_stored ?_ (fun _ => rfl) hrun ?_ 0 hbound⟩
  · exact fun x hx => absurd hx List.not_mem_nil
  · rw [hquiet]
    exact fun x hx => absurd hx List.not_mem_nil

/-- With two, the other row does not. -/
theorem inboxShows_outdated :
    ∃ w, Run api Action.program (InboxRun "a" "a" 0) (inboxOf ["m", "n"])
        ([.invoke "a" (.inboxCell 0 0 0) (turnOf "a"), .invoke "a" (.inboxCell 0 1 1) (turnOf "a"),
          .invoke "a" (.inboxFollowTap 0 0) (turnOf "a")] ++ answerTap) w
      ∧ w.Quiescent ∧ (((w.client "a").inboxes 0).cells 1).row = some 1
      ∧ ¬ ∀ x ∈ (((w.client "a").inboxes 0).cells 1).viewModel, x.type = .follow →
        x.userIsFollowed = w.backend.exists ["following", "a", "user-following", x.uid] := by
  have htap : Run api Action.program (InboxRun "a" "a" 0) (inboxOf ["m", "n"])
      [.invoke "a" (.inboxCell 0 0 0) (turnOf "a"), .invoke "a" (.inboxCell 0 1 1) (turnOf "a"),
        .invoke "a" (.inboxFollowTap 0 0) (turnOf "a")]
      (tapFirstRow (bindRow 1 (bindRow 0 (inboxOf ["m", "n"])))) := by
    have hone : Run api Action.program (InboxRun "a" "a" 0) (inboxOf ["m", "n"])
        [.invoke "a" (.inboxCell 0 0 0) (turnOf "a")] (bindRow 0 (inboxOf ["m", "n"])) :=
      .snoc .nil ⟨fun _ => rfl, trivial, trivial, fun _ => rfl⟩ rfl
    have htwo : Run api Action.program (InboxRun "a" "a" 0) (inboxOf ["m", "n"])
        [.invoke "a" (.inboxCell 0 0 0) (turnOf "a"), .invoke "a" (.inboxCell 0 1 1) (turnOf "a")]
        (bindRow 1 (bindRow 0 (inboxOf ["m", "n"]))) :=
      .snoc hone ⟨fun _ => rfl, trivial, trivial, fun _ => rfl⟩ rfl
    refine .snoc htwo ⟨fun _ => rfl, trivial, trivial, fun _ => ⟨rfl, rfl, fun x hx => ?_⟩⟩ rfl
    obtain rfl : followNotice "m" = x := Option.some.inj hx
    rfl
  obtain ⟨w, run, hquiet, hrow, hshown, hstored⟩ : ∃ w,
      Run api Action.program (InboxReplies "a" "a")
        (tapFirstRow (bindRow 1 (bindRow 0 (inboxOf ["m", "n"])))) answerTap w
        ∧ w.Quiescent ∧ (((w.client "a").inboxes 0).cells 1).row = some 1
        ∧ (((w.client "a").inboxes 0).cells 1).viewModel = some (followNotice "n")
        ∧ w.backend.exists ["following", "a", "user-following", "b"] = true :=
    exists_run_of_play (by decide)
  refine ⟨w, htap.append (run.mono fun _ _ h => h.run.1), hquiet, hrow, fun h => ?_⟩
  have hflag : false = w.backend.exists ["following", "a", "user-following", "b"] :=
    h (followNotice "n") hshown rfl
  rw [hstored] at hflag
  exact absurd hflag (by decide)

end InstaClone
