import InstaClone.Inboxes

/-!
# Replies that set one flag

`checkIfUserLikedPosts` and `checkIfUserIsFollowed` ask once for each entry of a list, and write
each answer into the entry that has the id of the one they asked for, if the list still has one.
By then the list may have been emptied and fetched again.

A `FlagList` is a list of this kind, `FlagList.Lawful` what its code does in one turn. While the
relation that is asked about does not change, every entry is settled or has a check under way that
will settle it (`FlagInv`), whichever list it came with: an old check gives a new entry the same
answer as its own.
-/

namespace InstaClone

open Async

/-! ## Lists with a flag -/

/-- A list of a controller whose entries carry a flag: whether the document of `relation` at the
entry's `key` exists. -/
structure FlagList (α : Type) where
  entries : Client → Option (List α)
  id : α → String
  key : α → Option String
  flag : α → Bool
  fill : Bool → α → α
  decode : Timestamp → String × Doc → α
  query : Query
  relation : String → Path
  didFetch : Option (List (String × Doc)) → Program Client
  didCheck : String → Option Snapshot → Program Client
  load : Action
  refresh : Action

/-- What such a list waits for: its documents, and the check of one entry. -/
inductive FlagStage where
  | fetching
  | checking (id key : String)

namespace FlagList

variable {α : Type} (L : FlagList α)

/-- The flag of the entry with this id is set. -/
def answer (id : String) (b : Bool) (x : α) : α := if L.id x = id then L.fill b x else x

/-- The entry with the flag it should have. -/
def filled (truth : String → Bool) (x : α) : α :=
  match L.key x with
  | none => x
  | some key => L.fill (truth key) x

def req : FlagStage → Request
  | .fetching => .getDocuments L.query
  | .checking _ key => .getDocument (L.relation key)

def callback : (t : FlagStage) → Response (L.req t) → Program Client
  | .fetching => L.didFetch
  | .checking id _ => L.didCheck id

/-- The requests of the list, with what is known of their replies. -/
def script (reply : (r : Request) → Response r → Prop) :
    Script Request Response Turn Client FlagStage where
  req := L.req
  callback := L.callback
  reply := reply

/-- The flight of a stage that begins. -/
def asked (t : FlagStage) : Flight Request Response Turn Client := .issued (L.req t) (L.callback t)

/-- The flight is at this stage. -/
abbrev At (fl : Flight Request Response Turn Client) (t : FlagStage) : Prop :=
  (L.script fun _ _ => True).At fl t

/-- The checks of a list. -/
def checks (l : List α) : List FlagStage :=
  l.filterMap fun x => (L.key x).map (.checking (L.id x))

/-- Whatever is answered, the flight leaves the list alone. -/
abbrev Aside (fl : Flight Request Response Turn Client) : Prop :=
  fl.Spares (fun _ => True) L.entries

/-- What one turn does to the list, for the account `uid`. -/
structure Lawful (uid : String) : Prop where
  flag_fill : ∀ b x, L.flag (L.fill b x) = b
  fill_flag : ∀ x, L.fill (L.flag x) x = x
  fill_fill : ∀ b b' x, L.fill b (L.fill b' x) = L.fill b x
  id_fill : ∀ b x, L.id (L.fill b x) = L.id x
  key_fill : ∀ b x, L.key (L.fill b x) = L.key x
  exec_didFetch : ∀ documents e client, e.currentUid = some uid →
    (L.entries client).isSome = true →
    L.entries ((L.didFetch (some documents)).exec e client).1
        = some (documents.map (L.decode e.now))
      ∧ ((L.didFetch (some documents)).exec e client).2
        = (L.checks (documents.map (L.decode e.now))).map L.asked
  exec_didCheck : ∀ id snapshot e client l, L.entries client = some l → (l.map L.id).Nodup →
    L.entries ((L.didCheck id (some snapshot)).exec e client).1
        = some (l.map (L.answer id snapshot.data.isSome))
      ∧ ((L.didCheck id (some snapshot)).exec e client).2 = []
  exec_load : ∀ e client l, e.currentUid = some uid → L.entries client = some l →
    L.entries (L.load.program.exec e client).1 = some l
      ∧ ∀ fl ∈ (L.load.program.exec e client).2, L.Aside fl ∨ fl = L.asked .fetching
  exec_refresh : ∀ e client, e.currentUid = some uid → (L.entries client).isSome = true →
    L.entries (L.refresh.program.exec e client).1 = some []
      ∧ (L.refresh.program.exec e client).2 = [L.asked .fetching]

/-- The entries read from these documents have different ids, and each id stands for the key it
always stands for. -/
def Named (subject : String → Option String) (documents : List (String × Doc)) : Prop :=
  ∀ now, ((documents.map (L.decode now)).map L.id).Nodup
    ∧ ∀ x ∈ documents.map (L.decode now), L.key x = subject (L.id x)

theorem Named.perm {subject : String → Option String} {documents documents' : List (String × Doc)}
    (h : L.Named subject documents) (hperm : documents'.Perm documents) :
    L.Named subject documents' := by
  intro now
  have hentries := hperm.map (L.decode now)
  obtain ⟨hdistinct, hkeys⟩ := h now
  exact ⟨(hentries.map L.id).nodup_iff.mpr hdistinct, fun x hx => hkeys x (hentries.mem_iff.mp hx)⟩

end FlagList

/-! ## One entry -/

/-- With different ids, the first entry with an id is the only one. -/
theorem modify_findIdx_eq_map {α : Type} {id : α → String} {l : List α} (h : (l.map id).Nodup)
    (i : String) (f : α → α) :
    (match l.findIdx? fun x => id x == i with
      | some index => l.modify index f
      | none => l) = l.map fun x => if id x = i then f x else x := by
  induction l with
  | nil => rfl
  | cons x l ih =>
    obtain ⟨hx, hl⟩ := List.nodup_cons.mp h
    have ih := ih hl
    rw [List.findIdx?_cons, List.map_cons]
    by_cases hid : id x = i
    · rw [if_pos (beq_iff_eq.mpr hid), if_pos hid]
      -- nothing after it has its id
      have hrest : (l.map fun y => if id y = i then f y else y) = l :=
        calc
          (l.map fun y => if id y = i then f y else y) = l.map fun y => y :=
            List.map_congr_left fun y hy =>
              if_neg fun hy' => hx (List.mem_map.mpr ⟨y, hy, hy'.trans hid.symm⟩)
          _ = l := List.map_id' l
      rw [hrest]
      rfl
    · rw [if_neg (by simpa using hid), if_neg hid]
      cases hfind : l.findIdx? fun x => id x == i with
      | none =>
        rw [hfind] at ih
        rw [← ih]
        rfl
      | some index =>
        rw [hfind] at ih
        rw [← ih]
        rfl

namespace FlagList

variable {α : Type} {L : FlagList α} {uid : String} {truth : String → Bool}

theorem Lawful.id_answer (h : L.Lawful uid) (id : String) (b : Bool) (x : α) :
    L.id (L.answer id b x) = L.id x := by
  unfold answer
  split
  next => exact h.id_fill b x
  next => rfl

theorem Lawful.key_answer (h : L.Lawful uid) (id : String) (b : Bool) (x : α) :
    L.key (L.answer id b x) = L.key x := by
  unfold answer
  split
  next => exact h.key_fill b x
  next => rfl

/-- An answer does not change what the entry should be. -/
theorem Lawful.filled_answer (h : L.Lawful uid) {id : String} {b : Bool} {x : α}
    (hx : L.id x = id → (L.key x).isSome = true) :
    L.filled truth (L.answer id b x) = L.filled truth x := by
  unfold filled answer
  by_cases hid : L.id x = id
  · obtain ⟨key, hkey⟩ := Option.isSome_iff_exists.mp (hx hid)
    rw [if_pos hid, h.key_fill, hkey]
    exact h.fill_fill (truth key) b x
  · rw [if_neg hid]

/-- An entry with the flag it should have. -/
theorem Lawful.filled_eq (h : L.Lawful uid) {x : α} (hx : ∀ key ∈ L.key x, L.flag x = truth key) :
    L.filled truth x = x := by
  unfold filled
  split
  next => rfl
  next key hkey => rw [← hx key hkey, h.fill_flag]

end FlagList

/-! ## Runs -/

section Runs

variable {S α : Type} {L : FlagList α} {s : S} {uid : String}
  {truth : String → Bool} {subject : String → Option String} {ok : Backend → Prop} {l : List α}
  {w w' : AppWorld Client S}

/-- What is known of the reply to a check, and of the list's documents. -/
def FlagReply (L : FlagList α) (truth : String → Bool) (subject : String → Option String) :
    (r : Request) → Response r → Prop
  | .getDocument path, y => ∀ key, path = L.relation key →
    ∃ snapshot, y = some snapshot ∧ snapshot.data.isSome = truth key
  | .getDocuments q, y => q = L.query → ∃ documents, y = some documents ∧ L.Named subject documents
  | _, _ => True

/-- The flight is at this stage, and its reply is true. -/
abbrev FlagList.TrueAt (L : FlagList α) (truth : String → Bool) (subject : String → Option String)
    (fl : Flight Request Response Turn Client) (t : FlagStage) : Prop :=
  (L.script (FlagReply L truth subject)).At fl t

/-- The invariant of a list: every entry is settled, or a check of it is under way. -/
structure FlagInv (L : FlagList α) (s : S) (truth : String → Bool)
    (subject : String → Option String) (l : List α) (w : AppWorld Client S) : Prop where
  entries : L.entries (w.client s) = some l
  distinct : (l.map L.id).Nodup
  keys : ∀ x ∈ l, L.key x = subject (L.id x)
  flights : ∀ fl, (s, fl) ∈ w.pool → L.Aside fl ∨ L.TrueAt truth subject fl .fetching
    ∨ ∃ id key, L.TrueAt truth subject fl (.checking id key) ∧ subject id = some key
  settled : ∀ x ∈ l, ∀ key ∈ L.key x, L.flag x = truth key
    ∨ ∃ fl, (s, fl) ∈ w.pool ∧ L.TrueAt truth subject fl (.checking (L.id x) key)
  stored : ∀ key, w.backend.exists (L.relation key) = truth key

theorem FlagList.TrueAt.at {fl : Flight Request Response Turn Client} {t : FlagStage}
    (h : L.TrueAt truth subject fl t) : L.At fl t := by
  cases h with
  | asked t => exact .asked (P := L.script fun _ _ => True) t
  | answered t y hy => exact .answered (P := L.script fun _ _ => True) t y trivial

theorem FlagList.TrueAt.of_asked (t : FlagStage) : L.TrueAt truth subject (L.asked t) t :=
  .asked (P := L.script (FlagReply L truth subject)) t

/-- A step that leaves the session's client and flights alone. -/
theorem FlagInv.aside (h : FlagInv L s truth subject l w) (hclient : w'.client s = w.client s)
    (hpool : ∀ fl, (s, fl) ∈ w'.pool ↔ (s, fl) ∈ w.pool)
    (hstored : ∀ key, w'.backend.exists (L.relation key) = w.backend.exists (L.relation key)) :
    FlagInv L s truth subject l w' where
  entries := by rw [hclient, h.entries]
  distinct := h.distinct
  keys := h.keys
  flights fl hfl := h.flights fl ((hpool fl).mp hfl)
  settled x hx key hkey := (h.settled x hx key hkey).imp_right fun ⟨fl, hfl, hat⟩ =>
    ⟨fl, (hpool fl).mpr hfl, hat⟩
  stored key := (hstored key).trans (h.stored key)

/-- A request of the session is served. -/
theorem FlagInv.served (h : FlagInv L s truth subject l w)
    {pre post : List (S × Flight Request Response Turn Client)} {r : Request}
    {k : Response r → Program Client} {b : Backend} {y : Response r}
    (hpool : w.pool = pre ++ (s, .issued r k) :: post) (hreply : FlagReply L truth subject r y)
    (hstored : ∀ key, b.exists (L.relation key) = w.backend.exists (L.relation key)) :
    FlagInv L s truth subject l
      { w with backend := b, pool := pre ++ (s, .served r (k y)) :: post } where
  entries := h.entries
  distinct := h.distinct
  keys := h.keys
  stored key := (hstored key).trans (h.stored key)
  flights fl hfl := by
    have hold : fl = .served r (k y) ∨ (s, fl) ∈ w.pool := by
      rw [hpool]
      simp only [List.mem_append, List.mem_cons, Prod.mk.injEq, true_and] at hfl ⊢
      tauto
    rcases hold with rfl | hold
    · have hissued := h.flights (.issued r k) (mem_split hpool)
      rcases hissued with haside | hfetch | ⟨id, key, hcheck, hid⟩
      · exact Or.inl ⟨haside.1, haside.2 y⟩
      · exact Or.inr (Or.inl (hfetch.serve hreply))
      · exact Or.inr (Or.inr ⟨id, key, hcheck.serve hreply, hid⟩)
    · exact h.flights fl hold
  settled x hx key hkey := by
    refine (h.settled x hx key hkey).imp_right ?_
    rintro ⟨fl, hfl, hat⟩
    rw [hpool] at hfl
    rcases List.mem_append.mp hfl with hfl | hfl
    · exact ⟨fl, List.mem_append_left _ hfl, hat⟩
    rcases List.mem_cons.mp hfl with heq | hfl
    · obtain rfl := (Prod.mk.inj heq).2
      exact ⟨.served r (k y), by simp, hat.serve hreply⟩
    · exact ⟨fl, List.mem_append_right _ (List.mem_cons_of_mem _ hfl), hat⟩

variable [DecidableEq S]

namespace FlagList

variable (L s uid ok)

/-- What session `s` does is load and refresh the list, or leaves its entries alone whatever is
answered. -/
def OnList : AppEvent S Action → Prop
  | .invoke t a _ => t = s →
    a = L.load ∨ a = L.refresh ∨ a.program.Spares (fun _ => True) L.entries
  | _ => True

/-- Serving a request leaves the relation as it is. -/
def Steady (w : AppWorld Client S) : AppEvent S Action → Prop
  | .serve i o => ∀ x ∈ w.pool[i]?, ∀ b y, serve w.backend x.2.req o = some (b, y) →
    ∀ key, b.exists (L.relation key) = w.backend.exists (L.relation key)
  | _ => True

/-- The events of the list in session `s` of `uid`, over stores with `ok`: what `s` asks is
answered, and the relation stays as it is. -/
structure FlagRun (w : AppWorld Client S) (ev : AppEvent S Action) : Prop where
  signedIn : EnvOk (fun t e => t = s → e.currentUid = some uid) w ev
  replied : Replied s w ev
  onList : L.OnList s ev
  stores : ok w.backend
  steady : L.Steady w ev

/-- The list is empty, and nothing of it is under way. -/
def Fresh (w : AppWorld Client S) : Prop :=
  L.entries (w.client s) = some [] ∧ ∀ x ∈ w.pool, x.1 = s → L.Aside x.2

/-- All checks have been answered. -/
def Answered (w : AppWorld Client S) : Prop :=
  ∀ x ∈ w.pool, x.1 = s → ∀ id key, ¬ L.At x.2 (.checking id key)

/-- The event does not replace the list. -/
def Keeps (w : AppWorld Client S) : AppEvent S Action → Prop
  | .invoke t a _ => t = s → a ≠ L.refresh
  | .deliver i _ => ∀ x ∈ w.pool[i]?, x.1 = s → ¬ L.At x.2 .fetching
  | _ => True

end FlagList

/-! ### Turns of the session -/

section Turn

variable {pre post : List (S × Flight Request Response Turn Client)} {r : Request}
  {prog : Program Client} {e : Turn}

/-- A turn of the session, with what becomes of the entries and of what is under way. -/
theorem FlagInv.turn (h : FlagInv L s truth subject l w)
    {pool : List (S × Flight Request Response Turn Client)} {l' : List α}
    (hpool : ∀ fl, (s, fl) ∈ pool → (s, fl) ∈ w.pool)
    (hentries : L.entries (prog.exec e (w.client s)).1 = some l')
    (hdistinct : (l'.map L.id).Nodup) (hkeys : ∀ x ∈ l', L.key x = subject (L.id x))
    (hissues : ∀ fl ∈ (prog.exec e (w.client s)).2, L.Aside fl ∨ L.TrueAt truth subject fl .fetching
      ∨ ∃ id key, L.TrueAt truth subject fl (.checking id key) ∧ subject id = some key)
    (hsettled : ∀ x ∈ l', ∀ key ∈ L.key x, L.flag x = truth key
      ∨ ∃ fl, ((s, fl) ∈ pool ∨ fl ∈ (prog.exec e (w.client s)).2)
        ∧ L.TrueAt truth subject fl (.checking (L.id x) key)) :
    FlagInv L s truth subject l' (w.turn s prog e pool) := by
  have hmem : ∀ fl, (s, fl) ∈ (w.turn s prog e pool).pool
      ↔ (s, fl) ∈ pool ∨ fl ∈ (prog.exec e (w.client s)).2 := by
    intro fl
    rw [World.turn_pool, List.mem_append, List.mem_map]
    refine or_congr_right ⟨?_, fun hfl => ⟨fl, hfl, rfl⟩⟩
    rintro ⟨fl', hfl', heq⟩
    obtain rfl := (Prod.mk.inj heq).2
    exact hfl'
  refine ⟨by rw [turn_client_self, hentries], hdistinct, hkeys, fun fl hfl => ?_,
    fun x hx key hkey => ?_, h.stored⟩
  · rcases (hmem fl).mp hfl with hfl | hfl
    · exact h.flights fl (hpool fl hfl)
    · exact hissues fl hfl
  · refine (hsettled x hx key hkey).imp_right ?_
    rintro ⟨fl, hfl, hat⟩
    exact ⟨fl, (hmem fl).mpr hfl, hat⟩

omit [DecidableEq S] in
/-- The reply to a check reports the flag that is stored. -/
theorem FlagList.Lawful.exec_check (hL : L.Lawful uid) {id key : String} {client : Client}
    (hat : L.TrueAt truth subject (.served r prog) (.checking id key))
    (hentries : L.entries client = some l) (hdistinct : (l.map L.id).Nodup) :
    L.entries (prog.exec e client).1 = some (l.map (L.answer id (truth key)))
      ∧ (prog.exec e client).2 = [] := by
  cases hat with
  | answered t y hy =>
    obtain ⟨snapshot, rfl, hsnapshot⟩ := hy key rfl
    rw [← hsnapshot]
    exact hL.exec_didCheck id snapshot e client l hentries hdistinct

/-- A reply that changes entries one by one, and no more of each than its flag. -/
theorem FlagInv.deliver_map (hL : L.Lawful uid) (h : FlagInv L s truth subject l w) {f : α → α}
    (hpool : w.pool = pre ++ (s, .served r prog) :: post)
    (hid : ∀ x, L.id (f x) = L.id x) (hkey : ∀ x, L.key (f x) = L.key x)
    (hflag : ∀ x ∈ l, f x = x ∨ ∀ key ∈ L.key x, L.flag (f x) = truth key)
    (hentries : L.entries (prog.exec e (w.client s)).1 = some (l.map f))
    (hissues : ∀ fl ∈ (prog.exec e (w.client s)).2, L.Aside fl) :
    FlagInv L s truth subject (l.map f) (w.turn s prog e (pre ++ post)) := by
  have hids : (l.map f).map L.id = l.map L.id := by
    rw [List.map_map]
    exact List.map_congr_left fun x _ => hid x
  refine h.turn (fun fl hfl => ?_) hentries (by rw [hids]; exact h.distinct) (fun y hy => ?_)
    (fun fl hfl => Or.inl (hissues fl hfl)) fun y hy key hy' => ?_
  · rw [hpool]
    simp only [List.mem_append, List.mem_cons] at hfl ⊢
    exact hfl.imp_right Or.inr
  · obtain ⟨x, hx, rfl⟩ := List.mem_map.mp hy
    rw [hid, hkey]
    exact h.keys x hx
  obtain ⟨x, hx, rfl⟩ := List.mem_map.mp hy
  rw [hkey] at hy'
  rcases hflag x hx with hsame | hset
  · rw [hsame]
    rcases h.settled x hx key hy' with hset | ⟨fl, hfl, hat⟩
    · exact Or.inl hset
    rw [hpool, List.mem_append, List.mem_cons] at hfl
    rcases hfl with hfl | heq | hfl
    · exact Or.inr ⟨fl, Or.inl (List.mem_append_left _ hfl), hat⟩
    · -- the reply is also one to the entry's own check, so it has set its flag
      obtain rfl := (Prod.mk.inj heq).2
      have hown := (hL.exec_check (e := e) hat h.entries h.distinct).1
      have heach := List.map_inj_left.mp (Option.some.inj (hentries.symm.trans hown)) x hx
      rw [hsame, FlagList.answer, if_pos rfl] at heach
      refine Or.inl ?_
      rw [heach, hL.flag_fill]
    · exact Or.inr ⟨fl, Or.inl (List.mem_append_right _ hfl), hat⟩
  · exact Or.inl (hset key hy')

/-- A list arrives, and each of its entries is asked about. -/
theorem FlagInv.deliver_fetching (hL : L.Lawful uid) (h : FlagInv L s truth subject l w)
    (he : e.currentUid = some uid) (hpool : w.pool = pre ++ (s, .served r prog) :: post)
    {documents : List (String × Doc)} (hnamed : L.Named subject documents) :
    FlagInv L s truth subject (documents.map (L.decode e.now))
      (w.turn s (L.didFetch (some documents)) e (pre ++ post)) := by
  obtain ⟨hdistinct, hkeys⟩ := hnamed e.now
  obtain ⟨hentries, hissues⟩ :=
    hL.exec_didFetch documents e (w.client s) he (by rw [h.entries]; rfl)
  refine h.turn (fun fl hfl => ?_) hentries hdistinct hkeys (fun fl hfl => ?_)
    fun x hx key hkey => Or.inr ⟨L.asked (.checking (L.id x) key), Or.inr ?_, .of_asked _⟩
  · rw [hpool]
    simp only [List.mem_append, List.mem_cons] at hfl ⊢
    exact hfl.imp_right Or.inr
  · rw [hissues] at hfl
    obtain ⟨t, ht, rfl⟩ := List.mem_map.mp hfl
    obtain ⟨x, hx, hxt⟩ := List.mem_filterMap.mp ht
    obtain ⟨key, hkey, rfl⟩ := Option.map_eq_some_iff.mp hxt
    exact Or.inr (Or.inr ⟨L.id x, key, .of_asked _, by rw [← hkeys x hx, hkey]⟩)
  · rw [hissues]
    refine List.mem_map_of_mem (List.mem_filterMap.mpr ⟨x, hx, ?_⟩)
    rw [Option.mem_def.mp hkey]
    rfl

/-- A callback of the session runs. -/
theorem FlagInv.delivered (hL : L.Lawful uid) (h : FlagInv L s truth subject l w)
    (he : e.currentUid = some uid) (hpool : w.pool = pre ++ (s, .served r prog) :: post) :
    ∃ l', FlagInv L s truth subject l' (w.turn s prog e (pre ++ post))
      ∧ (¬ L.At (.served r prog) .fetching → l'.map (L.filled truth) = l.map (L.filled truth)) := by
  have hflight := h.flights (.served r prog) (mem_split hpool)
  rcases hflight with haside | hfetch | ⟨id, key, hcheck, hid⟩
  · obtain ⟨hentries, hissues⟩ := haside.2.exec e (w.client s)
    refine ⟨l.map fun x => x, h.deliver_map hL hpool (fun _ => rfl) (fun _ => rfl)
      (fun _ _ => Or.inl rfl) ?_ hissues, fun _ => by rw [List.map_id']⟩
    rw [hentries, h.entries, List.map_id']
  · have hat := hfetch.at
    cases hfetch with
    | answered t y hy =>
      obtain ⟨documents, rfl, hnamed⟩ := hy rfl
      exact ⟨_, h.deliver_fetching hL he hpool hnamed, fun hkeeps => absurd hat hkeeps⟩
  · obtain ⟨hentries, hissues⟩ := hL.exec_check (e := e) hcheck h.entries h.distinct
    have hkeyed : ∀ x ∈ l, L.id x = id → L.key x = some key := by
      intro x hx heq
      rw [h.keys x hx, heq, hid]
    refine ⟨_, h.deliver_map hL hpool (hL.id_answer id (truth key)) (hL.key_answer id (truth key))
      (fun x hx => ?_) hentries (by rw [hissues]; exact fun fl hfl => absurd hfl (by simp)),
      fun _ => ?_⟩
    · by_cases heq : L.id x = id
      · refine Or.inr fun key' hkey' => ?_
        obtain rfl : key = key' := Option.some.inj ((hkeyed x hx heq).symm.trans hkey')
        rw [FlagList.answer, if_pos heq, hL.flag_fill]
      · exact Or.inl (if_neg heq)
    · rw [List.map_map]
      refine List.map_congr_left fun x hx => hL.filled_answer fun heq => ?_
      rw [hkeyed x hx heq]
      rfl

/-- An action of the session. -/
theorem FlagInv.invoked (hL : L.Lawful uid) (h : FlagInv L s truth subject l w) {a : Action}
    (he : e.currentUid = some uid)
    (ha : a = L.load ∨ a = L.refresh ∨ a.program.Spares (fun _ => True) L.entries) :
    ∃ l', FlagInv L s truth subject l' (w.turn s a.program e w.pool)
      ∧ (a ≠ L.refresh → l'.map (L.filled truth) = l.map (L.filled truth)) := by
  -- what keeps the entries keeps what is under way for them
  have hkept : L.entries (a.program.exec e (w.client s)).1 = some l →
      (∀ fl ∈ (a.program.exec e (w.client s)).2, L.Aside fl ∨ fl = L.asked .fetching) →
      FlagInv L s truth subject l (w.turn s a.program e w.pool) := by
    intro hentries hissues
    refine h.turn (fun _ hfl => hfl) hentries h.distinct h.keys (fun fl hfl => ?_)
      fun x hx key hkey => (h.settled x hx key hkey).imp_right ?_
    · refine (hissues fl hfl).imp_right ?_
      rintro rfl
      exact Or.inl (.of_asked _)
    · rintro ⟨fl, hfl, hat⟩
      exact ⟨fl, Or.inl hfl, hat⟩
  by_cases hrefresh : a = L.refresh
  · subst hrefresh
    obtain ⟨hentries, hissues⟩ := hL.exec_refresh e (w.client s) he (by rw [h.entries]; rfl)
    refine ⟨[], h.turn (fun _ hfl => hfl) hentries .nil (by simp) (fun fl hfl => ?_) (by simp),
      fun hne => absurd rfl hne⟩
    rw [hissues, List.mem_singleton] at hfl
    rw [hfl]
    exact Or.inr (Or.inl (.of_asked _))
  · refine ⟨l, ?_, fun _ => rfl⟩
    rcases ha with rfl | rfl | haside
    · obtain ⟨hentries, hissues⟩ := hL.exec_load e (w.client s) l he h.entries
      exact hkept hentries hissues
    · exact absurd rfl hrefresh
    · obtain ⟨hentries, hissues⟩ := haside.exec e (w.client s)
      exact hkept (hentries.trans h.entries) fun fl hfl => Or.inl (hissues fl hfl)

end Turn

/-! ### Whole runs -/

omit [DecidableEq S] in
/-- A successful reply to the session is true. -/
theorem flagReply_of_serve {b b' : Backend} {r : Request} {o : Outcome} {y : Response r}
    (hstored : ∀ key, b.exists (L.relation key) = truth key)
    (hnamed : L.Named subject (L.query.results b.docs)) (ho : o.isSuccess = true)
    (h : serve b r o = some (b', y)) : FlagReply L truth subject r y := by
  cases r with
  | getDocument path =>
    rintro key rfl
    obtain ⟨snapshot, rfl⟩ := Option.isSome_iff_exists.mp (inReply_of_serve ho h)
    obtain rfl := (serve_getDocument h).2 snapshot rfl
    exact ⟨_, rfl, hstored key⟩
  | getDocuments q =>
    rintro rfl
    obtain ⟨-, documents, hy, hperm⟩ := serve_getDocuments_success ho h
    exact ⟨documents, hy, hnamed.perm L hperm⟩
  | _ => trivial

/-- **One step.** -/
theorem FlagInv.stepped (hL : L.Lawful uid)
    (hok : ∀ b, ok b → L.Named subject (L.query.results b.docs)) (h : FlagInv L s truth subject l w)
    {ev : AppEvent S Action} (hrun : L.FlagRun s uid ok w ev)
    (hstep : Stepped api Action.program w ev w') :
    ∃ l', FlagInv L s truth subject l' w'
      ∧ (L.Keeps s w ev → l'.map (L.filled truth) = l.map (L.filled truth)) := by
  obtain ⟨henv, hreplied, hlist, hstores, hsteady⟩ := hrun
  cases hstep with
  | invoke t a e =>
    by_cases ht : t = s
    · subst ht
      obtain ⟨l', hinv, hkeeps⟩ := h.invoked hL (henv rfl) (hlist rfl)
      exact ⟨l', hinv, fun hk => hkeeps (hk rfl)⟩
    · refine ⟨l, h.aside ?_ (fun fl => ?_) fun _ => rfl, fun _ => rfl⟩
      · rw [World.turn_client, if_neg (Ne.symm ht)]
      · simp [World.turn_pool, ht]
  | serve hpool hfifo hserve =>
    rename_i pre post t r k o b y
    have hget : w.pool[pre.length]? = some (t, .issued r k) := getElem?_split hpool
    have hstored := hsteady _ hget b y hserve
    refine ⟨l, ?_, fun _ => rfl⟩
    by_cases ht : t = s
    · subst ht
      exact h.served hpool
        (flagReply_of_serve h.stored (hok _ hstores) (hreplied _ hget rfl) hserve) hstored
    · refine h.aside rfl (fun fl => ?_) hstored
      rw [hpool]
      simp [Ne.symm ht]
  | deliver hpool hfifo =>
    rename_i pre post t r prog e
    have hget : w.pool[pre.length]? = some (t, .served r prog) := getElem?_split hpool
    by_cases ht : t = s
    · subst ht
      obtain ⟨l', hinv, hkeeps⟩ := h.delivered hL (henv _ hget rfl) hpool
      exact ⟨l', hinv, fun hk => hkeeps (hk _ hget rfl)⟩
    · refine ⟨l, h.aside ?_ (fun fl => ?_) fun _ => rfl, fun _ => rfl⟩
      · rw [World.turn_client, if_neg (Ne.symm ht)]
      · rw [World.turn_pool, hpool]
        simp [ht, Ne.symm ht]
  | drop hpool =>
    rename_i pre post t r prog
    have ht : t ≠ s := hreplied (t, .served r prog) (getElem?_split hpool)
    refine ⟨l, h.aside rfl (fun fl => ?_) fun _ => rfl, fun _ => rfl⟩
    rw [hpool]
    simp [Ne.symm ht]

/-- The invariant along a run. -/
theorem FlagInv.run (hL : L.Lawful uid)
    (hok : ∀ b, ok b → L.Named subject (L.query.results b.docs)) (h : FlagInv L s truth subject l w)
    {es : List (AppEvent S Action)} (run : Run api Action.program (L.FlagRun s uid ok) w es w') :
    ∃ l', FlagInv L s truth subject l' w' := by
  refine run.invariant (I := fun _ w => ∃ l', FlagInv L s truth subject l' w) ⟨l, h⟩ ?_
  rintro es w₁ ev w₂ ⟨l₁, h₁⟩ hrun hstep
  obtain ⟨l₂, h₂, -⟩ := h₁.stepped hL hok hrun hstep
  exact ⟨l₂, h₂⟩

/-- Along a run that does not replace the list, the flags its entries should have are the same. -/
theorem FlagInv.run_keeps (hL : L.Lawful uid)
    (hok : ∀ b, ok b → L.Named subject (L.query.results b.docs)) (h : FlagInv L s truth subject l w)
    {es : List (AppEvent S Action)}
    (run : Run api Action.program (fun w ev => L.FlagRun s uid ok w ev ∧ L.Keeps s w ev) w es w') :
    ∃ l', FlagInv L s truth subject l' w'
      ∧ l'.map (L.filled truth) = l.map (L.filled truth) := by
  refine run.invariant (I := fun _ w => ∃ l', FlagInv L s truth subject l' w
    ∧ l'.map (L.filled truth) = l.map (L.filled truth)) ⟨l, h, rfl⟩ ?_
  rintro es w₁ ev w₂ ⟨l₁, h₁, hfilled⟩ ⟨hrun, hkeep⟩ hstep
  obtain ⟨l₂, h₂, hkeeps⟩ := h₁.stepped hL hok hrun hstep
  exact ⟨l₂, h₂, (hkeeps hkeep).trans hfilled⟩

omit [DecidableEq S] in
/-- Once all checks are answered, every flag is right. -/
theorem FlagInv.answered (h : FlagInv L s truth subject l w) (hdone : L.Answered s w) :
    ∀ x ∈ l, ∀ key ∈ L.key x, L.flag x = truth key := by
  intro x hx key hkey
  rcases h.settled x hx key hkey with hset | ⟨fl, hfl, hat⟩
  · exact hset
  · exact absurd hat.at (hdone _ hfl rfl _ _)

omit [DecidableEq S] in
theorem FlagInv.answered_eq (hL : L.Lawful uid) (h : FlagInv L s truth subject l w)
    (hdone : L.Answered s w) : l.map (L.filled truth) = l :=
  (List.map_congr_left fun x hx => hL.filled_eq (h.answered hdone x hx)).trans (List.map_id l)

omit [DecidableEq S] in
/-- Before the list is loaded. -/
theorem FlagList.Fresh.inv (h : L.Fresh s w) :
    FlagInv L s (fun key => w.backend.exists (L.relation key)) subject [] w where
  entries := h.1
  distinct := .nil
  keys := by simp
  flights fl hfl := Or.inl (h.2 _ hfl rfl)
  settled := by simp
  stored _ := rfl

/-- What is promised of the flags of a list of session `s`, over stores with `ok`. -/
structure FlagList.Settles (L : FlagList α) (s : S) (uid : String) (ok : Backend → Prop) :
    Prop where
  /-- The reply to a check, late or not, changes the flag of the entry with its id, and nothing
  else. -/
  framed : ∀ {w₀ w w' : AppWorld Client S} {es : List (AppEvent S Action)} {i : Nat} {e : Turn}
    {id key : String} {snapshot : Snapshot}, L.Fresh s w₀ →
    Run api Action.program (L.FlagRun s uid ok) w₀ es w →
    w.pool[i]? = some (s, .served (.getDocument (L.relation key)) (L.didCheck id (some snapshot))) →
    step api Action.program w (.deliver i e) = some w' →
    ∃ l, L.entries (w.client s) = some l ∧ (l.map L.id).Nodup
      ∧ L.entries (w'.client s) = some (l.map (L.answer id snapshot.data.isSome))
  /-- When all have arrived, the flags are those of the stored relation. -/
  stored : ∀ {w₀ w : AppWorld Client S} {es : List (AppEvent S Action)}, L.Fresh s w₀ →
    Run api Action.program (L.FlagRun s uid ok) w₀ es w → L.Answered s w →
    ∃ l, L.entries (w.client s) = some l
      ∧ ∀ x ∈ l, ∀ key ∈ L.key x, L.flag x = w.backend.exists (L.relation key)
  /-- The list they leave does not depend on the order in which they arrive. -/
  same : ∀ {w₀ w₁ w w' : AppWorld Client S} {es es₁ es₂ : List (AppEvent S Action)}, L.Fresh s w₀ →
    Run api Action.program (L.FlagRun s uid ok) w₀ es w₁ →
    Run api Action.program (fun w ev => L.FlagRun s uid ok w ev ∧ L.Keeps s w ev) w₁ es₁ w →
    Run api Action.program (fun w ev => L.FlagRun s uid ok w ev ∧ L.Keeps s w ev) w₁ es₂ w' →
    L.Answered s w → L.Answered s w' → L.entries (w.client s) = L.entries (w'.client s)

theorem FlagList.Lawful.settles (hL : L.Lawful uid)
    (hok : ∀ b, ok b → L.Named subject (L.query.results b.docs)) : L.Settles s uid ok where
  framed := by
    intro w₀ w w' es i e id key snapshot hfresh run hget hstep
    have hinit : FlagInv L s (fun key => w₀.backend.exists (L.relation key)) subject [] w₀ :=
      hfresh.inv
    obtain ⟨l, h⟩ := hinit.run hL hok run
    refine ⟨l, h.entries, h.distinct, ?_⟩
    cases stepped_of_step hstep with
    | deliver hpool hfifo =>
      rename_i pre post t r prog
      rw [hpool, List.getElem?_append_right (Nat.le_refl _), Nat.sub_self] at hget
      obtain ⟨rfl, heq⟩ := Prod.mk.inj (Option.some.inj hget)
      obtain ⟨rfl, hprog⟩ := Flight.served.inj heq
      obtain rfl := hprog
      rw [turn_client_self]
      exact (hL.exec_didCheck id snapshot e (w.client t) l h.entries h.distinct).1
  stored := by
    intro w₀ w es hfresh run hdone
    have hinit : FlagInv L s (fun key => w₀.backend.exists (L.relation key)) subject [] w₀ :=
      hfresh.inv
    obtain ⟨l, h⟩ := hinit.run hL hok run
    refine ⟨l, h.entries, fun x hx key hkey => ?_⟩
    rw [h.answered hdone x hx key hkey]
    exact (h.stored key).symm
  same := by
    intro w₀ w₁ w w' es es₁ es₂ hfresh run run₁ run₂ hdone hdone'
    have hinit : FlagInv L s (fun key => w₀.backend.exists (L.relation key)) subject [] w₀ :=
      hfresh.inv
    obtain ⟨l₁, h₁⟩ := hinit.run hL hok run
    obtain ⟨l, h, hfilled⟩ := h₁.run_keeps hL hok run₁
    obtain ⟨l', h', hfilled'⟩ := h₁.run_keeps hL hok run₂
    rw [h.entries, h'.entries, ← h.answered_eq hL hdone, ← h'.answered_eq hL hdone', hfilled,
      hfilled']

end Runs

/-! ## The posts of a feed -/

section Feed

variable {uid : String} {c : Nat} {client : Client} {posts : List Post} {e : Turn}

/-- The list of feed `c` in list mode, with whether `uid` likes its posts. -/
def feedFlags (uid : String) (c : Nat) : FlagList Post where
  entries client :=
    match (client.feeds c).post with
    | none => some (client.feeds c).posts
    | some _ => none
  id := Post.postId
  key post := some post.postId
  flag := Post.didLike
  fill didLike post := { post with didLike := didLike }
  decode now x := Post.init now x.1 x.2
  query := postsQuery
  relation p := ["users", uid, "user-likes", p]
  didFetch := didFetchPosts c
  didCheck p := didReadLike (FeedController.didCheckPosts c p)
  load := .feedDidLoad c
  refresh := .feedRefresh c

theorem feedFlags_entries : (feedFlags uid c).entries client = some posts
    ↔ (client.feeds c).post = none ∧ (client.feeds c).posts = posts := by
  simp only [feedFlags]
  cases (client.feeds c).post <;> simp

theorem feedFlags_mode (h : ((feedFlags uid c).entries client).isSome = true) :
    (client.feeds c).post = none := by
  obtain ⟨posts, hposts⟩ := Option.isSome_iff_exists.mp h
  exact (feedFlags_entries.mp hposts).1

/-- A change of the feed that keeps its mode. -/
theorem feedFlags_mapFeed {f : FeedController → FeedController}
    (hpost : (f (client.feeds c)).post = none) :
    (feedFlags uid c).entries (client.mapFeed c f) = some (f (client.feeds c)).posts := by
  rw [feedFlags_entries, Client.mapFeed_feeds, if_pos rfl]
  exact ⟨hpost, rfl⟩

theorem feedFlags_checks :
    (feedFlags uid c).checks posts = posts.map fun post => .checking post.postId post.postId :=
  congrFun List.filterMap_eq_map' posts

theorem exec_fetchPosts_list (h : (feedFlags uid c).entries client = some posts) :
    (FeedController.fetchPosts c).exec e client
      = (client, [(feedFlags uid c).asked .fetching]) := by
  have hmode : (client.feeds c).post.isSome = false := by
    rw [(feedFlags_entries.mp h).1]
    rfl
  have hfetch : (FeedController.fetchPosts c).exec e client
      = (client, [FeedStage.fetching.asked uid c false]) := exec_fetchPosts client hmode
  exact hfetch

theorem exec_feedDidLoad (h : (feedFlags uid c).entries client = some posts) :
    (feedFlags uid c).entries ((FeedController.viewDidLoad c).exec e client).1 = some posts
      ∧ ∀ fl ∈ ((FeedController.viewDidLoad c).exec e client).2,
        (feedFlags uid c).Aside fl ∨ fl = (feedFlags uid c).asked .fetching := by
  obtain ⟨hpost, hposts⟩ := feedFlags_entries.mp h
  unfold FeedController.viewDidLoad
  rw [Prog.exec_read]
  by_cases hloaded : (client.feeds c).loaded = true
  · rw [if_pos hloaded]
    exact ⟨h, fun fl hfl => absurd hfl List.not_mem_nil⟩
  rw [if_neg hloaded]
  let opened := client.mapFeed c fun feed => { feed with loaded := true }
  have hopened : (feedFlags uid c).entries opened = some posts := by
    rw [← hposts]
    exact feedFlags_mapFeed hpost
  have hspares : (FeedController.fetchUser c).Spares (fun _ => True) (feedFlags uid c).entries := by
    refine spares_withCurrentUid fun _ => spares_fetchUser trivial fun _ =>
      ⟨fun client => ?_, trivial⟩
    simp only [feedFlags, Client.mapFeed_feeds, if_pos]
  obtain ⟨hentries, hissues⟩ := hspares.exec e opened
  rw [hopened] at hentries
  show (feedFlags uid c).entries (((FeedController.fetchPosts c).andThen _).exec e opened).1 = _
    ∧ ∀ fl ∈ (((FeedController.fetchPosts c).andThen _).exec e opened).2, _
  rw [Prog.exec_andThen, exec_fetchPosts_list hopened, Prog.exec_andThen, Prog.exec_read]
  dsimp only
  rw [(feedFlags_entries.mp hentries).1]
  refine ⟨hentries, fun fl hfl => ?_⟩
  simp only [List.mem_append] at hfl
  rcases hfl with hfl | hfl | hfl
  · exact Or.inr (List.mem_singleton.mp hfl)
  · exact Or.inl (hissues fl hfl)
  · exact absurd hfl List.not_mem_nil

theorem feedFlags_lawful : (feedFlags uid c).Lawful uid where
  flag_fill _ _ := rfl
  fill_flag _ := rfl
  fill_fill _ _ _ := rfl
  id_fill _ _ := rfl
  key_fill _ _ := rfl
  exec_didFetch documents e client he hmode := by
    have hpost := feedFlags_mode hmode
    let fetched := client.mapFeed c (·.setPosts (documents.map fun x => Post.init e.now x.1 x.2))
    have hfetched : (feedFlags uid c).entries fetched
        = some (documents.map fun x => Post.init e.now x.1 x.2) :=
      feedFlags_mapFeed hpost
    have hmode : (fetched.feeds c).post.isSome = false := by
      rw [(feedFlags_entries.mp hfetched).1]
      rfl
    have hexec : ((feedFlags uid c).didFetch (some documents)).exec e client
        = (fetched, (fetched.feeds c).checks.map (FeedStage.asked uid c false)) :=
      exec_checkIfUserLikedPosts he fetched hmode
    rw [hexec]
    refine ⟨hfetched, ?_⟩
    unfold FeedController.checks
    rw [(feedFlags_entries.mp hfetched).1, (feedFlags_entries.mp hfetched).2, feedFlags_checks]
    simp only [List.map_map]
    rfl
  exec_didCheck id snapshot e client posts hposts hdistinct := by
    obtain ⟨hpost, rfl⟩ := feedFlags_entries.mp hposts
    refine ⟨?_, rfl⟩
    have hlist : (match (client.feeds c).posts.findIdx? fun post => post.postId == id with
        | some index => (client.feeds c).posts.modify index fun post =>
          { post with didLike := snapshot.data.isSome }
        | none => (client.feeds c).posts)
        = (client.feeds c).posts.map ((feedFlags uid c).answer id snapshot.data.isSome) :=
      modify_findIdx_eq_map hdistinct id _
    rw [← hlist]
    show (feedFlags uid c).entries
      ((FeedController.didCheckPosts c id snapshot.data.isSome).exec e client).1 = _
    unfold FeedController.didCheckPosts inFeed
    rw [Prog.exec_modify, Prog.exec_done, feedFlags_mapFeed]
    · refine congrArg some ?_
      cases (client.feeds c).posts.findIdx? fun post => post.postId == id <;> rfl
    · split <;> exact hpost
  exec_load e client posts _ hposts := exec_feedDidLoad hposts
  exec_refresh e client _ hmode := by
    have hpost := feedFlags_mode hmode
    have hcleared : (feedFlags uid c).entries (client.mapFeed c (·.setPosts [])) = some [] :=
      feedFlags_mapFeed hpost
    show (feedFlags uid c).entries ((FeedController.fetchPosts c).exec e _).1 = _
      ∧ ((FeedController.fetchPosts c).exec e _).2 = _
    rw [exec_fetchPosts_list hcleared]
    exact ⟨hcleared, rfl⟩

end Feed

/-! ## The notifications of an inbox -/

section Inbox

variable {uid : String} {n : Nat} {client : Client} {e : Turn}

/-- The user a notification offers to follow. -/
def Notification.follower (notification : Notification) : Option String :=
  if notification.type = .follow then some notification.uid else none

/-- The list of inbox `n`, with whether `uid` follows those who have followed him. -/
def inboxFlags (uid : String) (n : Nat) : FlagList Notification where
  entries client := some (client.inboxes n).notifications
  id := Notification.id
  key := Notification.follower
  flag := Notification.userIsFollowed
  fill isFollowed notification := { notification with userIsFollowed := isFollowed }
  decode now x := Notification.init now x.2
  query := inboxQuery uid
  relation sender := ["following", uid, "user-following", sender]
  didFetch := NotificationsController.didFetch n
  didCheck := NotificationsController.didReadSender n
  load := .inboxDidLoad n
  refresh := .inboxRefresh n

theorem inboxFlags_mapInbox {f : NotificationsController → NotificationsController} :
    (inboxFlags uid n).entries (client.mapInbox n f)
      = some (f (client.inboxes n)).notifications := by
  simp only [inboxFlags, Client.mapInbox_inboxes, if_pos]

/-- Both name the same checks. -/
theorem inboxFlags_checks (notifications : List Notification) :
    ((inboxFlags uid n).checks notifications).map (inboxFlags uid n).asked
      = (inboxChecks notifications).map (InboxStage.asked uid n) := by
  induction notifications with
  | nil => rfl
  | cons x notifications ih =>
    unfold FlagList.checks inboxChecks at *
    by_cases hfollow : x.type = .follow
    · have hkey : (inboxFlags uid n).key x = some x.uid := if_pos hfollow
      rw [List.filterMap_cons_some (by rw [hkey]; rfl),
        List.filter_cons_of_pos (by simpa using hfollow), List.map_cons, List.map_cons,
        List.map_cons, ih]
      rfl
    · have hkey : (inboxFlags uid n).key x = none := if_neg hfollow
      rw [List.filterMap_cons_none (by rw [hkey]; rfl),
        List.filter_cons_of_neg (by simpa using hfollow), ih]

theorem inboxFlags_lawful : (inboxFlags uid n).Lawful uid where
  flag_fill _ _ := rfl
  fill_flag _ := rfl
  fill_fill _ _ _ := rfl
  id_fill _ _ := rfl
  key_fill _ _ := rfl
  exec_didFetch documents e client he _ := by
    let fetched := client.mapInbox n
      (·.setNotifications (documents.map fun x : String × Doc => Notification.init e.now x.2))
    have hfetched : (fetched.inboxes n).notifications
        = documents.map fun x : String × Doc => Notification.init e.now x.2 := by
      show ((client.mapInbox n _).inboxes n).notifications = _
      rw [Client.mapInbox_inboxes, if_pos rfl]
      rfl
    have hexec : ((inboxFlags uid n).didFetch (some documents)).exec e client
        = (fetched, (inboxChecks (fetched.inboxes n).notifications).map (InboxStage.asked uid n)) :=
      exec_checkSenders he
    rw [hexec, hfetched]
    exact ⟨inboxFlags_mapInbox, (inboxFlags_checks _).symm⟩
  exec_didCheck id snapshot e client notifications hentries hdistinct := by
    obtain rfl : (client.inboxes n).notifications = notifications := Option.some.inj hentries
    refine ⟨?_, rfl⟩
    have hlist : (match (client.inboxes n).notifications.findIdx? fun x => x.id == id with
        | some index => (client.inboxes n).notifications.modify index fun x =>
          { x with userIsFollowed := snapshot.data.isSome }
        | none => (client.inboxes n).notifications)
        = (client.inboxes n).notifications.map
          ((inboxFlags uid n).answer id snapshot.data.isSome) :=
      modify_findIdx_eq_map hdistinct id _
    rw [← hlist]
    show (inboxFlags uid n).entries
      ((NotificationsController.didCheck n id snapshot.data.isSome).exec e client).1 = _
    unfold NotificationsController.didCheck
    rw [exec_inInbox, Prog.exec_done, inboxFlags_mapInbox]
    refine congrArg some ?_
    cases (client.inboxes n).notifications.findIdx? fun x => x.id == id <;> rfl
  exec_load e client notifications he hentries := by
    have hexec : (NotificationsController.viewDidLoad n).exec e client
        = if (client.inboxes n).loaded then (client, [])
          else (client.mapInbox n fun inbox => { inbox with loaded := true },
            [InboxStage.fetching.asked uid n]) := by
      unfold NotificationsController.viewDidLoad
      rw [Prog.exec_read]
      split
      next => rfl
      next => rw [exec_inInbox, exec_fetchNotifications he]
    show (inboxFlags uid n).entries ((NotificationsController.viewDidLoad n).exec e client).1 = _
      ∧ ∀ fl ∈ ((NotificationsController.viewDidLoad n).exec e client).2, _
    rw [hexec]
    split
    next => exact ⟨hentries, fun fl hfl => absurd hfl List.not_mem_nil⟩
    next =>
      refine ⟨?_, fun fl hfl => Or.inr (List.mem_singleton.mp hfl)⟩
      rw [inboxFlags_mapInbox]
      exact hentries
  exec_refresh e client he _ := by
    have hexec : (NotificationsController.handleRefresh n).exec e client
        = (client.mapInbox n (·.setNotifications []), [InboxStage.fetching.asked uid n]) := by
      unfold NotificationsController.handleRefresh
      rw [exec_inInbox, exec_fetchNotifications he]
    show (inboxFlags uid n).entries ((NotificationsController.handleRefresh n).exec e client).1 = _
      ∧ ((NotificationsController.handleRefresh n).exec e client).2 = _
    rw [hexec]
    exact ⟨inboxFlags_mapInbox, rfl⟩

/-- The stored notifications of `uid` have different ids, and an id is that of one notification
for good: of the follow of one sender, or of no follow. -/
def NamesFollowers (uid : String) (sender : String → Option String) (b : Backend) : Prop :=
  (inboxFlags uid 0).Named sender ((inboxQuery uid).results b.docs)

/-- If every stored notification has the id it is stored under, the ids are different. -/
theorem NamesFollowers.of_stored {sender : String → Option String} {b : Backend}
    (hid : ∀ x ∈ (inboxQuery uid).results b.docs, x.2.string "id" = some x.1)
    (hsender : ∀ x ∈ (inboxQuery uid).results b.docs,
      (Notification.init ⟨0, 0⟩ x.2).follower = sender x.1) : NamesFollowers uid sender b := by
  have hname : ∀ x ∈ (inboxQuery uid).results b.docs, ∀ now,
      (Notification.init now x.2).id = x.1 := by
    intro x hx now
    simp [Notification.init, hid x hx]
  intro now
  refine ⟨?_, fun y hy => ?_⟩
  · have hids : ((inboxQuery uid).results b.docs).map
        ((inboxFlags uid 0).id ∘ (inboxFlags uid 0).decode now)
        = ((inboxQuery uid).results b.docs).map Prod.fst :=
      List.map_congr_left fun x hx => hname x hx now
    rw [List.map_map, hids]
    exact (b.docs.nodup_ids _).sublist (List.filter_sublist.map Prod.fst)
  · obtain ⟨x, hx, rfl⟩ := List.mem_map.mp hy
    show (Notification.init ⟨0, 0⟩ x.2).follower = sender (Notification.init now x.2).id
    rw [hname x hx now, hsender x hx]

end Inbox

/-- **Flag replies.** In the feed's list mode and in the notification list: each reply to a check
sets the flag of the entry with its id and changes nothing else, when all are answered the flags
are those of the stored relation, and the list is the same for every order of arrival. -/
theorem flags_settle {S : Type} [DecidableEq S] (s : S) (uid : String)
    (sender : String → Option String) :
    (∀ c, (feedFlags uid c).Settles s uid fun _ => True)
      ∧ ∀ n, (inboxFlags uid n).Settles s uid (NamesFollowers uid sender) := by
  refine ⟨fun c => ?_, fun n => ?_⟩
  · have hnamed : ∀ b : Backend, (feedFlags uid c).Named some (postsQuery.results b.docs) := by
      intro b now
      refine ⟨?_, fun post hpost => ?_⟩
      · rw [List.map_map]
        exact (b.docs.nodup_ids _).sublist (List.filter_sublist.map Prod.fst)
      · obtain ⟨x, -, rfl⟩ := List.mem_map.mp hpost
        rfl
    exact feedFlags_lawful.settles fun b _ => hnamed b
  · have hnamed : ∀ b, NamesFollowers uid sender b →
        (inboxFlags uid n).Named sender ((inboxQuery uid).results b.docs) := fun _ h => h
    exact inboxFlags_lawful.settles hnamed

/-! ## A late reply -/

/-- User `uid` loads and refreshes a list, and is answered; nothing is written. -/
def OnlyReads (load refresh : Action) (uid : String) (w : AppWorld Client String) :
    AppEvent String Action → Prop
  | .invoke t a e => t = uid ∧ e.currentUid = some uid ∧ (a = load ∨ a = refresh)
  | .serve i o => o.isSuccess = true ∧ ∀ x ∈ w.pool[i]?, x.2.req.isWrite = false
  | .deliver _ e => e.currentUid = some uid
  | .drop _ => False

instance (load refresh : Action) (uid : String) (w : AppWorld Client String)
    (ev : AppEvent String Action) : Decidable (OnlyReads load refresh uid w ev) :=
  match ev with
  | .invoke _ _ _ => inferInstanceAs (Decidable (_ ∧ _ ∧ (_ ∨ _)))
  | .serve _ _ => inferInstanceAs (Decidable (_ ∧ ∀ x ∈ _, _))
  | .deliver _ _ => inferInstanceAs (Decidable (_ = some uid))
  | .drop _ => inferInstanceAs (Decidable False)

theorem OnlyReads.flagRun {α : Type} {L : FlagList α} {ok : Backend → Prop} {uid : String}
    {w : AppWorld Client String} {ev : AppEvent String Action}
    (h : OnlyReads L.load L.refresh uid w ev) (hok : ok w.backend) :
    L.FlagRun uid uid ok w ev := by
  cases ev with
  | invoke t a e =>
    obtain ⟨rfl, he, ha⟩ := h
    exact ⟨fun _ => he, trivial, fun _ => ha.imp_right Or.inl, hok, trivial⟩
  | serve i o =>
    refine ⟨trivial, fun _ _ _ => h.1, trivial, hok, fun x hx b y hserve key => ?_⟩
    have hread := h.2 x hx
    refine congrArg Option.isSome (serve_lookup_ne hserve fun write hwrite => ?_)
    rw [hwrite] at hread
    exact absurd hread (by simp [Request.isWrite])
  | deliver i e => exact ⟨fun _ _ _ => h, trivial, trivial, hok, trivial⟩
  | drop i => exact absurd h id

/-- A list that has not been loaded. -/
theorem fresh_atRest {α : Type} {L : FlagList α} {s : String} {b : Backend}
    (h : L.entries {} = some []) : L.Fresh s (atRest b fun _ => {}) :=
  ⟨h, fun _ hx => absurd hx List.not_mem_nil⟩

theorem answered_of_quiescent {α : Type} {L : FlagList α} {s : String}
    {w : AppWorld Client String} (h : w.Quiescent) : L.Answered s w := by
  intro x hx
  rw [h] at hx
  exact absurd hx List.not_mem_nil

/-- `a` likes `p`. -/
def likedTown : AppWorld Client String :=
  atRest { town with docs := town.docs.insert ["users", "a", "user-likes", "p"] (dict []) }
    fun _ => {}

/-- The feed is refreshed while the check of its post is under way. Both lists have come before
either check is answered, and the older check is answered last. -/
def lateCheck : List (AppEvent String Action) :=
  [.invoke "a" (.feedDidLoad 0) (turnOf "a"), .serve 0 (.success ["p"]), .deliver 0 (turnOf "a"),
    .invoke "a" (.feedRefresh 0) (turnOf "a"), .serve 2 (.success ["p"]), .deliver 2 (turnOf "a"),
    .serve 2 (.success []), .deliver 2 (turnOf "a"), .serve 1 (.success []),
    .deliver 1 (turnOf "a"), .serve 0 (.success []), .deliver 0 (turnOf "a")]

/-- `b` has followed `a` and has told him so; `a` follows `b`. -/
def followingTown : AppWorld Client String :=
  atRest
    { town with
      docs := (town.docs.insert ["following", "a", "user-following", "b"] (dict [])).insert
        ["notifications", "a", "user-notifications", "n"]
        (NotificationService.notificationData "b" (turnWith "b" "n") (User.init (userDoc "b"))
          .follow none) }
    fun _ => {}

/-- The same with the inbox, and the check of the sender. -/
def lateSender : List (AppEvent String Action) :=
  [.invoke "a" (.inboxDidLoad 0) (turnOf "a"), .serve 0 (.success ["n"]), .deliver 0 (turnOf "a"),
    .invoke "a" (.inboxRefresh 0) (turnOf "a"), .serve 1 (.success ["n"]), .deliver 1 (turnOf "a"),
    .serve 1 (.success []), .deliver 1 (turnOf "a"), .serve 0 (.success []),
    .deliver 0 (turnOf "a")]

/-- What is stored has different ids, and the notification is of a follow of `b`. -/
def OneFollow (b : Backend) : Prop :=
  ∀ x ∈ (inboxQuery "a").results b.docs, x.2.string "id" = some x.1
    ∧ (Notification.init ⟨0, 0⟩ x.2).follower = some "b"

instance (b : Backend) : Decidable (OneFollow b) :=
  inferInstanceAs (Decidable (∀ x ∈ _, _ ∧ _))

/-- The late replies find the new entries, and their flags are the stored ones. -/
theorem flags_settle_late :
    (∃ w post, Run api Action.program ((feedFlags "a" 0).FlagRun "a" "a" fun _ => True) likedTown
          lateCheck w
        ∧ (feedFlags "a" 0).entries (w.client "a") = some [post]
        ∧ post.didLike = true
        ∧ w.backend.exists ["users", "a", "user-likes", post.postId] = true)
      ∧ ∃ w notification, Run api Action.program ((inboxFlags "a" 0).FlagRun "a" "a"
            (NamesFollowers "a" fun _ => some "b")) followingTown lateSender w
        ∧ (inboxFlags "a" 0).entries (w.client "a") = some [notification]
        ∧ notification.follower = some "b" ∧ notification.userIsFollowed = true
        ∧ w.backend.exists ["following", "a", "user-following", "b"] = true := by
  obtain ⟨hfeed, hinbox⟩ := flags_settle "a" "a" fun _ => some "b"
  constructor
  · obtain ⟨w, run, hquiet, hids, hliked⟩ : ∃ w, Run api Action.program
        (OnlyReads (.feedDidLoad 0) (.feedRefresh 0) "a") likedTown lateCheck w ∧ w.Quiescent
        ∧ ((w.client "a").feeds 0).posts.map Post.postId = ["p"]
        ∧ w.backend.exists ["users", "a", "user-likes", "p"] = true :=
      exists_run_of_play (by decide)
    have hrun : Run api Action.program ((feedFlags "a" 0).FlagRun "a" "a" fun _ => True) likedTown
        lateCheck w := run.mono fun _ _ h => OnlyReads.flagRun h trivial
    obtain ⟨posts, hentries, hflags⟩ :=
      (hfeed 0).stored (fresh_atRest rfl) hrun (answered_of_quiescent hquiet)
    obtain ⟨-, rfl⟩ := feedFlags_entries.mp hentries
    obtain ⟨post, hpost, hid⟩ := List.map_eq_singleton_iff.mp hids
    rw [hpost] at hentries hflags
    have hstored : w.backend.exists ["users", "a", "user-likes", post.postId] = true := by
      rw [hid]
      exact hliked
    refine ⟨w, post, hrun, hentries, ?_, hstored⟩
    exact (hflags post (List.mem_singleton_self post) post.postId rfl).trans hstored
  · obtain ⟨w, run, hquiet, hfollowers, hstored⟩ : ∃ w, Run api Action.program
        (fun w ev => OnlyReads (.inboxDidLoad 0) (.inboxRefresh 0) "a" w ev
          ∧ OneFollow w.backend) followingTown lateSender w ∧ w.Quiescent
        ∧ ((w.client "a").inboxes 0).notifications.map Notification.follower = [some "b"]
        ∧ w.backend.exists ["following", "a", "user-following", "b"] = true :=
      exists_run_of_play (by decide +kernel)
    have hrun : Run api Action.program ((inboxFlags "a" 0).FlagRun "a" "a"
        (NamesFollowers "a" fun _ => some "b")) followingTown lateSender w :=
      run.mono fun _ _ h => OnlyReads.flagRun h.1
        (.of_stored (fun x hx => (h.2 x hx).1) fun x hx => (h.2 x hx).2)
    obtain ⟨notifications, hentries, hflags⟩ :=
      (hinbox 0).stored (fresh_atRest rfl) hrun (answered_of_quiescent hquiet)
    obtain rfl : ((w.client "a").inboxes 0).notifications = notifications :=
      Option.some.inj hentries
    obtain ⟨notification, hone, hfollower⟩ := List.map_eq_singleton_iff.mp hfollowers
    rw [hone] at hentries hflags
    refine ⟨w, notification, hrun, hentries, hfollower, ?_, hstored⟩
    exact (hflags notification (List.mem_singleton_self _) "b" hfollower).trans hstored

end InstaClone
