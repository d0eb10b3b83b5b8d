import InstaClone.Copies

/-!
# The entry of a conversation is its newest message

Both calls overwrite entries without looking: `uploadMessage` sets the entries of both users
once its first copy is acknowledged, `deleteMessages` deletes its own user's entry at once.
Which write of an entry is the last to be committed is up to the network when the calls come
from two sessions.

One session's writes are committed in the order it issues them. So as long as the calls of a
conversation take turns (`InTurn`), what the pending writes will leave, `settled`, is known
at every step: uploads of one session leave the entries at the newest message whose first
copy is acknowledged (`Uploading`), and a deletion leaves its user without messages and
without an entry (`Erasing`).
-/

namespace InstaClone

open Async

/-! ## Times -/

/-- Strictly earlier. -/
def Timestamp.lt (t u : Timestamp) : Bool := !u.le t

theorem Timestamp.le_refl (t : Timestamp) : t.le t = true := by
  simp [Timestamp.le]

theorem Timestamp.le_of_lt {t u : Timestamp} (h : t.lt u = true) : t.le u = true := by
  simp only [Timestamp.lt, Timestamp.le, Bool.not_eq_true', Bool.or_eq_false_iff,
    decide_eq_false_iff_not, Bool.and_eq_false_iff, beq_eq_false_iff_ne, ne_eq,
    Bool.or_eq_true, decide_eq_true_eq, Bool.and_eq_true, beq_iff_eq] at h ⊢
  omega

theorem Timestamp.le_trans {t u v : Timestamp} (h : t.le u = true) (h' : u.le v = true) :
    t.le v = true := by
  simp only [Timestamp.le, Bool.or_eq_true, decide_eq_true_eq, Bool.and_eq_true, beq_iff_eq]
    at h h' ⊢
  omega

theorem Timestamp.not_lt_of_le {t u : Timestamp} (h : u.le t = true) : t.lt u = false := by
  simp [Timestamp.lt, h]

/-- The message `d` was sent before `d'`. -/
def Doc.Before (d d' : Doc) : Prop :=
  ∃ t ∈ d.timestamp "timestamp", ∃ t' ∈ d'.timestamp "timestamp", t.lt t' = true

instance (d d' : Doc) : Decidable (d.Before d') :=
  decidable_of_iff ((d.timestamp "timestamp").any fun t =>
    (d'.timestamp "timestamp").any fun t' => t.lt t')
    (by simp [Doc.Before, Option.any_eq_true])

/-- The message `d` was not sent after `d'`. -/
def Doc.NotAfter (d d' : Doc) : Prop :=
  ∃ t ∈ d.timestamp "timestamp", ∃ t' ∈ d'.timestamp "timestamp", t.le t' = true

theorem Doc.Before.notAfter {d d' : Doc} (h : d.Before d') : d.NotAfter d' := by
  obtain ⟨t, ht, t', ht', hlt⟩ := h
  exact ⟨t, ht, t', ht', Timestamp.le_of_lt hlt⟩

theorem Doc.NotAfter.trans {d d' d'' : Doc} (h : d.NotAfter d') (h' : d'.NotAfter d'') :
    d.NotAfter d'' := by
  obtain ⟨t, ht, u, hu, hle⟩ := h
  obtain ⟨u', hu', v, hv, hle'⟩ := h'
  obtain rfl : u = u' := Option.some.inj (hu.symm.trans hu')
  exact ⟨t, ht, v, hv, Timestamp.le_trans hle hle'⟩

theorem Doc.Before.not_notAfter {d d' : Doc} (h : d.Before d') : ¬ d'.NotAfter d := by
  intro hnot
  obtain ⟨t, ht, u, hu, hlt⟩ := h
  obtain ⟨u', hu', t', ht', hle⟩ := hnot
  obtain rfl : u = u' := Option.some.inj (hu.symm.trans hu')
  obtain rfl : t = t' := Option.some.inj (ht.symm.trans ht')
  rw [Timestamp.not_lt_of_le hle] at hlt
  exact absurd hlt (by simp)

/-! ## When the entry is the newest message -/

/-- The entry under `owner` is the newest of the copies under `owner`; there is one exactly
if there is a copy. -/
def EntryIsNewest (docs : Stored) (owner partner : String) : Prop :=
  ((docs (entryPath owner partner)).isSome = true
      ↔ ∃ id, (docs (messagePath owner partner id)).isSome = true)
    ∧ ∀ d, docs (entryPath owner partner) = some d →
      (∃ id, docs (messagePath owner partner id) = some d)
        ∧ ∀ id d', docs (messagePath owner partner id) = some d' → d'.NotAfter d

theorem EntryIsNewest.of_empty {docs : Stored} {owner partner : String}
    (h : docs (entryPath owner partner) = none ∧ ∀ id, docs (messagePath owner partner id) = none) :
    EntryIsNewest docs owner partner := by
  obtain ⟨hentry, hmessage⟩ := h
  refine ⟨⟨fun hsome => ?_, fun ⟨id, hsome⟩ => ?_⟩, fun d hd => ?_⟩
  · rw [hentry] at hsome
    exact absurd hsome (by simp)
  · rw [hmessage] at hsome
    exact absurd hsome (by simp)
  · rw [hentry] at hd
    exact absurd hd (by simp)

/-- A copy that is newer than the entry. -/
theorem EntryIsNewest.not_of_older {docs : Stored} {owner partner id : String} {t t' : Timestamp}
    (hentry : (docs (entryPath owner partner)).bind (·.timestamp "timestamp") = some t)
    (hcopy : (docs (messagePath owner partner id)).bind (·.timestamp "timestamp") = some t')
    (hlt : t.lt t' = true) : ¬ EntryIsNewest docs owner partner := by
  intro h
  obtain ⟨d, hd, ht⟩ := Option.bind_eq_some_iff.mp hentry
  obtain ⟨d', hd', ht'⟩ := Option.bind_eq_some_iff.mp hcopy
  have hbefore : d.Before d' := ⟨t, ht, t', ht', hlt⟩
  exact hbefore.not_notAfter ((h.2 d hd).2 id d' hd')

/-- The two of the conversation. -/
def Pair (u v x y : String) : Prop := x = u ∧ y = v ∨ x = v ∧ y = u

instance (u v x y : String) : Decidable (Pair u v x y) :=
  inferInstanceAs (Decidable (_ ∨ _))

instance (u v : String) (m : Sent) : Decidable (Between u v m) :=
  inferInstanceAs (Decidable (_ ∨ _))

theorem Pair.symm {u v x y : String} (h : Pair u v x y) : Pair u v y x := by
  rcases h with ⟨rfl, rfl⟩ | ⟨rfl, rfl⟩
  · exact Or.inr ⟨rfl, rfl⟩
  · exact Or.inl ⟨rfl, rfl⟩

/-- Is the document a copy or an entry of the conversation? -/
def pathConcerns (u v : String) : Path → Bool
  | ["messages", x, y, z] =>
    if y = recentMessages then decide (Pair u v x z) else decide (Pair u v x y)
  | _ => false

/-- Is the request about the conversation? -/
def Request.concerns (u v : String) : Request → Bool
  | .write w => pathConcerns u v w.path
  | .getDocuments q => decide (q = messagesOf u v ∨ q = messagesOf v u)
  | _ => false

/-- Is it one of `deleteMessages`? -/
def Request.clears : Request → Bool
  | .write (.delete _) => true
  | .getDocuments _ => true
  | _ => false

/-- The calls of the conversation take turns: an upload starts when nothing of the
conversation is in flight but uploads of the same session, a deletion when nothing of it is;
and the query of a deletion is answered. -/
def InTurn {S : Type} (u v : String) (w : AppWorld String S) : AppEvent S MessageAction → Prop
  | .invoke s a e =>
    ∀ uid ∈ e.currentUid, Pair u v uid a.partner →
      match a with
      | .uploadMessage _ _ =>
        ∀ x ∈ w.pool, x.2.req.concerns u v = true → x.1 = s ∧ x.2.req.clears = false
      | .deleteMessages _ => ∀ x ∈ w.pool, x.2.req.concerns u v = false
  | .serve i o => ∀ x ∈ w.pool[i]?, x.2.req.concerns u v = true → o.isSuccess = true
  | _ => True

instance {S : Type} [DecidableEq S] (u v : String) (w : AppWorld String S)
    (ev : AppEvent S MessageAction) : Decidable (InTurn u v w ev) :=
  match ev with
  | .invoke s (.uploadMessage _ user) e =>
    inferInstanceAs (Decidable (∀ uid ∈ e.currentUid, Pair u v uid user.uid →
      ∀ x ∈ w.pool, x.2.req.concerns u v = true → x.1 = s ∧ x.2.req.clears = false))
  | .invoke _ (.deleteMessages user) e =>
    inferInstanceAs (Decidable (∀ uid ∈ e.currentUid, Pair u v uid user.uid →
      ∀ x ∈ w.pool, x.2.req.concerns u v = false))
  | .serve _ _ => inferInstanceAs (Decidable (∀ x ∈ _, _))
  | .deliver _ _ => isTrue trivial
  | .drop _ => isTrue trivial

/-- The clock does not go backwards between the messages of the conversation. -/
def Clocked {S : Type} (u v : String) (es : List (AppEvent S MessageAction)) : Prop :=
  ((sent es).filter fun m => decide (Between u v m)).Pairwise fun m m' => m.data.Before m'.data

instance {S : Type} (u v : String) (es : List (AppEvent S MessageAction)) :
    Decidable (Clocked u v es) :=
  inferInstanceAs (Decidable (List.Pairwise _ _))

/-! ## The errands of a conversation -/

/-- The two users an errand is about. -/
def Errand.conversation : Errand → String × String
  | near m | far m _ => (m.sender, m.receiver)
  | entry owner partner _ | list owner partner | listed owner partner _ | remove owner partner _
  | removeEntry owner partner => (owner, partner)

/-- Is the errand about the conversation? -/
def Errand.Concerns (u v : String) (t : Errand) : Prop :=
  Pair u v t.conversation.1 t.conversation.2

instance (u v : String) (t : Errand) : Decidable (t.Concerns u v) :=
  inferInstanceAs (Decidable (Pair u v t.conversation.1 t.conversation.2))

/-- Neither of the two has the name of the entries. -/
def Errand.Named (t : Errand) : Prop :=
  t.conversation.1 ≠ recentMessages ∧ t.conversation.2 ≠ recentMessages

theorem pathConcerns_message {u v owner partner id : String} (h : partner ≠ recentMessages) :
    pathConcerns u v (messagePath owner partner id) = decide (Pair u v owner partner) := by
  simp [pathConcerns, h]

theorem pathConcerns_entry {u v owner partner : String} :
    pathConcerns u v (entryPath owner partner) = decide (Pair u v owner partner) := by
  simp [pathConcerns]

theorem pair_comm {u v x y : String} : Pair u v x y ↔ Pair u v y x := ⟨Pair.symm, Pair.symm⟩

/-- A write of an errand is about its conversation. -/
theorem Errand.pathConcerns_write {u v : String} {t : Errand} {w : Write} (h : t.write = some w)
    (hnamed : t.Named) : pathConcerns u v w.path = decide (t.Concerns u v) := by
  cases t with
  | near m =>
    obtain rfl := Option.some.inj h
    exact pathConcerns_message hnamed.2
  | far m id =>
    obtain rfl := Option.some.inj h
    refine (pathConcerns_message hnamed.1).trans ?_
    rw [decide_eq_decide]
    exact pair_comm
  | entry owner partner data =>
    obtain rfl := Option.some.inj h
    exact pathConcerns_entry
  | remove owner partner id =>
    obtain rfl := Option.some.inj h
    exact pathConcerns_message hnamed.2
  | removeEntry owner partner =>
    obtain rfl := Option.some.inj h
    exact pathConcerns_entry
  | list | listed => exact absurd h (by simp [write])

/-- So is the request of an errand. -/
theorem Errand.At.concerns {u v : String} {fl : Flight Request Response Turn String}
    {t : Errand × Bool} (h : Errand.At fl t) (hnamed : t.1.Named) :
    fl.req.concerns u v = decide (t.1.Concerns u v)
      ∧ fl.req.clears = t.1.clears.isSome := by
  have hquery : ∀ owner partner : String,
      (messagesOf owner partner = messagesOf u v ∨ messagesOf owner partner = messagesOf v u)
        ↔ Pair u v owner partner := by
    intro owner partner
    simp [Pair]
  cases h with
  | near | nearDone | far | farDone | entry | entryDone | remove | removed | removeEntry
  | removedEntry =>
    have hwrite := Errand.pathConcerns_write (u := u) (v := v) rfl hnamed
    exact ⟨hwrite, rfl⟩
  | list owner partner =>
    refine ⟨?_, rfl⟩
    show decide _ = decide _
    rw [decide_eq_decide]
    exact hquery owner partner
  | listed owner partner snapshot =>
    refine ⟨?_, rfl⟩
    show decide _ = decide _
    rw [decide_eq_decide]
    exact hquery owner partner

section Entries

variable {S : Type} {docs₀ docs : Stored} {es : List (AppEvent S MessageAction)}
  {log : List (S × Write)} {errands l l' : List (S × (Errand × Bool))} {u v : String}

/-- All errands have the names of users. -/
theorem named_of_mailRun (run : MailRun docs₀ es log docs errands)
    (hnames : ∀ ev ∈ es, Unreserved ev) : ∀ x ∈ errands, x.2.1.Named := by
  induction run with
  | nil => exact fun x hx => absurd hx List.not_mem_nil
  | snoc run hstep ih =>
    rename_i es log docs errands ev out docs' errands'
    have h := ih fun ev hev => hnames ev (by simp [hev])
    have hev : Unreserved ev := hnames ev (by simp)
    cases hstep with
    | idle hout => exact h
    | send hin =>
      intro x hx
      rcases List.mem_append.mp hx with hx | hx
      · exact h x hx
      · rw [List.mem_singleton.mp hx]
        refine ⟨?_, hev.1⟩
        rintro rfl
        exact hev.2 hin
    | clear hin =>
      rename_i s user e uid
      intro x hx
      have huid : uid ≠ recentMessages := by
        rintro rfl
        exact hev.2 hin
      simp only [List.mem_append, List.mem_cons, List.not_mem_nil, or_false] at hx
      rcases hx with hx | rfl | rfl
      · exact h x hx
      · exact ⟨huid, hev.1⟩
      · exact ⟨huid, hev.1⟩
    | commit hi hwrite hfifo =>
      rename_i l l' s i o t w
      intro x hx
      simp only [List.mem_append, List.mem_cons] at hx
      rcases hx with hx | rfl | hx
      · exact h x (by simp [hx])
      · exact h (s, t, true) (by simp)
      · exact h x (by simp [hx])
    | answer hi hids =>
      rename_i l l' s i o owner partner ids
      intro x hx
      simp only [List.mem_append, List.mem_cons] at hx
      rcases hx with hx | rfl | hx
      · exact h x (by simp [hx])
      · exact h (s, .list owner partner, true) (by simp)
      · exact h x (by simp [hx])
    | resume ht hfifo =>
      rename_i l l' s i e t
      have ht : t.Named := h (s, t, false) (by simp)
      intro x hx
      simp only [List.mem_append, List.mem_map] at hx
      rcases hx with (hx | hx) | ⟨t', ht', rfl⟩
      · exact h x (by simp [hx])
      · exact h x (by simp [hx])
      · cases t with
        | near m =>
          simp only [Errand.next, List.mem_cons, List.not_mem_nil, or_false] at ht'
          rcases ht' with rfl | rfl | rfl
          · exact ht
          · exact ht
          · exact And.symm ht
        | listed owner partner ids =>
          obtain ⟨id, hid, rfl⟩ := List.mem_map.mp ht'
          exact ht
        | _ => exact absurd ht' List.not_mem_nil

/-! ## What the pending writes will leave -/

/-- What a pending write makes of the document at `path`. -/
def Errand.effect (t : Errand) (path : Path) (d : Option Doc) : Option Doc :=
  match t.write with
  | some w => if w.path = path then w.effect d else d
  | none => d

theorem Errand.effect_of_write {t : Errand} {w : Write} (h : t.write = some w) (path : Path)
    (d : Option Doc) : t.effect path d = if w.path = path then w.effect d else d := by
  unfold effect
  rw [h]

/-- The document at `path` once the pending writes are committed, in order. -/
def settledFrom (errands : List (S × (Errand × Bool))) (path : Path) (d : Option Doc) :
    Option Doc :=
  errands.foldl (fun d x => if x.2.2 then x.2.1.effect path d else d) d

/-- The documents once the pending writes are committed. -/
def settledDocs (docs : Stored) (errands : List (S × (Errand × Bool))) : Stored := fun path =>
  settledFrom errands path (docs path)

theorem settledFrom_append (path : Path) (d : Option Doc) :
    settledFrom (l ++ l') path d = settledFrom l' path (settledFrom l path d) :=
  List.foldl_append

@[simp] theorem settledFrom_nil (path : Path) (d : Option Doc) :
    settledFrom ([] : List (S × (Errand × Bool))) path d = d := rfl

theorem settledFrom_cons (x : S × (Errand × Bool)) (path : Path) (d : Option Doc) :
    settledFrom (x :: l) path d
      = settledFrom l path (if x.2.2 then x.2.1.effect path d else d) := rfl

/-- An errand that does not write `path` leaves it. -/
theorem Errand.effect_of_ne {t : Errand} {path : Path} (h : ∀ w, t.write = some w → w.path ≠ path)
    (d : Option Doc) : t.effect path d = d := by
  unfold effect
  split
  next w hw => exact if_neg (h w hw)
  next => rfl

/-- Errands that do not write `path` leave it. -/
theorem settledFrom_quiet {path : Path} {d : Option Doc}
    (h : ∀ x ∈ l, x.2.2 = true → ∀ w, x.2.1.write = some w → w.path ≠ path) :
    settledFrom l path d = d := by
  induction l generalizing d with
  | nil => rfl
  | cons x l ih =>
    rw [settledFrom_cons]
    cases hwaits : x.2.2 with
    | false => exact ih fun y hy => h y (List.mem_cons_of_mem _ hy)
    | true =>
      rw [if_pos rfl, Errand.effect_of_ne (h x (List.mem_cons_self ..) hwaits)]
      exact ih fun y hy => h y (List.mem_cons_of_mem _ hy)

/-- New errands add their writes. -/
theorem settledDocs_append (new : List (S × (Errand × Bool))) (path : Path) :
    settledDocs docs (errands ++ new) path = settledFrom new path (settledDocs docs errands path) :=
  settledFrom_append path _

/-- An errand that is done has nothing pending. -/
theorem settledDocs_done (s : S) (t : Errand) (path : Path) :
    settledDocs docs (l ++ (s, t, false) :: l') path = settledDocs docs (l ++ l') path := by
  unfold settledDocs
  rw [settledFrom_append, settledFrom_append, settledFrom_cons]
  rfl

/-- **Committing a write leaves what the pending writes will leave**, where no other session
has a write of the document pending: its own session's are committed in order. -/
theorem settledDocs_commit {s : S} {t : Errand} {w : Write} {path : Path}
    (hwrite : t.write = some w)
    (hfifo : ∀ x ∈ l, x.1 = s → x.2.2 = true → x.2.1.write = none)
    (halone : w.path = path → ∀ x ∈ l, ∀ w', x.2.1.write = some w' → w'.path = path → x.1 = s) :
    settledDocs (docs.commit w) (l ++ (s, t, false) :: l') path
      = settledDocs docs (l ++ (s, t, true) :: l') path := by
  have hcommit : docs.commit w path = t.effect path (docs path) := by
    rw [Errand.effect_of_write hwrite]
    unfold Stored.commit
    by_cases hpath : path = w.path
    · rw [if_pos hpath, if_pos hpath.symm]
    · rw [if_neg hpath, if_neg (Ne.symm hpath)]
  rw [settledDocs_done]
  unfold settledDocs
  rw [settledFrom_append, settledFrom_append, settledFrom_cons, if_pos rfl, hcommit]
  by_cases hpath : w.path = path
  · have hquiet : ∀ d, settledFrom l path d = d := fun d =>
      settledFrom_quiet fun x hx hwaits w' hw' hpath' => by
        have hnone := hfifo x hx (halone hpath x hx w' hw' hpath') hwaits
        rw [hnone] at hw'
        exact absurd hw' (by simp)
    rw [hquiet, hquiet]
  · have hleave : ∀ d, t.effect path d = d := fun d =>
      Errand.effect_of_ne (fun w' hw' => by rwa [← Option.some.inj (hwrite.symm.trans hw')]) d
    rw [hleave, hleave]

/-! ## The phases of a conversation -/

theorem Stored.commit_self {docs : Stored} {w : Write} {path : Path} (h : path = w.path) :
    docs.commit w path = w.effect (docs path) := if_pos h

theorem Stored.commit_ne {docs : Stored} {w : Write} {path : Path} (h : path ≠ w.path) :
    docs.commit w path = docs path := if_neg h

/-- Two users, neither of whom has the name of the entries. -/
structure Users (u v : String) : Prop where
  ne : u ≠ v
  fst : u ≠ recentMessages
  snd : v ≠ recentMessages

theorem Users.pair {x y : String} (h : Users u v) (hpair : Pair u v x y) : Users x y := by
  rcases hpair with ⟨rfl, rfl⟩ | ⟨rfl, rfl⟩
  · exact h
  · exact ⟨Ne.symm h.ne, h.snd, h.fst⟩

theorem Users.message_ne_entry {id owner partner : String} (h : Users u v) :
    messagePath u v id ≠ entryPath owner partner := fun heq => h.snd (messagePath_inj heq).2.1

theorem Users.message_ne_message {id id' : String} (h : Users u v) :
    messagePath u v id ≠ messagePath v u id' := fun heq => h.ne (messagePath_inj heq).1

theorem Users.entry_ne_entry (h : Users u v) : entryPath u v ≠ entryPath v u := fun heq =>
  h.ne (messagePath_inj heq).1

/-- The messages whose first copy has not been acknowledged. -/
def nears (C : List (S × (Errand × Bool))) : List Sent :=
  C.filterMap fun x => match x.2.1 with
    | .near m => some m
    | _ => none

@[simp] theorem nears_append : nears (l ++ l') = nears l ++ nears l' := List.filterMap_append ..

@[simp] theorem nears_nil : nears ([] : List (S × (Errand × Bool))) = [] := rfl

/-- But for the first copies of `N`, the entry under `x` is the newest of the copies there. -/
structure NewestBut (N : List Sent) (D : Stored) (x y : String) : Prop where
  copies : ∀ id d, D (messagePath x y id) = some d → (∃ m ∈ N, m.near = messagePath x y id)
    ∨ ∃ d', D (entryPath x y) = some d' ∧ d.NotAfter d'
  entry : ∀ d, D (entryPath x y) = some d →
    ∃ id, D (messagePath x y id) = some d ∧ ∀ m ∈ N, m.near ≠ messagePath x y id

theorem NewestBut.entryIsNewest {D : Stored} {x y : String} (h : NewestBut [] D x y) :
    EntryIsNewest D x y := by
  have hcopy : ∀ id d, D (messagePath x y id) = some d →
      ∃ d', D (entryPath x y) = some d' ∧ d.NotAfter d' := fun id d hd =>
    (h.copies id d hd).resolve_left (by simp)
  refine ⟨⟨fun hsome => ?_, fun hsome => ?_⟩, fun d hd => ⟨?_, fun id d' hd' => ?_⟩⟩
  · obtain ⟨d, hd⟩ := Option.isSome_iff_exists.mp hsome
    obtain ⟨id, hid, -⟩ := h.entry d hd
    exact ⟨id, by rw [hid]; rfl⟩
  · obtain ⟨id, hsome⟩ := hsome
    obtain ⟨d, hd⟩ := Option.isSome_iff_exists.mp hsome
    obtain ⟨d', hd', -⟩ := hcopy id d hd
    rw [hd']
    rfl
  · obtain ⟨id, hid, -⟩ := h.entry d hd
    exact ⟨id, hid⟩
  · obtain ⟨d'', hd'', hle⟩ := hcopy id d' hd'
    rw [hd] at hd''
    exact Option.some.inj hd'' ▸ hle

/-- Everything in the conversation has been sent there, under identifiers drawn so far. -/
structure Sound (u v : String) (es : List (AppEvent S MessageAction)) (D : Stored) : Prop where
  ids : ∀ x y id, Pair u v x y → D (messagePath x y id) ≠ none → id ∈ drawn es
  copies : ∀ x y id d, Pair u v x y → D (messagePath x y id) = some d →
    ∃ m ∈ sent es, Between u v m ∧ d = m.data
  entries : ∀ x y d, Pair u v x y → D (entryPath x y) = some d →
    ∃ m ∈ sent es, Between u v m ∧ d = m.data

/-- Session `s` uploads. The pending writes leave the entries at the newest message whose
first copy is acknowledged, and the others are newer. -/
structure Uploading (u v : String) (es : List (AppEvent S MessageAction)) (D : Stored)
    (C : List (S × (Errand × Bool))) (s : S) : Prop where
  alone : ∀ z ∈ C, z.1 = s ∧ z.2.1.clears = none
  between : ∀ m ∈ nears C, m ∈ sent es ∧ Between u v m
  order : (nears C).Pairwise fun m m' => m.data.Before m'.data
  stored : ∀ m ∈ nears C, D m.near = some m.data
  newer : ∀ m ∈ nears C, ∀ x y d, Pair u v x y → D (entryPath x y) = some d → d.Before m.data
  side : ∀ x y, Pair u v x y → NewestBut (nears C) D x y
  same : (∀ s x y, Pair u v x y → ¬ Cleared es s x y) → D (entryPath u v) = D (entryPath v u)

/-- Session `s` clears the conversation for `x`. -/
structure Erasing (u v : String) (es : List (AppEvent S MessageAction)) (D : Stored)
    (C : List (S × (Errand × Bool))) (s : S) (x y : String) : Prop where
  pair : Pair u v x y
  alone : ∀ z ∈ C, z.1 = s ∧ z.2.1.clears = some (x, y)
  cleared : Cleared es s x y
  entry : D (entryPath x y) = none
  other : NewestBut [] D y x
  copies : (∃ rest, C = (s, .list x y, true) :: rest ∧ ∀ z ∈ rest, z.2.1 = .removeEntry x y)
    ∨ (∃ ids rest, C = (s, .listed x y ids, false) :: rest
      ∧ (∀ z ∈ rest, z.2.1 = .removeEntry x y)
      ∧ ∀ id, D (messagePath x y id) ≠ none → id ∈ ids)
    ∨ ∀ id, D (messagePath x y id) = none

/-- The phase of a conversation. -/
def Phase (u v : String) (es : List (AppEvent S MessageAction)) (D : Stored)
    (C : List (S × (Errand × Bool))) : Prop :=
  Sound u v es D ∧ ((∃ s, Uploading u v es D C s) ∨ ∃ s x y, Erasing u v es D C s x y)

variable {D : Stored} {C C' : List (S × (Errand × Bool))} {s s' : S}
  {ev : AppEvent S MessageAction}

/-- With nothing of the conversation under way it is between two uploads. -/
theorem Phase.idle (hu : Users u v) (h : Phase u v es D []) (s : S) : Uploading u v es D [] s := by
  obtain ⟨-, ⟨s', h⟩ | ⟨s', x, y, h⟩⟩ := h
  · exact { h with alone := fun z hz => absurd hz List.not_mem_nil }
  · have hnone : ∀ id, D (messagePath x y id) = none := by
      rcases h.copies with ⟨rest, hC, -⟩ | ⟨ids, rest, hC, -⟩ | hnone
      · exact absurd hC (by simp)
      · exact absurd hC (by simp)
      · exact hnone
    refine ⟨?_, ?_, .nil, ?_, ?_, fun x' y' hpair => ?_, fun hnever => ?_⟩
    any_goals simp
    · by_cases hx : x' = x
      · have hy : y' = y := by
          rcases h.pair with ⟨rfl, rfl⟩ | ⟨rfl, rfl⟩ <;> rcases hpair with ⟨rfl, rfl⟩ | ⟨rfl, rfl⟩
          · rfl
          · exact absurd hx (Ne.symm hu.ne)
          · exact absurd hx hu.ne
          · rfl
        subst hx hy
        refine ⟨fun id d hd => ?_, fun d hd => ?_⟩
        · rw [hnone] at hd
          exact absurd hd (by simp)
        · rw [h.entry] at hd
          exact absurd hd (by simp)
      · have hother : x' = y ∧ y' = x := by
          rcases h.pair with ⟨rfl, rfl⟩ | ⟨rfl, rfl⟩ <;> rcases hpair with ⟨rfl, rfl⟩ | ⟨rfl, rfl⟩
          · exact absurd rfl hx
          · exact ⟨rfl, rfl⟩
          · exact ⟨rfl, rfl⟩
          · exact absurd rfl hx
        obtain ⟨rfl, rfl⟩ := hother
        exact h.other
    · exact absurd h.cleared (hnever s' x y h.pair)

/-- A session that has the conversation to itself, with uploads only, uploads. -/
theorem Phase.uploading (hu : Users u v) (h : Phase u v es D C)
    (hC : ∀ z ∈ C, z.1 = s ∧ z.2.1.clears = none) : Uploading u v es D C s := by
  obtain ⟨hsound, ⟨s', hup⟩ | ⟨s', x, y, her⟩⟩ := h
  · exact { hup with alone := hC }
  · have hnil : C = [] := List.eq_nil_iff_forall_not_mem.mpr fun z hz => by
      have hsome := (her.alone z hz).2
      rw [(hC z hz).2] at hsome
      exact absurd hsome (by simp)
    subst hnil
    exact Phase.idle hu ⟨hsound, Or.inr ⟨s', x, y, her⟩⟩ s

theorem Sound.snoc (h : Sound u v es D) (ev : AppEvent S MessageAction) :
    Sound u v (es ++ [ev]) D where
  ids x y id hpair hdoc := by
    rw [drawn_snoc]
    exact List.mem_append_left _ (h.ids x y id hpair hdoc)
  copies x y id d hpair hd := by
    obtain ⟨m, hm, hbetween⟩ := h.copies x y id d hpair hd
    exact ⟨m, by rw [sent_snoc]; exact List.mem_append_left _ hm, hbetween⟩
  entries x y d hpair hd := by
    obtain ⟨m, hm, hbetween⟩ := h.entries x y d hpair hd
    exact ⟨m, by rw [sent_snoc]; exact List.mem_append_left _ hm, hbetween⟩

theorem Uploading.snoc (h : Uploading u v es D C s) (ev : AppEvent S MessageAction) :
    Uploading u v (es ++ [ev]) D C s :=
  { h with
    between := fun m hm =>
      ⟨by rw [sent_snoc]; exact List.mem_append_left _ (h.between m hm).1, (h.between m hm).2⟩
    same := fun hnever => h.same fun s x y hpair hcleared => hnever s x y hpair hcleared.snoc }

/-- Time passes. -/
theorem Phase.snoc (h : Phase u v es D C) (ev : AppEvent S MessageAction) :
    Phase u v (es ++ [ev]) D C := by
  obtain ⟨hsound, ⟨s', hup⟩ | ⟨s', x, y, her⟩⟩ := h
  · exact ⟨hsound.snoc ev, Or.inl ⟨s', hup.snoc ev⟩⟩
  · exact ⟨hsound.snoc ev, Or.inr ⟨s', x, y, { her with cleared := her.cleared.snoc }⟩⟩

/-- A message of the conversation is stored, under identifiers drawn so far. -/
theorem Sound.store {D' : Stored} (h : Sound u v es D) {m : Sent} (hm : m ∈ sent es)
    (hbetween : Between u v m)
    (hcopies : ∀ x y id, Pair u v x y → D' (messagePath x y id) = D (messagePath x y id)
      ∨ id ∈ drawn es ∧ D' (messagePath x y id) = some m.data)
    (hentries : ∀ x y, Pair u v x y → D' (entryPath x y) = D (entryPath x y)
      ∨ D' (entryPath x y) = some m.data) : Sound u v es D' where
  ids x y id hpair hdoc := by
    rcases hcopies x y id hpair with heq | ⟨hid, -⟩
    · rw [heq] at hdoc
      exact h.ids x y id hpair hdoc
    · exact hid
  copies x y id d hpair hd := by
    rcases hcopies x y id hpair with heq | ⟨-, heq⟩
    · rw [heq] at hd
      exact h.copies x y id d hpair hd
    · rw [heq] at hd
      exact ⟨m, hm, hbetween, (Option.some.inj hd).symm⟩
  entries x y d hpair hd := by
    rcases hentries x y hpair with heq | heq
    · rw [heq] at hd
      exact h.entries x y d hpair hd
    · rw [heq] at hd
      exact ⟨m, hm, hbetween, (Option.some.inj hd).symm⟩

/-- A first copy is stored, whose call waits. -/
theorem NewestBut.wait {N : List Sent} {D' : Stored} {x y : String} (h : NewestBut N D x y)
    {m : Sent} (habsent : D m.near = none) (hleave : ∀ path, path ≠ m.near → D' path = D path)
    (hentry : entryPath x y ≠ m.near) : NewestBut (N ++ [m]) D' x y where
  copies id d hd := by
    by_cases hpath : messagePath x y id = m.near
    · exact Or.inl ⟨m, by simp, hpath.symm⟩
    · rw [hleave _ hpath] at hd
      rw [hleave _ hentry]
      rcases h.copies id d hd with ⟨m', hm', heq⟩ | hnewest
      · exact Or.inl ⟨m', List.mem_append_left _ hm', heq⟩
      · exact Or.inr hnewest
  entry d hd := by
    rw [hleave _ hentry] at hd
    obtain ⟨id, hdoc, hnot⟩ := h.entry d hd
    have hpath : messagePath x y id ≠ m.near := by
      intro heq
      rw [heq, habsent] at hdoc
      exact absurd hdoc (by simp)
    refine ⟨id, by rw [hleave _ hpath]; exact hdoc, fun m' hm' => ?_⟩
    rcases List.mem_append.mp hm' with hm' | hm'
    · exact hnot m' hm'
    · rw [List.mem_singleton.mp hm']
      exact Ne.symm hpath

/-- A message of the conversation is sent. -/
theorem Phase.send (hu : Users u v) (h : Phase u v es D C)
    (hC : ∀ z ∈ C, z.1 = s ∧ z.2.1.clears = none) {m : Sent} (hm : Between u v m)
    (hev : sentBy ev = some m) (hid : drawnId ev = some m.id) (hfresh : m.id ∉ drawn es)
    (hclock : ∀ m' ∈ sent es, Between u v m' → m'.data.Before m.data) :
    Phase u v (es ++ [ev]) (D.commit (.setData m.near m.data)) (C ++ [(s, .near m, true)]) := by
  have hup := (h.uploading hu hC).snoc ev
  have hsound := h.1.snoc ev
  have husers : Users m.sender m.receiver := hu.pair hm
  have hsent : m ∈ sent (es ++ [ev]) := by rw [sent_snoc, hev]; simp
  have hdrawn : m.id ∈ drawn (es ++ [ev]) := by rw [drawn_snoc, hid]; simp
  have habsent : D m.near = none := by
    by_contra hdoc
    exact hfresh (h.1.ids _ _ _ hm hdoc)
  have hself : D.commit (.setData m.near m.data) m.near = some m.data := Stored.commit_self rfl
  have hleave : ∀ path, path ≠ m.near → D.commit (.setData m.near m.data) path = D path :=
    fun path hpath => Stored.commit_ne hpath
  have hentry : ∀ x y, entryPath x y ≠ m.near := fun x y => Ne.symm husers.message_ne_entry
  have hnears : nears (C ++ [(s, .near m, true)]) = nears C ++ [m] := nears_append
  refine ⟨hsound.store hsent hm (fun x y id hpair => ?_)
      fun x y _ => Or.inl (hleave _ (hentry x y)),
    Or.inl ⟨s, ?_, ?_, ?_, ?_, ?_, ?_, ?_⟩⟩
  · by_cases hpath : messagePath x y id = m.near
    · rw [hpath, (messagePath_inj hpath).2.2]
      exact Or.inr ⟨hdrawn, hself⟩
    · exact Or.inl (hleave _ hpath)
  · intro z hz
    rcases List.mem_append.mp hz with hz | hz
    · exact hC z hz
    · rw [List.mem_singleton.mp hz]
      exact ⟨rfl, rfl⟩
  · intro m' hm'
    rw [hnears] at hm'
    rcases List.mem_append.mp hm' with hm' | hm'
    · exact hup.between m' hm'
    · rw [List.mem_singleton.mp hm']
      exact ⟨hsent, hm⟩
  · rw [hnears, List.pairwise_append]
    refine ⟨hup.order, List.pairwise_singleton _ _, fun m' hm' m'' hm'' => ?_⟩
    rw [List.mem_singleton.mp hm'']
    have hbefore := (h.uploading hu hC).between m' hm'
    exact hclock m' hbefore.1 hbefore.2
  · intro m' hm'
    rw [hnears] at hm'
    rcases List.mem_append.mp hm' with hm' | hm'
    · rw [hleave _ ?_]
      · exact hup.stored m' hm'
      · intro heq
        have hdoc := hup.stored m' hm'
        rw [heq, habsent] at hdoc
        exact absurd hdoc (by simp)
    · rw [List.mem_singleton.mp hm']
      exact hself
  · intro m' hm' x y d hpair hd
    rw [hleave _ (hentry x y)] at hd
    rw [hnears] at hm'
    rcases List.mem_append.mp hm' with hm' | hm'
    · exact hup.newer m' hm' x y d hpair hd
    · rw [List.mem_singleton.mp hm']
      obtain ⟨m'', hm'', hbetween, rfl⟩ := h.1.entries x y d hpair hd
      exact hclock m'' hm'' hbetween
  · intro x y hpair
    rw [hnears]
    exact (hup.side x y hpair).wait habsent hleave (hentry x y)
  · intro hnever
    rw [hleave _ (hentry u v), hleave _ (hentry v u)]
    exact hup.same hnever

/-- What a sent message says of its time. -/
theorem sent_notAfter {m : Sent} (h : m ∈ sent es) : m.data.NotAfter m.data := by
  obtain ⟨ev, -, hev⟩ := List.mem_filterMap.mp h
  cases ev with
  | invoke s a e =>
    cases a with
    | uploadMessage message user =>
      obtain ⟨uid, -, rfl⟩ := Option.map_eq_some_iff.mp hev
      exact ⟨e.now, rfl, e.now, rfl, e.now.le_refl⟩
    | deleteMessages user => exact absurd hev (by simp [sentBy])
  | _ => exact absurd hev (by simp [sentBy])

theorem Errand.write_of_clears {t : Errand} (h : t.clears = none) : t.write ≠ none := by
  cases t <;> simp [Errand.clears, Errand.write] at h ⊢

/-- The two sides of a conversation are those of the message. -/
theorem Between.sides {m : Sent} {x y : String} (h : Between u v m) (hpair : Pair u v x y) :
    x = m.sender ∧ y = m.receiver ∨ x = m.receiver ∧ y = m.sender := by
  rcases h with ⟨hs, hr⟩ | ⟨hs, hr⟩ <;> rcases hpair with ⟨rfl, rfl⟩ | ⟨rfl, rfl⟩
  · exact Or.inl ⟨hs.symm, hr.symm⟩
  · exact Or.inr ⟨hr.symm, hs.symm⟩
  · exact Or.inr ⟨hr.symm, hs.symm⟩
  · exact Or.inl ⟨hs.symm, hr.symm⟩

/-- What the calls that follow the first copy of a message store: its second copy, which was not
there, and both entries. -/
structure Born (u v : String) (m : Sent) (id : String) (D D' : Stored) : Prop where
  absent : D (m.far id) = none
  far : D' (m.far id) = some m.data
  entries : ∀ x y, Pair u v x y → D' (entryPath x y) = some m.data
  leave : ∀ x y id', Pair u v x y → messagePath x y id' ≠ m.far id →
    D' (messagePath x y id') = D (messagePath x y id')

theorem born_commit (hu : Users u v) {m : Sent} (hbetween : Between u v m) {id : String}
    (habsent : D (m.far id) = none) :
    Born u v m id D (((D.commit (.setData (m.far id) m.data)).commit
      (.setData (entryPath m.sender m.receiver) m.data)).commit
      (.setData (entryPath m.receiver m.sender) m.data)) := by
  have husers : Users m.sender m.receiver := hu.pair hbetween
  have hback : Users m.receiver m.sender := husers.pair (Or.inr ⟨rfl, rfl⟩)
  refine ⟨habsent, ?_, fun x y hpair => ?_, fun x y id' hpair hpath => ?_⟩
  · rw [Stored.commit_ne hback.message_ne_entry, Stored.commit_ne hback.message_ne_entry]
    exact Stored.commit_self rfl
  · rcases hbetween.sides hpair with ⟨rfl, rfl⟩ | ⟨rfl, rfl⟩
    · rw [Stored.commit_ne husers.entry_ne_entry]
      exact Stored.commit_self rfl
    · exact Stored.commit_self rfl
  · have hxy : Users x y := hu.pair hpair
    rw [Stored.commit_ne hxy.message_ne_entry, Stored.commit_ne hxy.message_ne_entry,
      Stored.commit_ne hpath]

/-- No other copy is at the place of the second one. -/
theorem Born.near_ne {m m' : Sent} {id : String} {D' : Stored} (h : Born u v m id D D')
    (hdoc : D m'.near = some m'.data) : m'.near ≠ m.far id := by
  intro heq
  rw [heq, h.absent] at hdoc
  exact absurd hdoc (by simp)

/-- The message of the entries is the newest that does not wait, if those that wait are newer. -/
theorem NewestBut.born {N : List Sent} {m : Sent} {id : String} {D' : Stored} {x y : String}
    (h : NewestBut (m :: N) D x y) (hborn : Born u v m id D D') (hbetween : Between u v m)
    (hpair : Pair u v x y) (hnear : D m.near = some m.data) (hdated : m.data.NotAfter m.data)
    (hnewer : ∀ d, D (entryPath x y) = some d → d.Before m.data)
    (hwaiting : ∀ m' ∈ N, D m'.near = some m'.data ∧ m.data.Before m'.data) :
    NewestBut N D' x y where
  copies id' d hd := by
    rw [hborn.entries x y hpair]
    by_cases hpath : messagePath x y id' = m.far id
    · rw [hpath, hborn.far] at hd
      exact Or.inr ⟨m.data, rfl, Option.some.inj hd ▸ hdated⟩
    · rw [hborn.leave x y id' hpair hpath] at hd
      rcases h.copies id' d hd with ⟨m', hm', heq⟩ | ⟨d', hd', hle⟩
      · rcases List.mem_cons.mp hm' with rfl | hm'
        · rw [← heq, hnear] at hd
          exact Or.inr ⟨_, rfl, Option.some.inj hd ▸ hdated⟩
        · exact Or.inl ⟨m', hm', heq⟩
      · exact Or.inr ⟨_, rfl, hle.trans (hnewer d' hd').notAfter⟩
  entry d hd := by
    rw [hborn.entries x y hpair] at hd
    obtain rfl := Option.some.inj hd
    -- the sender's copy is the first one, the receiver's the second
    rcases hbetween.sides hpair with ⟨rfl, rfl⟩ | ⟨rfl, rfl⟩
    · refine ⟨m.id, (hborn.leave _ _ _ hpair (hborn.near_ne hnear)).trans hnear,
        fun m' hm' heq => ?_⟩
      obtain ⟨hdoc, hbefore⟩ := hwaiting m' hm'
      have heq : m'.near = m.near := heq
      rw [heq, hnear] at hdoc
      rw [← Option.some.inj hdoc] at hbefore
      exact hbefore.not_notAfter hdated
    · exact ⟨id, hborn.far, fun m' hm' => hborn.near_ne (hwaiting m' hm').1⟩

/-- The first copy of a message is acknowledged: it is the oldest of those that wait, and it
becomes the newest of both. -/
theorem Phase.bear (hu : Users u v) {m : Sent} {b : Bool} {id : String}
    (h : Phase u v es D (C ++ (s, .near m, b) :: C'))
    (hfifo : ∀ z ∈ C, z.1 = s → z.2.1.write = none) (hid : drawnId ev = some id)
    (hfresh : id ∉ drawn es) :
    Phase u v (es ++ [ev])
      (((D.commit (.setData (m.far id) m.data)).commit
        (.setData (entryPath m.sender m.receiver) m.data)).commit
        (.setData (entryPath m.receiver m.sender) m.data))
      (C ++ C' ++ [(s, .far m id, true), (s, .entry m.sender m.receiver m.data, true),
        (s, .entry m.receiver m.sender m.data, true)]) := by
  have hmem : (s, Errand.near m, b) ∈ C ++ (s, Errand.near m, b) :: C' := by simp
  obtain ⟨s', hup⟩ : ∃ s', Uploading u v es D (C ++ (s, .near m, b) :: C') s' := by
    obtain ⟨-, hup | ⟨s', x, y, her⟩⟩ := h
    · exact hup
    · exact absurd (her.alone _ hmem).2 (by simp [Errand.clears])
  obtain rfl : s = s' := (hup.alone _ hmem).1
  -- nothing of the conversation is in front: it would be an upload, which writes
  have hnil : C = [] := List.eq_nil_iff_forall_not_mem.mpr fun z hz => by
    obtain ⟨hs, hclears⟩ := hup.alone z (List.mem_append_left _ hz)
    exact Errand.write_of_clears hclears (hfifo z hz hs)
  subst hnil
  rw [List.nil_append] at hup hmem ⊢
  have hnears : nears ((s, Errand.near m, b) :: C') = m :: nears C' := rfl
  have hfirst : m ∈ nears ((s, Errand.near m, b) :: C') := by rw [hnears]; simp
  have hfront := hup.order
  rw [hnears, List.pairwise_cons] at hfront
  obtain ⟨hms, hbetween⟩ := hup.between m hfirst
  have hnear : D m.near = some m.data := hup.stored m hfirst
  have habsent : D (m.far id) = none := by
    by_contra hdoc
    exact hfresh (h.1.ids _ _ _ (Pair.symm hbetween) hdoc)
  have hborn := born_commit hu hbetween habsent
  have hsent : m ∈ sent (es ++ [ev]) := by rw [sent_snoc]; exact List.mem_append_left _ hms
  have hdrawn : id ∈ drawn (es ++ [ev]) := by rw [drawn_snoc, hid]; simp
  have hrest : ∀ m' ∈ nears C', m' ∈ nears ((s, Errand.near m, b) :: C') := fun m' hm' => by
    rw [hnears]; exact List.mem_cons_of_mem _ hm'
  have hnears' : nears (C' ++ [(s, Errand.far m id, true),
      (s, .entry m.sender m.receiver m.data, true), (s, .entry m.receiver m.sender m.data, true)])
      = nears C' := by
    rw [nears_append]
    exact List.append_nil _
  refine ⟨(h.1.snoc ev).store hsent hbetween (fun x y id' hpair => ?_)
    fun x y hpair => Or.inr (hborn.entries x y hpair), Or.inl ⟨s, ?_, ?_, ?_, ?_, ?_, ?_, ?_⟩⟩
  · by_cases hpath : messagePath x y id' = m.far id
    · rw [hpath, (messagePath_inj hpath).2.2]
      exact Or.inr ⟨hdrawn, hborn.far⟩
    · exact Or.inl (hborn.leave x y id' hpair hpath)
  · intro z hz
    simp only [List.mem_append, List.mem_cons, List.not_mem_nil, or_false] at hz
    rcases hz with hz | rfl | rfl | rfl
    · exact hup.alone z (List.mem_cons_of_mem _ hz)
    all_goals exact ⟨rfl, rfl⟩
  · intro m' hm'
    rw [hnears'] at hm'
    exact (hup.snoc ev).between m' (hrest m' hm')
  · rw [hnears']
    exact hfront.2
  · intro m' hm'
    rw [hnears'] at hm'
    obtain ⟨-, hbetween'⟩ := hup.between m' (hrest m' hm')
    have hdoc := hup.stored m' (hrest m' hm')
    exact (hborn.leave _ _ _ hbetween' (hborn.near_ne hdoc)).trans hdoc
  · intro m' hm' x y d hpair hd
    rw [hnears'] at hm'
    rw [hborn.entries x y hpair] at hd
    exact Option.some.inj hd ▸ hfront.1 m' hm'
  · intro x y hpair
    rw [hnears']
    exact (hup.side x y hpair).born hborn hbetween hpair hnear (sent_notAfter hms)
      (fun d hd => hup.newer m hfirst x y d hpair hd)
      fun m' hm' => ⟨hup.stored m' (hrest m' hm'), hfront.1 m' hm'⟩
  · intro _
    rw [hborn.entries u v (Or.inl ⟨rfl, rfl⟩), hborn.entries v u (Or.inr ⟨rfl, rfl⟩)]

/-- A user clears the conversation. -/
theorem Phase.clear (hu : Users u v) (h : Phase u v es D []) {x y : String}
    (hpair : Pair u v x y) (hcleared : Cleared (es ++ [ev]) s x y) :
    Phase u v (es ++ [ev]) (D.commit (.delete (entryPath x y)))
      [(s, .list x y, true), (s, .removeEntry x y, true)] := by
  have hup := h.idle hu s
  have hsound := h.1.snoc ev
  have husers : Users x y := hu.pair hpair
  have hback : Users y x := husers.pair (Or.inr ⟨rfl, rfl⟩)
  have hmessage : ∀ x' y' id, Pair u v x' y' →
      D.commit (.delete (entryPath x y)) (messagePath x' y' id) = D (messagePath x' y' id) :=
    fun x' y' id hpair' => Stored.commit_ne (hu.pair hpair').message_ne_entry
  have hother : D.commit (.delete (entryPath x y)) (entryPath y x) = D (entryPath y x) :=
    Stored.commit_ne hback.entry_ne_entry
  have hnone : D.commit (.delete (entryPath x y)) (entryPath x y) = none := Stored.commit_self rfl
  refine ⟨⟨?_, ?_, ?_⟩, Or.inr ⟨s, x, y, hpair, ?_, hcleared, hnone, ⟨?_, ?_⟩, ?_⟩⟩
  · intro x' y' id hpair' hdoc
    rw [hmessage x' y' id hpair'] at hdoc
    exact hsound.ids x' y' id hpair' hdoc
  · intro x' y' id d hpair' hd
    rw [hmessage x' y' id hpair'] at hd
    exact hsound.copies x' y' id d hpair' hd
  · intro x' y' d hpair' hd
    by_cases hpath : entryPath x' y' = entryPath x y
    · rw [hpath, hnone] at hd
      exact absurd hd (by simp)
    · rw [Stored.commit_ne hpath] at hd
      exact hsound.entries x' y' d hpair' hd
  · intro z hz
    simp only [List.mem_cons, List.not_mem_nil, or_false] at hz
    rcases hz with rfl | rfl <;> exact ⟨rfl, rfl⟩
  · intro id d hd
    rw [hmessage y x id hpair.symm] at hd
    rw [hother]
    exact (hup.side y x hpair.symm).copies id d hd
  · intro d hd
    rw [hother] at hd
    obtain ⟨id, hdoc, hnot⟩ := (hup.side y x hpair.symm).entry d hd
    exact ⟨id, by rw [hmessage y x id hpair.symm]; exact hdoc, hnot⟩
  · refine Or.inl ⟨_, rfl, fun z hz => ?_⟩
    rw [List.mem_singleton.mp hz]

/-- In front of the errand that lists the copies there is nothing. -/
theorem Erasing.front {x y : String} {t : Errand} {b : Bool} {head : S × (Errand × Bool)}
    {rest : List (S × (Errand × Bool))} (hC : C ++ (s', t, b) :: C' = head :: rest)
    (hrest : ∀ z ∈ rest, z.2.1 = .removeEntry x y) (ht : t ≠ .removeEntry x y) :
    C = [] ∧ (s', t, b) = head ∧ C' = rest := by
  cases C with
  | nil => exact ⟨rfl, List.cons.inj hC⟩
  | cons z C =>
    obtain ⟨-, hC⟩ := List.cons.inj hC
    exact absurd (hrest (s', t, b) (hC ▸ by simp)) ht

/-- The copies are listed. -/
theorem Phase.answer {x y : String} {ids : List String}
    (h : Phase u v es D (C ++ (s', .list x y, true) :: C'))
    (hids : (∀ z ∈ C ++ (s', .list x y, true) :: C',
      z.2.1 = .list x y ∨ z.2.1 = .removeEntry x y) →
      ∀ id, D (messagePath x y id) ≠ none → id ∈ ids) :
    Phase u v es D (C ++ (s', .listed x y ids, false) :: C') := by
  have hmem : (s', Errand.list x y, true) ∈ C ++ (s', .list x y, true) :: C' := by simp
  obtain ⟨hsound, ⟨s, hup⟩ | ⟨s, x', y', her⟩⟩ := h
  · exact absurd (hup.alone _ hmem).2 (by simp [Errand.clears])
  · obtain ⟨rfl, hxy⟩ := her.alone _ hmem
    obtain ⟨rfl, rfl⟩ := Prod.mk.inj (Option.some.inj hxy)
    refine ⟨hsound, Or.inr ⟨_, _, _, { her with alone := ?_, copies := ?_ }⟩⟩
    · intro z hz
      simp only [List.mem_append, List.mem_cons] at hz
      rcases hz with hz | rfl | hz
      · exact her.alone z (by simp [hz])
      · exact ⟨rfl, rfl⟩
      · exact her.alone z (by simp [hz])
    · rcases her.copies with ⟨rest, hC, hrest⟩ | ⟨ids', rest, hC, hrest, -⟩ | hnone
      · obtain ⟨rfl, -, rfl⟩ := Erasing.front hC hrest (by simp)
        refine Or.inr (Or.inl ⟨ids, C', rfl, hrest, hids fun z hz => ?_⟩)
        rcases List.mem_cons.mp hz with rfl | hz
        · exact Or.inl rfl
        · exact Or.inr (hrest z hz)
      · obtain ⟨-, heq, -⟩ := Erasing.front hC hrest (by simp)
        exact absurd heq (by simp)
      · exact Or.inr (Or.inr hnone)

/-- The listed copies are deleted. -/
theorem Phase.erase (hu : Users u v) {x y : String} {ids : List String} {D' : Stored} {b : Bool}
    (h : Phase u v es D (C ++ (s', .listed x y ids, b) :: C'))
    (hgone : ∀ id ∈ ids, D' (messagePath x y id) = none)
    (hleave : ∀ path, (∀ id ∈ ids, path ≠ messagePath x y id) → D' path = D path) :
    Phase u v es D' (C ++ C' ++ (ids.map (.remove x y)).map fun t => (s', t, true)) := by
  have hmem : (s', Errand.listed x y ids, b) ∈ C ++ (s', .listed x y ids, b) :: C' := by simp
  obtain ⟨hsound, ⟨s, hup⟩ | ⟨s, x', y', her⟩⟩ := h
  · exact absurd (hup.alone _ hmem).2 (by simp [Errand.clears])
  · obtain ⟨rfl, hxy⟩ := her.alone _ hmem
    obtain ⟨rfl, rfl⟩ := Prod.mk.inj (Option.some.inj hxy)
    have husers : Users x y := hu.pair her.pair
    have hentry : ∀ x' y', D' (entryPath x' y') = D (entryPath x' y') := fun x' y' =>
      hleave _ fun id _ => Ne.symm husers.message_ne_entry
    -- a copy is deleted or as it was
    have hcopies : ∀ x' y' id d, D' (messagePath x' y' id) = some d →
        D (messagePath x' y' id) = some d := by
      intro x' y' id d hd
      by_cases hpath : ∃ id' ∈ ids, messagePath x' y' id = messagePath x y id'
      · obtain ⟨id', hid', heq⟩ := hpath
        rw [heq, hgone id' hid'] at hd
        exact absurd hd (by simp)
      · rw [hleave _ fun id' hid' heq => hpath ⟨id', hid', heq⟩] at hd
        exact hd
    refine ⟨⟨?_, ?_, ?_⟩, Or.inr ⟨_, _, _, her.pair, ?_, her.cleared, ?_, ⟨?_, ?_⟩, ?_⟩⟩
    · intro x' y' id hpair hdoc
      obtain ⟨d, hd⟩ := Option.ne_none_iff_exists'.mp hdoc
      exact hsound.ids x' y' id hpair (by rw [hcopies x' y' id d hd]; simp)
    · exact fun x' y' id d hpair hd => hsound.copies x' y' id d hpair (hcopies x' y' id d hd)
    · intro x' y' d hpair hd
      rw [hentry] at hd
      exact hsound.entries x' y' d hpair hd
    · intro z hz
      simp only [List.mem_append, List.mem_map] at hz
      rcases hz with (hz | hz) | ⟨t, ⟨id, hid, rfl⟩, rfl⟩
      · exact her.alone z (by simp [hz])
      · exact her.alone z (by simp [hz])
      · exact ⟨rfl, rfl⟩
    · rw [hentry]
      exact her.entry
    · intro id d hd
      rw [hentry]
      exact her.other.copies id d (hcopies y x id d hd)
    · intro d hd
      rw [hentry] at hd
      obtain ⟨id, hdoc, hnot⟩ := her.other.entry d hd
      refine ⟨id, ?_, hnot⟩
      rw [hleave _ fun id' _ => Ne.symm husers.message_ne_message]
      exact hdoc
    · refine Or.inr (Or.inr fun id => ?_)
      by_contra hdoc
      obtain ⟨d, hd⟩ := Option.ne_none_iff_exists'.mp hdoc
      have hold := hcopies x y id d hd
      rcases her.copies with ⟨rest, hC, hrest⟩ | ⟨ids', rest, hC, hrest, hall⟩ | hnone
      · obtain ⟨-, heq, -⟩ := Erasing.front hC hrest (by simp)
        exact absurd heq (by simp)
      · obtain ⟨-, heq, -⟩ := Erasing.front hC hrest (by simp)
        obtain ⟨-, -, rfl⟩ := Errand.listed.inj (Prod.mk.inj (Prod.mk.inj heq).2).1
        rw [hgone id (hall id (by rw [hold]; simp))] at hd
        exact absurd hd (by simp)
      · rw [hnone] at hold
        exact absurd hold (by simp)

/-- Any other errand is served, or its callback runs. -/
theorem Phase.replace {t : Errand} {b : Bool} {mid : List (S × (Errand × Bool))}
    (h : Phase u v es D (C ++ (s', t, b) :: C')) (hmid : ∀ z ∈ mid, z.1 = s' ∧ z.2.1 = t)
    (hnears : nears mid = nears [(s', t, b)])
    (ht : ∀ x y, t ≠ .list x y ∧ ∀ ids, t ≠ .listed x y ids) :
    Phase u v es D (C ++ (mid ++ C')) := by
  have hmem : (s', t, b) ∈ C ++ (s', t, b) :: C' := by simp
  have hsame : nears (C ++ (mid ++ C')) = nears (C ++ (s', t, b) :: C') := by
    have hcons : nears ((s', t, b) :: C') = nears [(s', t, b)] ++ nears C' :=
      nears_append (l := [(s', t, b)])
    rw [nears_append, nears_append, nears_append, hnears, hcons]
  have hold : ∀ z ∈ C ++ (mid ++ C'),
      ∃ z' ∈ C ++ (s', t, b) :: C', z'.1 = z.1 ∧ z'.2.1 = z.2.1 := by
    intro z hz
    simp only [List.mem_append] at hz
    rcases hz with hz | hz | hz
    · exact ⟨z, by simp [hz], rfl, rfl⟩
    · exact ⟨_, hmem, (hmid z hz).1.symm, (hmid z hz).2.symm⟩
    · exact ⟨z, by simp [hz], rfl, rfl⟩
  -- in the phase of a deletion this is not the errand in front
  have hback : ∀ head rest, C ++ (s', t, b) :: C' = head :: rest → head.2.1 ≠ t →
      ∃ C₁, C = head :: C₁ ∧ rest = C₁ ++ (s', t, b) :: C' := by
    intro head rest hC hhead
    cases C with
    | nil => exact absurd (congrArg (·.2.1) (List.cons.inj hC).1).symm hhead
    | cons z C₁ =>
      obtain ⟨rfl, rfl⟩ := List.cons.inj hC
      exact ⟨C₁, rfl, rfl⟩
  have hrest : ∀ (x y : String) C₁, (∀ z ∈ C₁ ++ (s', t, b) :: C', z.2.1 = .removeEntry x y) →
      ∀ z ∈ C₁ ++ (mid ++ C'), z.2.1 = .removeEntry x y := by
    intro x y C₁ hall z hz
    simp only [List.mem_append] at hz
    rcases hz with hz | hz | hz
    · exact hall z (by simp [hz])
    · rw [(hmid z hz).2]
      exact hall (s', t, b) (by simp)
    · exact hall z (by simp [hz])
  obtain ⟨hsound, ⟨s, hup⟩ | ⟨s, x, y, her⟩⟩ := h
  · refine ⟨hsound, Or.inl ⟨s, ⟨?_, ?_, ?_, ?_, ?_, ?_, hup.same⟩⟩⟩
    · intro z hz
      obtain ⟨z', hz', hs, htask⟩ := hold z hz
      rw [← hs, ← htask]
      exact hup.alone z' hz'
    all_goals rw [hsame]
    · exact hup.between
    · exact hup.order
    · exact hup.stored
    · exact hup.newer
    · exact hup.side
  · refine ⟨hsound, Or.inr ⟨s, x, y, { her with alone := ?_, copies := ?_ }⟩⟩
    · intro z hz
      obtain ⟨z', hz', hs, htask⟩ := hold z hz
      rw [← hs, ← htask]
      exact her.alone z' hz'
    · rcases her.copies with ⟨rest, hC, hall⟩ | ⟨ids, rest, hC, hall, hids⟩ | hnone
      · obtain ⟨C₁, rfl, rfl⟩ := hback _ _ hC (Ne.symm (ht x y).1)
        exact Or.inl ⟨_, rfl, hrest x y C₁ hall⟩
      · obtain ⟨C₁, rfl, rfl⟩ := hback _ _ hC (Ne.symm ((ht x y).2 ids))
        exact Or.inr (Or.inl ⟨ids, _, rfl, hrest x y C₁ hall, hids⟩)
      · exact Or.inr (Or.inr hnone)

/-! ## What a conversation sees of a step -/

/-- The errands of the conversation. -/
def concerning (u v : String) (errands : List (S × (Errand × Bool))) : List (S × (Errand × Bool)) :=
  errands.filter fun x => decide (x.2.1.Concerns u v)

/-- Its documents once the pending writes are committed. -/
def view (u v : String) (docs : Stored) (errands : List (S × (Errand × Bool))) : Stored :=
  fun path => if pathConcerns u v path then settledDocs docs errands path else none

@[simp] theorem concerning_append :
    concerning u v (l ++ l') = concerning u v l ++ concerning u v l' := List.filter_append ..

theorem concerning_cons_pos {t : Errand} {b : Bool} (h : t.Concerns u v) :
    concerning u v ((s, t, b) :: l) = (s, t, b) :: concerning u v l :=
  List.filter_cons_of_pos (by simpa using h)

theorem concerning_cons_neg {t : Errand} {b : Bool} (h : ¬ t.Concerns u v) :
    concerning u v ((s, t, b) :: l) = concerning u v l :=
  List.filter_cons_of_neg (by simpa using h)

theorem concerning_nil_of {l : List (S × (Errand × Bool))} (h : ∀ x ∈ l, ¬ x.2.1.Concerns u v) :
    concerning u v l = [] := List.filter_eq_nil_iff.mpr (by simpa using h)

theorem mem_concerning {x : S × (Errand × Bool)} :
    x ∈ concerning u v errands ↔ x ∈ errands ∧ x.2.1.Concerns u v := by
  simp [concerning]

theorem view_of_concerns {path : Path} (h : pathConcerns u v path = true) :
    view u v docs errands path = settledDocs docs errands path := if_pos h

/-- Only what is settled of the conversation is seen. -/
theorem view_congr {docs' : Stored} {errands' : List (S × (Errand × Bool))}
    (h : ∀ path, pathConcerns u v path = true →
      settledDocs docs' errands' path = settledDocs docs errands path) :
    view u v docs' errands' = view u v docs errands := by
  funext path
  unfold view
  split
  next hpath => exact h path hpath
  next => rfl

/-- A write of the conversation is issued. -/
theorem view_issue {t : Errand} {w : Write} (hwrite : t.write = some w) (hnamed : t.Named)
    (hconcerns : t.Concerns u v) :
    view u v docs (errands ++ [(s, t, true)]) = (view u v docs errands).commit w := by
  have hw : pathConcerns u v w.path = true := by
    rw [Errand.pathConcerns_write hwrite hnamed]
    simpa using hconcerns
  funext path
  unfold view Stored.commit
  rw [settledDocs_append, settledFrom_cons, if_pos rfl, settledFrom_nil,
    Errand.effect_of_write hwrite]
  by_cases hpath : path = w.path
  · rw [if_pos hpath, if_pos hpath.symm, hpath]
    simp only [hw, if_true]
  · rw [if_neg hpath, if_neg (Ne.symm hpath)]

/-- Errands about other conversations are not seen. -/
theorem view_foreign {new : List (S × (Errand × Bool))} (hnamed : ∀ x ∈ new, x.2.1.Named)
    (hforeign : ∀ x ∈ new, ¬ x.2.1.Concerns u v) :
    view u v docs (errands ++ new) = view u v docs errands := by
  refine view_congr fun path hpath => ?_
  rw [settledDocs_append]
  refine settledFrom_quiet fun x hx _ w hw heq => ?_
  have hconcerns := Errand.pathConcerns_write (u := u) (v := v) hw (hnamed x hx)
  rw [heq, hpath] at hconcerns
  exact hforeign x hx (by simpa using hconcerns)

/-- One session is at work. -/
theorem Phase.alone (h : Phase u v es D C) {x y : S × (Errand × Bool)} (hx : x ∈ C) (hy : y ∈ C) :
    x.1 = y.1 := by
  obtain ⟨-, ⟨s, hup⟩ | ⟨s, x', y', her⟩⟩ := h
  · rw [(hup.alone x hx).1, (hup.alone y hy).1]
  · rw [(her.alone x hx).1, (her.alone y hy).1]

/-- `InTurn`, of the errands. -/
def TurnOf (u v : String) (errands : List (S × (Errand × Bool))) : AppEvent S MessageAction → Prop
  | .invoke s a e =>
    ∀ uid ∈ e.currentUid, Pair u v uid a.partner →
      match a with
      | .uploadMessage _ _ => ∀ z ∈ concerning u v errands, z.1 = s ∧ z.2.1.clears = none
      | .deleteMessages _ => concerning u v errands = []
  | .serve i o => ∀ z ∈ errands[i]?, z.2.1.Concerns u v → o.isSuccess = true
  | _ => True

/-- What a deletion issues for the copies it has listed. -/
theorem settledDocs_remove {x y : String} (ids : List String) (path : Path) (d : Option Doc) :
    (path ∈ ids.map (messagePath x y) →
      settledFrom ((ids.map (.remove x y)).map fun t => (s, t, true)) path d = none)
    ∧ (path ∉ ids.map (messagePath x y) →
      settledFrom ((ids.map (.remove x y)).map fun t => (s, t, true)) path d = d) := by
  constructor
  · intro hmem
    induction ids generalizing d with
    | nil => exact absurd hmem List.not_mem_nil
    | cons id ids ih =>
      rw [List.map_cons, List.map_cons, settledFrom_cons, if_pos rfl,
        Errand.effect_of_write (w := .delete (messagePath x y id)) rfl]
      by_cases hrest : path ∈ ids.map (messagePath x y)
      · exact ih _ hrest
      · have hpath : messagePath x y id = path := by
          rcases List.mem_cons.mp hmem with heq | hmem
          · exact heq.symm
          · exact absurd hmem hrest
        rw [Write.path_delete, if_pos hpath]
        refine settledFrom_quiet fun z hz _ w hw heq => ?_
        obtain ⟨t, ht, rfl⟩ := List.mem_map.mp hz
        obtain ⟨id', hid', rfl⟩ := List.mem_map.mp ht
        obtain rfl := Option.some.inj hw
        exact hrest (heq ▸ List.mem_map_of_mem hid')
  · intro hmem
    refine settledFrom_quiet fun z hz _ w hw heq => ?_
    obtain ⟨t, ht, rfl⟩ := List.mem_map.mp hz
    obtain ⟨id', hid', rfl⟩ := List.mem_map.mp ht
    obtain rfl := Option.some.inj hw
    exact hmem (heq ▸ List.mem_map_of_mem hid')

/-- A message is sent, as the conversation sees it. -/
theorem Phase.mail_send (hu : Users u v) (h : Phase u v es (view u v docs errands)
      (concerning u v errands)) {m : Sent} (hm : (Errand.near m).Named)
    (hturn : Between u v m → ∀ z ∈ concerning u v errands, z.1 = s ∧ z.2.1.clears = none)
    (hev : sentBy ev = some m) (hid : drawnId ev = some m.id) (hfresh : m.id ∉ drawn es)
    (hclock : Clocked u v (es ++ [ev])) :
    Phase u v (es ++ [ev]) (view u v docs (errands ++ [(s, .near m, true)]))
      (concerning u v (errands ++ [(s, .near m, true)])) := by
  rw [concerning_append]
  by_cases hbetween : Between u v m
  · have hconcerns : (Errand.near m).Concerns u v := hbetween
    rw [concerning_cons_pos hconcerns, view_issue rfl hm hconcerns]
    refine h.send hu (hturn hbetween) hbetween hev hid hfresh fun m' hm' hbetween' => ?_
    unfold Clocked at hclock
    rw [sent_snoc, hev, List.filter_append, List.pairwise_append] at hclock
    exact hclock.2.2 m' (List.mem_filter.mpr ⟨hm', decide_eq_true hbetween'⟩) m
      (List.mem_filter.mpr ⟨by simp, decide_eq_true hbetween⟩)
  · have hforeign : ¬ (Errand.near m).Concerns u v := hbetween
    rw [concerning_cons_neg hforeign, view_foreign]
    · rw [show concerning u v ([] : List (S × (Errand × Bool))) = [] from rfl, List.append_nil]
      exact h.snoc ev
    · exact fun x hx => by rw [List.mem_singleton.mp hx]; exact hm
    · exact fun x hx => by rw [List.mem_singleton.mp hx]; exact hforeign

/-- A conversation is cleared. -/
theorem Phase.mail_clear (hu : Users u v) (h : Phase u v es (view u v docs errands)
      (concerning u v errands)) {x y : String} (hn : (Errand.removeEntry x y).Named)
    (hturn : Pair u v x y → concerning u v errands = [])
    (hcleared : Cleared (es ++ [ev]) s x y) :
    Phase u v (es ++ [ev])
      (view u v docs (errands ++ [(s, .list x y, true), (s, .removeEntry x y, true)]))
      (concerning u v (errands ++ [(s, .list x y, true), (s, .removeEntry x y, true)])) := by
  rw [concerning_append]
  by_cases hpair : Pair u v x y
  · have hlist : (Errand.list x y).Concerns u v := hpair
    have hremove : (Errand.removeEntry x y).Concerns u v := hpair
    have hsplit : errands ++ [(s, Errand.list x y, true), (s, .removeEntry x y, true)]
        = errands ++ [(s, .list x y, true)] ++ [(s, .removeEntry x y, true)] := by simp
    have hview : view u v docs (errands ++ [(s, .list x y, true)]) = view u v docs errands :=
      view_congr fun path _ => settledDocs_append _ path
    rw [concerning_cons_pos hlist, concerning_cons_pos hremove, hturn hpair, hsplit,
      view_issue rfl hn hremove, hview]
    rw [hturn hpair] at h
    exact h.clear hu hpair hcleared
  · have hforeign : ∀ z ∈ [(s, Errand.list x y, true), (s, .removeEntry x y, true)],
        ¬ z.2.1.Concerns u v := by
      intro z hz
      simp only [List.mem_cons, List.not_mem_nil, or_false] at hz
      rcases hz with rfl | rfl <;> exact hpair
    rw [view_foreign _ hforeign, concerning_nil_of hforeign, List.append_nil]
    · exact h.snoc ev
    · intro z hz
      simp only [List.mem_cons, List.not_mem_nil, or_false] at hz
      rcases hz with rfl | rfl <;> exact hn

/-- A write is committed. -/
theorem Phase.mail_commit {t : Errand} {w : Write} (hwrite : t.write = some w)
    (hfifo : ∀ x ∈ l, x.1 = s → x.2.2 = true → x.2.1.write = none)
    (hnamed : ∀ x ∈ l ++ (s, t, true) :: l', x.2.1.Named)
    (h : Phase u v es (view u v docs (l ++ (s, t, true) :: l'))
      (concerning u v (l ++ (s, t, true) :: l'))) :
    Phase u v es (view u v (docs.commit w) (l ++ (s, t, false) :: l'))
      (concerning u v (l ++ (s, t, false) :: l')) := by
  have hconcerns : ∀ path, pathConcerns u v path = true → ∀ x ∈ l ++ (s, t, true) :: l', ∀ w',
      x.2.1.write = some w' → w'.path = path → x ∈ concerning u v (l ++ (s, t, true) :: l') := by
    intro path hpath x hx w' hw' heq
    have hdecide := Errand.pathConcerns_write (u := u) (v := v) hw' (hnamed x hx)
    rw [heq, hpath] at hdecide
    exact mem_concerning.mpr ⟨hx, of_decide_eq_true hdecide.symm⟩
  have hmem : (s, t, true) ∈ l ++ (s, t, true) :: l' := by simp
  have hsame : view u v (docs.commit w) (l ++ (s, t, false) :: l')
      = view u v docs (l ++ (s, t, true) :: l') := by
    refine view_congr fun path hpath => settledDocs_commit hwrite hfifo ?_
    intro heq x hx w' hw' heq'
    exact h.alone (hconcerns path hpath x (List.mem_append_left _ hx) w' hw' heq')
      (hconcerns path hpath _ hmem w hwrite heq)
  rw [hsame]
  rw [concerning_append] at h ⊢
  by_cases ht : t.Concerns u v
  · rw [concerning_cons_pos ht] at h ⊢
    show Phase u v es _ (concerning u v l ++ ([(s, t, false)] ++ concerning u v l'))
    refine h.replace ?_ rfl fun x y => ?_
    · intro z hz
      rw [List.mem_singleton.mp hz]
      exact ⟨rfl, rfl⟩
    · refine ⟨?_, fun ids => ?_⟩
      · rintro rfl
        exact absurd hwrite (by simp [Errand.write])
      · rintro rfl
        exact absurd hwrite (by simp [Errand.write])
  · rw [concerning_cons_neg ht] at h ⊢
    exact h

/-- Copies are listed. -/
theorem Phase.mail_answer (hu : Users u v) {x y : String} {ids : List String}
    (hnamed : ∀ z ∈ l ++ (s, .list x y, true) :: l', z.2.1.Named)
    (hids : Pair u v x y → ∀ id, id ∈ ids ↔ (docs (messagePath x y id)).isSome = true)
    (h : Phase u v es (view u v docs (l ++ (s, .list x y, true) :: l'))
      (concerning u v (l ++ (s, .list x y, true) :: l'))) :
    Phase u v es (view u v docs (l ++ (s, .listed x y ids, false) :: l'))
      (concerning u v (l ++ (s, .listed x y ids, false) :: l')) := by
  have hsame : view u v docs (l ++ (s, .listed x y ids, false) :: l')
      = view u v docs (l ++ (s, .list x y, true) :: l') := by
    refine view_congr fun path _ => ?_
    unfold settledDocs
    rw [settledFrom_append, settledFrom_append]
    rfl
  rw [hsame, concerning_append]
  by_cases hpair : Pair u v x y
  · have hlist : (Errand.list x y).Concerns u v := hpair
    have hlisted : (Errand.listed x y ids).Concerns u v := hpair
    have hall : concerning u v (l ++ (s, .list x y, true) :: l')
        = concerning u v l ++ (s, .list x y, true) :: concerning u v l' := by
      rw [concerning_append, concerning_cons_pos hlist]
    rw [concerning_cons_pos hlisted]
    rw [hall] at h
    refine h.answer fun honly id hdoc => ?_
    have husers : Users x y := hu.pair hpair
    have hpath : pathConcerns u v (messagePath x y id) = true := by
      rw [pathConcerns_message husers.snd]
      exact decide_eq_true hpair
    rw [view_of_concerns hpath] at hdoc
    -- no write of a copy is pending
    have hquiet : settledDocs docs (l ++ (s, .list x y, true) :: l') (messagePath x y id)
        = docs (messagePath x y id) := by
      refine settledFrom_quiet fun z hz _ w hw heq => ?_
      have hdecide := Errand.pathConcerns_write (u := u) (v := v) hw (hnamed z hz)
      rw [heq, hpath] at hdecide
      have hz' := mem_concerning.mpr ⟨hz, of_decide_eq_true hdecide.symm⟩
      rw [hall] at hz'
      rcases honly z hz' with htask | htask
      · rw [htask] at hw
        exact absurd hw (by simp [Errand.write])
      · rw [htask] at hw
        obtain rfl := Option.some.inj hw
        exact husers.message_ne_entry heq.symm
    rw [hquiet] at hdoc
    exact (hids hpair id).mpr (Option.isSome_iff_ne_none.mpr hdoc)
  · have hlist : ¬ (Errand.list x y).Concerns u v := hpair
    have hlisted : ¬ (Errand.listed x y ids).Concerns u v := hpair
    rw [concerning_append, concerning_cons_neg hlist] at h
    rw [concerning_cons_neg hlisted]
    exact h

/-- An errand and those it leads to concern the same conversation. -/
theorem concerns_next {t t' : Errand} {id : String} (ht' : t' ∈ t.next id) :
    t'.Concerns u v ↔ t.Concerns u v := by
  cases t with
  | near m =>
    simp only [Errand.next, List.mem_cons, List.not_mem_nil, or_false] at ht'
    rcases ht' with rfl | rfl | rfl
    · exact Iff.rfl
    · exact Iff.rfl
    · exact pair_comm
  | listed x y ids =>
    obtain ⟨id', -, rfl⟩ := List.mem_map.mp ht'
    exact Iff.rfl
  | _ => exact absurd ht' List.not_mem_nil

/-- The callback of the sender's copy issues the other copy and the two entries. -/
theorem Phase.resume_near (hu : Users u v) {m : Sent} {id : String}
    (hconcerns : (Errand.near m).Concerns u v)
    (hfifo : ∀ x ∈ l, x.1 = s → x.2.1.write = none)
    (hnext : ∀ t' ∈ (Errand.near m).next id, t'.Named) (hid : drawnId ev = some id)
    (hfresh : id ∉ drawn es)
    (h : Phase u v es (view u v docs (l ++ l'))
      (concerning u v l ++ (s, .near m, false) :: concerning u v l')) :
    let issued := ((Errand.near m).next id).map fun t' => (s, t', true)
    Phase u v (es ++ [ev]) (view u v docs (l ++ l' ++ issued))
      (concerning u v l ++ concerning u v l' ++ issued) := by
  intro issued
  have hfar : (Errand.far m id).Concerns u v := hconcerns
  have hentry : (Errand.entry m.sender m.receiver m.data).Concerns u v := hconcerns
  have hentry' : (Errand.entry m.receiver m.sender m.data).Concerns u v := Pair.symm hconcerns
  have hsplit : l ++ l' ++ issued
      = l ++ l' ++ [(s, .far m id, true)] ++ [(s, .entry m.sender m.receiver m.data, true)]
        ++ [(s, .entry m.receiver m.sender m.data, true)] := by simp [issued, Errand.next]
  have hnamed := hnext (.far m id) (by simp [Errand.next])
  have hnamed₁ := hnext (.entry m.sender m.receiver m.data) (by simp [Errand.next])
  have hnamed₂ := hnext (.entry m.receiver m.sender m.data) (by simp [Errand.next])
  rw [hsplit, view_issue rfl hnamed₂ hentry', view_issue rfl hnamed₁ hentry,
    view_issue rfl hnamed hfar]
  refine h.bear hu (fun z hz hs => ?_) hid hfresh
  exact hfifo z (mem_concerning.mp hz).1 hs

/-- The callback of the listing issues the deletions of what was listed. -/
theorem Phase.resume_listed (hu : Users u v) {x y : String} {ids : List String}
    (hconcerns : (Errand.listed x y ids).Concerns u v)
    (h : Phase u v es (view u v docs (l ++ l'))
      (concerning u v l ++ (s, .listed x y ids, false) :: concerning u v l')) :
    let issued := (ids.map (.remove x y)).map fun t' => (s, t', true)
    Phase u v (es ++ [ev]) (view u v docs (l ++ l' ++ issued))
      (concerning u v l ++ concerning u v l' ++ issued) := by
  intro issued
  refine (h.snoc ev).erase hu (fun id' hid' => ?_) fun path hpath => ?_
  · have hpath : pathConcerns u v (messagePath x y id') = true := by
      have husers : Users x y := hu.pair hconcerns
      rw [pathConcerns_message husers.snd]
      exact decide_eq_true hconcerns
    rw [view_of_concerns hpath, settledDocs_append]
    exact (settledDocs_remove ids _ _).1 (List.mem_map_of_mem hid')
  · have hleave := (settledDocs_remove (s := s) (x := x) (y := y) ids path
      (settledDocs docs (l ++ l') path)).2 (by
        intro hmem
        obtain ⟨id', hid', rfl⟩ := List.mem_map.mp hmem
        exact hpath id' hid' rfl)
    unfold view
    rw [settledDocs_append]
    split
    next => exact hleave
    next => rfl

/-- A callback runs. -/
theorem Phase.mail_resume (hu : Users u v) {t : Errand} {id : String}
    (hlist : ∀ owner partner, t ≠ .list owner partner)
    (hfifo : t.write.isSome → ∀ x ∈ l, x.1 = s → x.2.1.write = none)
    (hnext : ∀ t' ∈ t.next id, t'.Named) (hid : drawnId ev = some id) (hfresh : id ∉ drawn es)
    (h : Phase u v es (view u v docs (l ++ (s, t, false) :: l'))
      (concerning u v (l ++ (s, t, false) :: l'))) :
    Phase u v (es ++ [ev]) (view u v docs (l ++ l' ++ (t.next id).map fun t' => (s, t', true)))
      (concerning u v (l ++ l' ++ (t.next id).map fun t' => (s, t', true))) := by
  have hdone : view u v docs (l ++ (s, t, false) :: l') = view u v docs (l ++ l') :=
    view_congr fun path _ => settledDocs_done s t path
  rw [hdone, concerning_append] at h
  rw [concerning_append, concerning_append]
  by_cases hconcerns : t.Concerns u v
  · rw [concerning_cons_pos hconcerns] at h
    have hissued : concerning u v ((t.next id).map fun t' => (s, t', true))
        = (t.next id).map fun t' => (s, t', true) := by
      refine List.filter_eq_self.mpr fun z hz => ?_
      obtain ⟨t', ht', rfl⟩ := List.mem_map.mp hz
      exact decide_eq_true ((concerns_next ht').mpr hconcerns)
    rw [hissued]
    cases t with
    | near m => exact h.resume_near hu hconcerns (hfifo rfl) hnext hid hfresh
    | listed x y ids => exact h.resume_listed hu hconcerns
    | list x y => exact absurd rfl (hlist x y)
    | far | entry | remove | removeEntry =>
      show Phase u v _ (view u v docs (l ++ l' ++ []))
        (concerning u v l ++ concerning u v l' ++ [])
      rw [List.append_nil, List.append_nil]
      show Phase u v _ _ (concerning u v l ++ ([] ++ concerning u v l'))
      exact (h.snoc ev).replace (by simp) rfl fun x y => ⟨by simp, by simp⟩
  · rw [concerning_cons_neg hconcerns] at h
    have hforeign : ∀ z ∈ (t.next id).map fun t' => (s, t', true), ¬ z.2.1.Concerns u v := by
      intro z hz
      obtain ⟨t', ht', rfl⟩ := List.mem_map.mp hz
      exact fun hc => hconcerns ((concerns_next ht').mp hc)
    rw [view_foreign _ hforeign, concerning_nil_of hforeign, List.append_nil]
    · exact h.snoc ev
    · intro z hz
      obtain ⟨t', ht', rfl⟩ := List.mem_map.mp hz
      exact hnext t' ht'

/-- **A step of the errands, as the conversation sees it.** -/
theorem Phase.mail (hu : Users u v) {docs' : Stored} {errands' : List (S × (Errand × Bool))}
    {out : Option (S × Write)} (hmail : Mail docs errands ev out docs' errands')
    (hnamed : ∀ x ∈ errands, x.2.1.Named) (hnamed' : ∀ x ∈ errands', x.2.1.Named)
    (hturn : TurnOf u v errands ev) (hnew : (drawn (es ++ [ev])).Nodup)
    (hclock : Clocked u v (es ++ [ev]))
    (h : Phase u v es (view u v docs errands) (concerning u v errands)) :
    Phase u v (es ++ [ev]) (view u v docs' errands') (concerning u v errands') := by
  have hfresh : ∀ id, drawnId ev = some id → id ∉ drawn es := by
    intro id hid hmem
    rw [drawn_snoc, hid] at hnew
    exact List.disjoint_of_nodup_append hnew hmem (List.mem_singleton_self _)
  cases hmail with
  | idle hout => exact h.snoc _
  | send hin =>
    rename_i s message user e uid
    refine h.mail_send hu (hnamed' (s, _, true) (by simp)) (fun hbetween => ?_) ?_ rfl
      (hfresh _ rfl) hclock
    · exact hturn uid hin hbetween
    · simp [sentBy, hin]
  | clear hin =>
    rename_i s user e uid
    exact h.mail_clear hu (hnamed' (s, _, true) (by simp)) (fun hpair => hturn uid hin hpair)
      ⟨user, e, by simp, hin, rfl⟩
  | commit hi hwrite hfifo => exact (h.mail_commit hwrite hfifo hnamed).snoc _
  | answer hi hids =>
    rename_i l l' s i o x y ids
    refine (h.mail_answer hu hnamed fun hpair => ?_).snoc _
    have hsuccess : o.isSuccess = true := hturn (s, .list x y, true) (by rw [hi]; simp) hpair
    rcases hids with ⟨-, hfailed⟩ | hids
    · rw [hsuccess] at hfailed
      exact absurd hfailed (by simp)
    · exact hids
  | resume ht hfifo =>
    rename_i l l' s i e t
    refine h.mail_resume hu ht hfifo (fun t' ht' => ?_) rfl (hfresh _ rfl)
    exact hnamed' (s, t', true) (List.mem_append_right _ (List.mem_map_of_mem ht'))

/-! ## Runs of the app -/

variable [DecidableEq S]

/-- May the run take this step? -/
def TakesTurns (u v : String) (w : AppWorld String S) (ev : AppEvent S MessageAction) : Prop :=
  MailOk w ev ∧ InTurn u v w ev

instance (u v : String) (w : AppWorld String S) (ev : AppEvent S MessageAction) :
    Decidable (TakesTurns u v w ev) :=
  inferInstanceAs (Decidable (_ ∧ _))

omit [DecidableEq S] in
/-- The calls of a world take turns if their errands do. -/
theorem turnOf_of_inTurn {w : AppWorld String S} (hat : Errands w.pool errands)
    (hnamed : ∀ x ∈ errands, x.2.1.Named) (h : InTurn u v w ev) : TurnOf u v errands ev := by
  have hflight : ∀ z ∈ concerning u v errands, ∃ fl, (z.1, fl) ∈ w.pool
      ∧ fl.req.concerns u v = true ∧ fl.req.clears = z.2.1.clears.isSome := by
    intro z hz
    obtain ⟨hmem, hconcerns⟩ := mem_concerning.mp hz
    obtain ⟨fl, hfl, hz'⟩ := hat.mem hmem
    obtain ⟨hreq, hclears⟩ := hz'.concerns (u := u) (v := v) (hnamed z hmem)
    exact ⟨fl, hfl, hreq.trans (decide_eq_true hconcerns), hclears⟩
  cases ev with
  | invoke s a e =>
    intro uid huid hpair
    cases a with
    | uploadMessage message user =>
      intro z hz
      obtain ⟨fl, hfl, hreq, hclears⟩ := hflight z hz
      obtain ⟨hs, hnot⟩ := h uid huid hpair (z.1, fl) hfl hreq
      rw [hclears] at hnot
      exact ⟨hs, Option.not_isSome_iff_eq_none.mp (by simp [hnot])⟩
    | deleteMessages user =>
      refine List.eq_nil_iff_forall_not_mem.mpr fun z hz => ?_
      obtain ⟨fl, hfl, hreq, -⟩ := hflight z hz
      have hnot := h uid huid hpair (z.1, fl) hfl
      rw [hreq] at hnot
      exact absurd hnot (by simp)
  | serve i o =>
    intro z hz hconcerns
    obtain ⟨hi, hget⟩ := List.getElem?_eq_some_iff.mp hz
    have hsplit : errands = errands.take i ++ z :: errands.drop (i + 1) := by
      rw [← hget, List.getElem_cons_drop, List.take_append_drop]
    rw [hsplit] at hat
    obtain ⟨fl, hfl, hz'⟩ := errands_flight hat
    rw [List.length_take, Nat.min_eq_left (Nat.le_of_lt hi)] at hfl
    refine h (z.1, fl) hfl ?_
    rw [(hz'.concerns (u := u) (v := v) (hnamed z (List.mem_of_getElem? hz))).1]
    exact decide_eq_true hconcerns
  | deliver i e => trivial
  | drop i => trivial

omit [DecidableEq S] in
theorem Clocked.of_snoc (h : Clocked u v (es ++ [ev])) : Clocked u v es := by
  unfold Clocked at h ⊢
  rw [sent_snoc, List.filter_append, List.pairwise_append] at h
  exact h.1

omit [DecidableEq S] in
/-- Before anything is sent. -/
theorem phase_of_empty
    (hstart : ∀ x y, Pair u v x y → docs (entryPath x y) = none
      ∧ ∀ id, docs (messagePath x y id) = none) (s : S) :
    Phase u v ([] : List (AppEvent S MessageAction))
      (view u v docs ([] : List (S × (Errand × Bool)))) (concerning u v []) := by
  have hdocs : ∀ path, view u v docs ([] : List (S × (Errand × Bool))) path = none
      ∨ view u v docs ([] : List (S × (Errand × Bool))) path = docs path := by
    intro path
    unfold view
    split
    next => exact Or.inr rfl
    next => exact Or.inl rfl
  have hentry : ∀ x y, Pair u v x y →
      view u v docs ([] : List (S × (Errand × Bool))) (entryPath x y) = none := fun x y hpair =>
    (hdocs _).elim id fun heq => heq.trans (hstart x y hpair).1
  have hmessage : ∀ x y id, Pair u v x y →
      view u v docs ([] : List (S × (Errand × Bool))) (messagePath x y id) = none :=
    fun x y id hpair => (hdocs _).elim (fun h => h) fun heq => heq.trans ((hstart x y hpair).2 id)
  refine ⟨⟨?_, ?_, ?_⟩, Or.inl ⟨s, ?_, ?_, .nil, ?_, ?_, ?_, ?_⟩⟩
  · exact fun x y id hpair hdoc => absurd (hmessage x y id hpair) hdoc
  · exact fun x y id d hpair hd => absurd hd (by rw [hmessage x y id hpair]; simp)
  · exact fun x y d hpair hd => absurd hd (by rw [hentry x y hpair]; simp)
  · exact fun z hz => absurd hz List.not_mem_nil
  · exact fun m hm => absurd hm List.not_mem_nil
  · exact fun m hm => absurd hm List.not_mem_nil
  · exact fun m hm => absurd hm List.not_mem_nil
  · refine fun x y hpair => ⟨fun id d hd => ?_, fun d hd => ?_⟩
    · exact absurd hd (by rw [hmessage x y id hpair]; simp)
    · exact absurd hd (by rw [hentry x y hpair]; simp)
  · exact fun _ => (hentry u v (Or.inl ⟨rfl, rfl⟩)).trans (hentry v u (Or.inr ⟨rfl, rfl⟩)).symm

/-- Along every run the conversation is in one of its phases. -/
theorem phase_of_run (hu : Users u v) {w₀ w : AppWorld String S} (hrest : w₀.Quiescent)
    (run : Run api MessageAction.program (TakesTurns u v) w₀ es w)
    (hnew : NeverRepeated w₀.backend.docs.lookup es)
    (hstart : ∀ x y, Pair u v x y → w₀.backend.docs.lookup (entryPath x y) = none
      ∧ ∀ id, w₀.backend.docs.lookup (messagePath x y id) = none)
    (hclock : Clocked u v es) (s : S) :
    ∃ errands, Errands w.pool errands
      ∧ Phase u v es (view u v w.backend.docs.lookup errands) (concerning u v errands) := by
  have hrun : ∃ errands log, Errands w.pool errands
      ∧ MailRun w₀.backend.docs.lookup es log w.backend.docs.lookup errands
      ∧ (∀ ev ∈ es, Unreserved ev)
      ∧ Phase u v es (view u v w.backend.docs.lookup errands) (concerning u v errands) := by
    induction run with
    | nil =>
      refine ⟨[], [], ?_, .nil, by simp, phase_of_empty hstart s⟩
      rw [hrest]
      exact .nil
    | snoc run hev hstep ih =>
      rename_i es w w' ev
      obtain ⟨errands, log, hat, hmails, hnames, h⟩ := ih hnew.of_snoc hclock.of_snoc
      obtain ⟨errands', out, hat', hmail, -⟩ :=
        mail_of_stepped hat hev.1.1 (stepped_of_step hstep)
      have hnames' : ∀ ev' ∈ es ++ [ev], Unreserved ev' := by
        intro ev' hev'
        rcases List.mem_append.mp hev' with hev' | hev'
        · exact hnames ev' hev'
        · rw [List.mem_singleton.mp hev']
          exact hev.1.2
      have hmails' := hmails.snoc hmail
      have hnamed := named_of_mailRun hmails hnames
      refine ⟨errands', _, hat', hmails', hnames', h.mail hu hmail hnamed
        (named_of_mailRun hmails' hnames') (turnOf_of_inTurn hat hnamed hev.2) hnew.1 hclock⟩
  obtain ⟨errands, log, hat, -, -, h⟩ := hrun
  exact ⟨errands, hat, h⟩

/-- **The entries are the newest messages** when the calls of the conversation take turns:
whenever nothing is in flight, each of the two has an entry exactly if they have messages,
and it is the newest of those; and as long as neither has deleted anything, it is the same. -/
theorem entries_newest {w₀ w : AppWorld String S} (hrest : w₀.Quiescent) {u v : String}
    (run : Run api MessageAction.program (TakesTurns u v) w₀ es w)
    (hnew : NeverRepeated w₀.backend.docs.lookup es) (hquiet : w.Quiescent)
    (hnames : u ≠ v ∧ u ≠ recentMessages ∧ v ≠ recentMessages)
    (hstart : ∀ x y, Pair u v x y → w₀.backend.docs.lookup (entryPath x y) = none
      ∧ ∀ id, w₀.backend.docs.lookup (messagePath x y id) = none)
    (hclock : Clocked u v es) :
    EntryIsNewest w.backend.docs.lookup u v ∧ EntryIsNewest w.backend.docs.lookup v u
      ∧ ((∀ s x y, Pair u v x y → ¬ Cleared es s x y) →
        w.backend.docs.lookup (entryPath u v) = w.backend.docs.lookup (entryPath v u)) := by
  have hu : Users u v := ⟨hnames.1, hnames.2.1, hnames.2.2⟩
  -- some session: without any there is no step
  obtain hnil | ⟨⟨s⟩⟩ : w = w₀ ∨ Nonempty S := by
    cases run with
    | nil => exact Or.inl rfl
    | snoc run hev hstep =>
      cases stepped_of_step hstep with
      | invoke s => exact Or.inr ⟨s⟩
      | serve | deliver | drop => exact Or.inr ⟨by assumption⟩
  · rw [hnil]
    have huv : Pair u v u v := Or.inl ⟨rfl, rfl⟩
    refine ⟨.of_empty (hstart u v huv), .of_empty (hstart v u huv.symm), fun _ => ?_⟩
    rw [(hstart u v huv).1, (hstart v u huv.symm).1]
  obtain ⟨errands, hat, h⟩ := phase_of_run hu hrest run hnew hstart hclock s
  rw [hquiet] at hat
  cases hat
  -- nothing is pending, so what is settled is what is stored
  have hentry : ∀ x y, Pair u v x y →
      view u v w.backend.docs.lookup ([] : List (S × (Errand × Bool))) (entryPath x y)
      = w.backend.docs.lookup (entryPath x y) := fun x y hpair =>
    view_of_concerns (by rw [pathConcerns_entry]; exact decide_eq_true hpair)
  have hmessage : ∀ x y id, Pair u v x y →
      view u v w.backend.docs.lookup ([] : List (S × (Errand × Bool))) (messagePath x y id)
      = w.backend.docs.lookup (messagePath x y id) := fun x y id hpair =>
    view_of_concerns (by
      rw [pathConcerns_message (hu.pair hpair).snd]
      exact decide_eq_true hpair)
  have hidle := h.idle hu s
  have hside : ∀ x y, Pair u v x y → EntryIsNewest w.backend.docs.lookup x y := by
    intro x y hpair
    have hnewest := NewestBut.entryIsNewest (hidle.side x y hpair)
    unfold EntryIsNewest at hnewest ⊢
    simpa only [hentry x y hpair, hmessage x y _ hpair] using hnewest
  have huv : Pair u v u v := Or.inl ⟨rfl, rfl⟩
  refine ⟨hside u v huv, hside v u huv.symm, fun hnever => ?_⟩
  have hsame := hidle.same hnever
  rwa [hentry u v huv, hentry v u huv.symm] at hsame

end Entries

/-! ## Two runs -/

/-- A turn of the account `uid` at the time `now` that draws the identifier `id`. -/
def turnAt (uid id : String) (now : Int) : Turn := { turnWith uid id with now := ⟨now, 0⟩ }

/-- `u` writes to `v` twice, without waiting for an answer. -/
def writeTwice : List (AppEvent String MessageAction) :=
  [.invoke "a" (.uploadMessage "hi" (chatPartner "v")) (turnAt "u" "i1" 1),
    .invoke "a" (.uploadMessage "bye" (chatPartner "v")) (turnAt "u" "i2" 2),
    .serve 0 (.success []), .serve 1 (.success []),
    .deliver 0 (turnAt "u" "i3" 3), .deliver 0 (turnAt "u" "i4" 3),
    .serve 0 (.success []), .serve 1 (.success []), .serve 2 (.success []),
    .serve 3 (.success []), .serve 4 (.success []), .serve 5 (.success []),
    .deliver 0 (turnAt "u" "i5" 4), .deliver 0 (turnAt "u" "i6" 4), .deliver 0 (turnAt "u" "i7" 4),
    .deliver 0 (turnAt "u" "i8" 4), .deliver 0 (turnAt "u" "i9" 4), .deliver 0 (turnAt "u" "i10" 4)]

/-- Both have the second message as their entry. -/
theorem entries_newest_twice :
    ∃ w, Run api MessageAction.program (TakesTurns "u" "v")
        (atRest Backend.empty fun _ => "hi") writeTwice w
      ∧ w.Quiescent ∧ (w.backend.docs.lookup (entryPath "u" "v")).any (fun d =>
        d.string "text" = some "bye") = true
      ∧ EntryIsNewest w.backend.docs.lookup "u" "v" ∧ EntryIsNewest w.backend.docs.lookup "v" "u"
      ∧ w.backend.docs.lookup (entryPath "u" "v") = w.backend.docs.lookup (entryPath "v" "u") := by
  obtain ⟨w, run, hquiet, hbye⟩ : ∃ w, Run api MessageAction.program (TakesTurns "u" "v")
        (atRest Backend.empty fun _ => "hi") writeTwice w
      ∧ w.Quiescent ∧ (w.backend.docs.lookup (entryPath "u" "v")).any (fun d =>
        d.string "text" = some "bye") = true := exists_run_of_play (by decide)
  have hnew : NeverRepeated
      (atRest (S := String) Backend.empty fun _ => "hi").backend.docs.lookup writeTwice :=
    ⟨by decide, fun _ _ _ _ => rfl⟩
  have hrest : (atRest (σ := String) (S := String) Backend.empty fun _ => "hi").Quiescent := rfl
  obtain ⟨hu, hv, hsame⟩ := entries_newest hrest run hnew hquiet (by decide)
    (fun _ _ _ => ⟨rfl, fun _ => rfl⟩) (by decide)
  refine ⟨w, run, hquiet, hbye, hu, hv, hsame ?_⟩
  intro s x y _ hcleared
  obtain ⟨user, e, hmem, -⟩ := hcleared
  simp [writeTwice] at hmem

/-- The answer from the other side is acknowledged before the message it answers. -/
def overtaken : List (AppEvent String MessageAction) :=
  [.invoke "a" (.uploadMessage "hi" (chatPartner "v")) (turnAt "u" "i1" 1),
    .invoke "b" (.uploadMessage "hello" (chatPartner "u")) (turnAt "v" "i2" 2),
    .serve 0 (.success []), .serve 1 (.success []), .deliver 1 (turnAt "v" "i3" 3),
    .serve 1 (.success []), .serve 2 (.success []), .serve 3 (.success []),
    .deliver 1 (turnAt "v" "i4" 3), .deliver 1 (turnAt "v" "i5" 3), .deliver 1 (turnAt "v" "i6" 3),
    .deliver 0 (turnAt "u" "i7" 4),
    .serve 0 (.success []), .serve 1 (.success []), .serve 2 (.success []),
    .deliver 0 (turnAt "u" "i8" 5), .deliver 0 (turnAt "u" "i9" 5), .deliver 0 (turnAt "u" "i10" 5)]

/-- Two sessions write at once and no write fails: both entries are the older message. -/
theorem entries_stale :
    ∃ w, Run api MessageAction.program MailOk (atRest Backend.empty fun _ => "hi") overtaken w
      ∧ w.Quiescent ∧ Clocked "u" "v" overtaken
      ∧ NeverRepeated (atRest (S := String) Backend.empty fun _ => "hi").backend.docs.lookup
        overtaken
      ∧ ¬ EntryIsNewest w.backend.docs.lookup "u" "v"
      ∧ ¬ EntryIsNewest w.backend.docs.lookup "v" "u" := by
  obtain ⟨w, run, hquiet, hentry, hcopy, hentry', hcopy'⟩ : ∃ w,
      Run api MessageAction.program MailOk (atRest Backend.empty fun _ => "hi") overtaken w
      ∧ w.Quiescent
      ∧ (w.backend.docs.lookup (entryPath "u" "v")).bind (·.timestamp "timestamp") = some ⟨1, 0⟩
      ∧ (w.backend.docs.lookup (messagePath "u" "v" "i3")).bind (·.timestamp "timestamp")
        = some ⟨2, 0⟩
      ∧ (w.backend.docs.lookup (entryPath "v" "u")).bind (·.timestamp "timestamp") = some ⟨1, 0⟩
      ∧ (w.backend.docs.lookup (messagePath "v" "u" "i2")).bind (·.timestamp "timestamp")
        = some ⟨2, 0⟩ := exists_run_of_play (by decide)
  have hnew : NeverRepeated
      (atRest (S := String) Backend.empty fun _ => "hi").backend.docs.lookup overtaken :=
    ⟨by decide, fun _ _ _ _ => rfl⟩
  exact ⟨w, run, hquiet, by decide, hnew, EntryIsNewest.not_of_older hentry hcopy rfl,
    EntryIsNewest.not_of_older hentry' hcopy' rfl⟩

end InstaClone
