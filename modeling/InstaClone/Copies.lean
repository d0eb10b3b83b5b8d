import InstaClone.Messaging

/-!
# Every message once under each of the two

A `Copy` is what one of the two `addDocument` calls of a message stores. `Accounted` says how
the copies issued so far stand: a copy whose write is pending is not stored yet, any other
one is stored unless it was deleted; an errand that will delete a document is about one that
nothing will store again; and everything stored in a conversation is a copy. Automatic
identifiers are never repeated, so copies do not meet.

With nothing in flight every message has its two copies, except where the user whose copy it
was has deleted it.
-/

namespace InstaClone

open Async

section Copies

variable {S : Type}

/-- The messages sent so far. -/
def sent (es : List (AppEvent S MessageAction)) : List Sent := es.filterMap sentBy

/-- The automatic identifier of a turn. -/
def drawnId {A : Type} : AppEvent S A → Option String
  | .invoke _ _ e => some e.autoId
  | .deliver _ e => some e.autoId
  | _ => none

/-- The identifiers drawn so far. -/
def drawn {A : Type} (es : List (AppEvent S A)) : List String := es.filterMap drawnId

/-- Automatic identifiers are not repeated, and no stored document has one of them. -/
def NeverRepeated {A : Type} (docs₀ : Stored) (es : List (AppEvent S A)) : Prop :=
  (drawn es).Nodup ∧ ∀ id ∈ drawn es, ∀ path, id ∈ path → docs₀ path = none

/-- `owner` has called `deleteMessages` for the conversation with `partner` in session `s`. -/
def Cleared (es : List (AppEvent S MessageAction)) (s : S) (owner partner : String) : Prop :=
  ∃ user e, .invoke s (.deleteMessages user) e ∈ es ∧ e.currentUid = some owner
    ∧ user.uid = partner

/-- Nobody's uid is the name of the collection of the entries. -/
def Unreserved : AppEvent S MessageAction → Prop
  | .invoke _ a e => a.partner ≠ recentMessages ∧ e.currentUid ≠ some recentMessages
  | _ => True

/-- One of the two copies of a message. -/
structure Copy where
  message : Sent
  first : Bool
  id : String

def Copy.owner (c : Copy) : String := if c.first then c.message.sender else c.message.receiver

def Copy.partner (c : Copy) : String := if c.first then c.message.receiver else c.message.sender

def Copy.path (c : Copy) : Path := messagePath c.owner c.partner c.id

/-- The copy an errand stores. -/
def Errand.copy : Errand → Option Copy
  | near m => some ⟨m, true, m.id⟩
  | far m id => some ⟨m, false, id⟩
  | _ => none

/-- The documents an errand will delete. -/
def Errand.removes : Errand → List Path
  | listed owner partner ids => ids.map (messagePath owner partner)
  | remove owner partner id => [messagePath owner partner id]
  | _ => []

/-- The conversation an errand of `deleteMessages` clears. -/
def Errand.clears : Errand → Option (String × String)
  | list owner partner | listed owner partner _ | remove owner partner _
  | removeEntry owner partner => some (owner, partner)
  | _ => none

/-- The copies whose calls have not come back. -/
def underWay (errands : List (S × (Errand × Bool))) : List Copy :=
  errands.filterMap fun x => x.2.1.copy

/-- The write of a copy is pending. -/
def Pending (errands : List (S × (Errand × Bool))) (c : Copy) : Prop :=
  ∃ x ∈ errands, x.2.1.copy = some c ∧ x.2.2 = true

/-- A document has been deleted. -/
def Deleted (log : List (S × Write)) (path : Path) : Prop := ∃ s, (s, .delete path) ∈ log

/-- `path` holds `d`, unless it has been deleted. -/
def KeptUnless (deleted : Prop) (docs : Stored) (path : Path) (d : Doc) : Prop :=
  (deleted → docs path = none) ∧ (¬ deleted → docs path = some d)

/-- The document has been there or its identifier has been drawn. -/
def Known (docs₀ : Stored) (es : List (AppEvent S MessageAction)) (path : Path) : Prop :=
  docs₀ path ≠ none ∨ ∃ owner partner, ∃ id ∈ drawn es, path = messagePath owner partner id

/-- How the copies issued so far stand. -/
structure Accounted (docs₀ : Stored) (es : List (AppEvent S MessageAction))
    (log : List (S × Write)) (docs : Stored) (errands : List (S × (Errand × Bool)))
    (copies : List Copy) : Prop where
  ids : (copies.map (·.id)).Sublist (drawn es)
  named : ∀ c ∈ copies, c.message ∈ sent es ∧ (c.first = true → c.id = c.message.id)
  unreserved : ∀ m ∈ sent es, m.sender ≠ recentMessages ∧ m.receiver ≠ recentMessages
  under : ∀ c ∈ underWay errands, c ∈ copies
  once : (underWay errands).Nodup
  pending : ∀ c ∈ copies, Pending errands c → docs c.path = none ∧ ¬ Deleted log c.path
  kept : ∀ c ∈ copies, ¬ Pending errands c →
    KeptUnless (Deleted log c.path) docs c.path c.message.data
  removing : ∀ x ∈ errands, ∀ path ∈ x.2.1.removes,
    Known docs₀ es path ∧ ∀ c ∈ copies, c.path = path → ¬ Pending errands c
  clearing : ∀ x ∈ errands, ∀ owner partner, x.2.1.clears = some (owner, partner) →
    Cleared es x.1 owner partner ∧ partner ≠ recentMessages
  cleared : ∀ s owner partner id, (s, .delete (messagePath owner partner id)) ∈ log →
    partner ≠ recentMessages →
    Cleared es s owner partner ∧ Known docs₀ es (messagePath owner partner id)
  others : ∀ owner partner id, partner ≠ recentMessages →
    docs (messagePath owner partner id) ≠ none →
    docs₀ (messagePath owner partner id) ≠ none
      ∨ ∃ c ∈ copies, c.path = messagePath owner partner id
  near : ∀ m ∈ sent es, ⟨m, true, m.id⟩ ∈ copies
  far : ∀ m ∈ sent es, ⟨m, true, m.id⟩ ∈ underWay errands
    ∨ ∃ id, ⟨m, false, id⟩ ∈ copies ∧ ∀ id', ⟨m, false, id'⟩ ∈ copies → id' = id
  unborn : ∀ m, ⟨m, true, m.id⟩ ∈ underWay errands → ∀ id, ⟨m, false, id⟩ ∉ copies

variable {docs₀ docs : Stored} {es : List (AppEvent S MessageAction)} {log : List (S × Write)}
  {errands l l' : List (S × (Errand × Bool))} {copies : List Copy}
  {ev : AppEvent S MessageAction}

theorem drawn_snoc {A : Type} (es : List (AppEvent S A)) (ev : AppEvent S A) :
    drawn (es ++ [ev]) = drawn es ++ (drawnId ev).toList := by
  cases h : drawnId ev <;> simp [drawn, h]

theorem sent_snoc (es : List (AppEvent S MessageAction)) (ev : AppEvent S MessageAction) :
    sent (es ++ [ev]) = sent es ++ (sentBy ev).toList := by
  cases h : sentBy ev <;> simp [sent, h]

theorem Known.snoc {path : Path} (h : Known docs₀ es path) : Known docs₀ (es ++ [ev]) path := by
  rcases h with h | ⟨owner, partner, id, hid, rfl⟩
  · exact Or.inl h
  · exact Or.inr ⟨owner, partner, id, by rw [drawn_snoc]; exact List.mem_append_left _ hid, rfl⟩

theorem Cleared.snoc {s : S} {owner partner : String} (h : Cleared es s owner partner) :
    Cleared (es ++ [ev]) s owner partner := by
  obtain ⟨user, e, hmem, hcalled⟩ := h
  exact ⟨user, e, List.mem_append_left _ hmem, hcalled⟩

@[simp] theorem underWay_append : underWay (l ++ l') = underWay l ++ underWay l' :=
  List.filterMap_append ..

@[simp] theorem underWay_nil : underWay ([] : List (S × (Errand × Bool))) = [] := rfl

theorem underWay_cons (x : S × (Errand × Bool)) :
    underWay (x :: l) = x.2.1.copy.toList ++ underWay l := by
  cases h : x.2.1.copy <;> simp [underWay, h]

@[simp] theorem pending_append {c : Copy} :
    Pending (l ++ l') c ↔ Pending l c ∨ Pending l' c := by
  unfold Pending
  simp only [List.mem_append, or_and_right, exists_or]

@[simp] theorem pending_cons {x : S × (Errand × Bool)} {c : Copy} :
    Pending (x :: l) c ↔ x.2.1.copy = some c ∧ x.2.2 = true ∨ Pending l c := by
  unfold Pending
  simp only [List.mem_cons, or_and_right, exists_or, exists_eq_left]

@[simp] theorem not_pending_nil {c : Copy} : ¬ Pending ([] : List (S × (Errand × Bool))) c := by
  rintro ⟨x, hx, -⟩
  exact absurd hx (by simp)

theorem Pending.underWay {c : Copy} (h : Pending errands c) : c ∈ underWay errands := by
  obtain ⟨x, hx, hcopy, -⟩ := h
  exact List.mem_filterMap.mpr ⟨x, hx, hcopy⟩

theorem deleted_snoc {s : S} {w : Write} {path : Path} :
    Deleted (log ++ [(s, w)]) path ↔ Deleted log path ∨ w = .delete path := by
  unfold Deleted
  simp only [List.mem_append, List.mem_singleton, Prod.mk.injEq, exists_or, exists_eq_left]
  simp only [eq_comm]

/-- The write of an errand with a copy stores the copy. -/
theorem Errand.write_of_copy {t : Errand} {w : Write} {c : Copy} (hwrite : t.write = some w)
    (hcopy : t.copy = some c) : w = .setData c.path c.message.data := by
  cases t with
  | near m =>
    obtain rfl := Option.some.inj hcopy
    exact (Option.some.inj hwrite).symm
  | far m id =>
    obtain rfl := Option.some.inj hcopy
    exact (Option.some.inj hwrite).symm
  | _ => exact absurd hcopy (by simp [Errand.copy])

/-- The identifier that is drawn last is new. -/
theorem NeverRepeated.fresh (h : NeverRepeated docs₀ (es ++ [ev])) {id : String}
    (hid : drawnId ev = some id) :
    id ∉ drawn es ∧ ∀ path, id ∈ path → docs₀ path = none := by
  obtain ⟨hnodup, hold⟩ := h
  rw [drawn_snoc, hid] at hnodup hold
  refine ⟨fun hmem => ?_, hold id (by simp)⟩
  exact List.disjoint_of_nodup_append hnodup hmem (List.mem_singleton_self _)

namespace Accounted

/-- Two copies at one path are the same. -/
theorem eq_of_path (h : Accounted docs₀ es log docs errands copies)
    (hnodup : (drawn es).Nodup) {c c' : Copy} (hc : c ∈ copies) (hc' : c' ∈ copies)
    (hpath : c.path = c'.path) : c = c' := by
  have hid : c.id = c'.id := (messagePath_inj hpath).2.2
  exact List.inj_on_of_nodup_map (hnodup.sublist h.ids) hc hc' hid

theorem partner_ne (h : Accounted docs₀ es log docs errands copies) {c : Copy}
    (hc : c ∈ copies) : c.partner ≠ recentMessages := by
  obtain ⟨hsender, hreceiver⟩ := h.unreserved _ (h.named c hc).1
  unfold Copy.partner
  split
  · exact hreceiver
  · exact hsender

/-- A copy's path is not that of an entry. -/
theorem path_ne_entry (h : Accounted docs₀ es log docs errands copies) {c : Copy}
    (hc : c ∈ copies) (owner partner : String) : c.path ≠ entryPath owner partner := by
  intro heq
  have hpartner : c.partner = recentMessages := (messagePath_inj heq).2.1
  exact h.partner_ne hc hpartner

/-- Nothing is at the path of a copy with a new identifier. -/
theorem absent (h : Accounted docs₀ es log docs errands copies) {c : Copy}
    (hid : c.id ∉ drawn es) (hnew : ∀ path, c.id ∈ path → docs₀ path = none)
    (hpartner : c.partner ≠ recentMessages) :
    docs c.path = none ∧ ¬ Deleted log c.path ∧ (∀ c' ∈ copies, c'.path ≠ c.path)
      ∧ ¬ Known docs₀ es c.path := by
  have hothers : ∀ c' ∈ copies, c'.path ≠ c.path := by
    intro c' hc' heq
    have hsame : c'.id = c.id := (messagePath_inj heq).2.2
    exact hid (hsame ▸ h.ids.subset (List.mem_map_of_mem hc'))
  have hold : docs₀ c.path = none := hnew c.path (by simp [Copy.path])
  have hknown : ¬ Known docs₀ es c.path := by
    intro hknown
    rcases hknown with hknown | ⟨owner, partner, id, hmem, heq⟩
    · exact hknown hold
    · have hsame : c.id = id := (messagePath_inj heq).2.2
      exact hid (hsame ▸ hmem)
  refine ⟨?_, ?_, hothers, hknown⟩
  · by_contra hne
    rcases h.others c.owner c.partner c.id hpartner hne with hne | ⟨c', hc', heq⟩
    · exact hne hold
    · exact hothers c' hc' heq
  · intro hdeleted
    obtain ⟨s, hmem⟩ := hdeleted
    exact hknown (h.cleared s c.owner c.partner c.id hmem hpartner).2

/-- What is being cleared was asked for, whatever comes next, -/
theorem clearing_snoc (h : Accounted docs₀ es log docs errands copies)
    (x : S × (Errand × Bool)) (hx : x ∈ errands) (owner partner : String)
    (ho : x.2.1.clears = some (owner, partner)) :
    Cleared (es ++ [ev]) x.1 owner partner ∧ partner ≠ recentMessages :=
  (h.clearing x hx owner partner ho).imp_left Cleared.snoc

/-- and so was what has been cleared. -/
theorem cleared_snoc (h : Accounted docs₀ es log docs errands copies) (s : S)
    (owner partner id : String) (hmem : (s, .delete (messagePath owner partner id)) ∈ log)
    (hne : partner ≠ recentMessages) :
    Cleared (es ++ [ev]) s owner partner
      ∧ Known docs₀ (es ++ [ev]) (messagePath owner partner id) :=
  (h.cleared s owner partner id hmem hne).imp Cleared.snoc Known.snoc

/-- A step that sends nothing and changes nothing. -/
theorem grow (h : Accounted docs₀ es log docs errands copies) (ev : AppEvent S MessageAction)
    (hsent : sentBy ev = none) : Accounted docs₀ (es ++ [ev]) log docs errands copies := by
  have hsame : sent (es ++ [ev]) = sent es := by rw [sent_snoc, hsent]; exact List.append_nil _
  refine { h with ids := ?_, named := ?_, unreserved := ?_, removing := ?_, clearing := ?_,
                  cleared := ?_, near := ?_, far := ?_ }
  · rw [drawn_snoc]
    exact h.ids.trans (List.sublist_append_left _ _)
  · rw [hsame]; exact h.named
  · rw [hsame]; exact h.unreserved
  · exact fun x hx path hpath =>
      ⟨(h.removing x hx path hpath).1.snoc, (h.removing x hx path hpath).2⟩
  · exact h.clearing_snoc
  · exact h.cleared_snoc
  · rw [hsame]; exact h.near
  · rw [hsame]; exact h.far

/-- A copy with a new identifier is issued; the other errands are those there were, or neither
delete nor clear anything. -/
theorem issue (h : Accounted docs₀ es log docs errands copies) {c : Copy}
    {errands' : List (S × (Errand × Bool))} {under : List Copy}
    (hnew : NeverRepeated docs₀ (es ++ [ev])) (hid : drawnId ev = some c.id)
    (hpartner : c.partner ≠ recentMessages)
    (hunder : underWay errands' = under ++ [c]) (hsub : under.Sublist (underWay errands))
    (hpending : ∀ c', Pending errands' c' ↔ Pending errands c' ∨ c' = c)
    (hrest : ∀ x ∈ errands', x ∈ errands ∨ x.2.1.removes = [] ∧ x.2.1.clears = none)
    (hnamed : ∀ c' ∈ copies ++ [c], c'.message ∈ sent (es ++ [ev])
      ∧ (c'.first = true → c'.id = c'.message.id))
    (hunreserved : ∀ m ∈ sent (es ++ [ev]), m.sender ≠ recentMessages ∧ m.receiver ≠ recentMessages)
    (hnear : ∀ m ∈ sent (es ++ [ev]), ⟨m, true, m.id⟩ ∈ copies ++ [c])
    (hfar : ∀ m ∈ sent (es ++ [ev]), ⟨m, true, m.id⟩ ∈ under ++ [c]
      ∨ ∃ id, ⟨m, false, id⟩ ∈ copies ++ [c] ∧ ∀ id', ⟨m, false, id'⟩ ∈ copies ++ [c] → id' = id)
    (hunborn : ∀ m, ⟨m, true, m.id⟩ ∈ under ++ [c] → ∀ id, ⟨m, false, id⟩ ∉ copies ++ [c]) :
    Accounted docs₀ (es ++ [ev]) log docs errands' (copies ++ [c]) := by
  obtain ⟨hfresh, hold⟩ := hnew.fresh hid
  obtain ⟨hnone, hdeleted, hothers, hknown⟩ := h.absent hfresh hold hpartner
  have hc : c ∉ copies := fun hmem => hothers c hmem rfl
  refine ⟨?_, hnamed, hunreserved, fun c' hc' => ?_, ?_, fun c' hc' hpend => ?_,
    fun c' hc' hpend => ?_, fun x hx path hpath => ?_, fun x hx owner partner ho => ?_,
    h.cleared_snoc, fun owner partner id hne hdoc => ?_, hnear, by rwa [hunder], by rwa [hunder]⟩
  · rw [List.map_append, drawn_snoc, hid]
    exact h.ids.append (List.Sublist.refl _)
  · rw [hunder] at hc'
    rcases List.mem_append.mp hc' with hc' | hc'
    · exact List.mem_append_left _ (h.under c' (hsub.subset hc'))
    · exact List.mem_append_right _ hc'
  · rw [hunder]
    refine (h.once.sublist hsub).append (List.nodup_singleton _) fun c' hc' hmem => ?_
    rw [List.mem_singleton.mp hmem] at hc'
    exact hc (h.under c (hsub.subset hc'))
  · rcases List.mem_append.mp hc' with hc' | hc'
    · refine h.pending c' hc' (((hpending c').mp hpend).resolve_right fun heq => ?_)
      rw [heq] at hc'
      exact hc hc'
    · rw [List.mem_singleton.mp hc']
      exact ⟨hnone, hdeleted⟩
  · rw [hpending, not_or] at hpend
    rcases List.mem_append.mp hc' with hc' | hc'
    · exact h.kept c' hc' hpend.1
    · exact absurd (List.mem_singleton.mp hc') hpend.2
  · rcases hrest x hx with hx | ⟨hremoves, -⟩
    · obtain ⟨hk, hnot⟩ := h.removing x hx path hpath
      refine ⟨hk.snoc, fun c' hc' heq hpend => ?_⟩
      rcases List.mem_append.mp hc' with hc' | hc'
      · rcases (hpending c').mp hpend with hpend | hnew
        · exact hnot c' hc' heq hpend
        · rw [hnew] at hc'
          exact hc hc'
      · -- the document to be deleted is known, and the new one is not
        rw [List.mem_singleton.mp hc'] at heq
        rw [← heq] at hk
        exact hknown hk
    · rw [hremoves] at hpath
      exact absurd hpath List.not_mem_nil
  · rcases hrest x hx with hx | ⟨-, hclears⟩
    · exact h.clearing_snoc x hx owner partner ho
    · rw [hclears] at ho
      exact absurd ho (by simp)
  · rcases h.others owner partner id hne hdoc with hdoc | ⟨c', hc', heq⟩
    · exact Or.inl hdoc
    · exact Or.inr ⟨c', List.mem_append_left _ hc', heq⟩

/-- A message is sent. -/
theorem send (h : Accounted docs₀ es log docs errands copies) {m : Sent} (s : S)
    (hnew : NeverRepeated docs₀ (es ++ [ev])) (hev : sentBy ev = some m)
    (hid : drawnId ev = some m.id)
    (hnames : m.sender ≠ recentMessages ∧ m.receiver ≠ recentMessages) :
    Accounted docs₀ (es ++ [ev]) log docs (errands ++ [(s, .near m, true)])
      (copies ++ [⟨m, true, m.id⟩]) := by
  have hsent : sent (es ++ [ev]) = sent es ++ [m] := by rw [sent_snoc, hev]; rfl
  obtain ⟨hfresh, -⟩ := hnew.fresh hid
  refine h.issue (c := ⟨m, true, m.id⟩) hnew hid hnames.2 ?_ (.refl _) (fun c' => ?_)
    (fun x hx => ?_) (fun c' hc' => ?_) (fun m' hm' => ?_) (fun m' hm' => ?_) (fun m' hm' => ?_)
    fun m' hm' id hmem => ?_
  · rw [underWay_append]
    rfl
  · simp [Errand.copy, eq_comm]
  · rcases List.mem_append.mp hx with hx | hx
    · exact Or.inl hx
    · rw [List.mem_singleton.mp hx]
      exact Or.inr ⟨rfl, rfl⟩
  · rw [hsent]
    rcases List.mem_append.mp hc' with hc' | hc'
    · exact ⟨List.mem_append_left _ (h.named c' hc').1, (h.named c' hc').2⟩
    · rw [List.mem_singleton.mp hc']
      exact ⟨by simp, fun _ => rfl⟩
  · rw [hsent] at hm'
    rcases List.mem_append.mp hm' with hm' | hm'
    · exact h.unreserved m' hm'
    · rw [List.mem_singleton.mp hm']
      exact hnames
  · rw [hsent] at hm'
    rcases List.mem_append.mp hm' with hm' | hm'
    · exact List.mem_append_left _ (h.near m' hm')
    · rw [List.mem_singleton.mp hm']
      exact List.mem_append_right _ (List.mem_singleton_self _)
  · rw [hsent] at hm'
    rcases List.mem_append.mp hm' with hm' | hm'
    · rcases h.far m' hm' with hmem | ⟨id, hmem, huniq⟩
      · exact Or.inl (List.mem_append_left _ hmem)
      · refine Or.inr ⟨id, List.mem_append_left _ hmem, fun id' hmem' => huniq id' ?_⟩
        rcases List.mem_append.mp hmem' with hmem' | hmem'
        · exact hmem'
        · exact absurd hmem' (by simp)
    · rw [List.mem_singleton.mp hm']
      exact Or.inl (List.mem_append_right _ (List.mem_singleton_self _))
  · rcases List.mem_append.mp hmem with hmem | hmem
    · rcases List.mem_append.mp hm' with hm' | hm'
      · exact h.unborn m' hm' id hmem
      · -- a second copy of the new message would be of one sent before
        have hm : m' = m := congrArg Copy.message (List.mem_singleton.mp hm')
        rw [hm] at hmem
        have hbefore := h.ids.subset (List.mem_map_of_mem (h.near m (h.named _ hmem).1))
        exact hfresh hbefore
    · exact absurd hmem (by simp)

/-- The errands move on, and nothing is stored. -/
theorem move (h : Accounted docs₀ es log docs errands copies)
    {errands' : List (S × (Errand × Bool))}
    (hunder : (underWay errands').Sublist (underWay errands))
    (hfirst : ∀ m : Sent, ⟨m, true, m.id⟩ ∈ underWay errands → ⟨m, true, m.id⟩ ∈ underWay errands')
    (hpending : ∀ c, Pending errands' c ↔ Pending errands c)
    (hremoving : ∀ x ∈ errands', ∀ path ∈ x.2.1.removes,
      Known docs₀ es path ∧ ∀ c ∈ copies, c.path = path → ¬ Pending errands c)
    (hclearing : ∀ x ∈ errands', ∀ owner partner, x.2.1.clears = some (owner, partner) →
      Cleared es x.1 owner partner ∧ partner ≠ recentMessages) :
    Accounted docs₀ es log docs errands' copies := by
  refine { h with under := ?_, once := ?_, pending := ?_, kept := ?_, removing := ?_,
                  clearing := hclearing, far := ?_, unborn := ?_ }
  · exact fun c hc => h.under c (hunder.subset hc)
  · exact h.once.sublist hunder
  · exact fun c hc hpend => h.pending c hc ((hpending c).mp hpend)
  · exact fun c hc hpend => h.kept c hc (fun hold => hpend ((hpending c).mpr hold))
  · intro x hx path hpath
    obtain ⟨hknown, hnot⟩ := hremoving x hx path hpath
    exact ⟨hknown, fun c hc heq hpend => hnot c hc heq ((hpending c).mp hpend)⟩
  · intro m hm
    rcases h.far m hm with hmem | hid
    · exact Or.inl (hfirst m hmem)
    · exact Or.inr hid
  · exact fun m hm => h.unborn m (hunder.subset hm)

/-- The first copy of a message is acknowledged. -/
theorem bear {s : S} {m : Sent} {id : String}
    (h : Accounted docs₀ es log docs (l ++ (s, .near m, false) :: l') copies)
    (hnew : NeverRepeated docs₀ (es ++ [ev])) (hev : sentBy ev = none)
    (hid : drawnId ev = some id) :
    Accounted docs₀ (es ++ [ev]) log docs
      (l ++ l' ++ [(s, .far m id, true), (s, .entry m.sender m.receiver m.data, true),
        (s, .entry m.receiver m.sender m.data, true)])
      (copies ++ [⟨m, false, id⟩]) := by
  have hsent : sent (es ++ [ev]) = sent es := by rw [sent_snoc, hev]; exact List.append_nil _
  have hbefore : underWay (l ++ (s, Errand.near m, false) :: l')
      = underWay l ++ ⟨m, true, m.id⟩ :: underWay l' := by
    rw [underWay_append, underWay_cons]
    rfl
  have hnear : (⟨m, true, m.id⟩ : Copy) ∈ underWay (l ++ (s, Errand.near m, false) :: l') := by
    rw [hbefore]
    simp
  have hmsent : m ∈ sent es := (h.named _ (h.under _ hnear)).1
  have hsub : (underWay l ++ underWay l').Sublist
      (underWay (l ++ (s, Errand.near m, false) :: l')) := by
    rw [hbefore]
    exact (List.sublist_cons_self _ _).append_left _
  refine h.issue (c := ⟨m, false, id⟩) hnew hid (h.unreserved m hmsent).1 ?_ hsub (fun c => ?_)
    (fun x hx => ?_) (fun c hc => ?_) ?_ ?_ (fun m' hm' => ?_) fun m' hm' id' hmem => ?_
  · rw [underWay_append, underWay_append]
    rfl
  · simp [Errand.copy, eq_comm, or_assoc]
  · simp only [List.mem_append, List.mem_cons, List.not_mem_nil, or_false] at hx ⊢
    rcases hx with (hx | hx) | rfl | rfl | rfl
    · exact Or.inl (Or.inl hx)
    · exact Or.inl (Or.inr (Or.inr hx))
    all_goals exact Or.inr ⟨rfl, rfl⟩
  · rw [hsent]
    rcases List.mem_append.mp hc with hc | hc
    · exact h.named c hc
    · rw [List.mem_singleton.mp hc]
      exact ⟨hmsent, fun hfirst => absurd hfirst (by simp)⟩
  · rw [hsent]
    exact h.unreserved
  · rw [hsent]
    exact fun m' hm' => List.mem_append_left _ (h.near m' hm')
  · rw [hsent] at hm'
    by_cases heq : m' = m
    · -- the second copy of this message is the one just issued
      rw [heq]
      refine Or.inr ⟨id, List.mem_append_right _ (List.mem_singleton_self _), fun id' hmem => ?_⟩
      rcases List.mem_append.mp hmem with hmem | hmem
      · exact absurd hmem (h.unborn m hnear id')
      · exact congrArg Copy.id (List.mem_singleton.mp hmem)
    · rcases h.far m' hm' with hmem | ⟨id', hmem, huniq⟩
      · rw [hbefore] at hmem
        simp only [List.mem_append, List.mem_cons] at hmem ⊢
        rcases hmem with hmem | hmem | hmem
        · exact Or.inl (Or.inl (Or.inl hmem))
        · exact absurd (congrArg Copy.message hmem) heq
        · exact Or.inl (Or.inl (Or.inr hmem))
      · refine Or.inr ⟨id', List.mem_append_left _ hmem, fun id'' hmem' => ?_⟩
        rcases List.mem_append.mp hmem' with hmem' | hmem'
        · exact huniq id'' hmem'
        · exact absurd (congrArg Copy.message (List.mem_singleton.mp hmem')) heq
  · have hm' : (⟨m', true, m'.id⟩ : Copy) ∈ underWay l ++ underWay l' := by
      rcases List.mem_append.mp hm' with hm' | hm'
      · exact hm'
      · exact absurd (congrArg Copy.first (List.mem_singleton.mp hm')) (by simp)
    rcases List.mem_append.mp hmem with hmem | hmem
    · exact h.unborn m' (hsub.subset hm') id' hmem
    · -- the call of this message has gone on
      have heq : m' = m := congrArg Copy.message (List.mem_singleton.mp hmem)
      rw [heq] at hm'
      have honce := h.once
      rw [hbefore] at honce
      exact (List.nodup_cons.mp (List.nodup_middle.mp honce)).1 hm'

/-- A committed write of an errand is pending no longer, and was under way only once. -/
theorem pending_commit {s : S} {t : Errand}
    (h : Accounted docs₀ es log docs (l ++ (s, t, true) :: l') copies) (c : Copy) :
    Pending (l ++ (s, t, false) :: l') c
      ↔ Pending (l ++ (s, t, true) :: l') c ∧ t.copy ≠ some c := by
  constructor
  · intro hpend
    simp only [pending_append, pending_cons, Bool.false_eq_true, and_false, false_or] at hpend ⊢
    refine ⟨hpend.imp_right Or.inr, fun hcopy => ?_⟩
    have honce := h.once
    rw [underWay_append, underWay_cons, hcopy] at honce
    have hmiddle := List.nodup_middle.mp honce
    refine (List.nodup_cons.mp hmiddle).1 (List.mem_append.mpr ?_)
    exact hpend.imp Pending.underWay Pending.underWay
  · intro hpend
    obtain ⟨hpend, hcopy⟩ := hpend
    simp only [pending_append, pending_cons, Bool.false_eq_true, and_false, false_or, and_true]
      at hpend ⊢
    exact hpend.imp_right fun hpend => hpend.resolve_left hcopy

/-- A write about a copy stores it, or deletes it when it is not pending. -/
theorem write_copy {s : S} {t : Errand} {w : Write} (hwrite : t.write = some w)
    (hnodup : (drawn es).Nodup)
    (h : Accounted docs₀ es log docs (l ++ (s, t, true) :: l') copies) {c : Copy} (hc : c ∈ copies)
    (hpath : c.path = w.path) :
    t.copy = some c ∧ w = .setData c.path c.message.data
      ∨ w = .delete c.path ∧ ¬ Pending (l ++ (s, t, true) :: l') c := by
  have hmem : (s, t, true) ∈ l ++ (s, t, true) :: l' := by simp
  have hcopy : ∀ c', t.copy = some c' → c = c' := by
    intro c' hc'
    obtain rfl := Errand.write_of_copy hwrite hc'
    exact h.eq_of_path hnodup hc (h.under c' (List.mem_filterMap.mpr ⟨_, hmem, hc'⟩)) hpath
  cases t with
  | near m =>
    obtain rfl := hcopy _ rfl
    exact Or.inl ⟨rfl, Errand.write_of_copy hwrite rfl⟩
  | far m id =>
    obtain rfl := hcopy _ rfl
    exact Or.inl ⟨rfl, Errand.write_of_copy hwrite rfl⟩
  | remove owner partner id =>
    obtain rfl := Option.some.inj hwrite
    refine Or.inr ⟨by rw [hpath]; rfl, ?_⟩
    exact (h.removing _ hmem _ (List.mem_singleton_self _)).2 c hc hpath
  | entry owner partner data =>
    obtain rfl := Option.some.inj hwrite
    exact absurd hpath (h.path_ne_entry hc owner partner)
  | removeEntry owner partner =>
    obtain rfl := Option.some.inj hwrite
    exact absurd hpath (h.path_ne_entry hc owner partner)
  | list | listed => exact absurd hwrite (by simp [Errand.write])

/-- What an errand deletes beside entries was to be deleted, for a conversation being cleared. -/
theorem write_delete {s : S} {t : Errand} {owner partner id : String}
    (hwrite : t.write = some (.delete (messagePath owner partner id)))
    (h : Accounted docs₀ es log docs (l ++ (s, t, true) :: l') copies)
    (hne : partner ≠ recentMessages) :
    Cleared es s owner partner ∧ Known docs₀ es (messagePath owner partner id) := by
  have hmem : (s, t, true) ∈ l ++ (s, t, true) :: l' := by simp
  cases t with
  | remove owner' partner' id' =>
    obtain ⟨rfl, rfl, rfl⟩ := messagePath_inj (Write.delete.inj (Option.some.inj hwrite))
    exact ⟨(h.clearing _ hmem _ _ rfl).1, (h.removing _ hmem _ (List.mem_singleton_self _)).1⟩
  | removeEntry owner' partner' =>
    have heq := messagePath_inj (Write.delete.inj (Option.some.inj hwrite))
    exact absurd heq.2.1.symm hne
  | _ => exact absurd hwrite (by simp [Errand.write])

/-- What an errand stores beside entries is a copy. -/
theorem write_others {s : S} {t : Errand} {w : Write} {owner partner id : String}
    (hwrite : t.write = some w)
    (h : Accounted docs₀ es log docs (l ++ (s, t, true) :: l') copies)
    (hne : partner ≠ recentMessages) (hpath : messagePath owner partner id = w.path)
    (hdoc : docs.commit w (messagePath owner partner id) ≠ none) :
    ∃ c ∈ copies, c.path = messagePath owner partner id := by
  have hmem : (s, t, true) ∈ l ++ (s, t, true) :: l' := by simp
  have hstored : ∀ c, t.copy = some c → ∃ c ∈ copies, c.path = messagePath owner partner id := by
    intro c hcopy
    refine ⟨c, h.under c (List.mem_filterMap.mpr ⟨_, hmem, hcopy⟩), ?_⟩
    rw [hpath, Errand.write_of_copy hwrite hcopy]
    rfl
  cases t with
  | near m => exact hstored _ rfl
  | far m id => exact hstored _ rfl
  | entry owner' partner' data =>
    obtain rfl := Option.some.inj hwrite
    exact absurd (messagePath_inj hpath).2.1 hne
  | remove owner' partner' id' =>
    obtain rfl := Option.some.inj hwrite
    exact absurd (if_pos hpath) hdoc
  | removeEntry owner' partner' =>
    obtain rfl := Option.some.inj hwrite
    exact absurd (messagePath_inj hpath).2.1 hne
  | list | listed => exact absurd hwrite (by simp [Errand.write])

/-- A write of an errand is committed. -/
theorem commit {s : S} {t : Errand} {w : Write} (hwrite : t.write = some w)
    (hnodup : (drawn es).Nodup)
    (h : Accounted docs₀ es log docs (l ++ (s, t, true) :: l') copies) :
    Accounted docs₀ es (log ++ [(s, w)]) (docs.commit w) (l ++ (s, t, false) :: l') copies := by
  have hunder : underWay (l ++ (s, t, false) :: l') = underWay (l ++ (s, t, true) :: l') := by
    rw [underWay_append, underWay_append, underWay_cons, underWay_cons]
  have hmem : (s, t, true) ∈ l ++ (s, t, true) :: l' := by simp
  have hold : ∀ x ∈ l ++ (s, t, false) :: l', ∃ x' ∈ l ++ (s, t, true) :: l',
      x'.1 = x.1 ∧ x'.2.1 = x.2.1 := by
    intro x hx
    simp only [List.mem_append, List.mem_cons] at hx
    rcases hx with hx | rfl | hx
    · exact ⟨x, by simp [hx], rfl, rfl⟩
    · exact ⟨_, hmem, rfl, rfl⟩
    · exact ⟨x, by simp [hx], rfl, rfl⟩
  have hleave : ∀ path, path ≠ w.path → docs.commit w path = docs path := fun path hpath =>
    if_neg hpath
  refine { h with under := ?_, once := ?_, pending := ?_, kept := ?_, removing := ?_,
                  clearing := ?_, cleared := ?_, others := ?_, far := ?_, unborn := ?_ }
  · rw [hunder]; exact h.under
  · rw [hunder]; exact h.once
  · intro c hc hpend
    obtain ⟨hpend, hcopy⟩ := (h.pending_commit c).mp hpend
    obtain ⟨hnone, hnot⟩ := h.pending c hc hpend
    have hpath : c.path ≠ w.path := by
      intro hpath
      rcases h.write_copy hwrite hnodup hc hpath with ⟨hsome, -⟩ | ⟨-, hsettled⟩
      · exact hcopy hsome
      · exact hsettled hpend
    refine ⟨by rw [hleave _ hpath]; exact hnone, ?_⟩
    rw [deleted_snoc]
    rintro (hdel | rfl)
    · exact hnot hdel
    · exact hpath rfl
  · intro c hc hpend
    rw [h.pending_commit, not_and_not_right] at hpend
    by_cases hpath : c.path = w.path
    · rcases h.write_copy hwrite hnodup hc hpath with ⟨hcopy, rfl⟩ | ⟨rfl, hsettled⟩
      · obtain ⟨-, hnot⟩ := h.pending c hc ⟨_, hmem, hcopy, rfl⟩
        refine ⟨fun hdel => ?_, fun _ => if_pos rfl⟩
        rcases deleted_snoc.mp hdel with hdel | heq
        · exact absurd hdel hnot
        · exact absurd heq (by simp)
      · exact ⟨fun _ => if_pos rfl, fun hdel => absurd (deleted_snoc.mpr (Or.inr rfl)) hdel⟩
    · -- a pending copy that this write stores would be at its path
      have hnot : ¬ Pending (l ++ (s, t, true) :: l') c := by
        intro hpending
        have hstores := Errand.write_of_copy hwrite (hpend hpending)
        exact hpath (by rw [hstores]; rfl)
      obtain ⟨hgone, hthere⟩ := h.kept c hc hnot
      unfold KeptUnless
      rw [hleave _ hpath, deleted_snoc]
      have hw : w ≠ .delete c.path := by
        rintro rfl
        exact hpath rfl
      simp only [hw, or_false]
      exact ⟨hgone, hthere⟩
  · intro x hx path hpath
    obtain ⟨x', hmem', -, heq⟩ := hold x hx
    obtain ⟨hknown, hnot⟩ := h.removing x' hmem' path (by rw [heq]; exact hpath)
    exact ⟨hknown, fun c hc hpath hpend => hnot c hc hpath ((h.pending_commit c).mp hpend).1⟩
  · intro x hx owner partner ho
    obtain ⟨x', hmem', hs, heq⟩ := hold x hx
    rw [← hs]
    exact h.clearing x' hmem' owner partner (by rw [heq]; exact ho)
  · intro s' owner partner id hlog hne
    rcases List.mem_append.mp hlog with hlog | hlog
    · exact h.cleared s' owner partner id hlog hne
    · obtain ⟨rfl, rfl⟩ := Prod.mk.inj (List.mem_singleton.mp hlog)
      exact h.write_delete hwrite hne
  · intro owner partner id hne hdoc
    by_cases hpath : messagePath owner partner id = w.path
    · exact Or.inr (h.write_others hwrite hne hpath hdoc)
    · rw [hleave _ hpath] at hdoc
      exact h.others owner partner id hne hdoc
  · rw [hunder]; exact h.far
  · rw [hunder]; exact h.unborn

/-- A conversation is cleared. -/
theorem clear {s : S} {user : User} {e : Turn} {uid : String} (hin : e.currentUid = some uid)
    (hpartner : user.uid ≠ recentMessages) (h : Accounted docs₀ es log docs errands copies) :
    Accounted docs₀ (es ++ [.invoke s (.deleteMessages user) e]) log docs
      (errands ++ [(s, .list uid user.uid, true), (s, .removeEntry uid user.uid, true)])
      copies := by
  have hgrown := h.grow (.invoke s (.deleteMessages user) e) rfl
  have hunder : underWay (errands ++ [(s, Errand.list uid user.uid, true),
      (s, .removeEntry uid user.uid, true)]) = underWay errands := by
    rw [underWay_append]
    exact List.append_nil _
  have hcalled : Cleared (es ++ [.invoke s (.deleteMessages user) e]) s uid user.uid :=
    ⟨user, e, by simp, hin, rfl⟩
  refine hgrown.move (by rw [hunder]) (fun m hm => by rw [hunder]; exact hm) (fun c => ?_) ?_ ?_
  · simp [Errand.copy]
  · intro x hx path hpath
    simp only [List.mem_append, List.mem_cons, List.not_mem_nil, or_false] at hx
    rcases hx with hx | rfl | rfl
    · exact hgrown.removing x hx path hpath
    all_goals exact absurd hpath (by simp [Errand.removes])
  · intro x hx owner partner ho
    simp only [List.mem_append, List.mem_cons, List.not_mem_nil, or_false] at hx
    rcases hx with hx | rfl | rfl
    · exact hgrown.clearing x hx owner partner ho
    all_goals
      obtain ⟨rfl, rfl⟩ := Prod.mk.inj (Option.some.inj ho)
      exact ⟨hcalled, hpartner⟩

/-- The copies are listed. Only what is stored is, and that is not pending. -/
theorem answer {s : S} {i : Nat} {o : Outcome} {owner partner : String} {ids : List String}
    (h : Accounted docs₀ es log docs (l ++ (s, .list owner partner, true) :: l') copies)
    (hids : ∀ id ∈ ids, (docs (messagePath owner partner id)).isSome) :
    Accounted docs₀ (es ++ [.serve i o]) log docs (l ++ (s, .listed owner partner ids, false) :: l')
      copies := by
  have hgrown := h.grow (.serve i o) rfl
  have hmem : (s, Errand.list owner partner, true) ∈ l ++ (s, .list owner partner, true) :: l' := by
    simp
  obtain ⟨hcalled, hpartner⟩ := hgrown.clearing _ hmem owner partner rfl
  have hunder : underWay (l ++ (s, Errand.listed owner partner ids, false) :: l')
      = underWay (l ++ (s, Errand.list owner partner, true) :: l') := by
    rw [underWay_append, underWay_append, underWay_cons, underWay_cons]
    rfl
  refine hgrown.move (by rw [hunder]) (fun m hm => by rw [hunder]; exact hm) (fun c => ?_) ?_ ?_
  · simp [Errand.copy]
  · intro x hx path hpath
    simp only [List.mem_append, List.mem_cons] at hx
    rcases hx with hx | rfl | hx
    · exact hgrown.removing x (by simp [hx]) path hpath
    · obtain ⟨id, hid, rfl⟩ := List.mem_map.mp hpath
      have hdoc : docs (messagePath owner partner id) ≠ none :=
        Option.isSome_iff_ne_none.mp (hids id hid)
      refine ⟨?_, fun c hc heq hpend => hdoc (heq ▸ (hgrown.pending c hc hpend).1)⟩
      rcases hgrown.others owner partner id hpartner hdoc with hold | ⟨c, hc, heq⟩
      · exact Or.inl hold
      · exact Or.inr ⟨_, _, c.id, hgrown.ids.subset (List.mem_map_of_mem hc), heq.symm⟩
    · exact hgrown.removing x (by simp [hx]) path hpath
  · intro x hx owner' partner' ho
    simp only [List.mem_append, List.mem_cons] at hx
    rcases hx with hx | rfl | hx
    · exact hgrown.clearing x (by simp [hx]) owner' partner' ho
    · obtain ⟨rfl, rfl⟩ := Prod.mk.inj (Option.some.inj ho)
      exact ⟨hcalled, hpartner⟩
    · exact hgrown.clearing x (by simp [hx]) owner' partner' ho

/-- Any other callback runs. -/
theorem resume {s : S} {t : Errand} (i : Nat) (e : Turn)
    (h : Accounted docs₀ es log docs (l ++ (s, t, false) :: l') copies)
    (hnear : ∀ m, t ≠ .near m) :
    Accounted docs₀ (es ++ [.deliver i e]) log docs
      (l ++ l' ++ (t.next e.autoId).map fun t' => (s, t', true)) copies := by
  have hgrown := h.grow (.deliver i e) rfl
  have hmem : (s, t, false) ∈ l ++ (s, t, false) :: l' := by simp
  -- what it issues stores no copy, and deletes what was listed
  have hnext : ∀ t' ∈ t.next e.autoId, t'.copy = none ∧ (∀ path ∈ t'.removes, path ∈ t.removes)
      ∧ ∀ x, t'.clears = some x → t.clears = some x := by
    cases t with
    | near m => exact absurd rfl (hnear m)
    | listed owner partner ids =>
      intro t' ht'
      obtain ⟨id, hid, rfl⟩ := List.mem_map.mp ht'
      refine ⟨rfl, fun path hpath => ?_, fun x hx => hx⟩
      rw [List.mem_singleton.mp hpath]
      exact List.mem_map_of_mem hid
    | _ => exact fun t' ht' => absurd ht' List.not_mem_nil
  have hissued : underWay ((t.next e.autoId).map fun t' => (s, t', true)) = [] := by
    refine List.filterMap_eq_nil_iff.mpr fun x hx => ?_
    obtain ⟨t', ht', rfl⟩ := List.mem_map.mp hx
    exact (hnext t' ht').1
  have hunder : underWay (l ++ l' ++ (t.next e.autoId).map fun t' => (s, t', true))
      = underWay l ++ underWay l' := by
    rw [underWay_append, underWay_append, hissued, List.append_nil]
  have hbefore : underWay (l ++ (s, t, false) :: l')
      = underWay l ++ (t.copy.toList ++ underWay l') := by
    rw [underWay_append, underWay_cons]
  have hx : ∀ x ∈ l ++ l' ++ (t.next e.autoId).map fun t' => (s, t', true),
      x ∈ l ++ (s, t, false) :: l' ∨ ∃ t' ∈ t.next e.autoId, x = (s, t', true) := by
    intro x hx
    simp only [List.mem_append, List.mem_map, List.mem_cons] at hx ⊢
    rcases hx with (hx | hx) | ⟨t', ht', rfl⟩
    · exact Or.inl (Or.inl hx)
    · exact Or.inl (Or.inr (Or.inr hx))
    · exact Or.inr ⟨t', ht', rfl⟩
  refine hgrown.move ?_ ?_ (fun c => ?_) ?_ ?_
  · rw [hunder, hbefore]
    exact (List.sublist_append_right _ _).append_left _
  · intro m hm
    rw [hbefore] at hm
    rw [hunder]
    simp only [List.mem_append, Option.mem_toList] at hm ⊢
    rcases hm with hm | hm | hm
    · exact Or.inl hm
    · exfalso
      cases t with
      | near m' => exact hnear m' rfl
      | _ => exact absurd hm (by simp [Errand.copy])
    · exact Or.inr hm
  · rw [pending_append, pending_append, pending_append, pending_cons]
    have hnone : ¬ Pending ((t.next e.autoId).map fun t' => (s, t', true)) c := by
      intro hpend
      have hmem := hpend.underWay
      rw [hissued] at hmem
      exact absurd hmem List.not_mem_nil
    simp [hnone]
  · intro x hmem' path hpath
    rcases hx x hmem' with hold | ⟨t', ht', rfl⟩
    · exact hgrown.removing x hold path hpath
    · exact hgrown.removing _ hmem path ((hnext t' ht').2.1 path hpath)
  · intro x hmem' owner partner ho
    rcases hx x hmem' with hold | ⟨t', ht', rfl⟩
    · exact hgrown.clearing x hold owner partner ho
    · exact hgrown.clearing _ hmem owner partner ((hnext t' ht').2.2 _ ho)

end Accounted

theorem NeverRepeated.of_snoc {A : Type} {docs₀ : Stored} {es : List (AppEvent S A)}
    {ev : AppEvent S A} (h : NeverRepeated docs₀ (es ++ [ev])) : NeverRepeated docs₀ es := by
  obtain ⟨hnodup, hold⟩ := h
  rw [drawn_snoc] at hnodup hold
  exact ⟨hnodup.of_append_left, fun id hid => hold id (List.mem_append_left _ hid)⟩

/-- Along every run the copies are accounted for. -/
theorem accounted_of_mailRun (run : MailRun docs₀ es log docs errands)
    (hnew : NeverRepeated docs₀ es) (hnames : ∀ ev ∈ es, Unreserved ev) :
    ∃ copies, Accounted docs₀ es log docs errands copies := by
  induction run with
  | nil =>
    refine ⟨[], ⟨.slnil, ?_, ?_, ?_, .nil, ?_, ?_, ?_, ?_, ?_, ?_, ?_, ?_, ?_⟩⟩
    all_goals simp [sent, underWay]
  | snoc run hstep ih =>
    rename_i es log docs errands ev out docs' errands'
    obtain ⟨copies, h⟩ := ih hnew.of_snoc fun ev hev => hnames ev (by simp [hev])
    have hev : Unreserved ev := hnames ev (by simp)
    have hsame : log ++ (none : Option (S × Write)).toList = log := List.append_nil log
    cases hstep with
    | idle hout =>
      rename_i s a e
      refine ⟨copies, hsame.symm ▸ h.grow _ ?_⟩
      cases a <;> simp [sentBy, hout]
    | send hin =>
      rename_i s message user e uid
      refine ⟨_, hsame.symm ▸ h.send s hnew ?_ rfl ⟨?_, hev.1⟩⟩
      · simp [sentBy, hin]
      · rintro rfl
        exact hev.2 hin
    | clear hin => exact ⟨copies, hsame.symm ▸ h.clear hin hev.1⟩
    | commit _ hwrite _ =>
      refine ⟨copies, (h.grow _ rfl).commit hwrite hnew.1⟩
    | answer _ hids =>
      refine ⟨copies, hsame.symm ▸ h.answer fun id hid => ?_⟩
      rcases hids with ⟨rfl, -⟩ | hids
      · exact absurd hid List.not_mem_nil
      · exact (hids id).mp hid
    | resume ht hfifo =>
      rename_i l l' s i e t
      by_cases hnear : ∃ m, t = .near m
      · obtain ⟨m, rfl⟩ := hnear
        exact ⟨_, hsame.symm ▸ h.bear hnew rfl rfl⟩
      · exact ⟨copies, hsame.symm ▸ h.resume i e fun m hm => hnear ⟨m, hm⟩⟩

/-! ## Runs of the app -/

/-- What a sent message says of itself. -/
theorem sent_data {m : Sent} (h : m ∈ sent es) :
    m.data.string "fromId" = some m.sender ∧ m.data.string "toId" = some m.receiver := by
  obtain ⟨ev, -, hev⟩ := List.mem_filterMap.mp h
  cases ev with
  | invoke s a e =>
    cases a with
    | uploadMessage message user =>
      obtain ⟨uid, -, rfl⟩ := Option.map_eq_some_iff.mp hev
      exact ⟨rfl, rfl⟩
    | deleteMessages user => exact absurd hev (by simp [sentBy])
  | _ => exact absurd hev (by simp [sentBy])

/-- The sender reads a message as their own, to the receiver. -/
theorem decoded_near {m : Sent} (h : m ∈ sent es) {partner : String} (hp : m.receiver = partner) :
    (Message.init (some m.sender) m.data).chatPartnerId = partner
      ∧ ((Message.init (some m.sender) m.data).isFromCurrentUser = true ↔ m.sender = m.sender) := by
  obtain ⟨hfrom, hto⟩ := sent_data h
  simp [Message.chatPartnerId, Message.init, hfrom, hto, hp]

/-- Anybody else reads it as one from the sender. -/
theorem decoded_far {m : Sent} (h : m ∈ sent es) {uid partner : String} (hne : m.sender ≠ uid)
    (hp : m.sender = partner) :
    (Message.init (some uid) m.data).chatPartnerId = partner
      ∧ ((Message.init (some uid) m.data).isFromCurrentUser = true ↔ m.sender = uid) := by
  obtain ⟨hfrom, hto⟩ := sent_data h
  subst hp
  simp [Message.chatPartnerId, Message.init, hfrom, hne]

/-- The message goes from one of the two to the other. -/
def Between (u v : String) (m : Sent) : Prop :=
  m.sender = u ∧ m.receiver = v ∨ m.sender = v ∧ m.receiver = u

/-- The identifier of the copy of `owner`, where the copies of the receivers are `far`. -/
def Sent.copyId (far : Sent → String) (owner : String) (m : Sent) : String :=
  if m.sender = owner then m.id else far m

variable [DecidableEq S]

/-- A write of session `s` has been committed. -/
def CommittedBy (w₀ : AppWorld String S) (es : List (AppEvent S MessageAction)) (s : S)
    (write : Write) : Prop :=
  Mark.reply (.write write) none ∈ trace api MessageAction.program s w₀ es

/-- The messages between `u` and `v` as `u` has them: each one once unless `u` has deleted it,
nothing else, and each as sent. -/
structure Delivered (w₀ : AppWorld String S) (es : List (AppEvent S MessageAction))
    (w : AppWorld String S) (far : Sent → String) (u v : String) : Prop where
  once : ∀ m ∈ sent es, ∀ m' ∈ sent es, Between u v m → Between u v m' →
    m.copyId far u = m'.copyId far u → m = m'
  kept : ∀ m ∈ sent es, Between u v m →
    KeptUnless (∃ s, CommittedBy w₀ es s (.delete (messagePath u v (m.copyId far u))))
      w.backend.docs.lookup (messagePath u v (m.copyId far u)) m.data
  only : ∀ id d, w.backend.docs.lookup (messagePath u v id) = some d →
    ∃ m ∈ sent es, Between u v m ∧ id = m.copyId far u ∧ d = m.data
      ∧ (Message.init (some u) d).chatPartnerId = v
      ∧ ((Message.init (some u) d).isFromCurrentUser = true ↔ m.sender = u)
  deleted : ∀ s id, CommittedBy w₀ es s (.delete (messagePath u v id)) → Cleared es s u v

/-- May the run take this step? No write fails, and nobody has the name of the entries. -/
def MailOk (w : AppWorld String S) (ev : AppEvent S MessageAction) : Prop :=
  Healthy w ev ∧ Unreserved ev

instance (ev : AppEvent S MessageAction) : Decidable (Unreserved ev) :=
  match ev with
  | .invoke _ _ _ => inferInstanceAs (Decidable (_ ∧ _))
  | .serve _ _ => isTrue trivial
  | .deliver _ _ => isTrue trivial
  | .drop _ => isTrue trivial

instance (w : AppWorld String S) (ev : AppEvent S MessageAction) : Decidable (MailOk w ev) :=
  inferInstanceAs (Decidable (_ ∧ _))

/-- Every event of a run met the side condition. -/
theorem unreserved_of_run {w₀ w : AppWorld String S}
    (run : Run api MessageAction.program MailOk w₀ es w) : ∀ ev ∈ es, Unreserved ev :=
  run.invariant (I := fun es _ => ∀ ev ∈ es, Unreserved ev) (by simp)
    fun es w ev w' h hok _ ev' hev => by
    rcases List.mem_append.mp hev with hev | hev
    · exact h ev' hev
    · rw [List.mem_singleton.mp hev]
      exact hok.2

section Side

variable {docs₀ docs : Stored} {log : List (S × Write)} {errands : List (S × (Errand × Bool))}
variable {copies : List Copy} {far : Sent → String} {u v : String}

omit [DecidableEq S] in
/-- The copy that `u` has of a message between the two, and its path. -/
theorem Accounted.copy_of_between (h : Accounted docs₀ es log docs errands copies)
    (hfar : ∀ m ∈ sent es, ⟨m, false, far m⟩ ∈ copies) (hne : u ≠ v) {m : Sent}
    (hm : m ∈ sent es) (hbetween : Between u v m) :
    ∃ first, (⟨m, first, m.copyId far u⟩ : Copy) ∈ copies
      ∧ (⟨m, first, m.copyId far u⟩ : Copy).path = messagePath u v (m.copyId far u) := by
  rcases hbetween with ⟨rfl, rfl⟩ | ⟨rfl, rfl⟩
  · have hid : m.copyId far m.sender = m.id := if_pos rfl
    rw [hid]
    exact ⟨true, h.near m hm, rfl⟩
  · have hid : m.copyId far m.receiver = far m := if_neg (Ne.symm hne)
    rw [hid]
    exact ⟨false, hfar m hm, rfl⟩

omit [DecidableEq S] in
/-- What `u` has in the conversation is a copy of a message between the two, and is read so. -/
theorem Accounted.message_of_stored (h : Accounted docs₀ es log docs errands copies)
    (hunique : ∀ m ∈ sent es, ∀ id, ⟨m, false, id⟩ ∈ copies → id = far m) (hne : u ≠ v)
    (hname : v ≠ recentMessages) (hstart : ∀ id, docs₀ (messagePath u v id) = none)
    (hdone : ∀ c, ¬ Pending errands c) {id : String} {d : Doc}
    (hd : docs (messagePath u v id) = some d) :
    ∃ m ∈ sent es, Between u v m ∧ id = m.copyId far u ∧ d = m.data
      ∧ (Message.init (some u) d).chatPartnerId = v
      ∧ ((Message.init (some u) d).isFromCurrentUser = true ↔ m.sender = u) := by
  have hdoc : docs (messagePath u v id) ≠ none := by rw [hd]; simp
  rcases h.others u v id hname hdoc with hold | ⟨c, hc, hpath⟩
  · exact absurd (hstart id) hold
  obtain ⟨hm, hfirst⟩ := h.named c hc
  have hkept := h.kept c hc (hdone _)
  obtain ⟨howner, hpartner, hid⟩ := messagePath_inj hpath
  rw [hpath] at hkept
  have hdata : d = c.message.data := by
    have hthere := hkept.2 fun hdeleted => hdoc (hkept.1 hdeleted)
    exact Option.some.inj (hd.symm.trans hthere)
  refine ⟨c.message, hm, ?_⟩
  obtain ⟨m, first, id'⟩ := c
  cases first with
  | true =>
    obtain rfl : m.sender = u := howner
    refine ⟨Or.inl ⟨rfl, hpartner⟩, ?_, hdata, ?_⟩
    · rw [← hid, hfirst rfl]
      exact (if_pos rfl).symm
    · rw [hdata]
      exact decoded_near hm hpartner
  | false =>
    obtain rfl : m.receiver = u := howner
    have hsender : m.sender ≠ m.receiver := fun heq => hne (heq.symm.trans hpartner)
    refine ⟨Or.inr ⟨hpartner, rfl⟩, ?_, hdata, ?_⟩
    · rw [← hid]
      exact (hunique m hm _ hc).trans (if_neg hsender).symm
    · rw [hdata]
      exact decoded_far hm hsender hpartner

end Side

/-- **No message is lost, duplicated or deleted by the other side.** Any calls of
`uploadMessage` and `deleteMessages` from any sessions, in any interleaving with no write
failing: whenever nothing is in flight, each of two users has every message between them
exactly once, as it was sent, unless a call of their own has deleted it. -/
theorem messages_delivered {w₀ w : AppWorld String S} (hrest : w₀.Quiescent)
    (run : Run api MessageAction.program MailOk w₀ es w)
    (hnew : NeverRepeated w₀.backend.docs.lookup es) (hquiet : w.Quiescent) {u v : String}
    (hne : u ≠ v) (hstart : ∀ id, w₀.backend.docs.lookup (messagePath u v id) = none
      ∧ w₀.backend.docs.lookup (messagePath v u id) = none)
    (hnames : u ≠ recentMessages ∧ v ≠ recentMessages) :
    ∃ far, Delivered w₀ es w far u v ∧ Delivered w₀ es w far v u := by
  obtain ⟨errands, log, hat, hrun, hlog⟩ := mailRun_of_run (fun _ _ h => h.1) hrest run
  obtain ⟨copies, h⟩ := accounted_of_mailRun hrun hnew (unreserved_of_run run)
  rw [hquiet] at hat
  cases hat
  have hdone : ∀ c, ¬ Pending ([] : List (S × (Errand × Bool))) c := fun c => not_pending_nil
  have hfar : ∀ m ∈ sent es, ∃ id, ⟨m, false, id⟩ ∈ copies
      ∧ ∀ id', ⟨m, false, id'⟩ ∈ copies → id' = id := by
    intro m hm
    rcases h.far m hm with hmem | hfar
    · exact absurd hmem List.not_mem_nil
    · exact hfar
  choose! far hfar hunique using hfar
  -- both sides are the same argument
  have hside : ∀ u v : String, u ≠ v → v ≠ recentMessages →
      (∀ id, w₀.backend.docs.lookup (messagePath u v id) = none) →
      Delivered w₀ es w far u v := by
    intro u v hne hname hstart
    refine ⟨?_, ?_, ?_, ?_⟩
    · intro m hm m' hm' hbetween hbetween' heq
      obtain ⟨first, hmem, hpath⟩ := h.copy_of_between hfar hne hm hbetween
      obtain ⟨first', hmem', hpath'⟩ := h.copy_of_between hfar hne hm' hbetween'
      have hsame := h.eq_of_path hnew.1 hmem hmem' (by rw [hpath, hpath', heq])
      exact congrArg Copy.message hsame
    · intro m hm hbetween
      obtain ⟨first, hmem, hpath⟩ := h.copy_of_between hfar hne hm hbetween
      have hkept := h.kept _ hmem (hdone _)
      rw [hpath] at hkept
      have hdeleted : Deleted log (messagePath u v (m.copyId far u))
          ↔ ∃ s, CommittedBy w₀ es s (.delete (messagePath u v (m.copyId far u))) :=
        exists_congr fun s => (hlog s _).symm
      rw [hdeleted] at hkept
      exact hkept
    · exact fun id d hd => h.message_of_stored hunique hne hname hstart hdone hd
    · intro s id hcommitted
      exact (h.cleared s u v id ((hlog s _).mp hcommitted) hname).1
  obtain ⟨hu, hv⟩ := hnames
  exact ⟨far, hside u v hne hv fun id => (hstart id).1,
    hside v u (Ne.symm hne) hu fun id => (hstart id).2⟩

end Copies

/-! ## A run -/

/-- A user with this uid. -/
def chatPartner (uid : String) : User := User.init (dict [("uid", .string uid)])

/-- `u` writes to `v`, who deletes the conversation. -/
def writeAndDelete : List (AppEvent String MessageAction) :=
  [.invoke "a" (.uploadMessage "hi" (chatPartner "v")) (turnWith "u" "i1"), .serve 0 (.success []),
    .deliver 0 (turnWith "u" "i2"), .serve 0 (.success []), .serve 1 (.success []),
    .serve 2 (.success []), .deliver 0 (turnWith "u" "i3"), .deliver 0 (turnWith "u" "i4"),
    .deliver 0 (turnWith "u" "i5"),
    .invoke "b" (.deleteMessages (chatPartner "u")) (turnWith "v" "i6"), .serve 0 (.success ["i2"]),
    .serve 1 (.success []), .deliver 0 (turnWith "v" "i7"), .deliver 0 (turnWith "v" "i8"),
    .serve 0 (.success []), .deliver 0 (turnWith "v" "i9")]

/-- Afterwards `u` has the message and `v` does not. -/
theorem messages_delivered_once :
    ∃ w, Run api MessageAction.program MailOk (atRest Backend.empty fun _ => "hi") writeAndDelete w
      ∧ w.Quiescent ∧ w.backend.exists (messagePath "u" "v" "i1") = true
      ∧ w.backend.exists (messagePath "v" "u" "i2") = false
      ∧ ∃ far, Delivered (atRest Backend.empty fun _ => "hi") writeAndDelete w far "u" "v"
        ∧ Delivered (atRest Backend.empty fun _ => "hi") writeAndDelete w far "v" "u" := by
  obtain ⟨w, run, hquiet, hnear, hfar⟩ : ∃ w, Run api MessageAction.program MailOk
      (atRest Backend.empty fun _ => "hi") writeAndDelete w
      ∧ w.Quiescent ∧ w.backend.exists (messagePath "u" "v" "i1") = true
      ∧ w.backend.exists (messagePath "v" "u" "i2") = false := exists_run_of_play (by decide)
  have hnew : NeverRepeated
      (atRest (S := String) Backend.empty fun _ => "hi").backend.docs.lookup writeAndDelete :=
    ⟨by decide, fun _ _ _ _ => rfl⟩
  have hrest : (atRest (σ := String) (S := String) Backend.empty fun _ => "hi").Quiescent := rfl
  exact ⟨w, run, hquiet, hnear, hfar, messages_delivered hrest run hnew hquiet (by decide)
    (fun _ => ⟨rfl, rfl⟩) (by decide)⟩

end InstaClone
