import InstaClone.Rows

/-!
# Snapshot listeners

A listener is told of a query's result bit by bit: each snapshot reports what has been added,
modified and removed since the last one, and the first reports the whole result as added. A
controller that listens keeps its own array, and is right as long as that array is the result
of the last snapshot. An ordered query has but one result (`Query.Answers.unique`).

`listening` puts a controller next to the store: writes are committed, and now and then, in
any grouping, a snapshot of the current result arrives. The controllers here only ever append
what is added (`Appends`). That is right as long as nothing shown is gone and nothing that is
added belongs before something shown (`Appended.snapshot`).
-/

namespace InstaClone

open Async (Machine)

/-! ## Results and changes -/

/-- An answer the query may give: its results, in the order it asks for. -/
structure Query.Answers (q : Query) (docs : Store) (result : List (String × Doc)) : Prop where
  perm : result.Perm (q.results docs)
  sorted : result.Pairwise fun x y => q.inOrder x y = true

theorem Query.nodup_results (q : Query) (docs : Store) : ((q.results docs).map Prod.fst).Nodup :=
  (docs.nodup_ids q.collection).sublist (List.filter_sublist.map _)

theorem Query.Answers.nodup {q : Query} {docs : Store} {result : List (String × Doc)}
    (h : q.Answers docs result) : (result.map Prod.fst).Nodup :=
  (h.perm.map Prod.fst).nodup_iff.mpr (q.nodup_results docs)

/-- An ordered query has one answer. -/
theorem Query.Answers.unique {q : Query} {docs : Store} {result result' : List (String × Doc)}
    (hordered : q.orderBy.isSome = true) (h : q.Answers docs result)
    (h' : result'.Perm result) (hsorted : result'.Pairwise fun x y => q.inOrder x y = true) :
    result' = result := by
  refine h'.eq_of_pairwise (fun x y hx hy hxy hyx => ?_) hsorted h.sorted
  exact List.inj_on_of_nodup_map h.nodup (h'.mem_iff.mp hx) hy
    (Query.inOrder_antisymm hordered hxy hyx)

/-- The documents that are reported as changed in this way. -/
def reported (type : DocumentChangeType) (changes : List (String × DocumentChange)) :
    List (String × Doc) :=
  (changes.filter fun change => change.2.type == type).map fun change =>
    (change.1, change.2.document)

/-- The changes from one result to the next. The documents that are added are reported in the
order of the result. -/
structure ChangesTo (old new : List (String × Doc)) (changes : List (String × DocumentChange)) :
    Prop where
  added : reported .added changes = new.filter fun x => x.1 ∉ old.map Prod.fst
  modified : ∀ x, x ∈ reported .modified changes ↔ x ∈ new ∧ x.1 ∈ old.map Prod.fst ∧ x ∉ old
  removed : ∀ x, x ∈ reported .removed changes ↔ x ∈ old ∧ x.1 ∉ new.map Prod.fst
  nodup : (changes.map Prod.fst).Nodup

theorem added_map_snd (changes : List (String × DocumentChange)) :
    added (changes.map Prod.snd) = (reported .added changes).map Prod.snd := by
  simp [added, reported, List.filter_map, Function.comp_def]

theorem mem_reported {changes : List (String × DocumentChange)} {change : String × DocumentChange}
    (h : change ∈ changes) :
    (change.1, change.2.document) ∈ reported change.2.type changes :=
  List.mem_map_of_mem (List.mem_filter.mpr ⟨h, beq_self_eq_true _⟩)

theorem id_mem_of_reported {type : DocumentChangeType} {changes : List (String × DocumentChange)}
    {x : String × Doc} (h : x ∈ reported type changes) : x.1 ∈ changes.map Prod.fst := by
  obtain ⟨change, hchange, rfl⟩ := List.mem_map.mp h
  exact List.mem_map_of_mem (List.mem_of_mem_filter hchange)

/-- What is shown and neither removed nor modified is still there. -/
theorem ChangesTo.kept {old new : List (String × Doc)} {changes : List (String × DocumentChange)}
    (h : ChangesTo old new changes) {x : String × Doc} (hx : x ∈ old)
    (hremoved : x ∉ reported .removed changes)
    (hmodified : ∀ d, (x.1, d) ∉ reported .modified changes)
    (hnodup : (old.map Prod.fst).Nodup) : x ∈ new := by
  have hid : x.1 ∈ new.map Prod.fst := by
    by_contra hgone
    exact hremoved ((h.removed x).mpr ⟨hx, hgone⟩)
  obtain ⟨⟨id, d⟩, hnew, rfl⟩ := List.mem_map.mp hid
  by_cases hold : (x.1, d) ∈ old
  · have heq : (x.1, d) = x := List.inj_on_of_nodup_map hnodup hold hx rfl
    exact heq ▸ hnew
  · have hid : x.1 ∈ old.map Prod.fst := List.mem_map_of_mem hx
    exact absurd ((h.modified _).mpr ⟨hnew, hid, hold⟩) (hmodified d)

/-- A document that is not reported at all is shown just as it is now. -/
theorem ChangesTo.unchanged {old new : List (String × Doc)}
    {changes : List (String × DocumentChange)} (h : ChangesTo old new changes)
    (hnodup : (old.map Prod.fst).Nodup) {x : String × Doc} (hx : x.1 ∉ changes.map Prod.fst) :
    x ∈ old ↔ x ∈ new := by
  constructor
  · exact fun hold => h.kept hold (fun hremoved => hx (id_mem_of_reported hremoved))
      (fun d hmodified => hx (id_mem_of_reported (x := (x.1, d)) hmodified)) hnodup
  · intro hnew
    by_contra hold
    by_cases hid : x.1 ∈ old.map Prod.fst
    · exact hx (id_mem_of_reported ((h.modified x).mpr ⟨hnew, hid, hold⟩))
    · have hadded : x ∈ reported .added changes := by
        rw [h.added]
        exact List.mem_filter.mpr ⟨hnew, decide_eq_true hid⟩
      exact hx (id_mem_of_reported hadded)

/-- Where nothing is gone or changed, what is new is added. -/
theorem ChangesTo.ofAdded {old new : List (String × Doc)} (hkept : ∀ x ∈ old, x ∈ new)
    (hnodup : (new.map Prod.fst).Nodup) :
    ChangesTo old new ((new.filter fun x => x.1 ∉ old.map Prod.fst).map fun x =>
      (x.1, ⟨.added, x.2⟩)) where
  added := by simp [reported, List.filter_map, Function.comp_def]
  modified x := by
    refine iff_of_false (by simp [reported, List.filter_map, Function.comp_def]) ?_
    rintro ⟨hx, hid, hold⟩
    obtain ⟨y, hy, hyx⟩ := List.mem_map.mp hid
    obtain rfl : y = x := List.inj_on_of_nodup_map hnodup (hkept y hy) hx hyx
    exact hold hy
  removed x := by
    refine iff_of_false (by simp [reported, List.filter_map, Function.comp_def]) ?_
    rintro ⟨hx, hgone⟩
    exact hgone (List.mem_map_of_mem (hkept x hx))
  nodup := by
    rw [List.map_map]
    exact hnodup.sublist (List.filter_sublist.map _)

/-- What was shown and what is added make up the result if everything shown is still there and
comes before what is added. -/
theorem Query.Answers.appended {q : Query} {docs : Store} {shown result : List (String × Doc)}
    {changes : List (String × DocumentChange)} (hordered : q.orderBy.isSome = true)
    (h : q.Answers docs result) (hsorted : shown.Pairwise fun x y => q.inOrder x y = true)
    (hshown : (shown.map Prod.fst).Nodup) (hchanges : ChangesTo shown result changes)
    (hkept : ∀ x ∈ shown, x ∈ result)
    (horder : ∀ x ∈ shown, ∀ y ∈ reported .added changes, q.inOrder x y = true) :
    shown ++ reported .added changes = result := by
  have hadded := hchanges.added
  refine h.unique hordered ?_ ?_
  · -- the result is what was shown and what was not
    have holds : (result.filter fun x => x.1 ∈ shown.map Prod.fst).Perm shown := by
      refine (List.perm_ext_iff_of_nodup ((h.nodup.of_map _).filter _) (hshown.of_map _)).mpr ?_
      intro x
      rw [List.mem_filter]
      constructor
      · rintro ⟨hx, hid⟩
        obtain ⟨y, hy, hyx⟩ := List.mem_map.mp (of_decide_eq_true hid)
        obtain rfl : y = x := List.inj_on_of_nodup_map h.nodup (hkept y hy) hx hyx
        exact hy
      · intro hx
        exact ⟨hkept x hx, decide_eq_true (List.mem_map_of_mem hx)⟩
    have hsplit := List.filter_append_perm (fun x => decide (x.1 ∈ shown.map Prod.fst)) result
    rw [hadded]
    refine (List.Perm.append holds.symm (.of_eq ?_)).trans hsplit
    exact List.filter_congr fun x _ => by simp
  · rw [List.pairwise_append]
    refine ⟨hsorted, ?_, horder⟩
    rw [hadded]
    exact h.sorted.filter _

/-! ## A controller that listens -/

/-- The stored documents, the result of the last snapshot, and the controller. -/
structure Listening (σ : Type) where
  docs : Store
  shown : List (String × Doc)
  controller : σ

/-- A write is committed, a snapshot arrives, or the listener fails. The environment `E` is
what the callback reads beside the snapshot. -/
inductive ListeningEvent (E : Type) where
  | commit (w : Write)
  | snapshot (e : E) (result : List (String × Doc)) (changes : List (String × DocumentChange))
  | failed (e : E)

/-- What a controller listens to, and how it hears of a snapshot. -/
structure Listener (σ Ev α E : Type) where
  source : RowSource σ Ev α
  query : Query
  hear : E → Option (List DocumentChange) → Ev

namespace Listener

variable {σ Ev α E : Type} (L : Listener σ Ev α E)

/-- The controller after its callback. -/
def react (controller : σ) (e : E) (changes : Option (List DocumentChange)) : σ :=
  (L.source.assign controller (L.hear e changes)).getD controller

/-- The controller next to a store that starts as `stored` and changes by writes that
`may` be committed. -/
def listening (stored : Store → Prop) (may : Store → Write → Prop) :
    Machine (Listening σ) (ListeningEvent E) where
  starts s := stored s.docs ∧ s.shown = [] ∧ s.controller = L.source.initial
  allows s
    | .commit w => may s.docs w
    | .snapshot e result changes =>
      L.query.Answers s.docs result ∧ ChangesTo s.shown result changes
        ∧ L.source.permits s.controller (L.hear e (some (changes.map Prod.snd)))
    | .failed _ => True
  step s
    | .commit w => (w.apply s.docs).map fun docs => { s with docs := docs }
    | .snapshot e result changes =>
      some { s with
        shown := result
        controller := L.react s.controller e (some (changes.map Prod.snd)) }
    | .failed e => some { s with controller := L.react s.controller e none }

section Run

variable {L} {stored : Store → Prop} {may : Store → Write → Prop}
  {ok : Listening σ → ListeningEvent E → Prop} {es : List (ListeningEvent E)} {s : Listening σ}

theorem run_commit (run : ((L.listening stored may).under ok).Run es s) {w : Write} {docs : Store}
    (hmay : may s.docs w) (hok : ok s (.commit w)) (hdocs : w.apply s.docs = some docs) :
    ((L.listening stored may).under ok).Run (es ++ [.commit w]) { s with docs := docs } := by
  refine .snoc run ⟨hmay, hok⟩ ?_
  show (w.apply s.docs).map _ = _
  rw [hdocs]
  rfl

theorem run_snapshot (run : ((L.listening stored may).under ok).Run es s) {e : E}
    {result : List (String × Doc)} {changes : List (String × DocumentChange)}
    (hanswers : L.query.Answers s.docs result) (hchanges : ChangesTo s.shown result changes)
    (hpermits : L.source.permits s.controller (L.hear e (some (changes.map Prod.snd))))
    (hok : ok s (.snapshot e result changes)) :
    ((L.listening stored may).under ok).Run (es ++ [.snapshot e result changes])
      { s with
        shown := result
        controller := L.react s.controller e (some (changes.map Prod.snd)) } :=
  .snoc run ⟨⟨hanswers, hchanges, hpermits⟩, hok⟩ rfl

end Run

/-- Every snapshot adds what comes after everything shown, in the order of the query. -/
def AddsAtEnd (s : Listening σ) : ListeningEvent E → Prop
  | .snapshot _ _ changes =>
    ∀ x ∈ s.shown, ∀ y ∈ reported .added changes, L.query.inOrder x y = true
  | _ => True

/-- The controller appends what is added to the array that its callback captures, and shows
that. -/
structure Appends (fetched : σ → List α) (decode : E → Doc → α) : Prop where
  init : fetched L.source.initial = []
  append : ∀ controller e changes, fetched (L.react controller e (some changes))
      = fetched controller ++ (added changes).map (decode e)
  array : ∀ controller e changes, L.source.array (L.react controller e (some changes))
      = fetched (L.react controller e (some changes))
  fail : ∀ controller e, fetched (L.react controller e none) = fetched controller

/-- The array holds `value` of everything shown, in the order it is shown in. Every document
the query finds is `good`. -/
structure AppendInv (fetched : σ → List α) (good : Doc → Prop) (value : Doc → α)
    (s : Listening σ) : Prop where
  array : fetched s.controller = s.shown.map fun x => value x.2
  sorted : s.shown.Pairwise fun x y => L.query.inOrder x y = true
  nodup : (s.shown.map Prod.fst).Nodup
  good : ∀ x ∈ L.query.results s.docs, good x.2

section AppendInv

variable {L} {fetched : σ → List α} {decode : E → Doc → α} {good : Doc → Prop} {value : Doc → α}
  {s : Listening σ} {e : E} {result : List (String × Doc)}
  {changes : List (String × DocumentChange)}

theorem AppendInv.start (hL : L.Appends fetched decode)
    (hgood : ∀ x ∈ L.query.results s.docs, good x.2) (hshown : s.shown = [])
    (hcontroller : s.controller = L.source.initial) : L.AppendInv fetched good value s := by
  refine ⟨?_, ?_, ?_, hgood⟩
  · rw [hcontroller, hshown, hL.init]
    rfl
  · rw [hshown]
    exact .nil
  · rw [hshown]
    exact .nil

theorem AppendInv.commit (h : L.AppendInv fetched good value s) {docs : Store}
    (hgood : ∀ x ∈ L.query.results docs, good x.2) :
    L.AppendInv fetched good value { s with docs := docs } := ⟨h.array, h.sorted, h.nodup, hgood⟩

theorem AppendInv.fail (hL : L.Appends fetched decode) (h : L.AppendInv fetched good value s) :
    L.AppendInv fetched good value { s with controller := L.react s.controller e none } :=
  ⟨(hL.fail _ _).trans h.array, h.sorted, h.nodup, h.good⟩

/-- A snapshot that takes nothing away and adds nothing in between keeps the array right. -/
theorem AppendInv.snapshot (hL : L.Appends fetched decode)
    (hordered : L.query.orderBy.isSome = true)
    (hvalue : ∀ e d, good d → decode e d = value d) (h : L.AppendInv fetched good value s)
    (hanswers : L.query.Answers s.docs result) (hchanges : ChangesTo s.shown result changes)
    (hkept : ∀ x ∈ s.shown, x ∈ result)
    (horder : ∀ x ∈ s.shown, ∀ y ∈ reported .added changes, L.query.inOrder x y = true) :
    L.AppendInv fetched good value
      { s with
        shown := result
        controller := L.react s.controller e (some (changes.map Prod.snd)) } := by
  have hresult := hanswers.appended hordered h.sorted h.nodup hchanges hkept horder
  refine ⟨?_, hanswers.sorted, hanswers.nodup, h.good⟩
  show fetched (L.react s.controller e (some (changes.map Prod.snd))) = result.map _
  rw [hL.append, h.array, added_map_snd, ← hresult, List.map_append, List.map_map]
  refine congrArg _ (List.map_congr_left fun x hx => hvalue e x.2 (h.good x ?_))
  exact hanswers.perm.mem_iff.mp (hresult ▸ List.mem_append_right _ hx)

/-- After a snapshot the controller shows its result. -/
theorem AppendInv.shows (hL : L.Appends fetched decode) {stored : Store → Prop}
    {may : Store → Write → Prop} {s' : Listening σ}
    (hallowed : (L.listening stored may).allows s (.snapshot e result changes))
    (hstep : (L.listening stored may).step s (.snapshot e result changes) = some s')
    (h : L.AppendInv fetched good value s') :
    L.query.Answers s'.docs result
      ∧ L.source.array s'.controller = result.map fun x => value x.2 := by
  obtain ⟨hanswers, -⟩ := hallowed
  obtain rfl := Option.some.inj hstep
  exact ⟨hanswers, (hL.array _ _ _).trans h.array⟩

end AppendInv

end Listener

end InstaClone
