import Mathlib.Data.List.Nodup
import InstaClone.Async.Guard
import InstaClone.Async.Trace
import InstaClone.Async.Turns

/-!
# Entries made once, under names that are drawn afresh

Some requests make an entry: they store data under a name of the client's own choosing. A
`Book` says which requests do, which key a turn draws and which key a name carries. A
program `EntersIn` the book if in every turn it makes at most one entry, under the key of
that turn; this asks nothing of the replies, so it is read off the program.

When no key is drawn twice, no name is entered twice (`Run.entries_nodup`), and the entries
of a whole run are a function from names to data. So there is one `ledger` for the run, and
the run is one in which every entry is in the ledger (`Run.recorded`). That turns a fact
about the past ("this is what was entered under the name") into a parameter: a contract may
mention the ledger, and `World.Keeps.run_recorded` is the contract rule for it.
-/

namespace Async

variable {Req : Type} {Resp : Req → Type} {E σ τ S B O A N D K α : Type}

/-- Which requests make an entry, and the key that a turn draws and a name carries. -/
structure Book (Req E N D K : Type) where
  entry : Req → Option (N × D)
  key : E → K
  keyOf : N → K

/-- In the turn `e` the program makes no entry. Its callbacks may. -/
def Prog.BlankIn (L : Book Req E N D K) : Prog Req Resp E σ → E → Prop
  | done, _ => True
  | call r _ rest, e => L.entry r = none ∧ rest.BlankIn L e
  | modify _ rest, e => rest.BlankIn L e
  | read k, e => ∀ s, (k s).BlankIn L e
  | ask k, e => (k e).BlankIn L e

/-- In the turn `e`, and in the turn of every callback, the program makes at most one entry,
under the key of the turn. -/
def Prog.EntersIn (L : Book Req E N D K) : Prog Req Resp E σ → E → Prop
  | done, _ => True
  | call r k rest, e =>
    (∀ x ∈ L.entry r, L.keyOf x.1 = L.key e ∧ rest.BlankIn L e)
      ∧ (∀ y e', (k y).EntersIn L e') ∧ rest.EntersIn L e
  | modify _ rest, e => rest.EntersIn L e
  | read k, e => ∀ s, (k s).EntersIn L e
  | ask k, e => (k e).EntersIn L e

/-- So does what is left of a flight. -/
def Flight.Enters (L : Book Req E N D K) : Flight Req Resp E σ → Prop
  | issued _ k => ∀ y e, (k y).EntersIn L e
  | served _ p => ∀ e, p.EntersIn L e

section Rules

variable {L : Book Req E N D K} {e : E} {p q : Prog Req Resp E σ}

@[simp] theorem Prog.entersIn_ask {k : E → Prog Req Resp E σ} :
    (Prog.ask k).EntersIn L e ↔ (k e).EntersIn L e := Iff.rfl

theorem Prog.BlankIn.andThen (hp : p.BlankIn L e) (hq : q.BlankIn L e) :
    (p.andThen q).BlankIn L e := by
  induction p with
  | done => exact hq
  | call r k rest _ ih => exact ⟨hp.1, ih hp.2⟩
  | modify f rest ih => exact ih hp
  | read k ih => exact fun s => ih s (hp s)
  | ask k ih => exact ih e hp

/-- A sequence may make its entry in its second part, -/
theorem Prog.EntersIn.after (hblank : p.BlankIn L e) (hp : p.EntersIn L e)
    (hq : q.EntersIn L e) : (p.andThen q).EntersIn L e := by
  induction p with
  | done => exact hq
  | call r k rest _ ih =>
    refine ⟨fun x hx => ?_, hp.2.1, ih hblank.2 hp.2.2⟩
    rw [hblank.1] at hx
    exact absurd hx (by simp)
  | modify f rest ih => exact ih hblank hp
  | read k ih => exact fun s => ih s (hblank s) (hp s)
  | ask k ih => exact ih e hblank hp

/-- or in its first. -/
theorem Prog.EntersIn.before (hp : p.EntersIn L e) (hblank : q.BlankIn L e)
    (hq : q.EntersIn L e) : (p.andThen q).EntersIn L e := by
  induction p with
  | done => exact hq
  | call r k rest _ ih =>
    refine ⟨fun x hx => ?_, hp.2.1, ih hp.2.2⟩
    obtain ⟨hkey, hrest⟩ := hp.1 x hx
    exact ⟨hkey, hrest.andThen hblank⟩
  | modify f rest ih => exact ih hp
  | read k ih => exact fun s => ih s (hp s)
  | ask k ih => exact ih e hp

/-- A program whose requests make no entry, whatever is answered. -/
theorem Prog.Spares.blankIn {ok : Req → Prop} {obs : σ → α} (h : p.Spares ok obs)
    (hok : ∀ r, ok r → L.entry r = none) (e : E) : p.BlankIn L e := by
  induction p with
  | done => trivial
  | call r k rest _ ih => exact ⟨hok r h.1, ih h.2.2⟩
  | modify f rest ih => exact ih h.2
  | read k ih => exact fun s => ih s (h s)
  | ask k ih => exact ih e (h e)

theorem Prog.Spares.entersIn {ok : Req → Prop} {obs : σ → α} (h : p.Spares ok obs)
    (hok : ∀ r, ok r → L.entry r = none) (e : E) : p.EntersIn L e := by
  induction p generalizing e with
  | done => trivial
  | call r k rest ihk ih =>
    refine ⟨fun x hx => ?_, fun y => ihk y (h.2.1 y), ih h.2.2 e⟩
    rw [hok r h.1] at hx
    exact absurd hx (by simp)
  | modify f rest ih => exact ih h.2 e
  | read k ih => exact fun s => ih s (h s) e
  | ask k ih => exact ih e (h e) e

theorem Prog.BlankIn.zoom {get : τ → Option σ} {set : σ → τ → τ} (h : p.BlankIn L e) :
    (p.zoom get set).BlankIn L e := by
  induction p with
  | done => trivial
  | call r k rest _ ih => exact ⟨h.1, ih h.2⟩
  | modify f rest ih => exact ih h
  | read k ih =>
    intro t
    dsimp only
    cases get t with
    | none => trivial
    | some s => exact ih s (h s)
  | ask k ih => exact ih e h

/-- A program on a part of the state. -/
theorem Prog.EntersIn.zoom {get : τ → Option σ} {set : σ → τ → τ} (h : p.EntersIn L e) :
    (p.zoom get set).EntersIn L e := by
  induction p generalizing e with
  | done => trivial
  | call r k rest ihk ih =>
    refine ⟨fun x hx => ?_, fun y e' t => ?_, ih h.2.2⟩
    · obtain ⟨hkey, hblank⟩ := h.1 x hx
      exact ⟨hkey, hblank.zoom⟩
    · dsimp only
      split
      next => exact ihk y (h.2.1 y e')
      next => trivial
  | modify f rest ih => exact ih h
  | read k ih =>
    intro t
    dsimp only
    cases get t with
    | none => trivial
    | some s => exact ih s (h s)
  | ask k ih => exact ih e h

/-- The entries that a list of flights makes. -/
def Book.page (L : Book Req E N D K) (flights : List (Flight Req Resp E σ)) : List (N × D) :=
  flights.filterMap fun fl => L.entry fl.req

theorem Book.page_cons (fl : Flight Req Resp E σ) (flights : List (Flight Req Resp E σ)) :
    L.page (fl :: flights) = (L.entry fl.req).toList ++ L.page flights := by
  unfold Book.page
  rw [List.filterMap_cons]
  cases L.entry fl.req <;> rfl

theorem Prog.BlankIn.exec (h : p.BlankIn L e) (s : σ) : L.page (p.exec e s).2 = [] := by
  induction p generalizing s with
  | done => rfl
  | call r k rest _ ih =>
    rw [exec_call, Book.page_cons, Flight.req_issued, h.1, ih h.2 s]
    rfl
  | modify f rest ih => exact ih h (f s)
  | read k ih => exact ih s (h s) s
  | ask k ih => exact ih e h s

/-- One turn makes no entry, or one under its own key. -/
theorem Prog.EntersIn.exec (h : p.EntersIn L e) (s : σ) :
    (L.page (p.exec e s).2 = [] ∨ ∃ x, L.page (p.exec e s).2 = [x] ∧ L.keyOf x.1 = L.key e)
      ∧ ∀ fl ∈ (p.exec e s).2, fl.Enters L := by
  induction p generalizing s with
  | done => exact ⟨Or.inl rfl, fun fl hfl => absurd hfl (by simp)⟩
  | call r k rest _ ih =>
    obtain ⟨hentry, hk, hrest⟩ := h
    obtain ⟨hpage, hfls⟩ := ih hrest s
    refine ⟨?_, fun fl hfl => ?_⟩
    · rw [exec_call, Book.page_cons, Flight.req_issued]
      cases hr : L.entry r with
      | none => exact hpage
      | some x =>
        obtain ⟨hkey, hblank⟩ := hentry x hr
        rw [hblank.exec s]
        exact Or.inr ⟨x, rfl, hkey⟩
    · rcases List.mem_cons.mp hfl with rfl | hfl
      · exact hk
      · exact hfls fl hfl
  | modify f rest ih => exact ih h (f s)
  | read k ih => exact ih s (h s) s
  | ask k ih => exact ih e h s

end Rules

/-! ## The entries of a run -/

/-- The flights that the turn of an event issues, with their session. -/
def World.issues (act : A → Prog Req Resp E σ) (w : World Req Resp E σ S B) :
    Event S A E O → List (S × Flight Req Resp E σ)
  | .invoke s a e => ((act a).exec e (w.client s)).2.map fun fl => (s, fl)
  | .deliver i e =>
    match w.pool[i]? with
    | some (s, .served _ p) => (p.exec e (w.client s)).2.map fun fl => (s, fl)
    | _ => []
  | _ => []

/-- What the callback of a split pool issues. -/
theorem World.issues_deliver {act : A → Prog Req Resp E σ} {w : World Req Resp E σ S B}
    {pre post : List (S × Flight Req Resp E σ)} {s : S} {r : Req} {p : Prog Req Resp E σ}
    (hpool : w.pool = pre ++ (s, .served r p) :: post) (e : E) :
    w.issues (O := O) act (.deliver pre.length e)
      = (p.exec e (w.client s)).2.map fun fl => (s, fl) := by
  unfold World.issues
  simp only [getElem?_split hpool]

/-- The entries that an event makes. -/
def Book.entries (L : Book Req E N D K) (act : A → Prog Req Resp E σ)
    (w : World Req Resp E σ S B) (ev : Event S A E O) : List (N × D) :=
  L.page ((w.issues act ev).map Prod.snd)

/-- Every entry that an event makes is in the ledger. -/
def Book.Records (L : Book Req E N D K) (act : A → Prog Req Resp E σ) (ledger : N → Option D)
    (w : World Req Resp E σ S B) (ev : Event S A E O) : Prop :=
  ∀ x ∈ L.entries act w ev, ledger x.1 = some x.2

/-- The entry that a request makes, if any, is in the ledger. -/
def Book.InLedger (L : Book Req E N D K) (ledger : N → Option D) (r : Req) : Prop :=
  ∀ x ∈ L.entry r, ledger x.1 = some x.2

section Runs

variable [DecidableEq S] {L : Book Req E N D K} {api : Api Req Resp B O}
  {act : A → Prog Req Resp E σ} {ok : World Req Resp E σ S B → Event S A E O → Prop}
  {w₀ w w' : World Req Resp E σ S B} {es : List (Event S A E O)} {ev : Event S A E O}

/-- What is in flight after a step has been issued in its turn, or is the same request of the
same session as before. -/
theorem Stepped.mem_pool (hstep : Stepped api act w ev w') :
    ∀ x ∈ w'.pool, x ∈ w.issues act ev ∨ ∃ x' ∈ w.pool, x'.1 = x.1 ∧ x'.2.req = x.2.req := by
  intro x hx
  cases hstep with
  | invoke s a e =>
    rcases List.mem_append.mp hx with hx | hx
    · exact Or.inr ⟨x, hx, rfl, rfl⟩
    · exact Or.inl hx
  | serve hpool hfifo hs =>
    rename_i pre post s r k o b y
    rcases List.mem_append.mp hx with hx | hx
    · exact Or.inr ⟨x, mem_split_left hpool hx, rfl, rfl⟩
    rcases List.mem_cons.mp hx with rfl | hx
    · exact Or.inr ⟨(s, .issued r k), mem_split hpool, rfl, rfl⟩
    · exact Or.inr ⟨x, mem_split_right hpool hx, rfl, rfl⟩
  | deliver hpool hfifo =>
    rename_i pre post s r p e
    rcases List.mem_append.mp hx with hx | hx
    · exact Or.inr ⟨x, mem_split_rest hpool hx, rfl, rfl⟩
    · refine Or.inl ?_
      rw [World.issues_deliver hpool]
      exact hx
  | drop hpool => exact Or.inr ⟨x, mem_split_rest hpool hx, rfl, rfl⟩

/-- What everything in flight enters stays so, and a step makes at most one entry, under the
key of its turn. -/
theorem Stepped.enters (hact : ∀ a e, (act a).EntersIn L e) (hstep : Stepped api act w ev w')
    (h : ∀ x ∈ w.pool, x.2.Enters L) :
    (∀ x ∈ w'.pool, x.2.Enters L)
      ∧ ((L.entries act w ev).map fun x => L.keyOf x.1).Sublist (ev.turn.toList.map L.key) := by
  have hturn : ∀ (s : S) (p : Prog Req Resp E σ) (e : E), (∀ e, p.EntersIn L e) →
      ((L.page (((p.exec e (w.client s)).2.map fun fl => (s, fl)).map Prod.snd)).map
        fun x => L.keyOf x.1).Sublist [L.key e] := by
    intro s p e hp
    rw [List.map_map, show Prod.snd ∘ (fun fl => (s, fl)) = (id : Flight Req Resp E σ → _) from rfl,
      List.map_id]
    rcases ((hp e).exec (w.client s)).1 with hpage | ⟨x, hpage, hkey⟩
    · rw [hpage]
      exact List.nil_sublist _
    · rw [hpage, ← hkey]
      exact List.Sublist.refl _
  refine ⟨?_, ?_⟩
  · refine hstep.flights (P := fun fl => fl.Enters L) h ?_ ?_ ?_
    · intro s a e _ fl hfl
      exact ((hact a e).exec (w.client s)).2 fl hfl
    · intro r k y hk
      exact hk y
    · intro r p e s hp fl hfl
      exact ((hp e).exec s).2 fl hfl
  · cases hstep with
    | invoke s a e => exact hturn s (act a) e (hact a)
    | serve hpool hfifo hs => exact List.nil_sublist _
    | deliver hpool hfifo =>
      rename_i pre post s r p e
      unfold Book.entries
      rw [World.issues_deliver hpool]
      exact hturn s p e (h (s, .served r p) (mem_split hpool))
    | drop hpool => exact List.nil_sublist _

/-- The entries of a run are made under keys that its turns have drawn, in that order. -/
theorem Run.entries_keys (hact : ∀ a e, (act a).EntersIn L e) (hquiet : w₀.Quiescent)
    (run : Run api act ok w₀ es w) :
    (∀ x ∈ w.pool, x.2.Enters L)
      ∧ ((history api act (L.entries act) w₀ es).map fun x => L.keyOf x.1).Sublist
        ((es.filterMap Event.turn).map L.key) := by
  induction run with
  | nil =>
    refine ⟨fun x hx => ?_, List.nil_sublist _⟩
    rw [hquiet] at hx
    exact absurd hx List.not_mem_nil
  | snoc run hok hstep ih =>
    rename_i es w w' ev
    obtain ⟨hpool, hentries⟩ := (stepped_of_step hstep).enters hact ih.1
    refine ⟨hpool, ?_⟩
    rw [run.history_snoc hstep, List.map_append, List.filterMap_append, List.map_append]
    refine ih.2.append ?_
    cases hev : ev.turn with
    | none =>
      rw [hev] at hentries
      simpa [hev] using hentries
    | some e =>
      rw [hev] at hentries
      simpa [hev] using hentries

/-- **Entries are made once.** When no key is drawn twice, no name is entered twice. -/
theorem Run.entries_nodup (hact : ∀ a e, (act a).EntersIn L e) (hquiet : w₀.Quiescent)
    (hkeys : ((es.filterMap Event.turn).map L.key).Nodup) (run : Run api act ok w₀ es w) :
    ((history api act (L.entries act) w₀ es).map Prod.fst).Nodup := by
  have hsub := (run.entries_keys hact hquiet).2
  refine List.Nodup.of_map L.keyOf ?_
  rw [List.map_map]
  exact hkeys.sublist hsub

/-- So the entries of the run are a function of their names. -/
theorem Run.exists_ledger (hact : ∀ a e, (act a).EntersIn L e) (hquiet : w₀.Quiescent)
    (hkeys : ((es.filterMap Event.turn).map L.key).Nodup) (run : Run api act ok w₀ es w) :
    ∃ ledger : N → Option D,
      ∀ n d, ledger n = some d ↔ (n, d) ∈ history api act (L.entries act) w₀ es := by
  classical
  refine ⟨fun n => (history api act (L.entries act) w₀ es).lookup n, fun n d => ?_⟩
  have hnodup := run.entries_nodup hact hquiet hkeys
  generalize history api act (L.entries act) w₀ es = entries at hnodup ⊢
  rw [← Option.mem_def]
  constructor
  · intro h
    obtain ⟨l₁, l₂, rfl, -⟩ := List.lookup_eq_some_iff.mp h
    simp
  · intro h
    obtain ⟨l₁, l₂, rfl⟩ := List.append_of_mem h
    refine List.lookup_eq_some_iff.mpr ⟨l₁, l₂, rfl, fun x hx => ?_⟩
    rw [List.map_append, List.map_cons, List.nodup_middle, List.nodup_cons] at hnodup
    rw [bne_iff_ne]
    intro hname
    exact hnodup.1 (List.mem_append_left _ (List.mem_map.mpr ⟨x, hx, hname.symm⟩))

/-- A run is one in which every entry is in any ledger that has its entries. -/
theorem Run.recorded {ledger : N → Option D} (run : Run api act ok w₀ es w)
    (h : ∀ x ∈ history api act (L.entries act) w₀ es, ledger x.1 = some x.2) :
    Run api act (fun w ev => ok w ev ∧ L.Records act ledger w ev) w₀ es w := by
  induction run with
  | nil => exact .nil
  | snoc run hok hstep ih =>
    rw [run.history_snoc hstep] at h
    refine .snoc (ih fun x hx => h x (List.mem_append_left _ hx)) ⟨hok, fun x hx => ?_⟩ hstep
    exact h x (List.mem_append_right _ hx)

/-- What is in flight stays in the ledger. -/
theorem Stepped.inLedger {ledger : N → Option D} (hstep : Stepped api act w ev w')
    (h : ∀ x ∈ w.pool, L.InLedger ledger x.2.req) (hrecords : L.Records act ledger w ev) :
    ∀ x ∈ w'.pool, L.InLedger ledger x.2.req := by
  intro x hx
  rcases hstep.mem_pool x hx with hnew | ⟨x', hx', -, hreq⟩
  · intro y hy
    exact hrecords y (List.mem_filterMap.mpr ⟨x.2, List.mem_map_of_mem hnew, hy⟩)
  · rw [← hreq]
    exact h x' hx'

/-- **The contract rule with a ledger.** As `World.Keeps.run`, and the requests that are served
have their entries in the ledger. -/
theorem World.Keeps.run_recorded {ledger : N → Option D} {C : S → Contract Req Resp E σ}
    {I : B → Prop} (h : w₀.Keeps C I) (hpool : ∀ x ∈ w₀.pool, L.InLedger ledger x.2.req)
    (run : Run api act ok w₀ es w)
    (hrecords : ∀ w ev, ok w ev → L.Records act ledger w ev)
    (hserve : ∀ w i o s r k e b' y, ok w (.serve i o) → w.pool[i]? = some (s, .issued r k) →
      I w.backend → (C s).env e → (C s).req e r → L.InLedger ledger r →
      api.serve w.backend r o = some (b', y) → I b' ∧ (C s).resp r y)
    (hact : ∀ w ev, ok w ev → ActOk (fun s a => (act a).Keeps (C s)) w ev)
    (henv : ∀ w ev, ok w ev → EnvOk (fun s e => (C s).env e) w ev) :
    w.Keeps C I ∧ ∀ x ∈ w.pool, L.InLedger ledger x.2.req := by
  refine run.invariant
    (I := fun _ w => w.Keeps C I ∧ ∀ x ∈ w.pool, L.InLedger ledger x.2.req) ⟨h, hpool⟩ ?_
  intro es w ev w' hw hok hstep
  refine ⟨hw.1.step ?_ (hact w ev hok) (henv w ev hok) hstep,
    hstep.inLedger hw.2 (hrecords w ev hok)⟩
  intro i o hev s r k hi e b' y he hr hs
  subst hev
  exact hserve w i o s r k e b' y hok hi hw.1.backend he hr
    (hw.2 _ (List.mem_of_getElem? hi)) hs

/-! ## An entry is served once -/

/-- The entry of the request that an event serves. -/
def Book.served (L : Book Req E N D K) (w : World Req Resp E σ S B) :
    Event S A E O → List (N × D)
  | .serve i _ =>
    match w.pool[i]? with
    | some (_, .issued r _) => (L.entry r).toList
    | _ => []
  | _ => []

/-- The entries that wait to be served. -/
def Book.waiting (L : Book Req E N D K) (pool : List (S × Flight Req Resp E σ)) : List (N × D) :=
  pool.flatMap fun x => if x.2.waits then (L.entry x.2.req).toList else []

omit [DecidableEq S] in
theorem Book.waiting_append (pool pool' : List (S × Flight Req Resp E σ)) :
    L.waiting (pool ++ pool') = L.waiting pool ++ L.waiting pool' := List.flatMap_append

omit [DecidableEq S] in
theorem Book.waiting_served (s : S) (r : Req) (p : Prog Req Resp E σ)
    (pool : List (S × Flight Req Resp E σ)) :
    L.waiting ((s, .served r p) :: pool) = L.waiting pool := rfl

omit [DecidableEq S] in
theorem Book.waiting_issued (s : S) (r : Req) (k : Resp r → Prog Req Resp E σ)
    (pool : List (S × Flight Req Resp E σ)) :
    L.waiting ((s, .issued r k) :: pool) = (L.entry r).toList ++ L.waiting pool := rfl

/-- A turn leaves everything it issues waiting. -/
theorem Prog.exec_waits (p : Prog Req Resp E σ) (e : E) (x : σ) :
    ∀ fl ∈ (p.exec e x).2, fl.waits = true := by
  induction p generalizing x with
  | done => exact fun fl hfl => absurd hfl (by simp)
  | call r k rest _ ih =>
    intro fl hfl
    rcases List.mem_cons.mp hfl with rfl | hfl
    · rfl
    · exact ih x fl hfl
  | modify f rest ih => exact ih (f x)
  | read k ih => exact ih x x
  | ask k ih => exact ih e x

omit [DecidableEq S] in
/-- So what it enters waits. -/
theorem Book.waiting_issues (s : S) {flights : List (Flight Req Resp E σ)}
    (h : ∀ fl ∈ flights, fl.waits = true) :
    L.waiting (flights.map fun fl => (s, fl)) = L.page flights := by
  induction flights with
  | nil => rfl
  | cons fl flights ih =>
    rw [List.map_cons, Book.page_cons, ← ih fun x hx => h x (List.mem_cons_of_mem _ hx)]
    show (if fl.waits then (L.entry fl.req).toList else []) ++ _ = _
    rw [if_pos (h fl (List.mem_cons_self ..))]
    rfl

/-- A step moves an entry from the waiting to the served, or adds those of its turn. -/
theorem Stepped.entries (hstep : Stepped api act w ev w') :
    (L.waiting w'.pool ++ L.served w ev).Perm (L.waiting w.pool ++ L.entries act w ev) := by
  have hturn : ∀ (s : S) (p : Prog Req Resp E σ) (e : E),
      L.waiting ((p.exec e (w.client s)).2.map fun fl => (s, fl))
        = L.page (((p.exec e (w.client s)).2.map fun fl => (s, fl)).map Prod.snd) := by
    intro s p e
    rw [Book.waiting_issues s (p.exec_waits e (w.client s)), List.map_map]
    simp [Function.comp_def]
  cases hstep with
  | invoke s a e =>
    rw [World.turn_pool, Book.waiting_append, hturn]
    exact (List.append_nil _).symm ▸ List.Perm.refl _
  | serve hpool hfifo hs =>
    rename_i pre post s r k o b y
    have hserved : L.served (A := A) w (.serve pre.length o) = (L.entry r).toList := by
      unfold Book.served
      simp only [getElem?_split hpool]
    rw [hserved, hpool, Book.waiting_append, Book.waiting_append, Book.waiting_served,
      Book.waiting_issued]
    show List.Perm _ (_ ++ [])
    rw [List.append_nil, List.append_assoc]
    exact List.Perm.append_left _ List.perm_append_comm
  | deliver hpool hfifo =>
    rename_i pre post s r p e
    unfold Book.entries
    rw [World.issues_deliver hpool, World.turn_pool, Book.waiting_append, hturn, hpool,
      Book.waiting_append, Book.waiting_append, Book.waiting_served]
    exact (List.append_nil _).symm ▸ List.Perm.refl _
  | drop hpool =>
    rename_i pre post s r p
    show List.Perm (L.waiting (pre ++ post) ++ []) (L.waiting w.pool ++ [])
    rw [hpool, Book.waiting_append, Book.waiting_append, Book.waiting_served]

/-- **Every entry is waiting or has been served**, and none is both or twice. -/
theorem Run.entries_perm (hquiet : w₀.Quiescent) (run : Run api act ok w₀ es w) :
    (L.waiting w.pool ++ history api act (fun w ev => L.served w ev) w₀ es).Perm
      (history api act (L.entries act) w₀ es) := by
  induction run with
  | nil =>
    rw [hquiet]
    exact List.Perm.refl _
  | snoc run hok hstep ih =>
    rename_i es w w' ev
    rw [run.history_snoc hstep, run.history_snoc hstep]
    have hserved := (stepped_of_step hstep).entries (L := L)
    generalize history api act (fun w ev => L.served w ev) w₀ es = served at ih ⊢
    calc
      List.Perm (L.waiting w'.pool ++ (served ++ L.served w ev))
          (L.waiting w'.pool ++ L.served w ev ++ served) := by
        rw [List.append_assoc]
        exact List.Perm.append_left _ List.perm_append_comm
      List.Perm _ (L.waiting w.pool ++ L.entries act w ev ++ served) := hserved.append_right _
      List.Perm _ (L.waiting w.pool ++ served ++ L.entries act w ev) := by
        rw [List.append_assoc, List.append_assoc]
        exact List.Perm.append_left _ List.perm_append_comm
      List.Perm _ (history api act (L.entries act) w₀ es ++ L.entries act w ev) :=
        ih.append_right _

/-- When no key is drawn twice, no name is served twice. -/
theorem Run.served_nodup (hact : ∀ a e, (act a).EntersIn L e) (hquiet : w₀.Quiescent)
    (hkeys : ((es.filterMap Event.turn).map L.key).Nodup) (run : Run api act ok w₀ es w) :
    ((history api act (fun w ev => L.served w ev) w₀ es).map Prod.fst).Nodup := by
  have hperm := (run.entries_perm (L := L) hquiet).map Prod.fst
  rw [List.map_append] at hperm
  exact (List.nodup_append.mp (hperm.nodup_iff.mpr (run.entries_nodup hact hquiet hkeys))).2.1

end Runs

end Async
