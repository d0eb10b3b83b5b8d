import InstaClone.Async.Contract
import InstaClone.Async.Frame

/-!
# Contracts of a turn from the state it starts in

`Prog.KeepsIn` asks of a program that it keeps its contract whatever good state it
reads, at every statement. That is too much of a program that reads back what it has just
assigned, or that is only run where it is offered. `Prog.wp` is the weakest
precondition of one turn: what has to hold of the state a program starts in, so that it
issues only requests the contract allows and ends in a state with `Q`. Its callbacks run
in later turns, from any state the contract knows of.

`World.Meets` is the invariant that follows for runs, as `World.Keeps` does from
`Prog.KeepsIn`. `Prog.zoom` runs a program on a part of the state.
-/

namespace Async

variable {Req : Type} {Resp : Req → Type} {E σ τ S B O A α β : Type}

/-- The weakest precondition of a turn with environment `e`, for the contract `C` and `Q`
at its end. -/
def Prog.wp (C : Contract Req Resp E σ) : Prog Req Resp E σ → E → (σ → Prop) → σ → Prop
  | done, _, Q, s => Q s
  | call r k rest, e, Q, s =>
    C.req e r
      ∧ (∀ y, C.resp r y → ∀ e', C.env e' → ∀ s', C.state s' → (k y).wp C e' C.state s')
      ∧ rest.wp C e Q s
  | modify f rest, e, Q, s => rest.wp C e Q (f s)
  | read k, e, Q, s => (k s).wp C e Q s
  | ask k, e, Q, s => (k e).wp C e Q s

/-- From every good state, in every turn, the program keeps the contract. -/
def Prog.Meets (C : Contract Req Resp E σ) (p : Prog Req Resp E σ) : Prop :=
  ∀ e, C.env e → ∀ s, C.state s → p.wp C e C.state s

/-- A flight whose request the contract allows and whose rest keeps it. -/
def Flight.Meets (C : Contract Req Resp E σ) : Flight Req Resp E σ → Prop
  | issued r k => (∃ e, C.env e ∧ C.req e r) ∧ ∀ y, C.resp r y → (k y).Meets C
  | served r p => (∃ e, C.env e ∧ C.req e r) ∧ p.Meets C

theorem Flight.Meets.req {C : Contract Req Resp E σ} {fl : Flight Req Resp E σ}
    (h : fl.Meets C) : ∃ e, C.env e ∧ C.req e fl.req := by
  cases fl with
  | issued r k => exact h.1
  | served r p => exact h.1

namespace Prog

section Rules

variable {C : Contract Req Resp E σ} {e : E} {Q Q' : σ → Prop} {s : σ}

@[simp] theorem wp_done : (done : Prog Req Resp E σ).wp C e Q s ↔ Q s := Iff.rfl

@[simp] theorem wp_call {r : Req} {k : Resp r → Prog Req Resp E σ} {rest : Prog Req Resp E σ} :
    (call r k rest).wp C e Q s
      ↔ C.req e r ∧ (∀ y, C.resp r y → (k y).Meets C) ∧ rest.wp C e Q s := Iff.rfl

@[simp] theorem wp_modify {f : σ → σ} {rest : Prog Req Resp E σ} :
    (modify f rest).wp C e Q s ↔ rest.wp C e Q (f s) := Iff.rfl

@[simp] theorem wp_read {k : σ → Prog Req Resp E σ} :
    (read k).wp C e Q s ↔ (k s).wp C e Q s := Iff.rfl

@[simp] theorem wp_ask {k : E → Prog Req Resp E σ} :
    (ask k).wp C e Q s ↔ (k e).wp C e Q s := Iff.rfl

/-- The precondition of a sequence is that of its first part for that of its second. -/
theorem wp_andThen {p q : Prog Req Resp E σ} :
    (p.andThen q).wp C e Q s ↔ p.wp C e (q.wp C e Q) s := by
  induction p generalizing s with
  | done => exact Iff.rfl
  | call r k rest _ ih => exact and_congr_right' (and_congr_right' ih)
  | modify f rest ih => exact ih
  | read k ih => exact ih s
  | ask k ih => exact ih e

theorem wp.mono {p : Prog Req Resp E σ} (h : p.wp C e Q s) (hQ : ∀ s, Q s → Q' s) :
    p.wp C e Q' s := by
  induction p generalizing s with
  | done => exact hQ s h
  | call r k rest _ ih => exact ⟨h.1, h.2.1, ih h.2.2⟩
  | modify f rest ih => exact ih h
  | read k ih => exact ih s h
  | ask k ih => exact ih e h

/-- A loop keeps what each of its rounds keeps. -/
theorem wp_forEach {α : Type} {l : List α} {f : α → Prog Req Resp E σ}
    (h : ∀ a ∈ l, ∀ s, Q s → (f a).wp C e Q s) (hs : Q s) : (forEach l f).wp C e Q s := by
  induction l generalizing s with
  | nil => exact hs
  | cons a l ih =>
    rw [forEach_cons, wp_andThen]
    refine (h a (List.mem_cons_self ..) s hs).mono fun s' hs' => ?_
    exact ih (fun b hb => h b (List.mem_cons_of_mem _ hb)) hs'

/-- What a program does in one turn from a state with its precondition. -/
theorem wp.exec {p : Prog Req Resp E σ} (h : p.wp C e Q s) (he : C.env e) :
    Q (p.exec e s).1 ∧ ∀ fl ∈ (p.exec e s).2, fl.Meets C := by
  induction p generalizing s with
  | done => exact ⟨h, fun fl hfl => absurd hfl (by simp)⟩
  | call r k rest _ ih =>
    obtain ⟨hreq, hk, hrest⟩ := h
    obtain ⟨hQ, hfls⟩ := ih hrest
    refine ⟨hQ, fun fl hfl => ?_⟩
    rcases List.mem_cons.mp hfl with rfl | hfl
    · exact ⟨⟨e, he, hreq⟩, hk⟩
    · exact hfls fl hfl
  | modify f rest ih => exact ih h
  | read k ih => exact ih s h
  | ask k ih => exact ih e h

end Rules

/-! ## Programs on a part of the state -/

/-- Run on the part of the state that `get` reads and `set` assigns. Where there is no such
part, a callback does nothing. -/
def zoom (get : τ → Option σ) (set : σ → τ → τ) : Prog Req Resp E σ → Prog Req Resp E τ
  | done => done
  | call r k rest =>
    call r (fun y => read fun t => if (get t).isSome then (k y).zoom get set else done)
      (rest.zoom get set)
  | modify f rest => modify (fun t => (get t).elim t fun s => set (f s) t) (rest.zoom get set)
  | read k => read fun t => (get t).elim done fun s => (k s).zoom get set
  | ask k => ask fun e => (k e).zoom get set

end Prog

/-- The contract `C` for a state of which its own is a part. -/
def Contract.within (C : Contract Req Resp E σ) (state : τ → Prop) : Contract Req Resp E τ where
  env := C.env
  state := state
  req := C.req
  resp := C.resp

/-- What holds of a program on the part holds of it on the whole, and the rest stays as it
is. -/
theorem Prog.wp.zoom {C : Contract Req Resp E σ} {get : τ → Option σ} {set : σ → τ → τ}
    {K L : τ → Prop} (hK : ∀ t, K t ↔ (∀ s ∈ get t, C.state s) ∧ L t)
    (hget : ∀ s t, (get t).isSome = true → get (set s t) = some s)
    (hL : ∀ s t, L t → L (set s t)) {p : Prog Req Resp E σ} {e : E} {Q : σ → Prop} {s : σ} {t : τ}
    (h : p.wp C e Q s) (hs : get t = some s) (ht : L t) :
    (p.zoom get set).wp (C.within K) e (fun t => (∀ s ∈ get t, Q s) ∧ L t) t := by
  induction p generalizing e Q s t with
  | done =>
    refine ⟨fun s' hs' => ?_, ht⟩
    rw [hs] at hs'
    rw [← Option.some.inj hs']
    exact h
  | call r k rest ihk ih =>
    refine ⟨h.1, fun y hy e' he' t' ht' => ?_, ih h.2.2 hs ht⟩
    have hparts := (hK t').mp ht'
    rw [wp_read]
    split
    next hpart =>
      obtain ⟨s', hs'⟩ := Option.isSome_iff_exists.mp hpart
      exact (ihk y (h.2.1 y hy e' he' s' (hparts.1 s' hs')) hs' hparts.2).mono
        fun t ht => (hK t).mpr ht
    next => exact ht'
  | modify f rest ih =>
    show (rest.zoom get set).wp _ e _ ((get t).elim t fun s => set (f s) t)
    rw [hs]
    exact ih h (hget _ t (by rw [hs]; rfl)) (hL _ t ht)
  | read k ih =>
    show Prog.wp _ ((get t).elim _ _) e _ t
    rw [hs]
    exact ih s h hs ht
  | ask k ih => exact ih e h hs ht

/-- A program that keeps a contract for the part keeps it for the whole, if good parts make
good states. -/
theorem Prog.KeepsIn.zoom {C : Contract Req Resp E σ} {get : τ → Option σ} {set : σ → τ → τ}
    {state : τ → Prop} (hget : ∀ t, state t → ∀ s ∈ get t, C.state s)
    (hset : ∀ s t, state t → C.state s → state (set s t)) {p : Prog Req Resp E σ} {e : E}
    (h : p.KeepsIn C e) : (p.zoom get set).KeepsIn (C.within state) e := by
  induction p generalizing e with
  | done => trivial
  | call r k rest ihk ih =>
    refine ⟨h.1, fun y hy e' he' t ht => ?_, ih h.2.2⟩
    dsimp only
    split
    next => exact ihk y (h.2.1 y hy e' he')
    next => trivial
  | modify f rest ih =>
    refine ⟨fun t ht => ?_, ih h.2⟩
    dsimp only
    cases hs : get t with
    | none => exact ht
    | some s => exact hset (f s) t ht (h.1 s (hget t ht s hs))
  | read k ih =>
    intro t ht
    dsimp only
    cases hs : get t with
    | none => trivial
    | some s => exact ih s (h s (hget t ht s hs))
  | ask k ih => exact ih e h

/-- A program on the part spares what no assignment to the part changes. -/
theorem Prog.Spares.zoom {ok : Req → Prop} {obs : σ → α} {obs' : τ → β} {get : τ → Option σ}
    {set : σ → τ → τ}
    (hset : ∀ s s' t, get t = some s → obs s' = obs s → obs' (set s' t) = obs' t)
    {p : Prog Req Resp E σ} (h : p.Spares ok obs) : (p.zoom get set).Spares ok obs' := by
  induction p with
  | done => trivial
  | call r k rest ihk ih =>
    refine ⟨h.1, fun y t => ?_, ih h.2.2⟩
    dsimp only
    split
    next => exact ihk y (h.2.1 y)
    next => trivial
  | modify f rest ih =>
    refine ⟨fun t => ?_, ih h.2⟩
    dsimp only
    cases hs : get t with
    | none => rfl
    | some s => exact hset s (f s) t hs (h.1 s)
  | read k ih =>
    intro t
    dsimp only
    cases hs : get t with
    | none => trivial
    | some s => exact ih s (h s)
  | ask k ih => exact fun e => ih e (h e)

/-- A contract is kept together with whatever is said of an observation that the program
spares. -/
theorem Prog.KeepsIn.beside {C : Contract Req Resp E σ} {ok : Req → Prop} {obs : σ → α}
    {Q : α → Prop} {p : Prog Req Resp E σ} {e : E} (h : p.KeepsIn C e)
    (hspares : p.Spares ok obs) :
    p.KeepsIn { C with state := fun s => C.state s ∧ Q (obs s) } e := by
  induction p generalizing e with
  | done => trivial
  | call r k rest ihk ih =>
    refine ⟨h.1, fun y hy e' he' => ?_, ih h.2.2 hspares.2.2⟩
    exact ihk y (h.2.1 y hy e' he') (hspares.2.1 y)
  | modify f rest ih =>
    refine ⟨fun s hs => ⟨h.1 s hs.1, ?_⟩, ih h.2 hspares.2⟩
    rw [hspares.1 s]
    exact hs.2
  | read k ih => exact fun s hs => ih s (h s hs.1) (hspares s)
  | ask k ih => exact ih e h (hspares e)

/-! ## Runs -/

/-- The backend invariant, good client states, and contracts kept in flight. -/
structure World.Meets (C : S → Contract Req Resp E σ) (I : B → Prop)
    (w : World Req Resp E σ S B) : Prop where
  backend : I w.backend
  client : ∀ s, (C s).state (w.client s)
  pool : ∀ x ∈ w.pool, x.2.Meets (C x.1)

/-- With nothing in flight only the states matter. -/
theorem World.Meets.start {C : S → Contract Req Resp E σ} {I : B → Prop}
    {w : World Req Resp E σ S B} (hquiet : w.Quiescent) (hI : I w.backend)
    (hclient : ∀ s, (C s).state (w.client s)) : w.Meets C I where
  backend := hI
  client := hclient
  pool x hx := by
    rw [hquiet] at hx
    exact absurd hx List.not_mem_nil

section Runs

variable [DecidableEq S] {api : Api Req Resp B O} {act : A → Prog Req Resp E σ}
  {C : S → Contract Req Resp E σ} {I : B → Prop} {w w' : World Req Resp E σ S B}

theorem World.Meets.turn (h : w.Meets C I) {s : S} {p : Prog Req Resp E σ} {e : E}
    {pool : List (S × Flight Req Resp E σ)} (hpool : ∀ x ∈ pool, x ∈ w.pool)
    (hp : p.wp (C s) e (C s).state (w.client s)) (he : (C s).env e) :
    (w.turn s p e pool).Meets C I := by
  obtain ⟨hstate, hfls⟩ := hp.exec he
  refine ⟨h.backend, fun t => ?_, fun x hx => ?_⟩
  · rw [World.turn_client]
    split
    next ht => rw [ht]; exact hstate
    next => exact h.client t
  · rcases List.mem_append.mp hx with hx | hx
    · exact h.pool x (hpool x hx)
    · obtain ⟨fl, hfl, rfl⟩ := List.mem_map.mp hx
      exact hfls fl hfl

/-- An action is run where its program has its precondition. -/
def Offering (act : A → Prog Req Resp E σ) (C : S → Contract Req Resp E σ)
    (w : World Req Resp E σ S B) : Event S A E O → Prop
  | .invoke s a e => (C s).env e → (act a).wp (C s) e (C s).state (w.client s)
  | _ => True

/-- One step keeps the invariant. -/
theorem World.Meets.step {ev : Event S A E O} (h : w.Meets C I)
    (hserve : ∀ s b e r o b' y, I b → (C s).env e → (C s).req e r →
      api.serve b r o = some (b', y) → I b' ∧ (C s).resp r y)
    (hact : Offering act C w ev) (henv : EnvOk (fun s e => (C s).env e) w ev)
    (hstep : Stepped api act w ev w') : w'.Meets C I := by
  cases hstep with
  | invoke s a e => exact h.turn (fun _ hx => hx) (hact henv) henv
  | serve hpool hfifo hs =>
    rename_i pre post s r k o b y
    have hfl : (Flight.issued r k).Meets (C s) := h.pool (s, .issued r k) (mem_split hpool)
    obtain ⟨⟨e, he, hreq⟩, hk⟩ := hfl
    obtain ⟨hI, hy⟩ := hserve s w.backend e r o b y h.backend he hreq hs
    refine ⟨hI, h.client, fun x hx => ?_⟩
    rcases List.mem_append.mp hx with hx | hx
    · exact h.pool x (mem_split_left hpool hx)
    rcases List.mem_cons.mp hx with rfl | hx
    · exact ⟨⟨e, he, hreq⟩, hk y hy⟩
    · exact h.pool x (mem_split_right hpool hx)
  | deliver hpool hfifo =>
    rename_i pre post s r p e
    have hfl : (Flight.served r p).Meets (C s) := h.pool (s, .served r p) (mem_split hpool)
    have he : (C s).env e := henv.deliver hpool
    exact h.turn (fun _ => mem_split_rest hpool) (hfl.2 e he _ (h.client s)) he
  | drop hpool =>
    exact ⟨h.backend, h.client, fun x hx => h.pool x (mem_split_rest hpool hx)⟩

/-- **The contract rule for turns, runs.** -/
theorem World.Meets.run {ok : World Req Resp E σ S B → Event S A E O → Prop}
    {w₀ : World Req Resp E σ S B} {es : List (Event S A E O)} (h : w₀.Meets C I)
    (run : Run api act ok w₀ es w)
    (hserve : ∀ s b e r o b' y, I b → (C s).env e → (C s).req e r →
      api.serve b r o = some (b', y) → I b' ∧ (C s).resp r y)
    (hact : ∀ w ev, w.Meets C I → ok w ev → Offering act C w ev)
    (henv : ∀ w ev, ok w ev → EnvOk (fun s e => (C s).env e) w ev) : w.Meets C I :=
  run.invariant (I := fun _ w => w.Meets C I) h fun _ _ _ _ hw hok hstep =>
    hw.step hserve (hact _ _ hw hok) (henv _ _ hok) hstep

end Runs

end Async
