import InstaClone.Async.Frame
import InstaClone.Async.Turns

/-!
# Contracts for states that grow

A callback often remembers what was so when its request was made: which collection it has
asked for, which screen it belongs to. That helps only if it is still so when the callback
runs. A `Growth` is a contract with an order on the states, in which every assignment goes
up. `Prog.GrowsFrom` says of a program and a state that the program keeps the contract and
goes up from there, and that its callbacks do so from every state above the one they were
issued in. So whatever is kept by going up may be carried from a request to its callback.

`World.Grows` is the invariant of a world, and survives every step (`World.Grows.step`). So a
session is never below where it has been (`World.Grows.run`), which says something of any two
moments of a run.
-/

namespace Async

variable {Req : Type} {Resp : Req → Type} {E σ τ S B O A α : Type}

/-- A contract, and the order in which the states only go up. -/
structure Growth (Req : Type) (Resp : Req → Type) (E σ : Type) extends Contract Req Resp E σ where
  le : σ → σ → Prop
  refl : ∀ s, le s s
  trans : ∀ {s t u}, le s t → le t u → le s u

/-- Run in the turn `e` from the state `s`, the program keeps the contract and goes up; its
callbacks do from every good state above. -/
def Prog.GrowsFrom (G : Growth Req Resp E σ) : Prog Req Resp E σ → E → σ → Prop
  | done, _, _ => True
  | call r k rest, e, s =>
    G.req e r
      ∧ (∀ y, G.resp r y → ∀ e', G.env e' → ∀ s', G.le s s' → G.state s' →
        (k y).GrowsFrom G e' s')
      ∧ rest.GrowsFrom G e s
  | modify f rest, e, s => G.le s (f s) ∧ G.state (f s) ∧ rest.GrowsFrom G e (f s)
  | read k, e, s => (k s).GrowsFrom G e s
  | ask k, e, s => (k e).GrowsFrom G e s

/-- So does what is left of a flight, in a session that is in the state `s`. -/
def Flight.GrowsFrom (G : Growth Req Resp E σ) : Flight Req Resp E σ → σ → Prop
  | issued r k, s =>
    (∃ e, G.env e ∧ G.req e r)
      ∧ ∀ y, G.resp r y → ∀ e', G.env e' → ∀ s', G.le s s' → G.state s' → (k y).GrowsFrom G e' s'
  | served _ p, s => ∀ e', G.env e' → ∀ s', G.le s s' → G.state s' → p.GrowsFrom G e' s'

section Rules

variable {G : Growth Req Resp E σ} {e : E} {s s' : σ} {p q : Prog Req Resp E σ}

@[simp] theorem Prog.growsFrom_done : (Prog.done : Prog Req Resp E σ).GrowsFrom G e s := trivial

@[simp] theorem Prog.growsFrom_modify {f : σ → σ} {rest : Prog Req Resp E σ} :
    (Prog.modify f rest).GrowsFrom G e s
      ↔ G.le s (f s) ∧ G.state (f s) ∧ rest.GrowsFrom G e (f s) := Iff.rfl

@[simp] theorem Prog.growsFrom_read {k : σ → Prog Req Resp E σ} :
    (Prog.read k).GrowsFrom G e s ↔ (k s).GrowsFrom G e s := Iff.rfl

@[simp] theorem Prog.growsFrom_ask {k : E → Prog Req Resp E σ} :
    (Prog.ask k).GrowsFrom G e s ↔ (k e).GrowsFrom G e s := Iff.rfl

/-- What is in flight may wait while the state goes up. -/
theorem Flight.GrowsFrom.mono {x : Flight Req Resp E σ} (h : x.GrowsFrom G s)
    (hle : G.le s s') : x.GrowsFrom G s' := by
  cases x with
  | issued r k => exact ⟨h.1, fun y hy e' he' t ht => h.2 y hy e' he' t (G.trans hle ht)⟩
  | served r p => exact fun e' he' t ht => h e' he' t (G.trans hle ht)

/-- The second part of a sequence starts above. -/
theorem Prog.GrowsFrom.andThen (hp : p.GrowsFrom G e s) (hs : G.state s)
    (hq : ∀ s', G.le s s' → G.state s' → q.GrowsFrom G e s') : (p.andThen q).GrowsFrom G e s := by
  induction p generalizing s with
  | done => exact hq s (G.refl s) hs
  | call r k rest _ ih => exact ⟨hp.1, hp.2.1, ih hp.2.2 hs hq⟩
  | modify f rest ih =>
    refine ⟨hp.1, hp.2.1, ih hp.2.2 hp.2.1 fun s' hle => hq s' (G.trans hp.1 hle)⟩
  | read k ih => exact ih s hp hs hq
  | ask k ih => exact ih e hp hs hq

/-- A loop whose rounds may start anywhere above. -/
theorem Prog.growsFrom_forEach {β : Type} {l : List β} {f : β → Prog Req Resp E σ}
    (hs : G.state s) (h : ∀ a ∈ l, ∀ s', G.le s s' → G.state s' → (f a).GrowsFrom G e s') :
    (Prog.forEach l f).GrowsFrom G e s := by
  induction l generalizing s with
  | nil => trivial
  | cons a l ih =>
    refine (h a (List.mem_cons_self ..) s (G.refl s) hs).andThen hs fun s' hle hs' => ?_
    exact ih hs' fun b hb t ht => h b (List.mem_cons_of_mem _ hb) t (G.trans hle ht)

/-- What one turn does. -/
theorem Prog.GrowsFrom.exec (h : p.GrowsFrom G e s) (he : G.env e) (hs : G.state s) :
    G.le s (p.exec e s).1 ∧ G.state (p.exec e s).1
      ∧ ∀ fl ∈ (p.exec e s).2, fl.GrowsFrom G (p.exec e s).1 := by
  induction p generalizing s with
  | done => exact ⟨G.refl s, hs, fun fl hfl => absurd hfl (by simp)⟩
  | call r k rest _ ih =>
    obtain ⟨hreq, hk, hrest⟩ := h
    obtain ⟨hle, hstate, hfls⟩ := ih hrest hs
    refine ⟨hle, hstate, fun fl hfl => ?_⟩
    rcases List.mem_cons.mp hfl with rfl | hfl
    · exact Flight.GrowsFrom.mono (x := .issued r k) ⟨⟨e, he, hreq⟩, hk⟩ hle
    · exact hfls fl hfl
  | modify f rest ih =>
    obtain ⟨hle, hstate, hfls⟩ := ih h.2.2 h.2.1
    exact ⟨G.trans h.1 hle, hstate, hfls⟩
  | read k ih => exact ih s h hs
  | ask k ih => exact ih e h hs

/-- A program that leaves alone what the order and the good states are about. -/
theorem Prog.Spares.growsFrom {ok : Req → Prop} {obs : σ → α} (h : p.Spares ok obs)
    (hreq : ∀ e r, ok r → G.req e r) (hle : ∀ s s', obs s' = obs s → G.le s s')
    (hstate : ∀ s s', obs s' = obs s → G.state s → G.state s') (hs : G.state s) :
    p.GrowsFrom G e s := by
  induction p generalizing e s with
  | done => trivial
  | call r k rest ihk ih =>
    exact ⟨hreq e r h.1, fun y _ e' _ s' _ hs' => ihk y (h.2.1 y) hs', ih h.2.2 hs⟩
  | modify f rest ih =>
    have hs' := hstate s (f s) (h.1 s) hs
    exact ⟨hle s (f s) (h.1 s), hs', ih h.2 hs'⟩
  | read k ih => exact ih s (h s) hs
  | ask k ih => exact ih e (h e) hs

/-- A program that keeps the contract whatever it reads, where the order asks for nothing. -/
theorem Prog.KeepsIn.growsFrom (h : p.KeepsIn G.toContract e) (hle : ∀ s s', G.le s s')
    (hs : G.state s) : p.GrowsFrom G e s := by
  induction p generalizing e s with
  | done => trivial
  | call r k rest ihk ih =>
    exact ⟨h.1, fun y hy e' he' s' _ hs' => ihk y (h.2.1 y hy e' he') hs', ih h.2.2 hs⟩
  | modify f rest ih => exact ⟨hle s (f s), h.1 s hs, ih h.2 (h.1 s hs)⟩
  | read k ih => exact ih s (h s hs) hs
  | ask k ih => exact ih e h hs

end Rules

/-! ## A part of the state -/

/-- From the state `t` on, the part that `get` reads and `set` assigns is under a contract of
its own: it is good and goes up as the whole does, and assigning it keeps the whole good. -/
structure Growth.Part (P : Growth Req Resp E σ) (G : Growth Req Resp E τ) (get : τ → Option σ)
    (set : σ → τ → τ) (t : τ) : Prop where
  env : ∀ e, G.env e → P.env e
  req : ∀ e r, P.req e r → G.req e r
  resp : ∀ r y, G.resp r y → P.resp r y
  state : ∀ u, G.le t u → G.state u → ∀ s, get u = some s → P.state s
  le : ∀ u v, G.le t u → G.state u → G.le u v → G.state v → ∀ s s', get u = some s →
    get v = some s' → P.le s s'
  set : ∀ u, G.le t u → G.state u → ∀ s s', get u = some s → P.le s s' → P.state s' →
    G.le u (set s' u) ∧ G.state (set s' u) ∧ get (set s' u) = some s'

section Part

variable {P : Growth Req Resp E σ} {G : Growth Req Resp E τ} {get : τ → Option σ}
  {set : σ → τ → τ} {t u : τ} {s : σ} {e : E} {p : Prog Req Resp E σ}

theorem Growth.Part.up (h : P.Part G get set t) (hle : G.le t u) : P.Part G get set u where
  env := h.env
  req := h.req
  resp := h.resp
  state v hv := h.state v (G.trans hle hv)
  le v v' hv := h.le v v' (G.trans hle hv)
  set v hv := h.set v (G.trans hle hv)

/-- A program on the part goes up as a program on the whole. -/
theorem Prog.GrowsFrom.zoom (hp : p.GrowsFrom P e s) (hpart : P.Part G get set t)
    (hs : get t = some s) (ht : G.state t) : (p.zoom get set).GrowsFrom G e t := by
  induction p generalizing e s t with
  | done => trivial
  | call r k rest ihk ih =>
    refine ⟨hpart.req e r hp.1, fun y hy e' he' u hu hstate => ?_, ih hp.2.2 hpart hs ht⟩
    show Prog.GrowsFrom G (if (get u).isSome then _ else _) e' u
    cases hs' : get u with
    | none => trivial
    | some s' =>
      have hk := hp.2.1 y (hpart.resp r y hy) e' (hpart.env e' he') s'
        (hpart.le t u (G.refl t) ht hu hstate s s' hs hs') (hpart.state u hu hstate s' hs')
      exact ihk y hk (hpart.up hu) hs' hstate
  | modify f rest ih =>
    obtain ⟨hle, hstate, hget⟩ := hpart.set t (G.refl t) ht s (f s) hs hp.1 hp.2.1
    have hassign : ((get t).elim t fun s => set (f s) t) = set (f s) t := by rw [hs]; rfl
    show G.le t ((get t).elim t fun s => set (f s) t)
      ∧ G.state ((get t).elim t fun s => set (f s) t)
      ∧ (rest.zoom get set).GrowsFrom G e ((get t).elim t fun s => set (f s) t)
    rw [hassign]
    exact ⟨hle, hstate, ih hp.2.2 (hpart.up hle) hget hstate⟩
  | read k ih =>
    show Prog.GrowsFrom G ((get t).elim .done fun s => (k s).zoom get set) e t
    rw [hs]
    exact ih s hp hpart hs ht
  | ask k ih => exact ih e hp hpart hs ht

end Part

/-! ## Worlds -/

/-- Every session is in a good state, and what is in flight goes up from there. -/
structure World.Grows (G : S → Growth Req Resp E σ) (w : World Req Resp E σ S B) : Prop where
  client : ∀ s, (G s).state (w.client s)
  pool : ∀ x ∈ w.pool, x.2.GrowsFrom (G x.1) (w.client x.1)

/-- The invariant holds, and every session is above where it has been. -/
structure World.GrowsTo (G : S → Growth Req Resp E σ) (w w' : World Req Resp E σ S B) : Prop where
  grows : w'.Grows G
  above : ∀ s, (G s).le (w.client s) (w'.client s)

section Invariant

variable [DecidableEq S] {api : Api Req Resp B O} {act : A → Prog Req Resp E σ}
  {G : S → Growth Req Resp E σ} {w w' : World Req Resp E σ S B}

/-- One turn keeps the invariant. -/
theorem World.Grows.turn (h : w.Grows G) {s : S} {p : Prog Req Resp E σ} {e : E}
    {pool : List (S × Flight Req Resp E σ)} (hpool : ∀ x ∈ pool, x ∈ w.pool)
    (hp : p.GrowsFrom (G s) e (w.client s)) (he : (G s).env e) :
    w.GrowsTo G (w.turn s p e pool) := by
  obtain ⟨hle, hstate, hfls⟩ := hp.exec he (h.client s)
  have hclient : ∀ t, (G t).le (w.client t) ((w.turn s p e pool).client t)
      ∧ (G t).state ((w.turn s p e pool).client t) := by
    intro t
    rw [World.turn_client]
    by_cases ht : t = s
    · rw [if_pos ht, ht]
      exact ⟨hle, hstate⟩
    · rw [if_neg ht]
      exact ⟨(G t).refl _, h.client t⟩
  refine ⟨⟨fun t => (hclient t).2, fun x hx => ?_⟩, fun t => (hclient t).1⟩
  rcases List.mem_append.mp hx with hx | hx
  · exact (h.pool x (hpool x hx)).mono (hclient x.1).1
  · obtain ⟨fl, hmem, rfl⟩ := List.mem_map.mp hx
    have hfl := hfls fl hmem
    rwa [show (w.turn s p e pool).client s = (p.exec e (w.client s)).1 by
      rw [World.turn_client, if_pos rfl]]

/-- **A step keeps the invariant** if the backend answers as the contracts rely on and the
action goes up from where the session is. -/
theorem World.Grows.step {ev : Event S A E O} (h : w.Grows G)
    (hserve : ∀ i o, ev = .serve i o → ∀ s r k, w.pool[i]? = some (s, .issued r k) → ∀ b' y,
      api.serve w.backend r o = some (b', y) → (G s).resp r y)
    (hact : ∀ s a e, ev = .invoke s a e → (G s).state (w.client s) → (G s).env e →
      (act a).GrowsFrom (G s) e (w.client s))
    (henv : EnvOk (fun s e => (G s).env e) w ev) (hstep : Stepped api act w ev w') :
    w.GrowsTo G w' := by
  have hrefl : ∀ t, (G t).le (w.client t) (w.client t) := fun t => (G t).refl _
  cases hstep with
  | invoke s a e => exact h.turn (fun _ hx => hx) (hact s a e rfl (h.client s) henv) henv
  | serve hpool hfifo hs =>
    rename_i pre post s r k o b y
    have hfl := h.pool (s, .issued r k) (mem_split hpool)
    have hy := hserve _ o rfl s r k (getElem?_split hpool) b y hs
    refine ⟨⟨h.client, fun x hx => ?_⟩, hrefl⟩
    simp only [List.mem_append, List.mem_cons] at hx
    rcases hx with hx | rfl | hx
    · exact h.pool x (mem_split_left hpool hx)
    · exact hfl.2 y hy
    · exact h.pool x (mem_split_right hpool hx)
  | deliver hpool hfifo =>
    rename_i pre post s r p e
    have hfl := h.pool (s, .served r p) (mem_split hpool)
    have he := henv.deliver hpool
    refine h.turn (fun x hx => mem_split_rest hpool hx) ?_ he
    exact hfl e he (w.client s) (hrefl s) (h.client s)
  | drop hpool => exact ⟨⟨h.client, fun x hx => h.pool x (mem_split_rest hpool hx)⟩, hrefl⟩

/-- **Runs keep it**, and only go up. -/
theorem World.Grows.run {ok : World Req Resp E σ S B → Event S A E O → Prop}
    {w₀ : World Req Resp E σ S B} {es : List (Event S A E O)} (h : w₀.Grows G)
    (run : Run api act ok w₀ es w)
    (hserve : ∀ w i o s r k b' y, ok w (.serve i o) → w.pool[i]? = some (s, .issued r k) →
      api.serve w.backend r o = some (b', y) → (G s).resp r y)
    (hact : ∀ w s a e, ok w (.invoke s a e) → (G s).state (w.client s) → (G s).env e →
      (act a).GrowsFrom (G s) e (w.client s))
    (henv : ∀ w ev, ok w ev → EnvOk (fun s e => (G s).env e) w ev) : w₀.GrowsTo G w := by
  refine run.invariant (I := fun _ w => w₀.GrowsTo G w) ⟨h, fun s => (G s).refl _⟩
    fun es w ev w' hw hok hstep => ?_
  have hnext : w.GrowsTo G w' := by
    refine hw.grows.step ?_ ?_ (henv w ev hok) hstep
    · intro i o hev s r k hi b' y
      subst hev
      exact hserve w i o s r k b' y hok hi
    · intro s a e hev
      subst hev
      exact hact w s a e hok
  exact ⟨hnext.grows, fun s => (G s).trans (hw.above s) (hnext.above s)⟩

end Invariant

end Async
