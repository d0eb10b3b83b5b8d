import Mathlib.Data.List.Perm.Basic
import InstaClone.Async.Contract
import InstaClone.Async.Frame

/-!
# What one call comes to, over all replies

A call starts a tree of requests, each issued from the callback of an earlier
one. `Prog.Yields` is the big-step meaning of such a tree: with some replies, and
some callbacks lost if sessions may die (`lossy`), the call leaves the marks `T`
(one for each reply and one for each lost callback) and has made the assignments
`fs` to the client state. It is defined by recursion on the program, so a service
is analysed by reading its statements once.

`trace` is the same list of marks read off a run of a world, in the order things
happened. `Run.yields` connects the two: a call that runs in its session until
nothing of it is in flight leaves, up to order, marks and assignments that the
program yields. Whatever other sessions do in between makes no difference to
which replies are possible, because every reply is.
-/

namespace Async

/-- What a call leaves behind: a reply to one of its requests, or a callback that
never ran. -/
inductive Mark (Req : Type) (Resp : Req → Type) : Type
  | reply (r : Req) (y : Resp r)
  | lost (r : Req)

variable {Req : Type} {Resp : Req → Type} {E σ S B O A : Type}

/-- With some replies, the program leaves the marks `T` and makes the assignments
`fs`. Callbacks run in turns with `V`, or are lost when `lossy`. -/
def Prog.Yields (V : E → Prop) (lossy : Prop) :
    Prog Req Resp E σ → E → List (Mark Req Resp) → List (σ → σ) → Prop
  | done, _, T, fs => T = [] ∧ fs = []
  | call r k rest, e, T, fs =>
    ∃ y T₁ fs₁ T₂ fs₂,
      ((lossy ∧ T₁ = [.lost r] ∧ fs₁ = []) ∨ ∃ e', V e' ∧ (k y).Yields V lossy e' T₁ fs₁)
        ∧ rest.Yields V lossy e T₂ fs₂ ∧ T = .reply r y :: (T₁ ++ T₂) ∧ fs = fs₁ ++ fs₂
  | modify f rest, e, T, fs => ∃ fs', rest.Yields V lossy e T fs' ∧ fs = f :: fs'
  | read k, e, T, fs => ∃ s, (k s).Yields V lossy e T fs
  | ask k, e, T, fs => (k e).Yields V lossy e T fs

section Rules

variable {V : E → Prop} {lossy : Prop} {e : E} {T : List (Mark Req Resp)} {fs : List (σ → σ)}

@[simp] theorem Prog.yields_done :
    (Prog.done : Prog Req Resp E σ).Yields V lossy e T fs ↔ T = [] ∧ fs = [] := Iff.rfl

@[simp] theorem Prog.yields_ask {k : E → Prog Req Resp E σ} :
    (Prog.ask k).Yields V lossy e T fs ↔ (k e).Yields V lossy e T fs := Iff.rfl

@[simp] theorem Prog.yields_modify {f : σ → σ} {rest : Prog Req Resp E σ} :
    (Prog.modify f rest).Yields V lossy e T fs
      ↔ ∃ fs', rest.Yields V lossy e T fs' ∧ fs = f :: fs' := Iff.rfl

/-- A request whose callback is never lost and after which nothing follows. -/
theorem Prog.yields_call_done {r : Req} {k : Resp r → Prog Req Resp E σ} :
    (Prog.call r k .done).Yields V False e T fs
      ↔ ∃ y T' e', V e' ∧ (k y).Yields V False e' T' fs ∧ T = .reply r y :: T' := by
  constructor
  · rintro ⟨y, T₁, fs₁, T₂, fs₂, hk, ⟨rfl, rfl⟩, rfl, rfl⟩
    rcases hk with ⟨hlost, -⟩ | ⟨e', he', hk⟩
    · exact hlost.elim
    · exact ⟨y, T₁, e', he', by rwa [List.append_nil], by rw [List.append_nil]⟩
  · rintro ⟨y, T', e', he', hk, rfl⟩
    exact ⟨y, T', fs, [], [], Or.inr ⟨e', he', hk⟩, ⟨rfl, rfl⟩, by rw [List.append_nil],
      by rw [List.append_nil]⟩

/-- A sequence yields what its two parts yield. -/
theorem Prog.yields_andThen {p q : Prog Req Resp E σ} :
    (p.andThen q).Yields V lossy e T fs
      ↔ ∃ T₁ fs₁ T₂ fs₂, p.Yields V lossy e T₁ fs₁ ∧ q.Yields V lossy e T₂ fs₂
        ∧ T = T₁ ++ T₂ ∧ fs = fs₁ ++ fs₂ := by
  induction p generalizing e T fs with
  | done =>
    constructor
    · intro h
      exact ⟨[], [], T, fs, ⟨rfl, rfl⟩, h, rfl, rfl⟩
    · rintro ⟨T₁, fs₁, T₂, fs₂, ⟨rfl, rfl⟩, h, rfl, rfl⟩
      exact h
  | call r k rest _ ih =>
    constructor
    · rintro ⟨y, T₁, fs₁, T₂, fs₂, hk, hrest, rfl, rfl⟩
      obtain ⟨T₃, fs₃, T₄, fs₄, h₃, h₄, rfl, rfl⟩ := ih.mp hrest
      exact ⟨_, _, T₄, fs₄, ⟨y, T₁, fs₁, T₃, fs₃, hk, h₃, rfl, rfl⟩, h₄, by simp, by simp⟩
    · rintro ⟨T₀, fs₀, T₄, fs₄, ⟨y, T₁, fs₁, T₃, fs₃, hk, h₃, rfl, rfl⟩, h₄, rfl, rfl⟩
      exact ⟨y, T₁, fs₁, T₃ ++ T₄, fs₃ ++ fs₄, hk, ih.mpr ⟨T₃, fs₃, T₄, fs₄, h₃, h₄, rfl, rfl⟩,
        by simp, by simp⟩
  | modify f rest ih =>
    constructor
    · rintro ⟨fs', hrest, rfl⟩
      obtain ⟨T₁, fs₁, T₂, fs₂, h₁, h₂, rfl, rfl⟩ := ih.mp hrest
      exact ⟨T₁, f :: fs₁, T₂, fs₂, ⟨fs₁, h₁, rfl⟩, h₂, rfl, rfl⟩
    · rintro ⟨T₁, fs₀, T₂, fs₂, ⟨fs₁, h₁, rfl⟩, h₂, rfl, rfl⟩
      exact ⟨fs₁ ++ fs₂, ih.mpr ⟨T₁, fs₁, T₂, fs₂, h₁, h₂, rfl, rfl⟩, rfl⟩
  | read k ih =>
    constructor
    · rintro ⟨s, h⟩
      obtain ⟨T₁, fs₁, T₂, fs₂, h₁, h₂, rfl, rfl⟩ := (ih s).mp h
      exact ⟨T₁, fs₁, T₂, fs₂, ⟨s, h₁⟩, h₂, rfl, rfl⟩
    · rintro ⟨T₁, fs₁, T₂, fs₂, ⟨s, h₁⟩, h₂, rfl, rfl⟩
      exact ⟨s, (ih s).mpr ⟨T₁, fs₁, T₂, fs₂, h₁, h₂, rfl, rfl⟩⟩
  | ask k ih => exact ih e

/-- A loop whose rounds assign `g` `n` times each assigns it `n` times per element. -/
theorem Prog.yields_forEach_replicate {α : Type} {f : α → Prog Req Resp E σ} {g : σ → σ} {n : Nat}
    {l : List α}
    (hround : ∀ a ∈ l, ∀ T fs, (f a).Yields V lossy e T fs → fs = List.replicate n g)
    (h : (Prog.forEach l f).Yields V lossy e T fs) : fs = List.replicate (l.length * n) g := by
  induction l generalizing T fs with
  | nil =>
    obtain ⟨-, rfl⟩ := h
    simp
  | cons a l ih =>
    rw [Prog.forEach_cons, Prog.yields_andThen] at h
    obtain ⟨T₁, fs₁, T₂, fs₂, h₁, h₂, rfl, rfl⟩ := h
    have hfirst := hround a (List.mem_cons_self ..) _ _ h₁
    have hothers := ih (fun b hb => hround b (List.mem_cons_of_mem _ hb)) h₂
    rw [hfirst, hothers, List.replicate_append_replicate, List.length_cons, Nat.add_one_mul,
      Nat.add_comm]

/-- The request a mark is about. -/
def Mark.req : Mark Req Resp → Req
  | .reply r _ => r
  | .lost r => r

@[simp] theorem Mark.req_reply (r : Req) (y : Resp r) : (Mark.reply r y).req = r := rfl

@[simp] theorem Mark.req_lost (r : Req) : (Mark.lost r : Mark Req Resp).req = r := rfl

/-- All marks are about requests that a program keeping a contract may issue. -/
theorem Prog.KeepsIn.marks {C : Contract Req Resp E σ} (henv : ∀ e, V e → C.env e)
    (hstate : ∀ s, C.state s) (hresp : ∀ r y, C.resp r y) {p : Prog Req Resp E σ}
    (hp : p.KeepsIn C e) (he : C.env e) (h : p.Yields V lossy e T fs) :
    ∀ m ∈ T, ∃ e', C.req e' m.req := by
  induction p generalizing e T fs with
  | done =>
    obtain ⟨rfl, rfl⟩ := h
    exact fun m hm => absurd hm (by simp)
  | call r k rest ihk ih =>
    obtain ⟨y, T₁, fs₁, T₂, fs₂, hk, hrest, rfl, rfl⟩ := h
    have hcallback : ∀ m ∈ T₁, ∃ e', C.req e' m.req := by
      rcases hk with ⟨-, rfl, -⟩ | ⟨e', he', hk⟩
      · intro m hm
        rw [List.mem_singleton.mp hm]
        exact ⟨e, hp.1⟩
      · exact ihk y (hp.2.1 y (hresp r y) e' (henv e' he')) (henv e' he') hk
    intro m hm
    rcases List.mem_cons.mp hm with rfl | hm
    · exact ⟨e, hp.1⟩
    · rcases List.mem_append.mp hm with hm | hm
      · exact hcallback m hm
      · exact ih hp.2.2 he hrest m hm
  | modify f rest ih =>
    obtain ⟨fs', hrest, rfl⟩ := h
    exact ih hp.2 he hrest
  | read k ih =>
    obtain ⟨s, h⟩ := h
    exact ih s (hp s (hstate s)) he h
  | ask k ih => exact ih e hp he h

end Rules

/-! ## The pool -/

/-- What is left of a flight leaves the marks `T` and makes the assignments `fs`. -/
def Flight.Yields (V : E → Prop) (lossy : Prop) :
    Flight Req Resp E σ → List (Mark Req Resp) → List (σ → σ) → Prop
  | issued r k, T, fs =>
    ∃ y T', ((lossy ∧ T' = [.lost r] ∧ fs = []) ∨ ∃ e, V e ∧ (k y).Yields V lossy e T' fs)
      ∧ T = .reply r y :: T'
  | served r p, T, fs =>
    (lossy ∧ T = [.lost r] ∧ fs = []) ∨ ∃ e, V e ∧ p.Yields V lossy e T fs

/-- The flights of a list, one after the other. -/
def FlightsYield (V : E → Prop) (lossy : Prop) :
    List (Flight Req Resp E σ) → List (Mark Req Resp) → List (σ → σ) → Prop
  | [], T, fs => T = [] ∧ fs = []
  | fl :: l, T, fs =>
    ∃ T₁ fs₁ T₂ fs₂, fl.Yields V lossy T₁ fs₁ ∧ FlightsYield V lossy l T₂ fs₂
      ∧ T = T₁ ++ T₂ ∧ fs = fs₁ ++ fs₂

section Pool

variable {V : E → Prop} {lossy : Prop}

theorem flightsYield_append {l l' : List (Flight Req Resp E σ)} {T : List (Mark Req Resp)}
    {fs : List (σ → σ)} :
    FlightsYield V lossy (l ++ l') T fs
      ↔ ∃ T₁ fs₁ T₂ fs₂, FlightsYield V lossy l T₁ fs₁ ∧ FlightsYield V lossy l' T₂ fs₂
        ∧ T = T₁ ++ T₂ ∧ fs = fs₁ ++ fs₂ := by
  induction l generalizing T fs with
  | nil =>
    constructor
    · intro h
      exact ⟨[], [], T, fs, ⟨rfl, rfl⟩, h, rfl, rfl⟩
    · rintro ⟨T₁, fs₁, T₂, fs₂, ⟨rfl, rfl⟩, h, rfl, rfl⟩
      exact h
  | cons fl l ih =>
    constructor
    · rintro ⟨T₁, fs₁, T₂, fs₂, hfl, hl, rfl, rfl⟩
      obtain ⟨T₃, fs₃, T₄, fs₄, h₃, h₄, rfl, rfl⟩ := ih.mp hl
      exact ⟨_, _, T₄, fs₄, ⟨T₁, fs₁, T₃, fs₃, hfl, h₃, rfl, rfl⟩, h₄, by simp, by simp⟩
    · rintro ⟨T₀, fs₀, T₄, fs₄, ⟨T₁, fs₁, T₃, fs₃, hfl, h₃, rfl, rfl⟩, h₄, rfl, rfl⟩
      exact ⟨T₁, fs₁, T₃ ++ T₄, fs₃ ++ fs₄, hfl, ih.mpr ⟨T₃, fs₃, T₄, fs₄, h₃, h₄, rfl, rfl⟩,
        by simp, by simp⟩

/-- The assignments of one turn, in order. -/
def Prog.assigns : Prog Req Resp E σ → E → σ → List (σ → σ)
  | done, _, _ => []
  | call _ _ rest, e, s => rest.assigns e s
  | modify f rest, e, s => f :: rest.assigns e (f s)
  | read k, e, s => (k s).assigns e s
  | ask k, e, s => (k e).assigns e s

/-- A turn leaves the client state its assignments make. -/
theorem Prog.exec_fst (p : Prog Req Resp E σ) (e : E) (s : σ) :
    (p.exec e s).1 = (p.assigns e s).foldl (fun x f => f x) s := by
  induction p generalizing s with
  | done => rfl
  | call r k rest _ ih => exact ih s
  | modify f rest ih => exact ih (f s)
  | read k ih => exact ih s s
  | ask k ih => exact ih e s

/-- A sequence makes the assignments of both parts. -/
theorem Prog.assigns_andThen (p q : Prog Req Resp E σ) (e : E) (s : σ) :
    (p.andThen q).assigns e s = p.assigns e s ++ q.assigns e (p.exec e s).1 := by
  induction p generalizing s with
  | done => rfl
  | call r k rest _ ih => exact ih s
  | modify f rest ih => exact congrArg (f :: ·) (ih (f s))
  | read k ih => exact ih s s
  | ask k ih => exact ih e s

/-- A program that spares an observation assigns nothing that changes it. -/
theorem Prog.Spares.assigns {α : Type} {okReq : Req → Prop} {obs : σ → α}
    {p : Prog Req Resp E σ} (h : p.Spares okReq obs) (e : E) (s : σ) :
    ∀ f ∈ p.assigns e s, ∀ x, obs (f x) = obs x := by
  induction p generalizing s with
  | done => exact fun f hf => absurd hf List.not_mem_nil
  | call r k rest _ ih => exact ih h.2.2 s
  | modify f rest ih =>
    intro g hg
    rcases List.mem_cons.mp hg with rfl | hg
    · exact h.1
    · exact ih h.2 (f s) g hg
  | read k ih => exact ih s (h s) s
  | ask k ih => exact ih e (h e) s

/-- A program yields what the requests of its turn yield, with the assignments of
the turn. -/
theorem Prog.yields_of_exec (p : Prog Req Resp E σ) (e : E) (s : σ) {T : List (Mark Req Resp)}
    {fs : List (σ → σ)} (h : FlightsYield V lossy (p.exec e s).2 T fs) :
    ∃ fs', p.Yields V lossy e T fs' ∧ fs'.Perm (p.assigns e s ++ fs) := by
  induction p generalizing s T fs with
  | done =>
    obtain ⟨rfl, rfl⟩ := h
    exact ⟨[], ⟨rfl, rfl⟩, .nil⟩
  | call r k rest _ ih =>
    obtain ⟨T₁, fs₁, T₂, fs₂, ⟨y, T', hk, rfl⟩, hrest, rfl, rfl⟩ := h
    obtain ⟨fs', hyields, hperm⟩ := ih s hrest
    refine ⟨fs₁ ++ fs', ⟨y, T', fs₁, T₂, fs', hk, hyields, rfl, rfl⟩, ?_⟩
    show (fs₁ ++ fs').Perm (rest.assigns e s ++ (fs₁ ++ fs₂))
    refine (hperm.append_left fs₁).trans ?_
    rw [← List.append_assoc, ← List.append_assoc]
    exact List.perm_append_comm.append_right fs₂
  | modify f rest ih =>
    obtain ⟨fs', hyields, hperm⟩ := ih (f s) h
    exact ⟨f :: fs', ⟨fs', hyields, rfl⟩, hperm.cons f⟩
  | read k ih =>
    obtain ⟨fs', hyields, hperm⟩ := ih s s h
    exact ⟨fs', ⟨s, hyields⟩, hperm⟩
  | ask k ih => exact ih e s h

end Pool

/-! ## Histories of runs -/

variable [DecidableEq S]
variable {api : Api Req Resp B O} {act : A → Prog Req Resp E σ}
  {ok : World Req Resp E σ S B → Event S A E O → Prop}

section Histories

variable {α : Type}

/-- What `f` sees of each step along a list of events, in the order they happen. -/
def history (api : Api Req Resp B O) (act : A → Prog Req Resp E σ)
    (f : World Req Resp E σ S B → Event S A E O → List α) :
    World Req Resp E σ S B → List (Event S A E O) → List α
  | _, [] => []
  | w, ev :: es =>
    f w ev ++
      match step api act w ev with
      | some w' => history api act f w' es
      | none => []

/-- The history of a run that goes on. -/
theorem Run.history_append {w₀ w : World Req Resp E σ S B} {es : List (Event S A E O)}
    (run : Run api act ok w₀ es w) (f : World Req Resp E σ S B → Event S A E O → List α)
    (es' : List (Event S A E O)) :
    history api act f w₀ (es ++ es') = history api act f w₀ es ++ history api act f w es' := by
  induction run generalizing es' with
  | nil => rfl
  | @snoc es w w' ev run _ hstep ih =>
    have hone : ∀ l, history api act f w (ev :: l) = f w ev ++ history api act f w' l := by
      intro l
      rw [history, hstep]
    have hnil : history api act f w' [] = [] := rfl
    rw [List.append_assoc, List.singleton_append, ih, ih [ev], hone, hone, hnil, List.append_nil,
      List.append_assoc]

/-- The history of a run with one step more. -/
theorem Run.history_snoc {w₀ w w' : World Req Resp E σ S B} {es : List (Event S A E O)}
    {ev : Event S A E O} (run : Run api act ok w₀ es w) (hstep : step api act w ev = some w')
    (f : World Req Resp E σ S B → Event S A E O → List α) :
    history api act f w₀ (es ++ [ev]) = history api act f w₀ es ++ f w ev := by
  rw [run.history_append, history, hstep]
  simp [history]

end Histories

/-! ## Traces of runs -/

/-- The flights of session `s` in a pool. -/
def flightsOf (s : S) (pool : List (S × Flight Req Resp E σ)) : List (Flight Req Resp E σ) :=
  (pool.filter fun x => x.1 = s).map Prod.snd

@[simp] theorem flightsOf_append (s : S) (pool pool' : List (S × Flight Req Resp E σ)) :
    flightsOf s (pool ++ pool') = flightsOf s pool ++ flightsOf s pool' := by
  rw [flightsOf, List.filter_append, List.map_append]
  rfl

@[simp] theorem flightsOf_cons_self (s : S) (fl : Flight Req Resp E σ)
    (pool : List (S × Flight Req Resp E σ)) :
    flightsOf s ((s, fl) :: pool) = fl :: flightsOf s pool := by
  simp [flightsOf]

theorem flightsOf_cons_ne {s t : S} (hne : t ≠ s) (fl : Flight Req Resp E σ)
    (pool : List (S × Flight Req Resp E σ)) :
    flightsOf s ((t, fl) :: pool) = flightsOf s pool := by
  simp [flightsOf, hne]

@[simp] theorem flightsOf_issues_self (s : S) (l : List (Flight Req Resp E σ)) :
    flightsOf s (l.map fun fl => (s, fl)) = l := by
  induction l with
  | nil => rfl
  | cons fl l ih => rw [List.map_cons, flightsOf_cons_self, ih]

theorem flightsOf_issues_ne {s t : S} (hne : t ≠ s) (l : List (Flight Req Resp E σ)) :
    flightsOf s (l.map fun fl => (t, fl)) = [] := by
  induction l with
  | nil => rfl
  | cons fl l ih => rw [List.map_cons, flightsOf_cons_ne hne, ih]

theorem flightsOf_eq_nil {s : S} {pool : List (S × Flight Req Resp E σ)}
    (h : ∀ x ∈ pool, x.1 ≠ s) : flightsOf s pool = [] := by
  rw [flightsOf, List.filter_eq_nil_iff.mpr (by simpa using h)]
  rfl

/-- The mark session `s` gets from one step. -/
def World.marks (api : Api Req Resp B O) (s : S) (w : World Req Resp E σ S B) :
    Event S A E O → List (Mark Req Resp)
  | .invoke _ _ _ => []
  | .serve i o =>
    match w.pool[i]? with
    | some (t, .issued r _) =>
      if t = s then ((api.serve w.backend r o).map fun out => Mark.reply r out.2).toList else []
    | _ => []
  | .deliver _ _ => []
  | .drop i =>
    match w.pool[i]? with
    | some (t, .served r _) => if t = s then [.lost r] else []
    | _ => []

/-- What a session gets from a request that is served, -/
theorem World.marks_serve {w : World Req Resp E σ S B} {pre post : List (S × Flight Req Resp E σ)}
    {t : S} {r : Req} {k : Resp r → Prog Req Resp E σ} {o : O} {b : B} {y : Resp r}
    (hpool : w.pool = pre ++ (t, .issued r k) :: post)
    (hserve : api.serve w.backend r o = some (b, y)) (s : S) :
    w.marks (A := A) api s (.serve pre.length o) = if t = s then [.reply r y] else [] := by
  simp only [World.marks, getElem?_split hpool, hserve, Option.map_some, Option.toList_some]

/-- and from a callback that is dropped. -/
theorem World.marks_drop {w : World Req Resp E σ S B} {pre post : List (S × Flight Req Resp E σ)}
    {t : S} {r : Req} {q : Prog Req Resp E σ} (hpool : w.pool = pre ++ (t, .served r q) :: post)
    (s : S) :
    w.marks (A := A) (O := O) api s (.drop pre.length) = if t = s then [.lost r] else [] := by
  simp only [World.marks, getElem?_split hpool]

/-- The assignments that session `s` makes in a step. -/
def World.assigned (act : A → Prog Req Resp E σ) (s : S) (w : World Req Resp E σ S B) :
    Event S A E O → List (σ → σ)
  | .invoke t a e => if t = s then (act a).assigns e (w.client s) else []
  | .deliver i e =>
    match w.pool[i]? with
    | some (t, .served _ p) => if t = s then p.assigns e (w.client s) else []
    | _ => []
  | _ => []

/-- What a session assigns when a callback runs. -/
theorem World.assigned_deliver {w : World Req Resp E σ S B}
    {pre post : List (S × Flight Req Resp E σ)} {t : S} {r : Req} {q : Prog Req Resp E σ}
    (hpool : w.pool = pre ++ (t, .served r q) :: post) (s : S) (e : E) :
    w.assigned (O := O) act s (.deliver pre.length e)
      = if t = s then q.assigns e (w.client s) else [] := by
  simp only [World.assigned, getElem?_split hpool]

/-- The marks of session `s` along a list of events, in the order they happen. -/
def trace (api : Api Req Resp B O) (act : A → Prog Req Resp E σ) (s : S) :
    World Req Resp E σ S B → List (Event S A E O) → List (Mark Req Resp)
  | _, [] => []
  | w, ev :: es =>
    w.marks api s ev ++
      match step api act w ev with
      | some w' => trace api act s w' es
      | none => []

/-- A trace is the history of its marks. -/
theorem trace_eq_history (s : S) (w : World Req Resp E σ S B) (es : List (Event S A E O)) :
    trace api act s w es = history api act (fun w ev => w.marks api s ev) w es := by
  induction es generalizing w with
  | nil => rfl
  | cons ev es ih =>
    rw [trace, history]
    cases step api act w ev with
    | none => rfl
    | some w' => exact congrArg (_ ++ ·) (ih w')

/-- The trace of a run with one step more. -/
theorem Run.trace_snoc {w₀ w w' : World Req Resp E σ S B} {es : List (Event S A E O)}
    {ev : Event S A E O} (run : Run api act ok w₀ es w) (hstep : step api act w ev = some w')
    (s : S) : trace api act s w₀ (es ++ [ev]) = trace api act s w₀ es ++ w.marks api s ev := by
  rw [trace_eq_history, trace_eq_history]
  exact run.history_snoc hstep _

/-- Session `s` starts nothing more, its callbacks run in turns with `V`, and they
are not lost unless `lossy`. -/
def Confined (V : E → Prop) (lossy : Prop) (s : S) (w : World Req Resp E σ S B) :
    Event S A E O → Prop
  | .invoke t _ _ => t ≠ s
  | .serve _ _ => True
  | .deliver i e => ∀ x ∈ w.pool[i]?, x.1 = s → V e
  | .drop i => ∀ x ∈ w.pool[i]?, x.1 = s → lossy

instance {V : E → Prop} [DecidablePred V] {lossy : Prop} [Decidable lossy] (s : S)
    (w : World Req Resp E σ S B) (ev : Event S A E O) : Decidable (Confined V lossy s w ev) :=
  match ev with
  | .invoke t _ _ => inferInstanceAs (Decidable (t ≠ s))
  | .serve _ _ => isTrue trivial
  | .deliver _ _ => inferInstanceAs (Decidable (∀ x ∈ _, _))
  | .drop _ => inferInstanceAs (Decidable (∀ x ∈ _, _))

/-- The call `p` of session `s` so far: whatever the flights of `s` still yield, with
the marks `T` and the assignments `fs` made so far, is something `p` yields. -/
def Yielding (V : E → Prop) (lossy : Prop) (s : S) (p : Prog Req Resp E σ) (e : E) (x : σ)
    (T : List (Mark Req Resp)) (w : World Req Resp E σ S B) : Prop :=
  ∃ fs, w.client s = fs.foldl (fun x f => f x) x
    ∧ ∀ T₁ fs₁, FlightsYield V lossy (flightsOf s w.pool) T₁ fs₁ →
      ∃ T₂ fs₂, p.Yields V lossy e T₂ fs₂ ∧ T₂.Perm (T ++ T₁) ∧ fs₂.Perm (fs ++ fs₁)

section Adequacy

variable {V : E → Prop} {lossy : Prop} {s : S} {p : Prog Req Resp E σ} {e : E} {x : σ}

/-- A call that has just been started. -/
theorem Yielding.start {w : World Req Resp E σ S B} (hidle : ∀ x ∈ w.pool, x.1 ≠ s) :
    Yielding V lossy s p e (w.client s) [] (w.turn s p e w.pool) := by
  refine ⟨p.assigns e (w.client s), ?_, ?_⟩
  · rw [World.turn_client, if_pos rfl, Prog.exec_fst]
  · intro T fs h
    rw [World.turn_pool, flightsOf_append, flightsOf_eq_nil hidle, List.nil_append,
      flightsOf_issues_self] at h
    obtain ⟨fs', hyields, hperm⟩ := p.yields_of_exec e (w.client s) h
    exact ⟨T, fs', hyields, .rfl, hperm⟩

/-- A step that leaves the flights and the client state of `s` alone. -/
theorem Yielding.frame {T : List (Mark Req Resp)} {w w' : World Req Resp E σ S B}
    (h : Yielding V lossy s p e x T w) (hpool : flightsOf s w'.pool = flightsOf s w.pool)
    (hclient : w'.client s = w.client s) : Yielding V lossy s p e x T w' := by
  obtain ⟨fs, hfs, hyields⟩ := h
  refine ⟨fs, hclient.trans hfs, ?_⟩
  rw [hpool]
  exact hyields

/-- A request of the call is served: its reply mark moves from the flights to the trace. -/
theorem Yielding.reply {T : List (Mark Req Resp)} {w w' : World Req Resp E σ S B}
    (h : Yielding V lossy s p e x T w) {pre post : List (S × Flight Req Resp E σ)} {r : Req}
    {k : Resp r → Prog Req Resp E σ} {y : Resp r} (hpool : w.pool = pre ++ (s, .issued r k) :: post)
    (hpool' : w'.pool = pre ++ (s, .served r (k y)) :: post) (hclient : w'.client s = w.client s) :
    Yielding V lossy s p e x (T ++ [.reply r y]) w' := by
  obtain ⟨fs, hfs, hyields⟩ := h
  refine ⟨fs, hclient.trans hfs, ?_⟩
  intro T₁ fs₁ h₁
  rw [hpool'] at h₁
  simp only [flightsOf_append, flightsOf_cons_self] at h₁
  obtain ⟨Ta, fa, Tb, fb, ha, ⟨Tc, fc, Td, fd, hc, hd, rfl, rfl⟩, rfl, rfl⟩ :=
    flightsYield_append.mp h₁
  have hold : FlightsYield V lossy (flightsOf s w.pool) (Ta ++ (.reply r y :: Tc ++ Td))
      (fa ++ (fc ++ fd)) := by
    rw [hpool, flightsOf_append, flightsOf_cons_self]
    exact flightsYield_append.mpr
      ⟨Ta, fa, _, _, ha, ⟨_, fc, Td, fd, ⟨y, Tc, hc, rfl⟩, hd, rfl, rfl⟩, rfl, rfl⟩
  obtain ⟨T₂, fs₂, h₂, hT, hperm⟩ := hyields _ _ hold
  refine ⟨T₂, fs₂, h₂, hT.trans ?_, hperm⟩
  rw [List.append_assoc]
  exact List.perm_middle.append_left T

/-- A callback of the call runs: the flights of its turn are what the callback yields. -/
theorem Yielding.resume {T : List (Mark Req Resp)} {w : World Req Resp E σ S B}
    (h : Yielding V lossy s p e x T w) {pre post : List (S × Flight Req Resp E σ)} {r : Req}
    {q : Prog Req Resp E σ} {e' : E} (hpool : w.pool = pre ++ (s, .served r q) :: post)
    (he' : V e') : Yielding V lossy s p e x T (w.turn s q e' (pre ++ post)) := by
  obtain ⟨fs, hfs, hyields⟩ := h
  refine ⟨fs ++ q.assigns e' (w.client s), ?_, ?_⟩
  · rw [World.turn_client, if_pos rfl, Prog.exec_fst, List.foldl_append, ← hfs]
  · intro T₁ fs₁ h₁
    simp only [World.turn_pool, flightsOf_append, flightsOf_issues_self] at h₁
    obtain ⟨Tab, fab, Tq, fq, hab, hq, rfl, rfl⟩ := flightsYield_append.mp h₁
    obtain ⟨Ta, fa, Tb, fb, ha, hb, rfl, rfl⟩ := flightsYield_append.mp hab
    obtain ⟨fq', hq', hperm'⟩ := q.yields_of_exec e' (w.client s) hq
    have hold : FlightsYield V lossy (flightsOf s w.pool) (Ta ++ (Tq ++ Tb))
        (fa ++ (fq' ++ fb)) := by
      rw [hpool, flightsOf_append, flightsOf_cons_self]
      exact flightsYield_append.mpr
        ⟨Ta, fa, _, _, ha, ⟨Tq, fq', Tb, fb, Or.inr ⟨e', he', hq'⟩, hb, rfl, rfl⟩, rfl, rfl⟩
    obtain ⟨T₂, fs₂, h₂, hT, hperm⟩ := hyields _ _ hold
    refine ⟨T₂, fs₂, h₂, hT.trans (.append_left T ?_), hperm.trans ?_⟩
    · rw [List.append_assoc]
      exact List.perm_append_comm.append_left Ta
    · rw [List.append_assoc fs]
      refine .append_left fs ?_
      have hmove : (fa ++ (fq' ++ fb)).Perm (fq' ++ (fa ++ fb)) := by
        rw [← List.append_assoc, ← List.append_assoc]
        exact List.perm_append_comm.append_right fb
      refine hmove.trans ((hperm'.append_right _).trans ?_)
      rw [List.append_assoc]
      exact List.perm_append_comm.append_left _

/-- A served request of the call is dropped, and its loss moves to the trace. -/
theorem Yielding.lose {T : List (Mark Req Resp)} {w w' : World Req Resp E σ S B}
    (h : Yielding V lossy s p e x T w) {pre post : List (S × Flight Req Resp E σ)} {r : Req}
    {q : Prog Req Resp E σ} (hpool : w.pool = pre ++ (s, .served r q) :: post)
    (hpool' : w'.pool = pre ++ post) (hclient : w'.client s = w.client s) (hlossy : lossy) :
    Yielding V lossy s p e x (T ++ [.lost r]) w' := by
  obtain ⟨fs, hfs, hyields⟩ := h
  refine ⟨fs, hclient.trans hfs, ?_⟩
  intro T₁ fs₁ h₁
  rw [hpool', flightsOf_append] at h₁
  obtain ⟨Ta, fa, Tb, fb, ha, hb, rfl, rfl⟩ := flightsYield_append.mp h₁
  have hold : FlightsYield V lossy (flightsOf s w.pool) (Ta ++ (.lost r :: Tb))
      (fa ++ fb) := by
    rw [hpool, flightsOf_append, flightsOf_cons_self]
    exact flightsYield_append.mpr
      ⟨Ta, fa, _, _, ha, ⟨[.lost r], [], Tb, fb, Or.inl ⟨hlossy, rfl, rfl⟩, hb, rfl, rfl⟩,
        rfl, rfl⟩
  obtain ⟨T₂, fs₂, h₂, hT, hperm⟩ := hyields _ _ hold
  refine ⟨T₂, fs₂, h₂, hT.trans ?_, hperm⟩
  rw [List.append_assoc]
  exact List.perm_middle.append_left T

/-- One step of a confined call. -/
theorem Yielding.stepped {T : List (Mark Req Resp)} {w w' : World Req Resp E σ S B}
    {ev : Event S A E O} (h : Yielding V lossy s p e x T w) (hok : Confined V lossy s w ev)
    (hstep : Stepped api act w ev w') :
    Yielding V lossy s p e x (T ++ w.marks api s ev) w' := by
  cases hstep with
  | invoke t a e' =>
    have hne : t ≠ s := hok
    rw [World.marks, List.append_nil]
    refine h.frame ?_ ?_
    · rw [World.turn_pool, flightsOf_append, flightsOf_issues_ne hne, List.append_nil]
    · rw [World.turn_client, if_neg hne.symm]
  | serve hpool hfifo hserve =>
    rename_i pre post t r k o b y
    rw [World.marks_serve hpool hserve]
    by_cases hts : t = s
    · subst hts
      rw [if_pos rfl]
      exact h.reply hpool rfl rfl
    · rw [if_neg hts, List.append_nil]
      refine h.frame ?_ rfl
      rw [hpool, flightsOf_append, flightsOf_append, flightsOf_cons_ne hts,
        flightsOf_cons_ne hts]
  | deliver hpool hfifo =>
    rename_i pre post t r q e'
    have hget : w.pool[pre.length]? = some (t, .served r q) := getElem?_split hpool
    rw [World.marks, List.append_nil]
    by_cases hts : t = s
    · subst hts
      exact h.resume hpool (hok _ hget rfl)
    · refine h.frame ?_ ?_
      · rw [World.turn_pool, hpool]
        simp only [flightsOf_append, flightsOf_cons_ne hts, flightsOf_issues_ne hts,
          List.append_nil]
      · rw [World.turn_client, if_neg (Ne.symm hts)]
  | drop hpool =>
    rename_i pre post t r q
    have hget : w.pool[pre.length]? = some (t, .served r q) := getElem?_split hpool
    rw [World.marks_drop hpool]
    by_cases hts : t = s
    · subst hts
      rw [if_pos rfl]
      exact h.lose hpool rfl rfl (hok _ hget rfl)
    · rw [if_neg hts, List.append_nil]
      refine h.frame ?_ rfl
      rw [hpool, flightsOf_append, flightsOf_append, flightsOf_cons_ne hts]

/-- **Adequacy.** A call that runs in its session until nothing of it is in flight
leaves, up to order, marks and assignments that its program yields. -/
theorem Run.yields (hok : ∀ w ev, ok w ev → Confined V lossy s w ev)
    {w₀ w : World Req Resp E σ S B} (hidle : ∀ x ∈ w₀.pool, x.1 ≠ s)
    {es : List (Event S A E O)} (run : Run api act ok (w₀.turn s p e w₀.pool) es w)
    (hdone : ∀ x ∈ w.pool, x.1 ≠ s) :
    ∃ T fs fs', p.Yields V lossy e T fs
      ∧ T.Perm (trace api act s (w₀.turn s p e w₀.pool) es)
      ∧ fs.Perm fs' ∧ w.client s = fs'.foldl (fun x f => f x) (w₀.client s) := by
  have hyielding : Yielding V lossy s p e (w₀.client s)
      (trace api act s (w₀.turn s p e w₀.pool) es) w := by
    clear hdone
    induction run with
    | nil => exact .start hidle
    | snoc run hev hstep ih =>
      rw [run.trace_snoc hstep]
      exact ih.stepped (hok _ _ hev) (stepped_of_step hstep)
  obtain ⟨fs', hclient, hyields⟩ := hyielding
  have hnone : FlightsYield V lossy (flightsOf s w.pool) [] [] := by
    rw [flightsOf_eq_nil hdone]
    exact ⟨rfl, rfl⟩
  obtain ⟨T, fs, h, hT, hperm⟩ := hyields _ _ hnone
  rw [List.append_nil] at hT hperm
  exact ⟨T, fs, fs', h, hT, hperm, hclient⟩

end Adequacy

end Async
