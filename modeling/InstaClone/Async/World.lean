import Mathlib.Logic.Function.Basic
import InstaClone.Async.Program

/-!
# Clients, their requests in flight, and a shared backend

A `World` is a backend, the state of each client session and the pool of all
requests in flight, in the order they were issued. Four things can happen
(`Event`): a session runs an action of its user, the backend serves a request of
the pool, a served request's callback runs in its session, or a callback is lost
because its session has died.

`Api.ordered` marks the requests a session sends through one FIFO channel: an
ordered request is served only after the ordered requests its session issued
earlier, and its callback runs only after theirs. All other requests are served
and answered in any order, and different sessions interleave freely.

`step` is the executable step function. `Stepped` is its inversion, one case for
each thing that can happen with the pool split at the flight concerned; every
invariant below is proved over `Stepped`. A `Run` is a sequence of steps each of
which meets a side condition `ok`; `Run.invariant` is the induction over runs,
and `exists_run_of_play` turns an evaluation of `play` into a run.
-/

namespace Async

/-- The remote service: how the backend serves a request under an outcome `O`
(`none`: it cannot end that way), and which requests go through a session's FIFO
channel. -/
structure Api (Req : Type) (Resp : Req → Type) (B O : Type) where
  serve : B → (r : Req) → O → Option (B × Resp r)
  ordered : Req → Bool

/-- The backend, every session's client state, and the pool of requests in
flight in issue order. -/
structure World (Req : Type) (Resp : Req → Type) (E σ S B : Type) where
  backend : B
  client : S → σ
  pool : List (S × Flight Req Resp E σ)

/-- What can happen next. Flights are named by their position in the pool. -/
inductive Event (S A E O : Type) : Type
  | invoke (s : S) (a : A) (e : E)
  | serve (i : Nat) (o : O)
  | deliver (i : Nat) (e : E)
  | drop (i : Nat)

variable {Req : Type} {Resp : Req → Type} {E σ S B O A : Type} [DecidableEq S]

namespace World

/-- Nothing is in flight. -/
def Quiescent (w : World Req Resp E σ S B) : Prop := w.pool = []

/-- Session `s` runs one turn of the program `p`; the requests it issues join
the end of the pool. -/
def turn (w : World Req Resp E σ S B) (s : S) (p : Prog Req Resp E σ) (e : E)
    (pool : List (S × Flight Req Resp E σ)) : World Req Resp E σ S B :=
  { w with
    client := Function.update w.client s (p.exec e (w.client s)).1
    pool := pool ++ (p.exec e (w.client s)).2.map fun fl => (s, fl) }

@[simp] theorem turn_backend (w : World Req Resp E σ S B) (s : S) (p : Prog Req Resp E σ)
    (e : E) (pool : List (S × Flight Req Resp E σ)) :
    (w.turn s p e pool).backend = w.backend := rfl

@[simp] theorem turn_pool (w : World Req Resp E σ S B) (s : S) (p : Prog Req Resp E σ)
    (e : E) (pool : List (S × Flight Req Resp E σ)) :
    (w.turn s p e pool).pool
      = pool ++ (p.exec e (w.client s)).2.map fun fl => (s, fl) := rfl

theorem turn_client (w : World Req Resp E σ S B) (s t : S) (p : Prog Req Resp E σ)
    (e : E) (pool : List (S × Flight Req Resp E σ)) :
    (w.turn s p e pool).client t
      = if t = s then (p.exec e (w.client s)).1 else w.client t := by
  simp only [turn, Function.update_apply]

end World

/-- One step, executable. `none` when the event is not enabled. -/
def step (api : Api Req Resp B O) (act : A → Prog Req Resp E σ)
    (w : World Req Resp E σ S B) : Event S A E O → Option (World Req Resp E σ S B)
  | .invoke s a e => some (w.turn s (act a) e w.pool)
  | .serve i o =>
    match w.pool[i]? with
    | some (s, .issued r k) =>
      if api.ordered r && (w.pool.take i).any
          (fun x => decide (x.1 = s) && x.2.waits && api.ordered x.2.req) then none
      else (api.serve w.backend r o).map fun out =>
        { w with backend := out.1, pool := w.pool.set i (s, .served r (k out.2)) }
    | _ => none
  | .deliver i e =>
    match w.pool[i]? with
    | some (s, .served r p) =>
      if api.ordered r && (w.pool.take i).any
          (fun x => decide (x.1 = s) && api.ordered x.2.req) then none
      else some (w.turn s p e (w.pool.eraseIdx i))
    | _ => none
  | .drop i =>
    match w.pool[i]? with
    | some (_, .served _ _) => some { w with pool := w.pool.eraseIdx i }
    | _ => none

/-- The cases of a step, with the pool split at the flight concerned. -/
inductive Stepped (api : Api Req Resp B O) (act : A → Prog Req Resp E σ)
    (w : World Req Resp E σ S B) : Event S A E O → World Req Resp E σ S B → Prop
  /-- A user action runs in its session. -/
  | invoke (s : S) (a : A) (e : E) :
      Stepped api act w (.invoke s a e) (w.turn s (act a) e w.pool)
  /-- The backend serves a request. -/
  | serve {pre post : List (S × Flight Req Resp E σ)} {s : S} {r : Req}
      {k : Resp r → Prog Req Resp E σ} {o : O} {b : B} {resp : Resp r}
      (hpool : w.pool = pre ++ (s, .issued r k) :: post)
      (hfifo : api.ordered r = true → ∀ x ∈ pre, x.1 = s → x.2.waits = true →
        api.ordered x.2.req = false)
      (hserve : api.serve w.backend r o = some (b, resp)) :
      Stepped api act w (.serve pre.length o)
        { w with backend := b, pool := pre ++ (s, .served r (k resp)) :: post }
  /-- A callback runs. -/
  | deliver {pre post : List (S × Flight Req Resp E σ)} {s : S} {r : Req}
      {p : Prog Req Resp E σ} {e : E}
      (hpool : w.pool = pre ++ (s, .served r p) :: post)
      (hfifo : api.ordered r = true → ∀ x ∈ pre, x.1 = s → api.ordered x.2.req = false) :
      Stepped api act w (.deliver pre.length e) (w.turn s p e (pre ++ post))
  /-- A callback is lost. -/
  | drop {pre post : List (S × Flight Req Resp E σ)} {s : S} {r : Req}
      {p : Prog Req Resp E σ}
      (hpool : w.pool = pre ++ (s, .served r p) :: post) :
      Stepped api act w (.drop pre.length) { w with pool := pre ++ post }

section Split

variable {α : Type} {l pre post : List α} {x y : α}

/-- What a list that is split holds where it splits, -/
theorem getElem?_split (h : l = pre ++ x :: post) : l[pre.length]? = some x := by
  rw [h]
  simp

theorem mem_split (h : l = pre ++ x :: post) : x ∈ l :=
  List.mem_of_getElem? (getElem?_split h)

/-- before that, -/
theorem mem_split_left (h : l = pre ++ x :: post) (hy : y ∈ pre) : y ∈ l := by
  rw [h]
  exact List.mem_append_left _ hy

/-- and after it. -/
theorem mem_split_right (h : l = pre ++ x :: post) (hy : y ∈ post) : y ∈ l := by
  rw [h]
  exact List.mem_append_right _ (List.mem_cons_of_mem _ hy)

theorem mem_split_rest (h : l = pre ++ x :: post) (hy : y ∈ pre ++ post) : y ∈ l :=
  (List.mem_append.mp hy).elim (mem_split_left h) (mem_split_right h)

end Split

/-- A list splits at a position that holds `x`. -/
private theorem split_at {α : Type} {l : List α} {i : Nat} {x : α} (h : l[i]? = some x) :
    ∃ pre post, l = pre ++ x :: post ∧ i = pre.length ∧ l.take i = pre
      ∧ l.eraseIdx i = pre ++ post ∧ ∀ y, l.set i y = pre ++ y :: post := by
  obtain ⟨hi, hx⟩ := List.getElem?_eq_some_iff.mp h
  have hlen : (l.take i).length = i := by
    rw [List.length_take]
    omega
  refine ⟨l.take i, l.drop (i + 1), ?_, hlen.symm, rfl, List.eraseIdx_eq_take_drop_succ l i, ?_⟩
  · rw [← hx, List.getElem_cons_drop, List.take_append_drop]
  · intro y
    rw [List.set_eq_take_append_cons_drop, if_pos hi]

/-- Every executable step is one of the cases of `Stepped`. -/
theorem stepped_of_step {api : Api Req Resp B O} {act : A → Prog Req Resp E σ}
    {w w' : World Req Resp E σ S B} {ev : Event S A E O}
    (h : step api act w ev = some w') : Stepped api act w ev w' := by
  cases ev with
  | invoke s a e =>
    simp only [step, Option.some.injEq] at h
    subst h
    exact .invoke s a e
  | serve i o =>
    simp only [step] at h
    split at h
    next s r k hi =>
      obtain ⟨pre, post, hpool, rfl, htake, -, hset⟩ := split_at hi
      rw [htake] at h
      split at h
      next => exact absurd h (by simp)
      next hfree =>
        obtain ⟨⟨b, resp⟩, hserve, rfl⟩ := Option.map_eq_some_iff.mp h
        rw [hset]
        refine .serve hpool ?_ hserve
        intro hr x hx hs hwait
        by_contra hord
        have hord : api.ordered x.2.req = true := by simpa using hord
        exact hfree (by
          rw [hr, Bool.true_and, List.any_eq_true]
          exact ⟨x, hx, by simp [hs, hwait, hord]⟩)
    next => exact absurd h (by simp)
  | deliver i e =>
    simp only [step] at h
    split at h
    next s r p hi =>
      obtain ⟨pre, post, hpool, rfl, htake, herase, -⟩ := split_at hi
      rw [htake, herase] at h
      split at h
      next => exact absurd h (by simp)
      next hfree =>
        simp only [Option.some.injEq] at h
        subst h
        refine .deliver hpool ?_
        intro hr x hx hs
        by_contra hord
        have hord : api.ordered x.2.req = true := by simpa using hord
        exact hfree (by
          rw [hr, Bool.true_and, List.any_eq_true]
          exact ⟨x, hx, by simp [hs, hord]⟩)
    next => exact absurd h (by simp)
  | drop i =>
    simp only [step] at h
    split at h
    next s r p hi =>
      obtain ⟨pre, post, hpool, rfl, -, herase, -⟩ := split_at hi
      simp only [Option.some.injEq] at h
      subst h
      rw [herase]
      exact .drop hpool
    next => exact absurd h (by simp)

/-- What is known of every flight stays known, as soon as it is known of what an action issues
and passes from a request to its callback and on to what that issues. -/
theorem Stepped.flights {api : Api Req Resp B O} {act : A → Prog Req Resp E σ}
    {w w' : World Req Resp E σ S B} {ev : Event S A E O} {P : Flight Req Resp E σ → Prop}
    (hstep : Stepped api act w ev w') (h : ∀ x ∈ w.pool, P x.2)
    (hinvoke : ∀ s a e, ev = .invoke s a e → ∀ fl ∈ ((act a).exec e (w.client s)).2, P fl)
    (hserve : ∀ r k y, P (.issued r k) → P (.served r (k y)))
    (hdeliver : ∀ r p e s, P (.served r p) → ∀ fl ∈ (p.exec e s).2, P fl) :
    ∀ x ∈ w'.pool, P x.2 := by
  intro x hx
  cases hstep with
  | invoke s a e =>
    rcases List.mem_append.mp hx with hx | hx
    · exact h x hx
    · obtain ⟨fl, hfl, rfl⟩ := List.mem_map.mp hx
      exact hinvoke s a e rfl fl hfl
  | serve hpool hfifo hs =>
    rename_i pre post s r k o b y
    rcases List.mem_append.mp hx with hx | hx
    · exact h x (by rw [hpool]; exact List.mem_append_left _ hx)
    rcases List.mem_cons.mp hx with rfl | hx
    · exact hserve r k y (h (s, .issued r k) (mem_split hpool))
    · exact h x (mem_split_right hpool hx)
  | deliver hpool hfifo =>
    rename_i pre post s r p e
    rcases List.mem_append.mp hx with hx | hx
    · exact h x (mem_split_rest hpool hx)
    · obtain ⟨fl, hfl, rfl⟩ := List.mem_map.mp hx
      exact hdeliver r p e _ (h (s, .served r p) (mem_split hpool)) fl hfl
  | drop hpool =>
    exact h x (mem_split_rest hpool hx)

/-! ## Runs -/

/-- A run from `w₀`: the events so far and the world they have led to, every
step meeting the side condition `ok` in the world it started from. -/
inductive Run (api : Api Req Resp B O) (act : A → Prog Req Resp E σ)
    (ok : World Req Resp E σ S B → Event S A E O → Prop) (w₀ : World Req Resp E σ S B) :
    List (Event S A E O) → World Req Resp E σ S B → Prop
  | nil : Run api act ok w₀ [] w₀
  | snoc {es : List (Event S A E O)} {w w' : World Req Resp E σ S B} {ev : Event S A E O}
      (run : Run api act ok w₀ es w) (hok : ok w ev) (hstep : step api act w ev = some w') :
      Run api act ok w₀ (es ++ [ev]) w'

section Runs

variable {api : Api Req Resp B O} {act : A → Prog Req Resp E σ}
  {ok ok' : World Req Resp E σ S B → Event S A E O → Prop} {w₀ w : World Req Resp E σ S B}
  {es : List (Event S A E O)}

/-- Induction over a run: what holds at the start and is kept by every step that
meets the side condition holds at the end. -/
theorem Run.invariant {I : List (Event S A E O) → World Req Resp E σ S B → Prop}
    (hinit : I [] w₀)
    (hkeep : ∀ es w ev w', I es w → ok w ev → Stepped api act w ev w' → I (es ++ [ev]) w')
    (run : Run api act ok w₀ es w) : I es w := by
  induction run with
  | nil => exact hinit
  | snoc _ hok hstep ih => exact hkeep _ _ _ _ ih hok (stepped_of_step hstep)

/-- A run under a side condition is a run under any weaker one. -/
theorem Run.mono (h : ∀ w ev, ok w ev → ok' w ev) (run : Run api act ok w₀ es w) :
    Run api act ok' w₀ es w := by
  induction run with
  | nil => exact .nil
  | snoc _ hok hstep ih => exact .snoc ih (h _ _ hok) hstep

/-- Two runs in sequence. -/
theorem Run.append {w₁ : World Req Resp E σ S B} {es₁ : List (Event S A E O)}
    (run : Run api act ok w₀ es w₁) (run₁ : Run api act ok w₁ es₁ w) :
    Run api act ok w₀ (es ++ es₁) w := by
  induction run₁ with
  | nil => rwa [List.append_nil]
  | snoc _ hok hstep ih => rw [← List.append_assoc]; exact .snoc ih hok hstep

/-- Run a list of events, checking the side condition at each. -/
def play (api : Api Req Resp B O) (act : A → Prog Req Resp E σ)
    (ok : World Req Resp E σ S B → Event S A E O → Prop) [∀ w ev, Decidable (ok w ev)] :
    World Req Resp E σ S B → List (Event S A E O) → Option (World Req Resp E σ S B)
  | w, [] => some w
  | w, ev :: es =>
    if ok w ev then (step api act w ev).bind fun w' => play api act ok w' es else none

/-- What `play` computes is a run. -/
theorem run_of_play [∀ w ev, Decidable (ok w ev)] :
    ∀ {es : List (Event S A E O)} {w₀ w : World Req Resp E σ S B},
      play api act ok w₀ es = some w → Run api act ok w₀ es w
  | [], w₀, w, h => by
    simp only [play, Option.some.injEq] at h
    subst h
    exact .nil
  | ev :: es, w₀, w, h => by
    rw [play] at h
    split at h
    next hok =>
      obtain ⟨w₁, hstep, hrest⟩ := Option.bind_eq_some_iff.mp h
      exact (Run.snoc .nil hok hstep).append (run_of_play hrest)
    next => exact absurd h (by simp)

/-- An evaluation that ends in a world with `P` exhibits such a run. -/
theorem exists_run_of_play [∀ w ev, Decidable (ok w ev)]
    {P : World Req Resp E σ S B → Prop} [DecidablePred P]
    (h : (play api act ok w₀ es).any (fun w => decide (P w)) = true) :
    ∃ w, Run api act ok w₀ es w ∧ P w := by
  cases hp : play api act ok w₀ es with
  | none => rw [hp] at h; exact absurd h (by simp)
  | some w =>
    rw [hp] at h
    exact ⟨w, run_of_play hp, by simpa using h⟩

/-- An evaluation and one step more. -/
theorem exists_step_of_play [∀ w ev, Decidable (ok w ev)] {ev : Event S A E O}
    {P : World Req Resp E σ S B → World Req Resp E σ S B → Prop} [∀ w w', Decidable (P w w')]
    (h : (play api act ok w₀ es).any
      (fun w => (step api act w ev).any fun w' => decide (P w w')) = true) :
    ∃ w w', Run api act ok w₀ es w ∧ step api act w ev = some w' ∧ P w w' := by
  cases hp : play api act ok w₀ es with
  | none => rw [hp] at h; exact absurd h (by simp)
  | some w =>
    rw [hp] at h
    cases hs : step api act w ev with
    | none => simp [hs] at h
    | some w' => exact ⟨w, w', run_of_play hp, hs, by simpa [hs] using h⟩

/-- An evaluation in two parts. -/
theorem exists_runs_of_play [∀ w ev, Decidable (ok w ev)] {es' : List (Event S A E O)}
    {P : World Req Resp E σ S B → World Req Resp E σ S B → Prop} [∀ w w', Decidable (P w w')]
    (h : (play api act ok w₀ es).any
      (fun w => (play api act ok w es').any fun w' => decide (P w w')) = true) :
    ∃ w w', Run api act ok w₀ es w ∧ Run api act ok w es' w' ∧ P w w' := by
  cases hp : play api act ok w₀ es with
  | none => rw [hp] at h; exact absurd h (by simp)
  | some w =>
    rw [hp] at h
    cases hp' : play api act ok w es' with
    | none => simp [hp'] at h
    | some w' => exact ⟨w, w', run_of_play hp, run_of_play hp', by simpa [hp'] using h⟩

end Runs

end Async
