import InstaClone.Async.Tracks

/-!
# One request answered while nothing else happens

A session asks something of a world at rest and the replies come in, in any order:
nobody starts anything, nothing is lost, every outcome is `good`. `Run.solo` is the rule
for a request in sequence: its reply arrives and the run goes on from its callback.
`Gather` is the rule for a fan-out, one request for each item of a list with a callback
that collects the answer: what has been collected and what is still awaited is always
the whole list, so at the end every item has been collected once, in the order of the
replies.
-/

namespace Async

variable {Req : Type} {Resp : Req → Type} {E σ S B O A α : Type}

/-- Only replies: requests are served with good outcomes and callbacks run, in turns as
`V` says of their session. -/
def Replying (V : S → E → Prop) (good : O → Prop) (w : World Req Resp E σ S B) :
    Event S A E O → Prop
  | .invoke _ _ _ => False
  | .serve _ o => good o
  | .deliver i e => ∀ x ∈ w.pool[i]?, V x.1 e
  | .drop _ => False

instance {V : S → E → Prop} {good : O → Prop} [∀ s e, Decidable (V s e)] [DecidablePred good]
    (w : World Req Resp E σ S B) (ev : Event S A E O) : Decidable (Replying V good w ev) :=
  match ev with
  | .invoke _ _ _ => inferInstanceAs (Decidable False)
  | .serve _ o => inferInstanceAs (Decidable (good o))
  | .deliver _ _ => inferInstanceAs (Decidable (∀ x ∈ _, _))
  | .drop _ => inferInstanceAs (Decidable False)

section Solo

variable [DecidableEq S] {api : Api Req Resp B O} {act : A → Prog Req Resp E σ}
  {ok : World Req Resp E σ S B → Event S A E O → Prop} {V : S → E → Prop} {good : O → Prop}

/-- A run is over, or it starts with a step. -/
theorem Run.uncons {w₀ w : World Req Resp E σ S B} {es : List (Event S A E O)}
    (run : Run api act ok w₀ es w) :
    (es = [] ∧ w = w₀) ∨ ∃ ev es' w₁, es = ev :: es' ∧ ok w₀ ev
      ∧ step api act w₀ ev = some w₁ ∧ Run api act ok w₁ es' w := by
  induction run with
  | nil => exact Or.inl ⟨rfl, rfl⟩
  | @snoc es w w' ev run hok hstep ih =>
    right
    rcases ih with ⟨rfl, rfl⟩ | ⟨ev₁, es', w₁, rfl, hok₁, hstep₁, run₁⟩
    · exact ⟨ev, [], w', rfl, hok, hstep, .nil⟩
    · exact ⟨ev₁, es' ++ [ev], w₁, rfl, hok₁, hstep₁, .snoc run₁ hok hstep⟩

/-- The first step of a run. -/
theorem Run.cons {w₀ w : World Req Resp E σ S B} {ev : Event S A E O} {es : List (Event S A E O)}
    (run : Run api act ok w₀ (ev :: es) w) :
    ∃ w₁, step api act w₀ ev = some w₁ ∧ Run api act ok w₁ es w := by
  rcases run.uncons with ⟨h, -⟩ | ⟨ev', es', w₁, heq, -, hstep, run₁⟩
  · exact absurd h (by simp)
  · obtain ⟨rfl, rfl⟩ := List.cons.inj heq
    exact ⟨w₁, hstep, run₁⟩

/-- A run of no steps. -/
theorem Run.nil_eq {w₀ w : World Req Resp E σ S B} (run : Run api act ok w₀ [] w) : w = w₀ := by
  rcases run.uncons with ⟨-, h⟩ | ⟨ev, es, w₁, heq, -⟩
  · exact h
  · exact absurd heq (by simp)

/-- The only request in flight is served, -/
theorem step_serve_single {w : World Req Resp E σ S B} {s : S} {r : Req}
    {k : Resp r → Prog Req Resp E σ} (hpool : w.pool = [(s, .issued r k)]) (o : O) :
    step api act w (.serve 0 o)
      = (api.serve w.backend r o).map fun out =>
          { w with backend := out.1, pool := [(s, .served r (k out.2))] } := by
  simp [step, hpool]

/-- and its callback runs. -/
theorem step_deliver_single {w : World Req Resp E σ S B} {s : S} {r : Req}
    {p : Prog Req Resp E σ} (hpool : w.pool = [(s, .served r p)]) (e : E) :
    step api act w (.deliver 0 e) = some (w.turn s p e []) := by
  simp [step, hpool]

omit [DecidableEq S] in
/-- A pool of one flight splits only around it. -/
theorem split_singleton {x y : S × Flight Req Resp E σ} {pre post : List (S × Flight Req Resp E σ)}
    (h : [x] = pre ++ y :: post) : pre = [] ∧ post = [] ∧ x = y := by
  cases pre with
  | nil =>
    obtain ⟨rfl, rfl⟩ := List.cons.inj h
    exact ⟨rfl, rfl, rfl⟩
  | cons z pre =>
    have hlen := congrArg List.length h
    simp at hlen

/-- **A request on its own.** Its reply arrives, and the run goes on from its callback. -/
theorem Run.solo {w w' : World Req Resp E σ S B} {s : S} {r : Req}
    {k : Resp r → Prog Req Resp E σ} (hpool : w.pool = [(s, .issued r k)])
    {es : List (Event S A E O)} (run : Run api act (Replying V good) w es w')
    (hquiet : w'.Quiescent) :
    ∃ o b y e es', good o ∧ api.serve w.backend r o = some (b, y) ∧ V s e
      ∧ Run api act (Replying V good) (({ w with backend := b, pool := [] } :
          World Req Resp E σ S B).turn s (k y) e []) es' w' := by
  rcases run.uncons with ⟨-, rfl⟩ | ⟨ev, es₁, w₁, -, hok, hstep, run₁⟩
  · rw [World.Quiescent, hpool] at hquiet
    exact absurd hquiet (by simp)
  -- the first step serves the request
  cases stepped_of_step hstep with
  | invoke t a e => exact hok.elim
  | drop h => exact hok.elim
  | deliver h hfifo =>
    rw [hpool] at h
    obtain ⟨-, -, heq⟩ := split_singleton h
    exact absurd (Prod.mk.inj heq).2 (by simp)
  | serve h hfifo hserve =>
    rename_i pre post t r' k' o b y
    rw [hpool] at h
    obtain ⟨rfl, rfl, heq⟩ := split_singleton h
    cases heq
    -- the second runs its callback
    rcases run₁.uncons with ⟨-, rfl⟩ | ⟨ev, es₂, w₂, -, hok₂, hstep₂, run₂⟩
    · exact absurd hquiet (by simp [World.Quiescent])
    cases stepped_of_step hstep₂ with
    | invoke t a e => exact hok₂.elim
    | drop h => exact hok₂.elim
    | serve h hfifo hserve =>
      obtain ⟨-, -, heq⟩ := split_singleton h
      exact absurd (Prod.mk.inj heq).2 (by simp)
    | deliver h hfifo =>
      rename_i pre post t r' p e
      obtain ⟨rfl, rfl, heq⟩ := split_singleton h
      cases heq
      exact ⟨o, b, y, e, es₂, hok, hserve, hok₂ _ rfl, run₂⟩

/-- With nothing in flight nothing more happens. -/
theorem Run.idle {w w' : World Req Resp E σ S B} (hpool : w.pool = [])
    {es : List (Event S A E O)} (run : Run api act (Replying V good) w es w') : w' = w := by
  rcases run.uncons with ⟨-, rfl⟩ | ⟨ev, es₁, w₁, -, hok, hstep, -⟩
  · rfl
  · cases stepped_of_step hstep with
    | invoke t a e => exact hok.elim
    | drop h => exact hok.elim
    | serve h => rw [hpool] at h; exact absurd h (by simp)
    | deliver h => rw [hpool] at h; exact absurd h (by simp)

end Solo

/-! ## Fan-out -/

/-- A fan-out: the request made for an item, what its callback comes to once the answer
is in, and how that collects the item into the client state in the turn it runs in. -/
structure Gather (Req : Type) (Resp : Req → Type) (E σ α : Type) where
  ask : α → Req
  got : α → Prog Req Resp E σ
  collect : σ → α → E → σ
  got_exec : ∀ a e x, (got a).exec e x = (collect x a e, [])

namespace Gather

variable {G : Gather Req Resp E σ α} {api : Api Req Resp B O} {good : O → Prop} {b : B}

/-- Collect items one after the other, each in its turn. -/
def collectAll (G : Gather Req Resp E σ α) (x₀ : σ) (received : List (α × E)) : σ :=
  received.foldl (fun x item => G.collect x item.1 item.2) x₀

@[simp] theorem collectAll_nil (x₀ : σ) : G.collectAll x₀ [] = x₀ := rfl

@[simp] theorem collectAll_snoc (x₀ : σ) (received : List (α × E)) (item : α × E) :
    G.collectAll x₀ (received ++ [item])
      = G.collect (G.collectAll x₀ received) item.1 item.2 := by
  unfold collectAll
  rw [List.foldl_append]
  rfl

/-- The flights that await an item, over a backend that stays as it is. -/
inductive Awaits (G : Gather Req Resp E σ α) (api : Api Req Resp B O) (good : O → Prop) (b : B) :
    Flight Req Resp E σ → α → Prop
  | asked {a : α} {k : Resp (G.ask a) → Prog Req Resp E σ}
      (hk : ∀ o b' y, good o → api.serve b (G.ask a) o = some (b', y) → b' = b ∧ k y = G.got a) :
      Awaits G api good b (.issued (G.ask a) k) a
  | answered {a : α} : Awaits G api good b (.served (G.ask a) (G.got a)) a

theorem Awaits.req_eq {fl : Flight Req Resp E σ} {a : α} (h : G.Awaits api good b fl a) :
    fl.req = G.ask a := by
  cases h <;> rfl

/-- The fan-out of session `s` over `items`, started in the client state `x₀`. -/
def Running (G : Gather Req Resp E σ α) (api : Api Req Resp B O) (good : O → Prop) (b : B) (s : S)
    (x₀ : σ) (items : List α) (w : World Req Resp E σ S B) : Prop :=
  w.backend = b ∧ ∃ received waiting,
    Tracks (fun _ _ => False) (fun t fl a => t = s ∧ G.Awaits api good b fl a) w.pool waiting
      ∧ (received.map Prod.fst ++ waiting.map Prod.snd).Perm items
      ∧ w.client s = G.collectAll x₀ received

variable [DecidableEq S] {act : A → Prog Req Resp E σ} {V : S → E → Prop} {s : S} {x₀ : σ}
  {items : List α}

/-- All requests have been issued, none is answered yet. -/
theorem Running.start {w : World Req Resp E σ S B} {p : Prog Req Resp E σ} {e : E}
    {issue : α → Flight Req Resp E σ} (hb : w.backend = b)
    (hexec : p.exec e (w.client s) = (x₀, items.map issue))
    (hissue : ∀ a ∈ items, G.Awaits api good b (issue a) a) :
    G.Running api good b s x₀ items (w.turn s p e []) := by
  refine ⟨hb, [], items.map fun a => (s, a), ?_, ?_, ?_⟩
  · rw [World.turn_pool, hexec, List.nil_append]
    clear hexec
    induction items with
    | nil => exact .nil
    | cons a items ih =>
      exact .stage ⟨rfl, hissue a (List.mem_cons_self ..)⟩
        (ih fun a ha => hissue a (List.mem_cons_of_mem _ ha))
  · rw [List.map_nil, List.nil_append, List.map_map]
    simp [Function.comp_def]
  · rw [World.turn_client, if_pos rfl, hexec]
    rfl

/-- A reply moves an item from the awaited to the collected; everything else waits. -/
theorem Running.stepped {w w' : World Req Resp E σ S B} {ev : Event S A E O}
    (h : G.Running api good b s x₀ items w) (hok : Replying V good w ev)
    (hstep : Stepped api act w ev w') : G.Running api good b s x₀ items w' := by
  obtain ⟨hb, received, waiting, htracks, hperm, hclient⟩ := h
  cases hstep with
  | invoke t a e => exact hok.elim
  | drop hpool => exact hok.elim
  | serve hpool hfifo hserve =>
    rename_i pre post t r k o b' y
    rw [hpool] at htracks
    obtain ⟨l, l', rfl, hpre, hpost⟩ := htracks.append_inv
    cases hpost with
    | quiet hfl hpost => exact hfl.elim
    | stage hfl hpost =>
      obtain ⟨rfl, hfl⟩ := hfl
      cases hfl with
      | asked hk =>
        rw [hb] at hserve
        obtain ⟨rfl, hgot⟩ := hk o b' y hok hserve
        refine ⟨rfl, received, _, hpre.append (.stage ⟨rfl, ?_⟩ hpost), hperm, hclient⟩
        rw [hgot]
        exact .answered
  | deliver hpool hfifo =>
    rename_i pre post t r p e
    rw [hpool] at htracks
    obtain ⟨l, l', rfl, hpre, hpost⟩ := htracks.append_inv
    cases hpost with
    | quiet hfl hpost => exact hfl.elim
    | @stage _ _ a _ l' hfl hpost =>
      obtain ⟨rfl, hfl⟩ := hfl
      cases hfl with
      | answered =>
        refine ⟨hb, received ++ [(a, e)], l ++ l', ?_, ?_, ?_⟩
        · rw [World.turn_pool, G.got_exec, List.map_nil, List.append_nil]
          exact hpre.append hpost
        · refine List.Perm.trans ?_ hperm
          rw [List.map_append, List.map_append, List.map_append, List.map_cons, List.append_assoc,
            List.map_cons, List.map_nil, List.singleton_append]
          exact List.perm_middle.symm.append_left (received.map Prod.fst)
        · rw [World.turn_client, if_pos rfl, G.got_exec, collectAll_snoc, ← hclient]

/-- **A query and its fan-out.** The answer to a request in flight on its own starts a fan-out
over `items` with `P`. Then a run is still at that request, or in the fan-out. -/
theorem Running.after {w₀ w : World Req Resp E σ S B} {r : Req} {k : Resp r → Prog Req Resp E σ}
    {P : List α → Prop} (hpool : w₀.pool = [(s, .issued r k)])
    (hstart : ∀ o b y e, good o → api.serve w₀.backend r o = some (b, y) → V s e →
      ∃ items, P items ∧ G.Running api good w₀.backend s x₀ items
        (({ w₀ with backend := b, pool := [] } : World Req Resp E σ S B).turn s (k y) e []))
    {es : List (Event S A E O)} (run : Run api act (Replying V good) w₀ es w) :
    (w.client = w₀.client ∧ w.pool.map (fun x => x.2.req) = [r])
      ∨ ∃ items, P items ∧ G.Running api good w₀.backend s x₀ items w := by
  have hinv : w = w₀
      ∨ (∃ o b y, good o ∧ api.serve w₀.backend r o = some (b, y)
        ∧ w = { w₀ with backend := b, pool := [(s, .served r (k y))] })
      ∨ ∃ items, P items ∧ G.Running api good w₀.backend s x₀ items w := by
    refine run.invariant (I := fun _ w => w = w₀
      ∨ (∃ o b y, good o ∧ api.serve w₀.backend r o = some (b, y)
        ∧ w = { w₀ with backend := b, pool := [(s, .served r (k y))] })
      ∨ ∃ items, P items ∧ G.Running api good w₀.backend s x₀ items w) (Or.inl rfl) ?_
    rintro es w ev w' (rfl | ⟨o, b, y, ho, hserve, rfl⟩ | ⟨items, hitems, hrunning⟩) hok hstep
    · cases hstep with
      | invoke t a e => exact hok.elim
      | drop h => exact hok.elim
      | deliver h hfifo =>
        rw [hpool] at h
        obtain ⟨-, -, heq⟩ := split_singleton h
        exact absurd (Prod.mk.inj heq).2 (by simp)
      | serve h hfifo hserve =>
        rw [hpool] at h
        obtain ⟨rfl, rfl, heq⟩ := split_singleton h
        cases heq
        exact Or.inr (Or.inl ⟨_, _, _, hok, hserve, rfl⟩)
    · cases hstep with
      | invoke t a e => exact hok.elim
      | drop h => exact hok.elim
      | serve h hfifo _ =>
        obtain ⟨-, -, heq⟩ := split_singleton h
        exact absurd (Prod.mk.inj heq).2 (by simp)
      | deliver h hfifo =>
        obtain ⟨rfl, rfl, heq⟩ := split_singleton h
        cases heq
        exact Or.inr (Or.inr (hstart o b y _ ho hserve (hok _ rfl)))
    · exact Or.inr (Or.inr ⟨items, hitems, hrunning.stepped hok hstep⟩)
  rcases hinv with rfl | ⟨o, b, y, -, -, rfl⟩ | hrunning
  · exact Or.inl ⟨rfl, by rw [hpool]; rfl⟩
  · exact Or.inl ⟨rfl, rfl⟩
  · exact Or.inr hrunning

omit [DecidableEq S] in
/-- What has been collected, and what the pool still awaits. -/
theorem Running.collected {w : World Req Resp E σ S B} (h : G.Running api good b s x₀ items w) :
    ∃ received waiting, w.pool.map (fun x => x.2.req) = waiting.map G.ask
      ∧ (received.map Prod.fst ++ waiting).Perm items ∧ w.client s = G.collectAll x₀ received := by
  obtain ⟨-, received, waiting, htracks, hperm, hclient⟩ := h
  refine ⟨received, waiting.map Prod.snd, ?_, hperm, hclient⟩
  clear hperm hclient
  generalize w.pool = pool at htracks
  induction htracks with
  | nil => rfl
  | quiet hfl _ _ => exact hfl.elim
  | stage hfl _ ih =>
    rw [List.map_cons, ih, List.map_cons, List.map_cons, hfl.2.req_eq]

/-- **The fan-out rule.** When all replies are in, every item has been collected once, in
some order. -/
theorem Running.settled {w w' : World Req Resp E σ S B} {es : List (Event S A E O)}
    (h : G.Running api good b s x₀ items w) (run : Run api act (Replying V good) w es w')
    (hquiet : w'.Quiescent) :
    ∃ received, (received.map Prod.fst).Perm items ∧ w'.client s = G.collectAll x₀ received := by
  have hend : G.Running api good b s x₀ items w' :=
    run.invariant (I := fun _ w => G.Running api good b s x₀ items w) h
      fun _ _ _ _ hw hok hstep => hw.stepped hok hstep
  obtain ⟨received, waiting, hpool, hperm, hclient⟩ := hend.collected
  rw [World.Quiescent] at hquiet
  rw [hquiet] at hpool
  obtain rfl := List.map_eq_nil_iff.mp hpool.symm
  rw [List.append_nil] at hperm
  exact ⟨received, hperm, hclient⟩

end Gather

end Async
