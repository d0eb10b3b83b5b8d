import Mathlib.Data.List.Forall2
import InstaClone.Async.Machine
import InstaClone.Async.World

/-!
# Where a flight comes from

A flight in the pool does not say which action it goes back to. `Labelled` adds that: what an
action issues carries the label `origin` gives the action, and what a callback issues carries
the label of the flight the callback belongs to. The labels decide nothing: a labelled run is a
run (`run_of_labelled`).

`Labelled.Flights` relates each flight to its label; a step keeps it if what actions issue, what
replies make of a request and what callbacks issue are so related (`Labelled.Flights.step`).
-/

namespace Async

/-- A world and the labels of its flights. -/
structure Labelled (Req : Type) (Resp : Req → Type) (E σ S B L : Type) where
  world : World Req Resp E σ S B
  labels : List L

variable {Req : Type} {Resp : Req → Type} {E σ S B O A L : Type}

namespace Labelled

/-- The labels of the flights that stay. -/
def kept (x : Labelled Req Resp E σ S B L) : Event S A E O → List L
  | .deliver i _ => x.labels.eraseIdx i
  | .drop i => x.labels.eraseIdx i
  | _ => x.labels

/-- The label of what is issued. -/
def issues (origin : σ → A → L) (x : Labelled Req Resp E σ S B L) : Event S A E O → Option L
  | .invoke s a _ => some (origin (x.world.client s) a)
  | .deliver i _ => x.labels[i]?
  | _ => none

/-- The labels once an event has led to the world `w`. -/
def relabel (origin : σ → A → L) (x : Labelled Req Resp E σ S B L) (ev : Event S A E O)
    (w : World Req Resp E σ S B) : List L :=
  x.kept ev
    ++ (x.issues origin ev).toList.flatMap fun l =>
      List.replicate (w.pool.length - (x.kept ev).length) l

/-- One step of a labelled world. -/
def step [DecidableEq S] (api : Api Req Resp B O) (act : A → Prog Req Resp E σ)
    (origin : σ → A → L) (x : Labelled Req Resp E σ S B L) (ev : Event S A E O) :
    Option (Labelled Req Resp E σ S B L) :=
  (Async.step api act x.world ev).map fun w => ⟨w, x.relabel origin ev w⟩

end Labelled

/-- The labelled worlds of the runs from `w₀`, in which nothing is in flight. -/
def labelled [DecidableEq S] (api : Api Req Resp B O) (act : A → Prog Req Resp E σ)
    (origin : σ → A → L) (w₀ : World Req Resp E σ S B) :
    Machine (Labelled Req Resp E σ S B L) (Event S A E O) where
  starts x := x = ⟨w₀, []⟩
  allows _ _ := True
  step := Labelled.step api act origin

section Rules

variable [DecidableEq S] {api : Api Req Resp B O} {act : A → Prog Req Resp E σ}
  {origin : σ → A → L} {w₀ w : World Req Resp E σ S B} {es : List (Event S A E O)}

/-- A labelled run is a run. -/
theorem run_of_labelled {x : Labelled Req Resp E σ S B L}
    (run : (labelled api act origin w₀).Run es x) :
    Run api act (fun _ _ => True) w₀ es x.world := by
  induction run with
  | nil hstart =>
    rw [show _ = _ from hstart]
    exact .nil
  | snoc _ _ hstep ih =>
    obtain ⟨w, hw, rfl⟩ := Option.map_eq_some_iff.mp hstep
    exact .snoc ih trivial hw

/-- Every flight is as `R` says of its label. -/
def Labelled.Flights (R : L → S × Flight Req Resp E σ → Prop)
    (x : Labelled Req Resp E σ S B L) : Prop :=
  List.Forall₂ R x.labels x.world.pool

section Flights

variable {R : L → S × Flight Req Resp E σ → Prop} {x x' : Labelled Req Resp E σ S B L}

omit [DecidableEq S] in
/-- A flight and its label. -/
theorem Labelled.Flights.get (h : x.Flights R) {i : Nat} {l : L} {y : S × Flight Req Resp E σ}
    (hl : x.labels[i]? = some l) (hy : x.world.pool[i]? = some y) : R l y := by
  obtain ⟨hi, rfl⟩ := List.getElem?_eq_some_iff.mp hl
  obtain ⟨hj, rfl⟩ := List.getElem?_eq_some_iff.mp hy
  exact List.Forall₂.get h hi hj

omit [DecidableEq S] in
/-- The labels, split as the pool is. -/
theorem forall₂_split {labels : List L} {y : S × Flight Req Resp E σ}
    {pre post : List (S × Flight Req Resp E σ)} (h : List.Forall₂ R labels (pre ++ y :: post)) :
    ∃ l before after, labels = before ++ l :: after ∧ before.length = pre.length ∧ R l y
      ∧ List.Forall₂ R before pre ∧ List.Forall₂ R after post := by
  have hafter := List.forall₂_drop_append _ _ _ h
  obtain ⟨l, after, hy, hpost, hdrop⟩ := List.forall₂_cons_right_iff.mp hafter
  have hbefore := List.forall₂_take_append _ _ _ h
  exact ⟨l, _, after, by rw [← hdrop, List.take_append_drop], hbefore.length_eq, hy, hbefore, hpost⟩

omit [DecidableEq S] in
/-- What is issued together has one label. -/
theorem forall₂_issued {l : L} {s : S} {flights : List (Flight Req Resp E σ)}
    (h : ∀ fl ∈ flights, R l (s, fl)) :
    List.Forall₂ R (List.replicate flights.length l) (flights.map fun fl => (s, fl)) := by
  induction flights with
  | nil => exact .nil
  | cons fl flights ih =>
    exact .cons (h fl (List.mem_cons_self ..)) (ih fun fl hfl => h fl (List.mem_cons_of_mem _ hfl))

/-- **The rule of labels, one step.** -/
theorem Labelled.Flights.step {ev : Event S A E O} (h : x.Flights R)
    (hstep : Labelled.step api act origin x ev = some x')
    (hinvoke : ∀ s a e, ev = .invoke s a e →
      ∀ fl ∈ ((act a).exec e (x.world.client s)).2, R (origin (x.world.client s) a) (s, fl))
    (hserve : ∀ l s r k o b y, R l (s, .issued r k) →
      api.serve x.world.backend r o = some (b, y) → R l (s, .served r (k y)))
    (hdeliver : ∀ i e l s r p, ev = .deliver i e → x.labels[i]? = some l →
      x.world.pool[i]? = some (s, .served r p) → R l (s, .served r p) →
      ∀ fl ∈ (p.exec e (x.world.client s)).2, R l (s, fl)) : x'.Flights R := by
  obtain ⟨w, hw, rfl⟩ := Option.map_eq_some_iff.mp hstep
  unfold Labelled.Flights at h ⊢
  have hlength := h.length_eq
  cases stepped_of_step hw with
  | invoke s a e =>
    refine List.rel_append h ?_
    have hcount : (x.world.turn s (act a) e x.world.pool).pool.length - x.labels.length
        = ((act a).exec e (x.world.client s)).2.length := by
      rw [World.turn_pool, List.length_append, List.length_map, hlength]
      omega
    show List.Forall₂ R (List.replicate _ (origin (x.world.client s) a) ++ []) _
    rw [List.append_nil, show (x.kept (.invoke s a e : Event S A E O)) = x.labels from rfl, hcount]
    exact forall₂_issued (hinvoke s a e rfl)
  | serve hpool hfifo hs =>
    rename_i pre post s r k o b y
    rw [hpool] at h
    obtain ⟨l, before, after, hlabels, hlen, hl, hbefore, hafter⟩ := forall₂_split h
    show List.Forall₂ R (x.labels ++ []) _
    rw [List.append_nil, hlabels]
    exact List.rel_append hbefore (.cons (hserve l s r k o b y hl hs) hafter)
  | deliver hpool hfifo =>
    rename_i pre post s r p e
    have hget : x.world.pool[pre.length]? = some (s, .served r p) := getElem?_split hpool
    rw [hpool] at h hlength
    obtain ⟨l, before, after, hlabels, hlen, hl, hbefore, hafter⟩ := forall₂_split h
    have hlabel : x.labels[pre.length]? = some l := by rw [hlabels, ← hlen]; simp
    have hkept : x.kept (.deliver pre.length e : Event S A E O) = before ++ after := by
      show x.labels.eraseIdx pre.length = _
      rw [hlabels, ← hlen, List.eraseIdx_append_of_length_le (Nat.le_refl _)]
      simp
    have hcount : (x.world.turn s p e (pre ++ post)).pool.length - (before ++ after).length
        = (p.exec e (x.world.client s)).2.length := by
      rw [World.turn_pool, List.length_append, List.length_map, List.length_append,
        List.length_append, hlen, hafter.length_eq]
      omega
    unfold Labelled.relabel
    rw [hkept, show x.issues origin (.deliver pre.length e : Event S A E O) = some l from hlabel]
    show List.Forall₂ R ((before ++ after) ++ (List.replicate _ l ++ [])) _
    rw [List.append_nil, hcount]
    exact List.rel_append (List.rel_append hbefore hafter)
      (forall₂_issued (hdeliver _ e l s r p rfl hlabel hget hl))
  | drop hpool =>
    rename_i pre post s r p
    rw [hpool] at h
    obtain ⟨l, before, after, hlabels, hlen, -, hbefore, hafter⟩ := forall₂_split h
    show List.Forall₂ R (x.labels.eraseIdx pre.length ++ []) _
    rw [List.append_nil, hlabels, ← hlen, List.eraseIdx_append_of_length_le (Nat.le_refl _)]
    simpa using List.rel_append hbefore hafter

end Flights

end Rules

end Async
