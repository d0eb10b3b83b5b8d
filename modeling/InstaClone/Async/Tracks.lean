import InstaClone.Async.Contract

/-!
# Reading the operations under way off a pool of flights

A protocol proof follows a few operations through a pool in which much else is in
flight. `Tracks Q R pool stages` reads their stages off the pool, in pool order:
a flight either is at a stage (`R`) and contributes it, or is quiet (`Q`) and
contributes nothing.

The lemmas split a pool where a step of the world splits it, so that a step either
concerns a quiet flight, and the stages stay as they are, or advances one stage.

A `Script` gives stages as code: the request an operation at a stage waits for and the
callback that takes it on. Serving such a request leaves every stage as it is.
-/

namespace Async

variable {Req : Type} {Resp : Req → Type} {E σ S T : Type}

/-- The stages of the operations in a pool of flights; everything else is quiet. -/
inductive Tracks (Q : S → Flight Req Resp E σ → Prop) (R : S → Flight Req Resp E σ → T → Prop) :
    List (S × Flight Req Resp E σ) → List (S × T) → Prop
  | nil : Tracks Q R [] []
  | quiet {s : S} {fl : Flight Req Resp E σ} {pool stages} (hfl : Q s fl)
      (h : Tracks Q R pool stages) : Tracks Q R ((s, fl) :: pool) stages
  | stage {s : S} {fl : Flight Req Resp E σ} {t : T} {pool stages} (hfl : R s fl t)
      (h : Tracks Q R pool stages) : Tracks Q R ((s, fl) :: pool) ((s, t) :: stages)

variable {Q Q' : S → Flight Req Resp E σ → Prop} {R : S → Flight Req Resp E σ → T → Prop}

/-- A pool of quiet flights has no operation under way. -/
theorem Tracks.of_quiet {pool : List (S × Flight Req Resp E σ)} (h : ∀ x ∈ pool, Q x.1 x.2) :
    Tracks Q R pool [] := by
  induction pool with
  | nil => exact .nil
  | cons x pool ih =>
    exact .quiet (h x (List.mem_cons_self ..)) (ih fun y hy => h y (List.mem_cons_of_mem _ hy))

/-- One flight at a stage. -/
theorem Tracks.single {s : S} {fl : Flight Req Resp E σ} {t : T} (h : R s fl t) :
    Tracks Q R [(s, fl)] [(s, t)] :=
  .stage h .nil

theorem Tracks.append {pool pool' : List (S × Flight Req Resp E σ)} {stages stages' : List (S × T)}
    (h : Tracks Q R pool stages) (h' : Tracks Q R pool' stages') :
    Tracks Q R (pool ++ pool') (stages ++ stages') := by
  induction h with
  | nil => exact h'
  | quiet hfl _ ih => exact .quiet hfl ih
  | stage hfl _ ih => exact .stage hfl ih

/-- Quiet flights join a pool without adding a stage. -/
theorem Tracks.append_quiet {pool pool' : List (S × Flight Req Resp E σ)} {stages : List (S × T)}
    (h : Tracks Q R pool stages) (h' : ∀ x ∈ pool', Q x.1 x.2) :
    Tracks Q R (pool ++ pool') stages := by
  have happ := h.append (.of_quiet h')
  rwa [List.append_nil] at happ

/-- The stages of a pool split where the pool splits. -/
theorem Tracks.append_inv {pool pool' : List (S × Flight Req Resp E σ)} {stages : List (S × T)}
    (h : Tracks Q R (pool ++ pool') stages) :
    ∃ l l', stages = l ++ l' ∧ Tracks Q R pool l ∧ Tracks Q R pool' l' := by
  induction pool generalizing stages with
  | nil => exact ⟨[], stages, rfl, .nil, h⟩
  | cons x pool ih =>
    cases h with
    | quiet hfl h =>
      obtain ⟨l, l', rfl, hl, hl'⟩ := ih h
      exact ⟨l, l', rfl, .quiet hfl hl, hl'⟩
    | stage hfl h =>
      obtain ⟨l, l', rfl, hl, hl'⟩ := ih h
      exact ⟨_ :: l, l', rfl, .stage hfl hl, hl'⟩

/-- Where a pool splits at a flight, the flight is quiet or its stage is there. -/
theorem Tracks.split {pre post : List (S × Flight Req Resp E σ)} {stages : List (S × T)} {s : S}
    {fl : Flight Req Resp E σ} (h : Tracks Q R (pre ++ (s, fl) :: post) stages) :
    ∃ l l', Tracks Q R pre l ∧ Tracks Q R post l'
      ∧ (Q s fl ∧ stages = l ++ l' ∨ ∃ t, R s fl t ∧ stages = l ++ (s, t) :: l') := by
  obtain ⟨l, l', rfl, hpre, hpost⟩ := h.append_inv
  cases hpost with
  | quiet hfl hpost => exact ⟨l, _, hpre, hpost, Or.inl ⟨hfl, rfl⟩⟩
  | stage hfl hpost => exact ⟨l, _, hpre, hpost, Or.inr ⟨_, hfl, rfl⟩⟩

/-- Every stage comes from a flight of its session. -/
theorem Tracks.mem {pool : List (S × Flight Req Resp E σ)} {stages : List (S × T)}
    (h : Tracks Q R pool stages) {x : S × T} (hx : x ∈ stages) :
    ∃ fl, (x.1, fl) ∈ pool ∧ R x.1 fl x.2 := by
  induction h with
  | nil => exact absurd hx (by simp)
  | quiet _ _ ih =>
    obtain ⟨fl, hmem, hfl⟩ := ih hx
    exact ⟨fl, List.mem_cons_of_mem _ hmem, hfl⟩
  | stage hfl _ ih =>
    rcases List.mem_cons.mp hx with rfl | hx
    · exact ⟨_, List.mem_cons_self .., hfl⟩
    · obtain ⟨fl, hmem, hfl⟩ := ih hx
      exact ⟨fl, List.mem_cons_of_mem _ hmem, hfl⟩

/-- Every flight is quiet or at a stage. -/
theorem Tracks.of_mem {pool : List (S × Flight Req Resp E σ)} {stages : List (S × T)}
    (h : Tracks Q R pool stages) {x : S × Flight Req Resp E σ} (hx : x ∈ pool) :
    Q x.1 x.2 ∨ ∃ t, (x.1, t) ∈ stages ∧ R x.1 x.2 t := by
  induction h with
  | nil => exact absurd hx List.not_mem_nil
  | quiet hfl _ ih =>
    rcases List.mem_cons.mp hx with rfl | hx
    · exact Or.inl hfl
    · exact ih hx
  | stage hfl _ ih =>
    rcases List.mem_cons.mp hx with rfl | hx
    · exact Or.inr ⟨_, List.mem_cons_self .., hfl⟩
    · refine (ih hx).imp_right ?_
      rintro ⟨t, hmem, ht⟩
      exact ⟨t, List.mem_cons_of_mem _ hmem, ht⟩

/-- Serving a request changes no stage, if it keeps quiet flights quiet and the others at
their stage. -/
theorem Tracks.serve {pre post : List (S × Flight Req Resp E σ)} {stages : List (S × T)} {s : S}
    {fl fl' : Flight Req Resp E σ} (h : Tracks Q R (pre ++ (s, fl) :: post) stages)
    (hquiet : Q s fl → Q s fl') (hstage : ∀ t, R s fl t → R s fl' t) :
    Tracks Q R (pre ++ (s, fl') :: post) stages := by
  obtain ⟨l, l', rfl, hpre, hpost⟩ := h.append_inv
  cases hpost with
  | quiet hfl hpost => exact hpre.append (.quiet (hquiet hfl) hpost)
  | stage hfl hpost => exact hpre.append (.stage (hstage _ hfl) hpost)

/-- A flight off the pool was quiet, or its stage goes with it. -/
theorem Tracks.remove {pre post : List (S × Flight Req Resp E σ)} {stages : List (S × T)} {s : S}
    {fl : Flight Req Resp E σ} (h : Tracks Q R (pre ++ (s, fl) :: post) stages) :
    (Q s fl ∧ Tracks Q R (pre ++ post) stages)
      ∨ ∃ l t l', stages = l ++ (s, t) :: l' ∧ R s fl t ∧ Tracks Q R pre l
        ∧ Tracks Q R post l' := by
  obtain ⟨l, l', rfl, hpre, hpost⟩ := h.append_inv
  cases hpost with
  | quiet hfl hpost => exact Or.inl ⟨hfl, hpre.append hpost⟩
  | stage hfl hpost => exact Or.inr ⟨l, _, _, rfl, hfl, hpre, hpost⟩

/-- A flight at no stage was quiet, and the stages stay without it. -/
theorem Tracks.remove_quiet {pre post : List (S × Flight Req Resp E σ)} {stages : List (S × T)}
    {s : S} {fl : Flight Req Resp E σ} (h : Tracks Q R (pre ++ (s, fl) :: post) stages)
    (hstage : ∀ t, ¬ R s fl t) : Tracks Q R (pre ++ post) stages := by
  rcases h.remove with ⟨-, hrest⟩ | ⟨l, t, l', -, hfl, -⟩
  · exact hrest
  · exact absurd hfl (hstage t)

/-- The stages of an operation: the request of each and its callback, with the replies the
operation relies on. -/
structure Script (Req : Type) (Resp : Req → Type) (E σ T : Type) where
  req : T → Req
  callback : (t : T) → Resp (req t) → Prog Req Resp E σ
  reply : (r : Req) → Resp r → Prop

/-- The flights of an operation at a stage. -/
inductive Script.At (P : Script Req Resp E σ T) : Flight Req Resp E σ → T → Prop
  | asked (t : T) : At P (.issued (P.req t) (P.callback t)) t
  | answered (t : T) (y : Resp (P.req t)) (hy : P.reply (P.req t) y) :
      At P (.served (P.req t) (P.callback t y)) t

namespace Script

variable {P : Script Req Resp E σ T}

theorem At.req_eq {fl : Flight Req Resp E σ} {t : T} (h : P.At fl t) : fl.req = P.req t := by
  cases h <;> rfl

theorem At.serve {r : Req} {k : Resp r → Prog Req Resp E σ} {t : T} (h : P.At (.issued r k) t)
    {y : Resp r} (hy : P.reply r y) : P.At (.served r (k y)) t := by
  cases h
  exact .answered t y hy

end Script

end Async
