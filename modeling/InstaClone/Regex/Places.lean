import InstaClone.Regex.Match

/-!
# Searches that miss nothing

`matchesIn` goes on where a match has ended, so it does not report what begins within a match.
`places` asks at every place of a text, also within matches. The two are the same for an
expression whose matches keep apart (`Apart`): each consumes something, and nothing begins
strictly within another (`matchesIn_eq_places`). What such an expression finds can be read off
place by place, whatever has been found before.

The longest run of a set of characters is what a greedy star of it finds first (`head?_star`).
-/

namespace Regex

variable {A : Alphabet} {r : Re} {before after : List Char}

/-- The match at a place, if there is one. -/
def matchAt (A : Alphabet) (r : Re) (before after : List Char) : Option Match :=
  ((r.run A ⟨before, after⟩).head?).map fun stop => ⟨⟨before, after⟩, stop⟩

/-- The matches at all places from here on. -/
def places (A : Alphabet) (r : Re) (before : List Char) : List Char → List Match
  | [] => (matchAt A r before []).toList
  | c :: after => (matchAt A r before (c :: after)).toList ++ places A r (c :: before) after

/-- Matches consume something, and none begins strictly within another. -/
structure Apart (A : Alphabet) (r : Re) : Prop where
  consumes : ∀ {x y : Cursor}, (r.run A x).head? = some y → ∃ l, l ≠ [] ∧ x.To y l
  within : ∀ {x y z : Cursor} {l l' : List Char}, (r.run A x).head? = some y → x.To z l →
    z.To y l' → l ≠ [] → l' ≠ [] → r.run A z = []

/-- What is consumed is no longer ahead. -/
theorem Cursor.To.length {x y : Cursor} {l : List Char} (h : x.To y l) :
    x.after.length = l.length + y.after.length := by
  rw [h.1, List.length_append]

/-- The matches at all places after this one. -/
def placesAfter (A : Alphabet) (r : Re) (before : List Char) : List Char → List Match
  | [] => []
  | c :: after => places A r (c :: before) after

/-- The place here, if there is one, and then those after it. -/
theorem places_eq (before after : List Char) :
    places A r before after
      = (matchAt A r before after).toList ++ placesAfter A r before after := by
  cases after with
  | nil => exact (List.append_nil _).symm
  | cons c after => rfl

theorem find_nil : find A r before [] = matchAt A r before [] := rfl

/-- The search tries here first. -/
theorem find_cons {c : Char} :
    find A r before (c :: after)
      = (matchAt A r before (c :: after)).or (find A r (c :: before) after) := by
  unfold matchAt
  rw [find]
  cases (r.run A ⟨before, c :: after⟩).head? with
  | none => rfl
  | some stop => rfl

/-- A match here ends where the run ends first. -/
theorem matchAt_some {m : Match} (h : matchAt A r before after = some m) :
    (r.run A m.start).head? = some m.stop ∧ m.start = ⟨before, after⟩ := by
  obtain ⟨stop, hstop, rfl⟩ := Option.map_eq_some_iff.mp h
  exact ⟨hstop, rfl⟩

/-- Without a run there is none. -/
theorem matchAt_none (h : r.run A ⟨before, after⟩ = []) : matchAt A r before after = none := by
  unfold matchAt
  rw [h]
  rfl

/-- No match at any place, and none is found. -/
theorem places_of_find_none (h : find A r before after = none) : places A r before after = [] := by
  induction after generalizing before with
  | nil =>
    rw [find_nil] at h
    rw [places, h]
    rfl
  | cons c after ih =>
    rw [find_cons] at h
    obtain ⟨hhere, hrest⟩ := Option.or_eq_none_iff.mp h
    rw [places, hhere, ih hrest]
    rfl

/-- What is found is the first of them. -/
theorem places_of_find_some {m : Match} (h : find A r before after = some m) :
    (r.run A m.start).head? = some m.stop
      ∧ m.start.after.length ≤ after.length
      ∧ places A r before after = m :: placesAfter A r m.start.before m.start.after := by
  induction after generalizing before with
  | nil =>
    rw [find_nil] at h
    obtain ⟨hrun, hstart⟩ := matchAt_some h
    refine ⟨hrun, ?_, ?_⟩
    · exact Nat.le_of_eq (by rw [hstart])
    · rw [places_eq, h, hstart]
      rfl
  | cons c after ih =>
    rw [find_cons] at h
    rcases Option.or_eq_some_iff.mp h with hm | ⟨hnone, hm⟩
    · obtain ⟨hrun, hstart⟩ := matchAt_some hm
      refine ⟨hrun, ?_, ?_⟩
      · exact Nat.le_of_eq (by rw [hstart])
      · rw [places_eq, hm, hstart]
        rfl
    · obtain ⟨hrun, hlength, hplaces⟩ := ih hm
      refine ⟨hrun, Nat.le_succ_of_le hlength, ?_⟩
      rw [places, hnone, hplaces]
      rfl

/-- Nothing is missed on the way to a place before which nothing begins. -/
theorem places_skip {x y : Cursor} {l : List Char} (hto : x.To y l)
    (h : ∀ z inner rest, x.To z inner → z.To y rest → rest ≠ [] → r.run A z = []) :
    places A r x.before x.after = places A r y.before y.after := by
  induction l generalizing x with
  | nil =>
    obtain ⟨hafter, hbefore⟩ := hto
    rw [List.nil_append] at hafter
    rw [List.reverse_nil, List.nil_append] at hbefore
    rw [hafter, hbefore]
  | cons c l ih =>
    obtain ⟨before, after⟩ := x
    obtain ⟨hafter, hbefore⟩ := hto
    obtain rfl : after = c :: (l ++ y.after) := hafter
    have hstep : (⟨before, c :: (l ++ y.after)⟩ : Cursor).To ⟨c :: before, l ++ y.after⟩ [c] :=
      ⟨rfl, rfl⟩
    have hleft : (⟨c :: before, l ++ y.after⟩ : Cursor).To y l := by
      refine ⟨rfl, ?_⟩
      rw [hbefore, List.reverse_cons, List.append_assoc]
      rfl
    have hhere : r.run A ⟨before, c :: (l ++ y.after)⟩ = [] :=
      h _ [] (c :: l) (Cursor.to_self _) (hstep.trans hleft) (List.cons_ne_nil c l)
    show places A r before (c :: (l ++ y.after)) = _
    rw [places, matchAt_none hhere]
    exact ih hleft fun z inner rest hinner hrest =>
      h z ([c] ++ inner) rest (hstep.trans hinner) hrest

/-- **A search finds the match at every place** if matches keep apart. -/
theorem matchesFrom_eq_places (h : Apart A r) {n : Nat} {cursor : Cursor}
    (hn : cursor.after.length < n) :
    matchesFrom A r n cursor = places A r cursor.before cursor.after := by
  induction n generalizing cursor with
  | zero => omega
  | succ n ih =>
    rw [matchesFrom]
    cases hfind : find A r cursor.before cursor.after with
    | none => exact (places_of_find_none hfind).symm
    | some m =>
      obtain ⟨hrun, hlength, hplaces⟩ := places_of_find_some hfind
      obtain ⟨l, hl, hto⟩ := h.consumes hrun
      have hshort : m.stop.after.length < m.start.after.length := by
        have hpos := List.length_pos_of_ne_nil hl
        rw [hto.length]
        omega
      dsimp only
      rw [if_pos hshort, ih (by omega), hplaces]
      -- from the second place of the match on, nothing begins before it ends
      obtain ⟨c, l, rfl⟩ := List.exists_cons_of_ne_nil hl
      have hafter : m.start.after = c :: (l ++ m.stop.after) := hto.1
      have hsecond : m.start.To ⟨c :: m.start.before, l ++ m.stop.after⟩ [c] := ⟨hafter, rfl⟩
      have hleft : (⟨c :: m.start.before, l ++ m.stop.after⟩ : Cursor).To m.stop l := by
        refine ⟨rfl, ?_⟩
        rw [hto.2, List.reverse_cons, List.append_assoc]
        rfl
      rw [hafter]
      refine congrArg (m :: ·) (places_skip hleft fun z inner rest hinner hrest hne => ?_).symm
      exact h.within hrun (hsecond.trans hinner) hrest (by simp) hne

theorem matchesIn_eq_places (h : Apart A r) (text : List Char) :
    matchesIn A r text = places A r [] text :=
  matchesFrom_eq_places h (Nat.lt_succ_self _)

/-! ## The longest run -/

/-- A star takes as many characters as there are. -/
theorem head?_upTo {p : Char → Bool} {n : Nat} {before after : List Char}
    (hn : after.length ≤ n) :
    (upTo (Cursor.next p) false n ⟨before, after⟩).head?
      = some ⟨(after.takeWhile p).reverse ++ before, after.dropWhile p⟩ := by
  induction after generalizing n before with
  | nil =>
    cases n with
    | zero => rfl
    | succ n => rfl
  | cons c after ih =>
    rw [List.length_cons] at hn
    obtain ⟨n, rfl⟩ : ∃ m, n = m + 1 := ⟨n - 1, by omega⟩
    by_cases hc : p c = true
    · have hrest := @ih n (c :: before) (by omega)
      rw [List.takeWhile_cons_of_pos hc, List.dropWhile_cons_of_pos hc, List.reverse_cons,
        List.append_assoc, List.singleton_append, ← hrest]
      have hmore : ((Cursor.next p ⟨before, c :: after⟩).filter fun x =>
          x.after.length < (c :: after).length) = [⟨c :: before, after⟩] := by
        rw [Cursor.next, if_pos hc]
        simp
      show (((Cursor.next p ⟨before, c :: after⟩).filter _).flatMap _ ++ _).head? = _
      rw [hmore, List.flatMap_singleton, List.head?_append, hrest]
      rfl
    · have hmore : Cursor.next p ⟨before, c :: after⟩ = [] := by
        rw [Cursor.next, if_neg hc]
      rw [List.takeWhile_cons_of_neg hc, List.dropWhile_cons_of_neg hc]
      show (((Cursor.next p ⟨before, c :: after⟩).filter _).flatMap _ ++ _).head? = _
      rw [hmore]
      rfl

/-- The first end of a greedy star. -/
theorem head?_star (A : Alphabet) (p : Char → Bool) (before after : List Char) :
    ((Re.rep (.set p) 0 none .greedy).run A ⟨before, after⟩).head?
      = some ⟨(after.takeWhile p).reverse ++ before, after.dropWhile p⟩ := by
  have hrun : (Re.rep (.set p) 0 none .greedy).run A ⟨before, after⟩
      = upTo (Cursor.next p) false after.length ⟨before, after⟩ := by
    unfold Re.run
    show List.flatMap _ [_] = _
    rw [List.flatMap_singleton]
    rfl
  rw [hrun]
  exact head?_upTo (Nat.le_refl _)

end Regex
