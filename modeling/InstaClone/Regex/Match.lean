import Mathlib.Data.List.Basic

/-!
# Backtracking regular expressions

A regular expression is matched from a place in a text (`Cursor`). `Re.run` lists the places where
a match can end, in the order in which a backtracking matcher comes to them; the first of them is
the match. `matches` goes on from match to match, as `matches(in:options:range:)` does.

`Re.Takes` says what the matches of an expression have in common, with one rule for each way to
build an expression. The rule for the quantifiers asks that the property hold of nothing and of
what is put together.
-/

namespace Regex

/-- What the dialect knows of characters: those that make words, those that are the same but for
their case, and those that end a line. -/
structure Alphabet where
  word : Char → Bool
  same : Char → Char → Bool
  newline : Char → Bool
  same_refl : ∀ c, same c c = true
  space : word ' ' = false
  stop : newline '.' = false

/-- A place in a text: what is before it, last character first, and what follows. -/
structure Cursor where
  before : List Char
  after : List Char

/-- How many repetitions are tried first, and whether fewer or more are tried at all. -/
inductive Mode where
  | greedy
  | reluctant
  | possessive
deriving DecidableEq

/-- Expressions. What an `other` accepts is given by the places it leads to. -/
inductive Re where
  | empty
  | char (c : Char)
  | any
  | set (p : Char → Bool)
  | start
  | finish
  | boundary
  | other (ends : Cursor → List Cursor)
  | seq (r r' : Re)
  | alt (r r' : Re)
  | rep (r : Re) (least : Nat) (most : Option Nat) (mode : Mode)

namespace Cursor

/-- Past the next character, if it has `p`. -/
def next (p : Char → Bool) : Cursor → List Cursor
  | ⟨_, []⟩ => []
  | ⟨before, c :: after⟩ => if p c then [⟨c :: before, after⟩] else []

/-- Between a word and something else. -/
def atBoundary (A : Alphabet) (cursor : Cursor) : Bool :=
  cursor.before.head?.any A.word != cursor.after.head?.any A.word

/-- At the end of the text, or before a line end that ends it. -/
def atEnd (A : Alphabet) (cursor : Cursor) : Bool :=
  match cursor.after with
  | [] => true
  | [c] => A.newline c
  | [c, d] => c == '\r' && d == '\n'
  | _ => false

/-- The place itself, if it is one. -/
def stay (here : Bool) (cursor : Cursor) : List Cursor := if here then [cursor] else []

end Cursor

/-- The ends of `n` repetitions. -/
def exactly (run : Cursor → List Cursor) : Nat → Cursor → List Cursor
  | 0, cursor => [cursor]
  | n + 1, cursor => (run cursor).flatMap (exactly run n)

/-- The ends of at most `n` repetitions, each of which consumes something. -/
def upTo (run : Cursor → List Cursor) (reluctant : Bool) : Nat → Cursor → List Cursor
  | 0, cursor => [cursor]
  | n + 1, cursor =>
    let more := ((run cursor).filter fun x => x.after.length < cursor.after.length).flatMap
      (upTo run reluctant n)
    if reluctant then cursor :: more else more ++ [cursor]

namespace Re

/-- Where a match can end, in the order in which the ends are tried. -/
def run (A : Alphabet) : Re → Cursor → List Cursor
  | empty, cursor => [cursor]
  | char c, cursor => cursor.next (A.same c)
  | any, cursor => cursor.next fun c => !A.newline c
  | set p, cursor => cursor.next p
  | start, cursor => cursor.stay cursor.before.isEmpty
  | finish, cursor => cursor.stay (cursor.atEnd A)
  | boundary, cursor => cursor.stay (cursor.atBoundary A)
  | other ends, cursor => ends cursor
  | seq r r', cursor => (r.run A cursor).flatMap (r'.run A)
  | alt r r', cursor => r.run A cursor ++ r'.run A cursor
  | rep r least most mode, cursor =>
    let ends := (exactly (r.run A) least cursor).flatMap fun x =>
      upTo (r.run A) (mode == .reluctant) (most.elim x.after.length (· - least)) x
    if mode = .possessive then ends.take 1 else ends

end Re

/-! ## What matches consume -/

/-- The text between two places. -/
def Cursor.To (cursor stop : Cursor) (consumed : List Char) : Prop :=
  cursor.after = consumed ++ stop.after ∧ stop.before = consumed.reverse ++ cursor.before

/-- Staying consumes nothing, -/
theorem Cursor.to_self (cursor : Cursor) : cursor.To cursor [] := ⟨rfl, rfl⟩

/-- and going on consumes more. -/
theorem Cursor.To.trans {x y z : Cursor} {l l' : List Char} (h : x.To y l) (h' : y.To z l') :
    x.To z (l ++ l') := by
  refine ⟨?_, ?_⟩
  · rw [h.1, h'.1, List.append_assoc]
  · rw [h'.2, h.2, List.reverse_append, List.append_assoc]

/-- From every place, what leads to one of these ends has `P`. -/
def Takes (run : Cursor → List Cursor) (P : List Char → Prop) : Prop :=
  ∀ cursor, ∀ stop ∈ run cursor, ∃ consumed, cursor.To stop consumed ∧ P consumed

/-- What the matches of an expression consume has `P`. -/
abbrev Re.Takes (A : Alphabet) (r : Re) (P : List Char → Prop) : Prop := Regex.Takes (r.run A) P

section Takes

variable {A : Alphabet} {P Q R : List Char → Prop} {r r' : Re}
  {run run' : Cursor → List Cursor}

/-- A weaker property is taken as well. -/
theorem Takes.mono (h : Takes run P) (hPQ : ∀ l, P l → Q l) : Takes run Q := by
  intro cursor stop hstop
  obtain ⟨l, hto, hl⟩ := h cursor stop hstop
  exact ⟨l, hto, hPQ l hl⟩

/-- One after the other. -/
theorem Takes.flatMap (h : Takes run P) (h' : Takes run' Q)
    (hPQ : ∀ l l', P l → Q l' → R (l ++ l')) :
    Takes (fun cursor => (run cursor).flatMap run') R := by
  intro cursor stop hstop
  obtain ⟨mid, hmid, hstop⟩ := List.mem_flatMap.mp hstop
  obtain ⟨l, hto, hl⟩ := h cursor mid hmid
  obtain ⟨l', hto', hl'⟩ := h' mid stop hstop
  exact ⟨l ++ l', hto.trans hto', hPQ l l' hl hl'⟩

/-- An assertion takes the empty text, -/
theorem takes_stay {here : Cursor → Bool} (h : P []) : Takes (fun x => x.stay (here x)) P := by
  intro cursor stop hstop
  dsimp only [Cursor.stay] at hstop
  split at hstop
  next =>
    obtain rfl := List.mem_singleton.mp hstop
    exact ⟨[], stop.to_self, h⟩
  next => exact absurd hstop List.not_mem_nil

/-- a character class a single character. -/
theorem takes_next {p : Char → Bool} (h : ∀ c, p c = true → P [c]) : Takes (Cursor.next p) P := by
  rintro ⟨before, after⟩ stop hstop
  cases after with
  | nil => exact absurd hstop List.not_mem_nil
  | cons c after =>
    by_cases hc : p c = true
    · rw [Cursor.next, if_pos hc] at hstop
      obtain rfl := List.mem_singleton.mp hstop
      exact ⟨[c], ⟨rfl, rfl⟩, h c hc⟩
    · rw [Cursor.next, if_neg hc] at hstop
      exact absurd hstop List.not_mem_nil

theorem takes_self (h : P []) : Takes (fun cursor => [cursor]) P := by
  intro cursor stop hstop
  obtain rfl := List.mem_singleton.mp hstop
  exact ⟨[], stop.to_self, h⟩

/-- What is closed under joining is taken by repetitions, exactly `n` -/
theorem Takes.exactly (h : Takes run P) (hnil : P []) (happend : ∀ l l', P l → P l' → P (l ++ l'))
    (n : Nat) : Takes (exactly run n) P := by
  induction n with
  | zero => exact takes_self hnil
  | succ n ih => exact h.flatMap ih happend

/-- or up to `n`, whichever is tried first. -/
theorem Takes.upTo (h : Takes run P) (hnil : P []) (happend : ∀ l l', P l → P l' → P (l ++ l'))
    (reluctant : Bool) (n : Nat) : Takes (upTo run reluctant n) P := by
  induction n with
  | zero => exact takes_self hnil
  | succ n ih =>
    have hfilter : Takes (fun cursor => (run cursor).filter
        fun x => x.after.length < cursor.after.length) P := by
      intro cursor stop hstop
      exact h cursor stop (List.mem_of_mem_filter hstop)
    intro cursor stop hstop
    have hstop' : stop = cursor ∨ stop ∈ ((run cursor).filter
        fun x => x.after.length < cursor.after.length).flatMap (Regex.upTo run reluctant n) := by
      unfold Regex.upTo at hstop
      cases reluctant with
      | true => exact List.mem_cons.mp hstop
      | false =>
        rcases List.mem_append.mp hstop with hstop | hstop
        · exact Or.inr hstop
        · exact Or.inl (List.mem_singleton.mp hstop)
    rcases hstop' with rfl | hstop'
    · exact ⟨[], stop.to_self, hnil⟩
    · exact hfilter.flatMap ih happend cursor stop hstop'

namespace Re

theorem takes_empty (h : P []) : empty.Takes A P := takes_self h

theorem takes_start (h : P []) : start.Takes A P := takes_stay h

theorem takes_finish (h : P []) : finish.Takes A P := takes_stay h

theorem takes_boundary (h : P []) : boundary.Takes A P := takes_stay h

/-- A character takes those it is the same as. -/
theorem takes_char {c : Char} (h : ∀ d, A.same c d = true → P [d]) : (char c).Takes A P :=
  takes_next h

theorem takes_any (h : ∀ c, P [c]) : any.Takes A P := takes_next fun c _ => h c

theorem takes_set {p : Char → Bool} (h : ∀ c, P [c]) : (set p).Takes A P :=
  takes_next fun c _ => h c

/-- A sequence takes what its halves take, joined. -/
theorem Takes.seq (h : r.Takes A P) (h' : r'.Takes A Q) (hPQ : ∀ l l', P l → Q l' → R (l ++ l')) :
    (seq r r').Takes A R :=
  h.flatMap h' hPQ

/-- An alternative takes what either of them takes. -/
theorem Takes.alt (h : r.Takes A P) (h' : r'.Takes A P) : (alt r r').Takes A P := by
  intro cursor stop hstop
  rcases List.mem_append.mp hstop with hstop | hstop
  · exact h cursor stop hstop
  · exact h' cursor stop hstop

/-- All modes of a repetition take the same texts. -/
theorem Takes.rep (h : r.Takes A P) (hnil : P []) (happend : ∀ l l', P l → P l' → P (l ++ l'))
    (least : Nat) (most : Option Nat) (mode : Mode) : (rep r least most mode).Takes A P := by
  have hends : Regex.Takes (fun cursor => (Regex.exactly (r.run A) least cursor).flatMap fun x =>
      Regex.upTo (r.run A) (mode == .reluctant) (most.elim x.after.length (· - least)) x) P := by
    refine (h.exactly hnil happend least).flatMap ?_ happend
    exact fun cursor => h.upTo hnil happend _ _ cursor
  intro cursor stop hstop
  refine hends cursor stop ?_
  unfold Re.run at hstop
  dsimp only at hstop
  split at hstop
  next => exact List.mem_of_mem_take hstop
  next => exact hstop

end Re

end Takes

/-! ## Finding matches -/

/-- A match: where it starts and where it ends. -/
structure Match where
  start : Cursor
  stop : Cursor

/-- What is matched. -/
def Match.text (m : Match) : List Char :=
  m.start.after.take (m.start.after.length - m.stop.after.length)

/-- The next match: the first place where there is one, and its first end. -/
def find (A : Alphabet) (r : Re) (before : List Char) : List Char → Option Match
  | [] => ((r.run A ⟨before, []⟩).head?).map fun stop => ⟨⟨before, []⟩, stop⟩
  | c :: after =>
    match (r.run A ⟨before, c :: after⟩).head? with
    | some stop => some ⟨⟨before, c :: after⟩, stop⟩
    | none => find A r (c :: before) after

/-- All matches from a place on. After an empty match the search goes on one character later. -/
def matchesFrom (A : Alphabet) (r : Re) : Nat → Cursor → List Match
  | 0, _ => []
  | n + 1, cursor =>
    match find A r cursor.before cursor.after with
    | none => []
    | some m =>
      m ::
        if m.stop.after.length < m.start.after.length then matchesFrom A r n m.stop
        else
          match m.stop.after with
          | [] => []
          | c :: after => matchesFrom A r n ⟨c :: m.stop.before, after⟩

/-- All matches in a text. -/
def matchesIn (A : Alphabet) (r : Re) (text : List Char) : List Match :=
  matchesFrom A r (text.length + 1) ⟨[], text⟩

section Find

variable {A : Alphabet} {r : Re} {P : List Char → Prop}

/-- A match that is found lies in the text, and is the first end from its start. -/
theorem find_some {before after : List Char} {m : Match} (h : find A r before after = some m) :
    m.start.before.reverse ++ m.start.after = before.reverse ++ after
      ∧ m.stop ∈ r.run A m.start := by
  induction after generalizing before with
  | nil =>
    rw [find] at h
    obtain ⟨stop, hstop, rfl⟩ := Option.map_eq_some_iff.mp h
    exact ⟨rfl, List.mem_of_head? hstop⟩
  | cons c after ih =>
    rw [find] at h
    split at h
    next stop hstop =>
      obtain rfl := Option.some.inj h
      exact ⟨rfl, List.mem_of_head? hstop⟩
    next =>
      obtain ⟨htext, hmem⟩ := ih h
      refine ⟨?_, hmem⟩
      rw [htext, List.reverse_cons, List.append_assoc, List.singleton_append]

/-- No place, no match. -/
theorem find_none {before after : List Char}
    (h : ∀ skipped rest, after = skipped ++ rest →
      r.run A ⟨skipped.reverse ++ before, rest⟩ = []) : find A r before after = none := by
  induction after generalizing before with
  | nil => rw [find, show r.run A ⟨before, []⟩ = [] from h [] [] rfl]; rfl
  | cons c after ih =>
    have hhere : r.run A ⟨before, c :: after⟩ = [] := h [] (c :: after) rfl
    rw [find, hhere]
    refine ih fun skipped rest hrest => ?_
    have hthere := h (c :: skipped) rest (by rw [hrest]; rfl)
    rw [List.reverse_cons, List.append_assoc] at hthere
    exact hthere

/-- What is known of the consumed text is known of every match, which lies in the text. -/
theorem mem_matchesFrom (hr : r.Takes A P) {n : Nat} {cursor : Cursor} {m : Match}
    (hm : m ∈ matchesFrom A r n cursor) :
    m.start.before.reverse ++ m.start.after = cursor.before.reverse ++ cursor.after
      ∧ ∃ consumed, m.start.To m.stop consumed ∧ P consumed := by
  induction n generalizing cursor with
  | zero => exact absurd hm List.not_mem_nil
  | succ n ih =>
    rw [matchesFrom] at hm
    split at hm
    next => exact absurd hm List.not_mem_nil
    next first hfirst =>
      obtain ⟨htext, hstop⟩ := find_some hfirst
      obtain ⟨consumed, hto, hP⟩ := hr first.start first.stop hstop
      -- where the first match ends, the text is the same
      have hrest : first.stop.before.reverse ++ first.stop.after
          = cursor.before.reverse ++ cursor.after := by
        rw [← htext, hto.1, hto.2, List.reverse_append, List.reverse_reverse, List.append_assoc]
      rcases List.mem_cons.mp hm with rfl | hm
      · exact ⟨htext, consumed, hto, hP⟩
      split at hm
      next =>
        obtain ⟨hthere, hmatch⟩ := ih hm
        exact ⟨hthere.trans hrest, hmatch⟩
      next =>
        split at hm
        next => exact absurd hm List.not_mem_nil
        next c after hafter =>
          obtain ⟨hthere, hmatch⟩ := ih hm
          refine ⟨?_, hmatch⟩
          rw [hthere, ← hrest, hafter, List.reverse_cons, List.append_assoc, List.singleton_append]

/-- A match lies in the text, and consumes what the expression takes. -/
theorem mem_matchesIn (hr : r.Takes A P) {text : List Char} {m : Match}
    (hm : m ∈ matchesIn A r text) :
    m.start.before.reverse ++ m.start.after = text
      ∧ ∃ consumed, m.start.To m.stop consumed ∧ P consumed :=
  mem_matchesFrom hr hm

/-- The text of a match is what it consumes. -/
theorem Match.text_of_to {m : Match} {consumed : List Char} (h : m.start.To m.stop consumed) :
    m.text = consumed := by
  unfold Match.text
  rw [h.1, List.length_append, Nat.add_sub_cancel, List.take_left]

/-- The first place from which the expression matches is the one found. -/
theorem find_here {before after : List Char} {stop : Cursor}
    (h : (r.run A ⟨before, after⟩).head? = some stop) :
    find A r before after = some ⟨⟨before, after⟩, stop⟩ := by
  cases after with
  | nil => rw [find, h]; rfl
  | cons c after => rw [find, h]

/-! An expression that matches nowhere but at the start has at most one match. -/

section Anchored

variable (hanchored : ∀ before after, before ≠ [] → r.run A ⟨before, after⟩ = [])
include hanchored

theorem find_anchored {before after : List Char} (h : before ≠ []) :
    find A r before after = none :=
  find_none fun _ rest _ => hanchored _ rest (List.append_ne_nil_of_right_ne_nil _ h)

theorem matchesIn_anchored_nil {text : List Char} (h : r.run A ⟨[], text⟩ = []) :
    matchesIn A r text = [] := by
  have hfind : find A r [] text = none := by
    refine find_none fun skipped rest hrest => ?_
    cases skipped with
    | nil =>
      obtain rfl : text = rest := hrest
      exact h
    | cons c skipped => exact hanchored _ rest (by simp)
  rw [matchesIn, matchesFrom, hfind]

/-- It has that one match, if it matches at the start at all. -/
theorem matchesIn_anchored {text : List Char} {stop : Cursor} (hstop : stop.before ≠ [])
    (h : (r.run A ⟨[], text⟩).head? = some stop) :
    matchesIn A r text = [⟨⟨[], text⟩, stop⟩] := by
  -- nothing is found from a place past the start
  have hrest : ∀ n (cursor : Cursor), cursor.before ≠ [] → matchesFrom A r n cursor = [] := by
    intro n cursor hcursor
    cases n with
    | zero => rfl
    | succ n => rw [matchesFrom, find_anchored hanchored hcursor]
  rw [matchesIn, matchesFrom, find_here h]
  refine congrArg (_ :: ·) ?_
  split
  next => exact hrest _ _ hstop
  next =>
    split
    next => rfl
    next => exact hrest _ _ (by simp)

end Anchored

end Find

end Regex
