import Mathlib.Algebra.GroupWithZero.Nat
import InstaClone.Regex.Match

/-!
# Reading patterns

`Dialect.compile` reads a pattern from left to right. A `Frame` holds what has been read of one
group: the finished alternatives, the sequence under way, and apart from it the last term, to
which a quantifier may still apply. The frames of the groups around it wait on a stack.

Of a dialect two things are left open. How the characters of a set are described is only known
to end with a bracket. And what a backslash means in front of anything but `b`, or a question mark
that opens a group, is not known at all.

What is read in is what the expressions consume: without sets, full stops and escapes no
metacharacter, whatever is repeated (`compile_literal`); without quantifiers and escapes no more
characters than there are in the pattern, and fewer if one of them is a metacharacter
(`compile_shorter`).
-/

namespace Regex

/-- What a character of a pattern stands for. -/
inductive Token where
  | literal
  | dot
  | start
  | finish
  | set
  | group
  | close
  | bar
  | escape
  | quantifier
  | brace
deriving DecidableEq

def token : Char → Token
  | '.' => .dot
  | '^' => .start
  | '$' => .finish
  | '[' => .set
  | '(' => .group
  | ')' => .close
  | '|' => .bar
  | '\\' => .escape
  | '*' => .quantifier
  | '+' => .quantifier
  | '?' => .quantifier
  | '{' => .quantifier
  | '}' => .brace
  | _ => .literal

/-- A dialect. `same_literal`: metacharacters have no case. -/
structure Dialect extends Alphabet where
  set : List Char → Option ((Char → Bool) × List Char)
  escape : List Char → Option (Re × List Char)
  extension : List Char → Option (Re × List Char)
  set_closed : ∀ {pattern p rest}, set pattern = some (p, rest) →
    ∃ inner, pattern = inner ++ ']' :: rest
  same_literal : ∀ {c d}, same c d = true → token c = .literal → token d = .literal

/-- What has been read of a group. -/
structure Frame where
  alts : Option Re := none
  seq : Re := .empty
  last : Option Re := none

namespace Frame

/-- The sequence under way. -/
def flush (frame : Frame) : Re := frame.last.elim frame.seq frame.seq.seq

/-- The group, if it ends here. -/
def close (frame : Frame) : Re := frame.alts.elim frame.flush fun alts => alts.alt frame.flush

/-- A term comes. -/
def push (frame : Frame) (r : Re) : Frame := { frame with seq := frame.flush, last := some r }

/-- A term comes that cannot be repeated. -/
def assert (frame : Frame) (r : Re) : Frame := { frame with seq := frame.flush.seq r, last := none }

/-- An alternative ends. -/
def bar (frame : Frame) : Frame := { alts := some frame.close }

/-- The last term is repeated. -/
def quantify (frame : Frame) (range : Nat × Option Nat) (mode : Mode) : Option Frame :=
  frame.last.map fun r =>
    { frame with seq := frame.seq.seq (.rep r range.1 range.2 mode), last := none }

end Frame

/-- The value of a list of digits. -/
def number (digits : List Char) : Nat := digits.foldl (fun n c => 10 * n + (c.toNat - '0'.toNat)) 0

/-- The end of an interval: its bounds, up to the closing brace. -/
def upper (least : Nat) (pattern : List Char) : Option ((Nat × Option Nat) × List Char) :=
  let digits := pattern.takeWhile Char.isDigit
  match pattern.dropWhile Char.isDigit with
  | '}' :: rest =>
    if digits.isEmpty then some ((least, none), rest)
    else if number digits < least then none
    else some ((least, some (number digits)), rest)
  | _ => none

/-- What follows an opening brace. -/
def interval (pattern : List Char) : Option ((Nat × Option Nat) × List Char) :=
  let digits := pattern.takeWhile Char.isDigit
  if digits.isEmpty then none
  else
    match pattern.dropWhile Char.isDigit with
    | '}' :: rest => some ((number digits, some (number digits)), rest)
    | ',' :: rest => upper (number digits) rest
    | _ => none

/-- How often a quantifier repeats. -/
def quantity (c : Char) (rest : List Char) : Option ((Nat × Option Nat) × List Char) :=
  match c with
  | '*' => some ((0, none), rest)
  | '+' => some ((1, none), rest)
  | '?' => some ((0, some 1), rest)
  | _ => interval rest

/-- In which order it does. -/
def mode : List Char → Mode × List Char
  | '?' :: rest => (.reluctant, rest)
  | '+' :: rest => (.possessive, rest)
  | rest => (.greedy, rest)

namespace Dialect

/-- One character of a pattern, with what belongs to it: what is left to read, the groups around,
and the group under way. -/
def step (D : Dialect) (c : Char) (rest : List Char) (stack : List Frame) (frame : Frame) :
    Option (List Char × List Frame × Frame) :=
  match token c with
  | .literal => some (rest, stack, frame.push (.char c))
  | .dot => some (rest, stack, frame.push .any)
  | .start => some (rest, stack, frame.push .start)
  | .finish => some (rest, stack, frame.push .finish)
  | .set => (D.set rest).map fun x => (x.2, stack, frame.push (.set x.1))
  | .group =>
    match rest with
    | '?' :: rest => (D.extension rest).map fun x => (x.2, stack, frame.push x.1)
    | rest => some (rest, frame :: stack, {})
  | .close =>
    match stack with
    | [] => none
    | outer :: stack => some (rest, stack, outer.push frame.close)
  | .bar => some (rest, stack, frame.bar)
  | .escape =>
    match rest with
    | 'b' :: rest => some (rest, stack, frame.assert .boundary)
    | rest => (D.escape rest).map fun x => (x.2, stack, frame.push x.1)
  | .quantifier =>
    (quantity c rest).bind fun x =>
      (frame.quantify x.1 (mode x.2).1).map fun frame => ((mode x.2).2, stack, frame)
  | .brace => none

/-- What is left of a pattern is read. No more than `n` steps are needed if it has fewer
characters. -/
def parse (D : Dialect) : Nat → List Char → List Frame → Frame → Option Re
  | 0, _, _, _ => none
  | _ + 1, [], [], frame => some frame.close
  | _ + 1, [], _ :: _, _ => none
  | n + 1, c :: rest, stack, frame =>
    (D.step c rest stack frame).bind fun x => D.parse n x.1 x.2.1 x.2.2

/-- The expression a pattern stands for, if it is valid. -/
def compile (D : Dialect) (pattern : List Char) : Option Re :=
  D.parse (pattern.length + 1) pattern [] {}

end Dialect

/-! ## What is left to read -/

section Suffix

variable {pattern rest : List Char} {range : Nat × Option Nat}

/-- What ends with a character that the tail does not have ends before the tail. -/
theorem exists_of_append_eq {α : Type} {l tail inner rest : List α} {c : α} (hc : c ∉ tail)
    (h : l ++ tail = inner ++ c :: rest) : ∃ l', l = inner ++ c :: l' ∧ rest = l' ++ tail := by
  rcases List.append_eq_append_iff.mp h with ⟨l', rfl, htail⟩ | ⟨l', rfl, htail⟩
  · exact absurd (by rw [htail]; simp) hc
  · cases l' with
    | nil =>
      have htail : c :: rest = tail := htail
      exact absurd (by rw [← htail]; exact List.mem_cons_self ..) hc
    | cons d l' =>
      obtain ⟨rfl, rfl⟩ := List.cons.inj htail
      exact ⟨l', rfl, rfl⟩

/-- The upper bound of a range ends at its brace. -/
theorem upper_closed {least : Nat} (h : upper least pattern = some (range, rest)) :
    ∃ inner, pattern = inner ++ '}' :: rest := by
  have hsplit := List.takeWhile_append_dropWhile (p := Char.isDigit) (l := pattern)
  unfold upper at h
  dsimp only at h
  split at h
  next left hleft =>
    have hrest : left = rest := by
      split at h
      next => exact (Prod.mk.inj (Option.some.inj h)).2
      next =>
        split at h
        next => exact absurd h (by simp)
        next => exact (Prod.mk.inj (Option.some.inj h)).2
    exact ⟨_, by rw [← hrest, ← hleft, hsplit]⟩
  next => exact absurd h (by simp)

/-- An interval ends with its brace. -/
theorem interval_closed (h : interval pattern = some (range, rest)) :
    ∃ inner, pattern = inner ++ '}' :: rest := by
  have hsplit := List.takeWhile_append_dropWhile (p := Char.isDigit) (l := pattern)
  unfold interval at h
  dsimp only at h
  split at h
  next => exact absurd h (by simp)
  next =>
    split at h
    next left hleft =>
      obtain rfl := (Prod.mk.inj (Option.some.inj h)).2
      exact ⟨_, by rw [← hleft, hsplit]⟩
    next left hleft =>
      obtain ⟨inner, hinner⟩ := upper_closed h
      exact ⟨pattern.takeWhile Char.isDigit ++ ',' :: inner, by
        rw [List.append_assoc, List.cons_append, ← hinner, ← hleft, hsplit]⟩
    next => exact absurd h (by simp)

/-- Reading a range does not go beyond a tail without a brace. -/
theorem quantity_suffix {c : Char} {tail : List Char} (htail : '}' ∉ tail)
    (h : quantity c (pattern ++ tail) = some (range, rest)) :
    ∃ inner pattern', pattern = inner ++ pattern' ∧ rest = pattern' ++ tail := by
  unfold quantity at h
  split at h
  case h_4 =>
    obtain ⟨inner, hinner⟩ := interval_closed h
    obtain ⟨pattern', rfl, hrest⟩ := exists_of_append_eq htail hinner
    exact ⟨inner ++ ['}'], pattern', by simp, hrest⟩
  all_goals
    obtain rfl := (Prod.mk.inj (Option.some.inj h)).2
    exact ⟨[], pattern, rfl, rfl⟩

/-- A tail that no quantifier can begin in. -/
theorem mode_suffix {tail : List Char} (htail : mode tail = (.greedy, tail)) (l : List Char) :
    ∃ inner l', l = inner ++ l' ∧ (mode (l ++ tail)).2 = l' ++ tail := by
  cases l with
  | nil => exact ⟨[], [], rfl, by rw [List.nil_append, htail]⟩
  | cons c l =>
    by_cases hmode : (mode (c :: l ++ tail)).1 = .greedy
    · refine ⟨[], c :: l, rfl, ?_⟩
      unfold mode at hmode ⊢
      split <;> simp_all
    · refine ⟨[c], l, rfl, ?_⟩
      unfold mode at hmode ⊢
      split <;> simp_all

end Suffix

/-! ## Reading up to a word boundary -/

/-- The pattern `\b`. -/
def boundaryPattern : List Char := ['\\', 'b']

/-- No escapes, and no groups that begin with a question mark. -/
structure Bare (pattern : List Char) : Prop where
  escape : ∀ c ∈ pattern, token c ≠ .escape
  extension : ∀ inner rest, pattern ≠ inner ++ '(' :: '?' :: rest

/-- A part of a bare pattern is bare. -/
theorem Bare.suffix {inner pattern : List Char} (h : Bare (inner ++ pattern)) : Bare pattern where
  escape c hc := h.escape c (List.mem_append_right _ hc)
  extension inner' rest heq := h.extension (inner ++ inner') rest (by rw [heq, List.append_assoc])

/-- Only a parenthesis opens a group. -/
theorem token_group {c : Char} (h : token c = .group) : c = '(' := by
  unfold token at h
  split at h <;> first | rfl | exact absurd h (by simp)

namespace Dialect

variable {D : Dialect} {c : Char} {pattern rest : List Char} {stack stack' : List Frame}
  {frame frame' : Frame} {r : Re}

/-- A group that begins with no question mark. -/
theorem step_group (hbare : Bare (c :: pattern)) (htoken : token c = .group) :
    D.step c (pattern ++ boundaryPattern) stack frame
      = some (pattern ++ boundaryPattern, frame :: stack, {}) := by
  simp only [step, htoken]
  split
  next rest hrest =>
    cases pattern with
    | nil => exact absurd hrest (by simp [boundaryPattern])
    | cons d pattern =>
      obtain ⟨rfl, -⟩ := List.cons.inj hrest
      exact absurd (by rw [token_group htoken]; rfl) (hbare.extension [] pattern)
  next => rfl

/-- What a step does before the word boundary is reached: to the pattern (`inner` goes with `c`), to
the groups around, and to the group under way. -/
inductive Moves (c : Char) (stack : List Frame) (frame : Frame) :
    List Char → List Frame → Frame → Prop
  | literal (h : token c = .literal) : Moves c stack frame [] stack (frame.push (.char c))
  | dot (h : token c = .dot) : Moves c stack frame [] stack (frame.push .any)
  | start (h : token c = .start) : Moves c stack frame [] stack (frame.push .start)
  | finish (h : token c = .finish) : Moves c stack frame [] stack (frame.push .finish)
  | set (h : token c = .set) (inner : List Char) (p : Char → Bool) :
      Moves c stack frame (inner ++ [']']) stack (frame.push (.set p))
  | group (h : token c = .group) : Moves c stack frame [] (frame :: stack) {}
  | close (h : token c = .close) {outer : Frame} {stack' : List Frame}
      (hstack : stack = outer :: stack') : Moves c stack frame [] stack' (outer.push frame.close)
  | bar (h : token c = .bar) : Moves c stack frame [] stack frame.bar
  | quantifier (h : token c = .quantifier) (inner : List Char) {range : Nat × Option Nat}
      {mode : Mode} {frame' : Frame} (hframe : frame.quantify range mode = some frame') :
      Moves c stack frame inner stack frame'

/-- Every step does one of these. -/
theorem moves_of_step (hbare : Bare (c :: pattern))
    (h : D.step c (pattern ++ boundaryPattern) stack frame = some (rest, stack', frame')) :
    ∃ inner pattern', pattern = inner ++ pattern' ∧ rest = pattern' ++ boundaryPattern
      ∧ Moves c stack frame inner stack' frame' := by
  -- where nothing but `c` is read
  have hall : ∀ {stack₁ : List Frame} {frame₁ : Frame},
      some (pattern ++ boundaryPattern, stack₁, frame₁) = some (rest, stack', frame') →
      Moves c stack frame [] stack₁ frame₁ →
      ∃ inner pattern', pattern = inner ++ pattern' ∧ rest = pattern' ++ boundaryPattern
        ∧ Moves c stack frame inner stack' frame' := by
    intro stack₁ frame₁ heq hmoves
    simp only [Option.some.injEq, Prod.mk.injEq] at heq
    obtain ⟨rfl, rfl, rfl⟩ := heq
    exact ⟨[], pattern, rfl, rfl, hmoves⟩
  cases htoken : token c with
  | literal =>
    simp only [step, htoken] at h
    exact hall h (.literal htoken)
  | dot =>
    simp only [step, htoken] at h
    exact hall h (.dot htoken)
  | start =>
    simp only [step, htoken] at h
    exact hall h (.start htoken)
  | finish =>
    simp only [step, htoken] at h
    exact hall h (.finish htoken)
  | set =>
    simp only [step, htoken] at h
    obtain ⟨x, hx, heq⟩ := Option.map_eq_some_iff.mp h
    simp only [Prod.mk.injEq] at heq
    obtain ⟨hrest, rfl, rfl⟩ := heq
    -- the set ends with its bracket, so before the word boundary
    obtain ⟨inner, hinner⟩ := D.set_closed hx
    obtain ⟨pattern', rfl, hpattern⟩ := exists_of_append_eq (by decide) hinner
    exact ⟨inner ++ [']'], pattern', by simp, hrest ▸ hpattern, .set htoken inner x.1⟩
  | group =>
    rw [step_group hbare htoken] at h
    exact hall h (.group htoken)
  | close =>
    simp only [step, htoken] at h
    cases stack with
    | nil => exact absurd h (by simp)
    | cons outer stack => exact hall h (.close htoken rfl)
  | bar =>
    simp only [step, htoken] at h
    exact hall h (.bar htoken)
  | escape => exact absurd htoken (hbare.escape c (List.mem_cons_self ..))
  | quantifier =>
    simp only [step, htoken] at h
    obtain ⟨x, hx, hframe⟩ := Option.bind_eq_some_iff.mp h
    obtain ⟨frame'', hquantify, heq⟩ := Option.map_eq_some_iff.mp hframe
    simp only [Prod.mk.injEq] at heq
    obtain ⟨hrest, rfl, rfl⟩ := heq
    obtain ⟨inner, pattern', rfl, hpattern⟩ := quantity_suffix (by decide) hx
    have htail : mode boundaryPattern = (.greedy, boundaryPattern) := rfl
    obtain ⟨inner', pattern'', rfl, hmode⟩ := mode_suffix htail pattern'
    refine ⟨inner ++ inner', pattern'', by simp, ?_, .quantifier htoken _ hquantify⟩
    rw [← hrest, hpattern, hmode]
  | brace =>
    simp only [step, htoken] at h
    exact absurd h (by simp)

/-- Induction over the steps up to the word boundary. -/
theorem parse_invariant {I : List Char → List Frame → Frame → Prop}
    (hmoves : ∀ {c inner pattern stack frame stack' frame'},
      I (c :: (inner ++ pattern)) stack frame → Moves c stack frame inner stack' frame' →
      I pattern stack' frame')
    {n : Nat} (hbare : Bare pattern) (hinit : I pattern stack frame)
    (h : D.parse n (pattern ++ boundaryPattern) stack frame = some r) :
    ∃ frame', I [] [] frame' ∧ r = (frame'.assert .boundary).close := by
  induction n generalizing pattern stack frame with
  | zero => exact absurd h (by simp [parse])
  | succ n ih =>
    cases pattern with
    | nil =>
      have h : D.parse n [] stack (frame.assert .boundary) = some r := h
      cases n with
      | zero => exact absurd h (by simp [parse])
      | succ n =>
        cases stack with
        | nil => exact ⟨frame, hinit, (Option.some.inj h).symm⟩
        | cons outer stack => exact absurd h (by simp [parse])
    | cons c pattern =>
      rw [List.cons_append, parse] at h
      obtain ⟨⟨rest, stack', frame'⟩, hone, hrest⟩ := Option.bind_eq_some_iff.mp h
      obtain ⟨inner, pattern', rfl, rfl, hmove⟩ := moves_of_step hbare hone
      have hsuffix : Bare pattern' := by
        have hall : Bare ((c :: inner) ++ pattern') := hbare
        exact hall.suffix
      exact ih hsuffix (hmoves hinit hmove) hrest

end Dialect

/-! ## What frames consume -/

namespace Frame

section Takes

variable {A : Alphabet} {P : List Char → Prop} {frame frame' : Frame} {r : Re}

/-- All that has been read of a group consumes text with `P`. -/
structure Takes (A : Alphabet) (P : List Char → Prop) (frame : Frame) : Prop where
  alts : ∀ r ∈ frame.alts, r.Takes A P
  seq : frame.seq.Takes A P
  last : ∀ r ∈ frame.last, r.Takes A P

/-- `P` holds of nothing and of what is put together. -/
structure Closed (P : List Char → Prop) : Prop where
  nil : P []
  append : ∀ l l', P l → P l' → P (l ++ l')

theorem takes_initial (hP : Closed P) : ({} : Frame).Takes A P :=
  ⟨by simp, Re.takes_empty hP.nil, by simp⟩

/-- What a frame holds is taken when it is flushed, -/
theorem Takes.flush (h : frame.Takes A P) (hP : Closed P) : frame.flush.Takes A P := by
  unfold Frame.flush
  cases hlast : frame.last with
  | none => exact h.seq
  | some r => exact h.seq.seq (h.last r hlast) hP.append

/-- when it is closed, -/
theorem Takes.close (h : frame.Takes A P) (hP : Closed P) : frame.close.Takes A P := by
  unfold Frame.close
  cases halts : frame.alts with
  | none => exact h.flush hP
  | some alts => exact (h.alts alts halts).alt (h.flush hP)

/-- when an expression is added, -/
theorem Takes.push (h : frame.Takes A P) (hP : Closed P) (hr : r.Takes A P) :
    (frame.push r).Takes A P := by
  refine ⟨h.alts, h.flush hP, fun r' hr' => ?_⟩
  obtain rfl := Option.some.inj hr'
  exact hr

/-- when it is an assertion, -/
theorem Takes.assert (h : frame.Takes A P) (hP : Closed P) (hr : r.Takes A P) :
    (frame.assert r).Takes A P :=
  ⟨h.alts, (h.flush hP).seq hr hP.append, by simp [Frame.assert]⟩

/-- at a bar, -/
theorem Takes.bar (h : frame.Takes A P) (hP : Closed P) : frame.bar.Takes A P := by
  refine ⟨fun r hr => ?_, Re.takes_empty hP.nil, by simp [Frame.bar]⟩
  obtain rfl := Option.some.inj hr
  exact h.close hP

/-- and under a quantifier. -/
theorem Takes.quantify (h : frame.Takes A P) (hP : Closed P) {range : Nat × Option Nat}
    {mode : Mode} (hframe : frame.quantify range mode = some frame') : frame'.Takes A P := by
  obtain ⟨r, hr, rfl⟩ := Option.map_eq_some_iff.mp hframe
  exact ⟨h.alts, h.seq.seq ((h.last r hr).rep hP.nil hP.append _ _ _) hP.append, by simp⟩

end Takes

end Frame

/-! ## Literal characters -/

section Literal

/-- Only literal characters. -/
def Literal (l : List Char) : Prop := ∀ c ∈ l, token c = .literal

theorem literal_closed : Frame.Closed Literal := by
  refine ⟨fun c hc => absurd hc List.not_mem_nil, fun l l' hl hl' c hc => ?_⟩
  exact (List.mem_append.mp hc).elim (hl c) (hl' c)

/-- No full stops and no sets. -/
def NoWild (pattern : List Char) : Prop := ∀ c ∈ pattern, token c ≠ .dot ∧ token c ≠ .set

/-- What has been read consumes literal characters, and there is nothing else to come. -/
structure ReadsLiteral (A : Alphabet) (pattern : List Char) (stack : List Frame) (frame : Frame) :
    Prop where
  wild : NoWild pattern
  frame : frame.Takes A Literal
  stack : ∀ outer ∈ stack, outer.Takes A Literal

/-- A move over bare text reads literal characters. -/
theorem ReadsLiteral.moves {D : Dialect} {c : Char} {inner pattern : List Char}
    {stack stack' : List Frame} {frame frame' : Frame}
    (h : ReadsLiteral D.toAlphabet (c :: (inner ++ pattern)) stack frame)
    (hmoves : Dialect.Moves c stack frame inner stack' frame') :
    ReadsLiteral D.toAlphabet pattern stack' frame' := by
  obtain ⟨hwild, hframe, hstack⟩ := h
  have hrest : NoWild pattern := fun d hd => hwild d (by simp [hd])
  have hterm : ∀ r : Re, r.Takes D.toAlphabet Literal →
      (frame.push r).Takes D.toAlphabet Literal := fun r hr => hframe.push literal_closed hr
  have hnone := literal_closed.nil
  cases hmoves with
  | literal htoken =>
    refine ⟨hrest, hterm _ (Re.takes_char fun d hd e he => ?_), hstack⟩
    rw [List.mem_singleton.mp he]
    exact D.same_literal hd htoken
  | dot htoken => exact absurd htoken (hwild c (List.mem_cons_self ..)).1
  | start => exact ⟨hrest, hterm _ (Re.takes_start hnone), hstack⟩
  | finish => exact ⟨hrest, hterm _ (Re.takes_finish hnone), hstack⟩
  | set htoken => exact absurd htoken (hwild c (List.mem_cons_self ..)).2
  | group =>
    exact ⟨hrest, Frame.takes_initial literal_closed, List.forall_mem_cons.mpr ⟨hframe, hstack⟩⟩
  | close htoken heq =>
    rw [heq] at hstack
    obtain ⟨houter, hstack⟩ := List.forall_mem_cons.mp hstack
    exact ⟨hrest, houter.push literal_closed (hframe.close literal_closed), hstack⟩
  | bar => exact ⟨hrest, hframe.bar literal_closed, hstack⟩
  | quantifier htoken inner hquantify =>
    exact ⟨hrest, hframe.quantify literal_closed hquantify, hstack⟩

/-- **Without full stops, sets and escapes** nothing but literal characters is consumed, however
often terms are repeated. -/
theorem compile_literal {D : Dialect} {pattern : List Char} {r : Re} (hbare : Bare pattern)
    (hwild : NoWild pattern) {n : Nat} {frame : Frame} (hframe : frame.Takes D.toAlphabet Literal)
    (h : D.parse n (pattern ++ boundaryPattern) [] frame = some r) :
    r.Takes D.toAlphabet Literal := by
  obtain ⟨frame', ⟨-, hframe', -⟩, rfl⟩ := D.parse_invariant
    (I := ReadsLiteral D.toAlphabet) ReadsLiteral.moves hbare ⟨hwild, hframe, by simp⟩ h
  exact (hframe'.assert literal_closed (Re.takes_boundary literal_closed.nil)).close literal_closed

end Literal

/-! ## Patterns without quantifiers -/

section Short

variable {A : Alphabet} {frame frame' : Frame} {r r' : Re} {m n k : Nat}

/-- At most `n` characters. -/
def AtMost (n : Nat) (l : List Char) : Prop := l.length ≤ n

/-- What takes at most `n` characters takes at most `m`. -/
theorem takes_atMost_mono (h : r.Takes A (AtMost n)) (hle : n ≤ m) : r.Takes A (AtMost m) :=
  h.mono fun _ hl => Nat.le_trans hl hle

/-- The bounds of a sequence add up. -/
theorem takes_atMost_seq (h : r.Takes A (AtMost n)) (h' : r'.Takes A (AtMost m)) :
    (r.seq r').Takes A (AtMost (n + m)) := by
  refine h.seq h' fun l l' hl hl' => ?_
  unfold AtMost at *
  rw [List.length_append]
  omega

/-- What has been read of a group consumes at most `n` characters. -/
def Frame.Weighs (A : Alphabet) (frame : Frame) (n : Nat) : Prop :=
  ∃ m k, (∀ r ∈ frame.alts, r.Takes A (AtMost m)) ∧ frame.flush.Takes A (AtMost k) ∧ m + k ≤ n

namespace Frame

theorem weighs_initial : ({} : Frame).Weighs A 0 :=
  ⟨0, 0, by simp, Re.takes_empty (Nat.le_refl 0), Nat.le_refl 0⟩

/-- A frame weighs what is added to it, -/
theorem Weighs.push (h : frame.Weighs A n) (hr : r.Takes A (AtMost k)) :
    (frame.push r).Weighs A (n + k) := by
  obtain ⟨m, j, halts, hflush, hle⟩ := h
  exact ⟨m, j + k, halts, takes_atMost_seq hflush hr, by omega⟩

/-- of which an assertion weighs nothing. -/
theorem Weighs.assert (h : frame.Weighs A n) (hr : r.Takes A (AtMost 0)) :
    (frame.assert r).Weighs A n := by
  obtain ⟨m, j, halts, hflush, hle⟩ := h
  exact ⟨m, j, halts, takes_atMost_seq hflush hr, hle⟩

/-- What is closed takes no more than the frame weighs, -/
theorem Weighs.close (h : frame.Weighs A n) : frame.close.Takes A (AtMost n) := by
  obtain ⟨m, j, halts, hflush, hle⟩ := h
  unfold Frame.close
  cases hold : frame.alts with
  | none => exact takes_atMost_mono hflush (by omega)
  | some alts =>
    exact (takes_atMost_mono (halts alts hold) (by omega)).alt
      (takes_atMost_mono hflush (by omega))

/-- on either side of a bar. -/
theorem Weighs.bar (h : frame.Weighs A n) : frame.bar.Weighs A n := by
  refine ⟨n, 0, fun r hr => ?_, Re.takes_empty (Nat.le_refl 0), Nat.le_refl n⟩
  obtain rfl := Option.some.inj hr
  exact h.close

end Frame

/-- Neither a literal character nor a full stop. -/
def Meta (c : Char) : Prop := token c ≠ .literal ∧ token c ≠ .dot

/-- `n` characters and those of the pattern are less than `total`, or will be. -/
def Fits (total n : Nat) (pattern : List Char) : Prop :=
  n + pattern.length < total ∨ n + pattern.length ≤ total ∧ ∃ c ∈ pattern, Meta c

/-- Each ordinary character weighs one, -/
theorem Fits.ordinary {total : Nat} {c : Char} {pattern : List Char}
    (h : Fits total n (c :: pattern)) (hc : ¬ Meta c) : Fits total (n + 1) pattern := by
  unfold Fits at *
  rw [List.length_cons] at h
  rcases h with h | ⟨h, d, hd, hmeta⟩
  · exact Or.inl (by omega)
  · rcases List.mem_cons.mp hd with rfl | hd
    · exact absurd hmeta hc
    · exact Or.inr ⟨by omega, d, hd, hmeta⟩

/-- and a metacharacter no more than the text it is read with. -/
theorem Fits.meta {total : Nat} {c : Char} {inner pattern : List Char}
    (h : Fits total n (c :: (inner ++ pattern))) (hm : m ≤ n + inner.length) :
    Fits total m pattern := by
  unfold Fits at *
  rw [List.length_cons, List.length_append] at h
  exact Or.inl (by omega)

/-- What has been read can consume less than `total` characters together with what is left, which
has no quantifiers. -/
structure ReadsShort (A : Alphabet) (total : Nat) (pattern : List Char) (stack : List Frame)
    (frame : Frame) : Prop where
  quantifiers : ∀ c ∈ pattern, token c ≠ .quantifier
  weight : ∃ n ns, frame.Weighs A n ∧ List.Forall₂ (Frame.Weighs A) stack ns
    ∧ Fits total (n + ns.sum) pattern

/-- A move keeps the weight within the length read so far. -/
theorem ReadsShort.moves {A : Alphabet} {total : Nat} {c : Char} {inner pattern : List Char}
    {stack stack' : List Frame} {frame frame' : Frame}
    (h : ReadsShort A total (c :: (inner ++ pattern)) stack frame)
    (hmoves : Dialect.Moves c stack frame inner stack' frame') :
    ReadsShort A total pattern stack' frame' := by
  obtain ⟨hquantifiers, n, ns, hframe, hstack, hfits⟩ := h
  refine ⟨fun d hd => hquantifiers d (by simp [hd]), ?_⟩
  have hone : ∀ d : Char, AtMost 1 [d] := fun _ => Nat.le_refl 1
  have hnone : AtMost 0 [] := Nat.le_refl 0
  cases hmoves with
  | literal htoken =>
    have hfits := hfits.ordinary fun hmeta => hmeta.1 htoken
    exact ⟨n + 1, ns, hframe.push (Re.takes_char fun d _ => hone d), hstack,
      by rw [Nat.add_right_comm]; exact hfits⟩
  | dot htoken =>
    have hfits := hfits.ordinary fun hmeta => hmeta.2 htoken
    exact ⟨n + 1, ns, hframe.push (Re.takes_any hone), hstack,
      by rw [Nat.add_right_comm]; exact hfits⟩
  | start => exact ⟨n, ns, hframe.push (Re.takes_start hnone), hstack, hfits.meta (by omega)⟩
  | finish => exact ⟨n, ns, hframe.push (Re.takes_finish hnone), hstack, hfits.meta (by omega)⟩
  | set htoken inner p =>
    -- the closing bracket is read too
    refine ⟨n + 1, ns, hframe.push (Re.takes_set hone), hstack, hfits.meta ?_⟩
    rw [List.length_append, List.length_singleton]
    omega
  | group =>
    exact ⟨0, n :: ns, Frame.weighs_initial, .cons hframe hstack,
      hfits.meta (by rw [List.sum_cons]; omega)⟩
  | close htoken heq =>
    subst heq
    cases hstack with
    | cons houter hstack =>
      rename_i k ks
      exact ⟨k + n, ks, houter.push hframe.close, hstack,
        hfits.meta (by rw [List.sum_cons]; omega)⟩
  | bar => exact ⟨n, ns, hframe.bar, hstack, hfits.meta (by omega)⟩
  | quantifier htoken => exact absurd htoken (hquantifiers c (List.mem_cons_self ..))

/-- **Without quantifiers and escapes** fewer characters are consumed than there are in a pattern
that has metacharacters. -/
theorem compile_shorter {D : Dialect} {pattern : List Char} {r : Re} (hbare : Bare pattern)
    (hquantifiers : ∀ c ∈ pattern, token c ≠ .quantifier) (hmeta : ∃ c ∈ pattern, Meta c) {n : Nat}
    {frame : Frame} (hframe : frame.Weighs D.toAlphabet 0)
    (h : D.parse n (pattern ++ boundaryPattern) [] frame = some r) :
    r.Takes D.toAlphabet fun l => l.length < pattern.length := by
  have hinit : ReadsShort D.toAlphabet pattern.length pattern [] frame :=
    ⟨hquantifiers, 0, [], hframe, .nil, Or.inr ⟨by simp, hmeta⟩⟩
  obtain ⟨frame', ⟨-, k, ns, hweighs, hstack, hfits⟩, rfl⟩ := D.parse_invariant
    (I := ReadsShort D.toAlphabet pattern.length) ReadsShort.moves hbare hinit h
  cases hstack
  have hless : k < pattern.length := by
    rcases hfits with hfits | ⟨-, c, hc, -⟩
    · simpa using hfits
    · exact absurd hc List.not_mem_nil
  refine (hweighs.assert (Re.takes_boundary (Nat.le_refl 0))).close.mono fun l hl => ?_
  exact Nat.lt_of_le_of_lt hl hless

end Short

/-! ## Patterns that are their own text -/

section Plain

variable {D : Dialect} {pattern before rest : List Char} {frame : Frame} {cursor : Cursor}

/-- Literal characters and full stops. -/
def Plain (pattern : List Char) : Prop := ∀ c ∈ pattern, token c = .literal ∨ token c = .dot

/-- The term for one of them. -/
def plainTerm (c : Char) : Re := if token c = .dot then .any else .char c

/-- The frame after a plain pattern. -/
def Frame.plain (frame : Frame) (pattern : List Char) : Frame :=
  pattern.foldl (fun frame c => frame.push (plainTerm c)) frame

/-- Plain text is read one character at a time. -/
theorem Dialect.parse_plain (h : Plain pattern) (n : Nat) (stack : List Frame) (frame : Frame) :
    D.parse (n + pattern.length) (pattern ++ rest) stack frame
      = D.parse n rest stack (frame.plain pattern) := by
  induction pattern generalizing frame with
  | nil => rfl
  | cons c pattern ih =>
    obtain ⟨hc, hpattern⟩ := List.forall_mem_cons.mp h
    have hstep : D.step c (pattern ++ rest) stack frame
        = some (pattern ++ rest, stack, frame.push (plainTerm c)) := by
      unfold plainTerm
      rcases hc with hc | hc <;> simp [step, hc]
    rw [List.length_cons, ← Nat.add_assoc, List.cons_append, parse, hstep]
    exact ih hpattern (frame.push (plainTerm c))

/-- A plain pattern is found where its own text is. -/
theorem Frame.run_plain (h : Plain pattern)
    (hframe : frame.flush.run D.toAlphabet cursor = [⟨before, pattern ++ rest⟩]) :
    (frame.plain pattern).flush.run D.toAlphabet cursor = [⟨pattern.reverse ++ before, rest⟩] := by
  induction pattern generalizing frame before with
  | nil => exact hframe
  | cons c pattern ih =>
    obtain ⟨hc, hpattern⟩ := List.forall_mem_cons.mp h
    have hterm : (plainTerm c).run D.toAlphabet ⟨before, c :: (pattern ++ rest)⟩
        = [⟨c :: before, pattern ++ rest⟩] := by
      unfold plainTerm
      rcases hc with hc | hc
      · rw [if_neg (by simp [hc])]
        exact if_pos (D.same_refl c)
      · rw [if_pos hc]
        obtain rfl : c = '.' := by
          unfold token at hc
          split at hc <;> first | rfl | exact absurd hc (by simp)
        exact if_pos (congrArg (! ·) D.stop)
    rw [List.reverse_cons, List.append_assoc, List.singleton_append]
    refine ih hpattern ?_
    show (frame.flush.run D.toAlphabet cursor).flatMap ((plainTerm c).run D.toAlphabet) = _
    rw [hframe, List.cons_append, List.flatMap_singleton, hterm]

/-- What fails before it fails with it. -/
theorem Frame.run_plain_nil (hframe : frame.flush.run D.toAlphabet cursor = []) :
    (frame.plain pattern).flush.run D.toAlphabet cursor = [] := by
  induction pattern generalizing frame with
  | nil => exact hframe
  | cons c pattern ih =>
    refine ih ?_
    show (frame.flush.run D.toAlphabet cursor).flatMap ((plainTerm c).run D.toAlphabet) = _
    rw [hframe]
    rfl

end Plain

end Regex
