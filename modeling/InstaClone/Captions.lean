import InstaClone.Client
import InstaClone.Regex.Parse

/-!
# The author's name in a caption

The label of a cell shows the author's name and the caption. `customLabelType` is to find the name
in it, and puts it into a pattern as it is. So metacharacters in a name are not found, they are
obeyed, and the word boundary after a name that ends with no word character is missed: what
follows is a space.

A name is highlighted as it should be if it has neither (`IsHighlightable`). For other names that
is so only by chance: a pattern has to consume its own text, and short of repeating a full stop or
a set, or an escape, it cannot consume a metacharacter, or not enough (`IsDecided`).
-/

namespace InstaClone

open Regex

/-! ## Labels -/

/-- `ActiveType.custom(pattern:)`. The types that come with the label are left out. -/
inductive ActiveType where
  | custom (pattern : String)

def ActiveType.pattern : ActiveType → String
  | custom regex => regex

/-- `ActiveElement.custom`. -/
inductive ActiveElement where
  | custom (word : String)
deriving DecidableEq

/-- Places and lengths count UTF-16 code units. -/
structure NSRange where
  location : Nat
  length : Nat
deriving DecidableEq, Repr

namespace PostViewModel

def username (viewModel : PostViewModel) : String := viewModel.post.ownerUsername

def caption (viewModel : PostViewModel) : String := viewModel.post.caption

def customLabelType (viewModel : PostViewModel) : ActiveType :=
  .custom ("^" ++ viewModel.username ++ "\\b")

/-- The text that `customizeLabel` sets. -/
def labelText (viewModel : PostViewModel) : String :=
  viewModel.username ++ " " ++ viewModel.caption

end PostViewModel

/-- The number of UTF-16 code units. -/
def utf16Size (c : Char) : Nat := if c.val ≤ 0xFFFF then 1 else 2

def utf16Count (l : List Char) : Nat := (l.map utf16Size).sum

/-- `NSTextCheckingResult.range`. -/
def range (m : Match) : NSRange := ⟨utf16Count m.start.before, utf16Count m.text⟩

/-- `CharacterSet.whitespacesAndNewlines`. -/
def isWhitespaceOrNewline (c : Char) : Bool :=
  c.toNat ∈ [0x09, 0x0A, 0x0B, 0x0C, 0x0D, 0x20, 0x85, 0xA0, 0x1680, 0x2028, 0x2029, 0x202F, 0x205F,
      0x3000]
    || 0x2000 ≤ c.toNat && c.toNat ≤ 0x200A

/-- `trimmingCharacters(in: .whitespacesAndNewlines)`. -/
def trimmed (l : List Char) : List Char :=
  ((l.dropWhile isWhitespaceOrNewline).reverse.dropWhile isWhitespaceOrNewline).reverse

/-- `RegexParser.getElements(from:with:range:)`, over the whole text. -/
def RegexParser.getElements (D : Dialect) (text pattern : String) : List Match :=
  match D.compile pattern.toList with
  | none => []
  | some r => matchesIn D.toAlphabet r text.toList

/-- `ActiveBuilder.createElements`, for a type of its own and without a filter. -/
def ActiveBuilder.createElements (D : Dialect) (type : ActiveType) (text : String)
    (minLength : Nat := 1) : List (NSRange × ActiveElement) :=
  ((RegexParser.getElements D text type.pattern).filter fun m =>
      minLength < (range m).length).map fun m =>
    (range m, .custom (String.ofList (trimmed m.text)))

/-- The one element of `customLabelType` is the leading username. -/
def HighlightsAuthor (D : Dialect) (viewModel : PostViewModel) : Prop :=
  (ActiveBuilder.createElements D viewModel.customLabelType viewModel.labelText).map Prod.fst
    = [⟨0, utf16Count viewModel.username.toList⟩]

/-- `RegisterationViewModel`, without the colours. -/
structure RegisterationViewModel where
  email : Option String := none
  password : Option String := none
  fullname : Option String := none
  username : Option String := none

def RegisterationViewModel.formIsValid (form : RegisterationViewModel) : Bool :=
  form.email.map String.isEmpty == some false && form.password.map String.isEmpty == some false
    && form.fullname.map String.isEmpty == some false
    && form.username.map String.isEmpty == some false

/-- No metacharacter but the full stop, and a word character at the end. -/
def IsHighlightable (D : Dialect) (username : String) : Prop :=
  Plain username.toList ∧ username.toList.getLast?.any D.word = true

/-- No escapes and no special groups, and no quantifiers unless there are neither full stops nor
sets. -/
def IsDecided (username : String) : Prop :=
  Bare username.toList
    ∧ (NoWild username.toList ∨ ∀ c ∈ username.toList, token c ≠ .quantifier)

/-! ## UTF-16 -/

theorem utf16Size_pos (c : Char) : 0 < utf16Size c := by
  unfold utf16Size
  split <;> omega

theorem length_le_utf16Count (l : List Char) : l.length ≤ utf16Count l := by
  induction l with
  | nil => exact Nat.le_refl 0
  | cons c l ih =>
    have hpos := utf16Size_pos c
    rw [utf16Count, List.map_cons, List.sum_cons, List.length_cons]
    unfold utf16Count at ih
    omega

theorem utf16Count_eq_zero {l : List Char} (h : utf16Count l = 0) : l = [] := by
  have hle := length_le_utf16Count l
  exact List.eq_nil_of_length_eq_zero (by omega)

/-- Two beginnings of one text that have the same length are the same. -/
theorem eq_of_utf16Count_eq {x y l l' : List Char} (htext : x ++ l = y ++ l')
    (h : utf16Count x = utf16Count y) : x = y := by
  have hnil : ∀ {u v : List Char}, utf16Count (u ++ v) = utf16Count u → v = [] := by
    intro u v huv
    refine utf16Count_eq_zero ?_
    unfold utf16Count at *
    rw [List.map_append, List.sum_append] at huv
    omega
  rcases List.append_eq_append_iff.mp htext with ⟨z, rfl, -⟩ | ⟨z, rfl, -⟩
  · rw [hnil h.symm, List.append_nil]
  · rw [hnil h, List.append_nil]

/-! ## The pattern of a name -/

section Pattern

variable {D : Dialect} {viewModel : PostViewModel} {r : Re}

/-- The frame after the caret. -/
def anchored : Frame := ({} : Frame).push .start

theorem toList_pattern :
    viewModel.customLabelType.pattern.toList
      = '^' :: (viewModel.username.toList ++ boundaryPattern) := by
  unfold PostViewModel.customLabelType ActiveType.pattern
  rw [String.toList_append, String.toList_append]
  rfl

theorem toList_labelText :
    viewModel.labelText.toList = viewModel.username.toList ++ ' ' :: viewModel.caption.toList := by
  unfold PostViewModel.labelText
  rw [String.toList_append, String.toList_append, List.append_assoc]
  rfl

theorem compile_anchored (pattern : List Char) :
    D.compile ('^' :: (pattern ++ boundaryPattern))
      = D.parse (3 + pattern.length) (pattern ++ boundaryPattern) [] anchored := by
  have hfuel : ('^' :: (pattern ++ boundaryPattern)).length + 1 = (3 + pattern.length) + 1 := by
    rw [List.length_cons, List.length_append]
    show pattern.length + 2 + 1 + 1 = _
    omega
  rw [Dialect.compile, hfuel, Dialect.parse]
  rfl

theorem getElements_eq : RegexParser.getElements D viewModel.labelText
      viewModel.customLabelType.pattern
    = match D.parse (3 + viewModel.username.toList.length)
        (viewModel.username.toList ++ boundaryPattern) [] anchored with
      | none => []
      | some r => matchesIn D.toAlphabet r
        (viewModel.username.toList ++ ' ' :: viewModel.caption.toList) := by
  unfold RegexParser.getElements
  rw [toList_pattern, compile_anchored, toList_labelText]

/-- If the name is highlighted, its pattern can consume it. -/
theorem HighlightsAuthor.takes (h : HighlightsAuthor D viewModel) {P : List Char → Prop}
    (hP : ∀ n r, D.parse n (viewModel.username.toList ++ boundaryPattern) [] anchored = some r →
      r.Takes D.toAlphabet P) : P viewModel.username.toList := by
  unfold HighlightsAuthor ActiveBuilder.createElements at h
  rw [getElements_eq, List.map_map] at h
  cases hparse : D.parse (3 + viewModel.username.toList.length)
      (viewModel.username.toList ++ boundaryPattern) [] anchored with
  | none =>
    rw [hparse] at h
    exact absurd h (by simp)
  | some r =>
    rw [hparse] at h
    obtain ⟨m, hm, hrange⟩ := List.mem_map.mp (by rw [h]; exact List.mem_singleton_self _)
    obtain ⟨htext, consumed, hto, hconsumed⟩ :=
      mem_matchesIn (hP _ r hparse) (List.mem_of_mem_filter hm)
    obtain ⟨hlocation, hlength⟩ := NSRange.mk.inj hrange
    -- the match begins where the text begins, and is as long as the name
    have hbefore : m.start.before = [] := utf16Count_eq_zero hlocation
    rw [hbefore, List.reverse_nil, List.nil_append, hto.1] at htext
    have hname : consumed = viewModel.username.toList := by
      refine eq_of_utf16Count_eq htext ?_
      rw [← Match.text_of_to hto]
      exact hlength
    rw [← hname]
    exact hconsumed

/-! ### Names without metacharacters -/

/-- What a plain name compiles to. -/
def nameExpression (name : List Char) : Re := ((anchored.plain name).assert .boundary).close

theorem parse_plainName {name : List Char} (h : Plain name) :
    D.parse (3 + name.length) (name ++ boundaryPattern) [] anchored
      = some (nameExpression name) := by
  rw [D.parse_plain h]
  rfl

/-- It is the name, and then a word boundary. -/
theorem run_nameExpression (name : List Char) (cursor : Cursor) :
    (nameExpression name).run D.toAlphabet cursor
      = ((anchored.plain name).flush.run D.toAlphabet cursor).flatMap
        (Re.boundary.run D.toAlphabet) := by
  have halts : ∀ (l : List Char) (frame : Frame), (frame.plain l).alts = frame.alts := by
    intro l
    induction l with
    | nil => exact fun _ => rfl
    | cons c l ih => exact fun frame => ih (frame.push (plainTerm c))
  unfold nameExpression Frame.close
  rw [show ((anchored.plain name).assert .boundary).alts = none from halts name anchored]
  rfl

/-- Nothing but the beginning of a text matches it, -/
theorem run_nameExpression_nil (name : List Char) {before : List Char} (h : before ≠ [])
    (after : List Char) : (nameExpression name).run D.toAlphabet ⟨before, after⟩ = [] := by
  have hstart : anchored.flush.run D.toAlphabet ⟨before, after⟩ = [] := by
    cases before with
    | nil => exact absurd rfl h
    | cons c before => rfl
  rw [run_nameExpression, Frame.run_plain_nil hstart]
  rfl

/-- and that as far as the name, if the name ends a word. -/
theorem run_nameExpression_self {name : List Char} (h : Plain name) (caption : List Char) :
    (nameExpression name).run D.toAlphabet ⟨[], name ++ ' ' :: caption⟩
      = if name.getLast?.any D.word = true then [⟨name.reverse, ' ' :: caption⟩] else [] := by
  have hname : (anchored.plain name).flush.run D.toAlphabet ⟨[], name ++ ' ' :: caption⟩
      = [⟨name.reverse ++ [], ' ' :: caption⟩] := Frame.run_plain h rfl
  rw [run_nameExpression, hname, List.append_nil, List.flatMap_singleton]
  have hboundary : (⟨name.reverse, ' ' :: caption⟩ : Cursor).atBoundary D.toAlphabet
      = name.getLast?.any D.word := by
    unfold Cursor.atBoundary
    rw [List.head?_reverse, List.head?_cons, Option.any_some, D.space, Bool.bne_false]
  show Cursor.stay _ _ = _
  rw [hboundary]
  rfl

/-- A name without metacharacters is highlighted if it ends with a word character, whatever the
caption. -/
theorem highlightsAuthor_plain (hlength : 2 ≤ viewModel.username.length)
    (h : Plain viewModel.username.toList) :
    HighlightsAuthor D viewModel ↔ viewModel.username.toList.getLast?.any D.word = true := by
  have hanchored : ∀ before after, before ≠ [] →
      (nameExpression viewModel.username.toList).run D.toAlphabet ⟨before, after⟩ = [] :=
    fun before after hbefore => run_nameExpression_nil _ hbefore after
  have hrun := run_nameExpression_self (D := D) h viewModel.caption.toList
  have hlong : 1 < utf16Count viewModel.username.toList := by
    have hle := length_le_utf16Count viewModel.username.toList
    rw [String.length_toList] at hle
    omega
  unfold HighlightsAuthor ActiveBuilder.createElements
  rw [getElements_eq, parse_plainName h]
  dsimp only
  -- the space after the name is no word character, so the last character of the name decides
  by_cases hword : viewModel.username.toList.getLast?.any D.word = true
  · rw [if_pos hword] at hrun
    have hnonempty : viewModel.username.toList.reverse ≠ [] := by
      intro hnil
      rw [List.reverse_eq_nil_iff.mp hnil] at hlong
      exact absurd hlong (by decide)
    have hhead := congrArg List.head? hrun
    rw [matchesIn_anchored hanchored hnonempty hhead]
    have htext : (⟨⟨[], viewModel.username.toList ++ ' ' :: viewModel.caption.toList⟩,
        ⟨viewModel.username.toList.reverse, ' ' :: viewModel.caption.toList⟩⟩ : Match).text
          = viewModel.username.toList :=
      Match.text_of_to ⟨rfl, (List.append_nil _).symm⟩
    have hrange : range ⟨⟨[], viewModel.username.toList ++ ' ' :: viewModel.caption.toList⟩,
        ⟨viewModel.username.toList.reverse, ' ' :: viewModel.caption.toList⟩⟩
          = ⟨0, utf16Count viewModel.username.toList⟩ := by
      unfold range
      rw [htext]
      rfl
    simp only [List.filter_cons, hrange, hlong, decide_true, if_true, List.filter_nil,
      List.map_cons, List.map_nil, hword]
  · rw [if_neg hword] at hrun
    rw [matchesIn_anchored_nil hanchored hrun]
    simp [hword]

/-! ### Other names -/

theorem takes_anchored {A : Alphabet} : anchored.Takes A Literal :=
  (Frame.takes_initial literal_closed).push literal_closed (Re.takes_start literal_closed.nil)

theorem weighs_anchored {A : Alphabet} : anchored.Weighs A 0 :=
  Frame.weighs_initial.push (Re.takes_start (Nat.le_refl 0))

/-- What has no metacharacter is plain. -/
theorem plain_iff_not_meta {name : List Char} : Plain name ↔ ¬ ∃ c ∈ name, Meta c := by
  unfold Plain Meta
  simp only [not_exists, not_and, ← or_iff_not_imp_left, not_not]

/-- A name with a metacharacter is not highlighted, as long as it does not repeat full stops or
sets. -/
theorem plain_of_highlightsAuthor (hdecided : IsDecided viewModel.username)
    (h : HighlightsAuthor D viewModel) : Plain viewModel.username.toList := by
  obtain ⟨hbare, hwild | hquantifiers⟩ := hdecided
  · -- all that the pattern can consume are literal characters, and it consumes the name
    have hliteral : Literal viewModel.username.toList :=
      h.takes fun _ _ hparse => compile_literal hbare hwild takes_anchored hparse
    exact fun c hc => Or.inl (hliteral c hc)
  · -- the pattern consumes less than the name
    by_contra hplain
    have hmeta := not_not.mp (mt plain_iff_not_meta.mpr hplain)
    have hshorter : viewModel.username.toList.length < viewModel.username.toList.length :=
      h.takes (P := fun l => l.length < viewModel.username.toList.length)
        fun _ _ hparse => compile_shorter hbare hquantifiers hmeta weighs_anchored hparse
    exact Nat.lt_irrefl _ hshorter

/-- **The author's name is highlighted** in every caption if it has no metacharacters and ends
with a word character. Short of escapes and of repeated full stops and sets, it is not highlighted
in any caption otherwise. -/
theorem highlightsAuthor_iff (D : Dialect) (viewModel : PostViewModel)
    (hlength : 2 ≤ viewModel.username.length) :
    (IsHighlightable D viewModel.username → HighlightsAuthor D viewModel)
      ∧ (IsDecided viewModel.username →
        (HighlightsAuthor D viewModel ↔ IsHighlightable D viewModel.username)) := by
  have hgood : IsHighlightable D viewModel.username → HighlightsAuthor D viewModel :=
    fun ⟨hplain, hword⟩ => (highlightsAuthor_plain hlength hplain).mpr hword
  refine ⟨hgood, fun hdecided => ⟨fun h => ?_, hgood⟩⟩
  have hplain := plain_of_highlightsAuthor hdecided h
  exact ⟨hplain, (highlightsAuthor_plain hlength hplain).mp h⟩

end Pattern

/-! ### Two names -/

theorem token_of_isAlpha {c : Char} (h : c.isAlpha = true) : token c = .literal := by
  unfold token
  split <;> first | rfl | exact absurd h (by decide)

/-- Letters and digits of ASCII, for names without sets, escapes and special groups. -/
def asciiDialect : Dialect where
  word c := c.isAlphanum || c == '_'
  same c d := c == d || c.isAlpha && d.isAlpha && c.toLower == d.toLower
  newline c := c == '\n' || c == '\r'
  same_refl c := by simp
  space := by decide
  stop := by decide
  set _ := none
  escape _ := none
  extension _ := none
  set_closed h := absurd h (by simp)
  same_literal := by
    intro c d hsame hc
    rcases Bool.or_eq_true_iff.mp hsame with hsame | hsame
    · rw [← beq_iff_eq.mp hsame]
      exact hc
    · rw [Bool.and_eq_true, Bool.and_eq_true] at hsame
      exact token_of_isAlpha hsame.1.2

/-- A post of `username`. -/
def captioned (username caption : String) : PostViewModel :=
  ⟨{ caption := caption, likes := 0, imageUrl := "", ownerUid := "u", timestamp := ⟨0, 0⟩,
     postId := "p", ownerImageUrl := "", ownerUsername := username, hashtags := none }⟩

/-- `bob` is highlighted, and `b*` is not. -/
theorem highlightsAuthor_bob : HighlightsAuthor asciiDialect (captioned "bob" "at last")
    ∧ ¬ HighlightsAuthor asciiDialect (captioned "b*" "at last") := by
  have hplain : Plain "bob".toList := by simp [Plain, token]
  have hrepeated : ¬ Plain "b*".toList := by simp [Plain, token]
  have hwild : NoWild "b*".toList := by simp [NoWild, token]
  have hbare : Bare "b*".toList :=
    ⟨by simp [token], fun inner rest h => absurd (congrArg ('(' ∈ ·) h) (by simp)⟩
  have hbob := highlightsAuthor_iff asciiDialect (captioned "bob" "at last") (by decide)
  have hstar := highlightsAuthor_iff asciiDialect (captioned "b*" "at last") (by decide)
  refine ⟨hbob.1 ⟨hplain, by decide⟩, fun h => hrepeated ?_⟩
  exact ((hstar.2 ⟨hbare, Or.inl hwild⟩).mp h).1

/-- After `bob!` there is no word boundary. -/
theorem not_highlightsAuthor_of_formIsValid :
    ¬ ∀ (form : RegisterationViewModel) (viewModel : PostViewModel), form.formIsValid = true →
      form.username = some viewModel.username → 2 ≤ viewModel.username.length →
      HighlightsAuthor asciiDialect viewModel := by
  intro h
  have hplain : Plain (captioned "bob!" "at last").username.toList := by
    show Plain "bob!".toList
    simp [Plain, token]
  have hbob := h ⟨"bob@mail", "secret", "Bob", "bob!"⟩ (captioned "bob!" "at last") (by decide) rfl
    (by decide)
  exact absurd ((highlightsAuthor_plain (by decide) hplain).mp hbob) (by decide)

end InstaClone
