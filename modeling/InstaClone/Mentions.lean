import InstaClone.Captions
import InstaClone.Regex.Places

/-!
# Mentions and hashtags

The label of a cell also looks for mentions and hashtags: a mark at the beginning of the text or
after a space (for a mention after a full stop too), and the characters of a name after it. The
expressions for them consume the character before the mark, so a match could take from the next
one what it begins with. It does not: what leads to a mark is no part of a name. So the elements
are the marks of the text one by one (`handles_exact`), and those of a caption do not depend on
the name that the label puts before it (`label_handles`).

What Foundation makes of the two patterns is not in the repository; `Icu` is what is used of it.
-/

namespace InstaClone

open Regex

/-! ## The elements -/

/-- `ActiveType.mention` and `ActiveType.hashtag`. -/
inductive HandleType where
  | mention
  | hashtag
deriving DecidableEq, Repr

/-- `ActiveElement.mention` and `ActiveElement.hashtag`. -/
inductive HandleElement where
  | mention (word : String)
  | hashtag (word : String)
deriving DecidableEq, Repr

namespace RegexParser

def hashtagPattern : String := "(?:^|\\s|$)#[\\p{L}0-9_]*"

def mentionPattern : String := "(?:^|\\s|$|[.])@[\\p{L}0-9_]*"

end RegexParser

def HandleType.pattern : HandleType → String
  | mention => RegexParser.mentionPattern
  | hashtag => RegexParser.hashtagPattern

/-- `ActiveElement.create(with:text:)`. -/
def HandleElement.create (activeType : HandleType) (text : String) : HandleElement :=
  match activeType with
  | .mention => mention text
  | .hashtag => hashtag text

/-- `NSString.substring(with:)` from the second code unit on. Half of a pair is replaced. -/
def dropUnit : List Char → List Char
  | [] => []
  | c :: l => if utf16Size c = 1 then l else '\uFFFD' :: l

/-- `hasPrefix(_:)` for one character, which has to be a character of the text as well: what
`joins` belongs to the character before it. -/
def hasPrefix (joins : Char → Bool) (c : Char) : List Char → Bool
  | [] => false
  | d :: l => d == c && !l.head?.any joins

/-- The word of an element, without its mark. -/
def withoutMark (joins : Char → Bool) (word : List Char) : List Char :=
  if hasPrefix joins '@' word then word.tail
  else if hasPrefix joins '#' word then word.tail
  else word

/-- `ActiveBuilder.createElementsIgnoringFirstCharacter`, without a filter. -/
def ActiveBuilder.createElementsIgnoringFirstCharacter (D : Dialect) (joins : Char → Bool)
    (type : HandleType) (text : String) : List (NSRange × HandleElement) :=
  ((RegexParser.getElements D text type.pattern).filter fun m => 2 < (range m).length).map fun m =>
    (range m, .create type (String.ofList (withoutMark joins (dropUnit m.text))))

/-! ## What they are -/

/-- A mark in a text: what is before it, last character first, and what follows. -/
structure Handle where
  before : List Char
  after : List Char

namespace HandleType

def mark : HandleType → Char
  | mention => '@'
  | hashtag => '#'

/-- What may stand before the mark. -/
def leads (space : Char → Bool) : HandleType → Char → Bool
  | mention, c => space c || c == '.'
  | hashtag, c => space c

/-- The same in the pattern. -/
def opening : HandleType → List Char
  | mention => "^|\\s|$|[.]".toList
  | hashtag => "^|\\s|$".toList

end HandleType

/-- The marks of a text that begin something: those at its beginning and those with what leads to
them just before. -/
def handlesIn (leads : Char → Bool) (mark : Char) (before : List Char) : List Char → List Handle
  | [] => []
  | c :: after =>
    if c = mark ∧ before.head?.all leads = true then
      ⟨before, after⟩ :: handlesIn leads mark (c :: before) after
    else handlesIn leads mark (c :: before) after

namespace Handle

/-- The longest run of characters of a name. -/
def name (name : Char → Bool) (handle : Handle) : List Char := handle.after.takeWhile name

/-- The range begins with the character before the mark, if there is one. -/
def range (mark : Char) (name : Char → Bool) (handle : Handle) : NSRange :=
  ⟨utf16Count handle.before.tail,
    utf16Count (handle.before.head?.toList ++ mark :: handle.name name)⟩

/-- The mark stays if it is not at the beginning and makes one character with what follows. -/
def word (mark : Char) (name joins : Char → Bool) (handle : Handle) : List Char :=
  if handle.before ≠ [] ∧ (handle.name name).head?.any joins = true then
    mark :: handle.name name
  else handle.name name

end Handle

/-- **What the marks of a text come to**, short of those with too little after them. -/
def handleElements (space name joins : Char → Bool) (type : HandleType) (text : List Char) :
    List (NSRange × HandleElement) :=
  ((handlesIn (type.leads space) type.mark [] text).filter fun handle =>
      2 < (handle.range type.mark name).length).map fun handle =>
    (handle.range type.mark name, .create type (String.ofList (handle.word type.mark name joins)))

/-- How Foundation reads the two patterns. `space` is its white space, and `name` its letters,
digits and the underscore. -/
structure Icu (D : Dialect) (space name : Char → Bool) : Prop where
  group : ∀ (type : HandleType) (rest : List Char),
    D.extension (':' :: (type.opening ++ ')' :: rest))
      = (D.compile type.opening).map fun r => (r, rest)
  whitespace : ∀ rest, D.escape ('s' :: rest) = some (.set space, rest)
  fullStop : ∀ rest, D.set ('.' :: ']' :: rest) = some ((· == '.'), rest)
  letters : ∀ rest, D.set ("\\p{L}0-9_]".toList ++ rest) = some (name, rest)
  mark : ∀ (type : HandleType) c, D.same type.mark c = (c == type.mark)
  newline : ∀ type : HandleType, D.newline type.mark = false
  space_blank : space ' ' = true
  space_unit : ∀ c, space c = true → utf16Size c = 1
  space_mark : ∀ type : HandleType, space type.mark = false
  space_stop : space '.' = false
  name_space : ∀ c, name c = true → space c = false
  name_stop : name '.' = false
  name_mark : ∀ type : HandleType, name type.mark = false

/-! ## The expression -/

section Expression

variable {D : Dialect} {space name : Char → Bool} {type : HandleType}

/-- What the part before the mark compiles to. -/
def HandleType.openingRe (space : Char → Bool) : HandleType → Re
  | mention =>
    .alt (.alt (.alt (.seq .empty .start) (.seq .empty (.set space))) (.seq .empty .finish))
      (.seq .empty (.set (· == '.')))
  | hashtag => .alt (.alt (.seq .empty .start) (.seq .empty (.set space))) (.seq .empty .finish)

/-- What comes before the name. -/
def HandleType.beginsRe (space : Char → Bool) (type : HandleType) : Re :=
  .seq (.seq .empty (type.openingRe space)) (.char type.mark)

/-- The whole expression. -/
def HandleType.re (space name : Char → Bool) (type : HandleType) : Re :=
  .seq (type.beginsRe space) (.rep (.set name) 0 none .greedy)

/-- The opening alternative compiles to its expression, -/
theorem compile_opening (icu : Icu D space name) (type : HandleType) :
    D.compile type.opening = some (type.openingRe space) := by
  have hspace : ∀ rest stack frame, D.step '\\' ('s' :: rest) stack frame
      = some (rest, stack, frame.push (.set space)) := by
    intro rest stack frame
    show (D.escape ('s' :: rest)).map _ = _
    rw [icu.whitespace]
    rfl
  have hstop : ∀ stack frame, D.step '[' ['.', ']'] stack frame
      = some ([], stack, frame.push (.set (· == '.'))) := by
    intro stack frame
    show (D.set ('.' :: ']' :: [])).map _ = _
    rw [icu.fullStop]
    rfl
  cases type with
  | mention =>
    show (D.step '\\' ['s', '|', '$', '|', '[', '.', ']'] [] _).bind _ = _
    rw [hspace]
    show (D.step '[' ['.', ']'] [] _).bind _ = _
    rw [hstop]
    rfl
  | hashtag =>
    show (D.step '\\' ['s', '|', '$'] [] _).bind _ = _
    rw [hspace]
    rfl

/-- the pattern is the opening, the mark and the class of names, -/
theorem toList_pattern_handle (type : HandleType) :
    type.pattern.toList
      = '(' :: '?' :: ':' :: (type.opening
        ++ ')' :: type.mark :: '[' :: ("\\p{L}0-9_]".toList ++ ['*'])) := by
  cases type with
  | mention => rfl
  | hashtag => rfl

/-- and compiles to those in a row. -/
theorem compile_pattern (icu : Icu D space name) (type : HandleType) :
    D.compile type.pattern.toList = some (type.re space name) := by
  have hgroup : ∀ rest stack frame,
      D.step '(' ('?' :: ':' :: (type.opening ++ ')' :: rest)) stack frame
        = some (rest, stack, frame.push (type.openingRe space)) := by
    intro rest stack frame
    show (D.extension (':' :: (type.opening ++ ')' :: rest))).map _ = _
    rw [icu.group, compile_opening icu]
    rfl
  have hmark : ∀ rest stack frame, D.step type.mark rest stack frame
      = some (rest, stack, frame.push (.char type.mark)) := by
    cases type with
    | mention => exact fun _ _ _ => rfl
    | hashtag => exact fun _ _ _ => rfl
  have hname : ∀ rest stack frame, D.step '[' ("\\p{L}0-9_]".toList ++ rest) stack frame
      = some (rest, stack, frame.push (.set name)) := by
    intro rest stack frame
    show (D.set ("\\p{L}0-9_]".toList ++ rest)).map _ = _
    rw [icu.letters]
    rfl
  -- four steps, however long the opening is
  obtain ⟨n, hn⟩ : ∃ n, type.pattern.toList.length + 1 = n + 5 := by
    refine ⟨type.pattern.toList.length - 4, ?_⟩
    rw [toList_pattern_handle]
    simp only [List.length_cons, List.length_append]
    omega
  rw [Dialect.compile, hn, toList_pattern_handle]
  show (D.step '(' _ [] {}).bind _ = _
  rw [hgroup]
  show (D.step type.mark _ [] _).bind _ = _
  rw [hmark]
  show (D.step '[' ("\\p{L}0-9_]".toList ++ ['*']) [] _).bind _ = _
  rw [hname]
  rfl

/-! ### What it matches -/

/-- Past a mark, at the beginning of the text or after what leads to one. -/
def pastMark (leads : Char → Bool) (mark : Char) (before : List Char) : List Char → List Cursor
  | [] => []
  | c :: after =>
    if c = mark then if before = [] then [⟨[mark], after⟩] else []
    else if leads c = true then Cursor.next (· == mark) ⟨c :: before, after⟩
    else []

/-- A mark does not lead a handle, -/
theorem Icu.leads_mark (icu : Icu D space name) (type : HandleType) :
    type.leads space type.mark = false := by
  cases type with
  | mention =>
    show (space '@' || false) = false
    rw [Bool.or_false]
    exact icu.space_mark .mention
  | hashtag => exact icu.space_mark .hashtag

/-- nor does a character of a name. -/
theorem Icu.leads_name (icu : Icu D space name) (type : HandleType) {c : Char}
    (h : name c = true) : type.leads space c = false := by
  cases type with
  | mention =>
    have hstop : (c == '.') = false := by
      by_contra hc
      rw [eq_of_beq (eq_true_of_ne_false hc), icu.name_stop] at h
      exact absurd h (by simp)
    show (space c || c == '.') = false
    rw [hstop, Bool.or_false]
    exact icu.name_space c h
  | hashtag => exact icu.name_space c h

/-- What leads a handle is one UTF-16 unit. -/
theorem Icu.leads_unit (icu : Icu D space name) (type : HandleType) {c : Char}
    (h : type.leads space c = true) : utf16Size c = 1 := by
  cases type with
  | mention =>
    rcases Bool.or_eq_true_iff.mp h with h | h
    · exact icu.space_unit c h
    · rw [eq_of_beq h]
      rfl
  | hashtag => exact icu.space_unit c h

/-- The end of a text is no place for a mark. -/
theorem flatMap_atEnd {A : Alphabet} {mark : Char} (hnewline : A.newline mark = false)
    (hreturn : mark ≠ '\r') (x : Cursor) :
    (x.stay (x.atEnd A)).flatMap (Cursor.next (· == mark)) = [] := by
  obtain ⟨before, after⟩ := x
  cases after with
  | nil => rfl
  | cons c after =>
    by_cases hc : c = mark
    · have hend : (⟨before, c :: after⟩ : Cursor).atEnd A = false := by
        subst hc
        match after with
        | [] => exact hnewline
        | [d] =>
          show (c == '\r' && d == '\n') = false
          rw [beq_eq_false_iff_ne.mpr hreturn, Bool.false_and]
        | _ :: _ :: _ => rfl
      rw [hend]
      rfl
    · have hnext : Cursor.next (· == mark) ⟨before, c :: after⟩ = [] := by
        rw [Cursor.next, if_neg (by simpa using hc)]
      cases (⟨before, c :: after⟩ : Cursor).atEnd A with
      | false => rfl
      | true =>
        show List.flatMap _ [_] = _
        rw [List.flatMap_singleton, hnext]

/-- Past a character of either kind, if none is of both. -/
theorem next_append {p q : Char → Bool} (h : ∀ c, p c = true → q c = false) (x : Cursor) :
    x.next p ++ x.next q = x.next fun c => p c || q c := by
  obtain ⟨before, after⟩ := x
  cases after with
  | nil => rfl
  | cons c after =>
    rw [Cursor.next, Cursor.next, Cursor.next]
    by_cases hp : p c = true
    · rw [if_pos hp, if_neg (by rw [h c hp]; simp), if_pos (by rw [hp]; rfl)]
      rfl
    · have hp : p c = false := eq_false_of_ne_true hp
      rw [hp, Bool.false_or]
      rfl

/-- The opening matches at the start of the text, or behind a character that leads. -/
theorem run_openingRe (icu : Icu D space name) (type : HandleType) (x : Cursor) :
    ((type.openingRe space).run D.toAlphabet x).flatMap (Cursor.next (· == type.mark))
      = (x.stay x.before.isEmpty ++ x.next (type.leads space)).flatMap
        (Cursor.next (· == type.mark)) := by
  have hend := flatMap_atEnd (A := D.toAlphabet) (icu.newline type) (by cases type <;> decide) x
  have hseq : ∀ r : Re, (Re.seq .empty r).run D.toAlphabet x = r.run D.toAlphabet x := by
    intro r
    show List.flatMap _ [_] = _
    rw [List.flatMap_singleton]
  cases type with
  | mention =>
    have hleads : x.next space ++ x.next (· == '.') = x.next (HandleType.mention.leads space) := by
      refine next_append (fun c hc => ?_) x
      by_contra hstop
      rw [eq_of_beq (eq_true_of_ne_false hstop), icu.space_stop] at hc
      exact absurd hc (by simp)
    show (((Re.seq .empty .start).run _ x ++ (Re.seq .empty (.set space)).run _ x
      ++ (Re.seq .empty .finish).run _ x ++ (Re.seq .empty (.set _)).run _ x)).flatMap _ = _
    rw [hseq, hseq, hseq, hseq, ← hleads]
    simp only [List.flatMap_append]
    rw [show (Re.finish.run D.toAlphabet x).flatMap
      (Cursor.next (· == HandleType.mention.mark)) = [] from hend,
      List.append_nil, List.append_assoc]
    rfl
  | hashtag =>
    show (((Re.seq .empty .start).run _ x ++ (Re.seq .empty (.set space)).run _ x
      ++ (Re.seq .empty .finish).run _ x)).flatMap _ = _
    rw [hseq, hseq, hseq]
    simp only [List.flatMap_append]
    rw [show (Re.finish.run D.toAlphabet x).flatMap
      (Cursor.next (· == HandleType.hashtag.mark)) = [] from hend, List.append_nil]
    rfl

/-- With the mark it leaves the cursor behind the mark. -/
theorem run_beginsRe (icu : Icu D space name) (type : HandleType) (before after : List Char) :
    (type.beginsRe space).run D.toAlphabet ⟨before, after⟩
      = pastMark (type.leads space) type.mark before after := by
  have hsame : D.same type.mark = (· == type.mark) := funext (icu.mark type)
  show ((Re.seq .empty (type.openingRe space)).run _ _).flatMap (Cursor.next (D.same type.mark)) = _
  rw [hsame, show (Re.seq .empty (type.openingRe space)).run D.toAlphabet ⟨before, after⟩
      = (type.openingRe space).run D.toAlphabet ⟨before, after⟩ from List.flatMap_singleton ..,
    run_openingRe icu, List.flatMap_append]
  cases after with
  | nil => cases before <;> rfl
  | cons c after =>
    have hstart : (Cursor.stay before.isEmpty ⟨before, c :: after⟩).flatMap
        (Cursor.next (· == type.mark))
          = if c = type.mark then if before = [] then [⟨[type.mark], after⟩] else [] else [] := by
      cases before with
      | nil =>
        show List.flatMap _ [_] = _
        rw [List.flatMap_singleton, Cursor.next]
        by_cases hc : c = type.mark
        · rw [if_pos (by simpa using hc), if_pos hc, if_pos rfl, hc]
        · rw [if_neg (by simpa using hc), if_neg hc]
      | cons b before =>
        show [] = _
        rw [if_neg (List.cons_ne_nil b before), ite_self]
    rw [pastMark]
    by_cases hc : c = type.mark
    · have hleads : Cursor.next (type.leads space) ⟨before, c :: after⟩ = [] := by
        rw [Cursor.next, if_neg (by rw [hc, icu.leads_mark type]; simp)]
      rw [hstart, hleads, if_pos hc, if_pos hc, List.flatMap_nil, List.append_nil]
    · rw [hstart, if_neg hc, List.nil_append, if_neg hc, Cursor.next]
      by_cases hleads : type.leads space c = true
      · rw [if_pos hleads, if_pos hleads, List.flatMap_singleton]
      · rw [if_neg hleads, if_neg hleads, List.flatMap_nil]

/-- What consumes a mark: from where to where. -/
inductive PastMark (leads : Char → Bool) (mark : Char) : Cursor → Cursor → Prop
  | start (after : List Char) : PastMark leads mark ⟨[], mark :: after⟩ ⟨[mark], after⟩
  | led {c : Char} (h : leads c = true) (before after : List Char) :
      PastMark leads mark ⟨before, c :: mark :: after⟩ ⟨mark :: c :: before, after⟩

/-- At most one thing begins at a place. -/
theorem pastMark_cases (leads : Char → Bool) (mark : Char) (before after : List Char) :
    pastMark leads mark before after = []
      ∨ ∃ y, pastMark leads mark before after = [y] ∧ PastMark leads mark ⟨before, after⟩ y := by
  cases after with
  | nil => exact Or.inl rfl
  | cons c after =>
    rw [pastMark]
    by_cases hc : c = mark
    · rw [if_pos hc]
      by_cases hbefore : before = []
      · subst hc hbefore
        exact Or.inr ⟨_, rfl, .start after⟩
      · exact Or.inl (if_neg hbefore)
    · rw [if_neg hc]
      by_cases hleads : leads c = true
      · rw [if_pos hleads]
        cases after with
        | nil => exact Or.inl rfl
        | cons d after =>
          rw [Cursor.next]
          by_cases hd : d = mark
          · subst hd
            exact Or.inr ⟨_, if_pos (by simp), .led hleads before after⟩
          · exact Or.inl (if_neg (by simpa using hd))
      · exact Or.inl (if_neg hleads)

/-- As far as the name goes. -/
def pastName (name : Char → Bool) (y : Cursor) : Cursor :=
  ⟨(y.after.takeWhile name).reverse ++ y.before, y.after.dropWhile name⟩

/-- The whole expression goes on to the names from there. -/
theorem run_re (icu : Icu D space name) (type : HandleType) (before after : List Char) :
    (type.re space name).run D.toAlphabet ⟨before, after⟩
      = (pastMark (type.leads space) type.mark before after).flatMap
        ((Re.rep (.set name) 0 none .greedy).run D.toAlphabet) := by
  rw [← run_beginsRe icu]
  rfl

/-- The first end of a match. -/
theorem head?_re (icu : Icu D space name) (type : HandleType) (before after : List Char) :
    ((type.re space name).run D.toAlphabet ⟨before, after⟩).head?
      = (pastMark (type.leads space) type.mark before after).head?.map (pastName name) := by
  rw [run_re icu]
  rcases pastMark_cases (type.leads space) type.mark before after with hnil | ⟨y, hy, -⟩
  · rw [hnil]
    rfl
  · rw [hy, List.flatMap_singleton]
    exact head?_star D.toAlphabet name y.before y.after

/-- After the first character that a match consumes there is nothing that leads to a mark. -/
theorem consumed_of_pastMark (icu : Icu D space name) (type : HandleType) {x y : Cursor}
    (h : PastMark (type.leads space) type.mark x y) :
    ∃ c l, x.To (pastName name y) (c :: l) ∧ ∀ d ∈ l, type.leads space d = false := by
  have hname : ∀ after : List Char, ∀ d ∈ after.takeWhile name, type.leads space d = false :=
    fun after d hd => icu.leads_name type (List.all_eq_true.mp List.all_takeWhile d hd)
  cases h with
  | start after =>
    refine ⟨type.mark, after.takeWhile name, ⟨?_, ?_⟩, hname after⟩
    · show type.mark :: after = type.mark :: (after.takeWhile name ++ after.dropWhile name)
      rw [List.takeWhile_append_dropWhile]
    · show (after.takeWhile name).reverse ++ [type.mark] = _
      rw [List.reverse_cons, List.append_nil]
  | led hc before after =>
    rename_i c
    refine ⟨c, type.mark :: after.takeWhile name, ⟨?_, ?_⟩, fun d hd => ?_⟩
    · show c :: type.mark :: after
        = c :: type.mark :: (after.takeWhile name ++ after.dropWhile name)
      rw [List.takeWhile_append_dropWhile]
    · show (after.takeWhile name).reverse ++ type.mark :: c :: before = _
      rw [List.reverse_cons, List.reverse_cons, List.append_assoc, List.append_assoc]
      rfl
    · rcases List.mem_cons.mp hd with rfl | hd
      · exact icu.leads_mark type
      · exact hname after d hd

/-- **Matches keep apart.** -/
theorem apart_re (icu : Icu D space name) (type : HandleType) :
    Apart D.toAlphabet (type.re space name) := by
  have hbegins : ∀ {x y : Cursor},
      ((type.re space name).run D.toAlphabet x).head? = some y →
      ∃ c l, x.To y (c :: l) ∧ ∀ d ∈ l, type.leads space d = false := by
    intro x y hy
    obtain ⟨before, after⟩ := x
    rw [head?_re icu] at hy
    obtain ⟨mid, hmid, rfl⟩ := Option.map_eq_some_iff.mp hy
    rcases pastMark_cases (type.leads space) type.mark before after with hnil | ⟨y, hy, hbegins⟩
    · rw [hnil] at hmid
      exact absurd hmid (by simp)
    · rw [hy] at hmid
      obtain rfl := Option.some.inj hmid
      exact consumed_of_pastMark icu type hbegins
  refine ⟨fun hy => ?_, fun {x y z l l'} hy hxz hzy hl hl' => ?_⟩
  · obtain ⟨c, l, hto, -⟩ := hbegins hy
    exact ⟨c :: l, List.cons_ne_nil c l, hto⟩
  · obtain ⟨c, tail, hto, htail⟩ := hbegins hy
    -- what follows a place within the match leads to nothing
    have hsplit : l ++ l' = c :: tail :=
      List.append_cancel_right ((hxz.trans hzy).1.symm.trans hto.1)
    obtain ⟨d, l, rfl⟩ := List.exists_cons_of_ne_nil hl
    obtain ⟨e, l', rfl⟩ := List.exists_cons_of_ne_nil hl'
    have he : type.leads space e = false := by
      refine htail e ?_
      rw [← (List.cons.inj hsplit).2]
      simp
    obtain ⟨before, after⟩ := z
    obtain rfl : after = e :: (l' ++ y.after) := hzy.1
    have hbefore : before ≠ [] := by
      rw [show before = _ from hxz.2]
      simp
    have hnone : pastMark (type.leads space) type.mark before (e :: (l' ++ y.after)) = [] := by
      simp [pastMark, hbefore, he]
    rw [run_re icu, hnone, List.flatMap_nil]

/-! ### All of them -/

/-- The match that belongs to a mark. -/
def Handle.found (mark : Char) (name : Char → Bool) (handle : Handle) : Match :=
  ⟨⟨handle.before.tail, handle.before.head?.toList ++ mark :: handle.after⟩,
    pastName name ⟨mark :: handle.before, handle.after⟩⟩

/-- The mark that follows, if what is before leads to it. Its match begins before it. -/
def ledHere (leads : Char → Bool) (mark : Char) : List Char → List Char → List Handle
  | b :: before, c :: after =>
    if c = mark ∧ leads b = true then [⟨b :: before, after⟩] else []
  | _, _ => []

/-- The mark at a place, if there is one that begins something. -/
def markHere (leads : Char → Bool) (mark : Char) (before : List Char) (c : Char)
    (after : List Char) : List Handle :=
  if c = mark ∧ before.head?.all leads = true then [⟨before, after⟩] else []

/-- The handles of a text are the one here and those further on. -/
theorem handlesIn_cons (leads : Char → Bool) (mark : Char) (before : List Char) (c : Char)
    (after : List Char) :
    handlesIn leads mark before (c :: after)
      = markHere leads mark before c after ++ handlesIn leads mark (c :: before) after := by
  rw [handlesIn, markHere]
  split
  next => rfl
  next => rfl

/-- The match at a place is the longest name behind its mark. -/
theorem matchAt_re (icu : Icu D space name) (type : HandleType) (before after : List Char) :
    matchAt D.toAlphabet (type.re space name) before after
      = (pastMark (type.leads space) type.mark before after).head?.map fun y =>
        ⟨⟨before, after⟩, pastName name y⟩ := by
  unfold matchAt
  rw [head?_re icu, Option.map_map]
  rfl

/-- What a place adds to the marks and to the matches. -/
theorem here_eq (icu : Icu D space name) (type : HandleType) (before : List Char) (c : Char)
    (after : List Char) :
    (markHere (type.leads space) type.mark before c after
        ++ ledHere (type.leads space) type.mark (c :: before) after).map
          (Handle.found type.mark name)
      = (ledHere (type.leads space) type.mark before (c :: after)).map
          (Handle.found type.mark name)
        ++ (matchAt D.toAlphabet (type.re space name) before (c :: after)).toList := by
  rw [matchAt_re icu, pastMark, markHere]
  by_cases hc : c = type.mark
  · subst hc
    have hled : ledHere (type.leads space) type.mark (type.mark :: before) after = [] := by
      cases after with
      | nil => rfl
      | cons d after =>
        rw [ledHere, icu.leads_mark type]
        simp
    rw [hled, List.append_nil, if_pos rfl]
    cases before with
    | nil =>
      rw [if_pos ⟨rfl, rfl⟩, if_pos rfl]
      rfl
    | cons b before =>
      rw [if_neg (List.cons_ne_nil b before), ledHere]
      simp
  · have hled : ledHere (type.leads space) type.mark before (c :: after) = [] := by
      cases before with
      | nil => rfl
      | cons b before => rw [ledHere, if_neg fun h => hc h.1]
    rw [hled, if_neg fun h => hc h.1, if_neg hc, List.nil_append, List.map_nil, List.nil_append]
    cases after with
    | nil =>
      have hnext : Cursor.next (· == type.mark) ⟨c :: before, []⟩ = [] := rfl
      rw [hnext, ite_self]
      rfl
    | cons d after =>
      rw [ledHere, Cursor.next]
      by_cases hleads : type.leads space c = true
      · rw [if_pos hleads]
        by_cases hd : d = type.mark
        · subst hd
          rw [if_pos ⟨rfl, hleads⟩, if_pos (by simp)]
          rfl
        · rw [if_neg fun h => hd h.1, if_neg (by simpa using hd)]
          rfl
      · rw [if_neg hleads, if_neg fun h => hleads h.2]
        rfl

/-- The matches at the places from here on are those of the marks from here on; that of the first
may have begun before. -/
theorem map_found (icu : Icu D space name) (type : HandleType) (before after : List Char) :
    (handlesIn (type.leads space) type.mark before after).map (Handle.found type.mark name)
      = (ledHere (type.leads space) type.mark before after).map (Handle.found type.mark name)
        ++ places D.toAlphabet (type.re space name) before after := by
  induction after generalizing before with
  | nil =>
    have hled : ledHere (type.leads space) type.mark before [] = [] := by cases before <;> rfl
    rw [hled, places, matchAt_re icu]
    rfl
  | cons c after ih =>
    rw [handlesIn_cons, List.map_append, ih, ← List.append_assoc, ← List.map_append,
      here_eq icu, List.append_assoc]
    rfl

/-- **The expression finds the marks.** -/
theorem getElements_handles (icu : Icu D space name) (type : HandleType) (text : String) :
    RegexParser.getElements D text type.pattern
      = (handlesIn (type.leads space) type.mark [] text.toList).map
        (Handle.found type.mark name) := by
  have hled : ledHere (type.leads space) type.mark [] text.toList = [] := by
    cases text.toList <;> rfl
  rw [map_found icu, hled, List.map_nil, List.nil_append, RegexParser.getElements,
    compile_pattern icu]
  exact matchesIn_eq_places (apart_re icu type) _

/-! ## The elements of a text -/

/-- A handle is led by a leading character, or by nothing. -/
theorem leads_of_mem {leads : Char → Bool} {mark : Char} {before after : List Char}
    {handle : Handle} (h : handle ∈ handlesIn leads mark before after) :
    handle.before.head?.all leads = true := by
  induction after generalizing before with
  | nil => exact absurd h List.not_mem_nil
  | cons c after ih =>
    rw [handlesIn_cons] at h
    rcases List.mem_append.mp h with h | h
    · unfold markHere at h
      split at h
      next hhere =>
        obtain rfl := List.mem_singleton.mp h
        exact hhere.2
      next => exact absurd h List.not_mem_nil
    · exact ih h

/-- What the match of a mark consumes. -/
theorem text_found (mark : Char) (name : Char → Bool) (handle : Handle) :
    (handle.found mark name).text
      = handle.before.head?.toList ++ mark :: handle.name name := by
  obtain ⟨before, after⟩ := handle
  refine Match.text_of_to ⟨?_, ?_⟩
  · show before.head?.toList ++ mark :: after
      = before.head?.toList ++ mark :: after.takeWhile name ++ after.dropWhile name
    rw [List.append_assoc, List.cons_append, List.takeWhile_append_dropWhile]
  · show (after.takeWhile name).reverse ++ mark :: before
      = (before.head?.toList ++ mark :: after.takeWhile name).reverse ++ before.tail
    cases before with
    | nil => simp
    | cons b before => simp

/-- The element found has the range of its handle. -/
theorem range_found (mark : Char) (name : Char → Bool) (handle : Handle) :
    InstaClone.range (handle.found mark name) = handle.range mark name := by
  unfold InstaClone.range
  rw [text_found]
  rfl

theorem hasPrefix_ne {joins : Char → Bool} {c d : Char} (h : d ≠ c) (l : List Char) :
    hasPrefix joins c (d :: l) = false := by
  rw [hasPrefix, beq_eq_false_iff_ne.mpr h, Bool.false_and]

theorem dropUnit_cons {c : Char} (h : utf16Size c = 1) (l : List Char) : dropUnit (c :: l) = l := by
  rw [dropUnit, if_pos h]

/-- A word that begins with its mark loses it, unless the mark is part of a character. -/
theorem withoutMark_mark (joins : Char → Bool) (type : HandleType) (l : List Char) :
    withoutMark joins (type.mark :: l)
      = if l.head?.any joins = true then type.mark :: l else l := by
  have hself : hasPrefix joins type.mark (type.mark :: l) = !l.head?.any joins := by
    rw [hasPrefix, beq_self_eq_true, Bool.true_and]
  unfold withoutMark
  cases type with
  | mention =>
    rw [show hasPrefix joins '@' (HandleType.mention.mark :: l) = !l.head?.any joins from hself,
      hasPrefix_ne (by decide : HandleType.mention.mark ≠ '#') l]
    cases l.head?.any joins <;> rfl
  | hashtag =>
    rw [show hasPrefix joins '#' (HandleType.hashtag.mark :: l) = !l.head?.any joins from hself,
      hasPrefix_ne (by decide : HandleType.hashtag.mark ≠ '@') l]
    cases l.head?.any joins <;> rfl

/-- The word of a mark, however the match begins. -/
theorem word_found (icu : Icu D space name) {joins : Char → Bool} {type : HandleType}
    {handle : Handle} (h : handle.before.head?.all (type.leads space) = true) :
    withoutMark joins (dropUnit (handle.found type.mark name).text)
      = handle.word type.mark name joins := by
  rw [text_found]
  obtain ⟨before, after⟩ := handle
  unfold Handle.word
  cases before with
  | nil =>
    have hunit : utf16Size type.mark = 1 := by cases type <;> rfl
    have hname : ∀ d ∈ (after.takeWhile name).head?, name d = true := fun d hd =>
      List.all_eq_true.mp List.all_takeWhile d (List.mem_of_mem_head? hd)
    rw [if_neg fun h => h.1 rfl]
    show withoutMark joins (dropUnit (type.mark :: after.takeWhile name)) = after.takeWhile name
    rw [dropUnit_cons hunit]
    cases hword : after.takeWhile name with
    | nil => rfl
    | cons d l =>
      rw [hword] at hname
      have hd : ∀ type : HandleType, hasPrefix joins type.mark (d :: l) = false := by
        intro type
        refine hasPrefix_ne (fun heq => ?_) l
        have hmark := hname d rfl
        rw [heq, icu.name_mark type] at hmark
        exact absurd hmark (by simp)
      unfold withoutMark
      rw [show hasPrefix joins '@' (d :: l) = false from hd .mention,
        show hasPrefix joins '#' (d :: l) = false from hd .hashtag]
      rfl
  | cons b before =>
    show withoutMark joins (dropUnit (b :: type.mark :: after.takeWhile name)) = _
    rw [dropUnit_cons (icu.leads_unit type h), withoutMark_mark]
    by_cases hjoins : (after.takeWhile name).head?.any joins = true
    · rw [if_pos hjoins, if_pos ⟨List.cons_ne_nil b before, hjoins⟩]
      rfl
    · rw [if_neg hjoins, if_neg fun h => hjoins h.2]
      rfl

/-- **The elements of a text are its marks**, one by one: each at the beginning or after what leads
to it, with the longest name there is, as long as there is enough of it. -/
theorem handles_exact (icu : Icu D space name) (joins : Char → Bool) (type : HandleType)
    (text : String) :
    ActiveBuilder.createElementsIgnoringFirstCharacter D joins type text
      = handleElements space name joins type text.toList := by
  unfold ActiveBuilder.createElementsIgnoringFirstCharacter handleElements
  rw [getElements_handles icu, List.filter_map, List.map_map]
  have hfilter : ((fun m : Match => decide (2 < (InstaClone.range m).length))
      ∘ Handle.found type.mark name)
      = fun handle => decide (2 < (handle.range type.mark name).length) :=
    funext fun handle => by rw [Function.comp_apply, range_found]
  rw [hfilter]
  refine List.map_congr_left fun handle hmem => ?_
  have hleads := leads_of_mem (List.mem_of_mem_filter hmem)
  rw [Function.comp_apply, range_found, word_found icu hleads]

/-! ## The elements of a label -/

/-- Further on in a text. -/
def NSRange.shift (n : Nat) (range : NSRange) : NSRange := ⟨range.location + n, range.length⟩

/-- UTF-16 units add up, -/
theorem utf16Count_append (l l' : List Char) :
    utf16Count (l ++ l') = utf16Count l + utf16Count l' := by
  unfold utf16Count
  rw [List.map_append, List.sum_append]

/-- in either order. -/
theorem utf16Count_reverse (l : List Char) : utf16Count l.reverse = utf16Count l := by
  unfold utf16Count
  rw [List.map_reverse, List.sum_reverse]

/-- More text follows. -/
def Handle.ahead (more : List Char) (handle : Handle) : Handle :=
  ⟨handle.before, handle.after ++ more⟩

/-- More text comes before. -/
def Handle.behind (more : List Char) (handle : Handle) : Handle :=
  ⟨handle.before ++ more, handle.after⟩

/-- The handles of two texts in a row: those of the first with more ahead, those of the second with
more behind. -/
theorem handlesIn_append (leads : Char → Bool) (mark : Char) (before l l' : List Char) :
    handlesIn leads mark before (l ++ l')
      = (handlesIn leads mark before l).map (Handle.ahead l')
        ++ handlesIn leads mark (l.reverse ++ before) l' := by
  induction l generalizing before with
  | nil => rfl
  | cons c l ih =>
    have hhere : markHere leads mark before c (l ++ l')
        = (markHere leads mark before c l).map (Handle.ahead l') := by
      unfold markHere
      split
      next => rfl
      next => rfl
    rw [List.cons_append, handlesIn_cons, handlesIn_cons, ih, hhere, List.map_append,
      List.append_assoc, List.reverse_cons, List.append_assoc]
    rfl

/-- What is farther before than the last character makes no difference. -/
theorem handlesIn_behind (leads : Char → Bool) (mark b : Char) (before more after : List Char) :
    handlesIn leads mark (b :: before ++ more) after
      = (handlesIn leads mark (b :: before) after).map (Handle.behind more) := by
  induction after generalizing b before with
  | nil => rfl
  | cons c after ih =>
    have hhere : markHere leads mark (b :: before ++ more) c after
        = (markHere leads mark (b :: before) c after).map (Handle.behind more) := by
      unfold markHere
      show (if c = mark ∧ leads b = true then _ else _)
        = List.map _ (if c = mark ∧ leads b = true then _ else _)
      split
      next => rfl
      next => rfl
    rw [handlesIn_cons, handlesIn_cons, List.map_append, ← ih, hhere]
    rfl

/-- A mark after the beginning has something before it. -/
theorem before_of_mem {leads : Char → Bool} {mark b : Char} {before after : List Char}
    {handle : Handle} (h : handle ∈ handlesIn leads mark (b :: before) after) :
    handle.before ≠ [] := by
  induction after generalizing b before with
  | nil => exact absurd h List.not_mem_nil
  | cons c after ih =>
    rw [handlesIn_cons] at h
    rcases List.mem_append.mp h with h | h
    · unfold markHere at h
      split at h
      next =>
        rw [List.mem_singleton.mp h]
        exact List.cons_ne_nil b before
      next => exact absurd h List.not_mem_nil
    · exact ih h

/-- A name ends with a space. -/
theorem Icu.name_ahead (icu : Icu D space name) (more : List Char) (handle : Handle) :
    (handle.ahead (' ' :: more)).name name = handle.name name := by
  have hblank : name ' ' = false := by
    by_contra hname
    have hspace := icu.name_space ' ' (eq_true_of_ne_false hname)
    rw [icu.space_blank] at hspace
    exact absurd hspace (by simp)
  show (handle.after ++ ' ' :: more).takeWhile name = handle.after.takeWhile name
  induction handle.after with
  | nil => exact List.takeWhile_cons_of_neg (by rw [hblank]; simp)
  | cons c after ih =>
    rw [List.cons_append, List.takeWhile_cons, List.takeWhile_cons, ih]

/-- More text in front shifts the range. -/
theorem range_behind {mark : Char} {handle : Handle} (h : handle.before ≠ []) (more : List Char) :
    (handle.behind more).range mark name = (handle.range mark name).shift (utf16Count more) := by
  obtain ⟨before, after⟩ := handle
  cases before with
  | nil => exact absurd rfl h
  | cons b before =>
    have hlocation : utf16Count (before ++ more) = utf16Count before + utf16Count more :=
      utf16Count_append before more
    show (⟨utf16Count (before ++ more), _⟩ : NSRange) = ⟨utf16Count before + utf16Count more, _⟩
    rw [hlocation]
    rfl

/-- The element of a mark, if there is enough of it. -/
def Handle.elements (name joins : Char → Bool) (type : HandleType) (handle : Handle) :
    List (NSRange × HandleElement) :=
  if 2 < (handle.range type.mark name).length then
    [(handle.range type.mark name,
      .create type (String.ofList (handle.word type.mark name joins)))]
  else []

theorem handleElements_eq (joins : Char → Bool) (type : HandleType) (text : List Char) :
    handleElements space name joins type text
      = (handlesIn (type.leads space) type.mark [] text).flatMap
        (Handle.elements name joins type) := by
  unfold handleElements
  induction handlesIn (type.leads space) type.mark [] text with
  | nil => rfl
  | cons handle handles ih =>
    rw [List.flatMap_cons, ← ih, Handle.elements, List.filter_cons]
    by_cases hlong : 2 < (handle.range type.mark name).length
    · rw [if_pos (decide_eq_true hlong), if_pos hlong]
      rfl
    · rw [if_neg (by simpa using hlong), if_neg hlong]
      rfl

/-- A space behind a text leaves its elements, -/
theorem elements_ahead (icu : Icu D space name) (joins : Char → Bool) (type : HandleType)
    (more : List Char) (handle : Handle) :
    (handle.ahead (' ' :: more)).elements name joins type = handle.elements name joins type := by
  have hrange : (handle.ahead (' ' :: more)).range type.mark name
      = handle.range type.mark name := by
    unfold Handle.range
    rw [icu.name_ahead]
    rfl
  unfold Handle.elements Handle.word
  rw [hrange, icu.name_ahead]
  rfl

/-- and a text in front shifts them. -/
theorem elements_behind (joins : Char → Bool) (type : HandleType) {handle : Handle}
    (h : handle.before ≠ []) (more : List Char) :
    (handle.behind more).elements name joins type
      = (handle.elements name joins type).map fun x => (x.1.shift (utf16Count more), x.2) := by
  have hword : (handle.behind more).word type.mark name joins
      = handle.word type.mark name joins := by
    have hbehind : (handle.behind more).before ≠ [] := List.append_ne_nil_of_left_ne_nil h _
    unfold Handle.word
    simp only [h, hbehind, ne_eq, not_false_eq_true, true_and]
    rfl
  unfold Handle.elements
  rw [range_behind h, hword]
  show (if 2 < (handle.range type.mark name).length then _ else _) = _
  split
  next => rfl
  next => rfl

/-- A space begins nothing. -/
theorem handlesIn_blank (leads : Char → Bool) (type : HandleType) (before after : List Char) :
    handlesIn leads type.mark before (' ' :: after)
      = handlesIn leads type.mark (' ' :: before) after := by
  rw [handlesIn_cons, markHere, if_neg fun h => absurd h.1 (by cases type <;> decide)]
  rfl

/-- **The elements of a label** are those of the name, and those of the caption, which come as
much later as the name is long and are the same for every name. -/
theorem label_handles (icu : Icu D space name) (joins : Char → Bool) (type : HandleType)
    (viewModel : PostViewModel) :
    ActiveBuilder.createElementsIgnoringFirstCharacter D joins type viewModel.labelText
      = ActiveBuilder.createElementsIgnoringFirstCharacter D joins type viewModel.username
        ++ (ActiveBuilder.createElementsIgnoringFirstCharacter D joins type
            (" " ++ viewModel.caption)).map
          fun x => (x.1.shift (utf16Count viewModel.username.toList), x.2) := by
  have hname : (handlesIn (type.leads space) type.mark [] viewModel.username.toList).flatMap
      (fun handle => (handle.ahead (' ' :: viewModel.caption.toList)).elements name joins type)
        = handleElements space name joins type viewModel.username.toList := by
    rw [handleElements_eq]
    exact List.flatMap_congr fun handle _ => elements_ahead icu joins type _ handle
  have hcaption : (handlesIn (type.leads space) type.mark [' ']
      viewModel.caption.toList).flatMap
        (fun handle => (handle.behind viewModel.username.toList.reverse).elements name joins type)
        = (handleElements space name joins type (' ' :: viewModel.caption.toList)).map
          fun x => (x.1.shift (utf16Count viewModel.username.toList), x.2) := by
    rw [handleElements_eq, handlesIn_blank, List.map_flatMap, ← utf16Count_reverse]
    exact List.flatMap_congr fun handle hmem =>
      elements_behind joins type (before_of_mem hmem) _
  rw [handles_exact icu, handles_exact icu, handles_exact icu, toList_labelText,
    String.toList_append, show " ".toList ++ viewModel.caption.toList
      = ' ' :: viewModel.caption.toList from rfl, ← hname, ← hcaption, handleElements_eq,
    handlesIn_append, List.append_nil, handlesIn_blank, List.flatMap_append, List.flatMap_map]
  refine congrArg (_ ++ ·) ?_
  rw [show ' ' :: viewModel.username.toList.reverse
    = ' ' :: [] ++ viewModel.username.toList.reverse from rfl, handlesIn_behind, List.flatMap_map]

end Expression

/-! ### Two texts -/

/-- `asciiDialect`, with what the two patterns need. -/
def asciiIcu : Dialect :=
  { asciiDialect with
    set := fun pattern =>
      match pattern with
      | '.' :: ']' :: rest => some ((· == '.'), rest)
      | '\\' :: 'p' :: '{' :: 'L' :: '}' :: '0' :: '-' :: '9' :: '_' :: ']' :: rest =>
        some (fun c => c.isAlphanum || c == '_', rest)
      | _ => none
    escape := fun pattern =>
      match pattern with
      | 's' :: rest => some (.set Char.isWhitespace, rest)
      | _ => none
    extension := fun pattern =>
      match pattern with
      | ':' :: '^' :: '|' :: '\\' :: 's' :: '|' :: '$' :: ')' :: rest =>
        some (HandleType.hashtag.openingRe Char.isWhitespace, rest)
      | ':' :: '^' :: '|' :: '\\' :: 's' :: '|' :: '$' :: '|' :: '[' :: '.' :: ']' :: ')' :: rest =>
        some (HandleType.mention.openingRe Char.isWhitespace, rest)
      | _ => none
    set_closed := by
      intro pattern p rest h
      split at h
      next =>
        obtain ⟨-, rfl⟩ := Prod.mk.inj (Option.some.inj h)
        exact ⟨['.'], rfl⟩
      next =>
        obtain ⟨-, rfl⟩ := Prod.mk.inj (Option.some.inj h)
        exact ⟨"\\p{L}0-9_".toList, rfl⟩
      next => exact absurd h (by simp) }

theorem isWhitespace_cases {c : Char} (h : c.isWhitespace = true) :
    c = ' ' ∨ c = '\t' ∨ c = '\r' ∨ c = '\n' := by
  unfold Char.isWhitespace at h
  simpa [or_assoc] using h

theorem icu_asciiIcu :
    Icu asciiIcu Char.isWhitespace fun c => c.isAlphanum || c == '_' where
  group type rest := by cases type <;> rfl
  whitespace rest := rfl
  fullStop rest := rfl
  letters rest := rfl
  mark type c := by
    have hsame : asciiIcu.same type.mark c = (type.mark == c) := by
      cases type with
      | mention => exact Bool.or_false _
      | hashtag => exact Bool.or_false _
    rw [hsame, BEq.comm]
  newline type := by cases type <;> rfl
  space_blank := rfl
  space_unit c h := by
    rcases isWhitespace_cases h with rfl | rfl | rfl | rfl <;> rfl
  space_mark type := by cases type <;> rfl
  space_stop := rfl
  name_space c h := by
    by_contra hspace
    rcases isWhitespace_cases (eq_true_of_ne_false hspace) with rfl | rfl | rfl | rfl <;>
      exact absurd h (by decide)
  name_stop := rfl
  name_mark type := by cases type <;> rfl

theorem handles_exact_bob :
    ActiveBuilder.createElementsIgnoringFirstCharacter asciiIcu (fun _ => false) .mention
        "@bob, @al.@x and a@b"
      = [(⟨0, 4⟩, .mention "bob"), (⟨5, 4⟩, .mention "al"), (⟨9, 3⟩, .mention "x")] :=
  (handles_exact icu_asciiIcu _ _ _).trans (by decide)

/-- Ann is mentioned. -/
theorem label_handles_ann :
    ActiveBuilder.createElementsIgnoringFirstCharacter asciiIcu (fun _ => false) .mention
        (captioned "bob" "with @ann").labelText
      = [(⟨8, 5⟩, .mention "ann")] := by
  rw [label_handles icu_asciiIcu, handles_exact icu_asciiIcu, handles_exact icu_asciiIcu]
  decide

end InstaClone
