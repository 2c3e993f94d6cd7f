/-
# Tokens stand where they say

A call of the scanner passes what belongs to no token, be it blanks and comments, lone
semicolons in a block or the characters of a value, and answers with what stands behind that:
a name, a mark, the end of the text or an error (`Mode.Passes`, `Mode.Shows`). The place that
it says is where that stands, by line and column of the whole text, however many lines were
passed before (`places_answers`). Where a value ends, that is the mark behind it; where a
comment is not closed, it is the mark that opens it.

What is read of a text has its names, marks and values from such places, so its declarations
can be held against the text as well. Each has the line of its name, and the value is what
stands between the colon and the mark behind it (`PlacesDeclaration`).

Key definitions: `Position.behind`, `Mode.Passes`, `Mode.Shows`, `PlacesAnswers`, `Scanner.Stands`,
`PlacesBlock`, `PlacesContent`.
Key theorems: `Scanner.Stops.shows`, `places_answers`, `Scanner.Lexes.exists_name`,
`Scanner.Lexes.exists_mark`, `Scanner.Lexes.exists_value`, `places_block`, `places_content`,
`tokens_placed`.
-/
import RichText.Proofs.Calls
import RichText.Proofs.WrittenSelectors

namespace RichText

open Text

/-- The place behind a text: its newlines, and the characters behind the last of them, counted
from one. -/
def Text.Position.behind (before : List Char) : Position :=
  ⟨1 + before.count '\n', 1 + (before.reverse.takeWhile (· ≠ '\n')).length⟩

namespace Sheet

open Scanner (NameEnds markToken)

/-! ### What a call passes and where it stops -/

/-- The character that a token is written as, unless it is a name or the end. -/
def Token.char? : Token → Option Char
  | .star => some '*'
  | .dot => some '.'
  | .hash => some '#'
  | .greater => some '>'
  | .comma => some ','
  | .blockOpen => some '{'
  | .blockClose => some '}'
  | .colon => some ':'
  | .semicolon => some ';'
  | .atSign => some '@'
  | .identifier | .endOfInput => none

namespace Mode

/-- What belongs to no token, with the mode in front of it and the one behind: blanks and
comments outside of values, in a block semicolons too, and in a value whatever belongs to it. -/
inductive Passes : Mode → List Char → Mode → Prop
  | nil (m : Mode) : Passes m [] m
  | blank {m m' : Mode} {c : Char} {cs : List Char} (hm : m.IsOutside) (hc : isSpace c = true)
    (h : Passes m cs m') : Passes m (c :: cs) m'
  | comment {m m' : Mode} {body cs : List Char} (hm : m.IsOutside) (hb : IsComment body)
    (h : Passes m cs m') : Passes m ('/' :: '*' :: (body ++ ['*', '/'] ++ cs)) m'
  | semicolon {m' : Mode} {cs : List Char} (h : Passes .block cs m') : Passes .block (';' :: cs) m'
  | collect {m m₁ m' : Mode} {c : Char} {cs : List Char} (hm : m.through c = some m₁)
    (h : Passes m₁ cs m') : Passes m (c :: cs) m'

/-- The token that a character is by itself. -/
def mark? : Mode → Char → Option Token
  | .selectors, '*' => some .star
  | .selectors, '{' => some .blockOpen
  | .selectors, c => markToken c
  | .block, ':' => some .colon
  | .block, '}' => some .blockClose
  | .value, ';' => some .semicolon
  | .value, '}' => some .blockClose
  | _, _ => none

/-- The mode behind a token. -/
def behind : Mode → Token → Mode
  | .block, .colon => .value
  | _, .blockOpen => .block
  | _, .semicolon => .block
  | _, .blockClose => .selectors
  | m, _ => m

/-- What a call answers with at `place`, where `written` stands in front of `rest`. A name is
all of what stands there and is `text`. -/
inductive Shows (m : Mode) (place : Position) (text : String) :
    Except ParseError Token → List Char → List Char → Prop
  | name {rest : List Char} (hm : m.IsOutside) (hn : IsName text) (he : NameEnds rest) :
    Shows m place text (.ok .identifier) text.toList rest
  | mark {c : Char} {t : Token} {rest : List Char} (hc : m.mark? c = some t) :
    Shows m place text (.ok t) [c] rest
  | ended (hm : m.quote? = none) : Shows m place text (.ok .endOfInput) [] []
  | stranger {c : Char} {rest : List Char} (hm : m.IsOutside) (hmark : m.mark? c = none)
    (hname : isNameStart c = false) (hspace : isSpace c = false)
    (hslash : c = '/' → rest.head? ≠ some '*') (hsemi : m = .block → c ≠ ';') :
    Shows m place text (.error (.lexical place c.toString)) [c] rest
  | openComment {body : List Char} (hm : m.IsOutside) (hb : ¬ ['*', '/'] <:+: body) :
    Shows m place text (.error (.lexical place "/*")) ('/' :: '*' :: body) []
  | openString {q : Char} (hm : m.quote? = some q) :
    Shows m place text (.error (.lexical place q.toString)) [] []

variable {m m' : Mode} {cs : List Char}

/-- Outside of values the mode stays as long as there is no token. -/
theorem Passes.eq_of_isOutside (h : m.Passes cs m') (hm : m.IsOutside) : m' = m := by
  induction h with
  | nil => rfl
  | blank _ _ _ ih | comment _ _ _ ih | semicolon _ ih => exact ih hm
  | collect hthrough => exact absurd hm (not_isOutside_of_through hthrough).1

/-- In a value all that is passed belongs to it. -/
theorem Passes.run_of_not_isOutside (h : m.Passes cs m') (hm : ¬ m.IsOutside) :
    m.run cs = some m' ∧ ¬ m'.IsOutside := by
  induction h with
  | nil => exact ⟨rfl, hm⟩
  | blank hout | comment hout => exact absurd hout hm
  | semicolon => exact absurd (.inr rfl) hm
  | collect hthrough _ ih =>
    obtain ⟨hrun, hout⟩ := ih (not_isOutside_of_through hthrough).2
    exact ⟨by rw [run, hthrough, Option.bind_some, hrun], hout⟩

/-- The character of a token says which it is, in whatever mode that may come. -/
theorem char?_of_mark? {c : Char} {t : Token} (h : m.mark? c = some t) : t.char? = some c := by
  unfold mark? at h
  split at h
  case h_3 =>
    unfold markToken at h
    split at h <;> cases h <;> rfl
  all_goals cases h <;> rfl

theorem mark?_inj {c c' : Char} {t : Token} (h : m.mark? c = some t) (h' : m'.mark? c' = some t) :
    c = c' :=
  Option.some.inj ((char?_of_mark? h).symm.trans (char?_of_mark? h'))

/-- Names and the end of the text are no marks. -/
theorem mark?_ne {c : Char} {t : Token} (h : m.mark? c = some t) :
    t ≠ .identifier ∧ t ≠ .endOfInput := by
  have hchar := char?_of_mark? h
  constructor
  · rintro rfl
    cases hchar
  · rintro rfl
    cases hchar

/-- In a value a mark ends it. -/
theorem eq_value_of_mark? {c : Char} {t : Token} (h : m.mark? c = some t) (hm : ¬ m.IsOutside) :
    m = .value := by
  cases m with
  | selectors => exact absurd (.inl rfl) hm
  | block => exact absurd (.inr rfl) hm
  | value => rfl
  | singleQuoted => cases h
  | doubleQuoted => cases h

end Mode

namespace Scanner

variable {s s₁ s' : Scanner} {cs front rest : List Char} {result : Except ParseError Token}

theorem Skips.passes (h : Skips s cs s') : s.mode.Passes cs s'.mode := by
  induction h with
  | nil s => exact .nil s.mode
  | blank hm hc _ ih => exact .blank hm hc ih
  | comment hm hb _ ih => exact .comment hm hb ih
  | semicolon hm _ ih =>
    rw [hm]
    exact .semicolon (hm ▸ ih)
  | collect hm _ ih => exact .collect hm ih

/-- What is passed in a value is collected. -/
theorem Skips.value_eq (h : Skips s cs s') (hm : ¬ s.mode.IsOutside) :
    s'.value.toList = s.value.toList ++ cs := by
  induction h with
  | nil => rw [List.append_nil]
  | blank hout | comment hout => exact absurd hout hm
  | semicolon hblock => exact absurd (.inr hblock) hm
  | collect hthrough _ ih =>
    rw [ih (Mode.not_isOutside_of_through hthrough).2]
    simp

/-- What a character is by itself: a mark, with the mode behind it, or nothing. -/
theorem punctuation_eq (hm : s.mode.IsOutside) (c : Char) :
    (∃ t, s.mode.mark? c = some t ∧ (s.punctuation c).1 = .ok t ∧
      (s.punctuation c).2.mode = s.mode.behind t ∧
      (s.mode = .block → t = .colon → (s.punctuation c).2.value = "")) ∨
    (s.mode.mark? c = none ∧ (s.punctuation c).1 = .error (s.lexical c.toString)) := by
  obtain ⟨input, mode, text, value, blank, position, start, last⟩ := s
  unfold punctuation
  rcases hm with rfl | rfl
  · split <;> simp_all [Mode.mark?, Mode.behind, markToken]
  · split <;> simp_all [Mode.mark?, Mode.behind]

theorem punctuation_start (s : Scanner) (c : Char) :
    (s.punctuation c).2.tokenStart = s.tokenStart := by
  unfold punctuation
  split <;> rfl

/-- Where a scan stops, what it answers with stands there. -/
theorem Stops.shows (h : Stops s cs result s' rest) :
    ∃ written, cs = written ++ rest ∧ s.mode.Shows s.position s'.text result written rest ∧
      s'.tokenStart = s.position ∧ s'.position = s.position.after written := by
  obtain ⟨taken, htaken, hposition⟩ := h.position
  suffices hshows : ∃ written, cs = written ++ rest ∧
      s.mode.Shows s.position s'.text result written rest ∧ s'.tokenStart = s.position by
    obtain ⟨written, hwritten, hshows, hstart⟩ := hshows
    obtain rfl : written = taken := List.append_cancel_right (hwritten.symm.trans htaken)
    exact ⟨written, hwritten, hshows, hstart, hposition⟩
  cases h with
  | ended hm => exact ⟨[], rfl, .ended hm, rfl⟩
  | openString hm => exact ⟨[], rfl, .openString hm, rfl⟩
  | @openComment body hm hb => exact ⟨_, (List.append_nil _).symm, .openComment hm hb, rfl⟩
  | semicolon hm => exact ⟨[';'], rfl, .mark (by rw [hm]; rfl), rfl⟩
  | blockClose hm => exact ⟨['}'], rfl, .mark (by rw [hm]; rfl), rfl⟩
  | @name c name _ hm hc hn he =>
    have htext : (String.ofList (c :: name)).toList = c :: name := String.toList_ofList
    have hname : IsName (String.ofList (c :: name)) := ⟨c, name, htext, hc, hn⟩
    exact ⟨(String.ofList (c :: name)).toList, by rw [htext], .name hm hname he, rfl⟩
  | @mark c _ hm hname hspace hslash hsemi =>
    refine ⟨[c], rfl, ?_, punctuation_start _ c⟩
    rcases punctuation_eq (s := s.begun.pass c) hm c with ⟨t, hmark, hanswer, -⟩ | ⟨hmark, hanswer⟩
    · rw [hanswer]
      exact .mark hmark
    · rw [hanswer]
      exact .stranger hm hmark hname hspace hslash hsemi

theorem Stops.mode_eq {t : Token} (h : Stops s cs (.ok t) s' rest) :
    s'.mode = s.mode.behind t := by
  generalize hresult : (Except.ok t : Except ParseError Token) = result at h
  cases h with
  | ended =>
    obtain rfl := Except.ok.inj hresult
    cases hm : s.mode <;> exact hm
  | openString => cases hresult
  | openComment => cases hresult
  | semicolon hm | blockClose hm =>
    obtain rfl := Except.ok.inj hresult
    rw [hm]
    rfl
  | name hm =>
    obtain rfl := Except.ok.inj hresult
    rcases hm with hm | hm <;> exact hm ▸ hm
  | @mark c cs hm =>
    rcases punctuation_eq (s := s.begun.pass c) hm c with ⟨t', -, hanswer, hmode, -⟩ | ⟨-, hanswer⟩
    · obtain rfl : t = t' := Except.ok.inj (hresult.trans hanswer)
      exact hmode
    · cases hresult.trans hanswer

/-- In a value a scan stops with what is collected. -/
theorem Stops.value_eq (h : Stops s cs result s' rest) (hm : ¬ s.mode.IsOutside) :
    s'.value = s.value := by
  cases h with
  | ended | openString | semicolon | blockClose => rfl
  | openComment hout | name hout | mark hout => exact absurd hout hm

/-- Behind the colon of a declaration nothing of the value is collected yet. -/
theorem Stops.value_colon (h : Stops s cs (.ok .colon) s' rest) (hm : s.mode = .block) :
    s'.value = "" := by
  generalize hresult : (Except.ok .colon : Except ParseError Token) = result at h
  cases h with
  | ended | openString | openComment | semicolon | blockClose | name => cases hresult
  | @mark c cs hout =>
    rcases punctuation_eq (s := s.begun.pass c) hout c with
      ⟨t, -, hanswer, -, hvalue⟩ | ⟨-, hanswer⟩
    · exact hvalue hm (Except.ok.inj (hresult.trans hanswer)).symm
    · cases hresult.trans hanswer

end Scanner

/-! ### The answers of all calls -/

open Scanner (Answer Lexes Skips Stops)

/-- Answers of one call after another, up to the end of the text or the first error, with
`before` in front of the text. Each has the place of what it answers with, and the next one is
for what is left behind that. -/
inductive PlacesAnswers : List Char → List Char → Mode → List Answer → Prop
  | last {before silent written rest : List Char} {m m' : Mode} {a : Answer}
    (hpasses : m.Passes silent m') (hshows : m'.Shows a.position a.text a.result written rest)
    (hplace : a.position = .behind (before ++ silent))
    (hlast : ∀ t, a.result = .ok t → t = .endOfInput) :
    PlacesAnswers before (silent ++ (written ++ rest)) m [a]
  | next {before silent written rest : List Char} {m m' : Mode} {a : Answer} {t : Token}
    {answers : List Answer} (hpasses : m.Passes silent m') (hresult : a.result = .ok t)
    (hshows : m'.Shows a.position a.text (.ok t) written rest)
    (hplace : a.position = .behind (before ++ silent)) (ht : t ≠ .endOfInput)
    (hnext : PlacesAnswers (before ++ (silent ++ written)) rest (m'.behind t) answers) :
    PlacesAnswers before (silent ++ (written ++ rest)) m (a :: answers)

namespace Scanner

variable {s s₁ s' : Scanner} {silent front rest : List Char}

theorem answers_of_error {e : ParseError} (hskips : Skips s silent s₁)
    (hstops : Stops s₁ front (.error e) s' rest) :
    (s.holding (silent ++ front)).answers = [s'.answer (.error e)] := by
  have hnext := next_of_error hskips hstops
  rw [answers]
  split
  · next heq =>
    cases hnext.symm.trans heq
    rfl
  · next heq => cases hnext.symm.trans heq

theorem answers_of_ok {t : Token} (hskips : Skips s silent s₁)
    (hstops : Stops s₁ front (.ok t) s' rest) :
    (s.holding (silent ++ front)).answers =
      s'.answer (.ok t) ::
        if t = .endOfInput then [] else ({ s' with last := t }.holding rest).answers := by
  have hnext := next_of_ok hskips hstops
  rw [answers]
  split
  · next heq => cases hnext.symm.trans heq
  · next heq =>
    cases hnext.symm.trans heq
    split <;> rfl

end Scanner

/-- Whatever the text is, every answer has its place. -/
theorem places_answers (s : Scanner) (before text : List Char)
    (hplace : s.position = Position.start.after before) :
    PlacesAnswers before text s.mode (s.holding text).answers := by
  obtain ⟨silent, front, s₁, result, s', rest, htext, hskips, hstops⟩ :=
    Scanner.exists_stops s text
  have hle : front.length ≤ text.length := by simp [htext]
  obtain ⟨written, hfront, hshows, hstart, hposition⟩ := hstops.shows
  have hsilent : s₁.position = .behind (before ++ silent) := by
    rw [hskips.position, hplace, ← Position.after_append]
    exact Position.after_start _
  cases result with
  | error e =>
    rw [htext, Scanner.answers_of_error hskips hstops, hfront]
    refine .last hskips.passes ?_ (hstart.trans hsilent) nofun
    rwa [← hstart] at hshows
  | ok t =>
    rw [htext, Scanner.answers_of_ok hskips hstops]
    by_cases ht : t = .endOfInput
    · rw [if_pos ht, hfront]
      refine .last hskips.passes ?_ (hstart.trans hsilent) ?_
      · rwa [← hstart] at hshows
      · rintro t' ⟨⟩
        exact ht
    · have hlt := hstops.length_lt rfl ht
      have hbehind : s'.position = Position.start.after (before ++ (silent ++ written)) := by
        rw [hposition, hskips.position, hplace, ← Position.after_append, ← Position.after_append]
      have hmore := places_answers { s' with last := t } _ rest hbehind
      rw [if_neg ht, hfront]
      refine .next hskips.passes rfl ?_ (hstart.trans hsilent) ht (hstops.mode_eq ▸ hmore)
      rwa [← hstart] at hshows
termination_by text.length

/-- A name behind a comment, and a comment that is not closed. -/
example : (Scanner.ofString "/*\n*/ a\n  /* b").answers.map (·.position) = [⟨2, 4⟩, ⟨3, 3⟩] := by
  decide +kernel

/-! ### The lines of declarations -/

/-- A declaration up to the mark that ends it, with `before` in front. It has the line of its
name, and its value is what stands behind the colon. -/
inductive PlacesDeclaration (before : List Char) : List Char → Declaration → Prop
  | intro {gap behind value : List Char} {d : Declaration} (hgap : Mode.block.Passes gap .block)
    (hname : IsName d.property) (hline : d.line = (Position.behind (before ++ gap)).line)
    (hbehind : Mode.block.Passes behind .block) (hclosed : IsClosed value)
    (hvalue : d.value = String.ofList (trim value)) :
    PlacesDeclaration before (gap ++ (d.property.toList ++ (behind ++ ':' :: value))) d

/-- A block behind its brace, with the brace that closes it. -/
inductive PlacesBlock : List Char → List Char → List Declaration → Prop
  | close {before gap : List Char} (hgap : Mode.block.Passes gap .block) :
    PlacesBlock before (gap ++ ['}']) []
  | last {before text : List Char} {d : Declaration} (hd : PlacesDeclaration before text d) :
    PlacesBlock before (text ++ ['}']) [d]
  | next {before text more : List Char} {d : Declaration} {found : List Declaration}
    (hd : PlacesDeclaration before text d)
    (hmore : PlacesBlock (before ++ (text ++ [';'])) more found) :
    PlacesBlock before (text ++ [';'] ++ more) (d :: found)

/-- An at-rule up to the brace of its block. -/
inductive WritesAtHead : List Char → String → Prop
  | intro {gap₁ gap₂ gap₃ : List Char} {name : String}
    (hgap₁ : Mode.selectors.Passes gap₁ .selectors) (hgap₂ : Mode.selectors.Passes gap₂ .selectors)
    (hname : IsName name) (hgap₃ : Mode.selectors.Passes gap₃ .selectors) :
    WritesAtHead (gap₁ ++ ['@'] ++ (gap₂ ++ name.toList) ++ (gap₃ ++ ['{'])) name

/-- Rules and at-rules, with `before` in front. -/
inductive PlacesContent : List Char → List Char → Content → Prop
  | done {before gap : List Char} (hgap : Mode.selectors.Passes gap .selectors) :
    PlacesContent before gap {}
  | rule {before head block more : List Char} {chains : List (List WrittenCompound)}
    {found : List Declaration} {content : Content}
    (hhead : WritesSelectors (head ++ (block ++ more)) chains (block ++ more))
    (hblock : PlacesBlock (before ++ head) block found)
    (hmore : PlacesContent (before ++ head ++ block) more content) :
    PlacesContent before (head ++ (block ++ more))
      { content with rules := ⟨chains.map keptChain, found⟩ :: content.rules }
  | atRule {before head block more : List Char} {name : String} {found : List Declaration}
    {content : Content} (hhead : WritesAtHead head name)
    (hblock : PlacesBlock (before ++ head) block found)
    (hmore : PlacesContent (before ++ head ++ block) more content) :
    PlacesContent before (head ++ (block ++ more))
      { content with atRules := ⟨name, found⟩ :: content.atRules }

namespace Scanner

/-- A lexeme stands as `written` in front of `rest`, behind what `s` passes. There the mode is
`m`, and `s'` is the scanner behind the lexeme. -/
structure Stands (s : Scanner) (l : Lexeme) (silent written rest : List Char) (m : Mode)
    (s' : Scanner) : Prop where
  passes : s.mode.Passes silent m
  shows : m.Shows l.start l.text (.ok l.token) written rest
  start : l.start = s.position.after silent
  position : s'.position = s.position.after (silent ++ written)
  mode : s'.mode = m.behind l.token
  value : ¬ s.mode.IsOutside → l.value.toList = s.value.toList ++ silent
  value_colon : m = .block → l.token = .colon → s'.value = ""

variable {s s' : Scanner} {text rest : List Char} {l : Lexeme} {read : List Lexeme}

/-- The first lexeme of a text stands in it. -/
theorem Lexes.exists_stands (h : Lexes s text (l :: read) s' rest) :
    ∃ silent written mid m s₁, text = silent ++ (written ++ mid) ∧
      Stands s l silent written mid m s₁ ∧ Lexes s₁ mid read s' rest := by
  cases h with
  | @next _ s₁ s₂ _ silent front mid _ t _ hskips hstops ht h =>
    obtain ⟨written, rfl, hshows, hstart, hposition⟩ := hstops.shows
    refine ⟨silent, written, mid, s₁.mode, { s₂ with last := t }, rfl, ?_, h⟩
    refine ⟨hskips.passes, ?_, ?_, ?_, hstops.mode_eq, fun hm => ?_, fun hm hcolon => ?_⟩
    · rwa [← hstart] at hshows
    · exact hstart.trans hskips.position
    · rw [Position.after_append, ← hskips.position]
      exact hposition
    · have hout : ¬ s₁.mode.IsOutside := (hskips.passes.run_of_not_isOutside hm).2
      exact (congrArg String.toList (hstops.value_eq hout)).trans (hskips.value_eq hm)
    · obtain rfl : t = .colon := hcolon
      exact hstops.value_colon hm

variable {silent written : List Char} {m : Mode}

theorem Stands.name (h : Stands s l silent written rest m s') (ht : l.token = .identifier) :
    written = l.text.toList ∧ IsName l.text := by
  have hshows := h.shows
  rw [ht] at hshows
  cases hshows with
  | name _ hn _ => exact ⟨rfl, hn⟩
  | mark hc => exact absurd rfl (Mode.mark?_ne hc).1

/-- A lexeme that is no name is a mark. -/
theorem Stands.mark (h : Stands s l silent written rest m s') {m' : Mode} {c : Char}
    (hc : m'.mark? c = some l.token) : written = [c] ∧ m.mark? c = some l.token := by
  have hshows := h.shows
  obtain ⟨hname, hended⟩ := Mode.mark?_ne hc
  generalize hresult : (Except.ok l.token : Except ParseError Token) = result at hshows
  cases hshows with
  | name => exact absurd (Except.ok.inj hresult) hname
  | ended => exact absurd (Except.ok.inj hresult) hended
  | mark hmark =>
    obtain rfl := Except.ok.inj hresult
    obtain rfl := Mode.mark?_inj hc hmark
    exact ⟨rfl, hmark⟩
  | stranger | openComment | openString => cases hresult

section Outside

variable (h : Lexes s text (l :: read) s' rest) (hm : s.mode = m) (hout : m.IsOutside)
include h hm hout

/-- Outside of values a name stands behind what is passed there. -/
theorem Lexes.exists_name (ht : l.token = .identifier) :
    ∃ gap mid s₁, text = gap ++ (l.text.toList ++ mid) ∧ m.Passes gap m ∧ IsName l.text ∧
      l.start = s.position.after gap ∧ s₁.position = s.position.after (gap ++ l.text.toList) ∧
      s₁.mode = m ∧ Lexes s₁ mid read s' rest := by
  subst hm
  obtain ⟨gap, written, mid, m, s₁, rfl, hstands, hread⟩ := h.exists_stands
  obtain ⟨rfl, hn⟩ := hstands.name ht
  obtain rfl := hstands.passes.eq_of_isOutside hout
  refine ⟨gap, mid, s₁, rfl, hstands.passes, hn, hstands.start, hstands.position, ?_, hread⟩
  rw [hstands.mode, ht]
  rcases hout with hm | hm <;> rw [hm] <;> rfl

/-- Outside of values a mark stands behind what is passed there. -/
theorem Lexes.exists_mark {c : Char} {t : Token} (ht : l.token = t) (hc : m.mark? c = some t) :
    ∃ gap mid s₁, text = gap ++ c :: mid ∧ m.Passes gap m ∧
      s₁.position = s.position.after (gap ++ [c]) ∧ s₁.mode = m.behind t ∧
      (m = .block → t = .colon → s₁.value = "") ∧ Lexes s₁ mid read s' rest := by
  subst hm ht
  obtain ⟨gap, written, mid, m, s₁, rfl, hstands, hread⟩ := h.exists_stands
  obtain ⟨rfl, -⟩ := hstands.mark hc
  obtain rfl := hstands.passes.eq_of_isOutside hout
  exact ⟨gap, mid, s₁, rfl, hstands.passes, hstands.position, hstands.mode, hstands.value_colon,
    hread⟩

end Outside

/-- A value stands in front of the mark that ends it. -/
theorem Lexes.exists_value (h : Lexes s text (l :: read) s' rest) (hm : s.mode = .value)
    (hempty : s.value = "") {c : Char} {t : Token} (ht : l.token = t)
    (hc : Mode.value.mark? c = some t) :
    ∃ mid s₁, text = l.value.toList ++ c :: mid ∧ IsClosed l.value.toList ∧
      s₁.position = s.position.after (l.value.toList ++ [c]) ∧ s₁.mode = Mode.value.behind t ∧
      Lexes s₁ mid read s' rest := by
  subst ht
  have hout : ¬ s.mode.IsOutside := by simp [hm, Mode.IsOutside]
  obtain ⟨value, written, mid, m, s₁, rfl, hstands, hread⟩ := h.exists_stands
  obtain ⟨rfl, hmark⟩ := hstands.mark hc
  obtain ⟨hrun, hout'⟩ := hstands.passes.run_of_not_isOutside hout
  obtain rfl := Mode.eq_value_of_mark? hmark hout'
  obtain rfl : l.value.toList = value := by
    rw [hstands.value hout, hempty]
    rfl
  exact ⟨mid, s₁, rfl, isClosed_of_run (hm ▸ hrun), hstands.position, hstands.mode, hread⟩

/-- In a block a name, a colon and what ends the value make a declaration. -/
theorem Lexes.places_declaration {name colon stop : Lexeme} {before : List Char}
    (h : Lexes s text (name :: colon :: stop :: read) s' rest) (hm : s.mode = .block)
    (hplace : s.position = Position.start.after before) (hname : name.token = .identifier)
    (hcolon : colon.token = .colon) {c : Char} {t : Token} (hstop : stop.token = t)
    (hc : Mode.value.mark? c = some t) :
    ∃ front mid s₁, text = front ++ c :: mid ∧ PlacesDeclaration before front (.said name stop) ∧
      s₁.position = Position.start.after (before ++ (front ++ [c])) ∧
      s₁.mode = Mode.value.behind t ∧ Lexes s₁ mid read s' rest := by
  obtain ⟨gap, mid₁, s₁, rfl, hgap, hn, hstart, hplace₁, hm₁, h₁⟩ :=
    h.exists_name hm (.inr rfl) hname
  obtain ⟨behind, mid₂, s₂, rfl, hbehind, hplace₂, hm₂, hempty, h₂⟩ :=
    h₁.exists_mark hm₁ (.inr rfl) hcolon (rfl : Mode.block.mark? ':' = _)
  obtain ⟨mid₃, s₃, rfl, hclosed, hplace₃, hm₃, h₃⟩ :=
    h₂.exists_value hm₂ (hempty rfl rfl) hstop hc
  have hline : name.start = .behind (before ++ gap) := by
    rw [hstart, hplace, ← Position.after_append]
    exact Position.after_start _
  have hdeclaration : PlacesDeclaration before
      (gap ++ ((Declaration.said name stop).property.toList ++
        (behind ++ ':' :: stop.value.toList))) (.said name stop) :=
    .intro hgap hn (congrArg Position.line hline) hbehind hclosed rfl
  refine ⟨_, mid₃, s₃, ?_, hdeclaration, ?_, hm₃, h₃⟩
  · simp [Declaration.said]
  · rw [hplace₃, hplace₂, hplace₁, hplace, ← Position.after_append, ← Position.after_append,
      ← Position.after_append]
    simp [Declaration.said]

theorem Lexes.position (h : Lexes s text read s' rest) :
    ∃ taken, text = taken ++ rest ∧ s'.position = s.position.after taken := by
  induction h with
  | nil => exact ⟨[], rfl, rfl⟩
  | @next _ _ _ _ skipped front more rest _ _ hskips hstops _ _ ih =>
    obtain ⟨taken, rfl, htaken⟩ := hstops.position
    obtain ⟨later, rfl, hlater⟩ := ih
    refine ⟨skipped ++ taken ++ later, by simp, ?_⟩
    rw [hlater, Position.after_append, Position.after_append, ← hskips.position, ← htaken]

end Scanner

variable {s s' : Scanner} {text rest : List Char} {read : List Lexeme}

theorem places_block {found : List Declaration} (h : IsBlock read found) :
    ∀ {s : Scanner} {before text : List Char}, Lexes s text read s' rest → s.mode = .block →
      s.position = Position.start.after before →
      ∃ block, text = block ++ rest ∧ PlacesBlock before block found ∧
        s'.position = Position.start.after (before ++ block) := by
  induction h with
  | @close brace hbrace =>
    intro s before text hlexes hm hplace
    obtain ⟨gap, mid, s₁, rfl, hgap, hplace₁, -, -, hrest⟩ :=
      hlexes.exists_mark hm (.inr rfl) hbrace (rfl : Mode.block.mark? '}' = _)
    cases hrest
    refine ⟨gap ++ ['}'], by simp, .close hgap, ?_⟩
    rw [hplace₁, hplace, ← Position.after_append]
  | @last name colon brace hname hcolon hbrace =>
    intro s before text hlexes hm hplace
    obtain ⟨front, mid, s₁, rfl, hd, hplace₁, -, hrest⟩ :=
      hlexes.places_declaration hm hplace hname hcolon hbrace (rfl : Mode.value.mark? '}' = _)
    cases hrest
    exact ⟨front ++ ['}'], by simp, .last hd, hplace₁⟩
  | @next name colon stop read found hname hcolon hstop _ ih =>
    intro s before text hlexes hm hplace
    obtain ⟨front, mid, s₁, rfl, hd, hplace₁, hm₁, hrest⟩ :=
      hlexes.places_declaration hm hplace hname hcolon hstop (rfl : Mode.value.mark? ';' = _)
    obtain ⟨more, rfl, hmore, hend⟩ := ih hrest hm₁ hplace₁
    refine ⟨front ++ [';'] ++ more, by simp, .next hd hmore, ?_⟩
    rw [hend]
    simp

/-- Where nothing more is read among selectors, nothing is left but what is passed. -/
theorem passes_of_ended {place : Position} (h : s.lexemesOf text = .ended place)
    (hm : s.mode = .selectors) : Mode.selectors.Passes text .selectors := by
  obtain ⟨skipped, front, s₁, result, s₂, more, rfl, hskips, hstops⟩ := Scanner.exists_stops s text
  rw [Scanner.lexemesOf_eq hskips hstops] at h
  obtain rfl : front = [] := hstops.eq_nil (Scanner.of_lexemesAfter_ended h)
  have hpasses := hskips.passes
  rwa [hskips.mode_selectors hm, hm, ← List.append_nil skipped] at hpasses

/-- The lexemes in front of the block of an at-rule. -/
theorem writes_atHead {mark name brace : Lexeme}
    (h : Lexes s text (mark :: name :: brace :: read) s' rest) (hm : s.mode = .selectors)
    (hmark : mark.token = .atSign) (hname : name.token = .identifier)
    (hbrace : brace.token = .blockOpen) :
    ∃ head mid s₁, text = head ++ mid ∧ WritesAtHead head name.text ∧ s₁.mode = .block ∧
      s₁.position = s.position.after head ∧ Lexes s₁ mid read s' rest := by
  obtain ⟨gap₁, mid₁, s₁, rfl, hgap₁, hplace₁, hm₁, -, h₁⟩ :=
    h.exists_mark hm (.inl rfl) hmark (rfl : Mode.selectors.mark? '@' = _)
  obtain ⟨gap₂, mid₂, s₂, rfl, hgap₂, hn, -, hplace₂, hm₂, h₂⟩ :=
    h₁.exists_name hm₁ (.inl rfl) hname
  obtain ⟨gap₃, mid₃, s₃, rfl, hgap₃, hplace₃, hm₃, -, h₃⟩ :=
    h₂.exists_mark hm₂ (.inl rfl) hbrace (rfl : Mode.selectors.mark? '{' = _)
  refine ⟨_, mid₃, s₃, by simp, .intro hgap₁ hgap₂ hn hgap₃, hm₃, ?_, h₃⟩
  rw [hplace₃, hplace₂, hplace₁, ← Position.after_append, ← Position.after_append,
    ← List.append_assoc]

/-- What is read of a text has its declarations in their lines. -/
theorem places_content {content : Content} (h : IsContent read content) {place : Position} :
    ∀ {s s' : Scanner} {before text rest : List Char}, Lexes s text read s' rest →
      s.mode = .selectors → s.position = Position.start.after before →
      s'.lexemesOf rest = .ended place → PlacesContent before text content := by
  induction h with
  | nil =>
    intro s s' before text rest hlexes hm hplace hend
    cases hlexes
    exact .done (passes_of_ended hend hm)
  | rule hr hd _ ih =>
    intro s s' before text rest hlexes hm hplace hend
    obtain ⟨s₁, mid, hread, hmore⟩ := hlexes.split
    obtain ⟨s₂, left, hblock, hleft⟩ := hmore.split
    obtain ⟨chains, hchains, rfl, hm₁⟩ := writes_selectors hr hread hm
    obtain ⟨head, rfl, hposition⟩ := hread.position
    rw [hplace, ← Position.after_append] at hposition
    obtain ⟨block, rfl, hplaces, hbehind⟩ := places_block hd hblock hm₁ hposition
    obtain ⟨front, brace, hfront, hbrace⟩ := hd.exists_close
    exact .rule hchains hplaces (ih hleft (hblock.mode_selectors hfront hbrace) hbehind hend)
  | atRule hmark hn hb hd _ ih =>
    intro s s' before text rest hlexes hm hplace hend
    obtain ⟨head, mid, s₁, rfl, hhead, hm₁, hposition, hmore⟩ := writes_atHead hlexes hm hmark hn hb
    rw [hplace, ← Position.after_append] at hposition
    obtain ⟨s₂, left, hblock, hleft⟩ := hmore.split
    obtain ⟨block, rfl, hplaces, hbehind⟩ := places_block hd hblock hm₁ hposition
    obtain ⟨front, brace, hfront, hbrace⟩ := hd.exists_close
    exact .atRule hhead hplaces (ih hleft (hblock.mode_selectors hfront hbrace) hbehind hend)

/-- **What is said of places is true.** Call after call, up to the end of the text or the first
error, the scanner answers with what stands at the place that it says, behind what belongs to
no token and behind the answer before. A name is what stands there. If the text is read, every
declaration has the line that its name begins on. -/
theorem tokens_placed (text : String) :
    PlacesAnswers [] text.toList .selectors (Scanner.ofString text).answers ∧
      ∀ content, parseString text = .ok content → PlacesContent [] text.toList content := by
  refine ⟨places_answers Scanner.fresh [] text.toList rfl, fun content h => ?_⟩
  rw [parseString_eq] at h
  obtain ⟨read, place, hread, hcontent⟩ := stylesheet_sound h
  obtain ⟨s', left, hlexes, hleft⟩ := Scanner.exists_lexes read Scanner.fresh text.toList hread
  exact places_content hcontent hlexes rfl rfl hleft

/-- A comment and a quoted value over several lines, semicolons and an at-rule. -/
def linedText : String :=
  "/* a\n*/ p \x7b ;\n color : \"x\n;\" ;; b:\n 1\x7d\n@f\x7b c: 2 \x7d"

theorem tokens_placed_lines :
    parseString linedText = .ok ⟨[⟨[[{ element := some "p" }]],
        [⟨"color", "\"x\n;\"", 3⟩, ⟨"b", "1", 4⟩]⟩], [⟨"f", [⟨"c", "2", 6⟩]⟩]⟩ ∧
      PlacesContent [] linedText.toList ⟨[⟨[[{ element := some "p" }]],
        [⟨"color", "\"x\n;\"", 3⟩, ⟨"b", "1", 4⟩]⟩], [⟨"f", [⟨"c", "2", 6⟩]⟩]⟩ := by
  have hparse : parseString linedText = .ok ⟨[⟨[[{ element := some "p" }]],
      [⟨"color", "\"x\n;\"", 3⟩, ⟨"b", "1", 4⟩]⟩], [⟨"f", [⟨"c", "2", 6⟩]⟩]⟩ :=
    eq_ok_of_toOption (by decide +kernel)
  exact ⟨hparse, (tokens_placed linedText).2 _ hparse⟩

end Sheet

end RichText
