/-
# What a scan can do

On a text a scan skips what belongs to no token, and then stops (`Skips`,
`Stops`). Outside of values it skips blanks and closed comments, in a block
also lone semicolons; in a value it skips what it collects. It stops at a
token, at the end, at a string or a comment that nothing closes, or at a
character that no token begins with. Whatever the text, a scan does one after
the other (`exists_stops`), and it comes to what the two relations say
(`scan_skips`, `scan_stops`); so all that is to be known of scans, and of the
lexemes that they bring (`lexemesOf_eq`), can be read off the relations, one
case for each thing a scan can do.

Key definitions: `Mode.through`, `IsComment`, `Scanner.Skips`,
`Scanner.Stops`, `Scanner.lexemesOf`.
Key theorems: `Scanner.scan_skips`, `Scanner.scan_stops`,
`Scanner.exists_stops`, `Scanner.lexemesOf_eq`, `Scanner.lexemesOf_skips`.
-/
import RichText.Sheet.Lexeme

namespace RichText.Sheet

open RichText.Text

/-- Among selectors or in a block, outside of values. -/
def Mode.IsOutside (m : Mode) : Prop := m = .selectors ∨ m = .block

/-- The quote of a string that the mode is in. -/
def Mode.quote? : Mode → Option Char
  | .singleQuoted => some '\''
  | .doubleQuoted => some '"'
  | _ => none

/-- The mode behind a character that belongs to a value. -/
def Mode.through : Mode → Char → Option Mode
  | .value, c =>
    if c = ';' ∨ c = '}' then none
    else some (if c = '\'' then .singleQuoted else if c = '"' then .doubleQuoted else .value)
  | .singleQuoted, c => some (if c = '\'' then .value else .singleQuoted)
  | .doubleQuoted, c => some (if c = '"' then .value else .doubleQuoted)
  | _, _ => none

theorem Mode.through_of_isOutside {m : Mode} (h : m.IsOutside) (c : Char) : m.through c = none := by
  rcases h with rfl | rfl <;> rfl

/-- In a value, and there it goes on. -/
theorem Mode.not_isOutside_of_through {m m' : Mode} {c : Char} (h : m.through c = some m') :
    ¬ m.IsOutside ∧ ¬ m'.IsOutside := by
  refine ⟨fun hm => by simp [through_of_isOutside hm] at h, fun hm => ?_⟩
  cases m <;> grind [through, IsOutside]

/-- A character that belongs to no value ends one, or is met outside of values. -/
theorem Mode.of_through_eq_none {m : Mode} {c : Char} (h : m.through c = none) :
    m.IsOutside ∨ m = .value ∧ (c = ';' ∨ c = '}') := by
  cases m with
  | selectors => exact .inl (.inl rfl)
  | block => exact .inl (.inr rfl)
  | value =>
    simp only [through] at h
    split at h
    · next hc => exact .inr ⟨rfl, hc⟩
    · simp at h
  | singleQuoted => simp [through] at h
  | doubleQuoted => simp [through] at h

/-- No name begins with a blank. -/
theorem isSpace_of_isNameStart {c : Char} (h : isNameStart c = true) : isSpace c = false := by
  rw [Bool.eq_false_iff]
  intro hs
  simp only [isSpace, Bool.or_eq_true, beq_iff_eq] at hs
  rcases hs with ((((rfl | rfl) | rfl) | rfl) | rfl) | rfl <;> exact absurd h (by decide)

/-! ### Comments -/

/-- The body of a comment: the first `*/` is the one behind it. -/
def IsComment (body : List Char) : Prop := ¬ ['*', '/'] <:+: body ++ ['*']

theorem isComment_nil : IsComment [] := by
  unfold IsComment
  decide

theorem IsComment.tail {c : Char} {body : List Char} (h : IsComment (c :: body)) : IsComment body :=
  fun hb => h (hb.trans (List.suffix_cons c _).isInfix)

/-- Where a text closes a comment, it does so for the first time somewhere. -/
theorem exists_isComment : ∀ cs : List Char, ['*', '/'] <:+: cs →
    ∃ body rest, IsComment body ∧ cs = body ++ '*' :: '/' :: rest
  | [], h => by simp at h
  | c :: cs, h => by
    rcases List.infix_cons_iff.1 h with ⟨rest, hpre⟩ | hin
    · exact ⟨[], rest, isComment_nil, hpre.symm⟩
    · by_cases hfirst : ['*', '/'] <+: c :: cs
      · obtain ⟨rest, hrest⟩ := hfirst
        exact ⟨[], rest, isComment_nil, hrest.symm⟩
      · obtain ⟨body, rest, hb, rfl⟩ := exists_isComment cs hin
        refine ⟨c :: body, rest, fun hbad => ?_, rfl⟩
        rcases List.infix_cons_iff.1 hbad with ⟨more, hmore⟩ | hbad
        · cases body with
          | nil => simp at hmore
          | cons d body =>
            obtain ⟨rfl, rfl, -⟩ : '*' = c ∧ '/' = d ∧ _ := by simpa using hmore
            exact hfirst ⟨body ++ '*' :: '/' :: rest, rfl⟩
        · exact hb hbad

namespace Scanner

/-- The scanner behind a text. -/
def passText (s : Scanner) (cs : List Char) : Scanner := { s with position := s.position.after cs }

/-- The scanner where a token begins. -/
def begun (s : Scanner) : Scanner := { s with tokenStart := s.position }

/-- The scanner with a text left to read, and nothing behind that. -/
def holding (s : Scanner) (cs : List Char) : Scanner := { s with input := ⟨cs.map .char, none⟩ }

/-- Where the token before began does not matter any more. -/
theorem scan_tokenStart (s : Scanner) (p : Position) : ∀ items : List StreamItem,
    scan false { s with tokenStart := p } items = scan false s items
  | [] => rfl
  | .fault f :: rest => rfl
  | .char c :: rest => by
    rw [scan.eq_def, scan.eq_def]
    rfl

/-! ### One turn of a scan -/

section Turn

variable {s : Scanner} {c : Char} (items : List StreamItem)

theorem scan_collect {m : Mode} (hm : s.mode.through c = some m) :
    s.scan false (.char c :: items) =
      scan false { s.pass c with mode := m, value := s.value.push c } items := by
  obtain ⟨input, mode, text, value, blank, position, start, last⟩ := s
  refine Eq.trans ?_ (scan_tokenStart _ position items)
  rw [scan.eq_def]
  cases mode with
  | selectors => simp [Mode.through] at hm
  | block => simp [Mode.through] at hm
  | singleQuoted =>
    rw [← Option.some.inj hm]
    simp [pass]
  | doubleQuoted =>
    rw [← Option.some.inj hm]
    simp [pass]
  | value =>
    simp only [Mode.through, Option.ite_none_left_eq_some, Option.some.injEq, not_or] at hm
    obtain ⟨⟨hsemicolon, hbrace⟩, rfl⟩ := hm
    simp only [Bool.false_eq_true, if_false, pass]
    split
    · contradiction
    · contradiction
    · rfl
    · rfl
    · next hsingle hdouble => rw [if_neg hsingle, if_neg hdouble]

theorem scan_blank (hm : s.mode.IsOutside) (hc : isSpace c = true) :
    s.scan false (.char c :: items) =
      scan false { s.pass c with sawBlank := s.sawBlank || s.mode = .selectors } items := by
  obtain ⟨input, mode, text, value, blank, position, start, last⟩ := s
  refine Eq.trans ?_ (scan_tokenStart _ position items)
  rw [scan.eq_def]
  rcases hm with rfl | rfl <;> simp [hc, pass]

theorem scan_semicolon (hm : s.mode = .block) :
    s.scan false (.char ';' :: items) = scan false (s.pass ';') items := by
  obtain ⟨input, mode, text, value, blank, position, start, last⟩ := s
  obtain rfl : mode = .block := hm
  refine Eq.trans ?_ (scan_tokenStart _ position items)
  have hspace : isSpace ';' = false := by decide
  have hname : isNameStart ';' = false := by decide
  rw [scan.eq_def]
  simp [hspace, hname, pass]

theorem scan_openComment (hm : s.mode.IsOutside) :
    s.scan false (.char '/' :: .char '*' :: items) =
      scan true (s.begun.passText ['/', '*']) items := by
  obtain ⟨input, mode, text, value, blank, position, start, last⟩ := s
  have hspace : isSpace '/' = false := by decide
  have hname : isNameStart '/' = false := by decide
  rw [scan.eq_def]
  rcases hm with rfl | rfl <;> simp [hspace, hname, pass, passText, begun, Position.after]

theorem scan_name (hm : s.mode.IsOutside) (hc : isNameStart c = true) :
    s.scan false (.char c :: items) =
      readName { s.begun.pass c with text := c.toString } items := by
  obtain ⟨input, mode, text, value, blank, position, start, last⟩ := s
  have hspace := isSpace_of_isNameStart hc
  rw [scan.eq_def]
  rcases hm with rfl | rfl <;> simp [hc, hspace, pass, begun]

theorem scan_mark (hm : s.mode.IsOutside) (hname : isNameStart c = false)
    (hspace : isSpace c = false) (hslash : c ≠ '/') (hsemi : s.mode = .block → c ≠ ';') :
    s.scan false (.char c :: items) = ((s.begun.pass c).leaving items).punctuation c := by
  obtain ⟨input, mode, text, value, blank, position, start, last⟩ := s
  rw [scan.eq_def]
  rcases hm with rfl | rfl <;> simp_all [pass, begun]

theorem scan_slash {cs : List Char} (hf : s.input.failure = none) (hm : s.mode.IsOutside)
    (hcs : cs.head? ≠ some '*') :
    s.scan false (('/' :: cs).map .char) =
      ((s.begun.pass '/').leaving (cs.map .char)).punctuation '/' := by
  obtain ⟨input, mode, text, value, blank, position, start, last⟩ := s
  have hspace : isSpace '/' = false := by decide
  have hname : isNameStart '/' = false := by decide
  cases cs with
  | nil => rcases hm with rfl | rfl <;> simp_all [scan, pass, begun]
  | cons d cs =>
    have hd : d ≠ '*' := by simpa using hcs
    rw [List.map_cons, List.map_cons, scan.eq_def]
    rcases hm with rfl | rfl <;> simp [hspace, hname, hd, pass, begun]

theorem scan_value (hm : s.mode = .value) (hc : c = ';' ∨ c = '}') :
    s.scan false (.char c :: items) =
      if c = ';' then (.ok .semicolon, { s.begun.pass c with mode := .block }.leaving items)
      else (.ok .blockClose, { s.begun.pass c with mode := .selectors }.leaving items) := by
  obtain ⟨input, mode, text, value, blank, position, start, last⟩ := s
  obtain rfl : mode = .value := hm
  rw [scan.eq_def]
  rcases hc with rfl | rfl <;> rfl

end Turn

/-! ### Comments -/

/-- In a comment a character is passed, if it does not close the comment. -/
theorem scan_inComment (s : Scanner) (c : Char) (items : List StreamItem)
    (h : c = '*' → ∀ rest, items ≠ .char '/' :: rest) :
    s.scan true (.char c :: items) = scan true (s.pass c) items := by
  rw [scan.eq_def]
  simp only [if_true]
  split
  · exact absurd rfl (h rfl _)
  · rfl

theorem scan_comment (items : List StreamItem) : ∀ (body : List Char) (s : Scanner),
    IsComment body →
    s.scan true ((body ++ ['*', '/']).map .char ++ items) =
      scan false (s.passText (body ++ ['*', '/'])) items
  | [], s, _ => by
    rw [scan.eq_def]
    rfl
  | c :: body, s, hb => by
    rw [List.cons_append, List.map_cons, List.cons_append, scan_inComment]
    · exact scan_comment items body (s.pass c) hb.tail
    · rintro rfl rest hrest
      apply hb
      cases body with
      | nil => simp at hrest
      | cons d body =>
        obtain ⟨rfl, -⟩ : d = '/' ∧ _ := by simpa using hrest
        exact ⟨[], body ++ ['*'], rfl⟩

theorem scan_unclosed : ∀ (cs : List Char) (s : Scanner), s.input.failure = none →
    ¬ ['*', '/'] <:+: cs →
    s.scan true (cs.map .char) = (.error (s.lexical "/*"), (s.passText cs).holding [])
  | [], s, hf, _ => by
    simp [scan, atEnd, hf, passText, holding, leaving, Position.after]
  | c :: cs, s, hf, hc => by
    rw [List.map_cons, scan_inComment]
    · exact scan_unclosed cs (s.pass c) hf fun h => hc (h.trans (List.suffix_cons c cs).isInfix)
    · rintro rfl rest hrest
      cases cs with
      | nil => simp at hrest
      | cons d cs =>
        obtain ⟨rfl, -⟩ : d = '/' ∧ _ := by simpa using hrest
        exact hc ⟨[], cs, rfl⟩

/-! ### Names -/

/-- No character of a name comes next. -/
def NameEnds (cs : List Char) : Prop := ∀ c ∈ cs.head?, isNameChar c = false

theorem readName_eq : ∀ (name : List Char) (s : Scanner) (rest : List Char),
    s.input.failure = none → (∀ c ∈ name, isNameChar c = true) → NameEnds rest →
    s.readName ((name ++ rest).map .char) =
      (.ok .identifier,
        { s.passText name with
            text := String.ofList (s.text.toList ++ name), sawBlank := false }.holding rest)
  | [], s, [], hf, _, _ => by
    simp [readName, hf, passText, holding, leaving, Position.after]
  | [], s, c :: rest, hf, _, hr => by
    have hc : isNameChar c = false := hr c rfl
    simp [readName, hc, passText, holding, leaving, Position.after, hf]
  | c :: name, s, rest, hf, hn, hr => by
    have hc : isNameChar c = true := hn c List.mem_cons_self
    have ih := readName_eq name { s.pass c with text := s.text.push c } rest hf
      (fun d hd => hn d (List.mem_cons_of_mem c hd)) hr
    rw [List.cons_append, List.map_cons, readName, if_pos hc, ih]
    simp [passText, pass, holding, Position.after]

/-! ### Skipping and stopping -/

/-- What a scan skips: `s` becomes `s'` behind the text. -/
inductive Skips : Scanner → List Char → Scanner → Prop
  | nil (s : Scanner) : Skips s [] s
  | blank {s s' : Scanner} {c : Char} {cs : List Char} (hm : s.mode.IsOutside)
    (hc : isSpace c = true)
    (h : Skips { s.pass c with sawBlank := s.sawBlank || s.mode = .selectors } cs s') :
    Skips s (c :: cs) s'
  | comment {s s' : Scanner} {body cs : List Char} (hm : s.mode.IsOutside) (hb : IsComment body)
    (h : Skips (s.passText ('/' :: '*' :: (body ++ ['*', '/']))) cs s') :
    Skips s ('/' :: '*' :: (body ++ ['*', '/'] ++ cs)) s'
  | semicolon {s s' : Scanner} {cs : List Char} (hm : s.mode = .block)
    (h : Skips (s.pass ';') cs s') : Skips s (';' :: cs) s'
  | collect {s s' : Scanner} {c : Char} {cs : List Char} {m : Mode} (hm : s.mode.through c = some m)
    (h : Skips { s.pass c with mode := m, value := s.value.push c } cs s') : Skips s (c :: cs) s'

/-- Where a scan stops: what it comes to, the scanner behind that, and the text
left to it. -/
inductive Stops (s : Scanner) : List Char → Except ParseError Token → Scanner → List Char → Prop
  | ended (hm : s.mode.quote? = none) : Stops s [] (.ok .endOfInput) s.begun []
  | openString {q : Char} (hm : s.mode.quote? = some q) :
    Stops s [] (.error (.lexical s.position q.toString)) s.begun []
  | openComment {cs : List Char} (hm : s.mode.IsOutside) (hc : ¬ ['*', '/'] <:+: cs) :
    Stops s ('/' :: '*' :: cs) (.error (.lexical s.position "/*"))
      (s.begun.passText ('/' :: '*' :: cs)) []
  | semicolon {cs : List Char} (hm : s.mode = .value) :
    Stops s (';' :: cs) (.ok .semicolon) { s.begun.pass ';' with mode := .block } cs
  | blockClose {cs : List Char} (hm : s.mode = .value) :
    Stops s ('}' :: cs) (.ok .blockClose) { s.begun.pass '}' with mode := .selectors } cs
  | name {c : Char} {name cs : List Char} (hm : s.mode.IsOutside) (hc : isNameStart c = true)
    (hn : ∀ d ∈ name, isNameChar d = true) (he : NameEnds cs) :
    Stops s (c :: name ++ cs) (.ok .identifier)
      { s.begun.passText (c :: name) with text := String.ofList (c :: name), sawBlank := false } cs
  | mark {c : Char} {cs : List Char} (hm : s.mode.IsOutside) (hname : isNameStart c = false)
    (hspace : isSpace c = false) (hslash : c = '/' → cs.head? ≠ some '*')
    (hsemi : s.mode = .block → c ≠ ';') :
    Stops s (c :: cs) ((s.begun.pass c).punctuation c).1 ((s.begun.pass c).punctuation c).2 cs

/-- What is skipped may be skipped at once. -/
theorem scan_skips {s s' : Scanner} {cs : List Char} (h : Skips s cs s') (items : List StreamItem) :
    s.scan false (cs.map .char ++ items) = s'.scan false items := by
  induction h with
  | nil s => rfl
  | blank hm hc _ ih => rw [List.map_cons, List.cons_append, scan_blank _ hm hc, ih]
  | @comment s _ body _ hm hb _ ih =>
    rw [List.map_cons, List.map_cons, List.cons_append, List.cons_append, scan_openComment _ hm,
      List.map_append, List.append_assoc, scan_comment _ _ _ hb, ← ih]
    exact scan_tokenStart (s.passText ('/' :: '*' :: (body ++ ['*', '/']))) s.position _
  | semicolon hm _ ih => rw [List.map_cons, List.cons_append, scan_semicolon _ hm, ih]
  | collect hm _ ih => rw [List.map_cons, List.cons_append, scan_collect _ hm, ih]

/-- What a punctuation character is does not depend on what is left. -/
theorem punctuation_over (s : Scanner) (c : Char) (cs : List Char) :
    (s.holding cs).punctuation c = ((s.punctuation c).1, (s.punctuation c).2.holding cs) := by
  unfold punctuation
  have hmode : (s.holding cs).mode = s.mode := rfl
  rw [hmode]
  split <;> rfl

theorem scan_stops {s s' : Scanner} {cs rest : List Char} {result : Except ParseError Token}
    (hf : s.input.failure = none) (h : Stops s cs result s' rest) :
    s.scan false (cs.map .char) = (result, s'.holding rest) := by
  cases h with
  | ended hm =>
    have hend : s.begun.atEnd false = (.ok .endOfInput, s.begun.leaving []) := by
      obtain ⟨input, mode, text, value, blank, position, start, last⟩ := s
      cases mode <;> first | contradiction | simp_all [atEnd, begun]
    exact hend.trans (by simp [holding, leaving, begun, hf])
  | openString hm =>
    obtain ⟨input, mode, text, value, blank, position, start, last⟩ := s
    cases mode <;> first | contradiction | skip
    all_goals
      obtain rfl := Option.some.inj hm
      simp_all [scan, atEnd, begun, holding, leaving, lexical]
  | @openComment cs hm hc =>
    rw [List.map_cons, List.map_cons, scan_openComment _ hm,
      scan_unclosed cs (s.begun.passText ['/', '*']) hf hc]
    rfl
  | semicolon hm =>
    rw [List.map_cons, scan_value _ hm (.inl rfl)]
    simp [holding, leaving, begun, pass, hf]
  | blockClose hm =>
    rw [List.map_cons, scan_value _ hm (.inr rfl)]
    simp [holding, leaving, begun, pass, hf]
  | @name c name _ hm hc hn he =>
    rw [List.cons_append, List.map_cons, scan_name _ hm hc]
    refine (readName_eq name { s.begun.pass c with text := c.toString } rest hf hn he).trans ?_
    simp [holding, passText, begun, pass, Position.after]
  | @mark c cs hm hname hspace hslash hsemi =>
    have hturn : s.scan false ((c :: rest).map .char) =
        ((s.begun.pass c).leaving (rest.map .char)).punctuation c := by
      by_cases hc : c = '/'
      · subst hc
        exact scan_slash hf hm fun h => hslash rfl h
      · exact scan_mark _ hm hname hspace hc hsemi
    have hleft : (s.begun.pass c).leaving (rest.map .char) = (s.begun.pass c).holding rest := by
      simp [holding, leaving, begun, pass, hf]
    rw [hturn, hleft, punctuation_over]

/-! ### Every scan -/

/-- The name at the front of a text ends somewhere. -/
theorem exists_nameEnds : ∀ cs : List Char, ∃ name rest, cs = name ++ rest ∧
    (∀ d ∈ name, isNameChar d = true) ∧ NameEnds rest
  | [] => ⟨[], [], rfl, by simp, by simp [NameEnds]⟩
  | c :: cs => by
    cases hc : isNameChar c with
    | false => exact ⟨[], c :: cs, rfl, by simp, by simp [NameEnds, hc]⟩
    | true =>
      obtain ⟨name, rest, rfl, hn, he⟩ := exists_nameEnds cs
      exact ⟨c :: name, rest, rfl, List.forall_mem_cons.2 ⟨hc, hn⟩, he⟩

/-- A scan skips something, or it stops. -/
theorem skips_or_stops (s : Scanner) : ∀ cs : List Char,
    (∃ skipped front s₁, skipped ≠ [] ∧ cs = skipped ++ front ∧ Skips s skipped s₁) ∨
      ∃ result s' rest, Stops s cs result s' rest
  | [] => by
    right
    cases hm : s.mode.quote? with
    | none => exact ⟨_, _, _, .ended hm⟩
    | some q => exact ⟨_, _, _, .openString hm⟩
  | c :: cs => by
    cases hthrough : s.mode.through c with
    | some m => exact .inl ⟨[c], cs, _, by simp, rfl, .collect hthrough (.nil _)⟩
    | none =>
      rcases Mode.of_through_eq_none hthrough with hm | ⟨hm, rfl | rfl⟩
      · by_cases hspace : isSpace c = true
        · exact .inl ⟨[c], cs, _, by simp, rfl, .blank hm hspace (.nil _)⟩
        by_cases hname : isNameStart c = true
        · obtain ⟨name, rest, rfl, hn, he⟩ := exists_nameEnds cs
          exact .inr ⟨_, _, _, .name hm hname hn he⟩
        -- Behind a slash the next character decides between a comment and an error.
        by_cases hcomment : c = '/' ∧ cs.head? = some '*'
        · obtain ⟨rfl, hhead⟩ := hcomment
          obtain ⟨cs, rfl⟩ := List.head?_eq_some_iff.1 hhead
          by_cases hclosed : ['*', '/'] <:+: cs
          · obtain ⟨body, rest, hb, rfl⟩ := exists_isComment cs hclosed
            refine .inl ⟨'/' :: '*' :: (body ++ ['*', '/'] ++ []), rest, _, by simp, by simp,
              .comment hm hb (.nil _)⟩
          · exact .inr ⟨_, _, _, .openComment hm hclosed⟩
        by_cases hsemi : s.mode = .block ∧ c = ';'
        · obtain ⟨hblock, rfl⟩ := hsemi
          exact .inl ⟨[';'], cs, _, by simp, rfl, .semicolon hblock (.nil _)⟩
        · exact .inr ⟨_, _, _, .mark hm (by simpa using hname) (by simpa using hspace)
            (fun h => fun hhead => hcomment ⟨h, hhead⟩) (fun h => fun hc => hsemi ⟨h, hc⟩)⟩
      · exact .inr ⟨_, _, _, .semicolon hm⟩
      · exact .inr ⟨_, _, _, .blockClose hm⟩

theorem Skips.trans {s s₁ s₂ : Scanner} {cs ds : List Char} (h : Skips s cs s₁)
    (h' : Skips s₁ ds s₂) : Skips s (cs ++ ds) s₂ := by
  induction h with
  | nil => exact h'
  | blank hm hc _ ih => exact .blank hm hc (ih h')
  | @comment s _ body cs hm hb _ ih => simpa using Skips.comment hm hb (ih h')
  | semicolon hm _ ih => exact .semicolon hm (ih h')
  | collect hm _ ih => exact .collect hm (ih h')

/-- Whatever comes, a scan skips the front of it and stops. -/
theorem exists_stops (s : Scanner) (cs : List Char) : ∃ skipped front s₁ result s' rest,
    cs = skipped ++ front ∧ Skips s skipped s₁ ∧ Stops s₁ front result s' rest := by
  rcases skips_or_stops s cs with
    ⟨skipped, front, s₁, hne, rfl, hskips⟩ | ⟨result, s', rest, hstops⟩
  · have : front.length < (skipped ++ front).length := by
      simpa using List.length_pos_iff.2 hne
    obtain ⟨more, front, s₂, result, s', rest, rfl, hmore, hstops⟩ := exists_stops s₁ front
    exact ⟨skipped ++ more, front, s₂, result, s', rest, by simp, hskips.trans hmore, hstops⟩
  · exact ⟨[], cs, s, result, s', rest, rfl, .nil s, hstops⟩
termination_by cs.length

/-- A token takes something off the text, unless that is at its end. -/
theorem Stops.length_lt {s s' : Scanner} {cs rest : List Char} {result : Except ParseError Token}
    {t : Token} (h : Stops s cs result s' rest) (hr : result = .ok t) (ht : t ≠ .endOfInput) :
    rest.length < cs.length := by
  cases h with
  | ended => exact absurd (Except.ok.inj hr).symm ht
  | openString => nomatch hr
  | openComment => nomatch hr
  | semicolon | blockClose | mark => simp
  | name =>
    simp only [List.length_append, List.length_cons]
    omega

/-! ### Places and modes -/

theorem punctuation_position (s : Scanner) (c : Char) :
    (s.punctuation c).2.position = s.position := by
  unfold punctuation
  split <;> rfl

theorem Skips.position {s s' : Scanner} {cs : List Char} (h : Skips s cs s') :
    s'.position = s.position.after cs := by
  induction h with
  | nil => rfl
  | blank _ _ _ ih | semicolon _ _ ih | collect _ _ ih => exact ih
  | @comment s _ body cs _ _ _ ih =>
    rw [ih, show '/' :: '*' :: (body ++ ['*', '/'] ++ cs) = '/' :: '*' :: (body ++ ['*', '/']) ++ cs
      from rfl, Position.after_append]
    rfl

theorem Stops.position {s s' : Scanner} {cs rest : List Char} {result : Except ParseError Token}
    (h : Stops s cs result s' rest) :
    ∃ taken, cs = taken ++ rest ∧ s'.position = s.position.after taken := by
  cases h with
  | ended | openString => exact ⟨[], rfl, rfl⟩
  | openComment => exact ⟨_, (List.append_nil _).symm, rfl⟩
  | semicolon => exact ⟨[';'], rfl, rfl⟩
  | blockClose => exact ⟨['}'], rfl, rfl⟩
  | @name c name => exact ⟨c :: name, rfl, rfl⟩
  | @mark c => exact ⟨[c], rfl, punctuation_position _ c⟩

/-- Among selectors a scan stays there as long as it skips. -/
theorem Skips.mode_selectors {s s' : Scanner} {cs : List Char} (h : Skips s cs s')
    (hm : s.mode = .selectors) : s'.mode = .selectors := by
  induction h with
  | nil => exact hm
  | blank _ _ _ ih => exact ih hm
  | comment _ _ _ ih => exact ih hm
  | semicolon hblock => simp [hm] at hblock
  | collect hthrough => simp [hm, Mode.through] at hthrough

/-- Behind a block a scanner is among selectors. -/
theorem Stops.mode_selectors {s s' : Scanner} {cs rest : List Char}
    {result : Except ParseError Token} (h : Stops s cs result s' rest)
    (hr : result = .ok .blockClose) : s'.mode = .selectors := by
  cases h with
  | ended => simp at hr
  | openString => nomatch hr
  | openComment => nomatch hr
  | semicolon => simp at hr
  | blockClose => rfl
  | name => simp at hr
  | mark =>
    revert hr
    unfold punctuation
    split <;> simp

/-! ### The lexemes of a text -/

/-- What is skipped does not depend on what is left to read. -/
theorem Skips.holding {s s' : Scanner} {cs : List Char} (h : Skips s cs s') (left : List Char) :
    Skips (s.holding left) cs (s'.holding left) := by
  induction h with
  | nil => exact .nil _
  | blank hm hc _ ih => exact .blank hm hc ih
  | comment hm hb _ ih => exact .comment hm hb ih
  | semicolon hm _ ih => exact .semicolon hm ih
  | collect hm _ ih => exact .collect hm ih

theorem Stops.holding {s s' : Scanner} {cs rest : List Char} {result : Except ParseError Token}
    (h : Stops s cs result s' rest) (left : List Char) :
    Stops (s.holding left) cs result (s'.holding left) rest := by
  cases h with
  | ended hm => exact .ended hm
  | openString hm => exact .openString hm
  | openComment hm hc => exact .openComment hm hc
  | semicolon hm => exact .semicolon hm
  | blockClose hm => exact .blockClose hm
  | name hm hc hn he => exact .name hm hc hn he
  | @mark c _ hm hname hspace hslash hsemi =>
    have hmark := Stops.mark (s := s.holding left) hm hname hspace hslash hsemi
    rwa [show (s.holding left).begun.pass c = (s.begun.pass c).holding left from rfl,
      punctuation_over] at hmark

/-- The lexemes that a scanner reads with a text left. -/
def lexemesOf (s : Scanner) (cs : List Char) : Lexemes := (s.holding cs).lexemes

/-- The lexemes behind what a scan comes to. -/
def lexemesAfter (s : Scanner) (cs : List Char) : Except ParseError Token → Lexemes
  | .error e => .failed e
  | .ok t =>
    if t = .endOfInput then .ended s.tokenStart
    else .next { s with last := t }.lexeme ({ s with last := t }.lexemesOf cs)

/-- No more lexemes come where the scan came to the end. -/
theorem of_lexemesAfter_ended {s : Scanner} {cs : List Char} {result : Except ParseError Token}
    {position : Position} (h : s.lexemesAfter cs result = .ended position) :
    result = .ok .endOfInput := by
  unfold lexemesAfter at h
  split at h
  · simp at h
  · split at h
    · next ht => rw [ht]
    · simp at h

/-- A lexeme comes where the scan came to its token. -/
theorem of_lexemesAfter_next {s : Scanner} {cs : List Char} {result : Except ParseError Token}
    {l : Lexeme} {rest : Lexemes} (h : s.lexemesAfter cs result = .next l rest) :
    ∃ t, result = .ok t ∧ t ≠ .endOfInput ∧ l = { s with last := t }.lexeme ∧
      { s with last := t }.lexemesOf cs = rest := by
  unfold lexemesAfter at h
  split at h
  · simp at h
  · next t =>
    split at h
    · simp at h
    · next ht =>
      obtain ⟨rfl, rfl⟩ := Lexemes.next.inj h
      exact ⟨t, rfl, ht, rfl, rfl⟩

section Call

variable {s s₁ s' : Scanner} {skipped front rest : List Char}

theorem scan_holding {result : Except ParseError Token} (hskips : Skips s skipped s₁)
    (hstops : Stops s₁ front result s' rest) :
    (s.holding (skipped ++ front)).scan false (s.holding (skipped ++ front)).input.items =
      (result, s'.holding rest) := by
  refine (congrArg _ List.map_append).trans ?_
  rw [scan_skips (hskips.holding _), scan_stops rfl (hstops.holding _)]
  rfl

theorem next_of_error {e : ParseError} (hskips : Skips s skipped s₁)
    (hstops : Stops s₁ front (.error e) s' rest) :
    (s.holding (skipped ++ front)).next = (.error e, s'.holding rest) := by
  rw [next, scan_holding hskips hstops]

theorem next_of_ok {t : Token} (hskips : Skips s skipped s₁)
    (hstops : Stops s₁ front (.ok t) s' rest) :
    (s.holding (skipped ++ front)).next = (.ok t, { s' with last := t }.holding rest) := by
  rw [next, scan_holding hskips hstops]
  rfl

theorem lexemesOf_eq {result : Except ParseError Token} (hskips : Skips s skipped s₁)
    (hstops : Stops s₁ front result s' rest) :
    s.lexemesOf (skipped ++ front) = s'.lexemesAfter rest result := by
  cases result with
  | error e =>
    have hnext := next_of_error hskips hstops
    rw [lexemesOf, lexemes]
    split
    · simp_all [lexemesAfter]
    · simp_all
  | ok t =>
    have hnext := next_of_ok hskips hstops
    rw [lexemesOf, lexemes]
    split
    · simp_all
    · next token s₂ heq =>
      obtain ⟨rfl, rfl⟩ : t = token ∧ { s' with last := t }.holding rest = s₂ := by
        simpa [hnext] using heq
      rfl

end Call

theorem lexemesOf_stops {s s' : Scanner} {front rest : List Char}
    {result : Except ParseError Token} (h : Stops s front result s' rest) :
    s.lexemesOf front = s'.lexemesAfter rest result :=
  lexemesOf_eq (.nil s) h

/-- No lexeme comes of what is skipped. -/
theorem lexemesOf_skips {s s' : Scanner} {skipped : List Char} (h : Skips s skipped s')
    (cs : List Char) : s.lexemesOf (skipped ++ cs) = s'.lexemesOf cs := by
  obtain ⟨more, front, s₁, result, s₂, rest, rfl, hmore, hstops⟩ := exists_stops s' cs
  rw [← List.append_assoc, lexemesOf_eq (h.trans hmore) hstops, lexemesOf_eq hmore hstops]

end Scanner

end RichText.Sheet
