/-
# Selectors as they are written

A compound may be written with several suffixes of a kind, such as `.a.b`, and then only the
last of them is kept: a rule made of `.a.b` matches what has the class `b`, with or without the
class `a`, which no key could have as well (`repeated_class_dropped`). What the rules of a text
are made of is what stands in the text, so every rule can be held against its own selector:
what it matches has the last class and the last id written in the last compound, and of the
others just those that are the same (`rules_honour_last_names`).

Where a text is read without an error it is written as its lexemes say, one relation for each
construct of the grammar (`WritesCompound`, `WritesChain`, `WritesSelectors`, `WritesContent`).
They name the text that is left behind a construct, as where a name ends shows only there. The
lexemes are taken off the text one by one (`Scanner.Lexes`); among selectors each stands there
behind a gap (`Scanner.Shown`), and the rest is by induction on the grammar.

Key definitions: `WrittenCompound`, `WrittenCompound.kept`, `WritesCompound`, `WritesChain`,
`WritesSelectors`, `WritesContent`, `Scanner.Lexes`, `Scanner.Shown`.
Key theorems: `Scanner.exists_lexes`, `Scanner.Lexes.exists_shown`, `writes_content`,
`WrittenCompound.className_kept`, `rules_honour_last_names`.
-/
import RichText.Proofs.InlineBlocks
import RichText.Proofs.RuleOrder

namespace RichText

open Text

namespace Sheet

/-! ### What is written -/

/-- A compound as it is written: its tag, none for a star or if it is left out, and the marks
and names of its suffixes in their order. -/
structure WrittenCompound where
  element : Option String
  suffixes : List (Char × String)
  /-- Written with `>` behind it. -/
  directChild : Bool := false
deriving DecidableEq, Repr

namespace WrittenCompound

/-- What is kept of a compound: a suffix takes the place of the one before it of its kind. -/
def kept (w : WrittenCompound) : Compound :=
  { w.suffixes.foldl Compound.suffixed { element := w.element } with
    directChild := w.directChild }

/-- The names behind a mark, in their order. -/
def names (w : WrittenCompound) (mark : Char) : List String :=
  (w.suffixes.filter (·.1 = mark)).map (·.2)

/-- No suffix says anything of a `>`. -/
theorem directChild_foldl_suffixed (suffixes : List (Char × String)) (c : Compound) :
    (suffixes.foldl Compound.suffixed c).directChild = c.directChild := by
  induction suffixes generalizing c with
  | nil => rfl
  | cons suffix suffixes ih =>
    rw [List.foldl_cons, ih]
    unfold Compound.suffixed
    split <;> rfl

theorem kept_eq (element : Option String) (suffixes : List (Char × String)) :
    kept { element, suffixes } = suffixes.foldl Compound.suffixed { element } := by
  have hdirect := directChild_foldl_suffixed suffixes { element }
  generalize hc : suffixes.foldl Compound.suffixed { element } = c at hdirect
  obtain ⟨e, className, id, pseudoClass, direct⟩ := c
  obtain rfl : direct = false := hdirect
  rw [kept, hc]

/-- What a suffix is kept as is what the last one of its kind says. -/
theorem foldl_suffixed (part : Compound → Option String) (mark : Char)
    (hpart : ∀ (c : Compound) (suffix : Char × String),
      part (c.suffixed suffix) = if suffix.1 = mark then some suffix.2 else part c)
    (suffixes : List (Char × String)) (c : Compound) :
    part (suffixes.foldl Compound.suffixed c) =
      ((suffixes.filter (·.1 = mark)).map (·.2)).getLast?.or (part c) := by
  induction suffixes using List.reverseRecOn with
  | nil => rfl
  | append_singleton suffixes suffix ih =>
    rw [List.foldl_append, List.foldl_cons, List.foldl_nil, hpart, ih, List.filter_append,
      List.map_append]
    by_cases hmark : suffix.1 = mark
    · simp [hmark]
    · simp [hmark]

theorem className_kept (w : WrittenCompound) : w.kept.className = (w.names '.').getLast? := by
  refine (foldl_suffixed (·.className) '.' (fun c suffix => ?_) _ _).trans Option.or_none
  unfold Compound.suffixed
  split
  · next h => simp [h]
  · next h => simp [h]
  · next h _ => exact (if_neg h).symm

theorem id_kept (w : WrittenCompound) : w.kept.id = (w.names '#').getLast? := by
  refine (foldl_suffixed (·.id) '#' (fun c suffix => ?_) _ _).trans Option.or_none
  unfold Compound.suffixed
  split
  · next h => simp [h]
  · next h => simp [h]
  · next h => exact (if_neg h).symm

end WrittenCompound

/-! ### The text of selectors -/

/-- Suffixes at the front of a text, and what is left of it. -/
inductive WritesSuffixes : List Char → List (Char × String) → List Char → Prop
  | nil (rest : List Char) : WritesSuffixes rest [] rest
  | cons {blank : Bool} {before behind more rest : List Char} {suffix : Char × String}
    {suffixes : List (Char × String)} (hb : IsGap false before) (ha : IsGap blank behind)
    (hs : IsSuffix suffix) (he : Scanner.NameEnds more) (h : WritesSuffixes more suffixes rest) :
    WritesSuffixes (before ++ suffix.1 :: (behind ++ (suffix.2.toList ++ more)))
      (suffix :: suffixes) rest

/-- A compound at the front of a text: a tag, a star or a first suffix, and suffixes. -/
inductive WritesCompound : List Char → WrittenCompound → List Char → Prop
  | named {name : String} {more rest : List Char} {suffixes : List (Char × String)}
    (hn : IsName name) (he : Scanner.NameEnds more) (h : WritesSuffixes more suffixes rest) :
    WritesCompound (name.toList ++ more) { element := some name, suffixes } rest
  | star {more rest : List Char} {suffixes : List (Char × String)}
    (h : WritesSuffixes more suffixes rest) :
    WritesCompound ('*' :: more) { element := none, suffixes } rest
  | bare {text rest : List Char} {suffix : Char × String} {suffixes : List (Char × String)}
    (hfirst : text.head? = some suffix.1) (h : WritesSuffixes text (suffix :: suffixes) rest) :
    WritesCompound text { element := none, suffixes := suffix :: suffixes } rest

/-- A text that goes on with a suffix. -/
def BeginsSuffix (text : List Char) : Prop :=
  ∃ c t, text.head? = some c ∧ Scanner.markToken c = some t ∧ t.beginsSuffix = true

/-- A selector at the front of a text, its compounds from the outermost inwards. Where no blank
stands between two of them and no `>`, the next one begins with no suffix, which would belong
to the one before. -/
inductive WritesChain : List Char → List WrittenCompound → List Char → Prop
  | last {text rest : List Char} {w : WrittenCompound} (h : WritesCompound text w rest) :
    WritesChain text [w] rest
  | child {blank blank' : Bool} {text before behind more rest : List Char} {w : WrittenCompound}
    {inner : List WrittenCompound}
    (h : WritesCompound text w (before ++ '>' :: (behind ++ more))) (hb : IsGap blank before)
    (ha : IsGap blank' behind) (hm : WritesChain more inner rest) :
    WritesChain text ({ w with directChild := true } :: inner) rest
  | inside {blank : Bool} {text gap more rest : List Char} {w : WrittenCompound}
    {inner : List WrittenCompound} (h : WritesCompound text w (gap ++ more))
    (hg : IsGap blank gap) (ha : blank = false → ¬BeginsSuffix more)
    (hm : WritesChain more inner rest) : WritesChain text (w :: inner) rest

/-- The selectors of a rule, up to the brace behind them. -/
inductive WritesSelectors : List Char → List (List WrittenCompound) → List Char → Prop
  | last {blank blank' : Bool} {before text behind rest : List Char}
    {compounds : List WrittenCompound} (hb : IsGap blank before)
    (h : WritesChain text compounds (behind ++ '{' :: rest)) (ha : IsGap blank' behind) :
    WritesSelectors (before ++ text) [compounds] rest
  | next {blank blank' : Bool} {before text behind more rest : List Char}
    {compounds : List WrittenCompound} {others : List (List WrittenCompound)}
    (hb : IsGap blank before) (h : WritesChain text compounds (behind ++ ',' :: more))
    (ha : IsGap blank' behind) (hm : WritesSelectors more others rest) :
    WritesSelectors (before ++ text) (compounds :: others) rest

/-! ### Lexemes and their texts -/

namespace Scanner

/-- Of the front of a text lexemes are read, one by one, and `s'` reads what is left. -/
inductive Lexes : Scanner → List Char → List Lexeme → Scanner → List Char → Prop
  | nil (s : Scanner) (text : List Char) : Lexes s text [] s text
  | next {s s₁ s₂ s' : Scanner} {skipped front more rest : List Char} {t : Token}
    {read : List Lexeme} (hskips : Skips s skipped s₁) (hstops : Stops s₁ front (.ok t) s₂ more)
    (ht : t ≠ .endOfInput) (h : Lexes { s₂ with last := t } more read s' rest) :
    Lexes s (skipped ++ front) ({ s₂ with last := t }.lexeme :: read) s' rest

/-- Lexemes that come first are read of the front of the text. -/
theorem exists_lexes : ∀ (read : List Lexeme) (s : Scanner) (text : List Char) {rest : Lexemes},
    s.lexemesOf text = rest.behind read →
      ∃ s' left, Lexes s text read s' left ∧ s'.lexemesOf left = rest
  | [], s, text, _, h => ⟨s, text, .nil s text, h⟩
  | l :: read, s, text, rest, h => by
    obtain ⟨skipped, front, s₁, result, s₂, more, rfl, hskips, hstops⟩ := exists_stops s text
    rw [lexemesOf_eq hskips hstops, Lexemes.behind_cons] at h
    obtain ⟨t, rfl, ht, rfl, hmore⟩ := of_lexemesAfter_next h
    obtain ⟨s', left, hlexes, hleft⟩ := exists_lexes read _ more hmore
    exact ⟨s', left, .next hskips hstops ht hlexes, hleft⟩

variable {s s' : Scanner} {text rest : List Char} {read : List Lexeme}

theorem Lexes.split : ∀ {front : List Lexeme} {s : Scanner} {text : List Char},
    Lexes s text (front ++ read) s' rest →
      ∃ s₁ mid, Lexes s text front s₁ mid ∧ Lexes s₁ mid read s' rest
  | [], s, text, h => ⟨s, text, .nil s text, h⟩
  | l :: front, s, text, h => by
    cases h with
    | next hskips hstops ht h =>
      obtain ⟨s₁, mid, hfront, hread⟩ := h.split
      exact ⟨s₁, mid, .next hskips hstops ht hfront, hread⟩

/-- Behind a closing brace a scanner is among selectors. -/
theorem Lexes.mode_selectors (h : Lexes s text read s' rest) :
    ∀ {front : List Lexeme} {brace : Lexeme}, read = front ++ [brace] →
      brace.token = .blockClose → s'.mode = .selectors := by
  induction h with
  | nil => intro front brace hread; simp at hread
  | next hskips hstops ht h ih =>
    intro front brace hread hbrace
    cases front with
    | nil =>
      obtain ⟨rfl, rfl⟩ := List.cons.inj hread
      cases h with
      | nil => exact hstops.mode_selectors (congrArg Except.ok hbrace)
    | cons l front =>
      obtain ⟨-, hmore⟩ := List.cons.inj hread
      exact ih hmore hbrace

/-- Among selectors nothing but a gap is skipped. -/
theorem Skips.isGap (h : Skips s text s') (hm : s.mode = .selectors) :
    ∃ blank, IsGap blank text ∧ s'.mode = .selectors ∧ s'.sawBlank = (s.sawBlank || blank) := by
  induction h with
  | nil s => exact ⟨false, .nil, hm, (Bool.or_false _).symm⟩
  | @blank s s' c cs _ hc _ ih =>
    obtain ⟨blank, hgap, hm', hblank⟩ := ih hm
    exact ⟨true, .blank hc hgap, hm', by simp [hblank, hm]⟩
  | comment _ hb _ ih =>
    obtain ⟨blank, hgap, hm', hblank⟩ := ih hm
    exact ⟨blank, .comment hb hgap, hm', hblank⟩
  | semicolon hblock => simp [hm] at hblock
  | collect hthrough => simp [hm, Mode.through] at hthrough

/-- What a lexeme among selectors stands in the text as, in front of `rest`, and what the
scanner behind it knows. `blank` is whether a blank was passed before it. -/
inductive Shown (blank : Bool) (l : Lexeme) : List Char → Scanner → List Char → Prop
  | name {s' : Scanner} {name rest : List Char} (ht : l.token = .identifier) (hn : IsName l.text)
    (hname : name = l.text.toList) (he : NameEnds rest) (hm : s'.mode = .selectors)
    (hb : s'.sawBlank = false) : Shown blank l (name ++ rest) s' rest
  | star {s' : Scanner} {rest : List Char} (ht : l.token = .star) (hm : s'.mode = .selectors)
    (hb : s'.sawBlank = false) : Shown blank l ('*' :: rest) s' rest
  | mark {c : Char} {s' : Scanner} {rest : List Char} (hc : markToken c = some l.token)
    (hb : l.sawBlank = blank) (hm : s'.mode = .selectors) : Shown blank l (c :: rest) s' rest
  | brace {s' : Scanner} {rest : List Char} (ht : l.token = .blockOpen) (hm : s'.mode = .block) :
    Shown blank l ('{' :: rest) s' rest

/-- What a character is among selectors, where it is a token. -/
theorem punctuation_selectors {c : Char} {t : Token} (hm : s.mode = .selectors)
    (h : s.punctuation c = (.ok t, s')) :
    c = '*' ∧ t = .star ∧ s' = { s with sawBlank := false } ∨
      c = '{' ∧ t = .blockOpen ∧ s' = { s with mode := .block } ∨
        markToken c = some t ∧ s' = s := by
  unfold punctuation at h
  rw [hm] at h
  split at h
  all_goals simp_all [markToken]

/-- Where a scan stops among selectors. -/
theorem Stops.shown {t : Token} (h : Stops s text (.ok t) s' rest) (ht : t ≠ .endOfInput)
    (hm : s.mode = .selectors) :
    Shown s.sawBlank { s' with last := t }.lexeme text { s' with last := t } rest := by
  generalize hresult : (Except.ok t : Except ParseError Token) = result at h
  cases h with
  | ended => exact absurd (Except.ok.inj hresult) ht
  | openString => cases hresult
  | openComment => cases hresult
  | semicolon hvalue => simp [hm] at hvalue
  | blockClose hvalue => simp [hm] at hvalue
  | @name c name _ _ hc hn he =>
    obtain rfl := Except.ok.inj hresult
    have htext : (String.ofList (c :: name)).toList = c :: name := String.toList_ofList
    exact .name rfl ⟨c, name, htext, hc, hn⟩ htext.symm he hm rfl
  | @mark c =>
    generalize hfound : (s.begun.pass c).punctuation c = found at hresult ⊢
    obtain ⟨answer, s₂⟩ := found
    obtain rfl : Except.ok t = answer := hresult
    rcases punctuation_selectors (s := s.begun.pass c) hm hfound with
      ⟨rfl, rfl, rfl⟩ | ⟨rfl, rfl, rfl⟩ | ⟨hc, rfl⟩
    · exact .star rfl hm rfl
    · exact .brace rfl rfl
    · exact .mark hc rfl hm

/-- Among selectors the first lexeme stands in the text behind a gap. -/
theorem Lexes.exists_shown {l : Lexeme} (h : Lexes s text (l :: read) s' rest)
    (hm : s.mode = .selectors) :
    ∃ blank gap front s₁ mid, text = gap ++ front ∧ IsGap blank gap ∧
      Shown (s.sawBlank || blank) l front s₁ mid ∧ Lexes s₁ mid read s' rest := by
  cases h with
  | next hskips hstops ht h =>
    obtain ⟨blank, hgap, hm₁, hblank⟩ := hskips.isGap hm
    have hshown := hstops.shown ht hm₁
    rw [hblank] at hshown
    exact ⟨blank, _, _, _, _, rfl, hgap, hshown, h⟩

theorem markToken_kind {c : Char} {t : Token} (h : markToken c = some t) :
    t ≠ .identifier ∧ t ≠ .star ∧ t ≠ .blockOpen := by
  unfold markToken at h
  split at h
  case h_7 => cases h
  all_goals
    obtain rfl := Option.some.inj h
    decide

/-- No token is marked by two characters. -/
theorem markToken_inj {c c' : Char} {t : Token} (h : markToken c = some t)
    (h' : markToken c' = some t) : c = c' := by
  unfold markToken at h h'
  split at h <;> cases h <;> split at h' <;> first | rfl | cases h'

variable {l : Lexeme}

/-- A name stands behind a gap, and does not go on. -/
theorem Lexes.name (h : Lexes s text (l :: read) s' rest) (hm : s.mode = .selectors)
    (ht : l.token = .identifier) :
    ∃ blank gap s₁ mid, text = gap ++ (l.text.toList ++ mid) ∧ IsGap blank gap ∧
      IsName l.text ∧ NameEnds mid ∧ (s₁.mode = .selectors ∧ s₁.sawBlank = false) ∧
      Lexes s₁ mid read s' rest := by
  obtain ⟨blank, gap, front, s₁, mid, rfl, hgap, hshown, hread⟩ := h.exists_shown hm
  cases hshown with
  | name _ hn hname he hm₁ hb =>
    subst hname
    exact ⟨blank, gap, s₁, mid, rfl, hgap, hn, he, ⟨hm₁, hb⟩, hread⟩
  | star hstar => simp [ht] at hstar
  | mark hc => exact absurd ht (markToken_kind hc).1
  | brace hbrace => simp [ht] at hbrace

theorem Lexes.star (h : Lexes s text (l :: read) s' rest) (hm : s.mode = .selectors)
    (ht : l.token = .star) :
    ∃ blank gap s₁ mid, text = gap ++ '*' :: mid ∧ IsGap blank gap ∧
      (s₁.mode = .selectors ∧ s₁.sawBlank = false) ∧ Lexes s₁ mid read s' rest := by
  obtain ⟨blank, gap, front, s₁, mid, rfl, hgap, hshown, hread⟩ := h.exists_shown hm
  cases hshown with
  | name hname => simp [ht] at hname
  | star _ hm₁ hb => exact ⟨blank, gap, s₁, mid, rfl, hgap, ⟨hm₁, hb⟩, hread⟩
  | mark hc => exact absurd ht (markToken_kind hc).2.1
  | brace hbrace => simp [ht] at hbrace

/-- A mark stands behind a gap, and knows of a blank there or before. -/
theorem Lexes.mark {c : Char} (h : Lexes s text (l :: read) s' rest) (hm : s.mode = .selectors)
    (hc : markToken c = some l.token) :
    ∃ blank gap s₁ mid, text = gap ++ c :: mid ∧ IsGap blank gap ∧
      l.sawBlank = (s.sawBlank || blank) ∧ s₁.mode = .selectors ∧ Lexes s₁ mid read s' rest := by
  obtain ⟨blank, gap, front, s₁, mid, rfl, hgap, hshown, hread⟩ := h.exists_shown hm
  obtain ⟨hname, hstar, hbrace⟩ := markToken_kind hc
  cases hshown with
  | name ht => exact absurd ht hname
  | star ht => exact absurd ht hstar
  | mark hc' hb hm₁ =>
    obtain rfl := markToken_inj hc hc'
    exact ⟨blank, gap, s₁, mid, rfl, hgap, hb, hm₁, hread⟩
  | brace ht => exact absurd ht hbrace

theorem Lexes.brace (h : Lexes s text (l :: read) s' rest) (hm : s.mode = .selectors)
    (ht : l.token = .blockOpen) :
    ∃ blank gap s₁ mid, text = gap ++ '{' :: mid ∧ IsGap blank gap ∧ s₁.mode = .block ∧
      Lexes s₁ mid read s' rest := by
  obtain ⟨blank, gap, front, s₁, mid, rfl, hgap, hshown, hread⟩ := h.exists_shown hm
  cases hshown with
  | name hname => simp [ht] at hname
  | star hstar => simp [ht] at hstar
  | mark hc => exact absurd ht (markToken_kind hc).2.2
  | brace _ hm₁ => exact ⟨blank, gap, s₁, mid, rfl, hgap, hm₁, hread⟩

/-- Where nothing more is read among selectors, a gap is left. -/
theorem isGap_of_ended {place : Position} (h : s.lexemesOf text = .ended place)
    (hm : s.mode = .selectors) : ∃ blank, IsGap blank text := by
  obtain ⟨skipped, front, s₁, result, s₂, more, rfl, hskips, hstops⟩ := exists_stops s text
  rw [lexemesOf_eq hskips hstops] at h
  obtain rfl : front = [] := hstops.eq_nil (of_lexemesAfter_ended h)
  obtain ⟨blank, hgap, -⟩ := hskips.isGap hm
  exact ⟨blank, by rwa [List.append_nil]⟩

end Scanner

/-! ### The text of what is read -/

open Scanner

/-- A block behind its brace: declarations and the brace that closes it. -/
def WritesBlock (text rest : List Char) : Prop :=
  ∃ (s s' : Scanner) (read : List Lexeme) (found : List Declaration),
    s.mode = .block ∧ Lexes s text read s' rest ∧ IsBlock read found

/-- The rules and at-rules of a text, of the rules the compounds of their selectors. -/
inductive WritesContent : List Char → List (List (List WrittenCompound)) → Prop
  | done {blank : Bool} {gap : List Char} (hg : IsGap blank gap) : WritesContent gap []
  | rule {text block more : List Char} {chains : List (List WrittenCompound)}
    {others : List (List (List WrittenCompound))} (hs : WritesSelectors text chains block)
    (hb : WritesBlock block more) (hm : WritesContent more others) :
    WritesContent text (chains :: others)
  | atRule {blank₁ blank₂ blank₃ : Bool} {gap₁ gap₂ gap₃ block more : List Char} {name : String}
    {others : List (List (List WrittenCompound))} (h₁ : IsGap blank₁ gap₁)
    (h₂ : IsGap blank₂ gap₂) (h₃ : IsGap blank₃ gap₃) (hn : IsName name)
    (hb : WritesBlock block more) (hm : WritesContent more others) :
    WritesContent (gap₁ ++ '@' :: (gap₂ ++ (name.toList ++ (gap₃ ++ '{' :: block)))) others

variable {s s' : Scanner} {text rest : List Char} {read : List Lexeme}

theorem exists_markToken {t : Token} (h : t.beginsSuffix = true) : ∃ c, markToken c = some t := by
  cases t with
  | dot => exact ⟨'.', rfl⟩
  | hash => exact ⟨'#', rfl⟩
  | colon => exact ⟨':', rfl⟩
  | _ => cases h

/-- A mark and a name stand for a suffix, which begins where the mark stands. -/
theorem exists_suffix {mark name : Lexeme} (h : Lexes s text (mark :: name :: read) s' rest)
    (hm : s.mode = .selectors) (hmark : mark.token.beginsSuffix = true)
    (hname : name.token = .identifier) :
    ∃ blank before c blank' behind s₁ more,
      text = before ++ c :: (behind ++ (name.text.toList ++ more)) ∧ IsGap blank before ∧
        mark.sawBlank = (s.sawBlank || blank) ∧ IsGap blank' behind ∧
        markToken c = some mark.token ∧ IsSuffix (c, name.text) ∧ NameEnds more ∧
        (s₁.mode = .selectors ∧ s₁.sawBlank = false) ∧ Lexes s₁ more read s' rest := by
  obtain ⟨c, hc⟩ := exists_markToken hmark
  obtain ⟨blank, before, s₁, mid, rfl, hbefore, hblank, hm₁, hmid⟩ := h.mark hm hc
  obtain ⟨blank', behind, s₂, more, rfl, hbehind, hn, he, hs₂, hread⟩ := hmid.name hm₁ hname
  exact ⟨blank, before, c, blank', behind, s₂, more, rfl, hbefore, hblank, hbehind, hc,
    ⟨⟨_, hc, hmark⟩, hn⟩, he, hs₂, hread⟩

theorem writes_suffixes {c c' : Compound} (h : IsSuffixed c read c') :
    ∀ {s : Scanner} {text : List Char}, Lexes s text read s' rest → s.mode = .selectors →
      s.sawBlank = false → ∃ suffixes, WritesSuffixes text suffixes rest ∧
        c' = suffixes.foldl Compound.suffixed c ∧ s'.mode = .selectors ∧ s'.sawBlank = false := by
  induction h with
  | nil c =>
    intro s text hlexes hm hblank
    cases hlexes with
    | nil => exact ⟨[], .nil _, rfl, hm, hblank⟩
  | @next c c' mark name read hmark hb hn _ ih =>
    intro s text hlexes hm hblank
    obtain ⟨blank, before, x, blank', behind, s₁, more, rfl, hbefore, hsaw, hbehind, hx, hsuffix,
      he, ⟨hm₁, hblank₁⟩, hmore⟩ := exists_suffix hlexes hm hmark hn
    -- The scanner has passed no blank since the name before, nor has it in front of the mark.
    obtain rfl : blank = false := by simpa [hb, hblank] using hsaw.symm
    obtain ⟨suffixes, hsuffixes, rfl, hs'⟩ := ih hmore hm₁ hblank₁
    refine ⟨(x, name.text) :: suffixes, .cons hbefore hbehind hsuffix he hsuffixes, ?_, hs'⟩
    rw [withSuffix_eq hx]
    rfl

theorem not_beginsSuffix_of_isNameChar {c : Char} (hc : isNameChar c = true) (cs : List Char) :
    ¬BeginsSuffix (c :: cs) := by
  rintro ⟨x, t, hx, ht, -⟩
  obtain rfl : c = x := by simpa using hx
  rw [isNameChar_of_markToken ht] at hc
  exact absurd hc (by decide)

/-- A compound stands behind a gap. If it begins with a suffix and belongs to none before it,
then there is a blank in the gap. -/
theorem writes_compound {c : Compound} (h : IsCompound read c)
    (hlexes : Lexes s text read s' rest) (hm : s.mode = .selectors) :
    ∃ blank gap front w, text = gap ++ front ∧ IsGap blank gap ∧ WritesCompound front w rest ∧
      c = w.kept ∧ (s'.mode = .selectors ∧ s'.sawBlank = false) ∧
      (s.sawBlank = false → IsApart read → blank = false → ¬BeginsSuffix front) := by
  cases h with
  | @name first read c hf h =>
    obtain ⟨blank, gap, s₁, mid, rfl, hgap, hn, he, ⟨hm₁, hb₁⟩, hread⟩ := hlexes.name hm hf
    obtain ⟨suffixes, hsuffixes, rfl, hs'⟩ := writes_suffixes h hread hm₁ hb₁
    refine ⟨blank, gap, _, _, rfl, hgap, .named hn he hsuffixes,
      (WrittenCompound.kept_eq _ _).symm, hs', fun _ _ _ => ?_⟩
    obtain ⟨x, cs, hname, -⟩ := id hn
    have hx : isNameChar x = true := hn.isNameChar x (by simp [hname])
    rw [hname]
    exact not_beginsSuffix_of_isNameChar hx _
  | @star first read c hf h =>
    obtain ⟨blank, gap, s₁, mid, rfl, hgap, ⟨hm₁, hb₁⟩, hread⟩ := hlexes.star hm hf
    obtain ⟨suffixes, hsuffixes, rfl, hs'⟩ := writes_suffixes h hread hm₁ hb₁
    refine ⟨blank, gap, _, _, rfl, hgap, .star hsuffixes,
      (WrittenCompound.kept_eq _ _).symm, hs', fun _ _ _ => ?_⟩
    rintro ⟨x, t, hx, ht, -⟩
    obtain rfl : '*' = x := by simpa using hx
    cases ht
  | @suffix mark name read c hmark hn h =>
    obtain ⟨blank, gap, x, blank', behind, s₁, more, rfl, hgap, hsaw, hbehind, hx, hsuffix, he,
      ⟨hm₁, hb₁⟩, hmore⟩ := exists_suffix hlexes hm hmark hn
    obtain ⟨suffixes, hsuffixes, rfl, hs'⟩ := writes_suffixes h hmore hm₁ hb₁
    refine ⟨blank, gap, _, { element := none, suffixes := (x, name.text) :: suffixes }, rfl, hgap,
      .bare rfl (.cons .nil hbehind hsuffix he hsuffixes), ?_, hs', fun hb hapart hnone => ?_⟩
    · rw [withSuffix_eq hx, WrittenCompound.kept_eq]
      rfl
    · have hmust := hapart mark rfl hmark
      simp [hsaw, hb, hnone] at hmust

theorem IsApart.front {more : List Lexeme} (h : IsApart (read ++ more)) : IsApart read := by
  intro l hl
  apply h l
  rw [List.head?_append, Option.mem_def.1 hl]
  rfl

/-- The compounds of a selector, from the outermost inwards, with `outer` kept of those before. -/
theorem writes_chain {outer found : Chain} (h : IsChain outer read found) :
    ∀ {s : Scanner} {text : List Char}, Lexes s text read s' rest → s.mode = .selectors →
      ∃ blank gap front compounds, text = gap ++ front ∧ IsGap blank gap ∧
        WritesChain front compounds rest ∧
        found = (compounds.map WrittenCompound.kept).reverse ++ outer ∧ s'.mode = .selectors ∧
        (s.sawBlank = false → IsApart read → blank = false → ¬BeginsSuffix front) := by
  induction h with
  | last hc =>
    intro s text hlexes hm
    obtain ⟨blank, gap, front, w, rfl, hgap, hw, rfl, ⟨hm', -⟩, hapart⟩ :=
      writes_compound hc hlexes hm
    exact ⟨blank, gap, front, [w], rfl, hgap, .last hw, rfl, hm', hapart⟩
  | @child outer found read more mark c hc hmark h ih =>
    intro s text hlexes hm
    obtain ⟨s₁, mid, hread, hmore⟩ := hlexes.split
    obtain ⟨blank, gap, front, w, rfl, hgap, hw, rfl, ⟨hm₁, -⟩, hapart⟩ :=
      writes_compound hc hread hm
    obtain ⟨_, before, s₂, left, rfl, hbefore, -, hm₂, hleft⟩ :=
      hmore.mark (c := '>') hm₁ (by rw [hmark]; rfl)
    obtain ⟨_, behind, inner, compounds, rfl, hbehind, hinner, rfl, hm', -⟩ := ih hleft hm₂
    refine ⟨blank, gap, front, { w with directChild := true } :: compounds, rfl, hgap,
      .child hw hbefore hbehind hinner, ?_, hm', fun hb ha => hapart hb ha.front⟩
    simp [WrittenCompound.kept]
  | @inside outer found read more c hc ha h ih =>
    intro s text hlexes hm
    obtain ⟨s₁, mid, hread, hmore⟩ := hlexes.split
    obtain ⟨blank, gap, front, w, rfl, hgap, hw, rfl, ⟨hm₁, hb₁⟩, hapart⟩ :=
      writes_compound hc hread hm
    obtain ⟨_, between, inner, compounds, rfl, hbetween, hinner, rfl, hm', hinside⟩ := ih hmore hm₁
    refine ⟨blank, gap, front, w :: compounds, rfl, hgap,
      .inside hw hbetween (hinside hb₁ ha) hinner, ?_, hm', fun hb ha => hapart hb ha.front⟩
    simp

/-- What is kept of the compounds of a selector: the subject comes first. -/
def keptChain (compounds : List WrittenCompound) : Chain :=
  (compounds.map WrittenCompound.kept).reverse

theorem writes_selectors {chains : List Chain} (h : IsSelectors read chains) :
    ∀ {s : Scanner} {text : List Char}, Lexes s text read s' rest → s.mode = .selectors →
      ∃ written, WritesSelectors text written rest ∧ chains = written.map keptChain ∧
        s'.mode = .block := by
  induction h with
  | last h hb =>
    intro s text hlexes hm
    obtain ⟨s₁, mid, hread, hbrace⟩ := hlexes.split
    obtain ⟨_, before, front, compounds, rfl, hbefore, hchain, rfl, hm₁, -⟩ :=
      writes_chain h hread hm
    obtain ⟨_, behind, s₂, left, rfl, hbehind, hm₂, hleft⟩ := hbrace.brace hm₁ hb
    cases hleft with
    | nil => exact ⟨[compounds], .last hbefore hchain hbehind, by simp [keptChain], hm₂⟩
  | next h hc _ ih =>
    intro s text hlexes hm
    obtain ⟨s₁, mid, hread, hcomma⟩ := hlexes.split
    obtain ⟨_, before, front, compounds, rfl, hbefore, hchain, rfl, hm₁, -⟩ :=
      writes_chain h hread hm
    obtain ⟨_, behind, s₂, left, rfl, hbehind, -, hm₂, hleft⟩ :=
      hcomma.mark (c := ',') hm₁ (by rw [hc]; rfl)
    obtain ⟨others, hothers, rfl, hm'⟩ := ih hleft hm₂
    exact ⟨compounds :: others, .next hbefore hchain hbehind hothers, by simp [keptChain], hm'⟩

/-- A text is written as its lexemes say. -/
theorem writes_content {content : Content} (h : IsContent read content) {place : Position} :
    ∀ {s s' : Scanner} {text rest : List Char}, Lexes s text read s' rest →
      s.mode = .selectors → s'.lexemesOf rest = .ended place →
      ∃ written, WritesContent text written ∧
        content.rules.map (·.selectors) = written.map (·.map keptChain) := by
  induction h with
  | nil =>
    intro s s' text rest hlexes hm hend
    cases hlexes with
    | nil =>
      obtain ⟨blank, hgap⟩ := isGap_of_ended hend hm
      exact ⟨[], .done hgap, rfl⟩
  | rule hr hd _ ih =>
    intro s s' text rest hlexes hm hend
    obtain ⟨s₁, block, hread, hmore⟩ := hlexes.split
    obtain ⟨s₂, left, hblock, hleft⟩ := hmore.split
    obtain ⟨chains, hchains, rfl, hm₁⟩ := writes_selectors hr hread hm
    obtain ⟨front, brace, hfront, hbrace⟩ := hd.exists_close
    obtain ⟨others, hothers, hrules⟩ := ih hleft (hblock.mode_selectors hfront hbrace) hend
    refine ⟨chains :: others, .rule hchains ⟨s₁, s₂, _, _, hm₁, hblock, hd⟩ hothers, ?_⟩
    simp [hrules]
  | atRule hmark hn hb hd _ ih =>
    intro s s' text rest hlexes hm hend
    obtain ⟨_, gap₁, s₁, mid₁, rfl, h₁, -, hm₁, hlexes₁⟩ :=
      hlexes.mark (c := '@') hm (by rw [hmark]; rfl)
    obtain ⟨_, gap₂, s₂, mid₂, rfl, h₂, hname, -, ⟨hm₂, -⟩, hlexes₂⟩ := hlexes₁.name hm₁ hn
    obtain ⟨_, gap₃, s₃, block, rfl, h₃, hm₃, hlexes₃⟩ := hlexes₂.brace hm₂ hb
    obtain ⟨s₄, left, hblock, hleft⟩ := hlexes₃.split
    obtain ⟨front, brace, hfront, hbrace⟩ := hd.exists_close
    obtain ⟨others, hothers, hrules⟩ := ih hleft (hblock.mode_selectors hfront hbrace) hend
    exact ⟨others, .atRule h₁ h₂ h₃ hname ⟨s₃, s₄, _, _, hm₃, hblock, hd⟩ hothers, hrules⟩

/-- A text that is read is written somehow, and what is kept of it are its selectors. -/
theorem exists_writes {text : String} {content : Content} (h : parseString text = .ok content) :
    ∃ written, WritesContent text.toList written ∧
      content.rules.map (·.selectors) = written.map (·.map keptChain) := by
  rw [parseString_eq] at h
  obtain ⟨read, place, hread, hcontent⟩ := stylesheet_sound h
  obtain ⟨s', left, hlexes, hleft⟩ := exists_lexes read fresh text.toList hread
  exact writes_content hcontent hlexes rfl hleft

end Sheet

/-! ### Rules and what they match -/

open Sheet (WrittenCompound WritesContent WritesSelectors keptChain)

namespace Link

variable {l : Link} {k : Key} {name : String}

theorem className_of_fits (h : l.fits k = true) (hl : l.className = some name) :
    k.className = some name := by
  simp only [fits, hl, Option.all_some, Bool.and_eq_true, beq_iff_eq] at h
  exact h.1.2.symm

theorem id_of_fits (h : l.fits k = true) (hl : l.id = some name) : k.id = some name := by
  simp only [fits, hl, Option.all_some, Bool.and_eq_true, beq_iff_eq] at h
  exact h.2.symm

end Link

/-- Wherever the rule matches, the nearest key has of the classes and of the ids in the last
compound of a selector just those that are the last one. -/
def Selector.HonoursLast (compounds : List WrittenCompound) (rule : Selector) : Prop :=
  ∀ (t : StyleTree) (node : Nat), rule.fits t node = true →
    ∃ subject key, compounds.getLast? = some subject ∧ (t.keysAbove node).head? = some key ∧
      (∀ name ∈ subject.names '.',
        key.className = some name ↔ (subject.names '.').getLast? = some name) ∧
      ∀ name ∈ subject.names '#', key.id = some name ↔ (subject.names '#').getLast? = some name

namespace StyleSheet

/-- What has the last of some names has none of the others. -/
theorem forall_mem_iff_of_getLast? {names : List String} {part : Option String}
    (h : ∀ last, names.getLast? = some last → part = some last) :
    ∀ name ∈ names, part = some name ↔ names.getLast? = some name := by
  intro name hname
  cases hlast : names.getLast? with
  | none => exact absurd (List.getLast?_eq_none_iff.1 hlast) (List.ne_nil_of_mem hname)
  | some last => rw [h last hlast]

theorem honoursLast_ofChain (compounds : List WrittenCompound) (style : Style) :
    Selector.HonoursLast compounds (.ofChain (keptChain compounds) style) := by
  intro t node hfits
  have hkeys : matchesKeys ((keptChain compounds).map .ofCompound) (t.keysAbove node) = true :=
    hfits
  rcases List.eq_nil_or_concat' compounds with rfl | ⟨outer, subject, rfl⟩
  · simp [keptChain, matchesKeys] at hkeys
  · have hchain : keptChain (outer ++ [subject]) = subject.kept :: keptChain outer := by
      simp [keptChain]
    rw [hchain, List.map_cons] at hkeys
    cases hup : t.keysAbove node with
    | nil => simp [hup, matchesKeys] at hkeys
    | cons key above =>
      rw [hup, matchesKeys, Bool.and_eq_true] at hkeys
      obtain ⟨hfirst, -⟩ := hkeys
      refine ⟨subject, key, List.getLast?_concat, rfl, ?_, ?_⟩
      · apply forall_mem_iff_of_getLast?
        intro last hlast
        exact Link.className_of_fits hfirst (subject.className_kept.trans hlast)
      · apply forall_mem_iff_of_getLast?
        intro last hlast
        exact Link.id_of_fits hfirst (subject.id_kept.trans hlast)

/-- The rules that are made of written ones, one for each selector in its place. -/
theorem forall₂_selectorsOf (r : Registry) : ∀ {rules : List Sheet.Rule}
    {written : List (List (List WrittenCompound))},
    rules.map (·.selectors) = written.map (·.map keptChain) →
      List.Forall₂ Selector.HonoursLast written.flatten
        (rules.flatMap fun rule => (selectorsOf r rule).2)
  | [], [], _ => .nil
  | [], _ :: _, h => by simp at h
  | _ :: _, [], h => by simp at h
  | rule :: rules, chains :: written, h => by
    obtain ⟨hrule, hrules⟩ : rule.selectors = chains.map keptChain ∧ _ := List.cons.inj h
    rw [List.flatten_cons, List.flatMap_cons]
    refine List.rel_append ?_ (forall₂_selectorsOf r hrules)
    show List.Forall₂ _ chains (rule.selectors.map _)
    rw [hrule, List.map_map, List.forall₂_map_right_iff, List.forall₂_same]
    exact fun compounds _ => honoursLast_ofChain compounds _

/-- **Of several classes or ids the last one counts.** A text that is read is written as some
rules and at-rules, and a stylesheet gets one rule for each selector in it. Wherever that
matches, the nearest key from the node upward has the last class and the last id that stand in
the last compound of the selector, and none that is written before and is another. -/
theorem rules_honour_last_names (s : StyleSheet) {text : String} {content : Sheet.Content}
    (h : Sheet.parseString text = .ok content) :
    ∃ written made, WritesContent text.toList written ∧
      List.Forall₂ Selector.HonoursLast written.flatten made ∧
      (s.parseString text).2.rules =
        made.foldl (fun rules rule => insertRule rule rules) s.rules := by
  obtain ⟨written, hwritten, hkept⟩ := Sheet.exists_writes h
  have hmade : rulesOf s.registry (.ofString text) =
      content.rules.flatMap fun rule => (selectorsOf s.registry rule).2 := by
    have hparse : Sheet.parse (.ofString text) = .ok content := h
    rw [rulesOf, hparse]
  refine ⟨written, _, hwritten, forall₂_selectorsOf s.registry hkept, ?_⟩
  rw [← hmade]
  exact rules_parse s _

theorem rules_honour_last_names_twice :
    ∃ written made, WritesContent "p.a.b#x#y, .c > * \x7b color: red \x7d".toList written ∧
      List.Forall₂ Selector.HonoursLast written.flatten made ∧
      ((new .standard).parseString "p.a.b#x#y, .c > * \x7b color: red \x7d").2.rules =
        made.foldl (fun rules rule => insertRule rule rules) (new .standard).rules := by
  have hparse : Sheet.parseString "p.a.b#x#y, .c > * \x7b color: red \x7d" =
      .ok ⟨[⟨[[{ element := some "p", className := some "b", id := some "y" }],
        [{}, { className := some "c", directChild := true }]], [⟨"color", "red", 1⟩]⟩], []⟩ :=
    Sheet.eq_ok_of_toOption (by decide +kernel)
  exact rules_honour_last_names (.new .standard) hparse

/-- A paragraph of the class `b`. -/
def onlyB : StyleTree :=
  (StyleTree.empty 1 .standard).push none (some (.of "p" (some "b") none)) .empty

/-- The rule of a selector with two classes matches what has the second one alone. -/
theorem repeated_class_dropped :
    WritesSelectors ".a.b \x7b color: red \x7d".toList
        [[{ element := none, suffixes := [('.', "a"), ('.', "b")] }]] " color: red \x7d".toList ∧
      ∃ rule ∈ rulesOf .standard (.ofString ".a.b \x7b color: red \x7d"),
        rule.fits onlyB 0 = true ∧
          ∀ key ∈ (onlyB.keysAbove 0).head?, key.className ≠ some "a" := by
  have ha : Sheet.IsSuffix ('.', "a") := ⟨⟨.dot, rfl, rfl⟩, 'a', [], rfl, rfl, by simp⟩
  have hb : Sheet.IsSuffix ('.', "b") := ⟨⟨.dot, rfl, rfl⟩, 'b', [], rfl, rfl, by simp⟩
  have hsecond := Sheet.WritesSuffixes.cons .nil .nil hb
    (Sheet.nameEnds_cons (c := ' ') (by decide) ('{' :: " color: red \x7d".toList)) (.nil _)
  have hfirst := Sheet.WritesSuffixes.cons .nil .nil ha
    (Sheet.nameEnds_cons (c := '.') (by decide) _) hsecond
  have hwrites := WritesSelectors.last .nil (.last (.bare rfl hfirst))
    (.blank (c := ' ') rfl .nil)
  have hparse : Sheet.parse (.ofString ".a.b \x7b color: red \x7d") =
      .ok ⟨[⟨[[{ className := some "b" }]], [⟨"color", "red", 1⟩]⟩], []⟩ :=
    Sheet.eq_ok_of_toOption (by decide +kernel)
  have hkey : (onlyB.keysAbove 0).head? = some (.of "p" (some "b") none) := by decide +kernel
  refine ⟨hwrites, ?_⟩
  rw [rulesOf, hparse]
  refine ⟨_, List.mem_singleton.2 rfl, by decide +kernel, ?_⟩
  rw [hkey]
  rintro key ⟨⟩
  decide

end StyleSheet

end RichText
