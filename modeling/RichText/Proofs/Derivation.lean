/-
# What the grammar of a stylesheet derives

The grammar as relations between the lexemes of a construct and what they say
(`IsBlock`, `IsCompound`, `IsChain`, `IsSelectors`, `IsContent`), apart from
the readers that decide it. A reader that comes to something has taken lexemes
that say it (`declarations_sound` and so on), and lexemes that say something
are read as that, whatever comes behind them, as long as it cannot belong to
the construct (`declarations_complete` and so on). Content is closed by its
last brace: nothing behind it can belong to it, so a stylesheet is read part
by part (`stylesheet_behind`).

Key definitions: `Lexemes.behind`, `IsBlock`, `IsCompound`, `IsChain`,
`IsSelectors`, `IsContent`, `Content.join`.
Key theorems: `declarations_sound`, `chain_sound`, `chain_complete`,
`stylesheet_sound`, `stylesheet_behind`.
-/
import RichText.Sheet.Grammar

namespace RichText.Sheet

open RichText.Text

/-- The lexemes `read`, and `rest` behind them. -/
def Lexemes.behind (rest : Lexemes) (read : List Lexeme) : Lexemes := read.foldr .next rest

@[simp]
theorem Lexemes.behind_nil (rest : Lexemes) : rest.behind [] = rest := rfl

@[simp]
theorem Lexemes.behind_cons (rest : Lexemes) (l : Lexeme) (read : List Lexeme) :
    rest.behind (l :: read) = .next l (rest.behind read) := rfl

@[simp]
theorem Lexemes.behind_append (rest : Lexemes) (read more : List Lexeme) :
    rest.behind (read ++ more) = (rest.behind more).behind read := by
  simp [behind]

/-! ### The grammar -/

/-- What a declaration says, by its name and by the lexeme that ends its value. -/
def Declaration.said (name stop : Lexeme) : Declaration :=
  ⟨name.text, String.ofList (trim stop.value.toList), name.start.line⟩

/-- The lexemes of a block behind its opening brace. -/
inductive IsBlock : List Lexeme → List Declaration → Prop
  | close {brace : Lexeme} (hb : brace.token = .blockClose) : IsBlock [brace] []
  | last {name colon brace : Lexeme} (hn : name.token = .identifier) (hc : colon.token = .colon)
    (hb : brace.token = .blockClose) : IsBlock [name, colon, brace] [.said name brace]
  | next {name colon stop : Lexeme} {read : List Lexeme} {found : List Declaration}
    (hn : name.token = .identifier) (hc : colon.token = .colon) (hs : stop.token = .semicolon)
    (h : IsBlock read found) : IsBlock (name :: colon :: stop :: read) (.said name stop :: found)

/-- The suffixes behind the compound `c`, and what it is with them. -/
inductive IsSuffixed : Compound → List Lexeme → Compound → Prop
  | nil (c : Compound) : IsSuffixed c [] c
  | next {c c' : Compound} {mark name : Lexeme} {read : List Lexeme}
    (hm : mark.token.beginsSuffix = true) (hb : mark.sawBlank = false)
    (hn : name.token = .identifier) (h : IsSuffixed (c.withSuffix mark.token name.text) read c') :
    IsSuffixed c (mark :: name :: read) c'

inductive IsCompound : List Lexeme → Compound → Prop
  | name {first : Lexeme} {read : List Lexeme} {c : Compound} (hf : first.token = .identifier)
    (h : IsSuffixed { element := some first.text } read c) : IsCompound (first :: read) c
  | star {first : Lexeme} {read : List Lexeme} {c : Compound} (hf : first.token = .star)
    (h : IsSuffixed {} read c) : IsCompound (first :: read) c
  | suffix {mark name : Lexeme} {read : List Lexeme} {c : Compound}
    (hm : mark.token.beginsSuffix = true) (hn : name.token = .identifier)
    (h : IsSuffixed (Compound.withSuffix {} mark.token name.text) read c) :
    IsCompound (mark :: name :: read) c

/-- A suffix that the lexemes begin with is apart from what is before them. -/
def IsApart (read : List Lexeme) : Prop :=
  ∀ l ∈ read.head?, l.token.beginsSuffix = true → l.sawBlank = true

/-- The compounds of a selector, where `outer` are the ones before them, the
innermost first. -/
inductive IsChain : Chain → List Lexeme → Chain → Prop
  | last {outer : Chain} {read : List Lexeme} {c : Compound} (hc : IsCompound read c) :
    IsChain outer read (c :: outer)
  | child {outer found : Chain} {read more : List Lexeme} {mark : Lexeme} {c : Compound}
    (hc : IsCompound read c) (hm : mark.token = .greater)
    (h : IsChain ({ c with directChild := true } :: outer) more found) :
    IsChain outer (read ++ mark :: more) found
  | inside {outer found : Chain} {read more : List Lexeme} {c : Compound}
    (hc : IsCompound read c) (ha : IsApart more) (h : IsChain (c :: outer) more found) :
    IsChain outer (read ++ more) found

/-- The selectors of a rule, with the brace behind them. -/
inductive IsSelectors : List Lexeme → List Chain → Prop
  | last {read : List Lexeme} {brace : Lexeme} {found : Chain} (h : IsChain [] read found)
    (hb : brace.token = .blockOpen) : IsSelectors (read ++ [brace]) [found]
  | next {read more : List Lexeme} {comma : Lexeme} {found : Chain} {others : List Chain}
    (h : IsChain [] read found) (hc : comma.token = .comma) (hm : IsSelectors more others) :
    IsSelectors (read ++ comma :: more) (found :: others)

/-- The lexemes of rules and at-rules. -/
inductive IsContent : List Lexeme → Content → Prop
  | nil : IsContent [] {}
  | rule {read block more : List Lexeme} {chains : List Chain} {found : List Declaration}
    {content : Content} (hr : IsSelectors read chains) (hd : IsBlock block found)
    (h : IsContent more content) :
    IsContent (read ++ (block ++ more)) { content with rules := ⟨chains, found⟩ :: content.rules }
  | atRule {mark name brace : Lexeme} {block more : List Lexeme} {found : List Declaration}
    {content : Content} (hm : mark.token = .atSign) (hn : name.token = .identifier)
    (hb : brace.token = .blockOpen) (hd : IsBlock block found) (h : IsContent more content) :
    IsContent (mark :: name :: brace :: (block ++ more))
      { content with atRules := ⟨name.text, found⟩ :: content.atRules }

/-! ### Declarations -/

theorem declarations_sound {lexemes rest : Lexemes} {found : List Declaration}
    (h : declarations lexemes = .ok (found, rest)) :
    ∃ read, lexemes = rest.behind read ∧ IsBlock read found := by
  fun_induction declarations lexemes generalizing found rest with
  | case1 brace _ hb =>
    obtain ⟨rfl, rfl⟩ : [] = found ∧ _ = rest := by simpa using h
    exact ⟨[brace], rfl, .close hb⟩
  | case4 =>
    rename_i name _ hn colon brace _ _ hc hb
    obtain ⟨rfl, rfl⟩ : _ = found ∧ _ = rest := by simpa using h
    exact ⟨[name, colon, brace], rfl, .last (by simpa using hn) (by simpa using hc) hb⟩
  | case6 =>
    rename_i name _ hn colon stop more _ hc _ hs ih
    cases hd : declarations more with
    | error e => simp [hd, Except.map] at h
    | ok found' =>
      obtain ⟨rfl, rfl⟩ : _ = found ∧ _ = rest := by simpa [hd, Except.map] using h
      obtain ⟨read, rfl, hread⟩ := ih hd
      exact ⟨name :: colon :: stop :: read, rfl,
        .next (by simpa using hn) (by simpa using hc) (by simpa using hs) hread⟩
  | _ => simp at h

theorem declarations_complete {read : List Lexeme} {found : List Declaration}
    (h : IsBlock read found) (rest : Lexemes) :
    declarations (rest.behind read) = .ok (found, rest) := by
  induction h with
  | close hb =>
    rw [Lexemes.behind_cons, Lexemes.behind_nil, declarations.eq_def]
    simp [hb]
  | last hn hc hb => simp [declarations, hn, hc, hb, Declaration.said]
  | next hn hc hs _ ih => simp [declarations, hn, hc, hs, ih, Except.map, Declaration.said]

/-! ### Compounds -/

/-- What a compound ends before: anything that can be read and is apart from it. -/
def Lexemes.EndsCompound : Lexemes → Prop
  | .next mark _ => mark.token.beginsSuffix = true → mark.sawBlank = true
  | .ended _ => True
  | .failed _ => False

theorem suffixes_sound {c c' : Compound} {lexemes rest : Lexemes}
    (h : suffixes false c lexemes = .ok (c', rest)) :
    ∃ read, lexemes = rest.behind read ∧ IsSuffixed c read c' ∧ rest.EndsCompound := by
  generalize hbegins : false = begins at h
  fun_induction suffixes begins c lexemes with
  | case1 begins c mark hm name rest' hn ih =>
    subst hbegins
    obtain ⟨hm, hb⟩ : mark.token.beginsSuffix = true ∧ mark.sawBlank = false := by simpa using hm
    obtain ⟨read, rfl, hread, hends⟩ := ih rfl h
    exact ⟨mark :: name :: read, rfl, .next hm hb hn hread, hends⟩
  | case4 begins c mark rest' hm =>
    subst hbegins
    obtain ⟨rfl, rfl⟩ : c = c' ∧ _ = rest := by simpa using h
    exact ⟨[], rfl, .nil c, by simpa [Lexemes.EndsCompound] using hm⟩
  | case5 =>
    obtain ⟨rfl, rfl⟩ : _ = c' ∧ _ = rest := by simpa using h
    exact ⟨[], rfl, .nil _, trivial⟩
  | _ => simp at h

theorem suffixes_complete {c c' : Compound} {read : List Lexeme} (h : IsSuffixed c read c')
    {rest : Lexemes} (hends : rest.EndsCompound) :
    suffixes false c (rest.behind read) = .ok (c', rest) := by
  induction h with
  | nil c =>
    cases rest with
    | next mark more =>
      have hmark : mark.token.beginsSuffix = true → mark.sawBlank = true := hends
      rw [Lexemes.behind_nil, suffixes.eq_def]
      simp_all
    | ended position => rfl
    | failed e => exact hends.elim
  | next hm hb hn _ ih => simp [suffixes, hm, hb, hn, ih]

theorem compound_sound {c : Compound} {lexemes rest : Lexemes}
    (h : compound lexemes = .ok (c, rest)) :
    ∃ read, lexemes = rest.behind read ∧ IsCompound read c ∧ rest.EndsCompound := by
  have suffix (mark : Lexeme) (more : Lexemes) (hm : mark.token.beginsSuffix = true)
      (h : suffixes true {} (.next mark more) = .ok (c, rest)) :
      ∃ read, Lexemes.next mark more = rest.behind read ∧ IsCompound read c ∧
        rest.EndsCompound := by
    unfold suffixes at h
    simp only [hm, Bool.true_or, Bool.and_self, if_true] at h
    split at h
    · next name more =>
      split at h
      · next hn =>
        obtain ⟨read, rfl, hread, hends⟩ := suffixes_sound h
        exact ⟨mark :: name :: read, rfl, .suffix hm hn hread, hends⟩
      · simp at h
    · simp at h
  unfold compound at h
  split at h
  · next first more =>
    split at h
    · next hf =>
      obtain ⟨read, rfl, hread, hends⟩ := suffixes_sound h
      exact ⟨first :: read, rfl, .name hf hread, hends⟩
    · next hf =>
      obtain ⟨read, rfl, hread, hends⟩ := suffixes_sound h
      exact ⟨first :: read, rfl, .star hf hread, hends⟩
    · next ht => exact suffix first more (by simp [ht, Token.beginsSuffix]) h
    · next ht => exact suffix first more (by simp [ht, Token.beginsSuffix]) h
    · next ht => exact suffix first more (by simp [ht, Token.beginsSuffix]) h
    · simp at h
  · simp at h

theorem compound_complete {c : Compound} {read : List Lexeme} (h : IsCompound read c)
    {rest : Lexemes} (hends : rest.EndsCompound) :
    compound (rest.behind read) = .ok (c, rest) := by
  cases h with
  | name hf h => simp [compound, hf, suffixes_complete h hends]
  | star hf h => simp [compound, hf, suffixes_complete h hends]
  | @suffix mark name read _ hm hn h =>
    have hsuffix : suffixes true {} (rest.behind (mark :: name :: read)) = .ok (c, rest) := by
      simp [suffixes, hm, hn, suffixes_complete h hends]
    cases ht : mark.token with
    | dot | hash | colon => simpa [compound, ht] using hsuffix
    | _ => simp [ht, Token.beginsSuffix] at hm

/-- Every compound takes a lexeme, which no comma, brace or `>` is. -/
theorem IsCompound.exists_cons {read : List Lexeme} {c : Compound} (h : IsCompound read c) :
    ∃ first more, read = first :: more ∧ first.token ≠ .greater ∧ first.token ≠ .comma ∧
      first.token ≠ .blockOpen ∧ first.token ≠ .atSign := by
  have hmark {mark : Lexeme} (hm : mark.token.beginsSuffix = true) :
      mark.token ≠ .greater ∧ mark.token ≠ .comma ∧ mark.token ≠ .blockOpen ∧
        mark.token ≠ .atSign := by
    cases ht : mark.token <;> simp_all [Token.beginsSuffix]
  cases h with
  | name hf => exact ⟨_, _, rfl, by simp [hf]⟩
  | star hf => exact ⟨_, _, rfl, by simp [hf]⟩
  | suffix hm => exact ⟨_, _, rfl, hmark hm⟩

theorem IsChain.exists_cons {outer found : Chain} {read : List Lexeme}
    (h : IsChain outer read found) :
    ∃ first more, read = first :: more ∧ first.token ≠ .greater ∧ first.token ≠ .comma ∧
      first.token ≠ .blockOpen ∧ first.token ≠ .atSign := by
  cases h with
  | last hc => exact hc.exists_cons
  | child hc | inside hc =>
    obtain ⟨first, more, rfl, hfirst⟩ := hc.exists_cons
    exact ⟨first, _, rfl, hfirst⟩

/-! ### Selectors -/

/-- What a selector ends before: a comma or the brace of the block. -/
def Lexemes.EndsChain (rest : Lexemes) : Prop :=
  ∃ mark more, rest = .next mark more ∧ (mark.token = .comma ∨ mark.token = .blockOpen)

theorem chain_sound {outer found : Chain} {lexemes rest : Lexemes}
    (h : chain outer lexemes = .ok (found, rest)) :
    ∃ read, lexemes = rest.behind read ∧ IsChain outer read found ∧ rest.EndsChain := by
  fun_induction chain outer lexemes with
  | case1 => simp at h
  | case2 outer lexemes c mark more hc _ hm ih =>
    obtain ⟨read, rfl, hread, -⟩ := compound_sound hc
    obtain ⟨more, rfl, hmore, hends⟩ := ih h
    exact ⟨read ++ mark :: more, by simp, .child hread hm hmore, hends⟩
  | case3 outer lexemes c mark more hc _ hm =>
    obtain ⟨rfl, rfl⟩ : _ = found ∧ _ = rest := by simpa using h
    obtain ⟨read, rfl, hread, -⟩ := compound_sound hc
    exact ⟨read, rfl, .last hread, mark, more, rfl, .inl hm⟩
  | case4 outer lexemes c mark more hc _ hm =>
    obtain ⟨rfl, rfl⟩ : _ = found ∧ _ = rest := by simpa using h
    obtain ⟨read, rfl, hread, -⟩ := compound_sound hc
    exact ⟨read, rfl, .last hread, mark, more, rfl, .inr hm⟩
  | case5 outer lexemes c mark more hc _ _ _ _ ih =>
    obtain ⟨read, rfl, hread, hapart⟩ := compound_sound hc
    obtain ⟨more', hmore', hchain, hends⟩ := ih h
    obtain ⟨first, others, rfl, -⟩ := hchain.exists_cons
    obtain ⟨rfl, rfl⟩ : mark = first ∧ more = _ := by simpa using hmore'
    refine ⟨read ++ mark :: others, by simp, .inside hread ?_ hchain, hends⟩
    rintro l hl
    obtain rfl : mark = l := by simpa using hl
    exact hapart
  | case6 => simp at h

/-- How a selector is read, apart from why that ends. -/
theorem chain_eq (outer : Chain) (lexemes : Lexemes) :
    chain outer lexemes =
      match compound lexemes with
      | .error e => .error e
      | .ok (c, .next mark more) =>
        match mark.token with
        | .greater => chain ({ c with directChild := true } :: outer) more
        | .comma | .blockOpen => .ok (c :: outer, .next mark more)
        | _ => chain (c :: outer) (.next mark more)
      | .ok (_, rest) => .error rest.unexpected := by
  rw [chain.eq_def]
  split
  · next h => simp [h]
  · next mark _ h =>
    cases ht : mark.token <;> simp only [h, ht]
  · next rest hrest h =>
    cases rest with
    | next mark more => exact (hrest mark more rfl).elim
    | ended | failed => simp [h]

theorem chain_complete {outer found : Chain} {read : List Lexeme} (h : IsChain outer read found)
    {rest : Lexemes} (hends : rest.EndsChain) :
    chain outer (rest.behind read) = .ok (found, rest) := by
  induction h with
  | last hc =>
    obtain ⟨mark, more, rfl, hm⟩ := hends
    have hapart : (Lexemes.next mark more).EndsCompound := by
      rcases hm with hm | hm <;> simp [Lexemes.EndsCompound, hm, Token.beginsSuffix]
    rw [chain_eq, compound_complete hc hapart]
    rcases hm with hm | hm <;> simp [hm]
  | @child _ _ _ more mark _ hc hm _ ih =>
    have hapart : (Lexemes.next mark (rest.behind more)).EndsCompound := by
      simp [Lexemes.EndsCompound, hm, Token.beginsSuffix]
    rw [Lexemes.behind_append, Lexemes.behind_cons, chain_eq, compound_complete hc hapart]
    simpa [hm] using ih
  | inside hc ha hmore ih =>
    obtain ⟨first, others, rfl, hgreater, hcomma, hopen, -⟩ := hmore.exists_cons
    have hapart : (Lexemes.next first (rest.behind others)).EndsCompound := ha first rfl
    rw [Lexemes.behind_append, Lexemes.behind_cons, chain_eq, compound_complete hc hapart]
    rw [Lexemes.behind_cons] at ih
    simpa only [hgreater, hcomma, hopen] using ih

theorem selectors_sound {lexemes rest : Lexemes} {found : List Chain}
    (h : selectors lexemes = .ok (found, rest)) :
    ∃ read, lexemes = rest.behind read ∧ IsSelectors read found := by
  fun_induction selectors lexemes generalizing found rest with
  | case1 => simp at h
  | case2 => simp at h
  | case3 lexemes first mark more hc _ hm others rest' hmore ih =>
    obtain ⟨rfl, rfl⟩ : _ = found ∧ _ = rest := by simpa using h
    obtain ⟨read, rfl, hread, -⟩ := chain_sound hc
    obtain ⟨more, rfl, hothers⟩ := ih hmore
    exact ⟨read ++ mark :: more, by simp, .next hread hm hothers⟩
  | case4 lexemes first mark more hc _ _ hm =>
    obtain ⟨rfl, rfl⟩ : _ = found ∧ _ = rest := by simpa using h
    obtain ⟨read, rfl, hread, -⟩ := chain_sound hc
    exact ⟨read ++ [mark], by simp, .last hread hm⟩
  | case5 => simp at h
  | case6 => simp at h

/-- How the selectors of a rule are read, apart from why that ends. -/
theorem selectors_eq (lexemes : Lexemes) :
    selectors lexemes =
      match chain [] lexemes with
      | .error e => .error e
      | .ok (first, .next mark more) =>
        if mark.token = .comma then
          (selectors more).map fun others => (first :: others.1, others.2)
        else if mark.token = .blockOpen then .ok ([first], more)
        else .error mark.unexpected
      | .ok (_, rest) => .error rest.unexpected := by
  rw [selectors.eq_def]
  split
  · next h => simp [h]
  · next _ _ more h =>
    simp only [h]
    cases selectors more <;> rfl
  · next rest hrest h =>
    cases rest with
    | next mark more => exact (hrest mark more rfl).elim
    | ended | failed => simp [h]

theorem selectors_complete {read : List Lexeme} {found : List Chain} (h : IsSelectors read found)
    (rest : Lexemes) : selectors (rest.behind read) = .ok (found, rest) := by
  induction h with
  | last h hb =>
    rw [Lexemes.behind_append, Lexemes.behind_cons, selectors_eq,
      chain_complete h ⟨_, _, rfl, .inr hb⟩]
    simp [hb]
  | next h hc _ ih =>
    rw [Lexemes.behind_append, Lexemes.behind_cons, selectors_eq,
      chain_complete h ⟨_, _, rfl, .inl hc⟩]
    simp [hc, ih, Except.map]

/-! ### Stylesheets -/

/-- What is said by one text and then by another. -/
def Content.join (a b : Content) : Content := ⟨a.rules ++ b.rules, a.atRules ++ b.atRules⟩

theorem IsSelectors.exists_cons {read : List Lexeme} {found : List Chain}
    (h : IsSelectors read found) : ∃ first more, read = first :: more ∧ first.token ≠ .atSign := by
  cases h with
  | last h | next h =>
    obtain ⟨first, more, rfl, -, -, -, hfirst⟩ := h.exists_cons
    exact ⟨first, _, rfl, hfirst⟩

theorem stylesheet_sound {lexemes : Lexemes} {content : Content}
    (h : stylesheet lexemes = .ok content) :
    ∃ read position, lexemes = (Lexemes.ended position).behind read ∧ IsContent read content := by
  fun_induction stylesheet lexemes generalizing content with
  | case1 position =>
    obtain rfl : {} = content := by simpa using h
    exact ⟨[], position, rfl, .nil⟩
  | case6 =>
    rename_i mark hm name brace rest hn hb found rest' hd _ ih
    cases hmore : stylesheet rest' with
    | error e => simp [hmore, Except.map] at h
    | ok more =>
      obtain rfl : _ = content := by simpa [hmore, Except.map] using h
      obtain ⟨block, rfl, hblock⟩ := declarations_sound hd
      obtain ⟨read, position, rfl, hread⟩ := ih hmore
      exact ⟨mark :: name :: brace :: (block ++ read), position, by simp,
        .atRule hm (by simpa using hn) (by simpa using hb) hblock hread⟩
  | case12 =>
    rename_i first more _ chains rest hs _ found rest' hd _ ih
    cases hmore : stylesheet rest' with
    | error e => simp [hmore, Except.map] at h
    | ok more =>
      obtain rfl : _ = content := by simpa [hmore, Except.map] using h
      obtain ⟨front, hfront, hchains⟩ := selectors_sound hs
      obtain ⟨block, rfl, hblock⟩ := declarations_sound hd
      obtain ⟨read, position, rfl, hread⟩ := ih hmore
      exact ⟨_, position, by simpa using hfront, .rule hchains hblock hread⟩
  | _ => simp at h

/-- How a stylesheet is read, apart from why that ends. -/
theorem stylesheet_eq (lexemes : Lexemes) :
    stylesheet lexemes =
      match lexemes with
      | .ended _ => .ok {}
      | .failed e => .error e
      | .next first rest =>
        if first.token = .atSign then
          match rest with
          | .next name (.next brace rest) =>
            if name.token ≠ .identifier then .error name.unexpected
            else if brace.token ≠ .blockOpen then .error brace.unexpected
            else
              (declarations rest).bind fun found =>
                (stylesheet found.2).map fun more =>
                  { more with atRules := ⟨name.text, found.1⟩ :: more.atRules }
          | .next name rest =>
            if name.token ≠ .identifier then .error name.unexpected else .error rest.unexpected
          | rest => .error rest.unexpected
        else
          (selectors (.next first rest)).bind fun chains =>
            (declarations chains.2).bind fun found =>
              (stylesheet found.2).map fun more =>
                { more with rules := ⟨chains.1, found.1⟩ :: more.rules } := by
  cases lexemes with
  | ended | failed => rw [stylesheet.eq_def]
  | next first rest =>
    rw [stylesheet.eq_def]
    by_cases hfirst : first.token = .atSign
    · simp only [if_pos hfirst]
      cases rest with
      | ended | failed => rfl
      | next name rest =>
        cases rest with
        | ended | failed => rfl
        | next brace rest =>
          simp only
          split
          · rfl
          · split
            · rfl
            · split <;> next hd => simp [hd, Except.bind]
    · simp only [if_neg hfirst]
      split
      · next hs => simp [hs, Except.bind]
      · next hs =>
        split <;> next hd => simp [hs, hd, Except.bind]

/-- What lexemes say, they say in front of any others. -/
theorem stylesheet_behind {read : List Lexeme} {content : Content} (h : IsContent read content)
    (rest : Lexemes) : stylesheet (rest.behind read) = (stylesheet rest).map content.join := by
  induction h with
  | nil =>
    rw [Lexemes.behind_nil]
    cases stylesheet rest <;> rfl
  | @rule read block more _ _ _ hr hd _ ih =>
    obtain ⟨first, others, rfl, hfirst⟩ := hr.exists_cons
    have hs := selectors_complete hr ((rest.behind more).behind block)
    rw [Lexemes.behind_cons] at hs
    rw [Lexemes.behind_append, Lexemes.behind_append, Lexemes.behind_cons, stylesheet_eq]
    simp only [hfirst, if_false, hs, Except.bind, declarations_complete hd, ih]
    cases stylesheet rest <;> rfl
  | atRule hm hn hb hd _ ih =>
    rw [Lexemes.behind_cons, Lexemes.behind_cons, Lexemes.behind_cons, Lexemes.behind_append,
      stylesheet_eq]
    simp only [hm, hn, hb, if_true, ne_eq, not_true_eq_false, if_false, Except.bind,
      declarations_complete hd, ih]
    cases stylesheet rest <;> rfl

/-- Content is closed by a brace. -/
theorem IsBlock.exists_close {read : List Lexeme} {found : List Declaration}
    (h : IsBlock read found) :
    ∃ front brace, read = front ++ [brace] ∧ brace.token = .blockClose := by
  induction h with
  | close hb => exact ⟨[], _, rfl, hb⟩
  | @last name colon brace _ _ hb => exact ⟨[name, colon], brace, rfl, hb⟩
  | @next name colon stop _ _ _ _ _ _ ih =>
    obtain ⟨front, brace, rfl, hb⟩ := ih
    exact ⟨name :: colon :: stop :: front, brace, rfl, hb⟩

theorem IsContent.exists_close {read : List Lexeme} {content : Content}
    (h : IsContent read content) :
    read = [] ∨ ∃ front brace, read = front ++ [brace] ∧ brace.token = .blockClose := by
  induction h with
  | nil => exact .inl rfl
  | @rule read _ _ _ _ _ _ hd _ ih =>
    obtain ⟨front, brace, rfl, hb⟩ := hd.exists_close
    rcases ih with rfl | ⟨more, last, rfl, hlast⟩
    · exact .inr ⟨read ++ front, brace, by simp, hb⟩
    · exact .inr ⟨read ++ (front ++ [brace] ++ more), last, by simp, hlast⟩
  | @atRule mark name open' _ _ _ _ _ _ _ hd _ ih =>
    obtain ⟨front, brace, rfl, hb⟩ := hd.exists_close
    rcases ih with rfl | ⟨more, last, rfl, hlast⟩
    · exact .inr ⟨mark :: name :: open' :: front, brace, by simp, hb⟩
    · exact .inr ⟨mark :: name :: open' :: (front ++ [brace] ++ more), last, by simp, hlast⟩

end RichText.Sheet
