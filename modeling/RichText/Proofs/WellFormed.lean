/-
# What a stylesheet can say

What is read of a stylesheet is well-formed (`wellFormed_of_parseString`): its
names are names, its selectors are not empty and end in a compound without `>`,
and its values are closed and have no blanks around them. A value is closed if
its strings are and if no semicolon and no closing brace is outside of them.

Names and values come out of the scanner as they should (`Lexeme.IsSound`): what
it has collected of a value has led it, character by character, from the mode
of values to the mode it is in (`Mode.run`), so where the value ends it is
closed (`isClosed_iff_run`).

Key definitions: `IsName`, `IsClosed`, `IsTrimmed`, `Content.WellFormed`,
`Mode.run`.
Key theorems: `isClosed_iff_run`, `Scanner.IsSound.lexemesOf`,
`wellFormed_of_parseString`.
-/
import RichText.Proofs.Composition

namespace RichText.Sheet

open Text

/-! ### Well-formed content -/

def IsName (name : String) : Prop :=
  ∃ c cs, name.toList = c :: cs ∧ isNameStart c = true ∧ ∀ d ∈ cs, isNameChar d = true

/-- A value in which every string is closed, and which has no semicolon and no
closing brace outside of them. -/
inductive IsClosed : List Char → Prop
  | nil : IsClosed []
  | char {c : Char} {cs : List Char} (hc : c ≠ ';' ∧ c ≠ '}' ∧ c ≠ '\'' ∧ c ≠ '"')
    (h : IsClosed cs) : IsClosed (c :: cs)
  | string {q : Char} {body cs : List Char} (hq : q = '\'' ∨ q = '"') (hb : q ∉ body)
    (h : IsClosed cs) : IsClosed (q :: (body ++ q :: cs))

/-- A text with no blanks at its ends. -/
def IsTrimmed (cs : List Char) : Prop :=
  (∀ c ∈ cs.head?, isBlank c = false) ∧ ∀ c ∈ cs.getLast?, isBlank c = false

structure Compound.WellFormed (c : Compound) : Prop where
  element : ∀ name ∈ c.element, IsName name
  className : ∀ name ∈ c.className, IsName name
  id : ∀ name ∈ c.id, IsName name
  pseudoClass : ∀ name ∈ c.pseudoClass, IsName name

/-- A chain of well-formed compounds, the subject of which has no `>` behind it. -/
structure Chain.WellFormed (chain : Chain) : Prop where
  nonempty : chain ≠ []
  subject : ∀ c ∈ chain.head?, c.directChild = false
  compounds : ∀ c ∈ chain, c.WellFormed

structure Declaration.WellFormed (d : Declaration) : Prop where
  property : IsName d.property
  closed : IsClosed d.value.toList
  trimmed : IsTrimmed d.value.toList

structure Rule.WellFormed (r : Rule) : Prop where
  nonempty : r.selectors ≠ []
  selectors : ∀ chain ∈ r.selectors, Chain.WellFormed chain
  declarations : ∀ d ∈ r.declarations, d.WellFormed

structure AtRule.WellFormed (r : AtRule) : Prop where
  name : IsName r.name
  declarations : ∀ d ∈ r.declarations, d.WellFormed

structure Content.WellFormed (content : Content) : Prop where
  rules : ∀ r ∈ content.rules, r.WellFormed
  atRules : ∀ r ∈ content.atRules, r.WellFormed

/-! ### Trimming -/

theorem isBlank_of_mem_head?_trimStart {cs : List Char} {c : Char}
    (h : c ∈ (trimStart cs).head?) : isBlank c = false := by
  have hhead := List.head?_dropWhile_not isBlank cs
  rw [show cs.dropWhile isBlank = trimStart cs from rfl, Option.mem_def.1 h] at hhead
  exact hhead

theorem trimStart_eq_self : ∀ {cs : List Char}, (∀ c ∈ cs.head?, isBlank c = false) →
    trimStart cs = cs
  | [], _ => rfl
  | c :: _, h => trimStart_of_not_blank (h c rfl)

theorem trimEnd_eq (cs : List Char) : trimEnd cs = (trimStart cs.reverse).reverse := rfl

theorem trimEnd_prefix (cs : List Char) : trimEnd cs <+: cs := by
  have hsuffix : trimStart cs.reverse <:+ cs.reverse := List.dropWhile_suffix isBlank
  rw [trimEnd_eq]
  simpa using List.reverse_prefix.2 hsuffix

theorem isTrimmed_trim (cs : List Char) : IsTrimmed (trim cs) := by
  constructor
  · intro c hc
    obtain ⟨more, hmore⟩ := trimEnd_prefix (trimStart cs)
    refine @isBlank_of_mem_head?_trimStart cs c ?_
    rw [← hmore, List.head?_append, show trimEnd (trimStart cs) = trim cs from rfl,
      Option.mem_def.1 hc]
    rfl
  · intro c hc
    rw [trim, trimEnd_eq, List.getLast?_reverse] at hc
    exact isBlank_of_mem_head?_trimStart hc

theorem trimStart_append {before : List Char} (hb : ∀ c ∈ before, isBlank c = true)
    (cs : List Char) : trimStart (before ++ cs) = trimStart cs :=
  List.dropWhile_append_of_pos hb

theorem trimEnd_append {after : List Char} (ha : ∀ c ∈ after, isBlank c = true)
    (cs : List Char) : trimEnd (cs ++ after) = trimEnd cs := by
  rw [trimEnd_eq, trimEnd_eq, List.reverse_append, trimStart_append (by simpa using ha)]

/-- Of a trimmed text among blanks the blanks go. -/
theorem trim_append {before after cs : List Char} (hb : ∀ c ∈ before, isBlank c = true)
    (ha : ∀ c ∈ after, isBlank c = true) (h : IsTrimmed cs) :
    trim (before ++ (cs ++ after)) = cs := by
  cases cs with
  | nil =>
    rw [trim, trimStart_append hb, List.nil_append, ← List.append_nil after, trimStart_append ha]
    rfl
  | cons c cs =>
    rw [trim, trimStart_append hb, List.cons_append, trimStart_of_not_blank (h.1 c rfl),
      ← List.cons_append, trimEnd_append ha, trimEnd_eq, trimStart_eq_self]
    · simp
    · rw [List.head?_reverse]
      exact h.2

theorem exists_trimStart (cs : List Char) : ∃ before, cs = before ++ trimStart cs ∧
    ∀ c ∈ before, isBlank c = true :=
  ⟨cs.takeWhile isBlank, List.takeWhile_append_dropWhile.symm,
    List.all_eq_true.1 List.all_takeWhile⟩

/-- What is trimmed off a text are blanks. -/
theorem exists_trim (cs : List Char) : ∃ before after, cs = before ++ (trim cs ++ after) ∧
    (∀ c ∈ before, isBlank c = true) ∧ ∀ c ∈ after, isBlank c = true := by
  obtain ⟨before, hstart, hb⟩ := exists_trimStart cs
  obtain ⟨after, hend, ha⟩ := exists_trimStart (trimStart cs).reverse
  refine ⟨before, after.reverse, ?_, hb, by simpa using ha⟩
  have hmiddle : trim cs ++ after.reverse = trimStart cs := by
    rw [trim, trimEnd_eq, ← List.reverse_append, ← hend, List.reverse_reverse]
  rw [hmiddle, ← hstart]

/-! ### Closed values -/

/-- The mode behind a text that belongs to a value. -/
def Mode.run (m : Mode) : List Char → Option Mode
  | [] => some m
  | c :: cs => (m.through c).bind fun m => m.run cs

theorem Mode.run_append : ∀ (m : Mode) (cs ds : List Char),
    m.run (cs ++ ds) = (m.run cs).bind fun m => m.run ds
  | m, [], ds => rfl
  | m, c :: cs, ds => by
    rw [List.cons_append, run, run]
    cases m.through c with
    | none => rfl
    | some m => exact run_append m cs ds

theorem Mode.through_quoted {m : Mode} {q : Char} (h : m.quote? = some q) (c : Char) :
    m.through c = some (if c = q then .value else m) := by
  cases m with
  | singleQuoted | doubleQuoted =>
    obtain rfl := Option.some.inj h
    rfl
  | _ => nomatch h

theorem Mode.run_string {m : Mode} {q : Char} (h : m.quote? = some q) :
    ∀ {body : List Char}, q ∉ body → m.run body = some m
  | [], _ => rfl
  | c :: body, hb => by
    obtain ⟨hc, hbody⟩ := not_or.1 fun h => hb (List.mem_cons.2 h)
    rw [run, through_quoted h, if_neg (Ne.symm hc), Option.bind_some, run_string h hbody]

/-- A string in a value is closed somewhere, if the value goes on behind it. -/
theorem Mode.exists_close {m : Mode} {q : Char} (h : m.quote? = some q) :
    ∀ {cs : List Char}, m.run cs = some .value →
      ∃ body rest, cs = body ++ q :: rest ∧ q ∉ body ∧ Mode.value.run rest = some .value
  | [], hr => by
    obtain rfl := Option.some.inj hr
    nomatch h
  | c :: cs, hr => by
    rw [run, through_quoted h, Option.bind_some] at hr
    split at hr
    · next hc => exact ⟨[], cs, by rw [hc]; rfl, List.not_mem_nil, hr⟩
    · next hc =>
      obtain ⟨body, rest, rfl, hbody, hrest⟩ := exists_close h hr
      refine ⟨c :: body, rest, rfl, fun hmem => ?_, hrest⟩
      rcases List.mem_cons.1 hmem with rfl | hmem
      · exact hc rfl
      · exact hbody hmem

/-- A quote opens the string that it also closes. -/
theorem Mode.through_quote {q : Char} (hq : q = '\'' ∨ q = '"') :
    ∃ m : Mode, Mode.value.through q = some m ∧ m.quote? = some q := by
  rcases hq with rfl | rfl
  · exact ⟨.singleQuoted, rfl, rfl⟩
  · exact ⟨.doubleQuoted, rfl, rfl⟩

theorem Mode.through_char {c : Char} (hc : c ≠ ';' ∧ c ≠ '}' ∧ c ≠ '\'' ∧ c ≠ '"') :
    Mode.value.through c = some .value := by
  simp [through, hc]

theorem run_of_isClosed {cs : List Char} (h : IsClosed cs) : Mode.value.run cs = some .value := by
  induction h with
  | nil => rfl
  | char hc _ ih => rw [Mode.run, Mode.through_char hc, Option.bind_some, ih]
  | string hq hb _ ih =>
    obtain ⟨m, hopen, hquote⟩ := Mode.through_quote hq
    rw [Mode.run, hopen, Option.bind_some, Mode.run_append, Mode.run_string hquote hb,
      Option.bind_some, Mode.run, Mode.through_quoted hquote, if_pos rfl, Option.bind_some, ih]

theorem isClosed_of_run : ∀ {cs : List Char}, Mode.value.run cs = some .value → IsClosed cs
  | [], _ => .nil
  | c :: cs, h => by
    by_cases hq : c = '\'' ∨ c = '"'
    · obtain ⟨m, hopen, hquote⟩ := Mode.through_quote hq
      rw [Mode.run, hopen, Option.bind_some] at h
      obtain ⟨body, rest, hcs, hbody, hrest⟩ := Mode.exists_close hquote h
      have hlt : rest.length < cs.length := by simp [hcs]; omega
      rw [hcs]
      exact .string hq hbody (isClosed_of_run hrest)
    · have hc : c ≠ ';' ∧ c ≠ '}' := by
        refine ⟨?_, ?_⟩ <;> rintro rfl <;> simp [Mode.run, Mode.through] at h
      have hchar : c ≠ ';' ∧ c ≠ '}' ∧ c ≠ '\'' ∧ c ≠ '"' := ⟨hc.1, hc.2, not_or.1 hq⟩
      rw [Mode.run, Mode.through_char hchar, Option.bind_some] at h
      exact .char hchar (isClosed_of_run h)
termination_by cs => cs.length

/-- A value is closed if it leads from the mode of values back to it. -/
theorem isClosed_iff_run (cs : List Char) : IsClosed cs ↔ Mode.value.run cs = some .value :=
  ⟨run_of_isClosed, isClosed_of_run⟩

/-- No blank ends a value or is a quote. -/
theorem ne_of_isBlank {c : Char} (h : isBlank c = true) :
    c ≠ ';' ∧ c ≠ '}' ∧ c ≠ '\'' ∧ c ≠ '"' := by
  refine ⟨?_, ?_, ?_, ?_⟩ <;> rintro rfl <;> revert h <;> decide

theorem Mode.through_blank {m m' : Mode} {c : Char} (hc : isBlank c = true)
    (h : m.through c = some m') : m' = m := by
  obtain ⟨hsemicolon, hbrace, hsingle, hdouble⟩ := ne_of_isBlank hc
  cases m with
  | selectors | block => nomatch h
  | value => simpa [through, hsemicolon, hbrace, hsingle, hdouble] using h.symm
  | singleQuoted => simpa [through, hsingle] using h.symm
  | doubleQuoted => simpa [through, hdouble] using h.symm

theorem Mode.run_blanks {m m' : Mode} : ∀ {cs : List Char}, (∀ c ∈ cs, isBlank c = true) →
    m.run cs = some m' → m' = m
  | [], _, h => (Option.some.inj h).symm
  | c :: cs, hcs, h => by
    obtain ⟨m₁, hm₁, hrun⟩ := Option.bind_eq_some_iff.1 h
    obtain rfl := through_blank (hcs c List.mem_cons_self) hm₁
    exact run_blanks (fun d hd => hcs d (List.mem_cons_of_mem c hd)) hrun

theorem IsClosed.trim {cs : List Char} (h : IsClosed cs) : IsClosed (trim cs) := by
  obtain ⟨before, after, hcs, hb, ha⟩ := exists_trim cs
  rw [isClosed_iff_run] at h ⊢
  rw [hcs, Mode.run_append] at h
  obtain ⟨m, hbefore, h⟩ := Option.bind_eq_some_iff.1 h
  obtain rfl := Mode.run_blanks hb hbefore
  rw [Mode.run_append] at h
  obtain ⟨m, hvalue, hafter⟩ := Option.bind_eq_some_iff.1 h
  obtain rfl := Mode.run_blanks ha hafter
  exact hvalue

/-! ### Sound lexemes -/

/-- Lexemes the names of which are names, and the values of which are closed. -/
structure IsSound (read : List Lexeme) : Prop where
  names : ∀ l ∈ read, l.token = .identifier → IsName l.text
  values : ∀ colon stop, [colon, stop] <:+: read → colon.token = .colon →
    stop.token = .semicolon ∨ stop.token = .blockClose → IsClosed stop.value.toList

theorem IsSound.part {read part : List Lexeme} (h : IsSound read) (hp : part <:+: read) :
    IsSound part :=
  ⟨fun l hl => h.names l (hp.subset hl), fun colon stop hs => h.values colon stop (hs.trans hp)⟩

/-- A lexeme behind a token `prev`: if it is a name it is one, and if it ends a
value, that is closed. -/
structure Lexeme.IsSound (prev : Token) (l : Lexeme) : Prop where
  name : l.token = .identifier → IsName l.text
  value : prev = .colon → l.token = .semicolon ∨ l.token = .blockClose → IsClosed l.value.toList

theorem IsSound.cons {l : Lexeme} {read : List Lexeme} {prev : Token} (hl : l.IsSound prev)
    (hread : IsSound read) (hhead : ∀ next ∈ read.head?, next.IsSound l.token) :
    Sheet.IsSound (l :: read) where
  names l' hl' ht := by
    rcases List.mem_cons.1 hl' with rfl | hl'
    · exact hl.name ht
    · exact hread.names l' hl' ht
  values colon stop hs hc ht := by
    rcases List.infix_cons_iff.1 hs with ⟨rest, hrest⟩ | hs
    · obtain ⟨rfl, rfl⟩ : colon = l ∧ stop :: rest = read := by simpa using hrest
      exact (hhead stop rfl).value hc ht
    · exact hread.values colon stop hs hc ht

namespace Scanner

/-- What the scanner has collected of a value led to its mode. -/
structure IsSound (prev : Token) (s : Scanner) : Prop where
  value : ¬ s.mode.IsOutside → Mode.value.run s.value.toList = some s.mode
  colon : prev = .colon → s.mode ≠ .block

variable {prev : Token} {s s' : Scanner}

theorem IsSound.skips {cs : List Char} (h : s.IsSound prev) (hs : Skips s cs s') :
    s'.IsSound prev := by
  induction hs with
  | nil => exact h
  | blank _ _ _ ih => exact ih ⟨h.value, h.colon⟩
  | comment _ _ _ ih => exact ih ⟨h.value, h.colon⟩
  | semicolon _ _ ih => exact ih ⟨h.value, h.colon⟩
  | collect hm _ ih =>
    obtain ⟨hout, hout'⟩ := Mode.not_isOutside_of_through hm
    refine ih ⟨fun _ => ?_, fun _ hblock => hout' (.inr hblock)⟩
    simp only [String.toList_push, Mode.run_append, h.value hout, Option.bind_some, Mode.run, hm]

/-- What the token before was matters only behind a colon. -/
theorem IsSound.behind (h : s.IsSound prev) {t : Token} (ht : t = .colon → s.mode ≠ .block) :
    s.IsSound t :=
  ⟨h.value, ht⟩

theorem isSound_outside (hm : s.mode.IsOutside) {t : Token} (ht : t ≠ .colon) : s.IsSound t :=
  ⟨fun hout => absurd hm hout, fun hcolon => absurd hcolon ht⟩

section Token

variable {t : Token} (h : s.IsSound t)
include h

/-- At a token that is no name and does not end a value. -/
theorem IsSound.mark (hname : t ≠ .identifier) (hend : t ≠ .semicolon ∧ t ≠ .blockClose) :
    { s with last := t }.lexeme.IsSound prev ∧ s.IsSound t :=
  ⟨⟨fun ht => absurd ht hname, fun _ ht => (ht.elim hend.1 hend.2).elim⟩, h⟩

/-- At a token that ends a value, if there is one. -/
theorem IsSound.valueEnd (hname : t ≠ .identifier)
    (hvalue : prev = .colon → IsClosed s.value.toList) :
    { s with last := t }.lexeme.IsSound prev ∧ s.IsSound t :=
  ⟨⟨fun ht => absurd ht hname, fun hp _ => hvalue hp⟩, h⟩

end Token

theorem IsSound.punctuation {c : Char} {t : Token} (h : s.IsSound prev)
    (hr : (s.punctuation c).1 = .ok t) :
    { (s.punctuation c).2 with last := t }.lexeme.IsSound prev ∧ (s.punctuation c).2.IsSound t := by
  have hmark {t : Token} (hname : t ≠ .identifier) (hend : t ≠ .semicolon ∧ t ≠ .blockClose)
      (hcolon : t = .colon → s.mode ≠ .block) :
      { s with last := t }.lexeme.IsSound prev ∧ s.IsSound t :=
    (h.behind hcolon).mark hname hend
  revert hr
  unfold Scanner.punctuation
  split <;> rintro ⟨⟩
  · have hvalue : { s with mode := .value, value := "" }.IsSound .colon :=
      ⟨fun _ => rfl, fun _ => by simp⟩
    exact hvalue.mark (by decide) (by decide)
  · next hblock =>
    exact (isSound_outside (.inl rfl) (by decide)).valueEnd (by decide)
      fun hp => absurd hblock (h.colon hp)
  · have hstar : { s with sawBlank := false }.IsSound .star := ⟨h.value, by simp⟩
    exact hstar.mark (by decide) (by decide)
  · exact hmark (by decide) (by decide) (by simp)
  · exact hmark (by decide) (by decide) (by simp)
  · exact hmark (by decide) (by decide) (by simp)
  · exact hmark (by decide) (by decide) (by simp)
  · next hout => exact hmark (by decide) (by decide) fun _ => by simp [hout]
  · exact hmark (by decide) (by decide) (by simp)
  · exact (isSound_outside (.inr rfl) (by decide)).mark (by decide) (by decide)

/-- A token that is met is sound, and so is the scanner behind it. -/
theorem IsSound.stops {cs rest : List Char} {result : Except ParseError Token} {t : Token}
    (h : s.IsSound prev) (hs : Stops s cs result s' rest) (hr : result = .ok t) :
    { s' with last := t }.lexeme.IsSound prev ∧ s'.IsSound t := by
  have hclosed (hm : s.mode = .value) : IsClosed s.value.toList := by
    have hrun := h.value (by simp [hm, Mode.IsOutside])
    rw [hm] at hrun
    exact isClosed_of_run hrun
  cases hs with
  | ended =>
    obtain rfl := Except.ok.inj hr
    have hended : s.begun.IsSound .endOfInput := ⟨h.value, by simp⟩
    exact hended.mark (by decide) (by decide)
  | openString => exact absurd hr (by simp)
  | openComment => exact absurd hr (by simp)
  | semicolon hm =>
    obtain rfl := Except.ok.inj hr
    exact (isSound_outside (.inr rfl) (by decide)).valueEnd (by decide) fun _ => hclosed hm
  | blockClose hm =>
    obtain rfl := Except.ok.inj hr
    exact (isSound_outside (.inl rfl) (by decide)).valueEnd (by decide) fun _ => hclosed hm
  | @name c name _ hm hc hn he =>
    obtain rfl := Except.ok.inj hr
    exact ⟨⟨fun _ => ⟨c, name, String.toList_ofList, hc, hn⟩, fun _ => by simp [lexeme]⟩,
      h.value, by simp⟩
  | mark => exact IsSound.punctuation ⟨h.value, h.colon⟩ hr

/-- Whatever the text is, the lexemes that are read of it are sound. -/
theorem IsSound.lexemesOf {prev : Token} {s : Scanner} (h : s.IsSound prev) (cs : List Char)
    {rest : Lexemes} {read : List Lexeme} (hread : s.lexemesOf cs = rest.behind read) :
    Sheet.IsSound read ∧ ∀ l ∈ read.head?, l.IsSound prev := by
  obtain ⟨skipped, front, s₁, result, s₂, left, hcs, hskips, hstops⟩ := exists_stops s cs
  have hle : front.length ≤ cs.length := by simp [hcs]
  have hlexemes := lexemesOf_eq hskips hstops
  rw [← hcs, hread] at hlexemes
  cases read with
  | nil => exact ⟨⟨by simp, by simp⟩, by simp⟩
  | cons l read =>
    obtain ⟨t, rfl, ht, rfl, hleft⟩ := of_lexemesAfter_next hlexemes.symm
    -- The token that was met is the one before all that is read behind it.
    obtain ⟨hlexeme, hs₂⟩ := (h.skips hskips).stops hstops rfl
    have hlt := hstops.length_lt rfl ht
    have hnext : { s₂ with last := t }.IsSound t := ⟨hs₂.value, hs₂.colon⟩
    obtain ⟨hsound, hhead⟩ := hnext.lexemesOf left hleft
    exact ⟨Sheet.IsSound.cons hlexeme hsound hhead, by simpa using hlexeme⟩
termination_by cs.length

theorem isSound_fresh : fresh.IsSound .endOfInput := ⟨fun h => absurd (.inl rfl) h, nofun⟩

end Scanner

/-! ### What sound lexemes say -/

theorem IsBlock.wellFormed {read : List Lexeme} {found : List Declaration} (h : IsBlock read found)
    (hs : IsSound read) : ∀ d ∈ found, d.WellFormed := by
  have hsaid {name colon stop : Lexeme} {read : List Lexeme}
      (hs : IsSound (name :: colon :: stop :: read)) (hn : name.token = .identifier)
      (hc : colon.token = .colon) (ht : stop.token = .semicolon ∨ stop.token = .blockClose) :
      (Declaration.said name stop).WellFormed := by
    have hclosed := hs.values colon stop ⟨[name], read, rfl⟩ hc ht
    refine ⟨hs.names name List.mem_cons_self hn, ?_, ?_⟩
    · simpa [Declaration.said] using hclosed.trim
    · simpa [Declaration.said] using isTrimmed_trim _
  induction h with
  | close => simp
  | last hn hc hb => simpa using hsaid hs hn hc (.inr hb)
  | @next name colon stop read _ hn hc ht _ ih =>
    have hrest : IsSound read := hs.part ⟨[name, colon, stop], [], by simp⟩
    exact List.forall_mem_cons.2 ⟨hsaid hs hn hc (.inl ht), ih hrest⟩

theorem Compound.WellFormed.withSuffix {c : Compound} (h : c.WellFormed) {name : String}
    (hn : IsName name) (token : Token) : (c.withSuffix token name).WellFormed := by
  have hname : ∀ n ∈ some name, IsName n := by simpa using hn
  unfold Compound.withSuffix
  split
  · exact { h with className := hname }
  · exact { h with id := hname }
  · exact { h with pseudoClass := hname }

theorem Compound.withSuffix_directChild (c : Compound) (token : Token) (name : String) :
    (c.withSuffix token name).directChild = c.directChild := by
  unfold Compound.withSuffix
  split <;> rfl

theorem IsSuffixed.wellFormed {c c' : Compound} {read : List Lexeme} (h : IsSuffixed c read c')
    (hs : IsSound read) (hc : c.WellFormed) :
    c'.WellFormed ∧ c'.directChild = c.directChild := by
  induction h with
  | nil => exact ⟨hc, rfl⟩
  | @next c _ mark name read _ _ hn _ ih =>
    have hname := hs.names name (by simp) hn
    obtain ⟨hwf, hdirect⟩ := ih (hs.part ⟨[mark, name], [], by simp⟩) (hc.withSuffix hname _)
    exact ⟨hwf, hdirect.trans (c.withSuffix_directChild _ _)⟩

theorem IsCompound.wellFormed {read : List Lexeme} {c : Compound} (h : IsCompound read c)
    (hs : IsSound read) : c.WellFormed ∧ c.directChild = false := by
  have hempty : Compound.WellFormed {} := ⟨by simp, by simp, by simp, by simp⟩
  cases h with
  | @name first read _ hf h =>
    have hname := hs.names first List.mem_cons_self hf
    exact h.wellFormed (hs.part ⟨[first], [], by simp⟩)
      { hempty with element := by simpa using hname }
  | @star first read _ _ h => exact h.wellFormed (hs.part ⟨[first], [], by simp⟩) hempty
  | @suffix mark name read _ _ hn h =>
    have hname := hs.names name (by simp) hn
    obtain ⟨hwf, hdirect⟩ :=
      h.wellFormed (hs.part ⟨[mark, name], [], by simp⟩) (hempty.withSuffix hname _)
    exact ⟨hwf, hdirect.trans (Compound.withSuffix_directChild _ _ _)⟩

theorem IsChain.wellFormed {outer found : Chain} {read : List Lexeme} (h : IsChain outer read found)
    (hs : IsSound read) (ho : ∀ c ∈ outer, c.WellFormed) : Chain.WellFormed found := by
  induction h with
  | last hc =>
    obtain ⟨hwf, hdirect⟩ := hc.wellFormed hs
    exact ⟨by simp, by simpa using hdirect, List.forall_mem_cons.2 ⟨hwf, ho⟩⟩
  | @child _ _ read more mark c hc _ _ ih =>
    obtain ⟨hwf, -⟩ := hc.wellFormed (hs.part ⟨[], mark :: more, by simp⟩)
    have hflagged : { c with directChild := true }.WellFormed :=
      ⟨hwf.element, hwf.className, hwf.id, hwf.pseudoClass⟩
    exact ih (hs.part ⟨read ++ [mark], [], by simp⟩) (List.forall_mem_cons.2 ⟨hflagged, ho⟩)
  | @inside _ _ read more c hc _ _ ih =>
    obtain ⟨hwf, -⟩ := hc.wellFormed (hs.part ⟨[], more, by simp⟩)
    exact ih (hs.part ⟨read, [], by simp⟩) (List.forall_mem_cons.2 ⟨hwf, ho⟩)

theorem IsSelectors.wellFormed {read : List Lexeme} {found : List Chain}
    (h : IsSelectors read found) (hs : IsSound read) :
    found ≠ [] ∧ ∀ chain ∈ found, Chain.WellFormed chain := by
  induction h with
  | @last read brace _ h _ =>
    have hwf := h.wellFormed (hs.part ⟨[], [brace], by simp⟩) (by simp)
    exact ⟨by simp, by simpa using hwf⟩
  | @next read more comma _ _ h _ _ ih =>
    have hwf := h.wellFormed (hs.part ⟨[], comma :: more, by simp⟩) (by simp)
    obtain ⟨-, hothers⟩ := ih (hs.part ⟨read ++ [comma], [], by simp⟩)
    exact ⟨by simp, List.forall_mem_cons.2 ⟨hwf, hothers⟩⟩

theorem IsContent.wellFormed {read : List Lexeme} {content : Content} (h : IsContent read content)
    (hs : IsSound read) : content.WellFormed := by
  induction h with
  | nil => exact ⟨by simp, by simp⟩
  | @rule read block more _ _ _ hr hd _ ih =>
    obtain ⟨hne, hchains⟩ := hr.wellFormed (hs.part ⟨[], block ++ more, by simp⟩)
    have hblock := hd.wellFormed (hs.part ⟨read, more, by simp⟩)
    have hmore := ih (hs.part ⟨read ++ block, [], by simp⟩)
    exact ⟨List.forall_mem_cons.2 ⟨⟨hne, hchains, hblock⟩, hmore.rules⟩, hmore.atRules⟩
  | @atRule mark name brace block more _ _ _ hn _ hd _ ih =>
    have hname := hs.names name (by simp) hn
    have hblock := hd.wellFormed (hs.part ⟨[mark, name, brace], more, by simp⟩)
    have hmore := ih (hs.part ⟨mark :: name :: brace :: block, [], by simp⟩)
    exact ⟨hmore.rules, List.forall_mem_cons.2 ⟨⟨hname, hblock⟩, hmore.atRules⟩⟩

/-- Whatever is read of a stylesheet is well-formed. -/
theorem wellFormed_of_parseString {s : String} {content : Content}
    (h : parseString s = .ok content) : content.WellFormed := by
  rw [parseString_eq] at h
  obtain ⟨read, position, hread, hcontent⟩ := stylesheet_sound h
  exact hcontent.wellFormed (Scanner.isSound_fresh.lexemesOf _ hread).1

end RichText.Sheet
