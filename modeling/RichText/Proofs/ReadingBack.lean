/-
# Spelled content is read back

Every text that spells well-formed content is read as that content
(`stylesheet_image`), so what can be read of stylesheets is just what is
well-formed. Piece by piece the scanner reads off a spelled text lexemes that
the grammar derives the content from: `Reads` says which they are and where
the scanner is behind the piece, whatever follows, as long as it does not go on
with a name that the piece ends in.

Key definitions: `Scanner.Reads`.
Key theorems: `reads_compound`, `reads_chain`, `reads_selectors`,
`reads_block`, `lexemesOf_content`, `stylesheet_image`.
-/
import RichText.Proofs.Spelling

namespace RichText.Sheet

open Text

namespace Scanner

/-! ### Pieces of a text -/

/-- Of `text` the lexemes `read` are read, whatever `Follows` it, and the scanner
is `s'` behind it. -/
structure Reads (Follows : List Char → Prop) (s : Scanner) (text : List Char)
    (read : List Lexeme) (s' : Scanner) : Prop where
  lexemes : ∀ rest, Follows rest → s.lexemesOf (text ++ rest) = (s'.lexemesOf rest).behind read
  position : s'.position = s.position.after text

/-- Anything may follow. -/
def Anything (_ : List Char) : Prop := True

variable {Follows Follows' : List Char → Prop} {s s₁ s₂ s' : Scanner} {text more : List Char}
  {read read' : List Lexeme}

theorem Reads.trans (h : Reads Follows s text read s₁) (h' : Reads Follows' s₁ more read' s₂)
    (hf : ∀ rest, Follows' rest → Follows (more ++ rest)) :
    Reads Follows' s (text ++ more) (read ++ read') s₂ where
  lexemes rest hrest := by
    rw [List.append_assoc, h.lexemes _ (hf rest hrest), h'.lexemes rest hrest,
      Lexemes.behind_append]
  position := by rw [h'.position, h.position, Position.after_append]

/-- Behind what may be followed by anything, a piece may simply be put. -/
theorem Reads.append (h : Reads Anything s text read s₁)
    (h' : Reads Follows' s₁ more read' s₂) :
    Reads Follows' s (text ++ more) (read ++ read') s₂ :=
  h.trans h' fun _ _ => trivial

theorem Reads.mono (h : Reads Follows s text read s') (hf : ∀ rest, Follows' rest → Follows rest) :
    Reads Follows' s text read s' :=
  ⟨fun rest hrest => h.lexemes rest (hf rest hrest), h.position⟩

theorem reads_skips {skipped : List Char} (h : Skips s skipped s') :
    Reads Anything s skipped [] s' :=
  ⟨fun rest _ => lexemesOf_skips h rest, h.position⟩

theorem reads_token {t : Token} (ht : t ≠ .endOfInput)
    (h : ∀ rest, Follows rest → Stops s (text ++ rest) (.ok t) s' rest)
    (hp : s'.position = s.position.after text) :
    Reads Follows s text [{ s' with last := t }.lexeme] { s' with last := t } where
  lexemes rest hrest := by
    rw [lexemesOf_stops (h rest hrest), lexemesAfter, if_neg ht]
    rfl
  position := hp

/-! ### Gaps, names and marks -/

/-- A gap is skipped; it only leaves behind that there was a blank. -/
theorem reads_gap {blank : Bool} {gap : List Char} (hg : IsGap blank gap) :
    ∀ {s : Scanner}, s.mode.IsOutside → ∃ s', Reads Anything s gap [] s' ∧ s'.mode = s.mode ∧
      (s.mode = .selectors → s'.sawBlank = (s.sawBlank || blank)) := by
  suffices h : ∀ {s : Scanner}, s.mode.IsOutside → ∃ s', Skips s gap s' ∧ s'.mode = s.mode ∧
      (s.mode = .selectors → s'.sawBlank = (s.sawBlank || blank)) by
    intro s hm
    obtain ⟨s', hskips, hs'⟩ := h hm
    exact ⟨s', reads_skips hskips, hs'⟩
  induction hg with
  | nil => exact fun {s} _ => ⟨s, .nil s, rfl, fun _ => (Bool.or_false _).symm⟩
  | @blank blank c _ hc _ ih =>
    intro s hm
    obtain ⟨s', hskips, hmode, hblank⟩ :=
      ih (s := { s.pass c with sawBlank := s.sawBlank || s.mode = .selectors }) hm
    exact ⟨s', .blank hm hc hskips, hmode, fun h => by simp [hblank h, h]⟩
  | @comment blank body _ hb _ ih =>
    intro s hm
    obtain ⟨s', hskips, hmode, hblank⟩ :=
      ih (s := s.passText ('/' :: '*' :: (body ++ ['*', '/']))) hm
    exact ⟨s', .comment hm hb hskips, hmode, hblank⟩

theorem reads_name {name : String} (hn : IsName name) (hm : s.mode.IsOutside) :
    ∃ l s', Reads NameEnds s name.toList [l] s' ∧ l.token = .identifier ∧ l.text = name ∧
      l.start = s.position ∧ s'.mode = s.mode ∧ s'.sawBlank = false := by
  obtain ⟨c, cs, hname, hc, hcs⟩ := hn
  have hstops (rest : List Char) (hrest : NameEnds rest) :
      Stops s (name.toList ++ rest) (.ok .identifier)
        { s.begun.passText name.toList with text := name, sawBlank := false } rest := by
    have h := Stops.name hm hc hcs hrest
    rwa [← hname, String.ofList_toList] at h
  exact ⟨_, _, reads_token (t := .identifier) (by simp) hstops rfl, rfl, rfl, rfl, rfl, rfl⟩

/-- A punctuation character that does not depend on what follows it. -/
theorem reads_punctuation {c : Char} {t : Token} (hm : s.mode.IsOutside)
    (hc : isNameStart c = false ∧ isSpace c = false ∧ c ≠ '/' ∧ c ≠ ';') (ht : t ≠ .endOfInput)
    (hp : (s.begun.pass c).punctuation c = (.ok t, s')) :
    Reads Anything s [c] [{ s' with last := t }.lexeme] { s' with last := t } := by
  obtain ⟨hname, hspace, hslash, hsemicolon⟩ := hc
  have hplace := punctuation_position (s.begun.pass c) c
  rw [hp] at hplace
  refine reads_token ht (fun rest _ => ?_) hplace
  have h : Stops s (c :: rest) _ _ rest :=
    .mark hm hname hspace (fun h => absurd h hslash) fun _ => hsemicolon
  rwa [hp] at h

/-- The tokens that a character is among selectors, apart from the star and the brace. -/
def markToken : Char → Option Token
  | '.' => some .dot
  | '#' => some .hash
  | ':' => some .colon
  | '>' => some .greater
  | ',' => some .comma
  | '@' => some .atSign
  | _ => none

theorem reads_mark {c : Char} {t : Token} (hc : markToken c = some t) (hm : s.mode = .selectors) :
    ∃ l s', Reads Anything s [c] [l] s' ∧ l.token = t ∧ l.sawBlank = s.sawBlank ∧
      s'.mode = .selectors ∧ s'.sawBlank = s.sawBlank := by
  have hmark : (isNameStart c = false ∧ isSpace c = false ∧ c ≠ '/' ∧ c ≠ ';') ∧ t ≠ .endOfInput ∧
      (s.begun.pass c).punctuation c = (.ok t, s.begun.pass c) := by
    unfold markToken at hc
    split at hc
    case h_7 => exact absurd hc (by simp)
    all_goals
      obtain rfl := Option.some.inj hc
      exact ⟨by decide, by decide, by simp [punctuation, begun, pass, hm]⟩
  obtain ⟨hchar, ht, hp⟩ := hmark
  exact ⟨_, _, reads_punctuation (.inl hm) hchar ht hp, rfl, rfl, hm, rfl⟩

theorem reads_star (hm : s.mode = .selectors) :
    ∃ l s', Reads Anything s ['*'] [l] s' ∧ l.token = .star ∧ s'.mode = .selectors ∧
      s'.sawBlank = false := by
  have hp : (s.begun.pass '*').punctuation '*' =
      (.ok .star, { s.begun.pass '*' with sawBlank := false }) := by
    simp [punctuation, begun, pass, hm]
  exact ⟨_, _, reads_punctuation (.inl hm) (by decide) (by simp) hp, rfl, hm, rfl⟩

theorem reads_open (hm : s.mode = .selectors) :
    ∃ l s', Reads Anything s ['{'] [l] s' ∧ l.token = .blockOpen ∧ s'.mode = .block := by
  have hp : (s.begun.pass '{').punctuation '{' =
      (.ok .blockOpen, { s.begun.pass '{' with mode := .block }) := by
    simp [punctuation, begun, pass, hm]
  exact ⟨_, _, reads_punctuation (.inl hm) (by decide) (by simp) hp, rfl, rfl⟩

theorem reads_close (hm : s.mode = .block) :
    ∃ l s', Reads Anything s ['}'] [l] s' ∧ l.token = .blockClose ∧ s'.mode = .selectors := by
  have hp : (s.begun.pass '}').punctuation '}' =
      (.ok .blockClose, { s.begun.pass '}' with mode := .selectors }) := by
    simp [punctuation, begun, pass, hm]
  exact ⟨_, _, reads_punctuation (.inr hm) (by decide) (by simp) hp, rfl, rfl⟩

/-! ### Values -/

/-- What leads from mode to mode is collected. -/
theorem skips_run : ∀ {cs : List Char} {s : Scanner} {m : Mode}, s.mode.run cs = some m →
    ∃ s', Skips s cs s' ∧ s'.mode = m ∧ s'.value = s.value ++ String.ofList cs
  | [], s, m, h => ⟨s, .nil s, Option.some.inj h, by simp⟩
  | c :: cs, s, m, h => by
    obtain ⟨m₁, hm₁, hrun⟩ := Option.bind_eq_some_iff.1 h
    obtain ⟨s', hskips, hmode, hvalue⟩ :=
      skips_run (s := { s.pass c with mode := m₁, value := s.value.push c }) hrun
    refine ⟨s', .collect hm₁ hskips, hmode, ?_⟩
    rw [hvalue, ← String.toList_inj]
    simp

/-- What ends a value, and the mode behind it. -/
inductive EndsValue : Char → Token → Mode → Prop
  | semicolon : EndsValue ';' .semicolon .block
  | brace : EndsValue '}' .blockClose .selectors

/-- A value, from the colon to what ends it. -/
theorem reads_value {text : List Char} {c : Char} {t : Token} {m : Mode} (hc : EndsValue c t m)
    (hm : s.mode = .block) (htext : IsClosed text) :
    ∃ colon stop s', Reads Anything s (':' :: (text ++ [c])) [colon, stop] s' ∧
      colon.token = .colon ∧ stop.token = t ∧ stop.value.toList = text ∧ s'.mode = m := by
  have hp : (s.begun.pass ':').punctuation ':' =
      (.ok .colon, { s.begun.pass ':' with mode := .value, value := "" }) := by
    simp [punctuation, begun, pass, hm]
  have hcolon := reads_punctuation (.inr hm) (by decide) (by simp) hp
  obtain ⟨s₁, hskips, hmode, hvalue⟩ := skips_run
    (s := { s.begun.pass ':' with mode := .value, value := "", last := .colon })
    (run_of_isClosed htext)
  have hcollected := hcolon.append (reads_skips hskips)
  have hclosed : s₁.value.toList = text := by simp [hvalue]
  cases hc with
  | semicolon =>
    have hstop : Reads Anything s₁ [';'] _ _ :=
      reads_token (t := .semicolon) (by simp) (fun _ _ => .semicolon hmode) rfl
    exact ⟨_, _, _, hcollected.append hstop, rfl, rfl, hclosed, rfl⟩
  | brace =>
    have hstop : Reads Anything s₁ ['}'] _ _ :=
      reads_token (t := .blockClose) (by simp) (fun _ _ => .blockClose hmode) rfl
    exact ⟨_, _, _, hcollected.append hstop, rfl, rfl, hclosed, rfl⟩

end Scanner

open Scanner

/-! ### Where names end -/

theorem nameEnds_cons {c : Char} (hc : isNameChar c = false) (rest : List Char) :
    NameEnds (c :: rest) := by
  rintro d hd
  obtain rfl : c = d := by simpa using hd
  exact hc

theorem isNameChar_of_isSpace {c : Char} (h : isSpace c = true) : isNameChar c = false := by
  simp only [isSpace, Bool.or_eq_true, beq_iff_eq] at h
  rcases h with ((((rfl | rfl) | rfl) | rfl) | rfl) | rfl <;> decide

theorem nameEnds_gap {blank : Bool} {gap rest : List Char} (hg : IsGap blank gap)
    (h : blank = false → NameEnds rest) : NameEnds (gap ++ rest) := by
  cases hg with
  | nil => exact h rfl
  | blank hc => exact nameEnds_cons (isNameChar_of_isSpace hc) _
  | comment => exact nameEnds_cons (by decide) _

/-! ### Compounds -/

/-- A compound with one suffix more. -/
def Compound.suffixed (c : Compound) (suffix : Char × String) : Compound :=
  match suffix.1 with
  | '.' => { c with className := some suffix.2 }
  | '#' => { c with id := some suffix.2 }
  | _ => { c with pseudoClass := some suffix.2 }

theorem suffixed_suffixes (c : Compound) :
    c.suffixes.foldl Compound.suffixed { element := c.element } =
      { c with directChild := false } := by
  obtain ⟨element, className, id, pseudoClass, direct⟩ := c
  cases className <;> cases id <;> cases pseudoClass <;> rfl

theorem mem_suffixes {c : Compound} {suffix : Char × String} (h : suffix ∈ c.suffixes) :
    suffix.1 = '.' ∧ c.className = some suffix.2 ∨ suffix.1 = '#' ∧ c.id = some suffix.2 ∨
      suffix.1 = ':' ∧ c.pseudoClass = some suffix.2 := by
  simp only [Compound.suffixes, List.mem_append, Option.mem_toList,
    Option.map_eq_some_iff] at h
  rcases h with (⟨name, hname, rfl⟩ | ⟨name, hname, rfl⟩) | ⟨name, hname, rfl⟩
  · exact .inl ⟨rfl, hname⟩
  · exact .inr (.inl ⟨rfl, hname⟩)
  · exact .inr (.inr ⟨rfl, hname⟩)

/-- The order of the suffixes does not matter, as no two are of a kind. -/
theorem suffixed_perm {c : Compound} {suffixes : List (Char × String)}
    (h : suffixes.Perm c.suffixes) :
    suffixes.foldl Compound.suffixed { element := c.element } =
      { c with directChild := false } := by
  rw [← suffixed_suffixes]
  refine (h.symm.foldl_eq' (fun x hx y hy z => ?_) _).symm
  obtain ⟨mark, name⟩ := x
  obtain ⟨mark', name'⟩ := y
  rcases mem_suffixes hx with ⟨rfl, hx⟩ | ⟨rfl, hx⟩ | ⟨rfl, hx⟩ <;>
    rcases mem_suffixes hy with ⟨rfl, hy⟩ | ⟨rfl, hy⟩ | ⟨rfl, hy⟩ <;>
      simp_all [Compound.suffixed]

/-- The character of a suffix, and its name. -/
def IsSuffix (suffix : Char × String) : Prop :=
  (∃ t, markToken suffix.1 = some t ∧ t.beginsSuffix = true) ∧ IsName suffix.2

theorem isSuffix_of_mem {c : Compound} (h : c.WellFormed) {suffix : Char × String}
    (hs : suffix ∈ c.suffixes) : IsSuffix suffix := by
  obtain ⟨mark, name⟩ := suffix
  rcases mem_suffixes hs with ⟨rfl, hname⟩ | ⟨rfl, hname⟩ | ⟨rfl, hname⟩
  · exact ⟨⟨.dot, rfl, rfl⟩, h.className name hname⟩
  · exact ⟨⟨.hash, rfl, rfl⟩, h.id name hname⟩
  · exact ⟨⟨.colon, rfl, rfl⟩, h.pseudoClass name hname⟩

theorem withSuffix_eq {mark : Char} {t : Token} (hm : markToken mark = some t) (c : Compound)
    (name : String) : c.withSuffix t name = c.suffixed (mark, name) := by
  unfold markToken at hm
  split at hm <;> cases hm <;> rfl

theorem isNameChar_of_markToken {mark : Char} {t : Token} (hm : markToken mark = some t) :
    isNameChar mark = false := by
  unfold markToken at hm
  split at hm <;> first | decide | nomatch hm

theorem nameEnds_suffixes {text rest : List Char} {suffixes : List (Char × String)}
    (h : SpellsSuffixes text suffixes) (hs : ∀ suffix ∈ suffixes, IsSuffix suffix)
    (hr : NameEnds rest) : NameEnds (text ++ rest) := by
  cases h with
  | nil => exact hr
  | @cons _ _ behind more mark name _ hb =>
    obtain ⟨⟨t, hmark, -⟩, -⟩ := hs (mark, name) List.mem_cons_self
    rw [List.append_assoc, List.append_assoc]
    exact nameEnds_gap hb fun _ => nameEnds_cons (isNameChar_of_markToken hmark) _

/-- One suffix, the mark of which stands behind `s.sawBlank`. -/
theorem reads_suffix {s : Scanner} {blank : Bool} {before behind : List Char} {c : Char} {t : Token}
    {name : String} (hb : IsGap false before) (ha : IsGap blank behind)
    (hc : markToken c = some t) (hn : IsName name) (hm : s.mode = .selectors) :
    ∃ mark l s', Reads NameEnds s (before ++ c :: (behind ++ name.toList)) [mark, l] s' ∧
      (mark.token = t ∧ mark.sawBlank = s.sawBlank ∧ l.token = .identifier ∧ l.text = name) ∧
      s'.mode = .selectors ∧ s'.sawBlank = false := by
  obtain ⟨s₁, hbefore, hm₁, hblank₁⟩ := reads_gap hb (.inl hm)
  rw [hm] at hm₁
  obtain ⟨mark, s₂, hmark, ht, hsaw, hm₂, -⟩ := reads_mark hc hm₁
  obtain ⟨s₃, hbehind, hm₃, -⟩ := reads_gap ha (.inl hm₂)
  rw [hm₂] at hm₃
  obtain ⟨l, s₄, hname, hl, htext, -, hm₄, hblank₄⟩ := reads_name hn (.inl hm₃)
  have hreads := ((hbefore.append hmark).append hbehind).append hname
  refine ⟨mark, l, s₄, ?_, ⟨ht, ?_, hl, htext⟩, hm₄.trans hm₃, hblank₄⟩
  · simpa using hreads
  · rw [hsaw, hblank₁ hm, Bool.or_false]

theorem reads_suffixes {text : List Char} {suffixes : List (Char × String)}
    (h : SpellsSuffixes text suffixes) (hs : ∀ suffix ∈ suffixes, IsSuffix suffix) :
    ∀ {s : Scanner} (c : Compound), s.mode = .selectors → s.sawBlank = false →
      ∃ read s', Reads NameEnds s text read s' ∧ (s'.mode = .selectors ∧ s'.sawBlank = false) ∧
        IsSuffixed c read (suffixes.foldl Compound.suffixed c) := by
  induction h with
  | nil =>
    intro s c hm hblank
    exact ⟨[], s, (reads_skips (.nil s)).mono fun _ _ => trivial, ⟨hm, hblank⟩, .nil c⟩
  | @cons _ _ _ more mark name suffixes hb ha hmore ih =>
    intro s c hm hblank
    obtain ⟨hfirst, hothers⟩ := List.forall_mem_cons.1 hs
    obtain ⟨⟨t, hmark, ht⟩, hname⟩ := hfirst
    obtain ⟨m, l, s₁, hreads, ⟨hmt, hsaw, hl, htext⟩, hm₁, hblank₁⟩ :=
      reads_suffix hb ha hmark hname hm
    obtain ⟨read, s₂, hread, hs₂, hsuffixed⟩ := ih hothers (c.suffixed (mark, name)) hm₁ hblank₁
    refine ⟨_, s₂, hreads.trans hread fun _ => nameEnds_suffixes hmore hothers, hs₂, ?_⟩
    refine .next (hmt ▸ ht) (hsaw.trans hblank) hl ?_
    rw [hmt, htext, withSuffix_eq hmark]
    exact hsuffixed

theorem reads_compound {text : List Char} {c : Compound} (h : SpellsCompound text c)
    (hc : c.WellFormed) {s : Scanner} (hm : s.mode = .selectors) :
    ∃ read s', Reads NameEnds s text read s' ∧ (s'.mode = .selectors ∧ s'.sawBlank = false) ∧
      IsCompound read { c with directChild := false } ∧ (s.sawBlank = true → IsApart read) := by
  cases h with
  | @intro element rest suffixes _ he hp hs =>
    have hsuffixes : ∀ suffix ∈ suffixes, IsSuffix suffix :=
      fun suffix hmem => isSuffix_of_mem hc (hp.subset hmem)
    rw [← suffixed_perm hp]
    cases hname : c.element with
    | some name =>
      rw [hname] at he
      obtain rfl : element = name.toList := he
      obtain ⟨l, s₁, hl, ht, htext, -, hm₁, hblank₁⟩ := reads_name (hc.element name hname) (.inl hm)
      obtain ⟨read, s₂, hread, hs₂, hsuffixed⟩ :=
        reads_suffixes hs hsuffixes { element := some name } (hm₁.trans hm) hblank₁
      refine ⟨_, s₂, hl.trans hread fun _ => nameEnds_suffixes hs hsuffixes, hs₂, ?_, fun _ => ?_⟩
      · exact .name ht (by rwa [htext])
      · rintro l' ⟨⟩ hsuffix
        simp [ht, Token.beginsSuffix] at hsuffix
    | none =>
      rw [hname] at he
      rcases he with rfl | ⟨rfl, hne⟩
      · obtain ⟨l, s₁, hl, ht, hm₁, hblank₁⟩ := reads_star hm
        obtain ⟨read, s₂, hread, hs₂, hsuffixed⟩ := reads_suffixes hs hsuffixes {} hm₁ hblank₁
        refine ⟨_, s₂, hl.append hread, hs₂, .star ht hsuffixed, fun _ => ?_⟩
        rintro l' ⟨⟩ hsuffix
        simp [ht, Token.beginsSuffix] at hsuffix
      · cases hs with
        | nil => exact absurd rfl hne
        | @cons _ _ _ more mark name suffixes hb ha hmore =>
          obtain ⟨hfirst, hothers⟩ := List.forall_mem_cons.1 hsuffixes
          obtain ⟨⟨t, hmark, ht⟩, hn⟩ := hfirst
          obtain ⟨m, l, s₁, hreads, ⟨hmt, hsaw, hl, htext⟩, hm₁, hblank₁⟩ :=
            reads_suffix hb ha hmark hn hm
          obtain ⟨read, s₂, hread, hs₂, hsuffixed⟩ :=
            reads_suffixes hmore hothers (Compound.suffixed {} (mark, name)) hm₁ hblank₁
          refine ⟨_, s₂, hreads.trans hread fun _ => nameEnds_suffixes hmore hothers, hs₂, ?_, ?_⟩
          · refine .suffix (hmt ▸ ht) hl ?_
            rw [hmt, htext, withSuffix_eq hmark]
            exact hsuffixed
          · rintro hblank l' ⟨⟩ -
            exact hsaw.trans hblank

/-! ### Selectors -/

/-- The lexemes of a selector go on with a direct child. -/
theorem IsChain.child_snoc {outer found : Chain} {read more : List Lexeme} {mark : Lexeme}
    {c o : Compound} (h : IsChain outer read (o :: found)) (hm : mark.token = .greater)
    (hc : IsCompound more c) :
    IsChain outer (read ++ mark :: more) (c :: { o with directChild := true } :: found) := by
  generalize hall : o :: found = all at h
  induction h with
  | last ho =>
    obtain ⟨rfl, rfl⟩ := List.cons.inj hall
    exact .child ho hm (.last hc)
  | child ho hm' _ ih =>
    rw [List.append_assoc, List.cons_append]
    exact .child ho hm' (ih hall)
  | inside ho ha h ih =>
    obtain ⟨first, rest, rfl, -⟩ := h.exists_cons
    rw [List.append_assoc]
    exact .inside ho ha (ih hall)

/-- The lexemes of a selector go on with a compound inside. -/
theorem IsChain.inside_snoc {outer found : Chain} {read more : List Lexeme} {c : Compound}
    (h : IsChain outer read found) (ha : IsApart more) (hc : IsCompound more c) :
    IsChain outer (read ++ more) (c :: found) := by
  induction h with
  | last ho => exact .inside ho ha (.last hc)
  | child ho hm _ ih =>
    rw [List.append_assoc, List.cons_append]
    exact .child ho hm ih
  | inside ho ha' h ih =>
    obtain ⟨first, rest, rfl, -⟩ := h.exists_cons
    rw [List.append_assoc]
    exact .inside ho ha' ih

theorem nameEnds_link {link : List Char} {direct : Bool} (h : SpellsLink link direct)
    (rest : List Char) : NameEnds (link ++ rest) := by
  cases h with
  | child hb =>
    rw [List.append_assoc]
    exact nameEnds_gap hb fun _ => nameEnds_cons (by decide) _
  | inside hg => exact nameEnds_gap hg nofun

/-- The lexemes of what stands between two compounds: `>`, or none, but then
there is a blank. -/
inductive Links (s : Scanner) : Bool → List Lexeme → Prop
  | child {mark : Lexeme} (hm : mark.token = .greater) : Links s true [mark]
  | inside (hb : s.sawBlank = true) : Links s false []

theorem reads_link {link : List Char} {direct : Bool} (h : SpellsLink link direct) {s : Scanner}
    (hm : s.mode = .selectors) :
    ∃ read s', Reads Anything s link read s' ∧ s'.mode = .selectors ∧ Links s' direct read := by
  cases h with
  | child hb ha =>
    obtain ⟨s₁, hbefore, hm₁, -⟩ := reads_gap hb (.inl hm)
    obtain ⟨mark, s₂, hmark, ht, -, hm₂, -⟩ := reads_mark (c := '>') rfl (hm₁.trans hm)
    obtain ⟨s₃, hbehind, hm₃, -⟩ := reads_gap ha (.inl hm₂)
    have hreads := (hbefore.append hmark).append hbehind
    exact ⟨[mark], s₃, by simpa using hreads, hm₃.trans hm₂, .child ht⟩
  | inside hg =>
    obtain ⟨s₁, hgap, hm₁, hblank₁⟩ := reads_gap hg (.inl hm)
    exact ⟨[], s₁, hgap, hm₁.trans hm, .inside ((hblank₁ hm).trans (Bool.or_true _))⟩

/-- A selector goes on with a compound behind what links it. -/
theorem IsChain.snoc {s : Scanner} {outer found : Chain} {read link more : List Lexeme}
    {c o : Compound} (h : IsChain outer read ({ o with directChild := false } :: found))
    (hl : Links s o.directChild link) (hc : IsCompound more c)
    (ha : s.sawBlank = true → IsApart more) :
    IsChain outer (read ++ link ++ more) (c :: o :: found) := by
  obtain ⟨element, className, id, pseudoClass, direct⟩ := o
  cases hl with
  | child hm => simpa using h.child_snoc hm hc
  | inside hb => simpa using h.inside_snoc (ha hb) hc

/-- From the outermost compound inwards. The innermost one so far has no `>` yet:
whether it gets one only shows behind it, in what links the next. -/
theorem reads_chain {text : List Char} {chain : Chain} (h : SpellsChain text chain) :
    ∀ {s : Scanner}, (∀ c ∈ chain, c.WellFormed) → s.mode = .selectors →
      ∃ read s' c outer, Reads NameEnds s text read s' ∧ s'.mode = .selectors ∧
        chain = c :: outer ∧ IsChain [] read ({ c with directChild := false } :: outer) := by
  induction h with
  | @one _ c hc =>
    intro s hwf hm
    obtain ⟨read, s', hread, ⟨hm', -⟩, hcompound, -⟩ :=
      reads_compound hc (hwf c List.mem_cons_self) hm
    exact ⟨read, s', c, [], hread, hm', rfl, .last hcompound⟩
  | @more _ _ _ c o outer _ hl hc ih =>
    intro s hwf hm
    obtain ⟨hcwf, howf⟩ := List.forall_mem_cons.1 hwf
    obtain ⟨read, s₁, o', outer', hread, hm₁, hchain, ho⟩ := ih howf hm
    obtain ⟨rfl, rfl⟩ := List.cons.inj hchain
    -- The blank of the link is still seen when the compound behind it begins.
    obtain ⟨link, s₂, hlink, hm₂, hlinks⟩ := reads_link hl hm₁
    obtain ⟨more, s₃, hmore, ⟨hm₃, -⟩, hcompound, hapart⟩ := reads_compound hc hcwf hm₂
    have hreads := (hread.trans hlink fun rest _ => nameEnds_link hl rest).append hmore
    exact ⟨_, s₃, c, o :: outer, hreads, hm₃, rfl, ho.snoc hlinks hcompound hapart⟩

/-- A selector among gaps, the subject of which has no `>` behind it. -/
theorem reads_selector {blank blank' : Bool} {before text behind : List Char} {chain : Chain}
    (hb : IsGap blank before) (h : SpellsChain text chain) (ha : IsGap blank' behind)
    (hwf : Chain.WellFormed chain) {s : Scanner} (hm : s.mode = .selectors) :
    ∃ read s', Reads NameEnds s (before ++ text ++ behind) read s' ∧ s'.mode = .selectors ∧
      IsChain [] read chain := by
  obtain ⟨s₁, hbefore, hm₁, -⟩ := reads_gap hb (.inl hm)
  obtain ⟨read, s₂, c, outer, hread, hm₂, rfl, hchain⟩ :=
    reads_chain h hwf.compounds (hm₁.trans hm)
  obtain ⟨s₃, hbehind, hm₃, -⟩ := reads_gap ha (.inl hm₂)
  have hends : Reads NameEnds s₂ behind [] s₃ := hbehind.mono fun _ _ => trivial
  have hreads := (hbefore.append hread).trans hends
    fun rest hrest => nameEnds_gap ha fun _ => hrest
  have hsubject : { c with directChild := false } = c := by
    obtain ⟨element, className, id, pseudoClass, direct⟩ := c
    obtain rfl : direct = false := hwf.subject _ rfl
    rfl
  rw [hsubject] at hchain
  exact ⟨read, s₃, by simpa using hreads, hm₃.trans hm₂, hchain⟩

theorem reads_selectors {text : List Char} {chains : List Chain} (h : SpellsSelectors text chains) :
    ∀ {s : Scanner}, (∀ chain ∈ chains, Chain.WellFormed chain) → s.mode = .selectors →
      ∃ read s', Reads Anything s (text ++ ['{']) read s' ∧ s'.mode = .block ∧
        IsSelectors read chains := by
  induction h with
  | one hb h ha =>
    intro s hwf hm
    obtain ⟨read, s₁, hread, hm₁, hchain⟩ :=
      reads_selector hb h ha (hwf _ List.mem_cons_self) hm
    obtain ⟨brace, s₂, hbrace, ht, hm₂⟩ := reads_open hm₁
    exact ⟨_, s₂, hread.trans hbrace fun rest _ => nameEnds_cons (by decide) rest, hm₂,
      .last hchain ht⟩
  | more hb h ha _ ih =>
    intro s hwf hm
    obtain ⟨hfirst, hothers⟩ := List.forall_mem_cons.1 hwf
    obtain ⟨read, s₁, hread, hm₁, hchain⟩ := reads_selector hb h ha hfirst hm
    obtain ⟨comma, s₂, hcomma, ht, -, hm₂, -⟩ := reads_mark (c := ',') rfl hm₁
    obtain ⟨others, s₃, hmore, hm₃, hselectors⟩ := ih hothers hm₂
    have hreads :=
      (hread.trans hcomma fun rest _ => nameEnds_cons (by decide) rest).append hmore
    exact ⟨_, s₃, by simpa using hreads, hm₃, .next hchain ht hselectors⟩

/-! ### Blocks -/

theorem Mode.run_value_blanks : ∀ {cs : List Char}, (∀ c ∈ cs, isBlank c = true) →
    Mode.value.run cs = some .value
  | [], _ => rfl
  | c :: cs, hcs => by
    obtain ⟨hc, hmore⟩ := List.forall_mem_cons.1 hcs
    rw [Mode.run, Mode.through_char (ne_of_isBlank hc), Option.bind_some, run_value_blanks hmore]

theorem IsClosed.among_blanks {blanks value blanks' : List Char}
    (hb : ∀ c ∈ blanks, isBlank c = true) (hv : IsClosed value)
    (hb' : ∀ c ∈ blanks', isBlank c = true) : IsClosed (blanks ++ (value ++ blanks')) := by
  rw [isClosed_iff_run] at hv ⊢
  rw [Mode.run_append, Mode.run_value_blanks hb, Option.bind_some, Mode.run_append, hv,
    Option.bind_some, Mode.run_value_blanks hb']

/-- The line behind a piece of a text. -/
theorem Scanner.Reads.line {Follows : List Char → Prop} {s s' : Scanner} {text : List Char}
    {read : List Lexeme} (h : Reads Follows s text read s') :
    s'.position.line = s.position.line + newlines text := by
  rw [h.position, Position.line_after, newlines]

/-- A declaration, with what ends it. -/
theorem reads_declaration {line : Nat} {text : List Char} {d : Declaration} {c : Char} {t : Token}
    {m : Mode} (h : SpellsDeclaration line text d) (hd : d.WellFormed) (hc : EndsValue c t m)
    {s : Scanner} (hm : s.mode = .block) (hl : s.position.line = line) :
    ∃ name colon stop s', Reads Anything s (text ++ [c]) [name, colon, stop] s' ∧
      (name.token = .identifier ∧ colon.token = .colon ∧ stop.token = t) ∧ s'.mode = m ∧
      d = .said name stop := by
  cases h with
  | @intro _ _ before behind blanks blanks' _ hb ha hv hv' hline =>
    obtain ⟨s₁, hbefore, hm₁, -⟩ := reads_gap hb (.inr hm)
    rw [hm] at hm₁
    obtain ⟨name, s₂, hname, hn, hproperty, hstart, hm₂, -⟩ := reads_name hd.property (.inr hm₁)
    rw [hm₁] at hm₂
    obtain ⟨s₃, hbehind, hm₃, -⟩ := reads_gap ha (.inr hm₂)
    obtain ⟨colon, stop, s₄, hvalue, hcolon, hstop, hsaid, hm₄⟩ :=
      reads_value hc (hm₃.trans hm₂) (hd.closed.among_blanks hv hv')
    -- The property name is followed by the gap, and the gap by the colon.
    have hends (rest : List Char) : NameEnds (behind ++
        (':' :: (blanks ++ (d.value.toList ++ blanks') ++ [c]) ++ rest)) :=
      nameEnds_gap ha fun _ => nameEnds_cons (by decide) _
    have hreads := (hbefore.append hname).trans (hbehind.append hvalue)
      fun rest _ => by simpa using hends rest
    refine ⟨name, colon, stop, s₄, by simpa using hreads, ⟨hn, hcolon, hstop⟩, hm₄, ?_⟩
    have hplace : name.start.line = d.line := by rw [hstart, hbefore.line, hl, hline]
    have htrim : String.ofList (trim stop.value.toList) = d.value := by
      rw [hsaid, trim_append hv hv' hd.trimmed, String.ofList_toList]
    rw [Declaration.said, hproperty, htrim, hplace]

theorem reads_block {line : Nat} {text : List Char} {found : List Declaration}
    (h : SpellsBlock line text found) :
    ∀ {s : Scanner}, (∀ d ∈ found, d.WellFormed) → s.mode = .block → s.position.line = line →
      ∃ read s', Reads Anything s text read s' ∧ s'.mode = .selectors ∧ IsBlock read found := by
  induction h with
  | close hg =>
    intro s _ hm _
    obtain ⟨s₁, hgap, hm₁, -⟩ := reads_gap hg (.inr hm)
    obtain ⟨brace, s₂, hbrace, ht, hm₂⟩ := reads_close (hm₁.trans hm)
    exact ⟨_, s₂, hgap.append hbrace, hm₂, .close ht⟩
  | last h =>
    intro s hwf hm hl
    obtain ⟨name, colon, brace, s₁, hread, ⟨hn, hc, hb⟩, hm₁, rfl⟩ :=
      reads_declaration h (hwf _ List.mem_cons_self) .brace hm hl
    exact ⟨_, s₁, hread, hm₁, .last hn hc hb⟩
  | next h _ ih =>
    intro s hwf hm hl
    obtain ⟨hfirst, hothers⟩ := List.forall_mem_cons.1 hwf
    obtain ⟨name, colon, stop, s₁, hread, ⟨hn, hc, hs⟩, hm₁, rfl⟩ :=
      reads_declaration h hfirst .semicolon hm hl
    obtain ⟨read, s₂, hmore, hm₂, hblock⟩ := ih hothers hm₁ (by rw [hread.line, hl])
    exact ⟨_, s₂, hread.append hmore, hm₂, .next hn hc hs hblock⟩

/-! ### Stylesheets -/

theorem reads_atRule {blank₁ blank₂ blank₃ : Bool} {gap₁ gap₂ gap₃ : List Char} {name : String}
    (h₁ : IsGap blank₁ gap₁) (h₂ : IsGap blank₂ gap₂) (h₃ : IsGap blank₃ gap₃) (hn : IsName name)
    {s : Scanner} (hm : s.mode = .selectors) :
    ∃ mark l brace s',
      Reads Anything s (gap₁ ++ '@' :: gap₂ ++ name.toList ++ gap₃ ++ ['{']) [mark, l, brace] s' ∧
        (mark.token = .atSign ∧ l.token = .identifier ∧ brace.token = .blockOpen) ∧
        l.text = name ∧ s'.mode = .block := by
  obtain ⟨s₁, hgap₁, hm₁, -⟩ := reads_gap h₁ (.inl hm)
  obtain ⟨mark, s₂, hmark, hmt, -, hm₂, -⟩ := reads_mark (c := '@') rfl (hm₁.trans hm)
  obtain ⟨s₃, hgap₂, hm₃, -⟩ := reads_gap h₂ (.inl hm₂)
  rw [hm₂] at hm₃
  obtain ⟨l, s₄, hname, hl, htext, -, hm₄, -⟩ := reads_name hn (.inl hm₃)
  rw [hm₃] at hm₄
  obtain ⟨s₅, hgap₃, hm₅, -⟩ := reads_gap h₃ (.inl hm₄)
  obtain ⟨brace, s₆, hbrace, hbt, hm₆⟩ := reads_open (hm₅.trans hm₄)
  have hfront := (hgap₁.append hmark).append hgap₂
  have hends (rest : List Char) : NameEnds (gap₃ ++ ('{' :: rest)) :=
    nameEnds_gap h₃ fun _ => nameEnds_cons (by decide) rest
  have hreads := (hfront.append hname).trans (hgap₃.append hbrace)
    fun rest _ => by simpa using hends rest
  exact ⟨mark, l, brace, s₆, by simpa using hreads, ⟨hmt, hl, hbt⟩, htext, hm₆⟩

/-- The lexemes of a text that spells content derive it. -/
theorem lexemesOf_content {line : Nat} {text : List Char} {content : Content}
    (h : SpellsContent line text content) :
    ∀ {s : Scanner}, content.WellFormed → s.mode = .selectors → s.position.line = line →
      ∃ read place, s.lexemesOf text = (Lexemes.ended place).behind read ∧
        IsContent read content := by
  induction h with
  | done hg =>
    intro s _ hm _
    obtain ⟨s', hgap, hm', -⟩ := reads_gap hg (.inl hm)
    have hend : Stops s' [] (.ok .endOfInput) _ [] := .ended (by rw [hm', hm]; rfl)
    have hlexemes := hgap.lexemes [] trivial
    rw [List.append_nil, Lexemes.behind_nil, lexemesOf_stops hend, lexemesAfter, if_pos rfl]
      at hlexemes
    exact ⟨[], _, hlexemes, .nil⟩
  | rule hs hb _ ih =>
    intro s hwf hm hl
    obtain ⟨hrule, hrules⟩ := List.forall_mem_cons.1 hwf.rules
    obtain ⟨read, s₁, hread, hm₁, hselectors⟩ := reads_selectors hs hrule.selectors hm
    obtain ⟨block, s₂, hblock, hm₂, hfound⟩ :=
      reads_block hb hrule.declarations hm₁ (by rw [hread.line, hl])
    have hfront := hread.append hblock
    obtain ⟨more, place, hmore, hcontent⟩ :=
      ih ⟨hrules, hwf.atRules⟩ hm₂ (by rw [hfront.line, hl])
    refine ⟨_, place, ?_, .rule hselectors hfound hcontent⟩
    rw [hfront.lexemes _ trivial, hmore, ← Lexemes.behind_append, List.append_assoc]
  | atRule h₁ h₂ h₃ hb _ ih =>
    intro s hwf hm hl
    obtain ⟨hrule, hrules⟩ := List.forall_mem_cons.1 hwf.atRules
    obtain ⟨mark, l, brace, s₁, hread, ⟨hmt, hlt, hbt⟩, rfl, hm₁⟩ :=
      reads_atRule h₁ h₂ h₃ hrule.name hm
    obtain ⟨block, s₂, hblock, hm₂, hfound⟩ :=
      reads_block hb hrule.declarations hm₁ (by rw [hread.line, hl])
    have hfront := hread.append hblock
    obtain ⟨more, place, hmore, hcontent⟩ :=
      ih ⟨hwf.rules, hrules⟩ hm₂ (by rw [hfront.line, hl])
    refine ⟨_, place, ?_, .atRule hmt hlt hbt hfound hcontent⟩
    rw [hfront.lexemes _ trivial, hmore, ← Lexemes.behind_append]
    rfl

/-! ### Lines do not matter to well-formedness -/

theorem Declaration.wellFormed_unlined {d : Declaration} : d.unlined.WellFormed ↔ d.WellFormed :=
  ⟨fun h => ⟨h.property, h.closed, h.trimmed⟩, fun h => ⟨h.property, h.closed, h.trimmed⟩⟩

theorem forall_wellFormed_unlined {found : List Declaration} :
    (∀ d ∈ found.map (·.unlined), d.WellFormed) ↔ ∀ d ∈ found, d.WellFormed := by
  simp only [List.forall_mem_map, Declaration.wellFormed_unlined]

theorem Content.wellFormed_unlined {content : Content} :
    content.unlined.WellFormed ↔ content.WellFormed := by
  constructor
  · intro h
    refine ⟨fun r hr => ?_, fun r hr => ?_⟩
    · have hrule := h.rules _ (List.mem_map_of_mem hr)
      exact ⟨hrule.nonempty, hrule.selectors, forall_wellFormed_unlined.1 hrule.declarations⟩
    · have hrule := h.atRules _ (List.mem_map_of_mem hr)
      exact ⟨hrule.name, forall_wellFormed_unlined.1 hrule.declarations⟩
  · intro h
    refine ⟨List.forall_mem_map.2 fun r hr => ?_, List.forall_mem_map.2 fun r hr => ?_⟩
    · have hrule := h.rules r hr
      exact ⟨hrule.nonempty, hrule.selectors, forall_wellFormed_unlined.2 hrule.declarations⟩
    · have hrule := h.atRules r hr
      exact ⟨hrule.name, forall_wellFormed_unlined.2 hrule.declarations⟩

/-! ### What can be read -/

theorem parseString_of_spells {s : String} {content : Content} (hwf : content.WellFormed)
    (h : SpellsContent 1 s.toList content) : parseString s = .ok content := by
  obtain ⟨read, place, hread, hcontent⟩ :=
    lexemesOf_content h (s := Scanner.fresh) hwf rfl rfl
  have hjoin : content.join {} = content := by simp [Content.join]
  rw [parseString_eq, hread, stylesheet_behind hcontent, stylesheet_eq, Except.map, hjoin]

/-- What can be read of stylesheets is what is well-formed: whatever is read is,
every text that spells well-formed content is read as that content, and all
well-formed content is spelled by some text, but for the lines. -/
theorem stylesheet_image :
    (∀ s content, parseString s = .ok content → content.WellFormed) ∧
      (∀ s content, content.WellFormed → SpellsContent 1 s.toList content →
        parseString s = .ok content) ∧
      ∀ content : Content, content.WellFormed → ∃ s c, SpellsContent 1 s.toList c ∧
        parseString s = .ok c ∧ c.unlined = content.unlined := by
  refine ⟨fun _ _ => wellFormed_of_parseString, fun _ _ => parseString_of_spells, ?_⟩
  intro content hwf
  obtain ⟨text, c, hspells, hc⟩ := exists_spells hwf 1
  have hcwf : c.WellFormed := by
    rw [← Content.wellFormed_unlined, hc]
    exact Content.wellFormed_unlined.2 hwf
  rw [← String.toList_ofList (l := text)] at hspells
  exact ⟨_, c, hspells, parseString_of_spells hcwf hspells, hc⟩

theorem stylesheet_image_commented :
    parseString "a>.n/*;*/ b\x7bc:\n ';' ;\x7d" =
      .ok ⟨[⟨[[{ element := some "b" }, { className := some "n" },
        { element := some "a", directChild := true }]], [⟨"c", "';'", 1⟩]⟩], []⟩ := by
  -- What another text is read as is well-formed.
  refine stylesheet_image.2.1 _ _
    (stylesheet_image.1 "a>.n b\x7bc:';'\x7d" _ (eq_ok_of_toOption (by decide +kernel))) ?_
  have ha : SpellsCompound _ { element := some "a", directChild := true } :=
    .intro rfl (.refl _) .nil
  have hn : SpellsCompound _ { className := some "n" } :=
    .intro (.inr ⟨rfl, List.cons_ne_nil _ _⟩) (.refl _) (.cons .nil .nil .nil)
  have hb : SpellsCompound _ { element := some "b" } := .intro rfl (.refl _) .nil
  have hcomment : IsComment [';'] := by
    unfold IsComment
    decide
  have hchain := SpellsChain.more (.more (.one ha) (.child .nil .nil) hn)
    (.inside (.comment hcomment (.blank (c := ' ') rfl .nil))) hb
  have hd : SpellsDeclaration 1 _ ⟨"c", "';'", 1⟩ :=
    .intro .nil .nil (List.all_eq_true.1 (show ['\n', ' '].all isBlank = true by decide))
      (List.all_eq_true.1 (show [' '].all isBlank = true by decide)) rfl
  have hspells : SpellsContent 1 _ _ :=
    .rule (.one .nil hchain .nil) (.next hd (.close .nil)) (.done .nil)
  exact hspells

end RichText.Sheet
