/-
# Blocks and inline styles

The declarations of a block and those of an inline style are cut apart in two
ways: a scanner reads a block token by token, with a mode for each kind of
string, and an inline style is split at its semicolons and each part at its
first colon. Where every property is a name and every value is closed, both
cut at the same places (`inlinePairs_written`, `exists_spellsBlock_written`). So a
selector without a pseudo-class gives to what it matches the style that its
block makes as an inline style, and the same declarations are refused for the
same reasons, in the same order (`inline_agrees_with_block`).

Key definitions: `written`, `trimmed`, `Cuttable`, `Sheet.IsSelectorText`.
Key theorems: `segments_of_isClosed`, `inlinePairs_written`,
`exists_spellsBlock_written`, `Scanner.exists_reads`, `parseString_rule`,
`inline_agrees_with_block`.
-/
import RichText.Declaration.Inline
import RichText.Proofs.ReadingBack
import RichText.Proofs.Rendering
import RichText.StyleSheet

namespace RichText

open RichText.Text

/-! ### Names and values -/

namespace Sheet

theorem not_isNameChar_of_isBlank {c : Char} (h : isBlank c = true) : isNameChar c = false := by
  have hmark : c ≠ '_' ∧ c ≠ '-' := by
    refine ⟨?_, ?_⟩ <;> rintro rfl <;> revert h <;> decide
  simp [isNameChar, not_isAlphanumeric_of_isBlank h, hmark.1, hmark.2]

theorem IsName.isNameChar {name : String} (h : IsName name) :
    ∀ c ∈ name.toList, isNameChar c = true := by
  obtain ⟨c, cs, hname, hc, hcs⟩ := h
  have hfirst : Sheet.isNameChar c = true := by
    simp only [isNameStart, Bool.or_eq_true] at hc
    simp only [Sheet.isNameChar, isAlphanumeric, Bool.or_eq_true]
    rcases hc with (hc | hc) | hc <;> simp [hc]
  rw [hname]
  exact List.forall_mem_cons.2 ⟨hfirst, hcs⟩

theorem IsName.ne_nil {name : String} (h : IsName name) : name.toList ≠ [] := by
  obtain ⟨c, cs, hname, -⟩ := h
  simp [hname]

theorem IsName.not_mem {name : String} (h : IsName name) {c : Char}
    (hc : Sheet.isNameChar c = false) : c ∉ name.toList := by
  intro hmem
  rw [h.isNameChar c hmem] at hc
  exact absurd hc (by decide)

theorem isTrimmed_of_forall {cs : List Char} (h : ∀ c ∈ cs, isBlank c = false) : IsTrimmed cs :=
  ⟨fun c hc => h c (List.mem_of_head? hc), fun c hc => h c (List.mem_of_getLast? hc)⟩

theorem IsName.isTrimmed {name : String} (h : IsName name) : IsTrimmed name.toList := by
  refine isTrimmed_of_forall fun c hc => ?_
  rw [Bool.eq_false_iff]
  exact fun hblank => h.not_mem (not_isNameChar_of_isBlank hblank) hc

theorem trimEnd_cons_append {c : Char} (hc : isBlank c = false) (before cs : List Char) :
    trimEnd (before ++ c :: cs) = before ++ c :: trimEnd cs := by
  have hstart : trimStart (cs.reverse ++ c :: before.reverse) =
      trimStart cs.reverse ++ c :: before.reverse := by
    unfold trimStart
    rw [List.dropWhile_append]
    split
    · next h => rw [List.isEmpty_iff.1 h, List.dropWhile_cons_of_neg (by simp [hc]), List.nil_append]
    · rfl
  rw [trimEnd_eq, trimEnd_eq, List.reverse_append, List.reverse_cons, List.append_assoc,
    List.singleton_append, hstart]
  simp

theorem trim_trimEnd (cs : List Char) : trim (trimEnd cs) = trim cs := by
  obtain ⟨before, after, hcs, hb, ha⟩ := exists_trim (trimEnd cs)
  obtain ⟨blanks, hblanks, hall⟩ := exists_trimStart cs.reverse
  have hends : cs = trimEnd cs ++ blanks.reverse := by
    rw [trimEnd_eq, ← List.reverse_append, ← hblanks, List.reverse_reverse]
  have htrim : trim cs = trim (before ++ (trim (trimEnd cs) ++ (after ++ blanks.reverse))) := by
    conv_lhs => rw [hends, hcs]
    simp
  rw [htrim, trim_append hb ?_ (isTrimmed_trim _)]
  intro c hc
  rcases List.mem_append.1 hc with hc | hc
  · exact ha c hc
  · exact hall c (List.mem_reverse.1 hc)

/-- A text is trimmed to itself if no blank is at its ends. -/
theorem trim_eq_self {s : List Char} (h : IsTrimmed s) : trim s = s := by
  simpa using trim_append (List.forall_mem_nil _) (List.forall_mem_nil _) h

/-- Behind a character that is no blank only the end of a text is trimmed. -/
theorem trim_append_cons {c d : Char} (hc : isBlank c = false) (hd : isBlank d = false)
    (s t : List Char) : trim (c :: (s ++ d :: t)) = c :: (s ++ d :: trimEnd t) := by
  rw [trim, trimStart_of_not_blank hc, ← List.cons_append, trimEnd_cons_append hd]
  rfl

theorem trim_cons {c : Char} (hc : isBlank c = false) (s : List Char) :
    trim (c :: s) = c :: trimEnd s := by
  rw [trim, trimStart_of_not_blank hc]
  exact trimEnd_cons_append hc [] s

theorem isClosed_of_forall : ∀ {cs : List Char},
    (∀ c ∈ cs, c ≠ ';' ∧ c ≠ '}' ∧ c ≠ '\'' ∧ c ≠ '"') → IsClosed cs
  | [], _ => .nil
  | _ :: _, h => .char (h _ List.mem_cons_self) (isClosed_of_forall fun c hc => h c (.tail _ hc))

theorem IsClosed.append {cs ds : List Char} (hc : IsClosed cs) (hd : IsClosed ds) :
    IsClosed (cs ++ ds) := by
  rw [isClosed_iff_run] at hc hd ⊢
  rw [Mode.run_append, hc, Option.bind_some, hd]

end Sheet

/-! ### Declarations as they are written -/

open Sheet (IsName IsClosed IsTrimmed)

/-- Properties and values as they stand in a block or in an inline style. -/
def written (declarations : List (String × String)) : String :=
  ";".intercalate (declarations.map fun d => d.1 ++ ": " ++ d.2)

/-- A property and a value as they are read. -/
def trimmed (d : String × String) : String × String := (d.1, String.ofList (trim d.2.toList))

def Sheet.Declaration.pair (d : Declaration) : String × String := (d.property, d.value)

/-- A property that is a name, and a value without a loose semicolon, brace or
quote. -/
def Cuttable (d : String × String) : Prop := IsName d.1 ∧ IsClosed d.2.toList

theorem Cuttable.isClosed {d : String × String} (h : Cuttable d) :
    IsClosed (d.1 ++ ": " ++ d.2).toList := by
  have hname : IsClosed d.1.toList := by
    refine Sheet.isClosed_of_forall fun c hc => ⟨?_, ?_, ?_, ?_⟩ <;> rintro rfl <;>
      exact h.1.not_mem (by decide) hc
  have hcolon : IsClosed [':', ' '] := .char (by decide) (.char (by decide) .nil)
  rw [String.toList_append, String.toList_append]
  exact (hname.append hcolon).append h.2

/-! ### Inline styles -/

namespace Declaration

theorem segments_quoted {q : Char} : ∀ {body : List Char}, q ∉ body → ∀ part rest : List Char,
    segments (some q) part (body ++ q :: rest) = segments none (part ++ body ++ [q]) rest
  | [], _, part, rest => by simp [segments]
  | c :: body, hb, part, rest => by
    obtain ⟨hc, hbody⟩ := not_or.1 fun h => hb (List.mem_cons.2 h)
    rw [List.cons_append, segments]
    simp only [if_neg (Ne.symm hc)]
    rw [segments_quoted hbody, List.append_assoc part, List.singleton_append]

/-- No segment ends in a closed text. -/
theorem segments_of_isClosed {cs : List Char} (h : IsClosed cs) : ∀ part rest : List Char,
    segments none part (cs ++ rest) = segments none (part ++ cs) rest := by
  induction h with
  | nil => simp
  | @char c cs hc _ ih =>
    intro part rest
    obtain ⟨hsemicolon, -, hsingle, hdouble⟩ := hc
    rw [List.cons_append, segments]
    simp only [if_neg hsemicolon, if_neg (not_or.2 ⟨hdouble, hsingle⟩)]
    rw [ih, List.append_assoc, List.singleton_append]
  | @string q body cs hq hb _ ih =>
    intro part rest
    rw [List.cons_append, List.append_assoc, List.cons_append, segments]
    simp only [if_pos hq.symm]
    rw [segments_quoted hb, ih]
    simp

/-- Closed texts with semicolons between them are the segments. -/
theorem segments_intercalate : ∀ {parts : List (List Char)}, parts ≠ [] →
    (∀ p ∈ parts, IsClosed p) → segments none [] ([';'].intercalate parts) = parts
  | [], h, _ => absurd rfl h
  | [part], _, h => by
    have hpart := segments_of_isClosed (h part List.mem_cons_self) [] []
    rw [List.intercalate_singleton]
    simpa [segments] using hpart
  | part :: next :: parts, _, h => by
    obtain ⟨hpart, hparts⟩ := List.forall_mem_cons.1 h
    rw [List.intercalate_cons_cons, List.append_assoc, segments_of_isClosed hpart,
      List.singleton_append, segments]
    simp only [List.nil_append, or_self, if_true, if_false, Char.reduceEq]
    rw [segments_intercalate (List.cons_ne_nil _ _) hparts]

/-- A declaration is cut at the colon behind its name. -/
theorem pairOf_written {d : String × String} (h : IsName d.1) :
    pairOf (d.1 ++ ": " ++ d.2).toList = some (trimmed d) := by
  have htext : (d.1 ++ ": " ++ d.2).toList = d.1.toList ++ ':' :: (' ' :: d.2.toList) := by simp
  have htrim : trim (d.1.toList ++ ':' :: (' ' :: d.2.toList)) =
      d.1.toList ++ ':' :: trimEnd (' ' :: d.2.toList) := by
    rw [trim, Sheet.trimStart_eq_self, Sheet.trimEnd_cons_append (by decide)]
    rw [List.head?_append_of_ne_nil _ h.ne_nil]
    exact h.isTrimmed.1
  have hname : trim d.1.toList = d.1.toList := by
    simpa using Sheet.trim_append (List.forall_mem_nil _) (List.forall_mem_nil _) h.isTrimmed
  have hvalue : trim (' ' :: d.2.toList) = trim d.2.toList :=
    congrArg trimEnd (Sheet.trimStart_append (List.forall_mem_singleton.2 (by decide)) _)
  unfold pairOf
  simp only [htext, htrim, Markup.cutAt?_char (h.not_mem (c := ':') (by decide))]
  rw [if_neg (by simp), hname, String.ofList_toList, Sheet.trim_trimEnd, hvalue, trimmed]

/-- The pairs of an inline style are its declarations, the values trimmed. -/
theorem inlinePairs_written {declarations : List (String × String)}
    (h : ∀ d ∈ declarations, Cuttable d) :
    inlinePairs (written declarations) = declarations.map trimmed := by
  by_cases hnil : declarations = []
  · subst hnil
    rfl
  have htext : (written declarations).toList =
      [';'].intercalate (declarations.map fun d => (d.1 ++ ": " ++ d.2).toList) := by
    rw [written, String.toList_intercalate, List.map_map]
    rfl
  rw [inlinePairs, htext, segments_intercalate (by simpa using hnil)
      (List.forall_mem_map.2 fun d hd => (h d hd).isClosed),
    List.filterMap_map, ← List.filterMap_eq_map]
  exact List.filterMap_congr fun d hd => pairOf_written (h d hd).1

end Declaration

/-! ### Blocks -/

namespace Sheet

theorem exists_isGap : ∀ gap : List Char, (∀ c ∈ gap, isSpace c = true) → ∃ blank, IsGap blank gap
  | [], _ => ⟨_, .nil⟩
  | _ :: gap, h => by
    obtain ⟨hc, hcs⟩ := List.forall_mem_cons.1 h
    obtain ⟨_, hgap⟩ := exists_isGap gap hcs
    exact ⟨_, .blank hc hgap⟩

/-- A declaration of a block says its property and its value without the blanks
around that. -/
theorem exists_spellsDeclaration (d : String × String) (line : Nat) (gap after : List Char)
    (hg : ∀ c ∈ gap, isSpace c = true) (ha : ∀ c ∈ after, isBlank c = true) :
    ∃ found : Declaration,
      SpellsDeclaration line (gap ++ ((d.1 ++ ": " ++ d.2).toList ++ after)) found ∧
        found.pair = trimmed d := by
  obtain ⟨_, hgap⟩ := exists_isGap gap hg
  obtain ⟨before, behind, hvalue, hb, hb'⟩ := exists_trim d.2.toList
  have hblanks : ∀ c ∈ ' ' :: before, isBlank c = true :=
    List.forall_mem_cons.2 ⟨by decide, hb⟩
  have hblanks' : ∀ c ∈ behind ++ after, isBlank c = true := List.forall_mem_append.2 ⟨hb', ha⟩
  have hspells : SpellsDeclaration line _
      ⟨d.1, String.ofList (trim d.2.toList), line + newlines gap⟩ :=
    .intro hgap .nil hblanks hblanks' rfl
  refine ⟨⟨d.1, String.ofList (trim d.2.toList), line + newlines gap⟩, ?_, rfl⟩
  convert hspells using 1
  conv_lhs => rw [String.toList_append, String.toList_append, hvalue]
  simp

/-- A block is cut at the same places as an inline style. -/
theorem exists_spellsBlock_written : ∀ (declarations : List (String × String)) (line : Nat)
    (gap : List Char), (∀ c ∈ gap, isSpace c = true) → ∃ found : List Declaration,
      SpellsBlock line (gap ++ ((written declarations).toList ++ [' ', '}'])) found ∧
        found.map Declaration.pair = declarations.map trimmed
  | [], line, gap, hg => by
    obtain ⟨_, hgap⟩ := exists_isGap (gap ++ [' '])
      (List.forall_mem_append.2 ⟨hg, List.forall_mem_singleton.2 (by decide)⟩)
    have hclose : SpellsBlock line _ [] := .close hgap
    refine ⟨[], ?_, rfl⟩
    simpa [written] using hclose
  | [d], line, gap, hg => by
    obtain ⟨found, hspells, hfound⟩ := exists_spellsDeclaration d line gap [' '] hg
      (List.forall_mem_singleton.2 (by decide))
    refine ⟨[found], ?_, by rw [List.map_singleton, hfound]; rfl⟩
    simpa [written] using SpellsBlock.last hspells
  | d :: next :: declarations, line, gap, hg => by
    obtain ⟨first, hspells, hfirst⟩ :=
      exists_spellsDeclaration d line gap [] hg (List.forall_mem_nil _)
    obtain ⟨found, hmore, hfound⟩ :=
      exists_spellsBlock_written (next :: declarations) _ [] (List.forall_mem_nil _)
    refine ⟨first :: found, ?_, by rw [List.map_cons, hfirst, hfound]; rfl⟩
    simpa [written] using SpellsBlock.next hspells hmore

/-- A declaration that was read is one that was written. -/
theorem exists_of_pairs {found : List Declaration} {declarations : List (String × String)}
    (h : found.map Declaration.pair = declarations.map trimmed) {d : Declaration} (hd : d ∈ found) :
    ∃ d' ∈ declarations, d'.1 = d.property ∧ String.ofList (trim d'.2.toList) = d.value := by
  have hpair := List.mem_map_of_mem (f := Declaration.pair) hd
  rw [h] at hpair
  obtain ⟨d', hmem, heq⟩ := List.mem_map.1 hpair
  exact ⟨d', hmem, Prod.mk.inj heq⟩

theorem wellFormed_of_pairs {found : List Declaration} {declarations : List (String × String)}
    (h : found.map Declaration.pair = declarations.map trimmed)
    (hd : ∀ d ∈ declarations, Cuttable d) {d : Declaration} (hmem : d ∈ found) : d.WellFormed := by
  obtain ⟨d', hwritten, hproperty, hvalue⟩ := exists_of_pairs h hmem
  obtain ⟨hname, hclosed⟩ := hd d' hwritten
  refine ⟨hproperty ▸ hname, ?_, ?_⟩ <;> rw [← hvalue, String.toList_ofList]
  · exact hclosed.trim
  · exact isTrimmed_trim _

/-! ### Selectors -/

/-- A text that is a selector, and nothing else. -/
def IsSelectorText (text : String) (chain : Chain) : Prop :=
  ∃ read place, Scanner.fresh.lexemesOf text.toList = (Lexemes.ended place).behind read ∧
    IsChain [] read chain

theorem ne_blockOpen_of_beginsSuffix {t : Token} (h : t.beginsSuffix = true) : t ≠ .blockOpen := by
  rintro rfl
  nomatch h

theorem IsSuffixed.ne_blockOpen {c c' : Compound} {read : List Lexeme} (h : IsSuffixed c read c') :
    ∀ l ∈ read, l.token ≠ .blockOpen := by
  induction h with
  | nil => simp
  | next hm _ hn _ ih =>
    refine List.forall_mem_cons.2 ⟨ne_blockOpen_of_beginsSuffix hm, ?_⟩
    exact List.forall_mem_cons.2 ⟨by simp [hn], ih⟩

theorem IsCompound.ne_blockOpen {c : Compound} {read : List Lexeme} (h : IsCompound read c) :
    ∀ l ∈ read, l.token ≠ .blockOpen := by
  cases h with
  | name hf h | star hf h => exact List.forall_mem_cons.2 ⟨by simp [hf], h.ne_blockOpen⟩
  | suffix hm hn h =>
    refine List.forall_mem_cons.2 ⟨ne_blockOpen_of_beginsSuffix hm, ?_⟩
    exact List.forall_mem_cons.2 ⟨by simp [hn], h.ne_blockOpen⟩

theorem IsChain.ne_blockOpen {outer chain : Chain} {read : List Lexeme}
    (h : IsChain outer read chain) : ∀ l ∈ read, l.token ≠ .blockOpen := by
  induction h with
  | last hc => exact hc.ne_blockOpen
  | child hc hm _ ih =>
    exact List.forall_mem_append.2 ⟨hc.ne_blockOpen, List.forall_mem_cons.2 ⟨by simp [hm], ih⟩⟩
  | inside hc _ _ ih => exact List.forall_mem_append.2 ⟨hc.ne_blockOpen, ih⟩

namespace Scanner

variable {s s' : Scanner}

/-- Only an opening brace leads out of the selectors. -/
theorem Stops.stays_selectors {cs rest : List Char} {result : Except ParseError Token} {t : Token}
    (h : Stops s cs result s' rest) (hr : result = .ok t) (hm : s.mode = .selectors)
    (ht : t ≠ .blockOpen) : s'.mode = .selectors := by
  cases h with
  | ended | name => exact hm
  | openString => nomatch hr
  | openComment => nomatch hr
  | semicolon h | blockClose h => simp [hm] at h
  | mark =>
    have hopen : ¬ Token.blockOpen = t := ht.symm
    revert hr
    unfold punctuation
    split <;> simp_all [begun, pass]

/-- Lexemes that are all of a text are read of it whatever follows, unless a name
at its end goes on. -/
theorem exists_reads (s : Scanner) (cs : List Char) {read : List Lexeme} {place : Position}
    (h : s.lexemesOf cs = (Lexemes.ended place).behind read) (hm : s.mode = .selectors)
    (hopen : ∀ l ∈ read, l.token ≠ .blockOpen) :
    ∃ s', Reads NameEnds s cs read s' ∧ s'.mode = .selectors := by
  obtain ⟨skipped, front, s₁, result, s₂, rest, hcs, hskips, hstops⟩ := exists_stops s cs
  have hle : front.length ≤ cs.length := by simp [hcs]
  have hm₁ := hskips.mode_selectors hm
  have hlexemes := lexemesOf_eq hskips hstops
  rw [← hcs, h] at hlexemes
  cases read with
  | nil =>
    obtain rfl := of_lexemesAfter_ended hlexemes.symm
    obtain rfl : front = [] := hstops.eq_nil rfl
    obtain rfl : skipped = cs := by simpa using hcs.symm
    exact ⟨s₁, (reads_skips hskips).mono fun _ _ => trivial, hm₁⟩
  | cons l read =>
    obtain ⟨t, rfl, ht, rfl, hrest⟩ := of_lexemesAfter_next hlexemes.symm
    obtain ⟨hfirst, hothers⟩ := List.forall_mem_cons.1 hopen
    have hlt := hstops.length_lt rfl ht
    obtain ⟨s₃, hreads, hm₃⟩ := exists_reads { s₂ with last := t } rest hrest
      (hstops.stays_selectors rfl hm₁ hfirst) hothers
    obtain ⟨taken, rfl, htaken⟩ := hstops.position
    refine ⟨s₃, ⟨fun more hmore => ?_, ?_⟩, hm₃⟩
    · rw [hcs, List.append_assoc, lexemesOf_eq hskips (hstops.append rfl ht fun _ _ => hmore),
        lexemesAfter, if_neg ht, hreads.lexemes more hmore, Lexemes.behind_cons]
    · have hplace : s₃.position = (s₁.position.after taken).after rest := by
        rw [← htaken]
        exact hreads.position
      rw [hplace, hskips.position, hcs, Position.after_append, Position.after_append]
termination_by cs.length

end Scanner

open Scanner

/-- A selector among gaps is the text of a selector. -/
theorem isSelectorText_of_spells {blank blank' : Bool} {before text behind : List Char}
    {chain : Chain} (hb : IsGap blank before) (h : SpellsChain text chain) (ha : IsGap blank' behind)
    (hwf : Chain.WellFormed chain) :
    IsSelectorText (String.ofList (before ++ text ++ behind)) chain := by
  obtain ⟨read, s, hreads, hm, hchain⟩ := reads_selector hb h ha hwf (s := fresh) rfl
  have hend : Stops s [] (.ok .endOfInput) _ [] := .ended (by rw [hm]; rfl)
  have hlexemes := hreads.lexemes [] (by simp [NameEnds])
  rw [List.append_nil, lexemesOf_stops hend, lexemesAfter, if_pos rfl] at hlexemes
  exact ⟨read, _, by rw [String.toList_ofList, hlexemes], hchain⟩

/-- A selector with a block behind it is one rule. -/
theorem parseString_rule {text : String} {chain : Chain} (h : IsSelectorText text chain)
    {declarations : List (String × String)} (hd : ∀ d ∈ declarations, Cuttable d) :
    ∃ found : List Declaration,
      parseString (text ++ " \x7b " ++ written declarations ++ " \x7d") =
          .ok { rules := [⟨[chain], found⟩] } ∧
        found.map Declaration.pair = declarations.map trimmed := by
  obtain ⟨read, place, hread, hchain⟩ := h
  obtain ⟨s₁, hselector, hm₁⟩ := exists_reads fresh text.toList hread rfl hchain.ne_blockOpen
  obtain ⟨s₂, hgap, hm₂, -⟩ := reads_gap (.blank (c := ' ') (by decide) .nil) (.inl hm₁)
  obtain ⟨brace, s₃, hbrace, hopen, hm₃⟩ := reads_open (hm₂.trans hm₁)
  obtain ⟨found, hspells, hfound⟩ := exists_spellsBlock_written declarations s₃.position.line
    [' '] (List.forall_mem_singleton.2 (by decide))
  have hwf : ∀ d ∈ found, d.WellFormed := fun d hmem => wellFormed_of_pairs hfound hd hmem
  obtain ⟨block, s₄, hblock, hm₄, hdeclares⟩ := reads_block hspells hwf hm₃ rfl
  have hfront := (hselector.trans hgap fun rest _ => nameEnds_cons (by decide) rest).append hbrace
  have hend : Stops s₄ [] (.ok .endOfInput) _ [] := .ended (by rw [hm₄]; rfl)
  have hlexemes := (hfront.append hblock).lexemes [] trivial
  rw [List.append_nil, lexemesOf_stops hend, lexemesAfter, if_pos rfl] at hlexemes
  have hcontent : IsContent _ { rules := [⟨[chain], found⟩] } :=
    .rule (.last hchain hopen) hdeclares .nil
  refine ⟨found, ?_, hfound⟩
  have htext : (text ++ " \x7b " ++ written declarations ++ " \x7d").toList =
      text.toList ++ [' '] ++ ['{'] ++ ([' '] ++ ((written declarations).toList ++ [' ', '}'])) := by
    simp
  rw [parseString_eq, htext, hlexemes]
  simp only [List.append_nil] at hcontent ⊢
  rw [stylesheet_behind hcontent, stylesheet_eq]
  rfl

end Sheet

/-! ### What is applied -/

namespace StyleSheet

open Declaration

/-- A block is applied as the pairs of an inline style are, if all its
declarations have a property. -/
theorem foldl_apply_eq (r : Registry) : ∀ (found : List Sheet.Declaration)
    (acc : List Diagnostic × Style), (∀ d ∈ found, d.property ≠ "") →
    found.foldl
        (fun acc d =>
          match apply r d.property d.value acc.2 with
          | .ok s => (acc.1, s)
          | .error e => (acc.1 ++ [⟨d.property, d.value, e⟩], acc.2)) acc =
      (acc.1 ++ (applyAll (applyPair r) acc.2 (found.map Sheet.Declaration.pair)).1,
        (applyAll (applyPair r) acc.2 (found.map Sheet.Declaration.pair)).2)
  | [], acc, _ => by simp [applyAll]
  | d :: found, acc, h => by
    obtain ⟨hd, hfound⟩ := List.forall_mem_cons.1 h
    have hpair : applyPair r d.pair acc.2 = apply r d.property d.value acc.2 :=
      if_neg hd
    rw [List.foldl_cons, foldl_apply_eq r found _ hfound, List.map_cons, applyAll, hpair]
    cases apply r d.property d.value acc.2 <;> simp [Sheet.Declaration.pair]

theorem blockStyle_eq (r : Registry) {found : List Sheet.Declaration}
    (h : ∀ d ∈ found, d.property ≠ "") :
    blockStyle r found = applyAll (applyPair r) .empty (found.map Sheet.Declaration.pair) :=
  (foldl_apply_eq r found ([], .empty) h).trans (by rw [List.nil_append])

/-- The declarations that a rule refuses are those that an inline style of the
same text refuses, and the rule gives what that style sets. -/
theorem inline_agrees_with_block (s : StyleSheet) {text : String} {chain : Sheet.Chain}
    {declarations : List (String × String)} (htext : Sheet.IsSelectorText text chain)
    (hplain : ∀ c ∈ chain.head?, c.pseudoClass = none) (hd : ∀ d ∈ declarations, Cuttable d) :
    s.parseString (text ++ " \x7b " ++ written declarations ++ " \x7d") =
      (.ok (applyInline s.registry .empty (written declarations)).1,
        { s with
          rules := insertRule
            (.ofChain chain (applyInline s.registry .empty (written declarations)).2) s.rules
          cache := ∅ }) := by
  obtain ⟨found, hparse, hfound⟩ := Sheet.parseString_rule htext hd
  have hproperty : ∀ d ∈ found, d.property ≠ "" := by
    intro d hmem hempty
    obtain ⟨d', hwritten, hname, -⟩ := Sheet.exists_of_pairs hfound hmem
    exact (hd d' hwritten).1.ne_nil (by rw [hname, hempty]; rfl)
  have hblock : blockStyle s.registry found =
      applyInline s.registry .empty (written declarations) := by
    rw [blockStyle_eq s.registry hproperty, hfound, applyInline, inlinePairs_written hd]
  have hchain (style : Style) : chainStyle s.registry style chain = style := by
    have hnone : chain.head?.bind (·.pseudoClass) = none := by
      cases hhead : chain.head? with
      | none => rfl
      | some c => exact hplain c hhead
    rw [chainStyle, hnone]
  have hcontent : Sheet.parse (.ofString (text ++ " \x7b " ++ written declarations ++ " \x7d")) =
      .ok { rules := [⟨[chain], found⟩] } := hparse
  rw [parseString, parse, hcontent]
  simp only [add, selectorsOf, List.map_cons, List.map_nil, List.flatMap_cons, List.flatMap_nil,
    List.append_nil, List.foldl_cons, List.foldl_nil, hblock, hchain]

theorem inline_agrees_with_block_quoted :
    ((StyleSheet.new .standard).parseString
        "p > .a \x7b list-style-image: ';';float: left;white-space:  \x7d").1 =
      .ok [⟨"white-space", "", .malformed (.emptyValue "white-space")⟩] := by
  have hp : Sheet.SpellsCompound _ { element := some "p", directChild := true } :=
    .intro rfl (.refl _) .nil
  have ha : Sheet.SpellsCompound _ { className := some "a" } :=
    .intro (.inr ⟨rfl, List.cons_ne_nil _ _⟩) (.refl _) (.cons .nil .nil .nil)
  have hchain := Sheet.SpellsChain.more (.one hp)
    (.child (.blank (c := ' ') rfl .nil) (.blank (c := ' ') rfl .nil)) ha
  -- What another text is read as is well-formed.
  have hparse : Sheet.parseString "p>.a\x7blist-style-image:';';float:left;white-space:\x7d" =
      .ok ⟨[⟨[[{ className := some "a" }, { element := some "p", directChild := true }]],
        [⟨"list-style-image", "';'", 1⟩, ⟨"float", "left", 1⟩, ⟨"white-space", "", 1⟩]⟩], []⟩ :=
    Sheet.eq_ok_of_toOption (by decide +kernel)
  have hrule := (Sheet.wellFormed_of_parseString hparse).rules _ List.mem_cons_self
  have htext :=
    Sheet.isSelectorText_of_spells .nil hchain .nil (hrule.selectors _ List.mem_cons_self)
  have hd := List.forall_mem_map (f := Sheet.Declaration.pair) (P := Cuttable) |>.2
      fun d hmem => ⟨(hrule.declarations d hmem).property, (hrule.declarations d hmem).closed⟩
  refine (congrArg Prod.fst (inline_agrees_with_block (.new .standard) htext (by simp) hd)).trans ?_
  decide +kernel

end StyleSheet

end RichText
