/-
# The sources of a font

A `@font-face` names a family and the files it is in, each in quotes inside
`url(...)`. The scanner knows the quotes, so whatever they enclose belongs to the
value (`isClosed_sourceList`). The list of sources does not know them: an item
begins with `url`, not with a quote, and goes up to the next comma, be it inside of
quotes or not. So every file comes out as it is written if none has a comma in its
name (`listItems_sourceList`), and the first one that has is cut at it, which leaves
a quote in what comes out (`quote_mem_stripUrl`).

Key definitions: `IsQuoteFree`, `fontFaceText`.
Key theorems: `sources_survive_iff`, `parseString_fontFaceText`,
`fontFaces_survive`.
-/
import RichText.Proofs.InlineBlocks
import RichText.Proofs.Steps

namespace RichText

open Text
open Sheet (IsClosed IsTrimmed trim_append_cons trim_cons trim_eq_self)

/-- A text without quotes of either kind. -/
def IsQuoteFree (s : List Char) : Prop := ∀ c ∈ s, c ≠ '"' ∧ c ≠ '\''

/-- A file as a source. -/
def sourceText (name : String) : String := "url(\"" ++ name ++ "\")"

/-- Files as the sources of a font. -/
def sourceList (names : List String) : String := ", ".intercalate (names.map sourceText)

/-- The at-rule that says which files a family of fonts is in. -/
def fontFaceText (family : String) (names : List String) : String :=
  "@font-face \x7b font-family: \"" ++ family ++ "\"; src: " ++ sourceList names ++ " \x7d"

/-! ### One source -/

theorem toList_sourceText (name : String) :
    (sourceText name).toList = ['u', 'r', 'l', '(', '"'] ++ (name.toList ++ ['"', ')']) := by
  simp [sourceText]

theorem isTrimmed_sourceText (name : String) : IsTrimmed (sourceText name).toList := by
  have hlast : (sourceText name).toList =
      ['u', 'r', 'l', '(', '"'] ++ name.toList ++ ['"'] ++ [')'] := by
    rw [toList_sourceText]
    simp
  constructor
  · rw [toList_sourceText]
    rintro c ⟨⟩
    decide
  · rw [hlast, List.getLast?_concat]
    rintro c ⟨⟩
    decide

theorem IsQuoteFree.trimEnd {s : List Char} (h : IsQuoteFree s) : IsQuoteFree (trimEnd s) :=
  fun c hc => h c ((Sheet.trimEnd_prefix s).subset hc)

namespace Declaration

theorem stripUrl_sourceText (name : String) : stripUrl (sourceText name) = name := by
  have harguments : arguments? ['u', 'r', 'l'] (sourceText name).toList =
      some ('"' :: (name.toList ++ ['"'])) := by
    have htail : ['"'] ++ (name.toList ++ ['"', ')']) = '"' :: (name.toList ++ ['"']) ++ [')'] := by
      simp
    rw [toList_sourceText, arguments?, ← beforeTail?_append _ [')'], ← htail]
    rfl
  have hinner : trim ('"' :: (name.toList ++ ['"'])) = '"' :: (name.toList ++ ['"']) :=
    trim_append_cons (by decide) (by decide) name.toList []
  have hunquote : unquote '"' ('"' :: (name.toList ++ ['"'])) = some name.toList := by
    rw [← beforeTail?_append name.toList ['"']]
    rfl
  simp only [stripUrl, trim_eq_self (isTrimmed_sourceText name), harguments, hinner, hunquote,
    Option.some_or, Option.getD_some, String.ofList_toList]

/-- What begins like a source, and has no quote that closes the name, is not taken
for one: the quote that opens the name stays. -/
theorem quote_mem_stripUrl {s : List Char} (hs : IsQuoteFree s) :
    '"' ∈ (stripUrl (String.ofList (['u', 'r', 'l', '(', '"'] ++ s))).toList := by
  have htrim : trim (['u', 'r', 'l', '(', '"'] ++ s) = ['u', 'r', 'l', '('] ++ '"' :: trimEnd s :=
    trim_append_cons (by decide) (by decide) ['r', 'l', '('] s
  have hlead : arguments? ['u', 'r', 'l'] (['u', 'r', 'l', '('] ++ '"' :: trimEnd s) =
      beforeTail? [')'] ('"' :: trimEnd s) := rfl
  simp only [stripUrl, String.toList_ofList, htrim, hlead]
  cases hinner : beforeTail? [')'] ('"' :: trimEnd s) with
  | none => simp
  | some inner =>
    obtain ⟨body, rfl⟩ : ∃ body, inner = '"' :: body := by
      have happend := eq_append_of_beforeTail? hinner
      cases inner with
      | nil => simp at happend
      | cons c body => exact ⟨body, by rw [(List.cons.inj happend).1]⟩
    have hbody : IsQuoteFree (trimEnd body) := by
      have happend := (List.cons.inj (eq_append_of_beforeTail? hinner)).2
      refine IsQuoteFree.trimEnd fun c hc => hs.trimEnd c ?_
      rw [happend]
      exact List.mem_append_left _ hc
    -- No quote closes what is in the brackets, so none is taken off.
    have hdouble : unquote '"' ('"' :: trimEnd body) = none := by
      rw [Option.eq_none_iff_forall_ne_some]
      intro name hname
      have happend : trimEnd body = name ++ ['"'] := eq_append_of_beforeTail? hname
      exact (hbody '"' (by simp [happend])).1 rfl
    have hsingle : unquote '\'' ('"' :: trimEnd body) = none := rfl
    simp [trim_cons, show isBlank '"' = false by decide, hdouble, hsingle]

/-! ### The list of sources -/

variable {whole : String}

/-- An item without quotes around it: no quote begins it, and it has no comma. -/
structure IsBare (s : List Char) : Prop where
  nonempty : s ≠ []
  unquoted : ∀ c ∈ s.head?, c ≠ '"' ∧ c ≠ '\''
  whole : ∀ c ∈ s, c ≠ ','

/-- A bare item goes up to the first comma. -/
theorem listItems_bare {s : List Char} (hs : IsBare s) (rest : List Char) :
    listItems whole (s ++ ',' :: rest) =
      (listItems whole (trimStart rest)).map (withItem (trim s)) := by
  obtain ⟨hne, hquote, hcomma⟩ := hs
  have hall : ∀ d ∈ s, decide (d ≠ ',') = true := fun d hd => decide_eq_true (hcomma d hd)
  have htake : (s ++ ',' :: rest).takeWhile (· ≠ ',') = s := by
    rw [List.takeWhile_append_of_pos hall]
    simp
  have hdrop : (s ++ ',' :: rest).dropWhile (· ≠ ',') = ',' :: rest := by
    rw [List.dropWhile_append_of_pos hall]
    simp
  cases s with
  | nil => exact absurd rfl hne
  | cons c s =>
    rw [List.cons_append] at htake hdrop ⊢
    rw [listItems, if_neg (not_or.2 (hquote c rfl))]
    split
    · next h => exact absurd (h.symm.trans hdrop) (by simp)
    · next h =>
      obtain ⟨-, rfl⟩ := List.cons.inj (h.symm.trans hdrop)
      rw [htake]

/-- A bare item without a comma behind it is the last one. -/
theorem listItems_last {s : List Char} (hs : IsBare s) :
    listItems whole s = .ok (withItem (trim s) []) := by
  obtain ⟨hne, hquote, hcomma⟩ := hs
  have hdrop : s.dropWhile (· ≠ ',') = [] :=
    List.dropWhile_eq_nil_iff.2 fun d hd => decide_eq_true (hcomma d hd)
  cases s with
  | nil => exact absurd rfl hne
  | cons c s =>
    rw [listItems, if_neg (not_or.2 (hquote c rfl))]
    split
    · rfl
    · next h => exact absurd (h.symm.trans hdrop) (by simp)

theorem toList_sourceList_cons (name : String) (names : List String) :
    (sourceList (name :: names)).toList =
      (sourceText name).toList ++ if names = [] then [] else ',' :: ' ' :: (sourceList names).toList := by
  cases names with
  | nil => simp [sourceList]
  | cons next names => simp [sourceList]

theorem trimStart_sourceList (names : List String) :
    trimStart (sourceList names).toList = (sourceList names).toList := by
  cases names with
  | nil => rfl
  | cons name names =>
    rw [toList_sourceList_cons, toList_sourceText]
    exact trimStart_of_not_blank (by decide)

/-- A source without a comma is an item of its own. -/
theorem listItems_sourceList {name : String} (hname : ',' ∉ name.toList) (names : List String) :
    listItems whole (sourceList (name :: names)).toList =
      (listItems whole (sourceList names).toList).map (sourceText name :: ·) := by
  have hbare : IsBare (sourceText name).toList := by
    rw [toList_sourceText]
    refine ⟨by simp, ?_, ?_⟩
    · rintro c ⟨⟩
      decide
    · rintro c hc rfl
      exact hname (by simpa using hc)
  have hitem (others : List String) :
      withItem (trim (sourceText name).toList) others = sourceText name :: others := by
    rw [trim_eq_self (isTrimmed_sourceText name), withItem, if_neg hbare.nonempty,
      String.ofList_toList]
  have hitems : withItem (trim (sourceText name).toList) = (sourceText name :: ·) := funext hitem
  rw [toList_sourceList_cons]
  cases names with
  | nil =>
    rw [if_pos rfl, List.append_nil, listItems_last hbare, hitem]
    simp [sourceList, listItems, Except.map]
  | cons next names =>
    have hblank : trimStart (' ' :: (sourceList (next :: names)).toList) =
        trimStart (sourceList (next :: names)).toList := rfl
    rw [if_neg (List.cons_ne_nil _ _), listItems_bare hbare, hitems, hblank, trimStart_sourceList]

/-- A source with a comma is cut at it: the item in front begins like a source. -/
theorem cut_of_listItems {name : String} (hquote : IsQuoteFree name.toList)
    (hname : ',' ∈ name.toList) {names items : List String}
    (h : listItems whole (sourceList (name :: names)).toList = .ok items) :
    ∃ before others, IsQuoteFree before ∧
      items = String.ofList (['u', 'r', 'l', '(', '"'] ++ before) :: others := by
  obtain ⟨before, after, hcut, hbefore⟩ := List.eq_append_cons_of_mem hname
  have hfree : IsQuoteFree before := fun c hc => hquote c (by simp [hcut, hc])
  have hbare : IsBare (['u', 'r', 'l', '(', '"'] ++ before) := by
    refine ⟨by simp, ?_, ?_⟩
    · rintro c ⟨⟩
      decide
    · rintro c hc rfl
      exact hbefore (by simpa using hc)
  have htrim : trim (['u', 'r', 'l', '(', '"'] ++ before) =
      ['u', 'r', 'l', '(', '"'] ++ trimEnd before :=
    trim_append_cons (by decide) (by decide) ['r', 'l', '('] before
  obtain ⟨tail, htail⟩ : ∃ tail, (sourceList (name :: names)).toList =
      (sourceText name).toList ++ tail := ⟨_, toList_sourceList_cons name names⟩
  have hrest : (sourceList (name :: names)).toList =
      ['u', 'r', 'l', '(', '"'] ++ before ++ ',' :: (after ++ ['"', ')'] ++ tail) := by
    rw [htail, toList_sourceText, hcut]
    simp
  rw [hrest, listItems_bare hbare] at h
  obtain ⟨others, -, hothers⟩ := map_eq_ok.1 h
  rw [htrim, withItem, if_neg (by simp)] at hothers
  exact ⟨trimEnd before, others, hfree.trimEnd, hothers.symm⟩

/-- The sources of a font come out as they are written if and only if none of them
has a comma. -/
theorem sources_survive_iff : ∀ {names : List String}, (∀ name ∈ names, IsQuoteFree name.toList) →
    ((∃ items, listItems whole (sourceList names).toList = .ok items ∧
      items.map stripUrl = names) ↔ ∀ name ∈ names, ',' ∉ name.toList)
  | [], _ => by simp [sourceList, listItems]
  | name :: names, h => by
    obtain ⟨hname, hnames⟩ := List.forall_mem_cons.1 h
    rw [List.forall_mem_cons]
    by_cases hcomma : ',' ∈ name.toList
    · refine iff_of_false ?_ fun hnone => hnone.1 hcomma
      rintro ⟨items, hitems, hstrip⟩
      obtain ⟨before, others, hbefore, rfl⟩ := cut_of_listItems hname hcomma hitems
      have hquote := quote_mem_stripUrl hbefore
      rw [(List.cons.inj hstrip).1] at hquote
      exact (hname '"' hquote).1 rfl
    · rw [listItems_sourceList hcomma, ← sources_survive_iff hnames]
      constructor
      · rintro ⟨items, hitems, hstrip⟩
        obtain ⟨others, hothers, rfl⟩ := map_eq_ok.1 hitems
        exact ⟨hcomma, others, hothers, (List.cons.inj hstrip).2⟩
      · rintro ⟨-, items, hitems, hstrip⟩
        exact ⟨sourceText name :: items, by rw [hitems]; rfl,
          by rw [List.map_cons, stripUrl_sourceText, hstrip]⟩

end Declaration

/-! ### The at-rule -/

namespace StyleSheet

open Declaration

/-- Quotes are taken off both ends of a text that has no others. -/
theorem trimQuotes_quoted {family : String} (h : IsQuoteFree family.toList) :
    trimQuotes ("\"" ++ family ++ "\"") = family := by
  have hnone {s : List Char} (hs : IsQuoteFree s) (hne : s ≠ []) (t : List Char) :
      (s ++ t).dropWhile (fun c => c = '"' || c = '\'') = s ++ t := by
    cases s with
    | nil => exact absurd rfl hne
    | cons c s => simp [hs c List.mem_cons_self]
  have hreverse : IsQuoteFree family.toList.reverse := fun c hc => h c (List.mem_reverse.1 hc)
  have htext : ("\"" ++ family ++ "\"").toList = '"' :: (family.toList ++ ['"']) := by simp
  have hquote (t : List Char) : ('"' :: t).dropWhile (fun c => c = '"' || c = '\'') =
      t.dropWhile fun c => c = '"' || c = '\'' := by simp
  by_cases hne : family.toList = []
  · obtain rfl := String.toList_eq_nil_iff.1 hne
    decide
  · have hne' : family.toList.reverse ≠ [] := fun hnil => hne (List.reverse_eq_nil_iff.1 hnil)
    have hback := hnone hreverse hne' []
    rw [List.append_nil] at hback
    rw [trimQuotes, htext, hquote, hnone h hne, List.reverse_append, List.reverse_singleton,
      List.singleton_append, hquote, hback, List.reverse_reverse, String.ofList_toList]

/-- The faces of an at-rule with a family and sources. -/
theorem facesOf_eq {rule : Sheet.AtRule} {family src : String}
    (hfamily : rule.get? "font-family" = some family) (hsrc : rule.get? "src" = some src) :
    facesOf rule =
      match readList src with
      | .ok sources => sources.map fun source => ⟨trimQuotes family, stripUrl source⟩
      | .error _ => [] := by
  have hfaces := facesOf.eq_def rule
  rw [hfamily, hsrc] at hfaces
  exact hfaces

/-! ### What its text is read as -/

theorem isClosed_quoted {s : List Char} (h : IsQuoteFree s) : IsClosed ('"' :: (s ++ ['"'])) :=
  .string (.inr rfl) (fun hmem => (h _ hmem).1 rfl) .nil

theorem isClosed_sourceText {name : String} (h : IsQuoteFree name.toList) :
    IsClosed (sourceText name).toList := by
  have hfront : IsClosed ['u', 'r', 'l', '('] := Sheet.isClosed_of_forall (by simp)
  have hback : IsClosed [')'] := Sheet.isClosed_of_forall (by simp)
  have hwhole := (hfront.append (isClosed_quoted h)).append hback
  rw [toList_sourceText]
  simpa using hwhole

theorem isClosed_sourceList : ∀ {names : List String}, (∀ name ∈ names, IsQuoteFree name.toList) →
    IsClosed (sourceList names).toList
  | [], _ => .nil
  | name :: names, h => by
    obtain ⟨hname, hnames⟩ := List.forall_mem_cons.1 h
    rw [toList_sourceList_cons]
    refine (isClosed_sourceText hname).append ?_
    split
    · exact .nil
    · exact .char (by decide) (.char (by decide) (isClosed_sourceList hnames))

theorem getLast?_sourceList : ∀ names : List String,
    ∀ c ∈ (sourceList names).toList.getLast?, c = ')'
  | [] => by simp [sourceList]
  | [name] => by
    have hsource : (sourceList [name]).toList = (sourceText name).toList := by simp [sourceList]
    rw [hsource, toList_sourceText, List.getLast?_append, List.getLast?_append]
    rintro c ⟨⟩
    rfl
  | name :: next :: names => by
    have hrest := getLast?_sourceList (next :: names)
    have hne : (sourceList (next :: names)).toList ≠ [] := by
      rw [toList_sourceList_cons, toList_sourceText]
      simp
    obtain ⟨last, hlast⟩ := Option.ne_none_iff_exists'.1 (mt List.getLast?_eq_none_iff.1 hne)
    rw [toList_sourceList_cons, if_neg (List.cons_ne_nil _ _), List.getLast?_append,
      List.getLast?_cons_cons, List.getLast?_cons_of_ne_nil hne, hlast, Option.some_or, ← hlast]
    exact hrest

theorem isTrimmed_sourceList (names : List String) : IsTrimmed (sourceList names).toList := by
  constructor
  · cases names with
    | nil => simp [sourceList]
    | cons name names =>
      rw [toList_sourceList_cons, toList_sourceText]
      rintro c ⟨⟩
      decide
  · intro c hc
    rw [getLast?_sourceList names c hc]
    decide

theorem toList_fontFaceText (family : String) (names : List String) :
    (fontFaceText family names).toList =
      [] ++ ['@'] ++ "font-face".toList ++ [' '] ++ ['{'] ++
        ([' '] ++ (("font-family" ++ ": " ++ ("\"" ++ family ++ "\"")).toList ++ []) ++ [';'] ++
          ([' '] ++ (("src" ++ ": " ++ sourceList names).toList ++ [' ']) ++ ['}'])) ++ [] := by
  unfold fontFaceText
  generalize sourceList names = src
  simp

theorem isName_fontFace :
    Sheet.IsName "font-face" ∧ Sheet.IsName "font-family" ∧ Sheet.IsName "src" := by
  -- What another text is read as is well-formed.
  have hparse : Sheet.parseString "@font-face\x7bfont-family:a;src:b\x7d" =
      .ok ⟨[], [⟨"font-face", [⟨"font-family", "a", 1⟩, ⟨"src", "b", 1⟩]⟩]⟩ :=
    Sheet.eq_ok_of_toOption (by decide +kernel)
  have hrule := (Sheet.wellFormed_of_parseString hparse).atRules _ List.mem_cons_self
  obtain ⟨hfamily, hsrc⟩ := List.forall_mem_cons.1 hrule.declarations
  exact ⟨hrule.name, hfamily.property, (List.forall_mem_singleton.1 hsrc).property⟩

/-- The text of a font is read as one at-rule. -/
theorem parseString_fontFaceText {family : String} {names : List String}
    (hfamily : IsQuoteFree family.toList) (hnames : ∀ name ∈ names, IsQuoteFree name.toList) :
    ∃ first second : Nat, Sheet.parseString (fontFaceText family names) = .ok { atRules :=
      [⟨"font-face", [⟨"font-family", "\"" ++ family ++ "\"", first⟩,
        ⟨"src", sourceList names, second⟩]⟩] } := by
  have hspace : ∀ c ∈ [' '], Sheet.isSpace c = true := List.forall_mem_singleton.2 (by decide)
  have hblank : ∀ c ∈ [' '], isBlank c = true := List.forall_mem_singleton.2 (by decide)
  have hquoted : trim ("\"" ++ family ++ "\"").toList = ("\"" ++ family ++ "\"").toList := by
    have htext : ("\"" ++ family ++ "\"").toList = '"' :: (family.toList ++ ['"']) := by simp
    rw [htext, trim_append_cons (by decide) (by decide)]
    rfl
  obtain ⟨⟨_, _, first⟩, hfirst, hpair⟩ := Sheet.exists_spellsDeclaration
    ("font-family", "\"" ++ family ++ "\"")
    (1 + Sheet.newlines ([] ++ '@' :: [] ++ "font-face".toList ++ [' '] ++ ['{'])) [' '] [] hspace
    (List.forall_mem_nil _)
  obtain ⟨⟨_, _, second⟩, hsecond, hpair'⟩ := Sheet.exists_spellsDeclaration
    ("src", sourceList names) _ [' '] [' '] hspace hblank
  rw [Sheet.Declaration.pair, trimmed, hquoted, String.ofList_toList] at hpair
  rw [Sheet.Declaration.pair, trimmed, trim_eq_self (isTrimmed_sourceList names),
    String.ofList_toList] at hpair'
  obtain ⟨rfl, rfl⟩ := Prod.mk.inj hpair
  obtain ⟨rfl, rfl⟩ := Prod.mk.inj hpair'
  have hgap : Sheet.IsGap true [' '] := .blank (by decide) .nil
  have hspells := Sheet.SpellsContent.atRule .nil .nil hgap (.next hfirst (.last hsecond)) (.done .nil)
  dsimp only at hspells
  rw [← toList_fontFaceText] at hspells
  obtain ⟨hrule, hname, hsrc⟩ := isName_fontFace
  have hvalue : IsClosed ("\"" ++ family ++ "\"").toList ∧
      IsTrimmed ("\"" ++ family ++ "\"").toList := by
    refine ⟨?_, hquoted ▸ Sheet.isTrimmed_trim _⟩
    simpa using isClosed_quoted hfamily
  have hwf : Sheet.AtRule.WellFormed ⟨"font-face", [⟨"font-family", "\"" ++ family ++ "\"", first⟩,
      ⟨"src", sourceList names, second⟩]⟩ :=
    ⟨hrule, List.forall_mem_cons.2 ⟨⟨hname, hvalue.1, hvalue.2⟩, List.forall_mem_singleton.2
      ⟨hsrc, isClosed_sourceList hnames, isTrimmed_sourceList names⟩⟩⟩
  exact ⟨first, second, Sheet.parseString_of_spells
    ⟨List.forall_mem_nil _, List.forall_mem_singleton.2 hwf⟩ hspells⟩

/-- The files of a font are what is read of its text, one face for each and in their
order, if and only if none of them has a comma in its name. -/
theorem fontFaces_survive (s : StyleSheet) (family : String) (names : List String)
    (hfamily : IsQuoteFree family.toList) (hnames : ∀ name ∈ names, IsQuoteFree name.toList) :
    (s.parseString (fontFaceText family names)).1 = .ok [] ∧
      ((s.parseString (fontFaceText family names)).2.fontFaces =
        s.fontFaces ++ names.map (⟨family, ·⟩) ↔ ∀ name ∈ names, ',' ∉ name.toList) := by
  obtain ⟨first, second, hparse⟩ := parseString_fontFaceText hfamily hnames
  have hcontent : Sheet.parse (.ofString (fontFaceText family names)) = _ := hparse
  have hsources : (∃ items, listItems (sourceList names) (sourceList names).toList = .ok items ∧
      items.map stripUrl = names) ↔ ∀ name ∈ names, ',' ∉ name.toList := sources_survive_iff hnames
  have hfaces : facesOf ⟨"font-face", [⟨"font-family", "\"" ++ family ++ "\"", first⟩,
      ⟨"src", sourceList names, second⟩]⟩ = names.map (⟨family, ·⟩) ↔
        ∀ name ∈ names, ',' ∉ name.toList := by
    rw [facesOf_eq rfl rfl, readList, trimStart_sourceList, trimQuotes_quoted hfamily, ← hsources]
    cases hitems : listItems (sourceList names) (sourceList names).toList with
    | error e =>
      refine iff_of_false (fun hnil => ?_) (by simp)
      obtain rfl := List.map_eq_nil_iff.1 hnil.symm
      simp [sourceList, listItems] at hitems
    | ok items =>
      have hface : Function.Injective fun source => FontFace.mk family source :=
        fun _ _ h => (FontFace.mk.inj h).2
      have hmap : (items.map fun source => FontFace.mk family (stripUrl source)) =
          (items.map stripUrl).map fun source => FontFace.mk family source := by simp
      simp only [Except.ok.injEq, exists_eq_left', hmap, hface.list_map.eq_iff]
  rw [parseString, parse, hcontent]
  refine ⟨rfl, ?_⟩
  simp [fontFaces, add, hfaces]

theorem fontFaces_survive_marks :
    ((StyleSheet.new .standard).parseString
        (fontFaceText "A;\x7d" [" a)/*", "b\n\x7b;\x7d"])).2.fontFaces =
      [⟨"A;\x7d", " a)/*"⟩, ⟨"A;\x7d", "b\n\x7b;\x7d"⟩] := by
  have hfamily : IsQuoteFree "A;\x7d".toList := by simp [IsQuoteFree]
  have hnames : ∀ name ∈ [" a)/*", "b\n\x7b;\x7d"], IsQuoteFree name.toList := by simp [IsQuoteFree]
  exact (fontFaces_survive (.new .standard) _ _ hfamily hnames).2.2 (by simp)

/-- A comma cuts a file in two, although it is in quotes. -/
theorem fontFaces_cut_at_comma :
    ((StyleSheet.new .standard).parseString (fontFaceText "F" ["a,b"])).2.fontFaces =
        [⟨"F", "url(\"a"⟩, ⟨"F", "b\")"⟩] ∧
      ((StyleSheet.new .standard).parseString (fontFaceText "F" ["a,b"])).2.fontFaces ≠
        ["a,b"].map (⟨"F", ·⟩) := by
  have hfaces : ((StyleSheet.new .standard).parseString (fontFaceText "F" ["a,b"])).2.fontFaces =
      [⟨"F", "url(\"a"⟩, ⟨"F", "b\")"⟩] := by
    decide +kernel
  exact ⟨hfaces, by rw [hfaces]; decide⟩

end StyleSheet

end RichText
