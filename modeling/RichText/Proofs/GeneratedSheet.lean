/-
# Generated stylesheets

Every generated stylesheet is read in full. One rule of it spells a selector and three
declarations, each with a semicolon behind it (`parseString_ruleText`), and none of
these is refused, whatever the registry: the numbers of a margin and a padding are
plain digits, and a color always has six of them. Texts of one rule each, one behind
another, are read to the rules of all of them (`exists_parseString_join`), and a rule
whose declarations all stand is added without a diagnostic
(`exists_parseString_sheetText`).

Key definitions: `IsAccepted`, `Rule.IsSound`, `terminated`.
Key theorems: `parseString_terminated`, `parseString_ruleText`,
`exists_parseString_join`, `exists_parseString_sheetText`.
-/
import RichText.Bench.Generator
import RichText.Proofs.Atomicity
import RichText.Proofs.PlainValues
import RichText.Proofs.RuleOrder

namespace RichText

open Text
open Declaration (hex px pxs)

/-! ### Declarations that stand -/

namespace Declaration

variable {r : Registry} {property value : String}

/-- A declaration that is not refused. -/
def IsAccepted (d : String × String) : Prop := ∃ found, writes d.1 d.2 = .ok found

/-- No registry and no style refuses a declaration that stands for writes. -/
theorem IsAccepted.exists_apply (h : IsAccepted (property, value)) (r : Registry) (s : Style) :
    ∃ s', apply r property value s = .ok s' := by
  obtain ⟨found, hfound⟩ := h
  have hstands := stands_writes property value
  rw [hfound] at hstands
  obtain ⟨s', hs', -⟩ := exists_enact r hstands.distinct hstands.fits s
  have hinPlace : applyInPlace r property value s = (.ok (), s') := by
    simp only [applyInPlace, hfound, hs']
  exact ⟨s', by rw [apply_eq, hinPlace]; rfl⟩

/-- Nothing is reported of declarations that stand. -/
theorem applyAll_accepted (r : Registry) : ∀ {declarations : List (String × String)},
    (∀ d ∈ declarations, d.1 ≠ "" ∧ IsAccepted d) → ∀ s : Style,
      (applyAll (applyPair r) s declarations).1 = []
  | [], _, _ => rfl
  | d :: declarations, h, s => by
    obtain ⟨⟨hne, hd⟩, hdeclarations⟩ := List.forall_mem_cons.1 h
    obtain ⟨s', hs'⟩ := hd.exists_apply r s
    have hpair : applyPair r d s = .ok s' := by rw [applyPair, if_neg hne, hs']
    rw [applyAll, hpair]
    exact applyAll_accepted r hdeclarations s'

/-- One to four lengths stand for the sides of a box. -/
theorem exists_boxWrites (box : Box) (property : String) {numbers : List Nat} (hne : numbers ≠ [])
    (hlen : numbers.length ≤ 4) : ∃ found,
      boxWrites box property [] (String.ofList (pxs numbers)) = .ok found := by
  obtain ⟨lengths, hlengths, hcount⟩ := exists_readLengths numbers
  have hpos := List.length_pos_iff.2 hne
  simp only [boxWrites, hlengths]
  rcases lengths with _ | ⟨_, _ | ⟨_, _ | ⟨_, _ | ⟨_, _ | ⟨_, more⟩⟩⟩⟩⟩
  case nil =>
    simp only [List.length_nil] at hcount
    omega
  case cons.cons.cons.cons.cons =>
    simp only [List.length_cons] at hcount
    omega
  all_goals exact ⟨_, rfl⟩

/-- A value that is there and trimmed is looked at as it is. -/
theorem writes_of_isTrimmed {value : List Char} (h : Sheet.IsTrimmed value) (hne : value ≠ [])
    (property : String) : writes property (String.ofList value) =
      match afterLead? "margin".toList property.toList with
      | some side => boxWrites margin property side (String.ofList value)
      | none =>
        match afterLead? "padding".toList property.toList with
        | some side => boxWrites padding property side (String.ofList value)
        | none =>
          if hasLead "font".toList property.toList then
            fontPropertyWrites property (String.ofList value)
          else plainWrites property (String.ofList value) := by
  have hnonempty : String.ofList value ≠ "" := fun hempty =>
    hne (by simpa using congrArg String.toList hempty)
  have hwrites := writes.eq_def property (String.ofList value)
  rw [String.toList_ofList, Sheet.trim_eq_self h, if_neg hnonempty] at hwrites
  exact hwrites

theorem isAccepted_margin {numbers : List Nat} (hne : numbers ≠ []) (hlen : numbers.length ≤ 4) :
    IsAccepted ("margin", String.ofList (pxs numbers)) := by
  have hside : afterLead? "margin".toList "margin".toList = some [] := by simp [afterLead?]
  rw [IsAccepted, writes_of_isTrimmed (isTrimmed_pxs numbers) (pxs_ne_nil hne), hside]
  exact exists_boxWrites margin "margin" hne hlen

theorem isAccepted_padding {numbers : List Nat} (hne : numbers ≠ []) (hlen : numbers.length ≤ 4) :
    IsAccepted ("padding", String.ofList (pxs numbers)) := by
  have hmargin : afterLead? "margin".toList "padding".toList = none := by simp [afterLead?]
  have hside : afterLead? "padding".toList "padding".toList = some [] := by simp [afterLead?]
  rw [IsAccepted, writes_of_isTrimmed (isTrimmed_pxs numbers) (pxs_ne_nil hne), hmargin, hside]
  exact exists_boxWrites padding "padding" hne hlen

theorem isAccepted_color {n : Nat} (h : n < 0x1000000) :
    IsAccepted ("color", String.ofList ('#' :: hex n)) := by
  have hmargin : afterLead? "margin".toList "color".toList = none := by simp [afterLead?]
  have hpadding : afterLead? "padding".toList "color".toList = none := by simp [afterLead?]
  have hfont : hasLead "font".toList "color".toList = false := by simp [hasLead, afterLead?]
  have hwrites (value : String) : plainWrites "color" value =
      (readColor value).map fun c => set Standard.color (.color c) := rfl
  obtain ⟨color, hcolor⟩ := exists_readColor h
  refine ⟨set Standard.color (.color color), ?_⟩
  rw [writes_of_isTrimmed (isTrimmed_hex n) (List.cons_ne_nil _ _)]
  simp only [hmargin, hpadding, hfont, Bool.false_eq_true, if_false, hwrites, hcolor]
  rfl

end Declaration

/-! ### Texts of one rule -/

namespace Sheet

/-- Declarations with a semicolon behind each. -/
def terminated (declarations : List (String × String)) : List Char :=
  declarations.flatMap fun d => ' ' :: ((d.1 ++ ": " ++ d.2).toList ++ [';'])

/-- A block in which the last declaration ends as the others do. -/
theorem exists_spellsBlock_terminated : ∀ (declarations : List (String × String)) (line : Nat),
    ∃ found : List Declaration,
      SpellsBlock line (terminated declarations ++ [' ', '}']) found ∧
        found.map Declaration.pair = declarations.map trimmed
  | [], line => by
    have hgap : IsGap true [' '] := .blank (by decide) .nil
    exact ⟨[], .close hgap, rfl⟩
  | d :: declarations, line => by
    obtain ⟨first, hspells, hfirst⟩ := exists_spellsDeclaration d line [' '] []
      (List.forall_mem_singleton.2 (by decide)) (List.forall_mem_nil _)
    obtain ⟨found, hmore, hfound⟩ := exists_spellsBlock_terminated declarations _
    refine ⟨first :: found, ?_, by rw [List.map_cons, hfirst, hfound]; rfl⟩
    simpa [terminated] using SpellsBlock.next hspells hmore

/-- A selector and a block on a line of its own are one rule. -/
theorem parseString_terminated {text : String} {selector : List Char} {chain : Chain}
    {declarations : List (String × String)}
    (htext : text.toList = selector ++ [' ', '{'] ++ (terminated declarations ++ [' ', '}']) ++ ['\n'])
    (hselector : SpellsChain selector chain) (hchain : Chain.WellFormed chain)
    (hd : ∀ d ∈ declarations, Cuttable d) :
    ∃ found : List Declaration, parseString text = .ok { rules := [⟨[chain], found⟩] } ∧
      found.map Declaration.pair = declarations.map trimmed := by
  have hspace : IsGap true [' '] := .blank (by decide) .nil
  have hnewline : IsGap true ['\n'] := .blank (by decide) .nil
  have hselectors : SpellsSelectors (selector ++ [' ']) [chain] := .one .nil hselector hspace
  obtain ⟨found, hblock, hfound⟩ := exists_spellsBlock_terminated declarations
    (1 + newlines (selector ++ [' '] ++ ['{']))
  have hspells : SpellsContent 1 text.toList { rules := [⟨[chain], found⟩] } := by
    rw [htext]
    simpa using SpellsContent.rule hselectors hblock (.done hnewline)
  have hwf : ∀ d ∈ found, d.WellFormed := fun d hmem => wellFormed_of_pairs hfound hd hmem
  refine ⟨found, parseString_of_spells ⟨?_, List.forall_mem_nil _⟩ hspells, hfound⟩
  exact List.forall_mem_singleton.2
    ⟨List.cons_ne_nil _ _, List.forall_mem_singleton.2 hchain, hwf⟩

/-! ### Texts of several rules -/

/-- A rule that makes one selector and is applied in full. -/
structure Rule.IsSound (r : Rule) : Prop where
  single : r.selectors.length = 1
  declarations : ∀ d ∈ r.declarations, d.pair.1 ≠ "" ∧ Declaration.IsAccepted d.pair

/-- The lines that a rule is on do not count. -/
theorem Rule.IsSound.moved {r : Rule} (h : r.IsSound) (a : List Char) :
    IsSound { r with declarations := r.declarations.map (·.moved a) } :=
  ⟨h.single, List.forall_mem_map.2 h.declarations⟩

/-- Texts of one rule each, one behind another, are read to their rules. -/
theorem exists_parseString_join : ∀ {texts : List String},
    (∀ text ∈ texts, ∃ r : Rule, parseString text = .ok { rules := [r] } ∧ r.IsSound) →
      ∃ rules : List Rule, parseString (String.join texts) = .ok { rules } ∧
        rules.length = texts.length ∧ ∀ r ∈ rules, r.IsSound
  | [], _ => ⟨[], by decide +kernel, rfl, List.forall_mem_nil _⟩
  | text :: texts, h => by
    obtain ⟨⟨r, htext, hr⟩, htexts⟩ := List.forall_mem_cons.1 h
    obtain ⟨rules, hjoin, hlength, hrules⟩ := exists_parseString_join htexts
    refine ⟨r :: rules.map fun r => { r with declarations := r.declarations.map (·.moved text.toList) },
      ?_, by simp [hlength], List.forall_mem_cons.2 ⟨hr, List.forall_mem_map.2 fun r' hr' =>
        (hrules r' hr').moved _⟩⟩
    rw [String.join_cons, parseString_append htext, hjoin]
    rfl

end Sheet

/-! ### The rules that are generated -/

namespace Bench

open Sheet

/-- The letters and digits of ASCII are letters and digits. -/
theorem toNat_lt_of_isAlphanum {c : Char} (h : c.isAlphanum = true) : c.toNat < 128 := by
  simp only [Char.isAlphanum, Char.isAlpha, Char.isUpper, Char.isLower, Char.isDigit,
    Bool.or_eq_true, Bool.and_eq_true, decide_eq_true_eq, UInt32.le_iff_toNat_le, ge_iff_le] at h
  rcases h with (⟨-, h⟩ | ⟨-, h⟩) | ⟨-, h⟩ <;> exact Nat.lt_of_le_of_lt h (by decide)

theorem isName_of_isAlphanum {name : String} (first : Char) (more : List Char)
    (h : name.toList = first :: more) (hfirst : first.isAlpha = true)
    (hmore : more.all Char.isAlphanum = true) : IsName name := by
  refine ⟨first, more, h, ?_, fun c hc => ?_⟩
  · have hlt : first.toNat < 128 := toNat_lt_of_isAlphanum (by simp [Char.isAlphanum, hfirst])
    simp [isNameStart, isAlphabetic, hlt, hfirst]
  · have hchar := List.all_eq_true.1 hmore c hc
    have hlt := toNat_lt_of_isAlphanum hchar
    rw [Char.isAlphanum] at hchar
    simp [isNameChar, isAlphanumeric, isAlphabetic, isNumeric, hlt, hchar]

/-- The class of rule `i`. -/
def className (i : Nat) : String := "section" ++ decimal (i % 10)

/-- The selector of rule `i`, as it is read. -/
def chain (i : Nat) : Chain :=
  match i % 3 with
  | 0 => [{ className := some (className i) }]
  | 1 => [{ element := some "p" },
      { element := some "div", className := some (className i), directChild := true }]
  | _ => [{ element := some "li" }, { className := some (className i) }, { element := some "body" }]

/-- A tag, if there is one, and a class behind it. -/
theorem spellsCompound_class (tag : Option String) (name : String) (direct : Bool) :
    SpellsCompound ((tag.elim [] String.toList) ++ '.' :: name.toList)
      { element := tag, className := some name, directChild := direct } := by
  have hsuffixes : SpellsSuffixes ([] ++ '.' :: ([] ++ name.toList) ++ []) [('.', name)] :=
    .cons .nil .nil .nil
  rw [List.nil_append, List.append_nil] at hsuffixes
  refine .intro ?_ (.refl _) hsuffixes
  cases tag with
  | none => exact .inr ⟨rfl, List.cons_ne_nil _ _⟩
  | some tag => rfl

theorem spellsCompound_tag (tag : String) (direct : Bool) :
    SpellsCompound tag.toList { element := some tag, directChild := direct } := by
  have hspells : SpellsCompound (tag.toList ++ []) { element := some tag, directChild := direct } :=
    .intro rfl (.refl []) .nil
  rwa [List.append_nil] at hspells

theorem spellsChain_selectorText (i : Nat) : SpellsChain (selectorText i).toList (chain i) := by
  have hgap : IsGap true [' '] := .blank (by decide) .nil
  have hclass (tag : Option String) (direct : Bool) := spellsCompound_class tag (className i) direct
  unfold selectorText chain
  cases i % 3 with
  | zero => simpa [className] using SpellsChain.one (hclass none false)
  | succ k =>
    cases k with
    | zero =>
      simpa [className] using SpellsChain.more (.one (hclass (some "div") true)) (.child hgap hgap)
        (spellsCompound_tag "p" false)
    | succ k =>
      have houter := SpellsChain.more (.one (spellsCompound_tag "body" false)) (.inside hgap)
        (hclass none false)
      simpa [className] using houter.more (.inside hgap) (spellsCompound_tag "li" false)

theorem isName_className (i : Nat) : IsName (className i) := by
  refine isName_of_isAlphanum 's' (['e', 'c', 't', 'i', 'o', 'n'] ++ Number.decimal (i % 10))
    (by simp [className, decimal]) (by decide) ?_
  rw [List.all_append, List.all_eq_true.2 (Number.forall_mem_decimal (by decide) _)]
  decide

theorem wellFormed_class {tag : Option String} (i : Nat) (direct : Bool)
    (h : ∀ name ∈ tag, IsName name) :
    Compound.WellFormed { element := tag, className := some (className i), directChild := direct } := by
  refine ⟨h, ?_, nofun, nofun⟩
  rintro _ ⟨⟩
  exact isName_className i

theorem wellFormed_tag {tag : String} (h : IsName tag) :
    Compound.WellFormed { element := some tag } := by
  refine ⟨?_, nofun, nofun, nofun⟩
  rintro _ ⟨⟩
  exact h

theorem wellFormed_chain (i : Nat) : Chain.WellFormed (chain i) := by
  have hp : IsName "p" := isName_of_isAlphanum 'p' [] (by simp) (by decide) (by decide)
  have hdiv : IsName "div" := isName_of_isAlphanum 'd' ['i', 'v'] (by simp) (by decide) (by decide)
  have hli : IsName "li" := isName_of_isAlphanum 'l' ['i'] (by simp) (by decide) (by decide)
  have hbody : IsName "body" :=
    isName_of_isAlphanum 'b' ['o', 'd', 'y'] (by simp) (by decide) (by decide)
  have hnone : ∀ name ∈ (none : Option String), IsName name := nofun
  unfold chain
  split
  · refine ⟨List.cons_ne_nil _ _, by simp, ?_⟩
    simpa using wellFormed_class i false hnone
  · refine ⟨List.cons_ne_nil _ _, by simp, ?_⟩
    simpa using ⟨wellFormed_tag hp, wellFormed_class i true (fun _ hmem => Option.some.inj hmem ▸ hdiv)⟩
  · refine ⟨List.cons_ne_nil _ _, by simp, ?_⟩
    simpa using ⟨wellFormed_tag hli, wellFormed_class i false hnone, wellFormed_tag hbody⟩

/-- The declarations of rule `i`. -/
def declarations (i : Nat) : List (String × String) :=
  [("margin", String.ofList (pxs [i % 20])),
    ("padding", String.ofList (pxs [i % 7, i % 5])),
    ("color", String.ofList ('#' :: hex (i * 7919 % 0x1000000)))]

theorem toList_ruleText (i : Nat) : (ruleText i).toList =
    (selectorText i).toList ++ [' ', '{'] ++ (terminated (declarations i) ++ [' ', '}']) ++ ['\n'] := by
  unfold ruleText colorText
  generalize selectorText i = selector
  simp [terminated, declarations, pxs, px, hex, decimal]

/-- What is written in a declaration of a rule, and that it stands. -/
structure IsPlain (d : String × String) : Prop where
  name : IsName d.1
  closed : IsClosed d.2.toList
  trimmed : IsTrimmed d.2.toList
  accepted : Declaration.IsAccepted d

theorem IsPlain.trimmed_eq {d : String × String} (h : IsPlain d) :
    RichText.trimmed d = d := by
  rw [RichText.trimmed, trim_eq_self h.trimmed, String.ofList_toList]

theorem isPlain_lengths {property : String} {numbers : List Nat} (hname : IsName property)
    (haccepted : Declaration.IsAccepted (property, String.ofList (pxs numbers))) :
    IsPlain (property, String.ofList (pxs numbers)) := by
  refine ⟨hname, ?_, ?_, haccepted⟩ <;> rw [String.toList_ofList]
  · exact isClosed_of_forall
      (Declaration.forall_mem_pxs (by decide) (by decide) (by decide) (by decide) numbers)
  · exact Declaration.isTrimmed_pxs numbers

theorem isPlain_declarations (i : Nat) : ∀ d ∈ declarations i, IsPlain d := by
  have hmargin : IsName "margin" :=
    isName_of_isAlphanum 'm' ['a', 'r', 'g', 'i', 'n'] (by simp) (by decide) (by decide)
  have hpadding : IsName "padding" :=
    isName_of_isAlphanum 'p' ['a', 'd', 'd', 'i', 'n', 'g'] (by simp) (by decide) (by decide)
  have hcolor : IsName "color" :=
    isName_of_isAlphanum 'c' ['o', 'l', 'o', 'r'] (by simp) (by decide) (by decide)
  refine List.forall_mem_cons.2 ⟨isPlain_lengths hmargin ?_, List.forall_mem_cons.2
    ⟨isPlain_lengths hpadding ?_, List.forall_mem_singleton.2 ⟨hcolor, ?_, ?_, ?_⟩⟩⟩
  · exact Declaration.isAccepted_margin (List.cons_ne_nil _ _) (by simp)
  · exact Declaration.isAccepted_padding (List.cons_ne_nil _ _) (by simp)
  · rw [String.toList_ofList]
    exact isClosed_of_forall <| List.forall_mem_cons.2
      ⟨by decide, Declaration.forall_mem_hex (by decide) _⟩
  · rw [String.toList_ofList]
    exact Declaration.isTrimmed_hex _
  · exact Declaration.isAccepted_color (Nat.mod_lt _ (by decide))

theorem exists_parseString_ruleText (i : Nat) :
    ∃ r : Rule, parseString (ruleText i) = .ok { rules := [r] } ∧ r.IsSound := by
  have hplain := isPlain_declarations i
  obtain ⟨found, hparse, hfound⟩ := parseString_terminated (toList_ruleText i)
    (spellsChain_selectorText i) (wellFormed_chain i)
    fun d hd => ⟨(hplain d hd).name, (hplain d hd).closed⟩
  refine ⟨_, hparse, rfl, fun d hd => ?_⟩
  have hpair := List.mem_map_of_mem (f := Declaration.pair) hd
  rw [hfound] at hpair
  obtain ⟨d', hmem, heq⟩ := List.mem_map.1 hpair
  rw [(hplain d' hmem).trimmed_eq] at heq
  rw [← heq]
  exact ⟨fun hempty => (hplain d' hmem).name.ne_nil (by rw [hempty]; rfl), (hplain d' hmem).accepted⟩

end Bench

/-! ### What is made of them -/

namespace StyleSheet

theorem length_foldl_insertRule : ∀ new rules : List Selector,
    (new.foldl (fun rules rule => insertRule rule rules) rules).length = rules.length + new.length
  | [], rules => rfl
  | rule :: new, rules => by
    obtain ⟨before, after, hrules, hplaced⟩ := exists_split_insertRule rule rules
    rw [List.foldl_cons, length_foldl_insertRule new, hplaced, hrules]
    simp only [List.length_append, List.length_cons]
    omega

theorem selectorsOf_sound {rule : Sheet.Rule} (h : rule.IsSound) (r : Registry) :
    (selectorsOf r rule).1 = [] ∧ (selectorsOf r rule).2.length = 1 := by
  refine ⟨?_, by rw [selectorsOf, List.length_map, h.single]⟩
  have hdeclarations := h.declarations
  rw [selectorsOf, blockStyle_eq r fun d hd => (hdeclarations d hd).1]
  exact Declaration.applyAll_accepted r (List.forall_mem_map.2 hdeclarations) .empty

/-- Every rule that is applied in full adds one selector and no diagnostic. -/
theorem add_sound (s : StyleSheet) {rules : List Sheet.Rule} (h : ∀ r ∈ rules, r.IsSound) :
    (s.add { rules }).1 = [] ∧ (s.add { rules }).2.rules.length = s.rules.length + rules.length := by
  have hmade : (rules.map (selectorsOf s.registry)).flatMap (·.1) = [] ∧
      ((rules.map (selectorsOf s.registry)).flatMap (·.2)).length = rules.length := by
    induction rules with
    | nil => exact ⟨rfl, rfl⟩
    | cons r rules ih =>
      obtain ⟨hr, hrules⟩ := List.forall_mem_cons.1 h
      obtain ⟨hreported, hcount⟩ := selectorsOf_sound hr s.registry
      obtain ⟨hreported', hcount'⟩ := ih hrules
      simp only [List.map_cons, List.flatMap_cons, List.length_append, List.length_cons, hreported,
        hreported', hcount, hcount']
      exact ⟨rfl, Nat.add_comm ..⟩
  refine ⟨hmade.1, ?_⟩
  rw [add, length_foldl_insertRule, hmade.2]

/-- A generated stylesheet is added without a diagnostic, one rule for each of its
own. -/
theorem parseString_sheetText (s : StyleSheet) (n : Nat) :
    (s.parseString (Bench.sheetText n)).1 = .ok [] ∧
      (s.parseString (Bench.sheetText n)).2.rules.length = s.rules.length + n := by
  have htexts : ∀ text ∈ (List.range n).map Bench.ruleText,
      ∃ r : Sheet.Rule, Sheet.parseString text = .ok { rules := [r] } ∧ r.IsSound :=
    List.forall_mem_map.2 fun i _ => Bench.exists_parseString_ruleText i
  obtain ⟨rules, hparse, hlength, hrules⟩ := Sheet.exists_parseString_join htexts
  obtain ⟨hreported, hcount⟩ := add_sound s hrules
  have hcontent : Sheet.parse (.ofString (Bench.sheetText n)) = .ok { rules } := hparse
  rw [List.length_map, List.length_range] at hlength
  rw [parseString, parse, hcontent]
  exact ⟨congrArg Except.ok hreported, hcount.trans (by rw [hlength])⟩

end StyleSheet

end RichText
