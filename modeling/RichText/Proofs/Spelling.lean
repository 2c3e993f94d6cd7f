/-
# How content is spelled

The texts that say well-formed content. A compound is spelled as its tag or a
star, which may be left out before a suffix, and its suffixes in any order,
none of which follows a blank; a selector from the outermost compound inwards,
with `>` or a blank between two of them; a declaration as a name, a colon and a
value, with a semicolon behind it that may be left out before the brace. Blanks
and closed comments may stand between any two of these parts (`IsGap`). Around
a value only blanks may stand: there a comment would belong to the value.

Content keeps the lines that its declarations are on, so the relations know the
line that a text begins on. But for these lines all well-formed content is
spelled by some text (`exists_spells`).

Key definitions: `IsGap`, `SpellsCompound`, `SpellsChain`, `SpellsSelectors`,
`SpellsBlock`, `SpellsContent`, `Content.unlined`.
Key theorems: `exists_spells`.
-/
import RichText.Proofs.WellFormed

namespace RichText.Sheet

open Text

/-- Blanks and closed comments; `blank` says whether there is a blank. -/
inductive IsGap : Bool → List Char → Prop
  | nil : IsGap false []
  | blank {blank : Bool} {c : Char} {cs : List Char} (hc : isSpace c = true) (h : IsGap blank cs) :
    IsGap true (c :: cs)
  | comment {blank : Bool} {body cs : List Char} (hb : IsComment body) (h : IsGap blank cs) :
    IsGap blank ('/' :: '*' :: (body ++ ['*', '/'] ++ cs))

/-! ### Selectors -/

/-- The suffixes of a compound: the character that marks each, and its name. -/
def Compound.suffixes (c : Compound) : List (Char × String) :=
  (c.className.map ('.', ·)).toList ++ (c.id.map ('#', ·)).toList ++
    (c.pseudoClass.map (':', ·)).toList

inductive SpellsSuffixes : List Char → List (Char × String) → Prop
  | nil : SpellsSuffixes [] []
  | cons {blank : Bool} {before behind more : List Char} {mark : Char} {name : String}
    {suffixes : List (Char × String)} (hb : IsGap false before) (ha : IsGap blank behind)
    (h : SpellsSuffixes more suffixes) :
    SpellsSuffixes (before ++ mark :: (behind ++ name.toList) ++ more) ((mark, name) :: suffixes)

/-- The tag of a compound or a star, which may be left out before a suffix. -/
def SpellsElement (text : List Char) (element : Option String) (suffixes : List (Char × String)) :
    Prop :=
  match element with
  | some name => text = name.toList
  | none => text = ['*'] ∨ text = [] ∧ suffixes ≠ []

inductive SpellsCompound : List Char → Compound → Prop
  | intro {element rest : List Char} {suffixes : List (Char × String)} {c : Compound}
    (he : SpellsElement element c.element suffixes) (hp : suffixes.Perm c.suffixes)
    (hs : SpellsSuffixes rest suffixes) : SpellsCompound (element ++ rest) c

/-- What stands behind a compound, up to the next one inwards. -/
inductive SpellsLink : List Char → Bool → Prop
  | child {blank blank' : Bool} {before behind : List Char} (hb : IsGap blank before)
    (ha : IsGap blank' behind) : SpellsLink (before ++ '>' :: behind) true
  | inside {gap : List Char} (hg : IsGap true gap) : SpellsLink gap false

/-- A chain is spelled from its outermost compound, which is its last, inwards. -/
inductive SpellsChain : List Char → Chain → Prop
  | one {text : List Char} {c : Compound} (h : SpellsCompound text c) : SpellsChain text [c]
  | more {outerText link text : List Char} {c o : Compound} {outer : Chain}
    (ho : SpellsChain outerText (o :: outer)) (hl : SpellsLink link o.directChild)
    (h : SpellsCompound text c) : SpellsChain (outerText ++ link ++ text) (c :: o :: outer)

/-- The selectors of a rule, up to the brace behind them. -/
inductive SpellsSelectors : List Char → List Chain → Prop
  | one {blank blank' : Bool} {before text behind : List Char} {chain : Chain}
    (hb : IsGap blank before) (h : SpellsChain text chain) (ha : IsGap blank' behind) :
    SpellsSelectors (before ++ text ++ behind) [chain]
  | more {blank blank' : Bool} {before text behind others : List Char} {chain : Chain}
    {chains : List Chain} (hb : IsGap blank before) (h : SpellsChain text chain)
    (ha : IsGap blank' behind) (ho : SpellsSelectors others chains) :
    SpellsSelectors (before ++ text ++ behind ++ ',' :: others) (chain :: chains)

/-! ### Blocks -/

/-- The lines that a text goes down. -/
def newlines (cs : List Char) : Nat := cs.count '\n'

/-- A declaration without what ends it, in a text that begins on `line`. -/
inductive SpellsDeclaration (line : Nat) : List Char → Declaration → Prop
  | intro {blank blank' : Bool} {before behind blanks blanks' : List Char} {d : Declaration}
    (hb : IsGap blank before) (ha : IsGap blank' behind) (hv : ∀ c ∈ blanks, isBlank c = true)
    (hv' : ∀ c ∈ blanks', isBlank c = true) (hl : d.line = line + newlines before) :
    SpellsDeclaration line
      (before ++ d.property.toList ++ behind ++ ':' :: (blanks ++ (d.value.toList ++ blanks'))) d

/-- A block behind its opening brace, with the brace that closes it. -/
inductive SpellsBlock : Nat → List Char → List Declaration → Prop
  | close {line : Nat} {blank : Bool} {gap : List Char} (hg : IsGap blank gap) :
    SpellsBlock line (gap ++ ['}']) []
  | last {line : Nat} {text : List Char} {d : Declaration} (h : SpellsDeclaration line text d) :
    SpellsBlock line (text ++ ['}']) [d]
  | next {line : Nat} {text more : List Char} {d : Declaration} {found : List Declaration}
    (h : SpellsDeclaration line text d)
    (hm : SpellsBlock (line + newlines (text ++ [';'])) more found) :
    SpellsBlock line (text ++ [';'] ++ more) (d :: found)

/-! ### Stylesheets -/

inductive SpellsContent : Nat → List Char → Content → Prop
  | done {line : Nat} {blank : Bool} {gap : List Char} (hg : IsGap blank gap) :
    SpellsContent line gap {}
  | rule {line : Nat} {text block more : List Char} {chains : List Chain}
    {found : List Declaration} {content : Content} (hs : SpellsSelectors text chains)
    (hb : SpellsBlock (line + newlines (text ++ ['{'])) block found)
    (hm : SpellsContent (line + newlines (text ++ ['{'] ++ block)) more content) :
    SpellsContent line (text ++ ['{'] ++ block ++ more)
      { content with rules := ⟨chains, found⟩ :: content.rules }
  | atRule {line : Nat} {blank₁ blank₂ blank₃ : Bool} {gap₁ gap₂ gap₃ block more : List Char}
    {name : String} {found : List Declaration} {content : Content} (h₁ : IsGap blank₁ gap₁)
    (h₂ : IsGap blank₂ gap₂) (h₃ : IsGap blank₃ gap₃)
    (hb : SpellsBlock (line + newlines (gap₁ ++ '@' :: gap₂ ++ name.toList ++ gap₃ ++ ['{'])) block
      found)
    (hm : SpellsContent
      (line + newlines (gap₁ ++ '@' :: gap₂ ++ name.toList ++ gap₃ ++ ['{'] ++ block)) more
      content) :
    SpellsContent line (gap₁ ++ '@' :: gap₂ ++ name.toList ++ gap₃ ++ ['{'] ++ block ++ more)
      { content with atRules := ⟨name, found⟩ :: content.atRules }

/-! ### Every content is spelled by some text -/

theorem exists_spellsSuffixes : ∀ suffixes : List (Char × String),
    ∃ text, SpellsSuffixes text suffixes
  | [] => ⟨[], .nil⟩
  | (mark, name) :: suffixes => by
    obtain ⟨text, h⟩ := exists_spellsSuffixes suffixes
    exact ⟨_, .cons .nil .nil h⟩

theorem exists_spellsCompound (c : Compound) : ∃ text, SpellsCompound text c := by
  obtain ⟨rest, hrest⟩ := exists_spellsSuffixes c.suffixes
  cases he : c.element with
  | none => exact ⟨['*'] ++ rest, .intro (by rw [he]; exact .inl rfl) (.refl _) hrest⟩
  | some name => exact ⟨name.toList ++ rest, .intro (by rw [he]; rfl) (.refl _) hrest⟩

theorem exists_spellsLink (direct : Bool) : ∃ text, SpellsLink text direct := by
  cases direct with
  | true => exact ⟨_, .child .nil .nil⟩
  | false => exact ⟨[' '], .inside (.blank rfl .nil)⟩

theorem exists_spellsChain : ∀ chain : Chain, chain ≠ [] → ∃ text, SpellsChain text chain
  | [], h => absurd rfl h
  | [c], _ => by
    obtain ⟨text, h⟩ := exists_spellsCompound c
    exact ⟨text, .one h⟩
  | c :: o :: outer, _ => by
    obtain ⟨outerText, ho⟩ := exists_spellsChain (o :: outer) (by simp)
    obtain ⟨link, hl⟩ := exists_spellsLink o.directChild
    obtain ⟨text, h⟩ := exists_spellsCompound c
    exact ⟨_, .more ho hl h⟩

theorem exists_spellsSelectors : ∀ chains : List Chain, chains ≠ [] →
    (∀ chain ∈ chains, chain ≠ []) → ∃ text, SpellsSelectors text chains
  | [], h, _ => absurd rfl h
  | [chain], _, hne => by
    obtain ⟨text, h⟩ := exists_spellsChain chain (hne chain List.mem_cons_self)
    exact ⟨_, .one .nil h .nil⟩
  | chain :: other :: chains, _, hne => by
    obtain ⟨text, h⟩ := exists_spellsChain chain (hne chain List.mem_cons_self)
    obtain ⟨others, ho⟩ := exists_spellsSelectors (other :: chains) (by simp)
      fun c hc => hne c (List.mem_cons_of_mem chain hc)
    exact ⟨_, .more .nil h .nil ho⟩

def Declaration.unlined (d : Declaration) : Declaration := { d with line := 0 }

/-- What content says, apart from the lines. -/
def Content.unlined (content : Content) : Content where
  rules := content.rules.map fun r => { r with declarations := r.declarations.map (·.unlined) }
  atRules := content.atRules.map fun r => { r with declarations := r.declarations.map (·.unlined) }

theorem exists_spellsBlock : ∀ (found : List Declaration) (line : Nat), ∃ text found',
    SpellsBlock line text found' ∧ found'.map (·.unlined) = found.map (·.unlined)
  | [], line => ⟨['}'], [], .close .nil, rfl⟩
  | d :: found, line => by
    have hd : SpellsDeclaration line _ { d with line := line } :=
      .intro .nil .nil (List.forall_mem_nil _) (List.forall_mem_nil _) rfl
    obtain ⟨more, found', hmore, hfound'⟩ := exists_spellsBlock found _
    exact ⟨_, _ :: found', .next hd hmore, congrArg (_ :: ·) hfound'⟩

theorem exists_spellsAtRules : ∀ (atRules : List AtRule) (line : Nat), ∃ text content',
    SpellsContent line text content' ∧ content'.unlined = (Content.mk [] atRules).unlined
  | [], line => ⟨[], {}, .done .nil, rfl⟩
  | r :: atRules, line => by
    obtain ⟨block, found, hblock, hfound⟩ := exists_spellsBlock r.declarations _
    obtain ⟨more, content, hmore, hcontent⟩ := exists_spellsAtRules atRules _
    refine ⟨_, { content with atRules := ⟨r.name, found⟩ :: content.atRules },
      .atRule .nil .nil .nil hblock hmore, ?_⟩
    obtain ⟨hrules, hatRules⟩ := Content.mk.inj hcontent
    simp only [Content.unlined, List.map_cons, hfound, hrules, hatRules]

/-- All well-formed content is spelled by some text, but for the lines. -/
theorem exists_spells {content : Content} (h : content.WellFormed) (line : Nat) :
    ∃ text content', SpellsContent line text content' ∧ content'.unlined = content.unlined := by
  obtain ⟨rules, atRules⟩ := content
  induction rules generalizing line with
  | nil => exact exists_spellsAtRules atRules line
  | cons r rules ih =>
    obtain ⟨hr, hrules⟩ := List.forall_mem_cons.1 h.rules
    obtain ⟨text, htext⟩ := exists_spellsSelectors r.selectors hr.nonempty
      fun chain hc => (hr.selectors chain hc).nonempty
    obtain ⟨block, found, hblock, hfound⟩ := exists_spellsBlock r.declarations _
    obtain ⟨more, content, hmore, hcontent⟩ := ih _ ⟨hrules, h.atRules⟩
    refine ⟨_, _, .rule htext hblock hmore, ?_⟩
    obtain ⟨hrules, hatRules⟩ := Content.mk.inj hcontent
    simp only [Content.unlined, List.map_cons, hfound, hrules, hatRules]

end RichText.Sheet
