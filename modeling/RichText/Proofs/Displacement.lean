/-
# Lexemes behind a text

The lexemes of a text that stands behind another are those that it has by
itself, as far as the grammar looks at them (`Alike`): their places are moved,
and what the scanner still holds of the text before is looked at by nobody.
For the grammar looks at a name only if the lexeme is one, at a blank only
behind a name or a star, and at a value only behind the colon of a
declaration; and by then the scanner has forgotten what it held before.

So a scanner that differs from another only in its place and in what it holds
keeps differing from it in no other way (`Scanner.Alike.lexemesOf`), and the
readers of the grammar come to the same on both sides, with the places moved
(`stylesheet_alike`).

Key definitions: `Text.Position.moved`, `Content.moved`, `ParseError.moved`,
`Lexemes.Alike`, `Scanner.Alike`.
Key theorems: `Scanner.Alike.lexemesOf`, `stylesheet_alike`.
-/
import RichText.Proofs.Scanning
import RichText.Proofs.Derivation

namespace RichText

/-! ### Places -/

namespace Text.Position

/-- The place of what is at `p` in a text, when the text stands behind `a`. -/
def moved (a : List Char) (p : Position) : Position :=
  ⟨p.line + a.count '\n',
    if p.line = 1 then p.column + ((start.after a).column - 1) else p.column⟩

theorem line_after (a : List Char) (p : Position) : (p.after a).line = p.line + a.count '\n' := by
  induction a generalizing p with
  | nil => rfl
  | cons c a ih =>
    rw [show p.after (c :: a) = (p.next c).after a from rfl, ih, List.count_cons, next]
    by_cases hc : c = '\n' <;> simp [hc]
    omega

theorem one_le_line_next {p : Position} (h : 1 ≤ p.line) (c : Char) : 1 ≤ (p.next c).line := by
  unfold next
  split
  · exact Nat.le_succ_of_le h
  · exact h

theorem one_le_line_after {p : Position} (h : 1 ≤ p.line) (cs : List Char) :
    1 ≤ (p.after cs).line := by
  rw [line_after]
  omega

theorem one_le_column_after {p : Position} (h : 1 ≤ p.column) (cs : List Char) :
    1 ≤ (p.after cs).column := by
  induction cs generalizing p with
  | nil => exact h
  | cons c cs ih =>
    apply ih
    unfold next
    split <;> simp

/-- The beginning of the text is where the text before it ends. -/
theorem moved_start (a : List Char) : start.moved a = start.after a := by
  have hline : (start.after a).line = 1 + a.count '\n' := line_after a start
  have hcolumn : 1 ≤ (start.after a).column := one_le_column_after Nat.le.refl a
  have hmoved : 1 + ((start.after a).column - 1) = (start.after a).column := by omega
  rw [moved, if_pos (show start.line = 1 from rfl)]
  show Position.mk (1 + a.count '\n') (1 + ((start.after a).column - 1)) = _
  rw [hmoved, ← hline]

theorem moved_next (a : List Char) {p : Position} (h : 1 ≤ p.line) (c : Char) :
    (p.next c).moved a = (p.moved a).next c := by
  unfold next
  split
  · simp [moved]
    omega
  · unfold moved
    split <;> simp
    omega

theorem moved_after (a : List Char) : ∀ (cs : List Char) {p : Position}, 1 ≤ p.line →
    (p.after cs).moved a = (p.moved a).after cs
  | [], _, _ => rfl
  | c :: cs, p, h => by
    have ih := moved_after a cs (one_le_line_next h c)
    rw [moved_next a h] at ih
    exact ih

end Text.Position

namespace Sheet

open Text

def ParseError.moved (a : List Char) : ParseError → ParseError
  | .lexical p text => .lexical (p.moved a) text
  | .unexpected p found => .unexpected (p.moved a) found
  | .read fault => .read fault

def Declaration.moved (a : List Char) (d : Declaration) : Declaration :=
  { d with line := d.line + a.count '\n' }

/-- What a text says, when it stands behind `a`. -/
def Content.moved (a : List Char) (content : Content) : Content where
  rules := content.rules.map fun r => { r with declarations := r.declarations.map (·.moved a) }
  atRules := content.atRules.map fun r => { r with declarations := r.declarations.map (·.moved a) }

/-! ### Lexemes -/

/-- Two lexemes behind a lexeme of the token `prev` that the grammar takes for
the same, at places moved by `a`. -/
structure Lexeme.Alike (a : List Char) (prev : Token) (l l' : Lexeme) : Prop where
  token : l'.token = l.token
  start : l'.start = l.start.moved a
  text : l.token = .identifier → l'.text = l.text
  blank : prev = .identifier ∨ prev = .star → l'.sawBlank = l.sawBlank
  value : prev = .colon → l.token = .semicolon ∨ l.token = .blockClose → l'.value = l.value

inductive Lexemes.Alike (a : List Char) : Token → Lexemes → Lexemes → Prop
  | ended (prev : Token) (p : Position) : Alike a prev (.ended p) (.ended (p.moved a))
  | failed (prev : Token) (e : ParseError) : Alike a prev (.failed e) (.failed (e.moved a))
  | next {prev : Token} {l l' : Lexeme} {rest rest' : Lexemes} (hl : l.Alike a prev l')
    (h : Alike a l.token rest rest') : Alike a prev (.next l rest) (.next l' rest')

section Alike

variable {a : List Char} {prev : Token}

theorem Lexeme.Alike.unexpected {l l' : Lexeme} (h : l.Alike a prev l') :
    l'.unexpected = l.unexpected.moved a := by
  unfold Lexeme.unexpected
  rw [h.token, h.start]
  split
  · next ht => rw [h.text ht]; rfl
  · rfl

theorem Lexemes.Alike.unexpected {lexemes lexemes' : Lexemes} (h : lexemes.Alike a prev lexemes') :
    lexemes'.unexpected = lexemes.unexpected.moved a := by
  cases h with
  | ended => rfl
  | failed => rfl
  | next hl => exact hl.unexpected

/-! ### Readers -/

/-- What a reader comes to on both sides: what `g` makes of the first is the second. -/
inductive ReadAlike {α : Type} (a : List Char) (g : α → α) :
    Except ParseError (α × Lexemes) → Except ParseError (α × Lexemes) → Prop
  | ok {x : α} {prev : Token} {rest rest' : Lexemes} (h : rest.Alike a prev rest') :
    ReadAlike a g (.ok (x, rest)) (.ok (g x, rest'))
  | error (e : ParseError) : ReadAlike a g (.error e) (.error (e.moved a))

theorem ReadAlike.ite {α : Type} {g : α → α} {p : Prop} [Decidable p]
    {x y x' y' : Except ParseError (α × Lexemes)} (hx : p → ReadAlike a g x x')
    (hy : ¬p → ReadAlike a g y y') :
    ReadAlike a g (if p then x else y) (if p then x' else y') := by
  split
  · next h => exact hx h
  · next h => exact hy h

theorem ReadAlike.map {α : Type} {g f f' : α → α} {x x' : Except ParseError (α × Lexemes)}
    (h : ReadAlike a g x x') (hf : ∀ found, g (f found) = f' (g found)) :
    ReadAlike a g (x.map fun r => (f r.1, r.2)) (x'.map fun r => (f' r.1, r.2)) := by
  cases h with
  | @ok found _ rest rest' h =>
    show ReadAlike a g (.ok (f found, rest)) (.ok (f' (g found), rest'))
    rw [← hf]
    exact .ok h
  | error e => exact .error e

theorem Lexeme.Alike.readAlike {α : Type} {g : α → α} {l l' : Lexeme} (h : l.Alike a prev l') :
    ReadAlike a g (.error l.unexpected) (.error l'.unexpected) :=
  h.unexpected ▸ .error _

theorem Lexemes.Alike.readAlike {α : Type} {g : α → α} {lexemes lexemes' : Lexemes}
    (h : lexemes.Alike a prev lexemes') :
    ReadAlike a g (.error lexemes.unexpected) (.error lexemes'.unexpected) :=
  h.unexpected ▸ .error _

theorem declarations_alike {lexemes' : Lexemes} : ∀ (lexemes : Lexemes) {prev : Token},
    lexemes.Alike a prev lexemes' →
    ReadAlike a (List.map (·.moved a)) (declarations lexemes) (declarations lexemes')
  | .ended _, _, .ended _ _ => .error _
  | .failed _, _, .failed _ _ => .error _
  | .next name rest, _, .next hname h => by
    rw [declarations.eq_def, declarations.eq_def (.next _ _)]
    simp only [hname.token]
    refine .ite (fun _ => .ok h) fun _ => .ite (fun _ => hname.readAlike) fun hn => ?_
    match rest, h with
    | .ended _, .ended _ _ => exact .error _
    | .failed _, .failed _ _ => exact .error _
    | .next colon (.ended _), .next hcolon (.ended _ _) =>
      simp only [hcolon.token]
      exact .ite (fun _ => hcolon.readAlike) fun _ => .error _
    | .next colon (.failed _), .next hcolon (.failed _ _) =>
      simp only [hcolon.token]
      exact .ite (fun _ => hcolon.readAlike) fun _ => .error _
    | .next colon (.next stop rest), .next hcolon (.next hstop h) =>
      simp only [hcolon.token, hstop.token]
      refine .ite (fun _ => hcolon.readAlike) fun hc => ?_
      have htext := hname.text (by simpa using hn)
      have hvalue := hstop.value (by simpa using hc)
      refine .ite (fun hclose => ?_) fun _ => .ite (fun _ => hstop.readAlike) fun hsemi => ?_
      · rw [htext, hname.start, hvalue (.inr hclose)]
        exact .ok h
      · rw [htext, hname.start, hvalue (.inl (by simpa using hsemi))]
        exact (declarations_alike rest h).map fun _ => rfl

theorem suffixes_alike {lexemes' : Lexemes} : ∀ (lexemes : Lexemes) (begins : Bool) (c : Compound)
    {prev : Token}, lexemes.Alike a prev lexemes' →
    (begins = false → prev = .identifier ∨ prev = .star) →
    ReadAlike a id (suffixes begins c lexemes) (suffixes begins c lexemes')
  | .ended _, _, c, _, .ended prev p, _ => .ok (x := c) (.ended prev p)
  | .failed _, _, _, _, .failed _ _, _ => .error _
  | .next mark rest, begins, c, prev, .next hmark h, hb => by
    rename_i mark' rest'
    have hsuffix : (mark'.token.beginsSuffix && (begins || !mark'.sawBlank)) =
        (mark.token.beginsSuffix && (begins || !mark.sawBlank)) := by
      cases begins with
      | true => rw [hmark.token, Bool.true_or, Bool.true_or]
      | false => rw [hmark.token, hmark.blank (hb rfl)]
    rw [suffixes.eq_def, suffixes.eq_def _ _ (.next _ _)]
    simp only [hsuffix]
    refine .ite (fun _ => ?_) fun _ => .ok (x := c) (.next hmark h)
    match rest, h with
    | .ended _, .ended _ _ => exact .error _
    | .failed _, .failed _ _ => exact .error _
    | .next name rest, .next hname h =>
      simp only [hname.token]
      refine .ite (fun hn => ?_) fun _ => hname.readAlike
      rw [hmark.token, hname.text hn]
      exact suffixes_alike rest false _ h fun _ => .inl hn

theorem compound_alike {lexemes lexemes' : Lexemes} (h : lexemes.Alike a prev lexemes') :
    ReadAlike a id (compound lexemes) (compound lexemes') := by
  cases h with
  | ended => exact .error _
  | failed => exact .error _
  | @next _ first first' _ _ hfirst h =>
    have htoken := hfirst.token
    unfold compound
    simp only [htoken]
    split
    · next ht =>
      rw [hfirst.text ht]
      exact suffixes_alike _ false _ h fun _ => .inl ht
    · next ht => exact suffixes_alike _ false _ h fun _ => .inr ht
    · exact suffixes_alike _ true {} (.next hfirst h) (by simp)
    · exact suffixes_alike _ true {} (.next hfirst h) (by simp)
    · exact suffixes_alike _ true {} (.next hfirst h) (by simp)
    · exact hfirst.readAlike

theorem ReadAlike.exists_eq {α : Type} {g : α → α} {x x' : Except ParseError (α × Lexemes)}
    (h : ReadAlike a g x x') :
    (∃ e, x = .error e ∧ x' = .error (e.moved a)) ∨
      ∃ found rest rest' prev, x = .ok (found, rest) ∧ x' = .ok (g found, rest') ∧
        rest.Alike a prev rest' := by
  cases h with
  | ok h => exact .inr ⟨_, _, _, _, rfl, rfl, h⟩
  | error e => exact .inl ⟨e, rfl, rfl⟩

theorem chain_alike (outer : Chain) {lexemes lexemes' : Lexemes} {prev : Token}
    (h : lexemes.Alike a prev lexemes') :
    ReadAlike a id (chain outer lexemes) (chain outer lexemes') := by
  rw [chain_eq, chain_eq outer lexemes']
  rcases (compound_alike h).exists_eq with ⟨e, he, he'⟩ | ⟨c, rest, rest', prev, hc, hc', hrest⟩
  · rw [he, he']
    exact .error e
  · rw [hc, hc']
    match rest, rest', hrest with
    | .ended _, _, .ended _ _ => exact .error _
    | .failed _, _, .failed _ _ => exact .error _
    | .next mark more, .next mark' more', .next hmark hmore =>
      have hsize := compound_size_lt hc
      have htoken := hmark.token
      simp only [htoken]
      split
      · exact chain_alike _ hmore
      · exact .ok (x := c :: outer) (.next hmark hmore)
      · exact .ok (x := c :: outer) (.next hmark hmore)
      · exact chain_alike _ (.next hmark hmore)
termination_by lexemes.size
decreasing_by all_goals simp only [Lexemes.size] at *; omega

theorem selectors_alike {lexemes lexemes' : Lexemes} {prev : Token}
    (h : lexemes.Alike a prev lexemes') :
    ReadAlike a id (selectors lexemes) (selectors lexemes') := by
  rw [selectors_eq, selectors_eq lexemes']
  rcases (chain_alike [] h).exists_eq with ⟨e, he, he'⟩ | ⟨c, rest, rest', prev, hc, hc', hrest⟩
  · rw [he, he']
    exact .error e
  · rw [hc, hc']
    match rest, rest', hrest with
    | .ended _, _, .ended _ _ => exact .error _
    | .failed _, _, .failed _ _ => exact .error _
    | .next mark more, .next mark' more', .next hmark hmore =>
      have hsize := chain_size_lt hc
      simp only [hmark.token]
      exact .ite (fun _ => (selectors_alike hmore).map fun _ => rfl) fun _ =>
        .ite (fun _ => .ok (x := [c]) hmore) fun _ => hmark.readAlike
termination_by lexemes.size
decreasing_by all_goals simp only [Lexemes.size] at *; omega

/-- What a stylesheet comes to, when it stands behind `a`. -/
def movedResult (a : List Char) : Except ParseError Content → Except ParseError Content
  | .ok content => .ok (content.moved a)
  | .error e => .error (e.moved a)

/-- What follows a construct comes to the same on both sides, if it does so for
whatever the construct is and leaves. -/
theorem ReadAlike.bind {α : Type} {g : α → α} {x x' : Except ParseError (α × Lexemes)}
    (h : ReadAlike a g x x') {f f' : α × Lexemes → Except ParseError Content}
    (hf : ∀ found rest rest' prev, x = .ok (found, rest) → rest.Alike a prev rest' →
      f' (g found, rest') = movedResult a (f (found, rest))) :
    x'.bind f' = movedResult a (x.bind f) := by
  cases h with
  | ok h => exact hf _ _ _ _ rfl h
  | error e => rfl

theorem movedResult_map (f f' : Content → Content) (hf : ∀ c, (f c).moved a = f' (c.moved a))
    (x : Except ParseError Content) :
    (movedResult a x).map f' = movedResult a (x.map f) := by
  cases x with
  | error => rfl
  | ok content => exact congrArg Except.ok (hf content).symm

theorem movedResult_ite {p : Prop} [Decidable p] {x y x' y' : Except ParseError Content}
    (hx : p → x' = movedResult a x) (hy : ¬p → y' = movedResult a y) :
    (if p then x' else y') = movedResult a (if p then x else y) := by
  split
  · next h => exact hx h
  · next h => exact hy h

theorem Lexeme.Alike.movedResult {l l' : Lexeme} (h : l.Alike a prev l') :
    Except.error l'.unexpected = movedResult a (.error l.unexpected) :=
  congrArg Except.error h.unexpected

/-- Behind a text, a stylesheet is read as it is by itself, with its places moved. -/
theorem stylesheet_alike {lexemes lexemes' : Lexemes} {prev : Token}
    (h : lexemes.Alike a prev lexemes') :
    stylesheet lexemes' = movedResult a (stylesheet lexemes) := by
  induction hsize : lexemes.size using Nat.strongRecOn generalizing lexemes lexemes' prev with
  | ind n ih =>
    rw [stylesheet_eq, stylesheet_eq lexemes]
    cases h with
    | ended | failed => rfl
    | next hfirst hrest =>
      simp only [hfirst.token]
      refine movedResult_ite (fun hat => ?_) fun hat => ?_
      · cases hrest with
        | ended | failed => rfl
        | next hname hrest =>
          cases hrest with
          | ended | failed =>
            simp only [hname.token]
            exact movedResult_ite (fun _ => hname.movedResult) fun _ => rfl
          | next hbrace hrest =>
            simp only [hname.token, hbrace.token]
            refine movedResult_ite (fun _ => hname.movedResult) fun hn =>
              movedResult_ite (fun _ => hbrace.movedResult) fun _ => ?_
            rw [hname.text (by simpa using hn)]
            refine (declarations_alike _ hrest).bind fun found more more' _ hfound hmore => ?_
            have hlt := declarations_size_lt hfound
            simp only [Lexemes.size] at hsize
            rw [ih more.size (by omega) hmore rfl]
            apply movedResult_map
            intro _
            rfl
      · refine (selectors_alike (.next hfirst hrest)).bind
          fun chains rest rest' _ hchains hrest => ?_
        refine (declarations_alike rest hrest).bind fun found more more' _ hfound hmore => ?_
        have hlt := declarations_size_lt hfound
        have hlt' := selectors_size_lt hchains
        simp only
        rw [ih more.size (by omega) hmore rfl]
        apply movedResult_map
        intro _
        rfl

end Alike

/-! ### Scanners -/

namespace Scanner

/-- Two scanners behind a token `prev` that will read the same, at places moved
by `a`. What they hold of the text before may be different. -/
structure Alike (a : List Char) (prev : Token) (s s' : Scanner) : Prop where
  mode : s'.mode = s.mode
  position : s'.position = s.position.moved a
  line : 1 ≤ s.position.line
  blank : prev = .identifier ∨ prev = .star → s'.sawBlank = s.sawBlank
  value : ¬ s.mode.IsOutside → s'.value = s.value
  colon : prev = .colon → s.mode ≠ .block

variable {a : List Char} {prev : Token} {s s' : Scanner}

theorem Alike.begun (h : Alike a prev s s') : Alike a prev s.begun s'.begun :=
  ⟨h.mode, h.position, h.line, h.blank, h.value, h.colon⟩

theorem Alike.pass (h : Alike a prev s s') (c : Char) : Alike a prev (s.pass c) (s'.pass c) where
  mode := h.mode
  position := (congrArg (·.next c) h.position).trans (Position.moved_next a h.line c).symm
  line := Position.one_le_line_next h.line c
  blank := h.blank
  value := h.value
  colon := h.colon

theorem Alike.passText (h : Alike a prev s s') (cs : List Char) :
    Alike a prev (s.passText cs) (s'.passText cs) where
  mode := h.mode
  position := (congrArg (·.after cs) h.position).trans (Position.moved_after a cs h.line).symm
  line := Position.one_le_line_after h.line cs
  blank := h.blank
  value := h.value
  colon := h.colon

/-- What the one skips, the other skips. -/
theorem Alike.skips (h : Alike a prev s s') {cs : List Char} {s₁ : Scanner} (hs : Skips s cs s₁) :
    ∃ s₁', Skips s' cs s₁' ∧ Alike a prev s₁ s₁' := by
  induction hs generalizing s' with
  | nil => exact ⟨s', .nil s', h⟩
  | @blank s _ c _ hm hc _ ih =>
    have hpass := h.pass c
    -- Apart from names and stars the two may remember different blanks.
    have hblank (hp : prev = .identifier ∨ prev = .star) :
        (s'.sawBlank || s'.mode = .selectors) = (s.sawBlank || s.mode = .selectors) := by
      rw [h.blank hp, h.mode]
    have hnext : Alike a prev { s.pass c with sawBlank := s.sawBlank || s.mode = .selectors }
        { s'.pass c with sawBlank := s'.sawBlank || s'.mode = .selectors } :=
      ⟨hpass.mode, hpass.position, hpass.line, hblank, hpass.value, hpass.colon⟩
    obtain ⟨s₁', hskips, hs₁⟩ := ih hnext
    exact ⟨s₁', .blank (h.mode ▸ hm) hc hskips, hs₁⟩
  | comment hm hb _ ih =>
    obtain ⟨s₁', hskips, hs₁⟩ := ih (h.passText _)
    exact ⟨s₁', .comment (h.mode ▸ hm) hb hskips, hs₁⟩
  | semicolon hm _ ih =>
    obtain ⟨s₁', hskips, hs₁⟩ := ih (h.pass ';')
    exact ⟨s₁', .semicolon (h.mode.trans hm) hskips, hs₁⟩
  | @collect s _ c _ m hm _ ih =>
    have hpass := h.pass c
    obtain ⟨hout, hout'⟩ := Mode.not_isOutside_of_through hm
    have hnext : Alike a prev { s.pass c with mode := m, value := s.value.push c }
        { s'.pass c with mode := m, value := s'.value.push c } :=
      ⟨rfl, hpass.position, hpass.line, hpass.blank, fun _ => congrArg (·.push c) (h.value hout),
        fun _ hblock => hout' (.inr hblock)⟩
    obtain ⟨s₁', hskips, hs₁⟩ := ih hnext
    exact ⟨s₁', .collect (h.mode ▸ hm) hskips, hs₁⟩

/-- What two scanners come to alike behind a token `prev`. -/
def StopAlike (a : List Char) (prev : Token) (s s' : Scanner) :
    Except ParseError Token → Except ParseError Token → Prop
  | .error e, result => result = .error (e.moved a)
  | .ok t, result => result = .ok t ∧
      { s with last := t }.lexeme.Alike a prev { s' with last := t }.lexeme ∧ Alike a t s s'

/-- What the token before was matters only behind names and stars, and behind a
colon in a block. -/
theorem Alike.behind (h : Alike a prev s s') {t : Token} (hname : t ≠ .identifier ∧ t ≠ .star)
    (hcolon : t = .colon → s.mode ≠ .block) : Alike a t s s' :=
  ⟨h.mode, h.position, h.line, fun ht => (ht.elim hname.1 hname.2).elim, h.value, hcolon⟩

section Token

variable {t : Token} (h : Alike a t s s') (hstart : s'.tokenStart = s.tokenStart.moved a)
  (hblank : prev = .identifier ∨ prev = .star → s'.sawBlank = s.sawBlank)
include h hstart hblank

/-- At a token that is no name and does not end a value. -/
theorem Alike.mark (hname : t ≠ .identifier) (hend : t ≠ .semicolon ∧ t ≠ .blockClose) :
    StopAlike a prev s s' (.ok t) (.ok t) :=
  ⟨rfl, ⟨rfl, hstart, fun ht => absurd ht hname, hblank,
    fun _ ht => (ht.elim hend.1 hend.2).elim⟩, h⟩

/-- At a token that ends a value, if there is one. -/
theorem Alike.valueEnd (hname : t ≠ .identifier) (hvalue : prev = .colon → s'.value = s.value) :
    StopAlike a prev s s' (.ok t) (.ok t) :=
  ⟨rfl, ⟨rfl, hstart, fun ht => absurd ht hname, hblank, fun hp _ => hvalue hp⟩, h⟩

end Token

/-- The scanner behind a value or a block is outside. -/
theorem Alike.outside (h : Alike a prev s s') {t : Token} {m : Mode} (hm : m.IsOutside)
    (ht : t ≠ .identifier ∧ t ≠ .star ∧ t ≠ .colon) :
    Alike a t { s with mode := m } { s' with mode := m } :=
  ⟨rfl, h.position, h.line, fun h => (h.elim ht.1 ht.2.1).elim, fun hout => absurd hm hout,
    fun h => absurd h ht.2.2⟩

theorem Alike.punctuation (h : Alike a prev s s') (hstart : s'.tokenStart = s.tokenStart.moved a)
    (c : Char) :
    StopAlike a prev (s.punctuation c).2 (s'.punctuation c).2 (s.punctuation c).1
      (s'.punctuation c).1 := by
  have hmark {t : Token} (hname : t ≠ .identifier ∧ t ≠ .star)
      (hend : t ≠ .semicolon ∧ t ≠ .blockClose) (hcolon : t = .colon → s.mode ≠ .block) :
      StopAlike a prev s s' (.ok t) (.ok t) :=
    (h.behind hname hcolon).mark hstart h.blank hname.1 hend
  unfold Scanner.punctuation
  rw [h.mode]
  split
  · have hvalue : Alike a .colon { s with mode := .value, value := "" }
        { s' with mode := .value, value := "" } :=
      ⟨rfl, h.position, h.line, by simp, fun _ => rfl, by simp⟩
    exact hvalue.mark hstart h.blank (by decide) (by decide)
  · next hblock =>
    exact (h.outside (.inl rfl) (by decide)).valueEnd hstart h.blank (by decide)
      fun hp => absurd hblock (h.colon hp)
  · have hstar : Alike a .star { s with sawBlank := false }
        { s' with mode := s.mode, sawBlank := false } :=
      ⟨rfl, h.position, h.line, fun _ => rfl, h.value, by simp⟩
    exact hstar.mark hstart (fun _ => rfl) (by decide) (by decide)
  · exact hmark (by decide) (by decide) (by simp)
  · exact hmark (by decide) (by decide) (by simp)
  · exact hmark (by decide) (by decide) (by simp)
  · exact hmark (by decide) (by decide) (by simp)
  · next hout => exact hmark (by decide) (by decide) fun _ => by simp [hout]
  · exact hmark (by decide) (by decide) (by simp)
  · exact (h.outside (.inr rfl) (by decide)).mark hstart h.blank (by decide) (by decide)
  · show Except.error (s'.lexical _) = _
    rw [lexical, hstart]
    rfl

/-- Where the one stops, the other stops, at the same. -/
theorem Alike.stops (h : Alike a prev s s') {cs rest : List Char} {s₁ : Scanner}
    {result : Except ParseError Token} (hs : Stops s cs result s₁ rest) :
    ∃ result' s₁', Stops s' cs result' s₁' rest ∧ StopAlike a prev s₁ s₁' result result' := by
  have hpos := h.position
  cases hs with
  | ended hm =>
    have hended : Alike a .endOfInput s.begun s'.begun := h.begun.behind (by decide) (by simp)
    exact ⟨_, _, .ended (h.mode ▸ hm), hended.mark hpos h.blank (by decide) (by decide)⟩
  | openString hm => exact ⟨_, _, .openString (h.mode ▸ hm), by rw [hpos]; rfl⟩
  | openComment hm hc => exact ⟨_, _, .openComment (h.mode ▸ hm) hc, by rw [hpos]; rfl⟩
  | semicolon hm =>
    have hvalue := h.value (by simp [hm, Mode.IsOutside])
    have hblock : Alike a .semicolon _ _ := (h.begun.pass ';').outside (.inr rfl) (by decide)
    exact ⟨_, _, .semicolon (h.mode.trans hm),
      hblock.valueEnd hpos h.blank (by decide) fun _ => hvalue⟩
  | blockClose hm =>
    have hvalue := h.value (by simp [hm, Mode.IsOutside])
    have hselectors : Alike a .blockClose _ _ :=
      (h.begun.pass '}').outside (.inl rfl) (by decide)
    exact ⟨_, _, .blockClose (h.mode.trans hm),
      hselectors.valueEnd hpos h.blank (by decide) fun _ => hvalue⟩
  | @name c name _ hm hc hn he =>
    have hpass := h.begun.passText (c :: name)
    exact ⟨_, _, .name (h.mode ▸ hm) hc hn he, rfl,
      ⟨rfl, hpos, fun _ => rfl, fun _ => rfl, fun _ => by simp [lexeme]⟩,
      h.mode, hpass.position, hpass.line, fun _ => rfl, h.value, by simp⟩
  | @mark c _ hm hname hspace hslash hsemi =>
    exact ⟨_, _, .mark (h.mode ▸ hm) hname hspace hslash (h.mode ▸ hsemi),
      (h.begun.pass c).punctuation hpos c⟩

/-- The lexemes of a text are the same on both sides. -/
theorem Alike.lexemesOf {prev : Token} {s s' : Scanner} (h : Alike a prev s s') (cs : List Char) :
    (s.lexemesOf cs).Alike a prev (s'.lexemesOf cs) := by
  obtain ⟨skipped, front, s₁, result, s₂, rest, hcs, hskips, hstops⟩ := exists_stops s cs
  have hle : front.length ≤ cs.length := by simp [hcs]
  obtain ⟨s₁', hskips', h₁⟩ := h.skips hskips
  obtain ⟨result', s₂', hstops', h₂⟩ := h₁.stops hstops
  rw [hcs, lexemesOf_eq hskips hstops, lexemesOf_eq hskips' hstops']
  cases result with
  | error e =>
    obtain rfl : result' = .error (e.moved a) := h₂
    exact .failed prev e
  | ok t =>
    obtain ⟨rfl, hlexeme, halike⟩ := h₂
    unfold lexemesAfter
    simp only
    split
    · have hstart : s₂'.tokenStart = s₂.tokenStart.moved a := hlexeme.start
      rw [hstart]
      exact .ended prev _
    · next ht =>
      have hlt := hstops.length_lt rfl ht
      have hnext : Alike a t { s₂ with last := t } { s₂' with last := t } :=
        ⟨halike.mode, halike.position, halike.line, halike.blank, halike.value, halike.colon⟩
      exact .next hlexeme (hnext.lexemesOf rest)
termination_by cs.length

end Scanner

end Sheet

end RichText
