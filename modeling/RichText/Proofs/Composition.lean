/-
# One stylesheet behind another

What is read of two texts, one behind the other, is what is read of each. A
stylesheet ends in the brace of a block, or is empty; so its last lexeme does
not go on in the text behind it, and the scanner is among selectors again
(`Scanner.exists_behind`). What is behind is then read as by itself, at places
moved by the text before (`parseString_append`).

Key theorems: `Scanner.exists_behind`, `parseString_append`, `composition`.
-/
import RichText.Proofs.ChunkedReading
import RichText.Proofs.Displacement

namespace RichText.Sheet

open Text

namespace Scanner

/-! ### Texts that go on -/

variable {s s' : Scanner} {cs rest : List Char} {result : Except ParseError Token} {t : Token}

/-- A token stays the same when the text goes on, unless it is a name that goes on. -/
theorem Stops.append (h : Stops s cs result s' rest) (hr : result = .ok t)
    (hend : t ≠ .endOfInput) {more : List Char}
    (hname : t = .identifier → rest = [] → NameEnds more) :
    Stops s (cs ++ more) result s' (rest ++ more) := by
  cases h with
  | ended => exact absurd (Except.ok.inj hr).symm hend
  | openString => nomatch hr
  | openComment => nomatch hr
  | semicolon hm => exact .semicolon hm
  | blockClose hm => exact .blockClose hm
  | name hm hc hn he =>
    rw [List.append_assoc]
    refine .name hm hc hn ?_
    cases rest with
    | nil => exact hname (Except.ok.inj hr).symm rfl
    | cons d rest => exact he
  | @mark c _ hm hstart hspace hslash hsemi =>
    refine .mark hm hstart hspace (fun hc => ?_) hsemi
    subst hc
    unfold punctuation at hr
    rcases hm with hm | hm <;> simp [begun, pass, hm] at hr

/-- At its end a text has no more lexemes. -/
theorem lexemesOf_nil_ne (s : Scanner) (l : Lexeme) (rest : Lexemes) :
    s.lexemesOf [] ≠ .next l rest := by
  cases hm : s.mode.quote? with
  | none => simp [lexemesOf_stops (.ended hm), lexemesAfter]
  | some q => simp [lexemesOf_stops (.openString hm), lexemesAfter]

/-- The end of the input is met at the end only. -/
theorem Stops.eq_nil (h : Stops s cs result s' rest) (hr : result = .ok .endOfInput) : cs = [] := by
  cases h with
  | ended | openString => rfl
  | openComment => nomatch hr
  | semicolon | blockClose | name => simp at hr
  | mark =>
    revert hr
    unfold punctuation
    split <;> simp

/-- Where lexemes that end in a closing brace are all of a text, there is a scanner
among selectors behind it, which reads on whatever follows. -/
theorem exists_behind (s : Scanner) (cs : List Char) {read : List Lexeme} {position : Position}
    (h : s.lexemesOf cs = (Lexemes.ended position).behind read)
    (hm : read = [] → s.mode = .selectors)
    (hclose : ∀ l ∈ read.getLast?, l.token = .blockClose) :
    ∃ s₁ : Scanner, s₁.mode = .selectors ∧ s₁.position = s.position.after cs ∧
      ∀ more, s.lexemesOf (cs ++ more) = (s₁.lexemesOf more).behind read := by
  obtain ⟨skipped, front, s₁, result, s₂, rest, hcs, hskips, hstops⟩ := exists_stops s cs
  have hle : front.length ≤ cs.length := by simp [hcs]
  have hlexemes := lexemesOf_eq hskips hstops
  rw [← hcs, h] at hlexemes
  cases read with
  | nil =>
    obtain rfl := of_lexemesAfter_ended hlexemes.symm
    obtain rfl : front = [] := hstops.eq_nil rfl
    obtain rfl : skipped = cs := by simpa using hcs.symm
    -- All of the text is skipped, so it is also skipped before what follows.
    exact ⟨s₁, hskips.mode_selectors (hm rfl), hskips.position, lexemesOf_skips hskips⟩
  | cons l read =>
    obtain ⟨t, rfl, ht, rfl, hrest⟩ := of_lexemesAfter_next hlexemes.symm
    have hlt := hstops.length_lt rfl ht
    have hblock : read = [] → t = .blockClose := by
      rintro rfl
      exact hclose _ rfl
    -- A name could go on in what follows, but only the last lexeme ends where the text
    -- does, and that is a brace.
    have hname : t = .identifier → rest ≠ [] := by
      rintro rfl rfl
      cases read with
      | nil => simp at hblock
      | cons l read => exact lexemesOf_nil_ne _ _ _ hrest
    obtain ⟨s₃, hselectors, hposition, hbehind⟩ := exists_behind { s₂ with last := t } rest hrest
      (fun hnil => hstops.mode_selectors (congrArg _ (hblock hnil)))
      (fun l hl => hclose l (by simp [List.getLast?_cons, Option.mem_def.1 hl]))
    obtain ⟨taken, rfl, htaken⟩ := hstops.position
    refine ⟨s₃, hselectors, ?_, fun more => ?_⟩
    · have hplace : s₃.position = (s₁.position.after taken).after rest := by
        rw [← htaken]
        exact hposition
      rw [hplace, hskips.position, hcs, Position.after_append, Position.after_append]
    · rw [hcs, List.append_assoc, lexemesOf_eq hskips
        (hstops.append rfl ht fun h hnil => absurd hnil (hname h)), lexemesAfter, if_neg ht, hbehind, Lexemes.behind_cons]
termination_by cs.length

/-- The scanner at the beginning of a text. -/
def fresh : Scanner := ofString ""

/-- Behind a stylesheet a scanner reads on as a fresh one does, at places moved. -/
theorem alike_fresh {a : List Char} (hm : s.mode = .selectors)
    (hp : s.position = Position.start.after a) : Alike a .endOfInput fresh s where
  mode := hm
  position := hp.trans (Position.moved_start a).symm
  line := Nat.le.refl
  blank := by simp
  value := fun h => absurd (.inl rfl) h
  colon := nofun

end Scanner

/-! ### Stylesheets -/

theorem eq_ok_of_toOption {x : Except ParseError Content} {content : Content}
    (h : x.toOption = some content) : x = .ok content := by
  cases x with
  | ok c => exact congrArg Except.ok (Option.some.inj h)
  | error e => nomatch h

theorem parseString_eq (s : String) :
    parseString s = stylesheet (Scanner.fresh.lexemesOf s.toList) := by
  unfold parseString parse
  rw [ofSource_of_text rfl (ByteSource.bytes_ofString s)]
  rfl

theorem parseString_append {a b : String} {content : Content} (ha : parseString a = .ok content) :
    parseString (a ++ b) = (movedResult a.toList (parseString b)).map content.join := by
  rw [parseString_eq] at ha
  obtain ⟨read, position, hread, hcontent⟩ := stylesheet_sound ha
  have hclose : ∀ l ∈ read.getLast?, l.token = .blockClose := by
    rintro l hl
    rcases hcontent.exists_close with rfl | ⟨front, brace, rfl, hbrace⟩
    · simp at hl
    · obtain rfl : brace = l := by simpa using hl
      exact hbrace
  obtain ⟨s, hm, hp, hbehind⟩ := Scanner.exists_behind _ _ hread (fun _ => rfl) hclose
  rw [parseString_eq, String.toList_append, hbehind, stylesheet_behind hcontent,
    stylesheet_alike ((Scanner.alike_fresh hm hp).lexemesOf b.toList), parseString_eq]

/-- A text behind a stylesheet is read as it is by itself: its rules and at-rules
follow those of the text before, its lines are moved by the newlines there, and
so is the place of the error, if it is no stylesheet. -/
theorem composition {a b : String} {content : Content} (ha : parseString a = .ok content) :
    ((∃ c, parseString (a ++ b) = .ok c) ↔ ∃ c, parseString b = .ok c) ∧
      (∀ c, parseString b = .ok c → parseString (a ++ b) = .ok (content.join (c.moved a.toList))) ∧
      ∀ e, parseString b = .error e → parseString (a ++ b) = .error (e.moved a.toList) := by
  rw [parseString_append ha]
  cases parseString b with
  | ok c =>
    refine ⟨⟨fun _ => ⟨c, rfl⟩, fun _ => ⟨_, rfl⟩⟩, ?_, nofun⟩
    rintro _ ⟨⟩
    rfl
  | error e =>
    refine ⟨⟨nofun, nofun⟩, nofun, ?_⟩
    rintro _ ⟨⟩
    rfl

theorem composition_lines :
    parseString ("p,\nq \x7b\x7d\n" ++ "p > b \x7bcolor: red\x7d") =
      .ok ⟨[⟨[[{ element := some "p" }], [{ element := some "q" }]], []⟩,
        ⟨[[{ element := some "b" }, { element := some "p", directChild := true }]],
          [⟨"color", "red", 3⟩]⟩], []⟩ := by
  have ha : parseString "p,\nq \x7b\x7d\n" =
      .ok ⟨[⟨[[{ element := some "p" }], [{ element := some "q" }]], []⟩], []⟩ :=
    eq_ok_of_toOption (by decide +kernel)
  have hb : parseString "p > b \x7bcolor: red\x7d" =
      .ok ⟨[⟨[[{ element := some "b" }, { element := some "p", directChild := true }]],
        [⟨"color", "red", 1⟩]⟩], []⟩ :=
    eq_ok_of_toOption (by decide +kernel)
  exact (composition ha).2.1 _ hb

end RichText.Sheet
