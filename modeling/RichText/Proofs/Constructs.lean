/-
# What a construct is written as

What stands in the text where a tokenizer reads something decides what it answers
(`Construct.Gives`): a run of text goes up to the next bracket, a comment up to the first mark
that ends one, a declaration up to the first bracket outside of square ones, a tag from its
name to its bracket. Where the text ends before that the answer is an error and nothing is
left; an error in a tag leaves what stands behind the place where reading stopped.

All readings are of this form (`Construct.gives_read`). For the constructs with a mark it is
a fact about cuts at the first mark (`cutAt?_eq_some`, `cutAt?_eq_none`), for declarations one
about the depth in square brackets; both are by induction on the text.

Key definitions: `EndedBy`, `Enclosed`, `Construct.opening`, `Construct.Gives`, `Passed`.
Key theorems: `Cursor.takeUntil_eq`, `readStartTag_eq`, `readEndTag_eq`, `Construct.gives_read`.
-/
import RichText.Proofs.Rendering
import RichText.Proofs.WrittenTags

namespace RichText.Markup

open Text

/-! ### Marks -/

/-- A mark behind the text is the first one. -/
def EndedBy (mark body : List Char) : Prop := ¬mark <:+: (body ++ mark).dropLast

theorem hasLead_iff {lead s : List Char} : hasLead lead s = true ↔ lead <+: s := by
  simp only [hasLead, Option.isSome_iff_exists, afterLead?_eq_some_iff,
    List.prefix_iff_exists_eq_append]

theorem not_prefix_of_afterLead? {lead s : List Char} (h : afterLead? lead s = none) :
    ¬lead <+: s := by
  rw [← hasLead_iff, hasLead, h]
  exact Bool.false_ne_true

/-- A cut is made at the first mark. -/
theorem cutAt?_eq_some {mark rest : List Char} (hmark : mark ≠ []) : ∀ {s body : List Char},
    cutAt? mark s = some (body, rest) → s = body ++ (mark ++ rest) ∧ EndedBy mark body
  | [], body, h => by simp [cutAt?, hmark] at h
  | c :: s, body, h => by
    rw [cutAt?] at h
    split at h
    · next after hafter =>
      obtain ⟨rfl, rfl⟩ : [] = body ∧ after = rest := by simpa using h
      have hs : c :: s = mark ++ after := afterLead?_eq_some_iff.1 hafter
      refine ⟨hs, fun hinfix => ?_⟩
      have hlength := hinfix.length_le
      rw [List.nil_append, List.length_dropLast] at hlength
      have hpos := List.length_pos_iff.2 hmark
      omega
    · next hnone =>
      obtain ⟨⟨before, after⟩, hcut, heq⟩ := Option.map_eq_some_iff.1 h
      obtain ⟨rfl, rfl⟩ : c :: before = body ∧ after = rest := by simpa using heq
      obtain ⟨rfl, hended⟩ := cutAt?_eq_some hmark hcut
      refine ⟨rfl, fun hinfix => ?_⟩
      have hne : before ++ mark ≠ [] := by simp [hmark]
      rw [List.cons_append, List.dropLast_cons_of_ne_nil hne] at hinfix
      rcases List.infix_cons_iff.1 hinfix with hlead | hlater
      · refine not_prefix_of_afterLead? hnone (hlead.trans ?_)
        have hfront : before ++ mark <+: before ++ (mark ++ after) := ⟨after, by simp⟩
        exact List.cons_prefix_cons.2 ⟨rfl, (List.dropLast_prefix _).trans hfront⟩
      · exact hended hlater

theorem cutAt?_eq_none {mark : List Char} (hmark : mark ≠ []) : ∀ {s : List Char},
    cutAt? mark s = none → ¬mark <:+: s
  | [], _ => by simpa using hmark
  | c :: s, h => by
    rw [cutAt?] at h
    split at h
    · cases h
    · next hnone =>
      intro hinfix
      rcases List.infix_cons_iff.1 hinfix with hlead | hlater
      · exact not_prefix_of_afterLead? hnone hlead
      · exact cutAt?_eq_none hmark (Option.map_eq_none_iff.1 h) hlater

/-- What is read up to a mark, which is found or not. -/
theorem Cursor.takeUntil_eq {c c' : Cursor} {mark : List Char} {what : Unfinished}
    {answer : Except ParseError (List Char)} (hmark : mark ≠ [])
    (h : c.takeUntil mark what = (answer, c')) :
    (∃ body, answer = .ok body ∧ c.rest = body ++ (mark ++ c'.rest) ∧ EndedBy mark body) ∨
      (answer = .error (.unfinished what) ∧ c'.rest = [] ∧ ¬mark <:+: c.rest) := by
  unfold takeUntil at h
  split at h
  · next body rest hcut =>
    obtain ⟨rfl, rfl⟩ := Prod.mk.inj h
    obtain ⟨hrest, hended⟩ := cutAt?_eq_some hmark hcut
    exact .inl ⟨body, rfl, hrest, hended⟩
  · next hcut =>
    obtain ⟨rfl, rfl⟩ := Prod.mk.inj h
    exact .inr ⟨rfl, rfl, cutAt?_eq_none hmark hcut⟩

/-! ### Declarations -/

/-- The depth in square brackets behind a character. -/
def deeper (depth : Nat) (c : Char) : Nat :=
  if c = '[' then depth + 1 else if c = ']' then depth - 1 else depth

/-- In a text that begins at a depth, no bracket that would end a declaration stands outside
of square ones. -/
def Enclosed (depth : Nat) (body : List Char) : Prop :=
  ∀ front back, body = front ++ '>' :: back → front.foldl deeper depth ≠ 0

theorem Enclosed.cons {depth : Nat} {c : Char} {body : List Char} (hc : c = '>' → depth ≠ 0)
    (h : Enclosed (deeper depth c) body) : Enclosed depth (c :: body) := by
  intro front back hsplit
  cases front with
  | nil =>
    obtain ⟨rfl, -⟩ := List.cons.inj hsplit
    exact hc rfl
  | cons x front =>
    obtain ⟨rfl, rfl⟩ := List.cons.inj hsplit
    exact h front back rfl

/-- A declaration goes up to the first bracket outside of square ones. -/
theorem skipDeclaration_eq {depth : Nat} {p : Position} {s : List Char}
    {answer : Except ParseError Unit} {c' : Cursor}
    (h : skipDeclaration depth p s = (answer, c')) :
    (∃ body, answer = .ok () ∧ s = body ++ '>' :: c'.rest ∧ body.foldl deeper depth = 0 ∧
      Enclosed depth body) ∨
      (answer = .error (.unfinished .declaration) ∧ c'.rest = [] ∧ Enclosed depth s) := by
  -- One character goes before what is read behind it.
  have before {depth : Nat} {c : Char} {s : List Char} {answer : Except ParseError Unit}
      {c' : Cursor} (hc : c = '>' → depth ≠ 0)
      (h : (∃ body, answer = .ok () ∧ s = body ++ '>' :: c'.rest ∧
          body.foldl deeper (deeper depth c) = 0 ∧ Enclosed (deeper depth c) body) ∨
        (answer = .error (.unfinished .declaration) ∧ c'.rest = [] ∧
          Enclosed (deeper depth c) s)) :
      (∃ body, answer = .ok () ∧ c :: s = body ++ '>' :: c'.rest ∧ body.foldl deeper depth = 0 ∧
        Enclosed depth body) ∨
        (answer = .error (.unfinished .declaration) ∧ c'.rest = [] ∧ Enclosed depth (c :: s)) := by
    rcases h with ⟨body, hok, rfl, hdepth, hbody⟩ | ⟨herror, hrest, hs⟩
    · exact .inl ⟨c :: body, hok, rfl, hdepth, hbody.cons hc⟩
    · exact .inr ⟨herror, hrest, hs.cons hc⟩
  fun_induction skipDeclaration depth p s with
  | case1 =>
    obtain ⟨rfl, rfl⟩ := Prod.mk.inj h
    exact .inr ⟨rfl, rfl, fun front back hsplit => by simp at hsplit⟩
  | case2 depth _ s ih =>
    refine before (fun hc => absurd hc (by decide)) ?_
    simpa [deeper] using ih h
  | case3 depth _ s _ ih =>
    refine before (fun hc => absurd hc (by decide)) ?_
    simpa [deeper] using ih h
  | case4 depth _ c s _ _ hclose =>
    obtain ⟨rfl, rfl⟩ := hclose
    obtain ⟨rfl, rfl⟩ := Prod.mk.inj h
    exact .inl ⟨[], rfl, rfl, rfl, fun front back hsplit => by simp at hsplit⟩
  | case5 depth _ c s hopen hshut hclose ih =>
    refine before (fun hc hzero => hclose ⟨hc, hzero⟩) ?_
    have hsame : deeper depth c = depth := by rw [deeper, if_neg hopen, if_neg hshut]
    rw [hsame]
    exact ih h

/-! ### Tags -/

/-- An error because the text ends leaves nothing of it. -/
def EndsWhole {α : Type} (r : Reading α) : Prop :=
  ∀ what, r.1 = .error (.unfinished what) → r.2.rest = []

namespace Cursor

theorem endsWhole_fail {α : Type} (c : Cursor) (fault : Fault) :
    EndsWhole (c.fail fault : Reading α) := by
  intro what h
  simp [fail] at h

theorem endsWhole_failAtEnd {α : Type} (c : Cursor) (what : Unfinished) :
    EndsWhole (c.failAtEnd what : Reading α) :=
  fun _ _ => rfl

theorem endsWhole_readName (c : Cursor) : EndsWhole c.readName := by
  unfold readName
  split
  · exact c.endsWhole_failAtEnd _
  · split
    · intro what h
      simp at h
    · exact c.endsWhole_fail _

theorem endsWhole_readValue (c : Cursor) : EndsWhole c.readValue := by
  unfold readValue
  split
  · exact c.endsWhole_failAtEnd _
  · next first rest hc =>
    split
    · split
      · intro what h
        simp at h
      · next e c' hread =>
        intro what h
        rcases takeUntil_eq (List.cons_ne_nil first []) hread with ⟨_, hok, -⟩ | ⟨-, hrest, -⟩
        · cases hok
        · exact hrest
    · simp only
      split
      · exact c.endsWhole_fail _
      · intro what h
        simp at h

theorem endsWhole_readAssignment (c : Cursor) : EndsWhole c.readAssignment := by
  unfold readAssignment
  simp only
  split
  · exact endsWhole_readValue _
  · intro what h
    simp at h

theorem endsWhole_readAttributes (name : String) (found : Attributes) (c : Cursor) :
    EndsWhole (c.readAttributes name found) := by
  fun_induction readAttributes name found c with
  | case1 => exact endsWhole_failAtEnd _ _
  | case2 => exact fun what h => by simp at h
  | case3 => exact fun what h => by simp at h
  | case4 => exact endsWhole_fail _ _
  | case5 found c first rest position _ _ _ hs _ e c' hn =>
    have hname := (⟨first :: rest, position⟩ : Cursor).endsWhole_readName
    rw [hn] at hname
    exact fun what h => hname what (by simpa using h)
  | case6 found c first rest position _ _ _ hs _ key c₁ hn e c₂ ha =>
    have hvalue := c₁.endsWhole_readAssignment
    rw [ha] at hvalue
    exact fun what h => hvalue what (by simpa using h)
  | case7 => exact endsWhole_fail _ _
  | case8 _ _ _ _ _ _ _ _ _ _ _ _ _ _ _ _ _ _ ih => exact ih
  | case9 => exact endsWhole_fail _ _

/-- Attributes are read up to the end of the tag. -/
theorem readAttributes_eq {name : String} {found attributes : Attributes} {c c' : Cursor}
    {selfClosing : Bool} (h : c.readAttributes name found = (.ok (attributes, selfClosing), c')) :
    ∃ inside, c.rest = inside ++ (tagEnd selfClosing ++ c'.rest) := by
  have blanks {c : Cursor} {s : List Char} {p : Position} (hs : c.skipBlanks = ⟨s, p⟩) :
      c.rest = c.rest.takeWhile isBlank ++ s := by
    have hrest : c.rest.dropWhile isBlank = s := congrArg Cursor.rest hs
    rw [← hrest, List.takeWhile_append_dropWhile]
  fun_induction readAttributes name found c with
  | case1 | case4 | case5 | case6 | case7 | case9 => simp [failAtEnd, fail] at h
  | case2 found c rest position hs =>
    simp only [Prod.mk.injEq, Except.ok.injEq] at h
    obtain ⟨⟨-, rfl⟩, rfl⟩ := h
    exact ⟨_, blanks hs⟩
  | case3 found c rest position hs =>
    simp only [Prod.mk.injEq, Except.ok.injEq] at h
    obtain ⟨⟨-, rfl⟩, rfl⟩ := h
    exact ⟨_, blanks hs⟩
  | case8 found c first rest position _ _ _ hs _ key c₁ hn value c₂ ha _ _ ih =>
    obtain ⟨inside, hinside⟩ := ih h
    have hreach := (⟨first :: rest, position⟩ : Cursor).reaches_readName.trans
      (by rw [hn]; exact c₁.reaches_readAssignment)
    rw [ha] at hreach
    obtain ⟨passed, hpassed, -⟩ := hreach
    refine ⟨c.rest.takeWhile isBlank ++ (passed ++ inside), ?_⟩
    rw [List.append_assoc, List.append_assoc, ← hinside, ← hpassed]
    exact blanks hs

end Cursor

open Cursor in
/-- What a start tag is written as behind its first bracket. -/
theorem readStartTag_eq {c c' : Cursor} {answer : Except ParseError Token}
    (h : readStartTag c = (answer, c')) :
    (∃ name inside attributes selfClosing,
      answer = .ok (.startTag (lowerCase (String.ofList name)) attributes selfClosing) ∧
        c.rest = name ++ (inside ++ (tagEnd selfClosing ++ c'.rest)) ∧
        IsName name (inside ++ (tagEnd selfClosing ++ c'.rest))) ∨
      ∃ e, answer = .error e ∧ ∀ what, e = .unfinished what → c'.rest = [] := by
  unfold readStartTag at h
  split at h
  · next e c₁ hname =>
    obtain ⟨rfl, rfl⟩ := Prod.mk.inj h
    have hends := c.endsWhole_readName
    rw [hname] at hends
    exact .inr ⟨e, rfl, fun what he => hends what (congrArg Except.error he)⟩
  · next name c₁ hname =>
    obtain ⟨written, hwritten, -, hisName, rfl⟩ := readName_ok hname
    split at h
    · next e c₂ hattributes =>
      obtain ⟨rfl, rfl⟩ := Prod.mk.inj h
      have hends := c₁.endsWhole_readAttributes (lowerCase (String.ofList written)) []
      rw [hattributes] at hends
      exact .inr ⟨e, rfl, fun what he => hends what (congrArg Except.error he)⟩
    · next attributes selfClosing c₂ hattributes =>
      obtain ⟨rfl, rfl⟩ := Prod.mk.inj h
      obtain ⟨inside, hinside⟩ := readAttributes_eq hattributes
      rw [hinside] at hwritten hisName
      exact .inl ⟨written, inside, attributes, selfClosing, rfl, hwritten, hisName⟩

open Cursor in
/-- What an end tag is written as behind its bracket and slash. -/
theorem readEndTag_eq {c c' : Cursor} {answer : Except ParseError Token}
    (h : readEndTag c = (answer, c')) :
    (∃ name blanks, answer = .ok (.endTag (lowerCase (String.ofList name))) ∧
      c.rest = name ++ (blanks ++ '>' :: c'.rest) ∧ (∀ x ∈ blanks, isBlank x = true) ∧
        IsName name (blanks ++ '>' :: c'.rest)) ∨
      ∃ e, answer = .error e ∧ ∀ what, e = .unfinished what → c'.rest = [] := by
  unfold readEndTag at h
  split at h
  · next e c₁ hname =>
    obtain ⟨rfl, rfl⟩ := Prod.mk.inj h
    have hends := c.endsWhole_readName
    rw [hname] at hends
    exact .inr ⟨e, rfl, fun what he => hends what (congrArg Except.error he)⟩
  · next name c₁ hname =>
    obtain ⟨written, hwritten, -, hisName, rfl⟩ := readName_ok hname
    have hblanks : c₁.rest = c₁.rest.takeWhile isBlank ++ c₁.skipBlanks.rest :=
      List.takeWhile_append_dropWhile.symm
    simp only at h
    split at h
    · obtain ⟨rfl, rfl⟩ := Prod.mk.inj h
      exact .inr ⟨_, rfl, fun _ _ => rfl⟩
    · next rest hrest =>
      obtain ⟨rfl, rfl⟩ := Prod.mk.inj h
      rw [hrest] at hblanks
      rw [hblanks] at hwritten hisName
      have hall : ∀ x ∈ c₁.rest.takeWhile isBlank, isBlank x = true :=
        List.all_eq_true.1 List.all_takeWhile
      exact .inl ⟨written, _, rfl, hwritten, hall, hisName⟩
    · obtain ⟨rfl, rfl⟩ := Prod.mk.inj h
      exact .inr ⟨_, rfl, fun what he => by cases he⟩

/-! ### Constructs -/

namespace Construct

/-- What a construct begins with. -/
def opening : Construct → List Char
  | text => []
  | comment => "<!--".toList
  | cdata => "<![CDATA[".toList
  | declaration => "<!".toList
  | instruction => "<".toList
  | endTag => "</".toList
  | startTag => "<".toList

/-- The mark that ends a construct, and what is missing without it. -/
def mark? : Construct → Option (List Char × Unfinished)
  | comment => some ("-->".toList, .comment)
  | cdata => some ("]]>".toList, .cdata)
  | instruction => some ("?>".toList, .instruction)
  | _ => none

/-- The token of what stands before the mark. -/
def token? : Construct → List Char → Option Token
  | comment, body => some (.comment (String.ofList body))
  | cdata, body => some (.text (String.ofList body))
  | _, _ => none

/-- In front of `rest`, what is written answers a call. There is no token for a declaration
or an instruction. -/
inductive Gives : Construct → (written rest : List Char) → Except ParseError (Option Token) → Prop
  | text {run rest : List Char} (hne : run ≠ []) (hrun : '<' ∉ run)
    (hrest : ∀ x ∈ rest.head?, x = '<') :
    Gives text run rest (.ok (some (.text (String.ofList (Entity.decode run)))))
  | marked {k : Construct} {mark body rest : List Char} {what : Unfinished}
    (hk : k.mark? = some (mark, what)) (hbody : EndedBy mark body) :
    Gives k (k.opening ++ (body ++ mark)) rest (.ok (k.token? body))
  | unmarked {k : Construct} {mark body : List Char} {what : Unfinished}
    (hk : k.mark? = some (mark, what)) (hbody : ¬mark <:+: body) :
    Gives k (k.opening ++ body) [] (.error (.unfinished what))
  | declared {body rest : List Char} (hdepth : body.foldl deeper 0 = 0) (hbody : Enclosed 0 body) :
    Gives declaration (declaration.opening ++ (body ++ ['>'])) rest (.ok none)
  | undeclared {body : List Char} (hbody : Enclosed 0 body) :
    Gives declaration (declaration.opening ++ body) [] (.error (.unfinished .declaration))
  | endTag {name blanks rest : List Char} (hname : Cursor.IsName name (blanks ++ '>' :: rest))
    (hblanks : ∀ x ∈ blanks, isBlank x = true) :
    Gives endTag (endTag.opening ++ (name ++ (blanks ++ ['>']))) rest
      (.ok (some (.endTag (lowerCase (String.ofList name)))))
  | startTag {name inside rest : List Char} {attributes : Attributes} {selfClosing : Bool}
    (hname : Cursor.IsName name (inside ++ (tagEnd selfClosing ++ rest))) :
    Gives startTag (startTag.opening ++ (name ++ (inside ++ tagEnd selfClosing))) rest
      (.ok (some (.startTag (lowerCase (String.ofList name)) attributes selfClosing)))
  | broken {k : Construct} (hk : k = endTag ∨ k = startTag) {front rest : List Char}
    {e : ParseError} (he : ∀ what, e = .unfinished what → rest = []) :
    Gives k (k.opening ++ front) rest (.error e)

end Construct

/-- What stands before the next token gives none. -/
inductive Passed : (silent rest : List Char) → Prop
  | nil (rest : List Char) : Passed [] rest
  | cons {written silent rest : List Char}
    (h : (constructAt (written ++ (silent ++ rest))).Gives written (silent ++ rest) (.ok none))
    (more : Passed silent rest) : Passed (written ++ silent) rest

/-- The first characters decide what a construct begins with. -/
theorem opening_prefix (s : List Char) : (constructAt s).opening <+: s := by
  unfold constructAt
  split
  · exact List.nil_prefix
  · next hbracket =>
    have hfirst : "<".toList <+: s := by simpa [hasLead_iff] using hbracket
    split
    · next h => exact hasLead_iff.1 h
    · split
      · next h => exact hasLead_iff.1 h
      · split
        · next h => exact hasLead_iff.1 h
        · split
          · exact hfirst
          · split
            · next h => exact hasLead_iff.1 h
            · exact hfirst

theorem not_bracket_of_text {s : List Char} (h : constructAt s = .text) :
    ∀ x ∈ s.head?, x ≠ '<' := by
  rintro x hx rfl
  obtain ⟨rest, rfl⟩ := List.head?_eq_some_iff.1 hx
  exact constructAt_ne_text rest h

namespace Construct

theorem length_opening (k : Construct) : k.opening.length = k.lead := by
  cases k <;> rfl

theorem opening_ne_nil {k : Construct} (hk : k ≠ text) : k.opening ≠ [] := by
  cases k <;> first | exact absurd rfl hk | decide

/-- Behind what it begins with the rest of a construct is read. -/
theorem opening_append_skip (c : Cursor) :
    c.rest = (constructAt c.rest).opening ++ (c.skip (constructAt c.rest).lead).rest := by
  obtain ⟨rest, hrest⟩ := opening_prefix c.rest
  have hdrop : (c.skip (constructAt c.rest).lead).rest = rest := by
    calc c.rest.drop (constructAt c.rest).lead
      _ = ((constructAt c.rest).opening ++ rest).drop (constructAt c.rest).opening.length := by
        rw [hrest, length_opening]
      _ = rest := List.drop_left
  rw [hdrop, hrest]

variable {k : Construct} {c c' : Cursor} {answer : Except ParseError (Option Token)}

/-- A construct with a mark goes up to the mark, or to the end of the text. -/
theorem gives_marked {mark : List Char} {what : Unfinished} (hk : k.mark? = some (mark, what))
    {found : Except ParseError (List Char)} (hread : c.takeUntil mark what = (found, c')) :
    ∃ written, k.opening ++ c.rest = written ++ c'.rest ∧
      k.Gives written c'.rest (found.map k.token?) := by
  have hmark : mark ≠ [] := by
    rintro rfl
    cases k <;> simp [mark?] at hk
  rcases Cursor.takeUntil_eq hmark hread with ⟨body, rfl, hrest, hbody⟩ | ⟨rfl, hrest, hbody⟩
  · exact ⟨_, by simp [hrest], .marked hk hbody⟩
  · rw [hrest]
    exact ⟨_, (List.append_nil _).symm, .unmarked hk hbody⟩

/-- Behind its beginning a construct is read as it must be written. -/
theorem gives_of_read (hrun : k = text → c.rest ≠ [] ∧ ∀ x ∈ c.rest.head?, x ≠ '<')
    (h : k.read c = (answer, c')) :
    ∃ written, k.opening ++ c.rest = written ++ c'.rest ∧ k.Gives written c'.rest answer := by
  cases k with
  | text =>
    obtain ⟨rfl, rfl⟩ := Prod.mk.inj h
    obtain ⟨hne, hfirst⟩ := hrun rfl
    refine ⟨c.rest.takeWhile (· ≠ '<'), List.takeWhile_append_dropWhile.symm, .text ?_ ?_ ?_⟩
    · obtain ⟨first, more, hrest⟩ := List.exists_cons_of_ne_nil hne
      have hbracket : first ≠ '<' := hfirst first (by rw [hrest]; rfl)
      simp [hrest, hbracket]
    · intro hmem
      simpa using List.all_eq_true.1 List.all_takeWhile _ hmem
    · intro x hx
      have hnot := List.head?_dropWhile_not (fun c => decide (c ≠ '<')) c.rest
      simp only [Cursor.behind] at hx
      rw [hx] at hnot
      simpa using hnot
  | comment =>
    obtain ⟨rfl, rfl⟩ := Prod.mk.inj h
    exact gives_marked (k := .comment) rfl (Prod.ext rfl rfl)
  | cdata =>
    obtain ⟨rfl, rfl⟩ := Prod.mk.inj h
    exact gives_marked (k := .cdata) rfl (Prod.ext rfl rfl)
  | instruction =>
    obtain ⟨rfl, rfl⟩ := Prod.mk.inj h
    exact gives_marked (k := .instruction) rfl (Prod.ext rfl rfl)
  | declaration =>
    obtain ⟨found, hfound⟩ : ∃ found, skipDeclaration 0 c.position c.rest = found := ⟨_, rfl⟩
    simp only [read, hfound] at h
    obtain ⟨rfl, rfl⟩ := Prod.mk.inj h
    rcases skipDeclaration_eq hfound with
      ⟨body, hok, hbody, hdepth, henclosed⟩ | ⟨herror, hend, henclosed⟩
    · rw [hok, hbody]
      exact ⟨_, by simp, .declared hdepth henclosed⟩
    · rw [herror, hend]
      exact ⟨_, (List.append_nil _).symm, .undeclared henclosed⟩
  | endTag =>
    obtain ⟨found, hfound⟩ : ∃ found, readEndTag c = found := ⟨_, rfl⟩
    have hreaches := reaches_readEndTag c
    simp only [read, hfound] at h hreaches
    obtain ⟨rfl, rfl⟩ := Prod.mk.inj h
    rcases readEndTag_eq hfound with ⟨name, blanks, hok, htag, hblanks, hname⟩ | ⟨e, herror, he⟩
    · rw [hok, htag]
      exact ⟨_, by simp, .endTag hname hblanks⟩
    · obtain ⟨front, hfront, -⟩ := hreaches
      rw [herror, hfront]
      exact ⟨_, (List.append_assoc _ _ _).symm, .broken (.inl rfl) he⟩
  | startTag =>
    obtain ⟨found, hfound⟩ : ∃ found, readStartTag c = found := ⟨_, rfl⟩
    have hreaches := reaches_readStartTag c
    simp only [read, hfound] at h hreaches
    obtain ⟨rfl, rfl⟩ := Prod.mk.inj h
    rcases readStartTag_eq hfound with
      ⟨name, inside, attributes, selfClosing, hok, htag, hname⟩ | ⟨e, herror, he⟩
    · rw [hok, htag]
      exact ⟨_, by simp, .startTag hname⟩
    · obtain ⟨front, hfront, -⟩ := hreaches
      rw [herror, hfront]
      exact ⟨_, (List.append_assoc _ _ _).symm, .broken (.inr rfl) he⟩

/-- What is read at a place stands there as it must be written. -/
theorem gives_read (hne : c.rest ≠ [])
    (h : (constructAt c.rest).read (c.skip (constructAt c.rest).lead) = (answer, c')) :
    ∃ written, c.rest = written ++ c'.rest ∧
      (constructAt c.rest).Gives written c'.rest answer := by
  have hrest := opening_append_skip c
  have hrun : constructAt c.rest = .text → (c.skip (constructAt c.rest).lead).rest ≠ [] ∧
      ∀ x ∈ (c.skip (constructAt c.rest).lead).rest.head?, x ≠ '<' := by
    intro htext
    have hsame : (c.skip (constructAt c.rest).lead).rest = c.rest := by rw [htext]; rfl
    rw [hsame]
    exact ⟨hne, not_bracket_of_text htext⟩
  obtain ⟨written, hwritten, hgives⟩ := gives_of_read hrun h
  exact ⟨written, hrest.trans hwritten, hgives⟩

end Construct

end RichText.Markup
