/-
# Reading markup

A tokenizer reads one token at a time: a tag, a run of text up to the next
`<`, a comment or a CDATA section. Declarations and processing instructions
are passed. After an error it goes on where it stands, and whatever it does,
it moves forward.

Key definitions: `Tokenizer`, `Tokenizer.next`, `Tokenizer.stream`, `tokenize`,
`readSource`.
Key theorems: `Tokenizer.length_next_lt`.
-/
import RichText.Markup.Entity
import RichText.Markup.Token
import RichText.Text.Blank
import RichText.Text.Cut

namespace RichText.Markup

open RichText.Text

/-- A place in a text: what is still to be read, and where it begins. -/
structure Cursor where
  rest : List Char
  position : Position
deriving DecidableEq, Repr

/-- The result of reading something, and the place behind it. -/
abbrev Reading (α : Type) := Except ParseError α × Cursor

namespace Cursor

/-- The place behind `passed`, where `rest` begins. -/
def behind (c : Cursor) (passed rest : List Char) : Cursor := ⟨rest, c.position.after passed⟩

/-- The place behind blanks. -/
def skipBlanks (c : Cursor) : Cursor :=
  c.behind (c.rest.takeWhile isBlank) (c.rest.dropWhile isBlank)

/-- An error at the place itself. -/
def fail {α : Type} (c : Cursor) (fault : Fault) : Reading α :=
  (.error (.malformed c.position fault), c)

/-- An error because the input ends, with nothing left to read. -/
def failAtEnd {α : Type} (c : Cursor) (what : Unfinished) : Reading α :=
  (.error (.unfinished what), c.behind c.rest [])

/-- The text up to a mark, and the place behind the mark. -/
def takeUntil (c : Cursor) (mark : List Char) (what : Unfinished) : Reading (List Char) :=
  match cutAt? mark c.rest with
  | some (found, rest) => (.ok found, c.behind (found ++ mark) rest)
  | none => c.failAtEnd what

/-- A name, in small letters. -/
def readName (c : Cursor) : Reading String :=
  match c.rest with
  | [] => c.failAtEnd .tag
  | first :: more =>
    if isNameStart first then
      let name := first :: more.takeWhile isNameChar
      (.ok (lowerCase (String.ofList name)), c.behind name (more.dropWhile isNameChar))
    else c.fail (.unexpected first)

/-- A value without quotes, up to a blank or the end of the tag, and what
follows it. -/
def bareValue : List Char → List Char × List Char
  | [] => ([], [])
  | '/' :: '>' :: rest => ([], '/' :: '>' :: rest)
  | c :: rest =>
    if isBlank c || c == '>' then ([], c :: rest)
    else
      let more := bareValue rest
      (c :: more.1, more.2)

/-- The value of an attribute. -/
def readValue (c : Cursor) : Reading String :=
  match c.rest with
  | [] => c.failAtEnd .attributeValue
  | first :: rest =>
    if first = '"' ∨ first = '\'' then
      match (c.behind [first] rest).takeUntil [first] .attributeValue with
      | (.ok raw, c) => (.ok (String.ofList (Entity.decode raw)), c)
      | (.error e, c) => (.error e, c)
    else
      let value := bareValue c.rest
      if value.1 = [] then c.fail .missingValue
      else (.ok (String.ofList (Entity.decode value.1)), c.behind value.1 value.2)

/-- The equals sign behind the name of an attribute and the value behind it;
without the sign the value is empty. -/
def readAssignment (c : Cursor) : Reading String :=
  let c := c.skipBlanks
  match c.rest with
  | '=' :: rest => (c.behind ['='] rest).skipBlanks.readValue
  | _ => (.ok "", c)

theorem length_skipBlanks_le (c : Cursor) : c.skipBlanks.rest.length ≤ c.rest.length :=
  (List.dropWhile_suffix _).length_le

theorem length_le_of_skipBlanks {c : Cursor} {s : List Char} {p : Position}
    (h : c.skipBlanks = ⟨s, p⟩) : s.length ≤ c.rest.length := by
  simpa [h] using c.length_skipBlanks_le

theorem length_takeUntil_le (c : Cursor) (mark : List Char) (what : Unfinished) :
    (c.takeUntil mark what).2.rest.length ≤ c.rest.length := by
  unfold takeUntil
  split
  · next h =>
    have := congrArg List.length (cutAt?_eq_append h)
    simp only [behind, List.length_append] at *
    omega
  · simp [failAtEnd, behind]

theorem length_readName_le (c : Cursor) : c.readName.2.rest.length ≤ c.rest.length := by
  unfold readName
  split
  · simp [failAtEnd, behind]
  · next first more h =>
    split
    · have := (List.dropWhile_suffix (l := more) isNameChar).length_le
      simp only [behind, h, List.length_cons]
      omega
    · simp [fail]

/-- A name takes at least one character. -/
theorem length_readName_lt {c c' : Cursor} {name : String} (h : c.readName = (.ok name, c')) :
    c'.rest.length < c.rest.length := by
  unfold readName at h
  split at h
  · simp [failAtEnd] at h
  · next first more hc =>
    split at h
    · obtain ⟨-, rfl⟩ : _ ∧ _ = c' := by simpa using h
      have := (List.dropWhile_suffix (l := more) isNameChar).length_le
      simp only [behind, hc, List.length_cons]
      omega
    · simp [fail] at h

theorem length_bareValue_le (s : List Char) : (bareValue s).2.length ≤ s.length := by
  fun_induction bareValue s with
  | case1 => simp
  | case2 => simp
  | case3 => simp
  | case4 _ _ _ _ _ ih => exact Nat.le_succ_of_le ih

theorem length_readValue_le (c : Cursor) : c.readValue.2.rest.length ≤ c.rest.length := by
  unfold readValue
  split
  · simp [failAtEnd, behind]
  · next first rest h =>
    split
    · have hle := (c.behind [first] rest).length_takeUntil_le [first] .attributeValue
      have hrest : (c.behind [first] rest).rest.length ≤ c.rest.length := by simp [behind, h]
      split
      · next heq =>
        rw [heq] at hle
        exact Nat.le_trans hle hrest
      · next heq =>
        rw [heq] at hle
        exact Nat.le_trans hle hrest
    · simp only
      split
      · simp [fail]
      · exact length_bareValue_le _

theorem length_readAssignment_le (c : Cursor) :
    c.readAssignment.2.rest.length ≤ c.rest.length := by
  have hc := c.length_skipBlanks_le
  unfold readAssignment
  simp only
  split
  · next rest h =>
    have h₁ := (c.skipBlanks.behind ['='] rest).skipBlanks.length_readValue_le
    have h₂ := (c.skipBlanks.behind ['='] rest).length_skipBlanks_le
    have h₃ : (c.skipBlanks.behind ['='] rest).rest.length ≤ c.skipBlanks.rest.length := by
      simp [behind, h]
    omega
  · exact hc

/-- The attributes of a tag behind those in `found`, and whether the tag closes
itself. -/
def readAttributes (name : String) (found : Attributes) (c : Cursor) :
    Reading (Attributes × Bool) :=
  match hs : c.skipBlanks with
  | ⟨[], position⟩ => (⟨[], position⟩ : Cursor).failAtEnd .startTag
  | ⟨'>' :: rest, position⟩ => (.ok (found, false), ⟨rest, position.next '>'⟩)
  | ⟨'/' :: '>' :: rest, position⟩ =>
    (.ok (found, true), ⟨rest, (position.next '/').next '>'⟩)
  | ⟨'/' :: rest, position⟩ => (⟨rest, position.next '/'⟩ : Cursor).fail .slashAlone
  | ⟨first :: rest, position⟩ =>
    if isNameStart first then
      match hn : (⟨first :: rest, position⟩ : Cursor).readName with
      | (.error e, c) => (.error e, c)
      | (.ok key, c₁) =>
        match ha : c₁.readAssignment with
        | (.error e, c) => (.error e, c)
        | (.ok value, c₂) =>
          if found.any fun pair => pair.1 == key then c₂.fail (.duplicateAttribute key)
          else
            have hlt : c₂.rest.length < c.rest.length := by
              have h₁ := length_le_of_skipBlanks hs
              have h₂ := length_readName_lt hn
              have h₃ := c₁.length_readAssignment_le
              rw [ha] at h₃
              simp only at h₂ h₃
              omega
            readAttributes name (found ++ [(key, value)]) c₂
    else (⟨first :: rest, position⟩ : Cursor).fail (.unexpectedInTag first name)
termination_by c.rest.length

theorem length_readAttributes_le (name : String) (found : Attributes) (c : Cursor) :
    (c.readAttributes name found).2.rest.length ≤ c.rest.length := by
  fun_induction readAttributes name found c with
  | case1 => simp [failAtEnd, behind]
  | case2 found c rest position hs =>
    have := length_le_of_skipBlanks hs
    simp only [List.length_cons] at *
    omega
  | case3 found c rest position hs =>
    have := length_le_of_skipBlanks hs
    simp only [List.length_cons] at *
    omega
  | case4 found c rest position _ hs =>
    have := length_le_of_skipBlanks hs
    simp only [fail, List.length_cons] at *
    omega
  | case5 found c first rest position _ _ _ hs _ e c' hn =>
    have h₁ := length_le_of_skipBlanks hs
    have h₂ := (⟨first :: rest, position⟩ : Cursor).length_readName_le
    rw [hn] at h₂
    exact Nat.le_trans h₂ h₁
  | case6 found c first rest position _ _ _ hs _ key c₁ hn e c₂ ha =>
    have h₁ := length_le_of_skipBlanks hs
    have h₂ := length_readName_lt hn
    have h₃ := c₁.length_readAssignment_le
    rw [ha] at h₃
    simp only at h₂ h₃ ⊢
    omega
  | case7 found c first rest position _ _ _ hs _ key c₁ hn value c₂ ha =>
    have h₁ := length_le_of_skipBlanks hs
    have h₂ := length_readName_lt hn
    have h₃ := c₁.length_readAssignment_le
    rw [ha] at h₃
    simp only [fail] at h₂ h₃ ⊢
    omega
  | case8 => omega
  | case9 found c first rest position _ _ _ hs =>
    simpa [fail] using length_le_of_skipBlanks hs

end Cursor

/-- What follows the bracket `>` that ends a declaration, inside `depth` square
brackets, and the place there. -/
def skipDeclaration (depth : Nat) (position : Position) : List Char → Reading Unit
  | [] => (.error (.unfinished .declaration), ⟨[], position⟩)
  | c :: rest =>
    if c = '[' then skipDeclaration (depth + 1) (position.next c) rest
    else if c = ']' then skipDeclaration (depth - 1) (position.next c) rest
    else if c = '>' ∧ depth = 0 then (.ok (), ⟨rest, position.next c⟩)
    else skipDeclaration depth (position.next c) rest

theorem length_skipDeclaration_le (depth : Nat) (position : Position) (s : List Char) :
    (skipDeclaration depth position s).2.rest.length ≤ s.length := by
  fun_induction skipDeclaration depth position s with
  | case1 => simp
  | case2 _ _ _ ih => exact Nat.le_succ_of_le ih
  | case3 _ _ _ _ ih => exact Nat.le_succ_of_le ih
  | case4 => simp
  | case5 _ _ _ _ _ _ _ ih => exact Nat.le_succ_of_le ih

/-- A start tag behind its `<`. -/
def readStartTag (c : Cursor) : Reading Token :=
  match c.readName with
  | (.error e, c) => (.error e, c)
  | (.ok name, c) =>
    match c.readAttributes name [] with
    | (.error e, c) => (.error e, c)
    | (.ok (attributes, selfClosing), c) => (.ok (.startTag name attributes selfClosing), c)

/-- An end tag behind its `</`. -/
def readEndTag (c : Cursor) : Reading Token :=
  match c.readName with
  | (.error e, c) => (.error e, c)
  | (.ok name, c) =>
    let c := c.skipBlanks
    match c.rest with
    | [] => c.failAtEnd .endTag
    | '>' :: rest => (.ok (.endTag name), c.behind ['>'] rest)
    | other :: rest => (c.behind [other] rest).fail (.unexpectedInEndTag other name)

theorem length_readStartTag_le (c : Cursor) : (readStartTag c).2.rest.length ≤ c.rest.length := by
  have h₁ := c.length_readName_le
  unfold readStartTag
  split
  · next heq => simpa [heq] using h₁
  · next name c' heq =>
    have h₂ := c'.length_readAttributes_le name []
    rw [heq] at h₁
    split
    · next heq' =>
      rw [heq'] at h₂
      exact Nat.le_trans h₂ h₁
    · next heq' =>
      rw [heq'] at h₂
      exact Nat.le_trans h₂ h₁

theorem length_readEndTag_le (c : Cursor) : (readEndTag c).2.rest.length ≤ c.rest.length := by
  have h₁ := c.length_readName_le
  unfold readEndTag
  split
  · next heq => simpa [heq] using h₁
  · next name c' heq =>
    have h₂ := c'.length_skipBlanks_le
    rw [heq] at h₁
    simp only at h₁ ⊢
    split
    · simp [Cursor.failAtEnd, Cursor.behind]
    · next hr =>
      simp only [Cursor.behind]
      simp only [hr, List.length_cons] at h₂
      omega
    · next hr =>
      simp only [Cursor.fail, Cursor.behind]
      simp only [hr, List.length_cons] at h₂
      omega

/-- What a place in the text begins with. -/
inductive Construct where
  | text
  | comment
  | cdata
  | declaration
  | instruction
  | endTag
  | startTag
deriving DecidableEq, Repr

/-- What the text begins with, which its first characters decide. -/
def constructAt (s : List Char) : Construct :=
  if !hasLead "<".toList s then .text
  else if hasLead "<!--".toList s then .comment
  else if hasLead "<![CDATA[".toList s then .cdata
  else if hasLead "<!".toList s then .declaration
  else if hasLead "<?".toList s then .instruction
  else if hasLead "</".toList s then .endTag
  else .startTag

/-- The characters at the beginning of a construct that are passed before it is
read. An instruction may end with the question mark it begins with. -/
def Construct.lead : Construct → Nat
  | text => 0
  | comment => 4
  | cdata => 9
  | declaration => 2
  | instruction => 1
  | endTag => 2
  | startTag => 1

/-- The place `n` characters on. -/
def Cursor.skip (c : Cursor) (n : Nat) : Cursor := c.behind (c.rest.take n) (c.rest.drop n)

/-- Reads a construct behind its lead. What is passed gives no token. -/
def Construct.read (k : Construct) (c : Cursor) : Reading (Option Token) :=
  match k with
  | text =>
    let run := c.rest.takeWhile (· ≠ '<')
    (.ok (some (.text (String.ofList (Entity.decode run)))),
      c.behind run (c.rest.dropWhile (· ≠ '<')))
  | comment =>
    let found := c.takeUntil "-->".toList .comment
    (found.1.map fun s => some (.comment (String.ofList s)), found.2)
  | cdata =>
    let found := c.takeUntil "]]>".toList .cdata
    (found.1.map fun s => some (.text (String.ofList s)), found.2)
  | declaration =>
    let found := skipDeclaration 0 c.position c.rest
    (found.1.map fun _ => none, found.2)
  | instruction =>
    let found := c.takeUntil "?>".toList .instruction
    (found.1.map fun _ => none, found.2)
  | endTag =>
    let found := readEndTag c
    (found.1.map some, found.2)
  | startTag =>
    let found := readStartTag c
    (found.1.map some, found.2)

theorem Construct.length_read_le (k : Construct) (c : Cursor) :
    (k.read c).2.rest.length ≤ c.rest.length := by
  cases k
  · exact (List.dropWhile_suffix _).length_le
  · exact c.length_takeUntil_le _ _
  · exact c.length_takeUntil_le _ _
  · exact length_skipDeclaration_le _ _ _
  · exact c.length_takeUntil_le _ _
  · exact length_readEndTag_le c
  · exact length_readStartTag_le c

/-- Only text does not begin with an angle bracket. -/
theorem constructAt_ne_text (rest : List Char) : constructAt ('<' :: rest) ≠ .text := by
  have h : hasLead "<".toList ('<' :: rest) = true := rfl
  unfold constructAt
  simp only [h, Bool.not_true, Bool.false_eq_true, if_false]
  repeat' split
  all_goals nofun

/-- The construct at the beginning of a text takes at least one character. -/
theorem length_read_constructAt_lt {c : Cursor} (h : c.rest ≠ []) :
    ((constructAt c.rest).read (c.skip (constructAt c.rest).lead)).2.rest.length <
      c.rest.length := by
  obtain ⟨first, rest, hc⟩ := List.exists_cons_of_ne_nil h
  by_cases ht : constructAt c.rest = .text
  · have hne : first ≠ '<' := by
      rintro rfl
      exact constructAt_ne_text rest (hc ▸ ht)
    have := (List.dropWhile_suffix (l := rest) fun c => decide (c ≠ '<')).length_le
    rw [ht]
    change (c.rest.dropWhile fun c => decide (c ≠ '<')).length < _
    rw [hc, List.dropWhile_cons_of_pos (by simpa using hne), List.length_cons]
    omega
  · have hlead : 1 ≤ (constructAt c.rest).lead := by
      revert ht
      cases constructAt c.rest <;> simp [Construct.lead]
    have := (constructAt c.rest).length_read_le (c.skip (constructAt c.rest).lead)
    have hs : (c.skip (constructAt c.rest).lead).rest.length =
        c.rest.length - (constructAt c.rest).lead := List.length_drop
    have hp : 1 ≤ c.rest.length := by simp [hc]
    omega

/-- Tokens with the places where they begin, and the error that ends them
unless the end of the text does. -/
structure TokenStream where
  items : List (Position × Token)
  failure : Option ParseError
deriving DecidableEq, Repr

/-- A place in a text, and where the last token begins. -/
structure Tokenizer where
  cursor : Cursor
  tokenStart : Position
deriving DecidableEq, Repr

namespace Tokenizer

def ofString (s : String) : Tokenizer := ⟨⟨s.toList, .start⟩, .start⟩

/-- The next token, or `none` at the end of the text. -/
def next (t : Tokenizer) : Except ParseError (Option Token) × Tokenizer :=
  if h : t.cursor.rest = [] then (.ok none, t)
  else
    let start := t.cursor.position
    match hr : (constructAt t.cursor.rest).read
        (t.cursor.skip (constructAt t.cursor.rest).lead) with
    | (.error e, c) => (.error e, ⟨c, start⟩)
    | (.ok (some token), c) => (.ok (some token), ⟨c, start⟩)
    | (.ok none, c) =>
      have : c.rest.length < t.cursor.rest.length := by
        simpa [hr] using length_read_constructAt_lt h
      next ⟨c, start⟩
termination_by t.cursor.rest.length

theorem length_next_le (t : Tokenizer) : t.next.2.cursor.rest.length ≤ t.cursor.rest.length := by
  fun_induction next t with
  | case1 => exact Nat.le_refl _
  | case2 t h _ e c hr => simpa [hr] using Nat.le_of_lt (length_read_constructAt_lt h)
  | case3 t h _ token c hr => simpa [hr] using Nat.le_of_lt (length_read_constructAt_lt h)
  | case4 t h _ c hr hlt ih => exact Nat.le_trans ih (Nat.le_of_lt hlt)

/-- Unless the text ends, reading takes at least one character. -/
theorem length_next_lt {t : Tokenizer} (h : t.cursor.rest ≠ []) :
    t.next.2.cursor.rest.length < t.cursor.rest.length := by
  unfold next
  rw [dif_neg h]
  simp only
  split
  · next hr => simpa [hr] using length_read_constructAt_lt h
  · next hr => simpa [hr] using length_read_constructAt_lt h
  · next c hr =>
    have h₁ : c.rest.length < t.cursor.rest.length := by
      simpa [hr] using length_read_constructAt_lt h
    exact Nat.lt_of_le_of_lt (length_next_le ⟨c, _⟩) h₁

theorem rest_ne_nil_of_next {t t' : Tokenizer} {r : Except ParseError (Option Token)}
    (h : t.next = (r, t')) (hr : r ≠ .ok none) : t.cursor.rest ≠ [] := by
  intro hn
  rw [next, dif_pos hn] at h
  exact hr (congrArg Prod.fst h).symm

/-- The tokens up to the end of the text or the first error, each with the
place where it begins. -/
def stream (t : Tokenizer) : TokenStream :=
  match h : t.next with
  | (.error e, _) => ⟨[], some e⟩
  | (.ok none, _) => ⟨[], none⟩
  | (.ok (some token), t') =>
    have : t'.cursor.rest.length < t.cursor.rest.length := by
      simpa [h] using length_next_lt (rest_ne_nil_of_next h (by simp))
    let more := t'.stream
    ⟨(t'.tokenStart, token) :: more.items, more.failure⟩
termination_by t.cursor.rest.length

end Tokenizer

/-- The tokens of a whole text. -/
def tokenize (s : String) : Except ParseError (List Token) :=
  let found := (Tokenizer.ofString s).stream
  match found.failure with
  | some e => .error e
  | none => .ok (found.items.map (·.2))

/-- The text that a source delivers. -/
def readSource (source : ByteSource) : Except ParseError String :=
  match source.text with
  | .ok s => .ok s
  | .error fault => .error (.read fault)

end RichText.Markup
