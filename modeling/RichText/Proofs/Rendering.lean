/-
# Reading back what is written

Tokens are written as markup: a tag with its attributes in double quotes, a comment
between its marks, and a text with references for the characters that mean something
in markup. A reference is read as the character that it stands for, whatever comes
behind it (`Entity.decode_escape`), and no delimiter is left in what is written
between two of them; so every construct ends where it was meant to, and reading the
whole gives the tokens back.

Key definitions: `escape`, `Token.written`, `IsPlainName`, `Token.Writable`,
`rendered`.
Key theorems: `Entity.decode_escape`, `Cursor.readAttributes_written`,
`Tokenizer.next_written`, `tokenize_rendered`.
-/
import Mathlib
import RichText.Markup.Tokenizer

namespace RichText.Markup

open RichText.Text

/-! ### Writing -/

/-- A character, or the reference to it where it would be markup; double quotes are
markup in values only. -/
def escapeChar (quoted : Bool) (c : Char) : List Char :=
  if c = '&' then "&amp;".toList
  else if c = '<' then "&lt;".toList
  else if quoted = true ∧ c = '"' then "&quot;".toList
  else [c]

def escape (quoted : Bool) (s : String) : List Char := s.toList.flatMap (escapeChar quoted)

/-- An attribute behind the blank that separates it from what is before it. -/
def writtenAttribute (a : String × String) : List Char :=
  ' ' :: (a.1.toList ++ '=' :: '"' :: (escape true a.2 ++ ['"']))

/-- The end of a start tag. -/
def tagEnd (selfClosing : Bool) : List Char := if selfClosing then ['/', '>'] else ['>']

namespace Token

def written : Token → List Char
  | startTag name attributes selfClosing =>
    '<' :: (name.toList ++ (attributes.flatMap writtenAttribute ++ tagEnd selfClosing))
  | endTag name => '<' :: '/' :: (name.toList ++ ['>'])
  | text s => escape false s
  | comment s => "<!--".toList ++ (s.toList ++ "-->".toList)

def isText : Token → Bool
  | text _ => true
  | _ => false

end Token

/-- Markup in which the tokens are written one behind the other. -/
def rendered (tokens : List Token) : String := String.ofList (tokens.flatMap Token.written)

/-- A name as a tag or an attribute can have it: without capitals of ASCII, since
these are read as small letters. -/
def IsPlainName (name : String) : Prop :=
  ∃ first more, name.toList = first :: more ∧ isNameStart first = true ∧
    (∀ c ∈ more, isNameChar c = true) ∧ ∀ c ∈ first :: more, c.isUpper = false

theorem isPlainName_of_all {name : String} {first : Char} {more : List Char}
    (hname : name.toList = first :: more)
    (h : (isNameStart first && more.all isNameChar && (first :: more).all (!·.isUpper)) = true) :
    IsPlainName name := by
  simp only [Bool.and_eq_true, List.all_eq_true, Bool.not_eq_true'] at h
  exact ⟨first, more, hname, h.1.1, h.1.2, h.2⟩

/-- A token that can be written so that it is read back. -/
def Token.Writable : Token → Prop
  | startTag name attributes _ =>
    IsPlainName name ∧ (∀ a ∈ attributes, IsPlainName a.1) ∧ (attributes.map (·.1)).Nodup
  | endTag name => IsPlainName name
  | text s => s ≠ ""
  | comment s => ¬ "-->".toList <:+: s.toList

/-! ### References -/

namespace Entity

theorem decode_cons {c : Char} (hc : c ≠ '&') (s : List Char) :
    decode (c :: s) = c :: decode s := by
  rw [decode]
  exact hc

theorem decode_reference {s rest : List Char} {c : Char} (h : reference? s = some (c, rest)) :
    decode ('&' :: s) = c :: decode rest := by
  rw [decode]
  split
  · next h' =>
    obtain ⟨rfl, rfl⟩ : _ = c ∧ _ = rest := by simpa [h] using h'.symm
    rfl
  · next h' => simp [h] at h'

/-- A character that is written is read back, whatever comes behind it. -/
theorem decode_escapeChar (quoted : Bool) (c : Char) (rest : List Char) :
    decode (escapeChar quoted c ++ rest) = c :: decode rest := by
  unfold escapeChar
  split
  · next h =>
    subst h
    exact decode_reference rfl
  · next hamp =>
    split
    · next h =>
      subst h
      exact decode_reference rfl
    · split
      · next h =>
        obtain ⟨-, rfl⟩ := h
        exact decode_reference rfl
      · exact decode_cons hamp rest

theorem decode_escape (quoted : Bool) (s : String) : decode (escape quoted s) = s.toList := by
  unfold escape
  induction s.toList with
  | nil => rw [List.flatMap_nil, decode]
  | cons c s ih => rw [List.flatMap_cons, decode_escapeChar, ih]

end Entity

/-- What is written has no bracket that begins a tag, and in values no quote. -/
theorem mem_escapeChar {quoted : Bool} {c x : Char} (h : x ∈ escapeChar quoted c) :
    x ≠ '<' ∧ (quoted = true → x ≠ '"') := by
  have reference {s : List Char} (hs : ∀ y ∈ s, y ≠ '<' ∧ y ≠ '"') (hx : x ∈ s) :
      x ≠ '<' ∧ (quoted = true → x ≠ '"') :=
    ⟨(hs x hx).1, fun _ => (hs x hx).2⟩
  unfold escapeChar at h
  split at h
  · exact reference (by simp) h
  · split at h
    · exact reference (by simp) h
    · next hlt =>
      split at h
      · exact reference (by simp) h
      · next hquote =>
        obtain rfl := List.mem_singleton.1 h
        exact ⟨hlt, fun hq hx => hquote ⟨hq, hx⟩⟩

theorem mem_escape {quoted : Bool} {s : String} {x : Char} (h : x ∈ escape quoted s) :
    x ≠ '<' ∧ (quoted = true → x ≠ '"') := by
  obtain ⟨c, -, hx⟩ := List.mem_flatMap.1 h
  exact mem_escapeChar hx

theorem escape_ne_nil (quoted : Bool) {s : String} (h : s ≠ "") : escape quoted s ≠ [] := by
  obtain ⟨c, rest, hs⟩ := List.exists_cons_of_ne_nil fun hnil => h (String.toList_eq_nil_iff.1 hnil)
  have hc : escapeChar quoted c ≠ [] := by
    intro hnil
    have hdecode := Entity.decode_escapeChar quoted c []
    rw [hnil, List.append_nil, Entity.decode] at hdecode
    exact List.cons_ne_nil _ _ hdecode.symm
  rw [escape, hs, List.flatMap_cons]
  exact fun hnil => hc (List.append_eq_nil_iff.1 hnil).1

/-! ### Cuts -/

/-- A cut is made behind a text in which the mark does not begin anywhere. -/
theorem cutAt?_append {mark : List Char} (hmark : mark ≠ []) (rest : List Char) : ∀ s : List Char,
    (∀ b, b <:+ s → b ≠ [] → ¬ mark <+: b ++ (mark ++ rest)) →
    cutAt? mark (s ++ (mark ++ rest)) = some (s, rest)
  | [], _ => by
    obtain ⟨c, mark', rfl⟩ := List.exists_cons_of_ne_nil hmark
    have hafter : afterLead? (c :: mark') (c :: (mark' ++ rest)) = some rest :=
      afterLead?_eq_some_iff.2 rfl
    simp only [List.nil_append, List.cons_append, cutAt?, hafter]
  | c :: s, h => by
    have hnone : afterLead? mark (c :: (s ++ (mark ++ rest))) = none := by
      rw [Option.eq_none_iff_forall_not_mem]
      intro r hr
      exact h (c :: s) List.suffix_rfl (by simp) ⟨r, (afterLead?_eq_some_iff.1 hr).symm⟩
    have hrest := cutAt?_append hmark rest s fun b hb => h b (hb.trans (List.suffix_cons c s))
    simp only [List.cons_append, cutAt?, hnone, hrest, Option.map_some]

theorem hasLead_cons (c : Char) (lead s : List Char) :
    hasLead (c :: lead) (c :: s) = hasLead lead s := by
  rw [hasLead, hasLead, afterLead?, if_pos rfl]

theorem hasLead_cons_of_ne {c d : Char} (h : c ≠ d) (lead s : List Char) :
    hasLead (c :: lead) (d :: s) = false := by
  rw [hasLead, afterLead?, if_neg h]
  rfl

theorem cutAt?_char {c : Char} {s rest : List Char} (h : c ∉ s) :
    cutAt? [c] (s ++ c :: rest) = some (s, rest) := by
  refine cutAt?_append (List.cons_ne_nil c []) rest s fun b hb hne hlead => ?_
  obtain ⟨x, b', rfl⟩ := List.exists_cons_of_ne_nil hne
  obtain rfl : c = x := by simpa using hlead
  exact h (hb.subset List.mem_cons_self)

theorem cutAt?_comment {s rest : List Char} (h : ¬ "-->".toList <:+: s) :
    cutAt? "-->".toList (s ++ ("-->".toList ++ rest)) = some (s, rest) := by
  refine cutAt?_append (by decide) rest s fun b hb hne hlead => ?_
  -- The mark would be in the text, or overlap itself, which it cannot.
  match b, hne with
  | [x], _ => simp at hlead
  | [x, y], _ => simp at hlead
  | x :: y :: z :: b', _ =>
    have hinside : "-->".toList <+: x :: y :: z :: b' := by simpa using hlead
    exact h (hinside.isInfix.trans hb.isInfix)

/-- Where a stretch of characters ends. -/
theorem takeWhile_dropWhile_append {p : Char → Bool} {s rest : List Char}
    (hs : ∀ x ∈ s, p x = true) (hrest : ∀ x ∈ rest.head?, p x = false) :
    (s ++ rest).takeWhile p = s ∧ (s ++ rest).dropWhile p = rest := by
  rw [List.takeWhile_append_of_pos hs, List.dropWhile_append_of_pos hs]
  cases rest with
  | nil => simp
  | cons x rest => simp [hrest x rfl]

/-! ### Names and values -/

theorem toLower_of_not_isUpper {c : Char} (h : c.isUpper = false) : c.toLower = c := by
  unfold Char.toLower
  rw [dif_neg]
  simpa [Char.isUpper] using h

theorem not_isNameStart_of_isBlank {c : Char} (h : isBlank c = true) : isNameStart c = false := by
  have hletter := not_isAlphanumeric_of_isBlank h
  rw [isAlphanumeric, Bool.or_eq_false_iff] at hletter
  have hmark : c ≠ '_' ∧ c ≠ ':' := by
    refine ⟨?_, ?_⟩ <;> rintro rfl <;> revert h <;> decide
  simp [isNameStart, hletter.1, hmark.1, hmark.2]

/-- Names begin with no blank. -/
theorem not_isBlank_of_isNameStart {c : Char} (h : isNameStart c = true) : isBlank c = false := by
  rw [Bool.eq_false_iff]
  intro hblank
  rw [not_isNameStart_of_isBlank hblank] at h
  exact absurd h (by decide)

theorem IsPlainName.lowerCase {name : String} (h : IsPlainName name) :
    lowerCase (String.ofList name.toList) = name := by
  obtain ⟨first, more, hname, -, -, hsmall⟩ := h
  have hmap : name.toList.map Char.toLower = name.toList := by
    rw [hname]
    exact (List.map_congr_left fun c hc => toLower_of_not_isUpper (hsmall c hc)).trans
      (List.map_id _)
  rw [String.ofList_toList, Text.lowerCase, ← String.toList_inj, String.toList_map, hmap]

namespace Cursor

variable {p : Position} {rest : List Char}

/-- A blank is passed on its own. -/
theorem skipBlanks_blank (p : Position) (rest : List Char) {x y : Char} (hx : isBlank x = true)
    (hy : isBlank y = false) :
    (⟨x :: y :: rest, p⟩ : Cursor).skipBlanks = ⟨y :: rest, p.next x⟩ := by
  simp [skipBlanks, behind, hx, hy, Position.after]

theorem skipBlanks_eq {x : Char} (hx : isBlank x = false) :
    (⟨x :: rest, p⟩ : Cursor).skipBlanks = ⟨x :: rest, p⟩ := by
  simp [skipBlanks, behind, hx, Position.after]

theorem readName_written {name : String} (hname : IsPlainName name) (p : Position)
    (rest : List Char) (hrest : ∀ x ∈ rest.head?, isNameChar x = false) :
    (⟨name.toList ++ rest, p⟩ : Cursor).readName = (.ok name, ⟨rest, p.after name.toList⟩) := by
  have hlower := hname.lowerCase
  obtain ⟨first, more, hlist, hfirst, hmore, -⟩ := hname
  obtain ⟨htake, hdrop⟩ := takeWhile_dropWhile_append hmore hrest
  rw [hlist] at hlower ⊢
  simp only [List.cons_append, readName, hfirst, if_true, htake, hdrop, hlower, behind]

/-- The sign and the quoted value behind the name of an attribute. -/
theorem readAssignment_written (value : String) (p : Position) (rest : List Char) :
    ∃ p', (⟨'=' :: '"' :: (escape true value ++ '"' :: rest), p⟩ : Cursor).readAssignment =
      (.ok value, ⟨rest, p'⟩) := by
  have hquote : '"' ∉ escape true value := fun h => (mem_escape h).2 rfl rfl
  unfold readAssignment
  rw [skipBlanks_eq (by decide)]
  simp only [behind]
  rw [skipBlanks_eq (by decide)]
  simp only [readValue, true_or, if_true, takeUntil, behind, cutAt?_char hquote,
    Entity.decode_escape, String.ofList_toList]
  exact ⟨_, rfl⟩

variable {name : String} {found : Attributes} {c c₁ c₂ : Cursor}

theorem readAttributes_end (h : c.skipBlanks = ⟨'>' :: rest, p⟩) :
    Cursor.readAttributes name found c = (.ok (found, false), ⟨rest, p.next '>'⟩) := by
  rw [readAttributes.eq_def]
  split
  · next hs => cases h.symm.trans hs
  · next hs =>
    cases h.symm.trans hs
    rfl
  · next hs => cases h.symm.trans hs
  · next hs => cases h.symm.trans hs
  · next hgt _ _ hs =>
    cases h.symm.trans hs
    exact absurd rfl hgt

theorem readAttributes_selfClosing (h : c.skipBlanks = ⟨'/' :: '>' :: rest, p⟩) :
    Cursor.readAttributes name found c = (.ok (found, true), ⟨rest, (p.next '/').next '>'⟩) := by
  rw [readAttributes.eq_def]
  split
  · next hs => cases h.symm.trans hs
  · next hs => cases h.symm.trans hs
  · next hs =>
    cases h.symm.trans hs
    rfl
  · next hgt hs =>
    cases h.symm.trans hs
    exact absurd rfl (hgt _)
  · next hslash hs =>
    cases h.symm.trans hs
    exact absurd rfl hslash

theorem readAttributes_name {first : Char} {key value : String}
    (h : c.skipBlanks = ⟨first :: rest, p⟩) (hfirst : isNameStart first = true)
    (hname : (⟨first :: rest, p⟩ : Cursor).readName = (.ok key, c₁))
    (hvalue : c₁.readAssignment = (.ok value, c₂))
    (hfresh : found.any (fun pair => pair.1 == key) = false) :
    Cursor.readAttributes name found c =
      Cursor.readAttributes name (found ++ [(key, value)]) c₂ := by
  rw [readAttributes.eq_def]
  split
  · next hs => cases h.symm.trans hs
  · next hs =>
    cases h.symm.trans hs
    exact absurd hfirst (by decide)
  · next hs =>
    cases h.symm.trans hs
    exact absurd hfirst (by decide)
  · next hs =>
    cases h.symm.trans hs
    exact absurd hfirst (by decide)
  · next hs =>
    cases h.symm.trans hs
    rw [if_pos hfirst]
    split
    · next hn => cases hname.symm.trans hn
    · next hn =>
      cases hname.symm.trans hn
      split
      · next ha => cases hvalue.symm.trans ha
      · next ha =>
        cases hvalue.symm.trans ha
        rw [if_neg (by simp [hfresh])]

/-- The attributes of a tag, behind those that have been found. -/
theorem readAttributes_written (name : String) (selfClosing : Bool) (rest : List Char) :
    ∀ (attributes found : Attributes) (p : Position), (∀ a ∈ attributes, IsPlainName a.1) →
      ((found ++ attributes).map (·.1)).Nodup →
      ∃ p', Cursor.readAttributes name found
          ⟨attributes.flatMap writtenAttribute ++ (tagEnd selfClosing ++ rest), p⟩ =
        (.ok (found ++ attributes, selfClosing), ⟨rest, p'⟩)
  | [], found, p, _, _ => by
    rw [List.flatMap_nil, List.nil_append, List.append_nil]
    cases selfClosing with
    | false => exact ⟨_, readAttributes_end (skipBlanks_eq (by decide))⟩
    | true => exact ⟨_, readAttributes_selfClosing (skipBlanks_eq (by decide))⟩
  | (key, value) :: attributes, found, p, hplain, hnodup => by
    have hkey : IsPlainName key := hplain _ List.mem_cons_self
    have hfresh : found.any (fun pair => pair.1 == key) = false := by
      rw [List.map_append, List.nodup_append] at hnodup
      rw [List.any_eq_false]
      intro pair hpair heq
      exact hnodup.2.2 pair.1 (List.mem_map_of_mem hpair) key List.mem_cons_self
        (by simpa using heq)
    have hnodup' : ((found ++ [(key, value)] ++ attributes).map (·.1)).Nodup := by
      simpa using hnodup
    generalize hbehind :
      attributes.flatMap writtenAttribute ++ (tagEnd selfClosing ++ rest) = behind
    obtain ⟨p₁, hvalue⟩ := readAssignment_written value ((p.next ' ').after key.toList) behind
    obtain ⟨p₂, hmore⟩ := readAttributes_written name selfClosing rest attributes
      (found ++ [(key, value)]) p₁ (fun a ha => hplain a (List.mem_cons_of_mem _ ha)) hnodup'
    have hname := readName_written hkey (p.next ' ')
      ('=' :: '"' :: (escape true value ++ '"' :: behind)) (by simp; decide)
    obtain ⟨first, more, hlist, hfirst, -⟩ := hkey
    have hwhole : ((key, value) :: attributes).flatMap writtenAttribute ++
        (tagEnd selfClosing ++ rest) =
          ' ' :: (key.toList ++ '=' :: '"' :: (escape true value ++ '"' :: behind)) := by
      simp [writtenAttribute, ← hbehind]
    have hskip := skipBlanks_blank p (more ++ '=' :: '"' :: (escape true value ++ '"' :: behind))
      (show isBlank ' ' = true by decide) (not_isBlank_of_isNameStart hfirst)
    rw [hbehind] at hmore
    rw [hlist] at hname hvalue hwhole
    refine ⟨p₂, ?_⟩
    rw [hwhole, List.cons_append, readAttributes_name hskip hfirst hname hvalue hfresh, hmore,
      List.append_assoc, List.singleton_append]

end Cursor

theorem readStartTag_written {name : String} {attributes : Attributes} (selfClosing : Bool)
    (hname : IsPlainName name) (hattributes : ∀ a ∈ attributes, IsPlainName a.1)
    (hnodup : (attributes.map (·.1)).Nodup) (p : Position) (rest : List Char) :
    ∃ p', readStartTag ⟨name.toList ++
        (attributes.flatMap writtenAttribute ++ (tagEnd selfClosing ++ rest)), p⟩ =
      (.ok (.startTag name attributes selfClosing), ⟨rest, p'⟩) := by
  have hends : ∀ x ∈ (attributes.flatMap writtenAttribute ++ (tagEnd selfClosing ++ rest)).head?,
      isNameChar x = false := by
    cases attributes with
    | nil => cases selfClosing <;> simp [tagEnd] <;> decide
    | cons a attributes => simp [writtenAttribute]; decide
  obtain ⟨p', hread⟩ := Cursor.readAttributes_written name selfClosing rest attributes []
    (p.after name.toList) hattributes (by simpa using hnodup)
  refine ⟨p', ?_⟩
  rw [readStartTag, Cursor.readName_written hname p _ hends]
  simp only [hread, List.nil_append]

theorem readEndTag_written {name : String} (hname : IsPlainName name) (p : Position)
    (rest : List Char) :
    ∃ p', readEndTag ⟨name.toList ++ ('>' :: rest), p⟩ = (.ok (.endTag name), ⟨rest, p'⟩) := by
  rw [readEndTag, Cursor.readName_written hname p _ (by simp; decide)]
  simp only [Cursor.skipBlanks_eq (show isBlank '>' = false by decide), Cursor.behind]
  exact ⟨_, rfl⟩

/-! ### Tokens -/

theorem constructAt_text {s : List Char} (h : ∀ x ∈ s.head?, x ≠ '<') : constructAt s = .text := by
  have hlead : hasLead "<".toList s = false := by
    cases s with
    | nil => rfl
    | cons x s => exact hasLead_cons_of_ne (Ne.symm (h x rfl)) [] s
  rw [constructAt, hlead]
  rfl

/-- What begins like a name behind the bracket is a start tag. -/
theorem constructAt_startTag {first : Char} (hfirst : isNameStart first = true) (s : List Char) :
    constructAt ('<' :: first :: s) = .startTag := by
  have hmark {x : Char} (hx : isNameStart x = false) (lead : List Char) :
      hasLead ('<' :: x :: lead) ('<' :: first :: s) = false := by
    rw [hasLead_cons]
    refine hasLead_cons_of_ne ?_ lead s
    rintro rfl
    exact absurd (hfirst.symm.trans hx) (by decide)
  have hbang : isNameStart '!' = false := by decide +kernel
  have hcomment : hasLead "<!--".toList ('<' :: first :: s) = false := hmark hbang _
  have hcdata : hasLead "<![CDATA[".toList ('<' :: first :: s) = false := hmark hbang _
  have hdeclaration : hasLead "<!".toList ('<' :: first :: s) = false := hmark hbang _
  have hinstruction : hasLead "<?".toList ('<' :: first :: s) = false :=
    hmark (by decide +kernel) _
  have hend : hasLead "</".toList ('<' :: first :: s) = false := hmark (by decide +kernel) _
  have hbracket : hasLead "<".toList ('<' :: first :: s) = true := rfl
  unfold constructAt
  rw [hbracket, hcomment, hcdata, hdeclaration, hinstruction, hend]
  rfl

theorem constructAt_endTag (s : List Char) : constructAt ('<' :: '/' :: s) = .endTag := rfl

theorem constructAt_comment (s : List Char) : constructAt ("<!--".toList ++ s) = .comment := rfl

/-- A text goes up to the next bracket. -/
theorem read_text (s : String) (p : Position) {rest : List Char}
    (hrest : ∀ x ∈ rest.head?, x = '<') :
    ∃ p', Construct.text.read ⟨escape false s ++ rest, p⟩ = (.ok (some (.text s)), ⟨rest, p'⟩) := by
  have hplain : ∀ x ∈ escape false s, decide (x ≠ '<') = true := fun x hx =>
    decide_eq_true (mem_escape hx).1
  have hstop : ∀ x ∈ rest.head?, decide (x ≠ '<') = false := fun x hx => by simp [hrest x hx]
  obtain ⟨htake, hdrop⟩ := takeWhile_dropWhile_append hplain hstop
  simp only [Construct.read, htake, hdrop, Entity.decode_escape, String.ofList_toList,
    Cursor.behind]
  exact ⟨_, rfl⟩

theorem read_comment {s : String} (h : ¬ "-->".toList <:+: s.toList) (p : Position)
    (rest : List Char) :
    ∃ p', Construct.comment.read ⟨s.toList ++ ("-->".toList ++ rest), p⟩ =
      (.ok (some (.comment s)), ⟨rest, p'⟩) := by
  simp only [Construct.read, Cursor.takeUntil, cutAt?_comment h, Cursor.behind, Except.map,
    String.ofList_toList]
  exact ⟨_, rfl⟩

namespace Tokenizer

/-- A construct is read behind its lead. -/
theorem next_of_read {k : Construct} {lead s : List Char} {p : Position} {token : Token}
    {c : Cursor} (hne : lead ++ s ≠ []) (hk : constructAt (lead ++ s) = k)
    (hlead : k.lead = lead.length) (h : k.read ⟨s, p.after lead⟩ = (.ok (some token), c))
    (q : Position) : next ⟨⟨lead ++ s, p⟩, q⟩ = (.ok (some token), ⟨c, p⟩) := by
  have hskip : (⟨lead ++ s, p⟩ : Cursor).skip lead.length = ⟨s, p.after lead⟩ := by
    rw [Cursor.skip, Cursor.behind, List.take_left, List.drop_left]
  have hread : (constructAt (lead ++ s)).read
      ((⟨lead ++ s, p⟩ : Cursor).skip (constructAt (lead ++ s)).lead) =
        (.ok (some token), c) := by
    rw [hk, hlead, hskip, h]
  rw [next.eq_def, dif_neg hne]
  simp only
  split
  · next hr => cases hread.symm.trans hr
  · next hr =>
    cases hread.symm.trans hr
    rfl
  · next hr => cases hread.symm.trans hr

/-- A token that is written is the next one, and reading goes on behind it. -/
theorem next_written {token : Token} (hwritable : token.Writable) (p q : Position)
    {rest : List Char} (hrest : token.isText = true → ∀ x ∈ rest.head?, x = '<') :
    ∃ c, next ⟨⟨token.written ++ rest, p⟩, q⟩ = (.ok (some token), ⟨c, p⟩) ∧ c.rest = rest := by
  cases token with
  | startTag name attributes selfClosing =>
    obtain ⟨hname, hattributes, hnodup⟩ := hwritable
    obtain ⟨first, more, hlist, hfirst, -⟩ := id hname
    obtain ⟨p', hread⟩ := readStartTag_written selfClosing hname hattributes hnodup
      (p.after ['<']) rest
    refine ⟨⟨rest, p'⟩, ?_, rfl⟩
    have hk := constructAt_startTag hfirst
      (more ++ (attributes.flatMap writtenAttribute ++ (tagEnd selfClosing ++ rest)))
    rw [← List.cons_append, ← hlist] at hk
    have hwhole : (Token.startTag name attributes selfClosing).written ++ rest =
        ['<'] ++ (name.toList ++
          (attributes.flatMap writtenAttribute ++ (tagEnd selfClosing ++ rest))) := by
      simp only [Token.written, List.cons_append, List.append_assoc, List.nil_append]
    rw [hwhole]
    exact next_of_read (List.cons_ne_nil _ _) hk rfl
      (by simp only [Construct.read, hread, Except.map]) q
  | endTag name =>
    obtain ⟨p', hread⟩ := readEndTag_written hwritable (p.after ['<', '/']) rest
    refine ⟨⟨rest, p'⟩, ?_, rfl⟩
    have hwhole : (Token.endTag name).written ++ rest =
        ['<', '/'] ++ (name.toList ++ '>' :: rest) := by
      simp only [Token.written, List.cons_append, List.append_assoc, List.nil_append]
    rw [hwhole]
    exact next_of_read (List.cons_ne_nil _ _) (constructAt_endTag _) rfl
      (by simp only [Construct.read, hread, Except.map]) q
  | text s =>
    obtain ⟨p', hread⟩ := read_text s p (hrest rfl)
    refine ⟨⟨rest, p'⟩, ?_, rfl⟩
    obtain ⟨x, more, hwritten⟩ := List.exists_cons_of_ne_nil (escape_ne_nil false hwritable)
    have hx : x ∈ escape false s := hwritten ▸ List.mem_cons_self
    have hk : constructAt ([] ++ (escape false s ++ rest)) = .text := by
      refine constructAt_text fun y hy => ?_
      rw [hwritten] at hy
      obtain rfl : x = y := by simpa using hy
      exact (mem_escape hx).1
    exact next_of_read (by simp [hwritten]) hk rfl hread q
  | comment s =>
    obtain ⟨p', hread⟩ := read_comment hwritable (p.after "<!--".toList) rest
    refine ⟨⟨rest, p'⟩, ?_, rfl⟩
    have hwhole : (Token.comment s).written ++ rest =
        "<!--".toList ++ (s.toList ++ ("-->".toList ++ rest)) := by
      simp only [Token.written, List.append_assoc]
    rw [hwhole]
    exact next_of_read (List.cons_ne_nil _ _) (constructAt_comment _) rfl hread q

theorem stream_nil (p q : Position) : stream ⟨⟨[], p⟩, q⟩ = ⟨[], none⟩ := by
  have hnext : next ⟨⟨[], p⟩, q⟩ = (.ok none, ⟨⟨[], p⟩, q⟩) := by rw [next, dif_pos rfl]
  rw [stream.eq_def]
  split
  · next h => cases hnext.symm.trans h
  · rfl
  · next h => cases hnext.symm.trans h

theorem stream_of_next {t t' : Tokenizer} {token : Token}
    (hnext : t.next = (.ok (some token), t')) :
    t.stream = ⟨(t'.tokenStart, token) :: t'.stream.items, t'.stream.failure⟩ := by
  rw [stream.eq_def]
  split
  · next h => cases hnext.symm.trans h
  · next h => cases hnext.symm.trans h
  · next h =>
    cases hnext.symm.trans h
    rfl

end Tokenizer

/-- A token that is no text begins with a bracket. -/
theorem Token.head?_written {token : Token} (h : token.isText = false) (rest : List Char) :
    (token.written ++ rest).head? = some '<' := by
  cases token with
  | text s => cases h
  | _ => rfl

/-- Markup that is written is read to its end, token by token: behind a text the next
token begins with a bracket, which ends the text. -/
theorem Tokenizer.stream_written : ∀ (tokens : List Token) (p q : Position),
    (∀ t ∈ tokens, t.Writable) →
    tokens.IsChain (fun a b => ¬ (a.isText = true ∧ b.isText = true)) →
    (stream ⟨⟨tokens.flatMap Token.written, p⟩, q⟩).failure = none ∧
      (stream ⟨⟨tokens.flatMap Token.written, p⟩, q⟩).items.map (·.2) = tokens
  | [], p, q, _, _ => by
    rw [List.flatMap_nil, stream_nil]
    exact ⟨rfl, rfl⟩
  | token :: tokens, p, q, hwritable, hapart => by
    have hrest : token.isText = true → ∀ x ∈ (tokens.flatMap Token.written).head?, x = '<' := by
      intro htext x hx
      cases tokens with
      | nil => exact absurd hx (by simp)
      | cons t tokens =>
        have hother : t.isText = false := by
          rw [Bool.eq_false_iff]
          exact fun ht => (List.isChain_cons_cons.1 hapart).1 ⟨htext, ht⟩
        rw [List.flatMap_cons, Token.head?_written hother] at hx
        exact (Option.mem_some_iff.1 hx).symm
    obtain ⟨⟨_, p'⟩, hnext, rfl⟩ :=
      next_written (hwritable token List.mem_cons_self) p q hrest
    obtain ⟨hfailure, hitems⟩ := stream_written tokens p' p
      (fun t ht => hwritable t (List.mem_cons_of_mem _ ht)) hapart.tail
    rw [List.flatMap_cons, stream_of_next hnext]
    exact ⟨hfailure, by rw [List.map_cons, hitems]⟩

/-- Reading undoes writing. -/
theorem tokenize_rendered (tokens : List Token) (hwritable : ∀ t ∈ tokens, t.Writable)
    (hapart : tokens.IsChain fun a b => ¬ (a.isText = true ∧ b.isText = true)) :
    tokenize (rendered tokens) = .ok tokens := by
  obtain ⟨hfailure, hitems⟩ := Tokenizer.stream_written tokens .start .start hwritable hapart
  rw [tokenize, Tokenizer.ofString, rendered, String.toList_ofList]
  simp only [hfailure, hitems]

theorem tokenize_rendered_references :
    let tokens : List Token :=
      [.startTag "p" [("title", "a<b && \"c\" &amp;"), ("data-x", "")] true, .text "&lt;<\">",
        .comment "a--", .comment "", .endTag "h1"]
    (∀ t ∈ tokens, t.Writable) ∧
      (tokens.IsChain fun a b => ¬ (a.isText = true ∧ b.isText = true)) ∧
      tokenize (rendered tokens) = .ok tokens := by
  have hp : IsPlainName "p" := isPlainName_of_all rfl (by decide +kernel)
  have htitle : IsPlainName "title" := isPlainName_of_all rfl (by decide +kernel)
  have hdata : IsPlainName "data-x" := isPlainName_of_all rfl (by decide +kernel)
  have hh : IsPlainName "h1" := isPlainName_of_all rfl (by decide +kernel)
  intro tokens
  have hwritable : ∀ t ∈ tokens, t.Writable := by
    simp only [tokens, List.forall_mem_cons, Token.Writable]
    exact ⟨⟨hp, ⟨htitle, hdata, by simp⟩, by decide⟩, by decide, by decide, by decide, hh,
      by simp⟩
  have hapart : tokens.IsChain fun a b => ¬ (a.isText = true ∧ b.isText = true) := by
    simp [tokens, Token.isText]
  exact ⟨hwritable, hapart, tokenize_rendered tokens hwritable hapart⟩

end RichText.Markup
