/-
# Stylesheets read piece by piece

A source hands out its bytes in pieces that may be cut anywhere, and may be
interrupted in between. If the bytes are a text, the stream of characters is
that text however it is cut (`characters_eq_iff`), so a scanner gives the same
answers. If they are not, there is a fault somewhere in the stream. Whoever
reads a stylesheet to its end meets every item of the stream, and a scan that
comes to a token has met characters only (`Scanner.took_scan`), so the fault
would have been met: bytes that are no text are never a stylesheet.

Key definitions: `Sheet.Scanner.Took`, `Sheet.Scanner.answers`.
Key theorems: `ByteSource.characters_eq_iff`, `Sheet.Scanner.took_scan`,
`Sheet.exists_text_of_parse`, `Sheet.reading_in_pieces`.
-/
import RichText.Proofs.Decoding
import RichText.Proofs.Derivation

namespace RichText

open Text

/-! ### Streams -/

/-- Bytes that are invalid once are never characters again. -/
theorem fault_mem_streamItems : ∀ deliveries : List Delivery,
    StreamItem.fault .invalidStylesheet ∈ streamItems false none deliveries
  | [] => by simp [streamItems]
  | .interrupted :: rest => fault_mem_streamItems rest
  | .bytes first more :: rest => by simp [streamItems]

theorem not_mem_map_char (f : ReadFault) (cs : List Char) :
    StreamItem.fault f ∉ cs.map StreamItem.char := by
  simp

theorem map_char_inj {cs ds : List Char} (h : cs.map StreamItem.char = ds.map .char) : cs = ds :=
  (List.map_inj_right fun _ _ => StreamItem.char.inj).1 h

/-- The bytes of deliveries, one after the other. -/
def delivered (deliveries : List Delivery) : List UInt8 := (ByteSource.mk deliveries none).bytes

theorem delivered_bytes (first : UInt8) (more : List UInt8) (rest : List Delivery) :
    delivered (.bytes first more :: rest) = (first :: more) ++ delivered rest := rfl

/-- The items of a stream are the characters of a text just when the bytes are
decoded to it, wherever they are cut. -/
theorem streamItems_eq_iff : ∀ (deliveries : List Delivery) (seen : List UInt8) (cs : List Char),
    streamItems false (some seen) deliveries = cs.map .char ↔
      Utf8.decode seen (delivered deliveries) = some (cs, [])
  | [], seen, cs => by
    cases cs <;> cases seen <;> simp [streamItems, delivered, ByteSource.bytes, Utf8.decode]
  | .interrupted :: rest, seen, cs => streamItems_eq_iff rest seen cs
  | .bytes first more :: rest, seen, cs => by
    rw [delivered_bytes, Utf8.decode_append, streamItems]
    cases hd : Utf8.decode seen (first :: more) with
    | none =>
      have hne : StreamItem.fault .invalidStylesheet :: streamItems false none rest ≠
          cs.map .char := fun h => not_mem_map_char .invalidStylesheet cs (h ▸ List.mem_cons_self)
      simpa [hd] using hne
    | some result =>
      obtain ⟨front, seen'⟩ := result
      have ih := streamItems_eq_iff rest seen'
      simp only [Option.bind_some, hd]
      constructor
      · intro h
        obtain ⟨front', cs', rfl, hfront, hcs'⟩ := List.map_eq_append_iff.1 h.symm
        obtain rfl : front' = front := map_char_inj hfront
        simp [(ih cs').1 hcs'.symm]
      · intro h
        obtain ⟨⟨cs', left⟩, hcs', hresult⟩ := Option.map_eq_some_iff.1 h
        obtain ⟨rfl, rfl⟩ : front ++ cs' = cs ∧ left = [] := by simpa using hresult
        rw [List.map_append, (ih cs').2 hcs']

namespace Sheet.Scanner

/-! ### What a token takes -/

/-- The scanner `s` came to `t` by taking characters off a stream, and nothing
else, and to the end of the input only at the end of the stream. -/
structure Took (input : CharStream) (t : Token) (s : Scanner) : Prop where
  failure : s.input.failure = input.failure
  items : ∃ cs : List Char, input.items = cs.map .char ++ s.input.items
  ended : t = .endOfInput → s.input.items = [] ∧ input.failure = none

variable {s s' : Scanner} {items : List StreamItem} {t : Token}

theorem Took.cons {f : Option ReadFault} (h : Took ⟨items, f⟩ t s) (c : Char) :
    Took ⟨.char c :: items, f⟩ t s := by
  obtain ⟨cs, hcs⟩ := h.items
  exact ⟨h.failure, ⟨c :: cs, congrArg (List.cons (.char c)) hcs⟩, h.ended⟩

/-- A token that leaves all there is. -/
theorem took_leaving {found : Token} (hfound : found ≠ .endOfInput)
    (h : ((.ok found : Except ParseError Token), s.leaving items) = (.ok t, s')) :
    Took ⟨items, s.input.failure⟩ t s' := by
  obtain ⟨rfl, rfl⟩ : found = t ∧ s.leaving items = s' := by simpa using h
  exact ⟨rfl, ⟨[], rfl⟩, fun h => absurd h hfound⟩

theorem took_atEnd {inComment : Bool} (h : s.atEnd inComment = (.ok t, s')) :
    Took ⟨[], s.input.failure⟩ t s' := by
  have hitems := s.atEnd_items inComment
  rw [h] at hitems
  have hfailure : s'.input.failure = s.input.failure ∧ s.input.failure = none := by
    unfold atEnd at h
    split at h
    · simp at h
    · next hf =>
      split at h
      · simp at h
      · split at h
        · simp at h
        · simp at h
        · obtain ⟨-, rfl⟩ : _ ∧ _ = s' := by simpa using h
          exact ⟨rfl, hf⟩
  exact ⟨hfailure.1, ⟨[], hitems.symm⟩, fun _ => ⟨hitems, hfailure.2⟩⟩

theorem took_readName (h : s.readName items = (.ok t, s')) :
    Took ⟨items, s.input.failure⟩ t s' := by
  fun_induction readName s items with
  | case1 => simp at h
  | case2 => exact (took_leaving (by simp) h :)
  | case3 => simp at h
  | case4 _ _ _ _ ih => exact (ih h).cons _
  | case5 => exact (took_leaving (by simp) h :)

theorem took_punctuation {c : Char} (h : (s.leaving items).punctuation c = (.ok t, s')) :
    Took ⟨items, s.input.failure⟩ t s' := by
  have hinput : s'.input = ⟨items, s.input.failure⟩ ∧ t ≠ .endOfInput := by
    unfold punctuation at h
    split at h
    all_goals
      simp only [Prod.mk.injEq, Except.ok.injEq, reduceCtorEq, false_and] at h
    all_goals
      obtain ⟨rfl, rfl⟩ := h
      simp [leaving]
  rw [← hinput.1]
  exact ⟨rfl, ⟨[], rfl⟩, fun h => absurd h hinput.2⟩

theorem took_scan {inComment : Bool} (h : s.scan inComment items = (.ok t, s')) :
    Took ⟨items, s.input.failure⟩ t s' := by
  fun_induction scan inComment s items with
  | case1 inComment => cases inComment <;> exact (took_atEnd h :)
  | case3 _ _ ih => exact ((ih h).cons '/').cons '*'
  | case5 | case6 => exact (took_leaving (by simp) h :).cons _
  | case13 => exact (took_readName h :).cons _
  | case14 => rename_i ih; exact ((ih h).cons '*').cons '/'
  | case17 | case19 => exact (took_punctuation h :).cons _
  | case4 | case7 | case8 | case9 | case10 | case11 | case12 | case18 =>
    rename_i ih
    exact (ih h).cons _
  | case2 | case15 | case16 => simp at h

theorem took_next (h : s.next = (.ok t, s')) : Took s.input t s' := by
  unfold next at h
  split at h
  · next token s₁ hscan =>
    obtain ⟨rfl, rfl⟩ : token = t ∧ { s₁ with last := token } = s' := by simpa using h
    have htook := took_scan hscan
    exact ⟨htook.failure, htook.items, htook.ended⟩
  · simp at h

/-- Lexemes that come to the end of the input were read off a text. -/
theorem exists_text_of_lexemes {read : List Lexeme} {position : Position}
    (h : s.lexemes = (Lexemes.ended position).behind read) :
    ∃ cs : List Char, s.input = ⟨cs.map .char, none⟩ := by
  fun_induction lexemes s generalizing read with
  | case1 => cases read <;> simp at h
  | case2 s s' hnext =>
    have htook := took_next hnext
    obtain ⟨hitems, hfailure⟩ := htook.ended rfl
    obtain ⟨cs, hcs⟩ := htook.items
    rw [hitems, List.append_nil] at hcs
    exact ⟨cs, by rw [← hcs, ← hfailure]⟩
  | case3 s t s' hnext _ _ ih =>
    cases read with
    | nil => simp at h
    | cons l read =>
      obtain ⟨more, hmore⟩ := ih (Lexemes.next.inj h).2
      have htook := took_next hnext
      obtain ⟨cs, hcs⟩ := htook.items
      have hfailure : s.input.failure = none := by rw [← htook.failure, hmore]
      rw [hmore, ← List.map_append] at hcs
      exact ⟨cs ++ more, by rw [← hcs, ← hfailure]⟩

/-! ### What a scanner answers -/

/-- What is seen of a scanner when it was asked for a token. -/
structure Answer where
  result : Except ParseError Token
  text : String
  value : String
  mode : Mode
  sawBlank : Bool
  /-- Where the token begins. -/
  position : Position

def answer (s : Scanner) (result : Except ParseError Token) : Answer :=
  ⟨result, s.text, s.value, s.mode, s.sawBlank, s.tokenStart⟩

/-- The answers to all questions, up to the end of the input or the first error. -/
def answers (s : Scanner) : List Answer :=
  match h : s.next with
  | (.error e, s') => [s'.answer (.error e)]
  | (.ok token, s') =>
    if ht : token = .endOfInput then [s'.answer (.ok token)]
    else
      have := next_length_lt h ht
      s'.answer (.ok token) :: s'.answers
termination_by s.input.items.length

end Sheet.Scanner

/-! ### Sources -/

/-- The characters of a source that does not fail are a text just when its bytes
are that text. -/
theorem ByteSource.characters_eq_iff {source : ByteSource} (hf : source.failure = none)
    (cs : List Char) :
    source.characters = ⟨cs.map .char, none⟩ ↔ source.bytes = Utf8.encode cs := by
  have hbytes : source.bytes = delivered source.deliveries := rfl
  rw [hbytes, ← Utf8.decode_eq_some_iff, ← streamItems_eq_iff, characters, hf]
  simp

theorem ByteSource.characters_of_text {source : ByteSource} (hf : source.failure = none)
    {s : String} (hs : source.bytes = s.toUTF8.toList) : source.characters = .ofString s :=
  (characters_eq_iff hf s.toList).2 (hs.trans (Utf8.toList_toUTF8 s))

theorem delivered_deliver (size : Nat) : ∀ bytes : List UInt8,
    delivered (ByteSource.deliver size bytes) = bytes
  | [] => by simp [ByteSource.deliver, delivered, ByteSource.bytes]
  | b :: bytes => by
    have ih := delivered_deliver size (bytes.drop (size - 1))
    rw [ByteSource.deliver, delivered_bytes, ih, List.cons_append, List.take_append_drop]
termination_by bytes => bytes.length
decreasing_by
  simp only [List.length_drop, List.length_cons]
  omega

theorem ByteSource.bytes_ofString (s : String) : (ByteSource.ofString s).bytes = s.toUTF8.toList :=
  delivered_deliver pieceSize s.toUTF8.toList

namespace Sheet

/-- A source that a stylesheet is read from hands out a text. -/
theorem exists_text_of_parse {source : ByteSource} {content : Content} (hf : source.failure = none)
    (h : parse source = .ok content) : ∃ s : String, source.bytes = s.toUTF8.toList := by
  obtain ⟨read, position, hread, -⟩ := stylesheet_sound h
  obtain ⟨cs, hcs⟩ := Scanner.exists_text_of_lexemes hread
  refine ⟨String.ofList cs, ?_⟩
  rw [Utf8.toList_toUTF8, String.toList_ofList]
  exact (ByteSource.characters_eq_iff hf cs).1 hcs

theorem ofSource_of_text {source : ByteSource} (hf : source.failure = none) {s : String}
    (hs : source.bytes = s.toUTF8.toList) : Scanner.ofSource source = .ofString s :=
  congrArg Scanner.ofStream (ByteSource.characters_of_text hf hs)

/-- A stylesheet that one source hands out is also the one that another hands out. -/
theorem parse_of_bytes_eq {a b : ByteSource} (ha : a.failure = none) (hb : b.failure = none)
    (hab : a.bytes = b.bytes) {content : Content} (h : parse a = .ok content) :
    parse b = .ok content := by
  obtain ⟨s, hs⟩ := exists_text_of_parse ha h
  unfold parse at h ⊢
  rwa [ofSource_of_text hb (hab ▸ hs), ← ofSource_of_text ha hs]

/-- However the bytes of a source are cut into pieces, and however often it is
interrupted, a scanner gives the answers of the text that the bytes are, and the
same stylesheet is read; none is read from bytes that are no text. -/
theorem reading_in_pieces {a b : ByteSource} (ha : a.failure = none) (hb : b.failure = none)
    (hab : a.bytes = b.bytes) :
    (∀ s : String, a.bytes = s.toUTF8.toList →
      (Scanner.ofSource a).answers = (Scanner.ofSource b).answers ∧
        (Scanner.ofSource a).answers = (Scanner.ofString s).answers) ∧
      (∀ content, parse a = .ok content ↔ parse b = .ok content) ∧
      ((∃ content, parse a = .ok content) → ∃ s : String, a.bytes = s.toUTF8.toList) := by
  refine ⟨fun s hs => ?_, fun content => ⟨?_, ?_⟩, fun ⟨_, h⟩ => exists_text_of_parse ha h⟩
  · rw [ofSource_of_text ha hs, ofSource_of_text hb (hab ▸ hs)]
    exact ⟨rfl, rfl⟩
  · exact parse_of_bytes_eq ha hb hab
  · exact parse_of_bytes_eq hb ha hab.symm

/-- `é{}`, cut inside the first character. -/
def cutInside : ByteSource :=
  ⟨[.bytes 0xc3 [], .interrupted, .bytes 0xa9 [0x7b], .bytes 0x7d []], none⟩

theorem reading_in_pieces_cutInside :
    cutInside.bytes = "é\x7b\x7d".toUTF8.toList ∧
      (Scanner.ofSource cutInside).answers = (Scanner.ofString "é\x7b\x7d").answers ∧
      (∀ content, parse cutInside = .ok content ↔
        parse ⟨[.bytes 0xc3 [0xa9, 0x7b], .bytes 0x7d []], none⟩ = .ok content) := by
  have hs : cutInside.bytes = "é\x7b\x7d".toUTF8.toList := by
    rw [Utf8.toList_toUTF8]
    decide
  have h := reading_in_pieces (a := cutInside)
    (b := ⟨[.bytes 0xc3 [0xa9, 0x7b], .bytes 0x7d []], none⟩) rfl rfl rfl
  exact ⟨hs, (h.1 _ hs).2, h.2.1⟩

end Sheet

end RichText
