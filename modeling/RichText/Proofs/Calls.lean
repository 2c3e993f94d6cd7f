/-
# Calls of a tokenizer, one after another

A call passes declarations and instructions, and then reads one construct, from which it
has its token or its error (`Tokenizer.next_eq`). Errors do not stop a tokenizer: whoever
goes on gets to the end of the text, for each call that answers takes at least one character
(`Tokenizer.exists_call_none`). The place of a token or an error is that of the first
character of the construct, by line and column of the whole text (`Position.after_start`),
however many errors there were before.

Key definitions: `Tokenizer.afterCalls`, `Tokenizer.Tiles`.
Key theorems: `Position.after_start`, `Tokenizer.next_eq`, `Tokenizer.tiles_stream`,
`Tokenizer.exists_call_none`, `Tokenizer.failure_stream_eq_none_iff`,
`Tokenizer.calls_advance`.
-/
import Mathlib.Data.List.Induction
import RichText.Proofs.Constructs

namespace RichText

/-- The line is one more than there are newlines, the column one more than there are
characters behind the last of them. -/
theorem Text.Position.after_start (s : List Char) :
    Position.start.after s =
      ⟨1 + s.count '\n', 1 + (s.reverse.takeWhile (· ≠ '\n')).length⟩ := by
  induction s using List.reverseRecOn with
  | nil => rfl
  | append_singleton s c ih =>
    rw [after_append, ih]
    by_cases hc : c = '\n'
    · simp [after, next, hc, Nat.add_assoc]
    · simp [after, next, hc, Nat.add_comm 1]

namespace Markup

open Text

theorem Cursor.Reaches.position_eq {c c' : Cursor} (h : Reaches c c') {passed : List Char}
    (hpassed : c.rest = passed ++ c'.rest) : c'.position = c.position.after passed := by
  obtain ⟨other, hother, hposition⟩ := h
  rwa [← List.append_cancel_right (hother.symm.trans hpassed)]

/-- What answers a call takes at least one character. -/
theorem Construct.Gives.ne_nil {k : Construct} {written rest : List Char}
    {answer : Except ParseError (Option Token)} (h : k.Gives written rest answer) :
    written ≠ [] := by
  by_cases hk : k = .text
  · subst hk
    cases h with
    | text hne => exact hne
    | marked hk => cases hk
    | unmarked hk => cases hk
    | broken hk => simp at hk
  · have hopening := opening_ne_nil hk
    cases h with
    | text => exact absurd rfl hk
    | _ => exact List.append_ne_nil_of_left_ne_nil hopening _

namespace Tokenizer

/-- The tokenizer after some calls, whatever they have answered. -/
def afterCalls (t : Tokenizer) : Nat → Tokenizer
  | 0 => t
  | n + 1 => t.next.2.afterCalls n

/-! ### One call -/

variable {t t' : Tokenizer} {answer : Except ParseError (Option Token)}

/-- A call passes what gives no token, and then it answers with what stands there, unless
nothing does. -/
theorem next_eq (h : t.next = (answer, t')) : ∃ silent written,
    t.cursor.rest = silent ++ (written ++ t'.cursor.rest) ∧
      Passed silent (written ++ t'.cursor.rest) ∧ Cursor.Reaches t.cursor t'.cursor ∧
      ((answer = .ok none ∧ written = [] ∧ t'.cursor.rest = []) ∨
        (answer ≠ .ok none ∧
          (constructAt (written ++ t'.cursor.rest)).Gives written t'.cursor.rest answer ∧
            t'.tokenStart = t.cursor.position.after silent)) := by
  -- One construct at the place where the call begins.
  have reads {t : Tokenizer} {answer : Except ParseError (Option Token)} {c : Cursor}
      (hne : t.cursor.rest ≠ []) (hr : (constructAt t.cursor.rest).read
        (t.cursor.skip (constructAt t.cursor.rest).lead) = (answer, c)) :
      Cursor.Reaches t.cursor c ∧ ∃ written, t.cursor.rest = written ++ c.rest ∧
        (constructAt (written ++ c.rest)).Gives written c.rest answer := by
    have hread := (constructAt t.cursor.rest).reaches_read
      (t.cursor.skip (constructAt t.cursor.rest).lead)
    rw [hr] at hread
    obtain ⟨written, hwritten, hgives⟩ := Construct.gives_read hne hr
    exact ⟨(t.cursor.reaches_skip _).trans hread, written, hwritten, hwritten ▸ hgives⟩
  fun_induction next t with
  | case1 t hnil =>
    obtain ⟨rfl, rfl⟩ := Prod.mk.inj h
    exact ⟨[], [], rfl, .nil _, .refl _, .inl ⟨rfl, rfl, hnil⟩⟩
  | case2 t hne start e c hr =>
    obtain ⟨rfl, rfl⟩ := Prod.mk.inj h
    obtain ⟨hreaches, written, hwritten, hgives⟩ := reads hne hr
    exact ⟨[], written, hwritten, .nil _, hreaches, .inr ⟨by simp, hgives, rfl⟩⟩
  | case3 t hne start token c hr =>
    obtain ⟨rfl, rfl⟩ := Prod.mk.inj h
    obtain ⟨hreaches, written, hwritten, hgives⟩ := reads hne hr
    exact ⟨[], written, hwritten, .nil _, hreaches, .inr ⟨by simp, hgives, rfl⟩⟩
  | case4 t hne start c hr _ ih =>
    obtain ⟨hreaches, first, hfirst, hgives⟩ := reads hne hr
    obtain ⟨silent, written, hrest, hpassed, hmore, hanswer⟩ := ih h
    simp only at hrest hmore hanswer
    have hwhole : t.cursor.rest = first ++ silent ++ (written ++ t'.cursor.rest) := by
      rw [hfirst, hrest, List.append_assoc]
    rw [hrest] at hgives
    refine ⟨first ++ silent, written, hwhole, .cons hgives hpassed, hreaches.trans hmore, ?_⟩
    rw [Position.after_append, ← hreaches.position_eq hfirst]
    exact hanswer

/-! ### A whole text -/

/-- The text is made of constructs, one behind the other, which give these tokens. -/
inductive Tiles : (text : List Char) → List Token → Prop
  | nil : Tiles [] []
  | cons {written rest : List Char} {found : Option Token} {tokens : List Token}
    (h : (constructAt (written ++ rest)).Gives written rest (.ok found))
    (more : Tiles rest tokens) : Tiles (written ++ rest) (found.toList ++ tokens)

theorem Tiles.of_passed {silent rest : List Char} {tokens : List Token} (h : Passed silent rest)
    (more : Tiles rest tokens) : Tiles (silent ++ rest) tokens := by
  induction h with
  | nil => exact more
  | cons h _ ih =>
    rw [List.append_assoc]
    exact .cons h (ih more)

/-- A text that is read as a whole is made of what gives its tokens. -/
theorem tiles_stream (t : Tokenizer) (h : t.stream.failure = none) :
    Tiles t.cursor.rest (t.stream.items.map (·.2)) := by
  fun_induction stream t with
  | case1 => cases h
  | case2 t t' hnext =>
    obtain ⟨silent, _, hrest, hpassed, -, ⟨-, rfl, hend⟩ | ⟨hanswer, -⟩⟩ := next_eq hnext
    · rw [hend, List.append_nil] at hrest hpassed
      exact hrest ▸ .of_passed hpassed .nil
    · exact absurd rfl hanswer
  | case3 t token t' hnext _ more ih =>
    obtain ⟨silent, written, hrest, hpassed, -, ⟨hnone, -⟩ | ⟨-, hgives, -⟩⟩ := next_eq hnext
    · cases hnone
    · exact hrest ▸ .of_passed hpassed (.cons hgives (ih h))

/-! ### Many calls -/

theorem reaches_afterCalls : ∀ (n : Nat) (t : Tokenizer),
    Cursor.Reaches t.cursor (t.afterCalls n).cursor
  | 0, t => .refl _
  | n + 1, t => by
    obtain ⟨-, -, -, -, hreaches, -⟩ := next_eq (t := t) rfl
    exact hreaches.trans (reaches_afterCalls n t.next.2)

/-- At the end of the text nothing changes. -/
theorem afterCalls_of_end (h : t.cursor.rest = []) : ∀ n : Nat, t.afterCalls n = t
  | 0 => rfl
  | n + 1 => by
    have hsame : t.next.2 = t := by rw [next, dif_pos h]
    rw [afterCalls, hsame, afterCalls_of_end h n]

theorem next_of_end (h : t.cursor.rest = []) : t.next = (.ok none, t) := by
  rw [next, dif_pos h]

/-- The text ends after as many calls as it has characters, or before. -/
theorem exists_call_none (t : Tokenizer) :
    ∃ n ≤ t.cursor.rest.length, (t.afterCalls n).next.1 = .ok none := by
  induction hlength : t.cursor.rest.length using Nat.strongRecOn generalizing t with
  | ind length ih =>
    by_cases hend : t.cursor.rest = []
    · exact ⟨0, Nat.zero_le _, congrArg Prod.fst (next_of_end hend)⟩
    · have hlt := length_next_lt hend
      obtain ⟨n, hn, hnone⟩ := ih _ (hlength ▸ hlt) t.next.2 rfl
      exact ⟨n + 1, by omega, hnone⟩

theorem afterCalls_succ (h : t.next = (answer, t')) (n : Nat) :
    t.afterCalls (n + 1) = t'.afterCalls n := by
  rw [afterCalls, h]

/-- Reading a whole text fails if a call does. -/
theorem failure_stream_eq_none_iff (t : Tokenizer) :
    t.stream.failure = none ↔ ∀ n e, (t.afterCalls n).next.1 ≠ .error e := by
  fun_induction stream t with
  | case1 t e t' hnext =>
    simp only [reduceCtorEq, false_iff, not_forall, not_not]
    exact ⟨0, e, congrArg Prod.fst hnext⟩
  | case2 t t' hnext =>
    obtain ⟨-, -, -, -, -, ⟨-, -, hend⟩ | ⟨hanswer, -⟩⟩ := next_eq hnext
    · simp only [true_iff]
      intro n e
      cases n with
      | zero => simp [afterCalls, hnext]
      | succ n =>
        rw [afterCalls_succ hnext, afterCalls_of_end hend, next_of_end hend]
        simp
    · exact absurd rfl hanswer
  | case3 t token t' hnext _ more ih =>
    rw [ih]
    constructor
    · intro h n e
      cases n with
      | zero => simp [afterCalls, hnext]
      | succ n => exact afterCalls_succ hnext n ▸ h n e
    · intro h n e
      exact afterCalls_succ hnext n ▸ h (n + 1) e

/-- The tokens of a whole text are those that the calls answer with, up to the one that has
none. -/
theorem answers_stream (t : Tokenizer) (h : t.stream.failure = none) :
    (t.afterCalls t.stream.items.length).next.1 = .ok none ∧
      ∀ n item, t.stream.items[n]? = some item → (t.afterCalls n).next.1 = .ok (some item.2) := by
  fun_induction stream t with
  | case1 => cases h
  | case2 t t' hnext => exact ⟨congrArg Prod.fst hnext, fun n item hitem => by simp at hitem⟩
  | case3 t token t' hnext _ more ih =>
    obtain ⟨hlast, hitems⟩ := ih h
    refine ⟨?_, fun n item hitem => ?_⟩
    · rw [List.length_cons, afterCalls_succ hnext]
      exact hlast
    · cases n with
      | zero =>
        obtain rfl : _ = item := by simpa using hitem
        exact congrArg Prod.fst hnext
      | succ n =>
        rw [afterCalls_succ hnext]
        exact hitems n item (by simpa using hitem)

/-- **Every call gets on, and says where.** Whatever the calls before have answered, a call
passes declarations and instructions, and then either nothing is left, or it answers with a
construct that takes at least one character and begins at the place it says. So there is
nothing left after as many calls as there are characters, and one more says so. A whole text
is read if no call has an error, and has then the tokens of the calls. -/
theorem calls_advance (s : String) :
    (∀ n, let t := (ofString s).afterCalls n
      ∃ before silent written rest,
        s.toList = before ++ t.cursor.rest ∧ t.cursor.rest = silent ++ (written ++ rest) ∧
          t.next.2.cursor.rest = rest ∧ Passed silent (written ++ rest) ∧
          ((t.next.1 = .ok none ∧ written = [] ∧ rest = []) ∨
            (t.next.1 ≠ .ok none ∧ written ≠ [] ∧
              (constructAt (written ++ rest)).Gives written rest t.next.1 ∧
              t.next.2.tokenStart = ⟨1 + (before ++ silent).count '\n',
                1 + ((before ++ silent).reverse.takeWhile (· ≠ '\n')).length⟩))) ∧
    (∃ n ≤ s.length, ((ofString s).afterCalls n).next.1 = .ok none) ∧
    ((∃ tokens, tokenize s = .ok tokens) ↔
      ∀ n e, ((ofString s).afterCalls n).next.1 ≠ .error e) ∧
    ∀ tokens, tokenize s = .ok tokens →
      ((ofString s).afterCalls tokens.length).next.1 = .ok none ∧
        ∀ n token, tokens[n]? = some token →
          ((ofString s).afterCalls n).next.1 = .ok (some token) := by
  have hstream {tokens : List Token} : tokenize s = .ok tokens ↔
      (ofString s).stream.failure = none ∧ (ofString s).stream.items.map (·.2) = tokens := by
    unfold tokenize
    dsimp only
    split
    · next e he => simp [he]
    · next hnone => simp [hnone]
  refine ⟨fun n => ?_, ?_, ?_, fun tokens htokens => ?_⟩
  · obtain ⟨before, hbefore, hposition⟩ := reaches_afterCalls n (ofString s)
    obtain ⟨silent, written, hrest, hpassed, -, hanswer⟩ :=
      next_eq (t := (ofString s).afterCalls n) rfl
    refine ⟨before, silent, written, _, hbefore, hrest, rfl, hpassed, ?_⟩
    rcases hanswer with hnone | ⟨hsome, hgives, hstart⟩
    · exact .inl hnone
    · refine .inr ⟨hsome, hgives.ne_nil, hgives, ?_⟩
      rw [hstart, hposition, ← Position.after_append]
      exact Position.after_start _
  · obtain ⟨n, hn, hnone⟩ := exists_call_none (ofString s)
    exact ⟨n, String.length_toList ▸ hn, hnone⟩
  · rw [← failure_stream_eq_none_iff]
    simp only [hstream, exists_and_left, exists_eq', and_true]
  · obtain ⟨hnone, rfl⟩ := hstream.1 htokens
    obtain ⟨hlast, hitems⟩ := answers_stream _ hnone
    refine ⟨by rwa [List.length_map], fun n token htoken => ?_⟩
    obtain ⟨item, hitem, rfl⟩ : ∃ item, (ofString s).stream.items[n]? = some item ∧
        item.2 = token := by simpa using htoken
    exact hitems n item hitem

/-- A tag without a name is an error, and what follows is read. -/
example :
    ((ofString "a<\n<b>").afterCalls 1).next.1 = .error (.malformed ⟨1, 3⟩ (.unexpected '\n')) ∧
      ((ofString "a<\n<b>").afterCalls 3).next.1 = .ok (some (.startTag "b" [] false)) ∧
      ((ofString "a<\n<b>").afterCalls 3).next.2.tokenStart = ⟨2, 1⟩ := by
  decide +kernel

end Tokenizer
end Markup
end RichText
