/-
# Lists are read as they are written

An entry of a list is an item, in quotes of either kind or bare, with any blanks around
it, or blanks alone (`WritesEntry`). Commas stand between entries. An item in quotes goes
up to the quote that opened it, whatever stands between, commas and the other quote
included; a bare one goes up to the next comma, with whatever quotes it has inside. Either
way the entry is left at its comma, and the rest of the list is read from behind it
(`listItems_entry_append`). An entry of blanks alone gives no item.

Key definitions: `WritesItem`, `WritesEntry`, `WritesList`.
Key theorems: `listItems_entry`, `listItems_entry_append`, `reading_undoes_listing`.
-/
import RichText.Proofs.FontSources
import RichText.Proofs.Rendering

namespace RichText.Declaration

open Text
open Sheet (IsTrimmed trim_append trimStart_append trimStart_eq_self)

/-! ### What is written -/

/-- An item as it may be written: in quotes that it does not have itself, or bare. -/
inductive WritesItem (item : String) : List Char → Prop
  | quoted {q : Char} (hq : q = '"' ∨ q = '\'') (hne : item.toList ≠ []) (hfree : q ∉ item.toList) :
    WritesItem item (q :: (item.toList ++ [q]))
  | bare (hitem : IsBare item.toList) (htrim : IsTrimmed item.toList) : WritesItem item item.toList

/-- What stands between two commas, and the items that it gives: one or none. -/
inductive WritesEntry : List Char → List String → Prop
  | empty {text : List Char} (htext : ∀ c ∈ text, isBlank c = true) : WritesEntry text []
  | item {before written after : List Char} {item : String}
    (hbefore : ∀ c ∈ before, isBlank c = true) (hitem : WritesItem item written)
    (hafter : ∀ c ∈ after, isBlank c = true) : WritesEntry (before ++ (written ++ after)) [item]

/-- Entries with commas between them, and their items in order. -/
inductive WritesList : List Char → List String → Prop
  | last {text : List Char} {found : List String} (hentry : WritesEntry text found) :
    WritesList text found
  | next {text rest : List Char} {found items : List String} (hentry : WritesEntry text found)
    (hrest : WritesList rest items) : WritesList (text ++ ',' :: rest) (found ++ items)

/-! ### One entry -/

variable {whole : String} {item : List Char}

theorem withItem_toList {item : String} (h : item.toList ≠ []) (others : List String) :
    withItem item.toList others = item :: others := by
  rw [withItem, if_neg h, String.ofList_toList]

/-- A comma with nothing in front of it gives no item. -/
theorem listItems_comma (rest : List Char) :
    listItems whole (',' :: rest) = listItems whole (trimStart rest) := by
  have hnone : withItem (trim []) = id := rfl
  rw [listItems, if_neg (by decide)]
  split
  · next h => simp at h
  · next h =>
    obtain ⟨-, rfl⟩ : ',' = _ ∧ rest = _ := by simpa using h
    have htake : (',' :: rest).takeWhile (· ≠ ',') = [] := by simp
    rw [htake, hnone]
    cases listItems whole (trimStart rest) <;> rfl

/-- An item in quotes goes up to the closing one. Behind that the list ends or goes on with
a comma. -/
theorem listItems_quoted {q : Char} (hq : q = '"' ∨ q = '\'') (hfree : q ∉ item)
    (tail : List Char) :
    listItems whole (q :: (item ++ q :: tail)) =
      match trimStart tail with
      | [] => .ok (withItem item [])
      | ',' :: rest => (listItems whole (trimStart rest)).map (withItem item)
      | _ => .error (.malformed (.commaExpected whole)) := by
  have hcut : cutAt? [q] (item ++ q :: tail) = some (item, tail) := Markup.cutAt?_char hfree
  rw [listItems, if_pos hq]
  split
  · next h => exact absurd (h.symm.trans hcut) (by simp)
  · next h =>
    obtain ⟨rfl, rfl⟩ := Prod.mk.inj (Option.some.inj (h.symm.trans hcut))
    split <;> simp_all

theorem trimStart_blanks {text : List Char} (h : ∀ c ∈ text, isBlank c = true) :
    trimStart text = [] :=
  List.dropWhile_eq_nil_iff.2 h

theorem IsBare.append_blanks {after : List Char} (h : IsBare item)
    (hafter : ∀ c ∈ after, isBlank c = true) : IsBare (item ++ after) where
  nonempty := List.append_ne_nil_of_left_ne_nil h.nonempty after
  unquoted := by
    rw [List.head?_append_of_ne_nil item h.nonempty]
    exact h.unquoted
  whole := by
    intro c hc
    rcases List.mem_append.1 hc with hitem | hblank
    · exact h.whole c hitem
    · rintro rfl
      exact absurd (hafter ',' hblank) (by decide)

/-- What a bare item is with the blanks in front of it gone. -/
theorem trimStart_bare {before : List Char} (hbefore : ∀ c ∈ before, isBlank c = true)
    (hitem : IsBare item) (htrim : IsTrimmed item) (rest : List Char) :
    trimStart (before ++ (item ++ rest)) = item ++ rest := by
  rw [trimStart_append hbefore]
  refine trimStart_eq_self fun c hc => htrim.1 c ?_
  rwa [List.head?_append_of_ne_nil item hitem.nonempty] at hc

theorem trimStart_quoted {before : List Char} {q : Char}
    (hbefore : ∀ c ∈ before, isBlank c = true) (hq : q = '"' ∨ q = '\'') (rest : List Char) :
    trimStart (before ++ q :: rest) = q :: rest := by
  rw [trimStart_append hbefore, trimStart_of_not_blank]
  rcases hq with rfl | rfl <;> decide

theorem trim_item {after : List Char} (hafter : ∀ c ∈ after, isBlank c = true)
    (htrim : IsTrimmed item) : trim (item ++ after) = item :=
  trim_append (List.forall_mem_nil _) hafter htrim

/-- The last entry of a list gives its item. -/
theorem listItems_entry {text : List Char} {found : List String} (h : WritesEntry text found) :
    listItems whole (trimStart text) = .ok found := by
  cases h with
  | empty htext => rw [trimStart_blanks htext, listItems]
  | @item before written after item hbefore hitem hafter =>
    cases hitem with
    | @quoted q hq hne hfree =>
      have htext : before ++ (q :: (item.toList ++ [q]) ++ after) =
          before ++ q :: (item.toList ++ q :: after) := by
        simp
      rw [htext, trimStart_quoted hbefore hq, listItems_quoted hq hfree, trimStart_blanks hafter]
      exact congrArg Except.ok (withItem_toList hne [])
    | bare hbare htrim =>
      rw [trimStart_bare hbefore hbare htrim, listItems_last (hbare.append_blanks hafter),
        trim_item hafter htrim, withItem_toList hbare.nonempty]

/-- An entry gives its item, and the list goes on behind its comma. -/
theorem listItems_entry_append {text : List Char} {found : List String}
    (h : WritesEntry text found) (rest : List Char) :
    listItems whole (trimStart (text ++ ',' :: rest)) =
      (listItems whole (trimStart rest)).map (found ++ ·) := by
  have hcomma {blanks : List Char} (hblanks : ∀ c ∈ blanks, isBlank c = true) :
      trimStart (blanks ++ ',' :: rest) = ',' :: rest := by
    rw [trimStart_append hblanks, trimStart_of_not_blank (by decide)]
  cases h with
  | empty htext =>
    rw [hcomma htext, listItems_comma]
    cases listItems whole (trimStart rest) <;> rfl
  | @item before written after item hbefore hitem hafter =>
    have hwith (hne : item.toList ≠ []) : withItem item.toList = ([item] ++ ·) :=
      funext (withItem_toList hne)
    cases hitem with
    | @quoted q hq hne hfree =>
      have htext : before ++ (q :: (item.toList ++ [q]) ++ after) ++ ',' :: rest =
          before ++ q :: (item.toList ++ q :: (after ++ ',' :: rest)) := by
        simp
      rw [htext, trimStart_quoted hbefore hq, listItems_quoted hq hfree, hcomma hafter, ← hwith hne]
      rfl
    | bare hbare htrim =>
      have htext : before ++ (item.toList ++ after) ++ ',' :: rest =
          before ++ (item.toList ++ (after ++ ',' :: rest)) := by
        simp
      rw [htext, trimStart_bare hbefore hbare htrim, ← List.append_assoc,
        listItems_bare (hbare.append_blanks hafter), trim_item hafter htrim,
        hwith hbare.nonempty]

/-! ### The list -/

/-- A list gives exactly its items, in order, however each of them is written. -/
theorem reading_undoes_listing (value : String) (items : List String)
    (h : WritesList value.toList items) : readList value = .ok items := by
  suffices hall : ∀ {text : List Char} {items : List String}, WritesList text items →
      listItems value (trimStart text) = .ok items from hall h
  intro text items hlist
  induction hlist with
  | last hentry => exact listItems_entry hentry
  | next hentry _ ih =>
    rw [listItems_entry_append hentry, ih]
    rfl

/-- A comma inside of quotes, the other quote inside of quotes and of a bare item, empty
entries in front, between and behind. -/
theorem reading_undoes_listing_mixed :
    WritesList " , \"a, 'b' \" ,\n,'c \"d\"', it's e\t, ".toList
      ["a, 'b' ", "c \"d\"", "it's e"] ∧
    readList " , \"a, 'b' \" ,\n,'c \"d\"', it's e\t, " = .ok ["a, 'b' ", "c \"d\"", "it's e"] := by
  have hspace : ∀ c ∈ [' '], isBlank c = true := List.forall_mem_singleton.2 rfl
  have hnone : ∀ c ∈ [], isBlank c = true := List.forall_mem_nil _
  have hblank : WritesEntry [' '] [] := .empty hspace
  have hline : WritesEntry ['\n'] [] := .empty (List.forall_mem_singleton.2 rfl)
  have hfirst : WritesEntry ([' '] ++ ('"' :: ("a, 'b' ".toList ++ ['"']) ++ [' '])) ["a, 'b' "] :=
    .item hspace (.quoted (Or.inl rfl) (by simp) (by simp)) hspace
  have hsecond : WritesEntry ([] ++ ('\'' :: ("c \"d\"".toList ++ ['\'']) ++ [])) ["c \"d\""] :=
    .item hnone (.quoted (Or.inr rfl) (by simp) (by simp)) hnone
  have hthird : WritesEntry ([' '] ++ ("it's e".toList ++ ['\t'])) ["it's e"] :=
    .item hspace (.bare ⟨by simp, by simp, by simp⟩ ⟨by simp; rfl, by simp; rfl⟩)
      (List.forall_mem_singleton.2 rfl)
  have hlist : WritesList " , \"a, 'b' \" ,\n,'c \"d\"', it's e\t, ".toList
      ["a, 'b' ", "c \"d\"", "it's e"] :=
    .next hblank (.next hfirst (.next hline (.next hsecond (.next hthird (.last hblank)))))
  exact ⟨hlist, reading_undoes_listing _ _ hlist⟩

end RichText.Declaration
