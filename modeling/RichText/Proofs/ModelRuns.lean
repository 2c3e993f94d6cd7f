/-
# What a text model holds and tells

Whatever is done with a text model, in whatever order, comes to a history that the
operations alone decide: someone begins to listen, a document is built or cannot be
built, or the content is changed from outside (`history`). The model then holds the
last document that was built, or the one without content, and every listener hears
once of each build and of each change from outside that comes after it, and of
nothing else (`document_and_notices`).

A source whose reading fails, or whose bytes are no text, is a build that fails
(`readSource_of_failure`, `readSource_of_no_text`); any other is one of its text.

The documents are numbered, each tree of styles by its own number, so what a build
yields depends on how many there were before.

Key definitions: `HtmlModel.Operation`, `HtmlModel.perform`, `HtmlModel.run`,
`HtmlModel.Entry`, `HtmlModel.history`.
Key theorems: `HtmlModel.perform_eq`, `HtmlModel.run_eq`,
`HtmlModel.document_and_notices`.
-/
import RichText.Proofs.Decoding
import RichText.TextModel.Html

namespace RichText

/-! ### Sources -/

section Sources

open Markup Text

variable {source : ByteSource}

theorem readSource_of_failure {fault : ReadFault} (h : source.failure = some fault) :
    readSource source = .error (.read fault) := by
  rw [readSource, ByteSource.text, h]

theorem readSource_of_text (hf : source.failure = none) {s : String}
    (hs : source.bytes = s.toUTF8.toList) : readSource source = .ok s := by
  have hdecode := (Utf8.decode_eq_some_iff _ s.toList).2 (hs.trans (Utf8.toList_toUTF8 s))
  simp only [readSource, ByteSource.text, hf, hdecode, String.ofList_toList]

/-- Bytes that are no text are a fault of reading. -/
theorem readSource_of_no_text (hf : source.failure = none)
    (h : ∀ s : String, source.bytes ≠ s.toUTF8.toList) :
    readSource source = .error (.read .invalidText) := by
  have hdecode : ∀ chars, Utf8.decode [] source.bytes ≠ some (chars, []) := by
    intro chars hchars
    refine h (String.ofList chars) ?_
    rw [(Utf8.decode_eq_some_iff _ _).1 hchars, Utf8.toList_toUTF8, String.toList_ofList]
  have htext : source.text = .error .invalidText := by
    rw [ByteSource.text, hf]
    dsimp only
    split
    · next chars hchars => exact absurd hchars (hdecode chars)
    · rfl
  rw [readSource, htext]

end Sources

namespace HtmlModel

/-! ### Operations -/

/-- What can be done with a model. -/
inductive Operation where
  | listen
  | setHtml (html : String)
  | parse (source : String)
  | read (source : ByteSource)
  | modified

/-- What comes of an operation for the one who asked and for the listeners. -/
structure Answer where
  result : Except DocumentError Unit
  notices : List Notice

def perform (m : HtmlModel) : Operation → Update DocumentError HtmlModel
  | .listen => ⟨.ok (), [], m.listen⟩
  | .setHtml html => m.setHtml html
  | .parse source => m.parse source
  | .read source => m.read source
  | .modified => ⟨.ok (), m.modified, m⟩

/-- The model behind operations, and the answer to each. -/
def run (m : HtmlModel) : List Operation → HtmlModel × List Answer
  | [] => (m, [])
  | operation :: operations =>
    let done := m.perform operation
    let rest := done.model.run operations
    (rest.1, ⟨done.result, done.notices⟩ :: rest.2)

/-! ### Histories -/

/-- What has happened to a model. -/
inductive Entry where
  /-- Someone listens from now on. -/
  | listened
  /-- A document has been built, or could not be. -/
  | built (result : Except DocumentError Document)
  | modified

namespace Entry

/-- The document that has been built. -/
def document? : Entry → Option Document
  | built (.ok document) => some document
  | _ => none

/-- What is heard of it: whether there is new content. -/
def committed? : Entry → Option Bool
  | listened => none
  | built (.ok _) => some true
  | built (.error _) => some false
  | modified => some true

/-- What the one who asked is told. -/
def result : Entry → Except DocumentError Unit
  | built (.error e) => .error e
  | _ => .ok ()

def isListened : Entry → Bool
  | listened => true
  | _ => false

/-- What `count` listeners are told, in their order. -/
def notices (e : Entry) (count : Nat) : List Notice :=
  e.committed?.elim [] fun committed => (List.range count).map fun listener => ⟨listener, committed⟩

end Entry

/-- What an operation comes to, where `number` is the number of the next document. -/
def Operation.entry (registry : Registry) (number : Nat) : Operation → Entry
  | listen => .listened
  | setHtml html => .built (Document.ofString number registry (wrapped html))
  | parse source => .built (Document.ofString number registry source)
  | read source =>
    .built (((Markup.readSource source).mapError .markup).bind (Document.ofString number registry))
  | modified => .modified

def history (registry : Registry) : (number : Nat) → List Operation → List Entry
  | _, [] => []
  | number, operation :: operations =>
    let entry := operation.entry registry number
    entry :: history registry (number + entry.document?.toList.length) operations

/-- The documents that have been built, in their order. -/
def documents (entries : List Entry) : List Document := entries.filterMap Entry.document?

/-! ### What is done -/

/-- The model behind an entry. -/
def Entry.model (m : HtmlModel) (e : Entry) : HtmlModel where
  registry := m.registry
  document := e.document?.getD m.document
  built := m.built + e.document?.toList.length
  listeners := ⟨m.listeners.count + e.isListened.toNat⟩

theorem commit_eq (m : HtmlModel) (made : Except DocumentError Document) :
    m.commit made =
      ⟨(Entry.built made).result, (Entry.built made).notices m.listeners.count,
        (Entry.built made).model m⟩ := by
  cases made <;> rfl

/-- An operation does what its entry says. -/
theorem perform_eq (m : HtmlModel) (operation : Operation) :
    let entry := operation.entry m.registry m.built
    m.perform operation = ⟨entry.result, entry.notices m.listeners.count, entry.model m⟩ := by
  cases operation with
  | listen => rfl
  | setHtml html => exact m.commit_eq _
  | parse source => exact m.commit_eq _
  | read source =>
    have hread : m.read source = m.commit
        (((Markup.readSource source).mapError .markup).bind (Document.ofString m.built m.registry)) := by
      unfold read
      cases Markup.readSource source <;> rfl
    exact hread.trans (m.commit_eq _)
  | modified => rfl

/-- The answers to the operations of a history, behind `count` listeners. -/
def answers : (count : Nat) → List Entry → List Answer
  | _, [] => []
  | count, e :: entries =>
    ⟨e.result, e.notices count⟩ :: answers (count + e.isListened.toNat) entries

/-- Operations do what their history says. -/
theorem run_eq : ∀ (operations : List Operation) (m : HtmlModel),
    m.run operations =
      let entries := history m.registry m.built operations
      (entries.foldl Entry.model m, answers m.listeners.count entries)
  | [], _ => rfl
  | operation :: operations, m => by
    simp only [run, m.perform_eq operation, run_eq operations]
    rfl

/-! ### What is held -/

theorem document_foldl : ∀ (entries : List Entry) (m : HtmlModel),
    (entries.foldl Entry.model m).document = (documents entries).getLast?.getD m.document
  | [], _ => rfl
  | e :: entries, m => by
    have hdocuments : documents (e :: entries) = e.document?.toList ++ documents entries := by
      cases h : e.document? <;> simp [documents, h]
    rw [List.foldl_cons, document_foldl entries, hdocuments, List.getLast?_append]
    cases (documents entries).getLast? with
    | some document => rfl
    | none =>
      show e.document?.getD m.document = _
      cases e.document? <;> rfl

/-- What comes later does not change what has happened. -/
theorem history_take (registry : Registry) : ∀ (operations : List Operation) (number i : Nat),
    history registry number (operations.take i) = (history registry number operations).take i
  | [], _, i => by rw [List.take_nil, history, List.take_nil]
  | _ :: _, _, 0 => rfl
  | _ :: operations, _, i + 1 => by
    rw [List.take_succ_cons, history, history, List.take_succ_cons, history_take registry operations]

/-- Each entry is that of an operation, behind the documents built before. -/
theorem getElem?_history (registry : Registry) : ∀ (operations : List Operation) (number i : Nat),
    (history registry number operations)[i]? = operations[i]?.map fun operation =>
      operation.entry registry
        (number + (documents ((history registry number operations).take i)).length)
  | [], _, _ => rfl
  | _ :: _, _, 0 => rfl
  | operation :: operations, number, i + 1 => by
    have hdocuments (e : Entry) (entries : List Entry) :
        (documents (e :: entries)).length =
          e.document?.toList.length + (documents entries).length := by
      cases h : e.document? <;> simp [documents, h, Nat.add_comm]
    rw [history, List.getElem?_cons_succ, getElem?_history registry operations,
      List.getElem?_cons_succ, List.take_succ_cons, hdocuments, Nat.add_assoc]

/-- The model after the first operations. -/
theorem model_run_take (m : HtmlModel) (operations : List Operation) (i : Nat) :
    (m.run (operations.take i)).1 =
      ((history m.registry m.built operations).take i).foldl Entry.model m := by
  rw [run_eq, history_take]

/-! ### What is heard -/

/-- What one listener is told. -/
def heardBy (listener : Nat) (answers : List Answer) : List Bool :=
  ((answers.flatMap (·.notices)).filter (·.listener = listener)).map (·.committed)

theorem heardBy_append (listener : Nat) (before after : List Answer) :
    heardBy listener (before ++ after) = heardBy listener before ++ heardBy listener after := by
  simp [heardBy]

/-- Of each entry every listener hears once, and no one else does. -/
theorem heardBy_singleton (listener count : Nat) (e : Entry) :
    heardBy listener [⟨e.result, e.notices count⟩] =
      if listener < count then e.committed?.toList else [] := by
  cases hcommitted : e.committed? with
  | none => simp [heardBy, Entry.notices, hcommitted]
  | some committed =>
    have hone : (List.range count).filter (fun l => l = listener) =
        if listener < count then [listener] else [] := by
      induction count with
      | zero => rfl
      | succ count ih =>
        rw [List.range_succ, List.filter_append, ih]
        grind
    simp only [heardBy, Entry.notices, hcommitted]
    simp [List.filter_map, Function.comp_def, hone]
    split <;> rfl

theorem Entry.countP_cons (e : Entry) (entries : List Entry) :
    (e :: entries).countP isListened = e.isListened.toNat + entries.countP isListened := by
  rw [List.countP_cons, Nat.add_comm]
  cases e.isListened <;> rfl

theorem answers_append : ∀ (before after : List Entry) (count : Nat),
    answers count (before ++ after) =
      answers count before ++ answers (count + before.countP Entry.isListened) after
  | [], _, _ => rfl
  | e :: before, after, count => by
    have hcount : count + e.isListened.toNat + before.countP Entry.isListened =
        count + (e :: before).countP Entry.isListened := by
      rw [Entry.countP_cons, Nat.add_assoc]
    rw [List.cons_append, answers, answers, answers_append before after, hcount, List.cons_append]

theorem getElem?_answers : ∀ (entries : List Entry) (count i : Nat),
    (answers count entries)[i]? = entries[i]?.map fun e =>
      ⟨e.result, e.notices (count + (entries.take i).countP Entry.isListened)⟩
  | [], _, _ => rfl
  | e :: entries, count, 0 => rfl
  | e :: entries, count, i + 1 => by
    rw [answers, List.getElem?_cons_succ, getElem?_answers entries, List.getElem?_cons_succ,
      List.take_succ_cons, Entry.countP_cons, Nat.add_assoc]

/-- Who listens hears of every entry. -/
theorem heardBy_of_lt {listener : Nat} : ∀ (entries : List Entry) {count : Nat},
    listener < count → heardBy listener (answers count entries) = entries.filterMap Entry.committed?
  | [], _, _ => rfl
  | e :: entries, count, h => by
    have hmore := heardBy_of_lt entries (Nat.lt_add_right e.isListened.toNat h)
    rw [answers, ← List.singleton_append, heardBy_append, heardBy_singleton, if_pos h, hmore]
    cases he : e.committed? <;> simp [he]

/-- Who listens only later hears of none. -/
theorem heardBy_of_le {listener : Nat} : ∀ (entries : List Entry) {count : Nat},
    count + entries.countP Entry.isListened ≤ listener → heardBy listener (answers count entries) = []
  | [], _, _ => rfl
  | e :: entries, count, h => by
    have hcount : count + e.isListened.toNat + entries.countP Entry.isListened ≤ listener := by
      rwa [Nat.add_assoc, ← Entry.countP_cons]
    rw [answers, ← List.singleton_append, heardBy_append, heardBy_singleton,
      heardBy_of_le entries hcount, if_neg (by omega)]
    rfl

/-- Who begins to listen hears of nothing before and of everything from then on. -/
theorem heardBy_from (before after : List Entry) :
    heardBy (before.countP Entry.isListened) (answers 0 (before ++ .listened :: after)) =
      after.filterMap Entry.committed? := by
  have hnothing := heardBy_of_le before
    (Nat.le_of_eq (Nat.zero_add (before.countP Entry.isListened)))
  have hall := heardBy_of_lt after (Nat.lt_succ_self (before.countP Entry.isListened))
  have hstart : answers (before.countP Entry.isListened) (.listened :: after) =
      ⟨.ok (), []⟩ :: answers (before.countP Entry.isListened).succ after := rfl
  rw [answers_append, Nat.zero_add, heardBy_append, hnothing, List.nil_append, hstart,
    ← List.singleton_append, heardBy_append, hall]
  rfl

/-- **Documents and notices.** Behind whatever has been done with a model, it holds the
last document that was built, or the one without content; an attempt that failed has
changed nothing. A source that fails, or whose bytes are no text, is such an attempt; from
any other its text is built. Each operation tells all who listen by then, in the order in
which they came; so who begins to listen hears once of every build that follows, and
whether it succeeded, and of every change from outside, and of nothing else. -/
theorem document_and_notices (registry : Registry) (operations : List Operation) :
    let done := (new registry).run operations
    let entries := history registry 1 operations
    done.1.document = (documents entries).getLast?.getD (.empty 0 registry) ∧
    (∀ (i : Nat) (e : DocumentError), entries[i]? = some (.built (.error e)) →
      ((new registry).run (operations.take (i + 1))).1 =
        ((new registry).run (operations.take i)).1) ∧
    (∀ (i : Nat) (source : ByteSource), operations[i]? = some (.read source) →
      (∀ fault, source.failure = some fault →
        entries[i]? = some (.built (.error (.markup (.read fault))))) ∧
      (source.failure = none → (∀ s : String, source.bytes ≠ s.toUTF8.toList) →
        entries[i]? = some (.built (.error (.markup (.read .invalidText))))) ∧
      ∀ s : String, source.failure = none → source.bytes = s.toUTF8.toList →
        entries[i]? = some ((Operation.parse s).entry registry
          (1 + (documents (entries.take i)).length))) ∧
    (∀ i : Nat, done.2[i]? = entries[i]?.map fun e =>
      ⟨e.result, e.notices ((entries.take i).countP Entry.isListened)⟩) ∧
    ∀ i : Nat, entries[i]? = some .listened →
      heardBy ((entries.take i).countP Entry.isListened) done.2 =
        (entries.drop (i + 1)).filterMap Entry.committed? := by
  intro done entries
  have hdone : done = (entries.foldl Entry.model (new registry), answers 0 entries) :=
    run_eq operations (new registry)
  refine ⟨?_, ?_, fun i source hread => ?_, ?_, ?_⟩
  · rw [hdone]
    exact document_foldl entries (new registry)
  · intro i e he
    have hbuilt : entries.take (i + 1) = entries.take i ++ [.built (.error e)] := by
      rw [List.take_add_one, he, Option.toList_some]
    rw [model_run_take, model_run_take]
    show (entries.take (i + 1)).foldl Entry.model (new registry) = _
    rw [hbuilt, List.foldl_append]
    rfl
  · have hentry : entries[i]? = some ((Operation.read source).entry registry
        (1 + (documents (entries.take i)).length)) := by
      rw [show entries[i]? = _ from getElem?_history registry operations 1 i, hread]
      rfl
    rw [hentry]
    refine ⟨fun fault hfault => ?_, fun hf hbytes => ?_, fun s hf hs => ?_⟩
    · simp only [Operation.entry, readSource_of_failure hfault]
      rfl
    · simp only [Operation.entry, readSource_of_no_text hf hbytes]
      rfl
    · simp only [Operation.entry, readSource_of_text hf hs]
      rfl
  · intro i
    rw [hdone, getElem?_answers]
    simp
  · intro i hlistened
    have hi : i < entries.length := (List.getElem?_eq_some_iff.mp hlistened).1
    have hsplit : entries = entries.take i ++ (.listened :: entries.drop (i + 1)) := by
      rw [← (List.getElem?_eq_some_iff.mp hlistened).2, ← List.drop_eq_getElem_cons hi,
        List.take_append_drop]
    have hheard := heardBy_from (entries.take i) (entries.drop (i + 1))
    rw [← hsplit] at hheard
    rwa [hdone]

end HtmlModel
end RichText
