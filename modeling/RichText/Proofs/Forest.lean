/-
# Elements within elements

Only the element opened last is ever closed (`openAfter_items`), so what is read
of a text of markup is a forest: texts, and elements with a forest inside. Events
behind which some elements are still open are forests with a start tag between
one and the next (`Unclosed`). Whatever follows the start tag of an element comes
to the end of this element or is of that kind (`closes_or_unclosed`); so a stream
that ends well is a forest (`EventStream.exists_forest`).

Key definitions: `openAfter`, `EventStream.expand`, `Forest`, `Forest.events`,
`Unclosed`.
Key theorems: `EventStream.openAfter_items`, `closes_or_unclosed`,
`EventStream.exists_forest`.
-/
import RichText.Document.Event

namespace RichText

open Markup Text

/-! ### Nesting -/

/-- The elements open behind events, the innermost first, when those in `inside`
were open before. An element is closed only by its own name, and only if no other
was opened behind it. -/
def openAfter : (inside : List String) → List (Position × Event) → Option (List String)
  | inside, [] => some inside
  | inside, (_, .text _) :: events => openAfter inside events
  | inside, (_, .opened name _) :: events => openAfter (name :: inside) events
  | [], (_, .closed _) :: _ => none
  | inner :: inside, (_, .closed name) :: events =>
    if name = inner then openAfter inside events else none

theorem openAfter_append : ∀ (events more : List (Position × Event)) (inside : List String),
    openAfter inside (events ++ more) = (openAfter inside events).bind (openAfter · more)
  | [], _, _ => rfl
  | (_, .text _) :: events, more, inside => openAfter_append events more inside
  | (_, .opened name _) :: events, more, inside => openAfter_append events more (name :: inside)
  | (_, .closed _) :: _, _, [] => rfl
  | (_, .closed name) :: events, more, inner :: inside => by
    by_cases h : name = inner
    · simpa [openAfter, h] using openAfter_append events more inside
    · simp [openAfter, h]

/-- What is read before events that are nested is nested too. -/
theorem exists_openAfter_of_append {inside inside' : List String}
    {events more : List (Position × Event)} (h : openAfter inside (events ++ more) = some inside') :
    ∃ between, openAfter inside events = some between ∧ openAfter between more = some inside' := by
  rw [openAfter_append] at h
  exact Option.bind_eq_some_iff.1 h

namespace EventStream

/-- The events of one token. A tag that closes itself opens an element and closes
it. -/
def expand : Position × Token → List (Position × Event)
  | (p, .text s) => [(p, .text s)]
  | (_, .comment _) => []
  | (p, .startTag name attributes selfClosing) =>
    (p, .opened name attributes) :: if selfClosing then [(p, .closed name)] else []
  | (p, .endTag name) => [(p, .closed name)]

/-- The events are those of the tokens up to an end tag that closes nothing. -/
theorem items_prefix_expand (failure : Option ParseError) (inside : List String)
    (tokens : List (Position × Token)) :
    (ofTokens failure inside tokens).items <+: tokens.flatMap expand ∧
      ((ofTokens failure inside tokens).failure = none →
        (ofTokens failure inside tokens).items = tokens.flatMap expand) := by
  fun_induction ofTokens failure inside tokens with
  | case1 => exact ⟨List.prefix_refl _, fun _ => rfl⟩
  | case2 inside _ _ tokens ih => exact ih
  | case3 inside p s tokens ih =>
    refine ⟨(List.prefix_cons_inj _).2 ih.1, fun h => ?_⟩
    exact congrArg (List.cons (p, Event.text s)) (ih.2 h)
  | case4 inside p name attributes selfClosing tokens ihSelf ihOpen =>
    cases selfClosing with
    | true =>
      refine ⟨(List.prefix_cons_inj _).2 ((List.prefix_cons_inj _).2 ihSelf.1), fun h => ?_⟩
      exact congrArg (fun events => (p, Event.opened name attributes) :: (p, Event.closed name) ::
        events) (ihSelf.2 h)
    | false =>
      refine ⟨(List.prefix_cons_inj _).2 ihOpen.1, fun h => ?_⟩
      exact congrArg (List.cons (p, Event.opened name attributes)) (ihOpen.2 h)
  | case5 => exact ⟨List.nil_prefix, nofun⟩
  | case6 inside p name tokens ih =>
    refine ⟨(List.prefix_cons_inj _).2 ih.1, fun h => ?_⟩
    exact congrArg (List.cons (p, Event.closed name)) (ih.2 h)
  | case7 => exact ⟨List.nil_prefix, nofun⟩

/-- Events end well only if their tokens do. -/
theorem failure_of_ofTokens (failure : Option ParseError) (inside : List String)
    (tokens : List (Position × Token)) :
    (ofTokens failure inside tokens).failure = none → failure = none := by
  fun_induction ofTokens failure inside tokens with
  | case1 => cases failure <;> simp [endingOf]
  | case2 _ _ _ _ ih => exact ih
  | case3 _ _ _ _ ih => exact ih
  | case4 inside p name attributes selfClosing tokens ihSelf ihOpen =>
    cases selfClosing with
    | true => exact ihSelf
    | false => exact ihOpen
  | case5 => exact nofun
  | case6 _ _ _ _ ih => exact ih
  | case7 => exact nofun

/-- Only the element opened last is closed. At the end of the text none is open;
the error at the end of an unfinished text names the innermost. -/
theorem openAfter_items (failure : Option ParseError) (inside : List String)
    (tokens : List (Position × Token)) :
    ∃ inside', openAfter inside (ofTokens failure inside tokens).items = some inside' ∧
      ((ofTokens failure inside tokens).failure = none → inside' = []) ∧
      ∀ name, (ofTokens failure inside tokens).failure = some (.unfinished name) →
        inside'.head? = some name := by
  fun_induction ofTokens failure inside tokens with
  | case1 inside =>
    refine ⟨inside, rfl, ?_, ?_⟩
    · cases failure <;> simp [endingOf]
    · cases failure <;> simp [endingOf]
  | case2 _ _ _ _ ih => exact ih
  | case3 _ _ _ _ ih => exact ih
  | case4 inside p name attributes selfClosing tokens ihSelf ihOpen =>
    cases selfClosing with
    | true =>
      obtain ⟨inside', hopen, hend⟩ := ihSelf
      exact ⟨inside', by simpa [cons, openAfter] using hopen, hend⟩
    | false => exact ihOpen
  | case5 => exact ⟨[], rfl, fun _ => rfl, by simp [fail]⟩
  | case6 inside p name tokens ih =>
    obtain ⟨inside', hopen, hend⟩ := ih
    exact ⟨inside', by simpa [cons, openAfter] using hopen, hend⟩
  | case7 inner inside => exact ⟨inner :: inside, rfl, by simp [fail], by simp [fail]⟩

end EventStream

/-! ### Forests -/

/-- Texts and elements, one behind the other, with the places of their events. -/
inductive Forest where
  | nil
  | text (p : Position) (s : String) (rest : Forest)
  | element (p : Position) (name : String) (attributes : Attributes) (inside : Forest)
    (q : Position) (rest : Forest)

namespace Forest

def events : Forest → List (Position × Event)
  | nil => []
  | text p s rest => (p, .text s) :: rest.events
  | element p name attributes inside q rest =>
    (p, .opened name attributes) :: (inside.events ++ (q, .closed name) :: rest.events)

/-- What is inside the first element. -/
def root : Forest → Forest
  | nil => nil
  | text _ _ rest => rest.root
  | element _ _ _ inside _ _ => inside

theorem root_subset : ∀ f : Forest, f.root.events ⊆ f.events
  | nil => List.Subset.refl _
  | text _ _ rest => fun _ h => List.mem_cons_of_mem _ (rest.root_subset h)
  | element _ _ _ _ _ _ => fun _ h => List.mem_cons_of_mem _ (List.mem_append_left _ h)

/-- A forest leaves open what was open. -/
theorem openAfter_events : ∀ (f : Forest) (inside : List String),
    openAfter inside f.events = some inside
  | nil, _ => rfl
  | text _ _ rest, inside => rest.openAfter_events inside
  | element p name attributes within q rest, inside => by
    show openAfter (name :: inside) (within.events ++ (q, .closed name) :: rest.events) = _
    rw [openAfter_append, within.openAfter_events]
    simpa [openAfter] using rest.openAfter_events inside

end Forest

/-- Events behind which the elements `names` are open that were opened by them,
the innermost first. -/
inductive Unclosed : (names : List String) → List (Position × Event) → Prop
  | forest (f : Forest) : Unclosed [] f.events
  | opened (f : Forest) (p : Position) (name : String) (attributes : Attributes)
    {names : List String} {events : List (Position × Event)} (more : Unclosed names events) :
    Unclosed (names ++ [name]) (f.events ++ (p, .opened name attributes) :: events)

/-- Behind what can stand in front of every forest, more may stand. -/
theorem Unclosed.behind {names : List String} {events : List (Position × Event)}
    (h : Unclosed names events) (front : List (Position × Event)) (hf : ∀ f : Forest, ∃ g : Forest, g.events = front ++ f.events) :
    Unclosed names (front ++ events) := by
  cases h with
  | forest f =>
    obtain ⟨g, hg⟩ := hf f
    rw [← hg]
    exact .forest g
  | opened f p name attributes more =>
    obtain ⟨g, hg⟩ := hf f
    rw [← List.append_assoc, ← hg]
    exact .opened g p name attributes more

/-- Nested events close the innermost of the elements open before, and up to there
they are a forest, or they close none of them. -/
theorem closes_or_unclosed (events : List (Position × Event)) {inside inside' : List String}
    (h : openAfter inside events = some inside') :
    (∃ (f : Forest) (q : Position) (name : String) (rest : List (Position × Event))
        (outer : List String), inside = name :: outer ∧
        events = f.events ++ (q, .closed name) :: rest ∧ openAfter outer rest = some inside') ∨
      ∃ names, Unclosed names events ∧ inside' = names ++ inside := by
  match events, inside with
  | [], inside => exact .inr ⟨[], .forest .nil, by simpa [openAfter] using h.symm⟩
  | (p, .text s) :: events, inside =>
    rcases closes_or_unclosed events h with
      ⟨f, q, name, rest, outer, hinside, rfl, hrest⟩ | ⟨names, hnames, hopen⟩
    · exact .inl ⟨.text p s f, q, name, rest, outer, hinside, rfl, hrest⟩
    · exact .inr ⟨names, hnames.behind [(p, .text s)] fun f => ⟨.text p s f, rfl⟩, hopen⟩
  | (p, .opened name attributes) :: events, inside =>
    rcases closes_or_unclosed events h with
      ⟨f, q, name', rest, outer, hinside, hevents, hrest⟩ | ⟨names, hnames, hopen⟩
    · obtain ⟨rfl, rfl⟩ := List.cons.inj hinside
      have hlt : rest.length < events.length := by
        rw [hevents]
        simp only [List.length_append, List.length_cons]
        omega
      subst hevents
      rcases closes_or_unclosed rest hrest with
        ⟨g, q', name', rest', outer, houter, rfl, hrest'⟩ | ⟨names, hnames, hopen⟩
      · refine .inl ⟨.element p name attributes f q g, q', name', rest', outer, houter, ?_, hrest'⟩
        simp [Forest.events]
      · have hwhole := hnames.behind
          ((p, .opened name attributes) :: (f.events ++ [(q, .closed name)]))
          fun g => ⟨.element p name attributes f q g, by simp [Forest.events]⟩
        exact .inr ⟨names, by simpa using hwhole, hopen⟩
    · exact .inr ⟨names ++ [name], .opened .nil p name attributes hnames, by simp [hopen]⟩
  | (q, .closed name) :: events, inner :: outer =>
    by_cases hname : name = inner
    · subst hname
      exact .inl ⟨.nil, q, name, events, outer, rfl, rfl, by simpa [openAfter] using h⟩
    · simp [openAfter, hname] at h
termination_by events.length

/-- Events that leave open what was open are those of a forest, if they close
nothing else. -/
theorem exists_forest_of_openAfter {events : List (Position × Event)}
    (h : openAfter [] events = some []) : ∃ f : Forest, events = f.events := by
  rcases closes_or_unclosed events h with ⟨_, _, _, _, _, hinside, _⟩ | ⟨names, hnames, hopen⟩
  · nomatch hinside
  · cases hnames with
    | forest f => exact ⟨f, rfl⟩
    | opened => simp at hopen

namespace EventStream

/-- What is read of a text is nested, and if the text ends well it is a forest. -/
theorem exists_forest {s : String} (h : (ofString s).failure = none) :
    ∃ f : Forest, (ofString s).items = f.events := by
  obtain ⟨inside, hopen, hend, -⟩ :=
    openAfter_items (Tokenizer.ofString s).stream.failure [] (Tokenizer.ofString s).stream.items
  obtain rfl := hend h
  exact exists_forest_of_openAfter hopen

end EventStream

end RichText
