/-
# Stylesheets

A stylesheet holds rules in ascending order of their scores; rules of one
score stay in the order in which they were read. The first rule is built in:
`pre` keeps its blanks. The style of a node is made by the rules that match
it, each over the ones before it.

What was computed for a node is remembered under the tree and the number of
the node until the rules change or a layout begins or ends.

Key definitions: `StyleSheet`, `StyleSheet.new`, `StyleSheet.add`,
`StyleSheet.parse`, `StyleSheet.compute`, `StyleSheet.resolve`,
`StyleSheet.fontFaces`.
-/
import RichText.Declaration.Writes
import RichText.Selector
import RichText.Sheet.Grammar
import Std.Data.HashMap

namespace RichText

/-- The styles remembered for nodes, by tree and node; none stands for a node
that no rule matches. -/
abbrev Cache := Std.HashMap (Nat × Nat) (Option Style)

structure StyleSheet where
  registry : Registry
  rules : List Selector
  atRules : List Sheet.AtRule := []
  cache : Cache := ∅

/-- A family and a file from a `@font-face`. -/
structure FontFace where
  family : String
  source : String
deriving DecidableEq, Repr

/-- Puts the values of several styles over one another, the last on top. -/
def Style.merge (first : Style) (others : List Style) : Style := others.foldl Style.putAll first

namespace StyleSheet

open Declaration

/-- The style of the built-in rule. -/
def preStyle (r : Registry) : Style :=
  ((Style.empty.put r Standard.preformatted (.flag true)).toOption).getD .empty

/-- The rule that every stylesheet begins with. -/
def preRule (r : Registry) : Selector := .of [{ element := some "pre" }] none (preStyle r)

/-- A stylesheet with the built-in rule alone. -/
def new (registry : Registry) : StyleSheet := { registry, rules := [preRule registry] }

/-- A rule put behind all rules whose scores are not greater. -/
def insertRule (rule : Selector) : List Selector → List Selector
  | [] => [rule]
  | first :: rest =>
    if first.score ≤ rule.score then first :: insertRule rule rest else rule :: first :: rest

/-- The style of the declarations of a block, and those that were refused. -/
def blockStyle (r : Registry) (declarations : List Sheet.Declaration) : List Diagnostic × Style :=
  declarations.foldl
    (fun acc d =>
      match apply r d.property d.value acc.2 with
      | .ok s => (acc.1, s)
      | .error e => (acc.1 ++ [⟨d.property, d.value, e⟩], acc.2))
    ([], .empty)

/-- The style of a rule with a pseudo-class. For `hover` it has the values of
the block that have a twin for hovering, at the twin; for all others it is
empty. -/
def pseudoStyle (r : Registry) (style : Style) (pseudoClass : String) : Style :=
  if pseudoClass = "hover" then
    style.toList.foldl
      (fun acc entry =>
        match r.hover? entry.1 with
        | some twin => ((acc.put r twin entry.2).toOption).getD acc
        | none => acc)
      .empty
  else .empty

/-- The style that a chain gives, when `style` is that of its block. -/
def chainStyle (r : Registry) (style : Style) (chain : Sheet.Chain) : Style :=
  match chain.head?.bind (·.pseudoClass) with
  | none => style
  | some pseudoClass => pseudoStyle r style pseudoClass

/-- The rules that the chains of a written rule make, and the declarations
that were refused. -/
def selectorsOf (r : Registry) (rule : Sheet.Rule) : List Diagnostic × List Selector :=
  let block := blockStyle r rule.declarations
  (block.1, rule.selectors.map fun chain => .ofChain chain (chainStyle r block.2 chain))

/-- The stylesheet with the content of a text added, and the declarations that
were refused. -/
def add (s : StyleSheet) (content : Sheet.Content) : List Diagnostic × StyleSheet :=
  let made := content.rules.map (selectorsOf s.registry)
  (made.flatMap (·.1),
    { s with
      rules := (made.flatMap (·.2)).foldl (fun rules rule => insertRule rule rules) s.rules
      atRules := s.atRules ++ content.atRules
      cache := ∅ })

/-- Reads a text and adds its content. A text with an error changes nothing. -/
def parse (s : StyleSheet) (source : ByteSource) : Except StyleError (List Diagnostic) × StyleSheet :=
  match Sheet.parse source with
  | .error e => (.error (.parse e), s)
  | .ok content =>
    let added := s.add content
    (.ok added.1, added.2)

def parseString (s : StyleSheet) (text : String) : Except StyleError (List Diagnostic) × StyleSheet :=
  s.parse (.ofString text)

/-- The rules that match a node, in ascending order. -/
def matching (s : StyleSheet) (t : StyleTree) (node : Nat) : List Selector :=
  let keys := t.keysAbove node
  s.rules.filter fun rule => matchesKeys rule.links keys

/-- The style that the rules give a node; none if no rule matches it. -/
def compute (s : StyleSheet) (t : StyleTree) (node : Nat) : Option Style :=
  match s.matching t node with
  | [] => none
  | rule :: rules => some (rule.style.merge (rules.map (·.style)))

/-- The style for a key that has nothing above it. -/
def resolveKey (s : StyleSheet) (key : Key) : Option Style :=
  s.compute ((StyleTree.empty 0 s.registry).push none (some key) .empty) 0

/-- The number of styles remembered. -/
def cachedEntries (s : StyleSheet) : Nat := s.cache.size

/-- The stylesheet with nothing remembered. -/
def forget (s : StyleSheet) : StyleSheet := { s with cache := ∅ }

/-- The style of a node, remembered or computed, and then remembered. -/
def resolve (s : StyleSheet) (t : StyleTree) (node : Nat) : Option Style × StyleSheet :=
  match s.cache[(t.id, node)]? with
  | some style => (style, s)
  | none =>
    let style := s.compute t node
    (style, { s with cache := s.cache.insert (t.id, node) style })

/-- The text without the quotes at both ends, of which there may be several. -/
def trimQuotes (s : String) : String :=
  let isQuote (c : Char) : Bool := c = '"' || c = '\''
  String.ofList ((s.toList.dropWhile isQuote).reverse.dropWhile isQuote).reverse

/-- The fonts of one at-rule. One without a family or a source, or with a
source that cannot be read, has none. -/
def facesOf (rule : Sheet.AtRule) : List FontFace :=
  match rule.get? "font-family", rule.get? "src" with
  | some family, some src =>
    match readList src with
    | .ok sources => sources.map fun source => ⟨trimQuotes family, stripUrl source⟩
    | .error _ => []
  | _, _ => []

/-- The fonts of all `@font-face` rules. -/
def fontFaces (s : StyleSheet) : List FontFace :=
  (s.atRules.filter (·.name == "font-face")).flatMap facesOf

/-- Hands every font to a registrar that accepts or refuses it, and returns the
ones accepted. -/
def registerFonts (s : StyleSheet) (accepts : FontFace → Bool) : List FontFace :=
  s.fontFaces.filter accepts

/-- A short description for messages. -/
def describe (s : StyleSheet) : String :=
  s!"StyleSheet \x7b rules: {s.rules.length}, at_rules: {s.atRules.length} \x7d"

end StyleSheet

end RichText
