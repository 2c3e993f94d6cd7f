/-
# Selectors

A selector is a chain of links, the subject first. It is matched against the
keys from a node upward: the subject against the nearest key, and each further
link against the nearest key above the match before it that fits; a
direct-child link gives up at the first key that does not.

The score adds up what the links name. Each kind of part has eight bits of
its own, and the sum wraps around.

Key definitions: `Link`, `Link.fits`, `climb`, `Selector`,
`Selector.fits`, `specificity`, `Selector.ofChain`.
-/
import RichText.Sheet.Basic
import RichText.StyleTree

namespace RichText

/-- One compound of a chain, without its pseudo-class. -/
structure Link where
  element : Option String := none
  className : Option String := none
  id : Option String := none
  /-- Matches only the key directly above the match before it. -/
  directChild : Bool := false
deriving DecidableEq, Repr

namespace Link

/-- Whether a key has all that the link names. -/
def fits (l : Link) (k : Key) : Bool :=
  l.element.all (· == k.element) && l.className.all (some · == k.className) &&
    l.id.all (some · == k.id)

def score (l : Link) : UInt32 :=
  (if l.directChild then 0x1 else 0) + (if l.element.isSome then 0x100 else 0) +
    (if l.className.isSome then 0x10000 else 0) + (if l.id.isSome then 0x1000000 else 0)

def ofCompound (c : Sheet.Compound) : Link := ⟨c.element, c.className, c.id, c.directChild⟩

end Link

/-- The sum of the scores of the links, modulo `2 ^ 32`. -/
def specificity (links : List Link) : UInt32 := links.foldl (fun sum l => sum + l.score) 0

/-- Whether the links behind the subject find their keys on the way up. -/
def climb : List Link → List Key → Bool
  | [], _ => true
  | _ :: _, [] => false
  | l :: links, k :: keys =>
    if l.fits k then climb links keys else !l.directChild && climb (l :: links) keys

/-- Whether a chain matches a node whose keys upward are `keys`. -/
def matchesKeys : List Link → List Key → Bool
  | l :: links, k :: keys => l.fits k && climb links keys
  | _, _ => false

/-- A chain and the style that it gives to the nodes it matches. -/
structure Selector where
  links : List Link
  pseudoClass : Option String
  score : UInt32
  style : Style
deriving DecidableEq, Repr

namespace Selector

def of (links : List Link) (pseudoClass : Option String) (style : Style) : Selector :=
  ⟨links, pseudoClass, specificity links, style⟩

/-- The selector of a chain; the pseudo-class of the subject is kept. -/
def ofChain (chain : Sheet.Chain) (style : Style) : Selector :=
  of (chain.map .ofCompound) (chain.head?.bind (·.pseudoClass)) style

/-- Whether the selector matches a node. -/
def fits (s : Selector) (t : StyleTree) (node : Nat) : Bool :=
  matchesKeys s.links (t.keysAbove node)

end Selector

end RichText
