/-
# Declarations

A declaration stands for a set of writes to standard attributes, which its
property and its value alone decide: either all of them are made, or the
declaration is refused and none is.

Key definitions: `Write`, `writes`, `apply`, `Diagnostic`.
-/
import RichText.Declaration.Reading
import RichText.Style

namespace RichText.Declaration

open RichText.Text

/-- A value for an attribute, or none to clear it. -/
structure Write where
  ordinal : Nat
  value : Option Value
deriving DecidableEq, Repr

/-- Sets an attribute. -/
def set (ordinal : Nat) (v : Value) : List Write := [⟨ordinal, some v⟩]

/-- The ordinals of the four sides of a box. -/
structure Box where
  top : Nat
  left : Nat
  right : Nat
  bottom : Nat

def margin : Box :=
  ⟨Standard.marginTop, Standard.marginLeft, Standard.marginRight, Standard.marginBottom⟩

def padding : Box :=
  ⟨Standard.paddingTop, Standard.paddingLeft, Standard.paddingRight, Standard.paddingBottom⟩

/-- Writes the four sides of a box. -/
def Box.sides (box : Box) (top left right bottom : Length) : List Write :=
  [⟨box.top, some (.length top)⟩, ⟨box.left, some (.length left)⟩,
    ⟨box.right, some (.length right)⟩, ⟨box.bottom, some (.length bottom)⟩]

/-- The writes for a side of a box, or for all of them at once: one length for
all, two for the vertical and the horizontal ones, three for the top, the
horizontal ones and the bottom, four clockwise from the top. -/
def boxWrites (box : Box) (property : String) (side : List Char) (value : String) :
    Except StyleError (List Write) :=
  let one (ordinal : Nat) := (readLength value).map fun l => set ordinal (.length l)
  if side = "-top".toList then one box.top
  else if side = "-left".toList then one box.left
  else if side = "-right".toList then one box.right
  else if side = "-bottom".toList then one box.bottom
  else if side = [] then
    (readLengths value).bind fun lengths =>
      match lengths with
      | [all] => .ok (box.sides all all all all)
      | [vertical, horizontal] => .ok (box.sides vertical horizontal horizontal vertical)
      | [top, horizontal, bottom] => .ok (box.sides top horizontal horizontal bottom)
      | [top, right, bottom, left] => .ok (box.sides top left right bottom)
      | others => .error (.malformed (.boxCount others.length))
  else .error (.unknownProperty property)

def fontWeights : List (String × Int) := [("normal", 400), ("bold", 700)]

def fontStyles : List (String × Bool) := [("normal", false), ("italic", true), ("oblique", true)]

/-- The text up to the first space, and what follows the blanks behind it. -/
def splitWord (s : List Char) : List Char × List Char :=
  (s.takeWhile (· ≠ ' '), trimStart (s.dropWhile (· ≠ ' ')))

/-- What a table has for the first word of a text, and the text behind the
word; if it has nothing the word stays. -/
def leadingKeyword {α : Type} (table : List (String × α)) (s : List Char) :
    Option α × List Char :=
  match table.lookup (lowerCase (String.ofList (splitWord s).1)) with
  | some v => (some v, (splitWord s).2)
  | none => (none, s)

/-- The length at the beginning of a text if a digit begins it, and the text
behind it. -/
def leadingSize (s : List Char) : Except StyleError (Option Length × List Char) :=
  if s.head?.any Char.isDigit then
    (readLength (String.ofList (splitWord s).1)).map fun l => (some l, (splitWord s).2)
  else .ok (none, s)

/-- The writes of `font`: a weight, a style, a size and families, each of which
may be left out. -/
def fontWrites (value : String) : Except StyleError (List Write) :=
  let weight := leadingKeyword fontWeights (trim value.toList)
  let italic := leadingKeyword fontStyles weight.2
  (leadingSize italic.2).bind fun size =>
    (readList (String.ofList size.2)).map fun families =>
      (weight.1.toList.map fun w => ⟨Standard.fontWeight, some (.integer w)⟩) ++
        (italic.1.toList.map fun i => ⟨Standard.fontItalic, some (.flag i)⟩) ++
        (size.1.toList.map fun l => ⟨Standard.fontSize, some (.length l)⟩) ++
        (if families = [] then [] else set Standard.fontFamilies (.fontFamilies families))

/-- A weight: a keyword or an integer. -/
def readWeight (value : String) : Except StyleError Int :=
  match fontWeights.lookup (lowerCase value) with
  | some weight => .ok weight
  | none =>
    match Number.readInt32? value.toList with
    | some weight => .ok weight
    | none => .error (.malformed (.badFontWeight value))

/-- The writes of a property whose name begins with `font`. -/
def fontPropertyWrites (property value : String) : Except StyleError (List Write) :=
  match property with
  | "font-family" =>
    (readList value).bind fun families =>
      if families = [] then .error (.malformed .noFontFamily)
      else .ok (set Standard.fontFamilies (.fontFamilies families))
  | "font-weight" => (readWeight value).map fun w => set Standard.fontWeight (.integer w)
  | "font-size" => (readLength value).map fun l => set Standard.fontSize (.length l)
  | "font-style" => (readKeywordOf fontStyles value).map fun i => set Standard.fontItalic (.flag i)
  | "font" => fontWrites value
  | _ => .error (.unknownProperty property)

def whiteSpaces : List (String × Bool) := [("pre", true), ("normal", false)]

def wordWraps : List (String × Bool) := [("normal", false), ("break-word", true)]

def hoverModes : List (String × Bool) := [("inherit", true), ("normal", false)]

/-- The writes of any other property. -/
def plainWrites (property value : String) : Except StyleError (List Write) :=
  match property with
  | "text-indent" => (readLength value).map fun l => set Standard.textIndent (.length l)
  | "-twl-font" => .ok (set Standard.fontFamilies (.fontFamilies [value]))
  | "-twl-hover" =>
    (readKeywordOf hoverModes value).map fun b => set Standard.inheritHover (.flag b)
  | "text-align" =>
    (readKeyword HorizontalAlignment value).map fun a =>
      set Standard.horizontalAlignment (.horizontalAlignment a)
  | "text-decoration" =>
    (readKeyword TextDecoration value).map fun d => set Standard.textDecoration (.textDecoration d)
  | "vertical-align" =>
    (readKeyword VerticalAlignment value).map fun a =>
      set Standard.verticalAlignment (.verticalAlignment a)
  | "white-space" =>
    (readKeywordOf whiteSpaces value).map fun b => set Standard.preformatted (.flag b)
  | "word-wrap" => (readKeywordOf wordWraps value).map fun b => set Standard.breakWord (.flag b)
  | "list-style-image" => .ok (set Standard.listStyleImage (.text (stripUrl value)))
  | "list-style-type" =>
    match Numbering.ofKeyword? value with
    | some n => .ok (set Standard.listStyleType (.numbering n))
    | none => .error (.malformed (.unknownKeyword value))
  | "clear" => (readKeyword Clear value).map fun c => set Standard.clear (.clear c)
  | "float" =>
    (readKeyword FloatPosition value).map fun p => set Standard.floatPosition (.floatPosition p)
  | "display" => (readKeyword Display value).map fun d => set Standard.display (.display d)
  | "width" => (readLength value).map fun l => set Standard.width (.length l)
  | "height" => (readLength value).map fun l => set Standard.height (.length l)
  | "background-image" => .ok (set Standard.backgroundImage (.text (stripUrl value)))
  | "background-color" | "-twl-background-color" =>
    (readColor value).map fun c => set Standard.backgroundColor (.color c)
  | "color" => (readColor value).map fun c => set Standard.color (.color c)
  | "tab-size" | "-moz-tab-size" =>
    if value = "inherit" then .ok [⟨Standard.tabSize, none⟩]
    else
      match Number.readInt32? value.toList with
      | some n => .ok (set Standard.tabSize (.integer n))
      | none => .error (.malformed (.badTabSize value))
  | _ => .error (.unknownProperty property)

/-- The writes that a declaration stands for. -/
def writes (property value : String) : Except StyleError (List Write) :=
  let value := String.ofList (trim value.toList)
  if value = "" then .error (.malformed (.emptyValue property))
  else
    match afterLead? "margin".toList property.toList with
    | some side => boxWrites margin property side value
    | none =>
      match afterLead? "padding".toList property.toList with
      | some side => boxWrites padding property side value
      | none =>
        if hasLead "font".toList property.toList then fontPropertyWrites property value
        else plainWrites property value

/-- The style with the writes of a declaration made. -/
def apply (r : Registry) (property value : String) (s : Style) : Except StyleError Style :=
  (writes property value).bind fun found =>
    found.foldlM (fun s w => s.write r w.ordinal w.value) s

/-- A declaration that was refused. -/
structure Diagnostic where
  property : String
  value : String
  error : StyleError
deriving DecidableEq, Repr

end RichText.Declaration
