/-
# Input

A source of bytes hands them out in pieces of its own choice, may be
interrupted in between, and ends or fails. Read as a whole it is a text;
read piece by piece it is a stream of characters with a fault at each read
that brought none.

Key definitions: `ReadFault`, `ByteSource`, `ByteSource.text`, `CharStream`,
`ByteSource.characters`.
-/
import RichText.Text.Utf8

namespace RichText

/-- Why a read brought nothing. -/
inductive ReadFault where
  /-- A stylesheet with bytes that are no characters. -/
  | invalidStylesheet
  /-- Another text with bytes that are no characters. -/
  | invalidText
  | noSuchFile
  | notADirectory
  | isADirectory
  | nameTooLong
  /-- A name with a character that no file name can have. -/
  | impossibleName
  /-- Any other fault, in the words of the source. -/
  | failed (reason : String)
deriving DecidableEq, Repr

def ReadFault.message : ReadFault → String
  | .invalidStylesheet => "stylesheet is not valid UTF-8"
  | .invalidText => "stream did not contain valid UTF-8"
  | .noSuchFile => "No such file or directory (os error 2)"
  | .notADirectory => "Not a directory (os error 20)"
  | .isADirectory => "Is a directory (os error 21)"
  | .nameTooLong => "File name too long (os error 36)"
  | .impossibleName => "file name contained an unexpected NUL byte"
  | .failed reason => reason

/-- Whether the fault says that there is no file of the name. -/
def ReadFault.isAbsence : ReadFault → Bool
  | .noSuchFile | .notADirectory | .isADirectory | .nameTooLong | .impossibleName => true
  | _ => false

/-- The answer to one read. -/
inductive Delivery where
  /-- One byte or more. -/
  | bytes (first : UInt8) (more : List UInt8)
  /-- Nothing this time; the read is simply repeated. -/
  | interrupted
deriving DecidableEq, Repr

/-- The answers to all reads: the deliveries, and then the end of the input,
or the same fault again and again. -/
structure ByteSource where
  deliveries : List Delivery
  failure : Option ReadFault
deriving DecidableEq, Repr

namespace ByteSource

/-- The most bytes asked for in one read. -/
def pieceSize : Nat := 4096

/-- Bytes handed out in pieces of `size`, the last one perhaps shorter. -/
def deliver (size : Nat) : List UInt8 → List Delivery
  | [] => []
  | b :: bytes => .bytes b (bytes.take (size - 1)) :: deliver size (bytes.drop (size - 1))
termination_by bytes => bytes.length
decreasing_by
  simp only [List.length_drop, List.length_cons]
  omega

/-- A source that hands out what it is asked for. -/
def ofBytes (bytes : List UInt8) : ByteSource := ⟨deliver pieceSize bytes, none⟩

def ofString (s : String) : ByteSource := ofBytes s.toUTF8.toList

/-- The bytes that a source hands out before it ends or fails. -/
def bytes (source : ByteSource) : List UInt8 :=
  source.deliveries.flatMap fun
    | .bytes first more => first :: more
    | .interrupted => []

/-- The whole input as a text. A failing read outweighs invalid bytes. -/
def text (source : ByteSource) : Except ReadFault String :=
  match source.failure with
  | some fault => .error fault
  | none =>
    match Text.Utf8.decode [] source.bytes with
    | some (chars, []) => .ok (String.ofList chars)
    | _ => .error .invalidText

end ByteSource

/-- What is met in a stream of characters: a character, or a fault that is met
once. -/
inductive StreamItem where
  | char (c : Char)
  | fault (f : ReadFault)
deriving DecidableEq, Repr

/-- A stream of characters: its items, and then the end, or a fault that is met
again and again. -/
structure CharStream where
  items : List StreamItem
  failure : Option ReadFault
deriving DecidableEq, Repr

namespace CharStream

def ofString (s : String) : CharStream := ⟨s.toList.map .char, none⟩

end CharStream

/-- The progress of decoding: the bytes of the character begun last, or none
when the bytes so far are invalid. -/
abbrev Decoding := Option (List UInt8)

/-- The items of a stream of deliveries. A delivery counts as a whole: one with
an invalid byte brings no character, and none comes after it, but each later
delivery and the end of the input is a fault of its own. -/
def streamItems (fails : Bool) : Decoding → List Delivery → List StreamItem
  | seen, [] => if fails || seen == some [] then [] else [.fault .invalidStylesheet]
  | seen, .interrupted :: rest => streamItems fails seen rest
  | seen, .bytes first more :: rest =>
    match seen.bind fun seen => Text.Utf8.decode seen (first :: more) with
    | some (chars, seen) => chars.map .char ++ streamItems fails (some seen) rest
    | none => .fault .invalidStylesheet :: streamItems fails none rest

/-- The characters of a source, as they are met by one who reads piece by
piece. -/
def ByteSource.characters (source : ByteSource) : CharStream :=
  ⟨streamItems source.failure.isSome (some []) source.deliveries, source.failure⟩

end RichText
