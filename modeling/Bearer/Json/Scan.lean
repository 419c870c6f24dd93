import Bearer.Json.Tree
import Bearer.Text.Hex

/-!
The tree of a byte string. Reading is a left fold: one step for each byte over a state that knows
the open brackets and what may come next. A state that holds a finished tree takes every
further byte without change to the tree, so the text behind the first value cannot
matter; a text that ends early is turned into a tree by `Scan.finish`.
-/
namespace Bearer.Json

def isSpace (b : UInt8) : Bool :=
  b == 0x20 || b == 0x0A || b == 0x0D || b == 0x09

def isDigit (b : UInt8) : Bool :=
  0x30 ≤ b && b ≤ 0x39

/-- The byte meant by the letter of a short escape. -/
def shortEscape (b : UInt8) : Option UInt8 :=
  if b == 0x22 || b == 0x5C || b == 0x2F then some b
  else if b == 0x62 then some 0x08
  else if b == 0x66 then some 0x0C
  else if b == 0x6E then some 0x0A
  else if b == 0x72 then some 0x0D
  else if b == 0x74 then some 0x09
  else none

/-- Four digits make a unit. -/
def unitOfHex (a b c d : UInt8) : Option Nat := do
  let a ← Text.hexValue a
  let b ← Text.hexValue b
  let c ← Text.hexValue c
  let d ← Text.hexValue d
  return ((a * 16 + b) * 16 + c) * 16 + d

/-- Inside a character string: in running text, after a backslash, or after `\u` with the digits
collected so far. -/
inductive Escape where
  | plain
  | backslash
  | hex (digits : List UInt8)

/-- A character string under way, its pieces newest first. -/
structure QuotedScan where
  pieces : List Piece
  escape : Escape

def QuotedScan.empty : QuotedScan :=
  ⟨[], .plain⟩

def QuotedScan.stop (q : QuotedScan) (fault : Option Category) : Quoted :=
  ⟨q.pieces.reverse, fault⟩

/-- One byte of a character string: it goes on, or it ends, well or with a fault. -/
def QuotedScan.step (q : QuotedScan) (b : UInt8) : Except Quoted QuotedScan :=
  match q.escape with
  | .plain =>
    if b == 0x22 then .error (q.stop none)
    else if b == 0x5C then .ok ⟨q.pieces, .backslash⟩
    else if b < 0x20 then .error (q.stop (some .malformed))
    else .ok ⟨.byte b :: q.pieces, .plain⟩
  | .backslash =>
    if b == 0x75 then .ok ⟨q.pieces, .hex []⟩
    else
      match shortEscape b with
      | some c => .ok ⟨.byte c :: q.pieces, .plain⟩
      | none => .error (q.stop (some .malformed))
  | .hex [x, y, z] =>
    match unitOfHex x y z b with
    | some n => .ok ⟨.unit n :: q.pieces, .plain⟩
    | none => .error (q.stop (some .malformed))
  | .hex digits => .ok ⟨q.pieces, .hex (digits ++ [b])⟩

/-- How far the grammar of numbers has been followed. -/
inductive NumeralPart where
  | sign
  | zero
  | whole
  | point
  | fraction
  | mark
  | markSign
  | exponent
  deriving DecidableEq

/-- A number under way; the digits of the part being read are newest first. -/
structure NumeralScan where
  part : NumeralPart
  negative : Bool
  whole : List Nat
  fraction : Option (List Nat)
  exponent : Option (Bool × List Nat)

def NumeralScan.numeral (n : NumeralScan) : Numeral where
  negative := n.negative
  whole := n.whole.reverse
  fraction := n.fraction.map List.reverse
  exponent := n.exponent.map fun (negative, digits) => (negative, digits.reverse)

/-- Whether the number may end here. -/
def NumeralScan.complete (n : NumeralScan) : Bool :=
  match n.part with
  | .zero | .whole | .fraction | .exponent => true
  | .sign | .point | .mark | .markSign => false

def digitOf (b : UInt8) : Nat :=
  b.toNat - 0x30

/-- The number that begins with a digit. -/
def NumeralScan.first (negative : Bool) (b : UInt8) : NumeralScan :=
  ⟨if b == 0x30 then .zero else .whole, negative, [digitOf b], none, none⟩

private def NumeralScan.pushFraction (n : NumeralScan) (b : UInt8) : NumeralScan :=
  { n with part := .fraction, fraction := some (digitOf b :: n.fraction.getD []) }

private def NumeralScan.pushExponent (n : NumeralScan) (b : UInt8) : NumeralScan :=
  let (negative, digits) := n.exponent.getD (false, [])
  { n with part := .exponent, exponent := some (negative, digitOf b :: digits) }

private def NumeralScan.pushMark (n : NumeralScan) : NumeralScan :=
  { n with part := .mark, exponent := some (false, []) }

/-- One byte of a number: `ok none` means that the byte does not belong to it any more, an error
that the number is broken. -/
def NumeralScan.step (n : NumeralScan) (b : UInt8) : Except Category (Option NumeralScan) :=
  match n.part with
  | .sign => if isDigit b then .ok (some (.first n.negative b)) else .error .malformed
  | .zero =>
    if isDigit b then .error .malformed
    else if b == 0x2E then .ok (some { n with part := .point, fraction := some [] })
    else if b == 0x65 || b == 0x45 then .ok (some n.pushMark)
    else .ok none
  | .whole =>
    if isDigit b then .ok (some { n with whole := digitOf b :: n.whole })
    else if b == 0x2E then .ok (some { n with part := .point, fraction := some [] })
    else if b == 0x65 || b == 0x45 then .ok (some n.pushMark)
    else .ok none
  | .point => if isDigit b then .ok (some (n.pushFraction b)) else .error .malformed
  | .fraction =>
    if isDigit b then .ok (some (n.pushFraction b))
    else if b == 0x65 || b == 0x45 then .ok (some n.pushMark)
    else .ok none
  | .mark =>
    if isDigit b then .ok (some (n.pushExponent b))
    else if b == 0x2B then .ok (some { n with part := .markSign })
    else if b == 0x2D then .ok (some { n with part := .markSign, exponent := some (true, []) })
    else .error .malformed
  | .markSign => if isDigit b then .ok (some (n.pushExponent b)) else .error .malformed
  | .exponent => if isDigit b then .ok (some (n.pushExponent b)) else .ok none

/-- A container that waits for the value being read; its content is newest first. -/
inductive Frame where
  | array (items : List Tree)
  | object (members : List (Quoted × Tree)) (key : Quoted)

/-- What is being read. `value` carries whether an array may still be closed at once, `key`
whether the object may. -/
inductive Phase where
  | value (first : Bool)
  | word (left : List UInt8) (value : Tree)
  | number (n : NumeralScan)
  | text (q : QuotedScan)
  | items (items : List Tree)
  | key (members : List (Quoted × Tree)) (first : Bool)
  | keyText (members : List (Quoted × Tree)) (q : QuotedScan)
  | colon (members : List (Quoted × Tree)) (key : Quoted)
  | members (members : List (Quoted × Tree))

/-- `done` also tells whether only blanks followed the value. -/
inductive Scan where
  | reading (phase : Phase) (frames : List Frame)
  | done (tree : Tree) (clean : Bool)

def Scan.start : Scan :=
  .reading (.value false) []

/-- Puts a value that could not be completed into the containers that wait for it. -/
def Frame.settle (fault : Category) : List Frame → Tree → Tree
  | [], tree => tree
  | .array items :: rest, tree =>
    settle fault rest (.array (tree :: items).reverse (some fault))
  | .object members key :: rest, tree =>
    settle fault rest (.object ((key, tree) :: members).reverse (some fault))

/-- Gives up at a value. -/
def Scan.break (whenRead whenSkipped : Category) (frames : List Frame) : Scan :=
  .done (Frame.settle whenSkipped frames (.broken whenRead whenSkipped)) true

/-- Gives up where a value is announced and none begins. -/
def Scan.lack (fault : Category) (frames : List Frame) : Scan :=
  .done (Frame.settle fault frames (.absent fault)) true

/-- Gives up between the values of a container. -/
def Scan.halt (fault : Category) (frames : List Frame) (container : Option Category → Tree) :
    Scan :=
  .done (Frame.settle fault frames (container (some fault))) true

/-- Hands a finished value to the innermost open container. -/
def Scan.deliver (tree : Tree) : List Frame → Scan
  | [] => .done tree true
  | .array items :: rest => .reading (.items (tree :: items)) rest
  | .object members key :: rest => .reading (.members ((key, tree) :: members)) rest

def arrayOf (items : List Tree) (fault : Option Category) : Tree :=
  .array items.reverse fault

def objectOf (members : List (Quoted × Tree)) (fault : Option Category) : Tree :=
  .object members.reverse fault

/-- Hands on a character string; one with a fault ends the reading. -/
def Scan.deliverText (q : Quoted) (frames : List Frame) : Scan :=
  match q.fault with
  | none => deliver (.string q) frames
  | some fault => .done (Frame.settle fault frames (.string q)) true

/-- A member whose name has a fault holds a value that is broken in the same way. -/
def Scan.breakKey (members : List (Quoted × Tree)) (q : Quoted) (fault : Category)
    (frames : List Frame) : Scan :=
  halt fault frames (objectOf ((q, .broken fault fault) :: members))

/-- The step between the items of an array. -/
def Scan.betweenItems (items : List Tree) (frames : List Frame) (b : UInt8) : Scan :=
  if isSpace b then .reading (.items items) frames
  else if b == 0x2C then .reading (.value false) (.array items :: frames)
  else if b == 0x5D then deliver (arrayOf items none) frames
  else halt .malformed frames (arrayOf items)

/-- The step between the members of an object. -/
def Scan.betweenMembers (members : List (Quoted × Tree)) (frames : List Frame) (b : UInt8) :
    Scan :=
  if isSpace b then .reading (.members members) frames
  else if b == 0x2C then .reading (.key members false) frames
  else if b == 0x7D then deliver (objectOf members none) frames
  else halt .malformed frames (objectOf members)

/-- The step at the start of a value. -/
def Scan.atValue (first : Bool) (frames : List Frame) (b : UInt8) : Scan :=
  if isSpace b then .reading (.value first) frames
  else if b == 0x22 then .reading (.text .empty) frames
  else if b == 0x5B then .reading (.value true) (.array [] :: frames)
  else if b == 0x7B then .reading (.key [] true) frames
  else if b == 0x6E then .reading (.word [0x75, 0x6C, 0x6C] .null) frames
  else if b == 0x74 then .reading (.word [0x72, 0x75, 0x65] (.bool true)) frames
  else if b == 0x66 then .reading (.word [0x61, 0x6C, 0x73, 0x65] (.bool false)) frames
  else if b == 0x2D then .reading (.number ⟨.sign, true, [], none, none⟩) frames
  else if isDigit b then .reading (.number (.first false b)) frames
  else
    match b == 0x5D, frames with
    | true, .array items :: rest =>
      if first then deliver (arrayOf items none) rest else lack .malformed frames
    | _, _ => Scan.break .malformed .malformed frames

/-- A byte that follows a finished value. -/
def Scan.after (b : UInt8) : Scan → Scan
  | .done tree clean => .done tree (clean && isSpace b)
  | .reading (.items items) frames => betweenItems items frames b
  | .reading (.members members) frames => betweenMembers members frames b
  | scan => scan

def Scan.step (scan : Scan) (b : UInt8) : Scan :=
  match scan with
  | .done tree clean => .done tree (clean && isSpace b)
  | .reading phase frames =>
    match phase with
    | .value first => atValue first frames b
    | .word [] value => after b (deliver value frames)
    | .word [c] value =>
      if b == c then deliver value frames else Scan.break .malformed .malformed frames
    | .word (c :: left) value =>
      if b == c then .reading (.word left value) frames
      else Scan.break .malformed .malformed frames
    | .number n =>
      match n.step b with
      | .ok (some n) => .reading (.number n) frames
      | .ok none => after b (deliver (.number n.numeral) frames)
      | .error fault => Scan.break fault .malformed frames
    | .text q =>
      match q.step b with
      | .ok q => .reading (.text q) frames
      | .error q => deliverText q frames
    | .items items => betweenItems items frames b
    | .key members first =>
      if isSpace b then .reading (.key members first) frames
      else if b == 0x22 then .reading (.keyText members .empty) frames
      else if first && b == 0x7D then deliver (objectOf members none) frames
      else halt .malformed frames (objectOf members)
    | .keyText members q =>
      match q.step b with
      | .ok q => .reading (.keyText members q) frames
      | .error q =>
        match q.fault with
        | none => .reading (.colon members q) frames
        | some fault => breakKey members q fault frames
    | .colon members key =>
      if isSpace b then .reading (.colon members key) frames
      else if b == 0x3A then .reading (.value false) (.object members key :: frames)
      else lack .malformed (.object members key :: frames)
    | .members members => betweenMembers members frames b

/-- What the end of the text means in each phase. -/
def Scan.atEnd : Scan → Scan
  | .done tree clean => .done tree clean
  | .reading phase frames =>
    match phase with
    | .value _ =>
      match frames with
      | .array _ :: _ => lack .truncated frames
      | _ => Scan.break .truncated .truncated frames
    | .word _ _ => Scan.break .truncated .truncated frames
    | .number n =>
      if n.complete then deliver (.number n.numeral) frames
      else Scan.break .truncated .malformed frames
    | .text q => deliverText (q.stop (some .truncated)) frames
    | .items items => halt .truncated frames (arrayOf items)
    | .key members _ => halt .truncated frames (objectOf members)
    | .keyText members q => breakKey members (q.stop (some .truncated)) .truncated frames
    | .colon members key => lack .truncated (.object members key :: frames)
    | .members members => halt .truncated frames (objectOf members)

/-- The tree of a text that ends here, and whether nothing but blanks followed its value. A
number at the very end is handed on first, and what encloses it is then cut off. -/
def Scan.finish (scan : Scan) : Tree × Bool :=
  match scan.atEnd with
  | .done tree clean => (tree, clean)
  | .reading (.items items) frames =>
    (Frame.settle .truncated frames (arrayOf items (some .truncated)), true)
  | .reading (.members members) frames =>
    (Frame.settle .truncated frames (objectOf members (some .truncated)), true)
  | .reading _ _ => (.broken .truncated .truncated, true)

def Scan.run (bytes : List UInt8) : Scan :=
  bytes.foldl Scan.step .start

namespace Tree

/-- The tree of the first value of a byte string, and whether only blanks follow it. -/
def scan (bytes : List UInt8) : Tree × Bool :=
  (Scan.run bytes).finish

def ofBytes (bytes : List UInt8) : Tree :=
  (scan bytes).1

end Tree

theorem Scan.run_append (a b : List UInt8) :
    Scan.run (a ++ b) = b.foldl Scan.step (Scan.run a) :=
  List.foldl_append

theorem Scan.foldl_done (tree : Tree) (clean : Bool) (behind : List UInt8) :
    behind.foldl Scan.step (.done tree clean) = .done tree (clean && behind.all isSpace) := by
  induction behind generalizing clean with
  | nil => simp
  | cons b rest ih =>
      rw [List.foldl_cons, Scan.step, ih, List.all_cons, Bool.and_assoc]

/-- The text behind a value that has ended does not matter. -/
theorem Tree.ofBytes_append_of_done {front : List UInt8} {tree : Tree} {clean : Bool}
    (done : Scan.run front = .done tree clean) (behind : List UInt8) :
    Tree.ofBytes (front ++ behind) = tree := by
  rw [Tree.ofBytes, Tree.scan, Scan.run_append, done, Scan.foldl_done]
  rfl

end Bearer.Json
