/-
  THE TEXT PARSER — `TextParser` and `parse_text` of `src/utils/vdf/vdf_text.cpp`.

  A parser is the pair `(input, pos)` of the class.  `peek` and `consume` index `input` without a
  guard, so both are partial: outside the input they end in `Fault.undefined`.  The two inner loops
  of `skip_ws` read only behind `!eof()`, and are written as the step over the longest prefix whose
  bytes satisfy the loop condition.

  Recursion is fuel-supplied so that a run evaluates in the kernel.  `stringLoop` needs no verdict
  for spent fuel: it starts with one unit for each unread byte, so fuel `0` is the loop's own exit
  at the end of the input.  The two object loops end in `Fault.diverges`, which is shown never to
  happen (`SteamMin.Vdf.TextCorrect`).
-/
import SteamMin.Vdf.Node

namespace SteamMin.Vdf

/-! ## The characters the parser tells apart -/

def quote : Byte := '"'.toUInt8
def backslash : Byte := '\\'.toUInt8
def slash : Byte := '/'.toUInt8
def newline : Byte := '\n'.toUInt8
def tab : Byte := '\t'.toUInt8
def lbrace : Byte := 0x7B
def rbrace : Byte := 0x7D

/-- `std::isspace` in the C locale: space, `\t`, `\n`, `\v`, `\f`, `\r`. -/
def isspace (c : Byte) : Bool := c = 0x20 || (0x09 ≤ c && c ≤ 0x0D)

/-- The `switch` on the byte after a backslash. -/
def unescape (n : Byte) : Byte :=
  if n = 'n'.toUInt8 then newline
  else if n = 't'.toUInt8 then tab
  else n

/-! ## The scanner -/

/-- The input and the cursor. -/
structure TextParser where
  input : Bytes
  pos : Nat

namespace TextParser

/-- Whether the cursor is at the end. -/
def eof (p : TextParser) : Bool := p.input.length ≤ p.pos

/-- `input[pos]`, unchecked in the source: behind the end it is undefined. -/
def peek (p : TextParser) : Except Fault Byte :=
  match p.input[p.pos]? with
  | some c => .ok c
  | none => .error .undefined

/-- `input[pos++]`, unchecked as well. -/
def consume (p : TextParser) : Except Fault (Byte × TextParser) :=
  match p.input[p.pos]? with
  | some c => .ok (c, { p with pos := p.pos + 1 })
  | none => .error .undefined

/-- What is left of the input. -/
def rest (p : TextParser) : Bytes := p.input.drop p.pos

/-- `while (!eof() && cond(peek())) pos++;` -/
def skipWhile (cond : Byte → Bool) (p : TextParser) : TextParser :=
  { p with pos := p.pos + (p.rest.takeWhile cond).length }

/-- `!eof() && peek() == '/' && pos + 1 < input.size() && input[pos + 1] == '/'` -/
def atComment (p : TextParser) : Bool :=
  p.input[p.pos]? = some slash && p.input[p.pos + 1]? = some slash

/-- `skip_ws`, which calls itself after each comment. -/
def skipWsFuel : Nat → TextParser → TextParser
  | 0, p => p
  | fuel + 1, p =>
    let p := p.skipWhile isspace
    if p.atComment then skipWsFuel fuel (p.skipWhile (· != newline)) else p

/-- One unit of fuel for each unread byte, and one more: a comment has at least two. -/
def skipWs (p : TextParser) : TextParser := skipWsFuel (p.rest.length + 1) p

/-- The loop of `parse_string`, behind the opening quote. -/
def stringLoop : Nat → TextParser → Bytes → Except Fault (Bytes × TextParser)
  | 0, p, out => .ok (out, p)
  | fuel + 1, p, out =>
    if p.eof then .ok (out, p)
    else do
      let (c, p) ← p.consume
      if c = quote then .ok (out, p)
      else if c = backslash then do
        let (n, p) ← p.consume
        stringLoop fuel p (out ++ [unescape n])
      else stringLoop fuel p (out ++ [c])

/-- `parse_string`: behind white space a quote is expected, then the characters up to the closing
    one. -/
def parseString (p : TextParser) : Except Fault (Bytes × TextParser) := do
  let (c, p) ← p.skipWs.consume
  if c != quote then runtimeError "Expected quote"
  else stringLoop p.rest.length p []

/-- The body both object loops share: a key, then a nested object or a string, stored in `obj`.
    `parseObject` is the recursive call. -/
def parseEntry (parseObject : TextParser → Except Fault (Object × TextParser)) (p : TextParser)
    (obj : Object) : Except Fault (Object × TextParser) := do
  let (key, p) ← p.parseString
  let p := p.skipWs
  let c ← p.peek
  if c = lbrace then do
    let (_, p) ← p.consume
    let (val, p) ← parseObject p
    .ok (obj.set key (.object val), p)
  else do
    let (val, p) ← p.parseString
    .ok (obj.set key (.string val), p)

/-- The loop of `parse_object`, with the object built so far. -/
def objectLoop : Nat → TextParser → Object → Except Fault (Object × TextParser)
  | 0, _, _ => .error .diverges
  | fuel + 1, p, obj => do
    let p := p.skipWs
    let c ← p.peek
    if c = rbrace then do
      let (_, p) ← p.consume
      .ok (obj, p)
    else do
      let (obj, p) ← p.parseEntry (objectLoop fuel · .empty) obj
      objectLoop fuel p obj

/-- The loop of `parse`, with the root built so far.  Nested objects get the same fuel. -/
def parseLoop : Nat → TextParser → Object → Except Fault Object
  | 0, _, _ => .error .diverges
  | fuel + 1, p, root =>
    if p.eof then .ok root
    else
      let p := p.skipWs
      if p.eof then .ok root
      else do
        let (root, p) ← p.parseEntry (objectLoop fuel · .empty) root
        parseLoop fuel p root

end TextParser

/-- `parse_text`: every turn of a loop and every nested call takes at least one byte. -/
def parseText (text : Bytes) : Except Fault Object :=
  TextParser.parseLoop (text.length + 1) ⟨text, 0⟩ .empty

end SteamMin.Vdf
