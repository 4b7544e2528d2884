import QuantizedConv.Document.Text

/-!
# Passing over values

A value that is not wanted is passed over without being built, with the open lists and objects kept
on a stack. A passing scan looks no closer than it has to: numbers may be out of range and strings
need not be text. A checking scan reads every number and string, and limits the depth.
-/

set_option autoImplicit false

namespace QuantizedConv.Document

/-- A list or object that is open. -/
inductive Frame where
  /-- A list. -/
  | list
  /-- An object. -/
  | object
deriving DecidableEq, Repr

namespace Frame

/-- The byte that closes a frame. -/
def closer : Frame → UInt8
  | .list => byte ']'
  | .object => byte '\x7d'

/-- The problem of a text that ends inside a frame. -/
def ended : Frame → Problem
  | .list => .endInList
  | .object => .endInObject

/-- The problem of an item that is followed by something else than a comma or the end. -/
def expectedEnd : Frame → Problem
  | .list => .expectedListEnd
  | .object => .expectedObjectEnd

end Frame

/-- How closely a scan looks. -/
structure ScanRules where
  /-- Takes a number. -/
  number : Reader Unit
  /-- Takes a string behind its opening quote. -/
  string : Reader Unit
  /-- The depth at which nesting is refused. -/
  depthLimit : Option Nat

/-- What a scan takes next. -/
inductive ScanState where
  /-- The first item of the innermost frame, or its end. -/
  | first
  /-- A comma and another item of the innermost frame, or its end. -/
  | next
deriving DecidableEq, Repr

/-- Whether one more frame on the stack is refused. -/
def ScanRules.refusesFrameOn (rules : ScanRules) (stack : List Frame) : Bool :=
  match rules.depthLimit with
  | some limit => limit ≤ stack.length + 1
  | none => false

/-- Takes the key of an item, where it has one. -/
def scanKey (rules : ScanRules) : Frame → Reader Unit
  | .list => return ()
  | .object => do
    match ← peek with
    | none => throw .endInObject
    | some b =>
      if b = byte '"' then
        advance
        rules.string
        colon
      else throw .keyNotString

/-- Takes a value that is neither a list nor an object. -/
def scanScalar (rules : ScanRules) (b : UInt8) : Reader Unit := do
  if b = byte 'n' then
    advance
    literal ['u', 'l', 'l']
  else if b = byte 't' then
    advance
    literal ['r', 'u', 'e']
  else if b = byte 'f' then
    advance
    literal ['a', 'l', 's', 'e']
  else if startsNumber b then rules.number
  else if b = byte '"' then
    advance
    rules.string
  else throw .expectedValue

/-- The frame that a byte opens. -/
def frameOf? (b : UInt8) : Option Frame :=
  if b = byte '[' then some .list else if b = byte '\x7b' then some .object else none

/-- Takes a scalar or the opening of a list or object. -/
def scanItem (rules : ScanRules) (stack : List Frame) : Reader (ScanState × List Frame) := do
  let b ← peekValue
  match frameOf? b with
  | some frame =>
    if rules.refusesFrameOn stack then throw .nestedTooDeeply
    advance
    return (.first, frame :: stack)
  | none =>
    scanScalar rules b
    return (.next, stack)

/-- Takes the next item of the innermost frame, or its end. -/
def scanStep (rules : ScanRules) (state : ScanState) (frame : Frame) (stack : List Frame) :
    Reader (ScanState × List Frame) := do
  match ← peek with
  | none => throw frame.ended
  | some b =>
    if b = frame.closer then
      advance
      return (.next, stack)
    else
      if state = .next then
        if b = byte ',' then advance else throw frame.expectedEnd
      scanKey rules frame
      scanItem rules (frame :: stack)

/-- Takes the rest of the open frames. Every step takes a byte, so the bytes in front of the first
step bound their number. -/
def scanSteps (rules : ScanRules) : Bytes → ScanState → List Frame → Reader Unit
  | _, _, [] => return ()
  | [], _, frame :: _ => throw frame.ended
  | _ :: bytes, state, frame :: stack => do
    let (state, stack) ← scanStep rules state frame stack
    scanSteps rules bytes state stack

/-- Takes one value. -/
def scan (rules : ScanRules) : Reader Unit := do
  let (state, stack) ← scanItem rules []
  scanSteps rules (← get) state stack

/-- Passes over at least one digit. -/
def passDigits : Reader Unit := do
  if (← digits).isEmpty then throw .invalidNumber

/-- Passes over an exponent, where there is one. -/
def passExponent : Reader Unit := do
  let mark ← front
  if mark = some (byte 'e') ∨ mark = some (byte 'E') then
    advance
    let sign ← front
    if sign = some (byte '+') ∨ sign = some (byte '-') then advance
    passDigits

/-- Passes over a number, however large it is. -/
def passNumber : Reader Unit := do
  if (← front) = some (byte '-') then advance
  let whole ← digits
  match whole with
  | [] => throw .invalidNumber
  | lead :: more => if lead = 0 ∧ !more.isEmpty then throw .invalidNumber
  if (← front) = some (byte '.') then
    advance
    passDigits
  passExponent

/-- Passes over a value. -/
def passValue : Reader Unit :=
  scan {
    number := passNumber
    string := fun bytes => do
      let rest ← passString bytes
      .ok ((), rest)
    depthLimit := none }

/-- The depth at which nesting is refused inside the outermost object. -/
def nestingLimit : Nat := 127

/-- Takes a value inside the outermost object and checks all of it. -/
def checkValue : Reader Unit :=
  scan {
    number := do let _ ← number
    string := do let _ ← text
    depthLimit := some nestingLimit }

end QuantizedConv.Document
