import ObjectDepot.Json.Kind

/-!
Reading JSON from bytes. The reader goes through the bytes once; an error names what is wrong and
the line and column reached, the byte that could not be accepted counted as reached. At most 127
arrays and objects may be open at once.
-/

namespace ObjectDepot.Json

inductive Fault where
  | endInValue
  | endInList
  | endInObject
  | endInString
  | expectedValue
  | expectedIdent
  | expectedColon
  | expectedListEnd
  | expectedObjectEnd
  | keyNotString
  | trailingComma
  | trailingCharacters
  | invalidNumber
  | numberOutOfRange
  | invalidEscape
  | invalidCodePoint
  | controlCharacter
  | loneSurrogate
  | unfinishedPair
  | tooDeep
  | wrongKind (value : Json) (wanted : String)

def Fault.message : Fault → String
  | .endInValue => "EOF while parsing a value"
  | .endInList => "EOF while parsing a list"
  | .endInObject => "EOF while parsing an object"
  | .endInString => "EOF while parsing a string"
  | .expectedValue => "expected value"
  | .expectedIdent => "expected ident"
  | .expectedColon => "expected `:`"
  | .expectedListEnd => "expected `,` or `]`"
  | .expectedObjectEnd => "expected `,` or `\x7d`"
  | .keyNotString => "key must be a string"
  | .trailingComma => "trailing comma"
  | .trailingCharacters => "trailing characters"
  | .invalidNumber => "invalid number"
  | .numberOutOfRange => "number out of range"
  | .invalidEscape => "invalid escape"
  | .invalidCodePoint => "invalid unicode code point"
  | .controlCharacter => "control character (\\u0000-\\u001F) found while parsing a string"
  | .loneSurrogate => "lone leading surrogate in hex escape"
  | .unfinishedPair => "unexpected end of hex escape"
  | .tooDeep => "recursion limit exceeded"
  | .wrongKind value wanted => value.misfit wanted

/-- Lines count from one; the column is the number of bytes of the line reached. -/
structure Position where
  line : Nat
  column : Nat
  deriving DecidableEq, Repr

def Position.start : Position := ⟨1, 0⟩

def Position.after (p : Position) (b : UInt8) : Position :=
  if b = 10 then ⟨p.line + 1, 0⟩ else ⟨p.line, p.column + 1⟩

structure Malformed where
  fault : Fault
  position : Position

def Malformed.message (e : Malformed) : String :=
  e.fault.message ++ " at line " ++ toString e.position.line ++ " column " ++
    toString e.position.column

structure Cursor where
  rest : List UInt8
  position : Position

namespace Cursor

def ofBytes (bytes : List UInt8) : Cursor := ⟨bytes, .start⟩

def next (c : Cursor) : Cursor :=
  match c.rest with
  | [] => c
  | b :: rest => ⟨rest, c.position.after b⟩

/-- Refuses at what was read last. -/
def failAt {α : Type} (c : Cursor) (fault : Fault) : Except Malformed α :=
  .error ⟨fault, c.position⟩

/-- Refuses the byte that comes next. -/
def failNext {α : Type} (c : Cursor) (fault : Fault) : Except Malformed α :=
  .error ⟨fault, c.next.position⟩

def skipWhile (p : UInt8 → Bool) (c : Cursor) : Cursor := go c.position c.rest
where
  go (position : Position) : List UInt8 → Cursor
    | [] => ⟨[], position⟩
    | b :: rest => if p b then go (position.after b) rest else ⟨b :: rest, position⟩

def skipBlanks (c : Cursor) : Cursor :=
  c.skipWhile (fun b => b = 32 || b = 10 || b = 9 || b = 13)

def startsWith (c : Cursor) (p : UInt8 → Bool) : Bool :=
  match c.rest with
  | [] => false
  | b :: _ => p b

end Cursor

def isDigit (b : UInt8) : Bool := 48 ≤ b && b ≤ 57

def digitValue (b : UInt8) : Nat := b.toNat - 48

/-! ### Words -/

/-- Reads the rest of `true`, `false` or `null`. -/
def word (value : Json) : List UInt8 → Cursor → Except Malformed (Json × Cursor)
  | [], c => .ok (value, c)
  | w :: ws, c =>
    match c.rest with
    | [] => c.failAt .endInValue
    | b :: _ => if b = w then word value ws c.next else c.next.failAt .expectedIdent

/-! ### Numbers -/

/-- Takes digits into a significand as long as it stays below `2 ^ 64`, and counts them. -/
def takeDigits (significand : Nat) (c : Cursor) : Nat × Nat × Cursor :=
  go significand 0 c.position c.rest
where
  go (s n : Nat) (position : Position) : List UInt8 → Nat × Nat × Cursor
    | [] => (s, n, ⟨[], position⟩)
    | b :: rest =>
      if isDigit b && s * 10 + digitValue b < Nat.pow 2 64 then
        go (s * 10 + digitValue b) (n + 1) (position.after b) rest
      else (s, n, ⟨b :: rest, position⟩)

def passDigits (c : Cursor) : Nat × Cursor := go 0 c.position c.rest
where
  go (n : Nat) (position : Position) : List UInt8 → Nat × Cursor
    | [] => (n, ⟨[], position⟩)
    | b :: rest =>
      if isDigit b then go (n + 1) (position.after b) rest else (n, ⟨b :: rest, position⟩)

def powerOfTen? (k : Nat) : Option Magnitude := Magnitude.ofRatio? (Nat.pow 10 k) 1

/-- The significand as a double, times or divided by a power of ten as a double. Powers beyond 308
are divided by in two steps, after which nothing is left of any significand. -/
def scaled? (significand : Nat) (exponent : Int) : Option Magnitude := do
  let m ← Magnitude.ofRatio? significand 1
  match exponent with
  | .ofNat k =>
    if k ≤ 308 then m.mul? (← powerOfTen? k)
    else if significand = 0 then some .zero
    else none
  | .negSucc k =>
    if k + 1 ≤ 308 then m.div? (← powerOfTen? (k + 1))
    else if k + 1 ≤ 616 then do
      let part ← m.div? (← powerOfTen? 308)
      part.div? (← powerOfTen? (k + 1 - 308))
    else some .zero

def finish (negative : Bool) (significand : Nat) (exponent : Int) (c : Cursor) :
    Except Malformed (Json × Cursor) :=
  match scaled? significand exponent with
  | some m => .ok (.double ⟨negative, m⟩, c)
  | none => c.failAt .numberOutOfRange

/-- Reads the digits of an exponent below `2 ^ 31`; none when it is larger, with the cursor behind
the digit that made it so. -/
def exponentDigits (e : Nat) (c : Cursor) : Option Nat × Cursor := go e c.position c.rest
where
  go (e : Nat) (position : Position) : List UInt8 → Option Nat × Cursor
    | [] => (some e, ⟨[], position⟩)
    | b :: rest =>
      if isDigit b then
        if e * 10 + digitValue b < Nat.pow 2 31 then
          go (e * 10 + digitValue b) (position.after b) rest
        else (none, ⟨rest, position.after b⟩)
      else (some e, ⟨b :: rest, position⟩)

/-- Reads an exponent behind its `e` and ends the number. -/
def exponentPart (negative : Bool) (significand : Nat) (exponent : Int) (c : Cursor) :
    Except Malformed (Json × Cursor) :=
  let down := c.startsWith (· = 45)
  let c := if c.startsWith (fun b => b = 43 || b = 45) then c.next else c
  match c.rest with
  | [] => c.failAt .endInValue
  | b :: _ =>
    if isDigit b then
      match exponentDigits (digitValue b) c.next with
      | (some e, c) => finish negative significand (if down then exponent - e else exponent + e) c
      | (none, c) =>
        if significand ≠ 0 && !down then c.failAt .numberOutOfRange
        else .ok (.double ⟨negative, .zero⟩, (passDigits c).2)
    else c.next.failAt .invalidNumber

def isExponentMark (b : UInt8) : Bool := b = 101 || b = 69

/-- Reads a fraction behind its point. Digits that the significand cannot take are dropped. -/
def fractionPart (negative : Bool) (significand : Nat) (exponent : Int) (c : Cursor) :
    Except Malformed (Json × Cursor) :=
  if c.startsWith isDigit then
    let (s, n, c) := takeDigits significand c
    let c := (passDigits c).2
    if c.startsWith isExponentMark then exponentPart negative s (exponent - n) c.next
    else finish negative s (exponent - n) c
  else
    match c.rest with
    | [] => c.failNext .endInValue
    | _ :: _ => c.failNext .invalidNumber

/-- Ends a number behind its integer part. A whole number in the range of 64 bits is an integer, but
not `-0`. -/
def afterInteger (negative : Bool) (significand : Nat) (c : Cursor) :
    Except Malformed (Json × Cursor) :=
  let (dropped, c) := passDigits c
  if c.startsWith (· = 46) then fractionPart negative significand dropped c.next
  else if c.startsWith isExponentMark then exponentPart negative significand dropped c.next
  else if dropped = 0 && !negative then .ok (.int significand, c)
  else if dropped = 0 && significand ≠ 0 && significand ≤ Nat.pow 2 63 then
    .ok (.int (-significand), c)
  else finish negative significand dropped c

/-- Reads a number, the sign already behind. -/
def number (negative : Bool) (c : Cursor) : Except Malformed (Json × Cursor) :=
  match c.rest with
  | [] => c.failAt .endInValue
  | b :: _ =>
    if b = 48 then
      if c.next.startsWith isDigit then c.next.failNext .invalidNumber
      else afterInteger negative 0 c.next
    else if isDigit b then
      let (s, _, c) := takeDigits 0 c
      afterInteger negative s c
    else c.next.failAt .invalidNumber

/-! ### Strings -/

def hexUnit (c : Cursor) : Except Malformed (Nat × Cursor) :=
  match c.rest with
  | x :: y :: z :: w :: _ =>
    let after := c.next.next.next.next
    match Text.hexValue? x, Text.hexValue? y, Text.hexValue? z, Text.hexValue? w with
    | some x, some y, some z, some w => .ok (((x * 16 + y) * 16 + z) * 16 + w, after)
    | _, _, _, _ => after.failAt .invalidEscape
  | _ => (c.skipWhile (fun _ => true)).failAt .endInString

def expectByte (b : UInt8) (c : Cursor) : Except Malformed Cursor :=
  match c.rest with
  | [] => c.failAt .endInString
  | x :: _ => if x = b then .ok c.next else c.next.failAt .unfinishedPair

/-- Reads the digits behind `\\u`, and the second half of a surrogate pair. -/
def unicodeEscape (c : Cursor) : Except Malformed (List UInt8 × Cursor) := do
  let (n, c) ← hexUnit c
  if 0xDC00 ≤ n ∧ n ≤ 0xDFFF then c.failAt .loneSurrogate
  else if n < 0xD800 ∨ 0xDBFF < n then return (String.utf8EncodeChar (Char.ofNat n), c)
  else
    let c ← expectByte 92 c
    let c ← expectByte 117 c
    let (low, c) ← hexUnit c
    if low < 0xDC00 ∨ 0xDFFF < low then c.failAt .loneSurrogate
    else
      let code := (n - 0xD800) * 0x400 + (low - 0xDC00) + 0x10000
      return (String.utf8EncodeChar (Char.ofNat code), c)

def escape (c : Cursor) : Except Malformed (List UInt8 × Cursor) :=
  match c.rest with
  | [] => c.failAt .endInString
  | b :: _ =>
    if b = 34 || b = 92 || b = 47 then .ok ([b], c.next)
    else if b = 98 then .ok ([8], c.next)
    else if b = 102 then .ok ([12], c.next)
    else if b = 110 then .ok ([10], c.next)
    else if b = 114 then .ok ([13], c.next)
    else if b = 116 then .ok ([9], c.next)
    else if b = 117 then unicodeEscape c.next
    else c.next.failAt .invalidEscape

/-- Reads a string up to its closing quote, collecting its bytes in reverse. Only then are they
checked to be UTF-8. The number bounds the bytes that are left. -/
def stringRest (collected : List UInt8) : Nat → Cursor → Except Malformed (String × Cursor)
  | 0, c => c.failAt .endInString
  | fuel + 1, c =>
    match c.rest with
    | [] => c.failAt .endInString
    | b :: _ =>
      if b = 34 then
        match String.fromUTF8? ⟨collected.reverse.toArray⟩ with
        | some s => .ok (s, c.next)
        | none => c.next.failAt .invalidCodePoint
      else if b = 92 then
        match escape c.next with
        | .ok (bytes, c) => stringRest (bytes.reverse ++ collected) fuel c
        | .error e => .error e
      else if b < 32 then c.next.failAt .controlCharacter
      else stringRest (b :: collected) fuel c.next

/-! ### Values -/

/-- Reads a value that is neither an array nor an object and starts with the given byte. -/
def scalar (fuel : Nat) (b : UInt8) (c : Cursor) : Except Malformed (Json × Cursor) :=
  if b = 110 then word .null [117, 108, 108] c.next
  else if b = 116 then word (.bool true) [114, 117, 101] c.next
  else if b = 102 then word (.bool false) [97, 108, 115, 101] c.next
  else if b = 45 then number true c.next
  else if isDigit b then number false c
  else if b = 34 then (stringRest [] fuel c.next).map (fun r => (.str r.1, r.2))
  else c.failNext .expectedValue

/-- Reads a member's name and the colon behind it, the opening quote already behind. -/
def memberName (fuel : Nat) (c : Cursor) : Except Malformed (String × Cursor) := do
  let (name, c) ← stringRest [] fuel c
  let c := c.skipBlanks
  match c.rest with
  | [] => c.failNext .endInObject
  | b :: _ => if b = 58 then return (name, c.next) else c.failNext .expectedColon

mutual

/-- Reads a value; `depth - 1` arrays and objects may still be opened. -/
def value (depth : Nat) : Nat → Cursor → Except Malformed (Json × Cursor)
  | 0, c => c.failNext .expectedValue
  | fuel + 1, c =>
    let c := c.skipBlanks
    match c.rest with
    | [] => c.failNext .endInValue
    | b :: _ =>
      if b = 91 then
        if depth ≤ 1 then c.failNext .tooDeep
        else (items (depth - 1) true [] fuel c.next).map (fun r => (.arr r.1, r.2))
      else if b = 123 then
        if depth ≤ 1 then c.failNext .tooDeep
        else (members (depth - 1) true .empty fuel c.next).map (fun r => (ofFields r.1, r.2))
      else scalar fuel b c

/-- Reads the items of an array up to its end, those before collected in reverse. -/
def items (depth : Nat) (first : Bool) (collected : List Json) :
    Nat → Cursor → Except Malformed (List Json × Cursor)
  | 0, c => c.failNext .endInList
  | fuel + 1, c =>
    let c := c.skipBlanks
    match c.rest with
    | [] => c.failNext .endInList
    | b :: _ =>
      if b = 93 then .ok (collected.reverse, c.next)
      else if first then
        match value depth fuel c with
        | .ok (v, c) => items depth false (v :: collected) fuel c
        | .error e => .error e
      else if b = 44 then
        let c := c.next.skipBlanks
        match c.rest with
        | [] => c.failNext .endInValue
        | b :: _ =>
          if b = 93 then c.failNext .trailingComma
          else
            match value depth fuel c with
            | .ok (v, c) => items depth false (v :: collected) fuel c
            | .error e => .error e
      else c.failNext .expectedListEnd

/-- Reads the members of an object up to its end, after those already collected. -/
def members (depth : Nat) (first : Bool) (collected : FieldMap) :
    Nat → Cursor → Except Malformed (FieldMap × Cursor)
  | 0, c => c.failNext .endInObject
  | fuel + 1, c =>
    let c := c.skipBlanks
    match c.rest with
    | [] => c.failNext .endInObject
    | b :: _ =>
      if b = 125 then .ok (collected, c.next)
      else if first then
        if b = 34 then
          match memberName fuel c.next with
          | .ok (name, c) =>
            match value depth fuel c with
            | .ok (v, c) => members depth false (collected.insert name v) fuel c
            | .error e => .error e
          | .error e => .error e
        else c.failNext .keyNotString
      else if b = 44 then
        let c := c.next.skipBlanks
        match c.rest with
        | [] => c.failNext .endInValue
        | b :: _ =>
          if b = 34 then
            match memberName fuel c.next with
            | .ok (name, c) =>
              match value depth fuel c with
              | .ok (v, c) => members depth false (collected.insert name v) fuel c
              | .error e => .error e
            | .error e => .error e
          else if b = 125 then c.failNext .trailingComma
          else c.failNext .keyNotString
      else c.failNext .expectedObjectEnd

end

/-! ### Whole texts -/

def depthLimit : Nat := 128

/-- Each byte costs at most two steps, so that more steps than bytes are left at any time. -/
def stepsFor (bytes : List UInt8) : Nat := 2 * bytes.length + 2

/-- Only blanks may follow a value. -/
def atEnd {α : Type} (r : α × Cursor) : Except Malformed α :=
  let c := r.2.skipBlanks
  match c.rest with
  | [] => .ok r.1
  | _ :: _ => c.failNext .trailingCharacters

def readValue (bytes : List UInt8) : Except Malformed Json := do
  atEnd (← value depthLimit (stepsFor bytes) (.ofBytes bytes))

/-- Refuses a value of another kind than the one wanted. An array or an object is not looked into;
any other value is read first. -/
def refuse {α : Type} (wanted : String) (b : UInt8) (c : Cursor) : Except Malformed α :=
  if b = 91 then c.failAt (.wrongKind (.arr []) wanted)
  else if b = 123 then c.failAt (.wrongKind (.obj []) wanted)
  else
    match scalar (stepsFor c.rest) b c with
    | .ok (v, c) => c.failAt (.wrongKind v wanted)
    | .error e => .error e

def readObject (bytes : List UInt8) : Except Malformed FieldMap :=
  let c := (Cursor.ofBytes bytes).skipBlanks
  match c.rest with
  | [] => c.failNext .endInValue
  | b :: _ =>
    if b = 123 then do
      atEnd (← members (depthLimit - 1) true .empty (stepsFor bytes) c.next)
    else refuse "a map" b c

def readList (bytes : List UInt8) : Except Malformed (List Json) :=
  let c := (Cursor.ofBytes bytes).skipBlanks
  match c.rest with
  | [] => c.failNext .endInValue
  | b :: _ =>
    if b = 91 then do
      atEnd (← items (depthLimit - 1) true [] (stepsFor bytes) c.next)
    else refuse "a sequence" b c

end ObjectDepot.Json
