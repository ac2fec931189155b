import FluentWrappers.Text.Unicode

/-!
# Texts

Every text has one form as bytes; a list of bytes that is not well-formed stands for no text. White
space is the Unicode property of that name, and names that hold nothing else count as not given.
Numerals are lower-case hexadecimal digits, bytes as pairs of them, and decimal numerals of signed
numbers. In messages text stands in double quotes: quotes, backslashes and the common control
characters are escaped by a letter, other characters without a glyph by their code point.
-/

namespace FluentWrappers.Text

/-! ### Text as bytes -/

def utf8 (text : String) : List UInt8 :=
  text.toByteArray.data.toList

def ofUtf8? (bytes : List UInt8) : Option String :=
  String.fromUTF8? ⟨bytes.toArray⟩

@[simp] theorem ofUtf8?_utf8 (text : String) : ofUtf8? (utf8 text) = some text := by
  simp only [ofUtf8?, utf8, String.fromUTF8?, Array.toArray_toList]
  exact dif_pos text.isValidUTF8

theorem utf8_of_ofUtf8? {bytes : List UInt8} {text : String} (h : ofUtf8? bytes = some text) :
    utf8 text = bytes := by
  simp only [ofUtf8?, String.fromUTF8?] at h
  split at h
  · obtain rfl := Option.some.inj h
    simp [utf8, String.fromUTF8]
  · simp at h

/-! ### Blank text -/

def isSpace (c : Char) : Bool :=
  let point := c.toNat
  (9 ≤ point && point ≤ 13) || point == 0x20 || point == 0x85 || point == 0xa0 || point == 0x1680 ||
    (0x2000 ≤ point && point ≤ 0x200a) || point == 0x2028 || point == 0x2029 || point == 0x202f ||
    point == 0x205f || point == 0x3000

def isBlank (text : String) : Bool :=
  text.toList.all isSpace

def notBlank? (text : String) : Option String :=
  if isBlank text then none else some text

/-! ### Numerals -/

def hexDigit (value : Nat) : Char :=
  if value < 10 then Char.ofNat (48 + value) else Char.ofNat (87 + value)

def hexValue? (c : Char) : Option Nat :=
  if '0' ≤ c ∧ c ≤ '9' then some (c.toNat - 48)
  else if 'a' ≤ c ∧ c ≤ 'f' then some (c.toNat - 87)
  else if 'A' ≤ c ∧ c ≤ 'F' then some (c.toNat - 55)
  else none

def hexDigits (value : Nat) : List Char :=
  if value < 16 then [hexDigit value] else hexDigits (value / 16) ++ [hexDigit (value % 16)]
termination_by value

def hex (value : Nat) : String :=
  String.ofList (hexDigits value)

def paddedHex (width value : Nat) : String :=
  let digits := hexDigits value
  String.ofList (List.replicate (width - digits.length) '0' ++ digits)

/-- A number in hexadecimal after the mark `0x`. -/
def markedHex (value : Nat) : String :=
  "0x" ++ hex value

def paddedDecimal (width value : Nat) : String :=
  let digits := Nat.toDigits 10 value
  String.ofList (List.replicate (width - digits.length) '0' ++ digits)

def hexOfBytes (bytes : List UInt8) : String :=
  String.ofList (bytes.flatMap fun b => [hexDigit (b.toNat / 16), hexDigit (b.toNat % 16)])

def bytesOfHexDigits? : List Char → Option (List UInt8)
  | [] => some []
  | [_] => none
  | high :: low :: rest => do
    let h ← hexValue? high
    let l ← hexValue? low
    let bytes ← bytesOfHexDigits? rest
    pure (UInt8.ofNat (16 * h + l) :: bytes)

def bytesOfHex? (text : String) : Option (List UInt8) :=
  bytesOfHexDigits? text.toList

def decimalValue? : Nat → List Char → Option Nat
  | value, [] => some value
  | value, c :: rest => if c.isDigit then decimalValue? (10 * value + (c.toNat - 48)) rest else none

def natOfDecimal? (digits : List Char) : Option Nat :=
  match digits with
  | [] => none
  | _ => decimalValue? 0 digits

def intOfDecimal? (text : String) : Option Int :=
  match text.toList with
  | '-' :: digits => (natOfDecimal? digits).map fun n => -(n : Int)
  | '+' :: digits => (natOfDecimal? digits).map Int.ofNat
  | digits => (natOfDecimal? digits).map Int.ofNat

/-! ### Quoted text -/

def quotedChar (c : Char) : List Char :=
  if c = '\x00' then ['\\', '0']
  else if c = '\t' then ['\\', 't']
  else if c = '\n' then ['\\', 'n']
  else if c = '\r' then ['\\', 'r']
  else if c = '"' then ['\\', '"']
  else if c = '\\' then ['\\', '\\']
  else if isPrintable c then [c]
  else ['\\', 'u', '\x7b'] ++ hexDigits c.toNat ++ ['\x7d']

def quoted (text : String) : String :=
  String.ofList ('"' :: text.toList.flatMap quotedChar ++ ['"'])

end FluentWrappers.Text
