/-
The tokens of a JSON text. The scanner is one step per character: its state is what has been read of
the current token, and the tokens found so far. A text has tokens exactly if every character is
accepted and the last token is complete.

Strings may escape a character outside the basic plane as a pair of surrogates. A surrogate without
its partner makes the string unpaired (`Token.unpaired`); the scanner goes on, since such a string
can stand in a value that nobody reads.
-/
import ControlPlane.Numeral

namespace ControlPlane.Json

/-- A token of a JSON text. -/
inductive Token where
  | openArray
  | closeArray
  | openObject
  | closeObject
  | comma
  | colon
  | null
  | bool (b : Bool)
  | natural (n : Nat)
  | number (literal : String)
  | string (s : String)
  | unpaired
deriving Repr, DecidableEq

namespace Token

/-! ## Numbers and words -/

/-- Whether the text is a fraction and an exponent, each of them optional. -/
def isFractionExponent (text : List Char) : Bool :=
  let exponent : List Char → Bool
    | [] => true
    | e :: rest =>
      let digits := match rest with
        | '+' :: ds => ds
        | '-' :: ds => ds
        | ds => ds
      (e == 'e' || e == 'E') && !digits.isEmpty && digits.all Char.isDigit
  match text with
  | '.' :: rest => !(rest.takeWhile Char.isDigit).isEmpty && exponent (rest.dropWhile Char.isDigit)
  | rest => exponent rest

/-- The token of a number: an integer part without leading zeros, then fraction and exponent. -/
def ofNumber? (text : List Char) : Option Token :=
  let unsigned := match text with
    | '-' :: rest => rest
    | rest => rest
  let digits := unsigned.takeWhile Char.isDigit
  let rest := unsigned.dropWhile Char.isDigit
  if digits.isEmpty || (digits.length > 1 && digits.head? == some '0') || !isFractionExponent rest then
    none
  else if rest.isEmpty && digits.length == text.length then
    some (.natural (Nat.ofDigitChars 10 digits 0))
  else
    some (.number (String.ofList text))

/-- The token of a bare word. -/
def ofWord? (text : List Char) : Option Token :=
  if text = ['n', 'u', 'l', 'l'] then some .null
  else if text = ['t', 'r', 'u', 'e'] then some (.bool true)
  else if text = ['f', 'a', 'l', 's', 'e'] then some (.bool false)
  else none

/-! ## Strings -/

/-- What has been read of a string. -/
structure Quoted where
  /-- The characters so far, the last one first. -/
  chars : List Char
  /-- The high surrogate just read, whose partner may follow. -/
  high : Option Nat
  /-- Every surrogate so far has its partner, apart from `high`. -/
  paired : Bool

namespace Quoted

def empty : Quoted := ⟨[], none, true⟩

/-- The string with one more character. -/
def push (q : Quoted) (c : Char) : Quoted :=
  ⟨c :: q.chars, none, q.paired && q.high.isNone⟩

/-- The string with one more escaped code unit. -/
def pushUnit (q : Quoted) (unit : Nat) : Quoted :=
  if 0xD800 ≤ unit ∧ unit < 0xDC00 then ⟨q.chars, some unit, q.paired && q.high.isNone⟩
  else if 0xDC00 ≤ unit ∧ unit < 0xE000 then
    match q.high with
    | some high =>
      ⟨Char.ofNat (0x10000 + (high - 0xD800) * 0x400 + (unit - 0xDC00)) :: q.chars, none, q.paired⟩
    | none => ⟨q.chars, none, false⟩
  else q.push (Char.ofNat unit)

/-- The token of a complete string. -/
def token (q : Quoted) : Token :=
  if q.paired && q.high.isNone then .string (String.ofList q.chars.reverse) else .unpaired

end Quoted

/-- The character that an escape letter stands for. -/
def unescape? : Char → Option Char
  | '"' => some '"'
  | '\\' => some '\\'
  | '/' => some '/'
  | 'b' => some '\x08'
  | 'f' => some '\x0c'
  | 'n' => some '\n'
  | 'r' => some '\r'
  | 't' => some '\t'
  | _ => none

/-! ## The scanner -/

/-- What has been read of the current token. -/
inductive Current where
  | none
  /-- The letters of a word, the last one first. -/
  | word (letters : List Char)
  /-- The characters of a number, the last one first. -/
  | numeral (chars : List Char)
  | quoted (q : Quoted)
  /-- A string that ends in a backslash. -/
  | escape (q : Quoted)
  /-- A string that ends in a code unit of which `missing` digits are to come. -/
  | codeUnit (q : Quoted) (missing unit : Nat)

/-- The state of the scanner: the tokens so far, the last one first, and the current token. -/
structure Scan where
  tokens : List Token
  current : Current

namespace Scan

def start : Scan := ⟨[], .none⟩

/-- Reads a character between two tokens. -/
def between? (tokens : List Token) (c : Char) : Option Scan :=
  match c with
  | ' ' | '\t' | '\n' | '\r' => some ⟨tokens, .none⟩
  | '[' => some ⟨.openArray :: tokens, .none⟩
  | ']' => some ⟨.closeArray :: tokens, .none⟩
  | '\x7b' => some ⟨.openObject :: tokens, .none⟩
  | '\x7d' => some ⟨.closeObject :: tokens, .none⟩
  | ',' => some ⟨.comma :: tokens, .none⟩
  | ':' => some ⟨.colon :: tokens, .none⟩
  | '"' => some ⟨tokens, .quoted .empty⟩
  | _ =>
    if c = '-' || c.isDigit then some ⟨tokens, .numeral [c]⟩
    else if c.isLower then some ⟨tokens, .word [c]⟩
    else none

/-- Whether a number goes on with the character. -/
def continuesNumber (c : Char) : Bool :=
  c.isDigit || c == '.' || c == 'e' || c == 'E' || c == '+' || c == '-'

/-- Reads one character. -/
def step? (s : Scan) (c : Char) : Option Scan :=
  match s.current with
  | .none => between? s.tokens c
  | .word letters =>
    if c.isLower then some ⟨s.tokens, .word (c :: letters)⟩
    else (ofWord? letters.reverse).bind fun t => between? (t :: s.tokens) c
  | .numeral chars =>
    if continuesNumber c then some ⟨s.tokens, .numeral (c :: chars)⟩
    else (ofNumber? chars.reverse).bind fun t => between? (t :: s.tokens) c
  | .quoted q =>
    if c = '"' then some ⟨q.token :: s.tokens, .none⟩
    else if c = '\\' then some ⟨s.tokens, .escape q⟩
    else if c.toNat < 0x20 then none
    else some ⟨s.tokens, .quoted (q.push c)⟩
  | .escape q =>
    if c = 'u' then some ⟨s.tokens, .codeUnit q 4 0⟩
    else (unescape? c).map fun c => ⟨s.tokens, .quoted (q.push c)⟩
  | .codeUnit q missing unit =>
    (Numeral.hexDigit? c).map fun d =>
      let unit := unit * 16 + d
      if missing ≤ 1 then ⟨s.tokens, .quoted (q.pushUnit unit)⟩
      else ⟨s.tokens, .codeUnit q (missing - 1) unit⟩

/-- The tokens in order, if the last one is complete. -/
def finish? (s : Scan) : Option (List Token) :=
  match s.current with
  | .none => some s.tokens.reverse
  | .word letters => (ofWord? letters.reverse).map fun t => (t :: s.tokens).reverse
  | .numeral chars => (ofNumber? chars.reverse).map fun t => (t :: s.tokens).reverse
  | _ => none

end Scan

/-- The tokens of a text. -/
def scan? (text : String) : Option (List Token) :=
  (text.toList.foldlM Scan.step? .start).bind Scan.finish?

end Token

end ControlPlane.Json
