import DecoderGen.Text.Unprintable

/-! # Quoted text in messages

A text shown inside a message stands between double quotes. Quotes and backslashes are escaped,
characters that cannot be shown are written by name or by their code point.
-/

namespace DecoderGen.Text

/-- A code point in hexadecimal digits between braces. -/
def codePointEscape (symbol : Char) : List Char :=
  ['\\', 'u', '\x7b'] ++ Nat.toDigits 16 symbol.toNat ++ ['\x7d']

/-- The form of one character inside a quoted text. -/
def quotedSymbol : Char → List Char
  | '\x00' => ['\\', '0']
  | '\t' => ['\\', 't']
  | '\r' => ['\\', 'r']
  | '\n' => ['\\', 'n']
  | '\\' => ['\\', '\\']
  | '"' => ['\\', '"']
  | symbol => if isUnprintable symbol then codePointEscape symbol else [symbol]

/-- A text between double quotes, fit for a message. -/
def quoted (text : String) : String :=
  String.ofList ('"' :: text.toList.flatMap quotedSymbol ++ ['"'])

end DecoderGen.Text
