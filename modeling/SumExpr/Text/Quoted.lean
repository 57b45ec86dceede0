import SumExpr.Text.Printable

/-! Texts in quotes, as messages show them: what is not printable is written by its code point. -/

namespace SumExpr.Text

def quoteFor (text : Text) : Char :=
  if '\x27' ∈ text ∧ '\x22' ∉ text then '\x22' else '\x27'

def escapeCode (c : Char) : Text :=
  if c.toNat < 0x100 then '\\' :: 'x' :: hex 2 c.toNat
  else if c.toNat < 0x10000 then '\\' :: 'u' :: hex 4 c.toNat
  else '\\' :: 'U' :: hex 8 c.toNat

def escape (quote c : Char) : Text :=
  if c = quote ∨ c = '\\' then ['\\', c]
  else if c = '\t' then ['\\', 't']
  else if c = '\n' then ['\\', 'n']
  else if c = '\r' then ['\\', 'r']
  else if isPrintable c then [c]
  else escapeCode c

def quoted (text : Text) : Text :=
  [quoteFor text] ++ text.flatMap (escape (quoteFor text)) ++ [quoteFor text]

end SumExpr.Text
