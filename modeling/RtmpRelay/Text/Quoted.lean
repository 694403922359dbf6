import RtmpRelay.Text.GraphemeExtend
import RtmpRelay.Text.Ignorable
import RtmpRelay.Text.Printable

/-!
Text between double quotes, as it stands in error messages. A quote, a backslash and the usual controls have
two-character escapes; what could not be seen on its own is written by its code point.
-/

namespace RtmpRelay.Text.Quoted

def codePoint (char : Char) : String :=
  "\\u\x7b" ++ String.ofList (Nat.toDigits 16 char.toNat) ++ "\x7d"

/-- The halfwidth sound marks, the only letters that extend the character before them. They have a width of
their own. -/
def soundMarks : CodePoints :=
  [(0xff9e, 0xff9f)]

/-- Whether a character shows on its own, and not only as part of the one before it. -/
def isVisible (char : Char) : Bool :=
  isPrintable char && !isIgnorable char && (!extendsGrapheme char || soundMarks.contains char)

def escape (char : Char) : String :=
  match char with
  | '\x00' => "\\0"
  | '\t' => "\\t"
  | '\r' => "\\r"
  | '\n' => "\\n"
  | '"' => "\\\""
  | '\\' => "\\\\"
  | _ => if isVisible char then char.toString else codePoint char

def encode (text : String) : String :=
  "\"" ++ text.toList.foldl (fun written char => written ++ escape char) "" ++ "\""

end RtmpRelay.Text.Quoted
