/-!
# Text in markup

The five characters that markup gives a meaning are written as entities.  `unescape` puts them back in one pass
from left to right, so it undoes `escape` even on a text that already looks escaped.
-/

namespace AppLauncher.Text.Markup

/-- One character of the text as markup. -/
def escapeChar : Char → List Char
  | '&' => ['&', 'a', 'm', 'p', ';']
  | '<' => ['&', 'l', 't', ';']
  | '>' => ['&', 'g', 't', ';']
  | '"' => ['&', 'q', 'u', 'o', 't', ';']
  | '\'' => ['&', '#', '3', '9', ';']
  | c => [c]

/-- The text as markup. -/
def escape (cs : List Char) : List Char := cs.flatMap escapeChar

/-- The markup with its entities put back. -/
def unescape : List Char → List Char
  | '&' :: 'a' :: 'm' :: 'p' :: ';' :: r => '&' :: unescape r
  | '&' :: 'l' :: 't' :: ';' :: r => '<' :: unescape r
  | '&' :: 'g' :: 't' :: ';' :: r => '>' :: unescape r
  | '&' :: 'q' :: 'u' :: 'o' :: 't' :: ';' :: r => '"' :: unescape r
  | '&' :: '#' :: '3' :: '9' :: ';' :: r => '\'' :: unescape r
  | c :: r => c :: unescape r
  | [] => []

end AppLauncher.Text.Markup
