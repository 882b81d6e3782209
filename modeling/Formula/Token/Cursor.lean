import Formula.ParseError
import Formula.Token

namespace Formula

structure Cursor where
  source : String
  ahead : List Lexeme
  current : Option Token
  span : Span

namespace Cursor

def ofText (source : String) : Cursor :=
  ⟨source, Token.scan source, none, 0, 0⟩

def next (c : Cursor) : Cursor :=
  match c.ahead with
  | l :: rest => { c with ahead := rest, current := some l.token, span := ⟨l.start, l.stop⟩ }
  | [] =>
    let stop := c.source.utf8ByteSize
    { c with current := none, span := ⟨stop, stop⟩ }

def before (c : Cursor) : String :=
  String.ofList (Text.takeBytes c.span.start c.source.toList)

def consumed (c : Cursor) : String :=
  String.ofList (Text.takeBytes c.span.stop c.source.toList)

/-- The positions of a cursor from here on, up to the first at the end of the text. -/
def positions (c : Cursor) : List Cursor :=
  go c c.ahead.length
where
  go (c : Cursor) : Nat → List Cursor
    | 0 => [c, c.next]
    | n + 1 => c :: go c.next n

end Cursor

end Formula
