import RemoteAgent.Text.Utf8

/-!
# Captured error output

Error output is captured line by line while less than a limit is held. A line is held whole or not
at all, and each is decoded by itself. -/

namespace RemoteAgent

/-- Error output being captured: the line that has begun, last byte first, and the text held. -/
structure ErrorOutput where
  line : List UInt8
  text : String
  deriving DecidableEq, Repr

namespace ErrorOutput

/-- No line is added to so many bytes or more. -/
def limit : Nat := 32768

def empty : ErrorOutput :=
  ⟨[], ""⟩

/-- Holds the line that has begun, if there is room. -/
def endLine (e : ErrorOutput) : ErrorOutput where
  line := []
  text :=
    if e.text.utf8ByteSize < limit then e.text ++ Text.decodeLossy e.line.reverse else e.text

/-- Takes a byte; a line feed ends the line. -/
def feedByte (e : ErrorOutput) (b : UInt8) : ErrorOutput :=
  let e := { e with line := b :: e.line }
  if b = 10 then e.endLine else e

/-- Takes a piece of the stream. -/
def feed (e : ErrorOutput) (piece : List UInt8) : ErrorOutput :=
  piece.foldl feedByte e

/-- The end of the stream ends the last line. -/
def finish (e : ErrorOutput) : ErrorOutput :=
  if e.line.isEmpty then e else e.endLine

/-- What is captured of a stream that has not ended. -/
def ofPieces (pieces : List (List UInt8)) : ErrorOutput :=
  pieces.foldl feed empty

/-- The text captured of a stream that has ended. -/
def capture (pieces : List (List UInt8)) : String :=
  (ofPieces pieces).finish.text

end ErrorOutput

end RemoteAgent
