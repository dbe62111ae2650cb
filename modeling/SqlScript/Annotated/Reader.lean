/-
Cutting what a source gives into blocks.  Its bytes are taken line by line, and
each line is decoded by itself, before the next one is taken.
-/
import SqlScript.Annotated.Builder
import SqlScript.Splitter.Run

namespace SqlScript

/-- The lines of some bytes, each with the newline that ends it. -/
def byteLines (bytes : Bytes) : List Bytes :=
  Text.cutBehind (· == 0x0a) bytes

/-- The bytes through the last newline. -/
def completeLines (bytes : Bytes) : Bytes :=
  (bytes.reverse.dropWhile (· != 0x0a)).reverse

/-- The text of one line, without its ending. -/
def readLine (line : Bytes) : Except ReadError Text :=
  match Utf8.decode? line with
  | none => .error .invalidLine
  | some t => .ok (Text.withoutEnding t)

/-- What a source gives to a reader that takes one line after the other.  When
the source fails, the line that it breaks off is never seen. -/
def Source.lines (source : Source) : List (Except ReadError Text) :=
  match source.ending with
  | .endOfInput => (byteLines source.bytes).map readLine
  | .failure reason =>
      (byteLines (completeLines source.bytes)).map readLine ++ [.error (.failed reason)]

/-- Take in lines as they are read.  The first error ends it all, blocks that
were found are lost, and nothing has been reported until then. -/
def BlockBuilder.readAll (tool : Text) (builder : BlockBuilder) :
    List (Except ReadError Text) → Logged AnnotatedSplit
  | [] => ⟨.ok (builder.finish tool), (builder.finish tool).log⟩
  | .ok line :: others => readAll tool (builder.push tool line) others
  | .error e :: _ => ⟨.error e, []⟩

/-- Cut what a source gives into blocks, with what is reported on the way. -/
def readAnnotated (tool : Text) (source : Source) : Logged AnnotatedSplit :=
  BlockBuilder.readAll tool {} source.lines

/-- Cut what a source gives into blocks. -/
def splitAnnotatedSource (tool : Text) (source : Source) : Except ReadError AnnotatedSplit :=
  (readAnnotated tool source).answer

end SqlScript
